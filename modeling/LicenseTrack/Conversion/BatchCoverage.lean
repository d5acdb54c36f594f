import LicenseTrack.Conversion.OrderEffect
import LicenseTrack.Conversion.PlannedEffect
import Mathlib.Data.List.Count
import Mathlib.Data.List.Sort

/-! A batch names the lines of an order that still have to be converted, each once; its conversion
makes one licence of each and marks just these lines, or writes nothing.
-/

namespace LicenseTrack

open Library

variable {env : Env} {s t v : Store} {orderId : Nat} {payload : List BatchConvertItem}

/-- A line of the order that is not cancelled and has no licence yet. -/
def AwaitsLicense (s : Store) (orderId itemId : Nat) : Prop :=
  ∃ item, s.items.get? itemId = some item ∧ item.pendingOrderId = some orderId
    ∧ item.status ≠ .cancelled
    ∧ ∀ id l, s.license? id = some l → l.sourceSourcingItemId ≠ some itemId

/-- The lines that a batch names, in order. -/
def submittedLines (payload : List BatchConvertItem) : List Nat := payload.map (·.sourcingItemId)

/-- The lines behind the licences, in the order of the licences. -/
def Store.licensedLines (s : Store) : List (Option Nat) :=
  s.licenses.entries.map (fun entry => entry.2.sourceSourcingItemId)

/-- The lines of a store with some of them marked as converted. -/
def MarksConverted (s : Store) (lines : List Nat) (t : Store) : Prop :=
  ∀ itemId, t.items.get? itemId = (s.items.get? itemId).map (fun item =>
    if itemId ∈ lines then { item with status := .converted } else item)

/-- Each line has got one licence, no other licence was made, and just these lines are marked. -/
structure BatchConverted (s : Store) (lines : List Nat) (t : Store) : Prop where
  created : ∃ made : List Nat, made.Perm lines ∧ t.licensedLines = s.licensedLines ++ made.map some
  once : ∀ itemId ∈ lines, t.licensedLines.count (some itemId) = 1
  marked : MarksConverted s lines t

/-- What the conversion of a batch promises. -/
structure BatchCoverage (env : Env) (orderId : Nat) (payload : List BatchConvertItem) (s : Store)
    : Prop where
  /-- The check accepts just the lines that await a licence, without repetition. -/
  accepts
    : ∀ loaded,
        loadConvertibleOrder s orderId = .ok loaded
        → (validateBatchCoverage s loaded payload = .ok ()
          ↔ (submittedLines payload).Nodup
            ∧ ∀ itemId, itemId ∈ submittedLines payload ↔ AwaitsLicense s orderId itemId)
  /-- A batch that is not refused is converted as a whole; one that is writes nothing. -/
  converts
    : (∃ t, batchConvertPendingOrderToLicenses env orderId payload s = .ok t
          ∧ BatchConverted s (submittedLines payload) t)
      ∨ ∃ failure, batchConvertPendingOrderToLicenses env orderId payload s = .error failure

theorem mem_orderItems {s : Store} {orderId itemId : Nat} {item : SourcingItem}
    : (itemId, item) ∈ s.orderItems orderId
      ↔ s.items.get? itemId = some item ∧ item.pendingOrderId = some orderId := by
  rw [Store.orderItems, ← Table.get?_eq_some, Table.get?_filter, Option.filter_eq_some_iff,
    beq_iff_eq]

theorem mem_convertibleItems {itemId : Nat}
    : itemId ∈ convertibleItems s (s.orderItems orderId) ↔ AwaitsLicense s orderId itemId := by
  have hlicensed : ∀ itemId : Nat,
      s.licenses.entries.any (fun l => l.2.sourceSourcingItemId == some itemId) = false
        ↔ ∀ id l, s.license? id = some l → l.sourceSourcingItemId ≠ some itemId := by
    intro itemId
    rw [List.any_eq_false]
    constructor
    · intro h id l hl heq
      exact h (id, l) (Table.get?_eq_some.1 hl) (by simp [heq])
    · rintro h ⟨id, l⟩ hl heq
      exact h id l (Table.get?_eq_some.2 hl) (by simpa using heq)
  simp only [convertibleItems, List.mem_map, List.mem_filter, Bool.and_eq_true, bne_iff_ne,
    Bool.not_eq_true', Prod.exists, mem_orderItems, hlicensed, and_assoc, AwaitsLicense]
  constructor
  · rintro ⟨_, item, hitem, horder, hstatus, hnone, rfl⟩
    exact ⟨item, hitem, horder, hstatus, hnone⟩
  · rintro ⟨item, hitem, horder, hstatus, hnone⟩
    exact ⟨itemId, item, hitem, horder, hstatus, hnone, rfl⟩

theorem validateBatchCoverage_eq_ok {loaded : LoadedOrder}
    (hloaded : LoadedFrom s orderId loaded)
    : validateBatchCoverage s loaded payload = .ok ()
      ↔ (submittedLines payload).Nodup
        ∧ ∀ itemId, itemId ∈ submittedLines payload ↔ AwaitsLicense s orderId itemId := by
  have hitems : loaded.items = s.orderItems orderId := by
    rw [hloaded.items, hloaded.id_eq]
  have hknown : ∀ itemId, AwaitsLicense s orderId itemId →
      (s.orderItems orderId).any (·.1 == itemId) = true := by
    rintro itemId ⟨item, hitem, horder, -⟩
    exact List.any_eq_true.2 ⟨(itemId, item), mem_orderItems.2 ⟨hitem, horder⟩, by simp⟩
  simp only [validateBatchCoverage, bind_eq_ok, require_eq_ok, hitems, List.all_eq_true,
    List.contains_iff_mem, mem_convertibleItems]
  constructor
  · rintro ⟨_, hnodup, _, -, _, -, _, hmissing, heligible⟩
    exact ⟨hnodup, fun itemId => ⟨heligible itemId, hmissing itemId⟩⟩
  · rintro ⟨hnodup, hsame⟩
    refine ⟨⟨⟩, hnodup, ⟨⟩, fun itemId h => hknown itemId ((hsame itemId).1 h), ⟨⟩, ?_, ⟨⟩,
      fun itemId => (hsame itemId).2, fun itemId => (hsame itemId).1⟩
    rintro ⟨hempty, hsome⟩
    obtain ⟨itemId, hitemId⟩ := List.exists_mem_of_ne_nil _ hsome
    have hmem := (hsame itemId).2 (mem_convertibleItems.1 hitemId)
    rw [submittedLines, List.isEmpty_iff.1 hempty] at hmem
    cases hmem

theorem entries_of_agrees {ρ β : Type} {view : ρ → β} {a b : Table ρ} (h : a.Agrees view b)
    : b.entries.map (fun entry => view entry.2) = a.entries.map (fun entry => view entry.2) := by
  have hviews : (b.mapRows (fun _ => view)).entries = (a.mapRows (fun _ => view)).entries := by
    refine @List.Pairwise.eq_of_mem_iff _ (fun x y : Nat × β => x.1 < y.1) _
      ⟨fun x => Nat.lt_irrefl x.1⟩ _ _ (Table.sorted _) (Table.sorted _) ?_
    rintro ⟨key, look⟩
    rw [← Table.get?_eq_some, ← Table.get?_eq_some, Table.get?_mapRows, Table.get?_mapRows, h key]
  have hlooks := congrArg (List.map Prod.snd) hviews
  simpa only [Table.mapRows, List.map_map, Function.comp_def] using hlooks

theorem licensedLines_of_agrees
    (h : s.licenses.Agrees (fun l => l.sourceSourcingItemId) t.licenses)
    : t.licensedLines = s.licensedLines :=
  entries_of_agrees h

theorem LicenseMade.licensedLines {id : Nat} {predecessorIds : List Nat} {row : License}
    (h : LicenseMade s t id predecessorIds row)
    : t.licensedLines = s.licensedLines ++ [row.sourceSourcingItemId] := by
  have hcore := Table.Agrees.coarsen h.core (fun core => core.2.2.1.sourceSourcingItemId)
  have hmarked : (s.licenses.insert row).Agrees (fun l => l.sourceSourcingItemId)
      ((s.licenses.insert row).mapRows (markRow predecessorIds id)) := by
    refine Table.Agrees.of_mapRows fun key l => ?_
    rw [markRow]
    split <;> rfl
  rw [Store.licensedLines, entries_of_agrees (hmarked.trans hcore), Table.insert, List.map_append]
  rfl

theorem applyPlannedSuccessorLinks_lines {u : Unicode} {items : List (Nat × SourcingItem)}
    (h : applyPlannedSuccessorLinks u items s = .ok t)
    : t.licensedLines = s.licensedLines ∧ t.items = s.items := by
  obtain ⟨_, hlicenses, hitems⟩ := applyPlannedSuccessorLinks_keeps
    (P := fun _ v => s.licenses.Agrees (fun l => l.sourceSourcingItemId) v.licenses
      ∧ v.items = s.items)
    (fun done target v w hv _ _ _ hw => by
      obtain ⟨successorId, successor, predecessors, primary, hlink⟩ := applyPlannedTarget_ok hw
      rw [hlink.result]
      have hplanned : v.licenses.Agrees (fun l => l.sourceSourcingItemId)
          (v.modifyLicense successorId (License.planned predecessors primary)).licenses :=
        Table.Agrees.of_modify fun l => rfl
      refine ⟨hv.1.trans (hplanned.trans (Table.Agrees.of_mapRows fun key l => ?_)), hv.2⟩
      rw [markRow]
      split <;> rfl) ⟨Table.Agrees.refl _ _, rfl⟩ h
  exact ⟨licensedLines_of_agrees hlicenses, hitems⟩

-- Lines in turn

/-- A licence made of each of the lines in turn, and their marks. -/
structure LinesMade (s : Store) (lines : List Nat) (t : Store) : Prop where
  licensed : t.licensedLines = s.licensedLines ++ lines.map some
  marked : MarksConverted s lines t

theorem LinesMade.refl (s : Store) : LinesMade s [] s where
  licensed := by simp
  marked := fun itemId => by simp

theorem LinesMade.trans {lines lines' : List Nat} (h : LinesMade s lines t)
    (h' : LinesMade t lines' v)
    : LinesMade s (lines ++ lines') v where
  licensed := by rw [h'.licensed, h.licensed, List.map_append, List.append_assoc]
  marked := fun itemId => by
    rw [h'.marked itemId, h.marked itemId, Option.map_map]
    congr 1
    funext item
    by_cases hfirst : itemId ∈ lines <;> by_cases hsecond : itemId ∈ lines'
      <;> simp [hfirst, hsecond]

/-- The loaded lines are stored as they were loaded, up to their marks. -/
def StillLoaded (items : List (Nat × SourcingItem)) (s : Store) : Prop :=
  ∀ entry ∈ items, s.items.get? entry.1 = some entry.2
    ∨ s.items.get? entry.1 = some { entry.2 with status := .converted }

theorem StillLoaded.marked {items : List (Nat × SourcingItem)} {lines : List Nat}
    (h : StillLoaded items s) (hmarked : MarksConverted s lines t)
    : StillLoaded items t := by
  intro entry hentry
  rw [hmarked entry.1]
  by_cases hline : entry.1 ∈ lines
  · rcases h entry hentry with hstored | hstored
    · exact .inr (by simp [hstored, hline])
    · exact .inr (by simp [hstored, hline])
  · simpa [hline] using h entry hentry

theorem markItemConverted_marks {items : List (Nat × SourcingItem)} {entry : Nat × SourcingItem}
    (hloaded : StillLoaded items s) (hentry : entry ∈ items)
    (h : markItemConverted entry s = .ok t)
    : t.licenses = s.licenses ∧ MarksConverted s [entry.1] t := by
  rw [markItemConverted] at h
  split at h
  case isTrue hstatus =>
    obtain rfl := Except.ok.inj h
    refine ⟨rfl, fun itemId => ?_⟩
    by_cases hid : itemId = entry.1
    · have hstored : s.items.get? entry.1 = some { entry.2 with status := .converted } := by
        rcases hloaded entry hentry with hstored | hstored
        · rw [hstored, ← hstatus]
        · exact hstored
      rw [hid, hstored]
      simp
    · simp [hid]
  case isFalse =>
    simp only [writeItem, bind_eq_ok, require_eq_ok, pure_eq_ok] at h
    obtain ⟨_, -, rfl⟩ := h
    refine ⟨rfl, fun itemId => ?_⟩
    rw [Store.modifyItem, Table.get?_modify]
    simp

theorem batchStep_made {items : List (Nat × SourcingItem)} {itemId id : Nat} {item : SourcingItem}
    {created : List (Nat × Nat)} {d : ConversionData} {missing detailPrefix : String}
    (hloaded : StillLoaded items s) (hitem : (itemId, item) ∈ items)
    (hsource : d.sourceSourcingItemId = some itemId)
    (hcreate : createPreparedConversionLicense env itemId (some item) created d missing
      detailPrefix s = .ok (id, t))
    (hmark : markItemConverted (itemId, item) t = .ok v)
    : LinesMade s [itemId] v := by
  obtain ⟨row, hmade, -, hpurchase⟩ := createPreparedConversionLicense_made hcreate
  have hrow : row.sourceSourcingItemId = some itemId :=
    (congrArg (·.sourceSourcingItemId) hpurchase).trans hsource
  have hloaded' : StillLoaded items t := by
    intro entry hentry
    rw [hmade.items]
    exact hloaded entry hentry
  obtain ⟨hlicenses, hmarked⟩ := markItemConverted_marks hloaded' hitem hmark
  constructor
  · rw [Store.licensedLines, hlicenses, ← Store.licensedLines, hmade.licensedLines, hrow]
    rfl
  · intro id
    rw [hmarked id, hmade.items]

/-- The postponed lines carry their own data. -/
def PostponedOwn (postponed : List (Nat × ConversionData)) : Prop :=
  ∀ entry ∈ postponed, entry.2.sourceSourcingItemId = some entry.1

theorem convertBatchLine_made {p : PreparedBatch} {line : BatchConvertItem}
    {progress progress' : BatchProgress}
    (h : convertBatchLine env p line progress = .ok progress')
    : ((StillLoaded p.loaded.items progress.store
          → LinesMade progress.store [line.sourcingItemId] progress'.store)
        ∧ progress'.postponed = progress.postponed)
      ∨ (progress'.store = progress.store
        ∧ ∃ d, progress'.postponed = progress.postponed ++ [(line.sourcingItemId, d)]
          ∧ d.sourceSourcingItemId = some line.sourcingItemId) := by
  simp only [convertBatchLine, bind_eq_ok, found_eq_ok] at h
  obtain ⟨item, hitem, d, hprepare, h⟩ := h
  have hsource := prepareBatchLine_source hprepare
  split at h
  · obtain rfl := Except.ok.inj h
    exact .inr ⟨rfl, d, rfl, hsource⟩
  · simp only [bind_eq_ok, pure_eq_ok] at h
    obtain ⟨⟨id, s₁⟩, hcreate, s₂, hmark, rfl⟩ := h
    refine .inl ⟨fun hloaded =>
      batchStep_made hloaded (LoadedOrder.item?_mem hitem) ?_ hcreate hmark, rfl⟩
    split <;> exact hsource

theorem LinesMade.compose {items : List (Nat × SourcingItem)} {lines lines' : List Nat}
    (h : StillLoaded items s → LinesMade s lines t)
    (h' : StillLoaded items t → LinesMade t lines' v) (hloaded : StillLoaded items s)
    : LinesMade s (lines ++ lines') v :=
  have hmade := h hloaded
  hmade.trans (h' (hloaded.marked hmade.marked))

theorem convertBatchLines_made {p : PreparedBatch} {lines : List BatchConvertItem}
    {progress progress' : BatchProgress}
    (h : each (convertBatchLine env p) lines progress = .ok progress')
    : LinesPassed (fun s made t => StillLoaded p.loaded.items s → LinesMade s made t)
        (fun entry => entry.2.sourceSourcingItemId = some entry.1) progress
        (submittedLines lines) progress' :=
  each_collects (LinesPassed.refl fun s _ => .refl s) (LinesPassed.trans LinesMade.compose)
    (fun _ _ _ _ hstep => LinesPassed.of_line (fun s _ => .refl s) (convertBatchLine_made hstep)) h

theorem convertPostponedLine_made {p : PreparedBatch} {line : Nat × ConversionData}
    {progress progress' : BatchProgress} (hloaded : StillLoaded p.loaded.items progress.store)
    (hown : line.2.sourceSourcingItemId = some line.1)
    (h : convertPostponedLine env p line progress = .ok progress')
    : LinesMade progress.store [line.1] progress'.store := by
  simp only [convertPostponedLine, bind_eq_ok, found_eq_ok, pure_eq_ok] at h
  obtain ⟨item, hitem, ⟨id, s₁⟩, hcreate, s₂, hmark, rfl⟩ := h
  refine batchStep_made hloaded (LoadedOrder.item?_mem hitem) ?_ hcreate hmark
  rw [← hown, inheritChainParent]
  split
  · rfl
  · split <;> rfl

theorem convertPostponedLines_made {p : PreparedBatch} {lines : List (Nat × ConversionData)}
    {progress progress' : BatchProgress} (hloaded : StillLoaded p.loaded.items progress.store)
    (hown : PostponedOwn lines)
    (h : each (convertPostponedLine env p) lines progress = .ok progress')
    : LinesMade progress.store (lines.map Prod.fst) progress'.store :=
  each_collects (R := fun progress made progress' =>
      StillLoaded p.loaded.items progress.store → LinesMade progress.store made progress'.store)
    (fun progress _ => .refl progress.store) LinesMade.compose
    (fun line hline _ _ hstep hloaded => convertPostponedLine_made hloaded (hown line hline) hstep)
    h hloaded

theorem refreshOrderStatus_lines (loaded : LoadedOrder) (statuses : List SourcingStatus)
    (s : Store)
    : (refreshOrderStatus loaded statuses s).licenses = s.licenses
      ∧ (refreshOrderStatus loaded statuses s).items = s.items := by
  constructor
  · rw [refreshOrderStatus]
    split <;> split <;> rfl
  · rw [refreshOrderStatus]
    split <;> split <;> rfl

theorem commitBatch_made {p : PreparedBatch} (hloaded : LoadedFrom s orderId p.loaded)
    (h : commitBatch env p s = .ok t)
    : ∃ made, made.Perm (submittedLines p.payload) ∧ LinesMade s made t := by
  simp only [commitBatch, bind_eq_ok, flush_eq_ok] at h
  obtain ⟨s₀, hlock, _, -, first, hfirst, second, hsecond, s₃, hplanned, rfl, -⟩ := h
  obtain ⟨-, rfl⟩ := lockOpenPendingOrder_ok hlock
  have hstored : StillLoaded p.loaded.items s := by
    intro entry hentry
    rw [hloaded.items] at hentry
    exact .inl (mem_orderItems.1 hentry).1
  obtain ⟨hown, made, hmade, hperm⟩ := convertBatchLines_made hfirst
    (fun _ hentry => by cases hentry)
  have hmade := hmade hstored
  have horder : (maintenanceChainOrder p.loaded.items first.postponed).Perm first.postponed :=
    List.perm_insertionSort _ _
  have hlast := convertPostponedLines_made (StillLoaded.marked hstored hmade.marked)
    (fun entry hentry => hown entry (horder.mem_iff.mp hentry)) hsecond
  obtain ⟨hlines, hitems⟩ := applyPlannedSuccessorLinks_lines hplanned
  have hboth := hmade.trans hlast
  refine ⟨made ++ (maintenanceChainOrder p.loaded.items first.postponed).map Prod.fst, ?_, ?_⟩
  · refine (List.Perm.append_left made (horder.map Prod.fst)).trans ?_
    simpa using hperm
  · obtain ⟨hlicenses, hsame⟩ := refreshOrderStatus_lines p.loaded
      (p.loaded.items.map p.statusAfter) s₃
    constructor
    · rw [Store.licensedLines, hlicenses, ← Store.licensedLines, hlines, hboth.licensed]
      rfl
    · intro itemId
      rw [hsame, hitems, hboth.marked itemId]

/-- The check of a batch accepts just the lines that await a licence, each once; an accepted batch
makes one licence of each line and marks just these lines, or writes nothing.
-/
theorem batchCoverage (env : Env) (orderId : Nat) (payload : List BatchConvertItem) (s : Store)
    : BatchCoverage env orderId payload s where
  accepts := fun loaded hloaded => validateBatchCoverage_eq_ok (loadConvertibleOrder_ok hloaded)
  converts := by
    rcases hrun : batchConvertPendingOrderToLicenses env orderId payload s with failure | t
    · exact .inr ⟨failure, rfl⟩
    · refine .inl ⟨t, rfl, ?_⟩
      obtain ⟨p, hprepare, hcommit⟩ := bind_eq_ok.mp hrun
      obtain ⟨hloaded, rfl, hcoverage⟩ := prepareBatch_ok hprepare
      obtain ⟨hnodup, hawaits⟩ := (validateBatchCoverage_eq_ok hloaded).1 hcoverage
      obtain ⟨made, hperm, hmade⟩ := commitBatch_made hloaded hcommit
      refine ⟨⟨made, hperm, hmade.licensed⟩, fun itemId hitem => ?_, fun itemId => ?_⟩
      · have hnone : (some itemId) ∉ s.licensedLines := by
          intro hmem
          obtain ⟨⟨id, l⟩, hentry, heq⟩ := List.mem_map.1 hmem
          obtain ⟨_, -, -, -, hlicensed⟩ := (hawaits itemId).1 hitem
          exact hlicensed id l (Table.get?_eq_some.2 hentry) heq
        rw [hmade.licensed, List.count_append, List.count_eq_zero.2 hnone,
          List.count_map_of_injective made some (Option.some_injective _), hperm.count_eq,
          List.count_eq_one_of_mem hnodup hitem]
      · rw [hmade.marked itemId]
        congr 1
        funext item
        rw [if_congr hperm.mem_iff rfl rfl]

end LicenseTrack
