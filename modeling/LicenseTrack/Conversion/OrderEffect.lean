import LicenseTrack.Conversion.LineEffect

/-! What a whole conversion does: it makes a licence of each of its lines in turn, then links
the licences that a plan chains, and closes the order.
-/

namespace LicenseTrack

open Library

/-- A conversion's work on its lines, before the planned links. The list names the lines of
which a licence is made, in order; the relation says which data a line may be made of.
-/
inductive LinesConverted (items : List (Nat × SourcingItem))
    (data : Option (Nat × SourcingItem) → ConversionData → Prop)
    : Store → List Nat → Store → Prop
  | done (s : Store) : LinesConverted items data s [] s
  /-- A licence made of a line. -/
  | line {s t v : Store} {itemId id : Nat} {item : SourcingItem} {row : License}
      {d : ConversionData} {made : List Nat}
      (loaded : (itemId, item) ∈ items) (prepared : data (some (itemId, item)) d)
      (step : LicenseMade s t id item.renewedIds row)
      (source : row.sourceSourcingItemId = some itemId)
      (terms : LineTerms s (some item) d row.toLicenseTerms)
      (purchase : row.toLicensePurchase = d.toRow.toLicensePurchase)
      (rest : LinesConverted items data t made v)
      : LinesConverted items data s (itemId :: made) v
  /-- The licence made of an order without lines. -/
  | form {s t v : Store} {id : Nat} {row : License} {d : ConversionData} {made : List Nat}
      (prepared : data none d) (step : LicenseMade s t id [] row)
      (source : row.sourceSourcingItemId = none)
      (terms : LineTerms s none d row.toLicenseTerms)
      (purchase : row.toLicensePurchase = d.toRow.toLicensePurchase)
      (rest : LinesConverted items data t made v)
      : LinesConverted items data s made v
  /-- A line marked as converted. -/
  | mark {s v : Store} {itemId : Nat} {made : List Nat}
      (stored : ∃ item, s.items.get? itemId = some item) (loaded : itemId ∈ items.map Prod.fst)
      (rest : LinesConverted items data
        (s.modifyItem itemId (fun item => { item with status := .converted })) made v)
      : LinesConverted items data s made v

namespace LinesConverted

variable {items : List (Nat × SourcingItem)}
  {data : Option (Nat × SourcingItem) → ConversionData → Prop}

theorem trans {s t v : Store} {made made' : List Nat} (h : LinesConverted items data s made t)
    (h' : LinesConverted items data t made' v)
    : LinesConverted items data s (made ++ made') v := by
  induction h with
  | done => exact h'
  | line loaded prepared step source terms purchase _ ih =>
      exact .line loaded prepared step source terms purchase (ih h')
  | form prepared step source terms purchase _ ih =>
      exact .form prepared step source terms purchase (ih h')
  | mark stored loaded _ ih => exact .mark stored loaded (ih h')

theorem keeps {P : Store → Prop} {s t : Store} {made : List Nat}
    (h : LinesConverted items data s made t)
    (hmade : ∀ s t id predecessorIds row, P s
      → ((∃ item, item ∈ items ∧ item.2.renewedIds = predecessorIds
            ∧ row.sourceSourcingItemId = some item.1)
          ∨ predecessorIds = [])
      → LicenseMade s t id predecessorIds row → P t)
    (hmark : ∀ s itemId, P s
      → P (s.modifyItem itemId (fun item => { item with status := .converted })))
    (hs : P s)
    : P t := by
  induction h with
  | done => exact hs
  | line loaded prepared step source terms purchase _ ih =>
      exact ih (hmade _ _ _ _ _ hs (.inl ⟨_, loaded, rfl, source⟩) step)
  | form prepared step source terms purchase _ ih =>
      exact ih (hmade _ _ _ _ _ hs (.inr rfl) step)
  | mark _ _ _ ih => exact ih (hmark _ _ hs)

end LinesConverted

theorem markItemConverted_run {items : List (Nat × SourcingItem)}
    {data : Option (Nat × SourcingItem) → ConversionData → Prop} {entry : Nat × SourcingItem}
    {s t : Store} (h : markItemConverted entry s = .ok t) (hentry : entry.1 ∈ items.map Prod.fst)
    : LinesConverted items data s [] t := by
  unfold markItemConverted at h
  split at h
  · obtain rfl := Except.ok.inj h
    exact .done _
  · simp only [writeItem, bind_eq_ok, require_eq_ok, pure_eq_ok] at h
    obtain ⟨_, hs, rfl⟩ := h
    exact .mark (Option.isSome_iff_exists.mp hs) hentry (.done _)

theorem markItemsConverted_run {items : List (Nat × SourcingItem)}
    (data : Option (Nat × SourcingItem) → ConversionData → Prop)
    {entries : List (Nat × SourcingItem)} {s t : Store}
    (h : each markItemConverted entries s = .ok t) (hentries : ∀ e ∈ entries, e ∈ items)
    : LinesConverted items data s [] t := by
  induction entries generalizing s with
  | nil =>
      obtain rfl : s = t := by simpa [each] using h
      exact .done _
  | cons head rest ih =>
      obtain ⟨v, hv, ht⟩ := bind_eq_ok.mp h
      exact (markItemConverted_run hv
        (List.mem_map_of_mem (hentries head (by simp)))).trans
        (ih ht fun e he => hentries e (List.mem_cons_of_mem _ he))

-- One form

/-- The data that a single-form conversion makes of a line. -/
def IsFormData (u : Unicode) (p : PreparedConversion) (entry : Option (Nat × SourcingItem))
    (d : ConversionData)
    : Prop :=
  ∃ shared, p.sharedData u = .ok shared
    ∧ match entry with
      | none => d = shared
      | some (itemId, item) => ∃ old,
          d = { buildPendingOrderItemLicenseData u shared p.lineFields item old p.loaded.order with
            sourceSourcingItemId := some itemId }

theorem convertLine_run {env : Env} {p : PreparedConversion} {shared : ConversionData}
    {entry : Nat × SourcingItem} {s t : Store}
    (h : convertLine env p shared entry s = .ok t) (hshared : p.sharedData env.unicode = .ok shared)
    (hentry : entry ∈ p.loaded.items)
    : LinesConverted p.loaded.items (IsFormData env.unicode p) s [entry.1] t := by
  obtain ⟨itemId, item⟩ := entry
  simp only [convertLine, bind_eq_ok] at h
  obtain ⟨old, hold, h⟩ := h
  have hcreate : ∃ id, createPreparedConversionLicense env itemId (some item) []
      { buildPendingOrderItemLicenseData env.unicode shared p.lineFields item old p.loaded.order with
        sourceSourcingItemId := some itemId }
      s!"License {item.renewalForLicenseId.getD 0} not found for renewal" "" s = .ok (id, t) := by
    split at h
    · obtain ⟨_, -, ⟨id, v⟩, hc, rfl⟩ := by simpa only [bind_eq_ok, pure_eq_ok] using h
      exact ⟨id, hc⟩
    · obtain ⟨⟨id, v⟩, hc, rfl⟩ := by simpa only [bind_eq_ok, pure_eq_ok] using h
      exact ⟨id, hc⟩
  obtain ⟨id, hcreate⟩ := hcreate
  obtain ⟨row, hmade, hterms, hpurchase⟩ := createPreparedConversionLicense_made hcreate
  exact .line hentry ⟨shared, hshared, old, rfl⟩ hmade (congrArg (·.sourceSourcingItemId) hpurchase)
    hterms hpurchase (.done _)

theorem convertLines_run {env : Env} {p : PreparedConversion} {shared : ConversionData}
    (hshared : p.sharedData env.unicode = .ok shared) {entries : List (Nat × SourcingItem)}
    {s t : Store} (h : each (convertLine env p shared) entries s = .ok t)
    (hentries : ∀ e ∈ entries, e ∈ p.loaded.items)
    : LinesConverted p.loaded.items (IsFormData env.unicode p) s (entries.map Prod.fst) t := by
  induction entries generalizing s with
  | nil =>
      obtain rfl : s = t := by simpa [each] using h
      exact .done _
  | cons head rest ih =>
      obtain ⟨v, hv, ht⟩ := bind_eq_ok.mp h
      exact (convertLine_run hv hshared (hentries head (by simp))).trans
        (ih ht fun e he => hentries e (List.mem_cons_of_mem _ he))

/-- An order that a conversion loaded, as it is stored. -/
structure LoadedFrom (s : Store) (orderId : Nat) (loaded : LoadedOrder) : Prop where
  id_eq : loaded.id = orderId
  stored : s.orders.get? loaded.id = some loaded.order
  items : loaded.items = s.orderItems loaded.id
  isOpen : loaded.order.isOpen = true

theorem loadConvertibleOrder_ok {s : Store} {orderId : Nat} {loaded : LoadedOrder}
    (h : loadConvertibleOrder s orderId = .ok loaded)
    : LoadedFrom s orderId loaded := by
  simp only [loadConvertibleOrder, getPendingOrder, bind_eq_ok, found_eq_ok, pure_eq_ok,
    require_eq_ok] at h
  obtain ⟨_, ⟨order, horder, rfl⟩, _, -, _, hopen, rfl⟩ := h
  exact ⟨rfl, horder, rfl, hopen⟩

theorem prepareConversion_ok {u : Unicode} {orderId : Nat} {form : ConversionForm}
    {submitted : List ConversionField} {s : Store} {p : PreparedConversion}
    (h : prepareConversion u orderId form submitted s = .ok p)
    : LoadedFrom s orderId p.loaded := by
  simp only [prepareConversion, bind_eq_ok] at h
  obtain ⟨loaded, hloaded, _, -, h⟩ := h
  obtain rfl : loaded = p.loaded := by
    split at h
    · obtain ⟨_, -, he⟩ := bind_eq_ok.mp h
      rw [← Except.ok.inj he]
    · rw [← Except.ok.inj h]
  exact loadConvertibleOrder_ok hloaded

theorem prepareBatch_ok {u : Unicode} {orderId : Nat} {payload : List BatchConvertItem}
    {s : Store} {p : PreparedBatch} (h : prepareBatch u orderId payload s = .ok p)
    : LoadedFrom s orderId p.loaded ∧ p.payload = payload
      ∧ validateBatchCoverage s p.loaded payload = .ok () := by
  simp only [prepareBatch, bind_eq_ok, pure_eq_ok] at h
  obtain ⟨loaded, hloaded, _, hcoverage, _, -, _, -, rfl⟩ := h
  exact ⟨loadConvertibleOrder_ok hloaded, rfl, hcoverage⟩

theorem lockOpenPendingOrder_ok {loaded : LoadedOrder} {detail : String} {s t : Store}
    (h : lockOpenPendingOrder loaded detail s = .ok t)
    : (∃ order, s.orders.get? loaded.id = some order ∧ order.isOpen = true)
      ∧ t = { s with
          orders := s.orders.modify loaded.id
            (fun order => { order with notes := loaded.order.notes }) } := by
  simp only [lockOpenPendingOrder, bind_eq_ok, require_eq_ok, pure_eq_ok] at h
  obtain ⟨_, hopen, rfl⟩ := h
  obtain ⟨order, ho, hopen⟩ := (Option.any_eq_true _ _).mp hopen
  exact ⟨⟨order, ho, hopen⟩, rfl⟩

/-- A committed conversion: the lock, its lines, the planned links and the order's status. -/
structure OrderConverted (u : Unicode) (loaded : LoadedOrder)
    (data : Option (Nat × SourcingItem) → ConversionData → Prop) (made : List Nat)
    (statuses : List SourcingStatus) (s t : Store)
    : Prop where
  stillOpen : ∃ order, s.orders.get? loaded.id = some order ∧ order.isOpen = true
  work : ∃ s₁ s₂,
    LinesConverted loaded.items data
      { s with
        orders := s.orders.modify loaded.id
          (fun order => { order with notes := loaded.order.notes }) }
      made s₁
    ∧ applyPlannedSuccessorLinks u loaded.items s₁ = .ok s₂
    ∧ t = refreshOrderStatus loaded statuses s₂ ∧ t.Constraints

theorem commitConversion_ok {env : Env} {p : PreparedConversion} {s t : Store}
    (h : commitConversion env p s = .ok t)
    : OrderConverted env.unicode p.loaded (IsFormData env.unicode p) (p.loaded.items.map Prod.fst)
        (p.loaded.items.map (fun _ => .converted)) s t := by
  simp only [commitConversion, bind_eq_ok, flush_eq_ok] at h
  obtain ⟨s₀, hlock, shared, hshared, s₁, hlines, s₂, hmarks, s₃, hplanned, rfl, hconstraints⟩ := h
  obtain ⟨hopen, rfl⟩ := lockOpenPendingOrder_ok hlock
  have hmarks := markItemsConverted_run (IsFormData env.unicode p) hmarks fun e he => he
  refine ⟨hopen, s₂, s₃, ?_, hplanned, rfl, hconstraints⟩
  rw [← List.append_nil (p.loaded.items.map Prod.fst)]
  refine LinesConverted.trans ?_ hmarks
  unfold convertLoadedLines at hlines
  split at hlines
  · next hnil =>
      simp only [bind_eq_ok, pure_eq_ok] at hlines
      obtain ⟨⟨id, v⟩, hcreate, rfl⟩ := hlines
      obtain ⟨row, hmade, hterms, hpurchase⟩ := createPreparedConversionLicense_made hcreate
      have hsource : shared.sourceSourcingItemId = none := by
        simp only [PreparedConversion.sharedData, bind_eq_ok, pure_eq_ok] at hshared
        obtain ⟨form, -, rfl⟩ := hshared
        rfl
      rw [hnil]
      exact .form ⟨shared, hshared, rfl⟩ hmade
        ((congrArg (·.sourceSourcingItemId) hpurchase).trans hsource) hterms hpurchase (.done _)
  · exact convertLines_run hshared hlines fun e he => he

-- A form for each line

/-- The data that a batch conversion makes of a line; only its parents may be completed later. -/
def IsBatchData (u : Unicode) (p : PreparedBatch) (entry : Option (Nat × SourcingItem))
    (d : ConversionData)
    : Prop :=
  ∃ itemId item, entry = some (itemId, item)
    ∧ ∃ line ∈ p.payload, line.sourcingItemId = itemId
      ∧ ∃ s prepared, prepareBatchLine u p line item s = .ok prepared
        ∧ { d with
            parentLicenseId := prepared.parentLicenseId
            parentSourcingItemId := prepared.parentSourcingItemId } = prepared

theorem prepareBatchLine_source {u : Unicode} {p : PreparedBatch} {line : BatchConvertItem}
    {item : SourcingItem} {s : Store} {d : ConversionData}
    (h : prepareBatchLine u p line item s = .ok d)
    : d.sourceSourcingItemId = some line.sourcingItemId := by
  simp only [prepareBatchLine, bind_eq_ok, pure_eq_ok] at h
  obtain ⟨form, -, old, -, _, -, rfl⟩ := h
  rfl

theorem IsBatchData.source {u : Unicode} {p : PreparedBatch} {itemId : Nat} {item : SourcingItem}
    {d : ConversionData} (h : IsBatchData u p (some (itemId, item)) d)
    : d.sourceSourcingItemId = some itemId := by
  obtain ⟨_, _, he, line, -, rfl, s, prepared, hp, hd⟩ := h
  obtain ⟨rfl, rfl⟩ := Prod.mk.inj (Option.some.inj he)
  rw [← prepareBatchLine_source hp, ← hd]

theorem LoadedOrder.item?_mem {loaded : LoadedOrder} {itemId : Nat} {item : SourcingItem}
    (h : loaded.item? itemId = some item)
    : (itemId, item) ∈ loaded.items := by
  obtain ⟨entry, hf, rfl⟩ := Option.map_eq_some_iff.mp h
  have hk : entry.1 = itemId := by simpa using List.find?_some hf
  exact hk ▸ List.mem_of_find?_eq_some hf

theorem batchStep_run {env : Env} {p : PreparedBatch} {itemId id : Nat} {item : SourcingItem}
    {created : List (Nat × Nat)} {d : ConversionData} {missing detailPrefix : String}
    {s t v : Store} (hitem : p.loaded.item? itemId = some item)
    (hdata : IsBatchData env.unicode p (some (itemId, item)) d)
    (hcreate : createPreparedConversionLicense env itemId (some item) created d missing
      detailPrefix s = .ok (id, t))
    (hmark : markItemConverted (itemId, item) t = .ok v)
    : LinesConverted p.loaded.items (IsBatchData env.unicode p) s [itemId] v := by
  have hmem := LoadedOrder.item?_mem hitem
  obtain ⟨row, hmade, hterms, hpurchase⟩ := createPreparedConversionLicense_made hcreate
  have hsource : row.sourceSourcingItemId = some itemId :=
    (congrArg (·.sourceSourcingItemId) hpurchase).trans hdata.source
  exact .line hmem hdata hmade hsource hterms hpurchase
    (markItemConverted_run hmark (List.mem_map_of_mem hmem))

/-- A postponed line waits with its prepared data. -/
def IsPostponed (u : Unicode) (p : PreparedBatch) (entry : Nat × ConversionData) : Prop :=
  ∃ item, p.loaded.item? entry.1 = some item ∧ IsBatchData u p (some (entry.1, item)) entry.2

theorem convertBatchLine_run {env : Env} {p : PreparedBatch} {line : BatchConvertItem}
    {progress progress' : BatchProgress} (hline : line ∈ p.payload)
    (h : convertBatchLine env p line progress = .ok progress')
    : (LinesConverted p.loaded.items (IsBatchData env.unicode p) progress.store
          [line.sourcingItemId] progress'.store
        ∧ progress'.postponed = progress.postponed)
      ∨ (progress'.store = progress.store
        ∧ ∃ d, progress'.postponed = progress.postponed ++ [(line.sourcingItemId, d)]
          ∧ IsPostponed env.unicode p (line.sourcingItemId, d)) := by
  simp only [convertBatchLine, bind_eq_ok, found_eq_ok] at h
  obtain ⟨item, hitem, d, hprepare, h⟩ := h
  split at h
  · obtain rfl := Except.ok.inj h
    exact .inr ⟨rfl, d, rfl, item, hitem, line.sourcingItemId, item, rfl, line, hline, rfl, _, d,
      hprepare, rfl⟩
  · simp only [bind_eq_ok, pure_eq_ok] at h
    obtain ⟨⟨id, s₁⟩, hcreate, s₂, hmark, rfl⟩ := h
    refine .inl ⟨batchStep_run hitem ⟨line.sourcingItemId, item, rfl, line, hline, rfl, _, d,
      hprepare, ?_⟩ hcreate hmark, rfl⟩
    split <;> rfl

/-- A pass over lines of a batch, which converts some of them and postpones the others: no line is
lost, and the postponed ones are as they have to be.
-/
def LinesPassed (Made : Store → List Nat → Store → Prop) (Waits : Nat × ConversionData → Prop)
    (progress : BatchProgress) (lines : List Nat) (progress' : BatchProgress) : Prop :=
  (∀ entry ∈ progress.postponed, Waits entry)
    → (∀ entry ∈ progress'.postponed, Waits entry)
      ∧ ∃ made, Made progress.store made progress'.store
        ∧ (made ++ progress'.postponed.map Prod.fst).Perm
            (progress.postponed.map Prod.fst ++ lines)

section

variable {Made : Store → List Nat → Store → Prop} {Waits : Nat × ConversionData → Prop}
  {progress progress' progress'' : BatchProgress} {lines lines' : List Nat}

theorem LinesPassed.refl (done : ∀ s, Made s [] s) (progress : BatchProgress)
    : LinesPassed Made Waits progress [] progress :=
  fun hwaits => ⟨hwaits, [], done _, by simp⟩

theorem LinesPassed.trans
    (compose : ∀ {s t v made made'}, Made s made t → Made t made' v → Made s (made ++ made') v)
    (h : LinesPassed Made Waits progress lines progress')
    (h' : LinesPassed Made Waits progress' lines' progress'')
    : LinesPassed Made Waits progress (lines ++ lines') progress'' := by
  intro hwaits
  obtain ⟨hwaits', made, hmade, hperm⟩ := h hwaits
  obtain ⟨hwaits'', made', hmade', hperm'⟩ := h' hwaits'
  have hfront := hperm'.append_left made
  have hback := hperm.append_right lines'
  simp only [List.append_assoc] at hfront hback
  refine ⟨hwaits'', made ++ made', compose hmade hmade', ?_⟩
  rw [List.append_assoc]
  exact hfront.trans hback

theorem LinesPassed.of_line {itemId : Nat} (done : ∀ s, Made s [] s)
    (h : (Made progress.store [itemId] progress'.store
        ∧ progress'.postponed = progress.postponed)
      ∨ (progress'.store = progress.store
        ∧ ∃ d, progress'.postponed = progress.postponed ++ [(itemId, d)] ∧ Waits (itemId, d)))
    : LinesPassed Made Waits progress [itemId] progress' := by
  intro hwaits
  rcases h with ⟨hmade, hpostponed⟩ | ⟨hstore, d, hpostponed, hd⟩
  · rw [hpostponed]
    exact ⟨hwaits, [itemId], hmade, List.perm_append_comm⟩
  · rw [hpostponed, hstore]
    refine ⟨List.forall_mem_append.mpr ⟨hwaits, List.forall_mem_singleton.mpr hd⟩, [], done _, ?_⟩
    simp

end

theorem convertBatchLines_run {env : Env} {p : PreparedBatch} {lines : List BatchConvertItem}
    (hlines : ∀ line ∈ lines, line ∈ p.payload) {progress progress' : BatchProgress}
    (h : each (convertBatchLine env p) lines progress = .ok progress')
    : LinesPassed (LinesConverted p.loaded.items (IsBatchData env.unicode p))
        (IsPostponed env.unicode p) progress (lines.map (·.sourcingItemId)) progress' :=
  each_collects (LinesPassed.refl .done) (LinesPassed.trans LinesConverted.trans)
    (fun line hline _ _ hstep =>
      LinesPassed.of_line .done (convertBatchLine_run (hlines line hline) hstep)) h

theorem convertPostponedLine_run {env : Env} {p : PreparedBatch} {line : Nat × ConversionData}
    {progress progress' : BatchProgress} (hline : IsPostponed env.unicode p line)
    (h : convertPostponedLine env p line progress = .ok progress')
    : LinesConverted p.loaded.items (IsBatchData env.unicode p) progress.store [line.1]
        progress'.store := by
  obtain ⟨item, hitem, hdata⟩ := hline
  simp only [convertPostponedLine, bind_eq_ok, found_eq_ok, pure_eq_ok] at h
  obtain ⟨item', hitem', ⟨id, s₁⟩, hcreate, s₂, hmark, rfl⟩ := h
  obtain rfl : item = item' := Option.some.inj (hitem.symm.trans hitem')
  refine batchStep_run hitem ?_ hcreate hmark
  obtain ⟨itemId, item', he, payloadLine, hpayload, hid, s, prepared, hprepare, hd⟩ := hdata
  refine ⟨itemId, item', he, payloadLine, hpayload, hid, s, prepared, hprepare, ?_⟩
  rw [← hd]
  unfold inheritChainParent
  split
  · rfl
  · split <;> rfl

theorem convertPostponedLines_run {env : Env} {p : PreparedBatch}
    {lines : List (Nat × ConversionData)} (hlines : ∀ line ∈ lines, IsPostponed env.unicode p line)
    {progress progress' : BatchProgress}
    (h : each (convertPostponedLine env p) lines progress = .ok progress')
    : LinesConverted p.loaded.items (IsBatchData env.unicode p) progress.store (lines.map Prod.fst)
        progress'.store :=
  each_collects (R := fun progress made progress' =>
      LinesConverted p.loaded.items (IsBatchData env.unicode p) progress.store made
        progress'.store)
    (fun progress => .done progress.store) LinesConverted.trans
    (fun line hline _ _ hstep => convertPostponedLine_run (hlines line hline) hstep) h

theorem commitBatch_ok {env : Env} {p : PreparedBatch} {s t : Store}
    (h : commitBatch env p s = .ok t)
    : ∃ made, made.Perm (p.payload.map (·.sourcingItemId))
        ∧ OrderConverted env.unicode p.loaded (IsBatchData env.unicode p) made
            (p.loaded.items.map p.statusAfter) s t := by
  simp only [commitBatch, bind_eq_ok, flush_eq_ok] at h
  obtain ⟨s₀, hlock, _, -, first, hfirst, second, hsecond, s₃, hplanned, rfl, hconstraints⟩ := h
  obtain ⟨hopen, rfl⟩ := lockOpenPendingOrder_ok hlock
  obtain ⟨hpostponed, made, hmade, hperm⟩ := convertBatchLines_run (fun line hl => hl) hfirst
    (by simp)
  have horder : (maintenanceChainOrder p.loaded.items first.postponed).Perm first.postponed :=
    List.perm_insertionSort _ _
  have hlast := convertPostponedLines_run
    (fun line hl => hpostponed line (horder.mem_iff.mp hl)) hsecond
  refine ⟨made ++ (maintenanceChainOrder p.loaded.items first.postponed).map Prod.fst, ?_, hopen,
    _, _, hmade.trans hlast, hplanned, rfl, hconstraints⟩
  refine (List.Perm.append_left made (horder.map Prod.fst)).trans ?_
  simpa using hperm

end LicenseTrack
