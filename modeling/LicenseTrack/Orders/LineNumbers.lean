import LicenseTrack.Import.PoLines
import LicenseTrack.Library.Sorting
import LicenseTrack.Services.PendingOrders

/-! The line numbers of a purchase order's lines: what each live line holds after they were made to
hold numbers on the order's purchase order, and for which orders that leaves them distinct.
-/

namespace LicenseTrack

open Library

variable {u : Unicode} {s t : Store} {orderId : Nat}

/-- The numbers that lines get one after the other, where some numbers are taken. -/
def assignNumbers : List Nat → List (Nat × Option Nat) → List (Nat × Nat)
  | _, [] => []
  | taken, (id, requested) :: rest =>
      (id, freeNumber taken requested) :: assignNumbers (freeNumber taken requested :: taken) rest

theorem assignNumbers_keys (taken : List Nat) (entries : List (Nat × Option Nat))
    : (assignNumbers taken entries).map Prod.fst = entries.map Prod.fst := by
  induction entries generalizing taken with
  | nil => rfl
  | cons entry rest ih => rw [assignNumbers, List.map_cons, List.map_cons, ih]

theorem assignNumbers_congr {a b : List Nat} (h : ∀ n, n ∈ a ↔ n ∈ b)
    (entries : List (Nat × Option Nat))
    : assignNumbers a entries = assignNumbers b entries := by
  induction entries generalizing a b with
  | nil => rfl
  | cons entry rest ih =>
      have hrest : ∀ n, n ∈ freeNumber a entry.2 :: a ↔ n ∈ freeNumber b entry.2 :: b := fun n => by
        rw [List.mem_cons, List.mem_cons, h n, freeNumber_congr h]
      rw [assignNumbers, assignNumbers, freeNumber_congr h, ← ih hrest, freeNumber_congr h]

theorem freeNumber_pos (taken : List Nat) (requested : Option Nat)
    : 0 < freeNumber taken requested := by
  unfold freeNumber
  split
  · split_ifs with hfree
    · simp only [Bool.and_eq_true, decide_eq_true_eq] at hfree
      exact hfree.1
    · exact Nat.succ_pos _
  · exact Nat.succ_pos _

theorem assignNumbers_fresh {taken : List Nat} {entries : List (Nat × Option Nat)} {p : Nat × Nat}
    (h : p ∈ assignNumbers taken entries)
    : 0 < p.2 ∧ p.2 ∉ taken := by
  induction entries generalizing taken with
  | nil => cases h
  | cons entry rest ih =>
      rcases List.mem_cons.mp h with rfl | h
      · exact ⟨freeNumber_pos taken entry.2, freeNumber_not_mem taken entry.2⟩
      · obtain ⟨hpos, hfresh⟩ := ih h
        exact ⟨hpos, fun hmem => hfresh (List.mem_cons_of_mem _ hmem)⟩

theorem assignNumbers_distinct (taken : List Nat) (entries : List (Nat × Option Nat))
    : (assignNumbers taken entries).Pairwise (fun a b => a.2 ≠ b.2) := by
  induction entries generalizing taken with
  | nil => exact .nil
  | cons entry rest ih =>
      refine List.pairwise_cons.mpr ⟨fun p hp hsame => ?_, ih _⟩
      exact (assignNumbers_fresh hp).2 (by rw [← hsame]; exact List.mem_cons_self)

theorem assignNumbers_increase (taken : List Nat) {entries : List (Nat × Option Nat)}
    (hnone : ∀ entry ∈ entries, entry.2 = none)
    : (assignNumbers taken entries).Pairwise (fun a b => a.2 < b.2)
      ∧ ∀ p ∈ assignNumbers taken entries, taken.foldr max 0 < p.2 := by
  induction entries generalizing taken with
  | nil => exact ⟨.nil, fun p hp => by cases hp⟩
  | cons entry rest ih =>
      obtain ⟨hentry, hrest⟩ := List.forall_mem_cons.mp hnone
      obtain ⟨hincrease, habove⟩ := ih (freeNumber taken entry.2 :: taken) hrest
      have hfirst : freeNumber taken entry.2 = taken.foldr max 0 + 1 := by rw [hentry, freeNumber]
      have hlater : ∀ p ∈ assignNumbers (freeNumber taken entry.2 :: taken) rest,
          taken.foldr max 0 + 1 < p.2 := fun p hp => by
        have hp' := habove p hp
        rw [List.foldr_cons, hfirst] at hp'
        omega
      refine ⟨List.pairwise_cons.mpr ⟨fun p hp => ?_, hincrease⟩, fun p hp => ?_⟩
      · have hp' := hlater p hp
        omega
      · rcases List.mem_cons.mp hp with rfl | hp
        · dsimp only
          omega
        · have hp' := hlater p hp
          omega

theorem assignNumbers_granted {taken : List Nat} {requests : List (Nat × Nat)}
    (rest : List (Nat × Option Nat)) (hfree : ∀ p ∈ requests, 0 < p.2 ∧ p.2 ∉ taken)
    (hdistinct : requests.Pairwise (fun a b => a.2 ≠ b.2))
    : ∀ p ∈ requests,
        p ∈ assignNumbers taken (requests.map (fun p => (p.1, some p.2)) ++ rest) := by
  induction requests generalizing taken with
  | nil => exact fun p hp => by cases hp
  | cons head tail ih =>
      obtain ⟨⟨hpos, hnot⟩, hfrees⟩ := List.forall_mem_cons.mp hfree
      obtain ⟨hne, htail⟩ := List.pairwise_cons.mp hdistinct
      have hhead : freeNumber taken (some head.2) = head.2 := by
        rw [freeNumber, if_pos (by simp [hpos, hnot])]
      intro p hp
      rw [List.map_cons, List.cons_append, assignNumbers, hhead]
      rcases List.mem_cons.mp hp with rfl | hp
      · exact List.mem_cons_self
      · refine List.mem_cons_of_mem _ (ih (fun q hq => ⟨(hfrees q hq).1, fun hmem => ?_⟩) htail p hp)
        rcases List.mem_cons.mp hmem with hsame | hmem
        · exact hne q hq hsame.symm
        · exact (hfrees q hq).2 hmem

-- Issued lines

/-- The register row that a stored line holds. -/
def Store.lineOf? (s : Store) (id : Nat) : Option PoLineRegister := (s.items.get? id).bind s.poLineOf

/-- Numbers lines one after the other on a purchase order. -/
def issueLines (u : Unicode) (poNumber : String) (entries : List (Nat × Option Nat)) (s : Store)
    : Store :=
  entries.foldl (fun t entry => issueOrderLine u poNumber entry.2 entry.1 t) s

/-- What numbering lines on a purchase order leaves. -/
structure LinesIssued (poKey : String) (assigned : List (Nat × Nat)) (s t : Store) : Prop where
  orders : t.orders = s.orders
  items
    : ∀ {id item}, s.items.get? id = some item →
        ∃ lineId, t.items.get? id = some { item with poLineId := lineId }
          ∧ (id ∉ assigned.map Prod.fst → lineId = item.poLineId)
  back : ∀ {id item}, t.items.get? id = some item → (s.items.get? id).isSome = true
  rows : ∀ {key row}, s.poLines.get? key = some row → t.poLines.get? key = some row
  lines
    : ∀ {id number}, (id, number) ∈ assigned → (s.items.get? id).isSome = true →
        ∃ line, t.lineOf? id = some line ∧ line.poKey = poKey ∧ line.lineNumber = number

/-- The row that a request on a purchase order adds to the register. -/
def issuedRow (u : Unicode) (poNumber : String) (requested : Option Nat) (s : Store)
    : PoLineRegister where
  poKey := u.normalizePoNumber poNumber
  poNumber := joinWords poNumber
  lineNumber := freeNumber (issuedNumbers s (u.normalizePoNumber poNumber)) requested

theorem issueOrderLine_poLines (u : Unicode) (poNumber : String) (requested : Option Nat) (id : Nat)
    (s : Store)
    : (issueOrderLine u poNumber requested id s).poLines
      = s.poLines.insert (issuedRow u poNumber requested s) :=
  allocateLine_poLines u poNumber requested s

theorem issueOrderLine_items (u : Unicode) (poNumber : String) (requested : Option Nat) (id : Nat)
    (s : Store)
    : (issueOrderLine u poNumber requested id s).items
      = s.items.modify id (fun item => { item with poLineId := some s.poLines.nextKey }) := rfl

theorem issueOrderLine_issued (u : Unicode) (poNumber : String) (requested : Option Nat) (id : Nat)
    (s : Store)
    : LinesIssued (u.normalizePoNumber poNumber)
        [(id, freeNumber (issuedNumbers s (u.normalizePoNumber poNumber)) requested)] s
        (issueOrderLine u poNumber requested id s) := by
  have hitems := issueOrderLine_items u poNumber requested id s
  have hrows := issueOrderLine_poLines u poNumber requested id s
  refine ⟨rfl, fun {other item} hitem => ?_, fun {other item} hitem => ?_, fun {key row} hrow => ?_,
    fun {other number} hmem hstored => ?_⟩
  · rw [hitems, Table.get?_modify, hitem, Option.map_some]
    by_cases hsame : other = id
    · rw [if_pos hsame]
      exact ⟨_, rfl, fun hnot => absurd (by simp [hsame]) hnot⟩
    · rw [if_neg hsame]
      exact ⟨item.poLineId, rfl, fun _ => rfl⟩
  · rw [hitems, Table.get?_modify, Option.map_eq_some_iff] at hitem
    obtain ⟨before, hbefore, -⟩ := hitem
    rw [hbefore]
    rfl
  · have hkey : key ≠ s.poLines.nextKey := Nat.ne_of_lt (Table.lt_nextKey_of_get? hrow)
    rw [hrows, Table.get?_insert, if_neg hkey, hrow]
  · obtain ⟨rfl, rfl⟩ := Prod.mk.inj (List.mem_singleton.mp hmem)
    obtain ⟨item, hitem⟩ := Option.isSome_iff_exists.mp hstored
    refine ⟨issuedRow u poNumber requested s, ?_, rfl, rfl⟩
    rw [Store.lineOf?, hitems, Table.get?_modify_self, hitem, Option.map_some, Option.bind_some,
      Store.poLineOf, Option.bind_some, hrows, Table.get?_insert, if_pos rfl]

theorem LinesIssued.cons {poKey : String} {id number : Nat} {assigned : List (Nat × Nat)}
    {s v t : Store} (hfirst : LinesIssued poKey [(id, number)] s v)
    (hrest : LinesIssued poKey assigned v t) (hnew : id ∉ assigned.map Prod.fst)
    : LinesIssued poKey ((id, number) :: assigned) s t := by
  refine ⟨hrest.orders.trans hfirst.orders, fun {other item} hitem => ?_,
    fun {other item} hitem => ?_, fun hrow => hrest.rows (hfirst.rows hrow),
    fun {other given} hmem hstored => ?_⟩
  · obtain ⟨between, hv, hkept⟩ := hfirst.items hitem
    obtain ⟨lineId, ht, hkept'⟩ := hrest.items hv
    refine ⟨lineId, ht, fun hnot => ?_⟩
    rw [List.map_cons, List.mem_cons, not_or] at hnot
    rw [hkept' hnot.2]
    exact hkept (by simpa using hnot.1)
  · obtain ⟨before, hbefore⟩ := Option.isSome_iff_exists.mp (hrest.back hitem)
    exact hfirst.back hbefore
  · obtain ⟨item, hitem⟩ := Option.isSome_iff_exists.mp hstored
    obtain ⟨between, hv, -⟩ := hfirst.items hitem
    rcases List.mem_cons.mp hmem with hhead | hmem
    · obtain ⟨rfl, rfl⟩ := Prod.mk.inj hhead
      -- The later lines are other lines, and the issued row stays.
      obtain ⟨line, hline, hkey, hnumber⟩ := hfirst.lines List.mem_cons_self hstored
      obtain ⟨lineId, ht, hkept⟩ := hrest.items hv
      refine ⟨line, ?_, hkey, hnumber⟩
      rw [Store.lineOf?, hv, Option.bind_some, Store.poLineOf, Option.bind_eq_some_iff] at hline
      obtain ⟨key, hkey', hrow⟩ := hline
      rw [Store.lineOf?, ht, Option.bind_some, Store.poLineOf, hkept hnew]
      exact Option.bind_eq_some_iff.mpr ⟨key, hkey', hrest.rows hrow⟩
    · exact hrest.lines hmem (by rw [hv]; rfl)

theorem issueLines_issued (u : Unicode) (poNumber : String) {entries : List (Nat × Option Nat)}
    (hkeys : (entries.map Prod.fst).Nodup) (s : Store)
    : LinesIssued (u.normalizePoNumber poNumber)
        (assignNumbers (issuedNumbers s (u.normalizePoNumber poNumber)) entries) s
        (issueLines u poNumber entries s) := by
  induction entries generalizing s with
  | nil =>
      exact ⟨rfl, fun {id item} hitem => ⟨item.poLineId, hitem, fun _ => rfl⟩,
        fun {id item} (hitem : s.items.get? id = some item) => by rw [hitem]; rfl,
        fun hrow => hrow, fun hmem => by cases hmem⟩
  | cons entry rest ih =>
      obtain ⟨hnew, hrest⟩ := List.nodup_cons.mp hkeys
      have hfirst := issueOrderLine_issued u poNumber entry.2 entry.1 s
      have htaken : ∀ n,
          n ∈ issuedNumbers (issueOrderLine u poNumber entry.2 entry.1 s) (u.normalizePoNumber poNumber)
            ↔ n ∈ freeNumber (issuedNumbers s (u.normalizePoNumber poNumber)) entry.2
                :: issuedNumbers s (u.normalizePoNumber poNumber) := fun n => by
        rw [mem_issuedNumbers_insert (issueOrderLine_poLines u poNumber entry.2 entry.1 s),
          List.mem_cons]
        exact ⟨fun h => h.symm.imp_left And.right, fun h => h.symm.imp_right fun hn => ⟨rfl, hn⟩⟩
      have hlater := ih hrest (issueOrderLine u poNumber entry.2 entry.1 s)
      rw [assignNumbers_congr htaken] at hlater
      refine hfirst.cons hlater ?_
      rw [assignNumbers_keys]
      exact hnew

/-- A line that stands on an order and is not cancelled. -/
def Store.IsLiveLine (s : Store) (orderId id : Nat) : Prop :=
  ∃ item, s.items.get? id = some item ∧ item.pendingOrderId = some orderId
    ∧ item.status ≠ .cancelled

/-- The live lines of an order as `sync_order_lines` visits them. -/
def Store.liveLines (s : Store) (orderId : Nat) : List (Nat × SourcingItem) :=
  ((s.orderItems orderId).filter (fun entry => entry.2.status != .cancelled)).insertionSort
    (fun a b => beforeInOrder s a b = true)

/-- The live lines that hold a number on another purchase order. -/
def Store.movingLines (s : Store) (orderId : Nat) (poKey : String) : List (Nat × SourcingItem) :=
  (s.liveLines orderId).filter (fun entry => (s.poLineOf entry.2).any (·.poKey != poKey))

/-- The live lines without a number. -/
def Store.missingLines (s : Store) (orderId : Nat) : List (Nat × SourcingItem) :=
  (s.liveLines orderId).filter (fun entry => (s.poLineOf entry.2).isNone)

/-- The number of a line. -/
def Store.numberIn (s : Store) (entry : Nat × SourcingItem) : Option Nat :=
  (s.poLineOf entry.2).map (·.lineNumber)

/-- The moving lines can keep their numbers. -/
def Store.allFree (s : Store) (orderId : Nat) (poKey : String) : Bool :=
  (s.movingLines orderId poKey).all (fun entry =>
    (s.numberIn entry).all (fun n => !(issuedNumbers s poKey).contains n))

/-- What `sync_order_lines` asks for each line that it numbers. -/
def Store.lineRequests (s : Store) (orderId : Nat) (poKey : String) : List (Nat × Option Nat) :=
  (s.movingLines orderId poKey).map (fun entry =>
      (entry.1, if s.allFree orderId poKey then s.numberIn entry else none))
    ++ (s.missingLines orderId).map (fun entry => (entry.1, none))

theorem mem_liveLines {id : Nat} {item : SourcingItem}
    : (id, item) ∈ s.liveLines orderId
      ↔ s.items.get? id = some item ∧ item.pendingOrderId = some orderId
          ∧ item.status ≠ .cancelled := by
  rw [Store.liveLines, (List.perm_insertionSort _ _).mem_iff, List.mem_filter, Store.orderItems,
    ← Table.get?_eq_some, Table.get?_filter, Option.filter_eq_some_iff]
  simp [and_assoc]

theorem isLiveLine_iff {id : Nat}
    : s.IsLiveLine orderId id ↔ ∃ item, (id, item) ∈ s.liveLines orderId :=
  exists_congr fun _ => mem_liveLines.symm

theorem liveLines_nodup (s : Store) (orderId : Nat) : ((s.liveLines orderId).map Prod.fst).Nodup := by
  have hperm : ((s.liveLines orderId).map Prod.fst).Perm
      (((s.orderItems orderId).filter (fun entry => entry.2.status != .cancelled)).map Prod.fst) :=
    (List.perm_insertionSort _ _).map Prod.fst
  rw [hperm.nodup_iff]
  exact (((s.items.filter _).keys_increase.imp fun h => Nat.ne_of_lt h).sublist
    (List.filter_sublist.map Prod.fst))

theorem syncOrderLines_eq {order : PendingOrder} (horder : s.orders.get? orderId = some order)
    (hpo : u.normalizePoNumber order.poNumber ≠ "")
    : syncOrderLines u orderId s
      = issueLines u order.poNumber
          (s.lineRequests orderId (u.normalizePoNumber order.poNumber)) s := by
  unfold syncOrderLines
  rw [horder]
  dsimp only
  rw [if_neg hpo, issueLines, Store.lineRequests, List.foldl_append, List.foldl_map, List.foldl_map]
  rfl

-- Staying and moving lines

/-- A live line that holds a number on a purchase order already. -/
structure Store.Staying (s : Store) (orderId : Nat) (poKey : String) (id : Nat)
    (line : PoLineRegister)
    : Prop where
  live : s.IsLiveLine orderId id
  held : s.lineOf? id = some line
  here : line.poKey = poKey

/-- A live line that holds a number on another purchase order. -/
structure Store.Moving (s : Store) (orderId : Nat) (poKey : String) (id : Nat)
    (line : PoLineRegister)
    : Prop where
  live : s.IsLiveLine orderId id
  held : s.lineOf? id = some line
  elsewhere : line.poKey ≠ poKey

/-- The numbers of all moving lines are free. -/
def Store.AllFree (s : Store) (orderId : Nat) (poKey : String) : Prop :=
  ∀ {id line}, s.Moving orderId poKey id line → line.lineNumber ∉ issuedNumbers s poKey

theorem lineOf?_live {id : Nat} {item : SourcingItem} (h : (id, item) ∈ s.liveLines orderId)
    : s.lineOf? id = s.poLineOf item := by
  rw [Store.lineOf?, (mem_liveLines.mp h).1, Option.bind_some]

theorem mem_movingLines {poKey : String} {id : Nat} {item : SourcingItem}
    : (id, item) ∈ s.movingLines orderId poKey
      ↔ (id, item) ∈ s.liveLines orderId
          ∧ ∃ line, s.Moving orderId poKey id line ∧ s.poLineOf item = some line := by
  rw [Store.movingLines, List.mem_filter]
  refine and_congr_right fun hlive => ?_
  rw [Option.any_eq_true]
  constructor
  · rintro ⟨line, hline, hkey⟩
    exact ⟨line, ⟨isLiveLine_iff.mpr ⟨item, hlive⟩, (lineOf?_live hlive).trans hline,
      by simpa using hkey⟩, hline⟩
  · rintro ⟨line, hmoving, hline⟩
    exact ⟨line, hline, by simpa using hmoving.elsewhere⟩

theorem mem_missingLines {id : Nat} {item : SourcingItem}
    : (id, item) ∈ s.missingLines orderId
      ↔ (id, item) ∈ s.liveLines orderId ∧ s.lineOf? id = none := by
  rw [Store.missingLines, List.mem_filter]
  refine and_congr_right fun hlive => ?_
  rw [lineOf?_live hlive, Option.isNone_iff_eq_none]

theorem allFree_iff {poKey : String} : s.allFree orderId poKey = true ↔ s.AllFree orderId poKey := by
  rw [Store.allFree, List.all_eq_true]
  constructor
  · intro h id line hmoving
    obtain ⟨item, hlive⟩ := isLiveLine_iff.mp hmoving.live
    have hline := (lineOf?_live hlive).symm.trans hmoving.held
    have hfree := h (id, item) (mem_movingLines.mpr ⟨hlive, line, hmoving, hline⟩)
    simpa [Store.numberIn, hline] using hfree
  · rintro h ⟨id, item⟩ hmem
    obtain ⟨-, line, hmoving, hline⟩ := mem_movingLines.mp hmem
    simpa [Store.numberIn, hline] using h hmoving

theorem keys_lineRequests (s : Store) (orderId : Nat) (poKey : String)
    : (s.lineRequests orderId poKey).map Prod.fst
      = (s.movingLines orderId poKey).map Prod.fst ++ (s.missingLines orderId).map Prod.fst := by
  rw [Store.lineRequests, List.map_append, List.map_map, List.map_map]
  rfl

theorem lineRequests_nodup (s : Store) (orderId : Nat) (poKey : String)
    : ((s.lineRequests orderId poKey).map Prod.fst).Nodup := by
  rw [keys_lineRequests, List.nodup_append]
  have hids := liveLines_nodup s orderId
  refine ⟨hids.sublist (List.filter_sublist.map _), hids.sublist (List.filter_sublist.map _), ?_⟩
  intro id hmoving other hmissing hsame
  subst hsame
  obtain ⟨⟨_, item⟩, hm, rfl⟩ := List.mem_map.mp hmoving
  obtain ⟨⟨other, item'⟩, hm', hid⟩ := List.mem_map.mp hmissing
  obtain rfl : other = _ := hid
  obtain ⟨-, line, hline, -⟩ := mem_movingLines.mp hm
  have hnone := (mem_missingLines.mp hm').2
  rw [hline.held] at hnone
  cases hnone

theorem mem_keys_lineRequests {poKey : String} {id : Nat}
    : id ∈ (s.lineRequests orderId poKey).map Prod.fst
      ↔ s.IsLiveLine orderId id ∧ ∀ old, s.lineOf? id = some old → old.poKey ≠ poKey := by
  rw [keys_lineRequests, List.mem_append]
  constructor
  · rintro (h | h)
    · obtain ⟨⟨_, item⟩, hm, rfl⟩ := List.mem_map.mp h
      obtain ⟨-, line, hline, -⟩ := mem_movingLines.mp hm
      refine ⟨hline.live, fun old hold => ?_⟩
      rw [hline.held] at hold
      rw [← Option.some.inj hold]
      exact hline.elsewhere
    · obtain ⟨⟨_, item⟩, hm, rfl⟩ := List.mem_map.mp h
      obtain ⟨hlive, hnone⟩ := mem_missingLines.mp hm
      refine ⟨isLiveLine_iff.mpr ⟨item, hlive⟩, fun old hold => ?_⟩
      rw [hnone] at hold
      cases hold
  · rintro ⟨hlive, hother⟩
    obtain ⟨item, hm⟩ := isLiveLine_iff.mp hlive
    rcases hline : s.lineOf? id with _ | line
    · exact .inr (List.mem_map.mpr ⟨(id, item), mem_missingLines.mpr ⟨hm, hline⟩, rfl⟩)
    · refine .inl (List.mem_map.mpr ⟨(id, item), mem_movingLines.mpr ⟨hm, line, ?_, ?_⟩, rfl⟩)
      · exact ⟨hlive, hline, hother line hline⟩
      · exact (lineOf?_live hm).symm.trans hline

theorem Store.Staying.issued {poKey : String} {id : Nat} {line : PoLineRegister}
    (h : s.Staying orderId poKey id line)
    : line.lineNumber ∈ issuedNumbers s poKey := by
  have hheld := h.held
  rw [Store.lineOf?, Option.bind_eq_some_iff] at hheld
  obtain ⟨item, -, hitem⟩ := hheld
  rw [Store.poLineOf, Option.bind_eq_some_iff] at hitem
  obtain ⟨key, -, hrow⟩ := hitem
  refine List.mem_map.mpr ⟨(key, line), List.mem_filter.mpr ⟨Table.get?_eq_some.mp hrow, ?_⟩, rfl⟩
  simpa using h.here

/-- What synchronising the lines of an order promises. -/
structure NumbersSynced (u : Unicode) (orderId : Nat) (poKey : String) (s t : Store) : Prop where
  /-- Every live line holds a number of the purchase order. -/
  held : ∀ {id}, s.IsLiveLine orderId id → ∃ line, t.lineOf? id = some line ∧ line.poKey = poKey
  /-- No two of them hold the same one. -/
  distinct
    : ∀ {id id' line line'}, s.IsLiveLine orderId id → s.IsLiveLine orderId id' → id ≠ id' →
        t.lineOf? id = some line → t.lineOf? id' = some line' → line.lineNumber ≠ line'.lineNumber
  /-- A line that was on the purchase order already keeps its number. -/
  kept : ∀ {id line}, s.Staying orderId poKey id line → t.lineOf? id = some line
  /-- Moved lines keep their numbers where all of them were free. -/
  moved
    : s.AllFree orderId poKey → ∀ {id line}, s.Moving orderId poKey id line →
        ∃ line', t.lineOf? id = some line' ∧ line'.lineNumber = line.lineNumber
  /-- Otherwise they get increasing numbers in the order of the old ones. -/
  renumbered
    : ¬s.AllFree orderId poKey → ∀ {id id' line line' new new'}, s.Moving orderId poKey id line →
        s.Moving orderId poKey id' line' →
        line.lineNumber < line'.lineNumber ∨ line.lineNumber = line'.lineNumber ∧ id < id' →
        t.lineOf? id = some new → t.lineOf? id' = some new' → new.lineNumber < new'.lineNumber
  /-- A number that was issued on the purchase order goes to no other line. -/
  fresh
    : ∀ {id line}, s.IsLiveLine orderId id →
        (∀ old, s.lineOf? id = some old → old.poKey ≠ poKey) → t.lineOf? id = some line →
        line.lineNumber ∉ issuedNumbers s poKey
  /-- Doing it again changes nothing. -/
  again : syncOrderLines u orderId t = t

/-- The orders whose lines can all be numbered: there is a purchase order, the lines on it hold
distinct numbers, and lines that can keep their numbers have distinct ones.
-/
structure Numberable (s : Store) (orderId : Nat) (poKey : String) : Prop where
  hasNumber : poKey ≠ "" ∨ ∀ id, ¬s.IsLiveLine orderId id
  staying
    : ∀ {id id' line line'}, s.Staying orderId poKey id line → s.Staying orderId poKey id' line' →
        id ≠ id' → line.lineNumber ≠ line'.lineNumber
  positive
    : s.AllFree orderId poKey → ∀ {id line}, s.Moving orderId poKey id line → 0 < line.lineNumber
  moving
    : s.AllFree orderId poKey → ∀ {id id' line line'}, s.Moving orderId poKey id line →
        s.Moving orderId poKey id' line' → id ≠ id' → line.lineNumber ≠ line'.lineNumber

/-- The number by which a line is put in order. -/
def Store.orderNumber (s : Store) (entry : Nat × SourcingItem) : Nat :=
  (s.numberIn entry).getD 1000000000

theorem beforeInOrder_iff {a b : Nat × SourcingItem}
    : beforeInOrder s a b = true
      ↔ s.orderNumber a < s.orderNumber b ∨ s.orderNumber a = s.orderNumber b ∧ a.1 ≤ b.1 := by
  unfold beforeInOrder
  simp only [Bool.or_eq_true, Bool.and_eq_true, decide_eq_true_eq, beq_iff_eq]
  rfl

theorem liveLines_sorted (s : Store) (orderId : Nat)
    : (s.liveLines orderId).Pairwise (fun a b => beforeInOrder s a b = true) := by
  have htotal : Std.Total (fun a b : Nat × SourcingItem => beforeInOrder s a b = true) :=
    ⟨fun a b => by
      rw [beforeInOrder_iff, beforeInOrder_iff]
      omega⟩
  have htrans : IsTrans (Nat × SourcingItem) (fun a b => beforeInOrder s a b = true) :=
    ⟨fun a b c => by
      rw [beforeInOrder_iff, beforeInOrder_iff, beforeInOrder_iff]
      omega⟩
  exact List.pairwise_insertionSort _ _

-- The numbers that the lines get

section

variable {poKey : String}

/-- The numbers that an order's lines get. -/
def Store.assigned (s : Store) (orderId : Nat) (poKey : String) : List (Nat × Nat) :=
  assignNumbers (issuedNumbers s poKey) (s.lineRequests orderId poKey)

theorem keys_assigned (s : Store) (orderId : Nat) (poKey : String)
    : (s.assigned orderId poKey).map Prod.fst = (s.lineRequests orderId poKey).map Prod.fst :=
  assignNumbers_keys _ _

theorem LinesIssued.staying (h : LinesIssued poKey (s.assigned orderId poKey) s t) {id : Nat}
    {line : PoLineRegister} (hstaying : s.Staying orderId poKey id line)
    : t.lineOf? id = some line := by
  obtain ⟨item, hitem, -⟩ := hstaying.live
  obtain ⟨lineId, ht, hkept⟩ := h.items hitem
  have hnot : id ∉ (s.assigned orderId poKey).map Prod.fst := by
    rw [keys_assigned, mem_keys_lineRequests]
    rintro ⟨-, hother⟩
    exact hother line hstaying.held hstaying.here
  have hheld := hstaying.held
  rw [Store.lineOf?, hitem, Option.bind_some, Store.poLineOf, Option.bind_eq_some_iff] at hheld
  obtain ⟨key, hkey, hrow⟩ := hheld
  rw [Store.lineOf?, ht, Option.bind_some, Store.poLineOf, hkept hnot]
  exact Option.bind_eq_some_iff.mpr ⟨key, hkey, h.rows hrow⟩

theorem LinesIssued.assigned (h : LinesIssued poKey (s.assigned orderId poKey) s t) {id : Nat}
    (hlive : s.IsLiveLine orderId id) (hother : ∀ old, s.lineOf? id = some old → old.poKey ≠ poKey)
    : ∃ line, t.lineOf? id = some line ∧ line.poKey = poKey
        ∧ (id, line.lineNumber) ∈ s.assigned orderId poKey := by
  have hkey : id ∈ (s.assigned orderId poKey).map Prod.fst := by
    rw [keys_assigned]
    exact mem_keys_lineRequests.mpr ⟨hlive, hother⟩
  obtain ⟨⟨_, number⟩, hmem, rfl⟩ := List.mem_map.mp hkey
  obtain ⟨item, hitem, -⟩ := hlive
  obtain ⟨line, hline, hhere, hnumber⟩ := h.lines hmem (by rw [hitem]; rfl)
  refine ⟨line, hline, hhere, ?_⟩
  rw [hnumber]
  exact hmem

theorem Store.Moving.other {id : Nat} {line : PoLineRegister} (h : s.Moving orderId poKey id line)
    : ∀ old, s.lineOf? id = some old → old.poKey ≠ poKey := by
  intro old hold
  rw [h.held] at hold
  rw [← Option.some.inj hold]
  exact h.elsewhere

theorem assigned_granted (hfree : s.AllFree orderId poKey)
    (hpositive : ∀ {id line}, s.Moving orderId poKey id line → 0 < line.lineNumber)
    (hdistinct : ∀ {id id' line line'}, s.Moving orderId poKey id line →
      s.Moving orderId poKey id' line' → id ≠ id' → line.lineNumber ≠ line'.lineNumber)
    {id : Nat} {line : PoLineRegister} (h : s.Moving orderId poKey id line)
    : (id, line.lineNumber) ∈ s.assigned orderId poKey := by
  -- What the moving lines ask for, as pairs of a line and its number.
  have hnumber : ∀ entry ∈ s.movingLines orderId poKey, ∃ line,
      s.Moving orderId poKey entry.1 line ∧ s.numberIn entry = some line.lineNumber := by
    rintro ⟨id, item⟩ hmem
    obtain ⟨-, line, hmoving, hline⟩ := mem_movingLines.mp hmem
    exact ⟨line, hmoving, by rw [Store.numberIn, hline, Option.map_some]⟩
  have hrequests : s.lineRequests orderId poKey
      = ((s.movingLines orderId poKey).map (fun entry => (entry.1, (s.numberIn entry).getD 0))).map
          (fun p => (p.1, some p.2))
        ++ (s.missingLines orderId).map (fun entry => (entry.1, none)) := by
    rw [Store.lineRequests, allFree_iff.mpr hfree, List.map_map]
    refine congrArg (· ++ _) (List.map_congr_left fun entry hentry => ?_)
    obtain ⟨line, -, hline⟩ := hnumber entry hentry
    simp [hline]
  rw [Store.assigned, hrequests]
  refine assignNumbers_granted _ (fun p hp => ?_) ?_ (id, line.lineNumber) ?_
  · obtain ⟨entry, hentry, rfl⟩ := List.mem_map.mp hp
    obtain ⟨line, hmoving, hline⟩ := hnumber entry hentry
    rw [hline]
    exact ⟨hpositive hmoving, hfree hmoving⟩
  · refine List.pairwise_map.mpr (List.Pairwise.imp_of_mem ?_
      (List.pairwise_map.mp ((liveLines_nodup s orderId).sublist (List.filter_sublist.map _))))
    intro a b ha hb hne
    obtain ⟨line, hmoving, hline⟩ := hnumber a ha
    obtain ⟨line', hmoving', hline'⟩ := hnumber b hb
    rw [hline, hline']
    exact hdistinct hmoving hmoving' hne
  · obtain ⟨item, hlive⟩ := isLiveLine_iff.mp h.live
    have hheld := (lineOf?_live hlive).symm.trans h.held
    refine List.mem_map.mpr ⟨(id, item), mem_movingLines.mpr ⟨hlive, line, h, hheld⟩, ?_⟩
    rw [Store.numberIn, hheld]
    rfl

/-- Otherwise the moving lines are numbered in their order. -/
theorem assigned_increase (hfree : ¬s.AllFree orderId poKey) {id id' number number' : Nat}
    {line line' : PoLineRegister} (h : s.Moving orderId poKey id line)
    (h' : s.Moving orderId poKey id' line')
    (hbefore : line.lineNumber < line'.lineNumber ∨ line.lineNumber = line'.lineNumber ∧ id < id')
    (hmem : (id, number) ∈ s.assigned orderId poKey)
    (hmem' : (id', number') ∈ s.assigned orderId poKey)
    : number < number' := by
  have hnone : ∀ entry ∈ s.lineRequests orderId poKey, entry.2 = none := by
    have hflag : s.allFree orderId poKey = false := by
      rw [← Bool.not_eq_true, allFree_iff]
      exact hfree
    intro entry hentry
    rw [Store.lineRequests, hflag] at hentry
    rcases List.mem_append.mp hentry with hm | hm
    · obtain ⟨_, -, rfl⟩ := List.mem_map.mp hm
      rfl
    · obtain ⟨_, -, rfl⟩ := List.mem_map.mp hm
      rfl
  have hnumbers := (assignNumbers_increase (issuedNumbers s poKey) hnone).1
  -- A moving line does not come before one with a smaller number.
  have hsorted : ((s.assigned orderId poKey).map Prod.fst).Pairwise (fun a b =>
      ∀ line line', s.Moving orderId poKey a line → s.Moving orderId poKey b line' →
        ¬(line'.lineNumber < line.lineNumber
          ∨ line'.lineNumber = line.lineNumber ∧ b < a)) := by
    have hmissing : ∀ id ∈ (s.missingLines orderId).map Prod.fst, ∀ line,
        ¬s.Moving orderId poKey id line := by
      intro id hid line hmoving
      obtain ⟨⟨_, item⟩, hm, rfl⟩ := List.mem_map.mp hid
      have hnone := (mem_missingLines.mp hm).2
      rw [hmoving.held] at hnone
      cases hnone
    rw [keys_assigned, keys_lineRequests, List.pairwise_append]
    refine ⟨?_, ?_, fun a _ b hb line line' _ hmoving' => absurd hmoving' (hmissing b hb line')⟩
    · refine List.pairwise_map.mpr (List.Pairwise.imp_of_mem ?_
        ((liveLines_sorted s orderId).sublist List.filter_sublist))
      rintro ⟨a, itemA⟩ ⟨b, itemB⟩ ha hb hab line line' hline hline'
      have hnumber : ∀ {id item line}, (id, item) ∈ s.movingLines orderId poKey →
          s.Moving orderId poKey id line → s.orderNumber (id, item) = line.lineNumber := by
        intro id item line hm hmoving
        have hheld := (lineOf?_live (mem_movingLines.mp hm).1).symm.trans hmoving.held
        rw [Store.orderNumber, Store.numberIn, hheld]
        rfl
      rw [beforeInOrder_iff, hnumber ha hline, hnumber hb hline'] at hab
      dsimp only at hab
      omega
    · exact List.pairwise_of_forall_mem_list fun a ha b _ line line' hmoving _ =>
        absurd hmoving (hmissing a ha line)
  have hne : (id, number) ≠ (id', number') := by
    intro hsame
    obtain rfl := congrArg Prod.fst hsame
    have hlines := Option.some.inj (h.held.symm.trans h'.held)
    rw [hlines] at hbefore
    omega
  rcases pairwise_either (hnumbers.and (List.pairwise_map.mp hsorted)) hmem hmem' hne with hin | hin
  · exact hin.1
  · exact absurd hbefore (hin.2 line' line h' h)

-- Synchronised orders

theorem LinesIssued.live {assigned : List (Nat × Nat)} (h : LinesIssued poKey assigned s t) {id : Nat}
    {item : SourcingItem} (hmem : (id, item) ∈ t.liveLines orderId)
    : s.IsLiveLine orderId id := by
  obtain ⟨ht, horder, hstatus⟩ := mem_liveLines.mp hmem
  obtain ⟨before, hbefore⟩ := Option.isSome_iff_exists.mp (h.back ht)
  obtain ⟨lineId, hafter, -⟩ := h.items hbefore
  rw [ht] at hafter
  obtain rfl := Option.some.inj hafter
  exact ⟨before, hbefore, horder, hstatus⟩

theorem syncOrderLines_settled {order : PendingOrder} (horder : s.orders.get? orderId = some order)
    (hpo : u.normalizePoNumber order.poNumber ≠ "")
    (hheld : ∀ id item, (id, item) ∈ s.liveLines orderId →
      ∃ line, s.lineOf? id = some line ∧ line.poKey = u.normalizePoNumber order.poNumber)
    : syncOrderLines u orderId s = s := by
  have hnone : s.lineRequests orderId (u.normalizePoNumber order.poNumber) = [] := by
    rw [← List.map_eq_nil_iff, List.eq_nil_iff_forall_not_mem]
    intro id hid
    obtain ⟨hlive, hother⟩ := mem_keys_lineRequests.mp hid
    obtain ⟨item, hmem⟩ := isLiveLine_iff.mp hlive
    obtain ⟨line, hline, hhere⟩ := hheld id item hmem
    exact hother line hline hhere
  rw [syncOrderLines_eq horder hpo, hnone]
  rfl

theorem syncOrderLines_empty (hempty : ∀ id, ¬s.IsLiveLine orderId id)
    : syncOrderLines u orderId s = s := by
  rcases horder : s.orders.get? orderId with _ | order
  · unfold syncOrderLines
    rw [horder]
  · by_cases hpo : u.normalizePoNumber order.poNumber = ""
    · have hnone : s.liveLines orderId = [] := List.eq_nil_iff_forall_not_mem.mpr fun entry hentry =>
        hempty entry.1 (isLiveLine_iff.mpr ⟨entry.2, hentry⟩)
      unfold syncOrderLines
      rw [horder]
      dsimp only
      rw [if_pos hpo]
      change (s.liveLines orderId).foldl _ s = s
      rw [hnone]
      rfl
    · exact syncOrderLines_settled horder hpo fun id item hmem =>
        absurd (isLiveLine_iff.mpr ⟨item, hmem⟩) (hempty id)

theorem clearLines_lineOf? {entries : List (Nat × SourcingItem)} {id : Nat}
    (h : id ∈ entries.map Prod.fst ∨ s.lineOf? id = none)
    : (entries.foldl (fun s entry => s.modifyItem entry.1
        (fun item => { item with poLineId := none })) s).lineOf? id = none := by
  induction entries generalizing s with
  | nil => exact h.resolve_left List.not_mem_nil
  | cons entry rest ih =>
      have hcleared : (s.modifyItem entry.1 (fun item => { item with poLineId := none })).lineOf? id
          = ((s.items.modify entry.1 (fun item => { item with poLineId := none })).get? id).bind
              s.poLineOf := rfl
      refine ih ?_
      by_cases hid : id = entry.1
      · refine .inr ?_
        rw [hcleared, hid, Table.get?_modify_self]
        rcases s.items.get? entry.1 with _ | item
        · rfl
        · rfl
      · rcases h with h | h
        · exact .inl ((List.mem_cons.mp h).resolve_left hid)
        · refine .inr ?_
          rw [hcleared, Table.get?_modify_ne _ _ hid]
          exact h

theorem syncOrderLines_blank {order : PendingOrder} (horder : s.orders.get? orderId = some order)
    (hpo : u.normalizePoNumber order.poNumber = "") {id : Nat} (hlive : s.IsLiveLine orderId id)
    : (syncOrderLines u orderId s).lineOf? id = none := by
  unfold syncOrderLines
  rw [horder]
  dsimp only
  rw [if_pos hpo]
  obtain ⟨item, hmem⟩ := isLiveLine_iff.mp hlive
  exact clearLines_lineOf? (.inl (List.mem_map.mpr ⟨(id, item), hmem, rfl⟩))

/-- Numbered lines of an order whose lines can all be numbered keep the promises. -/
theorem LinesIssued.synced {order : PendingOrder} (horder : s.orders.get? orderId = some order)
    (hpo : u.normalizePoNumber order.poNumber = poKey) (hne : poKey ≠ "")
    (hcan : Numberable s orderId poKey) (h : LinesIssued poKey (s.assigned orderId poKey) s t)
    : NumbersSynced u orderId poKey s t := by
  have hcases : ∀ {id}, s.IsLiveLine orderId id →
      (∃ line, s.Staying orderId poKey id line)
        ∨ ∀ old, s.lineOf? id = some old → old.poKey ≠ poKey := by
    intro id hlive
    by_cases hstays : ∃ line, s.lineOf? id = some line ∧ line.poKey = poKey
    · obtain ⟨line, hline, hhere⟩ := hstays
      exact .inl ⟨line, hlive, hline, hhere⟩
    · exact .inr fun old hold hhere => hstays ⟨old, hold, hhere⟩
  have hassigned : ∀ {id line}, s.IsLiveLine orderId id →
      (∀ old, s.lineOf? id = some old → old.poKey ≠ poKey) → t.lineOf? id = some line →
      (id, line.lineNumber) ∈ s.assigned orderId poKey := by
    intro id line hlive hother hline
    obtain ⟨line', hline', -, hmem⟩ := h.assigned hlive hother
    rw [hline] at hline'
    rw [Option.some.inj hline']
    exact hmem
  have hheld : ∀ {id}, s.IsLiveLine orderId id →
      ∃ line, t.lineOf? id = some line ∧ line.poKey = poKey := by
    intro id hlive
    rcases hcases hlive with ⟨line, hstays⟩ | hother
    · exact ⟨line, h.staying hstays, hstays.here⟩
    · obtain ⟨line, hline, hhere, -⟩ := h.assigned hlive hother
      exact ⟨line, hline, hhere⟩
  refine ⟨hheld, ?_, h.staying, ?_, ?_, ?_, ?_⟩
  · intro id id' line line' hlive hlive' hids hline hline' hsame
    rcases hcases hlive with ⟨old, hstays⟩ | hother <;> rcases hcases hlive' with ⟨old', hstays'⟩ | hother'
    · obtain rfl := Option.some.inj ((h.staying hstays).symm.trans hline)
      obtain rfl := Option.some.inj ((h.staying hstays').symm.trans hline')
      exact hcan.staying hstays hstays' hids hsame
    · obtain rfl := Option.some.inj ((h.staying hstays).symm.trans hline)
      refine (assignNumbers_fresh (hassigned hlive' hother' hline')).2 ?_
      rw [← hsame]
      exact hstays.issued
    · obtain rfl := Option.some.inj ((h.staying hstays').symm.trans hline')
      refine (assignNumbers_fresh (hassigned hlive hother hline)).2 ?_
      dsimp only
      rw [hsame]
      exact hstays'.issued
    · have hpair : (id, line.lineNumber) ≠ (id', line'.lineNumber) :=
        fun he => hids (congrArg Prod.fst he)
      rcases pairwise_either (assignNumbers_distinct _ _) (hassigned hlive hother hline)
        (hassigned hlive' hother' hline') hpair with hne | hne
      · exact hne hsame
      · exact hne hsame.symm
  · intro hfree id line hmoving
    have hmem := assigned_granted hfree (hcan.positive hfree) (hcan.moving hfree) hmoving
    obtain ⟨item, hitem, -⟩ := hmoving.live
    obtain ⟨line', hline', -, hnumber⟩ := h.lines hmem (by rw [hitem]; rfl)
    exact ⟨line', hline', hnumber⟩
  · intro hfree id id' line line' new new' hmoving hmoving' hbefore hnew hnew'
    exact assigned_increase hfree hmoving hmoving' hbefore
      (hassigned hmoving.live hmoving.other hnew) (hassigned hmoving'.live hmoving'.other hnew')
  · intro id line hlive hother hline
    exact (assignNumbers_fresh (hassigned hlive hother hline)).2
  · have horder' : t.orders.get? orderId = some order := by rw [h.orders, horder]
    refine syncOrderLines_settled horder' (by rw [hpo]; exact hne) fun id item hmem => ?_
    rw [hpo]
    exact hheld (h.live hmem)

/-- Synchronising an order's lines keeps all its promises exactly for the orders whose lines can all
be numbered.
-/
theorem syncOrderLines_synced {order : PendingOrder} (horder : s.orders.get? orderId = some order)
    : NumbersSynced u orderId (u.normalizePoNumber order.poNumber) s (syncOrderLines u orderId s)
      ↔ Numberable s orderId (u.normalizePoNumber order.poNumber) := by
  constructor
  · intro h
    have hnumber : u.normalizePoNumber order.poNumber ≠ "" ∨ ∀ id, ¬s.IsLiveLine orderId id := by
      by_cases hpo : u.normalizePoNumber order.poNumber = ""
      · refine .inr fun id hlive => ?_
        obtain ⟨line, hline, -⟩ := h.held hlive
        rw [syncOrderLines_blank horder hpo hlive] at hline
        cases hline
      · exact .inl hpo
    refine ⟨hnumber, ?_, ?_, ?_⟩
    · intro id id' line line' hstays hstays' hids
      exact h.distinct hstays.live hstays'.live hids (h.kept hstays) (h.kept hstays')
    · intro hfree id line hmoving
      have hpo := hnumber.resolve_right fun hempty => hempty id hmoving.live
      have hissued := issueLines_issued u order.poNumber
        (lineRequests_nodup s orderId (u.normalizePoNumber order.poNumber)) s
      obtain ⟨line', hline', hsame⟩ := h.moved hfree hmoving
      rw [syncOrderLines_eq horder hpo] at hline'
      obtain ⟨given, hgiven, -, hmem⟩ := hissued.assigned hmoving.live hmoving.other
      rw [hline'] at hgiven
      obtain rfl := Option.some.inj hgiven
      rw [← hsame]
      exact (assignNumbers_fresh hmem).1
    · intro hfree id id' line line' hmoving hmoving' hids
      obtain ⟨new, hnew, hsame⟩ := h.moved hfree hmoving
      obtain ⟨new', hnew', hsame'⟩ := h.moved hfree hmoving'
      rw [← hsame, ← hsame']
      exact h.distinct hmoving.live hmoving'.live hids hnew hnew'
  · intro hcan
    rcases hcan.hasNumber with hpo | hempty
    · rw [syncOrderLines_eq horder hpo]
      exact (issueLines_issued u order.poNumber
        (lineRequests_nodup s orderId (u.normalizePoNumber order.poNumber)) s).synced horder rfl hpo hcan
    · rw [syncOrderLines_empty hempty]
      refine ⟨fun hlive => absurd hlive (hempty _), fun hlive => absurd hlive (hempty _),
        fun hstays => absurd hstays.live (hempty _), fun _ _ _ hmoving =>
          absurd hmoving.live (hempty _), fun _ _ _ _ _ _ _ hmoving =>
          absurd hmoving.live (hempty _), fun hlive => absurd hlive (hempty _),
        syncOrderLines_empty hempty⟩

end

/-- A row of the register on one of two old purchase orders. -/
def oldRow (poKey : String) (number : Nat) : PoLineRegister := ⟨poKey, poKey, number⟩

/-- A line of order 1 that holds a row of the register. -/
def movedLine (lineId : Nat) : SourcingItem where
  publisherName := "Northwind"
  softwareDescription := "Suite"
  status := .converted
  pendingOrderId := some 1
  poLineId := some lineId

/-- An order whose two lines come from two purchase orders, with the number of the second. -/
def movedStore (number : Nat) : Store where
  orders := Table.empty.insert { poNumber := "po-c" }
  items := (Table.empty.insert (movedLine 1)).insert (movedLine 2)
  poLines := (Table.empty.insert (oldRow "po-a" 3)).insert (oldRow "po-b" number)

theorem movedStore_lineOf? (number id : Nat)
    : (movedStore number).lineOf? id
      = if id = 2 then some (oldRow "po-b" number)
        else if id = 1 then some (oldRow "po-a" 3) else none := by
  have hitems : (movedStore number).items.get? id
      = if id = 2 then some (movedLine 2) else if id = 1 then some (movedLine 1) else none :=
    (Table.get?_insert _ _ id).trans (by rw [Table.get?_insert]; rfl)
  rw [Store.lineOf?, hitems]
  split_ifs <;> rfl

theorem movedStore_moving {number id : Nat} {line : PoLineRegister}
    (h : (movedStore number).Moving 1 "po-c" id line)
    : id = 1 ∧ line = oldRow "po-a" 3 ∨ id = 2 ∧ line = oldRow "po-b" number := by
  have hheld := h.held
  rw [movedStore_lineOf?] at hheld
  split_ifs at hheld with htwo hone
  · exact .inr ⟨htwo, (Option.some.inj hheld).symm⟩
  · exact .inl ⟨hone, (Option.some.inj hheld).symm⟩

theorem movedStore_notStaying {number id : Nat} {line : PoLineRegister}
    : ¬(movedStore number).Staying 1 "po-c" id line := by
  rintro ⟨-, hheld, hhere⟩
  rw [movedStore_lineOf?] at hheld
  split_ifs at hheld
  · obtain rfl := Option.some.inj hheld
    exact absurd hhere (by decide : "po-b" ≠ "po-c")
  · obtain rfl := Option.some.inj hheld
    exact absurd hhere (by decide : "po-a" ≠ "po-c")

theorem movedStore_allFree (number : Nat) : (movedStore number).AllFree 1 "po-c" := by
  intro id line _
  have hnone : issuedNumbers (movedStore number) "po-c" = [] := rfl
  rw [hnone]
  exact List.not_mem_nil

/-- Two lines with different numbers both keep theirs. -/
theorem syncOrderLines_synced_twoNumbers
    : NumbersSynced .ascii 1 "po-c" (movedStore 4) (syncOrderLines .ascii 1 (movedStore 4)) := by
  have horder : (movedStore 4).orders.get? 1 = some { poNumber := "po-c" } := rfl
  refine (syncOrderLines_synced horder).mpr ⟨.inl (by decide), ?_, ?_, ?_⟩
  · intro id id' line line' hstays
    exact absurd hstays movedStore_notStaying
  · intro _ id line hmoving
    rcases movedStore_moving hmoving with ⟨-, rfl⟩ | ⟨-, rfl⟩ <;> decide
  · intro _ id id' line line' hmoving hmoving' hids
    rcases movedStore_moving hmoving with ⟨rfl, rfl⟩ | ⟨rfl, rfl⟩ <;>
      rcases movedStore_moving hmoving' with ⟨rfl, rfl⟩ | ⟨rfl, rfl⟩
    · exact absurd rfl hids
    · decide
    · decide
    · exact absurd rfl hids

/-- Two lines that come with the same number from two purchase orders: the second one loses it,
though it was free.
-/
theorem syncOrderLines_sameNumber
    : ¬∀ (s : Store) (orderId : Nat) (order : PendingOrder), s.orders.get? orderId = some order →
        Unicode.ascii.normalizePoNumber order.poNumber ≠ "" →
        NumbersSynced .ascii orderId (Unicode.ascii.normalizePoNumber order.poNumber) s
          (syncOrderLines .ascii orderId s) := by
  intro h
  have hsynced := h (movedStore 3) 1 { poNumber := "po-c" } rfl (by decide)
  have hmoving : (movedStore 3).Moving 1 "po-c" 2 (oldRow "po-b" 3) :=
    ⟨⟨movedLine 2, rfl, rfl, by decide⟩, rfl, by decide⟩
  obtain ⟨line, hline, hnumber⟩ := hsynced.moved (movedStore_allFree 3) hmoving
  have hgiven : ((syncOrderLines .ascii 1 (movedStore 3)).lineOf? 2).map (·.lineNumber) = some 4 := by
    decide +kernel
  rw [hline, Option.map_some, hnumber] at hgiven
  revert hgiven
  decide

end LicenseTrack
