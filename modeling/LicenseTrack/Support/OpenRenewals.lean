import LicenseTrack.Support.RenewalLines

/-! Open support renewals: over every order of the statements of the requests that change sourcing
lines, at most one open line names a licence, as long as no line is opened for a licence that an open
line names already.
-/

namespace LicenseTrack

open Library

section

variable {α : Type}

theorem get?_insertAll (rows : List α) (t : Table α) (key : Nat)
    : (insertAll rows t).get? key
      = (t.get? key).or (if t.nextKey ≤ key then rows[key - t.nextKey]? else none) := by
  induction rows generalizing t with
  | nil => simp [insertAll]
  | cons row rows ih =>
      rw [insertAll, ih, Table.get?_insert, Table.nextKey_insert]
      by_cases heq : key = t.nextKey
      · subst heq
        simp
      · rw [if_neg heq]
        by_cases hle : t.nextKey ≤ key
        · have hlt : t.nextKey + 1 ≤ key := by omega
          have hsub : key - t.nextKey = (key - (t.nextKey + 1)) + 1 := by omega
          rw [if_pos hle, if_pos hlt, hsub, List.getElem?_cons_succ]
        · rw [if_neg hle, if_neg (by omega)]

end

-- Writes that open lines

variable {a a' : LineStore} {w : LineWrite}

/-- At most one open line names each licence. -/
def LineStore.AtMostOne (a : LineStore) : Prop :=
  ∀ licenseId, ∀ i ∈ a.openSupportRenewals licenseId, ∀ j ∈ a.openSupportRenewals licenseId, i = j

/-- The lines that a write opens, each with the licence it opens the line for: new lines, and stored
lines that it changes so that they name the licence or are no longer cancelled.
-/
def LineWrite.opened (w : LineWrite) (a : LineStore) : List (Nat × Nat) :=
  w.inserted.zipIdx.filterMap (fun entry =>
      if entry.1.1.status = .cancelled then none
      else entry.1.1.maintenanceParentLicenseId.map fun licenseId =>
        (a.items.nextKey + entry.2, licenseId))
    ++ a.items.entries.filterMap (fun entry =>
      let line := w.rewritten entry.1 entry.2
      line.maintenanceParentLicenseId.bind fun licenseId =>
        if a.opens licenseId entry.1 line ∧ ¬ a.opens licenseId entry.1 entry.2 then
          some (entry.1, licenseId)
        else none)

/-- The lines that a write opens are for different licences, none of which an open line names. -/
def LineWrite.OpensFree (w : LineWrite) (a : LineStore) : Prop :=
  ((w.opened a).map Prod.snd).Nodup ∧ ∀ entry ∈ w.opened a, a.openSupportRenewals entry.2 = []

instance (w : LineWrite) (a : LineStore) : Decidable (w.OpensFree a) :=
  inferInstanceAs (Decidable (_ ∧ _))

namespace LineWrite

theorem converted_apply (h : w.apply a = .ok a') {id : Nat} (hc : a.converted id = true)
    : a'.converted id = true := by
  simp only [apply, bind_eq_ok, require_eq_ok, pure_eq_ok] at h
  obtain ⟨-, -, -, -, rfl⟩ := h
  simp only [LineStore.converted, List.any_eq_true] at hc ⊢
  obtain ⟨⟨key, license⟩, hm, hs⟩ := hc
  refine ⟨(key, license), ?_, hs⟩
  rw [← Table.get?_eq_some] at hm ⊢
  rw [get?_insertAll, hm, Option.some_or]

theorem open_cases (h : w.apply a = .ok a') {licenseId id : Nat}
    (ho : id ∈ a'.openSupportRenewals licenseId)
    : id ∈ a.openSupportRenewals licenseId ∨ (id, licenseId) ∈ w.opened a := by
  have hconverted : a.converted id = false := by
    cases hc : a.converted id with
    | false => rfl
    | true =>
        obtain ⟨line, -, hopens⟩ := Table.mem_select.mp ho
        simp only [LineStore.opens, w.converted_apply h hc, Bool.not_true, Bool.and_false] at hopens
        cases hopens
  obtain ⟨line, hline, hopens⟩ := Table.mem_select.mp ho
  simp only [apply, bind_eq_ok, require_eq_ok, pure_eq_ok] at h
  obtain ⟨-, -, -, -, rfl⟩ := h
  simp only [LineStore.opens, Bool.and_eq_true, beq_iff_eq, bne_iff_ne] at hopens
  obtain ⟨⟨hparent, hstatus⟩, -⟩ := hopens
  have hbefore : a.opens licenseId id line = true := by
    simp [LineStore.opens, hparent, hstatus, hconverted]
  rw [Table.get?_filter, Option.filter_eq_some_iff, get?_insertAll, Table.get?_mapRows] at hline
  rcases Option.or_eq_some_iff.mp hline.1 with hstored | ⟨-, hnew⟩
  · obtain ⟨stored, hs, rfl⟩ := Option.map_eq_some_iff.mp hstored
    by_cases hwas : a.opens licenseId id stored = true
    · exact .inl (Table.mem_select.mpr ⟨stored, hs, hwas⟩)
    · refine .inr (List.mem_append.mpr (.inr (List.mem_filterMap.mpr
        ⟨(id, stored), Table.get?_eq_some.mp hs, ?_⟩)))
      simp only [hparent, Option.bind_some]
      rw [if_pos ⟨hbefore, hwas⟩]
  · split at hnew
    · next hle =>
        rw [Table.nextKey_mapRows] at hle hnew
        simp only [newLines, List.getElem?_map, Option.map_eq_some_iff] at hnew
        obtain ⟨entry, hentry, rfl⟩ := hnew
        refine .inr (List.mem_append.mpr (.inl (List.mem_filterMap.mpr
          ⟨(entry, id - a.items.nextKey), List.mk_mem_zipIdx_iff_getElem?.mpr hentry, ?_⟩)))
        have hkey : a.items.nextKey + (id - a.items.nextKey) = id := by omega
        cases hplace : entry.2 with
        | none =>
            simp only [hplace] at hparent hstatus
            simp only [hparent, if_neg hstatus, Option.map_some, hkey]
        | some position =>
            simp only [hplace] at hparent hstatus
            simp only [hparent, if_neg hstatus, Option.map_some, hkey]
    · cases hnew

theorem atMostOne (h : w.apply a = .ok a') (ha : a.AtMostOne) (hfree : w.OpensFree a)
    : a'.AtMostOne := by
  obtain ⟨hdistinct, hnone⟩ := hfree
  have htaken : ∀ {licenseId i j}, (i, licenseId) ∈ w.opened a →
      j ∈ a.openSupportRenewals licenseId → i = j := by
    intro licenseId i j hi hj
    have hempty : a.openSupportRenewals licenseId = [] := hnone _ hi
    rw [hempty] at hj
    cases hj
  intro licenseId i hi j hj
  rcases w.open_cases h hi with hi | hi
  · rcases w.open_cases h hj with hj | hj
    · exact ha licenseId i hi j hj
    · exact (htaken hj hi).symm
  · rcases w.open_cases h hj with hj | hj
    · exact htaken hi hj
    · exact congrArg Prod.fst (List.inj_on_of_nodup_map hdistinct hi hj rfl)

end LineWrite

-- Runs

namespace LineProgram

variable {program : LineProgram}

/-- A request that ends its transaction next. -/
def Ending : LineProgram → Prop
  | .committing | .rollingBack _ => True
  | _ => False

theorem Ending.cases (h : program.Ending)
    : program = .committing ∨ ∃ failure, program = .rollingBack failure := by
  cases program with
  | committing => exact .inl rfl
  | rollingBack failure => exact .inr ⟨failure, rfl⟩
  | requested _ | checking _ | writing _ | answered | failed _ => exact h.elim

/-- What a request is about to write, as far as it has decided. -/
def write? (a : LineStore) : LineProgram → Option LineWrite
  | .writing write => some write
  | .requested request => if request.reservesFirst then (request.plan a).toOption else none
  | _ => none

/-- A request writes no line that it opens for a licence which an open line names. -/
def OpensFree (a : LineStore) (program : LineProgram) : Prop :=
  (program.write? a).all (fun write => decide (write.OpensFree a)) = true

instance (a : LineStore) (program : LineProgram) : Decidable (OpensFree a program) :=
  inferInstanceAs (Decidable (_ = true))

theorem OpensFree.write (h : OpensFree a program) {write : LineWrite}
    (hw : program.write? a = some write)
    : write.OpensFree a := by
  rw [OpensFree, hw, Option.all_some, decide_eq_true_eq] at h
  exact h

theorem written_sound {result : Except Failure LineStore} (ha : a.AtMostOne)
    (hresult : ∀ b, result = .ok b → b.AtMostOne)
    : (written a result).1.AtMostOne ∧ (written a result).2.Ending := by
  cases result with
  | ok b => exact ⟨hresult b rfl, trivial⟩
  | error failure => exact ⟨ha, trivial⟩

theorem write_sound {next : LineStore → LineStore × LineProgram}
    (hs : statement program = .write next) (ha : a.AtMostOne) (hfree : OpensFree a program)
    : (next a).1.AtMostOne ∧ (next a).2.Ending := by
  cases program with
  | writing write =>
      obtain rfl := Statement.write.inj hs
      refine written_sound ha fun b hb => ?_
      exact write.atMostOne hb ha (hfree.write rfl)
  | requested request =>
      have hreserves : request.reservesFirst = true
          ∧ next = fun a => written a (request.plan a >>= fun write => write.apply a) := by
        cases request <;> simp_all [statement, LineRequest.reservesFirst]
      obtain ⟨hfirst, rfl⟩ := hreserves
      refine written_sound ha fun b hb => ?_
      obtain ⟨write, hplan, hb⟩ := bind_eq_ok.mp hb
      refine write.atMostOne hb ha (hfree.write ?_)
      simp only [write?, hfirst, if_true, hplan, Except.toOption]
  | checking licenseId => cases hs
  | committing => cases hs
  | rollingBack failure => cases hs
  | answered => cases hs
  | failed failure => cases hs

/-- A request whose process ended. -/
def dead : LineProgram := .failed (.database "process ended")

theorem discipline
    : Discipline statement dead OpensFree LineStore.AtMostOne (fun _ _ => True)
        (fun _ own p => own.AtMostOne ∧ p.Ending) (fun _ _ => True) where
  outlives _ _ := trivial
  dead _ := trivial
  read _ _ := trivial
  readOwn hs h := by
    rcases h.2.cases with rfl | ⟨failure, rfl⟩
    · cases hs
    · cases hs
  write hs hgood _ hfree := write_sound hs hgood hfree
  writeOwn hs _ h _ := by
    rcases h.2.cases with rfl | ⟨failure, rfl⟩
    · cases hs
    · cases hs
  commit _ _ := trivial
  commitOwn _ _ h := ⟨h.1, trivial, trivial⟩
  rollback _ _ := trivial
  rollbackOwn _ _ := trivial

end LineProgram

/-- Requests that have arrived, on lines that no transaction is changing. -/
def lineRequests (a : LineStore) (requests : Nat → LineRequest)
    : Sessions LineStore LineProgram where
  committed := a
  writer := none
  program i := .requested (requests i)

end LicenseTrack
