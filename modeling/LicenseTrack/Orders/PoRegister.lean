import LicenseTrack.Import.PoLines

/-! Issuing line numbers on purchase orders against the register table: a number is asked for, the
insert is refused where the pair of order and number is there already, and then the next free number
is tried. The numbers planned ahead are the ones that are issued.
-/

namespace LicenseTrack.PoRegister

open Library

/-- A row of the register, without the time at which it was issued. -/
structure Line where
  poKey : String
  poNumber : String
  lineNumber : Int
deriving DecidableEq

/-- `_MAX_ATTEMPTS`. -/
def maxAttempts : Nat := 5

/-- The numbers issued on a purchase order. -/
def numbersOn (register : List Line) (poKey : String) : List Int :=
  (register.filter (fun line => line.poKey == poKey)).map (·.lineNumber)

/-- `_next_free_number`. -/
def nextFreeNumber (register : List Line) (poKey : String) : Int :=
  (numbersOn register poKey).max?.getD 0 + 1

/-- `_is_free`. -/
def isFree (register : List Line) (poKey : String) (number : Int) : Bool :=
  !(numbersOn register poKey).contains number

/-- The insert of a row, refused by the unique constraint over purchase order and number. -/
def insertLine (register : List Line) (line : Line) : Option (List Line) :=
  if isFree register line.poKey line.lineNumber then some (register ++ [line]) else none

/-- The number that an attempt of `allocate_line` tries. -/
def attemptedNumber (register : List Line) (poKey : String) (requested : Option Int) : Int :=
  match requested with
  | some n => if 0 < n ∧ isFree register poKey n = true then n else nextFreeNumber register poKey
  | none => nextFreeNumber register poKey

/-- The loop of `allocate_line`, with the attempts that are left. -/
def attemptLine (poKey poNumber : String) (register : List Line)
    : Nat → Option Int → Except Failure (Line × List Line)
  | 0, _ => .error (.database s!"Could not allocate a PO line on {poNumber}")
  | attempts + 1, requested =>
      let line : Line :=
        {
          poKey
          poNumber := joinWords poNumber
          lineNumber := attemptedNumber register poKey requested
        }
      match insertLine register line with
      | some register => .ok (line, register)
      | none => attemptLine poKey poNumber register attempts none

/-- `allocate_line`. -/
def allocateLine (u : Unicode) (register : List Line) (poNumber : String) (requested : Option Int)
    : Except Failure (Line × List Line) :=
  let poKey := u.normalizePoNumber poNumber
  if poKey = "" then .error (.value "A PO line needs a PO number")
  else attemptLine poKey poNumber register maxAttempts requested

/-- The number that a request gets where some numbers are taken. -/
def freeNumber (taken : List Int) (requested : Option Int) : Int :=
  match requested with
  | some n => if 0 < n ∧ n ∉ taken then n else taken.max?.getD 0 + 1
  | none => taken.max?.getD 0 + 1

/-- The loop of `plan_new_lines`, over the numbers used on each purchase order. -/
def planLines (u : Unicode) : (String → List Int) → List (String × Option Int) → List (Option Int)
  | _, [] => []
  | used, (poNumber, requested) :: rest =>
      let poKey := u.normalizePoNumber poNumber
      if poKey = "" then none :: planLines u used rest
      else
        let number := freeNumber (used poKey) requested
        some number
          :: planLines u (fun key => if key = poKey then number :: used key else used key) rest

/-- `plan_new_lines`. -/
def planNewLines (u : Unicode) (register : List Line) (requests : List (String × Option Int))
    : List (Option Int) :=
  planLines u (numbersOn register) requests

/-- Calling `allocate_line` for each request with a number of its own, one after the other. -/
def allocateEach (u : Unicode)
    : List Line → List (String × Option Int) → Except Failure (List (Option Int) × List Line)
  | register, [] => .ok ([], register)
  | register, (poNumber, requested) :: rest =>
      if u.normalizePoNumber poNumber = "" then do
        let (numbers, register) ← allocateEach u register rest
        pure (none :: numbers, register)
      else do
        let (line, register) ← allocateLine u register poNumber requested
        let (numbers, register) ← allocateEach u register rest
        pure (some line.lineNumber :: numbers, register)

theorem next_not_mem (taken : List Int) : taken.max?.getD 0 + 1 ∉ taken := by
  intro hmem
  rcases hmax : taken.max? with _ | highest
  · rw [List.max?_eq_none_iff] at hmax
    rw [hmax] at hmem
    cases hmem
  · rw [hmax, Option.getD_some] at hmem
    have hle := (List.max?_eq_some_iff.mp hmax).2 _ hmem
    omega

theorem freeNumber_not_mem (taken : List Int) (requested : Option Int)
    : freeNumber taken requested ∉ taken := by
  unfold freeNumber
  split
  · split_ifs with hfree
    · exact hfree.2
    · exact next_not_mem taken
  · exact next_not_mem taken

theorem isFree_iff {register : List Line} {poKey : String} {number : Int}
    : isFree register poKey number = true ↔ number ∉ numbersOn register poKey := by
  simp [isFree]

/-- The row that a request adds to the register. -/
def issuedLine (u : Unicode) (register : List Line) (poNumber : String) (requested : Option Int)
    : Line where
  poKey := u.normalizePoNumber poNumber
  poNumber := joinWords poNumber
  lineNumber := freeNumber (numbersOn register (u.normalizePoNumber poNumber)) requested

theorem allocateLine_eq (u : Unicode) (register : List Line) {poNumber : String}
    (requested : Option Int) (hpo : u.normalizePoNumber poNumber ≠ "")
    : allocateLine u register poNumber requested
      = .ok (issuedLine u register poNumber requested,
          register ++ [issuedLine u register poNumber requested]) := by
  have hnumber : attemptedNumber register (u.normalizePoNumber poNumber) requested
      = freeNumber (numbersOn register (u.normalizePoNumber poNumber)) requested := by
    cases requested with
    | none => rfl
    | some n => simp only [attemptedNumber, isFree_iff, freeNumber, nextFreeNumber]
  have hfree := isFree_iff.mpr
    (freeNumber_not_mem (numbersOn register (u.normalizePoNumber poNumber)) requested)
  rw [allocateLine, if_neg hpo, maxAttempts, attemptLine, hnumber, insertLine, if_pos hfree]
  rfl

theorem mem_numbersOn_append {register : List Line} {line : Line} {poKey : String} {n : Int}
    : n ∈ numbersOn (register ++ [line]) poKey
      ↔ n ∈ numbersOn register poKey ∨ poKey = line.poKey ∧ n = line.lineNumber := by
  unfold numbersOn
  rw [List.filter_append, List.map_append, List.mem_append]
  by_cases hkey : line.poKey = poKey
  · simp [hkey]
  · simp [hkey, Ne.symm hkey]

theorem max?_congr {a b : List Int} (h : ∀ n, n ∈ a ↔ n ∈ b) : a.max? = b.max? := by
  rcases ha : a.max? with _ | highest
  · rw [List.max?_eq_none_iff] at ha
    have hb : b = [] := List.eq_nil_iff_forall_not_mem.mpr fun n hn => by
      have hmem := (h n).mpr hn
      rw [ha] at hmem
      cases hmem
    rw [hb]
    rfl
  · obtain ⟨hmem, hle⟩ := List.max?_eq_some_iff.mp ha
    exact (List.max?_eq_some_iff.mpr ⟨(h _).mp hmem, fun n hn => hle n ((h n).mpr hn)⟩).symm

theorem freeNumber_congr {a b : List Int} (h : ∀ n, n ∈ a ↔ n ∈ b) (requested : Option Int)
    : freeNumber a requested = freeNumber b requested := by
  cases requested with
  | none => simp only [freeNumber, max?_congr h]
  | some n => simp only [freeNumber, max?_congr h, h n]

theorem planLines_issued (u : Unicode) (requests : List (String × Option Int))
    {used : String → List Int} {register : List Line}
    (hused : ∀ poKey n, n ∈ used poKey ↔ n ∈ numbersOn register poKey)
    : ∃ register', allocateEach u register requests = .ok (planLines u used requests, register') := by
  induction requests generalizing used register with
  | nil => exact ⟨register, rfl⟩
  | cons request rest ih =>
      obtain ⟨poNumber, requested⟩ := request
      by_cases hblank : u.normalizePoNumber poNumber = ""
      · obtain ⟨register', hrest⟩ := ih hused
        refine ⟨register', ?_⟩
        rw [allocateEach, if_pos hblank, hrest, planLines]
        simp only [if_pos hblank]
        rfl
      · have hplanned : freeNumber (used (u.normalizePoNumber poNumber)) requested
            = (issuedLine u register poNumber requested).lineNumber :=
          freeNumber_congr (hused _) requested
        have hafter : ∀ poKey n,
            n ∈ (if poKey = u.normalizePoNumber poNumber then
                freeNumber (used (u.normalizePoNumber poNumber)) requested :: used poKey
              else used poKey)
            ↔ n ∈ numbersOn (register ++ [issuedLine u register poNumber requested]) poKey := by
          intro poKey n
          rw [mem_numbersOn_append, ← hplanned, ← hused poKey n]
          change _ ↔ _ ∨ poKey = u.normalizePoNumber poNumber ∧ _
          split_ifs with hsame
          · rw [List.mem_cons]
            exact ⟨fun h => h.symm.imp_right fun hn => ⟨hsame, hn⟩,
              fun h => h.symm.imp_left fun hn => hn.2⟩
          · exact ⟨.inl, fun h => h.resolve_right fun hn => hsame hn.1⟩
        obtain ⟨register', hrest⟩ := ih hafter
        refine ⟨register', ?_⟩
        rw [allocateEach, if_neg hblank, allocateLine_eq u register requested hblank, ok_bind]
        dsimp only
        rw [hrest, planLines]
        simp only [if_neg hblank]
        rw [← hplanned]
        rfl

/-- Numbers planned for new records are the ones that issuing them in order gives. -/
theorem planNewLines_issued (u : Unicode) (register : List Line)
    (requests : List (String × Option Int))
    : (allocateEach u register requests).map Prod.fst = .ok (planNewLines u register requests) := by
  obtain ⟨register', h⟩ := planLines_issued u requests (fun poKey n => Iff.rfl)
  rw [planNewLines, h]
  rfl

/-- The rows of a store's register. -/
def registerOf (s : Store) : List Line :=
  s.poLines.entries.map (fun entry =>
    {
      poKey := entry.2.poKey
      poNumber := entry.2.poNumber
      lineNumber := entry.2.lineNumber
    })

end LicenseTrack.PoRegister
