import LicenseTrack.LicenseRefs.Programs
import Mathlib.Data.List.Nodup

/-! References are issued once: whatever the order in which creating requests execute their
statements, no two references that are committed have the same text, since every request writes before
it reads the sequence.
-/

namespace LicenseTrack

open Library

theorem padReference_injective {m n : Nat} (h : (padReference m).toList = (padReference n).toList)
    : m = n := by
  have hread : ∀ k, Nat.ofDigitChars 10 (padReference k).toList 0 = k := by
    intro k
    simp only [padReference, String.toList_ofList, Nat.ofDigitChars_append,
      Nat.ofDigitChars_replicate_zero, Nat.mul_zero, Nat.ofDigitChars_ten_toDigits]
  rw [← hread m, h, hread n]

theorem LicenseRef.toList_text (ref : LicenseRef)
    : ref.text.toList
      = 'L' :: 'T' :: '-' :: (Nat.toDigits 10 ref.year ++ '-' :: (padReference ref.value).toList) := by
  have hyear : (toString ref.year).toList = Nat.toDigits 10 ref.year := Nat.toList_repr
  have hvalue : toString (padReference ref.value) = padReference ref.value := rfl
  simp only [text, String.toList_append, hyear, hvalue]
  simp [toString]

theorem LicenseRef.value_eq_of_text {ref ref' : LicenseRef} (h : ref.text = ref'.text)
    : ref.value = ref'.value := by
  have hdash : ∀ n, '-' ∉ Nat.toDigits 10 n := fun n hm =>
    absurd (Nat.isDigit_of_mem_toDigits (by omega) (by omega) hm) (by decide)
  have hpad : '-' ∉ (padReference ref.value).toList := by
    simp only [padReference, String.toList_ofList, List.mem_append, List.mem_replicate, not_or]
    exact ⟨fun hzero => absurd hzero.2 (by decide), hdash _⟩
  have hlists := congrArg String.toList h
  rw [toList_text, toList_text, List.cons_inj_right, List.cons_inj_right, List.cons_inj_right,
    List.append_cons_inj_of_notMem (hdash _) hpad] at hlists
  exact padReference_injective hlists.2.2

-- Scripts

/-- Statements without a call that draws a reference. -/
def DrawsNone (ops : List RefOp) : Prop := ∀ year held, .generate year held ∉ ops

/-- Statements that draw references in a transaction that has written before, all in one transaction:
told whether one was drawn before and whether the transaction has written.
-/
def Guarded : Bool → Bool → List RefOp → Prop
  | _, _, [] => True
  | drawn, inside, .read :: ops | drawn, inside, .savepoint :: ops
  | drawn, inside, .rollbackTo :: ops => Guarded drawn inside ops
  | drawn, _, .write :: ops | drawn, _, .flush :: ops => Guarded drawn true ops
  | _, inside, .generate _ _ :: ops => inside = true ∧ Guarded true true ops
  | drawn, _, .commit :: ops => (drawn = true → DrawsNone ops) ∧ (drawn = false → Guarded false false ops)

/-- Statements that are guarded wherever they stand. -/
def Open (ops : List RefOp) : Prop := ∀ drawn inside, Guarded drawn inside ops

variable {ops rest : List RefOp} {drawn inside : Bool}

theorem Guarded.append (h : Guarded drawn inside ops) (hcommit : .commit ∉ ops) (hrest : Open rest)
    : Guarded drawn inside (ops ++ rest) := by
  induction ops generalizing drawn inside with
  | nil => exact hrest drawn inside
  | cons op ops ih =>
      have htail : .commit ∉ ops := fun hm => hcommit (List.mem_cons_of_mem _ hm)
      cases op with
      | read => exact ih h htail
      | savepoint => exact ih h htail
      | rollbackTo => exact ih h htail
      | write => exact ih h htail
      | flush => exact ih h htail
      | generate year held => exact ⟨h.1, ih h.2 htail⟩
      | commit => exact absurd List.mem_cons_self hcommit

theorem Guarded.take (h : Guarded drawn inside ops) (hcommit : .commit ∉ ops) (n : Nat)
    : Guarded drawn inside (ops.take n) := by
  induction ops generalizing drawn inside n with
  | nil => simpa using h
  | cons op ops ih =>
      have htail : .commit ∉ ops := fun hm => hcommit (List.mem_cons_of_mem _ hm)
      cases n with
      | zero => exact trivial
      | succ n =>
          cases op with
          | read => exact ih h htail n
          | savepoint => exact ih h htail n
          | rollbackTo => exact ih h htail n
          | write => exact ih h htail n
          | flush => exact ih h htail n
          | generate year held => exact ⟨h.1, ih h.2 htail n⟩
          | commit => exact absurd List.mem_cons_self hcommit

theorem Open.others (others : List OtherOp) (h : Open rest)
    : Open (others.map OtherOp.op ++ rest) := by
  induction others with
  | nil => exact h
  | cons other others ih =>
      cases other with
      | read => exact fun drawn inside => ih drawn inside
      | write => exact fun drawn _ => ih drawn true

theorem Guarded.others (others : List OtherOp) (h : Guarded drawn true rest)
    : Guarded drawn true (others.map OtherOp.op ++ rest) := by
  induction others with
  | nil => exact h
  | cons other others ih =>
      cases other with
      | read => exact ih
      | write => exact ih

theorem commit_not_mem_others (others : List OtherOp) : .commit ∉ others.map OtherOp.op := by
  intro hm
  obtain ⟨other, -, he⟩ := List.mem_map.mp hm
  cases other <;> cases he

namespace LicenseScript

variable (script : LicenseScript)

theorem commit_not_mem : .commit ∉ script.ops := by
  simp [ops, commit_not_mem_others]

theorem open_ops (h : Open rest) : Open (script.ops ++ rest) := by
  have hafter : Open (script.after.map OtherOp.op ++ rest) := h.others script.after
  have hdraw : ∀ drawn, Guarded drawn true (script.draw.toList.map (fun draw =>
      RefOp.generate draw.1 draw.2) ++ (script.after.map OtherOp.op ++ rest)) := by
    intro drawn
    cases script.draw with
    | none => exact hafter drawn true
    | some draw => exact ⟨rfl, hafter true true⟩
  have hflush : Open (.flush :: script.between.map OtherOp.op
      ++ (script.draw.toList.map (fun draw => RefOp.generate draw.1 draw.2)
        ++ (script.after.map OtherOp.op ++ rest))) :=
    fun drawn _ => Guarded.others script.between (hdraw drawn)
  have hall := hflush.others script.before
  simpa only [ops, List.append_assoc] using hall

theorem open_self : Open script.ops := by
  have h : Open (script.ops ++ []) := script.open_ops fun _ _ => trivial
  rwa [List.append_nil] at h

end LicenseScript

theorem DrawsNone.tail {op : RefOp} (h : DrawsNone (op :: ops)) : DrawsNone ops :=
  fun year held hm => h year held (List.mem_cons_of_mem _ hm)

theorem DrawsNone.isOpen (h : DrawsNone ops) : Open ops := by
  induction ops with
  | nil => exact fun _ _ => trivial
  | cons op ops ih =>
      have ih := ih h.tail
      intro drawn inside
      cases op with
      | read => exact ih drawn inside
      | savepoint => exact ih drawn inside
      | rollbackTo => exact ih drawn inside
      | write => exact ih drawn true
      | flush => exact ih drawn true
      | generate year held => exact absurd List.mem_cons_self (h year held)
      | commit => exact ⟨fun _ => h.tail, fun _ => ih false false⟩

theorem Open.flatMap {α : Type} {list : List α} {part : α → List RefOp}
    (hpart : ∀ a rest, Open rest → Open (part a ++ rest)) (h : Open rest)
    : Open (list.flatMap part ++ rest) := by
  induction list with
  | nil => exact h
  | cons a list ih =>
      rw [List.flatMap_cons, List.append_assoc]
      exact hpart a _ ih

theorem ImportScript.open_ops (row : ImportScript) (h : Open rest) : Open (row.ops ++ rest) := by
  cases row with
  | update others failed =>
      intro drawn inside
      change Guarded drawn inside (others.map OtherOp.op ++ (if failed then [.rollbackTo] else [])
        ++ rest)
      rw [List.append_assoc]
      refine Open.others others (fun drawn inside => ?_) drawn inside
      cases failed with
      | false => exact h drawn inside
      | true => exact h drawn inside
  | create script failedAfter =>
      intro drawn inside
      cases failedAfter with
      | none => exact script.open_ops h drawn inside
      | some n =>
          change Guarded drawn inside (script.ops.take n ++ [.rollbackTo] ++ rest)
          rw [List.append_assoc]
          refine Guarded.append ?_ ?_ fun drawn inside => h drawn inside
          · exact (script.open_self drawn inside).take script.commit_not_mem n
          · exact fun hm => script.commit_not_mem (List.mem_of_mem_take hm)

theorem CreationBody.open_ops (body : CreationBody) (h : Open rest) : Open (body.ops ++ rest) := by
  cases body with
  | createLicense script => exact script.open_ops h
  | createMaintenance script => exact script.open_ops h
  | createLicenseBatch scripts => exact h.flatMap fun script _ => script.open_ops
  | convertOrder scripts => exact h.flatMap fun script _ => script.open_ops
  | convertFreeware scripts => exact h.flatMap fun script _ => script.open_ops
  | importRows prepare rows =>
      simp only [ops, List.append_assoc]
      exact (h.flatMap fun row _ => row.open_ops).others prepare

theorem CreationRequest.guarded_ops (request : CreationRequest)
    : Guarded false false request.ops := by
  have hafter : DrawsNone
      (request.afterwards.flatMap fun others => others.map OtherOp.op ++ [.commit]) := by
    intro year held hm
    obtain ⟨others, -, hm⟩ := List.mem_flatMap.mp hm
    rcases List.mem_append.mp hm with hm | hm
    · obtain ⟨other, -, he⟩ := List.mem_map.mp hm
      cases other <;> cases he
    · cases List.mem_singleton.mp hm
  have hcommit : Open (.commit :: request.afterwards.flatMap fun others =>
      others.map OtherOp.op ++ [.commit]) :=
    fun _ _ => ⟨fun _ => hafter, fun _ => hafter.isOpen false false⟩
  have hbody := request.body.open_ops hcommit
  unfold ops
  split
  · exact ⟨fun hd => Bool.noConfusion hd, fun _ => hbody false false⟩
  · exact hbody false false

-- What a session holds

/-- The committed references have different numbers, none beyond the sequence. -/
structure RefStore.Good (a : RefStore) : Prop where
  distinct : (a.issued.map LicenseRef.value).Nodup
  bounded : ∀ ref ∈ a.issued, ref.value ≤ a.sequence.getD 0

/-- A loaded sequence row has the stored number, and the savepoint had it where the row was not
changed since.
-/
structure RefSession.Holds (session : RefSession) (own : RefStore) : Prop where
  cached : ∀ value, session.cached = some value → own.sequence = some value
  kept : ∀ a, session.saved = some a → session.changed = false → a.sequence = own.sequence

/-- The data of the savepoint are good. -/
def RefSession.SavedGood (session : RefSession) : Prop := ∀ a, session.saved = some a → a.Good

theorem RefSession.savedGood_of_none {session : RefSession} (h : session.saved = none)
    : session.SavedGood := by
  intro a he
  rw [h] at he
  cases he

theorem RefSession.holds_of_none {session : RefSession} {own : RefStore}
    (h : session.saved = none)
    (hcached : ∀ value, session.cached = some value → own.sequence = some value)
    : session.Holds own := by
  refine ⟨hcached, fun a he => ?_⟩
  rw [h] at he
  cases he

namespace RefProgram

/-- What a request knows outside a write transaction: it has loaded no sequence row and what is
left is guarded, or it draws nothing more.
-/
def Outside : RefProgram → Prop
  | .running session ops => session.saved = none
      ∧ ((session.cached = none ∧ Guarded false false ops) ∨ DrawsNone ops)
  | .adding .. | .raising .. => False
  | .ended => True

/-- What a request holds in its write transaction. -/
def Inside (own : RefStore) : RefProgram → Prop
  | .running session ops => session.SavedGood
      ∧ ((session.Holds own ∧ ∃ drawn, (drawn = false → session.cached = none)
          ∧ Guarded drawn true ops) ∨ DrawsNone ops)
  | .adding session _ ops =>
      session.SavedGood ∧ own.sequence = none ∧ Guarded true true ops
  | .raising session value _ ops =>
      session.SavedGood ∧ own.sequence = some value ∧ Guarded true true ops
  | .ended => False

variable {a own : RefStore} {program : RefProgram} {session : RefSession}

theorem read_outside {next : RefStore → RefProgram} (hs : statement program = .read next)
    (h : program.Outside)
    : (next a).Outside := by
  cases program with
  | running session ops =>
      obtain ⟨hsaved, hops⟩ := h
      cases ops with
      | nil => cases hs
      | cons op ops =>
          cases op with
          | read =>
              obtain rfl := Statement.read.inj hs
              exact ⟨hsaved, hops.imp id DrawsNone.tail⟩
          | savepoint =>
              obtain rfl := Statement.read.inj hs
              exact ⟨rfl, hops.imp id DrawsNone.tail⟩
          | rollbackTo =>
              simp only [statement, hsaved] at hs
              obtain rfl := Statement.read.inj hs
              refine ⟨rfl, hops.imp (fun hguard => ⟨?_, hguard.2⟩) DrawsNone.tail⟩
              simp only [hguard.1, ite_self]
          | generate year held =>
              rcases hops with ⟨-, hguard, -⟩ | hnone
              · cases hguard
              · exact absurd List.mem_cons_self (hnone year held)
          | write => cases hs
          | flush => cases hs
          | commit => cases hs
  | adding session year ops => exact h.elim
  | raising session value year ops => exact h.elim
  | ended => cases hs

/-- A read inside a transaction: a drawn number is the stored one, whether the row was held or not. -/
theorem read_inside {next : RefStore → RefProgram} (hs : statement program = .read next)
    (h : program.Inside own)
    : (next own).Inside own := by
  cases program with
  | running session ops =>
      obtain ⟨hsaved, hops⟩ := h
      cases ops with
      | nil => cases hs
      | cons op ops =>
          cases op with
          | read =>
              obtain rfl := Statement.read.inj hs
              exact ⟨hsaved, hops.imp id DrawsNone.tail⟩
          | savepoint =>
              obtain rfl := Statement.read.inj hs
              refine ⟨RefSession.savedGood_of_none rfl,
                hops.imp (fun hguard => ⟨?_, hguard.2⟩) DrawsNone.tail⟩
              exact RefSession.holds_of_none rfl hguard.1.cached
          | rollbackTo =>
              cases hsave : session.saved with
              | some saved =>
                  simp only [statement, hsave] at hs
                  cases hs
              | none =>
                  simp only [statement, hsave] at hs
                  obtain rfl := Statement.read.inj hs
                  refine ⟨RefSession.savedGood_of_none rfl,
                    hops.imp (fun hguard => ?_) DrawsNone.tail⟩
                  obtain ⟨hholds, drawn, hdrawn, hguard⟩ := hguard
                  refine ⟨RefSession.holds_of_none rfl fun value hv => ?_, drawn, fun hd => ?_,
                    hguard⟩
                  · simp only at hv
                    split at hv
                    · cases hv
                    · exact hholds.cached value hv
                  · simp only [hdrawn hd, ite_self]
          | generate year held =>
              rcases hops with ⟨hholds, drawn, -, -, hguard⟩ | hnone
              · obtain rfl := Statement.read.inj hs
                simp only
                split
                · next value hvalue =>
                    refine ⟨hsaved, ?_, hguard⟩
                    rcases Option.or_eq_some_iff.mp hvalue with hcached | ⟨-, hstored⟩
                    · split at hcached
                      · exact hholds.cached value hcached
                      · cases hcached
                    · exact hstored
                · next hnone => exact ⟨hsaved, (Option.or_eq_none_iff.mp hnone).2, hguard⟩
              · exact absurd List.mem_cons_self (hnone year held)
          | write => cases hs
          | flush => cases hs
          | commit => cases hs
  | adding session year ops => cases hs
  | raising session value year ops => cases hs
  | ended => cases hs

theorem write_outside {next : RefStore → RefStore × RefProgram}
    (hs : statement program = .write next) (ha : a.Good) (h : program.Outside)
    : (next a).1.Good ∧ (next a).2.Inside (next a).1 := by
  cases program with
  | running session ops =>
      obtain ⟨hsaved, hops⟩ := h
      cases ops with
      | nil => cases hs
      | cons op ops =>
          have hcached : session.cached = none → ∀ value, session.cached = some value →
              a.sequence = some value := by
            intro hnone value hv
            rw [hnone] at hv
            cases hv
          cases op with
          | write =>
              obtain rfl := Statement.write.inj hs
              refine ⟨ha, fun b he => ?_, hops.imp (fun hguard => ?_) DrawsNone.tail⟩
              · rw [hsaved] at he
                cases he
              · refine ⟨⟨hcached hguard.1, fun b he => ?_⟩, false, fun _ => hguard.1, hguard.2⟩
                rw [hsaved] at he
                cases he
          | flush =>
              obtain rfl := Statement.write.inj hs
              simp only [hsaved, Option.getD_none]
              refine ⟨ha, fun b he => ?_, hops.imp (fun hguard => ?_) DrawsNone.tail⟩
              · obtain rfl := Option.some.inj he
                exact ha
              · refine ⟨⟨hcached hguard.1, fun b he _ => ?_⟩, false, fun _ => hguard.1, hguard.2⟩
                obtain rfl := Option.some.inj he
                rfl
          | rollbackTo =>
              simp only [statement, hsaved] at hs
              cases hs
          | read => cases hs
          | savepoint => cases hs
          | generate year held => cases hs
          | commit => cases hs
  | adding session year ops => exact h.elim
  | raising session value year ops => exact h.elim
  | ended => cases hs

theorem good_raise {value year : Nat} (ha : own.Good) (hvalue : own.sequence = some value)
    : RefStore.Good { sequence := some (value + 1), issued := ⟨year, value + 1⟩ :: own.issued } := by
  have hle : ∀ ref ∈ own.issued, ref.value ≤ value := by
    intro ref hr
    have hb := ha.bounded ref hr
    rwa [hvalue] at hb
  constructor
  · rw [List.map_cons, List.nodup_cons]
    refine ⟨fun hm => ?_, ha.distinct⟩
    obtain ⟨ref, hr, he⟩ := List.mem_map.mp hm
    have := hle ref hr
    simp only at he
    omega
  · intro ref hr
    rcases List.mem_cons.mp hr with rfl | hr
    · exact Nat.le_refl _
    · exact Nat.le_succ_of_le (hle ref hr)

/-- A write in a transaction keeps it good. -/
theorem write_inside {next : RefStore → RefStore × RefProgram}
    (hs : statement program = .write next) (ha : own.Good) (h : program.Inside own)
    : (next own).1.Good ∧ (next own).2.Inside (next own).1 := by
  cases program with
  | running session ops =>
      obtain ⟨hsaved, hops⟩ := h
      cases ops with
      | nil => cases hs
      | cons op ops =>
          cases op with
          | write =>
              obtain rfl := Statement.write.inj hs
              exact ⟨ha, hsaved, hops.imp id DrawsNone.tail⟩
          | flush =>
              obtain rfl := Statement.write.inj hs
              refine ⟨ha, fun b he => ?_, hops.imp (fun hguard => ?_) DrawsNone.tail⟩
              · obtain rfl := Option.some.inj he
                cases hsave : session.saved with
                | none => exact ha
                | some saved => exact hsaved saved hsave
              · refine ⟨⟨hguard.1.cached, fun b he hchanged => ?_⟩, hguard.2⟩
                obtain rfl := Option.some.inj he
                cases hsave : session.saved with
                | none => rfl
                | some saved => exact hguard.1.kept saved hsave hchanged
          | rollbackTo =>
              cases hsave : session.saved with
              | none =>
                  simp only [statement, hsave] at hs
                  cases hs
              | some saved =>
                  simp only [statement, hsave] at hs
                  obtain rfl := Statement.write.inj hs
                  refine ⟨hsaved saved hsave, RefSession.savedGood_of_none rfl,
                    hops.imp (fun hguard => ?_) DrawsNone.tail⟩
                  obtain ⟨hholds, drawn, hdrawn, hguard⟩ := hguard
                  refine ⟨RefSession.holds_of_none rfl fun value hv => ?_, drawn, fun hd => ?_,
                    hguard⟩
                  · simp only at hv
                    split at hv
                    · cases hv
                    · next hchanged =>
                        rw [hholds.kept saved hsave (Bool.not_eq_true _ ▸ hchanged)]
                        exact hholds.cached value hv
                  · simp only [hdrawn hd, ite_self]
          | read => cases hs
          | savepoint => cases hs
          | generate year held => cases hs
          | commit => cases hs
  | adding session year ops =>
      obtain ⟨hsaved, hnone, hguard⟩ := h
      obtain rfl := Statement.write.inj hs
      refine ⟨⟨ha.distinct, fun ref hr => ?_⟩, hsaved, rfl, hguard⟩
      have hb := ha.bounded ref hr
      rwa [hnone] at hb
  | raising session value year ops =>
      obtain ⟨hsaved, hvalue, hguard⟩ := h
      obtain rfl := Statement.write.inj hs
      refine ⟨good_raise ha hvalue, hsaved, .inl ⟨⟨fun v hv => hv, fun b _ hc => ?_⟩, true,
        fun hd => ?_, hguard⟩⟩
      · cases hc
      · cases hd
  | ended => cases hs

theorem commit_cases {next : RefProgram} (hs : statement program = .commit next)
    : ∃ session ops, program = .running session (.commit :: ops)
        ∧ next = .running { session with changed := false, saved := none } ops := by
  cases program with
  | running session ops =>
      cases ops with
      | nil => cases hs
      | cons op ops =>
          cases op with
          | commit => exact ⟨session, ops, rfl, (Statement.commit.inj hs).symm⟩
          | rollbackTo =>
              simp only [statement] at hs
              split at hs
              · cases hs
              · cases hs
          | read => cases hs
          | write => cases hs
          | flush => cases hs
          | savepoint => cases hs
          | generate year held => cases hs
  | adding session year ops => cases hs
  | raising session value year ops => cases hs
  | ended => cases hs

theorem no_rollback {next : RefProgram} : statement program ≠ .rollback next := by
  intro hs
  cases program with
  | running session ops =>
      cases ops with
      | nil => cases hs
      | cons op ops =>
          cases op with
          | rollbackTo =>
              simp only [statement] at hs
              split at hs
              · cases hs
              · cases hs
          | commit => cases hs
          | read => cases hs
          | write => cases hs
          | flush => cases hs
          | savepoint => cases hs
          | generate year held => cases hs
  | adding session year ops => cases hs
  | raising session value year ops => cases hs
  | ended => cases hs

theorem discipline
    : Discipline statement .ended (fun _ _ => True) RefStore.Good (fun _ p => p.Outside)
        (fun _ own p => own.Good ∧ p.Inside own) (fun _ _ => True) where
  outlives _ h := h
  dead _ := trivial
  read hs h := read_outside hs h
  readOwn hs h := ⟨h.1, read_inside hs h.2⟩
  write hs hgood h _ := write_outside hs hgood h
  writeOwn hs _ h _ := write_inside hs h.1 h.2
  commit hs h := by
    obtain ⟨session, ops, rfl, rfl⟩ := commit_cases hs
    obtain ⟨-, hops⟩ := h
    exact ⟨rfl, hops.imp (fun hguard => ⟨hguard.1, hguard.2.2 rfl⟩) DrawsNone.tail⟩
  commitOwn hs _ h := by
    obtain ⟨session, ops, rfl, rfl⟩ := commit_cases hs
    obtain ⟨hgood, -, hops⟩ := h
    refine ⟨hgood, trivial, rfl, ?_⟩
    rcases hops with ⟨-, drawn, hdrawn, hafter, hbefore⟩ | hnone
    · cases drawn with
      | false => exact .inl ⟨hdrawn rfl, hbefore rfl⟩
      | true => exact .inr (hafter rfl)
    · exact .inr hnone.tail
  rollback hs _ := absurd hs no_rollback
  rollbackOwn hs _ := absurd hs no_rollback

end RefProgram

/-- In every interleaving of creating requests, no two committed calls returned the same
reference.
-/
theorem licenseRefs_issuedOnce {sequence : Option Nat} {requests : Nat → CreationRequest}
    {s : Sessions RefStore RefProgram}
    (h : Sessions.Reached RefProgram.statement .ended (fun _ _ => True)
      (creating sequence requests) s)
    : (s.committed.issued.map LicenseRef.text).Nodup := by
  have hstart : RefStore.Good ⟨sequence, []⟩ :=
    ⟨List.nodup_nil, fun ref hr => absurd hr List.not_mem_nil⟩
  have hknows : ∀ i, ((creating sequence requests).program i).Outside :=
    fun i => ⟨rfl, .inl ⟨rfl, (requests i).guarded_ops⟩⟩
  have hgood := (RefProgram.discipline.invariant hstart rfl hknows h).good
  refine (List.Nodup.of_map LicenseRef.value ?_).map_on fun ref hr ref' hr' he => ?_
  · exact hgood.distinct
  · exact List.inj_on_of_nodup_map hgood.distinct hr hr' (LicenseRef.value_eq_of_text he)

/-- Two requests of different years, the second reading the sequence while the first is in its
transaction.
-/
def twoCreations (i : Nat) : CreationRequest where
  byToken := false
  body := .createLicense ⟨[.read], [], some (if i = 0 then 2026 else 2027, true), []⟩
  afterwards := []

/-- Two creations that overlap get two references. -/
theorem licenseRefs_issuedOnce_overlapping
    : ∃ s, Sessions.Reached RefProgram.statement .ended (fun _ _ => True)
          (creating none twoCreations) s
        ∧ s.committed.issued = [⟨2027, 2⟩, ⟨2026, 1⟩]
        ∧ (s.committed.issued.map LicenseRef.text).Nodup := by
  have hrun : (runAdmitted (Sessions.step RefProgram.statement .ended)
      (Sessions.Admitted (fun _ _ => True))
      [.advance 0, .advance 1, .advance 0, .advance 0, .advance 0, .advance 0, .advance 0,
        .advance 1, .advance 1, .advance 1, .advance 1]
      (creating none twoCreations)).map (fun s => s.committed.issued)
        = some [⟨2027, 2⟩, ⟨2026, 1⟩] := by
    decide +kernel
  obtain ⟨s, hs, hissued⟩ := Option.map_eq_some_iff.mp hrun
  have hreached := Reachable.of_runAdmitted .start hs
  exact ⟨s, hreached, hissued, licenseRefs_issuedOnce hreached⟩

end LicenseTrack
