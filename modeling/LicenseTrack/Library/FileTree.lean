import Mathlib.Data.List.Infix
import Mathlib.Data.List.Nodup
import Mathlib.Logic.Function.Basic

/-! Trees of directories and files, and the placing of members, each at its path: it succeeds
exactly when no file lies where another member needs a directory, and then the tree holds the
members and nothing else.
-/

namespace Library

universe u v

variable {κ : Type u} {β : Type v}

/-- What lies at a path. -/
inductive Node (β : Type v)
  | directory
  | file (content : β)
deriving DecidableEq

/-- What lies at each path, the root being the empty one. -/
abbrev FileTree (κ : Type u) (β : Type v) := List κ → Option (Node β)

/-- A directory or a file that is to lie at a path; a directory has no content. -/
structure Member (κ : Type u) (β : Type v) where
  path : List κ
  content : Option β

theorem prefix_dropLast {path above : List κ} (hleads : above <+: path) (hne : above ≠ path)
    : above <+: path.dropLast := by
  have hpath : path ≠ [] := by
    rintro rfl
    exact hne (List.prefix_nil.mp hleads)
  have hsplit := List.dropLast_append_getLast hpath
  exact (List.prefix_concat_iff.mp (hsplit.symm ▸ hleads)).resolve_left
    fun he => hne (he.trans hsplit)

theorem not_prefix_dropLast {path : List κ} (hpath : path ≠ []) : ¬ path <+: path.dropLast := by
  intro hleads
  have hlength := hleads.length_le
  have hpositive := List.length_pos_iff.mpr hpath
  rw [List.length_dropLast] at hlength
  omega

namespace FileTree

variable [DecidableEq κ]

/-- Whether a file lies at a path. -/
def isFile (t : FileTree κ β) (path : List κ) : Bool :=
  match t path with
  | some (.file _) => true
  | _ => false

/-- The tree with a directory and all those above it, none where a file is in the way. -/
def mkdirs (path : List κ) (t : FileTree κ β) : Option (FileTree κ β) :=
  if path.inits.any t.isFile then none
  else some fun other => if other <+: path then (t other).or (some .directory) else t other

/-- The tree with a file in an existing directory, none where a directory lies at its path. -/
def writeFile (path : List κ) (content : β) (t : FileTree κ β) : Option (FileTree κ β) :=
  match t path.dropLast, t path with
  | some .directory, some .directory => none
  | some .directory, _ => some (Function.update t path (some (.file content)))
  | _, _ => none

/-- The tree with a member and the directories above it. -/
def place (member : Member κ β) (t : FileTree κ β) : Option (FileTree κ β) :=
  match member.content with
  | none => t.mkdirs member.path
  | some content => (t.mkdirs member.path.dropLast).bind (writeFile member.path content)

/-- The tree with all members of a list, placed in their order. -/
def placeAll : List (Member κ β) → FileTree κ β → Option (FileTree κ β)
  | [], t => some t
  | member :: rest, t => (t.place member).bind (placeAll rest)

/-- The tree with another tree at a path, in the place of what lay there. -/
def graft (t : FileTree κ β) (path : List κ) (sub : FileTree κ β) : FileTree κ β := fun other =>
  if path <+: other then sub (other.drop path.length) else t other

theorem graft_append (t : FileTree κ β) (path other : List κ) (sub : FileTree κ β)
    : t.graft path sub (path ++ other) = sub other := by
  simp [graft]

theorem graft_of_not_prefix {path other : List κ} (h : ¬ path <+: other) (t sub : FileTree κ β)
    : t.graft path sub other = t other :=
  if_neg h

theorem mkdirs_of_not_prefix {path other : List κ} {t t' : FileTree κ β}
    (ht : t.mkdirs path = some t') (h : ¬ other <+: path)
    : t' other = t other := by
  unfold mkdirs at ht
  split at ht
  · cases ht
  · obtain rfl := Option.some.inj ht
    exact if_neg h

/-- The content that some members give the file at a path. -/
def contentAt (members : List (Member κ β)) (path : List κ) : Option β :=
  members.findSome? fun member => if member.path = path then member.content else none

/-- The tree that holds some members, the directories above them, and nothing else. -/
def holding (members : List (Member κ β)) : FileTree κ β := fun path =>
  match contentAt members path with
  | some content => some (.file content)
  | none =>
      if path = [] ∨ ∃ member ∈ members, path <+: member.path then some .directory else none

/-- Neither of two members is a file where the other needs a directory. -/
def Compatible (a b : Member κ β) : Prop :=
  (a.content.isSome → ¬ a.path <+: b.path) ∧ (b.content.isSome → ¬ b.path <+: a.path)

instance (a b : Member κ β) : Decidable (Compatible a b) :=
  inferInstanceAs (Decidable (_ ∧ _))

instance : Std.Symm (@Compatible κ β) := ⟨fun _ _ h => ⟨h.2, h.1⟩⟩

variable {members : List (Member κ β)} {member : Member κ β} {path : List κ} {content : β}

theorem contentAt_eq_none
    : contentAt members path = none ↔ ∀ m ∈ members, m.path = path → m.content = none := by
  simp [contentAt, List.findSome?_eq_none_iff]

theorem contentAt_eq_some (hunique : (members.map (·.path)).Nodup)
    : contentAt members path = some content
      ↔ ∃ m ∈ members, m.path = path ∧ m.content = some content := by
  constructor
  · intro h
    obtain ⟨m, hm, hcontent⟩ := List.exists_of_findSome?_eq_some h
    split at hcontent
    · next hp => exact ⟨m, hm, hp, hcontent⟩
    · cases hcontent
  · rintro ⟨m, hm, rfl, hcontent⟩
    cases hfound : contentAt members m.path with
    | none => rw [contentAt_eq_none.mp hfound m hm rfl] at hcontent; cases hcontent
    | some found =>
        obtain ⟨m', hm', hcontent'⟩ := List.exists_of_findSome?_eq_some hfound
        split at hcontent'
        · next hp =>
            obtain rfl := List.inj_on_of_nodup_map hunique hm' hm hp
            rw [← hcontent', hcontent]
        · cases hcontent'

theorem contentAt_concat
    : contentAt (members ++ [member]) path
      = (contentAt members path).or (if member.path = path then member.content else none) := by
  simp [contentAt, List.findSome?_append]

theorem holding_eq_file
    : holding members path = some (.file content) ↔ contentAt members path = some content := by
  unfold holding
  cases contentAt members path with
  | none => simp
  | some found => simp

theorem isFile_holding : (holding members).isFile path = (contentAt members path).isSome := by
  unfold isFile holding
  cases contentAt members path with
  | none =>
      by_cases hneeded : path = [] ∨ ∃ m ∈ members, path <+: m.path
      · simp only [if_pos hneeded, Option.isSome_none]
      · simp only [if_neg hneeded, Option.isSome_none]
  | some found => rfl

theorem holding_eq_directory
    : holding members path = some .directory
      ↔ contentAt members path = none ∧ (path = [] ∨ ∃ m ∈ members, path <+: m.path) := by
  unfold holding
  cases contentAt members path with
  | none => simp only [ite_eq_left_iff, reduceCtorEq, imp_false, not_not, true_and]
  | some found => simp

-- Placing members

theorem mkdirs_holding
    : (holding members).mkdirs path
      = if ∃ m ∈ members, m.content.isSome ∧ m.path <+: path then none
        else some fun other => if other <+: path then (holding members other).or (some .directory)
          else holding members other := by
  unfold mkdirs
  have hfile : (path.inits.any (holding members).isFile = true)
      ↔ ∃ m ∈ members, m.content.isSome ∧ m.path <+: path := by
    simp only [List.any_eq_true, List.mem_inits, isFile_holding]
    constructor
    · rintro ⟨other, hother, hsome⟩
      obtain ⟨content, hcontent⟩ := Option.isSome_iff_exists.mp hsome
      obtain ⟨m, hm, hfound⟩ := List.exists_of_findSome?_eq_some hcontent
      split at hfound
      · next hp => exact ⟨m, hm, by simp [hfound], hp ▸ hother⟩
      · cases hfound
    · rintro ⟨m, hm, hsome, hleads⟩
      refine ⟨m.path, hleads, ?_⟩
      by_contra hnone
      rw [contentAt_eq_none.mp (Option.not_isSome_iff_eq_none.mp hnone) m hm rfl] at hsome
      cases hsome
  simp only [hfile]

theorem holding_concat_directory (hcontent : member.content = none) (path : List κ)
    : holding (members ++ [member]) path
      = if path <+: member.path then (holding members path).or (some .directory)
        else holding members path := by
  have hsame : contentAt (members ++ [member]) path = contentAt members path := by
    simp [contentAt_concat, hcontent]
  unfold holding
  rw [hsame]
  cases contentAt members path with
  | some found => simp
  | none =>
      by_cases hleads : path <+: member.path
      · rw [if_pos hleads, if_pos (.inr ⟨member, by simp, hleads⟩)]
        dsimp only
        split <;> rfl
      · rw [if_neg hleads]
        simp only [List.mem_append, List.mem_singleton, or_and_right, exists_or, exists_eq_left,
          hleads, or_false]

theorem holding_concat_file (hcontent : member.content = some content)
    (hnothing : ∀ m ∈ members, ¬ member.path <+: m.path) (path : List κ)
    : holding (members ++ [member]) path
      = if path = member.path then some (.file content)
        else if path <+: member.path.dropLast then (holding members path).or (some .directory)
        else holding members path := by
  by_cases hp : path = member.path
  · subst hp
    have hnone : contentAt members member.path = none :=
      contentAt_eq_none.mpr fun m hm he => absurd (he ▸ List.prefix_rfl) (hnothing m hm)
    rw [if_pos rfl, holding_eq_file, contentAt_concat, hnone]
    simp [hcontent]
  · have habove : path <+: member.path ↔ path <+: member.path.dropLast :=
      ⟨fun hleads => prefix_dropLast hleads hp,
        fun hleads => hleads.trans <| List.dropLast_prefix _⟩
    have hsame : contentAt (members ++ [member]) path = contentAt members path := by
      simp [contentAt_concat, Ne.symm hp]
    rw [if_neg hp]
    unfold holding
    rw [hsame]
    cases contentAt members path with
    | some found => simp
    | none =>
        by_cases hleads : path <+: member.path
        · rw [if_pos (habove.mp hleads), if_pos (.inr ⟨member, by simp, hleads⟩)]
          dsimp only
          split <;> rfl
        · rw [if_neg (habove.not.mp hleads)]
          simp only [List.mem_append, List.mem_singleton, or_and_right, exists_or, exists_eq_left,
            hleads, or_false]

/-- One more member can be placed exactly where it is compatible with those there. -/
theorem place_holding (hpath : member.path ≠ []) (hnew : member.path ∉ members.map (·.path))
    : (holding members).place member
      = if ∀ m ∈ members, Compatible m member then some (holding (members ++ [member]))
        else none := by
  have hne : ∀ m ∈ members, m.path ≠ member.path := fun m hm he => hnew (he ▸ List.mem_map_of_mem hm)
  unfold place
  cases hcontent : member.content with
  | none =>
      simp only [mkdirs_holding]
      by_cases hfile : ∃ m ∈ members, m.content.isSome ∧ m.path <+: member.path
      · rw [if_pos hfile, if_neg]
        obtain ⟨m, hm, hsome, hleads⟩ := hfile
        exact fun hall => (hall m hm).1 hsome hleads
      · rw [if_neg hfile, if_pos]
        · exact congrArg some (funext fun path => (holding_concat_directory hcontent path).symm)
        · intro m hm
          exact ⟨fun hsome hleads => hfile ⟨m, hm, hsome, hleads⟩, fun h => by simp [hcontent] at h⟩
  | some content =>
      simp only [mkdirs_holding]
      by_cases hfile : ∃ m ∈ members, m.content.isSome ∧ m.path <+: member.path.dropLast
      · rw [if_pos hfile, Option.bind_none, if_neg]
        obtain ⟨m, hm, hsome, hleads⟩ := hfile
        exact fun hall => (hall m hm).1 hsome <| hleads.trans <| List.dropLast_prefix _
      · rw [if_neg hfile, Option.bind_some]
        have hparent : ((holding members) member.path.dropLast).or (some .directory)
            = some .directory := by
          cases hcontentAt : contentAt members member.path.dropLast with
          | some found =>
              obtain ⟨m, hm, hfound⟩ := List.exists_of_findSome?_eq_some hcontentAt
              split at hfound
              · next hp => exact absurd ⟨m, hm, by simp [hfound], hp ▸ List.prefix_rfl⟩ hfile
              · cases hfound
          | none =>
              unfold holding
              rw [hcontentAt]
              dsimp only
              split <;> rfl
        have hnone : contentAt members member.path = none :=
          contentAt_eq_none.mpr fun m hm he => absurd he (hne m hm)
        unfold writeFile
        simp only [List.prefix_rfl, if_true, hparent, not_prefix_dropLast hpath, if_false]
        by_cases hbelow : ∃ m ∈ members, member.path <+: m.path
        · rw [holding_eq_directory.mpr ⟨hnone, .inr hbelow⟩, if_neg]
          obtain ⟨m, hm, hleads⟩ := hbelow
          exact fun hall => (hall m hm).2 (by simp [hcontent]) hleads
        · have hnothing : ∀ m ∈ members, ¬ member.path <+: m.path :=
            fun m hm hleads => hbelow ⟨m, hm, hleads⟩
          have hfree : holding members member.path = none := by
            unfold holding
            rw [hnone]
            exact if_neg (not_or.mpr ⟨hpath, hbelow⟩)
          rw [hfree, if_pos]
          · refine congrArg some (funext fun path => ?_)
            rw [holding_concat_file hcontent hnothing, Function.update_apply]
          · intro m hm
            refine ⟨fun hsome hleads => ?_, fun _ => hnothing m hm⟩
            exact hfile ⟨m, hm, hsome, prefix_dropLast hleads (hne m hm)⟩

theorem placeAll_holding {done : List (Member κ β)} (hdone : done.Pairwise Compatible)
    (hpaths : ∀ m ∈ members, m.path ≠ []) (hunique : ((done ++ members).map (·.path)).Nodup)
    : placeAll members (holding done)
      = if (done ++ members).Pairwise Compatible then some (holding (done ++ members)) else none := by
  induction members generalizing done with
  | nil => simp [placeAll, hdone]
  | cons member rest ih =>
      obtain ⟨hpath, hpaths⟩ := List.forall_mem_cons.mp hpaths
      have hsplit : done ++ member :: rest = (done ++ [member]) ++ rest := by simp
      rw [hsplit] at hunique ⊢
      have hnew : member.path ∉ done.map (·.path) := by
        intro hm
        rw [List.map_append, List.map_append] at hunique
        have hfirst := (List.nodup_append.mp hunique).1
        exact (List.nodup_append.mp hfirst).2.2 _ hm _ (by simp) rfl
      rw [placeAll, place_holding hpath hnew]
      by_cases hcompatible : ∀ m ∈ done, Compatible m member
      · rw [if_pos hcompatible, Option.bind_some, ih _ hpaths hunique]
        refine List.pairwise_append.mpr ⟨hdone, List.pairwise_singleton _ _, ?_⟩
        intro m hm other hother
        obtain rfl := List.mem_singleton.mp hother
        exact hcompatible m hm
      · rw [if_neg hcompatible, if_neg, Option.bind_none]
        intro hall
        have hfirst := (List.pairwise_append.mp hall).1
        exact hcompatible fun m hm =>
          (List.pairwise_append.mp hfirst).2.2 m hm member (List.mem_singleton.mpr rfl)

end FileTree

end Library
