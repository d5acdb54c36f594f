import Mathlib.Data.List.Infix
import Mathlib.Data.Option.Basic

/-! Recovery archives and the staging of their managed files. -/

namespace LicenseTrack

/-- The directories of `PORTFOLIO_STORAGE_DIRECTORIES`. -/
inductive StorageDirectory
  | attachments
  | documents
  | contracts
  | sourcingRequests
  | procurementDocuments
deriving DecidableEq

namespace StorageDirectory

/-- The directories in the order in which a restore swaps them. -/
def all : List StorageDirectory :=
  [.attachments, .documents, .contracts, .sourcingRequests, .procurementDocuments]

def name : StorageDirectory → String
  | .attachments => "attachments"
  | .documents => "documents"
  | .contracts => "contracts"
  | .sourcingRequests => "sourcing_requests"
  | .procurementDocuments => "procurement_documents"

/-- The directory of that name, if it is a managed one. -/
def ofName? (text : String) : Option StorageDirectory := all.find? (fun d => d.name == text)

theorem mem_all (d : StorageDirectory) : d ∈ all := by
  cases d <;> decide

@[simp] theorem ofName?_name (d : StorageDirectory) : ofName? d.name = some d := by
  cases d <;> decide

theorem name_of_ofName? {text : String} {d : StorageDirectory} (h : ofName? text = some d)
    : text = d.name :=
  (beq_iff_eq.mp (List.find?_some h :)).symm

end StorageDirectory

variable {β : Type}

inductive Node (β : Type)
  | directory
  | file (data : β)
deriving DecidableEq

/-- What lies under a name of the storage root: the node at each path below it, and the node of
the name itself at the empty path.
-/
abbrev Contents (β : Type) := List String → Option (Node β)

/-- The data of a file. -/
def fileAt : Option (Node β) → Option β
  | some (.file data) => some data
  | _ => none

def isDirectory : Option (Node β) → Bool
  | some .directory => true
  | _ => false

-- Staging

/-- An entry of a zip archive. -/
structure ZipEntry (β : Type) where
  /-- The parts of its path. -/
  parts : List String
  isDir : Bool
  /-- `_safe_recovery_member` accepts it. -/
  safe : Bool
  data : β

/-- The staging directory, by the managed directory a path starts with. -/
abbrev Staging (β : Type) := StorageDirectory → Contents β

/-- `mkdir(parents=True, exist_ok=True)`. -/
def Staging.mkdir (t : Staging β) (d : StorageDirectory) (path : List String) : Option (Staging β) :=
  if path.inits.any (fun above => (fileAt (t d above)).isSome) then none
  else some fun d' path' => if d' = d ∧ path' <+: path then some .directory else t d' path'

/-- Makes the directories above a file; above the managed directory itself there are none. -/
def Staging.mkdirAbove (t : Staging β) (d : StorageDirectory) (path : List String)
    : Option (Staging β) :=
  if path = [] then some t else t.mkdir d path.dropLast

/-- Makes the directories above a file and writes it. -/
def Staging.write (t : Staging β) (d : StorageDirectory) (path : List String) (data : β)
    : Option (Staging β) := do
  let t ← t.mkdirAbove d path
  if isDirectory (t d path) then none
  else some fun d' path' => if d' = d ∧ path' = path then some (.file data) else t d' path'

/-- One turn of the loop of `_stage_recovery_documents`. -/
def stageEntry (entry : ZipEntry β) (t : Staging β) : Option (Staging β) :=
  if !entry.safe then none
  else
    match entry.parts with
    | "storage" :: text :: path =>
        match StorageDirectory.ofName? text with
        | none => none
        | some d => if entry.isDir then t.mkdir d path else t.write d path entry.data
    | _ => some t

/-- The loop of `_stage_recovery_documents`. -/
def stageEntries : List (ZipEntry β) → Staging β → Option (Staging β)
  | [], t => some t
  | entry :: rest, t => stageEntry entry t >>= stageEntries rest

/-- `_stage_recovery_documents`, into an empty staging directory. -/
def stageRecoveryDocuments (entries : List (ZipEntry β)) : Option (Staging β) :=
  stageEntries entries fun _ _ => none

/-- The managed file that an archive holds at a path: its last such entry. -/
def archivedFile : List (ZipEntry β) → StorageDirectory → List String → Option β
  | [], _, _ => none
  | entry :: rest, d, path =>
      (archivedFile rest d path).or
        (if entry.parts = "storage" :: d.name :: path ∧ entry.isDir = false then some entry.data
        else none)

theorem Staging.mkdir_files {t t' : Staging β} {d : StorageDirectory} {path : List String}
    (h : t.mkdir d path = some t') (d' : StorageDirectory) (path' : List String)
    : fileAt (t' d' path') = fileAt (t d' path') := by
  simp only [mkdir] at h
  split at h
  · cases h
  · next hnone =>
      obtain rfl := Option.some.inj h
      dsimp only
      split
      · next hat =>
          obtain ⟨rfl, hleads⟩ := hat
          simp only [List.any_eq_true, List.mem_inits, not_exists, not_and] at hnone
          have hfile := hnone path' hleads
          simp only [Option.isSome_iff_ne_none, ne_eq, not_not] at hfile
          exact hfile.symm
      · rfl

theorem Staging.write_files {t t' : Staging β} {d : StorageDirectory} {path : List String} {data : β}
    (h : t.write d path data = some t') (d' : StorageDirectory) (path' : List String)
    : fileAt (t' d' path') = if d' = d ∧ path' = path then some data else fileAt (t d' path') := by
  simp only [write, Option.bind_eq_bind, Option.bind_eq_some_iff] at h
  obtain ⟨u, hu, h⟩ := h
  have hfiles : fileAt (u d' path') = fileAt (t d' path') := by
    unfold mkdirAbove at hu
    split at hu
    · obtain rfl := Option.some.inj hu
      rfl
    · exact mkdir_files hu d' path'
  split at h
  · cases h
  · obtain rfl := Option.some.inj h
    dsimp only
    split
    · rfl
    · exact hfiles

theorem stageEntry_files {entry : ZipEntry β} {t t' : Staging β} (h : stageEntry entry t = some t')
    (d : StorageDirectory) (path : List String)
    : fileAt (t' d path)
      = if entry.parts = "storage" :: d.name :: path ∧ entry.isDir = false then some entry.data
        else fileAt (t d path) := by
  simp only [stageEntry] at h
  split at h
  · cases h
  · split at h
    · next text rest hparts =>
        split at h
        · cases h
        · next d' hname =>
            obtain rfl := StorageDirectory.name_of_ofName? hname
            have hsame : "storage" :: d'.name :: rest = "storage" :: d.name :: path
                ↔ d = d' ∧ path = rest := by
              constructor
              · intro heq
                simp only [List.cons.injEq, true_and] at heq
                have := congrArg StorageDirectory.ofName? heq.1
                simp only [StorageDirectory.ofName?_name, Option.some.injEq] at this
                exact ⟨this.symm, heq.2.symm⟩
              · rintro ⟨rfl, rfl⟩
                rfl
            simp only [hparts, hsame]
            split at h
            · next hdir => simp [Staging.mkdir_files h, hdir]
            · next hfile => simp [Staging.write_files h, hfile]
    · next hother =>
        obtain rfl := Option.some.inj h
        rw [if_neg fun hat => hother _ _ hat.1]

theorem stageEntries_files {entries : List (ZipEntry β)} {t t' : Staging β}
    (h : stageEntries entries t = some t') (d : StorageDirectory) (path : List String)
    : fileAt (t' d path) = (archivedFile entries d path).or (fileAt (t d path)) := by
  induction entries generalizing t with
  | nil =>
      obtain rfl := Option.some.inj h
      rfl
  | cons entry rest ih =>
      simp only [stageEntries, Option.bind_eq_bind, Option.bind_eq_some_iff] at h
      obtain ⟨u, hu, hrest⟩ := h
      rw [ih hrest, stageEntry_files hu, archivedFile]
      split <;> simp

theorem stageRecoveryDocuments_files {entries : List (ZipEntry β)} {t : Staging β}
    (h : stageRecoveryDocuments entries = some t) (d : StorageDirectory) (path : List String)
    : fileAt (t d path) = archivedFile entries d path := by
  rw [stageEntries_files h]
  simp [fileAt]

/-- A name under which nothing is staged has nothing below it either. -/
def Staging.Rooted (t : Staging β) : Prop := ∀ d, t d [] = none → ∀ path, t d path = none

theorem Staging.Rooted.mkdir {t t' : Staging β} (ht : t.Rooted) {d : StorageDirectory}
    {path : List String} (h : t.mkdir d path = some t')
    : t'.Rooted ∧ t' d [] ≠ none := by
  simp only [Staging.mkdir] at h
  split at h
  · cases h
  · obtain rfl := Option.some.inj h
    refine ⟨fun d' hroot path' => ?_, by simp⟩
    by_cases hd : d' = d
    · simp [hd] at hroot
    · simp only [hd, false_and, if_false] at hroot ⊢
      exact ht d' hroot path'

theorem Staging.Rooted.write {t t' : Staging β} (ht : t.Rooted) {d : StorageDirectory}
    {path : List String} {data : β} (h : t.write d path data = some t')
    : t'.Rooted := by
  simp only [Staging.write, Option.bind_eq_bind, Option.bind_eq_some_iff] at h
  obtain ⟨u, hu, h⟩ := h
  have habove : u.Rooted ∧ (path ≠ [] → u d [] ≠ none) := by
    unfold Staging.mkdirAbove at hu
    split at hu
    · next hempty =>
        obtain rfl := Option.some.inj hu
        exact ⟨ht, fun hne => absurd hempty hne⟩
    · obtain ⟨hrooted, hmade⟩ := ht.mkdir hu
      exact ⟨hrooted, fun _ => hmade⟩
  split at h
  · cases h
  · obtain rfl := Option.some.inj h
    intro d' hroot path'
    by_cases hd : d' = d
    · subst hd
      by_cases hpath : path = []
      · simp [hpath] at hroot
      · simp only [true_and, Ne.symm hpath, if_false] at hroot
        exact absurd hroot (habove.2 hpath)
    · simp only [hd, false_and, if_false] at hroot ⊢
      exact habove.1 d' hroot path'

theorem stageEntries_rooted {entries : List (ZipEntry β)} {t t' : Staging β} (ht : t.Rooted)
    (h : stageEntries entries t = some t')
    : t'.Rooted := by
  induction entries generalizing t with
  | nil =>
      obtain rfl := Option.some.inj h
      exact ht
  | cons entry rest ih =>
      simp only [stageEntries, Option.bind_eq_bind, Option.bind_eq_some_iff] at h
      obtain ⟨u, hu, hrest⟩ := h
      refine ih ?_ hrest
      simp only [stageEntry] at hu
      split at hu
      · cases hu
      · split at hu
        · split at hu
          · cases hu
          · split at hu
            · exact (ht.mkdir hu).1
            · exact ht.write hu
        · obtain rfl := Option.some.inj hu
          exact ht

end LicenseTrack
