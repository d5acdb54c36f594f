import LicenseTrack.Library.Table
import LicenseTrack.Model.Store

/-! A directory of reference records, organisations or cost centres: each record has one
canonical name, and the names in the alias table lead to it as well.
-/

namespace LicenseTrack.References

open Library

/-- A row of `organizations` or of `cost_centres`, with the roles that only the first has. -/
structure Reference (ρ : Type) where
  name : String
  normalizedName : String
  roles : ρ
  isActive : Bool
deriving DecidableEq

/-- A row of `organization_aliases` or of `cost_centre_aliases`. -/
structure Alias where
  ownerId : Nat
  name : String
  normalizedName : String
deriving DecidableEq

/-- The two tables of one kind of reference data. -/
structure Directory (ρ : Type) where
  records : Table (Reference ρ) := .empty
  aliases : Table Alias := .empty
deriving DecidableEq

/-- What the messages about one kind of reference data say. -/
structure ReferenceTexts where
  notFound : String
  inactive : String → String
  noMatch : String → String
  alreadyExists : String → String
  aliasAssignedElsewhere : String
  aliasIsCanonical : String
  mergeNotFound : String
  mergeIntoItself : String
  mergeCollision : String
  inUse : String

/-- The messages about organisations. -/
def organizationTexts : ReferenceTexts where
  notFound := "Organization not found"
  inactive name := s!"Organization '{name}' is inactive and requires admin action."
  noMatch cleaned := s!"No organization matches '{cleaned}'."
  alreadyExists cleaned := s!"An organization matching '{cleaned}' already exists."
  aliasAssignedElsewhere := "That alias is already assigned to another organization."
  aliasIsCanonical := "An alias cannot duplicate a canonical organization name."
  mergeNotFound := "Source or target organization not found"
  mergeIntoItself := "An organization cannot be merged into itself."
  mergeCollision := "A merge alias collides with a third organization."
  inUse := "This organization is in use; merge or deactivate it instead."

/-- The messages about cost centres. -/
def costCentreTexts : ReferenceTexts where
  notFound := "Cost centre not found"
  inactive name := s!"Cost centre '{name}' is inactive and requires admin action."
  noMatch cleaned := s!"No cost centre matches '{cleaned}'."
  alreadyExists cleaned := s!"A cost centre matching '{cleaned}' already exists."
  aliasAssignedElsewhere := "That alias is already in use by another cost centre."
  aliasIsCanonical := "An alias cannot duplicate a canonical cost centre name."
  mergeNotFound := "Source or target cost centre not found"
  mergeIntoItself := "A cost centre cannot be merged into itself."
  mergeCollision := "A merge alias collides with a third cost centre."
  inUse := "This cost centre is in use; merge or deactivate it instead."

/-- `clean_reference_name`. -/
def cleanName (u : Unicode) (value : String) : Except Failure String := do
  require (u.cleanReferenceName value ≠ "") (.http 422 "Reference names cannot be blank")
  pure (u.cleanReferenceName value)

/-- The key under which the code stores and looks up a name: it cleans first. -/
def nameKey (u : Unicode) (value : String) : String :=
  u.normalizeReferenceName (u.cleanReferenceName value)

theorem cleanName_eq_ok {u : Unicode} {value cleaned : String}
    : cleanName u value = .ok cleaned
      ↔ u.cleanReferenceName value ≠ "" ∧ u.cleanReferenceName value = cleaned := by
  simp only [cleanName, bind_eq_ok, require_eq_ok, pure_eq_ok, exists_const]

namespace Directory

variable {ρ : Type}

/-- The normalised name belongs to the record, as its canonical name or as an alias. -/
def Names (d : Directory ρ) (key : String) (id : Nat) : Prop :=
  (∃ r, d.records.get? id = some r ∧ r.normalizedName = key)
    ∨ ∃ aliasId a, d.aliases.get? aliasId = some a ∧ a.ownerId = id ∧ a.normalizedName = key

/-- No normalised name belongs to two records. -/
def Unambiguous (d : Directory ρ) : Prop := Relator.RightUnique d.Names

/-- Each alias leads to a record. -/
def Owned (d : Directory ρ) : Prop :=
  ∀ aliasId a, d.aliases.get? aliasId = some a → ∃ r, d.records.get? a.ownerId = some r

/-- `find_organization` and `find_cost_centre`. -/
def find (d : Directory ρ) (normalized : String) : Option (Nat × Reference ρ) :=
  match d.records.entries.find? (fun entry => entry.2.normalizedName == normalized) with
  | some entry => some entry
  | none =>
      match d.aliases.entries.find? (fun entry => entry.2.normalizedName == normalized) with
      | some (_, a) => (d.records.get? a.ownerId).map (fun r => (a.ownerId, r))
      | none => none

theorem find_some {d : Directory ρ} {key : String} {id : Nat} {r : Reference ρ}
    (h : d.find key = some (id, r))
    : d.records.get? id = some r ∧ d.Names key id := by
  unfold find at h
  split at h
  · next entry hfound =>
      obtain rfl := Option.some.inj h
      have hr := Table.get?_eq_some.mpr (List.mem_of_find?_eq_some hfound)
      exact ⟨hr, .inl ⟨r, hr, by simpa using List.find?_some hfound⟩⟩
  · split at h
    · next aliasId a hfound =>
        obtain ⟨r', hr', heq⟩ := Option.map_eq_some_iff.mp h
        obtain ⟨rfl, rfl⟩ := Prod.mk.inj heq
        have ha := Table.get?_eq_some.mpr (List.mem_of_find?_eq_some hfound)
        exact ⟨hr', .inr ⟨aliasId, a, ha, rfl, by simpa using List.find?_some hfound⟩⟩
    · cases h

theorem find_none {d : Directory ρ} (hd : d.Owned) {key : String} (h : d.find key = none) (id : Nat)
    : ¬d.Names key id := by
  unfold find at h
  split at h
  · cases h
  · next hnone =>
      rintro (⟨r, hr, hkey⟩ | ⟨aliasId, a, ha, -, hkey⟩)
      · have := List.find?_eq_none.mp hnone _ (Table.get?_eq_some.mp hr)
        simp [hkey] at this
      · split at h
        · next aliasId' a' hfound =>
            obtain ⟨r, hr⟩ :=
              hd _ _ (Table.get?_eq_some.mpr (List.mem_of_find?_eq_some hfound))
            simp [hr] at h
        · next hnone' =>
            have := List.find?_eq_none.mp hnone' _ (Table.get?_eq_some.mp ha)
            simp [hkey] at this

theorem find_iff {d : Directory ρ} (hu : d.Unambiguous) (hd : d.Owned) {key : String} {id : Nat}
    : (d.find key).map Prod.fst = some id ↔ d.Names key id := by
  constructor
  · intro h
    obtain ⟨⟨id', r⟩, hfound, rfl⟩ := Option.map_eq_some_iff.mp h
    exact (find_some hfound).2
  · intro h
    cases hfound : d.find key with
    | none => exact absurd h (find_none hd hfound id)
    | some entry =>
        obtain ⟨id', r⟩ := entry
        rw [hu h (find_some hfound).2]
        rfl

/-- `_flush_new` of a record, whose unique constraint sees the records only. -/
def flushRecord (d : Directory ρ) (r : Reference ρ) : Except Failure (Nat × Directory ρ) := do
  require (d.records.select (fun _ other => other.normalizedName == r.normalizedName) = [])
    (.http 409 "That reference name or alias already exists.")
  pure (d.records.nextKey, { d with records := d.records.insert r })

/-- `_flush_new` of an alias, whose unique constraint sees the aliases only. -/
def flushAlias (d : Directory ρ) (a : Alias) : Except Failure (Directory ρ) := do
  require (d.aliases.select (fun _ other => other.normalizedName == a.normalizedName) = [])
    (.http 409 "That reference name or alias already exists.")
  pure { d with aliases := d.aliases.insert a }

/-- `resolve_organization` and `resolve_cost_centre`: the record that bears the name, in the
role it is named in, else a new one.
-/
def resolve (d : Directory ρ) (u : Unicode) (texts : ReferenceTexts) (touch : ρ → ρ) (roles : ρ)
    (createIfMissing : Bool) (value : String)
    : Except Failure (Nat × Directory ρ) := do
  let cleaned ← cleanName u value
  match d.find (u.normalizeReferenceName cleaned) with
  | some (id, r) =>
      require (r.isActive = true) (.http 409 (texts.inactive r.name))
      pure (id, { d with records := d.records.modify id (fun r => { r with roles := touch r.roles }) })
  | none =>
      require (createIfMissing = true) (.http 404 (texts.noMatch cleaned))
      -- Nothing was found just before, so a failed flush finds nothing either and raises.
      d.flushRecord
        {
          name := cleaned
          normalizedName := u.normalizeReferenceName cleaned
          roles := roles
          isActive := true
        }

/-- `create_organization`, after its check of the roles, and `create_cost_centre`. -/
def create (d : Directory ρ) (u : Unicode) (texts : ReferenceTexts) (roles : ρ) (value : String)
    : Except Failure (Nat × Directory ρ) := do
  let cleaned ← cleanName u value
  require ((d.find (u.normalizeReferenceName cleaned)).isNone)
    (.http 409 (texts.alreadyExists cleaned))
  d.flushRecord
    {
      name := cleaned
      normalizedName := u.normalizeReferenceName cleaned
      roles := roles
      isActive := true
    }

/-- `_add_organization_alias` and `_add_cost_centre_alias`, with the checks of
`_alias_addition_is_idempotent`.
-/
def addAlias (d : Directory ρ) (u : Unicode) (texts : ReferenceTexts) (id : Nat) (value : String)
    : Except Failure (Directory ρ) := do
  let cleaned ← cleanName u value
  let normalized := u.normalizeReferenceName cleaned
  match d.aliases.entries.find? (fun entry => entry.2.normalizedName == normalized) with
  | some (_, existing) =>
      require (existing.ownerId = id) (.http 409 texts.aliasAssignedElsewhere)
      pure d
  | none =>
      require (d.records.select (fun _ r => r.normalizedName == normalized) = [])
        (.http 409 texts.aliasIsCanonical)
      d.flushAlias { ownerId := id, name := cleaned, normalizedName := normalized }

/-- `_assert_name_available`. -/
def assertNameAvailable (d : Directory ρ) (normalized : String) (id : Nat)
    : Except Failure PUnit :=
  require
    (d.records.select (fun other r => r.normalizedName == normalized && other != id) = []
      ∧ d.aliases.select (fun _ a => a.normalizedName == normalized && a.ownerId != id) = [])
    (.http 409 "That canonical name or alias is already in use.")

/-- `_rename_reference`, up to the mirrors. -/
def rename (d : Directory ρ) (u : Unicode) (texts : ReferenceTexts) (id : Nat)
    (r : Reference ρ) (cleaned : String)
    : Except Failure (Directory ρ) := do
  let normalized := u.normalizeReferenceName cleaned
  d.assertNameAvailable normalized id
  let renamed : Directory ρ :=
    {
      records := d.records.modify id
        (fun r => { r with name := cleaned, normalizedName := normalized })
      aliases := d.aliases.filter (fun _ a => !(a.ownerId == id && a.normalizedName == normalized))
    }
  renamed.addAlias u texts id r.name

/-- The name part of `update_organization` and `update_cost_centre`. -/
def updateName (d : Directory ρ) (u : Unicode) (texts : ReferenceTexts) (id : Nat)
    (r : Reference ρ) (value : String)
    : Except Failure (Directory ρ) := do
  let cleaned ← cleanName u value
  if u.normalizeReferenceName cleaned = r.normalizedName then
    pure { d with records := d.records.modify id (fun r => { r with name := cleaned }) }
  else d.rename u texts id r cleaned

/-- `delete_alias`. -/
def deleteAlias (d : Directory ρ) (aliasId : Nat) : Except Failure (Directory ρ) := do
  require ((d.aliases.get? aliasId).isSome) (.http 404 "Alias not found")
  pure { d with aliases := d.aliases.filter (fun key _ => key != aliasId) }

/-- `set_active`. -/
def setActive (d : Directory ρ) (id : Nat) (active : Bool) : Except Failure (Directory ρ) := do
  require ((d.records.get? id).isSome) (.http 404 "Reference record not found")
  pure { d with records := d.records.modify id (fun r => { r with isActive := active }) }

/-- `db.delete` of a record, which takes its aliases along. -/
def remove (d : Directory ρ) (id : Nat) : Directory ρ where
  records := d.records.filter (fun key _ => key != id)
  aliases := d.aliases.filter (fun _ a => a.ownerId != id)

/-- `_validate_organization_alias_transfer` and `_validate_cost_centre_alias_transfer`: the
names that the target will get, given the keys seen before.
-/
def validateAliasTransfer (d : Directory ρ) (u : Unicode) (texts : ReferenceTexts)
    (source target : Nat) (targetKey : String)
    : List String → List String → Except Failure (List String)
  | _, [] => .ok []
  | seen, name :: rest => do
      let cleaned ← cleanName u name
      let normalized := u.normalizeReferenceName cleaned
      if normalized ∈ seen ∨ normalized = targetKey then
        d.validateAliasTransfer u texts source target targetKey seen rest
      else do
        require
          (d.records.select (fun id r =>
              r.normalizedName == normalized && id != source && id != target) = []
            ∧ d.aliases.select (fun _ a =>
              a.normalizedName == normalized && a.ownerId != source && a.ownerId != target) = [])
          (.http 409 texts.mergeCollision)
        let candidates ←
          d.validateAliasTransfer u texts source target targetKey (normalized :: seen) rest
        pure (cleaned :: candidates)

/-- The names of a record: its canonical one and its aliases. -/
def ownNames (d : Directory ρ) (id : Nat) (r : Reference ρ) : List String :=
  r.name :: ((d.aliases.entries.filter (fun entry => entry.2.ownerId == id)).map (·.2.name))

end Directory

end LicenseTrack.References
