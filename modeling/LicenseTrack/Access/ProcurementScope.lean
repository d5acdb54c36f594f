import LicenseTrack.Access.Rules

/-! The filtering of a document collection with one licence query, compared with the check of
each document alone.
-/

namespace LicenseTrack

open Library

-- The bulk path

/-- The sets of keys that `filter_viewable_procurement_documents` collects first. -/
structure ScopeKeys where
  sourceItemIds : List Nat
  poNumbers : List String
  licenseIds : List Nat
  orderIds : List Nat
  bundleIds : List String

namespace ScopeKeys

/-- Whether no set has a key, so that there is no predicate to query with. -/
def isEmpty (keys : ScopeKeys) : Bool :=
  keys.sourceItemIds.isEmpty && keys.poNumbers.isEmpty && keys.licenseIds.isEmpty
    && keys.orderIds.isEmpty && keys.bundleIds.isEmpty

end ScopeKeys

/-- Every licence without an order number. -/
def Store.unnumbered (s : Store) : List (Nat × License) :=
  s.licensesWhere (fun _ l => l.poNumber == "")

end LicenseTrack
