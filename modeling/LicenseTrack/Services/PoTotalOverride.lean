import LicenseTrack.Services.References

/-! The manual total of a purchase, stored on every licence of the purchase. -/

namespace LicenseTrack

open Library

/-- What a licence was bought with. The code spells the four cases as texts with four
different prefixes.
-/
inductive ProcurementIdentity
  | pendingOrder (id : Nat)
  | bundle (id : String)
  | poNumber (normalized : String)
  | unkeyed (licenseId : Nat)
deriving DecidableEq

/-- `(currency or "").strip().upper()`. -/
def Unicode.normalizeCurrency (u : Unicode) (currency : String) : String :=
  u.upper (strip currency)

/-- `procurement_identity_key`. -/
def procurementIdentityKey (u : Unicode) (licenseId pendingOrderId : Option Nat)
    (bundleId : Option String) (poNumber currency : String)
    : Option (ProcurementIdentity × String) :=
  let normalizedCurrency := u.normalizeCurrency currency
  if normalizedCurrency = "" then none
  else match pendingOrderId with
    | some id => some (.pendingOrder id, normalizedCurrency)
    | none =>
        if bundleId.getD "" ≠ "" then some (.bundle (bundleId.getD ""), normalizedCurrency)
        else
          let normalizedPo := u.normalizePoNumber poNumber
          if normalizedPo ≠ "" then some (.poNumber normalizedPo, normalizedCurrency)
          else licenseId.map (fun id => (.unkeyed id, normalizedCurrency))

/-- `_identity_filter`, the query condition that selects the licences of a key. Its currency
comparison uses SQLite's text functions.
-/
def matchesIdentity (u : Unicode) (key : ProcurementIdentity × String) (id : Nat) (l : License)
    : Bool :=
  sqlUpper (sqlTrim l.currency) == key.2
    && match key.1 with
      | .pendingOrder orderId => l.pendingOrderId == some orderId
      | .bundle bundleId => l.procurementBundleId == some bundleId
      | .poNumber normalized =>
          u.normalizePoNumber l.poNumber == normalized && l.pendingOrderId.isNone
            && l.procurementBundleId.isNone
      | .unkeyed licenseId => id == licenseId

/-- `get_po_total_override`: the first stored total among the licences of the purchase. -/
def getPoTotalOverride (u : Unicode) (s : Store) (exclude pendingOrderId : Option Nat)
    (bundleId : Option String) (poNumber currency : String)
    : Option String :=
  match procurementIdentityKey u none pendingOrderId bundleId poNumber currency with
  | none => none
  | some key =>
      s.licenses.entries.findSome? (fun entry =>
        if matchesIdentity u key entry.1 entry.2 && exclude != some entry.1 then
          entry.2.poTotalOverride
        else none)

/-- `inherit_po_total_override`, for a new licence that does not bring its own total. -/
def inheritPoTotalOverride (u : Unicode) (s : Store) (p : LicensePurchase) : LicensePurchase :=
  { p with
    poTotalOverride :=
      getPoTotalOverride u s none p.pendingOrderId p.procurementBundleId p.poNumber p.currency }

/-- Whether another licence carries a key. -/
def hasSibling (u : Unicode) (s : Store) (key : ProcurementIdentity × String) (id : Nat) : Bool :=
  s.licenses.entries.any (fun entry => matchesIdentity u key entry.1 entry.2 && entry.1 != id)

/-- `resolve_reassigned_po_total_override`. -/
def resolveReassignedPoTotalOverride (u : Unicode) (s : Store) (id : Nat) (l : License)
    (newPoNumber newCurrency : String)
    : Option String :=
  let targetCurrency := if newCurrency ≠ "" then newCurrency else l.currency
  if newPoNumber = l.poNumber ∧ targetCurrency = l.currency then l.poTotalOverride
  else if newPoNumber = "" ∨ targetCurrency = "" then none
  else if l.pendingOrderId ≠ none ∨ l.procurementBundleId.getD "" ≠ "" then
    -- The order or bundle stays the purchase; only the currency can leave it.
    if targetCurrency = l.currency then l.poTotalOverride
    else
      getPoTotalOverride u s (some id) l.pendingOrderId l.procurementBundleId newPoNumber
        targetCurrency
  else
    match procurementIdentityKey u (some id) none none newPoNumber targetCurrency,
        procurementIdentityKey u (some id) none none l.poNumber l.currency with
    | some target, some old =>
        if hasSibling u s target id then
          getPoTotalOverride u s (some id) none none newPoNumber targetCurrency
        else if targetCurrency ≠ l.currency then none
        else if l.poNumber = "" then none
        else if hasSibling u s old id then none
        else l.poTotalOverride
    | _, _ => none

/-- `apply_po_total_override`. -/
def applyPoTotalOverride (u : Unicode) (id : Nat) (value : Option String) (s : Store)
    : Except Failure Store := do
  let l ← found (s.license? id) (.http 404 "License not found")
  require (l.poNumber ≠ "")
    (.http 400 "A PO number is required to override the total PO value")
  -- A blank currency has no key, and unpacking the missing filter fails.
  let key ← found
    (procurementIdentityKey u (some id) l.pendingOrderId l.procurementBundleId l.poNumber
      l.currency)
    (.database "Value after * must be an iterable, not NoneType")
  pure (s.mapLicenses (fun i l =>
    if matchesIdentity u key i l then { l with poTotalOverride := value } else l))

end LicenseTrack
