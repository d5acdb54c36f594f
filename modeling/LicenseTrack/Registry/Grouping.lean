import LicenseTrack.Library.Grouping
import LicenseTrack.Money.DecimalSums
import LicenseTrack.Orders.PurchaseIdentity

/-! Registry grouping in the browser: the columns that lines can be grouped by, the tree of groups,
and the rows, lines, paths and ids that the page reads from the tree.
-/

namespace LicenseTrack

open Library

namespace Registry

/-- What grouping reads of a licence in the list, none where the record has no value. -/
structure Line where
  id : Nat
  poNumber : Option String := none
  publisherName : Option String := none
  supplier : Option String := none
  costCentre : Option String := none
  licenseType : Option String := none
  startDate : Option String := none
  endDate : Option String := none
  /-- `expiration?.status ?? expirationStatus`. -/
  expirationStatus : Option String := none
  currency : Option String := none
  contractNumber : Option String := none
  budgetOwnerEmail : Option String := none
  quantity : Option String := none
  unitPrice : Option String := none
deriving DecidableEq

/-- `canonicalNumber`, in exact arithmetic. -/
def lineNumber (value : Option String) : Option ℚ :=
  match value with
  | none => none
  | some text => (Unicode.ascii.readCanonical (trim jsSpace text.toList)).map Decimal.toRat

/-- `getLineAmount`. -/
def getLineAmount (line : Line) : Option ℚ :=
  match lineNumber line.quantity, lineNumber line.unitPrice with
  | some quantity, some unitPrice => some (quantity * unitPrice)
  | _, _ => none

-- Columns

/-- The value that a line is grouped under. -/
structure GroupValue where
  key : Option String
  label : String
deriving DecidableEq, Repr

/-- `GROUPABLE_COLUMNS`. -/
inductive Column
  | poNumber
  | publisher
  | supplier
  | costCentre
  | licenseType
  | startYear
  | endYear
  | status
  | currency
  | contractNumber
  | budgetOwnerEmail
deriving DecidableEq, Repr

/-- `trimmed`. -/
def trimmed (value : Option String) : Option String :=
  let text := trim jsSpace (value.getD "").toList
  if text.isEmpty then none else some (String.ofList text)

/-- The label of a value in a table, itself where the table has none. -/
def labelOf (labels : List (String × String)) (value : String) : String :=
  (labels.lookup value).getD value

/-- `LICENSE_TYPES`. -/
def licenseTypeLabels : List (String × String) :=
  [
    ("freeware", "Freeware / Open Source"),
    ("maintenance", "Maintenance"),
    ("oem", "OEM"),
    ("other", "Other"),
    ("perpetual", "Perpetual"),
    ("saas", "SaaS"),
    ("service", "Service"),
    ("subscription", "Subscription")
  ]

/-- `STATUS_LABELS`. -/
def statusLabels : List (String × String) :=
  [
    ("active", "Active"),
    ("perpetual", "Perpetual"),
    ("upcoming", "Upcoming"),
    ("expiring", "Expiring"),
    ("expired", "Expired"),
    ("pending_renewal", "Pending Renewal"),
    ("renewed", "Renewed"),
    ("retired", "Retired"),
    ("legacy", "Legacy"),
    ("unknown", "Unknown")
  ]

/-- `EXPIRATION_ORDER`. -/
def expirationOrder : List (String × Nat) :=
  [
    ("expired", 0),
    ("expiring", 1),
    ("upcoming", 2),
    ("active", 3),
    ("perpetual", 4),
    ("renewed", 5),
    ("retired", 6),
    ("legacy", 7)
  ]

/-- The four digits at the front of a date. -/
def yearOf (date : Option String) : Option String :=
  let year := (date.getD "").toList.take 4
  if year.length = 4 ∧ year.all Char.isDigit then some (String.ofList year) else none

/-- The value of a text column, its key being normalised. -/
def textValue (normalize : String → String) (value : Option String) : Option (String × String) :=
  (trimmed value).map fun text => (normalize text, text)

/-- What the browser's language says of texts. -/
structure TextRules where
  unicode : Unicode
  /-- `collator.compare`, of which only the sign matters. -/
  collate : String → String → Int

variable (rules : TextRules)

namespace Column

/-- `key`. -/
def key : Column → String
  | poNumber => "poNumber"
  | publisher => "publisher"
  | supplier => "supplier"
  | costCentre => "costCentre"
  | licenseType => "licenseType"
  | startYear => "startYear"
  | endYear => "endYear"
  | status => "status"
  | currency => "currency"
  | contractNumber => "contractNumber"
  | budgetOwnerEmail => "budgetOwnerEmail"

/-- `label`. -/
def label : Column → String
  | poNumber => "PO #"
  | publisher => "Publisher"
  | supplier => "Supplier"
  | costCentre => "Cost Centre"
  | licenseType => "Type"
  | startYear => "Start year"
  | endYear => "End year"
  | status => "Status"
  | currency => "Currency"
  | contractNumber => "Contract #"
  | budgetOwnerEmail => "Budget Owner"

/-- `blankLabel`. -/
def blankLabel : Column → String
  | poNumber => "(No PO #)"
  | publisher => "(No publisher)"
  | supplier => "(No supplier)"
  | costCentre => "(No cost centre)"
  | licenseType => "(No type)"
  | startYear => "(No start date)"
  | endYear => "(No end date)"
  | status => "(No status)"
  | currency => "(No currency)"
  | contractNumber => "(No contract #)"
  | budgetOwnerEmail => "(No budget owner)"

/-- `read`, as a key and a label. -/
def read (column : Column) (line : Line) : Option (String × String) :=
  match column with
  | poNumber => textValue rules.unicode.normalizeProcurementPoNumber line.poNumber
  | publisher => textValue rules.unicode.lower line.publisherName
  | supplier =>
      textValue rules.unicode.lower
        (if line.supplier.getD "" = "" then some "Direct" else line.supplier)
  | costCentre => textValue rules.unicode.lower line.costCentre
  | licenseType =>
      (trimmed line.licenseType).map fun type => (type, labelOf licenseTypeLabels type)
  | startYear => (yearOf line.startDate).map fun year => (year, year)
  | endYear => (yearOf line.endDate).map fun year => (year, year)
  | status => (trimmed line.expirationStatus).map fun status => (status, labelOf statusLabels status)
  | currency =>
      (trimmed line.currency).map fun text =>
        (rules.unicode.upper text, rules.unicode.upper text)
  | contractNumber => textValue rules.unicode.lower line.contractNumber
  | budgetOwnerEmail => textValue rules.unicode.lower line.budgetOwnerEmail

/-- `compare` of two groups that have keys. -/
def compare (column : Column) (key label key' label' : String) : Int :=
  match column with
  | startYear | endYear => (key.toNat?.getD 0 : Int) - (key'.toNat?.getD 0 : Int)
  | status =>
      ((expirationOrder.lookup key).getD 99 : Int) - ((expirationOrder.lookup key').getD 99 : Int)
  | _ => rules.collate label label'

/-- The columns in the order of `GROUPABLE_COLUMNS`. -/
def all : List Column :=
  [poNumber, publisher, supplier, costCentre, licenseType, startYear, endYear, status, currency,
    contractNumber, budgetOwnerEmail]

/-- `getGroupableColumn`. -/
def ofKey? (key : String) : Option Column := all.find? fun column => column.key == key

end Column

/-- `MAX_GROUP_LEVELS`. -/
def maxGroupLevels : Nat := 2

/-- The loop of `sanitizeGroupBy`, which stops where enough levels are found. -/
def sanitizeFrom (result : List Column) : List String → List Column
  | [] => result
  | key :: rest =>
      let next := match Column.ofKey? key with
        | some column => if column ∈ result then result else result ++ [column]
        | none => result
      if next.length = maxGroupLevels then next else sanitizeFrom next rest

/-- `sanitizeGroupBy` of a list of texts. -/
def sanitizeGroupBy (value : List String) : List Column := sanitizeFrom [] value

-- Groups

/-- `BLANK`. -/
def blankKey : String := String.ofList [Char.ofNat 0] ++ "blank"

/-- `groupValue`. -/
def groupValue (column : Column) (line : Line) : GroupValue :=
  match column.read rules line with
  | some (key, label) => ⟨some key, label⟩
  | none => ⟨none, column.blankLabel⟩

/-- What lines are told apart by in one column. -/
def mapKey (column : Column) (line : Line) : String :=
  ((groupValue rules column line).key).getD blankKey

/-- A group of `partition`. -/
structure Part where
  key : Option String
  label : String
  lines : List Line
deriving DecidableEq

/-- The order of groups, the blank one last. -/
def Part.before (column : Column) (a b : Part) : Bool :=
  match a.key, b.key with
  | none, key => key.isNone
  | some _, none => true
  | some key, some key' => column.compare rules key a.label key' b.label ≤ 0

/-- The groups of lines by their keys, in the order of the first lines. -/
def partsByKey (lines : List Line) (column : Column) : List (String × Part) :=
  groupBy (mapKey rules column)
    (fun line =>
      { key := (groupValue rules column line).key
        label := (groupValue rules column line).label
        lines := [] })
    (fun line part => { part with lines := part.lines ++ [line] }) lines

/-- `partition`. -/
def partition (lines : List Line) (column : Column) : List Part :=
  ((partsByKey rules lines column).map Prod.snd).insertionSort fun a b =>
    Part.before rules column a b = true

/-- `summarize`, but for the purchase totals of PO groups. -/
structure Summary where
  shownCount : Nat
  totalCount : Nat
  lineSumByCurrency : List (String × ℚ)
  earliestEndDate : Option String
deriving DecidableEq

/-- `ENDED_STATUSES`. -/
def endedStatuses : List String := ["renewed", "retired", "legacy"]

/-- A value, another one where it is missing or empty. -/
def orElse (value : Option String) (fallback : String) : String :=
  if value.getD "" = "" then fallback else value.getD ""

/-- The line's part in `lineSumByCurrency`. -/
def addLine (fallbackCurrency : String) (sums : List (String × ℚ)) (line : Line)
    : List (String × ℚ) :=
  match getLineAmount line with
  | some amount => addAmount sums (orElse line.currency fallbackCurrency) amount
  | none => sums

/-- The line's part in `earliestEndDate`. -/
def earlierEnd (earliest : Option String) (line : Line) : Option String :=
  let finish := line.endDate.getD ""
  if finish ≠ "" ∧ ¬ endedStatuses.contains (line.expirationStatus.getD "")
      ∧ earliest.all (finish < ·) then
    some finish
  else earliest

/-- `summarize`. -/
def summarize (shownLines allGroupLines : List Line) (fallbackCurrency : String) : Summary where
  shownCount := shownLines.length
  totalCount := allGroupLines.length
  lineSumByCurrency := shownLines.foldl (addLine fallbackCurrency) []
  earliestEndDate := shownLines.foldl earlierEnd none

/-- A node of the tree of groups. -/
structure GroupNode where
  id : String
  columnKey : String
  columnLabel : String
  key : Option String
  label : String
  depth : Nat
  lines : List Line
  children : List GroupNode
  summary : Summary

/-- The text that stands for a key in an id. -/
def idText (key : Option String) : String := key.getD "(blank)"

/-- The id of a group. -/
def groupId (parentId : String) (column : Column) (key : Option String) : String :=
  (if parentId = "" then "" else parentId ++ "/") ++ column.key ++ ":" ++ idText key

/-- The lines of a group among all lines, those of the group itself where there are none. -/
def allLinesOf (allLines : List Line) (column : Column) (part : Part) : List Line :=
  ((entryAt (partsByKey rules allLines column) (part.key.getD blankKey)).map (·.lines)).getD
    part.lines

/-- `buildLevel`, on the levels from the depth on. -/
def buildLevel (fallbackCurrency : String) : List Column → Nat → String → List Line → List Line
    → List GroupNode
  | [], _, _, _, _ => []
  | column :: levels, depth, parentId, shownLines, allLines =>
      (partition rules shownLines column).map fun part =>
        let id := groupId parentId column part.key
        let allGroupLines := allLinesOf rules allLines column part
        {
          id
          columnKey := column.key
          columnLabel := column.label
          key := part.key
          label := part.label
          depth
          lines := part.lines
          children :=
            buildLevel fallbackCurrency levels (depth + 1) id part.lines allGroupLines
          summary := summarize part.lines allGroupLines fallbackCurrency
        }

/-- `groupLicenses`. -/
def groupLicenses (sortedLines : List Line) (groupBy : List String) (allLicenses : List Line)
    (fallbackCurrency : String)
    : List GroupNode :=
  buildLevel rules fallbackCurrency (sanitizeGroupBy groupBy) 0 "" sortedLines allLicenses

/-- A row of the table. -/
inductive Row
  | group (node : GroupNode)
  | line (license : Line) (depth : Nat)

mutual

/-- `flattenGroups`. -/
def flattenGroups (expandedIds : List String) : List GroupNode → List Row
  | [] => []
  | node :: rest => node.rows expandedIds ++ flattenGroups expandedIds rest

/-- The rows of one node. -/
def GroupNode.rows (expandedIds : List String) : GroupNode → List Row
  | ⟨id, columnKey, columnLabel, key, label, depth, lines, children, summary⟩ =>
      .group ⟨id, columnKey, columnLabel, key, label, depth, lines, children, summary⟩ ::
        if expandedIds.contains id then
          if children.isEmpty then lines.map fun license => .line license (depth + 1)
          else flattenGroups expandedIds children
        else []

end

mutual

/-- `groupedLines`. -/
def groupedLines : List GroupNode → List Line
  | [] => []
  | node :: rest => node.grouped ++ groupedLines rest

/-- The lines of one node in grouped order. -/
def GroupNode.grouped : GroupNode → List Line
  | ⟨_, _, _, _, _, _, lines, children, _⟩ =>
      if children.isEmpty then lines else groupedLines children

end

/-- Whether a group contains a licence. -/
def GroupNode.has (licenseId : Nat) (node : GroupNode) : Bool :=
  node.lines.any fun license => license.id == licenseId

mutual

/-- `findGroupPathIds`. -/
def findGroupPathIds (licenseId : Nat) : List GroupNode → List String
  | [] => []
  | node :: rest =>
      if node.has licenseId then node.pathIds licenseId else findGroupPathIds licenseId rest

/-- The path through a node that contains the licence. -/
def GroupNode.pathIds (licenseId : Nat) : GroupNode → List String
  | ⟨id, _, _, _, _, _, _, children, _⟩ => id :: findGroupPathIds licenseId children

end

mutual

/-- The nodes of a tree, each one before its children. -/
def allNodes : List GroupNode → List GroupNode
  | [] => []
  | node :: rest => node.withDescendants ++ allNodes rest

/-- A node with all nodes below it. -/
def GroupNode.withDescendants : GroupNode → List GroupNode
  | ⟨id, columnKey, columnLabel, key, label, depth, lines, children, summary⟩ =>
      ⟨id, columnKey, columnLabel, key, label, depth, lines, children, summary⟩
        :: allNodes children

end

mutual

/-- `allGroupIds`. -/
def allGroupIds : List GroupNode → List String
  | [] => []
  | node :: rest => node.groupIds ++ allGroupIds rest

/-- The id of a node and those of the nodes below it. -/
def GroupNode.groupIds : GroupNode → List String
  | ⟨id, _, _, _, _, _, _, children, _⟩ => id :: allGroupIds children

end

end Registry

end LicenseTrack
