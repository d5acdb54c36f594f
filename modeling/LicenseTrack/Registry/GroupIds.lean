import LicenseTrack.Registry.GroupTree

/-! The ids of registry groups join the texts of keys, so two groups share an id exactly where the
keys of lines cannot be told apart in the joined text; all else that grouping promises always holds.
-/

namespace LicenseTrack

open Library

namespace Registry

variable {rules : TextRules} {column next : Column} {levels : List Column}
  {lines shown all : List Line} {fallback : String}

/-- The lines with the same key. -/
def alike (rules : TextRules) (column : Column) (lines : List Line) (line : Line) : List Line :=
  lines.filter fun other => mapKey rules column other = mapKey rules column line

/-- The text that stands for the key of a line: that of the first line with the same key. -/
def keyText (rules : TextRules) (column : Column) (lines : List Line) (line : Line) : String :=
  idText ((alike rules column lines line).head?.bind fun first =>
    (groupValue rules column first).key)

/-- The text that stands for the keys of a line in two columns. -/
def nestedText (rules : TextRules) (column next : Column) (lines : List Line) (line : Line)
    : String :=
  keyText rules column lines line ++ "/" ++ next.key ++ ":"
    ++ keyText rules next (alike rules column lines line) line

/-- Lines whose keys in one column have the same text have the same key. -/
def KeysApart (rules : TextRules) (column : Column) (lines : List Line) : Prop :=
  ∀ a ∈ lines, ∀ b ∈ lines,
    keyText rules column lines a = keyText rules column lines b
      → mapKey rules column a = mapKey rules column b

/-- Lines can be told apart by the texts of their keys in two columns. -/
structure TwoKeysApart (rules : TextRules) (column next : Column) (lines : List Line) : Prop where
  /-- The texts of the outer column are those of one key each. -/
  outer : KeysApart rules column lines
  /-- The joined texts are those of one pair of keys each. -/
  inner
    : ∀ a ∈ lines, ∀ b ∈ lines,
        nestedText rules column next lines a = nestedText rules column next lines b
        → mapKey rules column a = mapKey rules column b ∧ mapKey rules next a = mapKey rules next b
  /-- No text of the outer column is a joined text. -/
  across
    : ∀ a ∈ lines, ∀ b ∈ lines, keyText rules column lines a ≠ nestedText rules column next lines b

/-- Lines can be told apart by the texts of their keys. -/
def TellableApart (rules : TextRules) (lines : List Line) : List Column → Prop
  | [] => True
  | [column] => KeysApart rules column lines
  | column :: next :: _ => TwoKeysApart rules column next lines

theorem part_of_line {line : Line} (h : line ∈ lines)
    : ∃ part, (mapKey rules column line, part) ∈ partsByKey rules lines column
      ∧ part.lines = alike rules column lines line
      ∧ idText part.key = keyText rules column lines line := by
  have hm : line ∈ alike rules column lines line := List.mem_filter.mpr ⟨h, by simp⟩
  obtain ⟨first, hfirst⟩ : ∃ first, (alike rules column lines line).head? = some first :=
    Option.isSome_iff_exists.mp (List.isSome_head?.mpr (List.ne_nil_of_mem hm))
  refine ⟨_, mem_partsByKey.mpr (Option.map_eq_some_iff.mpr ⟨first, hfirst, rfl⟩), rfl, ?_⟩
  rw [keyText, hfirst]
  rfl

theorem line_of_part {entry : String × Part} (h : entry ∈ partsByKey rules lines column)
    : ∃ line ∈ entry.2.lines, line ∈ lines ∧ mapKey rules column line = entry.1
      ∧ entry.2.lines = alike rules column lines line
      ∧ idText entry.2.key = keyText rules column lines line := by
  obtain ⟨key, part⟩ := entry
  obtain ⟨hlines, hne⟩ := partOf_lines (mem_partsByKey.mp h)
  obtain ⟨line, hline⟩ := List.exists_mem_of_ne_nil _ hne
  have hboth := List.mem_filter.mp (hlines ▸ hline)
  obtain rfl : mapKey rules column line = key := of_decide_eq_true hboth.2
  obtain ⟨part', hpart', hlines', htext⟩ : ∃ part',
      (mapKey rules column line, part') ∈ partsByKey rules lines column
        ∧ part'.lines = alike rules column lines line
        ∧ idText part'.key = keyText rules column lines line := part_of_line hboth.1
  have hsame : part' = part := by
    have hfirst := mem_partsByKey.mp hpart'
    rw [mem_partsByKey.mp h] at hfirst
    exact (Option.some.inj hfirst).symm
  subst hsame
  exact ⟨line, hline, hboth.1, rfl, hlines', htext⟩

theorem partsByKey_injective {entry entry' : String × Part}
    (h : entry ∈ partsByKey rules lines column) (h' : entry' ∈ partsByKey rules lines column)
    (hkey : entry.1 = entry'.1)
    : entry = entry' :=
  List.inj_on_of_nodup_map nodup_partsByKey h h' hkey

theorem nodup_entries : (partsByKey rules lines column).Nodup := List.Nodup.of_map _ nodup_partsByKey

-- Ids

/-- An id of the first level from its text. -/
def topId (column : Column) (text : String) : String := column.key ++ ":" ++ text

theorem topId_injective (column : Column) : Function.Injective (topId column) :=
  fun _ _ h => (String.append_right_inj _).mp h

theorem groupId_top (key : Option String) : groupId "" column key = topId column (idText key) := by
  rw [groupId, if_pos rfl, String.empty_append]
  rfl

theorem groupId_nested (key key' : Option String)
    : groupId (groupId "" column key) next key'
      = topId column (idText key ++ "/" ++ next.key ++ ":" ++ idText key') := by
  have hne : groupId "" column key ≠ "" := by
    rw [groupId_top, topId]
    intro h
    have hlists := congrArg String.toList h
    simp at hlists
  rw [groupId, if_neg hne, groupId_top]
  simp only [topId, String.append_assoc]

theorem nodup_topIds
    : ((partsByKey rules lines column).map fun entry => topId column (idText entry.2.key)).Nodup
      ↔ KeysApart rules column lines := by
  rw [List.nodup_map_iff_inj_on nodup_entries]
  constructor
  · intro h a ha b hb htext
    obtain ⟨part, hpart, -, hkey⟩ := part_of_line ha
    obtain ⟨part', hpart', -, hkey'⟩ := part_of_line hb
    exact congrArg Prod.fst (h _ hpart _ hpart'
      (congrArg (topId column) (hkey.trans (htext.trans hkey'.symm))))
  · intro h entry hentry entry' hentry' hid
    obtain ⟨a, -, ha, hkey, -, htext⟩ := line_of_part hentry
    obtain ⟨b, -, hb, hkey', -, htext'⟩ := line_of_part hentry'
    have hsame := h a ha b hb (htext.symm.trans ((topId_injective column hid).trans htext'))
    exact partsByKey_injective hentry hentry' (hkey.symm.trans (hsame.trans hkey'))

theorem ids_single
    : (allGroupIds (buildLevel rules fallback [column] 0 "" shown all)).Perm
        ((partsByKey rules shown column).map fun entry => topId column (idText entry.2.key)) := by
  have hflat (parts : List Part)
      : allGroupIds (parts.map (nodeOf rules fallback column [] 0 "" all))
        = parts.map fun part => topId column (idText part.key) := by
    induction parts with
    | nil => rfl
    | cons part rest ih =>
        rw [List.map_cons, allGroupIds, ih, List.map_cons, ← groupId_top]
        rfl
  rw [buildLevel_cons, hflat]
  exact (partition_perm.map _).trans (by rw [List.map_map]; exact List.Perm.refl _)

/-- The groups of two levels, as pairs of a group and one inside it. -/
def partPairs (rules : TextRules) (column next : Column) (lines : List Line)
    : List ((String × Part) × (String × Part)) :=
  (partsByKey rules lines column).flatMap fun entry =>
    (partsByKey rules entry.2.lines next).map fun inner => (entry, inner)

theorem nodup_partPairs : (partPairs rules column next lines).Nodup := by
  refine List.nodup_flatMap.mpr ⟨fun entry _ => ?_, nodup_entries.imp fun {a b} hne => ?_⟩
  · exact nodup_entries.map fun _ _ h => (Prod.mk.inj h).2
  · intro pair ha hb
    obtain ⟨inner, -, rfl⟩ := List.mem_map.mp ha
    obtain ⟨inner', -, heq⟩ := List.mem_map.mp hb
    exact hne (Prod.mk.inj heq).1.symm

/-- The text of a group inside another one. -/
def pairText (next : Column) (pair : (String × Part) × (String × Part)) : String :=
  idText pair.1.2.key ++ "/" ++ next.key ++ ":" ++ idText pair.2.2.key

theorem pair_of_line {line : Line} (h : line ∈ lines)
    : ∃ pair ∈ partPairs rules column next lines,
        pair.1.1 = mapKey rules column line ∧ pair.2.1 = mapKey rules next line
        ∧ pairText next pair = nestedText rules column next lines line := by
  obtain ⟨part, hpart, hlines, htext⟩ : ∃ part,
      (mapKey rules column line, part) ∈ partsByKey rules lines column
        ∧ part.lines = alike rules column lines line
        ∧ idText part.key = keyText rules column lines line := part_of_line h
  have hm : line ∈ part.lines := hlines ▸ List.mem_filter.mpr ⟨h, by simp⟩
  obtain ⟨inner, hinner, -, htext'⟩ : ∃ inner,
      (mapKey rules next line, inner) ∈ partsByKey rules part.lines next
        ∧ inner.lines = alike rules next part.lines line
        ∧ idText inner.key = keyText rules next part.lines line := part_of_line hm
  refine ⟨((_, part), (_, inner)), List.mem_flatMap.mpr ⟨_, hpart, List.mem_map.mpr
    ⟨_, hinner, rfl⟩⟩, rfl, rfl, ?_⟩
  rw [pairText, nestedText, htext, htext', hlines]

theorem line_of_pair {pair : (String × Part) × (String × Part)}
    (h : pair ∈ partPairs rules column next lines)
    : ∃ line ∈ lines, pair.1.1 = mapKey rules column line ∧ pair.2.1 = mapKey rules next line
        ∧ pairText next pair = nestedText rules column next lines line := by
  obtain ⟨entry, hentry, hin⟩ := List.mem_flatMap.mp h
  obtain ⟨inner, hinner, rfl⟩ := List.mem_map.mp hin
  obtain ⟨line, -, hline, hkey', -, htext'⟩ := line_of_part hinner
  obtain ⟨other, -, hother, hkey, hlines, htext⟩ := line_of_part hentry
  obtain ⟨hshown, hsame⟩ := List.mem_filter.mp (hlines ▸ hline)
  have hmap : mapKey rules column line = mapKey rules column other := of_decide_eq_true hsame
  have halike : alike rules column lines line = alike rules column lines other := by
    rw [alike, alike, hmap]
  have houter : keyText rules column lines line = keyText rules column lines other := by
    rw [keyText, keyText, halike]
  refine ⟨line, hshown, hkey.symm.trans hmap.symm, hkey'.symm, ?_⟩
  rw [pairText, nestedText, htext, htext', hlines, houter, halike]

theorem partPairs_injective {pair pair' : (String × Part) × (String × Part)}
    (h : pair ∈ partPairs rules column next lines) (h' : pair' ∈ partPairs rules column next lines)
    (hkey : pair.1.1 = pair'.1.1) (hkey' : pair.2.1 = pair'.2.1)
    : pair = pair' := by
  obtain ⟨entry, hentry, hin⟩ := List.mem_flatMap.mp h
  obtain ⟨inner, hinner, rfl⟩ := List.mem_map.mp hin
  obtain ⟨other, hother, hin'⟩ := List.mem_flatMap.mp h'
  obtain ⟨inner', hinner', rfl⟩ := List.mem_map.mp hin'
  obtain rfl : entry = other := partsByKey_injective hentry hother hkey
  obtain rfl : inner = inner' := partsByKey_injective hinner hinner' hkey'
  rfl

theorem ids_double
    : (allGroupIds (buildLevel rules fallback [column, next] 0 "" shown all)).Perm
        ((partsByKey rules shown column).map (fun entry => topId column (idText entry.2.key))
          ++ (partPairs rules column next shown).map fun pair =>
            topId column (pairText next pair)) := by
  have hinner (parts : List Part) (key : Option String) (all : List Line)
      : allGroupIds (parts.map (nodeOf rules fallback next [] 1 (groupId "" column key) all))
        = parts.map fun part =>
          topId column (idText key ++ "/" ++ next.key ++ ":" ++ idText part.key) := by
    induction parts with
    | nil => rfl
    | cons part rest ih =>
        rw [List.map_cons, allGroupIds, ih, List.map_cons, ← groupId_nested]
        rfl
  have hflat (parts : List Part)
      : allGroupIds (parts.map (nodeOf rules fallback column [next] 0 "" all))
        = parts.flatMap fun part => topId column (idText part.key)
          :: (partition rules part.lines next).map fun inner =>
            topId column (idText part.key ++ "/" ++ next.key ++ ":" ++ idText inner.key) := by
    induction parts with
    | nil => rfl
    | cons part rest ih =>
        rw [List.map_cons, allGroupIds, ih, List.flatMap_cons, ← groupId_top, ← hinner]
        rfl
  rw [buildLevel_cons, hflat]
  refine (partition_perm.flatMap_right _).trans ?_
  rw [List.flatMap_map, partPairs, List.map_flatMap]
  simp only [List.map_map]
  refine (List.Perm.flatMap_left _ fun entry _ => ?_).trans
    (List.map_append_flatMap_perm _ _ _).symm
  exact ((partition_perm.map _).trans (by rw [List.map_map]; exact List.Perm.refl _)).cons _

theorem nodup_pairIds
    : ((partPairs rules column next lines).map fun pair =>
        topId column (pairText next pair)).Nodup
      ↔ ∀ a ∈ lines, ∀ b ∈ lines,
          nestedText rules column next lines a = nestedText rules column next lines b
          → mapKey rules column a = mapKey rules column b
            ∧ mapKey rules next a = mapKey rules next b := by
  rw [List.nodup_map_iff_inj_on nodup_partPairs]
  constructor
  · intro h a ha b hb htext
    obtain ⟨pair, hpair, hkey, hkey', hpairtext⟩ := pair_of_line ha
    obtain ⟨other, hother, hotherkey, hotherkey', hothertext⟩ := pair_of_line hb
    obtain rfl : pair = other := h pair hpair other hother
      (congrArg (topId column) (hpairtext.trans (htext.trans hothertext.symm)))
    exact ⟨hkey.symm.trans hotherkey, hkey'.symm.trans hotherkey'⟩
  · intro h pair hpair other hother hid
    obtain ⟨a, ha, hkey, hkey', htext⟩ := line_of_pair hpair
    obtain ⟨b, hb, hotherkey, hotherkey', htext'⟩ := line_of_pair hother
    obtain ⟨houter, hinner⟩ := h a ha b hb
      (htext.symm.trans ((topId_injective column hid).trans htext'))
    exact partPairs_injective hpair hother (hkey.trans (houter.trans hotherkey.symm))
      (hkey'.trans (hinner.trans hotherkey'.symm))

theorem nodup_ids_double
    : (allGroupIds (buildLevel rules fallback [column, next] 0 "" shown all)).Nodup
      ↔ TwoKeysApart rules column next shown := by
  rw [ids_double.nodup_iff, List.nodup_append, nodup_topIds, nodup_pairIds]
  constructor
  · rintro ⟨houter, hinner, hacross⟩
    refine ⟨houter, hinner, fun a ha b hb htext => ?_⟩
    obtain ⟨part, hpart, -, hkey⟩ := part_of_line ha
    obtain ⟨pair, hpair, -, -, hpairtext⟩ := pair_of_line hb
    exact hacross _ (List.mem_map.mpr ⟨_, hpart, rfl⟩) _ (List.mem_map.mpr ⟨pair, hpair, rfl⟩)
      (congrArg (topId column) (hkey.trans (htext.trans hpairtext.symm)))
  · rintro ⟨houter, hinner, hacross⟩
    refine ⟨houter, hinner, fun id hid id' hid' hsame => ?_⟩
    obtain ⟨entry, hentry, rfl⟩ := List.mem_map.mp hid
    obtain ⟨pair, hpair, rfl⟩ := List.mem_map.mp hid'
    obtain ⟨a, -, ha, -, -, htext⟩ := line_of_part hentry
    obtain ⟨b, hb, -, -, htext'⟩ := line_of_pair hpair
    exact hacross a ha b hb (htext.symm.trans ((topId_injective column hsame).trans htext'))

-- All that grouping promises

theorem length_sanitizeFrom {result : List Column} (h : result.length < 2) (value : List String)
    : (sanitizeFrom result value).length ≤ 2 := by
  induction value generalizing result with
  | nil => exact h.le
  | cons key rest ih =>
      have hstep (next : List Column) (hnext : next.length ≤ 2)
          : (if next.length = maxGroupLevels then next else sanitizeFrom next rest).length ≤ 2 := by
        split
        · exact hnext
        · next hnot => exact ih (Nat.lt_of_le_of_ne hnext hnot)
      refine hstep _ ?_
      split
      · split
        · exact h.le
        · rw [List.length_append, List.length_singleton]
          omega
      · exact h.le

theorem nodup_ids_iff (h : levels.length ≤ 2)
    : (allGroupIds (buildLevel rules fallback levels 0 "" shown all)).Nodup
      ↔ TellableApart rules shown levels := by
  match levels, h with
  | [], _ => exact ⟨fun _ => trivial, fun _ => List.nodup_nil⟩
  | [column], _ => exact ids_single.nodup_iff.trans nodup_topIds
  | [column, next], _ => exact nodup_ids_double

/-- What a tree of groups promises of the lines that it groups. -/
structure Groups (lines : List Line) (levels : List Column) (nodes : List GroupNode) : Prop where
  /-- The outermost groups share out the lines. -/
  top : (nodes.flatMap (·.lines)).Perm lines
  /-- The groups inside any group share out its lines and make up its sums. -/
  inside : ∀ node ∈ allNodes nodes, node.Sound
  grouped : (groupedLines nodes).Perm lines
  /-- With every group open, each line is shown once. -/
  opened : ((flattenGroups (allGroupIds nodes) nodes).filterMap Row.line?).Perm lines
  /-- The path of a licence names the groups that contain it. -/
  path
    : ∀ licenseId, findGroupPathIds licenseId nodes = (groupsOf licenseId nodes).map (·.id)
  /-- These groups are one of each level, from the outermost on. -/
  inward : ∀ line ∈ lines, (groupsOf line.id nodes).map (·.depth) = List.range levels.length
  distinct : (allGroupIds nodes).Nodup

/-- Grouping keeps its promises exactly where the keys of the lines can be told apart in the ids. -/
theorem groupLicenses_groups_iff (rules : TextRules) (lines allLicenses : List Line)
    (hids : (lines.map (·.id)).Nodup) (groupBy : List String)
    (haccepted : sanitizeGroupBy groupBy ≠ []) (fallbackCurrency : String)
    : Groups lines (sanitizeGroupBy groupBy)
        (groupLicenses rules lines groupBy allLicenses fallbackCurrency)
      ↔ TellableApart rules lines (sanitizeGroupBy groupBy) := by
  have hlength : (sanitizeGroupBy groupBy).length ≤ 2 := length_sanitizeFrom (by decide) groupBy
  rw [groupLicenses, ← nodup_ids_iff hlength]
  refine ⟨Groups.distinct, fun hdistinct => ?_⟩
  generalize sanitizeGroupBy groupBy = levels at *
  cases levels with
  | nil => exact absurd rfl haccepted
  | cons column levels =>
      exact {
        top := buildLevel_lines
        inside := allNodes_sound _
        grouped := groupedLines_perm column levels
        opened := by
          rw [flattenGroups_open _ _ fun _ hid => hid]
          exact groupedLines_perm column levels
        path := fun _ => (findGroupPathIds_eq _ hids).1
        inward := fun line hline => by
          rw [(findGroupPathIds_eq _ hids).2 ⟨line, hline, rfl⟩, List.range_eq_range']
        distinct := hdistinct
      }

/-- Text rules of a browser that compares texts by their characters. -/
def TextRules.plain : TextRules where
  unicode := .ascii
  collate a b := if a < b then -1 else if b < a then 1 else 0

/-- A licence without a cost centre, and one of the cost centre `(blank)`. -/
def blankAndNamed : List Line := [{ id := 1 }, { id := 2, costCentre := some "(blank)" }]

/-- The group without a cost centre and the group of the cost centre `(blank)` have one id. -/
theorem groupLicenses_sameIds
    : ¬ ∀ (rules : TextRules) (lines allLicenses : List Line) (groupBy : List String)
        (fallbackCurrency : String),
        (lines.map (·.id)).Nodup
        → sanitizeGroupBy groupBy ≠ []
        → Groups lines (sanitizeGroupBy groupBy)
            (groupLicenses rules lines groupBy allLicenses fallbackCurrency) := by
  intro h
  have hdistinct := (h .plain blankAndNamed blankAndNamed ["costCentre"] "EUR" (by decide)
    (by decide +kernel)).distinct
  revert hdistinct
  decide +kernel

/-- Two licences of one supplier in two cost centres are told apart, level by level. -/
theorem groupLicenses_groups_iff_supplier
    : Groups [{ id := 1, costCentre := some "IT" }, { id := 2, costCentre := some "HR" }]
        (sanitizeGroupBy ["supplier", "costCentre"])
        (groupLicenses .plain
          [{ id := 1, costCentre := some "IT" }, { id := 2, costCentre := some "HR" }]
          ["supplier", "costCentre"]
          [{ id := 1, costCentre := some "IT" }, { id := 2, costCentre := some "HR" }] "EUR") := by
  refine (groupLicenses_groups_iff _ _ _ (by decide) _ (by decide +kernel) _).mpr ?_
  have hlevels : sanitizeGroupBy ["supplier", "costCentre"] = [.supplier, .costCentre] := by
    decide +kernel
  rw [hlevels]
  refine ⟨?_, ?_, ?_⟩
  · unfold KeysApart
    decide +kernel
  · decide +kernel
  · decide +kernel

end Registry

end LicenseTrack
