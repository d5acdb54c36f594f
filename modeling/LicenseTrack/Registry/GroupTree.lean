import LicenseTrack.Registry.Grouping

/-! The tree of registry groups: siblings share out the lines of their parent, sums of children make
up the sum of their parent, every line is in one group of each level, and the page that opens all
groups shows each line once.
-/

namespace LicenseTrack

open Library

namespace Registry

variable {rules : TextRules} {column : Column} {levels : List Column} {lines shown all : List Line}
  {depth : Nat} {parentId fallback : String} {nodes : List GroupNode} {node : GroupNode}
  {licenseId : Nat}

/-- The group of lines with one key: the first of them gives its key and its label. -/
def partOf (rules : TextRules) (column : Column) (lines : List Line) (key : String)
    : Option Part :=
  let same := lines.filter fun line => mapKey rules column line = key
  same.head?.map fun first =>
    { key := (groupValue rules column first).key
      label := (groupValue rules column first).label
      lines := same }

theorem foldl_lines (rest : List Line) (part : Part)
    : rest.foldl (fun part line => { part with lines := part.lines ++ [line] }) part
      = { part with lines := part.lines ++ rest } := by
  induction rest generalizing part with
  | nil => rw [List.append_nil, List.foldl_nil]
  | cons line rest ih =>
      rw [List.foldl_cons, ih]
      simp only [List.append_assoc, List.singleton_append]

theorem mem_partsByKey {key : String} {part : Part}
    : (key, part) ∈ partsByKey rules lines column ↔ partOf rules column lines key = some part := by
  rw [partsByKey, mem_groupBy, partOf]
  cases lines.filter fun line => mapKey rules column line = key with
  | nil => rfl
  | cons first rest =>
      rw [foldGroup, foldl_lines]
      rfl

theorem nodup_partsByKey : ((partsByKey rules lines column).map Prod.fst).Nodup :=
  nodup_groupBy _ _ _ _

theorem partition_perm
    : (partition rules lines column).Perm ((partsByKey rules lines column).map Prod.snd) :=
  List.perm_insertionSort _ _

theorem mem_partition {part : Part}
    : part ∈ partition rules lines column ↔ ∃ key, partOf rules column lines key = some part := by
  rw [partition_perm.mem_iff, List.mem_map]
  constructor
  · rintro ⟨⟨key, part⟩, hm, rfl⟩
    exact ⟨key, mem_partsByKey.mp hm⟩
  · rintro ⟨key, hpart⟩
    exact ⟨(key, part), mem_partsByKey.mpr hpart, rfl⟩

theorem partOf_lines {key : String} {part : Part} (h : partOf rules column lines key = some part)
    : part.lines = lines.filter (fun line => mapKey rules column line = key) ∧ part.lines ≠ [] := by
  obtain ⟨first, hfirst, rfl⟩ := Option.map_eq_some_iff.mp h
  exact ⟨rfl, List.ne_nil_of_mem (List.mem_of_head? hfirst)⟩

theorem partition_lines
    : ((partition rules lines column).flatMap (·.lines)).Perm lines := by
  refine (partition_perm.flatMap_right _).trans ?_
  have hsum : ((partsByKey rules lines column).map fun entry => (entry.2.lines : Multiset Line)).sum
      = (lines.map fun line => ({line} : Multiset Line)).sum :=
    sum_groupBy _ _ _ (fun _ => rfl) fun line _ part => (Multiset.coe_add part.lines [line]).symm
  have hflat (entries : List (String × Part))
      : (((entries.map Prod.snd).flatMap (·.lines) : List Line) : Multiset Line)
        = (entries.map fun entry => (entry.2.lines : Multiset Line)).sum := by
    induction entries with
    | nil => rfl
    | cons entry rest ih =>
        rw [List.map_cons, List.flatMap_cons, ← Multiset.coe_add, ih, List.map_cons, List.sum_cons]
  have hsingle (list : List Line)
      : (list.map fun line => ({line} : Multiset Line)).sum = (list : Multiset Line) := by
    induction list with
    | nil => rfl
    | cons line rest ih =>
        rw [List.map_cons, List.sum_cons, ih, Multiset.singleton_add, Multiset.cons_coe]
  exact Multiset.coe_eq_coe.mp ((hflat _).trans (hsum.trans (hsingle lines)))

/-- The node of one group. -/
def nodeOf (rules : TextRules) (fallback : String) (column : Column) (levels : List Column)
    (depth : Nat) (parentId : String) (all : List Line) (part : Part)
    : GroupNode where
  id := groupId parentId column part.key
  columnKey := column.key
  columnLabel := column.label
  key := part.key
  label := part.label
  depth
  lines := part.lines
  children := buildLevel rules fallback levels (depth + 1) (groupId parentId column part.key)
    part.lines (allLinesOf rules all column part)
  summary := summarize part.lines (allLinesOf rules all column part) fallback

theorem buildLevel_cons
    : buildLevel rules fallback (column :: levels) depth parentId shown all
      = (partition rules shown column).map
          (nodeOf rules fallback column levels depth parentId all) := rfl

theorem buildLevel_lines
    : ((buildLevel rules fallback (column :: levels) depth parentId shown all).flatMap
        (·.lines)).Perm shown := by
  rw [buildLevel_cons, List.flatMap_map]
  exact partition_lines

theorem withDescendants_eq : node.withDescendants = node :: allNodes node.children := by
  obtain ⟨_, _, _, _, _, _, _, _, _⟩ := node
  rw [GroupNode.withDescendants]

theorem mem_allNodes {below : GroupNode}
    : below ∈ allNodes nodes ↔ ∃ node ∈ nodes, below = node ∨ below ∈ allNodes node.children := by
  induction nodes with
  | nil => simp [allNodes]
  | cons node rest ih =>
      rw [allNodes, List.mem_append, ih, withDescendants_eq, List.mem_cons]
      simp only [List.mem_cons, exists_eq_or_imp]

/-- The line that a row shows, none for the head of a group. -/
def Row.line? : Row → Option Line
  | .group _ => none
  | .line license _ => some license

mutual

theorem flattenGroups_open (expandedIds : List String)
    : ∀ nodes : List GroupNode,
        (∀ id ∈ allGroupIds nodes, id ∈ expandedIds)
        → (flattenGroups expandedIds nodes).filterMap Row.line? = groupedLines nodes
  | [], _ => rfl
  | node :: rest, h => by
      rw [allGroupIds] at h
      obtain ⟨hnode, hrest⟩ := List.forall_mem_append.mp h
      rw [flattenGroups, groupedLines, List.filterMap_append, rows_open expandedIds node hnode,
        flattenGroups_open expandedIds rest hrest]

theorem rows_open (expandedIds : List String)
    : ∀ node : GroupNode,
        (∀ id ∈ node.groupIds, id ∈ expandedIds)
        → (node.rows expandedIds).filterMap Row.line? = node.grouped
  | ⟨id, _, _, _, _, _, lines, children, _⟩, h => by
      rw [GroupNode.groupIds] at h
      obtain ⟨hid, hchildren⟩ := List.forall_mem_cons.mp h
      have hopen : expandedIds.contains id = true := List.contains_iff_mem.mpr hid
      rw [GroupNode.rows, GroupNode.grouped, if_pos hopen, List.filterMap_cons]
      dsimp only [Row.line?]
      split
      · rw [List.filterMap_map]
        exact List.filterMap_some
      · exact flattenGroups_open expandedIds children hchildren

end

theorem grouped_eq
    : node.grouped = if node.children.isEmpty then node.lines else groupedLines node.children := by
  obtain ⟨_, _, _, _, _, _, _, _, _⟩ := node
  rw [GroupNode.grouped]

theorem groupedLines_perm (column : Column) (levels : List Column) {depth : Nat} {parentId : String}
    {shown all : List Line}
    : (groupedLines (buildLevel rules fallback (column :: levels) depth parentId shown all)).Perm
        shown := by
  have hflat (nodes : List GroupNode) : groupedLines nodes = nodes.flatMap GroupNode.grouped := by
    induction nodes with
    | nil => rfl
    | cons node rest ih => rw [groupedLines, ih, List.flatMap_cons]
  rw [hflat]
  refine (List.Perm.flatMap_left _ fun node hnode => ?_).trans buildLevel_lines
  obtain ⟨part, -, rfl⟩ := List.mem_map.mp (buildLevel_cons ▸ hnode)
  rw [grouped_eq]
  cases levels with
  | nil => exact List.Perm.refl _
  | cons next rest =>
      split
      · exact List.Perm.refl _
      · exact groupedLines_perm next rest

/-- What a line adds to the sum of a currency. -/
def lineGain (fallback : String) (line : Line) (currency : String) : ℚ :=
  match getLineAmount line with
  | some amount => if orElse line.currency fallback = currency then amount else 0
  | none => 0

theorem amountOf_summarize (currency : String)
    : amountOf (summarize shown all fallback).lineSumByCurrency currency
      = (shown.map fun line => lineGain fallback line currency).sum := by
  have hstep : ∀ sums, ∀ line ∈ shown, ∀ k,
      amountOf (addLine fallback sums line) k = amountOf sums k + lineGain fallback line k := by
    intro sums line _ k
    unfold addLine lineGain
    cases getLineAmount line with
    | none => rw [add_zero]
    | some amount => exact amountOf_addAmount _ _ _ _
  exact (amountOf_foldl hstep [] currency).trans (by rw [amountOf_nil, zero_add])

/-- What every node of the tree keeps: it has lines, its children share them out, and their sums
make up its own.
-/
structure GroupNode.Sound (node : GroupNode) : Prop where
  nonempty : node.lines ≠ []
  parts : node.children ≠ [] → (node.children.flatMap (·.lines)).Perm node.lines
  sums
    : node.children ≠ []
      → ∀ currency, amountOf node.summary.lineSumByCurrency currency
        = (node.children.map fun child => amountOf child.summary.lineSumByCurrency currency).sum

theorem sum_children {β : Type} (children : List β) (linesOf : β → List Line)
    (gain : Line → ℚ)
    : ((children.flatMap linesOf).map gain).sum
      = (children.map fun child => ((linesOf child).map gain).sum).sum := by
  induction children with
  | nil => rfl
  | cons child rest ih =>
      rw [List.flatMap_cons, List.map_append, List.sum_append, ih, List.map_cons, List.sum_cons]

theorem nodeOf_sound {part : Part} (h : part.lines ≠ [])
    : (nodeOf rules fallback column levels depth parentId all part).Sound := by
  cases levels with
  | nil => exact ⟨h, fun hchildren => absurd rfl hchildren, fun hchildren => absurd rfl hchildren⟩
  | cons next rest =>
      refine ⟨h, fun _ => buildLevel_lines, fun _ currency => ?_⟩
      have hchildren : ((buildLevel rules fallback (next :: rest) (depth + 1)
          (groupId parentId column part.key) part.lines (allLinesOf rules all column part)).flatMap
            (·.lines)).Perm part.lines := buildLevel_lines
      have hsum := (hchildren.map fun line => lineGain fallback line currency).sum_eq
      rw [sum_children] at hsum
      refine (amountOf_summarize currency).trans (hsum.symm.trans ?_)
      refine congrArg List.sum (List.map_congr_left fun child hchild => ?_)
      obtain ⟨below, -, rfl⟩ := List.mem_map.mp (buildLevel_cons ▸ hchild)
      exact (amountOf_summarize currency).symm

theorem forall_allNodes {P : GroupNode → Prop} (levels : List Column)
    (h : ∀ column levels depth parentId all shown, ∀ part ∈ partition rules shown column,
      P (nodeOf rules fallback column levels depth parentId all part))
    : ∀ depth parentId shown all,
        ∀ node ∈ allNodes (buildLevel rules fallback levels depth parentId shown all), P node := by
  induction levels with
  | nil =>
      intro depth parentId shown all node hnode
      exact absurd hnode List.not_mem_nil
  | cons column levels ih =>
      intro depth parentId shown all node hnode
      obtain ⟨top, htop, hbelow⟩ := mem_allNodes.mp hnode
      obtain ⟨part, hpart, rfl⟩ := List.mem_map.mp (buildLevel_cons ▸ htop)
      rcases hbelow with rfl | hbelow
      · exact h column levels depth parentId all shown part hpart
      · exact ih _ _ _ _ node hbelow

theorem allNodes_sound (levels : List Column)
    : ∀ node ∈ allNodes (buildLevel rules fallback levels depth parentId shown all),
        node.Sound := by
  refine forall_allNodes levels (fun column levels depth parentId all shown part hpart => ?_) _ _ _ _
  obtain ⟨key, hkey⟩ := mem_partition.mp hpart
  exact nodeOf_sound (partOf_lines hkey).2

-- Paths

theorem findGroupPathIds_cons {rest : List GroupNode}
    : findGroupPathIds licenseId (node :: rest)
      = if node.has licenseId then node.id :: findGroupPathIds licenseId node.children
        else findGroupPathIds licenseId rest := by
  obtain ⟨_, _, _, _, _, _, _, _, _⟩ := node
  rw [findGroupPathIds, GroupNode.pathIds]

/-- The groups that contain a licence, each one before those inside it. -/
def groupsOf (licenseId : Nat) (nodes : List GroupNode) : List GroupNode :=
  (allNodes nodes).filter (·.has licenseId)

theorem groupsOf_cons {rest : List GroupNode}
    : groupsOf licenseId (node :: rest)
      = (if node.has licenseId then [node] else []) ++ groupsOf licenseId node.children
        ++ groupsOf licenseId rest := by
  rw [groupsOf, allNodes, withDescendants_eq, List.filter_append, List.filter_cons]
  split <;> rfl

theorem groupsOf_siblings (licenseId : Nat) (nodes : List GroupNode)
    (hapart : nodes.Pairwise fun a b => a.has licenseId = true → b.has licenseId = false)
    (hbelow : ∀ node ∈ nodes, node.has licenseId = false → groupsOf licenseId node.children = [])
    : (∃ node ∈ nodes, node.has licenseId = true
        ∧ findGroupPathIds licenseId nodes = node.id :: findGroupPathIds licenseId node.children
        ∧ groupsOf licenseId nodes = node :: groupsOf licenseId node.children)
      ∨ (∀ node ∈ nodes, node.has licenseId = false)
        ∧ findGroupPathIds licenseId nodes = [] ∧ groupsOf licenseId nodes = [] := by
  induction nodes with
  | nil => exact Or.inr ⟨fun node hnode => absurd hnode List.not_mem_nil, rfl, rfl⟩
  | cons node rest ih =>
      obtain ⟨hfirst, hrest⟩ := List.pairwise_cons.mp hapart
      obtain ⟨hnode, hothers⟩ := List.forall_mem_cons.mp hbelow
      rw [findGroupPathIds_cons, groupsOf_cons]
      cases hhas : node.has licenseId with
      | true =>
          have hnone : ∀ other ∈ rest, other.has licenseId = false :=
            fun other hother => hfirst other hother hhas
          have hempty : groupsOf licenseId rest = [] := by
            rcases ih hrest hothers with ⟨other, hother, htrue, -⟩ | ⟨-, -, hempty⟩
            · exact Bool.noConfusion (htrue.symm.trans (hnone other hother))
            · exact hempty
          refine Or.inl ⟨node, List.mem_cons_self, hhas, rfl, ?_⟩
          rw [hempty, List.append_nil]
          rfl
      | false =>
          rw [hnode hhas]
          rcases ih hrest hothers with ⟨other, hother, htrue, hpath, hgroups⟩ | ⟨hnone, hpath, hgroups⟩
          · exact Or.inl ⟨other, List.mem_cons_of_mem _ hother, htrue, hpath, hgroups⟩
          · exact Or.inr ⟨List.forall_mem_cons.mpr ⟨hhas, hnone⟩, hpath, hgroups⟩

theorem has_iff : node.has licenseId = true ↔ ∃ line ∈ node.lines, line.id = licenseId := by
  simp only [GroupNode.has, List.any_eq_true, beq_iff_eq]

theorem allNodes_lines (levels : List Column) {depth : Nat} {parentId : String}
    {shown all : List Line}
    : ∀ node ∈ allNodes (buildLevel rules fallback levels depth parentId shown all),
        ∀ line ∈ node.lines, line ∈ shown := by
  induction levels generalizing depth parentId shown all with
  | nil =>
      intro node hnode
      exact absurd hnode List.not_mem_nil
  | cons column levels ih =>
      intro node hnode line hline
      obtain ⟨top, htop, hbelow⟩ := mem_allNodes.mp hnode
      have htoplines : ∀ line ∈ top.lines, line ∈ shown := fun line hline =>
        (buildLevel_lines.mem_iff).mp (List.mem_flatMap.mpr ⟨top, htop, hline⟩)
      rcases hbelow with rfl | hbelow
      · exact htoplines line hline
      · obtain ⟨part, -, rfl⟩ := List.mem_map.mp (buildLevel_cons ▸ htop)
        exact htoplines line (ih node hbelow line hline)

/-- A licence is in one group of each level, and the path names these groups from the outermost on;
the path of a licence that is not shown is empty.
-/
theorem findGroupPathIds_eq (levels : List Column) {depth : Nat} {parentId : String}
    {shown all : List Line} (hnodup : (shown.map (·.id)).Nodup)
    : findGroupPathIds licenseId (buildLevel rules fallback levels depth parentId shown all)
        = (groupsOf licenseId
            (buildLevel rules fallback levels depth parentId shown all)).map (·.id)
      ∧ ((∃ line ∈ shown, line.id = licenseId)
        → (groupsOf licenseId (buildLevel rules fallback levels depth parentId shown all)).map
            (·.depth) = List.range' depth levels.length) := by
  induction levels generalizing depth parentId shown all with
  | nil => exact ⟨rfl, fun _ => rfl⟩
  | cons column levels ih =>
      have hperm : ((buildLevel rules fallback (column :: levels) depth parentId shown all).flatMap
          (·.lines)).Perm shown := buildLevel_lines
      have hids := (hperm.map (·.id)).nodup_iff.mpr hnodup
      rw [List.map_flatMap, List.nodup_flatMap] at hids
      have hnodes : ∀ node ∈ buildLevel rules fallback (column :: levels) depth parentId shown all,
          ∃ part, node = nodeOf rules fallback column levels depth parentId all part := by
        intro node hnode
        obtain ⟨part, -, rfl⟩ := List.mem_map.mp (buildLevel_cons ▸ hnode)
        exact ⟨part, rfl⟩
      have hsiblings := groupsOf_siblings licenseId
        (buildLevel rules fallback (column :: levels) depth parentId shown all)
        (hids.2.imp fun {a b} hdisjoint ha => ?_) fun node hnode hhas => ?_
      · rcases hsiblings with ⟨node, hnode, hhas, hpath, hgroups⟩ | ⟨hnone, hpath, hgroups⟩
        · obtain ⟨part, rfl⟩ := hnodes node hnode
          have hrec := @ih (depth + 1) (groupId parentId column part.key) part.lines
            (allLinesOf rules all column part) (hids.1 _ hnode)
          rw [hpath, hgroups, List.map_cons, List.map_cons, List.length_cons, List.range'_succ]
          refine ⟨congrArg _ hrec.1, fun _ => congrArg _ (hrec.2 (has_iff.mp hhas))⟩
        · rw [hpath, hgroups]
          refine ⟨rfl, fun ⟨line, hline, hid⟩ => ?_⟩
          obtain ⟨node, hnode, hin⟩ := List.mem_flatMap.mp (hperm.mem_iff.mpr hline)
          exact Bool.noConfusion ((has_iff.mpr ⟨line, hin, hid⟩).symm.trans (hnone node hnode))
      · obtain ⟨line, hline, hid⟩ := has_iff.mp ha
        rw [← Bool.not_eq_true, has_iff]
        rintro ⟨other, hother, hsame⟩
        exact hdisjoint (List.mem_map.mpr ⟨line, hline, hid⟩)
          (List.mem_map.mpr ⟨other, hother, hsame⟩)
      · obtain ⟨part, rfl⟩ := hnodes node hnode
        refine List.filter_eq_nil_iff.mpr fun below hbelow hhasbelow => ?_
        obtain ⟨line, hline, hid⟩ := has_iff.mp hhasbelow
        exact Bool.noConfusion ((has_iff.mpr ⟨line, allNodes_lines levels below hbelow line hline,
          hid⟩).symm.trans hhas)

end Registry

end LicenseTrack
