import LicenseTrack.Reports.Spend

/-! The maintenance report counts every linked record once, for the perpetual licences that show it.
-/

namespace LicenseTrack

namespace Report

open Library

variable {u : Unicode}

theorem keys_addTo {totals : Amounts} {code k : String} {value : Option ℚ}
    : k ∈ (addTo totals code value).map Prod.fst
      ↔ value ≠ none ∧ k = code ∨ k ∈ totals.map Prod.fst := by
  cases value with
  | none => simp [addTo]
  | some amount =>
      rw [addTo, addAmount, keys_updateEntry]
      simp

theorem keys_records {records : List (Nat × License)} {totals : Amounts} {k : String}
    : k ∈ (records.foldl (fun totals record =>
          addTo totals (currency u record.2) (lineValue u record.2).1) totals).map Prod.fst
      ↔ (∃ record ∈ records, (lineValue u record.2).1 ≠ none ∧ currency u record.2 = k)
        ∨ k ∈ totals.map Prod.fst := by
  induction records generalizing totals with
  | nil => simp
  | cons record rest ih =>
      rw [List.foldl_cons, ih, keys_addTo]
      simp only [List.mem_cons, exists_eq_or_imp, eq_comm (a := k)]
      exact or_left_comm.trans or_assoc.symm

theorem keys_rowMaintenance {l : License} {records : List (Nat × License)} {k : String}
    : k ∈ (rowMaintenance u l records).1.map Prod.fst
      ↔ if l.maintenanceCoverage = .included then
          includedSupport u l ≠ none ∧ currency u l = k
        else ∃ record ∈ records, (lineValue u record.2).1 ≠ none ∧ currency u record.2 = k := by
  unfold rowMaintenance includedSupport
  by_cases hincluded : l.maintenanceCoverage = .included
  · simp only [if_pos hincluded]
    rcases money u l.maintenanceCost with _ | support
    · simp
    · simp [addAmount, updateEntry, eq_comm]
  · simp only [if_neg hincluded]
    by_cases hrecords : records = []
    · simp [hrecords]
    · rw [if_pos hrecords, keys_records]
      simp

-- Counting records

/-- The amount of a record in a currency. -/
def recordIn (u : Unicode) (code : String) (row : Nat × License) : ℚ :=
  if currency u row.2 = code then (lineValue u row.2).1.getD 0 else 0

/-- The amount of the record with a key. -/
def recordAmount (u : Unicode) (licenses : List (Nat × License)) (code : String) (id : Nat) : ℚ :=
  match licenses.find? (fun row => row.1 = id) with
  | some row => recordIn u code row
  | none => 0

theorem recordAmount_eq {licenses : List (Nat × License)} (hkeys : (licenses.map Prod.fst).Nodup)
    {row : Nat × License} (hrow : row ∈ licenses) (code : String)
    : recordAmount u licenses code row.1 = recordIn u code row := by
  have hfind : licenses.find? (fun other => other.1 = row.1) = some row := by
    induction licenses with
    | nil => cases hrow
    | cons head rest ih =>
        rw [List.map_cons, List.nodup_cons] at hkeys
        rcases List.mem_cons.1 hrow with rfl | hrest
        · simp
        · have hne : head.1 ≠ row.1 := fun heq =>
            hkeys.1 (List.mem_map.2 ⟨row, hrest, heq.symm⟩)
          rw [List.find?_cons_of_neg (by simpa using hne)]
          exact ih hkeys.2 hrest
  rw [recordAmount, hfind]

/-- What the totals are worth, in terms of what is counted. -/
structure CountedSoFar (u : Unicode) (licenses : List (Nat × License))
    (purchases supports : String → ℚ) (report : PerpetualMaintenance)
    : Prop where
  nodup : report.countedMaintenance.Nodup
  purchase : ∀ code, amountOf report.purchaseByCurrency code = purchases code
  maintenance : ∀ code, amountOf report.maintenanceTotals code
    = supports code + (report.countedMaintenance.map (recordAmount u licenses code)).sum
  total : ∀ code, amountOf report.totalByCurrency code
    = purchases code + supports code
      + (report.countedMaintenance.map (recordAmount u licenses code)).sum

section Count

variable {licenses : List (Nat × License)} {purchases supports : String → ℚ}

theorem CountedSoFar.countRecord (hkeys : (licenses.map Prod.fst).Nodup)
    {report : PerpetualMaintenance} (h : CountedSoFar u licenses purchases supports report)
    {record : Nat × License} (hrecord : record ∈ licenses) (code : String)
    : CountedSoFar u licenses purchases supports (report.countRecord u code record)
      ∧ ∀ id, id ∈ (report.countRecord u code record).countedMaintenance
        ↔ id ∈ report.countedMaintenance ∨ id = record.1 ∧ currency u record.2 = code := by
  unfold PerpetualMaintenance.countRecord
  by_cases hnew : currency u record.2 = code ∧ record.1 ∉ report.countedMaintenance
  · obtain ⟨rfl, hfresh⟩ := hnew
    rw [if_pos ⟨rfl, hfresh⟩]
    refine ⟨{ nodup := ?_, purchase := h.purchase, maintenance := ?_, total := ?_ }, ?_⟩
    · exact List.Nodup.append h.nodup (List.nodup_singleton _) (by simpa using hfresh)
    · intro k
      rw [amountOf_addTo, h.maintenance, List.map_append, List.sum_append, List.map_singleton,
        List.sum_singleton, recordAmount_eq hkeys hrecord, recordIn, add_assoc]
    · intro k
      rw [amountOf_addTo, h.total, List.map_append, List.sum_append, List.map_singleton,
        List.sum_singleton, recordAmount_eq hkeys hrecord, recordIn, add_assoc]
    · intro id
      simp
  · rw [if_neg hnew]
    refine ⟨h, fun id => ⟨.inl, ?_⟩⟩
    rintro (hid | ⟨rfl, hcode⟩)
    · exact hid
    · by_contra hout
      exact hnew ⟨hcode, hout⟩

theorem CountedSoFar.countRecords (hkeys : (licenses.map Prod.fst).Nodup) (code : String)
    {records : List (Nat × License)} (hrecords : ∀ record ∈ records, record ∈ licenses)
    {report : PerpetualMaintenance} (h : CountedSoFar u licenses purchases supports report)
    : CountedSoFar u licenses purchases supports
          (records.foldl (PerpetualMaintenance.countRecord u code) report)
      ∧ ∀ id, id ∈ (records.foldl (PerpetualMaintenance.countRecord u code) report).countedMaintenance
        ↔ id ∈ report.countedMaintenance
          ∨ ∃ record ∈ records, id = record.1 ∧ currency u record.2 = code := by
  induction records generalizing report with
  | nil => exact ⟨h, fun id => by simp⟩
  | cons record rest ih =>
      obtain ⟨hstep, hmem⟩ := h.countRecord hkeys (hrecords record List.mem_cons_self) code
      obtain ⟨hrest, hmems⟩ :=
        ih (fun other hother => hrecords other (List.mem_cons_of_mem _ hother)) hstep
      rw [List.foldl_cons]
      refine ⟨hrest, fun id => ?_⟩
      rw [hmems, hmem]
      simp only [List.mem_cons, exists_eq_or_imp, or_assoc]

theorem CountedSoFar.countCurrencies (hkeys : (licenses.map Prod.fst).Nodup)
    {records : List (Nat × License)} (hrecords : ∀ record ∈ records, record ∈ licenses)
    {codes : List String} {report : PerpetualMaintenance}
    (h : CountedSoFar u licenses purchases supports report)
    : CountedSoFar u licenses purchases supports
          (codes.foldl (fun report code =>
            records.foldl (PerpetualMaintenance.countRecord u code) report) report)
      ∧ ∀ id, id ∈ (codes.foldl (fun report code =>
            records.foldl (PerpetualMaintenance.countRecord u code) report) report).countedMaintenance
        ↔ id ∈ report.countedMaintenance
          ∨ ∃ record ∈ records, id = record.1 ∧ currency u record.2 ∈ codes := by
  induction codes generalizing report with
  | nil => exact ⟨h, fun id => by simp⟩
  | cons code rest ih =>
      obtain ⟨hstep, hmem⟩ := h.countRecords hkeys code hrecords
      obtain ⟨hrest, hmems⟩ := ih hstep
      rw [List.foldl_cons]
      refine ⟨hrest, fun id => ?_⟩
      rw [hmems, hmem, or_assoc]
      refine or_congr_right ?_
      simp only [List.mem_cons, and_or_left, exists_or]

theorem foldl_countRecord_rows (codes : List String) (records : List (Nat × License))
    (report : PerpetualMaintenance)
    : (codes.foldl (fun report code =>
          records.foldl (PerpetualMaintenance.countRecord u code) report) report).rows
      = report.rows := by
  have hone : ∀ (code : String) (report : PerpetualMaintenance),
      (records.foldl (PerpetualMaintenance.countRecord u code) report).rows = report.rows := by
    intro code
    induction records with
    | nil => exact fun _ => rfl
    | cons record rest ih =>
        intro report
        rw [List.foldl_cons, ih]
        unfold PerpetualMaintenance.countRecord
        split <;> rfl
  induction codes generalizing report with
  | nil => rfl
  | cons code rest ih => rw [List.foldl_cons, ih, hone]

/-- What a perpetual licence costs in a currency. -/
def purchaseIn (u : Unicode) (code : String) (l : License) : ℚ :=
  if currency u l = code then (lineValue u l).1.getD 0 else 0

/-- What the included support of a perpetual licence costs in a currency. -/
def supportIn (u : Unicode) (code : String) (l : License) : ℚ :=
  if currency u l = code then (includedSupport u l).getD 0 else 0

theorem CountedSoFar.addPrices {report : PerpetualMaintenance}
    (h : CountedSoFar u licenses purchases supports report) (l : License)
    : CountedSoFar u licenses (fun code => purchases code + purchaseIn u code l)
        (fun code => supports code + supportIn u code l) (report.addPrices u l) where
  nodup := h.nodup
  purchase code := by
    rw [PerpetualMaintenance.addPrices, amountOf_addTo, h.purchase, purchaseIn]
  maintenance code := by
    rw [PerpetualMaintenance.addPrices, amountOf_addTo, h.maintenance, supportIn]
    exact add_right_comm _ _ _
  total code := by
    rw [PerpetualMaintenance.addPrices, amountOf_addTo, amountOf_addTo, h.total, purchaseIn,
      supportIn]
    ring

/-- A record that a perpetual licence shows, by its currency. -/
def ShownBy (u : Unicode) (records : Nat → List (Nat × License)) (row : Nat × License) (id : Nat)
    : Prop :=
  row.2.licenseType = .perpetual
  ∧ ∃ record ∈ records row.1, id = record.1
    ∧ currency u record.2 ∈ (rowMaintenance u row.2 (records row.1)).1.map Prod.fst

theorem CountedSoFar.add (hkeys : (licenses.map Prod.fst).Nodup)
    {records : Nat → List (Nat × License)}
    (hrecords : ∀ id, ∀ record ∈ records id, record ∈ licenses) {report : PerpetualMaintenance}
    (h : CountedSoFar u licenses purchases supports report) (row : Nat × License)
    : CountedSoFar u licenses
          (fun code => purchases code
            + if row.2.licenseType = .perpetual then purchaseIn u code row.2 else 0)
          (fun code => supports code
            + if row.2.licenseType = .perpetual then supportIn u code row.2 else 0)
          (report.add u records row)
      ∧ (∀ id, id ∈ (report.add u records row).countedMaintenance
        ↔ id ∈ report.countedMaintenance ∨ ShownBy u records row id)
      ∧ (report.add u records row).rows
        = report.rows
          ++ if row.2.licenseType = .perpetual then [maintenanceRow u (records row.1) row] else [] := by
  unfold PerpetualMaintenance.add
  by_cases hperpetual : row.2.licenseType = .perpetual
  · obtain ⟨hcounted, hmem⟩ := @CountedSoFar.countCurrencies u licenses _ _ hkeys
      (records row.1) (hrecords row.1) ((rowMaintenance u row.2 (records row.1)).1.map Prod.fst)
      (report.addPrices u row.2) (h.addPrices row.2)
    have hrows := foldl_countRecord_rows (u := u)
      ((rowMaintenance u row.2 (records row.1)).1.map Prod.fst) (records row.1)
      (report.addPrices u row.2)
    rw [if_neg (not_not.2 hperpetual)]
    simp only [if_pos hperpetual, ShownBy]
    generalize ((rowMaintenance u row.2 (records row.1)).1.map Prod.fst).foldl _ _ = counted at *
    refine ⟨⟨hcounted.nodup, hcounted.purchase, hcounted.maintenance, hcounted.total⟩,
      fun id => ?_, ?_⟩
    · rw [hmem id]
      exact or_congr_right (and_iff_right hperpetual).symm
    · rw [hrows]
      rfl
  · rw [if_pos hperpetual]
    simp only [if_neg hperpetual, add_zero, List.append_nil]
    exact ⟨h, fun id => ⟨.inl, fun hid => hid.resolve_right (fun hshown => hperpetual hshown.1)⟩,
      trivial⟩

/-- The perpetual licences among others. -/
def perpetuals (rows : List (Nat × License)) : List (Nat × License) :=
  rows.filter (fun row => row.2.licenseType = .perpetual)

theorem CountedSoFar.foldl_add (hkeys : (licenses.map Prod.fst).Nodup)
    {records : Nat → List (Nat × License)}
    (hrecords : ∀ id, ∀ record ∈ records id, record ∈ licenses) (rows : List (Nat × License))
    {report : PerpetualMaintenance} (h : CountedSoFar u licenses purchases supports report)
    : CountedSoFar u licenses
          (fun code => purchases code + ((perpetuals rows).map (fun row => purchaseIn u code row.2)).sum)
          (fun code => supports code + ((perpetuals rows).map (fun row => supportIn u code row.2)).sum)
          (rows.foldl (PerpetualMaintenance.add u records) report)
      ∧ (∀ id, id ∈ (rows.foldl (PerpetualMaintenance.add u records) report).countedMaintenance
        ↔ id ∈ report.countedMaintenance ∨ ∃ row ∈ rows, ShownBy u records row id)
      ∧ (rows.foldl (PerpetualMaintenance.add u records) report).rows
        = report.rows ++ (perpetuals rows).map (fun row => maintenanceRow u (records row.1) row) := by
  induction rows generalizing report purchases supports with
  | nil =>
      simp only [List.foldl_nil, perpetuals, List.filter_nil, List.map_nil, List.sum_nil, add_zero,
        List.append_nil]
      exact ⟨h, fun id => by simp, trivial⟩
  | cons row rest ih =>
      obtain ⟨hstep, hmem, hrows⟩ := h.add hkeys hrecords row
      obtain ⟨hrest, hmems, hrowss⟩ := ih hstep
      rw [List.foldl_cons]
      refine ⟨?_, fun id => ?_, ?_⟩
      · convert hrest using 2 with code code
        · by_cases hperpetual : row.2.licenseType = .perpetual <;>
            simp [perpetuals, hperpetual, add_assoc]
        · by_cases hperpetual : row.2.licenseType = .perpetual <;>
            simp [perpetuals, hperpetual, add_assoc]
      · rw [hmems, hmem, or_assoc]
        simp only [List.mem_cons, exists_eq_or_imp]
      · rw [hrowss, hrows, List.append_assoc]
        by_cases hperpetual : row.2.licenseType = .perpetual <;>
          simp [perpetuals, hperpetual]

end Count

-- The report

section Report

variable (u) (links : Nat → List Nat) (licenses : List (Nat × License))

/-- A maintenance record is counted for a perpetual licence that it is linked to: for one without
included support, and for one whose included support has a cost in the record's currency.
-/
def CountedFor (record row : Nat × License) : Prop :=
  row.2.licenseType = .perpetual ∧ row.1 ∈ parentIds links record
  ∧ (row.2.maintenanceCoverage = .included →
    includedSupport u row.2 ≠ none ∧ currency u row.2 = currency u record.2)

/-- The records that are counted. -/
def IsCounted (record : Nat × License) : Prop :=
  record.2.licenseType = .maintenance ∧ ∃ row ∈ licenses, CountedFor u links record row

instance (record row : Nat × License) : Decidable (CountedFor u links record row) :=
  inferInstanceAs (Decidable (_ ∧ _ ∧ (_ → _)))

instance (record : Nat × License) : Decidable (IsCounted u links licenses record) :=
  inferInstanceAs (Decidable (_ ∧ ∃ row ∈ licenses, _))

/-- Every record is counted once, and every licence shows the records that are counted for it. -/
structure MaintenanceCounted (report : PerpetualMaintenance) : Prop where
  purchase : ∀ code, amountOf report.purchaseByCurrency code
    = ((perpetuals licenses).map (fun row => purchaseIn u code row.2)).sum
  maintenance : ∀ code, amountOf report.maintenanceTotals code
    = ((perpetuals licenses).map (fun row => supportIn u code row.2)).sum
      + ((licenses.filter (fun record => IsCounted u links licenses record)).map
          (recordIn u code)).sum
  total : ∀ code, amountOf report.totalByCurrency code
    = ((perpetuals licenses).map (fun row => purchaseIn u code row.2)).sum
      + ((perpetuals licenses).map (fun row => supportIn u code row.2)).sum
      + ((licenses.filter (fun record => IsCounted u links licenses record)).map
          (recordIn u code)).sum
  rows : report.rows.map (·.licenseId) = (perpetuals licenses).map Prod.fst
  rowValues : ∀ shown ∈ report.rows, ∃ row ∈ perpetuals licenses, shown.licenseId = row.1
    ∧ ∀ code, amountOf shown.maintenanceByCurrency code
      = if row.2.maintenanceCoverage = .included then supportIn u code row.2
        else ((licenses.filter (fun record => record.2.licenseType = .maintenance
            ∧ row.1 ∈ parentIds links record)).map (recordIn u code)).sum

variable {u links licenses}

theorem mem_linkedRecords {record : Nat × License} {id : Nat}
    : record ∈ linkedRecords links licenses id
      ↔ record ∈ licenses ∧ record.2.licenseType = .maintenance ∧ id ∈ parentIds links record := by
  simp [linkedRecords]

theorem shown_iff_counted {record : Nat × License} (hrecord : record ∈ licenses)
    (hpriced : (lineValue u record.2).1 ≠ none)
    : (record.2.licenseType = .maintenance ∧ ∃ row ∈ licenses, row.2.licenseType = .perpetual
        ∧ row.1 ∈ parentIds links record
        ∧ currency u record.2
          ∈ (rowMaintenance u row.2 (linkedRecords links licenses row.1)).1.map Prod.fst)
      ↔ IsCounted u links licenses record := by
  refine and_congr_right (fun htype => exists_congr (fun row => and_congr_right (fun hrow => ?_)))
  refine and_congr_right (fun hperpetual => and_congr_right (fun hlinked => ?_))
  rw [keys_rowMaintenance]
  by_cases hincluded : row.2.maintenanceCoverage = .included
  · rw [if_pos hincluded]
    exact ⟨fun h _ => h, fun h => h hincluded⟩
  · rw [if_neg hincluded]
    refine iff_of_true ⟨record, mem_linkedRecords.2 ⟨hrecord, htype, hlinked⟩, hpriced, rfl⟩ ?_
    exact fun h => absurd h hincluded

theorem sum_counted (hkeys : (licenses.map Prod.fst).Nodup) {counted : List Nat}
    (hnodup : counted.Nodup)
    (hcounted : ∀ id, id ∈ counted
      ↔ ∃ row ∈ licenses, ShownBy u (linkedRecords links licenses) row id) (code : String)
    : (counted.map (recordAmount u licenses code)).sum
      = ((licenses.filter (fun record => IsCounted u links licenses record)).map
          (recordIn u code)).sum := by
  classical
  let shown : Nat × License → Prop := fun record =>
    record.2.licenseType = .maintenance ∧ ∃ row ∈ licenses, row.2.licenseType = .perpetual
      ∧ row.1 ∈ parentIds links record
      ∧ currency u record.2
        ∈ (rowMaintenance u row.2 (linkedRecords links licenses row.1)).1.map Prod.fst
  have hmem : ∀ id, id ∈ counted ↔ id ∈ (licenses.filter (fun record => shown record)).map Prod.fst := by
    intro id
    rw [hcounted]
    simp only [ShownBy, mem_linkedRecords, List.mem_map, List.mem_filter, decide_eq_true_iff, shown]
    constructor
    · rintro ⟨row, hrow, hperpetual, record, ⟨hrecord, htype, hlinked⟩, rfl, hcode⟩
      exact ⟨record, ⟨hrecord, htype, row, hrow, hperpetual, hlinked, hcode⟩, rfl⟩
    · rintro ⟨record, ⟨hrecord, htype, row, hrow, hperpetual, hlinked, hcode⟩, rfl⟩
      exact ⟨row, hrow, hperpetual, record, ⟨hrecord, htype, hlinked⟩, rfl, hcode⟩
  have hids : ((licenses.filter (fun record => shown record)).map Prod.fst).Nodup :=
    (List.filter_sublist.map Prod.fst).nodup hkeys
  have hperm : counted.Perm ((licenses.filter (fun record => shown record)).map Prod.fst) :=
    (List.perm_ext_iff_of_nodup hnodup hids).2 hmem
  have hamounts : (licenses.filter (fun record => shown record)).map
        (fun record => recordAmount u licenses code record.1)
      = (licenses.filter (fun record => shown record)).map (recordIn u code) := by
    apply List.map_congr_left
    intro record hrecord
    exact recordAmount_eq hkeys (List.mem_of_mem_filter hrecord) code
  rw [(hperm.map _).sum_eq, List.map_map]
  change ((licenses.filter (fun record => shown record)).map
    (fun record => recordAmount u licenses code record.1)).sum = _
  rw [hamounts, sum_map_filter, sum_map_filter]
  congr 1
  apply List.map_congr_left
  intro record hrecord
  by_cases hpriced : (lineValue u record.2).1 = none
  · simp [recordIn, hpriced]
  · simp only [shown, shown_iff_counted hrecord hpriced]

theorem amountOf_rowMaintenance (l : License) (records : List (Nat × License)) (code : String)
    : amountOf (rowMaintenance u l records).1 code
      = if l.maintenanceCoverage = .included then supportIn u code l
        else (records.map (recordIn u code)).sum := by
  unfold rowMaintenance supportIn includedSupport
  by_cases hincluded : l.maintenanceCoverage = .included
  · simp only [if_pos hincluded]
    rcases money u l.maintenanceCost with _ | support
    · simp
    · simp [amountOf_addAmount]
  · simp only [if_neg hincluded]
    by_cases hrecords : records = []
    · simp [hrecords]
    · rw [if_pos hrecords]
      dsimp only
      rw [@amountOf_foldl String (Nat × License) _ ℚ _ records
        (fun totals record => addTo totals (currency u record.2) (lineValue u record.2).1)
        (fun record k => recordIn u k record)
        (fun totals record _ k => amountOf_addTo totals _ _ k) [] code, amountOf_nil, zero_add]

/-- The maintenance report counts every record once. -/
theorem maintenance_countedOnce (hkeys : (licenses.map Prod.fst).Nodup)
    : MaintenanceCounted u links licenses (buildPerpetualMaintenanceData u links licenses) := by
  have hstart : CountedSoFar u licenses (fun _ => 0) (fun _ => 0) {} :=
    ⟨List.nodup_nil, fun _ => rfl, fun _ => by simp, fun _ => by simp⟩
  obtain ⟨hcounted, hmem, hrows⟩ := @CountedSoFar.foldl_add u licenses _ _ hkeys
    (linkedRecords links licenses) (fun id record hrecord => (mem_linkedRecords.1 hrecord).1)
    licenses {} hstart
  rw [← buildPerpetualMaintenanceData] at hcounted hmem hrows
  have hsum := fun code => @sum_counted u links licenses hkeys _ hcounted.nodup
    (fun id => by rw [hmem id]; simp) code
  refine
    {
      purchase := fun code => by rw [hcounted.purchase, zero_add]
      maintenance := fun code => by rw [hcounted.maintenance, hsum, zero_add]
      total := fun code => by rw [hcounted.total, hsum, zero_add, zero_add]
      rows := by rw [hrows, List.nil_append, List.map_map]; rfl
      rowValues := fun shown hshown => ?_
    }
  rw [hrows, List.nil_append, List.mem_map] at hshown
  obtain ⟨row, hrow, rfl⟩ := hshown
  refine ⟨row, hrow, rfl, fun code => ?_⟩
  rw [maintenanceRow, amountOf_rowMaintenance]
  rfl

end Report

/-- A perpetual licence with included support of 1200, and a record of 300 that is linked to it. -/
def includedWithRecord : List (Nat × License) :=
  [(1,
      { License.ofTerm .perpetual (some 1) none with
        quantity := "1"
        unitPrice := "5000"
        maintenanceCoverage := .included
        maintenanceCost := some "1200" }),
    (2,
      { License.ofTerm .maintenance (some 1) (some 365) with
        quantity := "1"
        unitPrice := "300"
        parentLicenseId := some 1 })]

theorem maintenance_includedWithRecord
    : (includedWithRecord.map Prod.fst).Nodup
      ∧ MaintenanceCounted .ascii (fun _ => []) includedWithRecord
          (buildPerpetualMaintenanceData .ascii (fun _ => []) includedWithRecord) :=
  ⟨by decide, maintenance_countedOnce (by decide)⟩

/-- The record is counted although the only licence that it is linked to has included support. -/
theorem record_countedWithSupport
    : amountOf (buildPerpetualMaintenanceData .ascii (fun _ => [])
          includedWithRecord).maintenanceTotals "EUR" = 1500
      ∧ ((perpetuals includedWithRecord).map (fun row => supportIn .ascii "EUR" row.2)).sum
          + ((includedWithRecord.filter (fun record => record.2.licenseType = .maintenance
              ∧ ∃ row ∈ includedWithRecord, row.2.licenseType = .perpetual
                ∧ row.1 ∈ parentIds (fun _ => []) record
                ∧ row.2.maintenanceCoverage ≠ .included)).map (recordIn .ascii "EUR")).sum
        = 1200 := by
  constructor <;> decide +kernel

end Report

end LicenseTrack
