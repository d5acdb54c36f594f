import LicenseTrack.Services.RenewalWorkbench

/-! What is alerted can be acted on: the workbench of an administrator has a row for every record
with an alert on its term or its support, and for every renewable one with a notice alert. A one-off
purchase raises notice alerts too, but no row ever shows it.
-/

namespace LicenseTrack

open Library

variable {u : Unicode} {id : Nat} {l : License} {today : Date} {a : Alert} {options : AlertOptions}

theorem le_cutoff {date : Date} {windowDays : Nat} (h : daysBetween today date ≤ windowDays)
    : date ≤ today + windowDays := by
  unfold daysBetween at h
  exact Int.ofNat_le.mp (by push_cast; linarith)

/-- A record that raises alerts at all. -/
structure License.RaisesAlerts (l : License) : Prop where
  active : l.isRetired = false
  unscheduled : l.retirementScheduled = false
  current : l.lifecycleStatus ≠ some .legacy ∧ l.lifecycleStatus ≠ some .renewed

theorem computeExpirationStatus_end {windowDays : Nat} {finish : Date}
    (hend : l.endDate = some finish)
    (h : computeExpirationStatus l today windowDays = .expired
      ∨ computeExpirationStatus l today windowDays = .expiring)
    : finish ≤ today + windowDays := by
  by_contra hlate
  have hpast : ¬ finish < today := fun hpast =>
    hlate (hpast.le.trans (Nat.le_add_right today windowDays))
  unfold computeExpirationStatus at h
  simp only [hend, if_neg hpast, if_neg hlate] at h
  split_ifs at h <;> simp at h

theorem termAlerts_date {windowDays : Nat}
    (ha : a ∈ termAlerts id l today (computeExpirationStatus l today windowDays))
    : (a.type = .expired ∨ a.type = .expiring)
      ∧ ∃ finish, l.endDate = some finish ∧ finish ≤ today + windowDays := by
  unfold termAlerts at ha
  dsimp only at ha
  split at ha
  case h_1 finish hstatus hfinish =>
    refine ⟨Or.inl (List.mem_singleton.mp ha ▸ rfl), finish, hfinish, ?_⟩
    exact computeExpirationStatus_end hfinish (Or.inl hstatus)
  case h_2 finish hstatus hfinish =>
    refine ⟨Or.inr (List.mem_singleton.mp ha ▸ rfl), finish, hfinish, ?_⟩
    exact computeExpirationStatus_end hfinish (Or.inr hstatus)
  case h_3 => cases ha

theorem supportAlerts_date {windowDays : Nat} {inProgress : Bool}
    (ha : a ∈ supportAlerts id l today windowDays inProgress)
    : (a.type = .supportExpired ∨ a.type = .supportExpiring)
      ∧ l.licenseType.isMaintenanceParent = true ∧ l.maintenanceCoverage = .included
      ∧ ∃ finish, l.maintenanceEndDate = some finish ∧ finish ≤ today + windowDays := by
  unfold supportAlerts computeSupportDaysRemaining at ha
  dsimp only at ha
  split at ha
  case h_2 => cases ha
  case h_1 days finish hdays hfinish =>
    rw [hfinish] at hdays
    split_ifs at hdays with hparent hcoverage hstanding
    obtain rfl : daysBetween today finish = days := Option.some.inj hdays
    refine ⟨?_, by simpa using hparent, by simpa using hcoverage, finish, hfinish, ?_⟩
    · split_ifs at ha
      · exact Or.inl (List.mem_singleton.mp ha ▸ rfl)
      · exact Or.inr (List.mem_singleton.mp ha ▸ rfl)
      · cases ha
    · refine le_cutoff ?_
      split_ifs at ha with hpast hwindow
      · exact hpast.le.trans (Int.natCast_nonneg windowDays)
      · exact hwindow
      · cases ha

theorem noticeAlerts_date {windowDays : Nat} (ha : a ∈ noticeAlerts id l today windowDays)
    : a.type = .noticeDue ∧ unhandledNoticeBy (today + windowDays) l = true := by
  unfold noticeAlerts at ha
  dsimp only at ha
  split at ha
  case h_2 => cases ha
  case h_1 notice hnotice hhandled =>
    have hunhandled (hwindow : daysBetween today notice ≤ windowDays)
        : unhandledNoticeBy (today + windowDays) l = true := by
      simpa [unhandledNoticeBy, hnotice, hhandled] using le_cutoff hwindow
    split_ifs at ha with hwindow hpast
    · exact ⟨List.mem_singleton.mp ha ▸ rfl, hunhandled hwindow⟩
    · exact ⟨List.mem_singleton.mp ha ▸ rfl, hunhandled hwindow⟩
    · cases ha

theorem incompleteAlerts_type {documents : List DocumentCategory}
    {mandatoryFields : MandatoryFields}
    (ha : a ∈ incompleteAlerts u id l documents mandatoryFields)
    : a.type = .incomplete := by
  unfold incompleteAlerts at ha
  split at ha
  · cases ha
  · split at ha
    · cases ha
    · split at ha
      · exact List.mem_singleton.mp ha ▸ rfl
      · cases ha

theorem classifyLicenseAlerts_cases (ha : a ∈ classifyLicenseAlerts u id l today options)
    : l.RaisesAlerts
      ∧ (isRenewableLicense l.licenseType l.isRenewable = true
            ∧ a ∈ termAlerts id l today (computeExpirationStatus l today options.expiryWindowDays)
          ∨ a ∈ supportAlerts id l today options.expiryWindowDays options.supportRenewalInProgress
          ∨ a ∈ noticeAlerts id l today options.noticeWindowDays
          ∨ a ∈ incompleteAlerts u id l options.documents options.mandatoryFields) := by
  unfold classifyLicenseAlerts at ha
  split at ha
  case isTrue => cases ha
  case isFalse hguard =>
    simp only [Bool.or_eq_true, beq_iff_eq, not_or, Bool.not_eq_true] at hguard
    obtain ⟨⟨⟨⟨hretired, hscheduled⟩, hlegacy⟩, hrenewed⟩, -⟩ := hguard
    refine ⟨⟨hretired, hscheduled, hlegacy, hrenewed⟩, ?_⟩
    dsimp only at ha
    rw [List.mem_append, List.mem_append, List.mem_append] at ha
    rcases ha with ((hterm | hsupport) | hnotice) | hincomplete
    · split at hterm
      case isTrue hon => exact Or.inl ⟨(Bool.and_eq_true_iff.mp hon).2, hterm⟩
      case isFalse => cases hterm
    · split at hsupport
      · exact Or.inr (Or.inl hsupport)
      · cases hsupport
    · split at hnotice
      · cases hnotice
      · exact Or.inr (Or.inr (Or.inl hnotice))
    · exact Or.inr (Or.inr (Or.inr hincomplete))

theorem License.RaisesAlerts.candidate {cutoff : Date} (h : l.RaisesAlerts)
    (hrenewable : isRenewableLicense l.licenseType l.isRenewable = true)
    (hdue : (∃ finish, l.endDate = some finish ∧ finish ≤ cutoff)
      ∨ unhandledNoticeBy cutoff l = true)
    : isCandidateLicense cutoff l = true := by
  have hstatus : (l.lifecycleStatus.isNone
      || !(l.lifecycleStatus == some .renewed || l.lifecycleStatus == some .legacy)) = true := by
    simp [h.current.1, h.current.2]
  unfold isRenewableLicense at hrenewable
  unfold isCandidateLicense
  rw [hstatus, h.active, h.unscheduled, hrenewable]
  rcases hdue with ⟨finish, hend, hle⟩ | hnotice
  · simp [hend, hle]
  · simp [hnotice]

theorem License.RaisesAlerts.supportCandidate {cutoff finish : Date} (h : l.RaisesAlerts)
    (hparent : l.licenseType.isMaintenanceParent = true)
    (hcoverage : l.maintenanceCoverage = .included)
    (hend : l.maintenanceEndDate = some finish) (hle : finish ≤ cutoff)
    : isSupportCandidate cutoff l = true := by
  simp [isSupportCandidate, hparent, hcoverage, hend, hle, h.active, h.unscheduled, h.current.1]

theorem renewable_of_candidate {cutoff : Date} (h : isCandidateLicense cutoff l = true)
    : isRenewableLicense l.licenseType l.isRenewable = true := by
  unfold isCandidateLicense at h
  simp only [Bool.and_eq_true] at h
  exact h.1.1.1.2

theorem renewable_of_supportCandidate {cutoff : Date} (h : isSupportCandidate cutoff l = true)
    : isRenewableLicense l.licenseType l.isRenewable = true := by
  unfold isSupportCandidate at h
  simp only [Bool.and_eq_true] at h
  have hparent := h.1.1.1.1.1.1
  unfold isRenewableLicense
  cases htype : l.licenseType <;> simp_all [LicenseType.isMaintenanceParent,
    LicenseType.isRenewalOptIn]

-- Rows of the workbench

section Rows

variable {s : Store} {access : List UserDepartmentAccess} {admin : Actor} {windowDays : Nat}
  {row : WorkbenchRow}

theorem mem_getRenewalWorkbenchRows (hadmin : admin.role = .admin)
    : row ∈ getRenewalWorkbenchRows s access admin windowDays today
      ↔ (∃ id l, s.license? id = some l ∧ isCandidateLicense (today + windowDays) l = true
            ∧ buildRow today (id, l) = row)
          ∨ ∃ id l, s.license? id = some l ∧ isSupportCandidate (today + windowDays) l = true
            ∧ buildSupportRow today (id, l) = row := by
  have hscope : getUserDepartmentsForScope access admin = none := by
    simp [getUserDepartmentsForScope, hadmin]
  have hmem (p : License → Bool) (entry : Nat × License)
      : entry ∈ s.licensesWhere (fun _ l => p l && applyDepartmentFilter none l)
        ↔ s.license? entry.1 = some entry.2 ∧ p entry.2 = true := by
    rw [Store.licensesWhere, List.mem_filter, Store.license?, Table.get?_eq_some,
      applyDepartmentFilter, Bool.and_true]
  rw [getRenewalWorkbenchRows, List.mem_mergeSort, List.mem_append, List.mem_map, List.mem_map,
    loadCandidateLicenses, loadSupportCandidates, hscope]
  simp only [hmem, Prod.exists, and_assoc]

/-- The kind of row that an alert asks for. -/
def AlertType.rowKind : AlertType → RowKind
  | .supportExpired | .supportExpiring => .supportRenewal
  | _ => .license

/-- A row of a record for what an alert is about. -/
def HasRowFor (rows : List WorkbenchRow) (id : Nat) (type : AlertType) : Prop :=
  ∃ row ∈ rows, row.licenseId = id ∧ row.rowKind = type.rowKind

theorem oneOff_not_shown (hadmin : admin.role = .admin) (hl : s.license? id = some l)
    (honce : isRenewableLicense l.licenseType l.isRenewable = false)
    : ∀ row ∈ getRenewalWorkbenchRows s access admin windowDays today, row.licenseId ≠ id := by
  rintro row hrow rfl
  rcases (mem_getRenewalWorkbenchRows hadmin).mp hrow with
    ⟨id, other, hother, hcandidate, rfl⟩ | ⟨id, other, hother, hcandidate, rfl⟩
  · obtain rfl := Option.some.inj (hother.symm.trans hl)
    exact Bool.noConfusion (honce.symm.trans (renewable_of_candidate hcandidate))
  · obtain rfl := Option.some.inj (hother.symm.trans hl)
    exact Bool.noConfusion (honce.symm.trans (renewable_of_supportCandidate hcandidate))

theorem hasRowFor_license {type : AlertType} (hadmin : admin.role = .admin)
    (hl : s.license? id = some l) (hkind : type.rowKind = .license)
    (h : isCandidateLicense (today + windowDays) l = true)
    : HasRowFor (getRenewalWorkbenchRows s access admin windowDays today) id type :=
  ⟨_, (mem_getRenewalWorkbenchRows hadmin).mpr (Or.inl ⟨id, l, hl, h, rfl⟩), rfl, hkind.symm⟩

theorem hasRowFor_support {type : AlertType} (hadmin : admin.role = .admin)
    (hl : s.license? id = some l) (hkind : type.rowKind = .supportRenewal)
    (h : isSupportCandidate (today + windowDays) l = true)
    : HasRowFor (getRenewalWorkbenchRows s access admin windowDays today) id type :=
  ⟨_, (mem_getRenewalWorkbenchRows hadmin).mpr (Or.inr ⟨id, l, hl, h, rfl⟩), rfl, hkind.symm⟩

/-- Every alert on a term or on support has its row in a workbench of the same window or a longer
one, and so has every notice alert of a renewable record; a one-off purchase has no row at all.
-/
theorem alert_onWorkbench (u : Unicode) (s : Store) (access : List UserDepartmentAccess)
    (admin : Actor) (hadmin : admin.role = .admin) (today : Date) (windowDays : Nat)
    (options : AlertOptions) (hexpiry : options.expiryWindowDays ≤ windowDays)
    (hnotice : options.noticeWindowDays ≤ windowDays) (id : Nat) (l : License)
    (hl : s.license? id = some l) (a : Alert) (ha : a ∈ classifyLicenseAlerts u id l today options)
    (hkind : a.type ≠ .incomplete)
    : (a.type = .noticeDue → isRenewableLicense l.licenseType l.isRenewable = true)
        ∧ HasRowFor (getRenewalWorkbenchRows s access admin windowDays today) id a.type
      ∨ a.type = .noticeDue ∧ isRenewableLicense l.licenseType l.isRenewable = false
        ∧ ∀ row ∈ getRenewalWorkbenchRows s access admin windowDays today,
            row.licenseId ≠ id := by
  have hlater {date : Date} {days : Nat} (hdays : days ≤ windowDays) (h : date ≤ today + days)
      : date ≤ today + windowDays := h.trans (Nat.add_le_add_left hdays today)
  obtain ⟨hraises, ⟨hrenewable, hterm⟩ | hsupport | hdue | hincomplete⟩ :=
    classifyLicenseAlerts_cases ha
  · obtain ⟨htype, finish, hend, hle⟩ := termAlerts_date hterm
    refine Or.inl ⟨fun _ => hrenewable, hasRowFor_license hadmin hl ?_ ?_⟩
    · rcases htype with htype | htype <;> rw [htype] <;> rfl
    · exact hraises.candidate hrenewable (Or.inl ⟨finish, hend, hlater hexpiry hle⟩)
  · obtain ⟨htype, hparent, hcoverage, finish, hend, hle⟩ := supportAlerts_date hsupport
    have hcandidate : isSupportCandidate (today + windowDays) l = true :=
      hraises.supportCandidate hparent hcoverage hend (hlater hexpiry hle)
    refine Or.inl ⟨fun _ => renewable_of_supportCandidate hcandidate,
      hasRowFor_support hadmin hl ?_ hcandidate⟩
    rcases htype with htype | htype <;> rw [htype] <;> rfl
  · obtain ⟨htype, hunhandled⟩ := noticeAlerts_date hdue
    have hinside : unhandledNoticeBy (today + windowDays) l = true := by
      unfold unhandledNoticeBy at hunhandled ⊢
      simp only [Bool.and_eq_true, Option.any_eq_true, decide_eq_true_eq] at hunhandled ⊢
      obtain ⟨⟨hsome, date, hdate, hle⟩, hhandled⟩ := hunhandled
      exact ⟨⟨hsome, date, hdate, hlater hnotice hle⟩, hhandled⟩
    cases hrenewable : isRenewableLicense l.licenseType l.isRenewable with
    | true =>
        refine Or.inl ⟨fun _ => rfl, hasRowFor_license hadmin hl ?_ ?_⟩
        · rw [htype]
          rfl
        · exact hraises.candidate hrenewable (Or.inr hinside)
    | false => exact Or.inr ⟨htype, rfl, oneOff_not_shown hadmin hl hrenewable⟩
  · exact absurd (incompleteAlerts_type hincomplete) hkind

end Rows

/-- A record of a training that is bought once, with a notice date on the tenth day. -/
def onceWithNotice : License :=
  { License.ofTerm .service none (some 40) with noticeDate := some 10 }

/-- A workbench of thirty days and alerts of thirty days on everything. -/
def thirtyDays : AlertOptions where
  documents := []
  mandatoryFields := ⟨[], by decide⟩
  expiryWindowDays := 30
  noticeWindowDays := 30

/-- A one-off purchase raises a notice alert and is on no workbench. -/
theorem alert_offWorkbench
    : ¬ ∀ (u : Unicode) (s : Store) (access : List UserDepartmentAccess) (admin : Actor)
        (today : Date) (windowDays : Nat) (options : AlertOptions) (id : Nat) (l : License)
        (a : Alert),
        admin.role = .admin
        → options.expiryWindowDays ≤ windowDays
        → options.noticeWindowDays ≤ windowDays
        → s.license? id = some l
        → a ∈ classifyLicenseAlerts u id l today options
        → a.type ≠ .incomplete
        → HasRowFor (getRenewalWorkbenchRows s access admin windowDays today) id a.type := by
  intro h
  have hl : Store.license? { licenses := Table.empty.insert onceWithNotice } 1
      = some onceWithNotice := by
    decide +kernel
  obtain ⟨a, ha, htype⟩ : ∃ a ∈ classifyLicenseAlerts .ascii 1 onceWithNotice 5 thirtyDays,
      a.type ≠ .incomplete :=
    ⟨_, List.mem_append_left _ (List.mem_append_right _ (List.mem_singleton.mpr rfl)),
      AlertType.noConfusion⟩
  obtain ⟨row, hrow, hid, -⟩ := h .ascii _ [] ⟨1, .admin⟩ 5 30 thirtyDays 1 onceWithNotice a rfl
    (le_refl 30) (le_refl 30) hl ha htype
  exact oneOff_not_shown rfl hl rfl row hrow hid

/-- A subscription that ends on the tenth day is alerted on the fifth, and is on the workbench. -/
theorem alert_onWorkbench_subscription
    : ∃ a ∈ classifyLicenseAlerts .ascii 1 (.ofTerm .subscription none (some 10)) 5 thirtyDays,
        HasRowFor (getRenewalWorkbenchRows
          { licenses := Table.empty.insert (.ofTerm .subscription none (some 10)) } []
          ⟨1, .admin⟩ 30 5) 1 a.type := by
  refine ⟨_, List.mem_append_left _ (List.mem_append_left _ (List.mem_append_left _
    (List.mem_singleton.mpr rfl))), ?_⟩
  refine (alert_onWorkbench .ascii _ [] ⟨1, .admin⟩ rfl 5 30 thirtyDays (le_refl 30) (le_refl 30) 1
    (.ofTerm .subscription none (some 10)) (by decide +kernel) _ (List.mem_append_left _
      (List.mem_append_left _ (List.mem_append_left _ (List.mem_singleton.mpr rfl))))
    AlertType.noConfusion).elim And.right fun hnotice => ?_
  exact AlertType.noConfusion hnotice.1

end LicenseTrack
