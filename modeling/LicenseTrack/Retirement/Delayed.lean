import LicenseTrack.Retirement.Runs

/-! A retirement that waits for the end of the term and the daily job leaves what an immediate
one leaves on the day of the job, whatever other licences are due with it.
-/

namespace LicenseTrack

open Library

/-- A parent that loses a record which retires, where it has it as its active one. -/
def License.clearFor (applies : Bool) (id : Nat) (row : License) : License :=
  if applies && row.hasActive id then row.clearActive else row

/-- A licence that retires on its turn. -/
def License.ended (maintenance : Bool) (row : License) : License :=
  { row with
    parentLicenseId := if maintenance then none else row.parentLicenseId
    isLegacyUnlinkedMaintenance := if maintenance then false else row.isLegacyUnlinkedMaintenance
    isRetired := true
    retirementScheduled := false }

/-- A licence's row after another one's turn in the daily job, or its own. -/
def turnRow (maintenance : Bool) (parents : List Nat) (id key : Nat) (row : License) : License :=
  if key = id then (row.clearFor (maintenance && parents.contains key) id).ended maintenance
  else row.clearFor (maintenance && parents.contains key) id

/-- Whether a stored licence is a maintenance record. -/
def Store.isMaintenance (s : Store) (id : Nat) : Bool :=
  (s.license? id).any (·.licenseType == .maintenance)

theorem retireDueLicense_eq (s : Store) (id : Nat)
    : retireDueLicense s id
      = { s with
          licenses := s.licenses.mapRows (turnRow (s.isMaintenance id) (s.parentsOf id) id)
          links := s.links.filter
            (fun link => !(s.isMaintenance id && link.maintenanceLicenseId == id)) } := by
  have hrows : ∀ (f : Nat → License → License) (g h : License → License),
      (∀ key row, (if key = id then h (g (f key row)) else f key row)
        = turnRow (s.isMaintenance id) (s.parentsOf id) id key row) →
      ((s.licenses.mapRows f).modify id g).modify id h
        = s.licenses.mapRows (turnRow (s.isMaintenance id) (s.parentsOf id) id) := by
    intro f g h hfgh
    ext key : 1
    rw [Table.get?_modify, Table.get?_modify, Table.get?_mapRows, Table.get?_mapRows]
    rcases s.licenses.get? key with _ | row
    · rfl
    · simp only [Option.map_some, ← hfgh]
      split <;> rfl
  rcases hm : s.isMaintenance id with _ | _
  · have hm' : (s.license? id).any (·.licenseType == .maintenance) = false := hm
    have hstay := hrows (fun _ row => row) (fun l => { l with isRetired := true })
      (fun l => { l with retirementScheduled := false })
      (fun key row => by simp [turnRow, License.clearFor, License.ended, hm])
    rw [Table.mapRows_eq_self fun _ _ _ => rfl, hm] at hstay
    simp only [retireDueLicense, hm', Store.modifyLicense, hstay, Bool.false_and, Bool.not_false,
      List.filter_true, Bool.false_eq_true, if_false]
  · have hm' : (s.license? id).any (·.licenseType == .maintenance) = true := hm
    have hretired := hrows
      (fun key row => if (s.parentsOf id).contains key && row.hasActive id then row.clearActive
        else row)
      (fun l => { l with
        parentLicenseId := none
        isLegacyUnlinkedMaintenance := false
        isRetired := true })
      (fun l => { l with retirementScheduled := false })
      (fun key row => by simp [turnRow, License.clearFor, License.ended, hm])
    rw [hm] at hretired
    simp only [retireDueLicense, hm', if_true, retireMaintenanceLicense, Store.modifyLicense,
      Store.mapLicenses, Store.deleteLinks, hretired, Bool.true_and]

-- Turns in any order

theorem turnRow_other {maintenance : Bool} {parents : List Nat} {id key : Nat} (hne : key ≠ id)
    (row : License)
    : (turnRow maintenance parents id key row).licenseType = row.licenseType
      ∧ (turnRow maintenance parents id key row).parentLicenseId = row.parentLicenseId
      ∧ (turnRow maintenance parents id key row).retirementScheduled = row.retirementScheduled
      ∧ (turnRow maintenance parents id key row).endDate = row.endDate := by
  simp only [turnRow, if_neg hne, License.clearFor]
  split <;> exact ⟨rfl, rfl, rfl, rfl⟩

theorem clearFor_comm {id id' : Nat} (hne : id ≠ id') (applies applies' : Bool) (row : License)
    : (row.clearFor applies' id').clearFor applies id
      = (row.clearFor applies id).clearFor applies' id' := by
  have hcleared : ∀ other, row.clearActive.hasActive other = false := fun other => rfl
  rcases ha : row.hasActive id with _ | _
  · by_cases hb : (applies' && row.hasActive id') = true
    · simp [License.clearFor, ha, hb, hcleared]
    · simp [License.clearFor, ha, hb]
  · have hb : row.hasActive id' = false := by
      simp only [License.hasActive, beq_iff_eq] at ha
      simpa [License.hasActive, ha] using hne
    by_cases happlies : applies = true
    · simp [License.clearFor, ha, hb, happlies, hcleared]
    · simp [License.clearFor, hb, happlies]

theorem clearFor_ended (maintenance applies : Bool) (id : Nat) (row : License)
    : (row.ended maintenance).clearFor applies id = (row.clearFor applies id).ended maintenance := by
  have hactive : (row.ended maintenance).hasActive id = row.hasActive id := rfl
  simp only [License.clearFor, hactive]
  split <;> rfl

theorem turnRow_comm {m m' : Bool} {parents parents' : List Nat} {id id' : Nat} (hne : id ≠ id')
    (key : Nat) (row : License)
    : turnRow m parents id key (turnRow m' parents' id' key row)
      = turnRow m' parents' id' key (turnRow m parents id key row) := by
  by_cases hk : key = id
  · have hk' : key ≠ id' := fun h => hne (hk.symm.trans h)
    simp only [turnRow, if_pos hk, if_neg hk', clearFor_ended]
    rw [clearFor_comm hne]
  · by_cases hk' : key = id'
    · simp only [turnRow, if_neg hk, if_pos hk', clearFor_ended]
      rw [clearFor_comm hne]
    · simp only [turnRow, if_neg hk, if_neg hk']
      exact clearFor_comm hne _ _ row

theorem retireDueLicense_reads (s : Store) {id id' : Nat} (hne : id ≠ id')
    : (retireDueLicense s id').isMaintenance id = s.isMaintenance id
      ∧ (retireDueLicense s id').parentsOf id = s.parentsOf id := by
  rw [retireDueLicense_eq s id']
  have hlinks : (s.links.filter
      (fun link => !(s.isMaintenance id' && link.maintenanceLicenseId == id'))).filter
        (·.maintenanceLicenseId == id) = s.links.filter (·.maintenanceLicenseId == id) := by
    rw [List.filter_filter]
    refine List.filter_congr fun link _ => ?_
    by_cases hid : link.maintenanceLicenseId = id
    · simp [hid, hne]
    · simp [hid]
  have hrow : ∀ row, (turnRow (s.isMaintenance id') (s.parentsOf id') id' id row).licenseType
        = row.licenseType
      ∧ (turnRow (s.isMaintenance id') (s.parentsOf id') id' id row).parentLicenseId
        = row.parentLicenseId := fun row =>
    ⟨(turnRow_other hne row).1, (turnRow_other hne row).2.1⟩
  generalize turnRow (s.isMaintenance id') (s.parentsOf id') id' = turn at hrow ⊢
  generalize s.isMaintenance id' = maintenance at hlinks ⊢
  constructor
  · simp only [Store.isMaintenance, Store.license?, Table.get?_mapRows]
    rcases s.licenses.get? id with _ | row
    · rfl
    · simp only [Option.map_some, Option.any_some, (hrow row).1]
  · simp only [Store.parentsOf, Store.linkedParents, hlinks, Store.license?, Table.get?_mapRows]
    rcases s.licenses.get? id with _ | row
    · rfl
    · simp only [Option.map_some, Option.bind_some, (hrow row).2]
      rfl

theorem retireDueLicense_comm (s : Store) (id id' : Nat)
    : retireDueLicense (retireDueLicense s id') id = retireDueLicense (retireDueLicense s id) id' := by
  by_cases hne : id = id'
  · rw [hne]
  · obtain ⟨hm, hp⟩ := retireDueLicense_reads s hne
    obtain ⟨hm', hp'⟩ := retireDueLicense_reads s (Ne.symm hne)
    rw [retireDueLicense_eq (retireDueLicense s id') id, hm, hp,
      retireDueLicense_eq (retireDueLicense s id) id', hm', hp',
      retireDueLicense_eq s id, retireDueLicense_eq s id']
    simp only [Table.mapRows_mapRows, List.filter_filter]
    have hrows : (fun key row => turnRow (s.isMaintenance id) (s.parentsOf id) id key
          (turnRow (s.isMaintenance id') (s.parentsOf id') id' key row))
        = (fun key row => turnRow (s.isMaintenance id') (s.parentsOf id') id' key
          (turnRow (s.isMaintenance id) (s.parentsOf id) id key row)) :=
      funext fun key => funext fun row => turnRow_comm hne key row
    simp only [hrows, Bool.and_comm]

theorem retireDueLicenses_turn {env : Env} {s : Store} {id : Nat} {l : License}
    (hl : s.license? id = some l) (hdue : l.isRetirementDue env.today = true)
    : retireDueLicenses env s = retireDueLicenses env (retireDueLicense s id) := by
  have hrow : ∀ key, (retireDueLicense s id).licenses.get? key
      = (s.licenses.get? key).map (turnRow (s.isMaintenance id) (s.parentsOf id) id key) := by
    intro key
    rw [retireDueLicense_eq, Table.get?_mapRows]
  have hgone : id ∉ (retireDueLicense s id).licenses.select
      (fun _ l => l.isRetirementDue env.today) := by
    intro hmem
    obtain ⟨row, hget, hdue'⟩ := Table.mem_select.mp hmem
    rw [hrow, Option.map_eq_some_iff] at hget
    obtain ⟨old, -, rfl⟩ := hget
    simp [License.isRetirementDue, turnRow, License.ended] at hdue'
  have hperm : (s.licenses.select (fun _ l => l.isRetirementDue env.today)).Perm
      (id :: (retireDueLicense s id).licenses.select (fun _ l => l.isRetirementDue env.today)) := by
    refine (List.perm_ext_iff_of_nodup ?_ (List.nodup_cons.mpr ⟨hgone, ?_⟩)).mpr fun key => ?_
    · exact (Table.keys_increase _).imp Nat.ne_of_lt
    · exact (Table.keys_increase _).imp Nat.ne_of_lt
    · rw [List.mem_cons, Table.mem_select, Table.mem_select]
      by_cases hk : key = id
      · subst hk
        exact ⟨fun _ => .inl rfl, fun _ => ⟨l, hl, hdue⟩⟩
      · have hsame : ∀ row, (turnRow (s.isMaintenance id) (s.parentsOf id) id key row).isRetirementDue
            env.today = row.isRetirementDue env.today := fun row => by
          obtain ⟨-, -, hscheduled, hend⟩ :=
            @turnRow_other (s.isMaintenance id) (s.parentsOf id) id key hk row
          simp only [License.isRetirementDue, hscheduled, hend]
        rw [hrow]
        simp only [hk, false_or, Option.map_eq_some_iff]
        constructor
        · rintro ⟨row, hget, hd⟩
          exact ⟨_, ⟨row, hget, rfl⟩, (hsame row).trans hd⟩
        · rintro ⟨_, ⟨row, hget, rfl⟩, hd⟩
          exact ⟨row, hget, (hsame row).symm.trans hd⟩
  have hfold := hperm.foldl_eq' (f := retireDueLicense)
    (fun x _ y _ z => (retireDueLicense_comm z y x)) s
  simp only [retireDueLicenses, hfold, List.foldl_cons]

/-- The update that only asks to retire a licence. -/
def retireRequest : LicenseUpdate := { isRetired := some true }

/-- The row that the request writes, for the two retirement columns that it decides on. -/
def retiringRow (u : Unicode) (l : License) (retirement : RetirementUpdate) (row : License)
    : License :=
  syncSupportDefaults u
    (retireRequest.writeRow (retireRequest.writeDetails l) (retireRequest.writeTerms l)
      l.poTotalOverride retirement row)

theorem retireRequest_written (env : Env) {id : Nat} {l : License} {s : Store}
    (hl : s.license? id = some l)
    : retireRequest.written env id l (retireRequest.writeDetails l) s
      = s.modifyLicense id (retiringRow env.unicode l (retireRequest.retirement env l)) := by
  have hrow : (retireRequest.writtenRow env id l (retireRequest.writeDetails l) s).modifyLicense id
      (syncSupportDefaults env.unicode)
      = s.modifyLicense id (retiringRow env.unicode l (retireRequest.retirement env l)) := by
    change ({ s with licenses := (s.licenses.modify id _).modify id _ } : Store) = _
    rw [Table.modify_modify]
    rfl
  unfold LicenseUpdate.written
  rw [hrow]
  unfold recordIncludedSupportExit
  rw [Store.license?_modifyLicense_self, hl]
  simp only [Option.map_some]
  have hcoverage : (retiringRow env.unicode l (retireRequest.retirement env l)
      l).maintenanceCoverage = l.maintenanceCoverage :=
    (applyIncludedSupportDefaults_standing _ _ _).2
  rw [if_pos]
  rw [hcoverage]
  by_cases hincluded : l.maintenanceCoverage = .included
  · exact .inr hincluded
  · exact .inl hincluded

theorem retireRequest_ok {env : Env} {id : Nat} {s t : Store}
    (h : updateLicense env id retireRequest s = .ok t)
    : ∃ l, s.license? id = some l
        ∧ validateMaintenanceParentTransition s l l.licenseType l.parentLicenseId
            ((retireRequest.retirement env l).isRetired.getD l.isRetired) = .ok ⟨⟩
        ∧ validateActiveMaintenanceParentUpdate l
            (retiringRow env.unicode l (retireRequest.retirement env l) l) = .ok ⟨⟩
        ∧ ∃ reconciled,
            reconcileMaintenanceRelationshipsAfterUpdate env id l.parentLicenseId none
              (s.modifyLicense id
                (retiringRow env.unicode l (retireRequest.retirement env l))) = .ok reconciled
            ∧ t = syncActiveMaintenanceParentIfNeeded env.unicode id reconciled := by
  simp only [updateLicense, bind_eq_ok, flush_eq_ok] at h
  obtain ⟨p, hp, _, h, rfl, -⟩ := h
  obtain rfl : retireRequest = p := Except.ok.inj hp
  obtain ⟨l, hl, details, v, hrefs, htransition, w, hw, ⟨row, hrow, hactive⟩, reconciled,
    hreconciled, ht⟩ := applyLicenseUpdate_ran h
  obtain ⟨rfl, rfl⟩ : retireRequest.writeDetails l = details ∧ s = v :=
    Prod.mk.inj (Except.ok.inj hrefs)
  have hw' : w = s.modifyLicense id
      (retiringRow env.unicode l (retireRequest.retirement env l)) := by
    rcases hw with hw | ⟨contract, hcontract, -⟩
    · rw [hw, retireRequest_written env hl]
    · exact absurd rfl hcontract
  subst hw'
  rw [Store.license?_modifyLicense_self, hl, Option.map_some] at hrow
  obtain rfl := Option.some.inj hrow
  exact ⟨l, hl, htransition, hactive, reconciled, hreconciled, ht⟩

-- Its relationships

/-- The mirrors that follow a record after a synchronisation of its parents, by induction on the
parents. The record itself is no parent of its own, so it stays what the mirrors copy.
-/
theorem syncParents_eq {u : Unicode} {id : Nat} {s : Store} {child : License}
    (hchild : s.license? id = some child) (hlive : child.isLiveMaintenance = true)
    (hown : child.hasActive id = false) (parents : List Nat)
    : parents.foldl (fun s parentId =>
          if (s.license? parentId).any (·.hasActive id) then syncParentMirrorFields u parentId s
          else s) s
      = s.mapLicenses (fun key row =>
          if parents.contains key && row.hasActive id then row.withMirror (mirrorOf u id child)
          else row) := by
  induction parents generalizing s with
  | nil =>
      simp only [List.foldl_nil, Store.mapLicenses, List.contains_nil, Bool.false_and,
        Bool.false_eq_true, if_false]
      rw [Table.mapRows_eq_self fun _ _ _ => rfl]
  | cons head rest ih =>
      have hstep : (if (s.license? head).any (·.hasActive id) then syncParentMirrorFields u head s
          else s) = s.mapLicenses (fun key row =>
            if key == head && row.hasActive id then row.withMirror (mirrorOf u id child)
            else row) := by
        have hsynced : ∀ row : License, row.hasActive id = true →
            s.syncedMirror u row.toMaintenanceMirror = mirrorOf u id child := by
          intro row hrow
          have hactive : row.activeMaintenanceId = some id := by
            simpa [License.hasActive] using hrow
          simp only [Store.syncedMirror, hactive, hchild, hlive, if_true]
        have hrows : ∀ v : Table License, (∀ key, v.get? key = (s.licenses.get? key).map (fun row =>
            if key == head && row.hasActive id then row.withMirror (mirrorOf u id child)
            else row)) → ({ s with licenses := v } : Store) = s.mapLicenses (fun key row =>
              if key == head && row.hasActive id then row.withMirror (mirrorOf u id child)
              else row) := by
          intro v hv
          have hv' : v = s.licenses.mapRows (fun key row =>
              if key == head && row.hasActive id then row.withMirror (mirrorOf u id child)
              else row) := by
            ext key : 1
            rw [hv, Table.get?_mapRows]
          rw [hv']
          rfl
        split
        · next hany =>
            refine hrows _ fun key => ?_
            rw [Table.get?_modify]
            rcases hget : s.licenses.get? key with _ | row
            · rfl
            · by_cases hk : key = head
              · subst hk
                have hrow : row.hasActive id = true := by
                  simpa [Store.license?, hget] using hany
                simp [hrow, hsynced row hrow]
              · simp [hk]
        · next hnone =>
            refine hrows s.licenses fun key => ?_
            rcases hget : s.licenses.get? key with _ | row
            · rfl
            · by_cases hk : key = head
              · subst hk
                have hrow : row.hasActive id = false := by
                  simpa [Store.license?, hget] using hnone
                simp [hrow]
              · simp [hk]
      rw [List.foldl_cons, hstep, ih]
      · simp only [Store.mapLicenses, Table.mapRows_mapRows]
        have hfun : ∀ (key : Nat) (row : License),
            (if rest.contains key && (if key == head && row.hasActive id then
                row.withMirror (mirrorOf u id child) else row).hasActive id then
              (if key == head && row.hasActive id then row.withMirror (mirrorOf u id child)
                else row).withMirror (mirrorOf u id child)
              else if key == head && row.hasActive id then row.withMirror (mirrorOf u id child)
                else row)
            = if (head :: rest).contains key && row.hasActive id then
                row.withMirror (mirrorOf u id child)
              else row := by
          intro key row
          rcases ha : row.hasActive id with _ | _
          · simp [ha]
          · by_cases hk : key = head
            · subst hk
              simp [License.withMirror]
            · simp [hk, ha]
        simp only [hfun]
      · rw [Store.license?_mapLicenses, hchild]
        simp [hown]

theorem retireDueLicense_plain {id : Nat} {s : Store} {l : License}
    (hl : s.license? id = some l) (htype : l.licenseType ≠ .maintenance)
    : retireDueLicense s id
      = s.modifyLicense id (fun l => { l with isRetired := true, retirementScheduled := false }) := by
  have hplain : (s.license? id).any (·.licenseType == .maintenance) = false := by
    simpa [hl] using htype
  simp only [retireDueLicense, hplain, Bool.false_eq_true, if_false, Store.modifyLicense,
    Table.modify_modify]

theorem retireDueLicense_of_unscheduled {id : Nat} {s : Store} {l : License}
    (hl : s.license? id = some l) (htype : l.licenseType = .maintenance)
    (hscheduled : l.retirementScheduled = false)
    : retireDueLicense s id = retireMaintenanceLicense id s := by
  have hmaintenance : (s.license? id).any (·.licenseType == .maintenance) = true := by
    simp [hl, htype]
  simp only [retireDueLicense, hmaintenance, if_true]
  have hsame : (retireMaintenanceLicense id s).licenses.modify id
      (fun l => { l with retirementScheduled := false })
      = (retireMaintenanceLicense id s).licenses := by
    refine Table.modify_eq_self fun row hrow => ?_
    have hrow' : (retireMaintenanceLicense id s).license? id = some row := hrow
    simp only [retireMaintenanceLicense, Store.license?_modifyLicense_self,
      Store.license?_mapLicenses, Option.map_map, Option.map_eq_some_iff] at hrow'
    obtain ⟨old, hold, rfl⟩ := hrow'
    obtain rfl := Option.some.inj (hl.symm.trans hold)
    simp only [Function.comp_apply]
    split
    · simp [License.clearActive, License.withMirror, hscheduled]
    · simp [hscheduled]
  rw [Store.modifyLicense, hsame]

-- Delayed and immediate

theorem retireRequest_plain {env : Env} {id : Nat} {s t : Store} {l : License}
    (hl : s.license? id = some l) (htype : l.licenseType ≠ .maintenance)
    (h : updateLicense env id retireRequest s = .ok t)
    : t = s.modifyLicense id (fun row =>
        { retiringRow env.unicode l (retireRequest.retirement env l) row with
          isLegacyUnlinkedMaintenance := false }) := by
  obtain ⟨l', hl', htransition, -, reconciled, hreconciled, rfl⟩ := retireRequest_ok h
  obtain rfl := Option.some.inj (hl.symm.trans hl')
  have hparent : l.parentLicenseId = none := by
    obtain ⟨_, hchecked, -⟩ := bind_eq_ok.mp (of_optional_check htransition)
    simp only [asHttp_eq_ok, assertNonMaintenanceHasNoParent, require_eq_ok] at hchecked
    by_contra hne
    exact hchecked ⟨htype, hne⟩
  simp only [reconcileMaintenanceRelationshipsAfterUpdate, bind_eq_ok, found_eq_ok,
    Store.license?_modifyLicense_self, hl, Option.map_some] at hreconciled
  obtain ⟨row, hrow, hreconciled⟩ := hreconciled
  obtain rfl := Option.some.inj hrow
  have htype' : (retiringRow env.unicode l (retireRequest.retirement env l) l).licenseType
      ≠ .maintenance := htype
  have hparent' : (retiringRow env.unicode l (retireRequest.retirement env l) l).parentLicenseId
      = none := by
    change (if _ then _ else _) = _
    split
    · exact hparent
    · exact hparent
  rw [if_pos htype', if_neg (by simp [hparent, hparent'])] at hreconciled
  obtain rfl := pure_eq_ok.mp hreconciled
  have hmerged : (s.modifyLicense id (retiringRow env.unicode l
      (retireRequest.retirement env l))).modifyLicense id (fun l =>
        { l with isLegacyUnlinkedMaintenance := false })
      = s.modifyLicense id (fun row =>
        { retiringRow env.unicode l (retireRequest.retirement env l) row with
          isLegacyUnlinkedMaintenance := false }) := by
    simp only [Store.modifyLicense, Table.modify_modify]
  rw [hmerged]
  unfold syncActiveMaintenanceParentIfNeeded
  rw [Store.license?_modifyLicense_self, hl]
  simp only [Option.map_some]
  exact if_neg htype'

/-- A record whose retirement is scheduled keeps its parents, whose mirrors are refreshed. -/
theorem retireRequest_scheduled {env : Env} {id : Nat} {s t : Store} {l : License}
    (hl : s.license? id = some l) (htype : l.licenseType = .maintenance)
    (hretirement : retireRequest.retirement env l = ⟨some false, some true⟩)
    (h : updateLicense env id retireRequest s = .ok t)
    : (retiringRow env.unicode l ⟨some false, some true⟩ l).hasActive id = false
      ∧ t = (s.modifyLicense id (retiringRow env.unicode l ⟨some false, some true⟩)).mapLicenses
          (fun key row =>
            if ((s.modifyLicense id (retiringRow env.unicode l
                ⟨some false, some true⟩)).storedParentsOf id).contains key && row.hasActive id then
              row.withMirror (mirrorOf env.unicode id
                (retiringRow env.unicode l ⟨some false, some true⟩ l))
            else row) := by
  obtain ⟨l', hl', -, hactive, reconciled, hreconciled, rfl⟩ := retireRequest_ok h
  obtain rfl := Option.some.inj (hl.symm.trans hl')
  rw [hretirement] at hactive hreconciled
  have hrow : (s.modifyLicense id (retiringRow env.unicode l ⟨some false, some true⟩)).license? id
      = some (retiringRow env.unicode l ⟨some false, some true⟩ l) := by
    rw [Store.license?_modifyLicense_self, hl, Option.map_some]
  have htype' : (retiringRow env.unicode l ⟨some false, some true⟩ l).licenseType
      = .maintenance := htype
  have hlive : (retiringRow env.unicode l ⟨some false, some true⟩ l).isLiveMaintenance = true := by
    have hretired : (retiringRow env.unicode l ⟨some false, some true⟩ l).isRetired = false := rfl
    simp [License.isLiveMaintenance, htype', hretired]
  have hown : (retiringRow env.unicode l ⟨some false, some true⟩ l).hasActive id = false := by
    by_contra hself
    have hsome : (retiringRow env.unicode l ⟨some false, some true⟩ l).activeMaintenanceId
        = some id := by simpa [License.hasActive] using hself
    simp only [validateActiveMaintenanceParentUpdate, hsome, reduceCtorEq, if_false, asHttp_eq_ok,
      bind_eq_ok, assertActiveMaintenanceAllowsTypeChange, require_eq_ok, htype',
      LicenseType.isMaintenanceParent] at hactive
    obtain ⟨_, hallowed, -⟩ := hactive
    exact hallowed ⟨Option.some_ne_none id, trivial⟩
  simp only [reconcileMaintenanceRelationshipsAfterUpdate, bind_eq_ok, found_eq_ok, hrow]
    at hreconciled
  obtain ⟨row, hrow', hreconciled⟩ := hreconciled
  obtain rfl := Option.some.inj hrow'
  rw [if_neg (not_not.mpr htype'), if_neg (by exact Bool.false_ne_true)] at hreconciled
  obtain rfl := pure_eq_ok.mp hreconciled
  refine ⟨hown, ?_⟩
  unfold syncActiveMaintenanceParentIfNeeded
  simp only [hrow, htype', if_true]
  exact syncParents_eq hrow hlive hown _

theorem retireRequest_immediate {env : Env} {id : Nat} {s t : Store} {l : License}
    (hl : s.license? id = some l) (htype : l.licenseType = .maintenance)
    (hretirement : retireRequest.retirement env l = ⟨some true, some false⟩)
    (h : updateLicense env id retireRequest s = .ok t)
    : t = retireMaintenanceLicense id
        (s.modifyLicense id (retiringRow env.unicode l ⟨some true, some false⟩)) := by
  obtain ⟨l', hl', -, -, reconciled, hreconciled, rfl⟩ := retireRequest_ok h
  obtain rfl := Option.some.inj (hl.symm.trans hl')
  rw [hretirement] at hreconciled
  have hrow : (s.modifyLicense id (retiringRow env.unicode l ⟨some true, some false⟩)).license? id
      = some (retiringRow env.unicode l ⟨some true, some false⟩ l) := by
    rw [Store.license?_modifyLicense_self, hl, Option.map_some]
  have htype' : (retiringRow env.unicode l ⟨some true, some false⟩ l).licenseType
      = .maintenance := htype
  simp only [reconcileMaintenanceRelationshipsAfterUpdate, bind_eq_ok, found_eq_ok, hrow]
    at hreconciled
  obtain ⟨row, hrow', hreconciled⟩ := hreconciled
  obtain rfl := Option.some.inj hrow'
  rw [if_neg (not_not.mpr htype'), if_pos (by rfl)] at hreconciled
  obtain rfl := pure_eq_ok.mp hreconciled
  -- No parent is left to synchronise.
  have hparents : (retireMaintenanceLicense id (s.modifyLicense id
      (retiringRow env.unicode l ⟨some true, some false⟩))).storedParentsOf id = [] := by
    have hlinked : (retireMaintenanceLicense id (s.modifyLicense id
        (retiringRow env.unicode l ⟨some true, some false⟩))).linkedParents id = [] := by
      simp only [retireMaintenanceLicense, Store.linkedParents, Store.modifyLicense,
        Store.mapLicenses, Store.deleteLinks, List.filter_filter, List.map_eq_nil_iff]
      refine List.filter_eq_nil_iff.mpr fun link _ => ?_
      simp
    have hprimary : ((retireMaintenanceLicense id (s.modifyLicense id
        (retiringRow env.unicode l ⟨some true, some false⟩))).license? id).bind
          (·.parentLicenseId) = none := by
      simp only [retireMaintenanceLicense, Store.license?_modifyLicense_self, Option.bind_map]
      exact Option.bind_eq_none_iff.mpr fun _ _ => rfl
    simp only [Store.storedParentsOf, Store.parentsOf, hlinked, hprimary, List.filter_nil]
  unfold syncActiveMaintenanceParentIfNeeded
  simp only [hparents, List.foldl_nil]
  split
  · split <;> rfl
  · rfl

theorem retireRequest_retirement (env : Env) (l : License)
    : retireRequest.retirement env l
      = if l.licenseType.isNonExpiring = false ∧ l.endDate.any (env.today ≤ ·) = true then
          ⟨some false, some true⟩
        else ⟨some true, some false⟩ := by
  have hend : (retireRequest.writeTerms l).endDate
      = if l.licenseType.isNonExpiring then none else l.endDate := rfl
  have hdecides : retireRequest.retirement env l
      = normalizeRetirementUpdate env.today l.retirementScheduled (some true)
          (retireRequest.writeTerms l).endDate
          ((retireRequest.writeTerms l).endDate != l.endDate) := rfl
  rw [hdecides, hend]
  simp only [normalizeRetirementUpdate]
  rcases hexpires : l.licenseType.isNonExpiring with _ | _
  · rcases hfinish : l.endDate with _ | finish
    · rfl
    · by_cases hle : env.today ≤ finish
      · simp [hle]
      · simp [hle]
  · rfl

/-- A record's turn clears the same mirrors whether or not they were refreshed before: an active
record has made its parents separately tracked, which a refresh writes again.
-/
theorem refreshed_turn {s : Store} (hs : SoundLicenses s) (u : Unicode) {id : Nat} {l : License}
    (hl : s.license? id = some l) (htype : l.licenseType = .maintenance)
    (hown : (retiringRow u l ⟨some false, some true⟩ l).hasActive id = false)
    : retireDueLicense
        ((s.modifyLicense id (retiringRow u l ⟨some false, some true⟩)).mapLicenses
          (fun key row =>
            if ((s.modifyLicense id (retiringRow u l ⟨some false, some true⟩)).storedParentsOf
                id).contains key && row.hasActive id then
              row.withMirror (mirrorOf u id (retiringRow u l ⟨some false, some true⟩ l))
            else row)) id
      = retireDueLicense (s.modifyLicense id (retiringRow u l ⟨some true, some false⟩)) id := by
  let waiting := s.modifyLicense id (retiringRow u l ⟨some false, some true⟩)
  let retired := s.modifyLicense id (retiringRow u l ⟨some true, some false⟩)
  let refresh := fun (key : Nat) (row : License) =>
    if (waiting.storedParentsOf id).contains key && row.hasActive id then
      row.withMirror (mirrorOf u id (retiringRow u l ⟨some false, some true⟩ l))
    else row
  have hwaiting : waiting.license? id = some (retiringRow u l ⟨some false, some true⟩ l) := by
    rw [Store.license?_modifyLicense_self, hl, Option.map_some]
  have hrefreshed : (waiting.mapLicenses refresh).license? id
      = some (retiringRow u l ⟨some false, some true⟩ l) := by
    rw [Store.license?_mapLicenses, hwaiting, Option.map_some]
    simp only [refresh, hown, Bool.and_false, Bool.false_eq_true, if_false]
  have hretired : retired.license? id = some (retiringRow u l ⟨some true, some false⟩ l) := by
    rw [Store.license?_modifyLicense_self, hl, Option.map_some]
  have hparents : (waiting.mapLicenses refresh).parentsOf id = retired.parentsOf id := by
    simp only [Store.parentsOf, hrefreshed, hretired, Option.bind_some]
    rfl
  have hwaitingParents : waiting.parentsOf id = retired.parentsOf id := by
    simp only [Store.parentsOf, hwaiting, hretired, Option.bind_some]
    rfl
  have hmaintenance : (waiting.mapLicenses refresh).isMaintenance id = true := by
    have htype' : (retiringRow u l ⟨some false, some true⟩ l).licenseType = .maintenance := htype
    simp [Store.isMaintenance, hrefreshed, htype']
  have hmaintenance' : retired.isMaintenance id = true := by
    have htype' : (retiringRow u l ⟨some true, some false⟩ l).licenseType = .maintenance := htype
    simp [Store.isMaintenance, hretired, htype']
  change retireDueLicense (waiting.mapLicenses refresh) id = retireDueLicense retired id
  rw [retireDueLicense_eq, retireDueLicense_eq, hmaintenance, hmaintenance', hparents]
  have hrows : (waiting.mapLicenses refresh).licenses.mapRows
        (turnRow true (retired.parentsOf id) id)
      = retired.licenses.mapRows (turnRow true (retired.parentsOf id) id) := by
    ext key : 1
    rw [Table.get?_mapRows, Table.get?_mapRows]
    by_cases hk : key = id
    · subst hk
      have hone : (waiting.mapLicenses refresh).licenses.get? key
          = some (retiringRow u l ⟨some false, some true⟩ l) := hrefreshed
      have hother : retired.licenses.get? key
          = some (retiringRow u l ⟨some true, some false⟩ l) := hretired
      rw [hone, hother, Option.map_some, Option.map_some]
      simp only [turnRow, if_true, ← clearFor_ended]
      rfl
    · have hone : (waiting.mapLicenses refresh).licenses.get? key
          = (s.licenses.get? key).map (refresh key) := by
        rw [Store.mapLicenses, Table.get?_mapRows]
        exact congrArg (Option.map (refresh key)) (Table.get?_modify_ne _ _ hk)
      have hother : retired.licenses.get? key = s.licenses.get? key :=
        Table.get?_modify_ne _ _ hk
      rw [hone, hother]
      rcases hget : s.licenses.get? key with _ | row
      · rfl
      · have hstored : (waiting.license? key).isSome = true := by
          rw [Store.license?_modifyLicense_ne _ _ hk, Store.license?, hget]
          rfl
        have hcontains : (waiting.storedParentsOf id).contains key
            = (retired.parentsOf id).contains key := by
          rw [Bool.eq_iff_iff, List.contains_iff_mem, List.contains_iff_mem, ← hwaitingParents,
            Store.storedParentsOf, List.mem_filter]
          exact ⟨fun h => h.1, fun h => ⟨h, hstored⟩⟩
        simp only [Option.map_some, turnRow, if_neg hk, License.clearFor, refresh, hcontains,
          Bool.true_and]
        by_cases happlies : ((retired.parentsOf id).contains key && row.hasActive id) = true
        · obtain ⟨hmem, hhas⟩ := Bool.and_eq_true_iff.mp happlies
          have hactive : row.activeMaintenanceId = some id := by
            simpa [License.hasActive] using hhas
          have htracked := (hs key row hget).tracked (by simp [hactive])
          have hmirrored : (row.withMirror (mirrorOf u id
              (retiringRow u l ⟨some false, some true⟩ l))).hasActive id = true := by
            simp [License.hasActive, License.withMirror, mirrorOf]
          simp only [hmem, hhas, hmirrored, Bool.and_self, if_true]
          simp [License.clearActive, License.withMirror, MaintenanceMirror.cleared, mirrorOf,
            htracked]
        · simp only [happlies, Bool.false_eq_true, if_false]
  rw [hrows]
  rfl

theorem scheduled_turn {s : Store} (hs : SoundLicenses s) {scheduling later : Env}
    (hunicode : later.unicode = scheduling.unicode) {id : Nat} {l : License}
    (hl : s.license? id = some l) {finish : Date} (hend : l.endDate = some finish)
    (hbefore : scheduling.today ≤ finish) (hafter : finish < later.today) {t u : Store}
    (hscheduled : updateLicense scheduling id retireRequest s = .ok t)
    (himmediate : updateLicense later id retireRequest s = .ok u)
    : retireDueLicense t id = u := by
  have hlate : retireRequest.retirement later l = ⟨some true, some false⟩ := by
    rw [retireRequest_retirement, if_neg]
    simp [hend, hafter]
  by_cases htype : l.licenseType = .maintenance
  · have hearly : retireRequest.retirement scheduling l = ⟨some false, some true⟩ := by
      rw [retireRequest_retirement, if_pos]
      simp [hend, hbefore, htype, LicenseType.isNonExpiring]
    obtain ⟨hown, rfl⟩ := retireRequest_scheduled hl htype hearly hscheduled
    rw [retireRequest_immediate hl htype hlate himmediate, hunicode]
    have hrow : (s.modifyLicense id (retiringRow scheduling.unicode l
        ⟨some true, some false⟩)).license? id
        = some (retiringRow scheduling.unicode l ⟨some true, some false⟩ l) := by
      rw [Store.license?_modifyLicense_self, hl, Option.map_some]
    rw [← retireDueLicense_of_unscheduled hrow htype rfl]
    exact refreshed_turn hs scheduling.unicode hl htype hown
  · rw [retireRequest_plain hl htype hscheduled, retireRequest_plain hl htype himmediate, hlate,
      hunicode]
    have hrow : (s.modifyLicense id (fun row =>
        { retiringRow scheduling.unicode l (retireRequest.retirement scheduling l) row with
          isLegacyUnlinkedMaintenance := false })).license? id
        = some { retiringRow scheduling.unicode l (retireRequest.retirement scheduling l) l with
            isLegacyUnlinkedMaintenance := false } := by
      rw [Store.license?_modifyLicense_self, hl, Option.map_some]
    rw [retireDueLicense_plain hrow htype]
    simp only [Store.modifyLicense, Table.modify_modify]
    rfl

/-- So the job leaves the same store after either, whatever else is due on that day. -/
theorem scheduled_job {s : Store} (hs : SoundLicenses s) {scheduling later : Env}
    (hunicode : later.unicode = scheduling.unicode) {id : Nat} {l : License}
    (hl : s.license? id = some l) {finish : Date} (hend : l.endDate = some finish)
    (hbefore : scheduling.today ≤ finish) (hafter : finish < later.today) {t u : Store}
    (hscheduled : updateLicense scheduling id retireRequest s = .ok t)
    (himmediate : updateLicense later id retireRequest s = .ok u)
    : retireDueLicenses later t = retireDueLicenses later u := by
  rcases hexpires : l.licenseType.isNonExpiring with _ | _
  · have hearly : retireRequest.retirement scheduling l = ⟨some false, some true⟩ := by
      rw [retireRequest_retirement, if_pos]
      simp [hend, hbefore, hexpires]
    have hfinish : (retireRequest.writeTerms l).endDate = some finish := by
      have hterms : (retireRequest.writeTerms l).endDate
          = if l.licenseType.isNonExpiring then none else l.endDate := rfl
      rw [hterms, hexpires, hend]
      rfl
    -- The row of the licence after its scheduling, which is due on the later day.
    have hdue : ∃ row, t.license? id = some row ∧ row.isRetirementDue later.today = true := by
      have hdueRow : (retiringRow scheduling.unicode l ⟨some false, some true⟩ l).isRetirementDue
          later.today = true := by
        change (true && (retireRequest.writeTerms l).endDate.any (· < later.today)) = true
        simp [hfinish, hafter]
      by_cases htype : l.licenseType = .maintenance
      · obtain ⟨hown, rfl⟩ := retireRequest_scheduled hl htype hearly hscheduled
        refine ⟨_, ?_, hdueRow⟩
        rw [Store.license?_mapLicenses, Store.license?_modifyLicense_self, hl, Option.map_some,
          Option.map_some]
        simp only [hown, Bool.and_false, Bool.false_eq_true, if_false]
      · refine ⟨{ retiringRow scheduling.unicode l ⟨some false, some true⟩ l with
          isLegacyUnlinkedMaintenance := false }, ?_, hdueRow⟩
        rw [retireRequest_plain hl htype hscheduled, Store.license?_modifyLicense_self, hl,
          Option.map_some, hearly]
    obtain ⟨row, hrow, hdueRow⟩ := hdue
    rw [retireDueLicenses_turn hrow hdueRow,
      scheduled_turn hs hunicode hl hend hbefore hafter hscheduled himmediate]
  · have htype : l.licenseType ≠ .maintenance := by
      rintro htype
      rw [htype] at hexpires
      cases hexpires
    have hsame : retireRequest.retirement scheduling l = retireRequest.retirement later l := by
      simp [retireRequest_retirement, hexpires]
    rw [retireRequest_plain hl htype hscheduled, retireRequest_plain hl htype himmediate, hsame,
      hunicode]

-- Runs

/-- The operations that write the retirement columns. -/
def Request.WritesRetirement : Request → Prop
  | .create _ | .createBatch _ | .update _ _ | .patch _ _ | .retireDue | .retireMaintenance _
  | .disableMaintenance _ | .delete _ | .bulkDelete _ => True
  | _ => False

/-- A state reached by these operations from sound licences, such as none, each made where the
condition lets it.
-/
abbrev RetirementReached (allowed : Store → Request → Prop) (start s : Store) : Prop :=
  Reachable (fun request : DatedRequest => request.2.run request.1)
    (fun s request => request.2.WritesRetirement ∧ allowed s request.2) start s

/-- Retired and scheduled exclude each other, a scheduled licence has an end date, and waiting
for the end of the term leaves the store that an immediate retirement on the day of the job
leaves, for the licence alone and with all that are due on that day.
-/
theorem retirement_exclusive {start s : Store} (hstart : SoundLicenses start)
    (h : RetirementReached KeepsRetirementApart start s)
    : (∀ id l, s.license? id = some l → SoundRetirement l)
      ∧ ∀ (scheduling later : Env) (id : Nat) (l : License) (finish : Date) (t u : Store),
          later.unicode = scheduling.unicode → s.license? id = some l → l.endDate = some finish →
          scheduling.today ≤ finish → finish < later.today →
          updateLicense scheduling id retireRequest s = .ok t →
          updateLicense later id retireRequest s = .ok u →
          retireDueLicense t id = u ∧ retireDueLicenses later t = retireDueLicenses later u := by
  have hs : SoundLicenses s := by
    refine h.invariant hstart ?_
    intro s t request hs hadmitted hran
    exact hs.run hadmitted.2 hran
  refine ⟨fun id l hl => (hs id l hl).toSoundRetirement, ?_⟩
  intro scheduling later id l finish t u hunicode hl hend hbefore hafter hscheduled himmediate
  exact ⟨scheduled_turn hs hunicode hl hend hbefore hafter hscheduled himmediate,
    scheduled_job hs hunicode hl hend hbefore hafter hscheduled himmediate⟩

/-- A licence with one maintenance record, which is active and runs until day 100. -/
def trackedParent : Store where
  licenses :=
    (Table.empty.insert
      ((License.ofTerm .perpetual (some 1) none).withMirror
        (mirrorOf .ascii 2 (License.ofTerm .maintenance (some 1) (some 100))))).insert
      { License.ofTerm .maintenance (some 1) (some 100) with parentLicenseId := some 1 }
  links := [⟨2, 1⟩]

theorem trackedParent_sound : SoundLicenses trackedParent := by
  intro id l hl
  have hmem := Table.get?_eq_some.mp hl
  have hcases : (id, l) ∈ trackedParent.licenses.entries := hmem
  simp only [trackedParent, Table.insert, Table.empty, List.nil_append, List.mem_append,
    List.mem_cons, List.not_mem_nil, or_false, Prod.mk.injEq] at hcases
  rcases hcases with ⟨-, rfl⟩ | ⟨-, rfl⟩
  · exact ⟨.of_unscheduled rfl, fun _ => rfl⟩
  · exact ⟨.of_unscheduled rfl, fun hactive => absurd rfl hactive⟩

/-- A record whose retirement was scheduled, and for which the job then had nothing to do. -/
def scheduledRecord : List DatedRequest :=
  [(.onDay 50, .update 2 retireRequest), (.onDay 60, .retireDue)]

/-- Such a record has not retired yet, and asking again on day 70 or on day 150 makes no
difference to the job of that later day.
-/
theorem retirement_exclusive_scheduledRecord
    : ∃ s t u, runAll (fun request : DatedRequest => request.2.run request.1) scheduledRecord
          trackedParent = some s
        ∧ (s.license? 2).map (fun l => (l.isRetired, l.retirementScheduled)) = some (false, true)
        ∧ (∀ id l, s.license? id = some l → SoundRetirement l)
        ∧ updateLicense (.onDay 70) 2 retireRequest s = .ok t
        ∧ updateLicense (.onDay 150) 2 retireRequest s = .ok u
        ∧ retireDueLicenses (.onDay 150) t = retireDueLicenses (.onDay 150) u := by
  obtain ⟨s, hs⟩ : ∃ s, runAll (fun request : DatedRequest => request.2.run request.1)
      scheduledRecord trackedParent = some s := Option.isSome_iff_exists.mp (by decide +kernel)
  have hflags : (runAll (fun request : DatedRequest => request.2.run request.1) scheduledRecord
      trackedParent).bind (fun s => (s.license? 2).map (fun l =>
        (l.isRetired, l.retirementScheduled, l.endDate))) = some (false, true, some 100) := by
    decide +kernel
  have hruns : ((runAll (fun request : DatedRequest => request.2.run request.1) scheduledRecord
      trackedParent).map (fun s => ((updateLicense (.onDay 70) 2 retireRequest s).isOk,
        (updateLicense (.onDay 150) 2 retireRequest s).isOk))) = some (true, true) := by
    decide +kernel
  rw [hs] at hflags hruns
  obtain ⟨hearly, hlate⟩ := Prod.mk.inj (Option.some.inj hruns)
  obtain ⟨t, ht⟩ := exists_ok hearly
  obtain ⟨u, hu⟩ := exists_ok hlate
  obtain ⟨l, hl, hrow⟩ := Option.map_eq_some_iff.mp hflags
  obtain ⟨hretired, hscheduled, hend⟩ : l.isRetired = false ∧ l.retirementScheduled = true
      ∧ l.endDate = some 100 := by simpa using hrow
  have hreached : RetirementReached KeepsRetirementApart trackedParent s := by
    refine .of_runAll .start (fun v request hm => ?_) hs
    simp only [scheduledRecord, List.mem_cons, List.not_mem_nil, or_false] at hm
    rcases hm with rfl | rfl <;> exact ⟨trivial, trivial⟩
  obtain ⟨hsound, hdelayed⟩ := retirement_exclusive trackedParent_sound hreached
  refine ⟨s, t, u, hs, by simp [hl, hretired, hscheduled], hsound, ht, hu, ?_⟩
  exact (hdelayed (.onDay 70) (.onDay 150) 2 l 100 t u rfl hl hend (by decide) (by decide) ht
    hu).2

/-- The record is scheduled, and then the maintenance of its only parent is disabled. -/
def scheduledThenDisabled : List DatedRequest :=
  [(.onDay 50, .update 2 retireRequest), (.onDay 60, .disableMaintenance 1)]

/-- Without the condition a record ends both retired and scheduled. -/
theorem retiredAndScheduled_disabled
    : ¬ ∀ start s, SoundLicenses start → RetirementReached (fun _ _ => True) start s →
        ∀ id l, s.license? id = some l → SoundRetirement l := by
  intro hclaim
  obtain ⟨s, hs⟩ : ∃ s, runAll (fun request : DatedRequest => request.2.run request.1)
      scheduledThenDisabled trackedParent = some s :=
    Option.isSome_iff_exists.mp (by decide +kernel)
  have hflags : (runAll (fun request : DatedRequest => request.2.run request.1)
      scheduledThenDisabled trackedParent).bind (fun s => (s.license? 2).map (fun l =>
        (l.isRetired, l.retirementScheduled))) = some (true, true) := by decide +kernel
  rw [hs] at hflags
  obtain ⟨l, hl, hrow⟩ := Option.map_eq_some_iff.mp hflags
  have hreached : RetirementReached (fun _ _ => True) trackedParent s := by
    refine .of_runAll .start (fun v request hm => ?_) hs
    simp only [scheduledThenDisabled, List.mem_cons, List.not_mem_nil, or_false] at hm
    rcases hm with rfl | rfl <;> exact ⟨trivial, trivial⟩
  exact (hclaim trackedParent s trackedParent_sound hreached 2 l hl).exclusive (Prod.mk.inj hrow)

end LicenseTrack
