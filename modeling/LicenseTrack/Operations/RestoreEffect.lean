import LicenseTrack.Operations.RestoreArchive

/-! When a restore of a recovery archive is all or nothing. -/

namespace LicenseTrack

open Library

variable {β δ : Type}

/-- The disk before a restore: the managed names are directories or absent, and the names of a
new token are free.
-/
structure Disk.Settled (disk : Disk β δ) : Prop where
  rooted : ∀ d, (disk.managed d).present = false → disk.managed d = absent
  noFile : ∀ d, fileAt (disk.managed d []) = none
  noLink : ∀ d, disk.symlinked d = false
  freshAside : ∀ d, disk.setAside d = absent

/-- The archive holds the database of the disk, which is valid and migrated to head. -/
structure Captures (schema : Schema δ) (safety : Archive β δ) (disk : Disk β δ) : Prop where
  content : disk.database.map DatabaseFile.content = some safety.database
  valid : schema.valid safety.database = true
  atHead : schema.migrate safety.database = some safety.database

/-- A failed restore leaves the database and the managed directories as they were, and a
successful one leaves the archive's database at head and its managed files.
-/
def AllOrNothing (schema : Schema δ) (archive : Archive β δ) (before : Disk β δ)
    (result : Except (Disk β δ) (Disk β δ)) : Prop :=
  match result with
  | .error after =>
      after.database.map DatabaseFile.content = before.database.map DatabaseFile.content
        ∧ after.managed = before.managed
  | .ok after =>
      (∃ head, schema.migrate archive.database = some head
        ∧ after.database.map DatabaseFile.content = some head)
      ∧ ∀ d path, fileAt (after.managed d path) = archivedFile archive.entries d path

/-- The same names with the same contents, apart from the database. -/
structure SameFiles (disk t : Disk β δ) : Prop where
  managed : t.managed = disk.managed
  symlinked : t.symlinked = disk.symlinked
  setAside : t.setAside = disk.setAside
  staging : t.staging = disk.staging

theorem SameFiles.refl (disk : Disk β δ) : SameFiles disk disk := ⟨rfl, rfl, rfl, rfl⟩

theorem leaves_bind {P : Disk β δ → Prop} {x : Except (Disk β δ) (Disk β δ)}
    {f : Disk β δ → Except (Disk β δ) (Disk β δ)} (hx : P (leaves x))
    (hf : ∀ t, P t → P (leaves (f t)))
    : P (leaves (x >>= f)) := by
  cases x with
  | error t => exact hx
  | ok t => exact hf t hx

theorem leaves_perform {P : Disk β δ → Prop} {fault : Option BackupStep} {step : BackupStep}
    {disk : Disk β δ} (h : P disk)
    : P (leaves (perform fault step disk)) := by
  unfold perform
  split <;> exact h

theorem leaves_check {P : Disk β δ → Prop} {ok : Bool} {disk : Disk β δ} (h : P disk)
    : P (leaves (check ok disk)) := by
  unfold check
  split <;> exact h

theorem restoreBackup_files (schema : Schema δ) (fault : Option BackupStep) (archive : Archive β δ)
    (disk : Disk β δ)
    : SameFiles disk (leaves (restoreBackup schema fault archive disk)) := by
  unfold restoreBackup
  refine leaves_bind (leaves_perform (.refl disk)) fun _ h => ?_
  refine leaves_bind (leaves_perform h) fun _ h => ?_
  refine leaves_bind (leaves_check h) fun _ h => ?_
  refine leaves_bind (leaves_perform h) fun _ h => ?_
  split
  · exact h
  · refine leaves_bind (leaves_perform h) fun _ h => ?_
    refine leaves_bind (leaves_check h) fun _ h => ?_
    refine leaves_bind (leaves_perform h) fun _ h => ?_
    refine leaves_bind (leaves_perform h) fun _ h => ?_
    refine leaves_bind (leaves_perform h) fun _ h => ?_
    refine leaves_bind (leaves_perform (P := SameFiles disk)
      ⟨h.managed, h.symlinked, h.setAside, h.staging⟩) fun _ h => ?_
    refine leaves_bind (leaves_perform h) fun _ h => ?_
    exact ⟨h.managed, h.symlinked, h.setAside, h.staging⟩

theorem perform_eq_ok {fault : Option BackupStep} {step : BackupStep} {disk t : Disk β δ}
    : perform fault step disk = .ok t ↔ fault ≠ some step ∧ disk = t := by
  unfold perform
  split <;> simp_all

theorem check_eq_ok {ok : Bool} {disk t : Disk β δ}
    : check ok disk = .ok t ↔ ok = true ∧ disk = t := by
  unfold check
  split <;> simp_all

theorem restoreBackup_ok {schema : Schema δ} {fault : Option BackupStep} {archive : Archive β δ}
    {disk t : Disk β δ} (h : restoreBackup schema fault archive disk = .ok t)
    : fault ≠ some .replace
      ∧ ∃ head, schema.migrate archive.database = some head ∧ t.database = some { main := head } := by
  simp only [restoreBackup, bind_eq_ok, perform_eq_ok, check_eq_ok] at h
  obtain ⟨_, ⟨-, rfl⟩, _, ⟨-, rfl⟩, _, ⟨-, rfl⟩, _, ⟨-, rfl⟩, h⟩ := h
  split at h
  · cases h
  · next head hhead =>
      simp only [bind_eq_ok, perform_eq_ok, check_eq_ok, pure_eq_ok] at h
      obtain ⟨_, ⟨-, rfl⟩, _, ⟨-, rfl⟩, _, ⟨-, rfl⟩, _, ⟨-, rfl⟩, _, ⟨-, rfl⟩, _, ⟨-, rfl⟩, _,
        ⟨hreplaced, rfl⟩, rfl⟩ := h
      exact ⟨hreplaced, head, hhead, rfl⟩

theorem restoreBackup_safety {schema : Schema δ} {safety : Archive β δ} {before disk : Disk β δ}
    (hsafety : Captures schema safety before)
    : (leaves (restoreBackup schema none safety disk)).database.map DatabaseFile.content
      = before.database.map DatabaseFile.content := by
  rw [hsafety.content]
  simp [restoreBackup, perform, check, hsafety.valid, hsafety.atHead, leaves, DatabaseFile.content]

-- The swap of one directory

/-- What a directory looks like before its turn, between its renames and after its turn, `before`
being the disk at the start and `staged` what was staged.
-/
structure Untouched (before : Disk β δ) (staged : Staging β) (w : Swap β δ) (d : StorageDirectory)
    : Prop where
  managed : w.disk.managed d = before.managed d
  setAside : w.disk.setAside d = absent
  staging : w.disk.staging d = staged d
  notMoved : d ∉ w.movedCurrent
  notInstalled : d ∉ w.installedTargets

structure Aside (before : Disk β δ) (staged : Staging β) (w : Swap β δ) (d : StorageDirectory)
    : Prop where
  managed : w.disk.managed d = absent
  setAside : w.disk.setAside d = before.managed d
  staging : w.disk.staging d = staged d
  moved : (before.managed d).present → d ∈ w.movedCurrent
  notInstalled : d ∉ w.installedTargets

structure Swapped (before : Disk β δ) (staged : Staging β) (w : Swap β δ) (d : StorageDirectory)
    : Prop where
  managed : w.disk.managed d = staged d
  setAside : w.disk.setAside d = before.managed d
  moved : (before.managed d).present → d ∈ w.movedCurrent
  installed : (staged d).present → d ∈ w.installedTargets

/-- One of the three. -/
def SwapState (before : Disk β δ) (staged : Staging β) (w : Swap β δ) (d : StorageDirectory) : Prop :=
  Untouched before staged w d ∨ Aside before staged w d ∨ Swapped before staged w d

/-- One directory's turn changes neither the database, nor the links, nor what another directory
looks like.
-/
structure Beside (d : StorageDirectory) (w w' : Swap β δ) : Prop where
  database : w'.disk.database = w.disk.database
  symlinked : w'.disk.symlinked = w.disk.symlinked
  managed : ∀ d', d' ≠ d → w'.disk.managed d' = w.disk.managed d'
  setAside : ∀ d', d' ≠ d → w'.disk.setAside d' = w.disk.setAside d'
  staging : ∀ d', d' ≠ d → w'.disk.staging d' = w.disk.staging d'
  moved : ∀ d', d' ≠ d → (d' ∈ w'.movedCurrent ↔ d' ∈ w.movedCurrent)
  installed : ∀ d', d' ≠ d → (d' ∈ w'.installedTargets ↔ d' ∈ w.installedTargets)

namespace Beside

variable {before : Disk β δ} {staged : Staging β} {w w' w'' : Swap β δ} {d d' : StorageDirectory}

theorem refl (d : StorageDirectory) (w : Swap β δ) : Beside d w w :=
  ⟨rfl, rfl, fun _ _ => rfl, fun _ _ => rfl, fun _ _ => rfl, fun _ _ => .rfl, fun _ _ => .rfl⟩

theorem trans (h : Beside d w w') (h' : Beside d w' w'') : Beside d w w'' where
  database := h'.database.trans h.database
  symlinked := h'.symlinked.trans h.symlinked
  managed d' hd := (h'.managed d' hd).trans (h.managed d' hd)
  setAside d' hd := (h'.setAside d' hd).trans (h.setAside d' hd)
  staging d' hd := (h'.staging d' hd).trans (h.staging d' hd)
  moved d' hd := (h'.moved d' hd).trans (h.moved d' hd)
  installed d' hd := (h'.installed d' hd).trans (h.installed d' hd)

theorem untouched (h : Beside d w w') (hd : d' ≠ d) (hu : Untouched before staged w d')
    : Untouched before staged w' d' where
  managed := (h.managed d' hd).trans hu.managed
  setAside := (h.setAside d' hd).trans hu.setAside
  staging := (h.staging d' hd).trans hu.staging
  notMoved := mt (h.moved d' hd).mp hu.notMoved
  notInstalled := mt (h.installed d' hd).mp hu.notInstalled

theorem swapped (h : Beside d w w') (hd : d' ≠ d) (hs : Swapped before staged w d')
    : Swapped before staged w' d' where
  managed := (h.managed d' hd).trans hs.managed
  setAside := (h.setAside d' hd).trans hs.setAside
  moved hp := (h.moved d' hd).mpr (hs.moved hp)
  installed hp := (h.installed d' hd).mpr (hs.installed hp)

end Beside

theorem Staging.Rooted.absent {staged : Staging β} (h : staged.Rooted) (d : StorageDirectory)
    (hd : (staged d).present = false)
    : staged d = LicenseTrack.absent :=
  funext fun path => h d (by simpa [Contents.present] using hd) path

section Swaps

variable {before : Disk β δ} {staged : Staging β} {w w' : Swap β δ} {d : StorageDirectory}
variable {fault : Option RestoreStep}

theorem setAside_error (h : setAside fault d w = .error w') : w' = w := by
  unfold LicenseTrack.setAside at h
  split at h
  · split at h
    · exact (Except.error.inj h).symm
    · cases h
  · cases h

theorem install_error (h : install fault d w = .error w') : w' = w := by
  unfold install at h
  split at h
  · split at h
    · exact (Except.error.inj h).symm
    · cases h
  · cases h

theorem setAside_ok (hbefore : before.Settled) (hu : Untouched before staged w d)
    (h : setAside fault d w = .ok w')
    : Beside d w w' ∧ Aside before staged w' d := by
  unfold LicenseTrack.setAside at h
  split at h
  · split at h
    · cases h
    · obtain rfl := Except.ok.inj h
      refine ⟨⟨rfl, rfl, fun d' hd => replaceAt_ne _ hd _, fun d' hd => replaceAt_ne _ hd _,
        fun _ _ => rfl, fun d' hd => by simp [hd], fun _ _ => .rfl⟩, ?_⟩
      exact ⟨replaceAt_self _ _ _, (replaceAt_self _ _ _).trans hu.managed, hu.staging,
        fun _ => List.mem_cons_self, hu.notInstalled⟩
  · next hmissing =>
      obtain rfl := Except.ok.inj h
      have habsent : before.managed d = absent := by
        refine hbefore.rooted d ?_
        rw [← hu.managed]
        simpa using hmissing
      refine ⟨.refl d w, ⟨hu.managed.trans habsent, hu.setAside.trans habsent.symm, hu.staging,
        fun hp => ?_, hu.notInstalled⟩⟩
      rw [habsent] at hp
      cases hp

theorem install_ok (hrooted : (staged d).present = false → staged d = absent)
    (ha : Aside before staged w d) (h : install fault d w = .ok w')
    : Beside d w w' ∧ Swapped before staged w' d := by
  unfold install at h
  split at h
  · split at h
    · cases h
    · obtain rfl := Except.ok.inj h
      refine ⟨⟨rfl, rfl, fun d' hd => replaceAt_ne _ hd _, fun _ _ => rfl,
        fun d' hd => replaceAt_ne _ hd _, fun _ _ => .rfl, fun d' hd => by simp [hd]⟩, ?_⟩
      exact ⟨(replaceAt_self _ _ _).trans ha.staging, ha.setAside, ha.moved,
        fun _ => List.mem_cons_self⟩
  · next hmissing =>
      obtain rfl := Except.ok.inj h
      rw [ha.staging] at hmissing
      refine ⟨.refl d w, ⟨?_, ha.setAside, ha.moved, fun hp => absurd hp hmissing⟩⟩
      rw [ha.managed, hrooted (by simpa using hmissing)]

theorem swapDirectory_ok (hbefore : before.Settled)
    (hrooted : (staged d).present = false → staged d = absent) (hu : Untouched before staged w d)
    (h : swapDirectory fault d w = .ok w')
    : Beside d w w' ∧ Swapped before staged w' d := by
  unfold swapDirectory at h
  split at h
  · cases h
  · obtain ⟨v, haside, hinstall⟩ := bind_eq_ok.mp h
    obtain ⟨hbeside, ha⟩ := setAside_ok hbefore hu haside
    obtain ⟨hbeside', hs⟩ := install_ok hrooted ha hinstall
    exact ⟨hbeside.trans hbeside', hs⟩

theorem swapDirectory_error (hbefore : before.Settled) (hu : Untouched before staged w d)
    (h : swapDirectory fault d w = .error w')
    : Beside d w w' ∧ SwapState before staged w' d := by
  unfold swapDirectory at h
  split at h
  · obtain rfl := Except.error.inj h
    exact ⟨.refl d w, .inl hu⟩
  · cases haside : setAside fault d w with
    | error v =>
        rw [haside, error_bind] at h
        obtain rfl := Except.error.inj h
        obtain rfl := setAside_error haside
        exact ⟨.refl d v, .inl hu⟩
    | ok v =>
        rw [haside, ok_bind] at h
        obtain rfl := install_error h
        obtain ⟨hbeside, ha⟩ := setAside_ok hbefore hu haside
        exact ⟨hbeside, .inr (.inl ha)⟩

theorem swapDirectories_spec (fault : Option RestoreStep) (hbefore : before.Settled)
    (hrooted : ∀ d, (staged d).present = false → staged d = absent)
    {todo : List StorageDirectory} (hnodup : todo.Nodup)
    (hdatabase : w.disk.database = before.database)
    (htodo : ∀ d ∈ todo, Untouched before staged w d)
    (hdone : ∀ d ∉ todo, Swapped before staged w d)
    : (∀ w', each (swapDirectory fault) todo w = .ok w' →
        w'.disk.database = before.database ∧ ∀ d, Swapped before staged w' d)
      ∧ ∀ w', each (swapDirectory fault) todo w = .error w' →
        w'.disk.database = before.database ∧ ∀ d, SwapState before staged w' d := by
  induction todo generalizing w with
  | nil =>
      refine ⟨fun w' h => ?_, fun w' h => by cases h⟩
      obtain rfl := Except.ok.inj h
      exact ⟨hdatabase, fun d => hdone d List.not_mem_nil⟩
  | cons head rest ih =>
      obtain ⟨hnot, hnodup⟩ := List.nodup_cons.mp hnodup
      have hhead := htodo head List.mem_cons_self
      have hrest : ∀ {v}, Beside head w v → ∀ d ∈ rest, Untouched before staged v d :=
        fun hbeside d hmem => hbeside.untouched (ne_of_mem_of_not_mem hmem hnot)
          (htodo d (List.mem_cons_of_mem _ hmem))
      have hother : ∀ {v}, Beside head w v → ∀ d ≠ head, d ∉ rest → Swapped before staged v d :=
        fun hbeside d hd hmem => hbeside.swapped hd (hdone d (by simp [hd, hmem]))
      simp only [each]
      cases hturn : swapDirectory fault head w with
      | error v =>
          obtain ⟨hbeside, hstate⟩ := swapDirectory_error hbefore hhead hturn
          refine ⟨fun w' h => ?_, fun w' h => ?_⟩
          · cases h
          obtain rfl := Except.error.inj h
          refine ⟨hbeside.database.trans hdatabase, fun d => ?_⟩
          by_cases hd : d = head
          · exact hd ▸ hstate
          · by_cases hmem : d ∈ rest
            · exact .inl (hrest hbeside d hmem)
            · exact .inr (.inr (hother hbeside d hd hmem))
      | ok v =>
          obtain ⟨hbeside, hstate⟩ := swapDirectory_ok hbefore (hrooted head) hhead hturn
          refine ih hnodup (hbeside.database.trans hdatabase) (hrest hbeside) (fun d hmem => ?_)
          by_cases hd : d = head
          · exact hd ▸ hstate
          · exact hother hbeside d hd hmem

end Swaps

-- The undo

theorem putBacks_ok (moved : List StorageDirectory) (disk : Disk β δ)
    (hfree : ∀ d ∈ moved, (disk.setAside d).present → (disk.managed d).present = false)
    : ∃ t, each putBack moved disk = .ok t ∧ t.database = disk.database
      ∧ ∀ d, t.managed d
        = if d ∈ moved ∧ (disk.setAside d).present then disk.setAside d else disk.managed d := by
  induction moved generalizing disk with
  | nil => exact ⟨disk, rfl, rfl, fun d => by simp⟩
  | cons head rest ih =>
      by_cases haside : (disk.setAside head).present
      · have hput : putBack head disk = .ok (putInPlace head disk) := by
          simp [putBack, haside, hfree head List.mem_cons_self haside]
        have hself : ((putInPlace head disk).setAside head).present = false :=
          congrArg Contents.present (replaceAt_self _ _ _)
        have hother : ∀ d ≠ head, (putInPlace head disk).managed d = disk.managed d
            ∧ (putInPlace head disk).setAside d = disk.setAside d :=
          fun d hd => ⟨replaceAt_ne _ hd _, replaceAt_ne _ hd _⟩
        obtain ⟨t, ht, hdatabase, hmanaged⟩ := ih (putInPlace head disk) fun d hd hpresent => by
          by_cases hhead : d = head
          · subst hhead
            simp [hself] at hpresent
          · rw [(hother d hhead).2] at hpresent
            rw [(hother d hhead).1]
            exact hfree d (List.mem_cons_of_mem _ hd) hpresent
        refine ⟨t, by rw [each, hput, ok_bind, ht], hdatabase, fun d => ?_⟩
        rw [hmanaged]
        by_cases hhead : d = head
        · subst hhead
          have hname : (putInPlace d disk).managed d = disk.setAside d := replaceAt_self _ _ _
          simp [hself, hname, haside]
        · simp [hother d hhead, hhead]
      · have hput : putBack head disk = .ok disk := by simp [putBack, haside]
        obtain ⟨t, ht, hdatabase, hmanaged⟩ :=
          ih disk fun d hd => hfree d (List.mem_cons_of_mem _ hd)
        refine ⟨t, by rw [each, hput, ok_bind, ht], hdatabase, fun d => ?_⟩
        rw [hmanaged]
        by_cases hhead : d = head
        · subst hhead
          simp [haside]
        · simp [hhead]

section Undo

variable {before : Disk β δ} {staged : Staging β} {w : Swap β δ}

theorem removeInstalled_spec (hrooted : staged.Rooted) {d : StorageDirectory}
    (hplain : fileAt (staged d []) = none) (hstate : SwapState before staged w d)
    : ((removeInstalled w).managed d = before.managed d ∧ (w.disk.setAside d).present = false)
      ∨ ((removeInstalled w).managed d = absent ∧ w.disk.setAside d = before.managed d
        ∧ ((before.managed d).present → d ∈ w.movedCurrent)) := by
  rcases hstate with hu | ha | hs
  · refine .inl ⟨?_, by rw [hu.setAside]; rfl⟩
    simp only [removeInstalled, hu.notInstalled, false_and, if_false]
    exact hu.managed
  · refine .inr ⟨?_, ha.setAside, ha.moved⟩
    simp only [removeInstalled, ha.notInstalled, false_and, if_false]
    exact ha.managed
  · refine .inr ⟨?_, hs.setAside, hs.moved⟩
    simp only [removeInstalled, hs.managed]
    split
    · rfl
    · next hkept =>
        funext path
        refine hrooted d ?_ path
        cases hroot : staged d [] with
        | none => rfl
        | some node =>
            cases node with
            | directory =>
                refine absurd ⟨hs.installed ?_, ?_⟩ hkept
                · simp [Contents.present, hroot]
                · simp [isDirectory, hroot]
            | file data => simp [fileAt, hroot] at hplain

theorem undoSwap_managed (hbefore : before.Settled) (hrooted : staged.Rooted)
    (hplain : ∀ d, fileAt (staged d []) = none) (hstate : ∀ d, SwapState before staged w d)
    : (undoSwap w).managed = before.managed ∧ (undoSwap w).database = w.disk.database := by
  have hspec := fun d => removeInstalled_spec hrooted (hplain d) (hstate d)
  obtain ⟨t, ht, hdatabase, hmanaged⟩ := putBacks_ok w.movedCurrent (removeInstalled w)
    fun d _ hpresent => by
      rcases hspec d with ⟨-, hnone⟩ | ⟨habsent, -, -⟩
      · exact absurd hpresent (by simp [removeInstalled, hnone])
      · rw [habsent]
        rfl
  refine ⟨funext fun d => ?_, ?_⟩
  · simp only [undoSwap, ht, leaves, hmanaged]
    rcases hspec d with ⟨hsame, hnone⟩ | ⟨habsent, haside, hmoved⟩
    · rw [if_neg (by simp [removeInstalled, hnone]), hsame]
    · change (if d ∈ w.movedCurrent ∧ (w.disk.setAside d).present then w.disk.setAside d
        else (removeInstalled w).managed d) = before.managed d
      rw [haside, habsent]
      split
      · rfl
      · next hnot =>
          refine (hbefore.rooted d ?_).symm
          cases hpresent : (before.managed d).present with
          | false => rfl
          | true => exact absurd ⟨hmoved hpresent, hpresent⟩ hnot
  · simp only [undoSwap, ht, leaves, hdatabase]
    rfl

end Undo

theorem putBack_cases (d : StorageDirectory) (disk : Disk β δ)
    : (putBack d disk = .ok disk ∧ (disk.setAside d).present = false)
      ∨ putBack d disk = .error disk
      ∨ (putBack d disk = .ok (putInPlace d disk)
        ∧ ((disk.managed d).present = false ∨ fileAt (disk.setAside d []) ≠ none)) := by
  unfold putBack
  split
  · next hmissing => exact .inl ⟨rfl, by simpa using hmissing⟩
  · split
    · exact .inr (.inl rfl)
    · next hfree =>
        refine .inr (.inr ⟨rfl, ?_⟩)
        by_cases hpresent : (disk.managed d).present
        · simp only [hpresent, Bool.true_and, Bool.not_eq_true', Bool.not_eq_false,
            Bool.and_eq_true, Option.isSome_iff_ne_none] at hfree
          exact .inr hfree.2
        · exact .inl (by simpa using hpresent)

theorem putBacks_keep {d : StorageDirectory} {data : β} (moved : List StorageDirectory)
    (disk : Disk β δ) (hfile : fileAt (disk.managed d []) = some data)
    (haside : fileAt (disk.setAside d []) = none)
    : fileAt ((leaves (each putBack moved disk)).managed d []) = some data := by
  induction moved generalizing disk with
  | nil => exact hfile
  | cons head rest ih =>
      rw [each]
      rcases putBack_cases head disk with ⟨hput, -⟩ | hput | ⟨hput, hfree⟩
      · rw [hput, ok_bind]
        exact ih disk hfile haside
      · rw [hput, error_bind]
        exact hfile
      · rw [hput, ok_bind]
        have hhead : d ≠ head := by
          rintro rfl
          rcases hfree with hmissing | hother
          · cases hroot : disk.managed d [] <;> simp_all [Contents.present, fileAt]
          · exact hother haside
        have hmanaged : (putInPlace head disk).managed d = disk.managed d := replaceAt_ne _ hhead _
        have hset : (putInPlace head disk).setAside d = disk.setAside d := replaceAt_ne _ hhead _
        exact ih _ (by rw [hmanaged, hfile]) (by rw [hset, haside])

-- The restore

section Restore

variable {schema : Schema δ} {archive safety : Archive β δ} {disk : Disk β δ}
variable {staged : Staging β} {fault : Option RestoreStep}

theorem untouched_start (hdisk : disk.Settled) (d : StorageDirectory)
    : Untouched disk staged { disk := { disk with staging := staged } } d :=
  ⟨rfl, hdisk.freshAside d, rfl, List.not_mem_nil, List.not_mem_nil⟩

theorem Swapped.of_sameFiles {w : Swap β δ} {t : Disk β δ} {d : StorageDirectory}
    (hs : Swapped disk staged w d) (h : SameFiles w.disk t)
    : Swapped disk staged { w with disk := t } d where
  managed := (congrFun h.managed d).trans hs.managed
  setAside := (congrFun h.setAside d).trans hs.setAside
  moved := hs.moved
  installed := hs.installed

theorem sameFiles_safety (safety : Archive β δ) (fault : Option BackupStep) {w : Disk β δ} {t : Disk β δ}
    (h : restoreBackup schema fault archive w = .error t)
    : SameFiles w (leaves (restoreBackup schema none safety t)) := by
  have hfirst := restoreBackup_files schema fault archive w
  rw [h] at hfirst
  have hsecond := restoreBackup_files schema none safety t
  exact ⟨hsecond.managed.trans hfirst.managed, hsecond.symlinked.trans hfirst.symlinked,
    hsecond.setAside.trans hfirst.setAside, hsecond.staging.trans hfirst.staging⟩

theorem swapDatabase_ok {w : Swap β δ} {t : Disk β δ}
    (h : restoreBackup schema (backupFault fault) archive w.disk = .ok t)
    : swapDatabase schema fault archive safety w = .ok { w with disk := t } := by
  simp [swapDatabase, h]

theorem swapDatabase_error {w : Swap β δ} {t : Disk β δ}
    (h : restoreBackup schema (backupFault fault) archive w.disk = .error t)
    : swapDatabase schema fault archive safety w
      = .error { w with disk := leaves (restoreBackup schema none safety t) } := by
  simp [swapDatabase, h]

/-- Where nothing staged is a plain file in the place of a directory, a restore is all or
nothing.
-/
theorem restoreManagedDocuments_allOrNothing (hdisk : disk.Settled)
    (hsafety : Captures schema safety disk)
    (hplain : ∀ staged, stageRecoveryDocuments archive.entries = some staged →
      ∀ d, fileAt (staged d []) = none)
    : AllOrNothing schema archive disk
        (restoreManagedDocuments schema fault archive safety disk) := by
  unfold restoreManagedDocuments
  split
  · exact ⟨rfl, rfl⟩
  · split
    · exact ⟨rfl, rfl⟩
    · next staged hstaged =>
        have hrooted : staged.Rooted := stageEntries_rooted (fun _ _ _ => rfl) hstaged
        obtain ⟨hok, herror⟩ := swapDirectories_spec fault
          (w := { disk := { disk with staging := staged } }) hdisk hrooted.absent (by decide) rfl
          (fun d _ => untouched_start hdisk d)
          (fun d hd => absurd (StorageDirectory.mem_all d) hd)
        cases hloop : each (swapDirectory fault) StorageDirectory.all
            ({ disk := { disk with staging := staged } } : Swap β δ) with
        | error w =>
            obtain ⟨hdatabase, hstate⟩ := herror w hloop
            obtain ⟨hmanaged, hsame⟩ :=
              undoSwap_managed hdisk hrooted (hplain staged hstaged) hstate
            exact ⟨by rw [hsame, hdatabase], hmanaged⟩
        | ok w =>
            obtain ⟨hdatabase, hswapped⟩ := hok w hloop
            rw [ok_bind]
            cases hrestore : restoreBackup schema (backupFault fault) archive w.disk with
            | ok t =>
                obtain ⟨-, head, hhead, ht⟩ := restoreBackup_ok hrestore
                have hfiles := restoreBackup_files schema (backupFault fault) archive w.disk
                rw [hrestore] at hfiles
                rw [swapDatabase_ok hrestore]
                refine ⟨⟨head, hhead, by simp [ht, DatabaseFile.content]⟩, fun d path => ?_⟩
                change fileAt (t.managed d path) = _
                rw [← stageRecoveryDocuments_files hstaged d path, ← (hswapped d).managed]
                exact congrArg (fun f => fileAt (f d path)) hfiles.managed
            | error t =>
                have hfiles := sameFiles_safety safety (backupFault fault) hrestore
                obtain ⟨hmanaged, hsame⟩ := undoSwap_managed
                  (w := { w with disk := leaves (restoreBackup schema none safety t) }) hdisk
                  hrooted (hplain staged hstaged)
                  fun d => .inr (.inr ((hswapped d).of_sameFiles hfiles))
                rw [swapDatabase_error hrestore]
                exact ⟨by rw [hsame]; exact restoreBackup_safety hsafety, hmanaged⟩

theorem setAside_run (d : StorageDirectory) (w : Swap β δ)
    : ∃ v, setAside (some (.backup .replace)) d w = .ok v
      ∧ v.disk.symlinked = w.disk.symlinked := by
  unfold LicenseTrack.setAside
  split
  · rw [if_neg (by simp)]
    exact ⟨_, rfl, rfl⟩
  · exact ⟨w, rfl, rfl⟩

theorem install_run (d : StorageDirectory) (w : Swap β δ)
    : ∃ v, install (some (.backup .replace)) d w = .ok v
      ∧ v.disk.symlinked = w.disk.symlinked := by
  unfold install
  split
  · rw [if_neg (by simp)]
    exact ⟨_, rfl, rfl⟩
  · exact ⟨w, rfl, rfl⟩

theorem swapDirectories_run (todo : List StorageDirectory) (w : Swap β δ)
    (hlinks : ∀ d, w.disk.symlinked d = false)
    : ∃ w', each (swapDirectory (some (.backup .replace))) todo w = .ok w' := by
  induction todo generalizing w with
  | nil => exact ⟨w, rfl⟩
  | cons head rest ih =>
      obtain ⟨v, hv, hsame⟩ := setAside_run head w
      obtain ⟨v', hv', hsame'⟩ := install_run head v
      obtain ⟨w', hw'⟩ := ih v' fun d => by rw [hsame', hsame, hlinks]
      refine ⟨w', ?_⟩
      rw [each, swapDirectory, hlinks, if_neg Bool.false_ne_true, hv, ok_bind, hv', ok_bind, hw']

theorem restoreManagedDocuments_keepsFile (schema : Schema δ) (archive safety : Archive β δ)
    (hdisk : disk.Settled)
    (hstaged : stageRecoveryDocuments archive.entries = some staged) {d : StorageDirectory}
    {data : β} (hfile : fileAt (staged d []) = some data)
    : ∃ after, restoreManagedDocuments schema (some (.backup .replace)) archive safety disk
        = .error after ∧ fileAt (after.managed d []) = some data := by
  have hrooted : staged.Rooted := stageEntries_rooted (fun _ _ _ => rfl) hstaged
  obtain ⟨w, hloop⟩ := swapDirectories_run StorageDirectory.all
    ({ disk := { disk with staging := staged } } : Swap β δ) hdisk.noLink
  obtain ⟨-, hswapped⟩ := (swapDirectories_spec _ hdisk hrooted.absent (by decide) rfl
    (fun d _ => untouched_start hdisk d)
    (fun d hd => absurd (StorageDirectory.mem_all d) hd)).1 w hloop
  cases hrestore : restoreBackup schema (some .replace) archive w.disk with
  | ok t => exact absurd rfl (restoreBackup_ok hrestore).1
  | error t =>
      have hfiles := sameFiles_safety safety (some .replace) hrestore
      have hs := (hswapped d).of_sameFiles hfiles
      refine ⟨undoSwap { w with disk := leaves (restoreBackup schema none safety t) }, ?_, ?_⟩
      · have hfault : ¬((some (.backup .replace) : Option RestoreStep) = some .makeStorageRoot
            ∨ (some (.backup .replace) : Option RestoreStep) = some .stage) := by simp
        simp only [restoreManagedDocuments, if_neg hfault, hstaged, hloop, ok_bind]
        rw [swapDatabase_error hrestore]
      · refine putBacks_keep _ _ ?_ ?_
        · have hname : (leaves (restoreBackup schema none safety t)).managed d = staged d :=
            hs.managed
          simp only [removeInstalled, hname]
          rw [if_neg]
          · exact hname ▸ hfile
          · rintro ⟨-, hdirectory⟩
            cases hroot : staged d [] with
            | none => simp [hroot, fileAt] at hfile
            | some node => cases node <;> simp_all [fileAt, isDirectory]
        · exact (congrArg (fun c => fileAt (c [])) hs.setAside).trans (hdisk.noFile d)

/-- Restoring a recovery archive is all or nothing, at whichever step it fails, exactly when the
archive is refused or holds no file under the very name of a managed directory.
-/
theorem restoreBackupArchive_allOrNothing_iff (archive : Archive β δ)
    (safety : Option (Archive β δ)) (hrecovery : archive.includesDocuments = true)
    (hdisk : disk.Settled) (hsafety : ∀ a, safety = some a → Captures schema a disk)
    : (∀ fault, AllOrNothing schema archive disk
        (restoreBackupArchive schema fault archive safety disk))
      ↔ archive.readable = true → safety ≠ none →
        stageRecoveryDocuments archive.entries ≠ none →
          ∀ d, archivedFile archive.entries d [] = none := by
  constructor
  · intro hall hreadable hgiven haccepted d
    obtain ⟨a, ha⟩ := Option.ne_none_iff_exists'.mp hgiven
    obtain ⟨staged, hstaged⟩ := Option.ne_none_iff_exists'.mp haccepted
    by_contra hfile
    obtain ⟨data, hdata⟩ := Option.ne_none_iff_exists'.mp hfile
    rw [← stageRecoveryDocuments_files hstaged] at hdata
    obtain ⟨after, hafter, hkept⟩ := restoreManagedDocuments_keepsFile schema archive a hdisk hstaged hdata
    have hfault := hall (some (.backup .replace))
    simp only [restoreBackupArchive, hreadable, hrecovery, ha, hafter, AllOrNothing,
      Bool.true_eq_false, if_false] at hfault
    rw [hfault.2, hdisk.noFile] at hkept
    cases hkept
  · intro hcondition fault
    unfold restoreBackupArchive
    split
    · exact ⟨rfl, rfl⟩
    · next hreadable =>
        rw [if_neg (by simp [hrecovery])]
        cases hgiven : safety with
        | none => exact ⟨rfl, rfl⟩
        | some a =>
            refine restoreManagedDocuments_allOrNothing hdisk (hsafety a hgiven)
              fun staged hstaged d => ?_
            rw [stageRecoveryDocuments_files hstaged]
            exact hcondition (by simpa using hreadable) (by simp [hgiven]) (by simp [hstaged]) d

end Restore

/-- Databases are numbers, all valid, and a migration leaves them as they are. -/
def plainSchema : Schema Nat where
  valid _ := true
  migrate := some

/-- A disk with one document and database 0. -/
def oneDocumentDisk : Disk String Nat where
  database := some { main := 0 }
  managed d path :=
    if d = .attachments then
      if path = [] then some .directory
      else if path = ["offer.pdf"] then some (.file "old") else none
    else none
  symlinked _ := false

/-- An archive with database 1 and one entry. -/
def oneEntryArchive (entry : ZipEntry String) : Archive String Nat where
  readable := true
  includesDocuments := true
  entries := [entry]
  database := 1

/-- What the safety archive of that disk holds. -/
def oneDocumentSafety : Archive String Nat where
  readable := true
  includesDocuments := true
  entries := [⟨["storage", "attachments", "offer.pdf"], false, true, "old"⟩]
  database := 0

theorem oneDocumentDisk_settled : oneDocumentDisk.Settled where
  rooted d hd := by
    by_cases h : d = .attachments
    · simp [oneDocumentDisk, Contents.present, h] at hd
    · funext path
      simp [oneDocumentDisk, h, absent]
  noFile d := by
    by_cases h : d = .attachments <;> simp [oneDocumentDisk, h, fileAt]
  noLink _ := rfl
  freshAside _ := rfl

theorem oneDocumentSafety_captures : Captures plainSchema oneDocumentSafety oneDocumentDisk :=
  ⟨rfl, rfl, rfl⟩

/-- An archive with one document below a managed directory is restored all or not at all. -/
theorem restoreBackupArchive_allOrNothing_oneDocument
    : AllOrNothing plainSchema
        (oneEntryArchive ⟨["storage", "attachments", "offer.pdf"], false, true, "new"⟩)
        oneDocumentDisk
        (restoreBackupArchive plainSchema (some (.backup .removeShm))
          (oneEntryArchive ⟨["storage", "attachments", "offer.pdf"], false, true, "new"⟩)
          (some oneDocumentSafety) oneDocumentDisk) := by
  refine (restoreBackupArchive_allOrNothing_iff _ _ rfl oneDocumentDisk_settled
    fun a ha => ?_).mpr (fun _ _ _ d => ?_) _
  · obtain rfl := Option.some.inj ha
    exact oneDocumentSafety_captures
  · cases d <;> decide

/-- An archive whose only entry is a file named like a managed directory: when the database
cannot be replaced, the file stays where the directory was.
-/
theorem restoreBackupArchive_losesDirectory
    : ¬∀ (archive safety : Archive String Nat) (disk : Disk String Nat),
        archive.includesDocuments = true → disk.Settled → Captures plainSchema safety disk →
          ∀ fault, AllOrNothing plainSchema archive disk
            (restoreBackupArchive plainSchema fault archive (some safety) disk) := by
  intro hclaim
  have hfault := hclaim (oneEntryArchive ⟨["storage", "attachments"], false, true, "new"⟩)
    oneDocumentSafety oneDocumentDisk rfl oneDocumentDisk_settled oneDocumentSafety_captures
    (some (.backup .replace))
  have hstaged : ∃ staged, stageRecoveryDocuments
      [(⟨["storage", "attachments"], false, true, "new"⟩ : ZipEntry String)] = some staged :=
    Option.isSome_iff_exists.mp (by decide)
  obtain ⟨staged, hstaged⟩ := hstaged
  have hfile : fileAt (staged .attachments []) = some "new" := by
    rw [stageRecoveryDocuments_files hstaged]
    decide
  obtain ⟨after, hafter, hkept⟩ := restoreManagedDocuments_keepsFile
    plainSchema (oneEntryArchive ⟨["storage", "attachments"], false, true, "new"⟩)
    oneDocumentSafety oneDocumentDisk_settled hstaged hfile
  have hresult : restoreBackupArchive plainSchema (some (.backup .replace))
      (oneEntryArchive ⟨["storage", "attachments"], false, true, "new"⟩) (some oneDocumentSafety)
      oneDocumentDisk = .error after := by
    simpa [restoreBackupArchive, oneEntryArchive] using hafter
  rw [hresult] at hfault
  rw [hfault.2, oneDocumentDisk_settled.noFile] at hkept
  cases hkept

end LicenseTrack
