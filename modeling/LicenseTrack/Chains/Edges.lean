import LicenseTrack.Library.Digraph
import LicenseTrack.Conversion.PlannedEffect
import LicenseTrack.Renewal.UnlinkEffect

/-! Renewal edges between licences, as the four columns of both ends record them, and what the
renewal operations do to them.
-/

namespace LicenseTrack

open Library Relation

/-- An edge from a licence to one that renews it, recorded on either of them. -/
inductive ChainEdge (s : Store) (a b : Nat) : Prop
  | successor (l : License) (stored : s.license? a = some l) (renewed : l.renewedToId = some b)
  | predecessor (l : License) (stored : s.license? b = some l) (renews : a ∈ l.predecessorIds)

/-- What the edges read of a licence. -/
def License.chainLinks (l : License) : Option Nat × List Nat := (l.renewedToId, l.predecessorIds)

theorem chainLinks_of_core {a b : License} (h : b.core = a.core) : b.chainLinks = a.chainLinks := by
  have hc := License.core_chain h
  simp only [License.chainLinks, License.predecessorIds, License.cotermIds, hc]

theorem ChainEdge.of_agrees (rows : Table License) {s t : Store}
    (h : rows.Agrees License.chainLinks t.licenses) (hrows : s.licenses = rows) {a b : Nat}
    (he : ChainEdge t a b)
    : ChainEdge s a b := by
  subst hrows
  cases he with
  | successor l stored renewed =>
      obtain ⟨l', hl', hv⟩ := h.back stored
      exact .successor l' hl' ((congrArg Prod.fst hv).symm.trans renewed)
  | predecessor l stored renews =>
      obtain ⟨l', hl', hv⟩ := h.back stored
      have hp : l.predecessorIds = l'.predecessorIds := congrArg Prod.snd hv
      exact .predecessor l' hl' (hp ▸ renews)

/-- Both ends of every edge are stored. -/
def EndsStored (s : Store) : Prop :=
  ∀ a b, ChainEdge s a b → (∃ l, s.license? a = some l) ∧ ∃ l, s.license? b = some l

-- New licences

theorem LicenseAdded.row_back {s t : Store} {id : Nat} {predecessorIds : List Nat} {row : License}
    (h : LicenseAdded s t id predecessorIds row) {key : Nat} {l : License}
    (hl : t.license? key = some l)
    : (key = id ∧ l.core = (markRow predecessorIds id id row).core)
      ∨ (key ≠ id ∧ ∃ old, s.license? key = some old
          ∧ l.core = (markRow predecessorIds id key old).core) := by
  obtain ⟨marked, hm, hv⟩ := h.core.back hl
  rw [Table.get?_mapRows, Table.get?_insert, ← h.id_eq] at hm
  split at hm
  · next he =>
      obtain rfl := Option.some.inj hm
      exact .inl ⟨he, he ▸ hv⟩
  · next he =>
      obtain ⟨old, hold, rfl⟩ := Option.map_eq_some_iff.mp hm
      exact .inr ⟨he, old, hold, hv⟩

theorem LicenseAdded.row_forth {s t : Store} {id : Nat} {predecessorIds : List Nat} {row : License}
    (h : LicenseAdded s t id predecessorIds row) {key : Nat} {old : License}
    (hold : s.license? key = some old)
    : ∃ l, t.license? key = some l ∧ l.core = (markRow predecessorIds id key old).core := by
  have hne : key ≠ s.licenses.nextKey := Nat.ne_of_lt (Table.lt_nextKey_of_get? hold)
  have hold' : s.licenses.get? key = some old := hold
  refine h.core.forth ?_
  rw [Table.get?_mapRows, Table.get?_insert, if_neg hne, hold']
  rfl

theorem LicenseAdded.new_stored {s t : Store} {id : Nat} {predecessorIds : List Nat}
    {row : License} (h : LicenseAdded s t id predecessorIds row)
    : ∃ l, t.license? id = some l ∧ l.core = (markRow predecessorIds id id row).core := by
  refine h.core.forth ?_
  rw [Table.get?_mapRows, Table.get?_insert, h.id_eq, if_pos rfl]
  rfl

theorem LicenseAdded.not_stored {s t : Store} {id : Nat} {predecessorIds : List Nat}
    {row l : License} (h : LicenseAdded s t id predecessorIds row)
    : s.license? id ≠ some l := by
  rw [h.id_eq]
  exact fun hl => absurd ((Table.get?_nextKey s.licenses).symm.trans hl) (by simp)

theorem markRow_predecessorIds (predecessorIds : List Nat) (successorId id : Nat) (l : License)
    : (markRow predecessorIds successorId id l).predecessorIds = l.predecessorIds := by
  unfold markRow
  split <;> rfl

theorem LicenseAdded.chainEdge {s t : Store} {id : Nat} {predecessorIds : List Nat} {row : License}
    (h : LicenseAdded s t id predecessorIds row) {a b : Nat} (he : ChainEdge t a b)
    : ChainEdge s a b ∨ (a ∈ predecessorIds ∧ b = id) := by
  cases he with
  | successor l stored renewed =>
      rcases h.row_back stored with ⟨rfl, hv⟩ | ⟨hne, old, hold, hv⟩
      all_goals
        have hr := congrArg (·.renewedToId) (License.core_chain hv)
        simp only [renewed] at hr
        unfold markRow at hr
        split at hr
        · next hm => exact .inr ⟨hm, Option.some.inj hr⟩
      · rw [h.records.renewedTo] at hr
        cases hr
      · exact .inl (.successor old hold hr.symm)
  | predecessor l stored renews =>
      rcases h.row_back stored with ⟨rfl, hv⟩ | ⟨hne, old, hold, hv⟩
      all_goals
        have hp := congrArg Prod.snd (chainLinks_of_core hv)
        simp only [License.chainLinks, markRow_predecessorIds] at hp
        rw [hp] at renews
      · exact .inr ⟨(h.records.mem a).mp renews, rfl⟩
      · exact .inl (.predecessor old hold renews)

theorem PlannedLink.chainEdge {items : List (Nat × SourcingItem)} {licenseOf : Nat → Option Nat}
    {target successorId : Nat} {s t : Store} {successor : License}
    {predecessors : List (Nat × License)} {primary : Nat × License}
    (h : PlannedLink items licenseOf target s t successorId successor predecessors primary)
    {a b : Nat} (he : ChainEdge t a b)
    : ChainEdge s a b ∨ (a ∈ predecessors.map Prod.fst ∧ b = successorId) := by
  obtain rfl := h.result
  cases he with
  | successor l stored renewed =>
      rw [Store.license?_mapLicenses, Store.license?_modifyLicense, Option.map_map,
        Option.map_eq_some_iff] at stored
      obtain ⟨old, hold, rfl⟩ := stored
      simp only [Function.comp, markRow] at renewed
      split at renewed
      · next hm => exact .inr ⟨hm, (Option.some.inj renewed).symm⟩
      · split at renewed <;> exact .inl (.successor old hold renewed)
  | predecessor l stored renews =>
      rw [Store.license?_mapLicenses, Store.license?_modifyLicense, Option.map_map,
        Option.map_eq_some_iff] at stored
      obtain ⟨old, hold, rfl⟩ := stored
      simp only [Function.comp, markRow_predecessorIds] at renews
      split at renews
      · next hb =>
          obtain rfl := hb
          obtain rfl : old = successor := Option.some.inj (hold.symm.trans h.successor_eq)
          have hprimary : primary.1 ∈ predecessors.map Prod.fst :=
            List.mem_map_of_mem (List.mem_of_mem_head? h.head)
          simp only [License.predecessorIds, License.planned, Option.toList_some, License.cotermIds,
            List.mem_append, List.mem_singleton] at renews
          rcases renews with (rfl | rfl) | hc
          · exact .inr ⟨hprimary, rfl⟩
          · exact .inr ⟨hprimary, rfl⟩
          · split at hc
            · exact .inr ⟨hc, rfl⟩
            · exact .inl (.predecessor old hold (List.mem_append_right _ hc))
      · exact .inl (.predecessor old hold renews)

end LicenseTrack
