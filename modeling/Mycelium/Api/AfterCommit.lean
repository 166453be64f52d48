import Mycelium.Api.Requests

/-!
# A restore or a resurrection that fails

Both routes commit before they refresh the row, read its object back and decode
it. A request that raises there is answered with a 500 although its row has been
written; one that raises earlier has left the table as it was.
-/

namespace Mycelium

variable {ι β : Type} {A : Api ι β} {F : Format ι β} {s s' : Store β} {c : Choice}

/-- A step after the commit raises: the refresh, the read of the object, or the decoding of its
bytes. -/
def RaisesAfterCommit (F : Format ι β) (bytes : Option β) (fault : Option ApiFault) : Prop :=
  fault = some .refresh ∨ fault = some .readBack ∨ bytes.bind F.decodePayload = none

/-- The request commits a change of the backup table, and a step after that raises. A commit that
raises is one without effect. -/
def Request.BreaksOff (A : Api ι β) (s : Store β) (r : Request) : Prop :=
  match r.route with
  | .restoreOwnBackup backupId =>
    ∃ backup, getOwnBackup A s r.credentials backupId = .ok backup ∧
      r.choice.fault ≠ some .commit ∧ backup.restoredAt ≠ some r.choice.now ∧
      RaisesAfterCommit A.toFormat (s.objects backup.storageKey) r.choice.fault
  | .resurrect sourceProfileId =>
    ∃ profile latest, getOwnProfile A s r.credentials = .ok profile ∧
      Resurrects s profile sourceProfileId r.choice latest ∧
      RaisesAfterCommit A.toFormat (s.objects latest.storageKey) r.choice.fault
  | _ => False

theorem not_success_iff {status : Nat} {backup : MemoryBackup} :
    (afterCommit F s status backup c).success = false ↔
      RaisesAfterCommit F (s.objects backup.storageKey) c.fault := by
  rw [← Bool.not_eq_true, afterCommit_success, RaisesAfterCommit, Option.isSome_iff_ne_none]
  tauto

/-- Setting `restored_at` leaves the table as it was only if it had that value. -/
theorem setRestored_backups_iff {backup : MemoryBackup} (now : Int) (listed : backup ∈ s.backups) :
    (s.setRestored backup now).backups = s.backups ↔ backup.restoredAt = some now := by
  unfold Store.setRestored
  constructor
  · intro same
    have member : backup.restored now ∈ s.backups.modify backup.id (MemoryBackup.restored · now)
        (MemoryBackup.restored_id now) := by
      rw [Table.mem_modify]
      exact ⟨backup, listed, by rw [if_pos rfl]⟩
    have old : backup.restored now ∈ s.backups := same ▸ member
    have eq := Table.eq_of_key old listed (MemoryBackup.restored_id now backup)
    rw [← eq]
    rfl
  · intro already
    refine Table.modify_eq_self (MemoryBackup.restored_id now) fun b member found => ?_
    rw [Table.eq_of_key member listed found, MemoryBackup.restored, ← already]

/-- A resurrection adds a row. -/
theorem resurrected_backups_ne {b : MemoryBackup} {backups : Table MemoryBackup MemoryBackup.id}
    (inserted : s.backups.insert b = some backups) : backups ≠ s.backups := by
  rintro rfl
  exact Table.key_ne_of_insert inserted ((Table.mem_of_insert inserted).2 (.inr rfl)) rfl

/-- **What a failed restore or resurrection leaves**: the table as it was, unless a step after its
commit raised. -/
theorem failed_leaves_backups_iff (A : Api ι β) (s s' : Store β) (r : Request) (resp : Response ι)
    (writes : r.route.writesBackups = true) (h : handle A s r = some (s', resp)) :
    (resp.success = false → s'.backups = s.backups) ↔ ¬ r.BreaksOff A s := by
  obtain ⟨token, route, c⟩ := r
  cases route with
  | restoreOwnBackup backupId =>
    change restoreOwnBackup A s token backupId c = some (s', resp) at h
    show _ ↔ ¬ ∃ backup, getOwnBackup A s token backupId = .ok backup ∧ _
    cases own : getOwnBackup A s token backupId with
    | error e =>
      have same : s' = s := by
        unfold restoreOwnBackup depends at h
        rw [own] at h
        cases h
        rfl
      simp [same]
    | ok backup =>
      obtain ⟨_, _, listed, _, _⟩ := getOwnBackup_ok own
      have step := restoreOwnBackup_step own h
      cases step with
      | uncommitted failed => simp [failed]
      | committed succeeds =>
        have changed := setRestored_backups_iff c.now listed
        have raises : (afterCommit A.toFormat (s.setRestored backup c.now) 200 (backup.restored c.now)
            c).success = false ↔
            RaisesAfterCommit A.toFormat (s.objects backup.storageKey) c.fault := not_success_iff
        simp only [raises, changed, Except.ok.injEq, exists_eq_left', ne_eq, succeeds,
          not_false_eq_true, true_and]
        tauto
  | resurrect sourceProfileId =>
    change resurrect A s token sourceProfileId c = some (s', resp) at h
    show _ ↔ ¬ ∃ profile latest, getOwnProfile A s token = .ok profile ∧
      Resurrects s profile sourceProfileId c latest ∧ _
    unfold resurrect depends at h
    cases own : getOwnProfile A s token with
    | error e =>
      rw [own] at h
      cases h
      simp
    | ok profile =>
      rw [own] at h
      have step := resurrectFrom_step h
      simp only [Except.ok.injEq, exists_and_left, exists_eq_left']
      cases step with
      | refused e stops => simp [stops]
      | raised stops => simp [stops]
      | uncommitted key raw fresh stops =>
        have same : (s.putObject key raw).backups = s.backups := rfl
        simp [stops, same]
      | committed latest raw backups resurrects read fresh inserted =>
        have copied : (s.withCopy (resurrectedRow profile latest c).storageKey raw backups).objects
            (resurrectedRow profile latest c).storageKey = s.objects latest.storageKey :=
          (Store.objects_putObject raw).trans read.symm
        rw [not_success_iff, copied]
        constructor
        · rintro kept ⟨latest', resurrects', breaks⟩
          cases resurrects.newest.symm.trans resurrects'.newest
          exact resurrected_backups_ne inserted (kept breaks)
        · intro whole failed
          exact absurd ⟨latest, resurrects, failed⟩ whole
  | _ => cases writes

/-- The second clone with a backup, from day 0. -/
def oneBackup : Store (List MemoryItem) :=
  { twoClones with
    backups := ⟨[⟨1, 2, 0, 0, 0, ⟨2, 0, 0, 1⟩, .free, 0, none⟩], by decide⟩
    objects := fun key => if key = ⟨2, 0, 0, 1⟩ then some [] else none }

/-- A restore of it at 5, with the call that raises. -/
def restoreRequest (fault : ApiFault) : Request :=
  ⟨some "token", .restoreOwnBackup 1, { choiceAt 5 ⟨1, 0⟩ with fault := some fault }⟩

theorem restored_of_failed_request :
    ∃ s', handle Api.sample oneBackup (restoreRequest .readBack) =
        some (s', .internalServerError) ∧
      s'.backups.rows.map MemoryBackup.restoredAt = [some 5] ∧
      oneBackup.backups.rows.map MemoryBackup.restoredAt = [none] :=
  ⟨_, rfl, by decide, by decide⟩

theorem unchanged_of_failed_commit :
    ∃ s', handle Api.sample oneBackup (restoreRequest .commit) = some (s', .internalServerError) ∧
      s'.backups = oneBackup.backups := by
  refine ⟨_, rfl, ?_⟩
  have whole : ¬ (restoreRequest .commit).BreaksOff Api.sample oneBackup := by
    rintro ⟨_, _, commits, _⟩
    exact commits rfl
  exact (failed_leaves_backups_iff Api.sample oneBackup _ (restoreRequest .commit)
    .internalServerError rfl rfl).2 whole rfl

end Mycelium
