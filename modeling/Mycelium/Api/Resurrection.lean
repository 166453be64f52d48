import Mycelium.Api.Routers

/-!
# What `resurrect_from` and `restore_own_backup` answer and leave

`ResurrectStep` and `RestoreStep` say everything the two routes can do, with the
response of each case: both commit first and answer with `_detail_response`, which
reads the object back and decodes it.
-/

namespace Mycelium

variable {ι β : Type} {A : Api ι β} {F : Format ι β} {s s' : Store β} {resp : Response ι}
  {profile : CloneProfile} {sourceProfileId : Int} {c : Choice}

def Response.success : Response ι → Bool
  | .ok .. => true
  | _ => false

/-- The response of a route whose commit has succeeded, from the stores it left. -/
def afterCommit (F : Format ι β) (s : Store β) (status : Nat) (backup : MemoryBackup) (c : Choice) :
    Response ι :=
  if c.fault = some .refresh then .internalServerError else detailResponse F s status backup c

/-- The row `resurrect_from` makes of the source's latest backup. -/
def resurrectedRow (profile : CloneProfile) (latest : MemoryBackup) (c : Choice) : MemoryBackup :=
  ⟨c.id, profile.id, latest.periodStart, latest.periodEnd, latest.entryCount,
    backupKey profile.id (.utc latest.periodStart) (.utc latest.periodEnd) c.uuid,
    profile.subscriptionTier, c.createdAt, some c.now⟩

/-- The copy stored, and the table with its row. -/
def Store.withCopy (s : Store β) (key : ObjectKey) (raw : β)
    (backups : Table MemoryBackup MemoryBackup.id) : Store β :=
  { s.putObject key raw with backups := backups }

/-- The resurrection finds `latest` to copy, and no call up to its commit raises. -/
structure Resurrects (s : Store β) (profile : CloneProfile) (sourceProfileId : Int) (c : Choice)
    (latest : MemoryBackup) : Prop where
  other : sourceProfileId ≠ profile.id
  source : ∃ source, s.profiles.lookup sourceProfileId = some source ∧
    source.status ≠ activeStatus ∧ LatestOf (s.backupsOf source.id) (some latest)
  newest : c.latest = some latest
  read : (s.objects latest.storageKey).isSome = true
  succeeds : c.fault ≠ some .getObject ∧ c.fault ≠ some .putObject ∧ c.fault ≠ some .commit

/-- Everything `resurrect_from` can do. -/
inductive ResurrectStep (F : Format ι β) (s : Store β) (profile : CloneProfile)
    (sourceProfileId : Int) (c : Choice) : Store β → Response ι → Prop where
  | refused (e : HttpError) (stops : ∀ latest, ¬ Resurrects s profile sourceProfileId c latest) :
      ResurrectStep F s profile sourceProfileId c s (.error e)
  | raised (stops : ∀ latest, ¬ Resurrects s profile sourceProfileId c latest) :
      ResurrectStep F s profile sourceProfileId c s .internalServerError
  | uncommitted (key : ObjectKey) (raw : β) (fresh : s.Fresh key)
      (stops : ∀ latest, ¬ Resurrects s profile sourceProfileId c latest) :
      ResurrectStep F s profile sourceProfileId c (s.putObject key raw) .internalServerError
  | committed (latest : MemoryBackup) (raw : β) (backups : Table MemoryBackup MemoryBackup.id)
      (resurrects : Resurrects s profile sourceProfileId c latest)
      (read : s.objects latest.storageKey = some raw)
      (fresh : s.Fresh (resurrectedRow profile latest c).storageKey)
      (inserted : s.backups.insert (resurrectedRow profile latest c) = some backups) :
      ResurrectStep F s profile sourceProfileId c
        (s.withCopy (resurrectedRow profile latest c).storageKey raw backups)
        (afterCommit F (s.withCopy (resurrectedRow profile latest c).storageKey raw backups) 201
          (resurrectedRow profile latest c) c)

theorem resurrectFrom_step (h : resurrectFrom F s profile sourceProfileId c = some (s', resp)) :
    ResurrectStep F s profile sourceProfileId c s' resp := by
  unfold resurrectFrom at h
  split at h
  · rename_i self
    cases h
    exact .refused _ fun _ r => r.other self
  · rename_i other
    split at h
    · rename_i missing
      cases h
      refine .refused _ fun _ r => ?_
      obtain ⟨_, found, _⟩ := r.source
      cases missing.symm.trans found
    · rename_i source found
      split at h
      · rename_i active
        cases h
        refine .refused _ fun _ r => ?_
        obtain ⟨_, again, inactive, _⟩ := r.source
        cases found.symm.trans again
        exact inactive active
      · rename_i inactive
        split at h
        · rename_i isLatest
          split at h
          · rename_i nothing
            cases h
            exact .refused _ fun _ r => by cases nothing.symm.trans r.newest
          · rename_i latest newest
            rw [newest] at isLatest
            have same : ∀ {latest'}, Resurrects s profile sourceProfileId c latest' →
                latest' = latest := fun r => by cases newest.symm.trans r.newest; rfl
            split at h
            · rename_i fails
              cases h
              exact .raised fun _ r => r.succeeds.1 fails
            · rename_i getObject
              split at h
              · rename_i missing
                cases h
                refine .raised fun _ r => ?_
                have read := r.read
                rw [same r, missing] at read
                cases read
              · rename_i raw read
                simp only at h
                split at h
                · rename_i fails
                  cases h
                  exact .raised fun _ r => r.succeeds.2.1 fails
                · rename_i putObject
                  split at h
                  · rename_i fresh
                    split at h
                    · rename_i fails
                      cases h
                      exact .uncommitted _ raw fresh fun _ r => r.succeeds.2.2 fails
                    · rename_i commit
                      split at h
                      · cases h
                      · rename_i backups inserted
                        have committed := ResurrectStep.committed (F := F) latest raw backups
                          ⟨other, ⟨source, found, inactive, isLatest⟩, newest, by simp [read],
                            getObject, putObject, commit⟩ read fresh inserted
                        unfold afterCommit at committed
                        split at h
                        · rename_i refresh
                          rw [if_pos refresh] at committed
                          cases h
                          exact committed
                        · rename_i refresh
                          rw [if_neg refresh] at committed
                          cases h
                          exact committed
                  · cases h
        · cases h

/-- The backup's `restored_at` set. -/
def Store.setRestored (s : Store β) (backup : MemoryBackup) (now : Int) : Store β :=
  { s with
    backups := s.backups.modify backup.id (MemoryBackup.restored · now)
      (MemoryBackup.restored_id now) }

theorem Store.mem_setRestored {backup b : MemoryBackup} {now : Int} :
    b ∈ (s.setRestored backup now).backups ↔
      ∃ x ∈ s.backups, b = if x.id = backup.id then x.restored now else x :=
  @Table.mem_modify _ _ _ _ _ _ _ (MemoryBackup.restored_id now) _

/-- Everything `restore_own_backup` can do for the backup its dependency found. -/
inductive RestoreStep (F : Format ι β) (s : Store β) (backup : MemoryBackup) (c : Choice) :
    Store β → Response ι → Prop where
  | uncommitted (failed : c.fault = some .commit) :
      RestoreStep F s backup c s .internalServerError
  | committed (succeeds : c.fault ≠ some .commit) :
      RestoreStep F s backup c (s.setRestored backup c.now)
        (afterCommit F (s.setRestored backup c.now) 200 (backup.restored c.now) c)

theorem restoreOwnBackup_step {credentials : Option String} {backupId : Int} {backup : MemoryBackup}
    (own : getOwnBackup A s credentials backupId = .ok backup)
    (h : restoreOwnBackup A s credentials backupId c = some (s', resp)) :
    RestoreStep A.toFormat s backup c s' resp := by
  unfold restoreOwnBackup depends at h
  rw [own] at h
  simp only at h
  split at h
  · rename_i commit
    cases h
    exact .uncommitted commit
  · rename_i commit
    have committed : RestoreStep A.toFormat s backup c (s.setRestored backup c.now) _ :=
      .committed commit
    unfold afterCommit at committed
    split at h
    · rename_i refresh
      rw [if_pos refresh] at committed
      cases h
      exact committed
    · rename_i refresh
      rw [if_neg refresh] at committed
      cases h
      exact committed

/-- The detail response succeeds when the bytes are read and decode. -/
theorem afterCommit_success {status : Nat} {backup : MemoryBackup} :
    (afterCommit F s status backup c).success = true ↔
      c.fault ≠ some .refresh ∧ c.fault ≠ some .readBack ∧
        ((s.objects backup.storageKey).bind F.decodePayload).isSome = true := by
  unfold afterCommit detailResponse
  split
  · rename_i refresh
    simp [Response.success, refresh]
  · rename_i refresh
    split
    · rename_i readBack
      simp [Response.success, readBack]
    · rename_i readBack
      split
      · rename_i undecoded
        simp [Response.success, undecoded]
      · rename_i payload decoded
        simp [Response.success, decoded, refresh, readBack]

/-- A resurrection that is answered with a success has committed. -/
theorem resurrect_success {credentials : Option String} (own : getOwnProfile A s credentials =
      .ok profile) (h : resurrect A s credentials sourceProfileId c = some (s', resp))
    (success : resp.success = true) :
    ∃ latest raw backups, Resurrects s profile sourceProfileId c latest ∧
      s.backups.insert (resurrectedRow profile latest c) = some backups ∧
      s' = s.withCopy (resurrectedRow profile latest c).storageKey raw backups := by
  unfold resurrect depends at h
  rw [own] at h
  have step := resurrectFrom_step h
  cases step with
  | refused e => cases success
  | raised => cases success
  | uncommitted => cases success
  | committed latest raw backups resurrects read fresh inserted =>
    exact ⟨latest, raw, backups, resurrects, inserted, rfl⟩

end Mycelium
