import Mycelium.Shared.Store
import Mycelium.Logic.Ranking

/-!
# The rollup pipeline (`celery_worker/pipeline.py`)

The queries of the pipeline as functions of the rows they read, and
`rollup_clone` as one call that runs to its end, returning or raising. The
window function's `row_number` ranks rows with equal `period_end` in any order,
so a prune is given the ranking the server chose; the uuid, the new row's id and
its `created_at` are given as well.
-/

namespace Mycelium

/-! ## Retention -/

/-- `_RETAIN_COUNT_BY_TIER`, by the tier the backup was taken under. -/
def retainCount (backup : MemoryBackup) : Nat := (policyFor backup.subscriptionTier).retainCount

/-- `ranked` is an order in which `row_number() OVER (ORDER BY period_end DESC)` may number
`rows`. -/
def RanksByPeriodEnd (rows ranked : List MemoryBackup) : Prop :=
  Ranking.Ranks MemoryBackup.periodEnd rows ranked

instance (rows ranked : List MemoryBackup) : Decidable (RanksByPeriodEnd rows ranked) :=
  inferInstanceAs (Decidable (Ranking.Ranks _ _ _))

/-- The rows `_prune_stale_backups` selects: `rank > retain_count`. -/
def staleBackups (ranked : List MemoryBackup) : List MemoryBackup :=
  Ranking.beyond retainCount ranked

/-! ## Due dates -/

/-- `max(period_end)` over the clone's rows, NULL when it has none. -/
def lastEnd (backups : List MemoryBackup) (cloneId : Nat) : Option Int :=
  ((backups.filter fun b => b.cloneId = cloneId).map MemoryBackup.periodEnd).max?

/-- `coalesce(last_end, created_at)`. -/
def anchor (backups : List MemoryBackup) (clone : CloneProfile) : Int :=
  (lastEnd backups clone.id).getD clone.createdAt

/-- `anchor <= now - interval`, by the clone's current tier. -/
def isDue (override : Option Int) (now : Int) (backups : List MemoryBackup) (clone : CloneProfile) :
    Bool :=
  anchor backups clone ≤ now - (policyFor clone.subscriptionTier).interval override

/-- `find_due_clones`; the query leaves the order open. -/
def findDueClones {β : Type} (override : Option Int) (now : Int) (s : Store β) : List CloneProfile :=
  s.profiles.rows.filter (isDue override now s.backups.rows)

/-! ## One rollup -/

/-- The call of `rollup_clone` that raises without having taken effect. `deleteObject i` is the
deletion of the stale row number `i`, counted from 0. -/
inductive RollupFault where
  | putObject
  | commit
  | deleteObject (i : Nat)
  | pruneCommit
deriving DecidableEq, Repr

/-- What the server and `uuid4` choose during a rollup. -/
structure RollupChoice where
  uuid : Nat
  id : Nat
  createdAt : Int
  ranked : List MemoryBackup

/-- How a call of `rollup_clone` ends. -/
inductive RollupResult where
  | empty
  | backedUp (backup : MemoryBackup)
  | raised
deriving DecidableEq, Repr

variable {ι β : Type} (F : Format ι β)

/-- What the first half of `rollup_clone` computes from the row: the row, its payload's
`period_start`, and the instant it is stored as. `none` when the row is missing or empty or a step
raises. -/
def Format.readBuffer (buffer : Option (MemoryBuffer β)) :
    Option (MemoryBuffer β × Datetime) := do
  let row ← buffer
  if row.entryCount = 0 then none
  let payload ← F.payload row
  let periodStart ← F.periodStart payload
  return (row, periodStart)

/-- The clone has no row, or an empty one. -/
def nothingBuffered (buffer : Option (MemoryBuffer β)) : Bool :=
  match buffer with
  | none => true
  | some row => row.entryCount = 0

/-- `rollup_clone` up to and including its first commit; `none` when the choices are not ones the
server can make. -/
def archiveBuffer (s : Store β) (clone : CloneProfile) (now : Int) (choice : RollupChoice)
    (fault : Option RollupFault) : Option (Store β × RollupResult) :=
  if nothingBuffered (s.buffers clone.id) then some (s, .empty)
  else
    match F.readBuffer (s.buffers clone.id) with
    | none => some (s, .raised)
    | some (buffer, periodStart) =>
      let key := backupKey clone.id periodStart (.utc now) choice.uuid
      if fault = some .putObject then some (s, .raised)
      else if s.Fresh key then
        let uploaded := s.putObject key buffer.payloadBlob
        match periodStart.astimezoneUtc with
        | none => some (uploaded, .raised)
        | some start =>
          if fault = some .commit then some (uploaded, .raised)
          else
            let backup : MemoryBackup := ⟨choice.id, clone.id, start, now, buffer.entryCount, key,
              clone.subscriptionTier, choice.createdAt, none⟩
            match s.backups.insert backup with
            | none => none
            | some backups =>
              some ({ uploaded with
                backups := backups
                buffers := Function.update s.buffers clone.id none }, .backedUp backup)
      else none

/-- The stale rows gone, their objects with them. -/
def Store.prune (s : Store β) (stale : List MemoryBackup) : Store β :=
  { s.deleteObjects (stale.map MemoryBackup.storageKey) with
    backups := s.backups.filter fun b => b.id ∉ stale.map MemoryBackup.id }

/-- `_prune_stale_backups` and the commit after it; the flag tells whether both returned. The
objects of the stale rows are deleted one after another before the rows are. -/
def pruneStaleBackups (s : Store β) (cloneId : Nat) (ranked : List MemoryBackup)
    (fault : Option RollupFault) : Option (Store β × Bool) :=
  if RanksByPeriodEnd (s.backupsOf cloneId) ranked then
    let stale := staleBackups ranked
    let keys := stale.map MemoryBackup.storageKey
    some (match fault with
      | some (.deleteObject i) =>
        if i < stale.length then (s.deleteObjects (keys.take i), false) else (s.prune stale, true)
      | some .pruneCommit => (s.deleteObjects keys, false)
      | _ => (s.prune stale, true))
  else none

/-- `rollup_clone`. -/
def rollupClone (s : Store β) (clone : CloneProfile) (now : Int) (choice : RollupChoice)
    (fault : Option RollupFault) : Option (Store β × RollupResult) :=
  match archiveBuffer F s clone now choice fault with
  | some (committed, .backedUp backup) =>
    match pruneStaleBackups committed clone.id choice.ranked fault with
    | none => none
    | some (pruned, true) => some (pruned, .backedUp backup)
    | some (pruned, false) => some (pruned, .raised)
  | ended => ended

end Mycelium
