import Mycelium.Shared.Models
import Mycelium.Logic.Table
import Mathlib.Logic.Function.Basic

/-!
# The stores together

Postgres, Redis and the object store as the API and the workers see them: the
tables by their primary keys, a stream for each clone, the objects by key, and
the tasks sent to the broker. Of the foreign keys only the one a stray stream could
break is looked at, `memory_buffers.clone_id`, and only where streams are found by
listing (`Store.rejectsBuffer`): the others refer to rows that the same request has
read, and no request deletes a user or a profile.
-/

namespace Mycelium

/-- A task the API has sent to the broker. -/
inductive Task where
  | flushCloneStream (cloneId : Nat)
  | forceRollupClone (cloneId : Nat)
deriving DecidableEq, Repr

structure Store (β : Type) where
  users : Table User User.id
  profiles : Table CloneProfile CloneProfile.id
  streams : Nat → Stream
  buffers : Nat → Option (MemoryBuffer β)
  backups : Table MemoryBackup MemoryBackup.id
  objects : ObjectKey → Option β
  tasks : List Task

namespace Store

variable {β : Type}

def empty : Store β where
  users := .empty
  profiles := .empty
  streams := fun _ => .empty
  buffers := fun _ => none
  backups := .empty
  objects := fun _ => none
  tasks := []

/-- `key` names no object, and no row is waiting for it to. -/
def Fresh (s : Store β) (key : ObjectKey) : Prop :=
  (s.objects key).isNone = true ∧ key ∉ s.backups.rows.map MemoryBackup.storageKey

instance (s : Store β) (key : ObjectKey) : Decidable (s.Fresh key) :=
  inferInstanceAs (Decidable (_ ∧ _))

def putObject (s : Store β) (key : ObjectKey) (data : β) : Store β :=
  { s with objects := Function.update s.objects key (some data) }

/-- `delete_object` of one key after another. -/
def deleteObjects (s : Store β) (keys : List ObjectKey) : Store β :=
  { s with objects := fun key => if key ∈ keys then none else s.objects key }

/-- The clone's rows. -/
def backupsOf (s : Store β) (cloneId : Nat) : List MemoryBackup :=
  s.backups.rows.filter fun b => b.cloneId = cloneId

variable {s : Store β} {key key' : ObjectKey} {keys : List ObjectKey}

theorem objects_putObject (data : β) : (s.putObject key data).objects key = some data :=
  Function.update_self ..

theorem objects_putObject_of_ne (other : key' ≠ key) (data : β) :
    (s.putObject key data).objects key' = s.objects key' :=
  Function.update_of_ne other ..

theorem objects_deleteObjects (kept : key ∉ keys) :
    (s.deleteObjects keys).objects key = s.objects key := if_neg kept

theorem objects_deleted (gone : key ∈ keys) : (s.deleteObjects keys).objects key = none :=
  if_pos gone

/-- A fresh key is not the key of a listed backup. -/
theorem Fresh.key_ne (fresh : s.Fresh key) {b : MemoryBackup} (listed : b ∈ s.backups) :
    b.storageKey ≠ key :=
  fun same => fresh.2 (same ▸ List.mem_map_of_mem listed)

theorem mem_backupsOf {cloneId : Nat} {b : MemoryBackup} :
    b ∈ s.backupsOf cloneId ↔ b ∈ s.backups ∧ b.cloneId = cloneId := by
  simp [backupsOf, Table.mem_rows]

theorem backupsOf_nodup (s : Store β) (cloneId : Nat) : (s.backupsOf cloneId).Nodup :=
  (List.Nodup.of_map _ s.backups.nodup).filter _

end Store

end Mycelium
