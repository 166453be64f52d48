import Mycelium.Worker.Interleaving

/-!
# One flush (`celery_worker/flush.py`)

`flush_one_stream` as one call that runs to its end, returning or raising, with
no other task on the clone under way.
-/

namespace Mycelium

/-- The external call of `flush_one_stream` that raises. The XTRIM may have taken effect before it
raised, and the commit of the except branch may raise as well. -/
inductive FlushFault where
  | readAll
  | getBuffer
  | commit
  | trim (applied reverted : Bool)
deriving DecidableEq, Repr

/-- How a call of `flush_one_stream` ends. -/
inductive FlushResult where
  | flushed (entries : Nat)
  | raised
deriving DecidableEq, Repr

variable {ι β : Type} (S : Service ι β) (s : Store β)

/-- The row of the clone written. -/
def Store.setBuffer (cloneId : Nat) (row : MemoryBuffer β) : Store β :=
  { s with buffers := Function.update s.buffers cloneId (some row) }

def Store.setStream (cloneId : Nat) (stream : Stream) : Store β :=
  { s with streams := Function.update s.streams cloneId stream }

/-- `flush_one_stream`, in a session with no transaction open, for a clone that has a profile. The row
refers to the profile, and nothing deletes one; `flushCall` is the flush of any listed id. -/
def flushOneStream (fault : Option FlushFault) : Store β × FlushResult :=
  let entries := (s.streams S.cloneId).entries
  if fault = some .readAll then (s, .raised)
  else if entries = [] then (s, .flushed 0)
  else if fault = some .getBuffer then (s, .raised)
  else
    match S.payloadOf (s.buffers S.cloneId) with
    | none => (s, .raised)
    | some existing =>
      if fault = some .commit then (s, .raised)
      else
        let committed := s.setBuffer S.cloneId (S.row (existing ++ S.newItems entries))
        let trimmed := committed.setStream S.cloneId (S.trim entries (s.streams S.cloneId))
        match fault with
        | some (.trim applied reverted) =>
          let after := if applied then trimmed else committed
          (if reverted then after.setBuffer S.cloneId (S.row existing) else after, .raised)
        | _ => (trimmed, .flushed entries.length)

@[simp] theorem Store.setBuffer_backups (cloneId : Nat) (row : MemoryBuffer β) :
    (s.setBuffer cloneId row).backups = s.backups := rfl

@[simp] theorem Store.setBuffer_objects (cloneId : Nat) (row : MemoryBuffer β) :
    (s.setBuffer cloneId row).objects = s.objects := rfl

@[simp] theorem Store.setStream_backups (cloneId : Nat) (stream : Stream) :
    (s.setStream cloneId stream).backups = s.backups := rfl

@[simp] theorem Store.setStream_objects (cloneId : Nat) (stream : Stream) :
    (s.setStream cloneId stream).objects = s.objects := rfl

variable {S s}

/-- A flush leaves the archive as it is. -/
theorem flushOneStream_archive (fault : Option FlushFault) :
    (flushOneStream S s fault).1.backups = s.backups ∧
      (flushOneStream S s fault).1.objects = s.objects := by
  unfold flushOneStream
  simp only
  split
  · exact ⟨rfl, rfl⟩
  · split
    · exact ⟨rfl, rfl⟩
    · split
      · exact ⟨rfl, rfl⟩
      · split
        · exact ⟨rfl, rfl⟩
        · split
          · exact ⟨rfl, rfl⟩
          · split
            · rename_i applied reverted _ _ _
              cases applied <;> cases reverted <;> simp
            · simp

end Mycelium
