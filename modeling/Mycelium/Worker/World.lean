import Mycelium.Worker.Invariants

/-!
# All clones together

Each clone's stream, rows, objects and workers are a lane of the world, and a
step is a step of one lane. A resurrection is the one task that reads another
lane: the source's latest backup when it starts, and that backup's object when
it fetches it. An object key names its clone, so the lanes' objects are one
store. The checks a request makes before it selects the backup are not modelled
here, and a backup id is only fresh within its lane; both admit more runs.
-/

namespace Mycelium

variable {ι β : Type}

/-- The service as it serves clone `c`. -/
def Service.at (S : Service ι β) (c : Nat) : Service ι β := { S with cloneId := c }

abbrev World (ι β : Type) : Type := Nat → MemoryState ι β

namespace World

def initial : World ι β := fun _ => .initial

/-- The object store. -/
def object (w : World ι β) (key : ObjectKey) : Option β := (w key.cloneId).objects key

/-- `latest` is a row that `ORDER BY period_end DESC LIMIT 1` may return for its clone. -/
def LatestBackup (w : World ι β) (latest : MemoryBackup) : Prop :=
  latest ∈ (w latest.cloneId).backups ∧
    ∀ b ∈ (w latest.cloneId).backups, b.periodEnd ≤ latest.periodEnd

instance (w : World ι β) (latest : MemoryBackup) : Decidable (w.LatestBackup latest) :=
  inferInstanceAs (Decidable (_ ∧ _))

/-- The backup whose object the worker `t` of clone `c` is about to fetch. -/
def fetching (w : World ι β) (c t : Nat) : Option MemoryBackup :=
  match (w c).workers t with
  | some ⟨.resurrect _ latest .selected, _, _⟩ => some latest
  | _ => none

end World

/-- The backup a request has selected. -/
def Action.resurrects : Action β → Option MemoryBackup
  | .startResurrect _ _ latest => some latest
  | _ => none

/-- The worker that fetches an object, and what it gets. -/
def Action.fetches : Action β → Option (Nat × β)
  | .getObject t raw => some (t, raw)
  | _ => none

/-- What a step in the lane of `c` reads in another lane. -/
def World.Reads (w : World ι β) (c : Nat) (a : Action β) : Prop :=
  (∀ latest ∈ a.resurrects, latest.cloneId ≠ c ∧ w.LatestBackup latest) ∧
    ∀ x ∈ a.fetches, ∀ latest ∈ w.fetching c x.1, w.object latest.storageKey = some x.2

variable [DecidableEq β]

instance (w : World ι β) (c : Nat) (a : Action β) : Decidable (w.Reads c a) :=
  inferInstanceAs (Decidable (_ ∧ _))

/-- One step of clone `c`'s lane. -/
def World.step (S : Service ι β) (w : World ι β) (a : Nat × Action β) : Option (World ι β) :=
  if w.Reads a.1 a.2 then
    (Mycelium.step (S.at a.1) (w a.1) a.2).map fun s => Function.update w a.1 s
  else none

theorem World.step_eq {S : Service ι β} {w w' : World ι β} {c : Nat} {a : Action β}
    (h : w.step S (c, a) = some w') :
    w.Reads c a ∧ ∃ s, Mycelium.step (S.at c) (w c) a = some s ∧ w' = Function.update w c s := by
  unfold World.step at h
  split at h
  · rename_i reads
    obtain ⟨s, taken, rfl⟩ := Option.map_eq_some_iff.1 h
    exact ⟨reads, s, taken, rfl⟩
  · cases h

end Mycelium
