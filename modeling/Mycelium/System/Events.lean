import Mycelium.Api.Changes
import Mycelium.Worker.Flush
import Mycelium.Worker.Rollup

/-!
# The running system

The API and the workers over their common stores, one event after another: a
request, a flush, a forced rollup, or one step of a `run_rollup` pass. A pass
reads the clock and loads the due profiles when it starts, and then rolls the
clones up one by one from what it loaded, whatever has happened since. Several
passes may be under way; what an event does to a clone's data it does as a whole.

`run_rollup` catches what a rollup raises and rolls its session back. That expires
the profiles still to come, and reading an expired one outside an awaited call of
the session raises again, in the handler as well: the pass goes no further.
-/

namespace Mycelium

/-- The deployment: the API's settings, how Redis trims, and
`settings.rollup_interval_override_seconds`. -/
structure Deployment (ι β : Type) extends Api ι β where
  trimMode : TrimMode
  rollupIntervalOverride : Option Int

def Deployment.service {ι β : Type} (D : Deployment ι β) (cloneId : Nat) : Service ι β where
  toFormat := D.toFormat
  cloneId := cloneId
  nodeEntries := D.nodeEntries
  trimMode := D.trimMode

/-- A call of `run_rollup` under way: the `now` it took, and the profiles it has loaded and not
rolled up yet. -/
structure Pass where
  now : Int
  due : List CloneProfile
deriving DecidableEq, Repr

structure SystemState (β : Type) where
  store : Store β
  clock : Int
  passes : Nat → Option Pass
  /-- history: the row made by the `rollup_clone` call that has just returned, if the last event was
  one -/
  made : Option MemoryBackup

inductive Event where
  /-- time passes -/
  | tick (now : Int)
  | request (r : Request)
  | flush (cloneId : Nat) (fault : Option FlushFault)
  /-- `force_rollup_clone` -/
  | force (cloneId : Nat) (choice : RollupChoice) (fault : Option RollupFault)
  /-- `run_rollup` up to its loop; `due` is the order in which the query returned the clones -/
  | startPass (p : Nat) (due : List CloneProfile)
  /-- the next clone of the pass -/
  | passNext (p : Nat) (choice : RollupChoice) (fault : Option RollupFault)
  | endPass (p : Nat)

/-- What a call of `rollup_clone` has made. -/
def RollupResult.made : RollupResult → Option MemoryBackup
  | .backedUp backup => some backup
  | _ => none

/-- What is left of a pass when the call for its first clone has ended so. -/
def Pass.next (pass : Pass) : RollupResult → Option Pass
  | .raised => none
  | _ => some { pass with due := pass.due.tail }

variable {ι β : Type} (D : Deployment ι β)

namespace SystemState

/-- The rollup an event calls: the profile as loaded, and `now`. -/
def rollupOf (s : SystemState β) :
    Event → Option (CloneProfile × Int × RollupChoice × Option RollupFault)
  | .force cloneId choice fault =>
    (s.store.profiles.get? cloneId).map fun clone => (clone, s.clock, choice, fault)
  | .passNext p choice fault =>
    match s.passes p with
    | some ⟨now, clone :: _⟩ => some (clone, now, choice, fault)
    | _ => none
  | _ => none

/-- One event; `none` when it is not enabled. -/
def step (s : SystemState β) (e : Event) : Option (SystemState β) :=
  match e with
  | .tick now => if s.clock ≤ now then some { s with clock := now, made := none } else none
  | .request r =>
    if r.choice.now = s.clock then
      (serve D.toApi s.store r).map fun store => { s with store := store, made := none }
    else none
  | .flush cloneId fault =>
    some { s with store := (flushOneStream (D.service cloneId) s.store fault).1, made := none }
  | .force cloneId choice fault =>
    match s.store.profiles.get? cloneId with
    | none => some { s with made := none }
    | some clone =>
      (rollupClone D.toFormat s.store clone s.clock choice fault).map fun (store, result) =>
        { s with store := store, made := result.made }
  | .startPass p due =>
    if s.passes p = none ∧ due.Perm (findDueClones D.rollupIntervalOverride s.clock s.store) then
      some { s with passes := Function.update s.passes p (some ⟨s.clock, due⟩), made := none }
    else none
  | .passNext p choice fault =>
    match s.passes p with
    | some ⟨now, clone :: due⟩ =>
      (rollupClone D.toFormat s.store clone now choice fault).map fun (store, result) =>
        { s with
          store := store
          passes := Function.update s.passes p (Pass.next ⟨now, clone :: due⟩ result)
          made := result.made }
    | _ => none
  | .endPass p =>
    match s.passes p with
    | some ⟨_, []⟩ => some { s with passes := Function.update s.passes p none, made := none }
    | _ => none

end SystemState

/-- What an event can do to the rows and objects of the archive. -/
inductive SystemStep (s : SystemState β) (e : Event) : SystemState β → Prop where
  | other (s' : SystemState β) (noRollup : s.rollupOf e = none) (made : s'.made = none)
      (backups : s'.store.backups = s.store.backups) (objects : s'.store.objects = s.store.objects) :
      SystemStep s e s'
  | request (r : Request) (store : Store β) (isRequest : e = .request r)
      (served : serve D.toApi s.store r = some store) :
      SystemStep s e { s with store := store, made := none }
  | rollup (clone : CloneProfile) (now : Int) (choice : RollupChoice) (fault : Option RollupFault)
      (store : Store β) (result : RollupResult) (passes : Nat → Option Pass)
      (called : s.rollupOf e = some (clone, now, choice, fault))
      (ended : rollupClone D.toFormat s.store clone now choice fault = some (store, result)) :
      SystemStep s e ⟨store, s.clock, passes, result.made⟩

variable {D}

theorem SystemState.step_sound {s s' : SystemState β} {e : Event} (h : s.step D e = some s') :
    SystemStep D s e s' := by
  cases e with
  | tick now =>
    simp only [step] at h
    split at h
    · cases h
      exact .other _ rfl rfl rfl rfl
    · cases h
  | request r =>
    simp only [step] at h
    split at h
    · obtain ⟨store, served, rfl⟩ := Option.map_eq_some_iff.1 h
      exact .request r store rfl served
    · cases h
  | flush cloneId fault =>
    simp only [step] at h
    cases h
    obtain ⟨backups, objects⟩ := flushOneStream_archive (S := D.service cloneId) (s := s.store) fault
    exact .other _ rfl rfl backups objects
  | force cloneId choice fault =>
    simp only [step] at h
    split at h
    · rename_i missing
      cases h
      refine .other _ ?_ rfl rfl rfl
      rw [rollupOf, missing]
      rfl
    · rename_i clone found
      obtain ⟨⟨store, result⟩, ended, rfl⟩ := Option.map_eq_some_iff.1 h
      refine .rollup clone s.clock choice fault store result s.passes ?_ ended
      rw [rollupOf, found]
      rfl
  | startPass p due =>
    simp only [step] at h
    split at h
    · cases h
      exact .other _ rfl rfl rfl rfl
    · cases h
  | passNext p choice fault =>
    simp only [step] at h
    split at h
    · rename_i now clone due found
      obtain ⟨⟨store, result⟩, ended, rfl⟩ := Option.map_eq_some_iff.1 h
      refine .rollup clone now choice fault store result _ ?_ ended
      rw [rollupOf, found]
    · cases h
  | endPass p =>
    simp only [step] at h
    split at h
    · cases h
      exact .other _ rfl rfl rfl rfl
    · cases h

/-- The system with nothing under way. -/
def SystemState.start (store : Store β) (clock : Int) : SystemState β :=
  ⟨store, clock, fun _ => none, none⟩

def Deployment.sample : Deployment MemoryItem (List MemoryItem) where
  toApi := .sample
  trimMode := .approximate
  rollupIntervalOverride := none

end Mycelium
