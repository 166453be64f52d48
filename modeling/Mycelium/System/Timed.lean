import Mycelium.System.Events
import Mycelium.Worker.Effects
import Mycelium.Worker.World

/-!
# Workers and the clock

The lanes of all clones under one clock. `run_rollup` reads the clock once and
passes the reading to every `rollup_clone` it calls; `force_rollup_clone` reads it
for its one call. Between the reading and the calls other writers, flushes,
rollups and resurrections go on, one external call at a time.

A pass works on one clone after another. One that a call has raised in may stop
before its list is empty, so `endPass` does not ask for an empty list.
-/

namespace Mycelium

/-- A `run_rollup` under way, with the clone and the worker of its current call. -/
structure RunningPass extends Pass where
  busy : Option (Nat × Nat)
deriving DecidableEq

structure TimedState (ι β : Type) where
  world : World ι β
  clock : Int
  profiles : Table CloneProfile CloneProfile.id
  passes : Nat → Option RunningPass
  /-- history: for each clone, the batches flushes have committed, with the clock at the commit -/
  flushed : Nat → List (Int × List ι)
  /-- history: the clock at the start of each pass -/
  started : Nat → Int
  /-- history: for each clone and worker, the clock at the start of the pass, or of the forced call,
  that its rollup belongs to -/
  reading : Nat → Nat → Int

inductive TimedAction (β : Type) where
  /-- time passes -/
  | tick (now : Int)
  /-- requests that write profiles -/
  | writeProfiles (profiles : Table CloneProfile CloneProfile.id)
  /-- a step in a clone's lane, the start of a rollup excepted -/
  | call (cloneId : Nat) (a : Action β)
  /-- `force_rollup_clone` up to its call of `rollup_clone`, by the worker `t` -/
  | force (cloneId t : Nat)
  /-- `run_rollup` up to its loop; `due` is the order in which the query returned the clones -/
  | startPass (p : Nat) (due : List CloneProfile)
  /-- the pass calls `rollup_clone` for its next clone, as the worker `t` -/
  | nextClone (p t : Nat)
  | cloneDone (p : Nat)
  | endPass (p : Nat)

def Action.startsRollup {β : Type} : Action β → Bool
  | .startRollup .. => true
  | _ => false

namespace TimedState

variable {ι β : Type}

def start (profiles : Table CloneProfile CloneProfile.id) (clock : Int) : TimedState ι β :=
  ⟨World.initial, clock, profiles, fun _ => none, fun _ => [], fun _ => clock, fun _ _ => clock⟩

/-- The rollup of clone `c` by the worker `t` goes by the clock reading `now`. -/
def reads (s : TimedState ι β) (c t : Nat) (now : Int) : TimedState ι β :=
  { s with reading := fun c' t' => if c' = c ∧ t' = t then now else s.reading c' t' }

/-- `find_due_clones`. -/
def due (override : Option Int) (s : TimedState ι β) : List CloneProfile :=
  s.profiles.rows.filter fun clone =>
    isDue override s.clock (s.world clone.id).backups clone

variable [DecidableEq β] (S : Service ι β) (override : Option Int) (s : TimedState ι β)

/-- The flush history after a step in the lane of `c`. -/
def record (c : Nat) (a : Action β) : Nat → List (Int × List ι) :=
  match a.commitsBuffer.bind (s.world c).committing with
  | some entries => Function.update s.flushed c (s.flushed c ++ [(s.clock, S.newItems entries)])
  | none => s.flushed

/-- A step in the lane of `c`. -/
def call (c : Nat) (a : Action β) : Option (TimedState ι β) :=
  (s.world.step S (c, a)).map fun world => { s with world := world, flushed := s.record S c a }

/-- One step; `none` when it is not enabled. -/
def step (a : TimedAction β) : Option (TimedState ι β) :=
  match a with
  | .tick now => if s.clock ≤ now then some { s with clock := now } else none
  | .writeProfiles profiles => some { s with profiles := profiles }
  | .call c a => if a.startsRollup then none else s.call S c a
  | .force c t =>
    match s.profiles.get? c with
    | none => some s
    | some clone =>
      (s.call S clone.id (.startRollup t clone.subscriptionTier s.clock)).map fun s' =>
        s'.reads clone.id t s.clock
  | .startPass p due =>
    if s.passes p = none ∧ due.Perm (s.due override) then
      some { s with
        passes := Function.update s.passes p (some ⟨⟨s.clock, due⟩, none⟩)
        started := Function.update s.started p s.clock }
    else none
  | .nextClone p t =>
    match s.passes p with
    | some ⟨⟨now, clone :: due⟩, none⟩ =>
      (s.call S clone.id (.startRollup t clone.subscriptionTier now)).map fun s' =>
        { s'.reads clone.id t (s.started p) with
          passes := Function.update s.passes p (some ⟨⟨now, due⟩, some (clone.id, t)⟩) }
    | _ => none
  | .cloneDone p =>
    match s.passes p with
    | some ⟨pass, some (c, t)⟩ =>
      if ((s.world c).workers t).isNone then
        some { s with passes := Function.update s.passes p (some ⟨pass, none⟩) }
      else none
    | _ => none
  | .endPass p =>
    match s.passes p with
    | some ⟨_, none⟩ => some { s with passes := Function.update s.passes p none }
    | _ => none

end TimedState

variable {ι β : Type} [DecidableEq β] (S : Service ι β)

/-- What a step is for the lanes: nothing, or a step in one of them. -/
inductive TimedStep (s : TimedState ι β) (a : TimedAction β) : TimedState ι β → Prop where
  | still (s' : TimedState ι β) (world : s'.world = s.world) (flushed : s'.flushed = s.flushed)
      (clock : s.clock ≤ s'.clock) : TimedStep s a s'
  | call (c : Nat) (x : Action β) (world : World ι β) (passes : Nat → Option RunningPass)
      (reading : Nat → Nat → Int) (label : a = .call c x ∨ x.startsRollup = true)
      (taken : s.world.step S (c, x) = some world) :
      TimedStep s a { s with
        world := world, passes := passes, flushed := s.record S c x, reading := reading }

variable {S} {override : Option Int} {s s' : TimedState ι β} {a : TimedAction β}

theorem TimedState.call_eq {c : Nat} {x : Action β} (h : s.call S c x = some s') :
    ∃ world, s.world.step S (c, x) = some world ∧
      s' = { s with world := world, flushed := s.record S c x } := by
  obtain ⟨world, taken, rfl⟩ := Option.map_eq_some_iff.1 h
  exact ⟨world, taken, rfl⟩

theorem TimedState.step_sound (h : s.step S override a = some s') : TimedStep S s a s' := by
  cases a with
  | tick now =>
    simp only [step] at h
    split at h
    · rename_i later
      cases h
      exact .still _ rfl rfl later
    · cases h
  | writeProfiles profiles =>
    cases h
    exact .still _ rfl rfl le_rfl
  | call c x =>
    simp only [step] at h
    split at h
    · cases h
    · obtain ⟨world, taken, rfl⟩ := call_eq h
      exact .call c x world s.passes s.reading (.inl rfl) taken
  | force c t =>
    simp only [step] at h
    split at h
    · cases h
      exact .still _ rfl rfl le_rfl
    · obtain ⟨after, called, rfl⟩ := Option.map_eq_some_iff.1 h
      obtain ⟨world, taken, rfl⟩ := call_eq called
      exact .call _ _ world s.passes _ (.inr rfl) taken
  | startPass p due =>
    simp only [step] at h
    split at h
    · cases h
      exact .still _ rfl rfl le_rfl
    · cases h
  | nextClone p t =>
    simp only [step] at h
    split at h
    · obtain ⟨after, called, rfl⟩ := Option.map_eq_some_iff.1 h
      obtain ⟨world, taken, rfl⟩ := call_eq called
      exact .call _ _ world _ _ (.inr rfl) taken
    · cases h
  | cloneDone p =>
    simp only [step] at h
    split at h
    · split at h
      · cases h
        exact .still _ rfl rfl le_rfl
      · cases h
    · cases h
  | endPass p =>
    simp only [step] at h
    split at h
    · cases h
      exact .still _ rfl rfl le_rfl
    · cases h

/-! ## The clock reading a rollup goes by -/

section Readings

omit [DecidableEq β]

/-- The `now` of a rollup. -/
def Worker.rollsUpAt (w : Worker ι β) : Option Int :=
  match w.job with
  | .rollup _ now _ => some now
  | _ => none

def MemoryState.rollsUpAt (s : MemoryState ι β) (t : Nat) : Option Int :=
  (s.workers t).bind Worker.rollsUpAt

theorem Worker.rollsUpAt_next (w : Worker ι β) : w.next.bind Worker.rollsUpAt = none := by
  cases found : w.next with
  | none => rfl
  | some w' =>
    obtain ⟨again, rfl⟩ := Worker.next_eq found
    rfl

/-- What rolls up after the slot of `t` became `x`. -/
theorem rollsUpAt_of_slot {s s' : MemoryState ι β} {t : Nat} {x : Option (Worker ι β)}
    (workers : s'.workers = Function.update s.workers t x)
    (goes : ∀ now, x.bind Worker.rollsUpAt = some now → s.rollsUpAt t = some now) (t' : Nat)
    (now : Int) (after : s'.rollsUpAt t' = some now) : s.rollsUpAt t' = some now := by
  rw [MemoryState.rollsUpAt, workers] at after
  by_cases same : t' = t
  · subst same
    rw [Function.update_self] at after
    exact goes now after
  · rw [Function.update_of_ne same] at after
    exact after

end Readings

/-- A rollup keeps the `now` it was started with. -/
theorem rollsUpAt_step {s s' : MemoryState ι β} {x : Action β} (other : x.startsRollup = false)
    (h : step S s x = some s') :
    ∀ t now, s'.rollsUpAt t = some now → s.rollsUpAt t = some now := by
  cases step_sound h with
  | append fresh => exact fun _ _ => id
  | spawn free starts =>
    refine rollsUpAt_of_slot rfl fun now after => ?_
    cases x <;> simp only [Action.spawns, reduceCtorEq, Option.some.injEq, Prod.mk.injEq] at starts
      <;> obtain ⟨rfl, rfl⟩ := starts
    · cases after
    · cases other
    · cases after
  | readBuffer here | putObject here | commitBackup here | selectStale here | deleteObject here
  | die here =>
    refine rollsUpAt_of_slot rfl fun now after => ?_
    rw [MemoryState.rollsUpAt, here]
    exact after
  | ends here quit | fail here quit | trim here | revert here | revertGone here | commitPrune here
  | commitCopy here =>
    refine rollsUpAt_of_slot rfl fun now after => ?_
    rw [Worker.rollsUpAt_next] at after
    cases after
  | _ =>
    refine rollsUpAt_of_slot rfl fun now after => ?_
    cases after

/-- A rollup that starts goes by the `now` it is given. -/
theorem rollsUpAt_start {s s' : MemoryState ι β} {t : Nat} {tier : SubscriptionTier} {now : Int}
    (h : step S s (.startRollup t tier now) = some s') (t' : Nat) :
    s'.rollsUpAt t' = if t' = t then some now else s.rollsUpAt t' := by
  change s.spawn t (.rollup tier now .start) = some s' at h
  unfold MemoryState.spawn at h
  split at h
  · cases h
    change (Function.update s.workers t _ t').bind Worker.rollsUpAt = _
    by_cases same : t' = t
    · rw [if_pos same, same, Function.update_self]
      rfl
    · rw [if_neg same, Function.update_of_ne same]
      rfl
  · cases h

/-- A pass's `now` is the clock at its start, and every rollup's that of the pass or the forced call
it belongs to. -/
structure ReadingsOk (s : TimedState ι β) : Prop where
  passes : ∀ p pass, s.passes p = some pass → s.started p = pass.now
  workers : ∀ c t now, (s.world c).rollsUpAt t = some now → s.reading c t = now

omit [DecidableEq β] in
theorem ReadingsOk.start (profiles : Table CloneProfile CloneProfile.id) (clock : Int) :
    ReadingsOk (TimedState.start profiles clock : TimedState ι β) where
  passes _ _ found := by cases found
  workers _ _ _ found := by cases found

omit [DecidableEq β] in
/-- The pass `p` is now `pass`, or over. -/
theorem ReadingsOk.setPass (ok : ReadingsOk s) {p : Nat} {x : Option RunningPass}
    (known : ∀ pass, x = some pass → s.started p = pass.now) :
    ReadingsOk { s with passes := Function.update s.passes p x } where
  passes := (Function.forall_update_iff s.passes fun p x =>
    ∀ pass, x = some pass → s.started p = pass.now).2 ⟨known, fun p' _ => ok.passes p'⟩
  workers := ok.workers

/-- A rollup of clone `c` starts by the reading it is given. -/
theorem ReadingsOk.startRollup (ok : ReadingsOk s) {c t : Nat} {tier : SubscriptionTier} {now : Int}
    (h : s.call S c (.startRollup t tier now) = some s') : ReadingsOk (s'.reads c t now) := by
  obtain ⟨world, taken, rfl⟩ := TimedState.call_eq h
  obtain ⟨-, lane, moved, rfl⟩ := World.step_eq taken
  refine ⟨ok.passes, fun c' t' n found => ?_⟩
  change (Function.update s.world c lane c').rollsUpAt t' = some n at found
  change (if c' = c ∧ t' = t then now else s.reading c' t') = n
  by_cases here : c' = c
  · subst here
    rw [Function.update_self, rollsUpAt_start moved] at found
    by_cases same : t' = t
    · rw [if_pos same] at found
      rw [if_pos ⟨rfl, same⟩]
      exact Option.some.inj found
    · rw [if_neg same] at found
      rw [if_neg fun both => same both.2]
      exact ok.workers c' t' n found
  · rw [Function.update_of_ne here] at found
    rw [if_neg fun both => here both.1]
    exact ok.workers c' t' n found

theorem ReadingsOk.preserved (ok : ReadingsOk s) (h : s.step S override a = some s') :
    ReadingsOk s' := by
  cases a with
  | tick now =>
    simp only [TimedState.step] at h
    split at h
    · cases h
      exact ⟨ok.passes, ok.workers⟩
    · cases h
  | writeProfiles profiles =>
    cases h
    exact ⟨ok.passes, ok.workers⟩
  | call c x =>
    simp only [TimedState.step] at h
    split at h
    · cases h
    · rename_i other
      obtain ⟨world, taken, rfl⟩ := TimedState.call_eq h
      obtain ⟨-, lane, moved, rfl⟩ := World.step_eq taken
      refine ⟨ok.passes, ?_⟩
      refine (Function.forall_update_iff s.world fun c lane =>
        ∀ t now, lane.rollsUpAt t = some now → s.reading c t = now).2 ⟨?_, fun c' _ => ok.workers c'⟩
      exact fun t now found =>
        ok.workers c t now (rollsUpAt_step (Bool.eq_false_of_not_eq_true other) moved t now found)
  | force c t =>
    simp only [TimedState.step] at h
    split at h
    · cases h
      exact ok
    · obtain ⟨after, called, rfl⟩ := Option.map_eq_some_iff.1 h
      exact ok.startRollup called
  | startPass p due =>
    simp only [TimedState.step] at h
    split at h
    · cases h
      refine ⟨fun p' pass found => ?_, ok.workers⟩
      change Function.update s.started p s.clock p' = pass.now
      change Function.update s.passes p _ p' = some pass at found
      by_cases here : p' = p
      · rw [here, Function.update_self] at found ⊢
        cases found
        rfl
      · rw [Function.update_of_ne here] at found ⊢
        exact ok.passes p' pass found
    · cases h
  | nextClone p t =>
    simp only [TimedState.step] at h
    split at h
    · rename_i now clone due found
      obtain ⟨after, called, rfl⟩ := Option.map_eq_some_iff.1 h
      have known := ok.passes p _ found
      have started : after.started = s.started := by
        obtain ⟨world, taken, rfl⟩ := TimedState.call_eq called
        rfl
      have passes : after.passes = s.passes := by
        obtain ⟨world, taken, rfl⟩ := TimedState.call_eq called
        rfl
      rw [known]
      have on := (ok.startRollup called).setPass (p := p)
        (x := some ⟨⟨now, due⟩, some (clone.id, t)⟩) (by rintro _ ⟨⟩; exact started ▸ known)
      change ReadingsOk { after.reads clone.id t now with passes := Function.update after.passes p _ }
        at on
      rwa [passes] at on
    · cases h
  | cloneDone p =>
    simp only [TimedState.step] at h
    split at h
    · rename_i pass c t found
      split at h
      · cases h
        refine ok.setPass ?_
        rintro _ ⟨⟩
        exact (ok.passes p _ found).trans rfl
      · cases h
    · cases h
  | endPass p =>
    simp only [TimedState.step] at h
    split at h
    · cases h
      exact ok.setPass fun _ none => by cases none
    · cases h

end Mycelium
