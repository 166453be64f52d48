import Mycelium.Api.Routers
import Mycelium.Logic.HighWater
import Mycelium.Worker.Effects

/-!
# The stream's safety valve (`append_memory`, `write_memory`)

The writers of one clone's stream as they run beside each other and beside trims:
`append_memory` is two commands, XADD and XLEN, and `write_memory` compares the
length it got with `MEMORY_STREAM_MAXLEN` before it sends `flush_clone_stream`.
Each of the three is a step; any number of writers and trims come between. The
stream and its writers are a store with a high-water alarm.
-/

namespace Mycelium

/-- The clone, and the settings the valve depends on. -/
structure Valve where
  cloneId : Nat
  nodeEntries : Nat
  memoryStreamMaxlen : Int

structure ValveState where
  stream : Stream
  /-- the writers between their XADD and their decision -/
  writers : Nat → Option HighWater.Point
  tasks : List Task

inductive ValveAction where
  | xadd (w : Nat) (content capturedAt : String) (id : StreamId) (newNode : Bool)
  | xlen (w : Nat)
  /-- `if length >= MEMORY_STREAM_MAXLEN`, with the task if it is sent -/
  | decide (w : Nat)
  /-- a removal of entries, and the stream after it -/
  | trim (after : Stream)

def ValveAction.appends : ValveAction → Option StreamEntry
  | .xadd _ content capturedAt id _ => some ⟨id, content, capturedAt⟩
  | _ => none

def ValveAction.trims : ValveAction → Bool
  | .trim _ => true
  | _ => false

def ValveState.start : ValveState := ⟨.empty, fun _ => none, []⟩

/-- One step; `none` when it is not enabled. -/
def Valve.step (V : Valve) (s : ValveState) (a : ValveAction) : Option ValveState :=
  match a with
  | .xadd w content capturedAt id newNode =>
    if (s.writers w).isNone ∧ s.stream.lastId < id then
      some { s with
        stream := s.stream.xadd V.nodeEntries newNode ⟨id, content, capturedAt⟩
        writers := Function.update s.writers w (some .added) }
    else none
  | .xlen w =>
    match s.writers w with
    | some .added =>
      some { s with writers := Function.update s.writers w (some (.counted s.stream.length)) }
    | _ => none
  | .decide w =>
    match s.writers w with
    | some (.counted length) =>
      let decided := { s with writers := Function.update s.writers w none }
      if V.memoryStreamMaxlen ≤ length then
        some { decided with tasks := s.tasks ++ [.flushCloneStream V.cloneId] }
      else some decided
    | _ => none
  | .trim after =>
    if after.entries.Sublist s.stream.entries ∧ after.lastId = s.stream.lastId then
      some { s with stream := after }
    else none

/-! ## The valve is a high-water alarm -/

def ValveState.highWater (s : ValveState) : HighWater.State Nat StreamEntry :=
  ⟨s.stream.entries, s.writers⟩

def ValveAction.highWater : ValveAction → HighWater.Action Nat StreamEntry
  | .xadd w content capturedAt id _ => .add w ⟨id, content, capturedAt⟩
  | .xlen w => .count w
  | .decide w => .decide w
  | .trim after => .remove after.entries

@[simp] theorem ValveAction.highWater_adds (a : ValveAction) : a.highWater.adds = a.appends := by
  cases a <;> rfl

@[simp] theorem ValveAction.highWater_removes (a : ValveAction) :
    a.highWater.removes = a.trims := by
  cases a <;> rfl

variable {V : Valve} {s s' : ValveState} {a : ValveAction}

theorem Valve.step_highWater (h : V.step s a = some s') :
    HighWater.step s.highWater a.highWater = some s'.highWater := by
  cases a with
  | xadd w content capturedAt id newNode =>
    simp only [step] at h
    split at h
    · rename_i enabled
      cases h
      simp only [ValveState.highWater, ValveAction.highWater, HighWater.step, enabled.1,
        if_true, Stream.entries_xadd]
    · cases h
  | xlen w =>
    simp only [step] at h
    split at h
    · rename_i here
      cases h
      simp only [ValveState.highWater, ValveAction.highWater, HighWater.step, here]
      rfl
    · cases h
  | decide w =>
    simp only [step] at h
    split at h
    · rename_i length here
      have decided : HighWater.step s.highWater (.decide w) =
          some ⟨s.stream.entries, Function.update s.writers w none⟩ := by
        simp only [ValveState.highWater, HighWater.step, here]
      split at h <;> cases h <;> exact decided
    · cases h
  | trim after =>
    simp only [step] at h
    split at h
    · rename_i enabled
      cases h
      simp only [ValveState.highWater, ValveAction.highWater, HighWater.step, enabled.1, if_true]
    · cases h

/-- The alarm is the task. -/
theorem Valve.sends_of_alarms (h : V.step s a = some s')
    (alarms : HighWater.Alarms V.memoryStreamMaxlen s.highWater a.highWater) :
    s'.tasks = s.tasks ++ [.flushCloneStream V.cloneId] := by
  obtain ⟨w, n, label, here, reached⟩ := alarms
  cases a <;> cases label
  change s.writers w = some (.counted n) at here
  simp only [step, here, if_pos reached] at h
  cases h
  rfl

theorem Valve.run_highWater {as : List ValveAction} (run : Run.exec V.step s as = some s') :
    Run.exec HighWater.step s.highWater (as.map ValveAction.highWater) = some s'.highWater :=
  Run.exec_map (fun _ _ _ => step_highWater) run

/-! ## What the steps stand for -/

/-- `trim_up_to`, in either mode, is a removal. -/
theorem Valve.step_trimUpTo (mode : TrimMode) (last : StreamId) :
    V.step s (.trim (s.stream.trimUpTo V.nodeEntries mode last)) =
      some { s with stream := s.stream.trimUpTo V.nodeEntries mode last } := by
  exact if_pos ⟨Stream.entries_xtrim_sublist .., Stream.lastId_trimUpTo ..⟩

/-- So is every step of the workers of the clone that appends nothing. -/
theorem Valve.step_worker {ι β : Type} [DecidableEq β] {S : Service ι β} {w w' : MemoryState ι β}
    {x : Action β} (base : Base S w) (taken : Mycelium.step S w x = some w')
    (other : x.appends = none) (here : s.stream = w.stream) :
    V.step s (.trim w'.stream) = some { s with stream := w'.stream } := by
  have within := base.live_shrinks taken other
  have lastId := lastId_kept taken other
  rw [← here] at within lastId
  exact if_pos ⟨within, lastId⟩

/-- `write_memory` is the three steps of a writer, one after another. -/
theorem Valve.run_of_writeMemory {ι β : Type} {A : Api ι β} {store store' : Store β}
    {credentials : Option String} {payload : MemoryWrite} {c : Choice} {profile : CloneProfile}
    {status : Nat} {body : Body ι} (own : getOwnProfile A store credentials = .ok profile)
    (h : writeMemory A store credentials payload c = some (store', .ok status body)) (w : Nat) :
    Run.exec (Valve.step ⟨profile.id, A.nodeEntries, A.memoryStreamMaxlen⟩)
      ⟨store.streams profile.id, fun _ => none, store.tasks⟩
      [.xadd w (A.strip payload.content) (A.isoformat (payload.capturedAt.getD (.utc c.now)))
        c.entryId c.newNode, .xlen w, .decide w] =
      some ⟨store'.streams profile.id, fun _ => none, store'.tasks⟩ := by
  unfold writeMemory depends at h
  rw [own] at h
  simp only [validated] at h
  split at h
  · split at h
    · cases h
    · split at h
      · rename_i fresh
        split at h
        · cases h
        · split at h
          · rename_i reached
            split at h
            · cases h
            · cases h
              simp [Run.exec, step, fresh, reached]
          · rename_i short
            cases h
            simp [Run.exec, step, fresh, short]
      · cases h
  · cases h

/-! ## The valve is never missed -/

/-- **The safety valve is never missed.** When no writer is between its XADD and its decision and the
stream is at the limit, a flush has been sent after the last append. Whoever reads the stream between
that task and now sees every entry that is there now, and whoever reads it later does so as long as
nothing has been trimmed since. -/
theorem valve_never_missed (V : Valve) (as : List ValveAction) {newest : StreamEntry}
    (run : Run.exec V.step .start as = some s) (idle : ∀ w, s.writers w = none)
    (full : V.memoryStreamMaxlen ≤ s.stream.length)
    (last : s.stream.entries.getLast? = some newest) :
    ∃ before a after s₁ s₂, as = before ++ a :: after ∧ Run.exec V.step .start before = some s₁ ∧
      V.step s₁ a = some s₂ ∧ s₂.tasks = s₁.tasks ++ [.flushCloneStream V.cloneId] ∧
      newest ∈ s₁.stream.entries ∧ (∀ b ∈ after, b.appends = none) ∧
      (∀ mid rest r, after = mid ++ rest → Run.exec V.step s₂ mid = some r →
        s.stream.entries.Sublist r.stream.entries) ∧
      ∀ more r, (∀ b ∈ more, b.trims = false) → Run.exec V.step s more = some r →
        s.stream.entries.Sublist r.stream.entries := by
  have nonempty : s.stream.entries ≠ [] := by
    rintro none
    rw [none] at last
    cases last
  obtain ⟨_, _, _, s₁', _, split, first', -, alarms, quiet⟩ :=
    HighWater.announced_of_full (.inl rfl) (Valve.run_highWater run) idle nonempty full
  obtain ⟨before, back, rfl, rfl, tail⟩ := List.map_eq_append_iff.1 split
  obtain ⟨a, after, rfl, rfl, rfl⟩ := List.map_eq_cons_iff.1 tail
  have quiet : ∀ b ∈ after, b.appends = none := by
    intro b member
    rw [← ValveAction.highWater_adds]
    exact quiet _ (List.mem_map_of_mem member)
  rw [Run.exec_append] at run
  obtain ⟨s₁, first, run⟩ := Option.bind_eq_some_iff.1 run
  obtain ⟨s₂, taken, later⟩ := Run.exec_cons run
  obtain rfl : s₁.highWater = s₁' := Option.some.inj ((Valve.run_highWater first).symm.trans first')
  -- the task is sent between two states with the same stream, and from then on it only shrinks
  have seen : ∀ (mid rest : List ValveAction) (r : ValveState), after = mid ++ rest →
      Run.exec V.step s₂ mid = some r → s.stream.entries.Sublist r.stream.entries := by
    intro mid rest r whole looked
    rw [whole, Run.exec_append, looked, Option.bind_some] at later
    refine HighWater.sublist_of_run (Valve.run_highWater later) fun b member => ?_
    obtain ⟨x, inside, rfl⟩ := List.mem_map.1 member
    rw [ValveAction.highWater_adds]
    exact quiet x (whole ▸ List.mem_append_right mid inside)
  have sent := HighWater.sublist_of_step (Valve.step_highWater taken) (by
    obtain ⟨w, n, label, -, -⟩ := alarms
    rw [label]
    rfl)
  refine ⟨before, a, after, s₁, s₂, rfl, first, taken, Valve.sends_of_alarms taken alarms, ?_, quiet,
    seen, ?_⟩
  · exact (sent.subset ((seen [] after s₂ rfl rfl).subset (List.mem_of_getLast? last)))
  · intro more r kept run
    refine HighWater.sublist_of_kept (Valve.run_highWater run) fun b member => ?_
    obtain ⟨x, inside, rfl⟩ := List.mem_map.1 member
    rw [ValveAction.highWater_removes]
    exact kept x inside

/-- A valve with room for one entry, on clone 1. -/
def Valve.sample : Valve := ⟨1, 100, 2⟩

/-- Two writers append before either counts; a trim takes one of three entries away. -/
def threeWrites : List ValveAction :=
  [.xadd 0 "a" "2026-01-01T00:00:00+00:00" ⟨1, 0⟩ false,
    .xadd 1 "b" "2026-01-01T00:00:00+00:00" ⟨2, 0⟩ false, .xlen 0, .decide 0,
    .xadd 0 "c" "2026-01-01T00:00:00+00:00" ⟨3, 0⟩ false, .xlen 1,
    .trim ⟨[[⟨⟨2, 0⟩, "b", "2026-01-01T00:00:00+00:00"⟩, ⟨⟨3, 0⟩, "c", "2026-01-01T00:00:00+00:00"⟩]],
      ⟨3, 0⟩⟩, .xlen 0, .decide 0, .decide 1]

theorem valve_not_missed_by_three_writes :
    ∃ s, Run.exec Valve.sample.step .start threeWrites = some s ∧
      ∃ before a after s₁ s₂, threeWrites = before ++ a :: after ∧
        Run.exec Valve.sample.step .start before = some s₁ ∧ Valve.sample.step s₁ a = some s₂ ∧
        s₂.tasks = s₁.tasks ++ [.flushCloneStream 1] ∧ ∀ b ∈ after, b.appends = none := by
  refine ⟨_, rfl, ?_⟩
  obtain ⟨before, a, after, s₁, s₂, split, first, taken, sent, -, quiet, -, -⟩ :=
    valve_never_missed Valve.sample threeWrites rfl (fun | 0 | 1 | _ + 2 => rfl) (by decide) rfl
  exact ⟨before, a, after, s₁, s₂, split, first, taken, sent, quiet⟩

end Mycelium
