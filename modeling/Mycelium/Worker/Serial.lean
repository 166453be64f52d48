import Mycelium.Worker.Effects

/-!
# One task at a time

When tasks do not overlap, the archived payloads, the row and the stream, one
after another, are the accepted entries in order (`Settled`), except between a
flush's commit and its trim, when the batch is in the row and in the stream as
well (`Unsettled`). A flush whose trim raised is in that position until its
except branch has written the earlier contents back. `Serial` is the invariant;
it asks of a trim that it drop exactly the batch.
-/

namespace Mycelium

variable {ι β : Type}

namespace MemoryState

/-- No task is in progress. -/
def Idle (s : MemoryState ι β) : Prop := ∀ t, s.workers t = none

end MemoryState

/-- The start of a task. -/
def Action.starts : Action β → Bool
  | .startFlush .. | .startRollup .. | .startResurrect .. => true
  | _ => false

/-- A trim whose reply was lost, or a worker's death. -/
def Action.abrupt : Action β → Bool
  | .trimUnanswered _ | .die _ => true
  | _ => false

/-- A task starts when none is in progress, at most one external call of a task fails, and one that
fails has not taken effect. -/
structure MemoryState.OneTask (s : MemoryState ι β) (a : Action β) : Prop where
  alone : a.starts = true → s.Idle
  once : ∀ t ∈ a.fails, ∀ w ∈ s.workers t, w.faults = 0
  clean : a.abrupt = false

variable (S : Service ι β)

/-- Archived payloads, row and stream are the accepted entries in order. -/
def Service.Settled (s : MemoryState ι β) : Prop :=
  S.stored s ++ S.newItems s.stream.entries = S.newItems s.accepted

/-- A flush has appended `entries` to `existing` and not trimmed the stream. -/
def Service.Unsettled (s : MemoryState ι β) (entries : List StreamEntry) (existing : List ι) : Prop :=
  S.rowPayload s = existing ++ S.newItems entries ∧
    ∃ later, s.stream.entries = entries ++ later ∧
      S.stored s ++ S.newItems later = S.newItems s.accepted

/-- What holds while a task is in progress, by the point it has reached. -/
def Service.Phase (s : MemoryState ι β) (w : Worker ι β) : Prop :=
  match w.job with
  | .flush _ (.read entries) | .flush _ (.locked entries _ _) =>
    S.Settled s ∧ entries <+: s.stream.entries
  | .flush _ (.committed entries existing) => S.Unsettled s entries existing
  | .flush _ (.reverting entries existing) => S.Unsettled s entries existing ∧ w.faults ≠ 0
  | .rollup _ _ (.read _ payload _) | .rollup _ _ (.uploaded _ payload _ _) =>
    S.Settled s ∧ payload = S.rowPayload s
  | _ => S.Settled s

structure Serial (s : MemoryState ι β) : Prop where
  base : Base S s
  single : ∀ t t', s.workers t ≠ none → s.workers t' ≠ none → t = t'
  idle : s.Idle → S.Settled s
  phase : ∀ t w, s.workers t = some w → S.Phase s w

/-- Where a flush trims, exactly its batch leaves the stream. -/
def Service.TrimsBatch (s : MemoryState ι β) (a : Action β) : Prop :=
  ∀ t, a = .trim t → ∀ entries ∈ s.committed t, ∀ later, s.stream.entries = entries ++ later →
    (S.trim entries s.stream).entries = later

variable {S} {s s' : MemoryState ι β} {a : Action β}

theorem Serial.initial : Serial S .initial where
  base := Base.initial
  single := fun _ _ here => absurd rfl here
  idle := fun _ => by simp [Service.Settled, Service.stored, rowPayload_none, MemoryState.initial,
    Service.newItems]
  phase := by rintro t w ⟨⟩

theorem Service.Settled.same (settled : S.Settled s) (same : Same S s s') : S.Settled s' := by
  rw [Settled, stored_of_eq same.archived same.row, same.live, same.accepted]
  exact settled

/-- A task about to start its next call. -/
theorem Service.Phase.next {w w' : Worker ι β} (settled : S.Settled s) (h : w.next = some w') :
    S.Phase s w' := by
  obtain ⟨again, rfl⟩ := Worker.next_eq h
  exact settled

/-- Where a call can return or raise with nothing written, nothing is pending. -/
theorem Service.Phase.settled_of_canQuit {job : Job ι β} {n : Nat}
    (phase : S.Phase s ⟨job, true, n⟩) (quit : job.CanQuit) : S.Settled s := by
  cases job with
  | flush again point =>
    cases point with
    | start => exact phase
    | read => exact phase.1
    | locked => exact phase.1
    | committed => exact quit.elim
    | reverting => exact quit.elim
  | rollup tier now point =>
    cases point with
    | start => exact phase
    | uploaded => exact phase.1
    | read => exact quit.elim
    | committed => exact quit.elim
    | pruning => exact quit.elim
  | resurrect => exact quit.elim

/-- The first call of a task to fail is not the one that writes the contents back. -/
theorem Service.Phase.settled_of_fail {job : Job ι β} (phase : S.Phase s ⟨job, true, 0⟩)
    (other : ¬ job.Committed) : S.Settled s := by
  cases job with
  | flush again point =>
    cases point with
    | start => exact phase
    | read => exact phase.1
    | locked => exact phase.1
    | committed => exact (other trivial).elim
    | reverting => exact absurd rfl phase.2
  | rollup tier now point =>
    cases point with
    | start => exact phase
    | read => exact phase.1
    | uploaded => exact phase.1
    | committed => exact phase
    | pruning => exact phase
  | resurrect => exact phase

/-- A write in the middle of a task. -/
theorem Service.Phase.append {w : Worker ι β} {e : StreamEntry} (phase : S.Phase s w)
    (accepted : s'.accepted = s.accepted ++ [e])
    (live : s'.stream.entries = s.stream.entries ++ [e])
    (archived : s'.archived = s.archived) (row : S.rowPayload s' = S.rowPayload s) :
    S.Phase s' w := by
  have settled : S.Settled s → S.Settled s' := by
    intro settled
    unfold Service.Settled at *
    simp only [stored_of_eq archived row, live, accepted, Service.newItems, List.map_append,
      ← List.append_assoc] at settled ⊢
    rw [settled]
  have unsettled : ∀ entries existing, S.Unsettled s entries existing →
      S.Unsettled s' entries existing := by
    rintro entries existing ⟨same, later, split, eq⟩
    refine ⟨row.trans same, later ++ [e], by rw [live, split, List.append_assoc], ?_⟩
    simp only [stored_of_eq archived row, accepted, Service.newItems, List.map_append,
      ← List.append_assoc] at eq ⊢
    rw [eq]
  have front : ∀ entries, entries <+: s.stream.entries → entries <+: s'.stream.entries := by
    intro entries within
    rw [live]
    exact within.trans (List.prefix_append _ _)
  obtain ⟨job, alive, n⟩ := w
  cases job with
  | flush again point =>
    cases point with
    | start => exact settled phase
    | read => exact ⟨settled phase.1, front _ phase.2⟩
    | locked => exact ⟨settled phase.1, front _ phase.2⟩
    | committed => exact unsettled _ _ phase
    | reverting => exact ⟨unsettled _ _ phase.1, phase.2⟩
  | rollup tier now point =>
    cases point with
    | start => exact settled phase
    | read => exact ⟨settled phase.1, phase.2.trans row.symm⟩
    | uploaded => exact ⟨settled phase.1, phase.2.trans row.symm⟩
    | committed => exact settled phase
    | pruning => exact settled phase
  | resurrect => exact settled phase

/-- A step of `t` while no other worker has a task. -/
theorem Serial.moved {t : Nat} {x : Option (Worker ι β)} (base : Base S s')
    (others : ∀ t', t' ≠ t → s.workers t' = none)
    (workers : s'.workers = Function.update s.workers t x) (idle : x = none → S.Settled s')
    (phase : ∀ w, x = some w → S.Phase s' w) : Serial S s' := by
  have elsewhere : ∀ t', t' ≠ t → s'.workers t' = none := fun t' other => by
    rw [workers, Function.update_of_ne other, others t' other]
  have here : s'.workers t = x := by rw [workers, Function.update_self]
  have only : ∀ t', s'.workers t' ≠ none → t' = t := fun t' busy => by
    by_contra other
    exact busy (elsewhere t' other)
  refine ⟨base, fun t₁ t₂ h₁ h₂ => (only t₁ h₁).trans (only t₂ h₂).symm, ?_, ?_⟩
  · exact fun all => idle (here.symm.trans (all t))
  · intro t' w found
    have same := only t' (by rw [found]; exact nofun)
    rw [same, here] at found
    exact phase w found

/-- The worker `t`, the only one, goes on with its task. -/
theorem Serial.goesOn {t : Nat} {w : Worker ι β} (base : Base S s')
    (others : ∀ t', t' ≠ t → s.workers t' = none)
    (workers : s'.workers = Function.update s.workers t (some w)) (phase : S.Phase s' w) :
    Serial S s' := by
  refine .moved base others workers nofun ?_
  rintro w' ⟨⟩
  exact phase

theorem Serial.others (inv : Serial S s) {t : Nat} {w : Worker ι β} (here : s.workers t = some w)
    (t' : Nat) (other : t' ≠ t) : s.workers t' = none := by
  by_contra busy
  exact other (inv.single t' t busy (by rw [here]; exact nofun))

/-- A step of `t` that ends its call with everything settled. -/
theorem Serial.finished {t : Nat} {w : Worker ι β} (base : Base S s')
    (others : ∀ t', t' ≠ t → s.workers t' = none)
    (workers : s'.workers = Function.update s.workers t w.next) (settled : S.Settled s') :
    Serial S s' :=
  .moved base others workers (fun _ => settled) fun _ next => .next settled next

/-- What the transaction of a flush found is the row's payload. -/
theorem Base.existing_eq (base : Base S s) {t again n : Nat} {entries : List StreamEntry}
    {loaded : Option (MemoryBuffer β)} {existing : List ι}
    (here : s.workers t = some ⟨.flush again (.locked entries loaded existing), true, n⟩)
    (present : loaded = none → s.buffer = none) : existing = S.rowPayload s := by
  have found := (base.workers _ _ here).2 rfl
  cases loaded with
  | none =>
    have empty : existing = [] := found
    rw [empty, rowPayload_none (present rfl)]
  | some r =>
    obtain ⟨_, same, row⟩ := found
    exact (rowPayload_some same row).symm

/-- A flush's append leaves its batch in the row and in the stream. -/
theorem Service.Settled.flushed {entries : List StreamEntry} {existing : List ι}
    (settled : S.Settled s) (front : entries <+: s.stream.entries)
    (found : existing = S.rowPayload s) (accepted : s'.accepted = s.accepted)
    (live : s'.stream.entries = s.stream.entries) (archived : s'.archived = s.archived)
    (row : S.rowPayload s' = S.rowPayload s ++ S.newItems entries) :
    S.Unsettled s' entries existing := by
  obtain ⟨later, split⟩ := front
  refine ⟨by rw [row, found], later, by rw [live, split], ?_⟩
  have eq : S.stored s ++ S.newItems s.stream.entries = S.newItems s.accepted := settled
  rw [stored_of_flush archived row, accepted, ← eq, ← split]
  simp [Service.newItems]

/-- Writing the earlier contents back takes the batch out of the row. -/
theorem Service.Unsettled.reverted {entries : List StreamEntry} {existing : List ι}
    (unsettled : S.Unsettled s entries existing) (accepted : s'.accepted = s.accepted)
    (live : s'.stream.entries = s.stream.entries) (archived : s'.archived = s.archived)
    (row : S.rowPayload s' = existing) : S.Settled s' := by
  obtain ⟨before, later, split, eq⟩ := unsettled
  rw [Service.stored, before] at eq
  rw [Service.Settled, Service.stored, archived, row, live, split, accepted, ← eq]
  simp [Service.newItems]

/-- Archiving the row moves its items behind the archived ones. -/
theorem Service.Settled.archived {payload : List ι} (settled : S.Settled s)
    (same : payload = S.rowPayload s) (accepted : s'.accepted = s.accepted)
    (live : s'.stream.entries = s.stream.entries)
    (archived : s'.archived = s.archived ++ [payload]) (row : S.rowPayload s' = []) :
    S.Settled s' := by
  have stored : S.stored s' = S.stored s := by
    rw [Service.stored, Service.stored, archived, row, same]
    simp
  rw [Service.Settled, stored, live, accepted]
  exact settled

variable [DecidableEq β]

/-- **A step of a lone task keeps archive, row and stream in order.** -/
theorem Serial.preserved (inv : Serial S s) (h : step S s a = some s') (serial : s.OneTask a)
    (trims : S.TrimsBatch s a) : Serial S s' := by
  have base := inv.base
  have base' := base.preserved h
  have step := step_sound h
  cases step with
  | append fresh =>
    have live := Stream.entries_xadd S.nodeEntries
    refine ⟨base', inv.single, fun all => ?_, fun t w found => ?_⟩
    · exact Service.Phase.append (w := ⟨.flush 0 .start, true, 0⟩) (inv.idle all) rfl (live ..) rfl
        rfl
    · exact (inv.phase t w found).append rfl (live ..) rfl rfl
  | @spawn _ t job free starts =>
    have idle : s.Idle := serial.alone (by cases a <;> first | rfl | cases starts)
    refine .goesOn base' (fun t' _ => idle t') rfl ?_
    have settled : S.Settled s := inv.idle idle
    cases a <;> simp only [Action.spawns, reduceCtorEq, Option.some.injEq, Prod.mk.injEq] at starts
      <;> obtain ⟨rfl, rfl⟩ := starts <;> exact settled
  | ends here quit =>
    exact .finished base' (inv.others here) rfl ((inv.phase _ _ here).settled_of_canQuit quit)
  | readAll here nonempty =>
    refine .goesOn base' (inv.others here) rfl ?_
    exact ⟨inv.phase _ _ here, List.prefix_refl _⟩
  | lockRow here present free decoded =>
    exact .goesOn base' (inv.others here) rfl (inv.phase _ _ here)
  | lockMissing here missing =>
    exact .goesOn base' (inv.others here) rfl (inv.phase _ _ here)
  | commitUpdate here present =>
    obtain ⟨settled, front⟩ := inv.phase _ _ here
    refine .goesOn base' (inv.others here) rfl ?_
    exact settled.flushed front (base.existing_eq here fun missing => by cases missing) rfl rfl rfl
      (base.update_appends here rfl)
  | commitInsert here missing =>
    obtain ⟨settled, front⟩ := inv.phase _ _ here
    refine .goesOn base' (inv.others here) rfl ?_
    exact settled.flushed front (base.existing_eq here fun _ => missing) rfl rfl rfl
      (base.insert_appends here missing rfl)
  | @trim t again entries existing n here =>
    obtain ⟨row, later, split, eq⟩ := inv.phase _ _ here
    refine .finished base' (inv.others here) rfl ?_
    have trimmed := trims t rfl entries (by rw [MemoryState.committed_here here]; rfl) later split
    show S.stored s ++ S.newItems (S.trim entries s.stream).entries = S.newItems s.accepted
    rw [trimmed, eq]
  | trimUnanswered here => cases serial.clean
  | failTrim here =>
    refine .goesOn base' (inv.others here) rfl ?_
    exact ⟨inv.phase _ _ here, Nat.succ_ne_zero _⟩
  | fail here other =>
    have first := serial.once _ rfl _ here
    change _ = 0 at first
    subst first
    exact .finished base' (inv.others here) rfl ((inv.phase _ _ here).settled_of_fail other)
  | @revert t again entries existing n current here free present =>
    obtain ⟨unsettled, _⟩ := inv.phase _ _ here
    refine .finished base' (inv.others here) rfl ?_
    exact unsettled.reverted rfl rfl rfl
      (rowPayload_some rfl (writeChanged_revert S (base.workers _ _ here) current))
  | @revertGone t again entries existing n here missing =>
    -- the batch is in the row, so there is one
    obtain ⟨⟨row, _⟩, _⟩ := inv.phase _ _ here
    rw [rowPayload_none missing] at row
    have nonempty : entries ≠ [] := base.workers _ _ here
    simp [Service.newItems, nonempty] at row
  | readBuffer here present counted decoded start =>
    refine .goesOn base' (inv.others here) rfl ?_
    exact ⟨inv.phase _ _ here, (rowPayload_some present (base.decoded present decoded)).symm⟩
  | putObject here named fresh =>
    exact .goesOn base' (inv.others here) rfl (inv.phase _ _ here)
  | @commitBackup t id createdAt tier now n buffer payload periodStart key start backup here utc
      fresh free row =>
    obtain ⟨settled, same⟩ := inv.phase _ _ here
    refine .goesOn base' (inv.others here) rfl ?_
    exact settled.archived same rfl rfl rfl (rowPayload_none rfl)
  | selectStale here ranks =>
    exact .goesOn base' (inv.others here) rfl (inv.phase _ _ here)
  | deleteObject here =>
    exact .goesOn base' (inv.others here) rfl (inv.phase _ _ here)
  | commitPrune here => exact .finished base' (inv.others here) rfl (inv.phase _ _ here)
  | getObject here =>
    exact .goesOn base' (inv.others here) rfl (inv.phase _ _ here)
  | putCopy here named fresh =>
    exact .goesOn base' (inv.others here) rfl (inv.phase _ _ here)
  | commitCopy here fresh row => exact .finished base' (inv.others here) rfl (inv.phase _ _ here)
  | die here => cases serial.clean

/-- **Every run of lone tasks whose trims drop their batches.** -/
theorem Serial.reachable {as : List (Action β)} (run : Run.exec (step S) .initial as = some s)
    (serial : Run.Guarded (step S) MemoryState.OneTask .initial as)
    (trims : Run.Guarded (step S) S.TrimsBatch .initial as) : Serial S s :=
  Run.Guarded.invariant (fun _ _ _ inv cond h => inv.preserved h cond.1 cond.2)
    Serial.initial (serial.and trims) run

/-! ## Exact trims -/

omit [DecidableEq β] in
/-- An exact trim of a batch that is the front of the stream drops exactly the batch. -/
theorem Base.trim_exact (base : Base S s) (exact : S.trimMode = .exact)
    {entries later : List StreamEntry} (ne : entries ≠ [])
    (split : s.stream.entries = entries ++ later) : (S.trim entries s.stream).entries = later := by
  have ordered := base.ordered.sublist base.suffix.sublist
  rw [split] at ordered
  rw [trim_eq ne, exact, Stream.entries_xtrim_exact, split]
  exact Log.cut_past_batch ordered ne fun e => StreamId.lt_next_iff

/-- **Serial tasks conserve memory, whatever call of a task fails.** -/
theorem memory_conserved_of_serial_tasks (S : Service ι β) (exact : S.trimMode = .exact)
    (as : List (Action β)) (run : Run.exec (step S) .initial as = some s)
    (serial : Run.Guarded (step S) MemoryState.OneTask .initial as) (idle : s.Idle) :
    s.archived.flatten ++ S.rowPayload s ++ S.newItems s.stream.entries = S.newItems s.accepted := by
  have inv := Run.Guarded.invariant (P := MemoryState.OneTask) (I := Serial S)
    (fun s a s' inv serial h => inv.preserved h serial fun t _ entries batch later split =>
      inv.base.trim_exact exact (inv.base.seen_committed batch).nonempty split)
    Serial.initial serial run
  exact inv.idle idle

/-- A `flush_all_streams` that meets the clone twice and whose first trim raises, with a write in
between, then a rollup. -/
def flushAllThenRollup (β : Type) : List (Action β) :=
  [.append "a" "2026-01-01T00:00:00+00:00" ⟨1, 0⟩ false, .startFlush 0 1, .readAll 0,
    .append "b" "2026-01-01T00:00:00+00:00" ⟨2, 0⟩ false, .lockRow 0, .commitBuffer 0, .fail 0,
    .revert 0, .readAll 0, .lockRow 0, .commitBuffer 0, .trim 0,
    .startRollup 1 .free 63902822400000001, .readBuffer 1, .putObject 1 0, .commitBackup 1 1 0,
    .selectStale 1 [⟨1, 1, 63902822400000000, 63902822400000001, 2,
      ⟨1, 63902822400, 63902822400, 0⟩, .free, 0, none⟩], .commitPrune 1]

theorem memory_conserved_of_flush_all_then_rollup :
    ∃ s, Run.exec (step (.sample .exact)) .initial (flushAllThenRollup _) = some s ∧
      s.accepted.length = 2 ∧
      s.archived.flatten ++ (Service.sample .exact).rowPayload s ++
        (Service.sample .exact).newItems s.stream.entries =
          (Service.sample .exact).newItems s.accepted := by
  refine ⟨_, rfl, rfl,
    memory_conserved_of_serial_tasks (.sample .exact) rfl (flushAllThenRollup _) rfl ?_ ?_⟩
  · refine .cons rfl ⟨nofun, nofun, rfl⟩ <| .cons rfl ⟨fun _ _ => rfl, nofun, rfl⟩ <|
      .cons rfl ⟨nofun, nofun, rfl⟩ <| .cons rfl ⟨nofun, nofun, rfl⟩ <|
      .cons rfl ⟨nofun, nofun, rfl⟩ <| .cons rfl ⟨nofun, nofun, rfl⟩ <|
      .cons rfl ⟨nofun, by decide, rfl⟩ <| .cons rfl ⟨nofun, nofun, rfl⟩ <|
      .cons rfl ⟨nofun, nofun, rfl⟩ <| .cons rfl ⟨nofun, nofun, rfl⟩ <|
      .cons rfl ⟨nofun, nofun, rfl⟩ <| .cons rfl ⟨nofun, nofun, rfl⟩ <|
      .cons rfl ⟨fun _ t => ?_, nofun, rfl⟩ <| .cons rfl ⟨nofun, nofun, rfl⟩ <|
      .cons rfl ⟨nofun, nofun, rfl⟩ <| .cons rfl ⟨nofun, nofun, rfl⟩ <|
      .cons rfl ⟨nofun, nofun, rfl⟩ <| .cons rfl ⟨nofun, nofun, rfl⟩ trivial
    simp [MemoryState.initial, Worker.next]
  · intro t
    simp [MemoryState.initial, Worker.next]

end Mycelium
