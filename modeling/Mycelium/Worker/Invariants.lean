import Mycelium.Worker.Steps

/-!
# What holds in every reachable state

`Base` is kept by every action, failures and deaths included: the stream is a
suffix of what was accepted, the row is the encoding of some list of items, a
flush's batch was the stream at some moment, a flush that holds the row lock has
the row's payload, and a rollup's snapshot was a row. The results about runs
build on it.
-/

namespace Mycelium

variable {ι β : Type}

namespace MemoryState

/-- `entries` was the whole stream at some moment. -/
def Seen (s : MemoryState ι β) (entries : List StreamEntry) : Prop :=
  Log.Window s.accepted entries s.stream.entries

end MemoryState

variable (S : Service ι β)

/-- The payload of the buffer row, empty when there is none. -/
def Service.rowPayload (s : MemoryState ι β) : List ι := (S.payloadOf s.buffer).getD []

/-- What the transaction of `t` found: a row, now locked and unchanged, or no row. -/
def Service.Found (s : MemoryState ι β) (t : Nat) (existing : List ι) :
    Option (MemoryBuffer β) → Prop
  | some loaded => s.lock = some t ∧ s.buffer = some loaded ∧ loaded = S.row existing
  | none => existing = []

/-- What a rollup keeps of the row it read. -/
structure Service.Snapshot (buffer : MemoryBuffer β) (payload : List ι) (periodStart : Datetime) :
    Prop where
  nonempty : payload ≠ []
  row : buffer = S.row payload
  start : S.periodStart payload = some periodStart

/-- What a worker's local variables say about the stores. -/
def Service.WorkerOk (s : MemoryState ι β) (t : Nat) (w : Worker ι β) : Prop :=
  match w.job with
  | .flush _ (.read entries) => s.Seen entries
  | .flush _ (.locked entries loaded existing) =>
    s.Seen entries ∧ (w.alive = true → S.Found s t existing loaded)
  | .flush _ (.committed entries _) => s.Seen entries
  | .flush _ (.reverting entries _) => entries ≠ []
  | .rollup _ _ (.read buffer payload periodStart) => S.Snapshot buffer payload periodStart
  | .rollup _ _ (.uploaded buffer payload periodStart _) => S.Snapshot buffer payload periodStart
  | _ => True

structure Base (s : MemoryState ι β) : Prop where
  ordered : Log.Ordered StreamEntry.id s.accepted
  bounded : ∀ e ∈ s.accepted, e.id ≤ s.stream.lastId
  suffix : s.stream.entries <:+ s.accepted
  row : ∀ r, s.buffer = some r → ∃ items, r = S.row items
  workers : ∀ t w, s.workers t = some w → S.WorkerOk s t w

variable {S} {s s' : MemoryState ι β} {t : Nat}

theorem rowPayload_some {r : MemoryBuffer β} {items : List ι} (h : s.buffer = some r)
    (row : r = S.row items) : S.rowPayload s = items := by
  simp [Service.rowPayload, h, row, Format.payloadOf]

theorem rowPayload_none (h : s.buffer = none) : S.rowPayload s = [] := by
  simp [Service.rowPayload, h, Format.payloadOf]

/-- The payload a session reads is the row's. -/
theorem Base.decoded (base : Base S s) {r : MemoryBuffer β} {items : List ι}
    (present : s.buffer = some r) (decoded : S.payload r = some items) : r = S.row items := by
  obtain ⟨items', rfl⟩ := base.row r present
  rw [Format.payload_row] at decoded
  rw [Option.some.inj decoded]

/-- A worker that did not move, seen from a later state. -/
theorem Service.WorkerOk.later {w : Worker ι β} (ok : S.WorkerOk s t w)
    (seen : ∀ entries, s.Seen entries → s'.Seen entries)
    (found : ∀ existing loaded, S.Found s t existing loaded → S.Found s' t existing loaded) :
    S.WorkerOk s' t w := by
  obtain ⟨job, alive, n⟩ := w
  cases job with
  | flush again point =>
    cases point with
    | start => trivial
    | read entries => exact seen _ ok
    | locked entries loaded existing => exact ⟨seen _ ok.1, fun live => found _ _ (ok.2 live)⟩
    | committed entries existing => exact seen _ ok
    | reverting entries existing => exact ok
  | rollup tier now point =>
    cases point with
    | read => exact ok
    | uploaded => exact ok
    | _ => trivial
  | resurrect => trivial

/-- A dead worker holds no lock any more. -/
theorem Service.WorkerOk.died {job : Job ι β} {n : Nat} (ok : S.WorkerOk s t ⟨job, true, n⟩)
    (seen : ∀ entries, s.Seen entries → s'.Seen entries) : S.WorkerOk s' t ⟨job, false, n⟩ := by
  cases job with
  | flush again point =>
    cases point with
    | start => trivial
    | read entries => exact seen _ ok
    | locked entries loaded existing => exact ⟨seen _ ok.1, nofun⟩
    | committed entries existing => exact seen _ ok
    | reverting entries existing => exact ok
  | rollup tier now point =>
    cases point with
    | read => exact ok
    | uploaded => exact ok
    | _ => trivial
  | resurrect => trivial

/-- A worker about to start its next call. -/
theorem Service.WorkerOk.next {w w' : Worker ι β} (h : w.next = some w') : S.WorkerOk s t w' := by
  obtain ⟨again, rfl⟩ := Worker.next_eq h
  trivial

/-- A step of `t` that leaves the stream as it is. -/
theorem Base.local (base : Base S s) {x : Option (Worker ι β)} (stream : s'.stream = s.stream)
    (accepted : s'.accepted = s.accepted) (workers : s'.workers = Function.update s.workers t x)
    (row : ∀ r, s'.buffer = some r → ∃ items, r = S.row items)
    (others : ∀ t' existing loaded, t' ≠ t → S.Found s t' existing loaded →
      S.Found s' t' existing loaded)
    (moved : ∀ w, x = some w → S.WorkerOk s' t w) : Base S s' := by
  have seen : ∀ entries, s.Seen entries → s'.Seen entries := by
    intro entries
    simp only [MemoryState.Seen, stream, accepted]
    exact id
  constructor
  · rw [accepted]; exact base.ordered
  · rw [accepted, stream]; exact base.bounded
  · rw [accepted, stream]; exact base.suffix
  · exact row
  · rw [workers]
    exact Run.forall_update.2 ⟨moved, fun t' w other found =>
      (base.workers t' w found).later seen fun _ _ => others t' _ _ other⟩

/-- A step of `t` that touches neither the stream nor the row. -/
theorem Base.moved (base : Base S s) {x : Option (Worker ι β)} (stream : s'.stream = s.stream)
    (accepted : s'.accepted = s.accepted) (buffer : s'.buffer = s.buffer)
    (workers : s'.workers = Function.update s.workers t x)
    (lock : ∀ t', t' ≠ t → s.lock = some t' → s'.lock = some t')
    (moved : ∀ w, x = some w → S.WorkerOk s' t w) : Base S s' := by
  refine base.local stream accepted workers (by rw [buffer]; exact base.row) ?_ moved
  intro t' existing loaded other found
  cases loaded with
  | none => exact found
  | some r => exact ⟨lock t' other found.1, by rw [buffer]; exact found.2.1, found.2.2⟩

/-- A step of `t` that rewrites or deletes the row while no other worker has it locked. -/
theorem Base.rewritten (base : Base S s) {x : Option (Worker ι β)} (stream : s'.stream = s.stream)
    (accepted : s'.accepted = s.accepted) (workers : s'.workers = Function.update s.workers t x)
    (row : ∀ r, s'.buffer = some r → ∃ items, r = S.row items)
    (free : ∀ t', t' ≠ t → s.lock = some t' → s.buffer = none)
    (moved : ∀ w, x = some w → S.WorkerOk s' t w) : Base S s' := by
  refine base.local stream accepted workers row ?_ moved
  intro t' existing loaded other found
  cases loaded with
  | none => exact found
  | some r => exact absurd (found.2.1.symm.trans (free t' other found.1)) nofun

theorem lock_kept {t' : Nat} (other : t' ≠ t) (held : s.lock = some t') :
    (if s.lock = some t then none else s.lock) = some t' := by
  rw [if_neg (by rw [held]; simpa using other), held]

/-! ## Trims -/

theorem lastId_trim (entries : List StreamEntry) (stream : Stream) :
    (S.trim entries stream).lastId = stream.lastId := by
  unfold Service.trim
  split <;> simp

theorem trim_eq {entries : List StreamEntry} (ne : entries ≠ []) (stream : Stream) :
    S.trim entries stream =
      stream.xtrim S.nodeEntries S.trimMode (entries.getLast ne).id.next := by
  simp only [Service.trim, List.getLast?_eq_some_getLast ne, Stream.trimUpTo]

/-- Whatever the trim mode, a trim drops entries from the front of the stream. -/
theorem Base.trim_suffix (base : Base S s) {entries : List StreamEntry} (seen : s.Seen entries) :
    (S.trim entries s.stream).entries <:+ s.stream.entries := by
  rw [trim_eq seen.nonempty]
  exact Stream.entries_xtrim_suffix (base.ordered.sublist base.suffix.sublist) ..

/-- Whatever the trim mode, a trim drops only entries of the batch. -/
theorem Base.mem_of_trimmed (base : Base S s) {entries : List StreamEntry} (seen : s.Seen entries)
    {e : StreamEntry} (before : e ∈ s.stream.entries)
    (after : e ∉ (S.trim entries s.stream).entries) : e ∈ entries := by
  rw [trim_eq seen.nonempty] at after
  exact seen.mem_batch base.ordered before
    (StreamId.lt_next_iff.1 (Stream.lt_of_xtrimmed before after))

/-- An exact trim drops exactly the batch. -/
theorem Base.mem_trim_exact (base : Base S s) (exact : S.trimMode = .exact)
    {entries : List StreamEntry} (seen : s.Seen entries) {e : StreamEntry} :
    e ∈ (S.trim entries s.stream).entries ↔ e ∈ s.stream.entries ∧ e ∉ entries := by
  constructor
  · intro kept
    refine ⟨(base.trim_suffix seen).subset kept, fun inside => ?_⟩
    rw [trim_eq seen.nonempty, exact, Stream.entries_xtrim_exact, Log.mem_cut] at kept
    have last := (seen.ordered base.ordered).le_getLast seen.nonempty inside
    exact absurd (StreamId.lt_next_iff.2 last) (not_lt_of_ge kept.2)
  · rintro ⟨before, outside⟩
    by_contra gone
    exact outside (base.mem_of_trimmed seen before gone)

/-- A step of `t` that trims the stream behind a batch. -/
theorem Base.trimmed (base : Base S s) {x : Option (Worker ι β)} {entries : List StreamEntry}
    (seen : s.Seen entries) (stream : s'.stream = S.trim entries s.stream)
    (accepted : s'.accepted = s.accepted) (buffer : s'.buffer = s.buffer)
    (workers : s'.workers = Function.update s.workers t x)
    (lock : ∀ t', t' ≠ t → s.lock = some t' → s'.lock = some t')
    (moved : ∀ w, x = some w → S.WorkerOk s' t w) : Base S s' := by
  have suffix := base.trim_suffix seen
  have still : ∀ batch, s.Seen batch → s'.Seen batch := by
    intro batch window
    simp only [MemoryState.Seen, stream, accepted]
    exact window.shrink suffix
  constructor
  · rw [accepted]; exact base.ordered
  · rw [accepted, stream, lastId_trim]; exact base.bounded
  · rw [accepted, stream]; exact suffix.trans base.suffix
  · rw [buffer]; exact base.row
  · rw [workers]
    refine Run.forall_update.2 ⟨moved, fun t' w other found => (base.workers t' w found).later still ?_⟩
    intro existing loaded held
    cases loaded with
    | none => exact held
    | some r => exact ⟨lock t' other held.1, by rw [buffer]; exact held.2.1, held.2.2⟩

theorem Base.initial : Base S (MemoryState.initial (ι := ι) (β := β)) where
  ordered := .nil
  bounded := by simp [MemoryState.initial]
  suffix := List.suffix_refl _
  row := by simp [MemoryState.initial]
  workers := by simp [MemoryState.initial]

variable [DecidableEq β] {a : Action β}

/-- What the UPDATE of a revert writes. -/
theorem writeChanged_revert (S : Service ι β) {existing : List ι} {entries : List StreamEntry}
    (ne : entries ≠ []) (current : MemoryBuffer β) :
    (S.row (existing ++ S.newItems entries)).writeChanged (S.row existing) current =
      S.row existing := by
  have pos := List.length_pos_iff.2 ne
  exact S.writeChanged_row (by simp [Service.newItems]; omega) current

/-- What the UPDATE of a flush writes into the row it has locked. -/
theorem writeChanged_commit (S : Service ι β) {existing : List ι} {entries : List StreamEntry}
    (ne : entries ≠ []) (current : MemoryBuffer β) :
    (S.row existing).writeChanged (S.row (existing ++ S.newItems entries)) current =
      S.row (existing ++ S.newItems entries) := by
  have pos := List.length_pos_iff.2 ne
  exact S.writeChanged_row (by simp [Service.newItems]; omega) current

/-- **Every action keeps the base invariant.** -/
theorem Base.preserved (base : Base S s) (h : step S s a = some s') : Base S s' := by
  have step := step_sound h
  cases step with
  | append fresh =>
    have past : ∀ e ∈ s.accepted, e.id < _ := fun e he => lt_of_le_of_lt (base.bounded e he) fresh
    constructor
    · exact base.ordered.snoc past
    · intro e he
      rcases List.mem_append.1 he with old | new
      · exact le_of_lt (past e old)
      · rw [List.mem_singleton.1 new]; exact le_refl _
    · obtain ⟨pre, eq⟩ := base.suffix
      exact ⟨pre, by rw [Stream.entries_xadd, ← List.append_assoc, eq]⟩
    · exact base.row
    · intro t w found
      refine (base.workers t w found).later (fun entries seen => ?_) fun _ loaded held => ?_
      · simp only [MemoryState.Seen, Stream.entries_xadd]
        exact Log.Window.snoc seen _
      · cases loaded <;> exact held
  | spawn free starts =>
    refine base.moved rfl rfl rfl rfl (fun _ _ held => held) ?_
    rintro w ⟨⟩
    cases a <;> simp only [Action.spawns, reduceCtorEq, Option.some.injEq, Prod.mk.injEq] at starts
      <;> obtain ⟨rfl, rfl⟩ := starts <;> trivial
  | ends here quit | fail here other | revertGone here missing | commitPrune here =>
    exact base.moved rfl rfl rfl rfl (fun _ => lock_kept) fun w next => .next next
  | commitCopy here fresh row =>
    exact base.moved rfl rfl rfl rfl (fun _ => lock_kept) fun w next => .next next
  | readAll here nonempty =>
    refine base.moved rfl rfl rfl rfl (fun _ _ held => held) ?_
    rintro w ⟨⟩
    exact Log.Window.of_live base.suffix nonempty
  | lockRow here present free decoded =>
    refine base.moved rfl rfl rfl rfl (fun t' _ held => absurd (free.symm.trans held) nofun) ?_
    rintro w ⟨⟩
    exact ⟨base.workers _ _ here, fun _ => ⟨rfl, present, base.decoded present decoded⟩⟩
  | lockMissing here missing =>
    refine base.moved rfl rfl rfl rfl (fun _ _ held => held) ?_
    rintro w ⟨⟩
    exact ⟨base.workers _ _ here, fun _ => rfl⟩
  | commitUpdate here present =>
    obtain ⟨seen, found⟩ := base.workers _ _ here
    obtain ⟨held, _, rfl⟩ := found rfl
    refine base.rewritten rfl rfl rfl ?_ ?_ ?_
    · rintro r ⟨⟩
      exact ⟨_, writeChanged_commit S seen.nonempty _⟩
    · intro t' other lock
      exact absurd (Option.some.inj (lock.symm.trans held)) other
    · rintro w ⟨⟩
      exact seen
  | commitInsert here missing =>
    obtain ⟨seen, _⟩ := base.workers _ _ here
    refine base.rewritten rfl rfl rfl ?_ (fun _ _ _ => missing) ?_
    · rintro r ⟨⟩
      exact ⟨_, rfl⟩
    · rintro w ⟨⟩
      exact seen
  | trim here =>
    exact base.trimmed (base.workers _ _ here) rfl rfl rfl rfl (fun _ => lock_kept)
      fun w next => .next next
  | trimUnanswered here =>
    have seen : s.Seen _ := base.workers _ _ here
    refine base.trimmed seen rfl rfl rfl rfl (fun _ _ held => held) ?_
    rintro w ⟨⟩
    exact seen.nonempty
  | failTrim here =>
    have seen : s.Seen _ := base.workers _ _ here
    refine base.moved rfl rfl rfl rfl (fun _ _ held => held) ?_
    rintro w ⟨⟩
    exact seen.nonempty
  | revert here free present =>
    refine base.rewritten rfl rfl rfl ?_ (fun t' _ held => absurd (free.symm.trans held) nofun)
      fun w next => .next next
    rintro r ⟨⟩
    exact ⟨_, writeChanged_revert S (base.workers _ _ here) _⟩
  | readBuffer here present counted decoded start =>
    refine base.moved rfl rfl rfl rfl (fun _ _ held => held) ?_
    rintro w ⟨⟩
    have row := base.decoded present decoded
    refine ⟨fun empty => counted ?_, row, start⟩
    rw [row, empty]; rfl
  | putObject here named fresh =>
    refine base.moved rfl rfl rfl rfl (fun _ _ held => held) ?_
    rintro w ⟨⟩
    exact base.workers _ _ here
  | commitBackup here utc fresh free row =>
    refine base.rewritten rfl rfl rfl nofun (fun t' _ held => absurd (free.symm.trans held) nofun) ?_
    rintro w ⟨⟩
    trivial
  | selectStale here ranks | deleteObject here | getObject here | putCopy here named fresh =>
    refine base.moved rfl rfl rfl rfl (fun _ _ held => held) ?_
    rintro w ⟨⟩
    trivial
  | die here =>
    refine base.moved rfl rfl rfl rfl (fun _ => lock_kept) ?_
    rintro w ⟨⟩
    exact (base.workers _ _ here).died fun _ seen => seen

/-- **Every reachable state satisfies the base invariant.** -/
theorem Base.reachable {as : List (Action β)} (run : Run.exec (Mycelium.step S) .initial as = some s) :
    Base S s :=
  Run.invariant (fun _ _ _ base h => base.preserved h) Base.initial run

end Mycelium
