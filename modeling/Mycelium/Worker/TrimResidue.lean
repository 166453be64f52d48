import Mycelium.Worker.Serial

/-!
# What an approximate trim leaves behind

`XTRIM MINID ~` drops a batch exactly when the batch is the content of whole
leading nodes and within the eviction limit; otherwise entries that are already
in the row stay in the stream, and the next flush appends them again. With one
flush at a time and no failures, row and stream together are the accepted
entries in order as long as every trim meets that condition, and no longer.
-/

namespace Mycelium

variable {ι β : Type}

namespace Stream

/-- Entries that writers append one after another; the flag says where the server opens a node. -/
def xaddAll (limit : Nat) (xs : List (Bool × StreamEntry)) (stream : Stream) : Stream :=
  xs.foldl (fun s x => s.xadd limit x.1 x.2) stream

theorem entries_xaddAll (limit : Nat) (xs : List (Bool × StreamEntry)) (stream : Stream) :
    (stream.xaddAll limit xs).entries = stream.entries ++ xs.map Prod.snd := by
  unfold xaddAll
  induction xs generalizing stream with
  | nil => simp
  | cons x xs ih =>
    rw [List.foldl_cons, ih, entries_xadd, List.map_cons, List.append_assoc, List.singleton_append]

/-- `batch` fills whole leading nodes and is within the default LIMIT of an approximate trim. -/
def WholeNodes (limit : Nat) (batch : List StreamEntry) (stream : Stream) : Prop :=
  (∃ front back, stream.nodes = front ++ back ∧ front.flatten = batch) ∧ batch.length ≤ 100 * limit

/-- An approximate trim right past a batch drops exactly the batch if and only if the batch fills
whole nodes. -/
theorem xtrim_approximate_iff {stream : Stream} {batch later : List StreamEntry} {minid : StreamId}
    (limit : Nat) (split : stream.entries = batch ++ later) (below : ∀ e ∈ batch, e.id < minid)
    (above : ∀ e ∈ later, minid ≤ e.id) :
    (stream.xtrim limit .approximate minid).entries = later ↔ stream.WholeNodes limit batch := by
  constructor
  · intro trimmed
    obtain ⟨front, nodes, within, _⟩ := evict_split minid (100 * limit) stream.nodes
    have whole : front.flatten ++ later = batch ++ later := by
      rw [← split, entries, nodes, List.flatten_append, ← trimmed]
      rfl
    have same := List.append_cancel_right whole
    exact ⟨⟨front, _, nodes, same⟩, same ▸ within⟩
  · rintro ⟨⟨front, back, nodes, rfl⟩, within⟩
    have rest : back.flatten = later := by
      rw [entries, nodes, List.flatten_append] at split
      exact List.append_cancel_left split
    rw [xtrim, entries, nodes, ← rest]
    exact flatten_evict_of_front front back _ within below (by rw [rest]; exact above)

end Stream

variable (S : Service ι β)

/-- Where a flush trims, its batch fills whole leading nodes of the stream. -/
def Service.TrimsWholeNodes (s : MemoryState ι β) (a : Action β) : Prop :=
  ∀ t, a = .trim t → ∀ entries ∈ s.committed t, s.stream.WholeNodes S.nodeEntries entries

/-- No flush is between its commit and its trim, or the commit that undoes it. -/
def MemoryState.AtRest (s : MemoryState ι β) : Prop :=
  ∀ t w, s.workers t = some w → ∀ again entries existing,
    w.job ≠ .flush again (.committed entries existing) ∧
      w.job ≠ .flush again (.reverting entries existing)

variable {S} {s s' : MemoryState ι β} {a : Action β}

theorem trim_approximate_iff (approximate : S.trimMode = .approximate) {stream : Stream}
    {batch later : List StreamEntry} (ne : batch ≠ [])
    (ordered : Log.Ordered StreamEntry.id (batch ++ later))
    (split : stream.entries = batch ++ later) :
    (S.trim batch stream).entries = later ↔ stream.WholeNodes S.nodeEntries batch := by
  obtain ⟨front, _, apart⟩ := Log.ordered_append.1 ordered
  rw [trim_eq ne, approximate]
  refine Stream.xtrim_approximate_iff _ split ?_ ?_
  · intro e he
    exact StreamId.lt_next_iff.2 (front.le_getLast ne he)
  · intro e he
    have past := apart _ (List.getLast_mem ne) e he
    exact le_of_not_gt fun lt => absurd past (not_lt_of_ge (StreamId.lt_next_iff.1 lt))

theorem Base.trim_approximate_iff (base : Base S s) (approximate : S.trimMode = .approximate)
    {batch later : List StreamEntry} (ne : batch ≠ []) (split : s.stream.entries = batch ++ later) :
    (S.trim batch s.stream).entries = later ↔ s.stream.WholeNodes S.nodeEntries batch :=
  Mycelium.trim_approximate_iff approximate ne
    (split ▸ base.ordered.sublist base.suffix.sublist) split

/-- At rest everything is settled. -/
theorem Serial.settled (inv : Serial S s) (rest : s.AtRest) : S.Settled s := by
  by_cases idle : s.Idle
  · exact inv.idle idle
  · obtain ⟨t, busy⟩ := not_forall.1 idle
    obtain ⟨⟨job, alive, n⟩, here⟩ := Option.ne_none_iff_exists'.1 busy
    have phase := inv.phase t _ here
    have apart := rest t _ here
    cases job with
    | flush again point =>
      cases point with
      | start => exact phase
      | read => exact phase.1
      | locked => exact phase.1
      | committed => exact absurd rfl (apart ..).1
      | reverting => exact absurd rfl (apart ..).2
    | rollup tier now point =>
      cases point with
      | start => exact phase
      | read => exact phase.1
      | uploaded => exact phase.1
      | committed => exact phase
      | pruning => exact phase
    | resurrect => exact phase

variable [DecidableEq β]

omit [DecidableEq β] in
theorem commitsBackup_of_ofFlushes (flushes : a.ofFlushes = true) : a.commitsBackup = none := by
  cases a <;> first | rfl | cases flushes

omit [DecidableEq β] in
theorem Serial.unsettled (inv : Serial S s) {t : Nat} {entries : List StreamEntry}
    (batch : s.committed t = some entries) : ∃ existing, S.Unsettled s entries existing := by
  obtain ⟨⟨job, alive, n⟩, here, held⟩ := Option.bind_eq_some_iff.1 batch
  have phase := inv.phase t _ here
  unfold Worker.committed at held
  split at held
  · rename_i again entries' existing same
    cases held
    change job = _ at same
    subst same
    exact ⟨existing, phase⟩
  · cases held

/-- A trim of a lone flush, and what it leaves. -/
theorem Serial.trim_applies (inv : Serial S s) {t : Nat} {entries : List StreamEntry}
    (h : step S s (.trim t) = some s') (batch : s.committed t = some entries) :
    s'.AtRest ∧ s'.stream = S.trim entries s.stream ∧ s'.accepted = s.accepted ∧
      S.rowPayload s' = S.rowPayload s := by
  obtain ⟨⟨job, alive, n⟩, here, held⟩ := Option.bind_eq_some_iff.1 batch
  unfold Worker.committed at held
  split at held
  · rename_i again entries' existing same
    cases held
    change job = _ at same
    subst same
    cases alive with
    | false =>
      have stopped : s.running t = none := by rw [MemoryState.running, here]; rfl
      simp only [step, Action.worker, stopped] at h
      cases h
    | true =>
      simp only [step, Action.worker, MemoryState.running_iff.2 ⟨here, rfl⟩, flushStep] at h
      cases h
      refine ⟨?_, rfl, rfl, rfl⟩
      intro t' w found again' entries'' existing'
      by_cases here' : t' = t
      · subst here'
        have next : Function.update s.workers t' (Worker.next _) t' = some w := found
        rw [Function.update_self] at next
        obtain ⟨again'', rfl⟩ := Worker.next_eq next
        constructor <;> intro same <;> cases same
      · have busy : Function.update s.workers t (Worker.next _) t' = some w := found
        rw [Function.update_of_ne here', inv.others here t' here'] at busy
        cases busy
  · cases held

/-- **A flush leaves nothing to be flushed again exactly when its trim finds whole nodes.** For any
stream read and any entries appended since, and along any run of writers and one flush at a
time. -/
theorem nothing_left_iff_trims_whole_nodes (S : Service ι β) (approximate : S.trimMode = .approximate)
    (stream : Stream) (xs : List (Bool × StreamEntry)) (nonempty : stream.entries ≠ [])
    (ordered : Log.Ordered StreamEntry.id (stream.entries ++ xs.map Prod.snd))
    (as : List (Action β)) (flushes : ∀ a ∈ as, a.ofFlushes = true)
    (serial : Run.Guarded (step S) MemoryState.OneTask .initial as) :
    ((S.trim stream.entries (stream.xaddAll S.nodeEntries xs)).entries = xs.map Prod.snd ↔
      (stream.xaddAll S.nodeEntries xs).WholeNodes S.nodeEntries stream.entries) ∧
    (Run.Throughout (step S) (fun s => s.AtRest →
        S.rowPayload s ++ S.newItems s.stream.entries = S.newItems s.accepted) .initial as ↔
      Run.Guarded (step S) S.TrimsWholeNodes .initial as) := by
  refine ⟨trim_approximate_iff approximate nonempty ordered (Stream.entries_xaddAll ..), ?_⟩
  refine Run.throughout_iff_guarded (I := fun s => Serial S s ∧ s.archived = [])
    (A := fun s a => a.ofFlushes = true ∧ s.OneTask a) ?_ ?_ ?_ ⟨Serial.initial, rfl⟩
    ((Run.Guarded.of_mem _ flushes).and serial)
  · rintro s ⟨inv, empty⟩ rest
    have settled := inv.settled rest
    rwa [Service.Settled, Service.stored, empty] at settled
  · rintro s a s' ⟨inv, empty⟩ ⟨ours, lone⟩ h whole
    refine ⟨inv.preserved h lone ?_, ?_⟩
    · intro t label entries batch later split
      have ne := (inv.base.seen_committed batch).nonempty
      exact (inv.base.trim_approximate_iff approximate ne split).2 (whole t label entries batch)
    · rw [inv.base.archived_kept h (commitsBackup_of_ofFlushes ours), empty]
  · rintro s a s' ⟨inv, empty⟩ _ h good t rfl entries batch
    obtain ⟨rest, trimmed, accepted, row⟩ := inv.trim_applies h batch
    have ne := (inv.base.seen_committed batch).nonempty
    obtain ⟨existing, _, later, split, eq⟩ := inv.unsettled batch
    have after := good rest
    rw [row, trimmed, accepted, ← eq, Service.stored, empty] at after
    have length : (S.trim entries s.stream).entries.length = later.length := by
      simpa [Service.newItems] using congrArg List.length after
    have suffix := inv.base.trim_suffix (inv.base.seen_committed batch)
    rw [split] at suffix
    have same : (S.trim entries s.stream).entries = later := by
      have within := List.suffix_of_suffix_length_le suffix (List.suffix_append entries later)
        (le_of_eq length)
      exact within.eq_of_length length
    exact (inv.base.trim_approximate_iff approximate ne split).1 same

/-- An entry, and one appended while it is being flushed. -/
def early : StreamEntry := ⟨⟨1, 0⟩, "a", "2026-01-01T00:00:00+00:00"⟩
def late : StreamEntry := ⟨⟨2, 0⟩, "b", "2026-01-01T00:00:00+00:00"⟩

/-- A flush of one entry, during which another is appended. -/
def flushWithLateAppend (β : Type) (newNode : Bool) : List (Action β) :=
  [.append early.content early.capturedAt early.id false, .startFlush 0 0, .readAll 0,
    .append late.content late.capturedAt late.id newNode, .lockRow 0, .commitBuffer 0, .trim 0]

theorem one_task_of_flush_with_late_append (newNode : Bool) (mode : TrimMode) :
    Run.Guarded (step (.sample mode)) MemoryState.OneTask .initial
      (flushWithLateAppend _ newNode) := by
  refine .cons rfl ⟨nofun, nofun, rfl⟩ <| .cons rfl ⟨fun _ _ => rfl, nofun, rfl⟩ <|
    .cons rfl ⟨nofun, nofun, rfl⟩ <| .cons rfl ⟨nofun, nofun, rfl⟩ <|
    .cons rfl ⟨nofun, nofun, rfl⟩ <| .cons rfl ⟨nofun, nofun, rfl⟩ <|
    .cons rfl ⟨nofun, nofun, rfl⟩ trivial

/-- A late entry in a node of its own. -/
theorem nothing_left_of_new_node :
    ((Service.sample .approximate).trim [early] ((Stream.mk [[early]] early.id).xaddAll 100
        [(true, late)])).entries = [late] ∧
    Run.Throughout (step (.sample .approximate)) (fun s => s.AtRest →
        (Service.sample .approximate).rowPayload s ++
            (Service.sample .approximate).newItems s.stream.entries =
          (Service.sample .approximate).newItems s.accepted) .initial
      (flushWithLateAppend _ true) := by
  have both := nothing_left_iff_trims_whole_nodes (.sample .approximate) rfl ⟨[[early]], early.id⟩
    [(true, late)] (by decide) (by simp [Log.Ordered, Stream.entries, early, late, StreamId.lt_iff])
    (flushWithLateAppend _ true) (by decide) (one_task_of_flush_with_late_append true .approximate)
  refine ⟨both.1.2 ⟨⟨[[early]], [[late]], rfl, rfl⟩, by decide⟩, both.2.2 ?_⟩
  refine .cons rfl ?_ <| .cons rfl ?_ <| .cons rfl ?_ <| .cons rfl ?_ <| .cons rfl ?_ <|
    .cons rfl ?_ <| .cons rfl ?_ trivial
  all_goals rintro t ⟨⟩ entries ⟨⟩
  exact ⟨⟨[[early]], [[late]], rfl, rfl⟩, by decide⟩

/-- A late entry in the batch's own node: the batch stays in the stream, beside its copy in the
row. -/
theorem batch_left_behind :
    ((Service.sample .approximate).trim [early] ((Stream.mk [[early]] early.id).xaddAll 100
        [(false, late)])).entries = [early, late] ∧
    ∃ s, Run.exec (step (.sample .approximate)) .initial (flushWithLateAppend _ false) = some s ∧
      Run.Guarded (step (.sample .approximate)) MemoryState.OneTask .initial
        (flushWithLateAppend _ false) ∧ s.AtRest ∧
      (Service.sample .approximate).rowPayload s ++
          (Service.sample .approximate).newItems s.stream.entries ≠
        (Service.sample .approximate).newItems s.accepted := by
  refine ⟨by decide, _, rfl, one_task_of_flush_with_late_append false .approximate, ?_, by decide⟩
  intro t w found
  simp [MemoryState.initial, Worker.next] at found

end Mycelium
