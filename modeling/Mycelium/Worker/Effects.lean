import Mycelium.Worker.Invariants

/-!
# What a step does to the entries

For the question where an entry is, a step is one of seven things: nothing, an
append to the stream, a flush's append to the buffer, a trim, a trim that raised
before the server saw it, a revert, or a rollup's move of the buffer to the
archive. `effect` derives this from `Step` once; what the loss, duplicate and
revert results need of the program is in `Effect`.
-/

namespace Mycelium

variable {ι β : Type}

/-- The batch of a flush between its commit and its trim. -/
def Worker.committed (w : Worker ι β) : Option (List StreamEntry) :=
  match w.job with
  | .flush _ (.committed entries _) => some entries
  | _ => none

namespace MemoryState

/-- The batch of worker `t`, alive or dead, if it has committed it and not trimmed the stream. -/
def committed (s : MemoryState ι β) (t : Nat) : Option (List StreamEntry) :=
  (s.workers t).bind Worker.committed

/-- The batch that `commitBuffer t` would append now. A transaction that found no row inserts one,
which fails when there is one by now. -/
def committing (s : MemoryState ι β) (t : Nat) : Option (List StreamEntry) :=
  match s.workers t, s.buffer with
  | some ⟨.flush _ (.locked entries (some _) _), true, _⟩, some _ => some entries
  | some ⟨.flush _ (.locked entries none _), true, _⟩, none => some entries
  | _, _ => none

/-- The contents that `revert t` would write back now. -/
def reverting (s : MemoryState ι β) (t : Nat) : Option (List ι) :=
  match s.workers t, s.buffer with
  | some ⟨.flush _ (.reverting _ existing), true, _⟩, some _ => some existing
  | _, _ => none

/-- The payload that `commitBackup t` would archive now. The transaction fails when the driver
cannot convert its `period_start`. -/
def archiving (s : MemoryState ι β) (t : Nat) : Option (List ι) :=
  match s.workers t with
  | some ⟨.rollup _ _ (.uploaded _ payload periodStart _), true, _⟩ =>
    periodStart.astimezoneUtc.map fun _ => payload
  | _ => none

/-- Only the slots decide which batches are committed. -/
theorem committed_moved {s s' : MemoryState ι β} {t : Nat} {x : Option (Worker ι β)}
    (workers : s'.workers = Function.update s.workers t x) :
    s'.committed = Function.update s.committed t (x.bind Worker.committed) :=
  slots_moved (fun w => w.bind Worker.committed) workers

theorem committed_here {s : MemoryState ι β} {t : Nat} {w : Worker ι β}
    (here : s.workers t = some w) : s.committed t = w.committed := by
  simp [committed, here]

end MemoryState

@[simp] theorem Worker.committed_next (w : Worker ι β) : w.next.bind Worker.committed = none := by
  cases found : w.next with
  | none => rfl
  | some w' =>
    obtain ⟨again, rfl⟩ := Worker.next_eq found
    rfl

/-- A step between two points without a committed batch. -/
theorem MemoryState.committed_same {s s' : MemoryState ι β} {t : Nat} {w : Worker ι β}
    {x : Option (Worker ι β)} (workers : s'.workers = Function.update s.workers t x)
    (here : s.workers t = some w) (before : w.committed = none)
    (after : x.bind Worker.committed = none) : s'.committed = s.committed := by
  rw [committed_moved workers, after, ← before, ← committed_here here, Function.update_eq_self]

variable (S : Service ι β)

/-- The items a rollup has archived or the row holds. -/
def Service.stored (s : MemoryState ι β) : List ι := s.archived.flatten ++ S.rowPayload s

/-- The stores an entry can be in are as before. -/
structure Same (s s' : MemoryState ι β) : Prop where
  accepted : s'.accepted = s.accepted
  live : s'.stream.entries = s.stream.entries
  row : S.rowPayload s' = S.rowPayload s
  archived : s'.archived = s.archived

inductive Effect (s : MemoryState ι β) : Action β → MemoryState ι β → Prop where
  | quiet {a s'} (same : Same S s s') (committed : s'.committed = s.committed) : Effect s a s'
  | append {a s'} (e : StreamEntry) (past : ∀ x ∈ s.accepted, x.id < e.id)
      (accepted : s'.accepted = s.accepted ++ [e])
      (live : s'.stream.entries = s.stream.entries ++ [e])
      (row : S.rowPayload s' = S.rowPayload s) (archived : s'.archived = s.archived)
      (committed : s'.committed = s.committed) : Effect s a s'
  | flush {s'} (t : Nat) (entries : List StreamEntry) (seen : s.Seen entries)
      (batch : s.committing t = some entries) (before : s.committed t = none)
      (accepted : s'.accepted = s.accepted) (live : s'.stream.entries = s.stream.entries)
      (row : S.rowPayload s' = S.rowPayload s ++ S.newItems entries)
      (archived : s'.archived = s.archived)
      (committed : s'.committed = Function.update s.committed t (some entries)) :
      Effect s (.commitBuffer t) s'
  | trim {a s'} (t : Nat) (entries : List StreamEntry) (seen : s.Seen entries)
      (label : a = .trim t ∨ a = .trimUnanswered t) (batch : s.committed t = some entries)
      (accepted : s'.accepted = s.accepted) (stream : s'.stream = S.trim entries s.stream)
      (row : S.rowPayload s' = S.rowPayload s) (archived : s'.archived = s.archived)
      (committed : s'.committed = Function.update s.committed t none) : Effect s a s'
  | giveUp {s'} (t : Nat) (entries : List StreamEntry) (batch : s.committed t = some entries)
      (same : Same S s s') (committed : s'.committed = Function.update s.committed t none) :
      Effect s (.fail t) s'
  | revert {s'} (t : Nat) (existing : List ι) (kept : s.reverting t = some existing)
      (accepted : s'.accepted = s.accepted) (live : s'.stream.entries = s.stream.entries)
      (row : S.rowPayload s' = existing) (archived : s'.archived = s.archived)
      (committed : s'.committed = s.committed) : Effect s (.revert t) s'
  | archive {s'} (t id : Nat) (createdAt : Int) (payload : List ι)
      (snapshot : s.archiving t = some payload) (nonempty : payload ≠ [])
      (accepted : s'.accepted = s.accepted)
      (live : s'.stream.entries = s.stream.entries) (row : S.rowPayload s' = [])
      (archived : s'.archived = s.archived ++ [payload])
      (committed : s'.committed = s.committed) : Effect s (.commitBackup t id createdAt) s'

variable {S} {s s' : MemoryState ι β} {a : Action β}

theorem mem_stored {x : ι} : x ∈ S.stored s ↔ x ∈ s.archived.flatten ∨ x ∈ S.rowPayload s :=
  List.mem_append

theorem stored_of_eq (archived : s'.archived = s.archived) (row : S.rowPayload s' = S.rowPayload s) :
    S.stored s' = S.stored s := by
  rw [Service.stored, Service.stored, archived, row]

/-- A flush's append extends what is stored. -/
theorem stored_of_flush {items : List ι} (archived : s'.archived = s.archived)
    (row : S.rowPayload s' = S.rowPayload s ++ items) : S.stored s' = S.stored s ++ items := by
  rw [Service.stored, Service.stored, archived, row, List.append_assoc]

theorem Job.committed_of_canQuit {job : Job ι β} {n : Nat} (quit : job.CanQuit) :
    (⟨job, true, n⟩ : Worker ι β).committed = none := by
  cases job with
  | flush again point => cases point <;> first | rfl | exact quit.elim
  | rollup => rfl
  | resurrect => rfl

theorem Job.committed_of_not {job : Job ι β} {alive : Bool} {n : Nat} (other : ¬ job.Committed) :
    (⟨job, alive, n⟩ : Worker ι β).committed = none := by
  cases job with
  | flush again point => cases point <;> first | rfl | exact (other trivial).elim
  | rollup => rfl
  | resurrect => rfl

theorem MemoryState.committed_of_update {t t' : Nat} {batch : List StreamEntry}
    (committed : s'.committed = Function.update s.committed t none)
    (now : s'.committed t' = some batch) : s.committed t' = some batch := by
  rw [committed] at now
  by_cases same : t' = t
  · subst same
    rw [Function.update_self] at now
    cases now
  · rwa [Function.update_of_ne same] at now

/-- A committed batch was the stream at some moment. -/
theorem Base.seen_committed (base : Base S s) {t : Nat} {batch : List StreamEntry}
    (h : s.committed t = some batch) : s.Seen batch := by
  obtain ⟨⟨job, alive, n⟩, here, ready⟩ := Option.bind_eq_some_iff.1 h
  have ok := base.workers t _ here
  unfold Worker.committed at ready
  split at ready
  · rename_i again entries existing same
    cases ready
    change job = _ at same
    subst same
    exact ok
  · cases ready

/-- So was a batch about to be committed. -/
theorem Base.seen_committing (base : Base S s) {t : Nat} {batch : List StreamEntry}
    (h : s.committing t = some batch) : s.Seen batch := by
  unfold MemoryState.committing at h
  split at h
  · rename_i here present
    cases h
    exact (base.workers _ _ here).1
  · rename_i here missing
    cases h
    exact (base.workers _ _ here).1
  · cases h

/-- What the UPDATE of a flush makes of the row. -/
theorem Base.update_appends [DecidableEq β] (base : Base S s) {t again n : Nat}
    {entries : List StreamEntry} {loaded current : MemoryBuffer β} {existing : List ι}
    (here : s.workers t = some ⟨.flush again (.locked entries (some loaded) existing), true, n⟩)
    (buffer : s'.buffer =
      some (loaded.writeChanged (S.row (existing ++ S.newItems entries)) current)) :
    S.rowPayload s' = S.rowPayload s ++ S.newItems entries := by
  obtain ⟨seen, found⟩ := base.workers _ _ here
  obtain ⟨held, same, rfl⟩ := found rfl
  rw [rowPayload_some same rfl, rowPayload_some buffer (writeChanged_commit S seen.nonempty current)]

/-- What the INSERT of a flush makes of the missing row. -/
theorem Base.insert_appends (base : Base S s) {t again n : Nat} {entries : List StreamEntry}
    {existing : List ι}
    (here : s.workers t = some ⟨.flush again (.locked entries none existing), true, n⟩)
    (missing : s.buffer = none)
    (buffer : s'.buffer = some (S.row (existing ++ S.newItems entries))) :
    S.rowPayload s' = S.rowPayload s ++ S.newItems entries := by
  obtain ⟨seen, found⟩ := base.workers _ _ here
  have empty : existing = [] := found rfl
  rw [rowPayload_none missing, rowPayload_some buffer rfl, empty]

/-- **The effect of a step.** -/
theorem Base.effect [DecidableEq β] (base : Base S s) (h : Mycelium.step S s a = some s') :
    Effect S s a s' := by
  have step := step_sound h
  cases step with
  | append fresh =>
    refine .append _ (fun x hx => lt_of_le_of_lt (base.bounded x hx) fresh) rfl
      (Stream.entries_xadd ..) rfl rfl rfl
  | @spawn _ t job free starts =>
    refine .quiet ⟨rfl, rfl, rfl, rfl⟩ ?_
    have idle : s.committed t = none := by simp [MemoryState.committed, free]
    have fresh : (⟨job, true, 0⟩ : Worker ι β).committed = none := by
      cases a <;> simp only [Action.spawns, reduceCtorEq, Option.some.injEq, Prod.mk.injEq] at starts
        <;> obtain ⟨-, rfl⟩ := starts <;> rfl
    rw [MemoryState.committed_moved rfl, Option.bind_some, fresh, ← idle, Function.update_eq_self]
  | ends here quit =>
    exact .quiet ⟨rfl, rfl, rfl, rfl⟩
      (MemoryState.committed_same rfl here (Job.committed_of_canQuit quit)
        (Worker.committed_next _))
  | readAll here nonempty =>
    exact .quiet ⟨rfl, rfl, rfl, rfl⟩ (MemoryState.committed_same rfl here rfl rfl)
  | lockRow here present free decoded =>
    exact .quiet ⟨rfl, rfl, rfl, rfl⟩ (MemoryState.committed_same rfl here rfl rfl)
  | lockMissing here missing =>
    exact .quiet ⟨rfl, rfl, rfl, rfl⟩ (MemoryState.committed_same rfl here rfl rfl)
  | @commitUpdate t again entries n loaded existing current here present =>
    have seen := (base.workers _ _ here).1
    refine .flush t entries seen ?_ ?_ rfl rfl (base.update_appends here rfl) rfl ?_
    · simp only [MemoryState.committing, here, present]
    · rw [MemoryState.committed_here here]; rfl
    · rw [MemoryState.committed_moved rfl]; rfl
  | @commitInsert t again entries n existing here missing =>
    have seen := (base.workers _ _ here).1
    refine .flush t entries seen ?_ ?_ rfl rfl (base.insert_appends here missing rfl) rfl ?_
    · simp only [MemoryState.committing, here, missing]
    · rw [MemoryState.committed_here here]; rfl
    · rw [MemoryState.committed_moved rfl]; rfl
  | @trim t again entries existing n here =>
    refine .trim t entries (base.workers _ _ here) (.inl rfl) ?_ rfl rfl rfl rfl ?_
    · rw [MemoryState.committed_here here]; rfl
    · rw [MemoryState.committed_moved rfl, Worker.committed_next]; rfl
  | @trimUnanswered t again entries existing n here =>
    refine .trim t entries (base.workers _ _ here) (.inr rfl) ?_ rfl rfl rfl rfl ?_
    · rw [MemoryState.committed_here here]; rfl
    · rw [MemoryState.committed_moved rfl]; rfl
  | @failTrim t again entries existing n here =>
    refine .giveUp t entries ?_ ⟨rfl, rfl, rfl, rfl⟩ ?_
    · rw [MemoryState.committed_here here]; rfl
    · rw [MemoryState.committed_moved rfl]; rfl
  | fail here other =>
    exact .quiet ⟨rfl, rfl, rfl, rfl⟩
      (MemoryState.committed_same rfl here (Job.committed_of_not other)
        (Worker.committed_next _))
  | @revert t again entries existing n current here free present =>
    refine .revert t existing ?_ rfl rfl ?_ rfl ?_
    · simp only [MemoryState.reverting, here, present]
    · exact rowPayload_some rfl (writeChanged_revert S (base.workers _ _ here) current)
    · exact MemoryState.committed_same rfl here rfl (Worker.committed_next _)
  | revertGone here missing =>
    exact .quiet ⟨rfl, rfl, rfl, rfl⟩ (MemoryState.committed_same rfl here rfl
      (Worker.committed_next _))
  | readBuffer here present counted decoded start =>
    exact .quiet ⟨rfl, rfl, rfl, rfl⟩ (MemoryState.committed_same rfl here rfl rfl)
  | putObject here named fresh =>
    exact .quiet ⟨rfl, rfl, rfl, rfl⟩ (MemoryState.committed_same rfl here rfl rfl)
  | @commitBackup t id createdAt tier now n buffer payload periodStart key start backup here utc
      fresh free row =>
    have snapshot : S.Snapshot buffer payload periodStart := base.workers _ _ here
    refine .archive t id createdAt payload ?_ snapshot.nonempty rfl rfl ?_ rfl ?_
    · simp only [MemoryState.archiving, here, utc, Option.map_some]
    · exact rowPayload_none rfl
    · exact MemoryState.committed_same rfl here rfl rfl
  | selectStale here ranks =>
    exact .quiet ⟨rfl, rfl, rfl, rfl⟩ (MemoryState.committed_same rfl here rfl rfl)
  | deleteObject here =>
    exact .quiet ⟨rfl, rfl, rfl, rfl⟩ (MemoryState.committed_same rfl here rfl rfl)
  | commitPrune here =>
    exact .quiet ⟨rfl, rfl, rfl, rfl⟩ (MemoryState.committed_same rfl here rfl
      (Worker.committed_next _))
  | getObject here =>
    exact .quiet ⟨rfl, rfl, rfl, rfl⟩ (MemoryState.committed_same rfl here rfl rfl)
  | putCopy here named fresh =>
    exact .quiet ⟨rfl, rfl, rfl, rfl⟩ (MemoryState.committed_same rfl here rfl rfl)
  | commitCopy here fresh row =>
    exact .quiet ⟨rfl, rfl, rfl, rfl⟩ (MemoryState.committed_same rfl here rfl
      (Worker.committed_next _))
  | @die t job n here =>
    refine .quiet ⟨rfl, rfl, rfl, rfl⟩ ?_
    rw [MemoryState.committed_moved rfl, Option.bind_some]
    have kept : (⟨job, false, n⟩ : Worker ι β).committed = s.committed t := by
      rw [MemoryState.committed_here here]; rfl
    rw [kept]
    exact Function.update_eq_self (f := s.committed) t

/-- Only a rollup's commit archives anything. -/
theorem Base.archived_kept [DecidableEq β] (base : Base S s) (h : Mycelium.step S s a = some s')
    (other : a.commitsBackup = none) : s'.archived = s.archived := by
  cases base.effect h with
  | quiet same => exact same.archived
  | append e past accepted live row archived => exact archived
  | flush t entries seen batch before accepted live row archived => exact archived
  | trim t entries seen label batch accepted stream row archived => exact archived
  | giveUp t entries batch same => exact same.archived
  | revert t existing kept accepted live row archived => exact archived
  | archive => cases other

/-! ## Appends -/

/-- The entry an action appends to the stream. -/
def Action.appends : Action β → Option StreamEntry
  | .append content capturedAt id _ => some ⟨id, content, capturedAt⟩
  | _ => none

theorem accepted_kept [DecidableEq β] (h : Mycelium.step S s a = some s') (other : a.appends = none) :
    s'.accepted = s.accepted := by
  cases step_sound h with
  | append fresh => cases other
  | _ => rfl

/-- Only an append adds an accepted entry. -/
theorem accepted_step [DecidableEq β] (h : Mycelium.step S s a = some s') :
    s'.accepted = s.accepted ++ a.appends.toList := by
  cases found : a.appends with
  | none => rw [accepted_kept h found, Option.toList_none, List.append_nil]
  | some e =>
    cases a <;> cases found
    simp only [Mycelium.step] at h
    split at h
    · cases h
      rfl
    · cases h

theorem lastId_kept [DecidableEq β] (h : Mycelium.step S s a = some s') (other : a.appends = none) :
    s'.stream.lastId = s.stream.lastId := by
  cases step_sound h with
  | append fresh => cases other
  | trim here | trimUnanswered here => exact lastId_trim _ _
  | _ => rfl

/-- Whatever is no append leaves in the stream entries that were there. -/
theorem Base.live_shrinks [DecidableEq β] (base : Base S s) (h : Mycelium.step S s a = some s')
    (other : a.appends = none) : s'.stream.entries.Sublist s.stream.entries := by
  have kept := accepted_kept h other
  cases base.effect h with
  | quiet same => exact same.live ▸ .refl _
  | append e past accepted => simp [accepted] at kept
  | flush t entries seen batch before accepted live => exact live ▸ .refl _
  | trim t entries seen label batch accepted stream =>
    rw [stream]
    exact (base.trim_suffix seen).sublist
  | giveUp t entries batch same => exact same.live ▸ .refl _
  | revert t existing back accepted live => exact live ▸ .refl _
  | archive t id createdAt payload snapshot nonempty accepted live => exact live ▸ .refl _

/-! ## Entries that have been flushed -/

/-- `e` has been accepted, and has been trimmed or is in a batch about to be. -/
def MemoryState.Flushed (s : MemoryState ι β) (e : StreamEntry) : Prop :=
  e ∈ s.accepted ∧ (e ∈ s.stream.entries → ∃ t batch, s.committed t = some batch ∧ e ∈ batch)

theorem Same.flushed_iff (same : Same S s s') (committed : s'.committed = s.committed)
    (e : StreamEntry) : s'.Flushed e ↔ s.Flushed e := by
  simp only [MemoryState.Flushed, same.accepted, same.live, committed]

/-- An append flushes nothing. -/
theorem Base.flushed_of_append (base : Base S s) {e : StreamEntry}
    (past : ∀ x ∈ s.accepted, x.id < e.id) (accepted : s'.accepted = s.accepted ++ [e])
    (live : s'.stream.entries = s.stream.entries ++ [e]) (committed : s'.committed = s.committed)
    (x : StreamEntry) : s'.Flushed x ↔ s.Flushed x := by
  simp only [MemoryState.Flushed, accepted, live, committed, List.mem_append, List.mem_singleton]
  constructor
  · rintro ⟨known, flushed⟩
    rcases known with old | rfl
    · exact ⟨old, fun inStream => flushed (.inl inStream)⟩
    · -- the new entry is in no batch
      obtain ⟨t, batch, committed, inside⟩ := flushed (.inr rfl)
      exact absurd (past x ((base.seen_committed committed).subset inside)) (lt_irrefl _)
  · rintro ⟨old, flushed⟩
    refine ⟨.inl old, fun inStream => flushed (inStream.resolve_right ?_)⟩
    rintro rfl
    exact absurd (past x old) (lt_irrefl _)

/-- A commit flushes its batch. -/
theorem MemoryState.flushed_of_flush {t : Nat} {entries : List StreamEntry} (seen : s.Seen entries)
    (before : s.committed t = none) (accepted : s'.accepted = s.accepted)
    (live : s'.stream.entries = s.stream.entries)
    (committed : s'.committed = Function.update s.committed t (some entries)) (e : StreamEntry) :
    s'.Flushed e ↔ s.Flushed e ∨ e ∈ entries := by
  simp only [MemoryState.Flushed, accepted, live, committed]
  constructor
  · rintro ⟨old, flushed⟩
    by_cases inBatch : e ∈ entries
    · exact .inr inBatch
    · refine .inl ⟨old, fun inStream => ?_⟩
      obtain ⟨t', batch', there, inside⟩ := flushed inStream
      have other : t' ≠ t := by
        rintro rfl
        rw [Function.update_self] at there
        cases there
        exact inBatch inside
      exact ⟨t', batch', by rwa [Function.update_of_ne other] at there, inside⟩
  · rintro (⟨old, flushed⟩ | inBatch)
    · refine ⟨old, fun inStream => ?_⟩
      obtain ⟨t', batch', there, inside⟩ := flushed inStream
      have other : t' ≠ t := by
        rintro rfl
        cases before.symm.trans there
      exact ⟨t', batch', by rw [Function.update_of_ne other]; exact there, inside⟩
    · exact ⟨seen.subset inBatch, fun _ => ⟨t, entries, Function.update_self .., inBatch⟩⟩

/-- An exact trim leaves exactly the same entries flushed. -/
theorem Base.flushed_of_trim (base : Base S s) (exact : S.trimMode = .exact) {t : Nat}
    {entries : List StreamEntry} (seen : s.Seen entries) (batch : s.committed t = some entries)
    (accepted : s'.accepted = s.accepted) (stream : s'.stream = S.trim entries s.stream)
    (committed : s'.committed = Function.update s.committed t none) (e : StreamEntry) :
    s'.Flushed e ↔ s.Flushed e := by
  simp only [MemoryState.Flushed, accepted, stream, base.mem_trim_exact exact seen]
  constructor
  · rintro ⟨old, flushed⟩
    refine ⟨old, fun inStream => ?_⟩
    by_cases inBatch : e ∈ entries
    · exact ⟨t, entries, batch, inBatch⟩
    · obtain ⟨t', batch', there, inside⟩ := flushed ⟨inStream, inBatch⟩
      exact ⟨t', batch', MemoryState.committed_of_update committed there, inside⟩
  · rintro ⟨old, flushed⟩
    refine ⟨old, fun ⟨inStream, outside⟩ => ?_⟩
    obtain ⟨t', batch', there, inside⟩ := flushed inStream
    have other : t' ≠ t := by
      rintro rfl
      cases batch.symm.trans there
      exact outside inside
    exact ⟨t', batch', by rw [committed, Function.update_of_ne other]; exact there, inside⟩

/-! ## Commits that take place -/

/-- A commit that would append a batch does. -/
theorem Base.commit_appends [DecidableEq β] {t : Nat} {entries : List StreamEntry} (base : Base S s)
    (h : Mycelium.step S s (.commitBuffer t) = some s') (batch : s.committing t = some entries) :
    S.rowPayload s' = S.rowPayload s ++ S.newItems entries := by
  unfold MemoryState.committing at batch
  split at batch
  · rename_i here present
    cases batch
    simp only [Mycelium.step, Action.worker, MemoryState.running_iff.2 ⟨here, rfl⟩, flushStep,
      present] at h
    cases h
    exact base.update_appends here rfl
  · rename_i here missing
    cases batch
    simp only [Mycelium.step, Action.worker, MemoryState.running_iff.2 ⟨here, rfl⟩, flushStep,
      missing] at h
    cases h
    exact base.insert_appends here missing rfl
  · cases batch

/-- A commit that would archive a payload does. -/
theorem commit_archives [DecidableEq β] {t id : Nat} {createdAt : Int} {payload : List ι}
    (h : Mycelium.step S s (.commitBackup t id createdAt) = some s')
    (snapshot : s.archiving t = some payload) : s'.archived = s.archived ++ [payload] := by
  unfold MemoryState.archiving at snapshot
  split at snapshot
  · rename_i here
    obtain ⟨start, utc, same⟩ := Option.map_eq_some_iff.1 snapshot
    cases same
    simp only [Mycelium.step, Action.worker, MemoryState.running_iff.2 ⟨here, rfl⟩, rollupStep,
      utc] at h
    split at h
    · cases h
    · split at h
      · cases h; rfl
      · cases h
  · cases snapshot

end Mycelium
