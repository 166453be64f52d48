import Mycelium.Worker.Alone
import Mycelium.Worker.Invariants

/-!
# Whatever is pending can be archived

However tasks have overlapped, failed or died before, once no task of a clone is
at work one flush and one rollup that meet no failure archive the row and the
stream together: nothing the earlier tasks have left behind, a lock, an object or
the slots of the dead, stands in their way. `drain` is the run; it asks only for
what the servers provide (ids not in use, a ranking of the rows) and for
timestamps that parse and can be stored.
-/

namespace Mycelium

variable {ι β : Type} [DecidableEq β] {S : Service ι β} {s s' : MemoryState ι β} {t : Nat}
  {a : Action β}

/-! ## Locks of the dead -/

/-- Only a transaction at work holds the row's lock. -/
def MemoryState.LockHeld (s : MemoryState ι β) : Prop :=
  ∀ t, s.lock = some t → ∃ again entries buffer existing n,
    s.workers t = some ⟨.flush again (.locked entries (some buffer) existing), true, n⟩

omit [DecidableEq β] in
/-- A step of another task, or of one that holds no lock. -/
theorem MemoryState.LockHeld.moved {x : Option (Worker ι β)} (held : s.LockHeld)
    (workers : s'.workers = Function.update s.workers t x)
    (lock : ∀ t', s'.lock = some t' → t' ≠ t ∧ s.lock = some t') : s'.LockHeld := by
  intro t' now
  obtain ⟨other, before⟩ := lock t' now
  rw [workers, Function.update_of_ne other]
  exact held t' before

omit [DecidableEq β] in
theorem lock_of_unlock {lock : Option Nat} {t' : Nat}
    (h : (if lock = some t then none else lock) = some t') : t' ≠ t ∧ lock = some t' := by
  split at h
  · cases h
  · rename_i other
    refine ⟨?_, h⟩
    rintro rfl
    exact other h

theorem MemoryState.LockHeld.preserved (held : s.LockHeld) (h : step S s a = some s') :
    s'.LockHeld := by
  have step := step_sound h
  -- a task whose slot is not that of a locking transaction has no lock to lose
  have keeps : ∀ {t : Nat} {w : Worker ι β}, s.workers t = some w →
      (∀ again entries buffer existing n,
        w ≠ ⟨.flush again (.locked entries (some buffer) existing), true, n⟩) →
      ∀ t', s.lock = some t' → t' ≠ t ∧ s.lock = some t' := by
    intro t w here other t' locked
    refine ⟨?_, locked⟩
    rintro rfl
    obtain ⟨again, entries, buffer, existing, n, slot⟩ := held t' locked
    exact other again entries buffer existing n (Option.some.inj (here.symm.trans slot))
  cases step with
  | append fresh => exact held
  | @spawn _ t job free starts =>
    refine held.moved (t := t) rfl fun t' locked => ⟨?_, locked⟩
    rintro rfl
    obtain ⟨_, _, _, _, _, slot⟩ := held t' locked
    cases free.symm.trans slot
  | ends here quit | trim here | fail here other | revert here free present
  | revertGone here missing | commitUpdate here present | commitPrune here
  | commitCopy here fresh row => exact held.moved rfl fun t' => lock_of_unlock
  | @die t job n here => exact held.moved (t := t) rfl fun t' => lock_of_unlock
  | @lockRow t again entries n buffer existing here present free decoded =>
    intro t' locked
    cases locked
    exact ⟨again, entries, buffer, existing, n, Function.update_self ..⟩
  | readAll here nonempty | lockMissing here missing | commitInsert here missing
  | trimUnanswered here | failTrim here | readBuffer here present counted decoded start
  | putObject here named fresh | commitBackup here utc fresh free row | selectStale here ranks
  | deleteObject here | getObject here | putCopy here named fresh =>
    exact held.moved rfl (keeps here (by rintro _ _ _ _ _ ⟨⟩))

omit [DecidableEq β] in
theorem MemoryState.LockHeld.initial : (MemoryState.initial (ι := ι) (β := β)).LockHeld := by
  rintro t ⟨⟩

omit [DecidableEq β] in
/-- Where no task is at work the row is not locked. -/
theorem MemoryState.LockHeld.free (held : s.LockHeld) (quiet : ∀ t, s.running t = none) :
    s.lock = none := by
  cases locked : s.lock with
  | none => rfl
  | some t =>
    obtain ⟨again, entries, buffer, existing, n, slot⟩ := held t locked
    have alive := MemoryState.running_iff.2 ⟨slot, rfl⟩
    cases (quiet t).symm.trans alive

/-! ## The calls of a task that meets no failure -/

section Calls

variable {n : Nat} {entries : List StreamEntry} {existing : List ι} {tier : SubscriptionTier}
  {now : Int} {buffer : MemoryBuffer β} {payload : List ι} {periodStart : Datetime}
  {key : ObjectKey} {backup : MemoryBackup} {stale : List MemoryBackup} {todo : List ObjectKey}

omit [DecidableEq β] in
theorem running_set (job : Job ι β) :
    (s.set t (some ⟨job, true, n⟩)).running t = some ⟨job, true, n⟩ :=
  MemoryState.running_iff.2 ⟨Function.update_self .., rfl⟩

omit [DecidableEq β] in
@[simp] theorem set_set (x y : Option (Worker ι β)) : (s.set t x).set t y = s.set t y := by
  rw [MemoryState.set, MemoryState.set, MemoryState.set, Function.update_idem]

theorem step_of_flush (a : Action β) {point : FlushPoint ι β} (label : a.worker = some t)
    (lives : a ≠ .die t) :
    step S (s.set t (some ⟨.flush 0 point, true, n⟩)) a =
      flushStep S (s.set t (some ⟨.flush 0 point, true, n⟩)) t ⟨.flush 0 point, true, n⟩ 0 point
        a := by
  cases a <;> cases label <;> first
    | exact absurd rfl lives
    | simp only [step, Action.worker, running_set]

theorem step_of_rollup (a : Action β) {point : RollupPoint ι β} (label : a.worker = some t)
    (lives : a ≠ .die t) :
    step S (s.set t (some ⟨.rollup tier now point, true, n⟩)) a =
      rollupStep S (s.set t (some ⟨.rollup tier now point, true, n⟩)) t
        ⟨.rollup tier now point, true, n⟩ tier now point a := by
  cases a <;> cases label <;> first
    | exact absurd rfl lives
    | simp only [step, Action.worker, running_set]

theorem readAll_taken (nonempty : s.stream.entries ≠ []) :
    step S (s.set t (some ⟨.flush 0 .start, true, n⟩)) (.readAll t) =
      some (s.set t (some ⟨.flush 0 (.read s.stream.entries), true, n⟩)) := by
  rw [step_of_flush (.readAll t) rfl nofun]
  simp [flushStep, MemoryState.goto, MemoryState.set, nonempty]

theorem readAll_empty (empty : s.stream.entries = []) (free : s.lock = none) :
    step S (s.set t (some ⟨.flush 0 .start, true, n⟩)) (.readAll t) = some (s.set t none) := by
  rw [step_of_flush (.readAll t) rfl nofun]
  simp [flushStep, MemoryState.finish, MemoryState.unlock, MemoryState.set, Worker.next, empty, free]

theorem lockRow_taken (present : s.buffer = some buffer) (free : s.lock = none)
    (decoded : S.payload buffer = some existing) :
    step S (s.set t (some ⟨.flush 0 (.read entries), true, n⟩)) (.lockRow t) =
      some ({ s with lock := some t }.set t
        (some ⟨.flush 0 (.locked entries (some buffer) existing), true, n⟩)) := by
  rw [step_of_flush (.lockRow t) rfl nofun]
  simp [flushStep, MemoryState.goto, MemoryState.set, present, free, decoded]

theorem lockMissing_taken (missing : s.buffer = none) :
    step S (s.set t (some ⟨.flush 0 (.read entries), true, n⟩)) (.lockRow t) =
      some (s.set t (some ⟨.flush 0 (.locked entries none []), true, n⟩)) := by
  rw [step_of_flush (.lockRow t) rfl nofun]
  simp [flushStep, MemoryState.goto, MemoryState.set, missing]

theorem commitUpdate_taken (present : s.buffer = some buffer) :
    step S ({ s with lock := some t }.set t
        (some ⟨.flush 0 (.locked entries (some buffer) existing), true, n⟩)) (.commitBuffer t) =
      some ({ s with buffer := some (S.row (existing ++ S.newItems entries)), lock := none }.set t
        (some ⟨.flush 0 (.committed entries existing), true, n⟩)) := by
  rw [step_of_flush (.commitBuffer t) rfl nofun]
  simp [flushStep, MemoryState.goto, MemoryState.unlock, MemoryState.set, present,
    writeChanged_self]

theorem commitInsert_taken (missing : s.buffer = none) :
    step S (s.set t (some ⟨.flush 0 (.locked entries none existing), true, n⟩)) (.commitBuffer t) =
      some ({ s with buffer := some (S.row (existing ++ S.newItems entries)) }.set t
        (some ⟨.flush 0 (.committed entries existing), true, n⟩)) := by
  rw [step_of_flush (.commitBuffer t) rfl nofun]
  simp [flushStep, MemoryState.goto, MemoryState.set, missing]

theorem trim_taken (free : s.lock = none) :
    step S (s.set t (some ⟨.flush 0 (.committed entries existing), true, n⟩)) (.trim t) =
      some ({ s with stream := S.trim entries s.stream }.set t none) := by
  rw [step_of_flush (.trim t) rfl nofun]
  simp [flushStep, MemoryState.finish, MemoryState.unlock, MemoryState.set, Worker.next, free]

theorem readBuffer_taken (present : s.buffer = some buffer) (counted : buffer.entryCount ≠ 0)
    (decoded : S.payload buffer = some payload) (start : S.periodStart payload = some periodStart) :
    step S (s.set t (some ⟨.rollup tier now .start, true, n⟩)) (.readBuffer t) =
      some (s.set t (some ⟨.rollup tier now (.read buffer payload periodStart), true, n⟩)) := by
  rw [step_of_rollup (.readBuffer t) rfl nofun]
  simp [rollupStep, MemoryState.goto, MemoryState.set, present, counted, decoded, start]

theorem putObject_taken {uuid : Nat} (named : key = backupKey S.cloneId periodStart (.utc now) uuid)
    (fresh : key ∉ s.keys) :
    step S (s.set t (some ⟨.rollup tier now (.read buffer payload periodStart), true, n⟩))
        (.putObject t uuid) =
      some ((s.putObject key buffer.payloadBlob).set t
        (some ⟨.rollup tier now (.uploaded buffer payload periodStart key), true, n⟩)) := by
  subst named
  rw [step_of_rollup (.putObject t uuid) rfl nofun]
  simp [rollupStep, MemoryState.goto, MemoryState.putObject, MemoryState.set, fresh]

theorem commitBackup_taken {id : Nat} {createdAt start : Int}
    (utc : periodStart.astimezoneUtc = some start) (fresh : id ∉ s.backups.map MemoryBackup.id)
    (free : s.lock = none)
    (row : backup = ⟨id, S.cloneId, start, now, buffer.entryCount, key, tier, createdAt, none⟩) :
    step S (s.set t (some ⟨.rollup tier now (.uploaded buffer payload periodStart key), true, n⟩))
        (.commitBackup t id createdAt) =
      some ({ s with
        backups := s.backups ++ [backup]
        buffer := none
        archived := s.archived ++ [payload] }.set t
          (some ⟨.rollup tier now (.committed backup), true, n⟩)) := by
  subst row
  rw [step_of_rollup (.commitBackup t id createdAt) rfl nofun]
  simp [rollupStep, MemoryState.goto, MemoryState.set, utc, fresh, free]

theorem selectStale_taken {ranked : List MemoryBackup} (ranks : RanksByPeriodEnd s.backups ranked) :
    step S (s.set t (some ⟨.rollup tier now (.committed backup), true, n⟩))
        (.selectStale t ranked) =
      some (s.set t (some ⟨.rollup tier now (.pruning backup (staleBackups ranked)
        ((staleBackups ranked).map MemoryBackup.storageKey)), true, n⟩)) := by
  rw [step_of_rollup (.selectStale t ranked) rfl nofun]
  simp [rollupStep, MemoryState.goto, MemoryState.set, ranks]

theorem deleteObject_taken :
    step S (s.set t (some ⟨.rollup tier now (.pruning backup stale (key :: todo)), true, n⟩))
        (.deleteObject t) =
      some ((s.deleteObject key).set t
        (some ⟨.rollup tier now (.pruning backup stale todo), true, n⟩)) := by
  rw [step_of_rollup (.deleteObject t) rfl nofun]
  simp [rollupStep, MemoryState.goto, MemoryState.deleteObject, MemoryState.set]

theorem commitPrune_taken (free : s.lock = none) :
    step S (s.set t (some ⟨.rollup tier now (.pruning backup stale []), true, n⟩))
        (.commitPrune t) =
      some ({ s with
        backups := s.backups.filter fun b => b.id ∉ stale.map MemoryBackup.id }.set t none) := by
  rw [step_of_rollup (.commitPrune t) rfl nofun]
  simp [rollupStep, MemoryState.finish, MemoryState.unlock, MemoryState.set, Worker.next, free]

end Calls

/-! ## The run -/

/-- A flush of `entries`, the whole stream. -/
def flushCalls (t : Nat) (entries : List StreamEntry) : List (Action β) :=
  if entries = [] then [.startFlush t 0, .readAll t]
  else [.startFlush t 0, .readAll t, .lockRow t, .commitBuffer t, .trim t]

/-- A rollup whose prune ranks the rows as `ranked`. -/
def rollupCalls (t : Nat) (tier : SubscriptionTier) (now : Int) (uuid id : Nat) (createdAt : Int)
    (ranked : List MemoryBackup) : List (Action β) :=
  [.startRollup t tier now, .readBuffer t, .putObject t uuid, .commitBackup t id createdAt,
    .selectStale t ranked] ++ (List.replicate (staleBackups ranked).length (.deleteObject t) ++
    [.commitPrune t])

omit [DecidableEq β] in
/-- A slot that is free again. -/
theorem slot_back (free : s.workers t = none) : (s.set t none).workers = s.workers := by
  rw [MemoryState.set_workers, Function.update_eq_self_iff, free]

theorem start_taken (free : s.workers t = none) {job : Job ι β} (starts : a.spawns = some (t, job)) :
    step S s a = some (s.set t (some ⟨job, true, 0⟩)) := by
  cases a <;> simp only [Action.spawns, reduceCtorEq, Option.some.injEq, Prod.mk.injEq] at starts
    <;> obtain ⟨rfl, rfl⟩ := starts <;> simp only [step, MemoryState.spawn, free]

/-- What a flush of the whole stream has done. -/
structure Service.Drained (S : Service ι β) (s s' : MemoryState ι β) : Prop where
  workers : s'.workers = s.workers
  lock : s'.lock = none
  row : S.rowPayload s' = S.rowPayload s ++ S.newItems s.stream.entries
  stream : s'.stream = S.trim s.stream.entries s.stream
  backups : s'.backups = s.backups
  keys : s'.keys = s.keys
  archived : s'.archived = s.archived

/-- A flush runs to its end. -/
theorem flush_runs (base : Base S s) (free : s.workers t = none) (unlocked : s.lock = none) :
    ∃ s', Run.exec (step S) s (flushCalls t s.stream.entries) = some s' ∧ S.Drained s s' := by
  have started : step S s (.startFlush t 0) = some (s.set t (some ⟨.flush 0 .start, true, 0⟩)) :=
    start_taken free rfl
  by_cases drained : s.stream.entries = []
  · rw [flushCalls, if_pos drained, Run.exec_of_step started,
      Run.exec_of_step (readAll_empty drained unlocked), Run.exec_nil]
    refine ⟨_, rfl, slot_back free, unlocked, ?_, ?_, rfl, rfl, rfl⟩
    · rw [drained]
      exact (List.append_nil _).symm
    · rw [drained]
      rfl
  · rw [flushCalls, if_neg drained, Run.exec_of_step started, Run.exec_of_step (readAll_taken drained)]
    cases present : s.buffer with
    | none =>
      rw [Run.exec_of_step (lockMissing_taken present),
        Run.exec_of_step (commitInsert_taken present),
        Run.exec_of_step (trim_taken (s := { s with buffer := some _ }) unlocked), Run.exec_nil]
      refine ⟨_, rfl, slot_back free, unlocked, ?_, rfl, rfl, rfl, rfl⟩
      rw [rowPayload_none present]
      exact rowPayload_some rfl rfl
    | some row =>
      obtain ⟨items, rfl⟩ := base.row row present
      rw [Run.exec_of_step (lockRow_taken present unlocked (S.payload_row items)),
        Run.exec_of_step (commitUpdate_taken present), Run.exec_of_step (trim_taken rfl),
        Run.exec_nil]
      refine ⟨_, rfl, slot_back free, rfl, ?_, rfl, rfl, rfl, rfl⟩
      rw [rowPayload_some present rfl]
      exact rowPayload_some rfl rfl

/-- What the deletions of a prune leave alone. -/
theorem deletes_run (S : Service ι β) (t : Nat) (tier : SubscriptionTier) (now : Int)
    (backup : MemoryBackup) (stale : List MemoryBackup) (todo : List ObjectKey) :
    ∀ s : MemoryState ι β, ∃ objects,
      Run.exec (step S) (s.set t (some ⟨.rollup tier now (.pruning backup stale todo), true, 0⟩))
          (List.replicate todo.length (.deleteObject t)) =
        some ({ s with objects := objects }.set t
          (some ⟨.rollup tier now (.pruning backup stale []), true, 0⟩)) := by
  induction todo with
  | nil => exact fun s => ⟨s.objects, rfl⟩
  | cons key todo ih =>
    intro s
    obtain ⟨objects, run⟩ := ih (s.deleteObject key)
    refine ⟨objects, ?_⟩
    rw [List.length_cons, List.replicate_succ, Run.exec_of_step deleteObject_taken, run]
    rfl

/-- A rollup of the items in the row runs to its end. -/
theorem rollup_runs {items : List ι} {tier : SubscriptionTier} {now createdAt start : Int}
    {uuid id : Nat} {ranked : List MemoryBackup} {periodStart : Datetime} {backup : MemoryBackup}
    (free : s.workers t = none) (unlocked : s.lock = none)
    (present : s.buffer = some (S.row items)) (nonempty : items ≠ [])
    (earliest : S.periodStart items = some periodStart)
    (utc : periodStart.astimezoneUtc = some start)
    (unused : backupKey S.cloneId periodStart (.utc now) uuid ∉ s.keys)
    (new : id ∉ s.backups.map MemoryBackup.id)
    (row : backup = ⟨id, S.cloneId, start, now, items.length,
      backupKey S.cloneId periodStart (.utc now) uuid, tier, createdAt, none⟩)
    (ranks : RanksByPeriodEnd (s.backups ++ [backup]) ranked) :
    ∃ s', Run.exec (step S) s (rollupCalls t tier now uuid id createdAt ranked) = some s' ∧
      s'.workers = s.workers ∧ s'.lock = none ∧ s'.buffer = none ∧ s'.stream = s.stream ∧
      s'.archived = s.archived ++ [items] ∧
      s'.backups = (s.backups ++ [backup]).filter fun b =>
        b.id ∉ (staleBackups ranked).map MemoryBackup.id := by
  have started : step S s (.startRollup t tier now) =
      some (s.set t (some ⟨.rollup tier now .start, true, 0⟩)) := start_taken free rfl
  have counted : (S.row items).entryCount ≠ 0 := by
    rw [S.row_entryCount]
    exact fun none => nonempty (List.length_eq_zero_iff.1 none)
  let uploaded := s.putObject (backupKey S.cloneId periodStart (.utc now) uuid)
    (S.row items).payloadBlob
  let committed := { uploaded with
    backups := s.backups ++ [backup], buffer := none, archived := s.archived ++ [items] }
  have archives : Run.exec (step S) s [.startRollup t tier now, .readBuffer t, .putObject t uuid,
      .commitBackup t id createdAt, .selectStale t ranked] =
      some (committed.set t (some ⟨.rollup tier now (.pruning backup (staleBackups ranked)
        ((staleBackups ranked).map MemoryBackup.storageKey)), true, 0⟩)) := by
    rw [Run.exec_of_step started,
      Run.exec_of_step (readBuffer_taken present counted (S.payload_row items) earliest),
      Run.exec_of_step (putObject_taken rfl unused)]
    exact (Run.exec_of_step (commitBackup_taken (s := uploaded) utc new unlocked row) _).trans
      (Run.exec_of_step (selectStale_taken (s := committed) ranks) [])
  obtain ⟨objects, deletions⟩ := deletes_run S t tier now backup (staleBackups ranked)
    ((staleBackups ranked).map MemoryBackup.storageKey) committed
  rw [List.length_map] at deletions
  rw [rollupCalls, Run.exec_append, archives, Option.bind_some, Run.exec_append, deletions,
    Option.bind_some,
    Run.exec_of_step (commitPrune_taken (s := { committed with objects := objects }) unlocked)]
  exact ⟨_, rfl, slot_back free, unlocked, rfl, rfl, rfl, rfl⟩

/-- What has been flushed and not archived, and what has not been flushed. -/
def Service.pending (S : Service ι β) (s : MemoryState ι β) : List ι :=
  S.rowPayload s ++ S.newItems s.stream.entries

/-- **Nothing is ever stuck.** From every state that overlapping, failing and dying tasks can lead
to, once none of them is at work, one flush and one rollup archive all that is pending. -/
theorem pending_archived (S : Service ι β) (as : List (Action β)) (s : MemoryState ι β)
    (run : Run.exec (step S) .initial as = some s) (quiet : ∀ t, s.running t = none)
    (t : Nat) (free : s.workers t = none) (tier : SubscriptionTier) (now createdAt start : Int)
    (uuid id : Nat) (ranked : List MemoryBackup) (periodStart : Datetime) (backup : MemoryBackup)
    (earliest : S.periodStart (S.pending s) = some periodStart)
    (utc : periodStart.astimezoneUtc = some start)
    (unused : backupKey S.cloneId periodStart (.utc now) uuid ∉ s.keys)
    (new : id ∉ s.backups.map MemoryBackup.id)
    (row : backup = ⟨id, S.cloneId, start, now, (S.pending s).length,
      backupKey S.cloneId periodStart (.utc now) uuid, tier, createdAt, none⟩)
    (ranks : RanksByPeriodEnd (s.backups ++ [backup]) ranked) :
    ∃ s', Run.exec (step S) s
        (flushCalls t s.stream.entries ++ rollupCalls t tier now uuid id createdAt ranked) = some s' ∧
      s'.archived = s.archived ++ [S.pending s] ∧ s'.buffer = none ∧
      s'.stream = S.trim s.stream.entries s.stream ∧ (∀ t, s'.running t = none) ∧
      s'.backups = (s.backups ++ [backup]).filter fun b =>
        b.id ∉ (staleBackups ranked).map MemoryBackup.id := by
  have base := Base.reachable run
  have held : s.LockHeld := Run.invariant (fun _ _ _ held h => held.preserved h) .initial run
  obtain ⟨drained, flush, done⟩ := flush_runs base free (held.free quiet)
  have nonempty : S.pending s ≠ [] := by
    intro none
    rw [none] at earliest
    cases earliest
  have present : drained.buffer = some (S.row (S.pending s)) := by
    have after : Base S drained := Run.invariant (fun _ _ _ base h => base.preserved h) base flush
    cases found : drained.buffer with
    | none => exact absurd (done.row.symm.trans (rowPayload_none found)) nonempty
    | some buffer =>
      obtain ⟨items, rfl⟩ := after.row buffer found
      rw [← rowPayload_some found rfl, done.row]
      rfl
  obtain ⟨s', rollup, workers, _, buffer, stream, archived, backups⟩ :=
    rollup_runs (S := S) (t := t) (by rw [done.workers, free]) done.lock present nonempty earliest utc
      (by rwa [done.keys]) (by rwa [done.backups]) row (by rwa [done.backups])
  refine ⟨s', ?_, ?_, buffer, ?_, fun u => ?_, ?_⟩
  · rw [Run.exec_append, flush, Option.bind_some, rollup]
  · rw [archived, done.archived]
  · rw [stream, done.stream]
  · rw [MemoryState.running, workers, done.workers]
    exact quiet u
  · rw [backups, done.backups]

/-- A flush dies between its commit and its trim. -/
def diedBeforeTrim : List (Action (List MemoryItem)) :=
  [.append "a" "2026-01-01T00:00:00+00:00" ⟨1, 0⟩ false, .startFlush 0 0, .readAll 0, .lockRow 0,
    .commitBuffer 0, .die 0]

/-- The backup of what is pending then: the entry once from the row and once from the stream. -/
def backupOfTwo : MemoryBackup :=
  ⟨1, 1, 63902822400000000, 63902822400000001, 2, ⟨1, 63902822400, 63902822400, 0⟩, .free, 0, none⟩

theorem archived_of_died_before_trim :
    ∃ s s', Run.exec (step (.sample .approximate)) .initial diedBeforeTrim = some s ∧
      Run.exec (step (.sample .approximate)) s (flushCalls 1 s.stream.entries ++
        rollupCalls 1 .free 63902822400000001 0 1 0 [backupOfTwo]) = some s' ∧
      s'.archived.map List.length = [2] := by
  obtain ⟨s', run, archived, -⟩ := pending_archived (.sample .approximate) diedBeforeTrim _ rfl
    (fun t => by rcases t with _ | t <;> rfl) 1 rfl .free 63902822400000001 0 63902822400000000 0 1
    [backupOfTwo] ⟨63902822400000000, some 0⟩ backupOfTwo rfl rfl (by decide) (by decide) rfl
    (by decide)
  exact ⟨_, s', rfl, run, by rw [archived]; rfl⟩

end Mycelium
