import Mycelium.Worker.Interleaving

/-!
# What a step can do

`Step` lists the ways a step can change the state, each with its guards;
`step_sound` says that there are no others. Invariants are proved by cases on
`Step` and never unfold `step`. A call that returns or raises without having
touched the stores is the one case `ends`.
-/

namespace Mycelium

variable {ι β : Type}

namespace MemoryState

variable (s : MemoryState ι β) (t : Nat) (w : Worker ι β)

@[simp] theorem set_workers (x : Option (Worker ι β)) :
    (s.set t x).workers = Function.update s.workers t x := rfl

@[simp] theorem goto_workers (job : Job ι β) :
    (s.goto t w job).workers = Function.update s.workers t (some { w with job := job }) := rfl

@[simp] theorem unlock_workers : (s.unlock t).workers = s.workers := rfl

@[simp] theorem finish_workers : (s.finish t w).workers = Function.update s.workers t w.next := rfl

@[simp] theorem putObject_workers (key : ObjectKey) (data : β) :
    (s.putObject key data).workers = s.workers := rfl

variable {s t}

/-- What is read off every slot, after a step of `t`. -/
theorem slots_moved {γ : Type} (f : Option (Worker ι β) → γ) {s' : MemoryState ι β}
    {x : Option (Worker ι β)} (workers : s'.workers = Function.update s.workers t x) :
    (fun t' => f (s'.workers t')) = Function.update (fun t' => f (s.workers t')) t (f x) := by
  funext t'
  rw [workers]
  exact Function.apply_update (fun _ => f) s.workers t x t'

end MemoryState

/-- After a call has ended the worker is gone or about to start the next one. -/
theorem Worker.next_eq {w w' : Worker ι β} (h : w.next = some w') :
    ∃ again, w' = ⟨.flush again .start, w.alive, w.faults⟩ := by
  unfold next at h
  split at h
  · cases h; exact ⟨_, rfl⟩
  · cases h

/-- The task a start action gives to which worker. -/
def Action.spawns : Action β → Option (Nat × Job ι β)
  | .startFlush t again => some (t, .flush again .start)
  | .startRollup t tier now => some (t, .rollup tier now .start)
  | .startResurrect t tier latest => some (t, .resurrect tier latest .selected)
  | _ => none

/-- The call can return or raise here with nothing written. -/
def Job.CanQuit : Job ι β → Prop
  | .flush _ .start | .flush _ (.read _) | .flush _ (.locked ..) => True
  | .rollup _ _ .start | .rollup _ _ (.uploaded ..) => True
  | _ => False

/-- A flush between its commit and its trim. -/
def Job.Committed : Job ι β → Prop
  | .flush _ (.committed ..) => True
  | _ => False

variable [DecidableEq β] (S : Service ι β)

inductive Step (s : MemoryState ι β) : Action β → MemoryState ι β → Prop where
  | append {content capturedAt id newNode} (fresh : s.stream.lastId < id) :
      Step s (.append content capturedAt id newNode) { s with
        stream := s.stream.xadd S.nodeEntries newNode ⟨id, content, capturedAt⟩
        accepted := s.accepted ++ [⟨id, content, capturedAt⟩] }
  | spawn {a t job} (free : s.workers t = none) (starts : a.spawns = some (t, job)) :
      Step s a (s.set t (some ⟨job, true, 0⟩))
  | ends {a t job n} (here : s.workers t = some ⟨job, true, n⟩) (quit : job.CanQuit) :
      Step s a ((s.unlock t).set t (Worker.next ⟨job, true, n⟩))
  | readAll {t again n} (here : s.workers t = some ⟨.flush again .start, true, n⟩)
      (nonempty : s.stream.entries ≠ []) :
      Step s (.readAll t) (s.set t (some ⟨.flush again (.read s.stream.entries), true, n⟩))
  | lockRow {t again entries n buffer existing}
      (here : s.workers t = some ⟨.flush again (.read entries), true, n⟩)
      (present : s.buffer = some buffer) (free : s.lock = none)
      (decoded : S.payload buffer = some existing) :
      Step s (.lockRow t) ({ s with lock := some t }.set t
        (some ⟨.flush again (.locked entries (some buffer) existing), true, n⟩))
  | lockMissing {t again entries n}
      (here : s.workers t = some ⟨.flush again (.read entries), true, n⟩)
      (missing : s.buffer = none) :
      Step s (.lockRow t) (s.set t (some ⟨.flush again (.locked entries none []), true, n⟩))
  | commitUpdate {t again entries n loaded existing current}
      (here : s.workers t = some ⟨.flush again (.locked entries (some loaded) existing), true, n⟩)
      (present : s.buffer = some current) :
      Step s (.commitBuffer t) (({ s with
        buffer := some (loaded.writeChanged (S.row (existing ++ S.newItems entries)) current)
        }.unlock t).set t (some ⟨.flush again (.committed entries existing), true, n⟩))
  | commitInsert {t again entries n existing}
      (here : s.workers t = some ⟨.flush again (.locked entries none existing), true, n⟩)
      (missing : s.buffer = none) :
      Step s (.commitBuffer t) ({ s with
        buffer := some (S.row (existing ++ S.newItems entries))
        }.set t (some ⟨.flush again (.committed entries existing), true, n⟩))
  | trim {t again entries existing n}
      (here : s.workers t = some ⟨.flush again (.committed entries existing), true, n⟩) :
      Step s (.trim t) (({ s with stream := S.trim entries s.stream }.unlock t).set t
        (Worker.next ⟨.flush again (.committed entries existing), true, n⟩))
  | trimUnanswered {t again entries existing n}
      (here : s.workers t = some ⟨.flush again (.committed entries existing), true, n⟩) :
      Step s (.trimUnanswered t) ({ s with stream := S.trim entries s.stream }.set t
        (some ⟨.flush again (.reverting entries existing), true, n + 1⟩))
  | failTrim {t again entries existing n}
      (here : s.workers t = some ⟨.flush again (.committed entries existing), true, n⟩) :
      Step s (.fail t) (s.set t (some ⟨.flush again (.reverting entries existing), true, n + 1⟩))
  | fail {t job n} (here : s.workers t = some ⟨job, true, n⟩) (other : ¬ job.Committed) :
      Step s (.fail t) ((s.unlock t).set t (Worker.next ⟨job, true, n + 1⟩))
  | revert {t again entries existing n current}
      (here : s.workers t = some ⟨.flush again (.reverting entries existing), true, n⟩)
      (free : s.lock = none) (present : s.buffer = some current) :
      Step s (.revert t) (({ s with
        buffer := some ((S.row (existing ++ S.newItems entries)).writeChanged (S.row existing)
          current) }.unlock t).set t
        (Worker.next ⟨.flush again (.reverting entries existing), true, n⟩))
  | revertGone {t again entries existing n}
      (here : s.workers t = some ⟨.flush again (.reverting entries existing), true, n⟩)
      (missing : s.buffer = none) :
      Step s (.revert t) ((s.unlock t).set t
        (Worker.next ⟨.flush again (.reverting entries existing), true, n⟩))
  | readBuffer {t tier now n buffer payload periodStart}
      (here : s.workers t = some ⟨.rollup tier now .start, true, n⟩)
      (present : s.buffer = some buffer) (counted : buffer.entryCount ≠ 0)
      (decoded : S.payload buffer = some payload)
      (start : S.periodStart payload = some periodStart) :
      Step s (.readBuffer t) (s.set t
        (some ⟨.rollup tier now (.read buffer payload periodStart), true, n⟩))
  | putObject {t uuid tier now n buffer payload periodStart key}
      (here : s.workers t = some ⟨.rollup tier now (.read buffer payload periodStart), true, n⟩)
      (named : key = backupKey S.cloneId periodStart (.utc now) uuid) (fresh : key ∉ s.keys) :
      Step s (.putObject t uuid) ((s.putObject key buffer.payloadBlob).set t
        (some ⟨.rollup tier now (.uploaded buffer payload periodStart key), true, n⟩))
  | commitBackup {t id createdAt tier now n buffer payload periodStart key start backup}
      (here : s.workers t =
        some ⟨.rollup tier now (.uploaded buffer payload periodStart key), true, n⟩)
      (utc : periodStart.astimezoneUtc = some start)
      (fresh : id ∉ s.backups.map MemoryBackup.id) (free : s.lock = none)
      (row : backup = ⟨id, S.cloneId, start, now, buffer.entryCount, key, tier, createdAt, none⟩) :
      Step s (.commitBackup t id createdAt) ({ s with
        backups := s.backups ++ [backup]
        buffer := none
        archived := s.archived ++ [payload] }.set t
        (some ⟨.rollup tier now (.committed backup), true, n⟩))
  | selectStale {t ranked tier now n backup}
      (here : s.workers t = some ⟨.rollup tier now (.committed backup), true, n⟩)
      (ranks : RanksByPeriodEnd s.backups ranked) :
      Step s (.selectStale t ranked) (s.set t
        (some ⟨.rollup tier now (.pruning backup (staleBackups ranked)
          ((staleBackups ranked).map MemoryBackup.storageKey)), true, n⟩))
  | deleteObject {t tier now n backup stale key todo}
      (here : s.workers t =
        some ⟨.rollup tier now (.pruning backup stale (key :: todo)), true, n⟩) :
      Step s (.deleteObject t) ((s.deleteObject key).set t
        (some ⟨.rollup tier now (.pruning backup stale todo), true, n⟩))
  | commitPrune {t tier now n backup stale}
      (here : s.workers t = some ⟨.rollup tier now (.pruning backup stale []), true, n⟩) :
      Step s (.commitPrune t) (({ s with
        backups := s.backups.filter fun b => b.id ∉ stale.map MemoryBackup.id }.unlock t).set t
        (Worker.next ⟨.rollup tier now (.pruning backup stale []), true, n⟩))
  | getObject {t raw tier latest n}
      (here : s.workers t = some ⟨.resurrect tier latest .selected, true, n⟩) :
      Step s (.getObject t raw) (s.set t
        (some ⟨.resurrect tier latest (.fetched raw), true, n⟩))
  | putCopy {t uuid tier latest raw n key}
      (here : s.workers t = some ⟨.resurrect tier latest (.fetched raw), true, n⟩)
      (named : key =
        backupKey S.cloneId (.utc latest.periodStart) (.utc latest.periodEnd) uuid)
      (fresh : key ∉ s.keys) :
      Step s (.putCopy t uuid) ((s.putObject key raw).set t
        (some ⟨.resurrect tier latest (.copied raw key), true, n⟩))
  | commitCopy {t id createdAt restoredAt tier latest raw key n resurrected}
      (here : s.workers t = some ⟨.resurrect tier latest (.copied raw key), true, n⟩)
      (fresh : id ∉ s.backups.map MemoryBackup.id)
      (row : resurrected = ⟨id, S.cloneId, latest.periodStart, latest.periodEnd,
        latest.entryCount, key, tier, createdAt, some restoredAt⟩) :
      Step s (.commitCopy t id createdAt restoredAt) (({ s with
        backups := s.backups ++ [resurrected]
        copies := s.copies ++ [(latest, resurrected, raw)] }.unlock t).set t
        (Worker.next ⟨.resurrect tier latest (.copied raw key), true, n⟩))
  | die {t job n} (here : s.workers t = some ⟨job, true, n⟩) :
      Step s (.die t) ((s.unlock t).set t (some ⟨job, false, n⟩))

variable {S} {s s' : MemoryState ι β} {a : Action β} {t n : Nat}

omit [DecidableEq β] in
theorem MemoryState.running_iff {w : Worker ι β} :
    s.running t = some w ↔ s.workers t = some w ∧ w.alive = true := by
  simp [running, Option.filter_eq_some_iff]

theorem flushStep_sound {again : Nat} {point : FlushPoint ι β}
    (here : s.workers t = some ⟨.flush again point, true, n⟩) (label : a.worker = some t)
    (h : flushStep S s t ⟨.flush again point, true, n⟩ again point a = some s') :
    Step S s a s' := by
  cases point with
  | start =>
    cases a <;> simp only [flushStep, reduceCtorEq] at h <;> cases label
    · split at h
      · cases h; exact .ends here trivial
      · rename_i nonempty
        cases h; exact .readAll here nonempty
    · cases h; exact .fail here id
  | read entries =>
    cases a <;> simp only [flushStep, reduceCtorEq] at h <;> cases label
    · split at h
      · rename_i missing
        cases h; exact .lockMissing here missing
      · rename_i buffer present
        split at h
        · rename_i free
          split at h
          · rename_i existing decoded
            cases h; exact .lockRow here present free decoded
          · cases h; exact .ends here trivial
        · cases h
    · cases h; exact .fail here id
  | locked entries loaded existing =>
    cases a <;> simp only [flushStep, reduceCtorEq] at h <;> cases label
    · split at h
      · rename_i present
        cases h; exact .commitUpdate here present
      · rename_i missing
        cases h; exact .commitInsert here missing
      · cases h; exact .ends here trivial
      · cases h; exact .ends here trivial
    · cases h; exact .fail here id
  | committed entries existing =>
    cases a <;> simp only [flushStep, reduceCtorEq] at h <;> cases label
    · cases h; exact .trim here
    · cases h; exact .trimUnanswered here
    · cases h; exact .failTrim here
  | reverting entries existing =>
    cases a <;> simp only [flushStep, reduceCtorEq] at h <;> cases label
    · split at h
      · rename_i free present
        cases h; exact .revert here free present
      · rename_i missing
        cases h; exact .revertGone here missing
      · cases h
    · cases h; exact .fail here id

theorem rollupStep_sound {tier : SubscriptionTier} {now : Int} {point : RollupPoint ι β}
    (here : s.workers t = some ⟨.rollup tier now point, true, n⟩) (label : a.worker = some t)
    (h : rollupStep S s t ⟨.rollup tier now point, true, n⟩ tier now point a = some s') :
    Step S s a s' := by
  cases point with
  | start =>
    cases a <;> simp only [rollupStep, reduceCtorEq] at h <;> cases label
    · split at h
      · cases h; exact .ends here trivial
      · rename_i buffer present
        split at h
        · cases h; exact .ends here trivial
        · rename_i counted
          split at h
          · cases h; exact .ends here trivial
          · rename_i payload decoded
            split at h
            · cases h; exact .ends here trivial
            · rename_i periodStart start
              cases h; exact .readBuffer here present counted decoded start
    · cases h; exact .fail here id
  | read buffer payload periodStart =>
    cases a <;> simp only [rollupStep, reduceCtorEq] at h <;> cases label
    · split at h
      · cases h
      · rename_i fresh
        cases h; exact .putObject here rfl fresh
    · cases h; exact .fail here id
  | uploaded buffer payload periodStart key =>
    cases a <;> simp only [rollupStep, reduceCtorEq] at h <;> cases label
    · split at h
      · cases h; exact .ends here trivial
      · rename_i start utc
        split at h
        · cases h
        · rename_i fresh
          split at h
          · rename_i free
            cases h; exact .commitBackup here utc fresh free rfl
          · cases h
    · cases h; exact .fail here id
  | committed backup =>
    cases a <;> simp only [rollupStep, reduceCtorEq] at h <;> cases label
    · split at h
      · rename_i ranks
        cases h; exact .selectStale here ranks
      · cases h
    · cases h; exact .fail here id
  | pruning backup stale todo =>
    cases todo <;> cases a <;> simp only [rollupStep, reduceCtorEq] at h <;> cases label
    · cases h; exact .commitPrune here
    · cases h; exact .fail here id
    · cases h; exact .deleteObject here
    · cases h; exact .fail here id

theorem resurrectStep_sound {tier : SubscriptionTier} {latest : MemoryBackup}
    {point : ResurrectPoint β}
    (here : s.workers t = some ⟨.resurrect tier latest point, true, n⟩) (label : a.worker = some t)
    (h : resurrectStep S s t ⟨.resurrect tier latest point, true, n⟩ tier latest point a = some s') :
    Step S s a s' := by
  cases point with
  | selected =>
    cases a <;> simp only [resurrectStep, reduceCtorEq] at h <;> cases label
    · cases h; exact .getObject here
    · cases h; exact .fail here id
  | fetched raw =>
    cases a <;> simp only [resurrectStep, reduceCtorEq] at h <;> cases label
    · split at h
      · cases h
      · rename_i fresh
        cases h; exact .putCopy here rfl fresh
    · cases h; exact .fail here id
  | copied raw key =>
    cases a <;> simp only [resurrectStep, reduceCtorEq] at h <;> cases label
    · split at h
      · cases h
      · rename_i fresh
        cases h; exact .commitCopy here fresh rfl
    · cases h; exact .fail here id

omit [DecidableEq β] in
theorem spawn_sound {job : Job ι β} (starts : a.spawns = some (t, job)) [DecidableEq β]
    (h : s.spawn t job = some s') : Step S s a s' := by
  unfold MemoryState.spawn at h
  split at h
  · rename_i free
    cases h; exact .spawn free starts
  · cases h

/-- **Every step is one of the listed ones.** -/
theorem step_sound (h : step S s a = some s') : Step S s a s' := by
  unfold step at h
  split at h
  · split at h
    · rename_i fresh
      cases h; exact .append fresh
    · cases h
  · exact spawn_sound rfl h
  · exact spawn_sound rfl h
  · exact spawn_sound rfl h
  · split at h
    · rename_i w found
      obtain ⟨here, alive⟩ := MemoryState.running_iff.1 found
      obtain ⟨job, alive', n⟩ := w
      cases alive
      cases h; exact .die here
    · cases h
  · split at h
    · cases h
    · rename_i t label
      split at h
      · cases h
      · rename_i w found
        obtain ⟨here, alive⟩ := MemoryState.running_iff.1 found
        obtain ⟨job, alive', n⟩ := w
        cases alive
        cases job with
        | flush again point => exact flushStep_sound here label h
        | rollup tier now point => exact rollupStep_sound here label h
        | resurrect tier latest point => exact resurrectStep_sound here label h

end Mycelium
