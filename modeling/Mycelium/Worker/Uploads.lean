import Mycelium.Worker.Steps

/-!
# An uploaded object waits for its row

`rollup_clone` and `resurrect_from` upload an object and insert the row that names
it later, while prunes delete objects. A prune deletes the objects of rows it has
selected, and an upload's key is new, so no prune has it in its list before the
row is there: when the row is committed, the object exists.
-/

namespace Mycelium

variable {ι β : Type}

/-- The key of an object the worker has uploaded and whose row it has not inserted yet. -/
def Worker.uploaded (w : Worker ι β) : Option ObjectKey :=
  match w.job with
  | .rollup _ _ (.uploaded _ _ _ key) => some key
  | .resurrect _ _ (.copied _ key) => some key
  | _ => none

/-- The keys a prune has still to delete. -/
def Worker.deleting (w : Worker ι β) : List ObjectKey :=
  match w.job with
  | .rollup _ _ (.pruning _ _ todo) => todo
  | _ => []

namespace MemoryState

def uploaded (s : MemoryState ι β) (t : Nat) : Option ObjectKey := (s.workers t).bind Worker.uploaded

def deleting (s : MemoryState ι β) (t : Nat) : List ObjectKey :=
  ((s.workers t).map Worker.deleting).getD []

/-- The object is stored, and nothing names it but the worker that has uploaded it. -/
structure Waiting (s : MemoryState ι β) (key : ObjectKey) : Prop where
  used : key ∈ s.keys
  stored : (s.objects key).isSome
  unlisted : ∀ b ∈ s.backups, b.storageKey ≠ key
  spared : ∀ t, key ∉ s.deleting t

end MemoryState

structure Uploads (s : MemoryState ι β) : Prop where
  listed : ∀ b ∈ s.backups, b.storageKey ∈ s.keys
  deleted : ∀ t, ∀ key ∈ s.deleting t, key ∈ s.keys
  waiting : ∀ t key, s.uploaded t = some key → s.Waiting key
  single : ∀ t t' key, s.uploaded t = some key → s.uploaded t' = some key → t' = t

variable {s s' : MemoryState ι β} {t : Nat} {x : Option (Worker ι β)}

theorem Uploads.initial : Uploads (MemoryState.initial (ι := ι) (β := β)) where
  listed := by simp [MemoryState.initial]
  deleted := by simp [MemoryState.initial, MemoryState.deleting]
  waiting := by simp [MemoryState.initial, MemoryState.uploaded]
  single := by simp [MemoryState.initial, MemoryState.uploaded]

namespace MemoryState

theorem uploaded_here {w : Worker ι β} (here : s.workers t = some w) :
    s.uploaded t = w.uploaded := by
  rw [uploaded, here, Option.bind_some]

theorem deleting_here {w : Worker ι β} (here : s.workers t = some w) :
    s.deleting t = w.deleting := by
  rw [deleting, here]
  rfl

/-- Only the slots decide which uploads are waiting. -/
theorem uploaded_moved (workers : s'.workers = Function.update s.workers t x) :
    s'.uploaded = Function.update s.uploaded t (x.bind Worker.uploaded) :=
  slots_moved (fun w => w.bind Worker.uploaded) workers

theorem deleting_moved (workers : s'.workers = Function.update s.workers t x) :
    s'.deleting = Function.update s.deleting t ((x.map Worker.deleting).getD []) :=
  slots_moved (fun w => (w.map Worker.deleting).getD []) workers

end MemoryState

/-- What is left of a task has uploaded nothing and deletes nothing. -/
theorem Worker.uploads_next (w : Worker ι β) :
    w.next.bind Worker.uploaded = none ∧ (w.next.map Worker.deleting).getD [] = [] := by
  cases found : w.next with
  | none => exact ⟨rfl, rfl⟩
  | some w' =>
    obtain ⟨again, rfl⟩ := Worker.next_eq found
    exact ⟨rfl, rfl⟩

/-- A step of `t` that stores nothing: its upload is the one it had, and what it is about to delete
it was about to delete, or it is named by rows. -/
theorem Uploads.moved (up : Uploads s) (workers : s'.workers = Function.update s.workers t x)
    (keys : s'.keys = s.keys) (objects : s'.objects = s.objects)
    (backups : ∀ b ∈ s'.backups, b ∈ s.backups)
    (uploaded : x.bind Worker.uploaded = none ∨ x.bind Worker.uploaded = s.uploaded t)
    (deleting : ∀ key ∈ (x.map Worker.deleting).getD [],
      key ∈ s.deleting t ∨ ∃ b ∈ s.backups, b.storageKey = key) : Uploads s' := by
  have held : ∀ t' key, s'.uploaded t' = some key → s.uploaded t' = some key := by
    rw [MemoryState.uploaded_moved workers]
    refine (Function.forall_update_iff s.uploaded fun t' now =>
      ∀ key, now = some key → s.uploaded t' = some key).2 ⟨fun key now => ?_, fun _ _ _ => id⟩
    rcases uploaded with none | kept
    · cases none.symm.trans now
    · rw [← kept, now]
  have todo : ∀ t', ∀ key ∈ s'.deleting t',
      key ∈ s.deleting t' ∨ ∃ b ∈ s.backups, b.storageKey = key := by
    rw [MemoryState.deleting_moved workers]
    exact (Function.forall_update_iff s.deleting fun t' now =>
      ∀ key ∈ now, key ∈ s.deleting t' ∨ ∃ b ∈ s.backups, b.storageKey = key).2
      ⟨deleting, fun _ _ _ => .inl⟩
  constructor
  · intro b listed
    rw [keys]
    exact up.listed b (backups b listed)
  · intro t' key now
    rw [keys]
    rcases todo t' key now with before | ⟨b, listed, rfl⟩
    · exact up.deleted t' key before
    · exact up.listed b listed
  · intro t' key now
    obtain ⟨used, stored, unlisted, spared⟩ := up.waiting t' key (held t' key now)
    refine ⟨keys ▸ used, objects ▸ stored, fun b listed => unlisted b (backups b listed), ?_⟩
    intro other member
    rcases todo other key member with before | ⟨b, listed, same⟩
    · exact spared other before
    · exact unlisted b listed same
  · intro t' other key now now'
    exact up.single t' other key (held t' key now) (held other key now')

/-- An upload of `t` under a key not used before. -/
theorem Uploads.put (up : Uploads s) {w : Worker ι β} {key : ObjectKey} {data : β}
    (workers : s'.workers = Function.update s.workers t (some w)) (named : w.uploaded = some key)
    (deletes : w.deleting = []) (fresh : key ∉ s.keys) (keys : s'.keys = key :: s.keys)
    (objects : s'.objects = Function.update s.objects key (some data))
    (backups : s'.backups = s.backups) : Uploads s' := by
  have held : ∀ t' key', s'.uploaded t' = some key' →
      t' = t ∧ key' = key ∨ t' ≠ t ∧ s.uploaded t' = some key' := by
    intro t' key' now
    rw [MemoryState.uploaded_moved workers] at now
    by_cases same : t' = t
    · subst same
      rw [Function.update_self, Option.bind_some, named] at now
      exact .inl ⟨rfl, (Option.some.inj now).symm⟩
    · rw [Function.update_of_ne same] at now
      exact .inr ⟨same, now⟩
  have todo : ∀ t', ∀ key' ∈ s'.deleting t', key' ∈ s.deleting t' := by
    rw [MemoryState.deleting_moved workers, Option.map_some, Option.getD_some, deletes]
    exact (Function.forall_update_iff s.deleting fun t' now => ∀ key' ∈ now, key' ∈ s.deleting t').2
      ⟨by simp, fun _ _ _ => id⟩
  constructor
  · intro b listed
    rw [keys]
    exact List.mem_cons_of_mem _ (up.listed b (backups ▸ listed))
  · intro t' key' now
    rw [keys]
    exact List.mem_cons_of_mem _ (up.deleted t' key' (todo t' key' now))
  · intro t' key' now
    rcases held t' key' now with ⟨_, rfl⟩ | ⟨_, before⟩
    · refine ⟨by rw [keys]; exact List.mem_cons_self, ?_, ?_, ?_⟩
      · rw [objects, Function.update_self]
        rfl
      · rintro b listed rfl
        exact fresh (up.listed b (backups ▸ listed))
      · exact fun other member => fresh (up.deleted other _ (todo other _ member))
    · obtain ⟨used, stored, unlisted, spared⟩ := up.waiting t' key' before
      have apart : key' ≠ key := by
        rintro rfl
        exact fresh used
      refine ⟨by rw [keys]; exact List.mem_cons_of_mem _ used, ?_, backups ▸ unlisted, ?_⟩
      · rwa [objects, Function.update_of_ne apart]
      · exact fun other member => spared other (todo other key' member)
  · intro t' other key' now now'
    rcases held t' key' now with ⟨rfl, rfl⟩ | ⟨_, before⟩ <;>
      rcases held other key' now' with ⟨rfl, same⟩ | ⟨_, before'⟩
    · rfl
    · exact absurd (up.waiting other key' before').used fresh
    · exact absurd (same ▸ (up.waiting t' key' before).used) fresh
    · exact up.single t' other key' before before'

/-- The row of `t`'s upload. -/
theorem Uploads.insert (up : Uploads s) {key : ObjectKey} {backup : MemoryBackup}
    (workers : s'.workers = Function.update s.workers t x) (here : s.uploaded t = some key)
    (uploaded : x.bind Worker.uploaded = none) (deleting : (x.map Worker.deleting).getD [] = [])
    (keys : s'.keys = s.keys) (objects : s'.objects = s.objects) (named : backup.storageKey = key)
    (backups : s'.backups = s.backups ++ [backup]) : Uploads s' := by
  have held : ∀ t' key', s'.uploaded t' = some key' → t' ≠ t ∧ s.uploaded t' = some key' := by
    intro t' key' now
    rw [MemoryState.uploaded_moved workers] at now
    by_cases same : t' = t
    · subst same
      rw [Function.update_self, uploaded] at now
      cases now
    · rw [Function.update_of_ne same] at now
      exact ⟨same, now⟩
  have todo : ∀ t', ∀ key' ∈ s'.deleting t', key' ∈ s.deleting t' := by
    rw [MemoryState.deleting_moved workers, deleting]
    exact (Function.forall_update_iff s.deleting fun t' now => ∀ key' ∈ now, key' ∈ s.deleting t').2
      ⟨by simp, fun _ _ _ => id⟩
  have rows : ∀ b ∈ s'.backups, b ∈ s.backups ∨ b.storageKey = key := by
    intro b listed
    rw [backups] at listed
    rcases List.mem_append.1 listed with old | new
    · exact .inl old
    · rw [List.mem_singleton.1 new]
      exact .inr named
  constructor
  · intro b listed
    rw [keys]
    rcases rows b listed with old | new
    · exact up.listed b old
    · exact new ▸ (up.waiting t key here).used
  · intro t' key' now
    rw [keys]
    exact up.deleted t' key' (todo t' key' now)
  · intro t' key' now
    obtain ⟨other, before⟩ := held t' key' now
    obtain ⟨used, stored, unlisted, spared⟩ := up.waiting t' key' before
    refine ⟨keys ▸ used, objects ▸ stored, ?_, fun o member => spared o (todo o key' member)⟩
    rintro b listed rfl
    rcases rows b listed with old | new
    · exact unlisted b old rfl
    · exact other (up.single t t' key here (new ▸ before))
  · intro t' other key' now now'
    exact up.single t' other key' (held t' key' now).2 (held other key' now').2

/-- The next deletion of the prune of `t`. -/
theorem Uploads.delete (up : Uploads s) {key : ObjectKey} {todo : List ObjectKey}
    {w : Worker ι β} (workers : s'.workers = Function.update s.workers t (some w))
    (before : s.deleting t = key :: todo) (after : w.deleting = todo) (uploaded : w.uploaded = none)
    (keys : s'.keys = s.keys) (objects : s'.objects = Function.update s.objects key none)
    (backups : s'.backups = s.backups) : Uploads s' := by
  have atKey : key ∈ s.deleting t := by
    rw [before]
    exact List.mem_cons_self
  -- the deletion itself, then what is left of the list
  have deleted : Uploads (s.deleteObject key) := by
    refine ⟨up.listed, up.deleted, fun t' key' now => ?_, up.single⟩
    obtain ⟨used, stored, unlisted, spared⟩ := up.waiting t' key' now
    have apart : key' ≠ key := by
      rintro rfl
      exact spared t atKey
    refine ⟨used, ?_, unlisted, spared⟩
    change (Function.update s.objects key none key').isSome
    rwa [Function.update_of_ne apart]
  refine deleted.moved workers keys objects (fun b listed => backups ▸ listed)
    (.inl (by rw [Option.bind_some, uploaded])) fun key' member => .inl ?_
  rw [Option.map_some, Option.getD_some, after] at member
  change key' ∈ s.deleting t
  rw [before]
  exact List.mem_cons_of_mem _ member

/-- A step of `t` after which it has neither an upload nor anything to delete. -/
theorem Uploads.dropped (up : Uploads s) (workers : s'.workers = Function.update s.workers t x)
    (keys : s'.keys = s.keys) (objects : s'.objects = s.objects)
    (backups : ∀ b ∈ s'.backups, b ∈ s.backups)
    (nothing : x.bind Worker.uploaded = none ∧ (x.map Worker.deleting).getD [] = []) :
    Uploads s' := by
  refine up.moved workers keys objects backups (.inl nothing.1) fun key member => ?_
  rw [nothing.2] at member
  cases member

variable [DecidableEq β] {S : Service ι β} {a : Action β}

/-- **Every step keeps the uploads that wait for their rows.** -/
theorem Uploads.preserved (up : Uploads s) (h : step S s a = some s') : Uploads s' := by
  have step := step_sound h
  cases step with
  | append fresh =>
    refine ⟨up.listed, up.deleted, fun t key now => ?_, up.single⟩
    obtain ⟨used, stored, unlisted, spared⟩ := up.waiting t key now
    exact ⟨used, stored, unlisted, spared⟩
  | @spawn _ t job free starts =>
    refine up.dropped (t := t) rfl rfl rfl (fun _ => id) ?_
    cases a <;> simp only [Action.spawns, reduceCtorEq, Option.some.injEq, Prod.mk.injEq] at starts
      <;> obtain ⟨rfl, rfl⟩ := starts <;> exact ⟨rfl, rfl⟩
  | ends here quit => exact up.dropped rfl rfl rfl (fun _ => id) (Worker.uploads_next _)
  | readAll here nonempty => exact up.dropped rfl rfl rfl (fun _ => id) ⟨rfl, rfl⟩
  | lockRow here present free decoded => exact up.dropped rfl rfl rfl (fun _ => id) ⟨rfl, rfl⟩
  | lockMissing here missing => exact up.dropped rfl rfl rfl (fun _ => id) ⟨rfl, rfl⟩
  | commitUpdate here present => exact up.dropped rfl rfl rfl (fun _ => id) ⟨rfl, rfl⟩
  | commitInsert here missing => exact up.dropped rfl rfl rfl (fun _ => id) ⟨rfl, rfl⟩
  | trim here => exact up.dropped rfl rfl rfl (fun _ => id) (Worker.uploads_next _)
  | trimUnanswered here => exact up.dropped rfl rfl rfl (fun _ => id) ⟨rfl, rfl⟩
  | failTrim here => exact up.dropped rfl rfl rfl (fun _ => id) ⟨rfl, rfl⟩
  | fail here other => exact up.dropped rfl rfl rfl (fun _ => id) (Worker.uploads_next _)
  | revert here free present => exact up.dropped rfl rfl rfl (fun _ => id) (Worker.uploads_next _)
  | revertGone here missing => exact up.dropped rfl rfl rfl (fun _ => id) (Worker.uploads_next _)
  | readBuffer here present counted decoded start =>
    exact up.dropped rfl rfl rfl (fun _ => id) ⟨rfl, rfl⟩
  | putObject here named fresh => exact up.put rfl rfl rfl fresh rfl rfl rfl
  | commitBackup here utc fresh free row =>
    exact up.insert rfl (MemoryState.uploaded_here here) rfl rfl rfl rfl (by rw [row]) rfl
  | selectStale here ranks =>
    refine up.moved rfl rfl rfl (fun _ => id) (.inl rfl) fun key member => .inr ?_
    obtain ⟨b, stale, rfl⟩ := List.mem_map.1 member
    exact ⟨b, ranks.1.subset ((Ranking.beyond_sublist _ _).subset stale), rfl⟩
  | deleteObject here =>
    exact up.delete rfl (MemoryState.deleting_here here) rfl rfl rfl rfl rfl
  | commitPrune here =>
    exact up.dropped rfl rfl rfl (fun _ listed => List.mem_of_mem_filter listed)
      (Worker.uploads_next _)
  | getObject here => exact up.dropped rfl rfl rfl (fun _ => id) ⟨rfl, rfl⟩
  | putCopy here named fresh => exact up.put rfl rfl rfl fresh rfl rfl rfl
  | commitCopy here fresh row =>
    exact up.insert rfl (MemoryState.uploaded_here here) (Worker.uploads_next _).1
      (Worker.uploads_next _).2 rfl rfl (by rw [row]) rfl
  | @die t job n here =>
    refine up.moved (t := t) rfl rfl rfl (fun _ => id) (.inr ?_) fun key member => .inl ?_
    · exact (MemoryState.uploaded_here here).symm
    · rw [MemoryState.deleting_here here]
      exact member

end Mycelium
