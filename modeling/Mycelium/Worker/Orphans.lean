import Mycelium.Worker.Metadata
import Mycelium.Worker.Prunes

/-!
# Objects that nothing names

`rollup_clone` and `resurrect_from` upload before they insert the row that names
the object, and a prune deletes an object before its row. So an object is left
with no row exactly where a task ends between its upload and its row: its commit
raises, it dies, or PostgreSQL cannot store the `period_start`. Nothing ever
deletes such an object. Where no task is cut short between an upload and its row
or in a prune, the bucket and the table agree whenever a clone has no task at work.
-/

namespace Mycelium

variable {ι β : Type}

namespace MemoryState

/-- The key under which `t`, at work, has uploaded an object that no row names yet. -/
def uploading (s : MemoryState ι β) (t : Nat) : Option ObjectKey :=
  (s.running t).bind Worker.uploaded

/-- A stored object that no row names and no task at work is about to name. -/
structure Orphan (s : MemoryState ι β) (key : ObjectKey) : Prop where
  stored : (s.objects key).isSome
  unlisted : ∀ b ∈ s.backups, b.storageKey ≠ key
  abandoned : ∀ t, s.uploading t ≠ some key

/-- The rollup `t` has uploaded has a `period_start` outside what the driver can send. -/
def unstorable (s : MemoryState ι β) (t : Nat) : Bool :=
  match s.workers t with
  | some ⟨.rollup _ _ (.uploaded _ _ periodStart _), _, _⟩ => periodStart.astimezoneUtc = none
  | _ => false

/-- The worker whose call raises, or that dies. -/
def stops (s : MemoryState ι β) : Action β → Option Nat
  | .fail t | .die t => some t
  | .commitBackup t _ _ => if s.unstorable t then some t else none
  | _ => none

/-- The step ends a task between its upload and its row. -/
def Abandons (s : MemoryState ι β) (a : Action β) : Prop :=
  ∃ t ∈ s.stops a, (s.uploading t).isSome

/-- The step ends a task between its upload and its row, or in its prune. -/
def Interrupts (s : MemoryState ι β) (a : Action β) : Prop :=
  ∃ t ∈ s.stops a, (s.uploading t).isSome ∨ s.selected t ≠ []

instance (s : MemoryState ι β) (a : Action β) : Decidable (s.Abandons a) :=
  inferInstanceAs (Decidable (∃ t ∈ s.stops a, (s.uploading t).isSome = true))

instance (s : MemoryState ι β) (a : Action β) : Decidable (s.Interrupts a) :=
  decidable_of_iff (∃ t ∈ s.stops a,
    (s.uploading t).isSome = true ∨ (s.selected t).isEmpty = false) (by
      simp only [Interrupts, ne_eq, List.isEmpty_eq_false_iff])

end MemoryState

variable {s s' : MemoryState ι β} {t : Nat}

theorem MemoryState.uploading_eq {key : ObjectKey} :
    s.uploading t = some key ↔
      ∃ job n, s.workers t = some ⟨job, true, n⟩ ∧ Worker.uploaded ⟨job, true, n⟩ = some key := by
  simp only [uploading, Option.bind_eq_some_iff, MemoryState.running_iff]
  constructor
  · rintro ⟨⟨job, alive, n⟩, ⟨here, rfl⟩, uploaded⟩
    exact ⟨job, n, here, uploaded⟩
  · rintro ⟨job, n, here, uploaded⟩
    exact ⟨_, ⟨here, rfl⟩, uploaded⟩

/-- An upload in progress is one the slot has. -/
theorem MemoryState.uploaded_of_uploading {key : ObjectKey} (h : s.uploading t = some key) :
    s.uploaded t = some key := by
  obtain ⟨job, n, here, uploaded⟩ := uploading_eq.1 h
  rw [uploaded_here here, uploaded]

theorem MemoryState.uploading_congr {t : Nat} (same : s'.workers t = s.workers t) :
    s'.uploading t = s.uploading t := by
  rw [uploading, uploading, running, running, same]

variable [DecidableEq β] {S : Service ι β} {a : Action β}

section Slots

variable {w : Worker ι β}

theorem flushStep_slot {again : Nat} {point : FlushPoint ι β}
    (h : flushStep S s t w again point a = some s') :
    ∃ x, s'.workers = Function.update s.workers t x := by
  unfold flushStep at h
  split at h <;> (repeat' split at h) <;> cases h <;> exact ⟨_, rfl⟩

omit [DecidableEq β] in
theorem rollupStep_slot {tier : SubscriptionTier} {now : Int} {point : RollupPoint ι β}
    (h : rollupStep S s t w tier now point a = some s') :
    ∃ x, s'.workers = Function.update s.workers t x := by
  unfold rollupStep at h
  split at h <;> (try simp only at h) <;> (repeat' split at h) <;> cases h <;> exact ⟨_, rfl⟩

omit [DecidableEq β] in
theorem resurrectStep_slot {tier : SubscriptionTier} {latest : MemoryBackup}
    {point : ResurrectPoint β} (h : resurrectStep S s t w tier latest point a = some s') :
    ∃ x, s'.workers = Function.update s.workers t x := by
  unfold resurrectStep at h
  split at h <;> (try simp only at h) <;> (repeat' split at h) <;> cases h <;> exact ⟨_, rfl⟩

end Slots

/-- A step of a worker moves its slot. -/
theorem worker_slot (h : step S s a = some s') (label : a.worker = some t) :
    ∃ x, s'.workers = Function.update s.workers t x := by
  unfold step at h
  split at h
  · cases label
  · cases label
  · cases label
  · cases label
  · cases label
    split at h
    · cases h
      exact ⟨_, rfl⟩
    · cases h
  · rw [label] at h
    split at h
    · rename_i none
      cases none
    · rename_i same
      cases same
      split at h
      · cases h
      · split at h
        · exact flushStep_slot h
        · exact rollupStep_slot h
        · exact resurrectStep_slot h

/-- A step leaves the busy slots of the workers it is not a step of. -/
theorem slot_kept (h : step S s a = some s') (busy : s.workers t ≠ none)
    (other : a.worker ≠ some t) : s'.workers t = s.workers t := by
  have elsewhere : ∀ {t' x}, t' ≠ t → s'.workers = Function.update s.workers t' x →
      s'.workers t = s.workers t := by
    intro t' x apart moved
    rw [moved, Function.update_of_ne apart.symm]
  have spawned : ∀ {t' job}, s.spawn t' job = some s' → s'.workers t = s.workers t := by
    intro t' job started
    unfold MemoryState.spawn at started
    split at started
    · rename_i free
      cases started
      refine elsewhere ?_ rfl
      rintro rfl
      exact busy free
    · cases started
  cases label : a.worker with
  | some t' =>
    obtain ⟨x, moved⟩ := worker_slot h label
    refine elsewhere ?_ moved
    rintro rfl
    exact other label
  | none =>
    cases a with
    | append =>
      simp only [step] at h
      split at h
      · cases h
        rfl
      · cases h
    | startFlush | startRollup | startResurrect => exact spawned h
    | _ => cases label

omit [DecidableEq β] in
/-- The two places where a task has uploaded an object that no row names yet. -/
theorem Worker.uploaded_cases {job : Job ι β} {n : Nat} {key : ObjectKey}
    (h : Worker.uploaded ⟨job, true, n⟩ = some key) :
    (∃ tier now buffer payload periodStart,
      job = .rollup tier now (.uploaded buffer payload periodStart key)) ∨
    ∃ tier latest raw, job = .resurrect tier latest (.copied raw key) := by
  cases job with
  | flush => cases h
  | rollup tier now point =>
    cases point with
    | uploaded buffer payload periodStart key' =>
      cases h
      exact .inl ⟨tier, now, buffer, payload, periodStart, rfl⟩
    | _ => cases h
  | resurrect tier latest point =>
    cases point with
    | copied raw key' =>
      cases h
      exact .inr ⟨tier, latest, raw, rfl⟩
    | _ => cases h

/-- The next step of a worker that has uploaded ends its task there, or names the object. -/
theorem step_of_uploading {key : ObjectKey} (here : s.uploading t = some key)
    (label : a.worker = some t) (h : step S s a = some s') :
    s.stops a = some t ∧ s'.objects = s.objects ∧ s'.backups = s.backups ∧
        s'.uploading t = none ∨
      s.stops a ≠ some t ∧ ∃ b ∈ s'.backups, b.storageKey = key := by
  obtain ⟨job, n, slot, uploaded⟩ := MemoryState.uploading_eq.1 here
  have running : s.running t = some ⟨job, true, n⟩ := MemoryState.running_iff.2 ⟨slot, rfl⟩
  have idle : ∀ {s' : MemoryState ι β} {x : Option (Worker ι β)},
      s'.workers = Function.update s.workers t x →
      (x.filter Worker.alive).bind Worker.uploaded = none → s'.uploading t = none := by
    intro s' x moved nothing
    rw [MemoryState.uploading, MemoryState.running, moved, Function.update_self, nothing]
  obtain ⟨tier, now, buffer, payload, periodStart, rfl⟩ | ⟨tier, latest, raw, rfl⟩ :=
    Worker.uploaded_cases uploaded
  · cases a <;> cases label <;>
      simp only [step, Action.worker, running, rollupStep, reduceCtorEq] at h
    · split at h
      · rename_i unstorable
        cases h
        refine .inl ⟨?_, rfl, rfl, idle rfl rfl⟩
        simp [MemoryState.stops, MemoryState.unstorable, slot, unstorable]
      · rename_i start utc
        have sent : ∀ id createdAt, s.stops (.commitBackup t id createdAt) ≠ some t := by
          simp [MemoryState.stops, MemoryState.unstorable, slot, utc]
        split at h
        · cases h
        · split at h
          · cases h
            exact .inr ⟨sent _ _, _, List.mem_append_right _ (List.mem_singleton_self _), rfl⟩
          · cases h
    · cases h
      exact .inl ⟨rfl, rfl, rfl, idle rfl rfl⟩
    · cases h
      exact .inl ⟨rfl, rfl, rfl, idle rfl rfl⟩
  · cases a <;> cases label <;>
      simp only [step, Action.worker, running, resurrectStep, reduceCtorEq] at h
    · split at h
      · cases h
      · cases h
        refine .inr ⟨?_, _, List.mem_append_right _ (List.mem_singleton_self _), rfl⟩
        rintro ⟨⟩
    · cases h
      exact .inl ⟨rfl, rfl, rfl, idle rfl rfl⟩
    · cases h
      exact .inl ⟨rfl, rfl, rfl, idle rfl rfl⟩

/-! ## One clone -/

/-- What the orphans of a clone rest on: uploads, prunes, and that an object has a used key. -/
structure Bucket (s : MemoryState ι β) : Prop where
  uploads : Uploads s
  pruned : Pruned s
  stored : ∀ key, (s.objects key).isSome → key ∈ s.keys

omit [DecidableEq β] in
theorem Bucket.initial : Bucket (MemoryState.initial (ι := ι) (β := β)) where
  uploads := .initial
  pruned := .initial
  stored := by simp [MemoryState.initial]

/-- Where a stored object comes from. -/
theorem stored_before {key : ObjectKey} (h : step S s a = some s')
    (stored : (s'.objects key).isSome) :
    (s.objects key).isSome ∨ key ∈ s'.keys ∧ key ∉ s.keys ∧ ∃ t, s'.uploading t = some key := by
  have step := step_sound h
  have put : ∀ {t : Nat} {key' : ObjectKey} {data : β} {w : Worker ι β}, w.alive = true →
      w.uploaded = some key' → key' ∉ s.keys →
      (((s.putObject key' data).set t (some w)).objects key).isSome →
      (s.objects key).isSome ∨ key ∈ key' :: s.keys ∧ key ∉ s.keys ∧
        ∃ t', ((s.putObject key' data).set t (some w)).uploading t' = some key := by
    intro t key' data w alive uploaded fresh stored
    by_cases same : key = key'
    · subst same
      refine .inr ⟨List.mem_cons_self, fresh, t, ?_⟩
      rw [MemoryState.uploading, MemoryState.running, MemoryState.set_workers, Function.update_self,
        Option.filter_some, if_pos alive, Option.bind_some, uploaded]
    · left
      change (Function.update s.objects key' (some data) key).isSome at stored
      rwa [Function.update_of_ne same] at stored
  cases step with
  | putObject here named fresh => exact put rfl rfl fresh stored
  | putCopy here named fresh => exact put rfl rfl fresh stored
  | @deleteObject t tier now n backup stale key' todo here =>
    left
    change (Function.update s.objects key' none key).isSome at stored
    by_cases same : key = key'
    · subst same
      rw [Function.update_self] at stored
      cases stored
    · rwa [Function.update_of_ne same] at stored
  | _ => exact .inl stored

theorem Bucket.preserved (bucket : Bucket s) (new : s.NewId a) (h : step S s a = some s') :
    Bucket s' where
  uploads := bucket.uploads.preserved h
  pruned := bucket.pruned.preserved bucket.uploads new h
  stored key stored := by
    rcases stored_before h stored with before | ⟨used, -⟩
    · exact (step_sound h).grows.keys key (bucket.stored key before)
    · exact used

omit [DecidableEq β] in
/-- Without orphans an object is named or about to be. -/
theorem named_of_stored {key : ObjectKey} (none : ∀ key, ¬ s.Orphan key)
    (stored : (s.objects key).isSome) :
    (∃ b ∈ s.backups, b.storageKey = key) ∨ ∃ t, s.uploading t = some key := by
  by_contra neither
  rw [not_or, not_exists, not_exists] at neither
  exact none key ⟨stored, fun b listed same => neither.1 b ⟨listed, same⟩, neither.2⟩

omit [DecidableEq β] in
theorem Worker.uploading_next (w : Worker ι β) :
    (w.next.filter Worker.alive).bind Worker.uploaded = none := by
  cases found : w.next with
  | none => rfl
  | some w' =>
    obtain ⟨again, rfl⟩ := Worker.next_eq found
    cases w.alive <;> rfl

/-- An upload in progress was one before, or has a new key. -/
theorem uploading_before {key : ObjectKey} (h : step S s a = some s')
    (now : s'.uploading t = some key) : s.uploading t = some key ∨ key ∉ s.keys := by
  have moved : ∀ {t' x}, s'.workers = Function.update s.workers t' x →
      (∀ key', (x.filter Worker.alive).bind Worker.uploaded = some key' → key' ∉ s.keys) →
      s.uploading t = some key ∨ key ∉ s.keys := by
    intro t' x workers own
    by_cases same : t = t'
    · subst same
      rw [MemoryState.uploading, MemoryState.running, workers, Function.update_self] at now
      exact .inr (own key now)
    · have slot : s'.workers t = s.workers t := by rw [workers, Function.update_of_ne same]
      exact .inl (MemoryState.uploading_congr slot ▸ now)
  have step := step_sound h
  cases step with
  | append fresh => exact .inl now
  | @spawn _ u job free starts =>
    refine @moved u _ rfl ?_
    cases a <;> simp only [Action.spawns, reduceCtorEq, Option.some.injEq, Prod.mk.injEq] at starts
      <;> obtain ⟨rfl, rfl⟩ := starts <;> rintro _ ⟨⟩
  | ends here quit | trim here | fail here other | revert here free present
  | revertGone here missing | commitPrune here | commitCopy here fresh row =>
    refine moved rfl fun key' own => ?_
    rw [Worker.uploading_next] at own
    cases own
  | putObject here named fresh | putCopy here named fresh =>
    refine moved rfl ?_
    rintro _ ⟨⟩
    exact fresh
  | _ =>
    refine moved rfl ?_
    rintro _ ⟨⟩

/-- A step that ends no task between its upload and its row leaves no orphan. -/
theorem no_orphans_preserved (bucket : Bucket s) (new : s.NewId a) (none : ∀ key, ¬ s.Orphan key)
    (kept : ¬ s.Abandons a) (h : step S s a = some s') : ∀ key, ¬ s'.Orphan key := by
  intro key ⟨stored, unlisted, abandoned⟩
  rcases stored_before h stored with before | ⟨-, -, t, uploading⟩
  · rcases named_of_stored none before with ⟨b, listed, rfl⟩ | ⟨t, uploading⟩
    · rcases (bucket.pruned.passes new h).kept b listed with still | gone
      · exact unlisted b still rfl
      · rw [gone] at stored
        cases stored
    · by_cases label : a.worker = some t
      · rcases step_of_uploading uploading label h with ⟨stops, -⟩ | ⟨-, b, listed, same⟩
        · exact kept ⟨t, stops, by rw [uploading]; rfl⟩
        · exact unlisted b listed same
      · obtain ⟨job, n, slot, -⟩ := MemoryState.uploading_eq.1 uploading
        have busy : s.workers t ≠ .none := by
          rw [slot]
          exact Option.some_ne_none _
        refine abandoned t ?_
        rw [MemoryState.uploading_congr (slot_kept h busy label), uploading]
  · exact abandoned t uploading

omit [DecidableEq β] in
theorem worker_of_stops (stops : s.stops a = some t) : a.worker = some t := by
  unfold MemoryState.stops at stops
  split at stops
  · exact stops
  · exact stops
  · split at stops
    · exact stops
    · cases stops
  · cases stops

/-- A step that ends a task there leaves its object an orphan. -/
theorem orphan_of_abandons (bucket : Bucket s) (abandons : s.Abandons a)
    (h : step S s a = some s') : ∃ key, s'.Orphan key := by
  obtain ⟨t, stops, held⟩ := abandons
  obtain ⟨key, uploading⟩ := Option.isSome_iff_exists.1 held
  have label : a.worker = some t := worker_of_stops stops
  obtain ⟨x, moved⟩ := worker_slot h label
  rcases step_of_uploading uploading label h with ⟨-, objects, backups, ended⟩ | ⟨sent, -⟩
  · have uploaded := MemoryState.uploaded_of_uploading uploading
    obtain ⟨-, stored, unlisted, -⟩ := bucket.uploads.waiting t key uploaded
    refine ⟨key, objects ▸ stored, backups ▸ unlisted, fun t' now => ?_⟩
    by_cases same : t' = t
    · subst same
      cases ended.symm.trans now
    · have slot : s'.workers t' = s.workers t' := by rw [moved, Function.update_of_ne same]
      rw [MemoryState.uploading_congr slot] at now
      exact same (bucket.uploads.single t t' key uploaded (MemoryState.uploaded_of_uploading now))
  · exact absurd stops sent

/-- An orphan stays. -/
theorem MemoryState.Orphan.stays {key : ObjectKey} (orphan : s.Orphan key) (bucket : Bucket s)
    (h : step S s a = some s') : s'.Orphan key := by
  have step := step_sound h
  have used := bucket.stored key orphan.stored
  have spared : ∀ t, key ∉ s.deleting t := by
    intro t todo
    obtain ⟨b, selected, rfl⟩ := (bucket.pruned.prunes t).named key todo
    rcases (bucket.pruned.prunes t).listed b selected with listed | gone
    · exact orphan.unlisted b listed rfl
    · have stored := orphan.stored
      rw [gone] at stored
      cases stored
  refine ⟨?_, ?_, fun t now => ?_⟩
  · have put : ∀ {key' : ObjectKey} {data : β},
        (Function.update s.objects key' (some data) key).isSome := by
      intro key' data
      by_cases same : key = key'
      · rw [same, Function.update_self]
        rfl
      · rw [Function.update_of_ne same]
        exact orphan.stored
    cases step with
    | putObject here named fresh | putCopy here named fresh => exact put
    | @deleteObject t tier now n backup stale key' todo here =>
      have apart : key ≠ key' := by
        rintro rfl
        refine spared t ?_
        rw [MemoryState.deleting_here here]
        exact List.mem_cons_self
      show (Function.update s.objects key' none key).isSome
      rw [Function.update_of_ne apart]
      exact orphan.stored
    | _ => exact orphan.stored
  · have insert : ∀ {t : Nat} {b : MemoryBackup}, s.uploading t = some b.storageKey →
        ∀ b' ∈ s.backups ++ [b], b'.storageKey ≠ key := by
      intro t b uploading b' listed same
      rcases List.mem_append.1 listed with old | new
      · exact orphan.unlisted b' old same
      · rw [List.mem_singleton.1 new] at same
        exact orphan.abandoned t (same ▸ uploading)
    cases step with
    | commitBackup here utc fresh free row =>
      subst row
      exact insert (MemoryState.uploading_eq.2 ⟨_, _, here, rfl⟩)
    | commitCopy here fresh row =>
      subst row
      exact insert (MemoryState.uploading_eq.2 ⟨_, _, here, rfl⟩)
    | commitPrune here => exact fun b kept => orphan.unlisted b (List.mem_of_mem_filter kept)
    | _ => exact orphan.unlisted
  · rcases uploading_before h now with before | unused
    · exact orphan.abandoned t before
    · exact unused used

/-! ## Rows and their objects -/

/-- The row's object is stored, or a prune at work has selected the row. -/
def MemoryState.Covered (s : MemoryState ι β) (b : MemoryBackup) : Prop :=
  (s.objects b.storageKey).isSome ∨ ∃ t, s.running t ≠ none ∧ b ∈ s.selected t

/-- The next step of a prune stops it, goes on with its rows, or takes them. -/
theorem step_of_pruning {b : MemoryBackup} (alive : s.running t ≠ none) (member : b ∈ s.selected t)
    (label : a.worker = some t) (h : step S s a = some s') :
    s.stops a = some t ∨ (s'.running t ≠ none ∧ b ∈ s'.selected t) ∨ b ∉ s'.backups := by
  obtain ⟨⟨job, _, n⟩, running⟩ := Option.ne_none_iff_exists'.1 alive
  obtain ⟨slot, rfl⟩ := MemoryState.running_iff.1 running
  rw [MemoryState.selected_here slot] at member
  unfold Worker.selected at member
  split at member
  · rename_i tier now backup stale todo job
    cases job
    have on : ∀ {s' : MemoryState ι β} {todo' : List ObjectKey},
        s'.workers = Function.update s.workers t
          (some ⟨.rollup tier now (.pruning backup stale todo'), true, n⟩) →
        s'.running t ≠ none ∧ b ∈ s'.selected t := by
      intro s' todo' moved
      rw [MemoryState.running, MemoryState.selected, moved, Function.update_self]
      exact ⟨Option.some_ne_none _, member⟩
    cases todo <;> cases a <;> cases label <;>
      simp only [step, Action.worker, running, rollupStep, reduceCtorEq] at h
    · cases h
      refine .inr (.inr fun kept => ?_)
      have gone := (List.mem_filter.1 kept).2
      exact absurd (List.mem_map_of_mem member) (of_decide_eq_true gone)
    · exact .inl rfl
    · exact .inl rfl
    · cases h
      exact .inr (.inl (on rfl))
    · exact .inl rfl
    · exact .inl rfl
  · cases member

/-- An object goes only where a prune at work deletes it. -/
theorem stored_after {key : ObjectKey} (h : step S s a = some s') (stored : (s.objects key).isSome) :
    (s'.objects key).isSome ∨
      ∃ t, key ∈ s.deleting t ∧ s'.running t ≠ none ∧ s'.selected t = s.selected t := by
  have step := step_sound h
  have put : ∀ {key' : ObjectKey} {data : β},
      (Function.update s.objects key' (some data) key).isSome := by
    intro key' data
    by_cases same : key = key'
    · rw [same, Function.update_self]
      rfl
    · rwa [Function.update_of_ne same]
  cases step with
  | putObject here named fresh | putCopy here named fresh => exact .inl put
  | @deleteObject t tier now n backup stale key' todo here =>
    by_cases same : key = key'
    · subst same
      refine .inr ⟨t, ?_, ?_, ?_⟩
      · rw [MemoryState.deleting_here here]
        exact List.mem_cons_self
      · rw [MemoryState.running, MemoryState.set_workers, Function.update_self]
        exact Option.some_ne_none _
      · rw [MemoryState.selected_here here, MemoryState.selected, MemoryState.set_workers,
          Function.update_self]
        rfl
    · left
      show (Function.update s.objects key' none key).isSome
      rwa [Function.update_of_ne same]
  | _ => exact .inl stored

/-- Where a new row comes from. -/
theorem row_before {b : MemoryBackup} (h : step S s a = some s') (listed : b ∈ s'.backups) :
    b ∈ s.backups ∨ a.inserts = some b.id ∧ s'.objects = s.objects ∧
      ∃ t, s.uploaded t = some b.storageKey := by
  have step := step_sound h
  cases step with
  | commitBackup here utc fresh free row =>
    subst row
    rcases List.mem_append.1 listed with old | new
    · exact .inl old
    · rw [List.mem_singleton.1 new]
      exact .inr ⟨rfl, rfl, _, MemoryState.uploaded_here here⟩
  | commitCopy here fresh row =>
    subst row
    rcases List.mem_append.1 listed with old | new
    · exact .inl old
    · rw [List.mem_singleton.1 new]
      exact .inr ⟨rfl, rfl, _, MemoryState.uploaded_here here⟩
  | commitPrune here => exact .inl (List.mem_of_mem_filter listed)
  | _ => exact .inl listed

/-- A step that cuts no task short keeps every row's object, but for those being pruned. -/
theorem covered_preserved (bucket : Bucket s) (calm : ¬ s.Interrupts a)
    (covered : ∀ b ∈ s.backups, s.Covered b) (h : step S s a = some s') :
    ∀ b ∈ s'.backups, s'.Covered b := by
  intro b listed'
  rcases row_before h listed' with listed | ⟨-, objects, t, uploaded⟩
  · rcases covered b listed with stored | ⟨t, alive, selected⟩
    · rcases stored_after h stored with still | ⟨t, todo, alive, same⟩
      · exact .inl still
      · obtain ⟨b', selected, named⟩ := (bucket.pruned.prunes t).named _ todo
        rcases (bucket.pruned.prunes t).listed b' selected with here | gone
        · obtain rfl := List.inj_on_of_nodup_map bucket.pruned.keys here listed named
          exact .inr ⟨t, alive, same ▸ selected⟩
        · rw [named] at gone
          rw [gone] at stored
          cases stored
    · by_cases label : a.worker = some t
      · rcases step_of_pruning alive selected label h with stops | on | gone
        · exact absurd ⟨t, stops, .inr (List.ne_nil_of_mem selected)⟩ calm
        · exact .inr ⟨t, on⟩
        · exact absurd listed' gone
      · obtain ⟨w, running⟩ := Option.ne_none_iff_exists'.1 alive
        have slot := (MemoryState.running_iff.1 running).1
        have kept := slot_kept h (by rw [slot]; exact Option.some_ne_none _) label
        refine .inr ⟨t, ?_, ?_⟩
        · rwa [MemoryState.running, kept]
        · rwa [MemoryState.selected, kept]
  · left
    rw [objects]
    exact (bucket.uploads.waiting t _ uploaded).stored

/-! ## All clones -/

omit [DecidableEq β] in
/-- The ids of the rows a run inserts, in order. -/
def insertedIds (as : List (Nat × Action β)) : List Nat := as.filterMap fun a => a.2.inserts

/-- A row a prune has selected now was selected before or listed. -/
theorem selected_before (h : step S s a = some s') :
    ∀ t, ∀ b ∈ s'.selected t, b ∈ s.selected t ∨ b ∈ s.backups := by
  have moved : ∀ {t x}, s'.workers = Function.update s.workers t x →
      (∀ b ∈ (x.map Worker.selected).getD [], b ∈ s.selected t ∨ b ∈ s.backups) →
      ∀ t', ∀ b ∈ s'.selected t', b ∈ s.selected t' ∨ b ∈ s.backups := by
    intro t x workers own
    rw [MemoryState.selected_moved workers]
    exact (Function.forall_update_iff s.selected fun t' now =>
      ∀ b ∈ now, b ∈ s.selected t' ∨ b ∈ s.backups).2 ⟨own, fun _ _ _ => .inl⟩
  have step := step_sound h
  cases step with
  | append fresh => exact fun _ _ => .inl
  | @spawn _ t job free starts =>
    refine moved (t := t) rfl ?_
    cases a <;> simp only [Action.spawns, reduceCtorEq, Option.some.injEq, Prod.mk.injEq] at starts
      <;> obtain ⟨rfl, rfl⟩ := starts <;> rintro _ ⟨⟩
  | ends here quit | trim here | fail here other | revert here free present
  | revertGone here missing | commitPrune here | commitCopy here fresh row =>
    refine moved rfl fun b member => ?_
    rw [Worker.selected_next] at member
    cases member
  | selectStale here ranks =>
    exact moved rfl fun b stale =>
      .inr (ranks.1.subset ((Ranking.beyond_sublist _ _).subset stale))
  | deleteObject here =>
    refine moved rfl fun b member => .inl ?_
    rw [MemoryState.selected_here here]
    exact member
  | @die t job n here =>
    refine moved (t := t) rfl fun b member => .inl ?_
    rw [MemoryState.selected_here here]
    exact member
  | _ =>
    refine moved rfl ?_
    rintro _ ⟨⟩

namespace World

/-- No object is without a row and a task about to insert one. -/
def NoOrphans (w : World ι β) : Prop := ∀ key, ¬ (w key.cloneId).Orphan key

/-- A row has this id, or a prune has selected one that had. -/
def Knows (w : World ι β) (id : Nat) : Prop :=
  ∃ c b, b.id = id ∧ (b ∈ (w c).backups ∨ ∃ t, b ∈ (w c).selected t)

end World

variable {w w' : World ι β}

theorem knows_before {x : Nat × Action β} {id : Nat} (h : w.step S x = some w')
    (knows : w'.Knows id) : w.Knows id ∨ x.2.inserts = some id := by
  obtain ⟨c, b, rfl, known⟩ := knows
  obtain ⟨_, s, taken, rfl⟩ := World.step_eq h
  by_cases here : c = x.1
  · subst here
    rw [Function.update_self] at known
    rcases known with listed | ⟨t, selected⟩
    · rcases row_before taken listed with old | ⟨new, -⟩
      · exact .inl ⟨_, b, rfl, .inl old⟩
      · exact .inr new
    · rcases selected_before taken t b selected with old | listed
      · exact .inl ⟨_, b, rfl, .inr ⟨t, old⟩⟩
      · exact .inl ⟨_, b, rfl, .inl listed⟩
  · rw [Function.update_of_ne here] at known
    exact .inl ⟨c, b, rfl, known⟩

/-- A sequence that gives no id twice gives none that is known. -/
theorem unknown_of_sequence : ∀ {as : List (Nat × Action β)} {w : World ι β},
    (insertedIds as).Nodup → (∀ id ∈ insertedIds as, ¬ w.Knows id) →
      Run.Guarded (World.step S) (fun w x => ∀ id ∈ x.2.inserts, ¬ w.Knows id) w as := by
  intro as
  induction as with
  | nil => exact fun _ _ => trivial
  | cons x as ih =>
    intro w nodup unknown w' taken
    have later : ∀ id ∈ insertedIds as, id ∈ insertedIds (x :: as) := by
      intro id member
      unfold insertedIds at member ⊢
      rw [List.mem_filterMap] at member ⊢
      obtain ⟨y, member, inserts⟩ := member
      exact ⟨y, List.mem_cons_of_mem _ member, inserts⟩
    have first : ∀ id, x.2.inserts = some id → id ∈ insertedIds (x :: as) ∧ id ∉ insertedIds as ∧
        (insertedIds as).Nodup := by
      intro id inserts
      have split : insertedIds (x :: as) = id :: insertedIds as :=
        List.filterMap_cons_some inserts
      rw [split] at nodup ⊢
      exact ⟨List.mem_cons_self, List.nodup_cons.1 nodup⟩
    refine ⟨fun id inserts => unknown id (first id inserts).1, ih ?_ fun id member knows => ?_⟩
    · cases inserts : x.2.inserts with
      | none =>
        have split : insertedIds (x :: as) = insertedIds as := List.filterMap_cons_none inserts
        rwa [split] at nodup
      | some id => exact (first id inserts).2.2
    · rcases knows_before taken knows with before | inserts
      · exact unknown id (later id member) before
      · exact (first id inserts).2.1 member

theorem newIds_of_sequence {as : List (Nat × Action β)} {w : World ι β}
    (sequence : (insertedIds as).Nodup) (unknown : ∀ id ∈ insertedIds as, ¬ w.Knows id) :
    Run.Guarded (World.step S) (fun w x => (w x.1).NewId x.2) w as :=
  (unknown_of_sequence sequence unknown).mono fun _ x new id inserts t b selected same =>
    new id inserts ⟨x.1, b, same, .inr ⟨t, selected⟩⟩

/-- What holds of every clone's objects along a run. -/
structure Buckets (S : Service ι β) (w : World ι β) : Prop where
  ok : WorldOk S w
  lanes : ∀ c, Bucket (w c)

omit [DecidableEq β] in
theorem Buckets.initial : Buckets S (World.initial (ι := ι) (β := β)) where
  ok := .initial
  lanes _ := .initial

theorem Buckets.preserved {x : Nat × Action β} (buckets : Buckets S w) (new : (w x.1).NewId x.2)
    (h : w.step S x = some w') : Buckets S w' := by
  refine ⟨buckets.ok.preserved h, ?_⟩
  obtain ⟨_, s, taken, rfl⟩ := World.step_eq h
  exact (Function.forall_update_iff w fun _ lane => Bucket lane).2
    ⟨(buckets.lanes x.1).preserved new taken, fun c _ => buckets.lanes c⟩

omit [DecidableEq β] in
/-- A lane's orphan is an object of the clone. -/
theorem Buckets.cloneId_of_stored (buckets : Buckets S w) {c : Nat} {key : ObjectKey}
    (stored : ((w c).objects key).isSome) : key.cloneId = c :=
  buckets.ok.named c key ((buckets.lanes c).stored key stored)

omit [DecidableEq β] in
theorem World.initial_knows (id : Nat) : ¬ (World.initial (ι := ι) (β := β)).Knows id := by
  rintro ⟨c, b, -, listed | ⟨t, selected⟩⟩
  · cases listed
  · cases selected

/-- The orphans of a world after one more step. -/
theorem orphan_stays {x : Nat × Action β} (buckets : Buckets S w) (h : w.step S x = some w')
    {key : ObjectKey} (orphan : (w key.cloneId).Orphan key) : (w' key.cloneId).Orphan key := by
  obtain ⟨_, s, taken, rfl⟩ := World.step_eq h
  by_cases here : key.cloneId = x.1
  · rw [here] at orphan ⊢
    rw [Function.update_self]
    exact orphan.stays (buckets.lanes x.1) taken
  · rwa [Function.update_of_ne here]

/-- **An object is left without a row exactly where a task ends between its upload and its row, and
then for good.** -/
theorem no_orphans_iff (S : Service ι β) (as : List (Nat × Action β))
    (sequence : (insertedIds as).Nodup) :
    (Run.Throughout (World.step S) World.NoOrphans World.initial as ↔
      Run.Guarded (World.step S) (fun w x => ¬ (w x.1).Abandons x.2) World.initial as) ∧
    ∀ before after w w' key, as = before ++ after →
      Run.exec (World.step S) World.initial before = some w →
      Run.exec (World.step S) w after = some w' →
      (w key.cloneId).Orphan key → (w' key.cloneId).Orphan key := by
  have fresh := newIds_of_sequence (S := S) sequence fun id _ => World.initial_knows id
  have start : ∀ c key, ¬ ((World.initial : World ι β) c).Orphan key :=
    fun c key orphan => absurd orphan.stored (by simp [World.initial, MemoryState.initial])
  constructor
  · refine Run.throughout_iff_guarded
      (I := fun w => Buckets S w ∧ ∀ c key, ¬ (w c).Orphan key)
      (fun w inv key => inv.2 _ key) ?_ ?_ ⟨.initial, start⟩ fresh
    · rintro w x w' ⟨buckets, none⟩ new h kept
      refine ⟨buckets.preserved new h, ?_⟩
      obtain ⟨_, s, taken, rfl⟩ := World.step_eq h
      exact (Function.forall_update_iff w fun _ lane => ∀ key, ¬ lane.Orphan key).2
        ⟨no_orphans_preserved (buckets.lanes x.1) new (none x.1) kept taken, fun c _ => none c⟩
    · rintro w x w' ⟨buckets, none⟩ new h good abandons
      have buckets' := buckets.preserved new h
      obtain ⟨_, s, taken, rfl⟩ := World.step_eq h
      obtain ⟨key, orphan⟩ := orphan_of_abandons (buckets.lanes x.1) abandons taken
      have lane : (Function.update w x.1 s) x.1 = s := Function.update_self ..
      have own : key.cloneId = x.1 := buckets'.cloneId_of_stored (by rw [lane]; exact orphan.stored)
      refine good key ?_
      rwa [own, lane]
  · rintro before after w w' key rfl run later orphan
    have first := Run.Guarded.invariant (I := Buckets S)
      (fun _ _ _ buckets new h => buckets.preserved new h) .initial (fresh.take _ _) run
    have inv := Run.Guarded.invariant
      (I := fun w => Buckets S w ∧ (w key.cloneId).Orphan key)
      (fun _ _ _ inv new h => ⟨inv.1.preserved new h, orphan_stays inv.1 h inv.2⟩)
      ⟨first, orphan⟩ (fresh.drop run) later
    exact inv.2

/-- Clone 1 writes an entry, it is flushed, and its rollup uploads it. -/
def uploadedEntry : List (Nat × Action (List MemoryItem)) :=
  [(1, .append "a" "2026-01-01T00:00:00+00:00" ⟨1, 0⟩ false), (1, .startFlush 0 0),
    (1, .readAll 0), (1, .lockRow 0), (1, .commitBuffer 0), (1, .trim 0),
    (1, .startRollup 1 .free 63902822400000001), (1, .readBuffer 1), (1, .putObject 1 0)]

/-- The commit after it raises. -/
def abandonedEntry : List (Nat × Action (List MemoryItem)) := uploadedEntry ++ [(1, .fail 1)]

theorem orphan_of_failed_commit :
    ¬ Run.Throughout (World.step (.sample .approximate)) World.NoOrphans World.initial
      abandonedEntry := by
  intro clean
  have guarded := (no_orphans_iff (.sample .approximate) abandonedEntry (by decide)).1.1 clean
  exact absurd guarded (by decide)

/-- Every object of the clone has a row or is about to, and every row an object or a prune. -/
structure Consistent (s : MemoryState ι β) : Prop where
  objects : ∀ key, ¬ s.Orphan key
  rows : ∀ b ∈ s.backups, s.Covered b

omit [DecidableEq β] in
theorem Consistent.initial : Consistent (MemoryState.initial (ι := ι) (β := β)) where
  objects _ orphan := absurd orphan.stored (by simp [MemoryState.initial])
  rows _ listed := by cases listed

theorem consistent_preserved {x : Nat × Action β} (buckets : Buckets S w) (consistent : ∀ c, Consistent (w c))
    (new : (w x.1).NewId x.2) (calm : ¬ (w x.1).Interrupts x.2)
    (h : w.step S x = some w') : ∀ c, Consistent (w' c) := by
  obtain ⟨_, s, taken, rfl⟩ := World.step_eq h
  have bucket := buckets.lanes x.1
  refine (Function.forall_update_iff w fun _ lane => Consistent lane).2
    ⟨⟨?_, ?_⟩, fun c _ => consistent c⟩
  · refine no_orphans_preserved bucket new (consistent x.1).objects ?_ taken
    exact fun ⟨t, stops, held⟩ => calm ⟨t, stops, .inl held⟩
  · exact covered_preserved bucket calm (consistent x.1).rows taken

/-- **The bucket and the table agree.** Where no task is cut short between an upload and its row or
in a prune, a clone with no task at work has an object under each of its rows' keys, each row its
own, and under no other key. -/
theorem bucket_matches_table (S : Service ι β) (as : List (Nat × Action β)) (w : World ι β)
    (run : Run.exec (World.step S) World.initial as = some w)
    (sequence : (insertedIds as).Nodup)
    (calm : Run.Guarded (World.step S) (fun w x => ¬ (w x.1).Interrupts x.2) World.initial as)
    (c : Nat) (idle : ∀ t, (w c).running t = none) (key : ObjectKey) (own : key.cloneId = c) :
    (w.object key).isSome ↔ ∃! b, b ∈ (w c).backups ∧ b.storageKey = key := by
  have fresh := newIds_of_sequence (S := S) sequence fun id _ => World.initial_knows id
  obtain ⟨buckets, consistent⟩ := Run.Guarded.invariant
    (I := fun w => Buckets S w ∧ ∀ c, Consistent (w c))
    (fun _ _ _ inv cond h =>
      ⟨inv.1.preserved cond.1 h, consistent_preserved inv.1 inv.2 cond.1 cond.2 h⟩)
    ⟨.initial, fun _ => .initial⟩ (fresh.and calm) run
  subst own
  have bucket := buckets.lanes key.cloneId
  constructor
  · intro stored
    rcases named_of_stored (consistent _).objects stored with ⟨b, listed, same⟩ | ⟨t, uploading⟩
    · refine ⟨b, ⟨listed, same⟩, fun b' ⟨listed', same'⟩ => ?_⟩
      exact List.inj_on_of_nodup_map bucket.pruned.keys listed' listed (same'.trans same.symm)
    · rw [MemoryState.uploading, idle t] at uploading
      cases uploading
  · rintro ⟨b, ⟨listed, rfl⟩, -⟩
    rcases (consistent _).rows b listed with stored | ⟨t, alive, -⟩
    · exact stored
    · exact absurd (idle t) alive

/-- The rollup goes on to its end. -/
def rolledUp : List (Nat × Action (List MemoryItem)) :=
  uploadedEntry ++
    [(1, .commitBackup 1 1 0), (1, .selectStale 1 [sampleBackup]), (1, .commitPrune 1)]

theorem bucket_matches_of_rollup :
    ∃ w, Run.exec (World.step (.sample .approximate)) World.initial rolledUp = some w ∧
      (w.object sampleBackup.storageKey).isSome ∧
      ∀ key, key.cloneId = 1 →
        ((w.object key).isSome ↔ ∃! b, b ∈ (w 1).backups ∧ b.storageKey = key) := by
  refine ⟨_, rfl, rfl, ?_⟩
  refine bucket_matches_table (.sample .approximate) rolledUp _ rfl (by decide) (by decide) 1 ?_
  intro t
  rcases t with _ | _ | t <;> rfl

end Mycelium
