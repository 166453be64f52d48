import Mycelium.Worker.Uploads

/-!
# Prunes in progress

A prune selects its stale rows, deletes their objects one after another and then
the rows, while other prunes may be doing the same to the same rows. `Pruned` is
what a prune's list is good for at any moment: a row of it is still listed or its
object is gone, and an object not gone yet is one the prune will still delete. It
rests on the sequence behind `memory_backups.id`, which gives no id twice.
-/

namespace Mycelium

variable {ι β : Type}

/-- The rows a prune has selected. -/
def Worker.selected (w : Worker ι β) : List MemoryBackup :=
  match w.job with
  | .rollup _ _ (.pruning _ stale _) => stale
  | _ => []

def MemoryState.selected (s : MemoryState ι β) (t : Nat) : List MemoryBackup :=
  ((s.workers t).map Worker.selected).getD []

/-- The id of the row an action inserts. -/
def Action.inserts : Action β → Option Nat
  | .commitBackup _ id _ | .commitCopy _ id _ _ => some id
  | _ => none

/-- The row is not one a prune in progress has selected under the same id. -/
def MemoryState.NewId (s : MemoryState ι β) (a : Action β) : Prop :=
  ∀ id ∈ a.inserts, ∀ t, ∀ b ∈ s.selected t, b.id ≠ id

/-- What a prune knows of the rows `stale` it has selected, with the objects `todo` to delete. -/
structure Pruning (s : MemoryState ι β) (stale : List MemoryBackup) (todo : List ObjectKey) :
    Prop where
  used : ∀ b ∈ stale, b.storageKey ∈ s.keys
  same : ∀ b ∈ stale, ∀ b' ∈ s.backups, b'.id = b.id → b' = b
  gone : ∀ b ∈ stale, b.storageKey ∈ todo ∨ s.objects b.storageKey = none
  listed : ∀ b ∈ stale, b ∈ s.backups ∨ s.objects b.storageKey = none
  named : ∀ key ∈ todo, ∃ b ∈ stale, b.storageKey = key

structure Pruned (s : MemoryState ι β) : Prop where
  ids : (s.backups.map MemoryBackup.id).Nodup
  keys : (s.backups.map MemoryBackup.storageKey).Nodup
  prunes : ∀ t, Pruning s (s.selected t) (s.deleting t)

variable {s s' : MemoryState ι β} {t : Nat} {x : Option (Worker ι β)}

theorem Pruning.nothing : Pruning s [] [] where
  used := by simp
  same := by simp
  gone := by simp
  listed := by simp
  named := by simp

theorem Pruned.initial : Pruned (MemoryState.initial (ι := ι) (β := β)) where
  ids := List.nodup_nil
  keys := List.nodup_nil
  prunes _ := .nothing

theorem MemoryState.selected_moved (workers : s'.workers = Function.update s.workers t x) :
    s'.selected = Function.update s.selected t ((x.map Worker.selected).getD []) :=
  slots_moved (fun w => (w.map Worker.selected).getD []) workers

theorem MemoryState.selected_here {w : Worker ι β} (here : s.workers t = some w) :
    s.selected t = w.selected := by
  rw [selected, here]
  rfl

theorem Worker.selected_next (w : Worker ι β) : (w.next.map Worker.selected).getD [] = [] := by
  cases found : w.next with
  | none => rfl
  | some w' =>
    obtain ⟨again, rfl⟩ := Worker.next_eq found
    rfl

/-- What the stores may do under a prune: no object comes back, no row gets a selected id, and a row
goes only when its object is gone. -/
structure Passes (s s' : MemoryState ι β) : Prop where
  keys : ∀ key ∈ s.keys, key ∈ s'.keys
  objects : ∀ key ∈ s.keys, s.objects key = none → s'.objects key = none
  rows : ∀ b ∈ s'.backups, b ∈ s.backups ∨ ∀ t, ∀ b' ∈ s.selected t, b'.id ≠ b.id
  kept : ∀ b ∈ s.backups, b ∈ s'.backups ∨ s'.objects b.storageKey = none

theorem Passes.of_same (keys : s'.keys = s.keys) (objects : s'.objects = s.objects)
    (backups : s'.backups = s.backups) : Passes s s' where
  keys key used := keys ▸ used
  objects key _ gone := by rwa [objects]
  rows b listed := .inl (backups ▸ listed)
  kept b listed := .inl (backups ▸ listed)

/-- An upload under a key not used before. -/
theorem Passes.put {key : ObjectKey} {data : β} (fresh : key ∉ s.keys)
    (keys : s'.keys = key :: s.keys)
    (objects : s'.objects = Function.update s.objects key (some data))
    (backups : s'.backups = s.backups) : Passes s s' where
  keys k used := by rw [keys]; exact List.mem_cons_of_mem _ used
  objects k used gone := by
    have other : k ≠ key := by
      rintro rfl
      exact fresh used
    rwa [objects, Function.update_of_ne other]
  rows b listed := .inl (backups ▸ listed)
  kept b listed := .inl (backups ▸ listed)

/-- A new row under a new id. -/
theorem Passes.insert {b : MemoryBackup} (keys : s'.keys = s.keys) (objects : s'.objects = s.objects)
    (backups : s'.backups = s.backups ++ [b]) (new : ∀ t, ∀ b' ∈ s.selected t, b'.id ≠ b.id) :
    Passes s s' where
  keys key used := keys ▸ used
  objects key _ gone := by rwa [objects]
  rows b' listed := by
    rw [backups, List.mem_append, List.mem_singleton] at listed
    rcases listed with old | rfl
    · exact .inl old
    · exact .inr new
  kept b' listed := .inl (by rw [backups]; exact List.mem_append_left _ listed)

/-- A deletion that a prune makes. -/
theorem Passes.delete {key : ObjectKey} (keys : s'.keys = s.keys)
    (objects : s'.objects = Function.update s.objects key none) (backups : s'.backups = s.backups) :
    Passes s s' where
  keys k used := keys ▸ used
  objects k _ gone := by
    rw [objects]
    by_cases here : k = key
    · rw [here, Function.update_self]
    · rwa [Function.update_of_ne here]
  rows b listed := .inl (backups ▸ listed)
  kept b listed := .inl (backups ▸ listed)

/-- The last commit of a prune takes rows whose objects are gone. -/
theorem Passes.prune {stale : List MemoryBackup} (pruning : Pruning s stale [])
    (keys : s'.keys = s.keys) (objects : s'.objects = s.objects)
    (backups : s'.backups = s.backups.filter fun b => b.id ∉ stale.map MemoryBackup.id) :
    Passes s s' where
  keys key used := keys ▸ used
  objects key _ gone := by rwa [objects]
  rows b listed := by
    rw [backups] at listed
    exact .inl (List.mem_of_mem_filter listed)
  kept b listed := by
    by_cases stays : b.id ∈ stale.map MemoryBackup.id
    · obtain ⟨b', member, same⟩ := List.mem_map.1 stays
      obtain rfl := pruning.same b' member b listed same.symm
      rcases pruning.gone b member with waiting | gone
      · cases waiting
      · exact .inr (by rwa [objects])
    · exact .inl (by rw [backups]; exact List.mem_filter.2 ⟨listed, decide_eq_true stays⟩)

/-- What a prune knows it goes on knowing. -/
theorem Pruning.later {stale : List MemoryBackup} {todo : List ObjectKey}
    (pruning : Pruning s stale todo) (mine : s.selected t = stale) (passes : Passes s s') :
    Pruning s' stale todo where
  used b member := passes.keys _ (pruning.used b member)
  same b member b' listed same := by
    rcases passes.rows b' listed with old | new
    · exact pruning.same b member b' old same
    · exact absurd same.symm (new t b (mine ▸ member))
  gone b member := (pruning.gone b member).imp id (passes.objects _ (pruning.used b member))
  listed b member := by
    rcases pruning.listed b member with here | gone
    · exact passes.kept b here
    · exact .inr (passes.objects _ (pruning.used b member) gone)
  named := pruning.named

/-- A step of `t`, from what its own list has become. -/
theorem Pruned.moved (pruned : Pruned s) (workers : s'.workers = Function.update s.workers t x)
    (passes : Passes s s') (ids : (s'.backups.map MemoryBackup.id).Nodup)
    (keys : (s'.backups.map MemoryBackup.storageKey).Nodup)
    (own : Pruning s' ((x.map Worker.selected).getD []) ((x.map Worker.deleting).getD [])) :
    Pruned s' := by
  refine ⟨ids, keys, fun t' => ?_⟩
  rw [MemoryState.selected_moved workers, MemoryState.deleting_moved workers]
  by_cases here : t' = t
  · subst here
    rwa [Function.update_self, Function.update_self]
  · rw [Function.update_of_ne here, Function.update_of_ne here]
    exact (pruned.prunes t').later rfl passes

/-- A step of `t` that leaves the rows and after which `t` has no list. -/
theorem Pruned.dropped (pruned : Pruned s) (workers : s'.workers = Function.update s.workers t x)
    (passes : Passes s s') (backups : s'.backups = s.backups)
    (nothing : (x.map Worker.selected).getD [] = [] ∧ (x.map Worker.deleting).getD [] = []) :
    Pruned s' := by
  refine pruned.moved workers passes (backups ▸ pruned.ids) (backups ▸ pruned.keys) ?_
  rw [nothing.1, nothing.2]
  exact .nothing

theorem Worker.prunes_next (w : Worker ι β) :
    (w.next.map Worker.selected).getD [] = [] ∧ (w.next.map Worker.deleting).getD [] = [] :=
  ⟨w.selected_next, w.uploads_next.2⟩

/-- A column of the rows stays free of duplicates when a row with a new value is added. -/
theorem nodup_map_concat {α γ : Type} {f : α → γ} {l : List α} {x : α} (nodup : (l.map f).Nodup)
    (new : f x ∉ l.map f) : ((l ++ [x]).map f).Nodup := by
  rw [List.map_append, List.map_singleton]
  exact List.Nodup.append nodup (List.nodup_singleton _) (List.disjoint_singleton.2 new)

/-- The key of an upload in progress is no row's. -/
theorem Uploads.unlisted (up : Uploads s) {key : ObjectKey} (here : s.uploaded t = some key) :
    key ∉ s.backups.map MemoryBackup.storageKey := by
  intro listed
  obtain ⟨b, member, same⟩ := List.mem_map.1 listed
  exact (up.waiting t key here).unlisted b member same

variable [DecidableEq β] {S : Service ι β} {a : Action β}

/-- What a step does to the stores under the prunes in progress. -/
theorem Pruned.passes (pruned : Pruned s) (new : s.NewId a) (h : step S s a = some s') :
    Passes s s' := by
  have step := step_sound h
  cases step with
  | putObject here named fresh | putCopy here named fresh => exact .put fresh rfl rfl rfl
  | commitBackup here utc fresh free row =>
    subst row
    exact .insert rfl rfl rfl (new _ rfl)
  | commitCopy here fresh row =>
    subst row
    exact .insert rfl rfl rfl (new _ rfl)
  | deleteObject here => exact .delete rfl rfl rfl
  | @commitPrune t tier now n backup stale here =>
    have pruning := pruned.prunes t
    rw [MemoryState.selected_here here, MemoryState.deleting_here here] at pruning
    exact .prune pruning rfl rfl rfl
  | _ => exact .of_same rfl rfl rfl

/-- **Every step keeps what the prunes in progress know.** -/
theorem Pruned.preserved (pruned : Pruned s) (up : Uploads s) (new : s.NewId a)
    (h : step S s a = some s') : Pruned s' := by
  have passes := pruned.passes new h
  have step := step_sound h
  cases step with
  | append fresh => exact ⟨pruned.ids, pruned.keys, fun t => (pruned.prunes t).later rfl passes⟩
  | @spawn _ t job free starts =>
    refine pruned.dropped (t := t) rfl passes rfl ?_
    cases a <;> simp only [Action.spawns, reduceCtorEq, Option.some.injEq, Prod.mk.injEq] at starts
      <;> obtain ⟨rfl, rfl⟩ := starts <;> exact ⟨rfl, rfl⟩
  | ends here quit | trim here | fail here other | revert here free present
  | revertGone here missing =>
    exact pruned.dropped rfl passes rfl (Worker.prunes_next _)
  | readAll here nonempty | lockRow here present free decoded | lockMissing here missing
  | commitUpdate here present | commitInsert here missing | trimUnanswered here | failTrim here
  | readBuffer here present counted decoded start | putObject here named fresh
  | getObject here | putCopy here named fresh =>
    exact pruned.dropped rfl passes rfl ⟨rfl, rfl⟩
  | commitBackup here utc fresh free row =>
    subst row
    refine pruned.moved rfl passes (nodup_map_concat pruned.ids fresh)
      (nodup_map_concat pruned.keys ?_) .nothing
    exact up.unlisted (MemoryState.uploaded_here here)
  | commitCopy here fresh row =>
    subst row
    refine pruned.moved rfl passes (nodup_map_concat pruned.ids fresh)
      (nodup_map_concat pruned.keys ?_) ?_
    · exact up.unlisted (MemoryState.uploaded_here here)
    · rw [(Worker.prunes_next _).1, (Worker.prunes_next _).2]
      exact .nothing
  | @selectStale t ranked tier now n backup here ranks =>
    have within : ∀ b ∈ staleBackups ranked, b ∈ s.backups := fun b stale =>
      ranks.1.subset ((Ranking.beyond_sublist _ _).subset stale)
    refine pruned.moved rfl passes pruned.ids pruned.keys ⟨?_, ?_, ?_, ?_, ?_⟩
    · exact fun b stale => up.listed b (within b stale)
    · exact fun b stale b' listed same =>
        List.inj_on_of_nodup_map pruned.ids listed (within b stale) same
    · exact fun b stale => .inl (List.mem_map_of_mem stale)
    · exact fun b stale => .inl (within b stale)
    · intro key member
      obtain ⟨b, stale, same⟩ := List.mem_map.1 member
      exact ⟨b, stale, same⟩
  | @deleteObject t tier now n backup stale key todo here =>
    have before := pruned.prunes t
    have selected := MemoryState.selected_here here
    rw [selected, MemoryState.deleting_here here] at before
    have after := before.later selected passes
    refine pruned.moved rfl passes pruned.ids pruned.keys
      ⟨after.used, after.same, fun b member => ?_, after.listed, ?_⟩
    · rcases before.gone b member with waiting | gone
      · rcases List.mem_cons.1 waiting with now | later
        · right
          show Function.update s.objects key none b.storageKey = none
          rw [now, Function.update_self]
        · exact .inl later
      · exact .inr (passes.objects _ (before.used b member) gone)
    · exact fun k later => after.named k (List.mem_cons_of_mem _ later)
  | @commitPrune t tier now n backup stale here =>
    have kept : (s.backups.filter fun b => b.id ∉ stale.map MemoryBackup.id).Sublist s.backups :=
      List.filter_sublist
    refine pruned.moved rfl passes (pruned.ids.sublist (kept.map _))
      (pruned.keys.sublist (kept.map _)) ?_
    rw [(Worker.prunes_next _).1, (Worker.prunes_next _).2]
    exact .nothing
  | @die t job n here =>
    refine pruned.moved (t := t) rfl passes pruned.ids pruned.keys ?_
    have before := pruned.prunes t
    rw [MemoryState.selected_here here, MemoryState.deleting_here here] at before
    exact before.later (MemoryState.selected_here here) passes

end Mycelium
