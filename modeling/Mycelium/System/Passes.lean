import Mycelium.Api.Requests
import Mycelium.System.Events
import Mycelium.Worker.SharedSession

/-!
# A pass of the running system is a run of `run_rollup`

The running system takes the clones of a pass one event at a time and lets a pass
end where a call raises. With nothing else going on that is what `runRollup` does
to the stores. Beside it: what `runRollup` needs of the stores holds in every state
of the system.
-/

namespace Mycelium

variable {ι β : Type}

namespace Store.Keyed

variable {s s' : Store β}

theorem congr (keyed : s.Keyed) (backups : s'.backups = s.backups) : s'.Keyed := by
  unfold Keyed
  rw [backups]
  exact keyed

theorem inserted (keyed : s.Keyed) {b : MemoryBackup} {backups : Table MemoryBackup MemoryBackup.id}
    (named : b.storageKey.cloneId = b.cloneId) (inserted : s.backups.insert b = some backups)
    (rows : s'.backups = backups) : s'.Keyed := by
  intro x listed
  rw [rows] at listed
  rcases (Table.mem_of_insert inserted).1 listed with old | rfl
  · exact keyed x old
  · exact named

theorem restored (keyed : s.Keyed) (backup : MemoryBackup) (now : Int) :
    (s.setRestored backup now).Keyed := by
  intro x listed
  obtain ⟨old, member, rfl⟩ := mem_setRestored.1 listed
  split
  · exact keyed old member
  · exact keyed old member

theorem serve {A : Api ι β} {r : Request} (keyed : s.Keyed) (h : serve A s r = some s') :
    s'.Keyed := by
  obtain ⟨⟨_, resp⟩, answered, rfl⟩ := Option.map_eq_some_iff.1 h
  cases handle_step answered with
  | restore backupId backup s' resp route own step =>
    cases step with
    | uncommitted => exact keyed
    | committed => exact keyed.restored backup r.choice.now
  | resurrect sourceProfileId p s' resp route own step =>
    cases step with
    | refused => exact keyed
    | raised => exact keyed
    | uncommitted => exact keyed
    | committed latest raw backups resurrects read fresh inserted =>
      exact keyed.inserted (b := resurrectedRow p latest r.choice) rfl inserted rfl
  | _ => exact keyed

theorem rollup {F : Format ι β} {clone : CloneProfile} {now : Int} {choice : RollupChoice}
    {fault : Option RollupFault} {result : RollupResult} (keyed : s.Keyed)
    (h : rollupClone F s clone now choice fault = some (s', result)) : s'.Keyed := by
  rw [← rollupCall_result] at h
  obtain ⟨⟨_, _⟩, called, same⟩ := Option.map_eq_some_iff.1 h
  cases same
  exact (rollupCall_frame keyed called).1

end Store.Keyed

variable {D : Deployment ι β} {s s' : SystemState β}

/-- In every state of the system each backup's object is stored under the backup's clone. -/
theorem keyed_of_run {es : List Event} (keyed : s.store.Keyed)
    (run : Run.exec (SystemState.step D) s es = some s') : s'.store.Keyed := by
  refine Run.invariant (I := fun s => s.store.Keyed) ?_ keyed run
  intro s e s' keyed taken
  cases SystemState.step_sound taken with
  | other s' noRollup made backups objects => exact keyed.congr backups
  | request r store isRequest served => exact keyed.serve served
  | rollup clone now choice fault store result passes called ended => exact keyed.rollup ended

theorem Attempt.rollup {F : Format ι β} {now : Int} {a : Attempt} {store store' : Store β}
    {ended : CallEnd} {fault : Option RollupFault} (effect : a.fault = fault.map .effect)
    (called : a.call F now store = some (store', ended)) :
    rollupClone F store a.clone now a.choice fault = some (store', ended.result) := by
  unfold Attempt.call at called
  rw [effect] at called
  rw [← rollupCall_result, called]
  rfl

/-- The next clone of the pass rolled up. -/
theorem SystemState.step_passNext {p : Nat} {now : Int} {clone : CloneProfile}
    {due : List CloneProfile} {choice : RollupChoice} {fault : Option RollupFault} {store : Store β}
    {result : RollupResult} (underWay : s.passes p = some ⟨now, clone :: due⟩)
    (ended : rollupClone D.toFormat s.store clone now choice fault = some (store, result)) :
    s.step D (.passNext p choice fault) = some
      { s with
        store := store
        passes := Function.update s.passes p (Pass.next ⟨now, clone :: due⟩ result)
        made := result.made } := by
  simp only [step, underWay, ended]
  rfl

/-- An event of the pass `p` after its start. -/
def Event.IsNext (p : Nat) (e : Event) : Prop := ∃ choice fault, e = .passNext p choice fault

/-- The loop, event by event. -/
theorem rollUpEach_runs {p : Nat} {now : Int} {attempts : List Attempt} {store : Store β}
    {ended : PassEnd}
    (effects : ∀ a ∈ attempts, ∃ fault : Option RollupFault, a.fault = fault.map .effect)
    (underWay : s.passes p = some ⟨now, attempts.map Attempt.clone⟩)
    (h : rollUpEach D.toFormat now s.store false attempts = some (store, ended)) :
    ∃ nexts s', Run.exec (SystemState.step D) s nexts = some s' ∧ s'.store = store ∧
      ∀ e ∈ nexts, e.IsNext p := by
  induction attempts generalizing s ended with
  | nil =>
    cases h
    exact ⟨[], s, rfl, rfl, fun e member => absurd member List.not_mem_nil⟩
  | cons a rest ih =>
    obtain ⟨fault, effect⟩ := effects a List.mem_cons_self
    have isNext : ∀ e ∈ [Event.passNext p a.choice fault], e.IsNext p := by
      intro e member
      exact ⟨a.choice, fault, List.mem_singleton.1 member⟩
    unfold rollUpEach at h
    split at h
    · cases h
    · rename_i t made called
      obtain ⟨⟨_, ended'⟩, run, eq⟩ := Option.map_eq_some_iff.1 h
      cases eq
      have taken := SystemState.step_passNext underWay (a.rollup effect called)
      have more : Pass.next ⟨now, a.clone :: rest.map Attempt.clone⟩ (CallEnd.returned made).result =
          some ⟨now, rest.map Attempt.clone⟩ := by
        cases made <;> rfl
      rw [more] at taken
      obtain ⟨nexts, s', later, same, all⟩ := ih
        (s := { s with
          store := t
          passes := Function.update s.passes p (some ⟨now, rest.map Attempt.clone⟩)
          made := (CallEnd.returned made).result.made })
        (fun b member => effects b (.tail a member)) (Function.update_self p _ s.passes) run
      refine ⟨.passNext p a.choice fault :: nexts, s', ?_, same, fun e member => ?_⟩
      · exact Option.bind_eq_some_iff.2 ⟨_, taken, later⟩
      · rcases List.mem_cons.1 member with rfl | member
        · exact isNext _ List.mem_cons_self
        · exact all e member
    · rename_i t called
      cases h
      have taken := SystemState.step_passNext underWay (a.rollup effect called)
      exact ⟨[.passNext p a.choice fault], _, Option.bind_eq_some_iff.2 ⟨_, taken, rfl⟩, rfl, isNext⟩
    · rename_i t called
      obtain ⟨rfl, _⟩ := rollUpEach_expired h
      have taken := SystemState.step_passNext underWay (a.rollup effect called)
      exact ⟨[.passNext p a.choice fault], _, Option.bind_eq_some_iff.2 ⟨_, taken, rfl⟩, rfl, isNext⟩

/-- **`runRollup` does to the stores what a pass of the system does** when nothing comes between its
events. -/
theorem runRollup_runs {p : Nat} {attempts : List Attempt} {store : Store β} {ended : PassEnd}
    (free : s.passes p = none)
    (effects : ∀ a ∈ attempts, ∃ fault : Option RollupFault, a.fault = fault.map .effect)
    (h : runRollup D.toFormat D.rollupIntervalOverride s.clock s.store attempts =
      some (store, ended)) :
    ∃ nexts s', Run.exec (SystemState.step D) s
        (.startPass p (attempts.map Attempt.clone) :: nexts) = some s' ∧
      s'.store = store ∧ ∀ e ∈ nexts, e.IsNext p := by
  unfold runRollup at h
  split at h
  · rename_i due
    obtain ⟨nexts, s', run, same, all⟩ := rollUpEach_runs
      (s := { s with
        passes := Function.update s.passes p (some ⟨s.clock, attempts.map Attempt.clone⟩)
        made := none }) effects (Function.update_self p _ s.passes) h
    refine ⟨nexts, s', Option.bind_eq_some_iff.2 ⟨_, ?_, run⟩, same, all⟩
    exact if_pos ⟨free, due⟩
  · cases h

end Mycelium
