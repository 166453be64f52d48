import Mycelium.System.Retention
import Mycelium.Api.Requests
import Mycelium.Worker.Due

/-!
# The cadence of rollups

The due date is computed from the rows that retention has left. Along every run
without resurrections, in which no clone is rolled up with an earlier `now` than
that of its last committed rollup, the greatest `period_end` of its rows is that
`now`: whatever a prune deletes, and however it ends, it keeps the row that ends
last.
-/

namespace Mycelium

variable {ι β : Type} {D : Deployment ι β}

/-- The clone and the `now` of the `rollup_clone` call of an event, when the call commits a
backup. -/
def Deployment.commitOf (D : Deployment ι β) (s : SystemState β) (e : Event) : Option (Nat × Int) :=
  match s.rollupOf e with
  | none => none
  | some (clone, now, choice, fault) =>
    match archiveBuffer D.toFormat s.store clone now choice fault with
    | some (_, .backedUp _) => some (clone.id, now)
    | _ => none

/-- The system, and beside it the history of committed rollups: for each clone the `now` of the
last one. -/
structure Cadence (β : Type) where
  system : SystemState β
  committed : Nat → Option Int

namespace Cadence

def step (D : Deployment ι β) (s : Cadence β) (e : Event) : Option (Cadence β) :=
  (s.system.step D e).map fun system =>
    ⟨system, match D.commitOf s.system e with
      | some (cloneId, now) => Function.update s.committed cloneId (some now)
      | none => s.committed⟩

/-- The system with nothing under way, before any rollup. -/
def start (store : Store β) (clock : Int) : Cadence β := ⟨.start store clock, fun _ => none⟩

/-- No resurrection, and no rollup with a `now` before that of the clone's last committed one. -/
structure Regular (s : Cadence β) (e : Event) : Prop where
  noResurrection : ∀ r sourceProfileId, e = .request r → r.route ≠ .resurrect sourceProfileId
  ordered : ∀ clone now choice fault, s.system.rollupOf e = some (clone, now, choice, fault) →
    ∀ last, s.committed clone.id = some last → last ≤ now

/-- The greatest `period_end` of each clone's rows is the `now` of its last committed rollup. -/
def Kept (s : Cadence β) : Prop :=
  ∀ cloneId, lastEnd s.system.store.backups.rows cloneId = s.committed cloneId

/-- A request that does not resurrect leaves every clone's rows their ends. -/
theorem lastEnd_request {A : Api ι β} {s s' : Store β} {r : Request}
    (served : serve A s r = some s') (other : ∀ sourceProfileId, r.route ≠ .resurrect sourceProfileId)
    (cloneId : Nat) : lastEnd s'.backups.rows cloneId = lastEnd s.backups.rows cloneId := by
  obtain ⟨⟨_, resp⟩, answered, rfl⟩ := Option.map_eq_some_iff.1 served
  obtain ⟨token, route, c⟩ := r
  by_cases writes : route.writesBackups = true
  · cases route with
    | restoreOwnBackup backupId =>
      rcases depends_some answered with same | ⟨backup, own, _⟩
      · rw [same]
      · have step := restoreOwnBackup_step own answered
        cases step with
        | uncommitted => rfl
        | committed =>
          apply lastEnd_map
          · intro b
            simp only [MemoryBackup.restored]
            split <;> rfl
          · intro b
            simp only [MemoryBackup.restored]
            split <;> rfl
    | resurrect sourceProfileId => exact absurd rfl (other sourceProfileId)
    | _ => cases writes
  · rw [handle_backups (Bool.not_eq_true _ ▸ writes) answered]

/-- What a call of `rollup_clone` does to the greatest ends, by whether it commits. -/
theorem Kept.step {s s' : Cadence β} {e : Event} (kept : s.Kept) (regular : s.Regular e)
    (h : s.step D e = some s') : s'.Kept := by
  obtain ⟨system, taken, rfl⟩ := Option.map_eq_some_iff.1 h
  intro cloneId
  cases SystemState.step_sound taken with
  | other s' noRollup made backups objects =>
    have none : D.commitOf s.system e = none := by
      rw [Deployment.commitOf, noRollup]
    simp only [none, backups]
    exact kept cloneId
  | request r store isRequest served =>
    have none : D.commitOf s.system e = none := by
      rw [isRequest]
      rfl
    simp only [none]
    rw [lastEnd_request served fun source => regular.noResurrection r source isRequest]
    exact kept cloneId
  | rollup clone now choice fault store result passes called ended =>
    rcases rollupClone_step ended with ⟨archived, nothing⟩ | ⟨committed, b, ok, archived, pruned, _⟩
    · have none : D.commitOf s.system e = none := by
        rw [Deployment.commitOf, called]
        simp only [archived]
        cases result with
        | backedUp b => exact absurd rfl (nothing b)
        | empty => rfl
        | raised => rfl
      simp only [none]
      have step := archiveBuffer_step archived
      cases step with
      | empty => exact kept cloneId
      | refused => exact kept cloneId
      | uploaded => exact kept cloneId
      | committed => exact absurd rfl (nothing _)
    · have commits : D.commitOf s.system e = some (clone.id, now) := by
        rw [Deployment.commitOf, called]
        simp only [archived]
      have ordered : ∀ last, lastEnd s.system.store.backups.rows clone.id = some last →
          last ≤ now := by
        intro last found
        rw [kept clone.id] at found
        exact regular.ordered clone now choice fault called last found
      obtain ⟨own, others⟩ := lastEnd_archived (archiveBuffer_step archived) ordered
      simp only [commits]
      rw [lastEnd_pruneStaleBackups pruned]
      by_cases same : cloneId = clone.id
      · rw [same, Function.update_self]
        exact own
      · rw [Function.update_of_ne same, others cloneId same]
        exact kept cloneId

end Cadence

/-- In a list of rows with distinct keys, a row is selected once or not at all. -/
theorem count_filter_map {α : Type} {key : α → Nat} {p : α → Bool} {rows : List α} {x : α}
    (distinct : (rows.map key).Nodup) (member : x ∈ rows) :
    ((rows.filter p).map key).count (key x) = if p x = true then 1 else 0 := by
  have sub := List.filter_sublist (p := p) (l := rows)
  have nodup := distinct.sublist (sub.map key)
  split
  · rename_i selected
    have found : key x ∈ (rows.filter p).map key :=
      List.mem_map_of_mem (List.mem_filter.2 ⟨member, selected⟩)
    exact List.count_eq_one_of_mem nodup found
  · rename_i skipped
    rw [List.count_eq_zero]
    intro found
    obtain ⟨y, listed, same⟩ := List.mem_map.1 found
    obtain ⟨old, selected⟩ := List.mem_filter.1 listed
    rw [List.inj_on_of_nodup_map distinct old member same] at selected
    exact skipped selected

/-- **Rollup cadence.** A clone is found due once when its tier's interval has passed since the `now`
of its last committed rollup, or since its creation, and not at all before. An empty rollup changes
nothing, a prune moves no due date, and a clone that is due stays due. -/
theorem rollup_cadence (D : Deployment ι β) (store : Store β) (clock : Int) (es : List Event)
    (s : Cadence β) (empty : store.backups.rows = [])
    (run : Run.exec (Cadence.step D) (.start store clock) es = some s)
    (regular : Run.Guarded (Cadence.step D) Cadence.Regular (.start store clock) es) :
    (∀ clone ∈ s.system.store.profiles, ∀ t,
      ((queryDueClones D.rollupIntervalOverride t s.system.store).map CloneProfile.id).count
          clone.id =
        if (s.committed clone.id).getD clone.createdAt +
          (policyFor clone.subscriptionTier).interval D.rollupIntervalOverride ≤ t then 1 else 0) ∧
    (∀ (s s' : Store β) clone now choice fault,
      rollupClone D.toFormat s clone now choice fault = some (s', .empty) → s' = s) ∧
    (∀ (s s' : Store β) cloneId ranked fault ok,
      pruneStaleBackups s cloneId ranked fault = some (s', ok) →
        ∀ clone, anchor s'.backups.rows clone = anchor s.backups.rows clone) ∧
    (∀ (s : Store β) t later, t ≤ later →
      ∀ clone ∈ queryDueClones D.rollupIntervalOverride t s,
        clone ∈ queryDueClones D.rollupIntervalOverride later s) := by
  have kept : s.Kept := by
    refine Run.Guarded.invariant (I := Cadence.Kept) (fun _ _ _ inv ok taken => inv.step ok taken)
      (fun cloneId => ?_) regular run
    change lastEnd store.backups.rows cloneId = none
    rw [empty]
    rfl
  refine ⟨fun clone member t => ?_, ?_, ?_, ?_⟩
  · rw [queryDueClones_eq, findDueClones, count_filter_map s.system.store.profiles.nodup member]
    have due : isDue D.rollupIntervalOverride t s.system.store.backups.rows clone = true ↔ _ :=
      isDue_iff
    rw [anchor, kept clone.id] at due
    simp only [due]
  · intro s s' clone now choice fault ended
    rcases rollupClone_step ended with ⟨archived, _⟩ | ⟨_, b, ok, _, _, result⟩
    · have step := archiveBuffer_step archived
      cases step
      rfl
    · cases ok <;> cases result
  · intro s s' cloneId ranked fault ok pruned clone
    rw [anchor, anchor, lastEnd_pruneStaleBackups pruned]
  · intro s t later le clone due
    rw [queryDueClones_eq, mem_findDueClones] at due ⊢
    exact ⟨due.1, isDue_mono le due.2⟩

/-- 30 days, the free tier's interval. -/
def freeInterval : Int := 30 * 86400 * 1000000

/-- The second clone has a memory in its buffer. -/
def oneBuffered : Store (List MemoryItem) :=
  twoClones.setBuffer 2 ⟨[⟨"a", "2026-01-01T00:00:00+00:00"⟩], 1⟩

theorem cadence_of_forced_rollup :
    ∃ s, Run.exec (Cadence.step .sample) (.start oneBuffered newYearInstant)
        [.force 2 ⟨0, 1, 0, [passBackup 1 0]⟩ none] = some s ∧
      s.committed 2 = some newYearInstant ∧
      ((queryDueClones none (newYearInstant + freeInterval) s.system.store).map
        CloneProfile.id).count 2 = 1 ∧
      ((queryDueClones none (newYearInstant + freeInterval - 1) s.system.store).map
        CloneProfile.id).count 2 = 0 := by
  have regular : Run.Guarded (Cadence.step .sample) Cadence.Regular
      (.start oneBuffered newYearInstant) [.force 2 ⟨0, 1, 0, [passBackup 1 0]⟩ none] := by
    refine .cons rfl ⟨?_, ?_⟩ trivial
    · intro r sourceProfileId request
      cases request
    · intro clone now choice fault _ last found
      cases found
  refine ⟨_, rfl, rfl, ?_⟩
  have cadence := (rollup_cadence .sample oneBuffered newYearInstant _ _ rfl rfl regular).1
    ⟨2, "beta", activeStatus, .free, some 2, 0⟩ (.tail _ (.head _))
  exact ⟨cadence _, cadence _⟩

end Mycelium
