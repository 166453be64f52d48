import Mycelium.Logic.Run
import Mycelium.System.Events

/-!
# Does a rollup keep what it has made?

A pass gives its backups the time it started at as their `period_end`, and a
prune ranks by `period_end`. A row made by a forced rollup or by a resurrection
while the pass is under way ends later, or may end at the same time, and takes
the place of the row that the pass is about to make.
-/

namespace Mycelium

variable {ι β : Type} {D : Deployment ι β} {s s' : SystemState β} {e : Event}

/-- The row made by the call that has just returned is still there, and its object is. It says
something of each call by itself, so along a run it is a postcondition and not an invariant. -/
def SystemState.KeepsMade (s : SystemState β) : Prop :=
  ∀ b ∈ s.made, b ∈ s.store.backups ∧ (s.store.objects b.storageKey).isSome = true

/-- If the event calls `rollup_clone` and there is something to archive, the clone has fewer rows
that end no earlier than the call's `now` than the loaded profile's tier retains. -/
def Deployment.FewEndLater (D : Deployment ι β) (s : SystemState β) (e : Event) : Prop :=
  ∀ clone now choice fault, s.rollupOf e = some (clone, now, choice, fault) →
    ∀ committed b, archiveBuffer D.toFormat s.store clone now choice none =
        some (committed, .backedUp b) →
      s.store.endingFrom clone.id now < (policyFor clone.subscriptionTier).retainCount

/-- The same event with nothing failing, and with this order of the clone's rows. -/
def Event.withRanking (ranked : List MemoryBackup) : Event → Event
  | .force cloneId choice _ => .force cloneId { choice with ranked := ranked } none
  | .passNext p choice _ => .passNext p { choice with ranked := ranked } none
  | e => e

/-- The row that the event's call makes is kept however the server orders ties. -/
def Deployment.KeepsMadeAnyway (D : Deployment ι β) (s : SystemState β) (e : Event) : Prop :=
  ∀ ranked s', s.step D (e.withRanking ranked) = some s' → s'.KeepsMade

/-- A call of `rollup_clone` keeps what it makes when few rows end later. -/
theorem rollupClone_keeps {F : Format ι β} {store store' : Store β} {clone : CloneProfile}
    {now : Int} {choice : RollupChoice} {fault : Option RollupFault} {result : RollupResult}
    (ended : rollupClone F store clone now choice fault = some (store', result))
    (few : ∀ committed b, archiveBuffer F store clone now choice none =
        some (committed, .backedUp b) →
      store.endingFrom clone.id now < (policyFor clone.subscriptionTier).retainCount) :
    ∀ b ∈ result.made, b ∈ store'.backups ∧ (store'.objects b.storageKey).isSome = true := by
  intro b made
  rcases rollupClone_step ended with ⟨_, nothing⟩ | ⟨committed, b', ok, archived, pruned, rfl⟩
  · cases result with
    | backedUp b' => exact absurd rfl (nothing b')
    | empty => cases made
    | raised => cases made
  · cases ok with
    | false => cases made
    | true =>
      cases made
      exact kept_of_few (archiveBuffer_step archived) pruned
        (few committed b (archiveBuffer_unfailing archived))

theorem Deployment.FewEndLater.keeps (few : D.FewEndLater s e) (h : s.step D e = some s') :
    s'.KeepsMade := by
  cases SystemState.step_sound h with
  | other s' noRollup made backups objects =>
    intro b now
    rw [made] at now
    cases now
  | request r store isRequest served => exact nofun
  | rollup clone now choice fault store result passes called ended =>
    exact rollupClone_keeps ended (few clone now choice fault called)

/-- The rollup an event calls does not depend on the order of the rows or on failures. -/
theorem SystemState.rollupOf_withRanking (s : SystemState β) (e : Event)
    (ranked : List MemoryBackup) :
    s.rollupOf (e.withRanking ranked) =
      (s.rollupOf e).map fun (clone, now, choice, _) =>
        (clone, now, { choice with ranked := ranked }, none) := by
  cases e with
  | force cloneId choice fault =>
    simp only [rollupOf, Event.withRanking, Option.map_map]
    rfl
  | passNext p choice fault =>
    simp only [rollupOf, Event.withRanking]
    split <;> rfl
  | _ => rfl

/-- The event of a call is enabled when the call can end. -/
theorem SystemState.step_of_rollup {clone : CloneProfile} {now : Int} {choice : RollupChoice}
    {fault : Option RollupFault} {store : Store β} {result : RollupResult}
    (called : s.rollupOf e = some (clone, now, choice, fault))
    (ended : rollupClone D.toFormat s.store clone now choice fault = some (store, result)) :
    ∃ s', s.step D e = some s' ∧ s'.store = store ∧ s'.made = result.made := by
  cases e with
  | force cloneId choice' fault' =>
    obtain ⟨found, here, same⟩ := Option.map_eq_some_iff.1 called
    cases same
    simp only [step, here, ended]
    exact ⟨_, rfl, rfl, rfl⟩
  | passNext p choice' fault' =>
    simp only [rollupOf] at called
    split at called
    · rename_i here
      cases called
      simp only [step, here, ended]
      exact ⟨_, rfl, rfl, rfl⟩
    · cases called
  | _ => cases called

/-- Where too many rows end later, some order of the ties loses the row. -/
theorem Deployment.KeepsMadeAnyway.few (keeps : D.KeepsMadeAnyway s e) : D.FewEndLater s e := by
  intro clone now choice fault called committed b archived
  by_contra many
  obtain ⟨ranked, store, pruned, gone, _⟩ :=
    exists_pruned (archiveBuffer_step archived) (Nat.le_of_not_lt many)
  have ended : rollupClone D.toFormat s.store clone now { choice with ranked := ranked } none =
      some (store, .backedUp b) := by
    have same : archiveBuffer D.toFormat s.store clone now { choice with ranked := ranked } none =
        some (committed, .backedUp b) := archived
    exact rollupClone_of_prune same pruned
  have recalled : s.rollupOf (e.withRanking ranked) =
      some (clone, now, { choice with ranked := ranked }, none) := by
    rw [SystemState.rollupOf_withRanking, called]
    rfl
  obtain ⟨s', taken, rfl, made⟩ := SystemState.step_of_rollup recalled ended
  have kept := keeps ranked s' taken b (by rw [made]; rfl)
  exact gone kept.1

theorem Deployment.FewEndLater.anyway (few : D.FewEndLater s e) : D.KeepsMadeAnyway s e := by
  intro ranked s' h
  refine FewEndLater.keeps (D := D) ?_ h
  intro clone now choice fault called committed b archived
  rw [SystemState.rollupOf_withRanking] at called
  obtain ⟨⟨clone', now', choice', fault'⟩, original, same⟩ := Option.map_eq_some_iff.1 called
  cases same
  exact few clone now choice' fault' original committed b archived

/-- **A rollup keeps what it has made exactly when few of the clone's rows end later.** Along any
run: if it is so at every call, no call loses its own row; and it is so at every call exactly when
no order of ties makes one of them lose it. -/
theorem made_kept_iff_few_end_later (D : Deployment ι β) (store : Store β) (clock : Int)
    (es : List Event) :
    (Run.Guarded (SystemState.step D) D.FewEndLater (.start store clock) es →
      Run.Throughout (SystemState.step D) SystemState.KeepsMade (.start store clock) es) ∧
    (Run.Guarded (SystemState.step D) D.KeepsMadeAnyway (.start store clock) es ↔
      Run.Guarded (SystemState.step D) D.FewEndLater (.start store clock) es) := by
  refine ⟨Run.Guarded.ensures (fun s e s' few taken => few.keeps taken) nofun, ?_⟩
  exact ⟨Run.Guarded.mono fun _ _ anyway => anyway.few, Run.Guarded.mono fun _ _ few => few.anyway⟩

/-- The instant that `Datetime.newYear` reads. -/
def newYearInstant : Int := 63902822400000000

/-- A write of the second of `twoClones`. -/
def writes (content : String) (now : Int) (id : StreamId) : Event :=
  .request ⟨some "token", .writeMemory ⟨content, some (.utc newYearInstant)⟩, choiceAt now id⟩

/-- Rows of the second clone, made at the new year by a pass and one microsecond later by a forced
rollup. -/
def passBackup (id uuid : Nat) : MemoryBackup :=
  ⟨id, 2, newYearInstant, newYearInstant, 1, ⟨2, 63902822400, 63902822400, uuid⟩, .free, 0, none⟩

def forcedBackup : MemoryBackup :=
  ⟨1, 2, newYearInstant, newYearInstant + 1, 1, ⟨2, 63902822400, 63902822400, 0⟩, .free, 0, none⟩

/-- A write is flushed, and a pass finds both clones due. -/
def passAlone : List Event :=
  [writes "a" newYearInstant ⟨1, 0⟩, .flush 2 none, .startPass 0 twoClones.profiles.rows,
    .passNext 0 ⟨0, 0, 0, []⟩ none, .passNext 0 ⟨0, 1, 0, [passBackup 1 0]⟩ none, .endPass 0]

theorem made_kept_of_pass_alone :
    (∃ s, Run.exec (SystemState.step .sample) (.start twoClones newYearInstant) passAlone = some s ∧
      s.store.backups.rows = [passBackup 1 0]) ∧
    Run.Throughout (SystemState.step .sample) SystemState.KeepsMade
      (.start twoClones newYearInstant) passAlone := by
  refine ⟨⟨_, rfl, by decide⟩, (made_kept_iff_few_end_later .sample _ _ passAlone).1 ?_⟩
  refine .cons rfl nofun <| .cons rfl nofun <| .cons rfl nofun <| .cons rfl ?_ <| .cons rfl ?_ <|
    .cons rfl nofun trivial
  · rintro clone now choice fault ⟨⟩ committed b ⟨⟩
  · rintro clone now choice fault ⟨⟩ committed b ⟨⟩
    decide

/-- While the pass is under way the second clone is rolled up by force, and writes again. -/
def forcedDuringPass : List Event :=
  [writes "a" newYearInstant ⟨1, 0⟩, .flush 2 none, .startPass 0 twoClones.profiles.rows,
    .tick (newYearInstant + 1), .force 2 ⟨0, 1, 0, [forcedBackup]⟩ none,
    writes "b" (newYearInstant + 1) ⟨2, 0⟩, .flush 2 none, .passNext 0 ⟨0, 0, 0, []⟩ none,
    .passNext 0 ⟨1, 2, 0, [forcedBackup, passBackup 2 1]⟩ none]

/-- The pass's call for the second clone returns, and its row and object are gone. -/
theorem made_lost_of_forced_during_pass :
    ∃ s, Run.exec (SystemState.step .sample) (.start twoClones newYearInstant) forcedDuringPass =
        some s ∧
      s.made = some (passBackup 2 1) ∧ s.store.backups.rows = [forcedBackup] ∧
      s.store.objects (passBackup 2 1).storageKey = none := by
  refine ⟨_, rfl, ?_, ?_, ?_⟩
  · decide
  · decide
  · decide

end Mycelium
