import Mycelium.System.Retention

/-!
# Is every listed backup restorable?

A row and its object are written object first, so a failure in between leaves at
most an object without a row. A prune deletes objects first as well, one after
another, and its rows last: a failure in between leaves rows without objects.
-/

namespace Mycelium

variable {ι β : Type} {D : Deployment ι β} {s s' : Store β}

/-- Every row's object exists. -/
def Store.Restorable (s : Store β) : Prop :=
  ∀ b ∈ s.backups.rows, (s.objects b.storageKey).isSome = true

instance (s : Store β) : Decidable s.Restorable :=
  inferInstanceAs (Decidable (∀ b ∈ s.backups.rows, _))

/-- Every row's object exists, and is no other row's. -/
structure Store.Archived (s : Store β) : Prop where
  restorable : s.Restorable
  distinct : (s.backups.rows.map MemoryBackup.storageKey).Nodup

/-- A prune with these stale rows raises after it has deleted an object. -/
def InterruptsPrune (stale : List MemoryBackup) : Option RollupFault → Prop
  | some (.deleteObject i) => 0 < i ∧ i < stale.length
  | some .pruneCommit => stale ≠ []
  | _ => False

/-- If the event calls `rollup_clone` and the call gets to its prune, then no failure there comes
after an object has been deleted. -/
def Deployment.PruneUninterrupted (D : Deployment ι β) (s : SystemState β) (e : Event) : Prop :=
  ∀ clone now choice fault, s.rollupOf e = some (clone, now, choice, fault) →
    ∀ committed b, archiveBuffer D.toFormat s.store clone now choice fault =
        some (committed, .backedUp b) →
      ¬ InterruptsPrune (staleBackups choice.ranked) fault

namespace Store.Archived

theorem congr (archived : s.Archived) (backups : s'.backups = s.backups)
    (objects : s'.objects = s.objects) : s'.Archived := by
  constructor
  · unfold Restorable
    rw [backups, objects]
    exact archived.restorable
  · rw [backups]
    exact archived.distinct

theorem uploaded (archived : s.Archived) {key : ObjectKey} (fresh : s.Fresh key) (data : β) :
    (s.putObject key data).Archived := by
  refine ⟨fun b listed => ?_, archived.distinct⟩
  rw [objects_putObject_of_ne (fresh.key_ne listed)]
  exact archived.restorable b listed

/-- A row inserted with its object. -/
theorem inserted (archived : s.Archived) {b : MemoryBackup} (data : β)
    {backups : Table MemoryBackup MemoryBackup.id} (fresh : s.Fresh b.storageKey)
    (new : s.backups.insert b = some backups) (rows : s'.backups = backups)
    (objects : s'.objects = (s.putObject b.storageKey data).objects) :
    s'.Archived := by
  have all : s'.backups.rows = s.backups.rows ++ [b] := by
    rw [rows]
    exact (Table.insert_eq_some new).2
  constructor
  · intro b' listed
    rw [all] at listed
    rw [objects]
    rcases List.mem_append.1 listed with old | new
    · rw [objects_putObject_of_ne (fresh.key_ne old)]
      exact archived.restorable b' old
    · rw [List.mem_singleton.1 new, objects_putObject]
      rfl
  · rw [rows]
    exact Table.nodup_map_insert new archived.distinct fun _ listed => fresh.key_ne listed

/-- Restoring a backup changes neither its object nor its key. -/
theorem restored (archived : s.Archived) (id : Nat) (now : Int) (rows : s'.backups =
      s.backups.modify id (MemoryBackup.restored · now) (MemoryBackup.restored_id now))
    (objects : s'.objects = s.objects) : s'.Archived := by
  have keys : s'.backups.rows.map MemoryBackup.storageKey =
      s.backups.rows.map MemoryBackup.storageKey := by
    rw [rows, Table.modify, List.map_map]
    apply List.map_congr_left
    intro b _
    simp only [Function.comp_apply]
    split <;> rfl
  constructor
  · intro b listed
    have named : b.storageKey ∈ s.backups.rows.map MemoryBackup.storageKey := by
      rw [← keys]
      exact List.mem_map_of_mem listed
    obtain ⟨old, member, same⟩ := List.mem_map.1 named
    rw [objects, ← same]
    exact archived.restorable old member
  · rw [keys]
    exact archived.distinct

/-- A prune that ends leaves the other rows their objects. -/
theorem prune (archived : s.Archived) {stale : List MemoryBackup}
    (within : ∀ y ∈ stale, y ∈ s.backups) : (s.prune stale).Archived := by
  constructor
  · intro b listed
    obtain ⟨old, kept⟩ := (mem_prune within).1 listed
    rw [objects_prune_of_kept archived.distinct within old kept]
    exact archived.restorable b old
  · exact archived.distinct.sublist (List.filter_sublist.map _)

/-- A request adds objects and rows, and removes none. -/
theorem change (archived : s.Archived) {u : Nat} (change : Change s u s') : s'.Archived := by
  cases change with
  | nothing => exact archived
  | profile p member own payload => exact archived.congr rfl rfl
  | stream p member own stream tasks => exact archived.congr rfl rfl
  | restored p member own b listed ofClone now => exact archived.restored b.id now rfl rfl
  | uploaded key fresh raw => exact archived.uploaded fresh raw
  | resurrected p member own key fresh raw b ofClone stored backups inserted =>
    subst stored
    exact archived.inserted raw fresh inserted rfl rfl

theorem serve {A : Api ι β} {r : Request} (archived : s.Archived)
    (served : serve A s r = some s') : s'.Archived := by
  rcases serve_change served with rfl | ⟨_, registered⟩ | ⟨user, _, ⟨_, admin⟩ | change⟩
  · exact archived
  · cases registered
    exact archived.congr rfl rfl
  · cases admin <;> exact archived.congr rfl rfl
  · exact archived.change change

theorem archiveStep (archived : s.Archived) {F : Format ι β} {clone : CloneProfile} {now : Int}
    {result : RollupResult} (step : ArchiveStep F s clone now s' result) : s'.Archived := by
  cases step with
  | empty => exact archived
  | refused => exact archived
  | uploaded key data fresh => exact archived.uploaded fresh data
  | committed buffer periodStart backup backups read fresh start ofClone ends count tier inserted =>
    exact archived.inserted buffer.payloadBlob fresh inserted rfl rfl

/-- Without the object of one of its rows the archive is not restorable. -/
theorem not_restorable {keys : List ObjectKey} {b : MemoryBackup} (listed : b ∈ s.backups)
    (gone : b.storageKey ∈ keys) : ¬ (s.deleteObjects keys).Restorable := by
  intro restorable
  have present : ((s.deleteObjects keys).objects b.storageKey).isSome = true := restorable b listed
  rw [objects_deleted gone] at present
  cases present

/-- The archive is restorable after a prune unless the prune was interrupted. -/
theorem pruneStep (archived : s.Archived) {stale : List MemoryBackup} {fault : Option RollupFault}
    {ok : Bool} (within : ∀ y ∈ stale, y ∈ s.backups) (step : PruneStep s stale fault s' ok) :
    (¬ InterruptsPrune stale fault → s'.Archived) ∧
      (s'.Restorable → ¬ InterruptsPrune stale fault) := by
  cases step with
  | pruned fault deleted committed =>
    refine ⟨fun _ => archived.prune within, fun _ interrupts => ?_⟩
    cases fault with
    | none => exact interrupts
    | some fault =>
      cases fault with
      | deleteObject i => exact absurd (deleted i rfl) (Nat.not_le_of_lt interrupts.2)
      | pruneCommit => exact committed rfl
      | putObject => exact interrupts
      | commit => exact interrupts
  | interrupted i bound =>
    cases i with
    | zero =>
      refine ⟨fun _ => archived.congr rfl ?_, fun _ interrupts => absurd interrupts.1 (by omega)⟩
      funext key
      exact objects_deleteObjects List.not_mem_nil
    | succ i =>
      refine ⟨fun safe => absurd ⟨Nat.succ_pos i, bound⟩ safe, fun restorable => ?_⟩
      cases stale with
      | nil => cases bound
      | cons y rest =>
        exact absurd restorable (not_restorable (within y List.mem_cons_self) List.mem_cons_self)
  | uncommitted =>
    cases stale with
    | nil =>
      refine ⟨fun _ => archived.congr rfl ?_, fun _ interrupts => interrupts rfl⟩
      funext key
      exact objects_deleteObjects List.not_mem_nil
    | cons y rest =>
      refine ⟨fun safe => absurd nofun safe, fun restorable => ?_⟩
      exact absurd restorable (not_restorable (within y List.mem_cons_self) List.mem_cons_self)

end Store.Archived

/-- **Every listed backup is restorable, in every state, exactly when no prune is interrupted after
it has deleted an object.** -/
theorem restorable_iff_prunes_uninterrupted (D : Deployment ι β) (store : Store β) (clock : Int)
    (es : List Event) (restorable : store.Restorable)
    (distinct : (store.backups.rows.map MemoryBackup.storageKey).Nodup) :
    Run.Throughout (SystemState.step D) (fun s => s.store.Restorable) (.start store clock) es ↔
      Run.Guarded (SystemState.step D) D.PruneUninterrupted (.start store clock) es := by
  refine Run.throughout_iff_guarded (I := fun s => s.store.Archived) (A := fun _ _ => True)
    (fun s archived => archived.restorable) ?_ ?_ ⟨restorable, distinct⟩
    (Run.Guarded.of_forall (fun _ _ => trivial) _ _)
  · intro s e s' archived _ taken uninterrupted
    cases SystemState.step_sound taken with
    | other s' noRollup made backups objects => exact archived.congr backups objects
    | request r store isRequest served => exact archived.serve served
    | rollup clone now choice fault store result passes called ended =>
      rcases rollupClone_step ended with ⟨stored, _⟩ | ⟨committed, b, ok, stored, pruned, rfl⟩
      · exact archived.archiveStep (archiveBuffer_step stored)
      · have middle := archived.archiveStep (archiveBuffer_step stored)
        obtain ⟨ranks, step⟩ := pruneStaleBackups_step pruned
        exact (middle.pruneStep (mem_backups_of_stale ranks) step).1
          (uninterrupted clone now choice fault called committed b stored)
  · intro s e s' archived _ taken good clone now choice fault called committed b stored
    cases SystemState.step_sound taken with
    | other s' noRollup made backups objects => cases noRollup.symm.trans called
    | request r store isRequest served =>
      subst isRequest
      cases called
    | rollup clone' now' choice' fault' store result passes called' ended =>
      cases called'.symm.trans called
      rcases rollupClone_step ended with ⟨stored', nothing⟩ | ⟨_, _, ok, stored', pruned, rfl⟩
      · cases stored'.symm.trans stored
        exact absurd rfl (nothing b)
      · cases stored'.symm.trans stored
        have middle := archived.archiveStep (archiveBuffer_step stored)
        obtain ⟨ranks, step⟩ := pruneStaleBackups_step pruned
        exact (middle.pruneStep (mem_backups_of_stale ranks) step).2 good

/-- Another row of the second clone, made by a forced rollup of its own. -/
def laterBackup : MemoryBackup :=
  ⟨2, 2, newYearInstant, newYearInstant + 2, 1, ⟨2, 63902822400, 63902822400, 1⟩, .free, 0, none⟩

/-- Two forced rollups of a clone on the free tier; the second may fail. -/
def rollupAgain (fault : Option RollupFault) : List Event :=
  [writes "a" newYearInstant ⟨1, 0⟩, .flush 2 none, .tick (newYearInstant + 1),
    .force 2 ⟨0, 1, 0, [forcedBackup]⟩ none, writes "b" (newYearInstant + 1) ⟨2, 0⟩,
    .flush 2 none, .tick (newYearInstant + 2), .force 2 ⟨1, 2, 0, [laterBackup, forcedBackup]⟩ fault]

/-- A deletion that raises before it has deleted anything does no harm. -/
theorem restorable_of_first_delete_failing :
    (∃ s, Run.exec (SystemState.step .sample) (.start twoClones newYearInstant)
        (rollupAgain (some (.deleteObject 0))) = some s ∧
      s.store.backups.rows = [forcedBackup, laterBackup]) ∧
    Run.Throughout (SystemState.step .sample) (fun s => s.store.Restorable)
      (.start twoClones newYearInstant) (rollupAgain (some (.deleteObject 0))) := by
  refine ⟨⟨_, rfl, by decide⟩, (restorable_iff_prunes_uninterrupted .sample twoClones
    newYearInstant _ (by decide) (by decide)).2 ?_⟩
  refine .cons rfl nofun <| .cons rfl nofun <| .cons rfl nofun <| .cons rfl ?_ <|
    .cons rfl nofun <| .cons rfl nofun <| .cons rfl nofun <| .cons rfl ?_ trivial
  · rintro clone now choice fault ⟨⟩ committed b ⟨⟩ ⟨⟩
  · rintro clone now choice fault ⟨⟩ committed b ⟨⟩ interrupts
    exact absurd interrupts.1 (by decide)

/-- The prune's commit fails: the pruned object is gone and its row is still listed. -/
theorem unrestorable_of_prune_commit_failing :
    ∃ s, Run.exec (SystemState.step .sample) (.start twoClones newYearInstant)
        (rollupAgain (some .pruneCommit)) = some s ∧
      s.store.backups.rows = [forcedBackup, laterBackup] ∧
      s.store.objects forcedBackup.storageKey = none := by
  refine ⟨_, rfl, ?_, ?_⟩
  · decide
  · decide

end Mycelium
