import Mycelium.Worker.Pipeline

/-!
# What a rollup does to the archive

`archiveBuffer_step` and `pruneStaleBackups_step` say everything the two halves
of `rollup_clone` can do. Beside them: what a rollup leaves behind by what fails
in it, and when the row just inserted survives the prune.
-/

namespace Mycelium

variable {ι β : Type} {F : Format ι β} {s s' : Store β} {clone : CloneProfile} {now : Int}
  {choice : RollupChoice} {fault : Option RollupFault}

/-- Everything `rollup_clone` can do up to its first commit. -/
inductive ArchiveStep (F : Format ι β) (s : Store β) (clone : CloneProfile) (now : Int) :
    Store β → RollupResult → Prop where
  | empty : ArchiveStep F s clone now s .empty
  | refused : ArchiveStep F s clone now s .raised
  | uploaded (key : ObjectKey) (data : β) (fresh : s.Fresh key) :
      ArchiveStep F s clone now (s.putObject key data) .raised
  | committed (buffer : MemoryBuffer β) (periodStart : Datetime) (backup : MemoryBackup)
      (backups : Table MemoryBackup MemoryBackup.id)
      (read : F.readBuffer (s.buffers clone.id) = some (buffer, periodStart))
      (fresh : s.Fresh backup.storageKey)
      (start : periodStart.astimezoneUtc = some backup.periodStart)
      (ofClone : backup.cloneId = clone.id) (ends : backup.periodEnd = now)
      (count : backup.entryCount = buffer.entryCount)
      (tier : backup.subscriptionTier = clone.subscriptionTier)
      (inserted : s.backups.insert backup = some backups) :
      ArchiveStep F s clone now
        { s.putObject backup.storageKey buffer.payloadBlob with
          backups := backups
          buffers := Function.update s.buffers clone.id none } (.backedUp backup)

theorem archiveBuffer_step {r : RollupResult}
    (h : archiveBuffer F s clone now choice fault = some (s', r)) :
    ArchiveStep F s clone now s' r := by
  unfold archiveBuffer at h
  split at h
  · cases h
    exact .empty
  · split at h
    · cases h
      exact .refused
    · rename_i buffer periodStart read
      simp only at h
      split at h
      · cases h
        exact .refused
      · split at h
        · rename_i fresh
          split at h
          · cases h
            exact .uploaded _ _ fresh
          · rename_i start stored
            split at h
            · cases h
              exact .uploaded _ _ fresh
            · split at h
              · cases h
              · rename_i backups inserted
                cases h
                exact .committed buffer periodStart _ backups read fresh stored rfl rfl rfl rfl
                  inserted
        · cases h

/-- Everything `_prune_stale_backups` and the commit after it can do. -/
inductive PruneStep (s : Store β) (stale : List MemoryBackup) :
    Option RollupFault → Store β → Bool → Prop where
  | pruned (fault : Option RollupFault)
      (deleted : ∀ i, fault = some (.deleteObject i) → stale.length ≤ i)
      (committed : fault ≠ some .pruneCommit) : PruneStep s stale fault (s.prune stale) true
  | interrupted (i : Nat) (within : i < stale.length) :
      PruneStep s stale (some (.deleteObject i))
        (s.deleteObjects ((stale.map MemoryBackup.storageKey).take i)) false
  | uncommitted :
      PruneStep s stale (some .pruneCommit)
        (s.deleteObjects (stale.map MemoryBackup.storageKey)) false

theorem pruneStaleBackups_step {cloneId : Nat} {ranked : List MemoryBackup} {ok : Bool}
    (h : pruneStaleBackups s cloneId ranked fault = some (s', ok)) :
    RanksByPeriodEnd (s.backupsOf cloneId) ranked ∧
      PruneStep s (staleBackups ranked) fault s' ok := by
  unfold pruneStaleBackups at h
  split at h
  · rename_i ranks
    refine ⟨ranks, ?_⟩
    simp only at h
    split at h
    · split at h
      · rename_i within
        cases h
        exact .interrupted _ within
      · rename_i beyond
        cases h
        refine .pruned _ ?_ nofun
        rintro i ⟨⟩
        exact Nat.le_of_not_lt beyond
    · cases h
      exact .uncommitted
    · rename_i notDelete notCommit
      cases h
      exact .pruned _ (fun i same => absurd same (notDelete i)) notCommit
  · cases h

/-- A rollup ends before its first commit, or with its prune. -/
theorem rollupClone_step {r : RollupResult}
    (h : rollupClone F s clone now choice fault = some (s', r)) :
    (archiveBuffer F s clone now choice fault = some (s', r) ∧ ∀ b, r ≠ .backedUp b) ∨
      ∃ committed b ok,
        archiveBuffer F s clone now choice fault = some (committed, .backedUp b) ∧
        pruneStaleBackups committed clone.id choice.ranked fault = some (s', ok) ∧
        r = if ok then .backedUp b else .raised := by
  unfold rollupClone at h
  split at h
  · rename_i committed b archived
    refine .inr ⟨committed, b, ?_⟩
    split at h
    · cases h
    · rename_i pruned
      cases h
      exact ⟨true, archived, pruned, rfl⟩
    · rename_i pruned
      cases h
      exact ⟨false, archived, pruned, rfl⟩
  · rename_i other
    refine .inl ⟨h, ?_⟩
    rintro b rfl
    exact other _ _ h

/-! ## A rollup by what fails in it -/

/-- What is committed without a failure before the commit is what is committed without any. -/
theorem archiveBuffer_unfailing {committed : Store β} {b : MemoryBackup}
    (h : archiveBuffer F s clone now choice fault = some (committed, .backedUp b)) :
    archiveBuffer F s clone now choice none = some (committed, .backedUp b) := by
  unfold archiveBuffer at h ⊢
  split at h
  · cases h
  · rename_i something
    rw [if_neg something]
    split at h
    · cases h
    · simp only [reduceCtorEq, ↓reduceIte] at h ⊢
      split at h
      · cases h
      · split at h
        · rename_i fresh
          rw [if_pos fresh]
          split at h
          · cases h
          · split at h
            · cases h
            · exact h
        · cases h

/-- A rollup whose upload raises leaves the stores as they are. -/
theorem rollupClone_putObject (F : Format ι β) (s : Store β) (clone : CloneProfile) (now : Int)
    (choice : RollupChoice) :
    ∃ result, rollupClone F s clone now choice (some .putObject) = some (s, result) := by
  have ended : archiveBuffer F s clone now choice (some .putObject) = some (s, .empty) ∨
      archiveBuffer F s clone now choice (some .putObject) = some (s, .raised) := by
    unfold archiveBuffer
    split
    · exact .inl rfl
    · split
      · exact .inr rfl
      · exact .inr (if_pos rfl)
  unfold rollupClone
  rcases ended with ended | ended
  · exact ⟨.empty, by rw [ended]⟩
  · exact ⟨.raised, by rw [ended]⟩

variable {buffer : MemoryBuffer β} {periodStart : Datetime}

theorem nothingBuffered_of_read {row : Option (MemoryBuffer β)}
    (read : F.readBuffer row = some (buffer, periodStart)) : nothingBuffered row = false := by
  cases row with
  | none => cases read
  | some row =>
    unfold Format.readBuffer at read
    by_cases empty : row.entryCount = 0
    · simp [empty] at read
    · exact decide_eq_false empty

/-- A rollup whose first commit raises, or whose `period_start` has no UTC instant, has uploaded. -/
theorem rollupClone_commit (choice : RollupChoice)
    (read : F.readBuffer (s.buffers clone.id) = some (buffer, periodStart))
    (fresh : s.Fresh (backupKey clone.id periodStart (.utc now) choice.uuid)) :
    rollupClone F s clone now choice (some .commit) =
      some (s.putObject (backupKey clone.id periodStart (.utc now) choice.uuid)
        buffer.payloadBlob, .raised) := by
  unfold rollupClone archiveBuffer
  rw [nothingBuffered_of_read read, read]
  simp only [Bool.false_eq_true, ↓reduceIte, reduceCtorEq, Option.some.injEq, if_pos fresh]
  cases periodStart.astimezoneUtc <;> rfl

/-- The first half of a rollup in which nothing fails. -/
theorem archiveBuffer_committed (choice : RollupChoice) {start : Int}
    (read : F.readBuffer (s.buffers clone.id) = some (buffer, periodStart))
    (fresh : s.Fresh (backupKey clone.id periodStart (.utc now) choice.uuid))
    (utc : periodStart.astimezoneUtc = some start)
    (new : choice.id ∉ s.backups.rows.map MemoryBackup.id) :
    ∃ committed, archiveBuffer F s clone now choice none = some (committed,
      .backedUp ⟨choice.id, clone.id, start, now, buffer.entryCount,
        backupKey clone.id periodStart (.utc now) choice.uuid, clone.subscriptionTier,
        choice.createdAt, none⟩) := by
  obtain ⟨backups, inserted⟩ := Table.insert_of_fresh (x := (⟨choice.id, clone.id, start, now,
    buffer.entryCount, backupKey clone.id periodStart (.utc now) choice.uuid,
    clone.subscriptionTier, choice.createdAt, none⟩ : MemoryBackup)) new
  unfold archiveBuffer
  rw [nothingBuffered_of_read read, read]
  simp only [Bool.false_eq_true, ↓reduceIte, reduceCtorEq, if_pos fresh, utc, inserted]
  exact ⟨_, rfl⟩

/-- A failure in the prune does not show before it. -/
theorem archiveBuffer_pruneFault {committed : Store β} {b : MemoryBackup} (fault : RollupFault)
    (archived : archiveBuffer F s clone now choice none = some (committed, .backedUp b))
    (notPut : fault ≠ .putObject) (notCommit : fault ≠ .commit) :
    archiveBuffer F s clone now choice (some fault) = some (committed, .backedUp b) := by
  unfold archiveBuffer at archived ⊢
  simpa only [reduceCtorEq, Option.some.injEq, notPut, notCommit, ↓reduceIte] using archived

/-- A rollup that gets to its prune ends with it. -/
theorem rollupClone_of_prune {committed : Store β} {b : MemoryBackup} {fault : Option RollupFault}
    {ok : Bool}
    (archived : archiveBuffer F s clone now choice fault = some (committed, .backedUp b))
    (pruned : pruneStaleBackups committed clone.id choice.ranked fault = some (s', ok)) :
    rollupClone F s clone now choice fault = some (s', if ok then .backedUp b else .raised) := by
  unfold rollupClone
  rw [archived]
  simp only [pruned]
  cases ok <;> rfl

/-- The rollup has deleted the objects in `gone` and raises. -/
theorem rollupClone_interrupted {committed : Store β} {b : MemoryBackup}
    {gone todo : List ObjectKey}
    (archived : archiveBuffer F s clone now choice none = some (committed, .backedUp b))
    (ranks : RanksByPeriodEnd (committed.backupsOf clone.id) choice.ranked)
    (split : (staleBackups choice.ranked).map MemoryBackup.storageKey = gone ++ todo) :
    ∃ fault, rollupClone F s clone now choice fault =
      some (committed.deleteObjects gone, .raised) := by
  have bound : gone.length + todo.length = (staleBackups choice.ranked).length := by
    simpa using (congrArg List.length split).symm
  cases todo with
  | nil =>
    have pruned : pruneStaleBackups committed clone.id choice.ranked (some .pruneCommit) =
        some (committed.deleteObjects gone, false) := by
      simp only [pruneStaleBackups, if_pos ranks, split, List.append_nil]
    have same := archiveBuffer_pruneFault .pruneCommit archived nofun nofun
    exact ⟨_, rollupClone_of_prune same pruned⟩
  | cons key todo =>
    have within : gone.length < (staleBackups choice.ranked).length := by
      rw [← bound, List.length_cons]
      omega
    have pruned : pruneStaleBackups committed clone.id choice.ranked
        (some (.deleteObject gone.length)) = some (committed.deleteObjects gone, false) := by
      simp only [pruneStaleBackups, if_pos ranks, split, if_pos within, List.take_left]
    have same := archiveBuffer_pruneFault (.deleteObject gone.length) archived nofun nofun
    exact ⟨_, rollupClone_of_prune same pruned⟩

/-! ## The rows of a prune -/

theorem mem_prune {stale : List MemoryBackup} (within : ∀ y ∈ stale, y ∈ s.backups)
    {b : MemoryBackup} : b ∈ (s.prune stale).backups ↔ b ∈ s.backups ∧ b ∉ stale := by
  change b ∈ s.backups.filter (fun b => b.id ∉ stale.map MemoryBackup.id) ↔ _
  rw [Table.mem_filter, decide_eq_true_eq]
  refine and_congr_right fun listed => not_congr ?_
  constructor
  · intro named
    obtain ⟨y, gone, same⟩ := List.mem_map.1 named
    rwa [← Table.eq_of_key (within y gone) listed same]
  · exact List.mem_map_of_mem

/-- A row that stays keeps its object, when no other row has the same. -/
theorem objects_prune_of_kept {stale : List MemoryBackup} {b : MemoryBackup}
    (keys : (s.backups.rows.map MemoryBackup.storageKey).Nodup)
    (within : ∀ y ∈ stale, y ∈ s.backups) (listed : b ∈ s.backups) (kept : b ∉ stale) :
    (s.prune stale).objects b.storageKey = s.objects b.storageKey := by
  refine Store.objects_deleteObjects fun named => ?_
  obtain ⟨y, gone, same⟩ := List.mem_map.1 named
  have eq := List.inj_on_of_nodup_map keys (within y gone) listed same
  exact kept (eq ▸ gone)

theorem mem_backups_of_stale {cloneId : Nat} {ranked : List MemoryBackup}
    (ranks : RanksByPeriodEnd (s.backupsOf cloneId) ranked) :
    ∀ y ∈ staleBackups ranked, y ∈ s.backups := by
  intro y stale
  have listed := ranks.1.mem_iff.1 ((Ranking.beyond_sublist _ _).subset stale)
  exact (Store.mem_backupsOf.1 listed).1

/-! ## The row just made -/

/-- The rows of the clone that end no earlier than `now`: those that may outrank a row that ends
then. -/
def Store.endingFrom (s : Store β) (cloneId : Nat) (now : Int) : Nat :=
  (s.backupsOf cloneId).countP fun b => now ≤ b.periodEnd

/-- After the first commit the clone has the rows it had, and the new one. -/
theorem ArchiveStep.backupsOf {b : MemoryBackup}
    (archived : ArchiveStep F s clone now s' (.backedUp b)) :
    s'.backupsOf clone.id = s.backupsOf clone.id ++ [b] := by
  cases archived with
  | committed buffer periodStart b backups read fresh start ofClone ends count tier inserted =>
    unfold Store.backupsOf
    simp only
    rw [(Table.insert_eq_some inserted).2, List.filter_append, List.filter_singleton, ofClone]
    simp

/-- The row just made survives a prune when few enough rows can outrank it. -/
theorem kept_of_few {committed : Store β} {b : MemoryBackup} {ranked : List MemoryBackup}
    (archived : ArchiveStep F s clone now committed (.backedUp b))
    (pruned : pruneStaleBackups committed clone.id ranked fault = some (s', true))
    (few : s.endingFrom clone.id now < (policyFor clone.subscriptionTier).retainCount) :
    b ∈ s'.backups ∧ (s'.objects b.storageKey).isSome = true := by
  obtain ⟨ranks, step⟩ := pruneStaleBackups_step pruned
  have within := mem_backups_of_stale ranks
  have rows := archived.backupsOf
  have nodup := committed.backupsOf_nodup clone.id
  rw [rows] at nodup
  have kept : b ∉ staleBackups ranked := by
    cases archived with
    | committed buffer periodStart b backups read fresh start ofClone ends count tier inserted =>
      unfold RanksByPeriodEnd at ranks
      rw [rows] at ranks
      refine Ranking.not_mem_beyond ranks nodup ?_
      rw [ends, retainCount, tier]
      exact few
  cases step
  cases archived with
  | committed buffer periodStart b backups read fresh start ofClone ends count tier inserted =>
    have listed : b ∈ backups := (Table.mem_of_insert inserted).2 (.inr rfl)
    refine ⟨(mem_prune within).2 ⟨listed, kept⟩, ?_⟩
    have apart : b.storageKey ∉ (staleBackups ranked).map MemoryBackup.storageKey := by
      intro named
      obtain ⟨y, stale, same⟩ := List.mem_map.1 named
      rcases (Table.mem_of_insert inserted).1 (within y stale) with old | rfl
      · exact fresh.key_ne old same
      · exact kept stale
    show ((Store.deleteObjects _ _).objects b.storageKey).isSome = true
    rw [Store.objects_deleteObjects apart]
    show ((s.putObject b.storageKey _).objects b.storageKey).isSome = true
    rw [Store.objects_putObject]
    rfl

/-- Otherwise there is an order of the ties in which the prune deletes it. -/
theorem exists_pruned {committed : Store β} {b : MemoryBackup}
    (archived : ArchiveStep F s clone now committed (.backedUp b))
    (many : (policyFor clone.subscriptionTier).retainCount ≤ s.endingFrom clone.id now) :
    ∃ ranked s', pruneStaleBackups committed clone.id ranked none = some (s', true) ∧
      b ∉ s'.backups ∧ s'.objects b.storageKey = none := by
  have rows := archived.backupsOf
  have nodup := committed.backupsOf_nodup clone.id
  rw [rows] at nodup
  have ranking : ∃ ranked, RanksByPeriodEnd (committed.backupsOf clone.id) ranked ∧
      b ∈ staleBackups ranked := by
    rw [rows]
    cases archived with
    | committed buffer periodStart b backups read fresh start ofClone ends count tier inserted =>
      refine Ranking.exists_mem_beyond nodup ?_
      rw [ends, retainCount, tier]
      exact many
  obtain ⟨ranked, ranks, stale⟩ := ranking
  refine ⟨ranked, committed.prune (staleBackups ranked), ?_, ?_, ?_⟩
  · unfold pruneStaleBackups
    rw [if_pos ranks]
  · exact fun listed => ((mem_prune (mem_backups_of_stale ranks)).1 listed).2 stale
  · exact Store.objects_deleted (List.mem_map_of_mem stale)

end Mycelium
