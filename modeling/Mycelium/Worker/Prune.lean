import Mycelium.Worker.Rollup
import Mycelium.Logic.Retention

/-!
# What a prune keeps

The rank in `_prune_stale_backups` runs over all of a clone's rows and the limit
is that of each row's own tier, so what stays is no prefix of the history. It is
`Ranking.kept` of the rows, and the laws of retention are those of `kept`.
-/

namespace Mycelium

variable {β : Type} {s s' : Store β} {cloneId : Nat} {ranked : List MemoryBackup}
  {fault : Option RollupFault}

/-- The largest `retain_count` among the tiers of `rows`. -/
def largestRetainCount (rows : List MemoryBackup) : Nat := (rows.map retainCount).foldr max 0

/-- The rows that fewer of the clone's rows outrank than their tier retains. -/
def keptBackups (rows : List MemoryBackup) : List MemoryBackup :=
  Ranking.kept MemoryBackup.periodEnd retainCount rows

theorem retainCount_le_largest {rows : List MemoryBackup} {b : MemoryBackup} (member : b ∈ rows) :
    retainCount b ≤ largestRetainCount rows := by
  induction rows with
  | nil => cases member
  | cons x rows ih =>
    simp only [largestRetainCount, List.map_cons, List.foldr_cons] at ih ⊢
    rcases List.mem_cons.1 member with rfl | member
    · exact Nat.le_max_left _ _
    · have rest := ih member
      omega

/-- Which of the clone's rows a prune leaves. -/
theorem mem_backupsOf_prune (ranks : RanksByPeriodEnd (s.backupsOf cloneId) ranked)
    {other : Nat} {b : MemoryBackup} :
    b ∈ (s.prune (staleBackups ranked)).backupsOf other ↔
      b ∈ s.backupsOf other ∧ b ∉ staleBackups ranked := by
  rw [Store.mem_backupsOf, mem_prune (mem_backups_of_stale ranks), Store.mem_backupsOf]
  exact and_right_comm

theorem backupsOf_prune_eq_filter (s : Store β) (cloneId : Nat) (stale : List MemoryBackup) :
    (s.prune stale).backupsOf cloneId =
      (s.backupsOf cloneId).filter fun b => b.id ∉ stale.map MemoryBackup.id := by
  change ((s.backups.rows.filter _).filter _) = ((s.backups.rows.filter _).filter _)
  rw [List.filter_filter, List.filter_filter]
  exact List.filter_congr fun b _ => Bool.and_comm _ _

/-- They are the kept ones, in the table's order. -/
theorem backupsOf_prune (ranks : RanksByPeriodEnd (s.backupsOf cloneId) ranked)
    (distinct : ((s.backupsOf cloneId).map MemoryBackup.periodEnd).Nodup) :
    (s.prune (staleBackups ranked)).backupsOf cloneId = keptBackups (s.backupsOf cloneId) := by
  have rows := backupsOf_prune_eq_filter s cloneId (staleBackups ranked)
  rw [rows]
  apply List.filter_congr
  intro b listed
  have pruned : b ∈ (s.prune (staleBackups ranked)).backupsOf cloneId ↔ _ :=
    mem_backupsOf_prune ranks
  have stale : b ∈ staleBackups ranked ↔ retainCount b ≤ _ :=
    (Ranking.mem_beyond_iff ranks distinct).trans (and_iff_right listed)
  rw [rows, List.mem_filter, and_iff_right listed, and_iff_right listed, stale] at pruned
  rw [Bool.eq_iff_iff, pruned, decide_eq_true_eq, not_le]

/-- A prune leaves the rows of the other clones. -/
theorem backupsOf_prune_of_ne (ranks : RanksByPeriodEnd (s.backupsOf cloneId) ranked) {other : Nat}
    (apart : other ≠ cloneId) :
    (s.prune (staleBackups ranked)).backupsOf other = s.backupsOf other := by
  rw [backupsOf_prune_eq_filter, List.filter_eq_self]
  intro b listed
  obtain ⟨member, ofOther⟩ := Store.mem_backupsOf.1 listed
  have fresh : b.id ∉ (staleBackups ranked).map MemoryBackup.id := by
    intro named
    obtain ⟨y, gone, same⟩ := List.mem_map.1 named
    have ofClone := ranks.1.mem_iff.1 ((Ranking.beyond_sublist _ _).subset gone)
    have eq := Table.eq_of_key (mem_backups_of_stale ranks y gone) member same
    rw [eq] at ofClone
    exact apart (ofOther.symm.trans (Store.mem_backupsOf.1 ofClone).2)
  simpa using fresh

/-- The laws of retention, for the prune of a clone that takes `s` to `s'`. -/
structure Retained (s s' : Store β) (cloneId : Nat) : Prop where
  /-- rows are only deleted -/
  sublist : (s'.backupsOf cloneId).Sublist (s.backupsOf cloneId)
  perTier : ∀ tier, ((s'.backupsOf cloneId).filter fun b => b.subscriptionTier = tier).length ≤
    (policyFor tier).retainCount
  /-- the tiers are those of the rows that remain -/
  overall : (s'.backupsOf cloneId).length ≤ largestRetainCount (s'.backupsOf cloneId)
  newest : ∀ b ∈ s.backupsOf cloneId,
    (∀ y ∈ s.backupsOf cloneId, y.periodEnd ≤ b.periodEnd) → b ∈ s'.backupsOf cloneId
  upward : ∀ b ∈ s'.backupsOf cloneId, ∀ y ∈ s.backupsOf cloneId,
    y.subscriptionTier = b.subscriptionTier → b.periodEnd ≤ y.periodEnd → y ∈ s'.backupsOf cloneId
  again : ∀ ranked fault s'' ok, pruneStaleBackups s' cloneId ranked fault = some (s'', ok) →
    s'' = s'
  /-- an object goes exactly when its row does -/
  objects : ∀ key, s'.objects key =
    if ∃ b ∈ s.backupsOf cloneId, b ∉ s'.backupsOf cloneId ∧ b.storageKey = key then none
    else s.objects key
  others : ∀ other ≠ cloneId, s'.backupsOf other = s.backupsOf other
  /-- no row that stays, of this clone or another, loses its object -/
  kept : (s.backups.rows.map MemoryBackup.storageKey).Nodup →
    ∀ b ∈ s'.backups, s'.objects b.storageKey = s.objects b.storageKey
  uniform : ∀ tier, (∀ b ∈ s.backupsOf cloneId, b.subscriptionTier = tier) →
    ∀ order, RanksByPeriodEnd (s.backupsOf cloneId) order →
      (s'.backupsOf cloneId).Perm
        (order.take (min (s.backupsOf cloneId).length (policyFor tier).retainCount))

/-- A prune that finds nothing stale leaves the stores as they are. -/
theorem pruneStaleBackups_nothing {ok : Bool} (none : staleBackups ranked = [])
    (h : pruneStaleBackups s cloneId ranked fault = some (s', ok)) : s' = s := by
  obtain ⟨_, step⟩ := pruneStaleBackups_step h
  rw [none] at step
  have unpruned : s.prune [] = s := by
    have rows : s.backups.filter (fun b => b.id ∉ ([] : List Nat)) = s.backups := by
      unfold Table.filter
      congr
      rw [List.filter_eq_self]
      exact fun _ _ => by simp
    change { s with backups := s.backups.filter (fun b => b.id ∉ ([] : List Nat)) } = s
    rw [rows]
  cases step with
  | pruned => exact unpruned
  | interrupted i within => exact absurd within (Nat.not_lt_zero i)
  | uncommitted => rfl

/-- **Retention.** -/
theorem retained_of_prune (s s' : Store β) (cloneId : Nat) (ranked : List MemoryBackup)
    (fault : Option RollupFault)
    (distinct : ((s.backupsOf cloneId).map MemoryBackup.periodEnd).Nodup)
    (pruned : pruneStaleBackups s cloneId ranked fault = some (s', true)) :
    Retained s s' cloneId := by
  obtain ⟨ranks, step⟩ := pruneStaleBackups_step pruned
  cases step
  have rows := backupsOf_prune ranks distinct
  have within := mem_backups_of_stale ranks
  have gone : ∀ b, b ∈ staleBackups ranked ↔ b ∈ s.backupsOf cloneId ∧
      b ∉ (s.prune (staleBackups ranked)).backupsOf cloneId := by
    intro b
    rw [mem_backupsOf_prune ranks, not_and_not_right]
    have listed : b ∈ staleBackups ranked → b ∈ s.backupsOf cloneId :=
      fun stale => ranks.1.mem_iff.1 ((Ranking.beyond_sublist _ _).subset stale)
    tauto
  constructor
  · rw [rows]
    exact Ranking.kept_sublist _ _ _
  · intro tier
    rw [rows]
    refine Ranking.length_le_of_kept distinct List.filter_sublist fun b member => ?_
    have same : b.subscriptionTier = tier := by simpa using (List.mem_filter.1 member).2
    rw [retainCount, same]
  · rw [rows]
    exact Ranking.length_le_of_kept distinct (List.Sublist.refl _) fun b member =>
      retainCount_le_largest member
  · intro b listed greatest
    rw [rows]
    exact Ranking.greatest_mem_kept (retainCount_pos _) listed greatest
  · intro b member y listed same le
    rw [rows] at member ⊢
    exact Ranking.kept_upward member listed (by rw [retainCount, retainCount, same]) le
  · intro ranked' fault' s'' ok again
    refine pruneStaleBackups_nothing (List.eq_nil_iff_forall_not_mem.2 fun b stale => ?_) again
    have ranks' := (pruneStaleBackups_step again).1
    unfold RanksByPeriodEnd at ranks'
    rw [rows] at ranks'
    have distinct' : ((keptBackups (s.backupsOf cloneId)).map MemoryBackup.periodEnd).Nodup :=
      distinct.sublist ((Ranking.kept_sublist _ _ _).map _)
    obtain ⟨member, exceeds⟩ := (Ranking.mem_beyond_iff ranks' distinct').1 stale
    have still : b ∈ keptBackups (keptBackups (s.backupsOf cloneId)) := by
      rw [keptBackups, keptBackups, Ranking.kept_kept]
      exact member
    have few := (Ranking.mem_kept.1 still).2
    exact absurd exceeds (Nat.not_le_of_lt few)
  · intro key
    change (if key ∈ (staleBackups ranked).map MemoryBackup.storageKey then none else _) = _
    simp only [List.mem_map, gone, and_assoc]
  · exact fun other apart => backupsOf_prune_of_ne ranks apart
  · intro keys b listed
    obtain ⟨old, kept⟩ := (mem_prune within).1 listed
    exact objects_prune_of_kept keys within old kept
  · intro tier all order ordered
    have uniform : ∀ b ∈ s.backupsOf cloneId, retainCount b = (policyFor tier).retainCount := by
      intro b listed
      rw [retainCount, all b listed]
    have perm := Ranking.kept_perm_take ordered distinct uniform
    have cut : order.take (min (s.backupsOf cloneId).length (policyFor tier).retainCount) =
        order.take (policyFor tier).retainCount := by
      rw [← ordered.1.length_eq, min_comm, ← List.take_take, List.take_length]
    rw [rows, cut]
    exact perm

/-- A backup without entries that ends at `periodEnd`, for examples. -/
def backupAt (id cloneId : Nat) (periodEnd : Int) (tier : SubscriptionTier) : MemoryBackup :=
  ⟨id, cloneId, periodEnd, periodEnd, 0, ⟨cloneId, periodEnd, periodEnd, id⟩, tier, periodEnd, none⟩

/-- A clone that has changed its tier twice, and another clone. -/
def mixedTiers : Store (List MemoryItem) :=
  { Store.empty with
    backups := ⟨[backupAt 1 1 10 .standard, backupAt 2 1 20 .free, backupAt 3 2 25 .free,
      backupAt 4 1 30 .standard, backupAt 5 1 40 .free], by decide⟩
    objects := fun _ => some [] }

/-- The first clone's rows as the server ranks them. -/
def mixedRanked : List MemoryBackup :=
  [backupAt 5 1 40 .free, backupAt 4 1 30 .standard, backupAt 2 1 20 .free,
    backupAt 1 1 10 .standard]

theorem retained_of_mixedTiers :
    ∃ s', pruneStaleBackups mixedTiers 1 mixedRanked none = some (s', true) ∧
      s'.backups.rows.map MemoryBackup.id = [1, 3, 4, 5] ∧ Retained mixedTiers s' 1 := by
  refine ⟨_, rfl, by decide, ?_⟩
  exact retained_of_prune mixedTiers _ 1 mixedRanked none (by decide) rfl

end Mycelium
