import Mycelium.Worker.Prune
import Mycelium.Logic.Join

/-!
# When a clone is due

`queryDueClones` is the query of `find_due_clones` clause by clause, and
`findDueClones` what it comes to. Its anchor is the greatest `period_end` among
the clone's rows, or `created_at`.
-/

namespace Mycelium

/-- `BACKUP_POLICIES` in its order, as the CASE of `_cutoff_by_tier` runs through it. -/
def backupPolicies : List (SubscriptionTier × BackupPolicy) :=
  [(.free, policyFor .free), (.standard, policyFor .standard), (.premium, policyFor .premium)]

/-- `_cutoff_by_tier`; NULL when no WHEN matches. -/
def cutoffByTier (override : Option Int) (now : Int) (tier : SubscriptionTier) : Option Int :=
  (backupPolicies.find? fun policy => tier = policy.1).map fun policy =>
    now - policy.2.interval override

/-- `anchor <= cutoff`; a comparison with NULL is not true. -/
def anchorWithin (lastEnd : Option Int) (createdAt : Int) : Option Int → Bool
  | some cutoff => lastEnd.getD createdAt ≤ cutoff
  | none => false

/-- The query of `find_due_clones`: the grouped maximum, the outer join, the WHERE. -/
def queryDueClones {β : Type} (override : Option Int) (now : Int) (s : Store β) :
    List CloneProfile :=
  let lastBackup := Join.groupMax MemoryBackup.cloneId MemoryBackup.periodEnd s.backups.rows
  let joined := Join.leftJoin (fun (clone : CloneProfile) last => last.1 = clone.id)
    s.profiles.rows lastBackup
  (joined.filter fun (clone, last) => anchorWithin (last.map Prod.snd) clone.createdAt
    (cutoffByTier override now clone.subscriptionTier)).map Prod.fst

variable {β : Type} {override : Option Int} {now : Int} {s : Store β} {rows : List MemoryBackup}
  {clone : CloneProfile} {cloneId : Nat}

theorem cutoffByTier_eq (override : Option Int) (now : Int) (tier : SubscriptionTier) :
    cutoffByTier override now tier = some (now - (policyFor tier).interval override) := by
  cases tier <;> rfl

/-- The query returns each due clone once, in the order of the profiles. -/
theorem queryDueClones_eq (override : Option Int) (now : Int) (s : Store β) :
    queryDueClones override now s = findDueClones override now s := by
  unfold queryDueClones findDueClones
  simp only
  rw [Join.leftJoin_groupMax CloneProfile.id, List.filter_map, List.map_map]
  have first : Prod.fst ∘ (fun clone : CloneProfile => (clone, (Join.maxOf MemoryBackup.cloneId
      MemoryBackup.periodEnd s.backups.rows clone.id).map fun last => (clone.id, last))) = id := rfl
  rw [first, List.map_id]
  apply List.filter_congr
  intro clone _
  simp only [Function.comp_apply, cutoffByTier_eq, anchorWithin, Option.map_map]
  have last : (Join.maxOf MemoryBackup.cloneId MemoryBackup.periodEnd s.backups.rows clone.id).map
      (Prod.snd ∘ fun last => (clone.id, last)) = lastEnd s.backups.rows clone.id :=
    Option.map_id'
  rw [last]
  rfl

/-! ## The anchor -/

theorem lastEnd_eq_some {last : Int} : lastEnd rows cloneId = some last ↔
    (∃ b ∈ rows, b.cloneId = cloneId ∧ b.periodEnd = last) ∧
      ∀ b ∈ rows, b.cloneId = cloneId → b.periodEnd ≤ last := by
  have member : last ∈ (rows.filter fun b => b.cloneId = cloneId).map MemoryBackup.periodEnd ↔
      ∃ b ∈ rows, b.cloneId = cloneId ∧ b.periodEnd = last := by
    simp [and_assoc]
  rw [lastEnd, List.max?_eq_some_iff, member, List.forall_mem_map]
  simp

theorem lastEnd_eq_none : lastEnd rows cloneId = none ↔ ∀ b ∈ rows, b.cloneId ≠ cloneId := by
  simp [lastEnd]

/-- The anchor depends on the ends of the clone's rows only through the greatest. -/
theorem lastEnd_congr {rows' : List MemoryBackup}
    (same : rows'.filter (fun b => b.cloneId = cloneId) = rows.filter fun b => b.cloneId = cloneId) :
    lastEnd rows' cloneId = lastEnd rows cloneId := by
  rw [lastEnd, lastEnd, same]

/-- A row added for the clone. -/
theorem lastEnd_append {b : MemoryBackup} (ofClone : b.cloneId = cloneId) :
    lastEnd (rows ++ [b]) cloneId =
      some (match lastEnd rows cloneId with
        | some last => max last b.periodEnd
        | none => b.periodEnd) := by
  rw [lastEnd_eq_some]
  cases found : lastEnd rows cloneId with
  | none =>
    have nothing := lastEnd_eq_none.1 found
    constructor
    · exact ⟨b, by simp, ofClone, rfl⟩
    · intro y listed own
      rcases List.mem_append.1 listed with old | new
      · exact absurd own (nothing y old)
      · rw [List.mem_singleton.1 new]
  | some last =>
    obtain ⟨⟨y, listed, own, ends⟩, greatest⟩ := lastEnd_eq_some.1 found
    simp only
    constructor
    · rcases Int.le_total last b.periodEnd with le | le
      · exact ⟨b, by simp, ofClone, by omega⟩
      · exact ⟨y, List.mem_append_left _ listed, own, by omega⟩
    · intro z member own'
      rcases List.mem_append.1 member with old | new
      · have le := greatest z old own'
        omega
      · rw [List.mem_singleton.1 new]
        omega

/-- A row added for the clone moves its anchor forward exactly when it ends after it. -/
theorem anchor_append_le {b : MemoryBackup} (ofClone : b.cloneId = clone.id) :
    anchor (rows ++ [b]) clone ≤ anchor rows clone ↔ b.periodEnd ≤ anchor rows clone := by
  unfold anchor
  rw [lastEnd_append ofClone]
  cases lastEnd rows clone.id with
  | none => exact Iff.rfl
  | some last =>
    change max last b.periodEnd ≤ last ↔ b.periodEnd ≤ last
    omega

/-- Whatever keeps the clones and the ends of the rows keeps their greatest end. -/
theorem lastEnd_map {f : MemoryBackup → MemoryBackup} (ofClone : ∀ b, (f b).cloneId = b.cloneId)
    (ends : ∀ b, (f b).periodEnd = b.periodEnd) :
    lastEnd (rows.map f) cloneId = lastEnd rows cloneId := by
  have kept : (fun b => decide (b.cloneId = cloneId)) ∘ f = fun b => decide (b.cloneId = cloneId) := by
    funext b
    simp only [Function.comp_apply, ofClone]
  have same : MemoryBackup.periodEnd ∘ f = MemoryBackup.periodEnd := funext ends
  rw [lastEnd, List.filter_map, List.map_map, kept, same]
  rfl

theorem isDue_iff : isDue override now rows clone = true ↔
    anchor rows clone + (policyFor clone.subscriptionTier).interval override ≤ now := by
  rw [isDue, decide_eq_true_eq]
  omega

/-- Being due is monotone in time. -/
theorem isDue_mono {later : Int} (le : now ≤ later) (due : isDue override now rows clone = true) :
    isDue override later rows clone = true := by
  rw [isDue_iff] at due ⊢
  omega

theorem mem_findDueClones : clone ∈ findDueClones override now s ↔
    clone ∈ s.profiles ∧ isDue override now s.backups.rows clone = true := List.mem_filter

/-! ## Rollups and the anchor -/

variable {ι : Type} {F : Format ι β} {s' : Store β}

/-- The row made moves its clone's greatest end to `now`, when none of its rows ends later. -/
theorem lastEnd_archived {b : MemoryBackup} (archived : ArchiveStep F s clone now s' (.backedUp b))
    (ordered : ∀ last, lastEnd s.backups.rows clone.id = some last → last ≤ now) :
    lastEnd s'.backups.rows clone.id = some now ∧
      ∀ other ≠ clone.id, lastEnd s'.backups.rows other = lastEnd s.backups.rows other := by
  cases archived with
  | committed buffer periodStart b backups read fresh start ofClone ends count tier inserted =>
    have rows := (Table.insert_eq_some inserted).2
    simp only [rows]
    constructor
    · rw [lastEnd_append ofClone, ends]
      cases found : lastEnd s.backups.rows clone.id with
      | none => rfl
      | some last =>
        have le := ordered last found
        simp only [Option.some.injEq]
        omega
    · intro other apart
      apply lastEnd_congr
      have mine : b.cloneId ≠ other := fun same => apart (same.symm.trans ofClone)
      simp [List.filter_append, mine]

/-- A prune keeps the row that ends last, and so every clone's greatest end. -/
theorem lastEnd_prune {ranked : List MemoryBackup}
    (ranks : RanksByPeriodEnd (s.backupsOf cloneId) ranked) (other : Nat) :
    lastEnd (s.prune (staleBackups ranked)).backups.rows other = lastEnd s.backups.rows other := by
  by_cases apart : other = cloneId
  · subst apart
    have kept : ∀ b, b ∈ (s.prune (staleBackups ranked)).backups ∧ b.cloneId = other ↔
        b ∈ ranked ∧ b ∉ staleBackups ranked := by
      intro b
      rw [← Store.mem_backupsOf, mem_backupsOf_prune ranks, ranks.1.mem_iff]
    have mine : ∀ b, b ∈ s.backups ∧ b.cloneId = other ↔ b ∈ ranked := by
      intro b
      rw [← Store.mem_backupsOf, ranks.1.mem_iff]
    cases ranked with
    | nil =>
      have before : lastEnd s.backups.rows other = none := by
        rw [lastEnd_eq_none]
        exact fun b listed own => absurd ((mine b).1 ⟨listed, own⟩) List.not_mem_nil
      rw [before, lastEnd_eq_none]
      exact fun b listed own => absurd ((kept b).1 ⟨listed, own⟩).1 List.not_mem_nil
    | cons first rest =>
      have nodup : ([] ++ first :: rest).Nodup := ranks.1.nodup_iff.2 (s.backupsOf_nodup other)
      have greatest : ∀ b ∈ first :: rest, b.periodEnd ≤ first.periodEnd := by
        intro b member
        rcases List.mem_cons.1 member with rfl | later
        · exact le_rfl
        · exact (List.pairwise_cons.1 ranks.2).1 b later
      have stays : first ∉ staleBackups (first :: rest) := by
        intro stale
        have few := (Ranking.mem_beyond_append nodup).1 stale
        have positive : 0 < retainCount first := retainCount_pos _
        exact absurd few (Nat.not_le_of_lt positive)
      have before : lastEnd s.backups.rows other = some first.periodEnd := by
        rw [lastEnd_eq_some]
        obtain ⟨listed, own⟩ := (mine first).2 List.mem_cons_self
        exact ⟨⟨first, listed, own, rfl⟩,
          fun b old ours => greatest b ((mine b).1 ⟨old, ours⟩)⟩
      rw [before, lastEnd_eq_some]
      obtain ⟨listed, own⟩ := (kept first).2 ⟨List.mem_cons_self, stays⟩
      exact ⟨⟨first, listed, own, rfl⟩,
        fun b left ours => greatest b ((kept b).1 ⟨left, ours⟩).1⟩
  · exact lastEnd_congr (backupsOf_prune_of_ne ranks apart)

/-- However a prune ends, no due date moves. -/
theorem lastEnd_pruneStaleBackups {ranked : List MemoryBackup} {fault : Option RollupFault}
    {ok : Bool} (h : pruneStaleBackups s cloneId ranked fault = some (s', ok)) (other : Nat) :
    lastEnd s'.backups.rows other = lastEnd s.backups.rows other := by
  obtain ⟨ranks, step⟩ := pruneStaleBackups_step h
  cases step with
  | pruned => exact lastEnd_prune ranks other
  | interrupted => rfl
  | uncommitted => rfl

end Mycelium
