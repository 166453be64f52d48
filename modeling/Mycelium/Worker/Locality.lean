import Mycelium.Worker.Prune

/-!
# A rollup reads and writes its own clone's part

The archive half of `rollup_clone` and its prune leave every other clone's part of
the stores as it is, and do to their own clone's part the same in any two stores
that have this part in common.
-/

namespace Mycelium

variable {ι β : Type}

/-! ## A clone's part -/

/-- The clone's stream, buffer row, backup rows and objects are the same in both stores. -/
structure SamePart (cloneId : Nat) (s s' : Store β) : Prop where
  stream : s'.streams cloneId = s.streams cloneId
  buffer : s'.buffers cloneId = s.buffers cloneId
  backups : s'.backupsOf cloneId = s.backupsOf cloneId
  objects : ∀ key : ObjectKey, key.cloneId = cloneId → s'.objects key = s.objects key

/-- Every row's object has its key under the row's clone. -/
def Store.Keyed (s : Store β) : Prop :=
  ∀ b ∈ s.backups.rows, b.storageKey.cloneId = b.cloneId

instance (s : Store β) : Decidable s.Keyed :=
  inferInstanceAs (Decidable (∀ b ∈ s.backups.rows, _))

namespace SamePart

variable {F : Format ι β} {s s' s₁ s₂ t₁ t₂ : Store β} {cloneId : Nat}

theorem refl (cloneId : Nat) (s : Store β) : SamePart cloneId s s := ⟨rfl, rfl, rfl, fun _ _ => rfl⟩

theorem trans (first : SamePart cloneId s₁ s₂) (second : SamePart cloneId s₂ s') :
    SamePart cloneId s₁ s' where
  stream := second.stream.trans first.stream
  buffer := second.buffer.trans first.buffer
  backups := second.backups.trans first.backups
  objects key named := (second.objects key named).trans (first.objects key named)

/-! ## A call leaves the other parts -/

/-- An object of another clone. -/
theorem putObject {key : ObjectKey} (apart : key.cloneId ≠ cloneId) (data : β) :
    SamePart cloneId s (s.putObject key data) where
  stream := rfl
  buffer := rfl
  backups := rfl
  objects key' named := by
    have ne : key' ≠ key := by
      rintro rfl
      exact apart named
    exact Store.objects_putObject_of_ne ne data

theorem deleteObjects {keys : List ObjectKey} (apart : ∀ key ∈ keys, key.cloneId ≠ cloneId) :
    SamePart cloneId s (s.deleteObjects keys) where
  stream := rfl
  buffer := rfl
  backups := rfl
  objects key named := Store.objects_deleteObjects fun listed => apart key listed named

end SamePart

section Frame

variable {F : Format ι β} {s s' : Store β} {clone : CloneProfile} {now : Int} {choice : RollupChoice}
  {cloneId other : Nat} {ranked : List MemoryBackup}

/-- The archive half writes its own clone's stream, row, backups and objects at most. -/
theorem archiveBuffer_frame {fault : Option RollupFault} {result : RollupResult} (keyed : s.Keyed)
    (h : archiveBuffer F s clone now choice fault = some (s', result)) :
    s'.Keyed ∧ ∀ other ≠ clone.id, SamePart other s s' := by
  unfold archiveBuffer at h
  split at h
  · cases h
    exact ⟨keyed, fun _ _ => .refl _ _⟩
  · split at h
    · cases h
      exact ⟨keyed, fun _ _ => .refl _ _⟩
    · rename_i buffer periodStart read
      simp only at h
      split at h
      · cases h
        exact ⟨keyed, fun _ _ => .refl _ _⟩
      · split at h
        · split at h
          · cases h
            exact ⟨keyed, fun _ apart => .putObject apart.symm _⟩
          · split at h
            · cases h
              exact ⟨keyed, fun _ apart => .putObject apart.symm _⟩
            · split at h
              · cases h
              · rename_i backups inserted
                cases h
                have rows := (Table.insert_eq_some inserted).2
                refine ⟨fun b listed => ?_, fun other apart => ?_⟩
                · rcases (Table.mem_of_insert inserted).1 listed with old | rfl
                  · exact keyed b old
                  · rfl
                · refine { SamePart.putObject (s := s) apart.symm buffer.payloadBlob with
                    buffer := Function.update_of_ne apart _ _
                    backups := ?_ }
                  change backups.rows.filter _ = s.backups.rows.filter _
                  rw [rows, List.filter_append, List.filter_singleton]
                  simp [apart.symm]
        · cases h

/-- The objects of the rows a prune finds stale are its own clone's. -/
theorem Store.Keyed.stale (keyed : s.Keyed)
    (ranks : RanksByPeriodEnd (s.backupsOf cloneId) ranked) :
    ∀ key ∈ (staleBackups ranked).map MemoryBackup.storageKey, key.cloneId = cloneId := by
  intro key named
  obtain ⟨b, stale, rfl⟩ := List.mem_map.1 named
  have listed := ranks.1.mem_iff.1 ((Ranking.beyond_sublist _ _).subset stale)
  obtain ⟨member, ofClone⟩ := Store.mem_backupsOf.1 listed
  exact (keyed b member).trans ofClone

/-- A prune, wherever it stops, leaves the other clones their parts. -/
theorem pruneStaleBackups_frame {fault : Option RollupFault} {ok : Bool} (keyed : s.Keyed)
    (h : pruneStaleBackups s cloneId ranked fault = some (s', ok)) :
    s'.Keyed ∧ ∀ other ≠ cloneId, SamePart other s s' := by
  obtain ⟨ranks, step⟩ := pruneStaleBackups_step h
  have named := keyed.stale ranks
  cases step with
  | pruned deleted committed =>
    refine ⟨fun b listed => keyed b ((mem_prune (mem_backups_of_stale ranks)).1 listed).1,
      fun other apart => ?_⟩
    have gone :
        SamePart other s (s.deleteObjects ((staleBackups ranked).map MemoryBackup.storageKey)) :=
      .deleteObjects fun key listed same => apart (same.symm.trans (named key listed))
    exact { gone with backups := backupsOf_prune_of_ne ranks apart }
  | interrupted i within =>
    refine ⟨keyed, fun other apart => .deleteObjects fun key listed same => ?_⟩
    exact apart (same.symm.trans (named key (List.mem_of_mem_take listed)))
  | uncommitted =>
    refine ⟨keyed, fun other apart => .deleteObjects fun key listed same => ?_⟩
    exact apart (same.symm.trans (named key listed))

end Frame

/-! ## A call depends on its own part -/

section Local

variable {F : Format ι β} {s₁ s₂ t₁ t₂ : Store β} {clone : CloneProfile} {now : Int}
  {choice : RollupChoice} {cloneId : Nat} {ranked : List MemoryBackup}

/-- The same object put into both stores. -/
theorem SamePart.upload (same : SamePart cloneId s₁ s₂) (key : ObjectKey) (data : β) :
    SamePart cloneId (s₁.putObject key data) (s₂.putObject key data) := by
  refine { same with objects := fun key' named => ?_ }
  by_cases eq : key' = key
  · rw [eq, Store.objects_putObject, Store.objects_putObject]
  · rw [Store.objects_putObject_of_ne eq, Store.objects_putObject_of_ne eq, same.objects key' named]

theorem SamePart.delete (same : SamePart cloneId s₁ s₂) (keys : List ObjectKey) :
    SamePart cloneId (s₁.deleteObjects keys) (s₂.deleteObjects keys) := by
  refine { same with objects := fun key named => ?_ }
  by_cases gone : key ∈ keys
  · rw [Store.objects_deleted gone, Store.objects_deleted gone]
  · rw [Store.objects_deleteObjects gone, Store.objects_deleteObjects gone, same.objects key named]

/-- The same rows deleted from both, with their objects. -/
theorem SamePart.prune (same : SamePart cloneId s₁ s₂) (stale : List MemoryBackup) :
    SamePart cloneId (s₁.prune stale) (s₂.prune stale) := by
  refine { same.delete (stale.map MemoryBackup.storageKey) with backups := ?_ }
  rw [backupsOf_prune_eq_filter, backupsOf_prune_eq_filter, same.backups]

/-- The archive half does the same in both stores, with the same result. The choices of the servers
have to be possible in each by itself. -/
theorem archiveBuffer_local {fault : Option RollupFault} {r₁ r₂ : RollupResult}
    (same : SamePart clone.id s₁ s₂)
    (first : archiveBuffer F s₁ clone now choice fault = some (t₁, r₁))
    (second : archiveBuffer F s₂ clone now choice fault = some (t₂, r₂)) :
    r₁ = r₂ ∧ SamePart clone.id t₁ t₂ := by
  unfold archiveBuffer at first second
  rw [same.buffer] at second
  by_cases nothing : nothingBuffered (s₁.buffers clone.id) = true
  · rw [if_pos nothing] at first second
    cases first
    cases second
    exact ⟨rfl, same⟩
  rw [if_neg nothing] at first second
  cases read : F.readBuffer (s₁.buffers clone.id) with
  | none =>
    rw [read] at first second
    cases first
    cases second
    exact ⟨rfl, same⟩
  | some row =>
    obtain ⟨buffer, periodStart⟩ := row
    rw [read] at first second
    simp only at first second
    by_cases put : fault = some .putObject
    · rw [if_pos put] at first second
      cases first
      cases second
      exact ⟨rfl, same⟩
    rw [if_neg put] at first second
    by_cases fresh₁ : s₁.Fresh (backupKey clone.id periodStart (.utc now) choice.uuid)
    swap
    · rw [if_neg fresh₁] at first
      cases first
    by_cases fresh₂ : s₂.Fresh (backupKey clone.id periodStart (.utc now) choice.uuid)
    swap
    · rw [if_neg fresh₂] at second
      cases second
    rw [if_pos fresh₁] at first
    rw [if_pos fresh₂] at second
    cases utc : periodStart.astimezoneUtc with
    | none =>
      rw [utc] at first second
      cases first
      cases second
      exact ⟨rfl, same.upload _ _⟩
    | some start =>
      rw [utc] at first second
      simp only at first second
      by_cases commit : fault = some .commit
      · rw [if_pos commit] at first second
        cases first
        cases second
        exact ⟨rfl, same.upload _ _⟩
      rw [if_neg commit] at first second
      -- both insert the same row
      split at first
      · cases first
      · rename_i backups₁ inserted₁
        split at second
        · cases second
        · rename_i backups₂ inserted₂
          cases first
          cases second
          refine ⟨rfl, { same.upload _ _ with buffer := ?_, backups := ?_ }⟩
          · simp only [Function.update_self]
          · have rows := same.backups
            unfold Store.backupsOf at rows ⊢
            rw [(Table.insert_eq_some inserted₁).2, (Table.insert_eq_some inserted₂).2,
              List.filter_append, List.filter_append, rows]

/-- A prune does the same in both stores, and ends in the same way. -/
theorem pruneStaleBackups_local {fault : Option RollupFault} {ok₁ ok₂ : Bool}
    (same : SamePart cloneId s₁ s₂)
    (first : pruneStaleBackups s₁ cloneId ranked fault = some (t₁, ok₁))
    (second : pruneStaleBackups s₂ cloneId ranked fault = some (t₂, ok₂)) :
    ok₁ = ok₂ ∧ SamePart cloneId t₁ t₂ := by
  obtain ⟨_, step₁⟩ := pruneStaleBackups_step first
  obtain ⟨_, step₂⟩ := pruneStaleBackups_step second
  cases step₁ with
  | pruned _ deleted committed =>
    cases step₂ with
    | pruned => exact ⟨rfl, same.prune _⟩
    | interrupted i within => exact absurd within (Nat.not_lt.2 (deleted i rfl))
    | uncommitted => exact absurd rfl committed
  | interrupted i within =>
    cases step₂ with
    | pruned _ deleted committed => exact absurd within (Nat.not_lt.2 (deleted i rfl))
    | interrupted => exact ⟨rfl, same.delete _⟩
  | uncommitted =>
    cases step₂ with
    | pruned _ deleted committed => exact absurd rfl committed
    | uncommitted => exact ⟨rfl, same.delete _⟩

end Local

end Mycelium
