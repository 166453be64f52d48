import Mycelium.Api.Requests
import Mycelium.Worker.Due
import Mycelium.Worker.Prune

/-!
# Does a resurrection postpone the caller's next rollup?

The copy keeps the source's `period_end`, and the anchor of `find_due_clones` is
the greatest `period_end` of the caller's rows. It moves when the source's history
ends later than the caller's own.
-/

namespace Mycelium

variable {ι β : Type}

/-- The profiles with the tiers `tiers` assigns. -/
def Store.assignTiers (s : Store β) (tiers : Nat → SubscriptionTier) : Store β :=
  { s with
    profiles := s.profiles.mapRows (fun p => p.subscribed (tiers p.id))
      fun p => p.subscribed_id (tiers p.id) }

/-- `find_due_clones` returns the clone at `now` under the tiers assigned. -/
def DueAt (override : Option Int) (now : Int) (tiers : Nat → SubscriptionTier) (s : Store β)
    (cloneId : Nat) : Prop :=
  ∃ clone ∈ findDueClones override now (s.assignTiers tiers), clone.id = cloneId

variable {override : Option Int} {now : Int} {tiers : Nat → SubscriptionTier} {s : Store β}
  {profile : CloneProfile}

instance (cloneId : Nat) : Decidable (DueAt override now tiers s cloneId) :=
  inferInstanceAs (Decidable (∃ clone ∈ _, _))

theorem mem_assignTiers {p : CloneProfile} : p ∈ (s.assignTiers tiers).profiles ↔
    ∃ q ∈ s.profiles, q.subscribed (tiers q.id) = p := by
  unfold Store.assignTiers
  rw [Table.mem_mapRows]

/-- The anchor does not depend on the tier. -/
theorem isDue_subscribed {rows : List MemoryBackup} {tier : SubscriptionTier} :
    isDue override now rows (profile.subscribed tier) = true ↔
      anchor rows profile + (policyFor tier).interval override ≤ now := isDue_iff

theorem dueAt_iff (member : profile ∈ s.profiles) : DueAt override now tiers s profile.id ↔
    anchor s.backups.rows profile + (policyFor (tiers profile.id)).interval override ≤ now := by
  constructor
  · rintro ⟨clone, due, same⟩
    obtain ⟨assigned, due⟩ := mem_findDueClones.1 due
    obtain ⟨p, listed, rfl⟩ := mem_assignTiers.1 assigned
    have sameId : p.id = profile.id := same
    have eq : p = profile := Table.eq_of_key listed member sameId
    rw [eq] at due
    exact isDue_subscribed.1 due
  · intro due
    refine ⟨profile.subscribed (tiers profile.id), mem_findDueClones.2 ⟨?_, isDue_subscribed.2 due⟩, rfl⟩
    exact mem_assignTiers.2 ⟨profile, member, rfl⟩

/-- **When a resurrection postpones nothing**: exactly when the source's newest backup ends no later
than the caller's anchor, its own newest `period_end` or `created_at`. -/
theorem resurrection_postpones_nothing_iff (A : Api ι β) (override : Option Int) (s s' : Store β)
    (credentials : Option String) (profile : CloneProfile) (sourceProfileId : Int) (c : Choice)
    (resp : Response ι) (own : getOwnProfile A s credentials = .ok profile)
    (answered : resurrect A s credentials sourceProfileId c = some (s', resp))
    (success : resp.success = true) :
    (∀ now tiers, DueAt override now tiers s profile.id → DueAt override now tiers s' profile.id) ↔
      ∀ last, lastEnd s.backups.rows sourceProfileId.toNat = some last →
        last ≤ anchor s.backups.rows profile := by
  obtain ⟨latest, raw, backups, resurrects, inserted, rfl⟩ :=
    resurrect_success own answered success
  obtain ⟨source, found, _, isLatest⟩ := resurrects.source
  obtain ⟨user, _, member, _⟩ := own_profile own
  have ofSource : source.id = sourceProfileId.toNat := by
    have same := (Table.lookup_eq_some found).2
    omega
  have last : lastEnd s.backups.rows sourceProfileId.toNat = some latest.periodEnd := by
    obtain ⟨listed, greatest⟩ := isLatest
    rw [← ofSource, lastEnd_eq_some]
    obtain ⟨inTable, ofClone⟩ := Store.mem_backupsOf.1 listed
    exact ⟨⟨latest, inTable, ofClone, rfl⟩,
      fun b old mine => greatest b (Store.mem_backupsOf.2 ⟨old, mine⟩)⟩
  have moved : anchor backups.rows profile ≤ anchor s.backups.rows profile ↔
      latest.periodEnd ≤ anchor s.backups.rows profile := by
    rw [(Table.insert_eq_some inserted).2]
    exact anchor_append_le rfl
  have after : ∀ now tiers, DueAt override now tiers
      (s.withCopy (resurrectedRow profile latest c).storageKey raw backups) profile.id ↔
        anchor backups.rows profile + (policyFor (tiers profile.id)).interval override ≤ now :=
    fun now tiers => dueAt_iff member
  simp only [after, dueAt_iff (s := s) member, last, Option.some.injEq, forall_eq', ← moved]
  constructor
  · intro kept
    -- the moment the caller is due before the request, on any tier
    have soon := kept _ (fun _ => .free) le_rfl
    omega
  · intro le now tiers due
    omega

def days (n : Int) : Int := n * 86400 * 1000000

/-- A retired clone whose last backup ends on day 20, and one created on day `created`. -/
def retiredSource (created : Int) : Store (List MemoryItem) :=
  { twoClones with
    profiles := ⟨[⟨1, "alpha", "deceased", .free, some 1, 0⟩,
      ⟨2, "beta", activeStatus, .free, some 2, days created⟩], (by decide : [1, 2].Nodup)⟩
    backups := ⟨[backupAt 1 1 (days 20) .free], by decide⟩
    objects := fun key => if key = (backupAt 1 1 (days 20) .free).storageKey then some [] else none }

/-- The second clone resurrects from the first on day 29. -/
def resurrectChoice : Choice :=
  { choiceAt (days 29) ⟨1, 0⟩ with
    id := 2, uuid := 2, createdAt := days 29, latest := some (backupAt 1 1 (days 20) .free) }

theorem postponed_of_newer_source :
    ∃ s' body, resurrect Api.sample (retiredSource 0) (some "token") 1 resurrectChoice =
        some (s', .ok 201 body) ∧
      DueAt none (days 31) (fun _ => .free) (retiredSource 0) 2 ∧
      ¬ DueAt none (days 31) (fun _ => .free) s' 2 :=
  ⟨_, _, rfl, by decide, by decide⟩

theorem not_postponed_of_older_source :
    ∃ s' body, resurrect Api.sample (retiredSource 25) (some "token") 1 resurrectChoice =
        some (s', .ok 201 body) ∧
      ∀ now tiers, DueAt none now tiers (retiredSource 25) 2 → DueAt none now tiers s' 2 := by
  refine ⟨_, _, rfl, ?_⟩
  have newest : ∀ last, lastEnd (retiredSource 25).backups.rows (1 : Int).toNat = some last →
      last ≤ anchor (retiredSource 25).backups.rows
        ⟨2, "beta", activeStatus, .free, some 2, days 25⟩ := by
    rintro last ⟨⟩
    decide
  exact (resurrection_postpones_nothing_iff Api.sample none (retiredSource 25) _ (some "token")
    ⟨2, "beta", activeStatus, .free, some 2, days 25⟩ 1 resurrectChoice _ rfl rfl rfl).2 newest

end Mycelium
