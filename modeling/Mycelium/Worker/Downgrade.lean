import Mycelium.Api.Routers
import Mycelium.Worker.Flush
import Mycelium.Worker.Rollup
import Mycelium.Worker.Prune
import Mycelium.Logic.Run
import Mathlib.Data.Finset.Dedup
import Mathlib.Data.Finset.Order

/-!
# Backups of a richer tier after a downgrade

Each later rollup is a turn of the ranking: a new row that ends last joins, with
the lower tier's limit, and the prune drops what is then beyond its own limit. A
richer row is safe for ever when its limit leaves room for the rows there are at
the downgrade, and for the richer ones together with as many new ones as the lower
tier retains; otherwise some number of rollups deletes it.
-/

namespace Mycelium

variable {ι β : Type} (F : Format ι β) (clone : CloneProfile)

/-- A rollup under the lower tier: what the clone's row holds by then, `now`, and what the servers
choose. -/
structure LaterRollup (β : Type) where
  row : MemoryBuffer β
  now : Int
  choice : RollupChoice

/-- A rollup of which no call fails and that backs something up, with a later `period_end` than the
clone's rows have. -/
def rollUpLater (s : Store β) (l : LaterRollup β) : Option (Store β) :=
  if ∀ b ∈ s.backupsOf clone.id, b.periodEnd < l.now then
    match rollupClone F (s.setBuffer clone.id l.row) clone l.now l.choice none with
    | some (s', .backedUp _) => some s'
    | _ => none
  else none

/-- The clone's rows that were taken under a tier that retains more than its present one. -/
def richerBackups (s : Store β) : List MemoryBackup :=
  (s.backupsOf clone.id).filter fun b =>
    (policyFor clone.subscriptionTier).retainCount < retainCount b

/-- `b`'s tier retains so many that neither the clone's rows nor the richer of them with as many
new ones as the present tier retains can outrank it, one new row added. -/
def RoomFor (s : Store β) (b : MemoryBackup) : Prop :=
  Ranking.rivals MemoryBackup.periodEnd (s.backupsOf clone.id) b + 2 ≤ retainCount b ∧
    Ranking.rivals MemoryBackup.periodEnd (richerBackups clone s) b +
      (policyFor clone.subscriptionTier).retainCount + 2 ≤ retainCount b

instance (s : Store β) (b : MemoryBackup) : Decidable (RoomFor clone s b) :=
  inferInstanceAs (Decidable (_ ∧ _))

variable {F clone} {s s' : Store β}

theorem mem_richerBackups {b : MemoryBackup} :
    b ∈ richerBackups clone s ↔ b ∈ s.backupsOf clone.id ∧
      (policyFor clone.subscriptionTier).retainCount < retainCount b := by
  simp [richerBackups]

/-- What a later rollup does to the clone's archive. -/
structure LaterStep (clone : CloneProfile) (s s' : Store β) (b : MemoryBackup)
    (ranked : List MemoryBackup) : Prop where
  turn : Ranking.Turn MemoryBackup.periodEnd retainCount (s.backupsOf clone.id) b ranked
    (s'.backupsOf clone.id)
  tier : b.subscriptionTier = clone.subscriptionTier
  distinct : (s.backups.rows.map MemoryBackup.storageKey).Nodup →
    (s'.backups.rows.map MemoryBackup.storageKey).Nodup ∧
      ∀ y ∈ s.backupsOf clone.id, y ∈ s'.backupsOf clone.id →
        s'.objects y.storageKey = s.objects y.storageKey

/-- The first half of a rollup and its prune, as a turn. -/
theorem laterStep_of_prune {committed : Store β} {now : Int} {b : MemoryBackup}
    {ranked : List MemoryBackup} (later : ∀ y ∈ s.backupsOf clone.id, y.periodEnd < now)
    (archived : ArchiveStep F s clone now committed (.backedUp b))
    (ranks : RanksByPeriodEnd (committed.backupsOf clone.id) ranked) :
    LaterStep clone s (committed.prune (staleBackups ranked)) b ranked := by
  have rows := archived.backupsOf
  have within := mem_backups_of_stale ranks
  cases archived with
  | committed buffer periodStart b backups read fresh start ofClone ends count tier inserted =>
    refine ⟨⟨fun y listed => ?_, ?_, Store.backupsOf_nodup _ _, fun y => ?_⟩, tier, fun keys => ?_⟩
    · rw [ends]
      exact later y listed
    · rw [← rows]
      exact ranks
    · rw [← rows]
      exact mem_backupsOf_prune ranks
    · have keys' : (backups.rows.map MemoryBackup.storageKey).Nodup :=
        Table.nodup_map_insert inserted keys fun _ listed => fresh.key_ne listed
      refine ⟨keys'.sublist (List.filter_sublist.map _), fun y old left => ?_⟩
      have listed := (Store.mem_backupsOf.1 old).1
      have mine : y ∈ backups := (Table.mem_of_insert inserted).2 (.inl listed)
      have undeleted := objects_prune_of_kept keys' within mine ((mem_backupsOf_prune ranks).1 left).2
      exact undeleted.trans (Store.objects_putObject_of_ne (fresh.key_ne listed) _)

theorem rollUpLater_step {l : LaterRollup β} (h : rollUpLater F clone s l = some s') :
    ∃ b ranked, LaterStep clone s s' b ranked := by
  unfold rollUpLater at h
  split at h
  · rename_i later
    split at h
    · rename_i pruned b rolled
      cases h
      rcases rollupClone_step rolled with ⟨_, other⟩ | ⟨committed, b, ok, archived, pruned, result⟩
      · exact absurd rfl (other b)
      · obtain ⟨ranks, step⟩ := pruneStaleBackups_step pruned
        have step' := laterStep_of_prune (s := s.setBuffer clone.id l.row) later
          (archiveBuffer_step archived) ranks
        cases step with
        | pruned => exact ⟨b, l.choice.ranked, step'.turn, step'.tier, step'.distinct⟩
    · cases h
  · cases h

/-! ## Every run -/

/-- The richer rows are secure, and their objects as they were. -/
structure RicherKept (clone : CloneProfile) (before s : Store β) : Prop where
  secure : Ranking.Secure MemoryBackup.periodEnd retainCount
    (policyFor clone.subscriptionTier).retainCount (richerBackups clone before)
    (s.backupsOf clone.id)
  distinct : (s.backups.rows.map MemoryBackup.storageKey).Nodup
  objects : ∀ b ∈ richerBackups clone before,
    s.objects b.storageKey = before.objects b.storageKey

theorem RicherKept.start (distinct : (s.backups.rows.map MemoryBackup.storageKey).Nodup)
    (room : ∀ b ∈ richerBackups clone s, RoomFor clone s b) : RicherKept clone s s where
  secure :=
    { nodup := s.backupsOf_nodup clone.id
      present := fun b richer => (mem_richerBackups.1 richer).1
      poor := fun b listed poorer => by
        have few := mt (fun more => mem_richerBackups.2 ⟨listed, more⟩) poorer
        omega
      room := fun b richer => (room b richer).1 }
  distinct := distinct
  objects _ _ := rfl

theorem RicherKept.step {before : Store β} {l : LaterRollup β}
    (room : ∀ b ∈ richerBackups clone before, RoomFor clone before b)
    (kept : RicherKept clone before s) (h : rollUpLater F clone s l = some s') :
    RicherKept clone before s' := by
  obtain ⟨b, ranked, later⟩ := rollUpLater_step h
  obtain ⟨distinct, objects⟩ := later.distinct kept.distinct
  have poor : retainCount b ≤ (policyFor clone.subscriptionTier).retainCount := by
    rw [retainCount, later.tier]
  have secure := kept.secure.turn (fun y richer => (room y richer).2) later.turn poor
  refine ⟨secure, distinct, fun y richer => ?_⟩
  rw [objects y (kept.secure.present y richer) (secure.present y richer)]
  exact kept.objects y richer

/-! ## Some run -/

/-- No object has a uuid from `n` on. -/
def Store.UuidsBelow (s : Store β) (n : Nat) : Prop := ∀ key, n ≤ key.uuid → s.objects key = none

/-- A later rollup may end as late as one likes, and be followed by any ranking. -/
theorem exists_rollUpLater {item : ι} {d : Datetime} {start : Int} (clone : CloneProfile)
    (s : Store β) (top : Int) (captured : F.capturedTime item = some d)
    (utc : d.astimezoneUtc = some start) (uuids : ∃ n, s.UuidsBelow n) :
    ∃ b, (∀ y ∈ s.backupsOf clone.id, y.periodEnd < b.periodEnd) ∧ top < b.periodEnd ∧
      b.subscriptionTier = clone.subscriptionTier ∧
      ∀ ranked, RanksByPeriodEnd (s.backupsOf clone.id ++ [b]) ranked →
        ∃ l s', rollUpLater F clone s l = some s' ∧ LaterStep clone s s' b ranked ∧
          ∃ n, s'.UuidsBelow n := by
  obtain ⟨n, unused⟩ := uuids
  obtain ⟨last, ends⟩ := ((s.backups.rows.map MemoryBackup.periodEnd).toFinset).exists_le
  obtain ⟨lastId, ids⟩ := ((s.backups.rows.map MemoryBackup.id).toFinset).exists_le
  obtain ⟨lastUuid, named⟩ := ((s.backups.rows.map fun b => b.storageKey.uuid).toFinset).exists_le
  simp only [List.mem_toFinset, List.mem_map, forall_exists_index, and_imp,
    forall_apply_eq_imp_iff₂] at ends ids named
  let now := max last top + 1
  let uuid := max lastUuid n + 1
  let found := s.setBuffer clone.id (F.row [item])
  have later : ∀ y ∈ s.backupsOf clone.id, y.periodEnd < now := by
    intro y listed
    have le := ends y (Store.mem_backupsOf.1 listed).1
    omega
  have read : F.readBuffer (found.buffers clone.id) = some (F.row [item], d) := by
    have own : found.buffers clone.id = some (F.row [item]) := Function.update_self ..
    have earliest : F.periodStart [item] = some d := by
      simp [Format.periodStart, captured, Datetime.earliest]
    rw [own]
    simp [Format.readBuffer, earliest]
  have fresh : found.Fresh (backupKey clone.id d (.utc now) uuid) := by
    constructor
    · change (s.objects _).isNone = true
      rw [unused _ (by change n ≤ uuid; omega)]
      rfl
    · intro used
      obtain ⟨y, listed, same⟩ := List.mem_map.1 used
      have le := named y listed
      rw [same] at le
      change uuid ≤ lastUuid at le
      omega
  have new : lastId + 1 ∉ found.backups.rows.map MemoryBackup.id := by
    intro used
    obtain ⟨y, listed, same⟩ := List.mem_map.1 used
    have le := ids y listed
    omega
  let choice : RollupChoice := ⟨uuid, lastId + 1, 0, []⟩
  obtain ⟨committed, archived⟩ := archiveBuffer_committed choice read fresh utc new
  let b : MemoryBackup := ⟨lastId + 1, clone.id, start, now, 1,
    backupKey clone.id d (.utc now) uuid, clone.subscriptionTier, 0, none⟩
  have rows : committed.backupsOf clone.id = s.backupsOf clone.id ++ [b] :=
    (archiveBuffer_step archived).backupsOf
  refine ⟨b, later, ?_, rfl, fun ranked ranks => ?_⟩
  · change top < max last top + 1
    omega
  · rw [← rows] at ranks
    have pruned : pruneStaleBackups committed clone.id ranked none =
        some (committed.prune (staleBackups ranked), true) := by
      unfold pruneStaleBackups
      rw [if_pos ranks]
    let choice' : RollupChoice := { choice with ranked := ranked }
    have archived' : archiveBuffer F found clone now choice' none =
        some (committed, .backedUp b) := archived
    have rolled : rollupClone F (s.setBuffer clone.id (F.row [item])) clone now choice' none =
        some (committed.prune (staleBackups ranked), .backedUp b) :=
      rollupClone_of_prune archived' pruned
    have step := laterStep_of_prune (s := found) later (archiveBuffer_step archived) ranks
    refine ⟨⟨F.row [item], now, choice'⟩, committed.prune (staleBackups ranked), ?_,
      ⟨step.turn, step.tier, step.distinct⟩, uuid + 1, fun key above => ?_⟩
    · unfold rollUpLater
      simp only [if_pos later, rolled]
    · have still : committed.objects key = none := by
        have archived' := archiveBuffer_step archived
        cases archived' with
        | committed buffer periodStart b backups read fresh start ofClone ends count tier inserted =>
          have apart : key ≠ b.storageKey := by
            rintro rfl
            exact absurd above (Nat.not_succ_le_self uuid)
          have old := unused key (by omega)
          exact (Store.objects_putObject_of_ne (s := s) apart _).trans old
      change (if key ∈ _ then none else committed.objects key) = none
      rw [still, ite_self]

/-- While nothing richer is lost, as many rows of the lower tier as it retains can gather above all
the rows of `before`. -/
theorem exists_crowded {item : ι} {d : Datetime} {start : Int} {before : Store β} {top : Int}
    (captured : F.capturedTime item = some d) (utc : d.astimezoneUtc = some start)
    (uuids : ∃ n, before.UuidsBelow n)
    (low : ∀ y ∈ before.backupsOf clone.id, y.periodEnd ≤ top) (n : Nat)
    (few : n ≤ (policyFor clone.subscriptionTier).retainCount) :
    ∃ ls s, Run.exec (rollUpLater F clone) before ls = some s ∧ (∃ n, s.UuidsBelow n) ∧
      Ranking.Crowded MemoryBackup.periodEnd retainCount top
        (policyFor clone.subscriptionTier).retainCount n (s.backupsOf clone.id) := by
  induction n with
  | zero =>
    refine ⟨[], before, rfl, uuids, before.backupsOf_nodup clone.id, fun y listed high => ?_, ?_⟩
    · exact absurd high (not_lt_of_ge (low y listed))
    · rw [List.countP_eq_zero]
      intro y listed
      simpa using low y listed
  | succ n ih =>
    obtain ⟨ls, s, run, uuids, crowded⟩ := ih (by omega)
    obtain ⟨b, _, above, tier, any⟩ := exists_rollUpLater clone s top captured utc uuids
    have ranks := Ranking.ranks_descending MemoryBackup.periodEnd (s.backupsOf clone.id ++ [b])
    obtain ⟨l, s', taken, later, uuids⟩ := any _ ranks
    refine ⟨ls ++ [l], s', ?_, uuids, ?_⟩
    · exact Run.exec_snoc run taken
    · refine crowded.turn (by omega) later.turn above ?_
      rw [retainCount, tier]

/-- **When a downgrade deletes nothing of a richer tier**: exactly when there is room for each of
its rows. -/
theorem richer_kept_iff_room (F : Format ι β) (item : ι) (d : Datetime) (start : Int)
    (captured : F.capturedTime item = some d) (utc : d.astimezoneUtc = some start)
    (clone : CloneProfile) (s : Store β) (uuids : ∃ n, s.UuidsBelow n)
    (distinct : (s.backups.rows.map MemoryBackup.storageKey).Nodup) :
    (∀ ls s', Run.exec (rollUpLater F clone) s ls = some s' →
        ∀ b ∈ richerBackups clone s,
          b ∈ s'.backups ∧ s'.objects b.storageKey = s.objects b.storageKey) ↔
      ∀ b ∈ richerBackups clone s, RoomFor clone s b := by
  constructor
  · intro kept b richer
    have listed := (mem_richerBackups.1 richer).1
    -- one more rollup after a run, followed by the ranking that puts `b` last among its equals
    have last : ∀ ls s₁, Run.exec (rollUpLater F clone) s ls = some s₁ →
        (∃ n, s₁.UuidsBelow n) →
        Ranking.rivals MemoryBackup.periodEnd (s₁.backupsOf clone.id) b + 2 ≤ retainCount b := by
      intro ls s₁ run uuids
      have still : b ∈ s₁.backupsOf clone.id :=
        Store.mem_backupsOf.2 ⟨(kept ls s₁ run b richer).1, (Store.mem_backupsOf.1 listed).2⟩
      by_contra crowded
      obtain ⟨new, newest, _, _, any⟩ := exists_rollUpLater clone s₁ 0 captured utc uuids
      have apart : new ≠ b := by
        rintro rfl
        exact lt_irrefl _ (newest new still)
      have nodup : (s₁.backupsOf clone.id ++ [new]).Nodup := by
        rw [List.nodup_append']
        refine ⟨s₁.backupsOf_nodup clone.id, List.nodup_singleton new, fun y old same => ?_⟩
        rw [List.mem_singleton.1 same] at old
        exact lt_irrefl _ (newest new old)
      have many : retainCount b ≤
          Ranking.rivals MemoryBackup.periodEnd (s₁.backupsOf clone.id ++ [new]) b := by
        rw [Ranking.rivals_append (newest b still).le apart]
        omega
      obtain ⟨ranked, ranks, stale⟩ :=
        Ranking.exists_beyond_of_rivals nodup (List.mem_append_left _ still) many
      obtain ⟨l, s₂, taken, later, _⟩ := any ranked ranks
      have left := (kept _ s₂ (Run.exec_snoc run taken) b richer).1
      have mine := Store.mem_backupsOf.2 ⟨left, (Store.mem_backupsOf.1 listed).2⟩
      exact ((later.turn.left b).1 mine).2 stale
    refine ⟨last [] s rfl uuids, ?_⟩
    obtain ⟨top, high⟩ := (((s.backupsOf clone.id).map MemoryBackup.periodEnd).toFinset).exists_le
    have low : ∀ y ∈ s.backupsOf clone.id, y.periodEnd ≤ top :=
      fun y listed => high _ (by simpa using ⟨y, listed, rfl⟩)
    obtain ⟨ls, s₁, run, uuids₁, crowded⟩ :=
      exists_crowded captured utc uuids low (policyFor clone.subscriptionTier).retainCount le_rfl
    have present : ∀ y ∈ richerBackups clone s, y ∈ s₁.backupsOf clone.id := by
      intro y rich
      have ofClone := (Store.mem_backupsOf.1 (mem_richerBackups.1 rich).1).2
      exact Store.mem_backupsOf.2 ⟨(kept ls s₁ run y rich).1, ofClone⟩
    have nodup : (richerBackups clone s).Nodup := (s.backupsOf_nodup clone.id).filter _
    have gathered := crowded.rivals_le nodup present
      (fun y rich => low y (mem_richerBackups.1 rich).1) richer
    have enough := last ls s₁ run uuids₁
    omega
  · intro room ls s' run b richer
    have kept := Run.invariant (I := RicherKept clone s)
      (fun s₁ l s₂ inv taken => inv.step room taken) (RicherKept.start distinct room) run
    exact ⟨(Store.mem_backupsOf.1 (kept.secure.present b richer)).1, kept.objects b richer⟩

/-- A clone that has been put on the free tier. -/
def downgraded : CloneProfile := ⟨1, "alpha", activeStatus, .free, some 1, 0⟩

/-- Backups of it under a richer tier, the oldest first. -/
def backupsUnder (tier : SubscriptionTier) (ends : List Nat) : List MemoryBackup :=
  ends.map fun n => backupAt n 1 n tier

/-- Three backups of the premium tier, as in the repository's test. -/
def threePremium : Store (List MemoryItem) :=
  { Store.empty with
    backups := ⟨backupsUnder .premium [1, 2, 3], by decide⟩
    objects := fun key => if key.uuid < 4 then some [] else none }

theorem premium_kept_of_downgrade :
    (richerBackups downgraded threePremium).length = 3 ∧
      ∀ ls s', Run.exec (rollUpLater Api.sample.toFormat downgraded) threePremium ls = some s' →
        ∀ b ∈ richerBackups downgraded threePremium,
          b ∈ s'.backups ∧ s'.objects b.storageKey = threePremium.objects b.storageKey := by
  refine ⟨by decide, ?_⟩
  have unused : threePremium.UuidsBelow 4 := fun key above => if_neg (Nat.not_lt_of_le above)
  have room : ∀ b ∈ richerBackups downgraded threePremium, RoomFor downgraded threePremium b := by
    decide
  exact (richer_kept_iff_room Api.sample.toFormat ⟨"m", "2026-01-01T00:00:00+00:00"⟩
    ⟨63902822400000000, some 0⟩ 63902822400000000 rfl rfl downgraded threePremium ⟨4, unused⟩
    (by decide)).2 room

/-- As many backups of the standard tier as it retains. -/
def fullStandard : Store (List MemoryItem) :=
  { Store.empty with
    backups := ⟨backupsUnder .standard [1, 2, 3, 4], by decide⟩
    objects := fun key => if key.uuid < 5 then some [] else none }

/-- The first rollup on the free tier. -/
def firstFree : LaterRollup (List MemoryItem) :=
  ⟨⟨[⟨"m", "2026-01-01T00:00:00+00:00"⟩], 1⟩, 5, ⟨5, 5, 5,
    ⟨5, 1, 63902822400000000, 5, 1, ⟨1, 63902822400, 0, 5⟩, .free, 5, none⟩ ::
      backupsUnder .standard [4, 3, 2, 1]⟩⟩

theorem standard_lost_of_downgrade :
    ∃ s', Run.exec (rollUpLater Api.sample.toFormat downgraded) fullStandard [firstFree] = some s' ∧
      backupAt 1 1 1 .standard ∈ richerBackups downgraded fullStandard ∧
      backupAt 1 1 1 .standard ∉ s'.backups.rows ∧
      s'.objects (backupAt 1 1 1 .standard).storageKey = none :=
  ⟨_, rfl, by decide, by decide, by decide⟩

end Mycelium
