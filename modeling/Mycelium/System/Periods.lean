import Mycelium.System.Timed
import Mycelium.Worker.Periods

/-!
# When a backup's period covers its contents

An entry is captured before it is appended, and appended before it is flushed, so
what a flush has put into the row by some moment was captured by then. A rollup
commits what it finds in the row some time after the clock reading it was given:
the entries in question are the ones flushed in between. The period of every
backup covers its contents exactly when none of those was captured after the
reading.
-/

namespace Mycelium

variable {ι β : Type}

/-- The contents a flush has read from the row and may write back. -/
def Worker.existing (w : Worker ι β) : Option (List ι) :=
  match w.job with
  | .flush _ (.locked _ _ existing) => some existing
  | .flush _ (.committed _ existing) => some existing
  | .flush _ (.reverting _ existing) => some existing
  | _ => none

def MemoryState.existing (s : MemoryState ι β) (t : Nat) : Option (List ι) :=
  (s.workers t).bind Worker.existing

/-- `x` has been flushed into the row of clone `c` at some time. -/
def TimedState.Flushed (s : TimedState ι β) (c : Nat) (x : ι) : Prop :=
  ∃ batch ∈ s.flushed c, x ∈ batch.2

variable (S : Service ι β)

/-- No entry of a listed backup's payload was captured outside its period. -/
def Service.PeriodsCover (w : World ι β) : Prop :=
  ∀ c, ∀ b ∈ (w c).backups, ∀ raw, w.object b.storageKey = some raw →
    ∃ items, S.decodePayload raw = some items ∧
      ∀ x ∈ items, ∃ d, S.capturedTime x = some d ∧ b.periodStart ≤ d.instant ∧
        d.instant ≤ b.periodEnd

/-- An entry is appended no earlier than it was captured. -/
def Service.CapturedBeforeAppend (s : TimedState ι β) (a : TimedAction β) : Prop :=
  match a with
  | .call _ x => ∀ e ∈ x.appends, S.CapturedBy s.clock (S.newItem e)
  | _ => True

instance (s : TimedState ι β) (a : TimedAction β) : Decidable (S.CapturedBeforeAppend s a) := by
  unfold Service.CapturedBeforeAppend
  split <;> infer_instance

/-- A rollup's commit archives no entry that was captured after its clock reading, at the start of
its pass or of its forced call, and flushed since. -/
def Service.LateFlushesFit (s : TimedState ι β) (a : TimedAction β) : Prop :=
  match a with
  | .call c x => ∀ t ∈ x.commitsBackup, ∀ y ∈ (s.world c).archivingAt t,
      ∀ batch ∈ s.flushed c, s.reading c t < batch.1 → ∀ item ∈ batch.2, item ∈ y.2 →
        S.CapturedBy (s.reading c t) item
  | _ => True

instance [DecidableEq ι] (s : TimedState ι β) (a : TimedAction β) :
    Decidable (S.LateFlushesFit s a) := by
  unfold Service.LateFlushesFit
  split <;> infer_instance

variable {S} {s s' : MemoryState ι β}

/-! ## What flushes and rollups hold -/

variable [DecidableEq β] {a : Action β}

omit [DecidableEq β] in
theorem Worker.existing_next (w : Worker ι β) : w.next.bind Worker.existing = none := by
  cases found : w.next with
  | none => rfl
  | some w' =>
    obtain ⟨again, rfl⟩ := Worker.next_eq found
    rfl

omit [DecidableEq β] in
/-- What flushes hold after the slot of `t` became `x`. -/
theorem existing_of_slot {t : Nat} {x : Option (Worker ι β)}
    (workers : s'.workers = Function.update s.workers t x)
    (held : ∀ l, x.bind Worker.existing = some l → s.existing t = some l ∨ l = S.rowPayload s)
    (t' : Nat) (l : List ι) (now : s'.existing t' = some l) :
    s.existing t' = some l ∨ l = S.rowPayload s := by
  rw [MemoryState.existing, workers] at now
  by_cases same : t' = t
  · subst same
    rw [Function.update_self] at now
    exact held l now
  · rw [Function.update_of_ne same] at now
    exact .inl now

/-- A flush's contents were the row's when it read them. -/
theorem existing_step (base : Base S s) (h : step S s a = some s') :
    ∀ t l, s'.existing t = some l → s.existing t = some l ∨ l = S.rowPayload s := by
  cases step_sound h with
  | append fresh => exact fun _ _ => .inl
  | spawn free starts =>
    refine existing_of_slot rfl fun l now => ?_
    cases a <;> simp only [Action.spawns, reduceCtorEq, Option.some.injEq, Prod.mk.injEq] at starts
      <;> obtain ⟨rfl, rfl⟩ := starts <;> cases now
  | lockRow here present free decoded =>
    refine existing_of_slot rfl fun l now => .inr ?_
    cases now
    exact (rowPayload_some present (base.decoded present decoded)).symm
  | lockMissing here missing =>
    refine existing_of_slot rfl fun l now => .inr ?_
    cases now
    exact (rowPayload_none missing).symm
  | commitUpdate here present | commitInsert here present =>
    refine existing_of_slot rfl fun l now => .inl ?_
    rwa [MemoryState.existing, here]
  | trimUnanswered here | failTrim here =>
    refine existing_of_slot rfl fun l now => .inl ?_
    rwa [MemoryState.existing, here]
  | die here =>
    refine existing_of_slot rfl fun l now => .inl ?_
    rwa [MemoryState.existing, here]
  | ends here quit | fail here quit | trim here | revert here | revertGone here | commitPrune here
  | commitCopy here =>
    refine existing_of_slot rfl fun l now => ?_
    rw [Worker.existing_next] at now
    cases now
  | _ =>
    refine existing_of_slot rfl fun l now => ?_
    cases now

omit [DecidableEq β] in
/-- What a revert writes back is what its flush holds. -/
theorem existing_of_reverting {t : Nat} {l : List ι} (h : s.reverting t = some l) :
    s.existing t = some l := by
  unfold MemoryState.reverting at h
  split at h
  · rename_i here present
    cases h
    rw [MemoryState.existing, here]
    rfl
  · cases h

/-- A commit that takes place inserts a row for the object uploaded before, which is still there. -/
theorem commit_inserts (uploads : Uploads s) {t id : Nat} {createdAt now : Int} {payload : List ι}
    (h : step S s (.commitBackup t id createdAt) = some s')
    (committed : s.archivingAt t = some (now, payload)) :
    ∃ tier n buffer periodStart key, ∃ backup ∈ s'.backups, ∃ raw,
      s.workers t = some ⟨.rollup tier now (.uploaded buffer payload periodStart key), true, n⟩ ∧
        backup.storageKey = key ∧ backup.periodEnd = now ∧ s.objects key = some raw ∧
          s'.objects = s.objects := by
  unfold MemoryState.archivingAt at committed
  split at committed
  · rename_i here
    obtain ⟨start, utc, same⟩ := Option.map_eq_some_iff.1 committed
    cases same
    obtain ⟨raw, stored⟩ := Option.isSome_iff_exists.1
      (uploads.waiting t _ (MemoryState.uploaded_here here)).stored
    simp only [step, Action.worker, MemoryState.running_iff.2 ⟨here, rfl⟩, rollupStep, utc] at h
    split at h
    · cases h
    · split at h
      · cases h
        exact ⟨_, _, _, _, _, _, List.mem_append_right _ List.mem_cons_self, raw, here, rfl, rfl,
          stored, rfl⟩
      · cases h
  · cases committed

/-! ## The flush history -/

section History

omit [DecidableEq β]

variable {s : TimedState ι β} {c c' : Nat} {batch : Int × List ι}

theorem record_of_commit {t : Nat} {entries : List StreamEntry}
    (commits : (s.world c).committing t = some entries) :
    (s.clock, S.newItems entries) ∈ s.record S c (.commitBuffer t) c := by
  simp [TimedState.record, Action.commitsBuffer, commits]

theorem mem_record (a : Action β) (member : batch ∈ s.flushed c') :
    batch ∈ s.record S c a c' := by
  unfold TimedState.record
  cases a.commitsBuffer.bind (s.world c).committing with
  | none => exact member
  | some entries =>
    by_cases same : c' = c
    · subst same
      simp [member]
    · simpa [same] using member

theorem of_mem_record {a : Action β} (member : batch ∈ s.record S c a c') :
    batch ∈ s.flushed c' ∨ c' = c ∧ ∃ t entries, (s.world c).committing t = some entries ∧
      batch = (s.clock, S.newItems entries) := by
  unfold TimedState.record at member
  cases found : a.commitsBuffer.bind (s.world c).committing with
  | none =>
    rw [found] at member
    exact .inl member
  | some entries =>
    rw [found] at member
    obtain ⟨t, _, commits⟩ := Option.bind_eq_some_iff.1 found
    by_cases same : c' = c
    · subst same
      have member : batch ∈ s.flushed c' ∨ batch = (s.clock, S.newItems entries) := by
        simpa using member
      exact member.imp_right fun new => ⟨rfl, t, entries, commits, new⟩
    · exact .inl (by simpa [same] using member)

end History

/-! ## The invariant -/

variable (S) in
structure PeriodsOk (s : TimedState ι β) : Prop where
  world : WorldOk S s.world
  uploads : ∀ c, Uploads (s.world c)
  ends : EndsOk S s.world
  accepted : ∀ c, ∀ e ∈ (s.world c).accepted, S.CapturedBy s.clock (S.newItem e)
  batches : ∀ c, ∀ batch ∈ s.flushed c, ∀ x ∈ batch.2, S.CapturedBy batch.1 x
  row : ∀ c, ∀ x ∈ S.rowPayload (s.world c), s.Flushed c x
  existing : ∀ c t l, (s.world c).existing t = some l → ∀ x ∈ l, s.Flushed c x
  snapshot : ∀ c t p, (s.world c).snapshot t = some p → ∀ x ∈ p, s.Flushed c x

omit [DecidableEq β] in
theorem PeriodsOk.start (profiles : Table CloneProfile CloneProfile.id) (clock : Int) :
    PeriodsOk S (TimedState.start profiles clock) where
  world := .initial
  uploads _ := .initial
  ends := .initial
  accepted _ := by simp [TimedState.start, World.initial, MemoryState.initial]
  batches _ := by simp [TimedState.start]
  row _ x inside := by
    rw [show S.rowPayload _ = [] from rowPayload_none rfl] at inside
    cases inside
  existing _ _ _ held := by cases held
  snapshot _ _ _ held := by cases held

variable {s s' : TimedState ι β}

omit [DecidableEq β] in
/-- A step that touches no lane. -/
theorem PeriodsOk.still (ok : PeriodsOk S s) (world : s'.world = s.world)
    (flushed : s'.flushed = s.flushed) (clock : s.clock ≤ s'.clock) : PeriodsOk S s' := by
  have same : ∀ c x, s.Flushed c x → s'.Flushed c x := by
    intro c x
    rw [TimedState.Flushed, TimedState.Flushed, flushed]
    exact id
  constructor
  · rw [world]; exact ok.world
  · rw [world]; exact ok.uploads
  · rw [world]; exact ok.ends
  · rw [world]; exact fun c e member => (ok.accepted c e member).mono clock
  · rw [flushed]; exact ok.batches
  · rw [world]; exact fun c x inside => same c x (ok.row c x inside)
  · rw [world]; exact fun c t l held x inside => same c x (ok.existing c t l held x inside)
  · rw [world]; exact fun c t p held x inside => same c x (ok.snapshot c t p held x inside)

omit [DecidableEq β] in
/-- What was flushed into a lane is still recorded after a step there. -/
theorem record_kept {c : Nat} (a : Action β) (c' : Nat) (x : ι) (flushed : s.Flushed c' x) :
    ∃ batch ∈ s.record S c a c', x ∈ batch.2 := by
  obtain ⟨batch, member, inside⟩ := flushed
  exact ⟨batch, mem_record a member, inside⟩

/-- The row holds what it held, a batch just committed, or what a flush had read from it. -/
theorem PeriodsOk.row_step (ok : PeriodsOk S s) {c : Nat} {a : Action β} {lane : MemoryState ι β}
    (moved : Mycelium.step (S.at c) (s.world c) a = some lane) :
    ∀ x ∈ S.rowPayload lane, ∃ batch ∈ s.record S c a c, x ∈ batch.2 := by
  intro x inside
  change x ∈ (S.at c).rowPayload lane at inside
  cases (ok.world.base c).effect moved with
  | quiet same =>
    rw [same.row] at inside
    exact record_kept _ c x (ok.row c x inside)
  | append e past accepted live same =>
    rw [same] at inside
    exact record_kept _ c x (ok.row c x inside)
  | flush t entries seen batch before accepted live appended =>
    rw [appended] at inside
    rcases List.mem_append.1 inside with old | new
    · exact record_kept _ c x (ok.row c x old)
    · exact ⟨_, record_of_commit batch, new⟩
  | trim t entries seen label batch accepted stream same =>
    rw [same] at inside
    exact record_kept _ c x (ok.row c x inside)
  | giveUp t entries batch same =>
    rw [same.row] at inside
    exact record_kept _ c x (ok.row c x inside)
  | revert t existing kept accepted live back =>
    rw [back] at inside
    exact record_kept _ c x (ok.existing c t existing (existing_of_reverting kept) x inside)
  | archive t id createdAt payload snapshot nonempty accepted live gone =>
    rw [gone] at inside
    cases inside

/-- A step in the lane of `c`. -/
theorem PeriodsOk.call (ok : PeriodsOk S s) {c : Nat} {a : Action β} {world : World ι β}
    {passes : Nat → Option RunningPass} {reading : Nat → Nat → Int}
    (taken : s.world.step S (c, a) = some world)
    (captured : ∀ e ∈ a.appends, S.CapturedBy s.clock (S.newItem e))
    (fits : ∀ t, a.commitsBackup = some t → ∀ y ∈ (s.world c).archivingAt t, ∀ x ∈ y.2,
      S.CapturedBy y.1 x) :
    PeriodsOk S { s with
      world := world, passes := passes, flushed := s.record S c a, reading := reading } := by
  have known := ok.world.preserved taken
  have ends := ok.ends.preserved ok.world taken fits
  obtain ⟨-, lane, moved, rfl⟩ := World.step_eq taken
  have base := ok.world.base c
  have row := ok.row_step moved
  have still := record_kept (S := S) (s := s) (c := c) a
  refine ⟨known, ?_, ends, ?_, ?_, ?_, ?_, ?_⟩
  · exact (Function.forall_update_iff s.world fun _ => Uploads).2
      ⟨(ok.uploads c).preserved moved, fun c' _ => ok.uploads c'⟩
  · refine (Function.forall_update_iff s.world fun _ lane =>
      ∀ e ∈ lane.accepted, S.CapturedBy s.clock (S.newItem e)).2 ⟨?_, fun c' _ => ok.accepted c'⟩
    intro e member
    rw [accepted_step moved] at member
    rcases List.mem_append.1 member with old | new
    · exact ok.accepted c e old
    · exact captured e (Option.mem_toList.1 new)
  · intro c' batch member
    rcases of_mem_record member with old | ⟨rfl, t, entries, commits, rfl⟩
    · exact ok.batches c' batch old
    · intro x inside
      obtain ⟨e, read, rfl⟩ := List.mem_map.1 inside
      exact ok.accepted c' e ((base.seen_committing commits).subset read)
  · exact (Function.forall_update_iff s.world fun c' lane =>
      ∀ x ∈ S.rowPayload lane, ∃ batch ∈ s.record S c a c', x ∈ batch.2).2
      ⟨row, fun c' _ x inside => still c' x (ok.row c' x inside)⟩
  · refine (Function.forall_update_iff s.world fun c' lane => ∀ t l, lane.existing t = some l →
      ∀ x ∈ l, ∃ batch ∈ s.record S c a c', x ∈ batch.2).2
      ⟨?_, fun c' _ t l held x inside => still c' x (ok.existing c' t l held x inside)⟩
    intro t l held x inside
    rcases existing_step base moved t l held with before | rfl
    · exact still c x (ok.existing c t l before x inside)
    · exact still c x (ok.row c x inside)
  · refine (Function.forall_update_iff s.world fun c' lane => ∀ t p, lane.snapshot t = some p →
      ∀ x ∈ p, ∃ batch ∈ s.record S c a c', x ∈ batch.2).2
      ⟨?_, fun c' _ t p held x inside => still c' x (ok.snapshot c' t p held x inside)⟩
    intro t p held x inside
    rcases (base.holdings moved).snapshot t p held with before | ⟨rfl, -⟩
    · exact still c x (ok.snapshot c t p before x inside)
    · exact row x inside

omit [DecidableEq β] in
/-- **The invariant is enough**: the period of every listed backup covers its contents. -/
theorem PeriodsOk.covers (ok : PeriodsOk S s) : S.PeriodsCover s.world := by
  intro c b listed raw held
  obtain ⟨-, used, describes⟩ := ok.world.rows c b listed
  rw [ok.world.object_eq used] at held
  obtain ⟨items, rfl, -, -, earliest⟩ := describes raw held
  obtain ⟨items', same, captured⟩ := (ok.ends.rows c b listed).2 _ held
  obtain rfl := S.encode_injective same
  refine ⟨items, S.decode_encode items, fun x inside => ?_⟩
  obtain ⟨d, parsed, least⟩ := earliest.least x inside
  exact ⟨d, parsed, least, captured x inside d parsed⟩

omit [DecidableEq β] in
theorem rollsUpAt_of_archiving {lane : MemoryState ι β} {t : Nat} {y : Int × List ι}
    (committed : lane.archivingAt t = some y) : lane.rollsUpAt t = some y.1 := by
  unfold MemoryState.archivingAt at committed
  split at committed
  · rename_i here
    obtain ⟨_, _, rfl⟩ := Option.map_eq_some_iff.1 committed
    rw [MemoryState.rollsUpAt, here]
    rfl
  · cases committed

omit [DecidableEq β] in
/-- Of what a rollup commits, only what was flushed after its reading can have been captured later. -/
theorem PeriodsOk.fits (ok : PeriodsOk S s) (readings : ReadingsOk s) {c : Nat}
    (fit : S.LateFlushesFit s (.call c a)) (t : Nat) (commits : a.commitsBackup = some t)
    (y : Int × List ι) (committed : y ∈ (s.world c).archivingAt t) (x : ι) (inside : x ∈ y.2) :
    S.CapturedBy y.1 x := by
  have reading : s.reading c t = y.1 := readings.workers c t _ (rollsUpAt_of_archiving committed)
  have held : (s.world c).snapshot t = some y.2 := by
    unfold MemoryState.archivingAt at committed
    split at committed
    · rename_i here
      obtain ⟨_, _, rfl⟩ := Option.map_eq_some_iff.1 committed
      rw [MemoryState.snapshot, here]
      rfl
    · cases committed
  obtain ⟨batch, member, flushed⟩ := ok.snapshot c t y.2 held x inside
  by_cases late : y.1 < batch.1
  · rw [← reading] at late ⊢
    exact fit t commits y committed batch member late x flushed inside
  · exact (ok.batches c batch member x flushed).mono (Int.not_lt.1 late)

/-- A step that respects both conditions. -/
theorem PeriodsOk.preserved {override : Option Int} {a : TimedAction β} (ok : PeriodsOk S s)
    (readings : ReadingsOk s) (captured : S.CapturedBeforeAppend s a)
    (h : s.step S override a = some s') (fit : S.LateFlushesFit s a) : PeriodsOk S s' := by
  cases TimedState.step_sound h with
  | still _ world flushed clock => exact ok.still world flushed clock
  | call c x world passes reading label taken =>
    rcases label with rfl | starts
    · exact ok.call taken captured (ok.fits readings fit)
    · cases x <;> cases starts
      exact ok.call taken nofun nofun

/-- A rollup whose commit keeps the periods right has respected the condition. -/
theorem PeriodsOk.fit_of_covers {override : Option Int} {a : TimedAction β} (ok : PeriodsOk S s)
    (readings : ReadingsOk s) (h : s.step S override a = some s') (cover : S.PeriodsCover s'.world) :
    S.LateFlushesFit s a := by
  cases a with
  | call c x =>
    intro t commits y committed batch _ _ item _ inside
    cases x <;> cases commits
    have reading : s.reading c t = y.1 := readings.workers c t _ (rollsUpAt_of_archiving committed)
    rw [reading]
    obtain ⟨world, taken, rfl⟩ := TimedState.call_eq h
    have known := ok.world.preserved taken
    obtain ⟨-, lane, moved, rfl⟩ := World.step_eq taken
    obtain ⟨tier, n, buffer, periodStart, key, backup, listed, raw, here, rfl, ends, stored, objects⟩ :=
      commit_inserts (ok.uploads c) moved committed
    have holds : (s.world c).Holds backup.storageKey buffer.payloadBlob := ok.world.workers c t _ here
    have snapshot : (S.at c).Snapshot buffer y.2 periodStart := (ok.world.base c).workers t _ here
    have encodes : raw = S.encodePayload y.2 := by
      rw [holds.2 raw stored, snapshot.row]
      rfl
    have listed' : backup ∈ (Function.update s.world c lane c).backups := by
      rwa [Function.update_self]
    have held : World.object (Function.update s.world c lane) backup.storageKey = some raw := by
      rw [known.object_eq (known.rows c backup listed').2.1, Function.update_self, objects, stored]
    obtain ⟨items, decoded, within⟩ := cover c backup listed' raw held
    rw [encodes, S.decode_encode] at decoded
    obtain rfl := Option.some.inj decoded
    intro d parsed
    obtain ⟨d', parsed', -, upper⟩ := within item inside
    obtain rfl := Option.some.inj (parsed.symm.trans parsed')
    rwa [ends] at upper
  | _ => trivial

/-- **Periods cover their contents exactly when late flushes fit.** -/
theorem periods_cover_iff_late_flushes_fit (S : Service ι β) (override : Option Int)
    (profiles : Table CloneProfile CloneProfile.id) (clock : Int) (as : List (TimedAction β))
    (captured : Run.Guarded (TimedState.step S override) S.CapturedBeforeAppend
      (.start profiles clock) as) :
    Run.Throughout (TimedState.step S override) (fun s => S.PeriodsCover s.world)
        (.start profiles clock) as ↔
      Run.Guarded (TimedState.step S override) S.LateFlushesFit (.start profiles clock) as :=
  Run.throughout_iff_guarded (I := fun s => PeriodsOk S s ∧ ReadingsOk s)
    (fun _ ok => ok.1.covers)
    (fun _ _ _ ok captured h fit => ⟨ok.1.preserved ok.2 captured h fit, ok.2.preserved h⟩)
    (fun _ _ _ ok _ h cover => ok.1.fit_of_covers ok.2 h cover)
    ⟨.start profiles clock, .start profiles clock⟩ captured

/-- Two clones whose first backups are due. -/
def dueProfiles : Table CloneProfile CloneProfile.id where
  rows := [⟨1, "one", activeStatus, .free, none, 0⟩, ⟨2, "two", activeStatus, .free, none, 0⟩]
  nodup := by decide

/-- Clone 2 writes an entry and it is flushed. -/
def writeAndFlush : List (TimedAction (List MemoryItem)) :=
  [.call 2 (.append "a" "2026-01-01T00:00:00+00:00" ⟨1, 0⟩ false), .call 2 (.startFlush 0 0),
    .call 2 (.readAll 0), .call 2 (.lockRow 0), .call 2 (.commitBuffer 0), .call 2 (.trim 0)]

/-- A pass takes up clone 1, which has nothing buffered. -/
def passUpToSecond : List (TimedAction (List MemoryItem)) :=
  [.startPass 0 dueProfiles.rows, .nextClone 0 1, .call 1 (.readBuffer 1), .cloneDone 0]

/-- The pass goes on to clone 2 and commits its backup. -/
def passSecond : List (TimedAction (List MemoryItem)) :=
  [.nextClone 0 1, .call 2 (.readBuffer 1), .call 2 (.putObject 1 0), .call 2 (.commitBackup 1 1 0)]

theorem periods_cover_of_flush_then_pass :
    Run.Throughout (TimedState.step (.sample .approximate) none)
      (fun s => (Service.sample .approximate).PeriodsCover s.world)
      (.start dueProfiles 63902822400000000) (writeAndFlush ++ passUpToSecond ++ passSecond) :=
  (periods_cover_iff_late_flushes_fit _ none dueProfiles 63902822400000000 _ (by decide)).2
    (by decide)

/-- An entry written and flushed while a pass works on clone 1 is later than the `period_end` of the
backup it goes into, and so is the backup's own `period_start`. -/
theorem period_ends_before_entry_of_flush_inside_pass :
    let run := passUpToSecond ++ .tick 63902822400000000 :: writeAndFlush ++ passSecond
    Run.Guarded (TimedState.step (.sample .approximate) none)
        (Service.sample .approximate).CapturedBeforeAppend
        (.start dueProfiles 63902822399999999) run ∧
      ∃ s, Run.exec (TimedState.step (.sample .approximate) none)
          (.start dueProfiles 63902822399999999) run = some s ∧
        (∃ b ∈ (s.world 2).backups, b.periodEnd < b.periodStart) ∧
        ¬ (Service.sample .approximate).PeriodsCover s.world := by
  refine ⟨by decide, _, rfl, by decide, fun cover => ?_⟩
  obtain ⟨items, decoded, within⟩ := cover 2
    ⟨1, 2, 63902822400000000, 63902822399999999, 1, ⟨2, 63902822400, 63902822399, 0⟩, .free, 0, none⟩
    (by decide) [⟨"a", "2026-01-01T00:00:00+00:00"⟩] (by decide)
  cases decoded
  obtain ⟨d, parsed, -, upper⟩ := within _ List.mem_cons_self
  cases parsed
  exact absurd upper (by decide)

end Mycelium
