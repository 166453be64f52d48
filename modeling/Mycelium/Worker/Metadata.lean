import Mycelium.Worker.World

/-!
# What backups and their objects say

A key is fresh when it is first used, so an object is written once and then only
deleted: whatever a key in use holds later, it held before (`Grows`). The
metadata of a row is computed together with the bytes that are uploaded, and a
copy takes over both, so a row describes its object for as long as the object
exists, however stale the worker's snapshot was.
-/

namespace Mycelium

variable {ι β : Type}

/-- Keys stay in use, and what a key in use holds it held before. -/
structure Grows (s s' : MemoryState ι β) : Prop where
  keys : ∀ k ∈ s.keys, k ∈ s'.keys
  objects : ∀ k ∈ s.keys, ∀ raw, s'.objects k = some raw → s.objects k = some raw

theorem Grows.of_same {s s' : MemoryState ι β} (keys : s'.keys = s.keys)
    (objects : s'.objects = s.objects) : Grows s s' :=
  ⟨by rw [keys]; exact fun _ h => h, by rw [objects]; exact fun _ _ _ h => h⟩

theorem Grows.put {s s' : MemoryState ι β} {key : ObjectKey} {data : β} (fresh : key ∉ s.keys)
    (keys : s'.keys = key :: s.keys)
    (objects : s'.objects = Function.update s.objects key (some data)) : Grows s s' := by
  refine ⟨by rw [keys]; exact fun _ h => List.mem_cons_of_mem _ h, fun k used raw held => ?_⟩
  have other : k ≠ key := by
    rintro rfl
    exact fresh used
  rwa [objects, Function.update_of_ne other] at held

theorem Grows.delete {s s' : MemoryState ι β} {key : ObjectKey} (keys : s'.keys = s.keys)
    (objects : s'.objects = Function.update s.objects key none) : Grows s s' := by
  refine ⟨by rw [keys]; exact fun _ h => h, fun k _ raw held => ?_⟩
  rw [objects] at held
  by_cases same : k = key
  · subst same
    rw [Function.update_self] at held
    cases held
  · rwa [Function.update_of_ne same] at held

/-- Every step lets the objects grow. -/
theorem Step.grows [DecidableEq β] {S : Service ι β} {s s' : MemoryState ι β} {a : Action β}
    (step : Step S s a s') : Grows s s' := by
  cases step with
  | putObject here named fresh => exact .put fresh rfl rfl
  | putCopy here named fresh => exact .put fresh rfl rfl
  | deleteObject here => exact .delete rfl rfl
  | _ => exact .of_same rfl rfl

/-- The key holds `raw`, or nothing any more. -/
def MemoryState.Holds (s : MemoryState ι β) (key : ObjectKey) (raw : β) : Prop :=
  key ∈ s.keys ∧ ∀ raw', s.objects key = some raw' → raw' = raw

theorem MemoryState.Holds.later {s s' : MemoryState ι β} {key : ObjectKey} {raw : β}
    (holds : s.Holds key raw) (grows : Grows s s') : s'.Holds key raw :=
  ⟨grows.keys key holds.1, fun raw' held => holds.2 raw' (grows.objects key holds.1 raw' held)⟩

/-- An upload under a fresh key. -/
theorem MemoryState.Holds.of_put {s s' : MemoryState ι β} {key : ObjectKey} {data : β}
    (keys : s'.keys = key :: s.keys)
    (objects : s'.objects = Function.update s.objects key (some data)) : s'.Holds key data := by
  refine ⟨by rw [keys]; exact List.mem_cons_self, fun raw held => ?_⟩
  rw [objects, Function.update_self] at held
  exact (Option.some.inj held).symm

variable (S : Service ι β)

/-- The row's metadata are those of the payload that `raw` encodes. -/
def Service.Describes (b : MemoryBackup) (raw : β) : Prop :=
  ∃ items, raw = S.encodePayload items ∧ items ≠ [] ∧ items.length = b.entryCount ∧
    S.Earliest items b.periodStart

/-- The row describes its object for as long as it exists. -/
def Service.Vouches (s : MemoryState ι β) (b : MemoryBackup) : Prop :=
  b.storageKey ∈ s.keys ∧ ∀ raw, s.objects b.storageKey = some raw → S.Describes b raw

variable {S}

theorem Service.Vouches.later {s s' : MemoryState ι β} {b : MemoryBackup} (vouches : S.Vouches s b)
    (grows : Grows s s') : S.Vouches s' b :=
  ⟨grows.keys _ vouches.1, fun raw held => vouches.2 raw (grows.objects _ vouches.1 raw held)⟩

theorem MemoryState.Holds.vouches {s : MemoryState ι β} {b : MemoryBackup} {raw : β}
    (holds : s.Holds b.storageKey raw) (describes : S.Describes b raw) : S.Vouches s b :=
  ⟨holds.1, fun raw' held => by rw [holds.2 raw' held]; exact describes⟩

variable (S)

/-- What a worker of clone `c` knows of the objects it has read or written. -/
def Service.WorkerKnows (w : World ι β) (c : Nat) (x : Worker ι β) : Prop :=
  match x.job with
  | .rollup _ _ (.uploaded buffer _ _ key) => (w c).Holds key buffer.payloadBlob
  | .resurrect _ latest .selected => latest.cloneId ≠ c ∧ S.Vouches (w latest.cloneId) latest
  | .resurrect _ latest (.fetched raw) =>
    latest.cloneId ≠ c ∧ S.Describes latest raw ∧ (w latest.cloneId).Holds latest.storageKey raw
  | .resurrect _ latest (.copied raw key) =>
    latest.cloneId ≠ c ∧ S.Describes latest raw ∧
      (w latest.cloneId).Holds latest.storageKey raw ∧ (w c).Holds key raw
  | _ => True

/-- A resurrection: the source's row, the clone's new one, and the bytes both objects hold. -/
structure CopyOk (w : World ι β) (c : Nat) (latest resurrected : MemoryBackup) (raw : β) : Prop where
  apart : latest.cloneId ≠ c
  source : (w latest.cloneId).Holds latest.storageKey raw
  copy : (w c).Holds resurrected.storageKey raw

structure WorldOk (w : World ι β) : Prop where
  base : ∀ c, Base (S.at c) (w c)
  named : ∀ c, ∀ key ∈ (w c).keys, key.cloneId = c
  rows : ∀ c, ∀ b ∈ (w c).backups, b.cloneId = c ∧ S.Vouches (w c) b
  workers : ∀ c t x, (w c).workers t = some x → S.WorkerKnows w c x
  copies : ∀ c, ∀ y ∈ (w c).copies, CopyOk w c y.1 y.2.1 y.2.2

variable {S} {w w' : World ι β} {c t : Nat} {s : MemoryState ι β}

theorem WorldOk.initial : WorldOk S World.initial where
  base _ := Base.initial
  named _ := by simp [World.initial, MemoryState.initial]
  rows _ := by simp [World.initial, MemoryState.initial]
  workers _ := by simp [World.initial, MemoryState.initial]
  copies _ := by simp [World.initial, MemoryState.initial]

theorem Service.WorkerKnows.later {x : Worker ι β} (knows : S.WorkerKnows w c x)
    (grows : ∀ c', Grows (w c') (w' c')) : S.WorkerKnows w' c x := by
  obtain ⟨job, alive, n⟩ := x
  cases job with
  | flush => trivial
  | rollup tier now point =>
    cases point with
    | uploaded => exact MemoryState.Holds.later knows (grows c)
    | _ => trivial
  | resurrect tier latest point =>
    cases point with
    | selected => exact ⟨knows.1, knows.2.later (grows _)⟩
    | fetched raw => exact ⟨knows.1, knows.2.1, knows.2.2.later (grows _)⟩
    | copied raw key =>
      exact ⟨knows.1, knows.2.1, knows.2.2.1.later (grows _), knows.2.2.2.later (grows _)⟩

theorem CopyOk.later {latest resurrected : MemoryBackup} {raw : β}
    (ok : CopyOk w c latest resurrected raw) (grows : ∀ c', Grows (w c') (w' c')) :
    CopyOk w' c latest resurrected raw :=
  ⟨ok.apart, ok.source.later (grows _), ok.copy.later (grows _)⟩

/-- A step in one lane lets every lane grow. -/
theorem grows_update (grows : Grows (w c) s) (c' : Nat) :
    Grows (w c') (Function.update w c s c') := by
  by_cases same : c' = c
  · subst same
    rwa [Function.update_self]
  · rw [Function.update_of_ne same]
    exact .of_same rfl rfl

/-- A step in the lane of `c`, from what it adds there. -/
theorem WorldOk.moved (ok : WorldOk S w) (base : Base (S.at c) s) (grows : Grows (w c) s)
    (named : ∀ key ∈ s.keys, key ∈ (w c).keys ∨ key.cloneId = c)
    (rows : ∀ b ∈ s.backups, b ∈ (w c).backups ∨ b.cloneId = c ∧ S.Vouches s b)
    (workers : ∀ t x, s.workers t = some x →
      (w c).workers t = some x ∨ S.WorkerKnows (Function.update w c s) c x)
    (copies : ∀ y ∈ s.copies,
      y ∈ (w c).copies ∨ CopyOk (Function.update w c s) c y.1 y.2.1 y.2.2) :
    WorldOk S (Function.update w c s) := by
  have everywhere := grows_update grows
  constructor
  · exact (Function.forall_update_iff w fun c' lane => Base (S.at c') lane).2
      ⟨base, fun c' _ => ok.base c'⟩
  · refine (Function.forall_update_iff w fun c' lane => ∀ key ∈ lane.keys, key.cloneId = c').2
      ⟨fun key used => ?_, fun c' _ => ok.named c'⟩
    exact (named key used).elim (ok.named c key) id
  · refine (Function.forall_update_iff w fun c' lane =>
      ∀ b ∈ lane.backups, b.cloneId = c' ∧ S.Vouches lane b).2
      ⟨fun b listed => ?_, fun c' _ => ok.rows c'⟩
    rcases rows b listed with old | new
    · obtain ⟨owner, vouches⟩ := ok.rows c b old
      exact ⟨owner, vouches.later grows⟩
    · exact new
  · refine (Function.forall_update_iff w fun c' lane => ∀ t x, lane.workers t = some x →
      S.WorkerKnows (Function.update w c s) c' x).2
      ⟨fun t x found => ?_, fun c' _ t x found => (ok.workers c' t x found).later everywhere⟩
    rcases workers t x found with old | new
    · exact (ok.workers c t x old).later everywhere
    · exact new
  · refine (Function.forall_update_iff w fun c' lane => ∀ y ∈ lane.copies,
      CopyOk (Function.update w c s) c' y.1 y.2.1 y.2.2).2
      ⟨fun y made => ?_, fun c' _ y made => (ok.copies c' y made).later everywhere⟩
    rcases copies y made with old | new
    · exact (ok.copies c y old).later everywhere
    · exact new

/-- The slots after a step of `t`: `t`'s new one, of which `P` is known, and the old ones. -/
theorem slot_moved {slots : Nat → Option (Worker ι β)} {x : Option (Worker ι β)}
    {P : Worker ι β → Prop} (workers : s.workers = Function.update slots t x)
    (moved : ∀ y, x = some y → P y) :
    ∀ t' y, s.workers t' = some y → slots t' = some y ∨ P y := by
  rw [workers]
  exact (Function.forall_update_iff slots fun t' slot =>
    ∀ y, slot = some y → slots t' = some y ∨ P y).2
    ⟨fun y found => .inr (moved y found), fun t' _ y found => .inl found⟩

/-- A step of `t` that touches no object and adds no row. -/
theorem WorldOk.slot (ok : WorldOk S w) (base : Base (S.at c) s) {x : Option (Worker ι β)}
    (keys : s.keys = (w c).keys) (objects : s.objects = (w c).objects)
    (rows : ∀ b ∈ s.backups, b ∈ (w c).backups) (copies : s.copies = (w c).copies)
    (workers : s.workers = Function.update (w c).workers t x)
    (moved : ∀ y, x = some y → S.WorkerKnows (Function.update w c s) c y) :
    WorldOk S (Function.update w c s) := by
  refine ok.moved base (.of_same keys objects) ?_ (fun b listed => .inl (rows b listed))
    (slot_moved workers moved) ?_
  · rw [keys]; exact fun key used => .inl used
  · rw [copies]; exact fun y made => .inl made

/-- A task about to start its next call has no object in mind. -/
theorem Service.WorkerKnows.next {x y : Worker ι β} (h : x.next = some y) : S.WorkerKnows w c y := by
  obtain ⟨again, rfl⟩ := Worker.next_eq h
  trivial

theorem Service.WorkerKnows.died {job : Job ι β} {n : Nat} {alive : Bool}
    (knows : S.WorkerKnows w c ⟨job, alive, n⟩) : S.WorkerKnows w c ⟨job, false, n⟩ := knows

/-- The row a rollup inserts describes what it has uploaded. -/
theorem Service.Snapshot.describes {S : Service ι β} {buffer : MemoryBuffer β} {payload : List ι}
    {periodStart : Datetime} (snapshot : S.Snapshot buffer payload periodStart) {start : Int}
    (utc : periodStart.astimezoneUtc = some start) {b : MemoryBackup}
    (count : b.entryCount = buffer.entryCount) (period : b.periodStart = start) :
    S.Describes b buffer.payloadBlob := by
  refine ⟨payload, by rw [snapshot.row]; rfl, snapshot.nonempty, by rw [count, snapshot.row]; rfl, ?_⟩
  rw [period, ← Datetime.eq_of_astimezoneUtc utc]
  exact S.periodStart_spec snapshot.start

variable [DecidableEq β]

/-- **Every step of the world keeps the rows in agreement with their objects.** -/
theorem WorldOk.preserved {a : Action β} (ok : WorldOk S w) (h : w.step S (c, a) = some w') :
    WorldOk S w' := by
  obtain ⟨reads, s, taken, rfl⟩ := World.step_eq h
  have base := (ok.base c).preserved taken
  have step := step_sound taken
  have grows := step.grows
  cases step with
  | append fresh =>
    exact ok.moved base grows (fun _ => .inl) (fun _ => .inl) (fun _ _ => .inl) fun _ => .inl
  | @spawn _ t job free starts =>
    refine ok.slot base rfl rfl (fun _ => id) rfl rfl ?_
    rintro y ⟨⟩
    cases a <;> simp only [Action.spawns, reduceCtorEq, Option.some.injEq, Prod.mk.injEq] at starts
      <;> obtain ⟨rfl, rfl⟩ := starts
    · trivial
    · trivial
    · obtain ⟨apart, listed, _⟩ := reads.1 _ rfl
      refine ⟨apart, ?_⟩
      rw [Function.update_of_ne apart]
      exact (ok.rows _ _ listed).2
  | ends here quit | trim here | fail here other =>
    exact ok.slot base rfl rfl (fun _ => id) rfl rfl fun y next => .next next
  | revert here free present | revertGone here missing =>
    exact ok.slot base rfl rfl (fun _ => id) rfl rfl fun y next => .next next
  | readAll here nonempty | lockRow here present free decoded | lockMissing here missing =>
    refine ok.slot base rfl rfl (fun _ => id) rfl rfl ?_
    rintro y ⟨⟩
    trivial
  | commitUpdate here present | commitInsert here missing | trimUnanswered here | failTrim here =>
    refine ok.slot base rfl rfl (fun _ => id) rfl rfl ?_
    rintro y ⟨⟩
    trivial
  | readBuffer here present counted decoded start | selectStale here ranks =>
    refine ok.slot base rfl rfl (fun _ => id) rfl rfl ?_
    rintro y ⟨⟩
    trivial
  | @putObject t uuid tier now n buffer payload periodStart key here named fresh =>
    refine ok.moved base grows ?_ (fun _ => .inl) (slot_moved rfl ?_) fun _ => .inl
    · intro key' used
      rcases List.mem_cons.1 used with rfl | old
      · exact .inr (by rw [named]; rfl)
      · exact .inl old
    · rintro y ⟨⟩
      show (Function.update w c _ c).Holds key buffer.payloadBlob
      rw [Function.update_self]
      exact .of_put rfl rfl
  | @commitBackup t id createdAt tier now n buffer payload periodStart key start backup here utc
      fresh free row =>
    have holds : (w c).Holds key buffer.payloadBlob := ok.workers c _ _ here
    have snapshot : (S.at c).Snapshot buffer payload periodStart := (ok.base c).workers _ _ here
    refine ok.moved base grows (fun _ => .inl) ?_ (slot_moved rfl ?_) fun _ => .inl
    · intro b listed
      rcases List.mem_append.1 listed with old | new
      · exact .inl old
      · rw [List.mem_singleton] at new
        subst new
        subst row
        exact .inr ⟨rfl, MemoryState.Holds.vouches holds (snapshot.describes utc rfl rfl)⟩
    · rintro y ⟨⟩
      trivial
  | deleteObject here =>
    refine ok.moved base grows (fun _ => .inl) (fun _ => .inl) (slot_moved rfl ?_) fun _ => .inl
    rintro y ⟨⟩
    trivial
  | commitPrune here =>
    exact ok.slot base rfl rfl (fun b listed => List.mem_of_mem_filter listed) rfl rfl
      fun y next => .next next
  | @getObject t raw tier latest n here =>
    obtain ⟨apart, vouches⟩ : latest.cloneId ≠ c ∧ S.Vouches (w latest.cloneId) latest :=
      ok.workers c _ _ here
    have fetched : w.object latest.storageKey = some raw :=
      reads.2 _ rfl latest (by simp [World.fetching, here])
    rw [World.object, ok.named _ _ vouches.1] at fetched
    refine ok.slot base rfl rfl (fun _ => id) rfl rfl ?_
    rintro y ⟨⟩
    refine ⟨apart, vouches.2 raw fetched, ?_⟩
    rw [Function.update_of_ne apart]
    exact ⟨vouches.1, fun raw' held => Option.some.inj (held.symm.trans fetched)⟩
  | @putCopy t uuid tier latest raw n key here named fresh =>
    obtain ⟨apart, describes, source⟩ := ok.workers c _ _ here
    refine ok.moved base grows ?_ (fun _ => .inl) (slot_moved rfl ?_) fun _ => .inl
    · intro key' used
      rcases List.mem_cons.1 used with rfl | old
      · exact .inr (by rw [named]; rfl)
      · exact .inl old
    · rintro y ⟨⟩
      refine ⟨apart, describes, ?_, ?_⟩
      · rw [Function.update_of_ne apart]
        exact source
      · rw [Function.update_self]
        exact .of_put rfl rfl
  | @commitCopy t id createdAt restoredAt tier latest raw key n resurrected here fresh row =>
    obtain ⟨apart, describes, source, copy⟩ := ok.workers c _ _ here
    subst row
    refine ok.moved base grows (fun _ => .inl) ?_ (slot_moved rfl fun y => .next) ?_
    · intro b listed
      rcases List.mem_append.1 listed with old | new
      · exact .inl old
      · rw [List.mem_singleton] at new
        subst new
        exact .inr ⟨rfl, MemoryState.Holds.vouches copy describes⟩
    · intro y made
      rcases List.mem_append.1 made with old | new
      · exact .inl old
      · rw [List.mem_singleton] at new
        subst new
        refine .inr ⟨apart, ?_, ?_⟩
        · rw [Function.update_of_ne apart]
          exact source
        · rw [Function.update_self]
          exact copy
  | @die t job n here =>
    have knows := ok.workers c _ _ here
    refine ok.slot base rfl rfl (fun _ => id) rfl rfl ?_
    rintro y ⟨⟩
    exact (knows.later (grows_update grows)).died

theorem WorldOk.reachable {as : List (Nat × Action β)}
    (run : Run.exec (World.step S) World.initial as = some w) : WorldOk S w :=
  Run.invariant (fun _ _ _ ok h => ok.preserved h) WorldOk.initial run

omit [DecidableEq β] in
/-- A key in use is looked up in the lane that uses it. -/
theorem WorldOk.object_eq (ok : WorldOk S w) {key : ObjectKey} (used : key ∈ (w c).keys) :
    w.object key = (w c).objects key := by
  rw [World.object, ok.named c key used]

/-- A step in another lane leaves the object alone. -/
theorem World.object_kept {a : Nat × Action β} (h : w.step S a = some w') {key : ObjectKey}
    (other : key.cloneId ≠ a.1) : w'.object key = w.object key := by
  obtain ⟨_, s, _, rfl⟩ := World.step_eq h
  rw [World.object, Function.update_of_ne other, World.object]

/-- **Rows describe their payloads, in every reachable state.** -/
theorem metadata_describes_payload (S : Service ι β) (as : List (Nat × Action β))
    (run : Run.exec (World.step S) World.initial as = some w) :
    (∀ c r, (w c).buffer = some r →
      ∃ items, S.payload r = some items ∧ items.length = r.entryCount) ∧
    (∀ c, ∀ b ∈ (w c).backups, ∀ raw, w.object b.storageKey = some raw →
      ∃ items, S.decodePayload raw = some items ∧ items.length = b.entryCount ∧
        1 ≤ b.entryCount ∧ S.Earliest items b.periodStart) ∧
    (∀ c latest resurrected raw, (latest, resurrected, raw) ∈ (w c).copies →
      latest.storageKey ≠ resurrected.storageKey ∧
      (∀ raw', w.object latest.storageKey = some raw' → raw' = raw) ∧
      (∀ raw', w.object resurrected.storageKey = some raw' → raw' = raw) ∧
      ∀ a w', w.step S a = some w' →
        w'.object latest.storageKey = w.object latest.storageKey ∨
          w'.object resurrected.storageKey = w.object resurrected.storageKey) := by
  have ok := WorldOk.reachable run
  refine ⟨?_, ?_, ?_⟩
  · intro c r present
    obtain ⟨items, rfl⟩ := (ok.base c).row r present
    exact ⟨items, S.payload_row items, rfl⟩
  · intro c b listed raw held
    obtain ⟨_, used, describes⟩ := ok.rows c b listed
    rw [ok.object_eq used] at held
    obtain ⟨items, rfl, nonempty, count, earliest⟩ := describes raw held
    refine ⟨items, S.decode_encode items, count, ?_, earliest⟩
    have pos := List.length_pos_iff.2 nonempty
    omega
  · intro c latest resurrected raw made
    obtain ⟨apart, source, copy⟩ := ok.copies c _ made
    have ofSource : latest.storageKey.cloneId = latest.cloneId := ok.named _ _ source.1
    have ofCopy : resurrected.storageKey.cloneId = c := ok.named _ _ copy.1
    refine ⟨?_, ?_, ?_, ?_⟩
    · intro same
      rw [← ofCopy, ← same, ofSource] at apart
      exact apart rfl
    · rw [ok.object_eq source.1]
      exact source.2
    · rw [ok.object_eq copy.1]
      exact copy.2
    · intro a w' h
      by_cases here : latest.storageKey.cloneId = a.1
      · refine .inr (World.object_kept h ?_)
        rw [ofCopy, ← here, ofSource]
        exact fun same => apart same.symm
      · exact .inl (World.object_kept h here)

/-- The backup that `rollupThenResurrect` makes of its one entry. -/
def sampleBackup : MemoryBackup :=
  ⟨1, 1, 63902822400000000, 63902822400000001, 1, ⟨1, 63902822400, 63902822400, 0⟩, .free, 0, none⟩

/-- Clone 1 writes an entry, it is flushed and rolled up, and clone 2 resurrects from it. -/
def rollupThenResurrect : List (Nat × Action (List MemoryItem)) :=
  [(1, .append "a" "2026-01-01T00:00:00+00:00" ⟨1, 0⟩ false), (1, .startFlush 0 0),
    (1, .readAll 0), (1, .lockRow 0), (1, .commitBuffer 0), (1, .trim 0),
    (1, .startRollup 1 .free 63902822400000001), (1, .readBuffer 1), (1, .putObject 1 0),
    (1, .commitBackup 1 1 0), (2, .startResurrect 0 .free sampleBackup),
    (2, .getObject 0 [⟨"a", "2026-01-01T00:00:00+00:00"⟩]), (2, .putCopy 0 7),
    (2, .commitCopy 0 2 0 0)]

theorem metadata_of_rollup_then_resurrect :
    ∃ w, Run.exec (World.step (.sample .approximate)) World.initial rollupThenResurrect = some w ∧
      (w 2).copies ≠ [] ∧
      ∀ b ∈ (w 2).backups, ∀ raw, w.object b.storageKey = some raw →
        ∃ items, (Service.sample .approximate).decodePayload raw = some items ∧
          items.length = b.entryCount ∧ 1 ≤ b.entryCount ∧
          (Service.sample .approximate).Earliest items b.periodStart :=
  ⟨_, rfl, by decide,
    (metadata_describes_payload (.sample .approximate) rollupThenResurrect rfl).2.1 2⟩

end Mycelium
