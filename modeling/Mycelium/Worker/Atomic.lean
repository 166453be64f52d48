import Mycelium.Logic.Refinement
import Mycelium.Worker.Lanes
import Mycelium.Worker.Orphans

/-!
# Tasks that keep apart take effect at once

The workers' accesses interleave, over all clones. Where no task and no write of a
clone starts while another task of the clone is at work (a resurrection is one of its
source's as well, though not for the source's other copies), each task is as if it
happened at one moment between its start and its end: the run is one of whole calls,
`flushOneStream`, `rollupClone` and `resurrectFrom`, one after another over the common
stores, with calls that fail where workers were cut off. So what is proved of those
calls in any order holds of the interleaved workers wherever they keep apart like this.
-/

namespace Mycelium

variable {ι β : Type}

/-! ## Calls, one after another -/

/-- The stores, and the call each clone has under way. -/
structure Calls (β : Type) where
  store : Store β
  called : Nat → Option Call

/-- The call that the task of clone `c` makes which this action starts. -/
inductive Action.Starts (c : Nat) : Action β → Call → Prop where
  | flush (t again : Nat) : Starts c (.startFlush t again) (.flush again)
  | rollup {clone : CloneProfile} (ofClone : clone.id = c) (t : Nat) (now : Int) :
      Starts c (.startRollup t clone.subscriptionTier now) (.rollup clone now)
  | resurrect {profile : CloneProfile} (ofClone : profile.id = c) (t : Nat)
      (latest : MemoryBackup) :
      Starts c (.startResurrect t profile.subscriptionTier latest) (.resurrect profile latest)

/-- Writes, and calls that do all they do at one moment after they have started. -/
inductive Calls.Step (S : Service ι β) (x : Calls β) : Nat × Action β → Calls β → Prop where
  | write {c content capturedAt id newNode} (idle : x.called c = none)
      (later : (x.store.streams c).lastId < id) :
      Step S x (c, .append content capturedAt id newNode)
        { x with
          store := x.store.setStream c
            ((x.store.streams c).xadd S.nodeEntries newNode ⟨id, content, capturedAt⟩) }
  | starts {c a call} (idle : x.called c = none) (starts : a.Starts c call) :
      Step S x (c, a) { x with called := Function.update x.called c (some call) }
  | underWay {c a call} (working : a.worker ≠ none) (called : x.called c = some call) :
      Step S x (c, a) x
  | takesEffect {c a call store after} (working : a.worker ≠ none)
      (called : x.called c = some call) (runs : call.Runs (S.at c) x.store store)
      (ended : after = call.next ∨ after = none) :
      Step S x (c, a) ⟨store, Function.update x.called c after⟩

/-! ## Workers that keep apart -/

/-- No task is at work. -/
def MemoryState.Quiet (m : MemoryState ι β) : Prop := ∀ t, m.running t = none

/-- The backup the task of `t` copies. -/
def MemoryState.copying (m : MemoryState ι β) (t : Nat) : Option MemoryBackup :=
  match m.running t with
  | some ⟨.resurrect _ latest _, _, _⟩ => some latest
  | _ => none

/-- Nothing starts while a task of the same clone is at work, or one that copies its backup; a
resurrection starts while no task of its source is, which is not an active clone. -/
structure World.Apart (profiles : Table CloneProfile CloneProfile.id) (w : World ι β)
    (x : Nat × Action β) : Prop where
  own : x.2.worker = none → (w x.1).Quiet
  copied : ∀ started, x.2.spawns (ι := ι) = some started →
    ∀ c t, ∀ latest ∈ (w c).copying t, latest.cloneId ≠ x.1
  source : ∀ latest ∈ x.2.resurrects, (w latest.cloneId).Quiet ∧
    ∃ source, profiles.lookup latest.cloneId = some source ∧ source.status ≠ activeStatus

/-- The world beside the calls. -/
structure Linearized (S : Service ι β) (profiles : Table CloneProfile CloneProfile.id)
    (w : World ι β) (x : Calls β) : Prop where
  lanes : ∀ c, (S.at c).Lane x.store (w c) (x.called c)
  sources : ∀ c profile latest, x.called c = some (.resurrect profile latest) →
    x.called latest.cloneId = none
  ids : ∀ c d, c ≠ d → ∀ b ∈ (w c).backups, ∀ b' ∈ (w d).backups, b.id ≠ b'.id
  keyed : x.store.Keyed
  profiles : x.store.profiles = profiles

variable {S : Service ι β} {s : Store β} {m : MemoryState ι β} {called : Option Call}
  {profiles : Table CloneProfile CloneProfile.id} {w w' : World ι β} {x : Calls β}

theorem Service.Lane.quiet_iff (lane : S.Lane s m called) : m.Quiet ↔ called = none := by
  cases lane with
  | idle nobody shows => exact iff_of_true nobody rfl
  | busy here alone reached =>
    refine iff_of_false (fun quiet => ?_) nofun
    have running := MemoryState.running_iff.2 ⟨here, rfl⟩
    rw [quiet] at running
    cases running

theorem Service.Lane.shows (lane : S.Lane s m none) : S.Shows s m := by
  cases lane with
  | idle nobody shows => exact shows

/-- A resurrection under way: what it copies, and that this is its source's latest. -/
theorem Service.Lane.copies {profile : CloneProfile} {latest : MemoryBackup}
    (lane : S.Lane s m (some (.resurrect profile latest))) :
    (∃ t, m.copying t = some latest) ∧ latest ∈ s.backupsOf latest.cloneId := by
  cases lane with
  | @busy _ t job n here alone reached =>
    cases reached with
    | resurrect ofClone selects done =>
      obtain ⟨_, _, _, _, isLatest, _⟩ := selects
      refine ⟨⟨t, ?_⟩, isLatest⟩
      rw [MemoryState.copying, MemoryState.running_iff.2 ⟨here, rfl⟩]

theorem MemoryState.spawned {job : Job ι β} {t : Nat} {m' : MemoryState ι β}
    (h : m.spawn t job = some m') : m' = m.set t (some ⟨job, true, 0⟩) := by
  unfold MemoryState.spawn at h
  split at h
  · cases h
    rfl
  · cases h

/-- Who takes a step is at work. -/
theorem MemoryState.running_of_step [DecidableEq β] {a : Action β} {t : Nat} {m' : MemoryState ι β}
    (h : step S m a = some m') (mine : a.worker = some t) : m.running t ≠ none := by
  intro idle
  cases a <;> cases mine <;> simp [step, Action.worker, idle] at h

namespace Linearized

theorem initial (S : Service ι β) (users : Table User User.id)
    (profiles : Table CloneProfile CloneProfile.id) :
    Linearized S profiles .initial
      ⟨{ Store.empty with users := users, profiles := profiles }, fun _ => none⟩ where
  lanes c := by
    refine .idle (fun _ => rfl) ⟨rfl, rfl, rfl, fun _ _ => rfl, fun key _ _ => ⟨rfl, ?_⟩⟩
    exact List.not_mem_nil
  sources _ _ _ called := by cases called
  ids _ _ _ _ listed := by cases listed
  keyed _ listed := by cases listed
  profiles := rfl

/-- The rows of the stores are rows of the world. -/
theorem listed (inv : Linearized S profiles w x) {b : MemoryBackup} (member : b ∈ x.store.backups) :
    b ∈ (w b.cloneId).backups :=
  (inv.lanes b.cloneId).rows b (Store.mem_backupsOf.2 ⟨member, rfl⟩)

/-- An id that is not known is the id of no row. -/
theorem fresh (inv : Linearized S profiles w x) {id : Nat} (new : ¬ w.Knows id) :
    id ∉ x.store.backups.rows.map MemoryBackup.id := by
  intro used
  obtain ⟨b, member, rfl⟩ := List.mem_map.1 used
  exact new ⟨_, b, rfl, .inl (inv.listed member)⟩

variable {c : Nat} {a : Action β} {m' : MemoryState ι β}

/-- What a resurrection fetches is what the stores hold. -/
theorem reads (inv : Linearized S profiles w x) (reads : w.Reads c a) :
    ∀ y ∈ a.fetches, ∀ tier latest n,
      (w c).workers y.1 = some ⟨.resurrect tier latest .selected, true, n⟩ →
        x.store.objects latest.storageKey = some y.2 := by
  intro y fetches tier latest n here
  have fetching : w.fetching c y.1 = some latest := by
    rw [World.fetching, here]
  have held := reads.2 y fetches latest fetching
  have lane := inv.lanes c
  cases called : x.called c with
  | none =>
    rw [called] at lane
    have running := MemoryState.running_iff.2 ⟨here, rfl⟩
    rw [lane.quiet_iff.2 rfl] at running
    cases running
  | some call =>
    rw [called] at lane
    cases lane with
    | busy here' alone reached =>
      obtain ⟨rfl, rfl, rfl⟩ := MemoryState.eq_of_alone here' alone here
      cases reached with
      | resurrect ofClone selects done =>
        obtain ⟨_, _, _, _, isLatest, _⟩ := selects
        have own := inv.keyed latest (Store.mem_backupsOf.1 isLatest).1
        have source := inv.lanes latest.cloneId
        rw [inv.sources c _ latest called] at source
        rw [← source.shows.objects _ own, ← held, World.object, own]

/-- The lane of one clone has changed, and what it has under way. -/
theorem lanes_update {s' : Store β} {after : Option Call} (own : (S.at c).Lane s' m' after)
    (others : ∀ d, d ≠ c → (S.at d).Lane s' (w d) (x.called d)) (d : Nat) :
    (S.at d).Lane s' (Function.update w c m' d) (Function.update x.called c after d) := by
  by_cases here : d = c
  · subst here
    rwa [Function.update_self, Function.update_self]
  · rw [Function.update_of_ne here, Function.update_of_ne here]
    exact others d here

/-- A step of another clone than the source leaves what a resurrection copies. -/
theorem source_kept (inv : Linearized S profiles w x) {d : Nat} {profile : CloneProfile}
    {latest : MemoryBackup} (copies : x.called d = some (.resurrect profile latest))
    {s' : Store β} (same : SamePart latest.cloneId x.store s') :
    s'.backupsOf latest.cloneId = x.store.backupsOf latest.cloneId ∧
      s'.objects latest.storageKey = x.store.objects latest.storageKey := by
  have lane := inv.lanes d
  rw [copies] at lane
  have listed := (Store.mem_backupsOf.1 lane.copies.2).1
  exact ⟨same.backups, same.objects _ (inv.keyed latest listed)⟩

/-- A task has started. -/
theorem started (inv : Linearized S profiles w x) (apart : w.Apart profiles (c, a)) {t : Nat}
    {job : Job ι β} (spawns : a.spawns = some (t, job)) {call : Call} (idle : x.called c = none)
    (reached : (S.at c).Reached x.store ((w c).set t (some ⟨job, true, 0⟩)) call job)
    (source : ∀ profile latest, call = .resurrect profile latest →
      x.called latest.cloneId = none ∧ latest.cloneId ≠ c) :
    Linearized S profiles (Function.update w c ((w c).set t (some ⟨job, true, 0⟩)))
      { x with called := Function.update x.called c (some call) } where
  lanes := by
    have quiet := (inv.lanes c).quiet_iff.2 idle
    exact lanes_update (.moved (fun t' _ => quiet t') rfl reached) fun d _ => inv.lanes d
  sources d profile latest called := by
    change Function.update x.called c (some call) d = _ at called
    have other : latest.cloneId ≠ c ∧ x.called latest.cloneId = none := by
      by_cases here : d = c
      · subst here
        rw [Function.update_self] at called
        exact (source profile latest (Option.some.inj called)).symm
      · rw [Function.update_of_ne here] at called
        have lane := inv.lanes d
        rw [called] at lane
        obtain ⟨⟨t', copying⟩, _⟩ := lane.copies
        exact ⟨apart.copied _ spawns d t' latest copying, inv.sources d profile latest called⟩
    show Function.update x.called c (some call) latest.cloneId = none
    rw [Function.update_of_ne other.1, other.2]
  ids d e apart' b listed b' listed' := by
    have rows : ∀ d, (Function.update w c ((w c).set t (some ⟨job, true, 0⟩)) d).backups =
        (w d).backups := by
      intro d
      by_cases here : d = c
      · subst here
        rw [Function.update_self]
        rfl
      · rw [Function.update_of_ne here]
    rw [rows] at listed listed'
    exact inv.ids d e apart' b listed b' listed'
  keyed := inv.keyed
  profiles := inv.profiles

variable [DecidableEq β]

/-- The lane of `c` has moved, and its rows are still told apart from the others'. -/
theorem ids_kept (inv : Linearized S profiles w x) (new : ∀ id ∈ a.inserts, ¬ w.Knows id)
    (taken : Mycelium.step (S.at c) (w c) a = some m') :
    ∀ d e, d ≠ e → ∀ b ∈ (Function.update w c m' d).backups,
      ∀ b' ∈ (Function.update w c m' e).backups, b.id ≠ b'.id := by
  have here : ∀ d, d ≠ c → ∀ b ∈ m'.backups, ∀ b' ∈ (w d).backups, b.id ≠ b'.id := by
    intro d apart b listed b' listed' same
    rcases row_before taken listed with old | ⟨inserts, _⟩
    · exact inv.ids c d apart.symm b old b' listed' same
    · exact new b.id inserts ⟨d, b', same.symm, .inl listed'⟩
  intro d e apart b listed b' listed'
  by_cases first : d = c
  · subst first
    rw [Function.update_self] at listed
    rw [Function.update_of_ne apart.symm] at listed'
    exact here e apart.symm b listed b' listed'
  · rw [Function.update_of_ne first] at listed
    by_cases second : e = c
    · subst second
      rw [Function.update_self] at listed'
      exact fun same => here d first b' listed' b listed same.symm
    · rw [Function.update_of_ne second] at listed'
      exact inv.ids d e apart b listed b' listed'

/-- A worker's step. -/
theorem worked (inv : Linearized S profiles w x) (new : ∀ id ∈ a.inserts, ¬ w.Knows id)
    (reads : w.Reads c a) (taken : Mycelium.step (S.at c) (w c) a = some m') {t : Nat}
    (mine : a.worker = some t) :
    ∃ x', Calls.Step S x (c, a) x' ∧ Linearized S profiles (Function.update w c m') x' := by
  have working : a.worker ≠ none := by simp [mine]
  have ids := inv.ids_kept new taken
  cases called : x.called c with
  | none =>
    have idle := (inv.lanes c).quiet_iff.2 called
    exact absurd (idle t) (MemoryState.running_of_step taken mine)
  | some call =>
    have notSource : ∀ d profile latest, x.called d = some (.resurrect profile latest) →
        latest.cloneId ≠ c := by
      intro d profile latest copies same
      have free := inv.sources d profile latest copies
      rw [same, called] at free
      cases free
    have lane := inv.lanes c
    rw [called] at lane
    rcases lane.step taken working (fun id inserts => inv.fresh (new id inserts)) (inv.reads reads)
      with onward | ⟨s', after, ended, runs, done⟩
    · refine ⟨x, .underWay working called, ⟨fun d => ?_, inv.sources, ids, inv.keyed, inv.profiles⟩⟩
      by_cases here : d = c
      · subst here
        rw [Function.update_self, called]
        exact onward
      · rw [Function.update_of_ne here]
        exact inv.lanes d
    · obtain ⟨keyed, frame, kept⟩ := runs.frame inv.keyed
      refine ⟨_, .takesEffect working called runs ended,
        ⟨lanes_update done fun d here => ?_, ?_, ids, keyed, kept.trans inv.profiles⟩⟩
      · refine (inv.lanes d).elsewhere (frame d here) keyed kept ?_ ?_
        · intro b listed unused used
          obtain ⟨b', member, same⟩ := List.mem_map.1 used
          have own : b' ∈ s'.backupsOf b'.cloneId := Store.mem_backupsOf.2 ⟨member, rfl⟩
          by_cases mine : b'.cloneId = c
          · have listed' := done.rows b' (mine ▸ own)
            exact ids d c here b (by rwa [Function.update_of_ne here]) b'
              (by rwa [Function.update_self]) same.symm
          · rw [(frame _ mine).backups] at own
            exact unused (same ▸ List.mem_map_of_mem (Store.mem_backupsOf.1 own).1)
        · intro profile latest copies
          exact inv.source_kept copies (frame _ (notSource d profile latest copies))
      · intro d profile latest copies
        change Function.update x.called c after d = _ at copies
        have other : d ≠ c := by
          rintro rfl
          rw [Function.update_self] at copies
          subst copies
          rcases ended with next | none
          · cases call with
            | flush again => cases again <;> cases next
            | rollup | resurrect => cases next
          · cases none
        rw [Function.update_of_ne other] at copies
        show Function.update x.called c after latest.cloneId = none
        rw [Function.update_of_ne (notSource d profile latest copies)]
        exact inv.sources d profile latest copies

/-- **A step of the world is a step of the calls.** -/
theorem simulates (inv : Linearized S profiles w x) (apart : w.Apart profiles (c, a))
    (new : ∀ id ∈ a.inserts, ¬ w.Knows id) (h : w.step S (c, a) = some w') :
    ∃ x', Calls.Step S x (c, a) x' ∧ Linearized S profiles w' x' := by
  obtain ⟨reads, m', taken, rfl⟩ := World.step_eq h
  cases worker : a.worker with
  | some t => exact inv.worked new reads taken worker
  | none =>
    have quiet := apart.own worker
    have idle := (inv.lanes c).quiet_iff.1 quiet
    have lane := inv.lanes c
    rw [idle] at lane
    cases a with
    | append content capturedAt id newNode =>
      have ids := inv.ids_kept new taken
      simp only [Mycelium.step] at taken
      split at taken
      · rename_i later
        cases taken
        rw [lane.shows.stream] at later
        have wrote := lane.shows.setStream (congrArg
          (fun stream : Stream => stream.xadd S.nodeEntries newNode ⟨id, content, capturedAt⟩)
          lane.shows.stream)
        refine ⟨_, .write idle later, ⟨fun d => ?_, inv.sources, ids, inv.keyed, inv.profiles⟩⟩
        by_cases here : d = c
        · subst here
          rw [Function.update_self, idle]
          exact .idle quiet ⟨wrote.stream, wrote.buffer, wrote.backups, wrote.objects, wrote.fresh⟩
        · rw [Function.update_of_ne here]
          have frame := (FlushFrame.refl c x.store).setStream
            ((x.store.streams c).xadd S.nodeEntries newNode ⟨id, content, capturedAt⟩)
          exact (inv.lanes d).elsewhere (frame.samePart here) inv.keyed rfl (fun _ _ unused => unused)
            fun _ _ _ => ⟨rfl, rfl⟩
      · cases taken
    | startFlush t again =>
      obtain rfl := MemoryState.spawned taken
      exact ⟨_, .starts idle (.flush t again), inv.started apart rfl idle
        (.flush (lane.shows.set _ _)) fun _ _ same => by cases same⟩
    | startRollup t tier now =>
      obtain rfl := MemoryState.spawned taken
      let clone : CloneProfile := ⟨c, "", activeStatus, tier, none, 0⟩
      have ofClone : clone.id = c := rfl
      exact ⟨_, .starts idle (.rollup ofClone t now), inv.started apart rfl idle
        (.rollup ofClone (lane.shows.set _ _)) fun _ _ same => by cases same⟩
    | startResurrect t tier latest =>
      obtain rfl := MemoryState.spawned taken
      let profile : CloneProfile := ⟨c, "", activeStatus, tier, none, 0⟩
      have ofClone : profile.id = c := rfl
      obtain ⟨other, latestBackup⟩ := reads.1 latest rfl
      obtain ⟨quietSource, source, found, inactive⟩ := apart.source latest rfl
      have free := (inv.lanes latest.cloneId).quiet_iff.1 quietSource
      have theirs := inv.lanes latest.cloneId
      rw [free] at theirs
      have isLatest : LatestOf (x.store.backupsOf latest.cloneId) (some latest) := by
        have rows : (w latest.cloneId).backups = x.store.backupsOf latest.cloneId :=
          theirs.shows.backups
        rw [← rows]
        exact latestBackup
      have selects : x.store.Selects profile latest :=
        ⟨other, source, by rw [inv.profiles, found], inactive, isLatest⟩
      refine ⟨_, .starts idle (.resurrect ofClone t latest), inv.started apart rfl idle
        (.resurrect ofClone selects (lane.shows.set _ _)) ?_⟩
      rintro _ _ ⟨⟩
      exact ⟨free, other⟩
    | _ => cases worker

end Linearized

/-- **Tasks that keep apart take effect at once.** In any run in which no id is given twice and
nothing starts on a clone while a task is at work that concerns it, the accesses of all the clones'
workers, failures and deaths included, are steps of calls that each do all they do at one moment
between their start and their end. Where no task of a clone is at work, what the clone has is what
these calls have made. -/
theorem tasks_take_effect_at_once [DecidableEq β] (S : Service ι β) (users : Table User User.id)
    (profiles : Table CloneProfile CloneProfile.id) {as : List (Nat × Action β)}
    (sequence : (insertedIds as).Nodup)
    (apart : Run.Guarded (World.step S) (World.Apart profiles) World.initial as)
    (run : Run.exec (World.step S) World.initial as = some w) :
    ∃ x, Run.Steps (Calls.Step S)
        ⟨{ Store.empty with users := users, profiles := profiles }, fun _ => none⟩ as x ∧
      ∀ c, (w c).Quiet → x.called c = none ∧ (S.at c).Shows x.store (w c) := by
  have new := unknown_of_sequence (S := S) sequence fun id _ => World.initial_knows id
  have related : ∀ w (y : Nat × Action β) w' x, Linearized S profiles w x →
      w.Apart profiles y ∧ (∀ id ∈ y.2.inserts, ¬ w.Knows id) → w.step S y = some w' →
        ∃ x', Calls.Step S x y x' ∧ Linearized S profiles w' x' :=
    fun w y w' x inv cond taken => inv.simulates cond.1 cond.2 taken
  obtain ⟨x, steps, inv⟩ :=
    Run.Guarded.refines related (.initial S users profiles) (apart.and new) run
  refine ⟨x, steps, fun c quiet => ?_⟩
  have idle := (inv.lanes c).quiet_iff.1 quiet
  have lane := inv.lanes c
  rw [idle] at lane
  exact ⟨idle, lane.shows⟩

/-- A step of a worker is no start. -/
theorem World.Apart.working {c : Nat} {a : Action β} {t : Nat} (mine : a.worker = some t) :
    w.Apart profiles (c, a) where
  own starts := by cases mine.symm.trans starts
  copied _ spawns := by cases mine.symm.trans (Action.worker_of_spawns spawns)
  source latest selected := by
    cases a <;> cases selected
    cases mine

/-- A start or a write on a quiet clone, where nothing is being copied. -/
theorem World.Apart.quiet {c : Nat} {a : Action β} (own : (w c).Quiet)
    (copied : ∀ d t, (w d).copying t = none)
    (source : ∀ latest ∈ a.resurrects, (w latest.cloneId).Quiet ∧
      ∃ source, profiles.lookup latest.cloneId = some source ∧ source.status ≠ activeStatus) :
    w.Apart profiles (c, a) where
  own _ := own
  copied _ _ d t latest copying := by cases (copied d t).symm.trans copying
  source := source

/-- The profile of a clone that is gone. -/
def goneProfile : Table CloneProfile CloneProfile.id :=
  ⟨[⟨1, "alpha", "gone", .free, none, 0⟩], by decide⟩

/-- Two flushes overlap, of which one fails in its XTRIM and its worker dies; then the first clone
is rolled up, and a third resurrects from it. -/
def overlappingClones : List (Nat × Action (List MemoryItem)) :=
  [(1, .append "a" "2026-01-01T00:00:00+00:00" ⟨1, 0⟩ false),
    (2, .append "b" "2026-01-01T00:00:00+00:00" ⟨1, 0⟩ false),
    (1, .startFlush 0 0), (1, .readAll 0), (2, .startFlush 0 0), (2, .readAll 0), (2, .lockRow 0),
    (1, .lockRow 0), (1, .commitBuffer 0), (2, .commitBuffer 0), (2, .fail 0), (1, .trim 0),
    (2, .die 0), (1, .startRollup 1 .free 63902822400000001), (1, .readBuffer 1),
    (1, .putObject 1 0), (1, .commitBackup 1 1 0), (1, .selectStale 1 [sampleBackup]),
    (1, .commitPrune 1), (3, .startResurrect 0 .free sampleBackup),
    (3, .getObject 0 [⟨"a", "2026-01-01T00:00:00+00:00"⟩]), (3, .putCopy 0 7),
    (3, .commitCopy 0 2 0 0)]

theorem take_effect_of_overlapping_clones :
    ∃ w x, Run.exec (World.step (.sample .exact)) World.initial overlappingClones = some w ∧
      Run.Steps (Calls.Step (.sample .exact))
        ⟨{ Store.empty with profiles := goneProfile }, fun _ => none⟩ overlappingClones x ∧
      ∀ c, (w c).Quiet → x.called c = none ∧
        ((Service.sample .exact).at c).Shows x.store (w c) := by
  have apart : Run.Guarded (World.step (.sample .exact)) (World.Apart goneProfile) World.initial
      overlappingClones := by
    refine .cons rfl (.quiet (fun _ => rfl) (fun _ _ => rfl) nofun) <|
      .cons rfl (.quiet (fun _ => rfl) ?_ nofun) <| .cons rfl (.quiet (fun _ => rfl) ?_ nofun) <|
      .cons rfl (.working rfl) <| .cons rfl (.quiet ?_ ?_ nofun) <| .cons rfl (.working rfl) <|
      .cons rfl (.working rfl) <| .cons rfl (.working rfl) <| .cons rfl (.working rfl) <|
      .cons rfl (.working rfl) <| .cons rfl (.working rfl) <| .cons rfl (.working rfl) <|
      .cons rfl (.working rfl) <| .cons rfl (.quiet ?_ ?_ nofun) <| .cons rfl (.working rfl) <|
      .cons rfl (.working rfl) <| .cons rfl (.working rfl) <| .cons rfl (.working rfl) <|
      .cons rfl (.working rfl) <| .cons rfl (.quiet (fun _ => rfl) ?_ ?_) <|
      .cons rfl (.working rfl) <| .cons rfl (.working rfl) <| .cons rfl (.working rfl) trivial
    · rintro (_ | _ | d) t <;> rfl
    · rintro (_ | _ | _ | d) t <;> rfl
    · rintro (_ | t) <;> rfl
    · rintro (_ | _ | _ | d) (_ | t) <;> rfl
    · rintro (_ | t) <;> rfl
    · rintro (_ | _ | _ | d) (_ | t) <;> rfl
    · rintro (_ | _ | _ | d) (_ | _ | t) <;> rfl
    · rintro _ ⟨⟩
      refine ⟨?_, _, rfl, by decide⟩
      rintro (_ | _ | t) <;> rfl
  have run : ∃ w, Run.exec (World.step (.sample .exact)) World.initial overlappingClones =
      some w := ⟨_, rfl⟩
  obtain ⟨w, run⟩ := run
  obtain ⟨x, steps, shows⟩ :=
    tasks_take_effect_at_once (.sample .exact) .empty goneProfile (by decide) apart run
  exact ⟨w, x, run, steps, shows⟩

end Mycelium
