import Mycelium.Api.Resurrection
import Mycelium.Worker.Flush
import Mycelium.Worker.Rollup
import Mycelium.Worker.Steps

/-!
# A task alone is one call

`flushOneStream`, `rollupClone` and `resurrectFrom` take a task's effect as a whole;
the interleaved machine takes it access by access. A worker that runs while no other
does passes the points of its task in order, and what the stores hold at each point
is what the whole has made of them by then. Cut off at any point, by an exception or
by its death, it leaves what the whole leaves when a call in it fails. So where it
ends, the machine holds what the function leaves.
-/

namespace Mycelium

variable {ι β : Type} {S : Service ι β} {s : Store β} {m m' : MemoryState ι β} {t : Nat}

/-- The machine `m` holds what the stores hold for the clone, and the keys not yet given out name
nothing in them. -/
structure Service.Shows (S : Service ι β) (s : Store β) (m : MemoryState ι β) : Prop where
  stream : m.stream = s.streams S.cloneId
  buffer : m.buffer = s.buffers S.cloneId
  backups : m.backups = s.backupsOf S.cloneId
  objects : ∀ key, key.cloneId = S.cloneId → m.objects key = s.objects key
  fresh : ∀ key, key.cloneId = S.cloneId → key ∉ m.keys → s.Fresh key

namespace Service.Shows

/-- Neither the workers' slots nor the row's lock show in the stores. -/
theorem set (shows : S.Shows s m) (t : Nat) (x : Option (Worker ι β)) : S.Shows s (m.set t x) :=
  ⟨shows.stream, shows.buffer, shows.backups, shows.objects, shows.fresh⟩

theorem setLock (shows : S.Shows s m) (lock : Option Nat) : S.Shows s { m with lock := lock } :=
  ⟨shows.stream, shows.buffer, shows.backups, shows.objects, shows.fresh⟩

/-- The call of `t` is over, its slot has `x`. -/
theorem ended (shows : S.Shows s m) (t : Nat) (x : Option (Worker ι β)) :
    S.Shows s ((m.unlock t).set t x) :=
  (shows.setLock _).set t x

theorem setBuffer (shows : S.Shows s m) {row row' : MemoryBuffer β} (same : row' = row) :
    S.Shows (s.setBuffer S.cloneId row) { m with buffer := some row' } := by
  subst same
  refine ⟨shows.stream, ?_, shows.backups, shows.objects, shows.fresh⟩
  show some row' = Function.update s.buffers S.cloneId (some row') S.cloneId
  rw [Function.update_self]

theorem setStream (shows : S.Shows s m) {stream stream' : Stream} (same : stream' = stream) :
    S.Shows (s.setStream S.cloneId stream) { m with stream := stream' } := by
  subst same
  refine ⟨?_, shows.buffer, shows.backups, shows.objects, shows.fresh⟩
  show stream' = Function.update s.streams S.cloneId stream' S.cloneId
  rw [Function.update_self]

end Service.Shows

/-- An UPDATE of the row as it was loaded writes the new row. -/
theorem writeChanged_self [DecidableEq β] (row new : MemoryBuffer β) :
    row.writeChanged new row = new := by
  obtain ⟨blob, count⟩ := new
  simp only [MemoryBuffer.writeChanged, MemoryBuffer.mk.injEq]
  constructor
  · split
    · rename_i same
      exact same.symm
    · rfl
  · split
    · rename_i same
      exact same.symm
    · rfl

/-! ## The calls -/

/-- The call a task makes. -/
inductive Call where
  /-- `flush_one_stream`, and how often more for the clone -/
  | flush (again : Nat)
  | rollup (clone : CloneProfile) (now : Int)
  /-- `resurrect_from`, for the caller's profile, once it has selected the source's latest backup -/
  | resurrect (profile : CloneProfile) (latest : MemoryBackup)

/-- What the call as a whole can make of the stores. -/
inductive Call.Runs (S : Service ι β) (s : Store β) : Call → Store β → Prop where
  | flush (again : Nat) (fault : Option FlushFault) :
      Runs S s (.flush again) (flushOneStream S s fault).1
  | rollup {clone now choice fault s' result} (ofClone : clone.id = S.cloneId)
      (ended : rollupClone S.toFormat s clone now choice fault = some (s', result)) :
      Runs S s (.rollup clone now) s'
  | resurrect {profile latest choice s' resp} (ofClone : profile.id = S.cloneId)
      (newest : choice.latest = some latest)
      (ended : resurrectFrom S.toFormat s profile latest.cloneId choice = some (s', resp)) :
      Runs S s (.resurrect profile latest) s'

/-- The call the worker makes next: `flush_all_streams` goes on to the clone's next occurrence. -/
def Call.next : Call → Option Call
  | .flush (again + 1) => some (.flush again)
  | _ => none

/-- What the whole flush has made of `s` where the flush stands at `point`. -/
def Service.FlushedTo (S : Service ι β) (s : Store β) (m : MemoryState ι β) :
    FlushPoint ι β → Prop
  | .start => S.Shows s m
  | .read entries =>
    entries = (s.streams S.cloneId).entries ∧ entries ≠ [] ∧ S.Shows s m
  | .locked entries loaded existing =>
    entries = (s.streams S.cloneId).entries ∧ entries ≠ [] ∧ loaded = s.buffers S.cloneId ∧
      S.payloadOf loaded = some existing ∧ S.Shows s m
  | .committed entries existing =>
    entries = (s.streams S.cloneId).entries ∧ entries ≠ [] ∧
      S.payloadOf (s.buffers S.cloneId) = some existing ∧
      S.Shows (s.setBuffer S.cloneId (S.row (existing ++ S.newItems entries))) m
  | .reverting entries existing =>
    entries = (s.streams S.cloneId).entries ∧ entries ≠ [] ∧
      S.payloadOf (s.buffers S.cloneId) = some existing ∧
      ∃ applied, S.Shows (flushOneStream S s (some (.trim applied false))).1 m

variable {clone profile : CloneProfile} {now : Int}

/-- What the whole rollup has made of `s` where the rollup stands at `point`. -/
def Service.RolledUpTo (S : Service ι β) (s : Store β) (clone : CloneProfile) (now : Int)
    (m : MemoryState ι β) : RollupPoint ι β → Prop
  | .start => S.Shows s m
  | .read buffer _ periodStart =>
    S.readBuffer (s.buffers clone.id) = some (buffer, periodStart) ∧ S.Shows s m
  | .uploaded buffer _ periodStart key =>
    S.readBuffer (s.buffers clone.id) = some (buffer, periodStart) ∧ s.Fresh key ∧
      (∃ uuid, key = backupKey clone.id periodStart (.utc now) uuid) ∧
      S.Shows (s.putObject key buffer.payloadBlob) m
  | .committed backup =>
    ∃ choice committed,
      archiveBuffer S.toFormat s clone now choice none = some (committed, .backedUp backup) ∧
      S.Shows committed m
  | .pruning backup stale todo =>
    ∃ choice committed gone,
      archiveBuffer S.toFormat s clone now choice none = some (committed, .backedUp backup) ∧
      RanksByPeriodEnd (committed.backupsOf clone.id) choice.ranked ∧
      stale = staleBackups choice.ranked ∧ stale.map MemoryBackup.storageKey = gone ++ todo ∧
      S.Shows (committed.deleteObjects gone) m

/-- What `resurrect_from` has checked when it selects `latest`. -/
structure Store.Selects (s : Store β) (profile : CloneProfile) (latest : MemoryBackup) : Prop where
  other : latest.cloneId ≠ profile.id
  source : ∃ source, s.profiles.lookup latest.cloneId = some source ∧
    source.status ≠ activeStatus ∧ LatestOf (s.backupsOf latest.cloneId) (some latest)

/-- What the whole resurrection has made of `s` where the request stands at `point`. -/
def Service.ResurrectedTo (S : Service ι β) (s : Store β) (profile : CloneProfile)
    (latest : MemoryBackup) (m : MemoryState ι β) : ResurrectPoint β → Prop
  | .selected => S.Shows s m
  | .fetched raw => s.objects latest.storageKey = some raw ∧ S.Shows s m
  | .copied raw key =>
    s.objects latest.storageKey = some raw ∧ s.Fresh key ∧
      (∃ uuid, key =
        backupKey profile.id (.utc latest.periodStart) (.utc latest.periodEnd) uuid) ∧
      S.Shows (s.putObject key raw) m

/-- The machine `m` holds what the call has made of `s` where its worker stands at `job`. -/
inductive Service.Reached (S : Service ι β) (s : Store β) (m : MemoryState ι β) :
    Call → Job ι β → Prop where
  | flush {again point} (done : S.FlushedTo s m point) :
      Reached S s m (.flush again) (.flush again point)
  | rollup {clone now point} (ofClone : clone.id = S.cloneId)
      (done : S.RolledUpTo s clone now m point) :
      Reached S s m (.rollup clone now) (.rollup clone.subscriptionTier now point)
  | resurrect {profile latest point} (ofClone : profile.id = S.cloneId)
      (selects : s.Selects profile latest) (done : S.ResurrectedTo s profile latest m point) :
      Reached S s m (.resurrect profile latest)
        (.resurrect profile.subscriptionTier latest point)

/-! ## What a call has written -/

section Written

variable {F : Format ι β} {buffer : MemoryBuffer β} {periodStart : Datetime}
  {choice : RollupChoice} {entries : List StreamEntry} {existing : List ι}

variable {entries : List StreamEntry} {existing : List ι}

theorem flushOneStream_done (all : entries = (s.streams S.cloneId).entries) (ne : entries ≠ [])
    (decoded : S.payloadOf (s.buffers S.cloneId) = some existing) :
    (flushOneStream S s none).1 =
      (s.setBuffer S.cloneId (S.row (existing ++ S.newItems entries))).setStream S.cloneId
        (S.trim entries (s.streams S.cloneId)) := by
  subst all
  simp [flushOneStream, ne, decoded]

theorem flushOneStream_trim (all : entries = (s.streams S.cloneId).entries) (ne : entries ≠ [])
    (decoded : S.payloadOf (s.buffers S.cloneId) = some existing) (applied reverted : Bool) :
    (flushOneStream S s (some (.trim applied reverted))).1 =
      let committed := s.setBuffer S.cloneId (S.row (existing ++ S.newItems entries))
      let after := if applied then
          committed.setStream S.cloneId (S.trim entries (s.streams S.cloneId))
        else committed
      if reverted then after.setBuffer S.cloneId (S.row existing) else after := by
  subst all
  simp [flushOneStream, ne, decoded]

/-- The row a raised flush has committed, before the except branch. -/
theorem flushed_buffer (row : MemoryBuffer β) (stream : Stream) (applied : Bool) :
    (if applied then (s.setBuffer S.cloneId row).setStream S.cloneId stream
      else s.setBuffer S.cloneId row).buffers S.cloneId = some row := by
  cases applied <;> exact Function.update_self ..

namespace Service.Shows

theorem putObject (shows : S.Shows s m) (key : ObjectKey) (data : β) :
    S.Shows (s.putObject key data) (m.putObject key data) := by
  refine ⟨shows.stream, shows.buffer, shows.backups, ?_, ?_⟩
  · intro key' own
    show Function.update m.objects key (some data) key' = _
    by_cases same : key' = key
    · rw [same, Function.update_self, Store.objects_putObject]
    · rw [Function.update_of_ne same, Store.objects_putObject_of_ne same]
      exact shows.objects key' own
  · intro key' own unused
    obtain ⟨other, unused⟩ := not_or.1 (List.mem_cons.not.1 unused)
    obtain ⟨empty, unnamed⟩ := shows.fresh key' own unused
    refine ⟨?_, unnamed⟩
    rwa [Store.objects_putObject_of_ne other]

/-- The row of an object that is there, inserted. -/
theorem insert {b : MemoryBackup} {backups : Table MemoryBackup MemoryBackup.id}
    (shows : S.Shows s m) (inserted : s.backups.insert b = some backups)
    (ofClone : b.cloneId = S.cloneId) (stored : (s.objects b.storageKey).isSome = true)
    (archived : List (List ι)) (copies : List (MemoryBackup × MemoryBackup × β)) :
    S.Shows { s with backups := backups }
      { m with backups := m.backups ++ [b], archived := archived, copies := copies } := by
  have rows := (Table.insert_eq_some inserted).2
  refine ⟨shows.stream, shows.buffer, ?_, shows.objects, fun key own unused => ?_⟩
  · show m.backups ++ [b] = backups.rows.filter _
    rw [rows, List.filter_append, List.filter_singleton, shows.backups]
    simp [Store.backupsOf, ofClone]
  · obtain ⟨empty, unnamed⟩ := shows.fresh key own unused
    refine ⟨empty, ?_⟩
    show key ∉ backups.rows.map MemoryBackup.storageKey
    rw [rows, List.map_append, List.mem_append, not_or, List.map_singleton, List.mem_singleton]
    refine ⟨unnamed, ?_⟩
    rintro rfl
    rw [Option.isNone_iff_eq_none.1 empty] at stored
    cases stored

/-- The row inserted, the buffer deleted. -/
theorem committed {committed : Store β} {b : MemoryBackup} {archive : List (List ι)}
    (shows : S.Shows (s.putObject b.storageKey buffer.payloadBlob) m) (ofClone : clone.id = S.cloneId)
    (read : F.readBuffer (s.buffers clone.id) = some (buffer, periodStart))
    (archived : archiveBuffer F s clone now choice none = some (committed, .backedUp b)) :
    S.Shows committed
      { m with backups := m.backups ++ [b], buffer := none, archived := archive } := by
  cases archiveBuffer_step archived with
  | committed buffer' periodStart' b table read' fresh start named ends count tier inserted =>
    cases read.symm.trans read'
    have stored : ((s.putObject b.storageKey buffer.payloadBlob).objects b.storageKey).isSome = true := by
      rw [Store.objects_putObject]
      rfl
    have listed := shows.insert inserted (named.trans ofClone) stored archive m.copies
    refine ⟨listed.stream, ?_, listed.backups, listed.objects, listed.fresh⟩
    show none = Function.update s.buffers clone.id none S.cloneId
    rw [← ofClone, Function.update_self]

theorem deleteObject {keys : List ObjectKey} (shows : S.Shows (s.deleteObjects keys) m)
    (key : ObjectKey) : S.Shows (s.deleteObjects (keys ++ [key])) (m.deleteObject key) := by
  refine ⟨shows.stream, shows.buffer, shows.backups, ?_, ?_⟩
  · intro key' own
    show Function.update m.objects key none key' = _
    by_cases same : key' = key
    · subst same
      rw [Function.update_self, Store.objects_deleted (by simp)]
    · rw [Function.update_of_ne same, shows.objects key' own]
      simp [Store.deleteObjects, same]
  · intro key' own unused
    obtain ⟨empty, unnamed⟩ := shows.fresh key' own unused
    refine ⟨?_, unnamed⟩
    by_cases gone : key' ∈ keys ++ [key]
    · rw [Store.objects_deleted gone]
      rfl
    · rw [Store.objects_deleteObjects gone]
      rwa [Store.objects_deleteObjects fun before => gone (List.mem_append_left _ before)] at empty

/-- Deleting no object changes nothing. -/
theorem deleteNone (shows : S.Shows s m) : S.Shows (s.deleteObjects []) m := by
  refine ⟨shows.stream, shows.buffer, shows.backups, fun key own => ?_, fun key own unused => ?_⟩
  · rw [Store.objects_deleteObjects List.not_mem_nil]
    exact shows.objects key own
  · obtain ⟨empty, unnamed⟩ := shows.fresh key own unused
    refine ⟨?_, unnamed⟩
    rwa [Store.objects_deleteObjects List.not_mem_nil]

theorem prune {stale : List MemoryBackup}
    (shows : S.Shows (s.deleteObjects (stale.map MemoryBackup.storageKey)) m) :
    S.Shows (s.prune stale)
      { m with backups := m.backups.filter fun b => b.id ∉ stale.map MemoryBackup.id } := by
  refine ⟨shows.stream, shows.buffer, ?_, shows.objects, ?_⟩
  · show m.backups.filter _ = List.filter _ (List.filter _ s.backups.rows)
    rw [shows.backups]
    show List.filter _ (List.filter _ s.backups.rows) = _
    rw [List.filter_filter, List.filter_filter]
    congr 1
    funext b
    exact Bool.and_comm ..
  · intro key own unused
    obtain ⟨empty, unnamed⟩ := shows.fresh key own unused
    refine ⟨empty, fun named => unnamed ?_⟩
    obtain ⟨b, kept, rfl⟩ := List.mem_map.1 named
    exact List.mem_map_of_mem (List.mem_of_mem_filter kept)

end Service.Shows

end Written

section Resurrect

variable {latest : MemoryBackup} {raw : β}

/-- The checks as the code makes them, on the source's row. -/
theorem Store.Selects.row (selects : s.Selects profile latest) :
    (latest.cloneId : Int) ≠ profile.id ∧ ∃ source,
      s.profiles.lookup latest.cloneId = some source ∧ source.status ≠ activeStatus ∧
        LatestOf (s.backupsOf source.id) (some latest) := by
  obtain ⟨other, source, found, inactive, isLatest⟩ := selects
  have id : source.id = latest.cloneId := Int.ofNat.inj (Table.lookup_eq_some found).2
  exact ⟨fun same => other (Int.ofNat.inj same), source, found, inactive, id ▸ isLatest⟩

/-- A resurrection whose copy is not to be had leaves the stores as they are. -/
theorem resurrectFrom_getObject (F : Format ι β) (choice : Choice)
    (selects : s.Selects profile latest) (newest : choice.latest = some latest)
    (fails : choice.fault = some .getObject) :
    resurrectFrom F s profile latest.cloneId choice = some (s, .internalServerError) := by
  obtain ⟨other, source, found, inactive, isLatest⟩ := selects.row
  simp [resurrectFrom, other, found, inactive, newest, isLatest, fails]

theorem resurrectFrom_putObject (F : Format ι β) (choice : Choice)
    (selects : s.Selects profile latest) (newest : choice.latest = some latest)
    (read : s.objects latest.storageKey = some raw)
    (fails : choice.fault = some .putObject) :
    resurrectFrom F s profile latest.cloneId choice = some (s, .internalServerError) := by
  obtain ⟨other, source, found, inactive, isLatest⟩ := selects.row
  simp [resurrectFrom, other, found, inactive, newest, isLatest, read, fails]

/-- One whose commit raises has stored the copy. -/
theorem resurrectFrom_commit (F : Format ι β) (choice : Choice)
    (selects : s.Selects profile latest) (newest : choice.latest = some latest)
    (read : s.objects latest.storageKey = some raw)
    (fresh : s.Fresh (resurrectedRow profile latest choice).storageKey)
    (fails : choice.fault = some .commit) :
    resurrectFrom F s profile latest.cloneId choice =
      some (s.putObject (resurrectedRow profile latest choice).storageKey raw,
        .internalServerError) := by
  obtain ⟨other, source, found, inactive, isLatest⟩ := selects.row
  unfold resurrectedRow at fresh
  simp [resurrectFrom, resurrectedRow, other, found, inactive, newest, isLatest, read, fails, fresh]

/-- One in which nothing fails has its row. -/
theorem resurrectFrom_committed (F : Format ι β) (choice : Choice)
    (selects : s.Selects profile latest) (newest : choice.latest = some latest)
    (read : s.objects latest.storageKey = some raw)
    (fresh : s.Fresh (resurrectedRow profile latest choice).storageKey)
    (new : choice.id ∉ s.backups.rows.map MemoryBackup.id) (calm : choice.fault = none) :
    ∃ backups, s.backups.insert (resurrectedRow profile latest choice) = some backups ∧
      let copied := s.withCopy (resurrectedRow profile latest choice).storageKey raw backups
      resurrectFrom F s profile latest.cloneId choice =
        some (copied, afterCommit F copied 201 (resurrectedRow profile latest choice) choice) := by
  obtain ⟨other, source, found, inactive, isLatest⟩ := selects.row
  obtain ⟨backups, inserted⟩ :=
    Table.insert_of_fresh (x := resurrectedRow profile latest choice) new
  refine ⟨backups, inserted, ?_⟩
  unfold resurrectedRow at fresh inserted
  simp [resurrectFrom, resurrectedRow, other, found, inactive, newest, isLatest, read, calm, fresh,
    inserted, Store.withCopy, afterCommit]

end Resurrect

/-! ## Where a call is cut off -/

/-- A resurrection's choices when it fails: of the rest nothing but the uuid matters. -/
def Choice.selecting (latest : MemoryBackup) (fault : Option ApiFault) : Choice :=
  { choiceAt 0 ⟨0, 0⟩ with latest := some latest, fault := fault }

/-- **Cut off anywhere, a task has done what the whole call does when something fails in it.** -/
theorem Service.Reached.interrupted {call : Call} {job : Job ι β} (reached : S.Reached s m call job) :
    ∃ s', call.Runs S s s' ∧ S.Shows s' m := by
  cases reached with
  | @flush again point done =>
    cases point with
    | start => exact ⟨_, .flush again (some .readAll), done⟩
    | read entries => exact ⟨_, .flush again (some .readAll), done.2.2⟩
    | locked entries loaded existing => exact ⟨_, .flush again (some .readAll), done.2.2.2.2⟩
    | committed entries existing =>
      obtain ⟨all, ne, decoded, shows⟩ := done
      refine ⟨_, .flush again (some (.trim false false)), ?_⟩
      rw [flushOneStream_trim all ne decoded]
      exact shows
    | reverting entries existing =>
      obtain ⟨all, ne, decoded, applied, shows⟩ := done
      exact ⟨_, .flush again (some (.trim applied false)), shows⟩
  | @rollup clone now point ofClone done =>
    cases point with
    | start =>
      obtain ⟨result, ended⟩ := rollupClone_putObject S.toFormat s clone now ⟨0, 0, 0, []⟩
      exact ⟨_, .rollup ofClone ended, done⟩
    | read buffer payload periodStart =>
      obtain ⟨result, ended⟩ := rollupClone_putObject S.toFormat s clone now ⟨0, 0, 0, []⟩
      exact ⟨_, .rollup ofClone ended, done.2⟩
    | uploaded buffer payload periodStart key =>
      obtain ⟨read, unused, ⟨uuid, rfl⟩, shows⟩ := done
      exact ⟨_, .rollup ofClone (rollupClone_commit ⟨uuid, 0, 0, []⟩ read unused), shows⟩
    | committed backup =>
      -- the SELECT of the prune: as if the first call after it had failed
      obtain ⟨choice, committed, archived, shows⟩ := done
      let ranked := Ranking.descending MemoryBackup.periodEnd (committed.backupsOf clone.id)
      have ranks : RanksByPeriodEnd (committed.backupsOf clone.id) ranked :=
        Ranking.ranks_descending ..
      have same : archiveBuffer S.toFormat s clone now { choice with ranked := ranked } none =
          some (committed, .backedUp backup) := archived
      have none : (staleBackups ranked).map MemoryBackup.storageKey = [] ++ _ := rfl
      obtain ⟨fault, ended⟩ := rollupClone_interrupted same ranks none
      exact ⟨_, .rollup ofClone ended, shows.deleteNone⟩
    | pruning backup stale todo =>
      obtain ⟨choice, committed, gone, archived, ranks, rfl, split, shows⟩ := done
      obtain ⟨fault, ended⟩ := rollupClone_interrupted archived ranks split
      exact ⟨_, .rollup ofClone ended, shows⟩
  | @resurrect profile latest point ofClone selects done =>
    cases point with
    | selected =>
      have ended := resurrectFrom_getObject S.toFormat (.selecting latest (some .getObject)) selects
        rfl rfl
      exact ⟨_, .resurrect ofClone rfl ended, done⟩
    | fetched raw =>
      have ended := resurrectFrom_putObject S.toFormat (.selecting latest (some .putObject)) selects
        rfl done.1 rfl
      exact ⟨_, .resurrect ofClone rfl ended, done.2⟩
    | copied raw key =>
      obtain ⟨read, fresh, ⟨uuid, rfl⟩, shows⟩ := done
      have ended := resurrectFrom_commit S.toFormat
        { Choice.selecting latest (some .commit) with uuid := uuid } selects rfl read fresh rfl
      exact ⟨_, .resurrect ofClone rfl ended, shows⟩

end Mycelium
