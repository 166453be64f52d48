import Mycelium.Logic.Run
import Mycelium.Worker.Pipeline

/-!
# Interleaved writers and workers on one clone

`flush_one_stream`, `rollup_clone` and the storing half of `resurrect_from` as
workers that stop at each external call, over the three stores they share: the
clone's Redis stream, its rows in Postgres, and its objects. A worker's local
variables are the arguments of its program point. `step` performs one external
call of one worker, together with the code up to the next one; what the server
chooses (an entry id, the fate of a node, a ranking, a uuid) is in the action.

Postgres runs at READ COMMITTED. A transaction is one step at its commit, except
for `SELECT ... FOR UPDATE`, whose row lock is held from that step to the end of
the transaction; an UPDATE or DELETE of the row waits for the lock, a plain read
does not.

Three fields are history that no code reads: the entries `append_memory`
accepted, the payloads rollups archived (pruned ones included), and the copies
resurrections made.
-/

namespace Mycelium

/-- The clone a worker process serves and the server it talks to. -/
structure Service (ι β : Type) extends Format ι β where
  cloneId : Nat
  nodeEntries : Nat
  trimMode : TrimMode

/-- The code's format over a codec. -/
def Service.items {β : Type} (codec : Codec MemoryItem β)
    (fromisoformat : String → Option Datetime) (cloneId nodeEntries : Nat) (trimMode : TrimMode) :
    Service MemoryItem β where
  toFormat := .items codec fromisoformat
  cloneId := cloneId
  nodeEntries := nodeEntries
  trimMode := trimMode

/-- The format that keeps the whole entry, over a codec. -/
def Service.traced {β : Type} (codec : Codec StreamEntry β)
    (fromisoformat : String → Option Datetime) (cloneId nodeEntries : Nat) (trimMode : TrimMode) :
    Service StreamEntry β where
  toFormat := .traced codec fromisoformat
  cloneId := cloneId
  nodeEntries := nodeEntries
  trimMode := trimMode

/-- Services for examples, with the server's default node size. -/
def Service.sample (trimMode : TrimMode) : Service MemoryItem (List MemoryItem) :=
  .items (.plain MemoryItem) Datetime.newYear 1 100 trimMode

def Service.tracedSample (trimMode : TrimMode) : Service StreamEntry (List StreamEntry) :=
  .traced (.plain StreamEntry) Datetime.newYear 1 100 trimMode

/-- Where `flush_one_stream` stands. -/
inductive FlushPoint (ι β : Type) where
  /-- before `read_all` -/
  | start
  /-- before `session.get(..., with_for_update=True)` -/
  | read (entries : List StreamEntry)
  /-- inside the transaction, before `commit` -/
  | locked (entries : List StreamEntry) (buffer : Option (MemoryBuffer β)) (existing : List ι)
  /-- before `trim_up_to` -/
  | committed (entries : List StreamEntry) (existing : List ι)
  /-- in the except branch, before its `commit` -/
  | reverting (entries : List StreamEntry) (existing : List ι)

/-- Where `rollup_clone` stands. -/
inductive RollupPoint (ι β : Type) where
  /-- before `session.get` -/
  | start
  /-- before `put_object` -/
  | read (buffer : MemoryBuffer β) (payload : List ι) (periodStart : Datetime)
  /-- before the commit that inserts the backup and deletes the buffer -/
  | uploaded (buffer : MemoryBuffer β) (payload : List ι) (periodStart : Datetime)
      (storageKey : ObjectKey)
  /-- before the SELECT of `_prune_stale_backups` -/
  | committed (backup : MemoryBackup)
  /-- deleting the stale rows' objects, `todo` left, before the rows themselves -/
  | pruning (backup : MemoryBackup) (stale : List MemoryBackup) (todo : List ObjectKey)

/-- Where `resurrect_from` stands once it has selected the source's latest backup. -/
inductive ResurrectPoint (β : Type) where
  /-- before `get_object` -/
  | selected
  /-- before `put_object` -/
  | fetched (raw : β)
  /-- before `commit` -/
  | copied (raw : β) (newKey : ObjectKey)

/-- A worker's task. `again` counts the later occurrences of this clone in the list that
`flush_all_streams` walks, 0 for `flush_clone_stream`. `tier` is the `subscription_tier` of the
profile the task loaded. -/
inductive Job (ι β : Type) where
  | flush (again : Nat) (point : FlushPoint ι β)
  | rollup (tier : SubscriptionTier) (now : Int) (point : RollupPoint ι β)
  | resurrect (tier : SubscriptionTier) (latest : MemoryBackup) (point : ResurrectPoint β)

/-- A worker with a task. A dead one stays where it died; `faults` counts the external calls of
the task that have failed. -/
structure Worker (ι β : Type) where
  job : Job ι β
  alive : Bool
  faults : Nat

/-- What is left of a task when its current call has ended: `flush_all_streams` goes on to the
clone's next occurrence. -/
def Worker.next {ι β : Type} (w : Worker ι β) : Option (Worker ι β) :=
  match w.job with
  | .flush (again + 1) _ => some { w with job := .flush again .start }
  | _ => none

structure MemoryState (ι β : Type) where
  stream : Stream
  buffer : Option (MemoryBuffer β)
  lock : Option Nat
  backups : List MemoryBackup
  objects : ObjectKey → Option β
  /-- every key `backup_key` has returned for this clone -/
  keys : List ObjectKey
  workers : Nat → Option (Worker ι β)
  /-- history -/
  accepted : List StreamEntry
  /-- history -/
  archived : List (List ι)
  /-- history: the source backup, the row made of it, and the bytes copied -/
  copies : List (MemoryBackup × MemoryBackup × β)

def MemoryState.initial {ι β : Type} : MemoryState ι β where
  stream := .empty
  buffer := none
  lock := none
  backups := []
  objects := fun _ => none
  keys := []
  workers := fun _ => none
  accepted := []
  archived := []
  copies := []

/-- One external call, or the start or death of a worker. -/
inductive Action (β : Type) where
  | append (content capturedAt : String) (id : StreamId) (newNode : Bool)
  | startFlush (t again : Nat)
  | readAll (t : Nat)
  | lockRow (t : Nat)
  | commitBuffer (t : Nat)
  | trim (t : Nat)
  /-- the server trims, and the reply is lost -/
  | trimUnanswered (t : Nat)
  | revert (t : Nat)
  | startRollup (t : Nat) (tier : SubscriptionTier) (now : Int)
  | readBuffer (t : Nat)
  | putObject (t uuid : Nat)
  | commitBackup (t id : Nat) (createdAt : Int)
  | selectStale (t : Nat) (ranked : List MemoryBackup)
  | deleteObject (t : Nat)
  | commitPrune (t : Nat)
  | startResurrect (t : Nat) (tier : SubscriptionTier) (latest : MemoryBackup)
  | getObject (t : Nat) (raw : β)
  | putCopy (t uuid : Nat)
  | commitCopy (t id : Nat) (createdAt restoredAt : Int)
  /-- the next external call of the worker raises without having taken effect -/
  | fail (t : Nat)
  | die (t : Nat)

/-- The rollup an action commits. -/
def Action.commitsBackup {β : Type} : Action β → Option Nat
  | .commitBackup t _ _ => some t
  | _ => none

/-- The flush an action commits. -/
def Action.commitsBuffer {β : Type} : Action β → Option Nat
  | .commitBuffer t => some t
  | _ => none

/-- The flush an action undoes. -/
def Action.reverts {β : Type} : Action β → Option Nat
  | .revert t => some t
  | _ => none

/-- The worker whose next call raises. -/
def Action.fails {β : Type} : Action β → Option Nat
  | .fail t => some t
  | _ => none

/-- The steps of writers and of flush workers, which may also die. -/
def Action.ofFlushes {β : Type} : Action β → Bool
  | .append .. | .startFlush .. | .readAll _ | .lockRow _ | .commitBuffer _ | .trim _ | .die _ =>
    true
  | _ => false

/-- What only happens once a call has failed: the failure, the commit of the except branch, and
the death of a worker. -/
def Action.inFailure {β : Type} : Action β → Bool
  | .fail _ | .trimUnanswered _ | .revert _ | .die _ => true
  | _ => false

namespace MemoryState

variable {ι β : Type}

/-- The worker `t`, if it is at work. -/
def running (s : MemoryState ι β) (t : Nat) : Option (Worker ι β) :=
  (s.workers t).filter Worker.alive

/-- The worker's slot, after a step of it. -/
def set (s : MemoryState ι β) (t : Nat) (w : Option (Worker ι β)) : MemoryState ι β :=
  { s with workers := Function.update s.workers t w }

/-- The worker goes on to its next external call. -/
def goto (s : MemoryState ι β) (t : Nat) (w : Worker ι β) (job : Job ι β) : MemoryState ι β :=
  s.set t (some { w with job := job })

/-- The transaction of `t` is over, and so is its row lock. -/
def unlock (s : MemoryState ι β) (t : Nat) : MemoryState ι β :=
  { s with lock := if s.lock = some t then none else s.lock }

/-- The call ends, returning or raising. -/
def finish (s : MemoryState ι β) (t : Nat) (w : Worker ι β) : MemoryState ι β :=
  (s.unlock t).set t w.next

def spawn (s : MemoryState ι β) (t : Nat) (job : Job ι β) : Option (MemoryState ι β) :=
  match s.workers t with
  | none => some (s.set t (some ⟨job, true, 0⟩))
  | some _ => none

def putObject (s : MemoryState ι β) (key : ObjectKey) (data : β) : MemoryState ι β :=
  { s with objects := Function.update s.objects key (some data), keys := key :: s.keys }

def deleteObject (s : MemoryState ι β) (key : ObjectKey) : MemoryState ι β :=
  { s with objects := Function.update s.objects key none }

end MemoryState

variable {ι β : Type} [DecidableEq β] (S : Service ι β)

/-- `new_items`. -/
def Service.newItems (entries : List StreamEntry) : List ι := entries.map S.newItem

/-- `trim_up_to` the last entry read. -/
def Service.trim (entries : List StreamEntry) (stream : Stream) : Stream :=
  match entries.getLast? with
  | some last => stream.trimUpTo S.nodeEntries S.trimMode last.id
  | none => stream

/-- The next step of the flush worker `w` at `t`. -/
def flushStep (s : MemoryState ι β) (t : Nat) (w : Worker ι β) (again : Nat) :
    FlushPoint ι β → Action β → Option (MemoryState ι β)
  | .start, .readAll _ =>
    if s.stream.entries = [] then some (s.finish t w)
    else some (s.goto t w (.flush again (.read s.stream.entries)))
  | .read entries, .lockRow _ =>
    match s.buffer with
    | none => some (s.goto t w (.flush again (.locked entries none [])))
    | some buffer =>
      if s.lock = none then
        match S.payload buffer with
        | some existing =>
          some ({ s with lock := some t }.goto t w (.flush again (.locked entries buffer existing)))
        | none => some (s.finish t w)
      else none
  | .locked entries loaded existing, .commitBuffer _ =>
    let combined := existing ++ S.newItems entries
    match loaded, s.buffer with
    -- UPDATE of the row this transaction has locked
    | some buffer, some current =>
      some (({ s with buffer := some (buffer.writeChanged (S.row combined) current) }.unlock t).goto
        t w (.flush again (.committed entries existing)))
    -- INSERT
    | none, none =>
      some ({ s with buffer := some (S.row combined) }.goto t w
        (.flush again (.committed entries existing)))
    -- IntegrityError, StaleDataError
    | none, some _ => some (s.finish t w)
    | some _, none => some (s.finish t w)
  | .committed entries _, .trim _ =>
    some ({ s with stream := S.trim entries s.stream }.finish t w)
  | .committed entries existing, .trimUnanswered _ =>
    some ({ s with stream := S.trim entries s.stream }.goto t { w with faults := w.faults + 1 }
      (.flush again (.reverting entries existing)))
  | .committed entries existing, .fail _ =>
    some (s.goto t { w with faults := w.faults + 1 } (.flush again (.reverting entries existing)))
  | .reverting entries existing, .revert _ =>
    match s.lock, s.buffer with
    | none, some current =>
      some ({ s with
        buffer := some ((S.row (existing ++ S.newItems entries)).writeChanged (S.row existing)
          current) }.finish t w)
    | none, none => some (s.finish t w)
    | some _, _ => none
  | .committed .., _ => none
  | _, .fail _ => some (s.finish t { w with faults := w.faults + 1 })
  | _, _ => none

/-- The next step of the rollup worker `w` at `t`. -/
def rollupStep (s : MemoryState ι β) (t : Nat) (w : Worker ι β) (tier : SubscriptionTier)
    (now : Int) : RollupPoint ι β → Action β → Option (MemoryState ι β)
  | .start, .readBuffer _ =>
    match s.buffer with
    | none => some (s.finish t w)
    | some buffer =>
      if buffer.entryCount = 0 then some (s.finish t w)
      else
        match S.payload buffer with
        | none => some (s.finish t w)
        | some payload =>
          match S.periodStart payload with
          | none => some (s.finish t w)
          | some periodStart =>
            some (s.goto t w (.rollup tier now (.read buffer payload periodStart)))
  | .read buffer payload periodStart, .putObject _ uuid =>
    let key := backupKey S.cloneId periodStart (.utc now) uuid
    if key ∈ s.keys then none
    else some ((s.putObject key buffer.payloadBlob).goto t w
      (.rollup tier now (.uploaded buffer payload periodStart key)))
  | .uploaded buffer payload periodStart key, .commitBackup _ id createdAt =>
    match periodStart.astimezoneUtc with
    | none => some (s.finish t w)
    | some start =>
      if id ∈ s.backups.map MemoryBackup.id then none
      -- the DELETE waits for a row lock, and is content to find no row
      else if s.lock = none then
        let backup : MemoryBackup := ⟨id, S.cloneId, start, now, buffer.entryCount, key, tier,
          createdAt, none⟩
        some ({ s with
          backups := s.backups ++ [backup]
          buffer := none
          archived := s.archived ++ [payload] }.goto t w (.rollup tier now (.committed backup)))
      else none
  | .committed backup, .selectStale _ ranked =>
    if RanksByPeriodEnd s.backups ranked then
      let stale := staleBackups ranked
      some (s.goto t w
        (.rollup tier now (.pruning backup stale (stale.map MemoryBackup.storageKey))))
    else none
  | .pruning backup stale (key :: todo), .deleteObject _ =>
    some ((s.deleteObject key).goto t w (.rollup tier now (.pruning backup stale todo)))
  | .pruning _ stale [], .commitPrune _ =>
    some ({ s with
      backups := s.backups.filter fun b => b.id ∉ stale.map MemoryBackup.id }.finish t w)
  | _, .fail _ => some (s.finish t { w with faults := w.faults + 1 })
  | _, _ => none

/-- The next step of the resurrecting request `w` at `t`. -/
def resurrectStep (s : MemoryState ι β) (t : Nat) (w : Worker ι β) (tier : SubscriptionTier)
    (latest : MemoryBackup) : ResurrectPoint β → Action β → Option (MemoryState ι β)
  | .selected, .getObject _ raw => some (s.goto t w (.resurrect tier latest (.fetched raw)))
  | .fetched raw, .putCopy _ uuid =>
    let key := backupKey S.cloneId (.utc latest.periodStart) (.utc latest.periodEnd) uuid
    if key ∈ s.keys then none
    else some ((s.putObject key raw).goto t w (.resurrect tier latest (.copied raw key)))
  | .copied raw key, .commitCopy _ id createdAt restoredAt =>
    if id ∈ s.backups.map MemoryBackup.id then none
    else
      let resurrected : MemoryBackup := ⟨id, S.cloneId, latest.periodStart, latest.periodEnd,
        latest.entryCount, key, tier, createdAt, some restoredAt⟩
      some ({ s with
        backups := s.backups ++ [resurrected]
        copies := s.copies ++ [(latest, resurrected, raw)] }.finish t w)
  | _, .fail _ => some (s.finish t { w with faults := w.faults + 1 })
  | _, _ => none

/-- The worker an action is a step of. -/
def Action.worker : Action β → Option Nat
  | .append .. | .startFlush .. | .startRollup .. | .startResurrect .. => none
  | .readAll t | .lockRow t | .commitBuffer t | .trim t | .trimUnanswered t | .revert t
  | .readBuffer t | .putObject t _ | .commitBackup t _ _ | .selectStale t _ | .deleteObject t
  | .commitPrune t | .getObject t _ | .putCopy t _ | .commitCopy t _ _ _ | .fail t | .die t => some t

/-- One step of the system; `none` when the action is not enabled. -/
def step (s : MemoryState ι β) (a : Action β) : Option (MemoryState ι β) :=
  match a with
  | .append content capturedAt id newNode =>
    if s.stream.lastId < id then
      let entry : StreamEntry := ⟨id, content, capturedAt⟩
      some { s with
        stream := s.stream.xadd S.nodeEntries newNode entry
        accepted := s.accepted ++ [entry] }
    else none
  | .startFlush t again => s.spawn t (.flush again .start)
  | .startRollup t tier now => s.spawn t (.rollup tier now .start)
  | .startResurrect t tier latest => s.spawn t (.resurrect tier latest .selected)
  | .die t =>
    match s.running t with
    | some w => some ((s.unlock t).set t (some { w with alive := false }))
    | none => none
  | a =>
    match a.worker with
    | none => none
    | some t =>
      match s.running t with
      | none => none
      | some w =>
        match w.job with
        | .flush again point => flushStep S s t w again point a
        | .rollup tier now point => rollupStep S s t w tier now point a
        | .resurrect tier latest point => resurrectStep S s t w tier latest point a

end Mycelium
