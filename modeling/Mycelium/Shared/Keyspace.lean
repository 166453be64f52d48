import Mycelium.Logic.Refinement
import Mycelium.Logic.Text
import Mycelium.Shared.Models
import Mathlib.Algebra.Group.Nat.Defs
import Mathlib.Data.List.AList
import Mathlib.Data.Set.Insert
import Mathlib.Data.Set.List

/-!
# The streams under their keys (`shared/streams.py`)

`Stream` is one clone's stream by itself, its ids pairs of numbers. The code
finds it under the text of a key, in a database it shares with the Celery broker,
trims it by the text of an id it has read, and learns which clones have a stream
by listing keys and reading the numbers back out of them. Here the server holds
text keys and replies with text ids; the commands are the ones redis-py sends.
-/

namespace Mycelium

/-- What the server keeps under a key: a stream, or another program's value. -/
inductive RedisValue where
  | stream (s : Stream)
  | other (value : String)
deriving DecidableEq, Repr

abbrev Redis := AList fun _ : String => RedisValue

/-- `STREAM_KEY_PREFIX`. -/
def streamKeyPrefix : String := "clone-stream:"

/-- `stream_key`. -/
def streamKey (cloneId : Nat) : String := streamKeyPrefix ++ toString cloneId

/-- An id as the server prints it. -/
def StreamId.text (i : StreamId) : String := toString i.ms ++ "-" ++ toString i.seq

/-- A number of an id as the server reads it: digits, in 64 bits. -/
def readU64 (text : String) : Option Nat :=
  (if text.toList.all Char.isDigit then Text.digits? text.toList else none).filter (· < 2 ^ 64)

/-- An id of two numbers as the server reads it. -/
def StreamId.read (text : String) : Option StreamId :=
  match Text.split '-' text with
  | [ms, seq] => (readU64 ms).bind fun ms => (readU64 seq).map fun seq => ⟨ms, seq⟩
  | _ => none

namespace Redis

/-- The stream under the key, empty when there is none; `none` is WRONGTYPE. -/
def stream (r : Redis) (key : String) : Option Stream :=
  match r.lookup key with
  | none => some .empty
  | some (.stream s) => some s
  | some (.other _) => none

/-- XADD of an entry the server has given `id`. -/
def xadd (nodeEntries : Nat) (r : Redis) (key content capturedAt : String) (id : StreamId)
    (newNode : Bool) : Option Redis :=
  (r.stream key).map fun s =>
    r.insert key (.stream (s.xadd nodeEntries newNode ⟨id, content, capturedAt⟩))

/-- XTRIM MINID. It makes no key. -/
def xtrim (nodeEntries : Nat) (mode : TrimMode) (r : Redis) (key minid : String) : Option Redis :=
  match StreamId.read minid, r.lookup key with
  | none, _ => none
  | some _, none => some r
  | some i, some (.stream s) => some (r.insert key (.stream (s.xtrim nodeEntries mode i)))
  | some _, some (.other _) => none

end Redis

/-- A call of the module, or a command of another program. `id`, `newNode` and `listing` are what
the server chooses; `last` is an id that `read_all` has returned as text. -/
inductive StreamCall where
  | appendMemory (cloneId : Nat) (content capturedAt : String) (id : StreamId) (newNode : Bool)
  | readAll (cloneId : Nat)
  | trimUpTo (cloneId : Nat) (last : StreamId)
  | streamLength (cloneId : Nat)
  | activeCloneIds (listing : List String)
  | other (key : String) (value : Option String)
deriving DecidableEq, Repr

inductive StreamReply where
  | appended (entryId : String) (length : Nat)
  | entries (entries : List (String × String × String))
  | done
  | length (n : Nat)
  | ids (cloneIds : List Int)
  | raised
deriving DecidableEq, Repr

/-- What SCAN MATCH `clone-stream:*` may list: every key with the prefix, in any order, and some of
them twice. -/
def Redis.Lists (r : Redis) (listing : List String) : Prop :=
  (∀ key ∈ listing, key ∈ r.keys ∧ streamKeyPrefix.toList <+: key.toList) ∧
    ∀ key ∈ r.keys, streamKeyPrefix.toList <+: key.toList → key ∈ listing

instance (r : Redis) (listing : List String) : Decidable (r.Lists listing) :=
  inferInstanceAs (Decidable ((∀ key ∈ listing, _) ∧ ∀ key ∈ r.keys, _))

/-- An id the server may give the next entry of `s`. -/
def Stream.Offers (s : Stream) (id : StreamId) : Prop :=
  s.lastId < id ∧ id.ms < 2 ^ 64 ∧ id.seq < 2 ^ 64

instance (s : Stream) (id : StreamId) : Decidable (s.Offers id) :=
  inferInstanceAs (Decidable (_ ∧ _))

namespace Redis

variable (nodeEntries : Nat) (mode : TrimMode) (r : Redis)

/-- `append_memory`: XADD, then XLEN. -/
def appendMemory (cloneId : Nat) (content capturedAt : String) (id : StreamId) (newNode : Bool) :
    Option (Redis × StreamReply) :=
  (r.xadd nodeEntries (streamKey cloneId) content capturedAt id newNode).bind fun r' =>
    (r'.stream (streamKey cloneId)).map fun s => (r', .appended id.text s.length)

/-- `read_all`. -/
def readAll (cloneId : Nat) : Option StreamReply :=
  (r.stream (streamKey cloneId)).map fun s =>
    .entries (s.entries.map fun e => (e.id.text, e.content, e.capturedAt))

/-- `trim_up_to`. -/
def trimUpTo (cloneId : Nat) (lastEntryId : String) : Option Redis :=
  match Text.split '-' lastEntryId with
  | [ms, seq] => (Text.int? seq).bind fun seq =>
    r.xtrim nodeEntries mode (streamKey cloneId) (ms ++ "-" ++ toString (seq + 1))
  | _ => none

/-- `active_clone_ids`, of the keys SCAN has listed. -/
def activeCloneIds (listing : List String) : Option (List Int) :=
  listing.mapM fun key => Text.int? (Text.removePrefix streamKeyPrefix key)

/-- The call against the server; `none` when the server does not choose so. A call that raises has
changed nothing. -/
def call : StreamCall → Option (Redis × StreamReply)
  | .appendMemory cloneId content capturedAt id newNode =>
    if ∀ s, r.stream (streamKey cloneId) = some s → s.Offers id then
      some ((r.appendMemory nodeEntries cloneId content capturedAt id newNode).getD (r, .raised))
    else none
  | .readAll cloneId => some (r, (r.readAll cloneId).getD .raised)
  | .trimUpTo cloneId last =>
    match r.trimUpTo nodeEntries mode cloneId last.text with
    | some r' => some (r', .done)
    | none => some (r, .raised)
  | .streamLength cloneId =>
    some (r, ((r.stream (streamKey cloneId)).map fun s => .length s.length).getD .raised)
  | .activeCloneIds listing =>
    if r.Lists listing then some (r, ((activeCloneIds listing).map .ids).getD .raised) else none
  | .other key (some value) => some (r.insert key (.other value), .done)
  | .other key none => some (r.erase key, .done)

end Redis

/-! ## What the callers rely on -/

/-- Each clone's stream, the clones that have been written to, and what the other programs keep. -/
structure Streams where
  stream : Nat → Stream
  written : Set Nat
  others : String → Option RedisValue

namespace Streams

def set (s : Streams) (cloneId : Nat) (x : Stream) : Streams :=
  { s with stream := Function.update s.stream cloneId x }

/-- A call, its reply, and what it leaves, without keys and texts. -/
inductive Serves (nodeEntries : Nat) (mode : TrimMode) (s : Streams) :
    StreamCall × StreamReply → Streams → Prop
  | appended {cloneId : Nat} {content capturedAt : String} {id : StreamId} {newNode : Bool}
      (offered : (s.stream cloneId).Offers id) :
    Serves nodeEntries mode s
      (.appendMemory cloneId content capturedAt id newNode,
        .appended id.text ((s.stream cloneId).length + 1))
      { s.set cloneId ((s.stream cloneId).xadd nodeEntries newNode ⟨id, content, capturedAt⟩) with
        written := insert cloneId s.written }
  | entries (cloneId : Nat) :
    Serves nodeEntries mode s
      (.readAll cloneId, .entries
        ((s.stream cloneId).entries.map fun e => (e.id.text, e.content, e.capturedAt))) s
  | trimmed {cloneId : Nat} {last : StreamId} (ms : last.ms < 2 ^ 64) (seq : last.seq + 1 < 2 ^ 64) :
    Serves nodeEntries mode s (.trimUpTo cloneId last, .done)
      (s.set cloneId ((s.stream cloneId).trimUpTo nodeEntries mode last))
  /-- there is no next sequence part -/
  | refused {cloneId : Nat} {last : StreamId} (full : 2 ^ 64 ≤ last.ms ∨ 2 ^ 64 ≤ last.seq + 1) :
    Serves nodeEntries mode s (.trimUpTo cloneId last, .raised) s
  | length (cloneId : Nat) :
    Serves nodeEntries mode s (.streamLength cloneId, .length (s.stream cloneId).length) s
  | ids {listing : List String} {cloneIds : List Nat}
      (exactly : ∀ cloneId, cloneId ∈ cloneIds ↔ cloneId ∈ s.written) :
    Serves nodeEntries mode s (.activeCloneIds listing, .ids (cloneIds.map Int.ofNat)) s
  | other (key : String) (value : Option String) :
    Serves nodeEntries mode s (.other key value, .done)
      { s with others := Function.update s.others key (value.map .other) }

end Streams

/-- The key is one of the other programs'. -/
def Foreign (key : String) : Prop := ¬ streamKeyPrefix.toList <+: key.toList

instance (key : String) : Decidable (Foreign key) := inferInstanceAs (Decidable (¬ _))

/-- The keyspace holds the streams under their keys, and nothing else under the prefix. -/
structure Redis.Shows (r : Redis) (s : Streams) : Prop where
  held : ∀ cloneId ∈ s.written, r.lookup (streamKey cloneId) = some (.stream (s.stream cloneId))
  unwritten : ∀ cloneId, cloneId ∉ s.written →
    r.lookup (streamKey cloneId) = none ∧ s.stream cloneId = .empty
  keys : ∀ key ∈ r, streamKeyPrefix.toList <+: key.toList →
    ∃ cloneId ∈ s.written, key = streamKey cloneId
  others : ∀ key, Foreign key → r.lookup key = s.others key

/-! ## Texts -/

theorem streamKey_injective : Function.Injective streamKey := by
  intro i j same
  have := congrArg (Text.removePrefix streamKeyPrefix) same
  simp only [streamKey, Text.removePrefix_append, Nat.toString_eq_repr] at this
  have read := congrArg Text.int? this
  rw [Text.int?_repr, Text.int?_repr, Option.some.injEq] at read
  exact Int.ofNat.inj read

theorem prefix_streamKey (cloneId : Nat) : streamKeyPrefix.toList <+: (streamKey cloneId).toList := by
  rw [streamKey, String.toList_append]
  exact List.prefix_append ..

/-- Another program's key is no clone's. -/
theorem Foreign.ne {key : String} (foreign : Foreign key) (cloneId : Nat) :
    key ≠ streamKey cloneId := by
  rintro rfl
  exact foreign (prefix_streamKey cloneId)

theorem readU64_toString (n : Nat) : readU64 (toString n) = if n < 2 ^ 64 then some n else none := by
  have digits : n.repr.toList.all Char.isDigit = true :=
    List.all_eq_true.2 fun c h => Text.isDigit_of_mem_repr h
  simp only [readU64, Nat.toString_eq_repr, digits, if_true, Text.digits?_repr, Option.filter_some,
    decide_eq_true_eq]

theorem split_id (ms seq : Nat) :
    Text.split '-' (toString ms ++ "-" ++ toString seq) = [toString ms, toString seq] :=
  Text.split_append (Text.not_mem_repr rfl ms) (Text.not_mem_repr rfl seq)

/-- The id that is read is the one that was printed, where it fits. -/
theorem StreamId.read_text (ms seq : Nat) :
    StreamId.read (toString ms ++ "-" ++ toString seq) =
      if ms < 2 ^ 64 ∧ seq < 2 ^ 64 then some ⟨ms, seq⟩ else none := by
  simp only [StreamId.read, split_id, readU64_toString]
  by_cases fits : ms < 2 ^ 64
  · by_cases fits' : seq < 2 ^ 64
    · rw [if_pos fits, if_pos fits', if_pos ⟨fits, fits'⟩]
      rfl
    · rw [if_pos fits, if_neg fits', if_neg fun both : ms < 2 ^ 64 ∧ _ => fits' both.2]
      rfl
  · rw [if_neg fits, if_neg fun both : ms < 2 ^ 64 ∧ _ => fits both.1]
    rfl

/-- `trim_up_to` sends the id after the one it was given. -/
theorem Redis.trimUpTo_text (nodeEntries : Nat) (mode : TrimMode) (r : Redis) (cloneId : Nat)
    (last : StreamId) :
    r.trimUpTo nodeEntries mode cloneId last.text =
      r.xtrim nodeEntries mode (streamKey cloneId) last.next.text := by
  simp only [trimUpTo, StreamId.text, split_id]
  rw [Nat.toString_eq_repr (n := last.seq), Text.int?_repr]
  rfl

/-! ## Each call -/

section Calls

variable {nodeEntries : Nat} {mode : TrimMode} {r r' : Redis} {s : Streams} {cloneId : Nat}
  {call : StreamCall} {reply : StreamReply}

theorem Redis.Shows.stream (shows : r.Shows s) (cloneId : Nat) :
    r.stream (streamKey cloneId) = some (s.stream cloneId) := by
  by_cases written : cloneId ∈ s.written
  · rw [Redis.stream, shows.held cloneId written]
  · obtain ⟨none, empty⟩ := shows.unwritten cloneId written
    rw [Redis.stream, none, empty]

/-- A clone's stream written under its key. -/
theorem Redis.Shows.insert (shows : r.Shows s) (cloneId : Nat) (x : Stream) :
    Redis.Shows (r.insert (streamKey cloneId) (.stream x))
      { s.set cloneId x with written := insert cloneId s.written } where
  held other written := by
    by_cases same : other = cloneId
    · rw [same, AList.lookup_insert]
      show _ = some (RedisValue.stream (Function.update s.stream cloneId x cloneId))
      rw [Function.update_self]
    · rw [AList.lookup_insert_ne fun eq => same (streamKey_injective eq)]
      show _ = some (RedisValue.stream (Function.update s.stream cloneId x other))
      rw [Function.update_of_ne same]
      exact shows.held other (Set.mem_of_mem_insert_of_ne written same)
  unwritten other unwritten := by
    have apart : other ≠ cloneId := fun eq => unwritten (eq ▸ Set.mem_insert ..)
    rw [AList.lookup_insert_ne fun eq => apart (streamKey_injective eq)]
    show _ ∧ Function.update s.stream cloneId x other = _
    rw [Function.update_of_ne apart]
    exact shows.unwritten other fun written => unwritten (Set.mem_insert_of_mem cloneId written)
  keys key listed named := by
    rcases AList.mem_insert r |>.1 listed with rfl | before
    · exact ⟨cloneId, Set.mem_insert .., rfl⟩
    · obtain ⟨other, written, eq⟩ := shows.keys key before named
      exact ⟨other, Set.mem_insert_of_mem cloneId written, eq⟩
  others key foreign := by
    rw [AList.lookup_insert_ne (foreign.ne cloneId)]
    exact shows.others key foreign

/-- A clone that has been written to. -/
theorem Redis.Shows.update (shows : r.Shows s) (written : cloneId ∈ s.written) (x : Stream) :
    Redis.Shows (r.insert (streamKey cloneId) (.stream x)) (s.set cloneId x) := by
  have same : Insert.insert cloneId s.written = s.written := Set.insert_eq_of_mem written
  have inserted := shows.insert cloneId x
  rw [same] at inserted
  exact inserted

theorem Redis.Shows.append {content capturedAt : String} {id : StreamId} {newNode : Bool}
    (shows : r.Shows s)
    (h : r.call nodeEntries mode (.appendMemory cloneId content capturedAt id newNode) =
      some (r', reply)) :
    ∃ s', s.Serves nodeEntries mode (.appendMemory cloneId content capturedAt id newNode, reply) s' ∧
      r'.Shows s' := by
  simp only [Redis.call] at h
  split at h
  · rename_i offers
    have offered := offers _ (shows.stream cloneId)
    have inserted := shows.insert cloneId
      ((s.stream cloneId).xadd nodeEntries newNode ⟨id, content, capturedAt⟩)
    have now := inserted.stream cloneId
    simp only [Redis.appendMemory, Redis.xadd, shows.stream, Option.map_some, Option.bind_some, now,
      Option.getD_some] at h
    cases h
    refine ⟨_, ?_, inserted⟩
    have length : ((s.stream cloneId).xadd nodeEntries newNode ⟨id, content, capturedAt⟩).length =
        (s.stream cloneId).length + 1 := by
      rw [Stream.length, Stream.entries_xadd, List.length_append]
      rfl
    simp only [Streams.set, Function.update_self, length]
    exact .appended offered
  · cases h

theorem Redis.Shows.trim {last : StreamId} (shows : r.Shows s)
    (h : r.call nodeEntries mode (.trimUpTo cloneId last) = some (r', reply)) :
    ∃ s', s.Serves nodeEntries mode (.trimUpTo cloneId last, reply) s' ∧ r'.Shows s' := by
  rw [Redis.call, Redis.trimUpTo_text, Redis.xtrim, StreamId.text, StreamId.read_text] at h
  by_cases fits : last.next.ms < 2 ^ 64 ∧ last.next.seq < 2 ^ 64
  · rw [if_pos fits] at h
    by_cases written : cloneId ∈ s.written
    · rw [shows.held cloneId written] at h
      cases h
      exact ⟨_, .trimmed fits.1 fits.2, shows.update written _⟩
    · obtain ⟨none, empty⟩ := shows.unwritten cloneId written
      rw [none] at h
      cases h
      refine ⟨_, .trimmed fits.1 fits.2, ?_⟩
      have same : (s.stream cloneId).trimUpTo nodeEntries mode last = s.stream cloneId := by
        rw [empty]
        cases mode <;> rfl
      have unchanged : s.set cloneId ((s.stream cloneId).trimUpTo nodeEntries mode last) = s := by
        rw [same, Streams.set, Function.update_eq_self]
      rw [unchanged]
      exact shows
  · rw [if_neg fits] at h
    cases h
    refine ⟨s, .refused ?_, shows⟩
    rcases not_and_or.1 fits with full | full
    · exact .inl (Nat.le_of_not_lt full)
    · exact .inr (Nat.le_of_not_lt full)

/-- The keys SCAN lists are those of the clones that have been written to. -/
theorem Redis.Shows.listing {listing : List String} (shows : r.Shows s) (lists : r.Lists listing) :
    ∃ cloneIds : List Nat, cloneIds.map streamKey = listing ∧
      ∀ cloneId, cloneId ∈ cloneIds ↔ cloneId ∈ s.written := by
  have named : ∀ key ∈ listing, key ∈ Set.range streamKey := by
    intro key listed
    obtain ⟨member, prefixed⟩ := lists.1 key listed
    obtain ⟨cloneId, _, rfl⟩ := shows.keys key (AList.mem_keys.2 member) prefixed
    exact ⟨cloneId, rfl⟩
  obtain ⟨cloneIds, rfl⟩ : listing ∈ Set.range (List.map streamKey) := by
    rw [Set.range_list_map]
    exact named
  refine ⟨cloneIds, rfl, fun cloneId => ⟨fun listed => ?_, fun written => ?_⟩⟩
  · obtain ⟨member, prefixed⟩ := lists.1 _ (List.mem_map_of_mem listed)
    obtain ⟨other, written, same⟩ := shows.keys _ (AList.mem_keys.2 member) prefixed
    rwa [streamKey_injective same]
  · have member : streamKey cloneId ∈ r := by
      rw [← AList.lookup_isSome, shows.held cloneId written]
      rfl
    have listed := lists.2 _ (AList.mem_keys.1 member) (prefix_streamKey cloneId)
    exact (List.mem_map_of_injective streamKey_injective).1 listed

/-- A clone's id is read back out of its key. -/
theorem int_streamKey (cloneId : Nat) :
    Text.int? (Text.removePrefix streamKeyPrefix (streamKey cloneId)) = some (Int.ofNat cloneId) := by
  rw [streamKey, Text.removePrefix_append, Nat.toString_eq_repr, Text.int?_repr]
  rfl

theorem Redis.activeCloneIds_keys (cloneIds : List Nat) :
    Redis.activeCloneIds (cloneIds.map streamKey) = some (cloneIds.map Int.ofNat) := by
  rw [Redis.activeCloneIds, List.mapM_map]
  refine mapM_eq_some fun cloneId _ => ?_
  rw [Function.comp_apply, int_streamKey]

/-- Another program's command on a key of its own. -/
theorem Redis.Shows.other {key : String} {value : Option String} (shows : r.Shows s)
    (foreign : Foreign key)
    (h : r.call nodeEntries mode (.other key value) = some (r', reply)) :
    ∃ s', s.Serves nodeEntries mode (.other key value, reply) s' ∧ r'.Shows s' := by
  have here : r'.lookup key = value.map .other ∧ reply = .done := by
    cases value <;> cases h
    · exact ⟨AList.lookup_erase key r, rfl⟩
    · exact ⟨AList.lookup_insert r, rfl⟩
  have elsewhere : ∀ key' ≠ key, r'.lookup key' = r.lookup key' := by
    intro key' apart
    cases value <;> cases h
    · exact AList.lookup_erase_ne apart
    · exact AList.lookup_insert_ne apart
  obtain ⟨here, rfl⟩ := here
  refine ⟨_, .other key value, ?_, ?_, ?_, ?_⟩
  · intro cloneId written
    rw [elsewhere _ (foreign.ne cloneId).symm]
    exact shows.held cloneId written
  · intro cloneId unwritten
    rw [elsewhere _ (foreign.ne cloneId).symm]
    exact shows.unwritten cloneId unwritten
  · intro key' member prefixed
    have apart : key' ≠ key := by
      rintro rfl
      exact foreign prefixed
    rw [← AList.lookup_isSome, elsewhere key' apart, AList.lookup_isSome] at member
    exact shows.keys key' member prefixed
  · intro key' foreign'
    by_cases same : key' = key
    · rw [same, here]
      exact (Function.update_self key (value.map RedisValue.other) s.others).symm
    · rw [elsewhere key' same, shows.others key' foreign']
      exact (Function.update_of_ne same (value.map RedisValue.other) s.others).symm

/-- Other programs keep to their own keys. -/
def StreamCall.Apart : StreamCall → Prop
  | .other key _ => Foreign key
  | _ => True

instance : ∀ call : StreamCall, Decidable call.Apart
  | .other key _ => inferInstanceAs (Decidable (Foreign key))
  | .appendMemory .. | .readAll _ | .trimUpTo .. | .streamLength _ | .activeCloneIds _ =>
    isTrue trivial

/-- Each call is served. -/
theorem Redis.Shows.serves (shows : r.Shows s) (apart : call.Apart)
    (h : r.call nodeEntries mode call = some (r', reply)) :
    ∃ s', s.Serves nodeEntries mode (call, reply) s' ∧ r'.Shows s' := by
  cases call with
  | appendMemory => exact shows.append h
  | readAll cloneId =>
    simp only [Redis.call, Redis.readAll, shows.stream, Option.map_some, Option.getD_some] at h
    cases h
    exact ⟨s, .entries cloneId, shows⟩
  | trimUpTo => exact shows.trim h
  | streamLength cloneId =>
    simp only [Redis.call, shows.stream, Option.map_some, Option.getD_some] at h
    cases h
    exact ⟨s, .length cloneId, shows⟩
  | activeCloneIds listing =>
    simp only [Redis.call] at h
    split at h
    · rename_i lists
      obtain ⟨cloneIds, rfl, exactly⟩ := shows.listing lists
      rw [activeCloneIds_keys] at h
      cases h
      exact ⟨s, .ids exactly, shows⟩
    · cases h
  | other key value => exact shows.other apart h

end Calls

/-- A call and the reply to it. -/
def Redis.step (nodeEntries : Nat) (mode : TrimMode) (r : Redis) (a : StreamCall × StreamReply) :
    Option Redis :=
  (r.call nodeEntries mode a.1).bind fun (r', reply) => if reply = a.2 then some r' else none

/-- A keyspace in which no key has the prefix holds no stream. -/
theorem Redis.shows_of_foreign {r : Redis} (foreign : ∀ key ∈ r, Foreign key) :
    r.Shows ⟨fun _ => .empty, ∅, r.lookup⟩ where
  held _ written := absurd written (Set.notMem_empty _)
  unwritten cloneId _ := by
    refine ⟨AList.lookup_eq_none.2 fun member => ?_, rfl⟩
    exact foreign _ member (prefix_streamKey cloneId)
  keys key member prefixed := absurd prefixed (foreign key member)
  others _ _ := rfl

/-- **Under their keys the streams are as if each clone had its own.** Whatever else the database
holds: calls and replies are those of streams found by the clone's number, `active_clone_ids` lists
the clones that have been written to and no others, no call raises but a trim at the last sequence
number there is, and the other programs' keys have what they put there. -/
theorem keyspace_refines (nodeEntries : Nat) (mode : TrimMode) {r r' : Redis}
    {transcript : List (StreamCall × StreamReply)} (foreign : ∀ key ∈ r, Foreign key)
    (apart : ∀ a ∈ transcript, a.1.Apart)
    (run : Run.exec (Redis.step nodeEntries mode) r transcript = some r') :
    ∃ s', Run.Steps (Streams.Serves nodeEntries mode) ⟨fun _ => .empty, ∅, r.lookup⟩ transcript s' ∧
      r'.Shows s' := by
  refine Run.Guarded.refines (R := Redis.Shows) (fun r a r' s shows apart taken => ?_)
    (Redis.shows_of_foreign foreign) (Run.Guarded.of_mem r apart) run
  obtain ⟨⟨r'', reply⟩, called, same⟩ := Option.bind_eq_some_iff.1 taken
  obtain ⟨call, reply'⟩ := a
  simp only at same
  split at same
  · rename_i replied
    cases replied
    cases same
    exact shows.serves apart called
  · cases same

/-- The broker's queue beside the streams of clones 1 and 12; the first is trimmed and stays
listed. -/
def brokerBeside : Redis := AList.singleton "celery" (.other "[]")

def twoWritten : List (StreamCall × StreamReply) :=
  [(.appendMemory 12 "m" "2026-01-01T00:00:00+00:00" ⟨7, 0⟩ true, .appended "7-0" 1),
   (.appendMemory 1 "n" "2026-01-01T00:00:00+00:00" ⟨7, 9⟩ true, .appended "7-9" 1),
   (.other "celery" (some "[task]"), .done),
   (.trimUpTo 1 ⟨7, 9⟩, .done),
   (.activeCloneIds ["clone-stream:12", "clone-stream:1", "clone-stream:12"], .ids [12, 1, 12])]

theorem keyspace_refines_of_two_written :
    ∃ r' s', Run.exec (Redis.step 100 .approximate) brokerBeside twoWritten = some r' ∧
      Run.Steps (Streams.Serves 100 .approximate) ⟨fun _ => .empty, ∅, brokerBeside.lookup⟩
        twoWritten s' ∧
      r'.Shows s' := by
  have run : (Run.exec (Redis.step 100 .approximate) brokerBeside twoWritten).isSome = true := by
    decide
  obtain ⟨r', run⟩ := Option.isSome_iff_exists.1 run
  have foreign : ∀ key ∈ brokerBeside, Foreign key := by
    intro key member
    rw [AList.mem_keys, brokerBeside, AList.keys_singleton, List.mem_singleton] at member
    subst member
    decide
  obtain ⟨s', steps, shows⟩ := keyspace_refines 100 .approximate foreign (by decide) run
  exact ⟨r', s', run, steps, shows⟩

end Mycelium
