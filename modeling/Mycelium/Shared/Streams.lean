import Mycelium.Logic.Log
import Mathlib.Data.Prod.Lex

/-!
# One clone's Redis stream (`shared/streams.py`)

Redis keeps a stream as a list of internal nodes of up to
`stream-node-max-entries` entries each. The nodes matter only to
`XTRIM MINID ~`, which evicts whole leading nodes; every other command sees
`entries`, the nodes one after another.

redis-py's `xtrim` takes `approximate=True` unless it is told otherwise, and
`trim_up_to` does not say. `TrimMode` keeps both commands, so that a result can
also be stated for a server that trims exactly.
-/

namespace Mycelium

/-- A stream entry id, `ms-seq`, ordered by time part and then by sequence part. -/
structure StreamId where
  ms : Nat
  seq : Nat
deriving DecidableEq, Repr

instance : LinearOrder StreamId :=
  LinearOrder.lift' (fun i => toLex (i.ms, i.seq)) fun i j same => by
    cases i; cases j; simpa using same

theorem StreamId.lt_iff {i j : StreamId} :
    i < j ↔ i.ms < j.ms ∨ i.ms = j.ms ∧ i.seq < j.seq := Prod.Lex.toLex_lt_toLex

theorem StreamId.le_iff {i j : StreamId} :
    i ≤ j ↔ i.ms < j.ms ∨ i.ms = j.ms ∧ i.seq ≤ j.seq := Prod.Lex.toLex_le_toLex

/-- The id `trim_up_to` passes as MINID: `f"{ms}-{int(seq) + 1}"`. -/
def StreamId.next (i : StreamId) : StreamId := ⟨i.ms, i.seq + 1⟩

/-- Below the next id means not past the id. -/
theorem StreamId.lt_next_iff {i j : StreamId} : i < j.next ↔ i ≤ j := by
  simp only [lt_iff, le_iff, next]
  omega

structure StreamEntry where
  id : StreamId
  content : String
  capturedAt : String
deriving DecidableEq, Repr

/-- What the server holds under `clone-stream:<id>`: the nodes, and the last id it generated
(which outlives the entry it was given to). -/
structure Stream where
  nodes : List (List StreamEntry)
  lastId : StreamId
deriving DecidableEq, Repr

/-- How XTRIM MINID treats a node that is only partly below the threshold. -/
inductive TrimMode where
  | exact
  | approximate
deriving DecidableEq, Repr

namespace Stream

def empty : Stream := ⟨[], ⟨0, 0⟩⟩

/-- What XRANGE and `read_all` return. -/
def entries (s : Stream) : List StreamEntry := s.nodes.flatten

/-- Where XADD puts an entry: into the last node, or into a new one when the last node holds
`limit` entries or is full in bytes (`newNode`). -/
def addNode (limit : Nat) (newNode : Bool) (e : StreamEntry) :
    List (List StreamEntry) → List (List StreamEntry)
  | [] => [[e]]
  | [node] => if newNode || limit ≤ node.length then [node, [e]] else [node ++ [e]]
  | node :: rest => node :: addNode limit newNode e rest

/-- `append_memory`'s XADD of an entry the server has just given an id. -/
def xadd (limit : Nat) (newNode : Bool) (e : StreamEntry) (s : Stream) : Stream :=
  ⟨addNode limit newNode e s.nodes, e.id⟩

/-- XTRIM MINID ~: leading nodes go while all their ids are below `minid` and no more than
`budget` entries have gone; the first node that may not go ends the command. -/
def evict (minid : StreamId) : Nat → List (List StreamEntry) → List (List StreamEntry)
  | _, [] => []
  | budget, node :: rest =>
    if node.length ≤ budget ∧ ∀ e ∈ node, e.id < minid then
      evict minid (budget - node.length) rest
    else node :: rest

/-- XTRIM MINID, with the default LIMIT of 100 times the node size when it is approximate. -/
def xtrim (limit : Nat) (mode : TrimMode) (minid : StreamId) (s : Stream) : Stream :=
  match mode with
  | .exact => { s with nodes := s.nodes.map (Log.cut StreamEntry.id minid) }
  | .approximate => { s with nodes := evict minid (100 * limit) s.nodes }

/-- `trim_up_to(clone_id, last_entry_id)`. -/
def trimUpTo (limit : Nat) (mode : TrimMode) (last : StreamId) (s : Stream) : Stream :=
  s.xtrim limit mode last.next

/-- `stream_length`, XLEN. -/
def length (s : Stream) : Nat := s.entries.length

@[simp] theorem entries_empty : empty.entries = [] := rfl

theorem flatten_addNode (limit : Nat) (newNode : Bool) (e : StreamEntry)
    (nodes : List (List StreamEntry)) :
    (addNode limit newNode e nodes).flatten = nodes.flatten ++ [e] := by
  induction nodes with
  | nil => rfl
  | cons node rest ih =>
    cases rest with
    | nil => simp only [addNode]; split <;> simp
    | cons node' rest => simp only [addNode, List.flatten_cons, ih, List.append_assoc]

@[simp] theorem entries_xadd (limit : Nat) (newNode : Bool) (e : StreamEntry) (s : Stream) :
    (s.xadd limit newNode e).entries = s.entries ++ [e] := flatten_addNode ..

@[simp] theorem lastId_xadd (limit : Nat) (newNode : Bool) (e : StreamEntry) (s : Stream) :
    (s.xadd limit newNode e).lastId = e.id := rfl

@[simp] theorem lastId_trimUpTo (limit : Nat) (mode : TrimMode) (last : StreamId) (s : Stream) :
    (s.trimUpTo limit mode last).lastId = s.lastId := by
  cases mode <;> rfl

/-! ## What a trim removes -/

/-- An approximate trim drops a front of the node list, all of it below the threshold and
within the budget. -/
theorem evict_split (minid : StreamId) (budget : Nat) (nodes : List (List StreamEntry)) :
    ∃ front, nodes = front ++ evict minid budget nodes ∧ front.flatten.length ≤ budget ∧
      ∀ e ∈ front.flatten, e.id < minid := by
  induction nodes generalizing budget with
  | nil => exact ⟨[], rfl, Nat.zero_le _, by simp⟩
  | cons node rest ih =>
    by_cases drop : node.length ≤ budget ∧ ∀ e ∈ node, e.id < minid
    · obtain ⟨front, split, within, below⟩ := ih (budget - node.length)
      refine ⟨node :: front, ?_, ?_, ?_⟩
      · rw [evict, if_pos drop, List.cons_append, ← split]
      · rw [List.flatten_cons, List.length_append]
        have := drop.1
        omega
      · intro e he
        rcases List.mem_append.1 (List.flatten_cons ▸ he) with here | there
        · exact drop.2 e here
        · exact below e there
    · exact ⟨[], by rw [evict, if_neg drop, List.nil_append], Nat.zero_le _, by simp⟩

/-- Whole leading nodes that are below the threshold and within the budget go, and where every
later entry is past the threshold nothing else does. -/
theorem flatten_evict_of_front {minid : StreamId} (front back : List (List StreamEntry)) :
    ∀ budget, front.flatten.length ≤ budget → (∀ e ∈ front.flatten, e.id < minid) →
      (∀ e ∈ back.flatten, minid ≤ e.id) →
      (evict minid budget (front ++ back)).flatten = back.flatten := by
  induction front with
  | nil =>
    intro budget _ _ above
    obtain ⟨gone, split, _, below⟩ := evict_split minid budget back
    have none : gone.flatten = [] := List.eq_nil_iff_forall_not_mem.2 fun e he =>
      absurd (below e he) (not_lt_of_ge (above e (by rw [split]; simp [he])))
    have whole := congrArg List.flatten split
    rw [List.flatten_append, none, List.nil_append] at whole
    exact whole.symm
  | cons node front ih =>
    intro budget within below above
    rw [List.flatten_cons, List.length_append] at within
    have drop : node.length ≤ budget ∧ ∀ e ∈ node, e.id < minid :=
      ⟨by omega, fun e he => below e (by simp [he])⟩
    rw [List.cons_append, evict, if_pos drop]
    exact ih _ (by omega) (fun e he => below e (by simp [he])) above

/-- An exact trim keeps the entries that are not below the threshold. -/
theorem entries_xtrim_exact (limit : Nat) (minid : StreamId) (s : Stream) :
    (s.xtrim limit .exact minid).entries = Log.cut StreamEntry.id minid s.entries := by
  simp only [xtrim, entries, Log.cut, List.filter_flatten]
  rfl

/-- In either mode a trim only removes entries. -/
theorem entries_xtrim_sublist (limit : Nat) (mode : TrimMode) (minid : StreamId) (s : Stream) :
    (s.xtrim limit mode minid).entries.Sublist s.entries := by
  cases mode with
  | exact =>
    rw [entries_xtrim_exact]
    exact List.filter_sublist
  | approximate =>
    obtain ⟨front, split, _, _⟩ := evict_split minid (100 * limit) s.nodes
    rw [entries, entries, split, List.flatten_append]
    exact List.sublist_append_right ..

/-- In either mode a trim of an ordered stream drops entries from its front only. -/
theorem entries_xtrim_suffix {s : Stream} (ordered : Log.Ordered StreamEntry.id s.entries)
    (limit : Nat) (mode : TrimMode) (minid : StreamId) :
    (s.xtrim limit mode minid).entries <:+ s.entries := by
  cases mode with
  | exact =>
    rw [entries_xtrim_exact]
    exact ordered.cut_suffix minid
  | approximate =>
    obtain ⟨front, split, _, _⟩ := evict_split minid (100 * limit) s.nodes
    exact ⟨front.flatten, by rw [entries, xtrim, ← List.flatten_append, ← split]; rfl⟩

/-- In either mode only entries below the threshold go. -/
theorem lt_of_xtrimmed {s : Stream} {limit : Nat} {mode : TrimMode} {minid : StreamId}
    {e : StreamEntry} (before : e ∈ s.entries) (after : e ∉ (s.xtrim limit mode minid).entries) :
    e.id < minid := by
  cases mode with
  | exact =>
    rw [entries_xtrim_exact, Log.mem_cut] at after
    exact lt_of_not_ge fun le => after ⟨before, le⟩
  | approximate =>
    obtain ⟨front, split, _, below⟩ := evict_split minid (100 * limit) s.nodes
    rw [entries, split, List.flatten_append] at before
    rcases List.mem_append.1 before with gone | kept
    · exact below e gone
    · exact absurd kept after

end Stream

end Mycelium
