import Mycelium.Shared.Streams
import Mycelium.Shared.Subscriptions
import Mathlib.Data.List.Forall2

/-!
# Rows, payloads and object keys (`shared/db/models.py`, `shared/backup_codec.py`,
`shared/object_storage.py`)

A buffer row stores its entries as one encoded blob beside their count. What the
entries are and how they are encoded is a `Format`: the type `ι` of payload items,
the projection `flush_one_stream` makes of a stream entry, and a codec into blobs
of type `β`. The pipeline never looks at an item except for its `captured_at`, so
the results hold for every format. `Format.items` is the code's own;
`Format.traced` keeps the whole stream entry, which tells two entries with the
same content apart.
-/

namespace Mycelium

inductive UserRole where
  | admin
  | clone
deriving DecidableEq, Repr

structure User where
  id : Nat
  email : String
  passwordHash : String
  role : UserRole
  isActive : Bool
  createdAt : Int
deriving DecidableEq, Repr

/-- `ACTIVE_STATUS`. -/
def activeStatus : String := "active"

structure CloneProfile where
  id : Nat
  designation : String
  status : String
  subscriptionTier : SubscriptionTier
  userId : Option Nat
  createdAt : Int
deriving DecidableEq, Repr

/-- A `memory_buffers` row; its key, the clone id, indexes the table. -/
structure MemoryBuffer (β : Type) where
  payloadBlob : β
  entryCount : Nat
deriving DecidableEq, Repr

/-- The parts of `backup_key`'s `clone-{id}/{start}_{end}-{uuid}.mp.gz`: the clone, the wall clock
readings of the two stamps in seconds, and the random suffix. -/
structure ObjectKey where
  cloneId : Nat
  periodStart : Int
  periodEnd : Int
  uuid : Nat
deriving DecidableEq, Repr

def backupKey (cloneId : Nat) (periodStart periodEnd : Datetime) (uuid : Nat) : ObjectKey :=
  ⟨cloneId, periodStart.wall / 1000000, periodEnd.wall / 1000000, uuid⟩

/-- A `memory_backups` row. -/
structure MemoryBackup where
  id : Nat
  cloneId : Nat
  periodStart : Int
  periodEnd : Int
  entryCount : Nat
  storageKey : ObjectKey
  subscriptionTier : SubscriptionTier
  createdAt : Int
  restoredAt : Option Int
deriving DecidableEq, Repr

/-- `encode_payload` and `decode_payload`; `none` is a decoding error. -/
structure Codec (ι β : Type) where
  encodePayload : List ι → β
  decodePayload : β → Option (List ι)
  decode_encode : ∀ items, decodePayload (encodePayload items) = some items

/-- The codec that stores the items as they are; examples use it. -/
def Codec.plain (ι : Type) : Codec ι (List ι) := ⟨id, some, fun _ => rfl⟩

/-- What a flush keeps of a stream entry and how a list of kept items is stored.
`fromisoformat` is the standard library's parser, `none` its ValueError. -/
structure Format (ι β : Type) extends Codec ι β where
  newItem : StreamEntry → ι
  capturedAt : ι → String
  fromisoformat : String → Option Datetime

/-- The dict `flush_one_stream` makes of an entry. -/
structure MemoryItem where
  content : String
  capturedAt : String
deriving DecidableEq, Repr

/-- The format of the code. -/
def Format.items {β : Type} (codec : Codec MemoryItem β)
    (fromisoformat : String → Option Datetime) : Format MemoryItem β where
  toCodec := codec
  newItem := fun e => ⟨e.content, e.capturedAt⟩
  capturedAt := MemoryItem.capturedAt
  fromisoformat := fromisoformat

/-- The format whose items are the stream entries themselves, ids included. -/
def Format.traced {β : Type} (codec : Codec StreamEntry β)
    (fromisoformat : String → Option Datetime) : Format StreamEntry β where
  toCodec := codec
  newItem := id
  capturedAt := StreamEntry.capturedAt
  fromisoformat := fromisoformat

/-- A successful traversal pairs each element with its result. -/
theorem forall₂_of_mapM {α γ : Type} {f : α → Option γ} {l : List α} {ys : List γ}
    (h : l.mapM f = some ys) : List.Forall₂ (fun x y => f x = some y) l ys := by
  induction l generalizing ys with
  | nil => cases h; exact .nil
  | cons x l ih =>
    simp only [List.mapM_cons, Option.pure_def, Option.bind_eq_bind, Option.bind_eq_some_iff] at h
    obtain ⟨y, hy, ys', hys, same⟩ := h
    cases same
    exact .cons hy (ih hys)

/-- A traversal that succeeds everywhere. -/
theorem mapM_eq_some {α γ : Type} {f : α → Option γ} {g : α → γ} {l : List α}
    (each : ∀ x ∈ l, f x = some (g x)) : l.mapM f = some (l.map g) := by
  induction l with
  | nil => rfl
  | cons x l ih =>
    have rest := ih fun y member => each y (List.mem_cons_of_mem x member)
    rw [List.mapM_cons, each x List.mem_cons_self, rest]
    rfl

namespace Format

variable {ι β : Type} (F : Format ι β)

/-- The row a flush or a revert writes for `items`. -/
def row (items : List ι) : MemoryBuffer β := ⟨F.encodePayload items, items.length⟩

/-- `MemoryBuffer.payload`. -/
def payload (buffer : MemoryBuffer β) : Option (List ι) :=
  if buffer.entryCount ≠ 0 then F.decodePayload buffer.payloadBlob else some []

/-- `existing_items`: the payload of the row, empty when there is no row. -/
def payloadOf : Option (MemoryBuffer β) → Option (List ι)
  | some buffer => F.payload buffer
  | none => some []

/-- The `captured_at` of an item as `rollup_clone` reads it. -/
def capturedTime (item : ι) : Option Datetime :=
  (F.fromisoformat (F.capturedAt item)).map Datetime.aware

/-- `period_start`; `none` when an item does not parse or there is none. -/
def periodStart (items : List ι) : Option Datetime :=
  (items.mapM F.capturedTime).bind Datetime.earliest

/-- `t` is the instant of the earliest `captured_at` among `items`. -/
structure Earliest (items : List ι) (t : Int) : Prop where
  attained : ∃ x ∈ items, ∃ d, F.capturedTime x = some d ∧ d.instant = t
  least : ∀ x ∈ items, ∃ d, F.capturedTime x = some d ∧ t ≤ d.instant

theorem encode_injective {items items' : List ι}
    (same : F.encodePayload items = F.encodePayload items') : items = items' := by
  have := congrArg F.decodePayload same
  simpa only [F.decode_encode, Option.some.injEq] using this

@[simp] theorem row_entryCount (items : List ι) : (F.row items).entryCount = items.length := rfl

@[simp] theorem payload_row (items : List ι) : F.payload (F.row items) = some items := by
  cases items with
  | nil => rfl
  | cons x items => simp [payload, row, F.decode_encode]

theorem periodStart_spec {items : List ι} {d : Datetime} (h : F.periodStart items = some d) :
    F.Earliest items d.instant := by
  obtain ⟨times, parsed, min⟩ := Option.bind_eq_some_iff.1 h
  obtain ⟨mem, least⟩ := Datetime.earliest_spec min
  have each := forall₂_of_mapM parsed
  constructor
  · obtain ⟨n, lt, rfl⟩ := List.getElem_of_mem mem
    have bound : n < items.length := each.length_eq ▸ lt
    exact ⟨items[n], List.getElem_mem bound, _, each.get bound lt, rfl⟩
  · intro x hx
    obtain ⟨n, lt, rfl⟩ := List.getElem_of_mem hx
    have bound : n < times.length := each.length_eq ▸ lt
    exact ⟨times[n], each.get lt bound, least _ (List.getElem_mem bound)⟩

end Format

/-- The columns an ORM UPDATE leaves in a row: those whose value differs from the one the session
holds as loaded are written, the others stay as the row has them. -/
def MemoryBuffer.writeChanged {β : Type} [DecidableEq β] (loaded new current : MemoryBuffer β) :
    MemoryBuffer β :=
  ⟨if new.payloadBlob = loaded.payloadBlob then current.payloadBlob else new.payloadBlob,
   if new.entryCount = loaded.entryCount then current.entryCount else new.entryCount⟩

/-- An UPDATE between payloads of different lengths writes both columns, whatever the row holds. -/
theorem Format.writeChanged_row {ι β : Type} [DecidableEq β] (F : Format ι β) {items items' : List ι}
    (differ : items'.length ≠ items.length) (current : MemoryBuffer β) :
    MemoryBuffer.writeChanged (F.row items) (F.row items') current = F.row items' := by
  have blobs : F.encodePayload items' ≠ F.encodePayload items :=
    fun same => differ (congrArg List.length (F.encode_injective same))
  simp [MemoryBuffer.writeChanged, row, blobs, differ]

end Mycelium
