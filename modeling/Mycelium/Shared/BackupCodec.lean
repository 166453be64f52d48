import Mycelium.Logic.Msgpack
import Mycelium.Logic.Table
import Mycelium.Shared.Models

/-!
# Payload bytes (`shared/backup_codec.py`)

A payload is packed with msgpack and kept in whichever of two forms is shorter,
the packed bytes or their gzip. Nothing records which one was kept:
`decode_payload` looks at the first two bytes. `Gzip` is what the code relies on
in the standard library's module.

msgpack has no form for every list. The packer raises on a str with a lone
surrogate, which has no UTF-8, and on a list, a dict or a str of `2 ^ 32` items,
fields or bytes. `Representable` is what is left, and `encode_payload` raises on
exactly the other lists.
-/

namespace Mycelium

abbrev Bytes := List UInt8

/-! ## Strings -/

/-- A Python str is any sequence of code points, surrogates among them. -/
abbrev CodePoint := Fin 0x110000

abbrev Str := List CodePoint

namespace CodePoint

def Surrogate (c : CodePoint) : Prop := 0xd800 ≤ c.val ∧ c.val ≤ 0xdfff

instance (c : CodePoint) : Decidable c.Surrogate := by unfold Surrogate; infer_instance

/-- The character of a code point; `none` for a surrogate. -/
def scalar (c : CodePoint) : Option Char :=
  if valid : c.val.isValidChar then some (Char.ofNatAux c.val valid) else none

def ofChar (c : Char) : CodePoint :=
  ⟨c.toNat, by
    have := c.valid
    simp only [UInt32.isValidChar, Nat.isValidChar, Char.toNat] at *
    omega⟩

theorem scalar_eq_some {c : CodePoint} {char : Char} (h : c.scalar = some char) :
    ofChar char = c := by
  by_cases valid : c.val.isValidChar
  · rw [scalar, dif_pos valid] at h
    cases h
    rfl
  · rw [scalar, dif_neg valid] at h
    cases h

theorem scalar_ofChar (char : Char) : (ofChar char).scalar = some char := by
  have valid : (ofChar char).val.isValidChar := char.valid
  rw [scalar, dif_pos valid]
  rfl

theorem scalar_isSome {c : CodePoint} : c.scalar.isSome ↔ ¬c.Surrogate := by
  have bound := c.isLt
  rw [Surrogate]
  by_cases valid : c.val.isValidChar
  · rw [scalar, dif_pos valid, Option.isSome_some, eq_self_iff_true, true_iff]
    simp only [Nat.isValidChar] at valid
    omega
  · rw [scalar, dif_neg valid, Option.isSome_none]
    simp only [Nat.isValidChar] at valid
    simp only [Bool.false_eq_true, false_iff]
    omega

end CodePoint

theorem mapM_scalar {s : Str} {chars : List Char} (h : s.mapM CodePoint.scalar = some chars) :
    chars.map CodePoint.ofChar = s := by
  induction s generalizing chars with
  | nil => cases h; rfl
  | cons c s ih =>
    simp only [List.mapM_cons, Option.pure_def, Option.bind_eq_bind, Option.bind_eq_some_iff] at h
    obtain ⟨char, one, more, rest, same⟩ := h
    cases same
    rw [List.map_cons, CodePoint.scalar_eq_some one, ih rest]

theorem mapM_scalar_isSome {s : Str} :
    (s.mapM CodePoint.scalar).isSome ↔ ∀ c ∈ s, ¬c.Surrogate := by
  induction s with
  | nil => simp
  | cons c s ih =>
    rw [List.forall_mem_cons, ← ih, ← CodePoint.scalar_isSome, List.mapM_cons]
    cases c.scalar <;> cases s.mapM CodePoint.scalar <;> simp

/-- The strict UTF-8 of a str; encoding it is an error where it has a surrogate, and so is decoding
bytes that no str has. -/
def utf8 : Msgpack.Text Str where
  encode s := (s.mapM CodePoint.scalar).map fun chars => chars.flatMap String.utf8EncodeChar
  decode bytes := bytes.toByteArray.utf8Decode?.map fun chars => chars.toList.map CodePoint.ofChar
  decode_encode := by
    intro s bytes encoded
    obtain ⟨chars, scalars, rfl⟩ := Option.map_eq_some_iff.1 encoded
    have decoded : (chars.flatMap String.utf8EncodeChar).toByteArray.utf8Decode? =
        some chars.toArray := List.utf8Decode?_utf8Encode
    rw [decoded, Option.map_some, mapM_scalar scalars]

/-- How many bytes a str takes. -/
def Str.utf8Length (s : Str) : Nat :=
  ((utf8.encode s).map List.length).getD 0

/-- msgpack has a form for the str. -/
def Str.Encodable (s : Str) : Prop := (∀ c ∈ s, ¬c.Surrogate) ∧ s.utf8Length < 2 ^ 32

instance (s : Str) : Decidable s.Encodable := by unfold Str.Encodable; infer_instance

theorem utf8_fits {s : Str} : utf8.Fits s ↔ s.Encodable := by
  rw [Str.Encodable, ← mapM_scalar_isSome, Msgpack.Text.Fits, Str.utf8Length]
  simp only [utf8]
  cases s.mapM CodePoint.scalar <;> simp

/-! ## Entries -/

/-- A dict from str to str: its fields in the order of insertion. -/
abbrev Entry := Table (Str × Str) Prod.fst

/-- `entry[key] = value`. -/
def Entry.set (entry : Entry) (field : Str × Str) : Entry :=
  match entry.insert field with
  | some entry' => entry'
  | none => entry.modify field.1 (fun old => (old.1, field.2)) fun _ => rfl

/-- The dict the unpacker fills as it reads the fields of a map. -/
def Entry.ofFields (fields : List (Str × Str)) : Entry := fields.foldl Entry.set .empty

/-- Fields with different keys are inserted one behind the other. -/
theorem Entry.foldl_set {fields : List (Str × Str)} {entry : Entry}
    (nodup : ((entry.rows ++ fields).map Prod.fst).Nodup) :
    (fields.foldl Entry.set entry).rows = entry.rows ++ fields := by
  induction fields generalizing entry with
  | nil => simp
  | cons field fields ih =>
    have fresh : field.1 ∉ entry.rows.map Prod.fst := by
      intro used
      rw [List.map_append, List.nodup_append'] at nodup
      exact nodup.2.2 used (by simp)
    obtain ⟨entry', inserted⟩ := Table.insert_of_fresh fresh
    have rows : entry'.rows = entry.rows ++ [field] := (Table.insert_eq_some inserted).2
    have one : entry.set field = entry' := by rw [Entry.set, inserted]
    rw [List.foldl_cons, one, ih (by rwa [rows, List.append_assoc]), rows, List.append_assoc]
    rfl

theorem Entry.ofFields_rows (entry : Entry) : Entry.ofFields entry.rows = entry := by
  have rows : (Entry.ofFields entry.rows).rows = entry.rows := Entry.foldl_set entry.nodup
  generalize Entry.ofFields entry.rows = filled at rows
  cases entry
  cases filled
  cases rows
  rfl

/-- The msgpack value of a list of dicts. -/
def Entry.toValue (entry : Entry) : Msgpack.Value Str :=
  .map (entry.rows.map fun field => (field.1, .str field.2))

def valueOf (entries : List Entry) : Msgpack.Value Str := .array (entries.map Entry.toValue)

def strOf : Msgpack.Value Str → Option Str
  | .str s => some s
  | _ => none

def fieldOf (field : Str × Msgpack.Value Str) : Option (Str × Str) :=
  (strOf field.2).map fun s => (field.1, s)

def entryOf : Msgpack.Value Str → Option Entry
  | .map fields => (fields.mapM fieldOf).map Entry.ofFields
  | _ => none

/-- The list of dicts a value is, `none` when it is anything else. -/
def entriesOf : Msgpack.Value Str → Option (List Entry)
  | .array items => items.mapM entryOf
  | _ => none

theorem entryOf_toValue (entry : Entry) : entryOf entry.toValue = some entry := by
  have fields : (entry.rows.map fun field => (field.1, Msgpack.Value.str field.2)).mapM fieldOf =
      some entry.rows := by
    rw [List.mapM_map]
    have each := mapM_eq_some (f := fun field : Str × Str => fieldOf (field.1, .str field.2))
      (g := id) (l := entry.rows) fun _ _ => rfl
    rwa [List.map_id] at each
  rw [Entry.toValue, entryOf, fields, Option.map_some, Entry.ofFields_rows]

theorem entriesOf_valueOf (entries : List Entry) : entriesOf (valueOf entries) = some entries := by
  have each := mapM_eq_some (f := fun entry : Entry => entryOf entry.toValue) (g := id)
    (l := entries) fun entry _ => entryOf_toValue entry
  rw [valueOf, entriesOf, List.mapM_map]
  rwa [List.map_id] at each

/-! ## `msgpack.packb` and `msgpack.unpackb` -/

def packb (entries : List Entry) : Option Bytes := Msgpack.pack utf8 (valueOf entries)

def unpackb (data : Bytes) : Option (List Entry) := (Msgpack.unpackb utf8 data).bind entriesOf

/-- The lists msgpack has a form for. -/
structure Representable (entries : List Entry) : Prop where
  few : entries.length < 2 ^ 32
  narrow : ∀ entry ∈ entries, entry.rows.length < 2 ^ 32
  texts : ∀ entry ∈ entries, ∀ field ∈ entry.rows, field.1.Encodable ∧ field.2.Encodable

theorem packb_isSome {entries : List Entry} : (packb entries).isSome ↔ Representable entries := by
  rw [packb, valueOf, Msgpack.pack_array_isSome, List.length_map]
  simp only [List.forall_mem_map, Entry.toValue, Msgpack.pack_map_isSome, List.length_map,
    Msgpack.pack_str_isSome, utf8_fits]
  constructor
  · rintro ⟨few, each⟩
    exact ⟨few, fun entry here => (each entry here).1, fun entry here => (each entry here).2⟩
  · intro h
    exact ⟨h.few, fun entry here => ⟨h.narrow entry here, h.texts entry here⟩⟩

/-- A part of what can be represented can be. -/
theorem Representable.sublist {entries part : List Entry} (h : Representable entries)
    (le : part.Sublist entries) : Representable part where
  few := le.length_le.trans_lt h.few
  narrow := fun entry here => h.narrow entry (le.subset here)
  texts := fun entry here => h.texts entry (le.subset here)

theorem unpackb_packb {entries : List Entry} {packed : Bytes} (h : packb entries = some packed) :
    unpackb packed = some entries := by
  rw [unpackb, Msgpack.unpackb_pack h, Option.bind_some, entriesOf_valueOf]

/-! ## The two formats -/

/-- `_GZIP_MAGIC`. -/
def gzipMagic : Bytes := [0x1f, 0x8b]

/-- `gzip.compress` at level 6 and `gzip.decompress`, `none` being its BadGzipFile. The header has
the time of the call in it. -/
structure Gzip where
  compress : Nat → Bytes → Bytes
  decompress : Bytes → Option Bytes
  decompress_compress : ∀ mtime data, decompress (compress mtime data) = some data
  compress_magic : ∀ mtime data, (compress mtime data).take 2 = gzipMagic

/-- The module on the calls of `tape`, each with its time, its data and what it returned. Other data
goes behind the magic and a 0, where a gzip has an 8; examples use it. -/
def Gzip.recorded (tape : List ((Nat × Bytes) × Bytes))
    (real : ∀ call ∈ tape, call.2.take 3 = gzipMagic ++ [8])
    (distinct : ∀ call ∈ tape, ∀ call' ∈ tape, call.2 = call'.2 → call.1.2 = call'.1.2) : Gzip where
  compress mtime data :=
    match tape.find? fun call => call.1 = (mtime, data) with
    | some call => call.2
    | none => gzipMagic ++ 0 :: data
  decompress data :=
    match tape.find? fun call => call.2 = data with
    | some call => some call.1.2
    | none => if data.take 3 = gzipMagic ++ [0] then some (data.drop 3) else none
  decompress_compress := by
    intro mtime data
    cases found : tape.find? fun call => call.1 = (mtime, data) with
    | some call =>
      have member := List.mem_of_find?_eq_some found
      have key : call.1 = (mtime, data) := by simpa using List.find?_some found
      cases again : tape.find? fun call' => call'.2 = call.2 with
      | some call' =>
        have same : call'.2 = call.2 := by simpa using List.find?_some again
        have := distinct call' (List.mem_of_find?_eq_some again) call member same
        simp only [this, key]
      | none =>
        have := List.find?_eq_none.1 again call member
        simp at this
    | none =>
      have fresh : (tape.find? fun call => call.2 = gzipMagic ++ 0 :: data) = none := by
        rw [List.find?_eq_none]
        intro call member same
        have head := real call member
        rw [of_decide_eq_true same] at head
        simp [gzipMagic] at head
      simp only [fresh]
      rfl
  compress_magic := by
    intro mtime data
    split
    · rename_i call found
      have head := congrArg (List.take 2) (real call (List.mem_of_find?_eq_some found))
      rwa [List.take_take] at head
    · rfl

variable (Z : Gzip)

/-- `encode_payload`; `none` when the packer raises. -/
def encodePayload (mtime : Nat) (entries : List Entry) : Option Bytes := do
  let packed ← packb entries
  let compressed := Z.compress mtime packed
  return if compressed.length < packed.length then compressed else packed

/-- `decode_payload`. -/
def decodePayload (data : Bytes) : Option (List Entry) := do
  let data ← if data.take 2 = gzipMagic then Z.decompress data else some data
  unpackb data

variable {Z}

/-- Packed bytes are never taken for a gzip. -/
theorem packb_take {entries : List Entry} {packed : Bytes} (h : packb entries = some packed) :
    packed.take 2 ≠ gzipMagic := by
  obtain ⟨b, more, rfl, large⟩ := Msgpack.pack_first h
  intro same
  have first : b = 0x1f := by
    rw [List.take_succ_cons, gzipMagic, List.cons.injEq] at same
    exact same.1
  rw [first] at large
  exact absurd large (by decide)

theorem decodePayload_packed {entries : List Entry} {packed : Bytes}
    (h : packb entries = some packed) : decodePayload Z packed = some entries := by
  rw [decodePayload, if_neg (packb_take h)]
  exact unpackb_packb h

theorem decodePayload_compressed {entries : List Entry} {packed : Bytes}
    (h : packb entries = some packed) (mtime : Nat) :
    decodePayload Z (Z.compress mtime packed) = some entries := by
  rw [decodePayload, if_pos (Z.compress_magic mtime packed), Z.decompress_compress]
  exact unpackb_packb h

/-- What `encode_payload` returns is one of the two forms, and not the longer one. -/
theorem encodePayload_eq_some {mtime : Nat} {entries : List Entry} {blob : Bytes}
    (h : encodePayload Z mtime entries = some blob) :
    ∃ packed, packb entries = some packed ∧ blob.length ≤ packed.length ∧
      (blob = packed ∨ blob = Z.compress mtime packed) := by
  simp only [encodePayload, Option.bind_eq_bind, Option.bind_eq_some_iff, Option.pure_def,
    Option.some.injEq] at h
  obtain ⟨packed, written, rfl⟩ := h
  refine ⟨packed, written, ?_⟩
  split
  · rename_i shorter
    exact ⟨shorter.le, .inr rfl⟩
  · exact ⟨le_rfl, .inl rfl⟩

theorem decode_encodePayload {mtime : Nat} {entries : List Entry} {blob : Bytes}
    (h : encodePayload Z mtime entries = some blob) : decodePayload Z blob = some entries := by
  obtain ⟨packed, written, -, rfl | rfl⟩ := encodePayload_eq_some h
  · exact decodePayload_packed written
  · exact decodePayload_compressed written mtime

theorem encodePayload_isSome (mtime : Nat) {entries : List Entry} :
    (encodePayload Z mtime entries).isSome ↔ Representable entries := by
  rw [← packb_isSome, encodePayload]
  cases packb entries <;> simp

end Mycelium
