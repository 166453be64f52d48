import Mathlib.Algebra.Group.Nat.Defs
import Mathlib.Data.List.Basic

/-!
# MessagePack strings, arrays and maps

The part of the published encoding that has no numbers, booleans or extensions
in it. Every value starts with a header that says its kind and its count, in the
smallest of the forms the kind has; the count is of bytes for a string and of
items for an array or a map. What the strings are is a parameter, `Text`.

`pack` is partial: no form holds a count of `2 ^ 32`, and a text need not encode.
`unpack` reads one value off the front and returns the bytes behind it, so
nested values are read by reading on.
-/

namespace Msgpack

/-! ## Counts -/

/-- The low `w` bytes of `n`, most significant first. -/
def bigEndian : Nat → Nat → List UInt8
  | 0, _ => []
  | w + 1, n => UInt8.ofNat (n / 256 ^ w) :: bigEndian w n

def ofBigEndian : List UInt8 → Nat
  | [] => 0
  | b :: bytes => b.toNat * 256 ^ bytes.length + ofBigEndian bytes

@[simp] theorem length_bigEndian (w n : Nat) : (bigEndian w n).length = w := by
  induction w with
  | zero => rfl
  | succ w ih => simp only [bigEndian, List.length_cons, ih]

theorem ofBigEndian_bigEndian (w n : Nat) : ofBigEndian (bigEndian w n) = n % 256 ^ w := by
  induction w with
  | zero => simp [bigEndian, ofBigEndian, Nat.mod_one]
  | succ w ih =>
    have byte : (UInt8.ofNat (n / 256 ^ w)).toNat = n / 256 ^ w % 256 := UInt8.toNat_ofNat'
    rw [bigEndian, ofBigEndian, length_bigEndian, ih, byte, Nat.mod_pow_succ, Nat.mul_comm,
      Nat.add_comm]

/-- The first `n` bytes and the rest, when there are that many. -/
def split (n : Nat) (bytes : List UInt8) : Option (List UInt8 × List UInt8) :=
  if n ≤ bytes.length then some (bytes.take n, bytes.drop n) else none

theorem split_append (front rest : List UInt8) :
    split front.length (front ++ rest) = some (front, rest) := by
  simp [split]

/-! ## Headers -/

inductive Kind where
  | map
  | array
  | str
deriving DecidableEq, Repr

/-- The first byte of the fixed form at count 0. -/
def Kind.fix : Kind → Nat
  | .map => 0x80
  | .array => 0x90
  | .str => 0xa0

/-- The counts of the fixed form are below this. -/
def Kind.fixLimit : Kind → Nat
  | .map => 16
  | .array => 16
  | .str => 32

/-- The sized forms, smallest first: the first byte and the width of the count in bytes. -/
def Kind.sized : Kind → List (UInt8 × Nat)
  | .map => [(0xde, 2), (0xdf, 4)]
  | .array => [(0xdc, 2), (0xdd, 4)]
  | .str => [(0xd9, 1), (0xda, 2), (0xdb, 4)]

/-- The header of the smallest form that holds the count. -/
def header (k : Kind) (n : Nat) : Option (List UInt8) :=
  if n < k.fixLimit then some [UInt8.ofNat (k.fix + n)]
  else (k.sized.find? fun form => n < 256 ^ form.2).map fun form => form.1 :: bigEndian form.2 n

/-- The kind and the width of the count that a first byte of a sized form stands for. -/
def sizedForm (b : UInt8) : Option (Kind × Nat) :=
  if b = 0xd9 then some (.str, 1)
  else if b = 0xda then some (.str, 2)
  else if b = 0xdb then some (.str, 4)
  else if b = 0xdc then some (.array, 2)
  else if b = 0xdd then some (.array, 4)
  else if b = 0xde then some (.map, 2)
  else if b = 0xdf then some (.map, 4)
  else none

def readHeader : List UInt8 → Option ((Kind × Nat) × List UInt8)
  | [] => none
  | b :: bytes =>
    let n := b.toNat
    if 0x80 ≤ n ∧ n < 0x90 then some ((.map, n - 0x80), bytes)
    else if 0x90 ≤ n ∧ n < 0xa0 then some ((.array, n - 0x90), bytes)
    else if 0xa0 ≤ n ∧ n < 0xc0 then some ((.str, n - 0xa0), bytes)
    else do
      let (k, w) ← sizedForm b
      let (count, rest) ← split w bytes
      some ((k, ofBigEndian count), rest)

/-- A kind has a form for every count below `2 ^ 32` and for no other. -/
theorem header_isSome (k : Kind) (n : Nat) : (header k n).isSome ↔ n < 2 ^ 32 := by
  have small : k.fixLimit < 2 ^ 32 := by cases k <;> decide
  rw [header]
  split
  · simp only [Option.isSome_some, true_iff]
    omega
  · cases k <;>
      simp [Kind.sized, List.find?_cons] <;> grind

example : header .array 16 = some [0xdc, 0, 16] := by decide

/-- The first byte of a sized form is read as that form. -/
theorem sizedForm_of_sized {k : Kind} {form : UInt8 × Nat} (member : form ∈ k.sized) :
    sizedForm form.1 = some (k, form.2) ∧ 0xd9 ≤ form.1.toNat := by
  cases k <;> simp only [Kind.sized, List.mem_cons, List.not_mem_nil, or_false] at member
  · rcases member with rfl | rfl <;> decide
  · rcases member with rfl | rfl <;> decide
  · rcases member with rfl | rfl | rfl <;> decide

/-- The two ways to write a header. -/
theorem header_cases {k : Kind} {n : Nat} {h : List UInt8} (written : header k n = some h) :
    n < k.fixLimit ∧ h = [UInt8.ofNat (k.fix + n)] ∨
      ∃ form ∈ k.sized, n < 256 ^ form.2 ∧ h = form.1 :: bigEndian form.2 n := by
  rw [header] at written
  split at written
  · rename_i fits
    cases written
    exact .inl ⟨fits, rfl⟩
  · obtain ⟨form, found, same⟩ := Option.map_eq_some_iff.1 written
    have fits := List.find?_some found
    exact .inr ⟨form, List.mem_of_find?_eq_some found, by simpa using fits, same.symm⟩

theorem fix_toNat {k : Kind} {n : Nat} (fits : n < k.fixLimit) :
    (UInt8.ofNat (k.fix + n)).toNat = k.fix + n := by
  rw [UInt8.toNat_ofNat', Nat.mod_eq_of_lt]
  cases k <;> simp only [Kind.fix, Kind.fixLimit] at * <;> omega

/-- A header is read back, with whatever stands behind it left alone. -/
theorem readHeader_header {k : Kind} {n : Nat} {h : List UInt8} (written : header k n = some h)
    (rest : List UInt8) : readHeader (h ++ rest) = some ((k, n), rest) := by
  obtain ⟨fits, rfl⟩ | ⟨form, member, fits, rfl⟩ := header_cases written
  · rw [List.singleton_append, readHeader]
    simp only [fix_toNat fits]
    cases k <;> simp only [Kind.fix, Kind.fixLimit] at * <;> grind
  · obtain ⟨read, large⟩ := sizedForm_of_sized member
    have counted := split_append (bigEndian form.2 n) rest
    rw [length_bigEndian] at counted
    rw [List.cons_append, readHeader]
    simp only [read, counted, Option.bind_eq_bind, Option.bind_some, ofBigEndian_bigEndian,
      Nat.mod_eq_of_lt fits]
    grind

/-- No header starts below `0x80`. -/
theorem header_first {k : Kind} {n : Nat} {h : List UInt8} (written : header k n = some h) :
    ∃ b bytes, h = b :: bytes ∧ 0x80 ≤ b.toNat := by
  obtain ⟨fits, rfl⟩ | ⟨form, member, -, rfl⟩ := header_cases written
  · refine ⟨_, _, rfl, ?_⟩
    rw [fix_toNat fits]
    cases k <;> simp only [Kind.fix] <;> omega
  · have := (sizedForm_of_sized member).2
    exact ⟨_, _, rfl, by omega⟩

/-! ## Values -/

/-- How strings of type `σ` are written as bytes. -/
structure Text (σ : Type) where
  encode : σ → Option (List UInt8)
  decode : List UInt8 → Option σ
  decode_encode : ∀ {s bytes}, encode s = some bytes → decode bytes = some s

/-- A map is the list of its entries; its keys are strings. -/
inductive Value (σ : Type) where
  | str (s : σ)
  | array (items : List (Value σ))
  | map (entries : List (σ × Value σ))

variable {σ : Type} (T : Text σ)

def packStr (s : σ) : Option (List UInt8) := do
  let bytes ← T.encode s
  let h ← header .str bytes.length
  return h ++ bytes

mutual

def pack : Value σ → Option (List UInt8)
  | .str s => packStr T s
  | .array items => do
    let h ← header .array items.length
    let bytes ← packAll items
    return h ++ bytes
  | .map entries => do
    let h ← header .map entries.length
    let bytes ← packEntries entries
    return h ++ bytes

def packAll : List (Value σ) → Option (List UInt8)
  | [] => some []
  | v :: items => do
    let bytes ← pack v
    let more ← packAll items
    return bytes ++ more

def packEntries : List (σ × Value σ) → Option (List UInt8)
  | [] => some []
  | (key, v) :: entries => do
    let name ← packStr T key
    let bytes ← pack v
    let more ← packEntries entries
    return name ++ (bytes ++ more)

end

/-- The text whose header has been read. -/
def readText (n : Nat) (bytes : List UInt8) : Option (σ × List UInt8) := do
  let (text, rest) ← split n bytes
  let s ← T.decode text
  return (s, rest)

def readStr (bytes : List UInt8) : Option (σ × List UInt8) := do
  let ((k, n), rest) ← readHeader bytes
  if k = .str then readText T n rest else none

/-- `n` items, one after another. -/
def readAll {α : Type} (read : List UInt8 → Option (α × List UInt8)) :
    Nat → List UInt8 → Option (List α × List UInt8)
  | 0, bytes => some ([], bytes)
  | n + 1, bytes => do
    let (x, rest) ← read bytes
    let (items, rest) ← readAll read n rest
    return (x :: items, rest)

def readEntry {α : Type} (read : List UInt8 → Option (α × List UInt8)) (bytes : List UInt8) :
    Option ((σ × α) × List UInt8) := do
  let (key, rest) ← readStr T bytes
  let (x, rest) ← read rest
  return ((key, x), rest)

/-- One value off the front, nested no deeper than `fuel`. -/
def unpack : Nat → List UInt8 → Option (Value σ × List UInt8)
  | 0, _ => none
  | fuel + 1, bytes => do
    let ((k, n), rest) ← readHeader bytes
    match k with
    | .str => (readText T n rest).map fun (s, rest) => (.str s, rest)
    | .array => (readAll (unpack fuel) n rest).map fun (items, rest) => (.array items, rest)
    | .map => (readAll (readEntry T (unpack fuel)) n rest).map fun (es, rest) => (.map es, rest)

/-- The value that the whole of the bytes stand for. Each level of nesting takes a header, so the
bytes are at least as many as the levels. -/
def unpackb (bytes : List UInt8) : Option (Value σ) := do
  let (v, rest) ← unpack T bytes.length bytes
  if rest = [] then some v else none

/-! ## What can be packed -/

/-- The items written one after another. -/
def packMany {α : Type} (write : α → Option (List UInt8)) : List α → Option (List UInt8)
  | [] => some []
  | x :: items => do
    let bytes ← write x
    let more ← packMany write items
    return bytes ++ more

def packEntry (entry : σ × Value σ) : Option (List UInt8) := do
  let name ← packStr T entry.1
  let bytes ← pack T entry.2
  return name ++ bytes

theorem packAll_eq (items : List (Value σ)) : packAll T items = packMany (pack T) items := by
  induction items with
  | nil => rfl
  | cons v items ih => rw [packAll, packMany, ih]

theorem packEntries_eq (entries : List (σ × Value σ)) :
    packEntries T entries = packMany (packEntry T) entries := by
  induction entries with
  | nil => rfl
  | cons entry entries ih =>
    rw [packEntries, packMany, ih, packEntry]
    cases packStr T entry.1 <;> cases pack T entry.2 <;>
      simp only [Option.bind_eq_bind, Option.bind_none, Option.bind_some, Option.pure_def,
        List.append_assoc]

theorem packMany_isSome {α : Type} {write : α → Option (List UInt8)} {items : List α} :
    (packMany write items).isSome ↔ ∀ x ∈ items, (write x).isSome := by
  induction items with
  | nil => simp [packMany]
  | cons x items ih =>
    rw [packMany, List.forall_mem_cons, ← ih]
    cases write x <;> cases packMany write items <;> simp

/-- A text is packed when it encodes into fewer than `2 ^ 32` bytes. -/
def Text.Fits (s : σ) : Prop := ∃ bytes, T.encode s = some bytes ∧ bytes.length < 2 ^ 32

variable {T}

@[simp] theorem packStr_isSome {s : σ} : (packStr T s).isSome ↔ T.Fits s := by
  rw [packStr, Text.Fits]
  cases T.encode s with
  | none => simp
  | some bytes =>
    have := header_isSome .str bytes.length
    cases written : header .str bytes.length <;> simp_all

theorem pack_str_isSome {s : σ} : (pack T (.str s)).isSome ↔ T.Fits s := by
  rw [pack, packStr_isSome]

theorem pack_array_isSome {items : List (Value σ)} :
    (pack T (.array items)).isSome ↔
      items.length < 2 ^ 32 ∧ ∀ v ∈ items, (pack T v).isSome := by
  rw [pack, packAll_eq, ← header_isSome .array, ← packMany_isSome]
  cases header .array items.length <;> cases packMany (pack T) items <;> simp

theorem pack_map_isSome {entries : List (σ × Value σ)} :
    (pack T (.map entries)).isSome ↔
      entries.length < 2 ^ 32 ∧ ∀ e ∈ entries, T.Fits e.1 ∧ (pack T e.2).isSome := by
  have each : ∀ e : σ × Value σ, (packEntry T e).isSome ↔ T.Fits e.1 ∧ (pack T e.2).isSome := by
    intro e
    rw [packEntry, ← packStr_isSome]
    cases packStr T e.1 <;> cases pack T e.2 <;> simp
  simp only [← each]
  rw [pack, packEntries_eq, ← header_isSome .map, ← packMany_isSome]
  cases header .map entries.length <;> cases packMany (packEntry T) entries <;> simp

/-! ## Reading back -/

/-- `read` gives back what `write` wrote in at most `fuel` bytes. -/
def ReadsBack {α : Type} (fuel : Nat) (read : List UInt8 → Option (α × List UInt8))
    (write : α → Option (List UInt8)) : Prop :=
  ∀ x bytes, write x = some bytes → bytes.length ≤ fuel →
    ∀ rest, read (bytes ++ rest) = some (x, rest)

theorem ReadsBack.many {α : Type} {fuel : Nat} {read : List UInt8 → Option (α × List UInt8)}
    {write : α → Option (List UInt8)} (each : ReadsBack fuel read write) {items : List α} :
    ∀ {bytes}, packMany write items = some bytes → bytes.length ≤ fuel →
      ∀ rest, readAll read items.length (bytes ++ rest) = some (items, rest) := by
  induction items with
  | nil => intro bytes written _ rest; cases written; rfl
  | cons x items ih =>
    intro bytes written short rest
    simp only [packMany, Option.bind_eq_bind, Option.bind_eq_some_iff, Option.pure_def,
      Option.some.injEq] at written
    obtain ⟨front, first, back, others, rfl⟩ := written
    rw [List.length_append] at short
    have one := each x front first (by omega) (back ++ rest)
    have more := ih others (by omega) rest
    rw [List.append_assoc, List.length_cons, readAll, one]
    simp only [Option.bind_eq_bind, Option.bind_some, more, Option.pure_def]

theorem readText_append {s : σ} {bytes : List UInt8} (encoded : T.encode s = some bytes)
    (rest : List UInt8) : readText T bytes.length (bytes ++ rest) = some (s, rest) := by
  rw [readText, split_append]
  simp only [Option.bind_eq_bind, Option.bind_some, T.decode_encode encoded, Option.pure_def]

theorem packStr_eq_some {s : σ} {packed : List UInt8} (written : packStr T s = some packed) :
    ∃ bytes h, T.encode s = some bytes ∧ header .str bytes.length = some h ∧
      packed = h ++ bytes := by
  simp only [packStr, Option.bind_eq_bind, Option.bind_eq_some_iff, Option.pure_def,
    Option.some.injEq] at written
  obtain ⟨bytes, encoded, h, headed, rfl⟩ := written
  exact ⟨bytes, h, encoded, headed, rfl⟩

theorem readStr_packStr {s : σ} {packed : List UInt8} (written : packStr T s = some packed)
    (rest : List UInt8) : readStr T (packed ++ rest) = some (s, rest) := by
  obtain ⟨bytes, h, encoded, headed, rfl⟩ := packStr_eq_some written
  rw [List.append_assoc, readStr, readHeader_header headed]
  simp only [Option.bind_eq_bind, Option.bind_some, if_true, readText_append encoded]

theorem ReadsBack.entry {fuel : Nat} {read : List UInt8 → Option (Value σ × List UInt8)}
    (values : ReadsBack fuel read (pack T)) :
    ReadsBack fuel (readEntry T read) (packEntry T) := by
  intro e bytes written short rest
  simp only [packEntry, Option.bind_eq_bind, Option.bind_eq_some_iff, Option.pure_def,
    Option.some.injEq] at written
  obtain ⟨name, named, body, packed, rfl⟩ := written
  rw [List.length_append] at short
  have value := values e.2 body packed (by omega) rest
  rw [List.append_assoc, readEntry, readStr_packStr named]
  simp only [Option.bind_eq_bind, Option.bind_some, value, Option.pure_def]

/-- A packed value is a header and a body. -/
theorem pack_first {v : Value σ} {bytes : List UInt8} (packed : pack T v = some bytes) :
    ∃ b more, bytes = b :: more ∧ 0x80 ≤ b.toNat := by
  have of_header : ∀ {k n} {h body : List UInt8}, header k n = some h →
      ∃ b more, h ++ body = b :: more ∧ 0x80 ≤ b.toNat := by
    intro k n h body headed
    obtain ⟨b, more, rfl, large⟩ := header_first headed
    exact ⟨b, more ++ body, rfl, large⟩
  cases v with
  | str s =>
    obtain ⟨body, h, -, headed, rfl⟩ := packStr_eq_some (by simpa only [pack] using packed)
    exact of_header headed
  | array items | map entries =>
    simp only [pack, Option.bind_eq_bind, Option.bind_eq_some_iff, Option.pure_def,
      Option.some.injEq] at packed
    obtain ⟨h, headed, body, -, rfl⟩ := packed
    exact of_header headed

/-- Reading with as much fuel as there are bytes gives the value back. The induction is on the
fuel: the header uses up at least one byte, which pays for one level. -/
theorem unpack_pack (fuel : Nat) : ReadsBack fuel (unpack T fuel) (pack T) := by
  induction fuel with
  | zero =>
    intro v bytes packed short
    obtain ⟨b, more, rfl, -⟩ := pack_first packed
    simp at short
  | succ fuel ih =>
    intro v bytes packed short rest
    cases v with
    | str s =>
      obtain ⟨text, h, encoded, headed, rfl⟩ := packStr_eq_some (by simpa only [pack] using packed)
      rw [List.append_assoc, unpack, readHeader_header headed]
      simp only [Option.bind_eq_bind, Option.bind_some, readText_append encoded, Option.map_some]
    | array items =>
      simp only [pack, packAll_eq, Option.bind_eq_bind, Option.bind_eq_some_iff, Option.pure_def,
        Option.some.injEq] at packed
      obtain ⟨h, headed, body, written, rfl⟩ := packed
      obtain ⟨b, more, rfl, -⟩ := header_first headed
      have inside : body.length ≤ fuel := by simp at short; omega
      rw [List.append_assoc, unpack, readHeader_header headed]
      simp only [Option.bind_eq_bind, Option.bind_some, ih.many written inside, Option.map_some]
    | map entries =>
      simp only [pack, packEntries_eq, Option.bind_eq_bind, Option.bind_eq_some_iff,
        Option.pure_def, Option.some.injEq] at packed
      obtain ⟨h, headed, body, written, rfl⟩ := packed
      obtain ⟨b, more, rfl, -⟩ := header_first headed
      have inside : body.length ≤ fuel := by simp at short; omega
      rw [List.append_assoc, unpack, readHeader_header headed]
      simp only [Option.bind_eq_bind, Option.bind_some, ih.entry.many written inside,
        Option.map_some]

/-- Every value that can be packed is what its bytes stand for. -/
theorem unpackb_pack {v : Value σ} {bytes : List UInt8} (packed : pack T v = some bytes) :
    unpackb T bytes = some v := by
  have read := unpack_pack bytes.length v bytes packed (Nat.le_refl _) []
  rw [List.append_nil] at read
  rw [unpackb, read]
  rfl

end Msgpack
