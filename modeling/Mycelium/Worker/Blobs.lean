import Mycelium.Shared.BackupCodec
import Mycelium.Worker.Flush

/-!
# Buffer rows as bytes (`celery_worker/flush.py`, `MemoryBuffer.payload`)

A flush decodes the row, appends the new entries and encodes the whole again,
each time in whichever format is shorter then. A row `Holds` the entries its
bytes decode to, with their number beside them; every flush takes a row that
holds some entries to one that holds them and the batch.

The rest of the development keeps rows in an abstract format that can encode
every list. `flushRow` is the row's part of `flush_one_stream` in bytes, and it
agrees with `flushOneStream` on what a row holds.
-/

namespace Mycelium

variable {Z : Gzip}

/-- A row as the database has it. -/
abbrev BlobRow := MemoryBuffer Bytes

section Definitions

variable (Z)

/-- `MemoryBuffer.payload`. -/
def BlobRow.payload (buffer : BlobRow) : Option (List Entry) :=
  if buffer.entryCount ≠ 0 then decodePayload Z buffer.payloadBlob else some []

/-- `existing_items`. -/
def existingItems : Option BlobRow → Option (List Entry)
  | some buffer => buffer.payload Z
  | none => some []

/-- The two columns a flush sets; `none` when `encode_payload` raises. -/
def encodeRow (mtime : Nat) (entries : List Entry) : Option BlobRow :=
  (encodePayload Z mtime entries).map fun blob => ⟨blob, entries.length⟩

/-- Decode the row, append the batch, encode. -/
def flushBatch (row : Option BlobRow) (mtime : Nat) (batch : List Entry) : Option BlobRow := do
  let existing ← existingItems Z row
  encodeRow Z mtime (existing ++ batch)

/-- A flush of each batch, at the time beside it. -/
def flushBatches (row : Option BlobRow) (batches : List (Nat × List Entry)) :
    Option (Option BlobRow) :=
  batches.foldlM (fun row batch => (flushBatch Z row batch.1 batch.2).map some) row

/-- The entries of all the batches, in order. -/
def concatenation (batches : List (Nat × List Entry)) : List Entry := batches.flatMap Prod.snd

/-- `entry_count`, 0 where there is no row. -/
def entryCountOf (row : Option BlobRow) : Nat := (row.map MemoryBuffer.entryCount).getD 0

/-- What stands in a row. -/
structure Holds (row : Option BlobRow) (entries : List Entry) : Prop where
  payload : existingItems Z row = some entries
  counted : entryCountOf row = entries.length

end Definitions

theorem holds_none : Holds Z none [] := ⟨rfl, rfl⟩

theorem holds_encodeRow {mtime : Nat} {entries : List Entry} {row : BlobRow}
    (h : encodeRow Z mtime entries = some row) : Holds Z (some row) entries := by
  obtain ⟨blob, encoded, rfl⟩ := Option.map_eq_some_iff.1 h
  have decoded := decode_encodePayload encoded
  refine ⟨?_, rfl⟩
  cases entries with
  | nil => rfl
  | cons entry entries => simpa [existingItems, BlobRow.payload] using decoded

theorem encodeRow_isSome (mtime : Nat) {entries : List Entry} :
    (encodeRow Z mtime entries).isSome ↔ Representable entries := by
  rw [encodeRow, Option.isSome_map, encodePayload_isSome]

/-- One flush. -/
theorem Holds.flushBatch {row : Option BlobRow} {entries : List Entry} (h : Holds Z row entries)
    (mtime : Nat) (batch : List Entry) :
    flushBatch Z row mtime batch = encodeRow Z mtime (entries ++ batch) := by
  rw [Mycelium.flushBatch, h.payload]
  rfl

theorem concatenation_cons (batch : Nat × List Entry) (batches : List (Nat × List Entry)) :
    concatenation (batch :: batches) = batch.2 ++ concatenation batches := List.flatMap_cons

/-- Any number of flushes. -/
theorem Holds.flushBatches {batches : List (Nat × List Entry)} :
    ∀ {row : Option BlobRow} {entries : List Entry}, Holds Z row entries →
      Representable (entries ++ concatenation batches) →
      ∃ row', flushBatches Z row batches = some row' ∧
        Holds Z row' (entries ++ concatenation batches) := by
  induction batches with
  | nil =>
    intro row entries h _
    exact ⟨row, rfl, by rwa [concatenation, List.flatMap_nil, List.append_nil]⟩
  | cons batch batches ih =>
    intro row entries h fits
    rw [concatenation_cons, ← List.append_assoc] at fits ⊢
    have first : Representable (entries ++ batch.2) := fits.sublist (List.sublist_append_left ..)
    obtain ⟨next, encoded⟩ := Option.isSome_iff_exists.1
      ((encodeRow_isSome (Z := Z) batch.1).2 first)
    obtain ⟨row', run, holds⟩ := ih (holds_encodeRow encoded) fits
    refine ⟨row', ?_, holds⟩
    rw [Mycelium.flushBatches, List.foldlM_cons, h.flushBatch, encoded]
    exact run

/-- Where all the batches together have no form, one of the flushes raises. -/
theorem Holds.flushBatches_none {batches : List (Nat × List Entry)} :
    ∀ {row : Option BlobRow} {entries : List Entry}, Holds Z row entries → Representable entries →
      ¬Representable (entries ++ concatenation batches) →
      Mycelium.flushBatches Z row batches = none := by
  induction batches with
  | nil =>
    intro row entries _ fits large
    rw [concatenation, List.flatMap_nil, List.append_nil] at large
    exact absurd fits large
  | cons batch batches ih =>
    intro row entries h fits large
    rw [concatenation_cons, ← List.append_assoc] at large
    rw [Mycelium.flushBatches, List.foldlM_cons, h.flushBatch]
    cases encoded : encodeRow Z batch.1 (entries ++ batch.2) with
    | none => rfl
    | some next =>
      have here : Representable (entries ++ batch.2) :=
        (encodeRow_isSome batch.1).1 (Option.isSome_iff_exists.2 ⟨next, encoded⟩)
      exact ih (holds_encodeRow encoded) here large

/-! ## The abstract row and the bytes -/

def Str.ofString (s : String) : Str := s.toList.map CodePoint.ofChar

theorem Str.ofString_injective : Function.Injective Str.ofString := by
  have chars : Function.Injective CodePoint.ofChar := by
    intro c d same
    have := congrArg CodePoint.scalar same
    simpa only [CodePoint.scalar_ofChar, Option.some.injEq] using this
  intro s t same
  exact String.toList_injective (chars.list_map same)

/-- The dict of an item. -/
def MemoryItem.toEntry (item : MemoryItem) : Entry :=
  ⟨[(.ofString "content", .ofString item.content),
    (.ofString "captured_at", .ofString item.capturedAt)], by
    have different : Str.ofString "content" ≠ Str.ofString "captured_at" :=
      Str.ofString_injective.ne (by decide)
    simpa using different⟩

/-- The dict `flush_one_stream` makes of a stream entry. -/
def StreamEntry.toEntry (e : StreamEntry) : Entry := MemoryItem.toEntry ⟨e.content, e.capturedAt⟩

/-- A `str` that redis decoded has no surrogates in it. -/
theorem Str.encode_ofString (s : String) :
    utf8.encode (.ofString s) = some (s.toList.flatMap String.utf8EncodeChar) := by
  have scalars : (Str.ofString s).mapM CodePoint.scalar = some s.toList := by
    have each := mapM_eq_some (f := fun c => (CodePoint.ofChar c).scalar) (g := id)
      (l := s.toList) fun c _ => CodePoint.scalar_ofChar c
    rw [Str.ofString, List.mapM_map]
    rwa [List.map_id] at each
  simp only [utf8, scalars, Option.map_some]

theorem Str.encodable_ofString {s : String} (short : s.utf8ByteSize < 2 ^ 32) :
    (Str.ofString s).Encodable := by
  have length : (s.toList.flatMap String.utf8EncodeChar).length = s.utf8ByteSize := by
    rw [← String.size_toByteArray, ← String.utf8Encode_toList]
    exact (List.size_toByteArray ..).symm
  exact utf8_fits.1 ⟨_, Str.encode_ofString s, by omega⟩

/-- What can keep a flush from encoding is size alone. -/
theorem representable_items (items : List MemoryItem) (few : items.length < 2 ^ 32)
    (short : ∀ item ∈ items, item.content.utf8ByteSize < 2 ^ 32 ∧
      item.capturedAt.utf8ByteSize < 2 ^ 32) :
    Representable (items.map MemoryItem.toEntry) where
  few := by rwa [List.length_map]
  narrow := by
    simp [MemoryItem.toEntry]
  texts := by
    simp only [List.forall_mem_map, MemoryItem.toEntry, List.mem_cons, List.not_mem_nil, or_false]
    rintro item here field (rfl | rfl)
    · exact ⟨Str.encodable_ofString (by decide), Str.encodable_ofString (short item here).1⟩
    · exact ⟨Str.encodable_ofString (by decide), Str.encodable_ofString (short item here).2⟩

variable (Z) in
/-- The clone's row after `flush_one_stream`, in bytes. -/
def flushRow (mtime revertTime : Nat) (fault : Option FlushFault) (entries : List StreamEntry)
    (row : Option BlobRow) : Option BlobRow :=
  if fault = some .readAll ∨ entries = [] ∨ fault = some .getBuffer then row
  else
    match existingItems Z row with
    | none => row
    | some existing =>
      match encodeRow Z mtime (existing ++ entries.map StreamEntry.toEntry) with
      | none => row
      | some flushed =>
        match fault with
        | some .commit => row
        | some (.trim _ true) => some ((encodeRow Z revertTime existing).getD flushed)
        | _ => some flushed

variable {β : Type} {S : Service MemoryItem β} {s : Store β}

variable (Z S) in
/-- The row of the model and the row in bytes hold the same items. -/
def SameItems (abs : Option (MemoryBuffer β)) (row : Option BlobRow) (items : List MemoryItem) :
    Prop :=
  S.payloadOf abs = some items ∧ Holds Z row (items.map MemoryItem.toEntry)

/-- The clone's row after `flush_one_stream`. -/
theorem flushOneStream_buffers {existing : List MemoryItem}
    (read : S.payloadOf (s.buffers S.cloneId) = some existing) (fault : Option FlushFault) :
    (flushOneStream S s fault).1.buffers S.cloneId =
      if fault = some .readAll ∨ (s.streams S.cloneId).entries = [] ∨ fault = some .getBuffer then
        s.buffers S.cloneId
      else
        match fault with
        | some .commit => s.buffers S.cloneId
        | some (.trim _ true) => some (S.row existing)
        | _ => some (S.row (existing ++ S.newItems (s.streams S.cloneId).entries)) := by
  unfold flushOneStream
  by_cases drained : (s.streams S.cloneId).entries = []
  · cases fault with
    | none => simp [drained]
    | some fault => cases fault <;> simp [drained]
  · cases fault with
    | none => simp [drained, read, Store.setBuffer, Store.setStream]
    | some fault =>
      cases fault with
      | readAll | getBuffer | commit => simp [drained, read]
      | trim applied reverted =>
        cases applied <;> cases reverted <;>
          simp [drained, read, Store.setBuffer, Store.setStream]

/-- A flush leaves the two rows with the same items, however it ends. -/
theorem flushOneStream_sameItems (code : S.newItem = fun e => ⟨e.content, e.capturedAt⟩)
    {row : Option BlobRow} {items : List MemoryItem}
    (same : SameItems Z S (s.buffers S.cloneId) row items)
    (fits : Representable (items.map MemoryItem.toEntry ++
      (s.streams S.cloneId).entries.map StreamEntry.toEntry))
    (mtime revertTime : Nat) (fault : Option FlushFault) :
    ∃ items', SameItems Z S ((flushOneStream S s fault).1.buffers S.cloneId)
      (flushRow Z mtime revertTime fault (s.streams S.cloneId).entries row) items' := by
  obtain ⟨read, holds⟩ := same
  have batch : (S.newItems (s.streams S.cloneId).entries).map MemoryItem.toEntry =
      (s.streams S.cloneId).entries.map StreamEntry.toEntry := by
    rw [Service.newItems, code, List.map_map]
    rfl
  obtain ⟨flushed, encoded⟩ := Option.isSome_iff_exists.1
    ((encodeRow_isSome (Z := Z) mtime).2 fits)
  obtain ⟨reverted, again⟩ := Option.isSome_iff_exists.1
    ((encodeRow_isSome (Z := Z) revertTime).2 (fits.sublist (List.sublist_append_left ..)))
  have flush : SameItems Z S
      (some (S.row (items ++ S.newItems (s.streams S.cloneId).entries))) (some flushed)
      (items ++ S.newItems (s.streams S.cloneId).entries) := by
    refine ⟨S.payload_row _, ?_⟩
    rw [List.map_append, batch]
    exact holds_encodeRow encoded
  have revert : SameItems Z S (some (S.row items)) (some reverted) items :=
    ⟨S.payload_row _, holds_encodeRow again⟩
  rw [flushRow, flushOneStream_buffers read fault]
  by_cases quiet : fault = some .readAll ∨ (s.streams S.cloneId).entries = [] ∨
      fault = some .getBuffer
  · rw [if_pos quiet, if_pos quiet]
    exact ⟨items, read, holds⟩
  · rw [if_neg quiet, if_neg quiet, holds.payload]
    simp only [encoded, again, Option.getD_some]
    cases fault with
    | none => exact ⟨_, flush⟩
    | some fault =>
      cases fault with
      | readAll | getBuffer => simp at quiet
      | commit => exact ⟨items, read, holds⟩
      | trim applied reverts =>
        cases reverts with
        | false => exact ⟨_, flush⟩
        | true => exact ⟨_, revert⟩

/-! ## Payloads through the codec -/

/-- What can be represented survives, in either format and over any number of flushes, and takes no
more bytes than packed; for the rest the packer raises. -/
theorem codec_keeps_payloads (Z : Gzip) :
    (∀ entries, Representable entries →
      ∃ packed, packb entries = some packed ∧ decodePayload Z packed = some entries ∧
        (∀ mtime, decodePayload Z (Z.compress mtime packed) = some entries) ∧
        ∀ mtime, ∃ blob, encodePayload Z mtime entries = some blob ∧
          decodePayload Z blob = some entries ∧ blob.length ≤ packed.length) ∧
    (∀ entries, ¬Representable entries → ∀ mtime, encodePayload Z mtime entries = none) ∧
    (∀ batches, Representable (concatenation batches) →
      ∃ row, flushBatches Z none batches = some row ∧
        existingItems Z row = some (concatenation batches) ∧
        entryCountOf row = (concatenation batches).length) ∧
    ∀ batches, ¬Representable (concatenation batches) → flushBatches Z none batches = none := by
  refine ⟨?_, ?_, ?_, ?_⟩
  · intro entries fits
    obtain ⟨packed, written⟩ := Option.isSome_iff_exists.1 (packb_isSome.2 fits)
    refine ⟨packed, written, decodePayload_packed written, decodePayload_compressed written, ?_⟩
    intro mtime
    obtain ⟨blob, encoded⟩ := Option.isSome_iff_exists.1
      ((encodePayload_isSome (Z := Z) mtime).2 fits)
    obtain ⟨packed', written', short, -⟩ := encodePayload_eq_some encoded
    rw [written, Option.some.injEq] at written'
    exact ⟨blob, encoded, decode_encodePayload encoded, written' ▸ short⟩
  · intro entries large mtime
    rw [← encodePayload_isSome (Z := Z) mtime] at large
    simpa using large
  · intro batches fits
    obtain ⟨row, run, holds⟩ := holds_none.flushBatches (by rwa [List.nil_append])
    exact ⟨row, run, holds.payload, holds.counted⟩
  · intro batches large
    exact holds_none.flushBatches_none ⟨by decide, by simp, by simp⟩ (by rwa [List.nil_append])

/-- A memory written at the start of 2026. -/
def newYearMemory (content : String) : Entry :=
  MemoryItem.toEntry ⟨content, "2026-01-01T00:00:00+00:00"⟩

/-- A short memory, and a minute later a repetitive one. -/
def shortThenLong : List (Nat × List Entry) :=
  [(1767225600, [newYearMemory "hi"]),
   (1767225660, [newYearMemory "hahahahahahahahahahahahahahahahahahahaha"])]

/-- What the module returns for the two rows of `shortThenLong`: 63 bytes for the 51 of the first
and 73 for the 140 of both, so that the first row stays packed and the second does not. -/
def newYearGzip : Gzip :=
  .recorded
    [((1767225600, (packb (concatenation (shortThenLong.take 1))).getD []),
      [0x1f, 0x8b, 0x08, 0x00, 0x00, 0xb9, 0x55, 0x69, 0x00, 0xff, 0x9b, 0xd8, 0xb4, 0x3c,
       0x39, 0x3f, 0xaf, 0x24, 0x35, 0xaf, 0x64, 0x51, 0x46, 0xe6, 0xea, 0xe4, 0xc4, 0x82,
       0x92, 0xd2, 0xa2, 0xd4, 0x94, 0xf8, 0xc4, 0x92, 0x9d, 0x46, 0x06, 0x46, 0x66, 0xba,
       0x06, 0x86, 0x40, 0x14, 0x62, 0x60, 0x60, 0x05, 0x46, 0xda, 0x60, 0x12, 0x00, 0xec,
       0x58, 0xbc, 0x5c, 0x33, 0x00, 0x00, 0x00]),
     ((1767225660, (packb (concatenation shortThenLong)).getD []),
      [0x1f, 0x8b, 0x08, 0x00, 0x3c, 0xb9, 0x55, 0x69, 0x00, 0xff, 0x9b, 0xd4, 0xb4, 0x3c,
       0x39, 0x3f, 0xaf, 0x24, 0x35, 0xaf, 0x64, 0x51, 0x46, 0xe6, 0xea, 0xe4, 0xc4, 0x82,
       0x92, 0xd2, 0xa2, 0xd4, 0x94, 0xf8, 0xc4, 0x92, 0x9d, 0x46, 0x06, 0x46, 0x66, 0xba,
       0x06, 0x86, 0x40, 0x14, 0x62, 0x60, 0x60, 0x05, 0x46, 0xda, 0x60, 0x12, 0xae, 0xe3,
       0xa6, 0x46, 0x46, 0x22, 0x71, 0x90, 0x38, 0x83, 0x01, 0x4e, 0xbb, 0xe9, 0x94, 0x8c,
       0x00, 0x00, 0x00])]
    (by decide) (by
      simp only [List.mem_cons, List.not_mem_nil, or_false]
      rintro call (rfl | rfl) call' (rfl | rfl) same
      · rfl
      · exact absurd same (by decide)
      · exact absurd same (by decide)
      · rfl)

/-- The value is a str with a lone surrogate. -/
def loneSurrogate : Entry :=
  ⟨[(.ofString "content", [⟨0xd800, by decide⟩])], List.nodup_singleton _⟩

theorem loneSurrogate_not_encodable : ¬Representable [loneSurrogate] := by
  intro h
  have texts := h.texts loneSurrogate (by simp) _ (List.mem_singleton_self _)
  exact texts.2.1 _ (List.mem_singleton_self _) ⟨by decide, by decide⟩

theorem lone_surrogate_not_encoded :
    (encodePayload newYearGzip 0 [loneSurrogate]).bind (decodePayload newYearGzip) ≠
      some [loneSurrogate] := by
  have raised : ¬(encodePayload newYearGzip 0 [loneSurrogate]).isSome :=
    fun h => loneSurrogate_not_encodable ((encodePayload_isSome 0).1 h)
  rw [Option.not_isSome_iff_eq_none.1 raised, Option.bind_none]
  exact Option.some_ne_none _ |>.symm

theorem codec_keeps_short_then_long :
    (∃ packed, packb [newYearMemory "hi"] = some packed ∧
      decodePayload newYearGzip packed = some [newYearMemory "hi"] ∧
      (∀ mtime, decodePayload newYearGzip (newYearGzip.compress mtime packed) =
        some [newYearMemory "hi"]) ∧
      ∀ mtime, ∃ blob, encodePayload newYearGzip mtime [newYearMemory "hi"] = some blob ∧
        decodePayload newYearGzip blob = some [newYearMemory "hi"] ∧
        blob.length ≤ packed.length) ∧
    (∀ mtime, encodePayload newYearGzip mtime [loneSurrogate] = none) ∧
    (∃ row, flushBatches newYearGzip none shortThenLong = some row ∧
      existingItems newYearGzip row = some (concatenation shortThenLong) ∧
      entryCountOf row = 2) ∧
    flushBatches newYearGzip none [(0, [loneSurrogate])] = none := by
  have all := codec_keeps_payloads newYearGzip
  have hi : Representable [newYearMemory "hi"] :=
    representable_items [⟨"hi", "2026-01-01T00:00:00+00:00"⟩] (by decide) (by decide)
  have both : Representable (concatenation shortThenLong) :=
    representable_items [⟨"hi", "2026-01-01T00:00:00+00:00"⟩,
      ⟨"hahahahahahahahahahahahahahahahahahahaha", "2026-01-01T00:00:00+00:00"⟩]
      (by decide) (by decide)
  exact ⟨all.1 _ hi, all.2.1 _ loneSurrogate_not_encodable, all.2.2.1 _ both,
    all.2.2.2 _ loneSurrogate_not_encodable⟩

end Mycelium
