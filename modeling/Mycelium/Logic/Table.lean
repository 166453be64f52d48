import Mathlib.Data.List.Nodup

/-!
# Tables with a primary key

A table is a list of rows of which no two have the same key, the order being the
order of insertion. `get?` looks a row up by its key; inserting fails on a key
that is in use, and an update may change anything but the key. The lemmas say
which rows a table has after each operation and what `get?` then finds.
-/

/-- Rows of which no two have the same key. -/
structure Table (α : Type) {κ : Type} (key : α → κ) where
  rows : List α
  nodup : (rows.map key).Nodup

namespace Table

variable {α κ : Type} {key : α → κ}

def empty : Table α key := ⟨[], List.nodup_nil⟩

instance : Membership α (Table α key) := ⟨fun t x => x ∈ t.rows⟩

/-- The rows that satisfy `p`. -/
def filter (p : α → Bool) (t : Table α key) : Table α key :=
  ⟨t.rows.filter p, t.nodup.sublist (List.filter_sublist.map key)⟩

theorem mem_rows {t : Table α key} {x : α} : x ∈ t.rows ↔ x ∈ t := Iff.rfl

@[simp] theorem not_mem_empty (x : α) : x ∉ (empty : Table α key) := List.not_mem_nil

@[simp] theorem mem_filter {p : α → Bool} {t : Table α key} {x : α} :
    x ∈ t.filter p ↔ x ∈ t ∧ p x = true := List.mem_filter

/-- UPDATE of every row, of other columns than the key. -/
def mapRows (t : Table α key) (f : α → α) (keeps : ∀ x, key (f x) = key x) : Table α key :=
  ⟨t.rows.map f, by
    have same : key ∘ f = key := funext keeps
    rw [List.map_map, same]
    exact t.nodup⟩

theorem mem_mapRows {t : Table α key} {f : α → α} {keeps : ∀ x, key (f x) = key x} {y : α} :
    y ∈ t.mapRows f keeps ↔ ∃ x ∈ t, f x = y := List.mem_map

/-- Two rows with the same key are the same row. -/
theorem eq_of_key {t : Table α key} {x y : α} (hx : x ∈ t) (hy : y ∈ t) (same : key x = key y) :
    x = y :=
  List.inj_on_of_nodup_map t.nodup hx hy same

variable [DecidableEq κ]

def get? (t : Table α key) (k : κ) : Option α := t.rows.find? fun x => decide (key x = k)

/-- INSERT; `none` is the primary key's IntegrityError. -/
def insert (t : Table α key) (x : α) : Option (Table α key) :=
  if fresh : key x ∉ t.rows.map key then
    some ⟨t.rows ++ [x], by
      rw [List.map_append, List.nodup_append']
      refine ⟨t.nodup, List.nodup_singleton _, ?_⟩
      rintro k used new
      rw [List.map_singleton, List.mem_singleton] at new
      exact fresh (new ▸ used)⟩
  else none

/-- UPDATE of the row with key `k`, of other columns than the key. -/
def modify (t : Table α key) (k : κ) (f : α → α) (keeps : ∀ x, key (f x) = key x) : Table α key :=
  ⟨t.rows.map fun x => if key x = k then f x else x, by
    have same : (key ∘ fun x => if key x = k then f x else x) = key := by
      funext x
      simp only [Function.comp_apply]
      split
      · exact keeps x
      · rfl
    rw [List.map_map, same]
    exact t.nodup⟩

theorem get?_eq_some {t : Table α key} {k : κ} {x : α} : t.get? k = some x ↔ x ∈ t ∧ key x = k := by
  constructor
  · intro found
    exact ⟨List.mem_of_find?_eq_some found, by simpa using List.find?_some found⟩
  · rintro ⟨member, rfl⟩
    cases found : t.get? (key x) with
    | none =>
      have missing := List.find?_eq_none.1 found x member
      simp at missing
    | some y =>
      have same : key y = key x := by simpa using List.find?_some found
      rw [eq_of_key (List.mem_of_find?_eq_some found) member same]

theorem insert_eq_some {t t' : Table α key} {x : α} (h : t.insert x = some t') :
    key x ∉ t.rows.map key ∧ t'.rows = t.rows ++ [x] := by
  unfold insert at h
  split at h
  · rename_i fresh
    cases h
    exact ⟨fresh, rfl⟩
  · cases h

theorem insert_of_fresh {t : Table α key} {x : α} (fresh : key x ∉ t.rows.map key) :
    ∃ t', t.insert x = some t' := by
  unfold insert
  rw [dif_pos fresh]
  exact ⟨_, rfl⟩

theorem mem_of_insert {t t' : Table α key} {x y : α} (h : t.insert x = some t') :
    y ∈ t' ↔ y ∈ t ∨ y = x := by
  rw [← mem_rows, (insert_eq_some h).2, List.mem_append, List.mem_singleton]
  exact Iff.rfl

/-- A unique column after an INSERT of a value that no row has. -/
theorem nodup_map_insert {δ : Type} {t t' : Table α key} {x : α} {column : α → δ}
    (h : t.insert x = some t') (unique : (t.rows.map column).Nodup)
    (fresh : ∀ y ∈ t, column y ≠ column x) : (t'.rows.map column).Nodup := by
  rw [(insert_eq_some h).2, List.map_append, List.map_singleton, List.nodup_append']
  refine ⟨unique, List.nodup_singleton _, fun value used new => ?_⟩
  obtain ⟨y, listed, rfl⟩ := List.mem_map.1 used
  exact fresh y listed (List.mem_singleton.1 new)

/-- No row has the key of the inserted one. -/
theorem key_ne_of_insert {t t' : Table α key} {x y : α} (h : t.insert x = some t') (hy : y ∈ t) :
    key y ≠ key x :=
  fun same => (insert_eq_some h).1 (same ▸ List.mem_map_of_mem hy)

/-- An INSERT leaves every lookup of another key as it was. -/
theorem get?_of_insert {t t' : Table α key} {x : α} (h : t.insert x = some t') {k : κ}
    (other : k ≠ key x) : t'.get? k = t.get? k := by
  unfold get?
  rw [(insert_eq_some h).2, List.find?_append]
  have none : [x].find? (fun y => decide (key y = k)) = none := by
    simp [other.symm]
  rw [none, Option.or_none]

theorem mem_modify {t : Table α key} {k : κ} {f : α → α} {keeps : ∀ x, key (f x) = key x} {y : α} :
    y ∈ t.modify k f keeps ↔ ∃ x ∈ t, y = if key x = k then f x else x := by
  rw [← mem_rows, modify, List.mem_map]
  exact ⟨fun ⟨x, hx, eq⟩ => ⟨x, hx, eq.symm⟩, fun ⟨x, hx, eq⟩ => ⟨x, hx, eq.symm⟩⟩

/-- An UPDATE of one row leaves the others. -/
theorem mem_modify_of_ne {t : Table α key} {k : κ} {f : α → α} {keeps : ∀ x, key (f x) = key x}
    {y : α} (other : key y ≠ k) : y ∈ t.modify k f keeps ↔ y ∈ t := by
  rw [mem_modify]
  constructor
  · rintro ⟨x, hx, rfl⟩
    split at other
    · rename_i same
      exact absurd ((keeps x).trans same) other
    · rename_i apart
      rwa [if_neg apart]
  · exact fun hy => ⟨y, hy, by rw [if_neg other]⟩

/-- A unique column's value is found in one row. -/
theorem filter_column {δ : Type} [DecidableEq δ] {column : α → δ} :
    ∀ {rows : List α} {x : α}, (rows.map column).Nodup → x ∈ rows →
      rows.filter (fun y => column y = column x) = [x] := by
  intro rows
  induction rows with
  | nil => exact fun _ member => absurd member List.not_mem_nil
  | cons y rows ih =>
    intro x unique member
    obtain ⟨fresh, unique⟩ := List.nodup_cons.1 unique
    rcases List.mem_cons.1 member with rfl | member
    · have rest : rows.filter (fun y => column y = column x) = [] := by
        rw [List.filter_eq_nil_iff]
        intro y listed
        have apart : column y ≠ column x := fun same => fresh (same ▸ List.mem_map_of_mem listed)
        simpa using apart
      simp [rest]
    · have apart : column y ≠ column x := fun same => fresh (same ▸ List.mem_map_of_mem member)
      simp [apart, ih unique member]

/-- An UPDATE leaves the columns it does not write. -/
theorem map_modify {δ : Type} {t : Table α key} {k : κ} {f : α → α} {keeps : ∀ x, key (f x) = key x}
    (column : α → δ) (same : ∀ x, column (f x) = column x) :
    (t.modify k f keeps).rows.map column = t.rows.map column := by
  rw [modify, List.map_map]
  apply List.map_congr_left
  intro x _
  simp only [Function.comp_apply]
  split
  · exact same x
  · rfl

/-- A column stays unique when its new value is in no other row. -/
theorem nodup_map_modify {δ : Type} {t : Table α key} {k : κ} {f : α → α}
    {keeps : ∀ x, key (f x) = key x} {column : α → δ} (unique : (t.rows.map column).Nodup)
    (free : ∀ x ∈ t, key x = k → ∀ y ∈ t, key y ≠ k → column y ≠ column (f x)) :
    ((t.modify k f keeps).rows.map column).Nodup := by
  rw [modify, List.map_map]
  refine List.Nodup.map_on (fun x hx y hy same => ?_) unique.of_map
  simp only [Function.comp_apply] at same
  split at same
  · rename_i xKey
    split at same
    · rename_i yKey
      exact eq_of_key hx hy (xKey.trans yKey.symm)
    · rename_i apart
      exact absurd same.symm (free x hx xKey y hy apart)
  · rename_i apart
    split at same
    · rename_i yKey
      exact absurd same (free y hy yKey x hx apart)
    · exact List.inj_on_of_nodup_map unique hx hy same

/-- An UPDATE to the values the row has. -/
theorem modify_eq_self {t : Table α key} {k : κ} {f : α → α} (keeps : ∀ x, key (f x) = key x)
    (same : ∀ x ∈ t, key x = k → f x = x) : t.modify k f keeps = t := by
  have rows : (t.rows.map fun x => if key x = k then f x else x) = t.rows := by
    refine (List.map_congr_left fun x member => ?_).trans (List.map_id t.rows)
    split
    · rename_i found
      exact same x member found
    · rfl
  unfold modify
  congr

/-! ## Keys counted from 0 -/

/-- `get?` by an integer, which may be out of the keys' range. An integer too wide for the column, which
a driver refuses before any query, finds nothing here. -/
def lookup {key : α → Nat} (t : Table α key) (k : Int) : Option α :=
  if 0 ≤ k then t.get? k.toNat else none

omit [DecidableEq κ] in
theorem lookup_eq_some {key : α → Nat} {t : Table α key} {k : Int} {x : α}
    (h : t.lookup k = some x) : x ∈ t ∧ (key x : Int) = k := by
  unfold lookup at h
  split at h
  · obtain ⟨member, same⟩ := get?_eq_some.1 h
    exact ⟨member, by omega⟩
  · cases h

end Table
