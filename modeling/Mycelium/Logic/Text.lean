import Mathlib.Data.List.DropRight

/-!
# Numbers and separators in text

What a program prints with `str` and reads back with `int`, `split` and
`removeprefix`, as Python documents them, on ASCII. A number that was printed is
read back, and so are the parts that were joined by a character none of them has.
-/

namespace Text

/-- The blanks `int` and `strip` ignore. -/
def isSpace (c : Char) : Bool :=
  c.toNat == 32 || (9 ≤ c.toNat && c.toNat ≤ 13) || (28 ≤ c.toNat && c.toNat ≤ 31)

/-- Groups of digits with single underscores between them. -/
def digits? (text : List Char) : Option Nat :=
  let groups := text.splitOn '_'
  if groups.all fun group => group ≠ [] && group.all Char.isDigit then
    some (Nat.ofDigitChars 10 groups.flatten 0)
  else none

/-- `int(text)`; `none` is its ValueError. -/
def int? (text : String) : Option Int :=
  match (text.toList.dropWhile isSpace).rdropWhile isSpace with
  | '+' :: digits => (digits? digits).map Int.ofNat
  | '-' :: digits => (digits? digits).map fun n => -Int.ofNat n
  | digits => (digits? digits).map Int.ofNat

/-- `text.split(c)`. -/
def split (c : Char) (text : String) : List String := (text.toList.splitOn c).map String.ofList

/-- `text.removeprefix(p)`. -/
def removePrefix (p text : String) : String :=
  if p.toList.isPrefixOf text.toList then String.ofList (text.toList.drop p.toList.length) else text

/-! ## Reading back -/

theorem isDigit_of_mem_repr {n : Nat} {c : Char} (h : c ∈ n.repr.toList) : c.isDigit = true := by
  rw [Nat.toList_repr] at h
  exact Nat.isDigit_of_mem_toDigits (by decide) (by decide) h

/-- No other character is in a printed number. -/
theorem not_mem_repr {c : Char} (other : c.isDigit = false) (n : Nat) : c ∉ n.repr.toList := by
  intro h
  rw [isDigit_of_mem_repr h] at other
  cases other

theorem digits?_repr (n : Nat) : digits? n.repr.toList = some n := by
  have one : n.repr.toList.splitOn '_' = [n.repr.toList] :=
    List.splitOn_eq_singleton (not_mem_repr rfl n)
  have digits : n.repr.toList.all Char.isDigit = true :=
    List.all_eq_true.2 fun c h => isDigit_of_mem_repr h
  have some : n.repr.toList ≠ [] := by
    rw [Nat.toList_repr]
    exact Nat.toDigits_ne_nil
  simp only [digits?, one, List.all_cons, List.all_nil, digits, some, ne_eq, not_false_eq_true,
    decide_true, Bool.and_self, if_true, List.flatten_cons, List.flatten_nil, List.append_nil]
  rw [Nat.toList_repr, Nat.ofDigitChars_ten_toDigits]

/-- A digit is neither a blank nor a sign. -/
theorem toNat_of_isDigit {c : Char} (digit : c.isDigit = true) : 48 ≤ c.toNat ∧ c.toNat ≤ 57 := by
  simp only [Char.isDigit, Bool.and_eq_true, decide_eq_true_eq, UInt32.le_iff_toNat_le] at digit
  exact digit

theorem isSpace_of_isDigit {c : Char} (digit : c.isDigit = true) : isSpace c = false := by
  have := toNat_of_isDigit digit
  simp only [isSpace, Bool.or_eq_false_iff, Bool.and_eq_false_iff, beq_eq_false_iff_ne,
    decide_eq_false_iff_not]
  omega

/-- Nothing is stripped from text without blanks. -/
theorem strip_eq_self {text : List Char} (solid : ∀ c ∈ text, isSpace c = false) :
    (text.dropWhile isSpace).rdropWhile isSpace = text := by
  have none : ∀ c ∈ text, ¬ isSpace c = true := by
    intro c h
    rw [solid c h]
    exact Bool.false_ne_true
  have left : text.dropWhile isSpace = text :=
    List.dropWhile_eq_self_iff.2 fun some => none _ (List.getElem_mem some)
  rw [left]
  exact List.rdropWhile_eq_self_iff.2 fun some => none _ (List.getLast_mem some)

theorem int?_repr (n : Nat) : int? n.repr = some (n : Int) := by
  rw [int?, strip_eq_self fun c h => isSpace_of_isDigit (isDigit_of_mem_repr h)]
  split
  · rename_i digits printed
    have sign : '+' ∈ n.repr.toList := by rw [printed]; exact List.mem_cons_self
    exact absurd sign (not_mem_repr rfl n)
  · rename_i digits printed
    have sign : '-' ∈ n.repr.toList := by rw [printed]; exact List.mem_cons_self
    exact absurd sign (not_mem_repr rfl n)
  · rw [digits?_repr]
    rfl

/-- A printed integer is digits, behind a minus sign if it is negative. -/
theorem mem_toString_int {i : Int} {c : Char} (h : c ∈ (toString i).toList) :
    c = '-' ∨ c.isDigit = true := by
  cases i with
  | ofNat n => exact .inr (isDigit_of_mem_repr h)
  | negSucc n =>
    have text : toString (Int.negSucc n) = "-" ++ (n + 1).repr := rfl
    rw [text, String.toList_append] at h
    rcases List.mem_append.1 h with sign | digit
    · exact .inl (List.mem_singleton.1 sign)
    · exact .inr (isDigit_of_mem_repr digit)

theorem int?_toString (i : Int) : int? (toString i) = some i := by
  cases i with
  | ofNat n => exact int?_repr n
  | negSucc n =>
    have text : (toString (Int.negSucc n)).toList = '-' :: (n + 1).repr.toList := by
      show ("-" ++ (n + 1).repr).toList = _
      rw [String.toList_append]
      rfl
    have solid : ∀ c ∈ (toString (Int.negSucc n)).toList, isSpace c = false := by
      intro c h
      rcases mem_toString_int h with rfl | digit
      · rfl
      · exact isSpace_of_isDigit digit
    rw [int?, strip_eq_self solid, text]
    simp only [digits?_repr]
    rfl

theorem split_intercalate {c : Char} {parts : List String}
    (apart : ∀ part ∈ parts, c ∉ part.toList) (some : parts ≠ []) :
    split c ((String.singleton c).intercalate parts) = parts := by
  have apart' : ∀ l ∈ parts.map String.toList, c ∉ l := by
    intro l h
    obtain ⟨part, member, rfl⟩ := List.mem_map.1 h
    exact apart part member
  have joined := List.splitOn_intercalate c apart' (by simpa using some)
  rw [split, String.toList_intercalate, String.toList_singleton, joined, List.map_map]
  simp

theorem split_append {a b : String} {c : Char} (ha : c ∉ a.toList) (hb : c ∉ b.toList) :
    split c (a ++ String.singleton c ++ b) = [a, b] := by
  have joined : a ++ String.singleton c ++ b = (String.singleton c).intercalate [a, b] := by
    rw [← String.toList_inj, String.toList_intercalate]
    simp [List.intercalate]
  rw [joined]
  refine split_intercalate (fun part h => ?_) (List.cons_ne_nil _ _)
  rcases List.mem_pair.1 h with rfl | rfl
  · exact ha
  · exact hb

theorem removePrefix_append (p text : String) : removePrefix p (p ++ text) = text := by
  simp [removePrefix]

end Text
