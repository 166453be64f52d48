import Mathlib.Data.List.Basic

/-!
# Reading a configuration

What a typed configuration is read with. Sources are lists of bindings laid over
one another, a later binding hiding an earlier one of the same name, where names
may be compared after folding them (to one letter case, say). A record is checked
field by field, every field's error being kept, not only the first. What is then
done with it stops at its first error.
-/

namespace Configuration

/-! ## Layers -/

section Layers

variable {κ ι ν : Type} [DecidableEq κ]

/-- The binding of `name` that is not hidden. -/
def last (name : κ) : List (κ × ν) → Option ν
  | [] => none
  | b :: bindings => (last name bindings).or (if b.1 = name then some b.2 else none)

/-- The bindings under their folded names. -/
def folded (fold : ι → κ) (bindings : List (ι × ν)) : List (κ × ν) :=
  bindings.map fun b => (fold b.1, b.2)

theorem mem_of_last {name : κ} {bindings : List (κ × ν)} {v : ν}
    (h : last name bindings = some v) : (name, v) ∈ bindings := by
  induction bindings with
  | nil => cases h
  | cons b bindings ih =>
    rw [last, Option.or_eq_some_iff] at h
    rcases h with later | ⟨-, here⟩
    · exact List.mem_cons_of_mem _ (ih later)
    · split at here
      · rename_i same
        cases here
        exact List.mem_cons.2 (.inl (by rw [← same]))
      · cases here

/-- A name all of whose bindings agree has that value. -/
theorem last_of_agree {name : κ} {bindings : List (κ × ν)} {v : ν} (member : (name, v) ∈ bindings)
    (agree : ∀ w, (name, w) ∈ bindings → w = v) : last name bindings = some v := by
  cases found : last name bindings with
  | some w => rw [agree w (mem_of_last found)]
  | none =>
    exfalso
    induction bindings with
    | nil => cases member
    | cons b bindings ih =>
      rw [last, Option.or_eq_none_iff] at found
      rcases List.mem_cons.1 member with rfl | later
      · simp at found
      · exact ih later (fun w there => agree w (List.mem_cons_of_mem _ there)) found.1

/-- Where no two bindings fold to one name, each is found under its folded name. -/
theorem last_folded {fold : ι → κ} {bindings : List (ι × ν)} {name : ι} {v : ν}
    (distinct : ∀ b ∈ bindings, ∀ c ∈ bindings, fold b.1 = fold c.1 → b = c)
    (member : (name, v) ∈ bindings) : last (fold name) (folded fold bindings) = some v := by
  apply last_of_agree
  · exact List.mem_map.2 ⟨(name, v), member, rfl⟩
  · intro w there
    obtain ⟨b, here, same⟩ := List.mem_map.1 there
    rw [Prod.mk.injEq] at same
    have := distinct b here (name, v) member same.1
    rw [← same.2, this]

end Layers

/-! ## Steps one after another -/

section Steps

variable {ε ε' α β : Type}

theorem bind_eq_ok {x : Except ε α} {f : α → Except ε β} {b : β} :
    x >>= f = .ok b ↔ ∃ a, x = .ok a ∧ f a = .ok b := by
  cases x <;> simp [bind, Except.bind]

theorem mapError_eq_ok {x : Except ε α} {f : ε → ε'} {a : α} :
    x.mapError f = .ok a ↔ x = .ok a := by
  cases x <;> simp [Except.mapError]

end Steps

/-! ## Checks that keep every error -/

/-- What a check ends with. -/
inductive Checked (ε α : Type) where
  | ok (a : α)
  | errors (es : List ε)

namespace Checked

variable {ε α β : Type}

def errorsOf : Checked ε α → List ε
  | ok _ => []
  | errors es => es

def map (f : α → β) : Checked ε α → Checked ε β
  | ok a => ok (f a)
  | errors es => errors es

/-- Both checks are made. -/
def and : Checked ε (α → β) → Checked ε α → Checked ε β
  | ok f, ok a => ok (f a)
  | f, a => errors (f.errorsOf ++ a.errorsOf)

def toExcept : Checked ε α → Except (List ε) α
  | ok a => .ok a
  | errors es => .error es

theorem map_eq_ok {f : α → β} {x : Checked ε α} {b : β} :
    x.map f = ok b ↔ ∃ a, x = ok a ∧ f a = b := by
  cases x <;> simp [map]

theorem and_eq_ok {f : Checked ε (α → β)} {x : Checked ε α} {b : β} :
    f.and x = ok b ↔ ∃ g a, f = ok g ∧ x = ok a ∧ g a = b := by
  cases f <;> cases x <;> simp [and]

theorem toExcept_eq_ok {x : Checked ε α} {a : α} : x.toExcept = .ok a ↔ x = ok a := by
  cases x <;> simp [toExcept]

@[simp] theorem errorsOf_map (f : α → β) (x : Checked ε α) : (x.map f).errorsOf = x.errorsOf := by
  cases x <;> rfl

@[simp] theorem errorsOf_and (f : Checked ε (α → β)) (x : Checked ε α) :
    (f.and x).errorsOf = f.errorsOf ++ x.errorsOf := by
  cases f <;> cases x <;> rfl

end Checked

end Configuration
