import Mathlib.Data.List.Dedup
import Mathlib.Order.Lattice

/-!
# Outer joins on a grouped maximum

`leftJoin` pairs each left row with the right rows that match it, or with NULL
when none does. Joined on the key of a grouping, every left row occurs once: a
key has one group at most.
-/

namespace Join

variable {α γ κ ν : Type}

/-- A left row with each of its matches, or with NULL. -/
def extended (x : α) : List γ → List (α × Option γ)
  | [] => [(x, none)]
  | y :: ys => (y :: ys).map fun z => (x, some z)

/-- LEFT OUTER JOIN. -/
def leftJoin (on : α → γ → Bool) (left : List α) (right : List γ) : List (α × Option γ) :=
  left.flatMap fun x => extended x (right.filter (on x))

variable [DecidableEq κ]

/-- In a list of keys without repetition, the group of one of them is found once. -/
theorem filter_filterMap {k : κ} {f : κ → Option ν} :
    ∀ {ks : List κ}, ks.Nodup →
      (ks.filterMap fun k' => (f k').map fun m => (k', m)).filter (fun g => g.1 = k) =
        if k ∈ ks then ((f k).map fun m => (k, m)).toList else [] := by
  intro ks
  induction ks with
  | nil => exact fun _ => rfl
  | cons k' ks ih =>
    intro nodup
    obtain ⟨fresh, rest⟩ := List.nodup_cons.1 nodup
    have later := ih rest
    by_cases same : k' = k
    · subst same
      rw [if_neg fresh] at later
      cases found : f k' with
      | none => simp [found, later]
      | some m => simp [found, later]
    · have member : k ∈ k' :: ks ↔ k ∈ ks := by simp [Ne.symm same]
      cases found : f k' with
      | none => simp [found, later, member]
      | some m => simp [found, later, member, same]

variable [Max ν]

/-- `max(value)` over the rows with a key, NULL when there are none. -/
def maxOf (key : α → κ) (value : α → ν) (rows : List α) (k : κ) : Option ν :=
  ((rows.filter fun x => key x = k).map value).max?

/-- `SELECT key, max(value) GROUP BY key`. -/
def groupMax (key : α → κ) (value : α → ν) (rows : List α) : List (κ × ν) :=
  (rows.map key).dedup.filterMap fun k => (maxOf key value rows k).map fun m => (k, m)

variable {key : α → κ} {value : α → ν} {rows : List α}

/-- A key without rows has no maximum. -/
theorem maxOf_eq_none {k : κ} (missing : k ∉ rows.map key) : maxOf key value rows k = none := by
  have none : rows.filter (fun x => key x = k) = [] := by
    rw [List.filter_eq_nil_iff]
    intro x member
    have ne : key x ≠ k := fun same => missing (same ▸ List.mem_map_of_mem member)
    simpa using ne
  rw [maxOf, none]
  rfl

theorem groupMax_filter (k : κ) :
    (groupMax key value rows).filter (fun g => g.1 = k) =
      ((maxOf key value rows k).map fun m => (k, m)).toList := by
  rw [groupMax, filter_filterMap (List.nodup_dedup _)]
  simp only [List.mem_dedup]
  split
  · rfl
  · rename_i missing
    rw [maxOf_eq_none missing]
    rfl

/-- **Every left row occurs once**, with the maximum over its key or with NULL. -/
theorem leftJoin_groupMax {left : List γ} (own : γ → κ) :
    leftJoin (fun x g => g.1 = own x) left (groupMax key value rows) =
      left.map fun x => (x, (maxOf key value rows (own x)).map fun m => (own x, m)) := by
  have single : ∀ x, extended x ((groupMax key value rows).filter fun g => g.1 = own x) =
      [(x, (maxOf key value rows (own x)).map fun m => (own x, m))] := by
    intro x
    rw [groupMax_filter]
    cases maxOf key value rows (own x) with
    | none => rfl
    | some m => rfl
  rw [leftJoin, List.map_eq_flatMap]
  exact List.flatMap_congr fun x _ => single x

end Join
