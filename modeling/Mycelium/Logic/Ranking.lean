import Mathlib.Data.List.Count
import Mathlib.Data.List.Nodup
import Mathlib.Order.Lattice

/-!
# Rankings with a limit for each element

Elements are ranked by a key, largest first; elements with equal keys may be
ranked either way. Each element has its own limit, and the elements whose rank
exceeds their limit lie `beyond` it. How many elements have no smaller a key than
`x` decides whether some ranking puts `x` beyond its limit.
-/

namespace Ranking

variable {α κ : Type} [LinearOrder κ]

/-- `ranked` lists the elements of `rows` by descending key. -/
def Ranks (key : α → κ) (rows ranked : List α) : Prop :=
  ranked.Perm rows ∧ ranked.Pairwise fun x y => key y ≤ key x

instance [DecidableEq α] (key : α → κ) (rows ranked : List α) :
    Decidable (Ranks key rows ranked) := inferInstanceAs (Decidable (_ ∧ _))

/-- The elements ranked beyond their limit, counting ranks from `rank + 1`. -/
def beyondFrom (limit : α → Nat) : Nat → List α → List α
  | _, [] => []
  | rank, x :: rest =>
    if limit x < rank + 1 then x :: beyondFrom limit (rank + 1) rest
    else beyondFrom limit (rank + 1) rest

/-- The elements ranked beyond their limit. -/
def beyond (limit : α → Nat) (ranked : List α) : List α := beyondFrom limit 0 ranked

theorem beyondFrom_sublist (limit : α → Nat) (rank : Nat) (ranked : List α) :
    (beyondFrom limit rank ranked).Sublist ranked := by
  induction ranked generalizing rank with
  | nil => exact .slnil
  | cons x rest ih =>
    simp only [beyondFrom]
    split
    · exact (ih _).cons_cons x
    · exact (ih _).cons x

theorem beyond_sublist (limit : α → Nat) (ranked : List α) : (beyond limit ranked).Sublist ranked :=
  beyondFrom_sublist limit 0 ranked

theorem beyondFrom_append (limit : α → Nat) (rank : Nat) (before after : List α) :
    beyondFrom limit rank (before ++ after) =
      beyondFrom limit rank before ++ beyondFrom limit (rank + before.length) after := by
  induction before generalizing rank with
  | nil => rfl
  | cons x before ih =>
    have shift : rank + 1 + before.length = rank + (x :: before).length := by
      simp only [List.length_cons]
      omega
    simp only [List.cons_append, beyondFrom, ih, shift]
    split <;> rfl

/-- An element is beyond its limit when at least that many precede it. -/
theorem mem_beyond_append {limit : α → Nat} {before after : List α} {x : α}
    (nodup : (before ++ x :: after).Nodup) :
    x ∈ beyond limit (before ++ x :: after) ↔ limit x ≤ before.length := by
  obtain ⟨_, rest, apart⟩ := List.nodup_append'.1 nodup
  have notBefore : x ∉ before := fun early => apart early List.mem_cons_self
  have notAfter : x ∉ after := (List.nodup_cons.1 rest).1
  have first : x ∉ beyondFrom limit 0 before :=
    fun early => notBefore ((beyondFrom_sublist limit 0 before).subset early)
  have last : x ∉ beyondFrom limit (0 + before.length + 1) after :=
    fun late => notAfter ((beyondFrom_sublist limit _ after).subset late)
  rw [beyond, beyondFrom_append, List.mem_append, or_iff_right first, beyondFrom]
  split
  · rename_i exceeds
    have enough : limit x ≤ before.length := by omega
    exact iff_of_true List.mem_cons_self enough
  · rename_i within
    have few : ¬ limit x ≤ before.length := by omega
    exact iff_of_false last few

variable {key : α → κ} {rows ranked : List α} {limit : α → Nat} {x : α}

/-- Where fewer elements than its limit have no smaller a key, no ranking puts `x` beyond it. -/
theorem not_mem_beyond (ranks : Ranks key (rows ++ [x]) ranked) (nodup : (rows ++ [x]).Nodup)
    (few : rows.countP (fun y => key x ≤ key y) < limit x) : x ∉ beyond limit ranked := by
  obtain ⟨perm, sorted⟩ := ranks
  have member : x ∈ ranked := perm.mem_iff.2 (by simp)
  obtain ⟨before, after, rfl⟩ := List.append_of_mem member
  rw [mem_beyond_append (perm.nodup_iff.2 nodup)]
  have others : (before ++ after).Perm rows := by
    have both := perm.trans (List.perm_append_singleton x rows)
    exact (List.perm_middle.symm.trans both).cons_inv
  have above : ∀ y ∈ before, key x ≤ key y := by
    intro y early
    exact (List.pairwise_append.1 sorted).2.2 y early x List.mem_cons_self
  have all : before.countP (fun y => key x ≤ key y) = before.length := by
    rw [List.countP_eq_length]
    exact fun y early => decide_eq_true (above y early)
  have count : before.length ≤ rows.countP (fun y => key x ≤ key y) := by
    rw [← others.countP_eq, List.countP_append, all]
    omega
  omega

/-- The elements by descending key. -/
def descending (key : α → κ) (rows : List α) : List α :=
  rows.mergeSort fun y z => key z ≤ key y

theorem ranks_descending (key : α → κ) (rows : List α) : Ranks key rows (descending key rows) := by
  refine ⟨List.mergeSort_perm rows _, ?_⟩
  have pairwise :
      (descending key rows).Pairwise fun y z => decide (key z ≤ key y) = true := by
    apply List.pairwise_mergeSort
    · intro y z w yz zw
      rw [decide_eq_true_eq] at yz zw ⊢
      exact zw.trans yz
    · intro y z
      simpa using le_total (key z) (key y)
  exact pairwise.imp of_decide_eq_true

/-- Otherwise some ranking does: the one that puts `x` last among its equals. -/
theorem exists_mem_beyond (nodup : (rows ++ [x]).Nodup)
    (many : limit x ≤ rows.countP (fun y => key x ≤ key y)) :
    ∃ ranked, Ranks key (rows ++ [x]) ranked ∧ x ∈ beyond limit ranked := by
  let above := rows.filter fun y => key x ≤ key y
  let below := rows.filter fun y => ! decide (key x ≤ key y)
  have ranksAbove := ranks_descending key above
  have ranksBelow := ranks_descending key below
  have perm : (descending key above ++ x :: descending key below).Perm (rows ++ [x]) := by
    have split : (above ++ below).Perm rows := List.filter_append_perm _ rows
    have parts := (ranksAbove.1.append ranksBelow.1).trans split
    exact List.perm_middle.trans ((parts.cons x).trans (List.perm_append_singleton x rows).symm)
  refine ⟨_, ⟨perm, ?_⟩, ?_⟩
  · have low : ∀ y ∈ descending key below, key y ≤ key x := by
      intro y member
      have filtered := List.mem_filter.1 (ranksBelow.1.mem_iff.1 member)
      simp only [Bool.not_eq_true', decide_eq_false_iff_not, not_le] at filtered
      exact filtered.2.le
    have high : ∀ y ∈ descending key above, key x ≤ key y := by
      intro y member
      have filtered := List.mem_filter.1 (ranksAbove.1.mem_iff.1 member)
      exact of_decide_eq_true filtered.2
    rw [List.pairwise_append, List.pairwise_cons]
    refine ⟨ranksAbove.2, ⟨low, ranksBelow.2⟩, ?_⟩
    intro y early z late
    rcases List.mem_cons.1 late with rfl | late
    · exact high y early
    · exact (low z late).trans (high y early)
  · rw [mem_beyond_append (perm.nodup_iff.2 nodup)]
    have length : (descending key above).length = rows.countP (fun y => key x ≤ key y) := by
      rw [ranksAbove.1.length_eq, List.countP_eq_length_filter]
    omega

end Ranking
