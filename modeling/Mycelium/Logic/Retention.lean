import Mycelium.Logic.Ranking
import Mathlib.Data.List.MinMax
import Mathlib.Data.List.Sort

/-!
# Keeping what is within its limit

Where no two elements have the same key there is one ranking, and an element's
place in it is the number of elements that outrank it. What is `kept` is then
decided element by element, and the laws of retention are facts about counts:
how many may be kept, which of two comparable elements goes first, and that
keeping again keeps everything.

Elements with equal keys may be ranked either way. What is safe of every ranking
is decided by the number of an element's `rivals`, and what is safe over any
number of turns, each of which adds a new greatest element and drops what is then
beyond its limit, by `Secure`.
-/

namespace Ranking

variable {α κ : Type} [LinearOrder κ]

/-- How many elements have a greater key than `x`. -/
def outranking (key : α → κ) (rows : List α) (x : α) : Nat := rows.countP fun y => key x < key y

/-- The elements that fewer than their limit outrank. -/
def kept (key : α → κ) (limit : α → Nat) (rows : List α) : List α :=
  rows.filter fun x => outranking key rows x < limit x

variable {key : α → κ} {limit : α → Nat} {rows rows' ranked : List α} {x y : α}

theorem mem_kept : x ∈ kept key limit rows ↔ x ∈ rows ∧ outranking key rows x < limit x := by
  simp [kept]

theorem kept_sublist (key : α → κ) (limit : α → Nat) (rows : List α) :
    (kept key limit rows).Sublist rows := List.filter_sublist

theorem outranking_perm (perm : rows.Perm rows') (x : α) :
    outranking key rows x = outranking key rows' x := perm.countP_eq _

theorem outranking_le (sub : rows'.Sublist rows) (x : α) :
    outranking key rows' x ≤ outranking key rows x := sub.countP_le

/-- Whatever outranks `y` outranks the elements below it. -/
theorem outranking_mono (le : key x ≤ key y) : outranking key rows y ≤ outranking key rows x := by
  apply List.countP_mono_left
  intro z _ above
  simp only [decide_eq_true_eq] at above ⊢
  exact lt_of_le_of_lt le above

/-- In a list ranked by distinct keys an element is outranked by those before it. -/
theorem outranking_append {before after : List α}
    (sorted : (before ++ x :: after).Pairwise fun y z => key z ≤ key y)
    (distinct : ((before ++ x :: after).map key).Nodup) :
    outranking key (before ++ x :: after) x = before.length := by
  obtain ⟨_, later, across⟩ := List.pairwise_append.1 sorted
  rw [List.map_append, List.map_cons, List.nodup_append'] at distinct
  have early : before.countP (fun y => key x < key y) = before.length := by
    rw [List.countP_eq_length]
    intro y member
    have le : key x ≤ key y := across y member x List.mem_cons_self
    have ne : key x ≠ key y := by
      intro same
      have named : key x ∈ before.map key := same ▸ List.mem_map_of_mem member
      exact distinct.2.2 named List.mem_cons_self
    simpa using lt_of_le_of_ne le ne
  have late : (x :: after).countP (fun y => key x < key y) = 0 := by
    rw [List.countP_eq_zero]
    intro y member
    rcases List.mem_cons.1 member with rfl | member
    · simp
    · have le : key y ≤ key x := (List.pairwise_cons.1 later).1 y member
      simpa using le
  rw [outranking, List.countP_append, early, late]
  rfl

/-- With distinct keys, beyond its limit is what as many elements outrank. -/
theorem mem_beyond_iff (ranks : Ranks key rows ranked) (distinct : (rows.map key).Nodup) :
    x ∈ beyond limit ranked ↔ x ∈ rows ∧ limit x ≤ outranking key rows x := by
  obtain ⟨perm, sorted⟩ := ranks
  have distinct' : (ranked.map key).Nodup := (perm.map key).nodup_iff.2 distinct
  constructor
  · intro stale
    have member := (beyond_sublist limit ranked).subset stale
    refine ⟨perm.mem_iff.1 member, ?_⟩
    obtain ⟨before, after, rfl⟩ := List.append_of_mem member
    rw [← outranking_perm perm, outranking_append sorted distinct']
    exact (mem_beyond_append distinct'.of_map).1 stale
  · rintro ⟨member, exceeds⟩
    obtain ⟨before, after, rfl⟩ := List.append_of_mem (perm.mem_iff.2 member)
    rw [← outranking_perm perm, outranking_append sorted distinct'] at exceeds
    exact (mem_beyond_append distinct'.of_map).2 exceeds

/-! ## The laws -/

/-- The least of some elements is outranked by all the others. -/
theorem exists_outranked (distinct : (rows.map key).Nodup) (nonempty : rows ≠ []) :
    ∃ x ∈ rows, rows.length ≤ outranking key rows x + 1 := by
  have found : List.argmin key rows ≠ none := mt List.argmin_eq_none.1 nonempty
  obtain ⟨x, least⟩ := Option.ne_none_iff_exists'.1 found
  have member : x ∈ rows := List.argmin_mem (f := key) least
  refine ⟨x, member, ?_⟩
  have equals : rows.countP (fun y => ! decide (key x < key y)) ≤ 1 := by
    have one : (rows.map key).count (key x) ≤ 1 := List.nodup_iff_count_le_one.1 distinct _
    rw [List.count_eq_countP, List.countP_map] at one
    refine le_trans (List.countP_mono_left fun y hy notAbove => ?_) one
    have le : key x ≤ key y := List.le_of_mem_argmin hy least
    simp only [Bool.not_eq_true', decide_eq_false_iff_not, not_lt] at notAbove
    simpa using le_antisymm notAbove le
  have total := List.length_eq_countP_add_countP (fun y => decide (key x < key y)) (l := rows)
  unfold outranking
  simp only [decide_not, decide_eq_true_eq] at total equals ⊢
  omega

/-- At most as many are kept as the largest limit among them. -/
theorem length_le_of_kept (distinct : (rows.map key).Nodup) {part : List α} {n : Nat}
    (sub : part.Sublist (kept key limit rows)) (bound : ∀ x ∈ part, limit x ≤ n) :
    part.length ≤ n := by
  by_cases nonempty : part = []
  · rw [nonempty]
    exact Nat.zero_le n
  · have within : part.Sublist rows := sub.trans (kept_sublist key limit rows)
    obtain ⟨x, member, low⟩ := exists_outranked (distinct.sublist (within.map key)) nonempty
    have few := (mem_kept.1 (sub.subset member)).2
    have fewer : outranking key part x ≤ outranking key rows x := outranking_le within x
    have limited := bound x member
    omega

/-- What is kept is closed upwards among elements with the same limit. -/
theorem kept_upward (member : x ∈ kept key limit rows) (other : y ∈ rows)
    (same : limit x ≤ limit y) (le : key x ≤ key y) : y ∈ kept key limit rows := by
  obtain ⟨_, few⟩ := mem_kept.1 member
  have fewer : outranking key rows y ≤ outranking key rows x := outranking_mono le
  exact mem_kept.2 ⟨other, by omega⟩

/-- The greatest element is kept. -/
theorem greatest_mem_kept (positive : 0 < limit x) (member : x ∈ rows)
    (greatest : ∀ y ∈ rows, key y ≤ key x) : x ∈ kept key limit rows := by
  have none : outranking key rows x = 0 := by
    rw [outranking, List.countP_eq_zero]
    intro y hy
    simpa using greatest y hy
  exact mem_kept.2 ⟨member, by omega⟩

/-- Ranks shrink when elements go, so what has been kept is kept again. -/
theorem kept_of_sublist (sub : rows'.Sublist rows) (member : x ∈ rows')
    (before : x ∈ kept key limit rows) : x ∈ kept key limit rows' := by
  obtain ⟨_, few⟩ := mem_kept.1 before
  have fewer : outranking key rows' x ≤ outranking key rows x := outranking_le sub x
  exact mem_kept.2 ⟨member, by omega⟩

theorem kept_kept (key : α → κ) (limit : α → Nat) (rows : List α) :
    kept key limit (kept key limit rows) = kept key limit rows := by
  rw [kept, List.filter_eq_self]
  intro x member
  have again := kept_of_sublist (kept_sublist key limit rows) member member
  simpa using (mem_kept.1 again).2

/-- With one limit for all, the greatest are kept. -/
theorem kept_perm_take {n : Nat} (ranks : Ranks key rows ranked) (distinct : (rows.map key).Nodup)
    (uniform : ∀ x ∈ rows, limit x = n) : (kept key limit rows).Perm (ranked.take n) := by
  obtain ⟨perm, sorted⟩ := ranks
  have distinct' : (ranked.map key).Nodup := (perm.map key).nodup_iff.2 distinct
  have whole : (kept key limit rows).Nodup := distinct.of_map.sublist (kept_sublist key limit rows)
  have front : (ranked.take n).Nodup := distinct'.of_map.sublist (List.take_sublist n ranked)
  rw [List.perm_ext_iff_of_nodup whole front]
  intro x
  rw [mem_kept]
  constructor
  · rintro ⟨member, few⟩
    obtain ⟨before, after, rfl⟩ := List.append_of_mem (perm.mem_iff.2 member)
    rw [← outranking_perm perm, outranking_append sorted distinct', uniform x member] at few
    rw [List.take_append, List.mem_append]
    obtain ⟨m, split⟩ : ∃ m, n - before.length = m + 1 := ⟨n - before.length - 1, by omega⟩
    rw [split]
    exact .inr (by simp)
  · intro early
    have member : x ∈ rows := perm.mem_iff.1 ((List.take_sublist n ranked).subset early)
    refine ⟨member, ?_⟩
    rw [uniform x member, ← outranking_perm perm]
    obtain ⟨before, after, split⟩ := List.append_of_mem early
    have all : ranked = before ++ x :: (after ++ ranked.drop n) := by
      rw [← List.cons_append, ← List.append_assoc, ← split, List.take_append_drop]
    have length : before.length + 1 ≤ n := by
      have cut := List.length_take_le n ranked
      rw [split, List.length_append, List.length_cons] at cut
      omega
    rw [all] at sorted distinct'
    rw [all, outranking_append sorted distinct']
    omega

/-! ## Elements with equal keys -/

variable [DecidableEq α]

/-- How many other elements some ranking may put before `x`. -/
def rivals (key : α → κ) (rows : List α) (x : α) : Nat :=
  rows.countP fun y => y ≠ x && key x ≤ key y

theorem rivals_eq (nodup : rows.Nodup) :
    rivals key rows x = (rows.erase x).countP fun y => key x ≤ key y := by
  rw [rivals, nodup.erase_eq_filter, List.countP_filter]
  apply List.countP_congr
  intro y _
  simp [and_comm]

theorem erase_append_perm (member : x ∈ rows) : (rows.erase x ++ [x]).Perm rows :=
  (List.perm_append_singleton x _).trans (List.perm_cons_erase member).symm

/-- With fewer rivals than its limit, no ranking puts `x` beyond it. -/
theorem not_mem_beyond_of_rivals (ranks : Ranks key rows ranked) (nodup : rows.Nodup)
    (member : x ∈ rows) (few : rivals key rows x < limit x) : x ∉ beyond limit ranked := by
  have perm := erase_append_perm member
  rw [rivals_eq nodup] at few
  exact not_mem_beyond ⟨ranks.1.trans perm.symm, ranks.2⟩ (perm.nodup_iff.2 nodup) few

/-- With as many, some ranking does. -/
theorem exists_beyond_of_rivals (nodup : rows.Nodup) (member : x ∈ rows)
    (many : limit x ≤ rivals key rows x) :
    ∃ ranked, Ranks key rows ranked ∧ x ∈ beyond limit ranked := by
  have perm := erase_append_perm member
  rw [rivals_eq nodup] at many
  obtain ⟨ranked, ranks, stale⟩ := exists_mem_beyond (perm.nodup_iff.2 nodup) many
  exact ⟨ranked, ⟨ranks.1.trans perm, ranks.2⟩, stale⟩

/-- A new greatest element is everybody's rival. -/
theorem rivals_append (le : key x ≤ key y) (other : y ≠ x) :
    rivals key (rows ++ [y]) x = rivals key rows x + 1 := by
  rw [rivals, List.countP_append, List.countP_singleton]
  simp [rivals, other, le]

omit [DecidableEq α] in
/-- At most `n` elements with a limit of at most `n` are within it. -/
theorem length_within_le {n : Nat} (nodup : ranked.Nodup) {part : List α} (distinct : part.Nodup)
    (within : ∀ x ∈ part, x ∈ ranked ∧ x ∉ beyond limit ranked ∧ limit x ≤ n) :
    part.length ≤ n := by
  have front : part ⊆ ranked.take n := by
    intro x hx
    obtain ⟨member, kept, low⟩ := within x hx
    obtain ⟨before, after, rfl⟩ := List.append_of_mem member
    rw [mem_beyond_append nodup] at kept
    obtain ⟨m, split⟩ : ∃ m, n - before.length = m + 1 := ⟨n - before.length - 1, by omega⟩
    rw [List.take_append, split]
    exact List.mem_append.2 (.inr (by simp))
  have shorter := (List.subperm_of_subset distinct front).length_le
  exact shorter.trans (List.length_take_le n ranked)

/-! ## Turns -/

/-- A new greatest element `x` joins, and what `ranked` puts beyond its limit goes. -/
structure Turn (key : α → κ) (limit : α → Nat) (rows : List α) (x : α) (ranked rows' : List α) :
    Prop where
  newest : ∀ y ∈ rows, key y < key x
  ranks : Ranks key (rows ++ [x]) ranked
  nodup : rows'.Nodup
  left : ∀ y, y ∈ rows' ↔ y ∈ rows ++ [x] ∧ y ∉ beyond limit ranked

/-- The elements of `rich` are there and cannot go in the next turn; the others have a limit of at
most `n`. -/
structure Secure (key : α → κ) (limit : α → Nat) (n : Nat) (rich rows : List α) : Prop where
  nodup : rows.Nodup
  present : ∀ y ∈ rich, y ∈ rows
  poor : ∀ y ∈ rows, y ∉ rich → limit y ≤ n
  room : ∀ y ∈ rich, rivals key rows y + 2 ≤ limit y

omit [DecidableEq α] in
theorem Turn.fresh (turn : Turn key limit rows x ranked rows') : x ∉ rows :=
  fun member => lt_irrefl _ (turn.newest x member)

omit [DecidableEq α] in
theorem Turn.nodup_append (turn : Turn key limit rows x ranked rows') (nodup : rows.Nodup) :
    (rows ++ [x]).Nodup := by
  rw [List.nodup_append']
  refine ⟨nodup, List.nodup_singleton x, ?_⟩
  intro y old new
  rw [List.mem_singleton.1 new] at old
  exact turn.fresh old

variable {n : Nat} {rich : List α}

/-- What is secure stays so when the limits leave room for `n` others beside `rich`. -/
theorem Secure.turn (secure : Secure key limit n rich rows)
    (steady : ∀ y ∈ rich, rivals key rich y + n + 2 ≤ limit y)
    (turn : Turn key limit rows x ranked rows') (poor : limit x ≤ n) :
    Secure key limit n rich rows' := by
  have nodup := turn.nodup_append secure.nodup
  have present : ∀ y ∈ rich, y ∈ rows' := by
    intro y member
    have old := secure.present y member
    have apart : x ≠ y := fun same => turn.fresh (same ▸ old)
    have room := secure.room y member
    refine (turn.left y).2 ⟨List.mem_append_left _ old, ?_⟩
    refine not_mem_beyond_of_rivals turn.ranks nodup (List.mem_append_left _ old) ?_
    rw [rivals_append (turn.newest y old).le apart]
    omega
  have others : ∀ y ∈ rows', y ∉ rich → limit y ≤ n := by
    intro y member notRich
    rcases List.mem_append.1 ((turn.left y).1 member).1 with old | new
    · exact secure.poor y old notRich
    · rw [List.mem_singleton.1 new]
      exact poor
  refine ⟨turn.nodup, present, others, fun y member => ?_⟩
  have few : (rows'.filter fun z => z ∉ rich).length ≤ n := by
    have within : ∀ z ∈ rows'.filter (fun z => z ∉ rich),
        z ∈ ranked ∧ z ∉ beyond limit ranked ∧ limit z ≤ n := by
      intro z hz
      obtain ⟨left, notRich⟩ := List.mem_filter.1 hz
      obtain ⟨listed, kept⟩ := (turn.left z).1 left
      exact ⟨turn.ranks.1.mem_iff.2 listed, kept, others z left (by simpa using notRich)⟩
    exact length_within_le (turn.ranks.1.nodup_iff.2 nodup) (turn.nodup.filter _) within
  have split : rivals key rows' y ≤
      rivals key rich y + (rows'.filter fun z => z ∉ rich).length := by
    have part := List.filter_append_perm (fun z => decide (z ∈ rich)) rows'
    rw [rivals, ← part.countP_eq, List.countP_append]
    have inRich : (rows'.filter fun z => z ∈ rich) ⊆ rich := by
      intro z hz
      simpa using (List.mem_filter.1 hz).2
    have first := (List.subperm_of_subset (turn.nodup.filter _) inRich).countP_le
      fun z => z ≠ y && key y ≤ key z
    have second : (rows'.filter fun z => ! decide (z ∈ rich)).countP
        (fun z => z ≠ y && key y ≤ key z) ≤ _ := List.countP_le_length
    simp only [← decide_not] at second ⊢
    exact Nat.add_le_add first second
  have enough := steady y member
  omega

/-- Above `top` there are `n` elements, all with the limit `r`. -/
structure Crowded (key : α → κ) (limit : α → Nat) (top : κ) (r n : Nat) (rows : List α) : Prop where
  nodup : rows.Nodup
  limited : ∀ y ∈ rows, top < key y → limit y = r
  count : rows.countP (fun y => top < key y) = n

/-- While they are fewer than their limit, another one joins them. -/
theorem Crowded.turn {top : κ} {r : Nat} (crowded : Crowded key limit top r n rows) (more : n < r)
    (turn : Turn key limit rows x ranked rows') (above : top < key x) (limited : limit x = r) :
    Crowded key limit top r (n + 1) rows' := by
  have nodup := turn.nodup_append crowded.nodup
  have all : ∀ y ∈ rows ++ [x], top < key y → limit y = r := by
    intro y member high
    rcases List.mem_append.1 member with old | new
    · exact crowded.limited y old high
    · rw [List.mem_singleton.1 new]
      exact limited
  have total : (rows ++ [x]).countP (fun y => top < key y) = n + 1 := by
    rw [List.countP_append, crowded.count, List.countP_singleton]
    simp [above]
  have stays : ∀ y ∈ rows ++ [x], top < key y → y ∈ rows' := by
    intro y member high
    refine (turn.left y).2 ⟨member, not_mem_beyond_of_rivals turn.ranks nodup member ?_⟩
    have fewer : rivals key (rows ++ [x]) y + 1 ≤ (rows ++ [x]).countP fun z => top < key z := by
      rw [rivals_eq nodup, ← (erase_append_perm member).countP_eq, List.countP_append,
        List.countP_singleton]
      have higher : ((rows ++ [x]).erase y).countP (fun z => key y ≤ key z) ≤
          ((rows ++ [x]).erase y).countP fun z => top < key z := by
        apply List.countP_mono_left
        intro z _ le
        simp only [decide_eq_true_eq] at le ⊢
        exact lt_of_lt_of_le high le
      simp only [high, decide_true, if_true]
      omega
    rw [all y member high]
    omega
  refine ⟨turn.nodup, fun y member => all y ((turn.left y).1 member).1, ?_⟩
  rw [← total, List.countP_eq_length_filter, List.countP_eq_length_filter]
  have same : (rows'.filter fun y => top < key y).Perm ((rows ++ [x]).filter fun y => top < key y) := by
    rw [List.perm_ext_iff_of_nodup (turn.nodup.filter _) (nodup.filter _)]
    intro y
    simp only [List.mem_filter, decide_eq_true_eq]
    exact and_congr_left fun high =>
      ⟨fun member => ((turn.left y).1 member).1, fun member => stays y member high⟩
  exact same.length_eq

/-- They are rivals of whatever is below them. -/
theorem Crowded.rivals_le {top : κ} {r : Nat} (crowded : Crowded key limit top r n rows)
    (distinct : rich.Nodup) (present : ∀ y ∈ rich, y ∈ rows) (low : ∀ y ∈ rich, key y ≤ top)
    (member : x ∈ rich) : rivals key rich x + n ≤ rivals key rows x := by
  have part := List.filter_append_perm (fun z => decide (top < key z)) rows
  rw [rivals.eq_def key rows, ← part.countP_eq, List.countP_append]
  have high : (rows.filter fun z => top < key z).countP (fun z => z ≠ x && key x ≤ key z) = n := by
    rw [← crowded.count, List.countP_filter]
    apply List.countP_congr
    intro z _
    have below : key x ≤ top := low x member
    simp only [Bool.and_eq_true, decide_eq_true_eq, ne_eq]
    refine ⟨fun h => h.2, fun above => ⟨⟨?_, (lt_of_le_of_lt below above).le⟩, above⟩⟩
    rintro rfl
    exact absurd above (not_lt_of_ge below)
  have richLow : rich ⊆ rows.filter fun z => ! decide (top < key z) := by
    intro z hz
    have le := low z hz
    refine List.mem_filter.2 ⟨present z hz, ?_⟩
    simpa using le
  have rest := (List.subperm_of_subset distinct richLow).countP_le
    fun z => z ≠ x && key x ≤ key z
  rw [high, rivals]
  omega

end Ranking
