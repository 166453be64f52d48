import Mathlib.Data.List.Infix
import Mathlib.Order.Lattice

/-!
# Append-only logs and their live part

A log is a list ordered strictly by a key. Entries are appended at its end and
dropped from its front, so at any time the live entries are a suffix of all the
entries ever appended. A reader takes a batch, the live entries of some earlier
moment; `Window` relates that batch to the log and to what is live now. The
point of a window is `Window.mem_batch`: a live entry whose key is not past the
batch's last key is in the batch.
-/

namespace Log

variable {α κ : Type} [LinearOrder κ] {key : α → κ}

/-- The keys increase strictly along the log. -/
def Ordered (key : α → κ) (l : List α) : Prop := l.Pairwise fun x y => key x < key y

/-- The entries whose key is not below `k`. -/
def cut (key : α → κ) (k : κ) (l : List α) : List α := l.filter fun x => decide (k ≤ key x)

theorem Ordered.nil : Ordered key [] := List.Pairwise.nil

theorem Ordered.nodup {l : List α} (h : Ordered key l) : l.Nodup :=
  h.imp fun lt same => absurd (congrArg key same) (ne_of_lt lt)

theorem Ordered.sublist {l l' : List α} (h : Ordered key l) (sub : l'.Sublist l) : Ordered key l' :=
  List.Pairwise.sublist sub h

theorem ordered_append {l l' : List α} :
    Ordered key (l ++ l') ↔ Ordered key l ∧ Ordered key l' ∧ ∀ x ∈ l, ∀ y ∈ l', key x < key y :=
  List.pairwise_append

/-- Appending an entry whose key is past every other. -/
theorem Ordered.snoc {l : List α} {y : α} (h : Ordered key l) (past : ∀ x ∈ l, key x < key y) :
    Ordered key (l ++ [y]) :=
  ordered_append.2 ⟨h, List.pairwise_singleton _ _, by simpa using past⟩

theorem Ordered.le_getLast {l : List α} (h : Ordered key l) (ne : l ≠ []) {x : α} (hx : x ∈ l) :
    key x ≤ key (l.getLast ne) := by
  rw [← List.dropLast_append_getLast ne, List.mem_append, List.mem_singleton] at hx
  rw [← List.dropLast_append_getLast ne] at h
  rcases hx with before | rfl
  · exact le_of_lt ((ordered_append.1 h).2.2 x before _ (by simp))
  · exact le_refl _

@[simp] theorem mem_cut {k : κ} {l : List α} {x : α} : x ∈ cut key k l ↔ x ∈ l ∧ k ≤ key x := by
  simp [cut]

theorem cut_append (k : κ) (l l' : List α) : cut key k (l ++ l') = cut key k l ++ cut key k l' := by
  simp [cut]

theorem cut_of_le {k : κ} {l : List α} (h : ∀ x ∈ l, k ≤ key x) : cut key k l = l := by
  simpa [cut] using h

theorem cut_of_lt {k : κ} {l : List α} (h : ∀ x ∈ l, key x < k) : cut key k l = [] := by
  simpa [cut] using h

/-- Cutting an ordered log drops entries from its front only. -/
theorem Ordered.cut_suffix {l : List α} (h : Ordered key l) (k : κ) : cut key k l <:+ l := by
  induction l with
  | nil => simp [cut]
  | cons x l ih =>
    obtain ⟨first, rest⟩ := List.pairwise_cons.1 h
    by_cases keep : k ≤ key x
    · rw [cut_of_le (by
        intro y hy
        rcases List.mem_cons.1 hy with rfl | hy
        · exact keep
        · exact le_trans keep (le_of_lt (first y hy)))]
    · have : cut key k (x :: l) = cut key k l := by simp [cut, keep]
      rw [this]
      exact (ih rest).trans (List.suffix_cons x l)

/-- Cutting right past a batch that is the front of the log leaves what follows it. -/
theorem cut_past_batch {batch post : List α} {k : κ} (h : Ordered key (batch ++ post))
    (ne : batch ≠ []) (past : ∀ x, key x < k ↔ key x ≤ key (batch.getLast ne)) :
    cut key k (batch ++ post) = post := by
  obtain ⟨front, _, apart⟩ := ordered_append.1 h
  have dropped : cut key k batch = [] := cut_of_lt fun x hx => (past x).2 (front.le_getLast ne hx)
  have kept : cut key k post = post := cut_of_le fun x hx =>
    le_of_not_gt fun lt =>
      absurd (apart _ (List.getLast_mem ne) x hx) (not_lt_of_ge ((past x).1 lt))
  rw [cut_append, dropped, kept, List.nil_append]

/-- `batch` was live at some moment of the log; `live` is what is live now. -/
structure Window (log batch live : List α) : Prop where
  nonempty : batch ≠ []
  split : ∃ pre post, log = pre ++ (batch ++ post) ∧ live <:+ batch ++ post

theorem Window.of_live {log live : List α} (suffix : live <:+ log) (ne : live ≠ []) :
    Window log live live := by
  obtain ⟨pre, rfl⟩ := suffix
  exact ⟨ne, pre, [], by simp, by simp⟩

/-- Appending to the log keeps the window. -/
theorem Window.snoc {log batch live : List α} (w : Window log batch live) (y : α) :
    Window (log ++ [y]) batch (live ++ [y]) := by
  obtain ⟨ne, pre, post, rfl, front, eq⟩ := w
  refine ⟨ne, pre, post ++ [y], by simp, front, ?_⟩
  rw [← List.append_assoc, eq, List.append_assoc]

/-- Dropping live entries keeps the window. -/
theorem Window.shrink {log batch live live' : List α} (w : Window log batch live)
    (suffix : live' <:+ live) : Window log batch live' :=
  let ⟨pre, post, split, within⟩ := w.split
  ⟨w.nonempty, pre, post, split, suffix.trans within⟩

/-- The batch is made of log entries. -/
theorem Window.subset {log batch live : List α} (w : Window log batch live) : batch ⊆ log := by
  obtain ⟨_, pre, post, rfl, _⟩ := w
  exact fun x hx => by simp [hx]

theorem Window.ordered {log batch live : List α} (w : Window log batch live)
    (h : Ordered key log) : Ordered key batch := by
  obtain ⟨_, pre, post, rfl, _⟩ := w
  exact h.sublist ((List.sublist_append_left batch post).trans (List.sublist_append_right pre _))

/-- A live entry whose key is not past the batch's last key is in the batch. -/
theorem Window.mem_batch {log batch live : List α} (w : Window log batch live)
    (h : Ordered key log) {x : α} (hx : x ∈ live) (le : key x ≤ key (batch.getLast w.nonempty)) :
    x ∈ batch := by
  obtain ⟨ne, pre, post, rfl, within⟩ := w
  have tail : Ordered key (batch ++ post) := h.sublist (List.sublist_append_right pre _)
  rcases List.mem_append.1 (within.subset hx) with inside | later
  · exact inside
  · exact absurd ((ordered_append.1 tail).2.2 _ (List.getLast_mem ne) x later) (not_lt_of_ge le)

end Log
