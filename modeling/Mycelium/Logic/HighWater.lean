import Mycelium.Logic.Run

/-!
# A high-water alarm without a lock

Writers share a store that others empty. A writer adds an element, counts the
store in a second access, and raises the alarm in a third step if the count has
reached the mark. Elements of other writers, and removals, may come between any
two accesses. Whoever added last has counted after every addition, so his count
bounds what is left: a store that is at the mark while nobody is on the way has
been announced since its last addition.
-/

namespace HighWater

variable {κ α : Type}

/-- Where a writer stands after its addition. -/
inductive Point where
  /-- before it counts -/
  | added
  /-- before it compares its count with the mark -/
  | counted (n : Nat)
deriving DecidableEq, Repr

structure State (κ α : Type) where
  items : List α
  writers : κ → Option Point

inductive Action (κ α : Type) where
  | add (w : κ) (x : α)
  | count (w : κ)
  | decide (w : κ)
  /-- a removal, and what it leaves -/
  | remove (rest : List α)

def Action.adds : Action κ α → Option α
  | .add _ x => some x
  | _ => none

def Action.removes : Action κ α → Bool
  | .remove _ => true
  | _ => false

variable [DecidableEq κ] [DecidableEq α]

/-- One access; `none` when it is not enabled. -/
def step (s : State κ α) : Action κ α → Option (State κ α)
  | .add w x =>
    if (s.writers w).isNone then
      some ⟨s.items ++ [x], Function.update s.writers w (some .added)⟩
    else none
  | .count w =>
    match s.writers w with
    | some .added =>
      some { s with writers := Function.update s.writers w (some (.counted s.items.length)) }
    | _ => none
  | .decide w =>
    match s.writers w with
    | some (.counted _) => some { s with writers := Function.update s.writers w none }
    | _ => none
  | .remove rest => if rest.Sublist s.items then some { s with items := rest } else none

/-- The step is a decision to raise the alarm. -/
def Alarms (mark : Int) (s : State κ α) (a : Action κ α) : Prop :=
  ∃ w n, a = .decide w ∧ s.writers w = some (.counted n) ∧ mark ≤ n

/-- The store with nobody on the way. -/
def start (items : List α) : State κ α := ⟨items, fun _ => none⟩

variable {mark : Int} {s s' s₀ : State κ α} {as bs : List (Action κ α)}

/-! ## What is left after the last addition -/

theorem sublist_of_step {a : Action κ α} (h : step s a = some s') (quiet : a.adds = none) :
    s'.items.Sublist s.items := by
  cases a with
  | add => cases quiet
  | count w =>
    simp only [step] at h
    split at h <;> cases h
    exact .refl _
  | decide w =>
    simp only [step] at h
    split at h <;> cases h
    exact .refl _
  | remove rest =>
    simp only [step] at h
    split at h
    · rename_i within
      cases h
      exact within
    · cases h

/-- Without additions the store only shrinks. -/
theorem sublist_of_run (run : Run.exec step s as = some s') (quiet : ∀ a ∈ as, a.adds = none) :
    s'.items.Sublist s.items := by
  induction as generalizing s with
  | nil =>
    cases run
    exact .refl _
  | cons a as ih =>
    obtain ⟨mid, taken, rest⟩ := Run.exec_cons run
    have later := ih rest fun b member => quiet b (List.mem_cons_of_mem a member)
    exact later.trans (sublist_of_step taken (quiet a List.mem_cons_self))

/-- Without removals it only grows. -/
theorem sublist_of_kept (run : Run.exec step s as = some s')
    (kept : ∀ a ∈ as, a.removes = false) : s.items.Sublist s'.items := by
  induction as generalizing s with
  | nil =>
    cases run
    exact .refl _
  | cons a as ih =>
    obtain ⟨mid, taken, rest⟩ := Run.exec_cons run
    have later := ih rest fun b member => kept b (List.mem_cons_of_mem a member)
    refine .trans ?_ later
    have here := kept a List.mem_cons_self
    cases a with
    | add w x =>
      simp only [step] at taken
      split at taken <;> cases taken
      exact List.sublist_append_left ..
    | count w =>
      simp only [step] at taken
      split at taken <;> cases taken
      exact .refl _
    | decide w =>
      simp only [step] at taken
      split at taken <;> cases taken
      exact .refl _
    | remove => cases here

/-! ## The last one to add -/

/-- The run has raised the alarm, and added nothing since. -/
def Announced (mark : Int) (s₀ : State κ α) (as : List (Action κ α)) : Prop :=
  ∃ before a after s₁ s₂, as = before ++ a :: after ∧ Run.exec step s₀ before = some s₁ ∧
    step s₁ a = some s₂ ∧ Alarms mark s₁ a ∧ ∀ b ∈ after, b.adds = none

theorem Announced.snoc {a : Action κ α} (announced : Announced mark s₀ as) (quiet : a.adds = none) :
    Announced mark s₀ (as ++ [a]) := by
  obtain ⟨before, b, after, s₁, s₂, rfl, first, taken, alarms, none⟩ := announced
  refine ⟨before, b, after ++ [a], s₁, s₂, by simp, first, taken, alarms, fun c member => ?_⟩
  rcases List.mem_append.1 member with old | new
  · exact none c old
  · rw [List.mem_singleton.1 new]
    exact quiet

/-- Somebody has still to count, or has counted no less than there is; or there is no need for the
alarm, or it has been raised. -/
inductive Watched (mark : Int) (s₀ : State κ α) (as : List (Action κ α)) (s : State κ α) : Prop where
  | added (w : κ) (here : s.writers w = some .added) : Watched mark s₀ as s
  | counted (w : κ) (n : Nat) (here : s.writers w = some (.counted n)) (bound : s.items.length ≤ n) :
      Watched mark s₀ as s
  | empty (none : s.items = []) : Watched mark s₀ as s
  | below (short : (s.items.length : Int) < mark) : Watched mark s₀ as s
  | announced (announced : Announced mark s₀ as) : Watched mark s₀ as s

/-- A removal leaves the store watched. -/
theorem Watched.remove {rest : List α} (watched : Watched mark s₀ as s)
    (within : rest.Sublist s.items) :
    Watched mark s₀ (as ++ [.remove rest]) { s with items := rest } := by
  have le := within.length_le
  cases watched with
  | added w here => exact .added w here
  | counted w n here bound => exact .counted w n here (Nat.le_trans le bound)
  | empty none => exact .empty (List.sublist_nil.1 (none ▸ within))
  | below short => exact .below (by change (rest.length : Int) < mark; omega)
  | announced announced => exact .announced (announced.snoc rfl)

/-- **Each access keeps the store watched.** -/
theorem Watched.step {a : Action κ α} (run : Run.exec HighWater.step s₀ as = some s)
    (watched : Watched mark s₀ as s) (h : HighWater.step s a = some s') :
    Watched mark s₀ (as ++ [a]) s' := by
  have same := h
  cases a with
  | add w x =>
    simp only [HighWater.step] at h
    split at h <;> cases h
    exact .added w (Function.update_self ..)
  | count w =>
    simp only [HighWater.step] at h
    split at h <;> cases h
    -- whoever has just counted watches the store
    exact .counted w _ (Function.update_self ..) (Nat.le_refl _)
  | decide w =>
    simp only [HighWater.step] at h
    split at h <;> cases h
    rename_i n here
    cases watched with
    | added w' here' =>
      have other : w' ≠ w := by
        rintro rfl
        cases here.symm.trans here'
      exact .added w' ((Function.update_of_ne other _ s.writers).trans here')
    | counted w' n' here' bound =>
      by_cases mine : w' = w
      · subst mine
        cases here.symm.trans here'
        by_cases reached : mark ≤ n
        · exact .announced ⟨as, .decide w', [], s, _, rfl, run, same, ⟨w', n, rfl, here, reached⟩,
            nofun⟩
        · exact .below (by change (s.items.length : Int) < mark; omega)
      · exact .counted w' n' ((Function.update_of_ne mine _ s.writers).trans here') bound
    | empty none => exact .empty none
    | below short => exact .below short
    | announced announced => exact .announced (announced.snoc rfl)
  | remove rest =>
    simp only [HighWater.step] at h
    split at h
    · rename_i within
      cases h
      exact watched.remove within
    · cases h

/-- **A store at the mark has been announced since its last addition**, whenever nobody is between
his addition and his decision. -/
theorem announced_of_full {items : List α} (low : items = [] ∨ (items.length : Int) < mark)
    (run : Run.exec step (start items) as = some s) (idle : ∀ w, s.writers w = none)
    (nonempty : s.items ≠ []) (full : mark ≤ s.items.length) : Announced mark (start items) as := by
  have watched : Watched mark (start items) as s := by
    refine Run.history (P := Watched mark (start items)) ?_
      (fun _ _ _ _ run watched taken => watched.step run taken) run
    rcases low with none | short
    · exact .empty none
    · exact .below short
  cases watched with
  | added w here => cases (idle w).symm.trans here
  | counted w n here bound => cases (idle w).symm.trans here
  | empty none => exact absurd none nonempty
  | below short => exact absurd full (Int.not_le.2 short)
  | announced announced => exact announced

end HighWater
