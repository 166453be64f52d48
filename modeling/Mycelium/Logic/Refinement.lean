import Mycelium.Logic.Run

/-!
# Refinement of a specification

A specification says which steps are allowed and where they lead; it need not say
which one is taken. A machine refines it along a relation between its states and
the specification's when each of its steps is an allowed one. Then each of its runs
is, with the same labels, so what the labels show of a run the specification knows.
-/

namespace Run

variable {σ τ α : Type} {step : σ → α → Option σ} {spec : τ → α → τ → Prop} {R : σ → τ → Prop}

/-- A run of allowed steps. -/
inductive Steps (spec : τ → α → τ → Prop) : τ → List α → τ → Prop
  | nil (t : τ) : Steps spec t [] t
  | cons {t t' t'' : τ} {a : α} {as : List α} (first : spec t a t') (rest : Steps spec t' as t'') :
    Steps spec t (a :: as) t''

/-- **Refinement, step by step.** -/
theorem Guarded.refines {P : σ → α → Prop}
    (allowed : ∀ s a s' t, R s t → P s a → step s a = some s' → ∃ t', spec t a t' ∧ R s' t') :
    ∀ {as : List α} {s s' : σ} {t : τ}, R s t → Guarded step P s as → exec step s as = some s' →
      ∃ t', Steps spec t as t' ∧ R s' t' := by
  intro as
  induction as with
  | nil =>
    intro s s' t related _ run
    cases run
    exact ⟨t, .nil t, related⟩
  | cons a as ih =>
    intro s s'' t related guarded run
    obtain ⟨s', taken, rest⟩ := exec_cons run
    obtain ⟨cond, guarded⟩ := guarded s' taken
    obtain ⟨t', first, related⟩ := allowed s a s' t related cond taken
    obtain ⟨t'', later, related⟩ := ih related guarded rest
    exact ⟨t'', .cons first later, related⟩

end Run
