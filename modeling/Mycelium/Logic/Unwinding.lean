import Mathlib.Data.Option.Basic

/-!
# Two runs side by side

A step of a system is enabled or not, and puts something out. An observer who sees
both cannot tell two states apart when some relation holds between them that makes
each step look the same and holds again after it. `Indistinct.outputs` is the
unwinding theorem: what holds of one step then holds of every run.
-/

namespace Unwinding

variable {σ τ α ω ω' : Type} {R : σ → τ → Prop}

/-- The state after the labels, if each of them was enabled in turn, and what they put out. -/
def outputs (step : σ → α → Option (σ × ω)) : σ → List α → Option (σ × List ω)
  | s, [] => some (s, [])
  | s, a :: as =>
    (step s a).bind fun (s', out) => (outputs step s' as).map fun (s'', outs) => (s'', out :: outs)

/-- Neither step was enabled, or both put out the same and led to related states. -/
inductive Indistinct (R : σ → τ → Prop) : Option (σ × ω) → Option (τ × ω) → Prop where
  | disabled : Indistinct R none none
  | enabled (s : σ) (t : τ) (out : ω) (related : R s t) :
      Indistinct R (some (s, out)) (some (t, out))

namespace Indistinct

variable {x : Option (σ × ω)} {y : Option (τ × ω)}

theorem bind {σ' τ' : Type} {S : σ' → τ' → Prop} {f : σ × ω → Option (σ' × ω')}
    {g : τ × ω → Option (τ' × ω')} (h : Indistinct R x y)
    (next : ∀ s t out, R s t → Indistinct S (f (s, out)) (g (t, out))) :
    Indistinct S (x.bind f) (y.bind g) := by
  cases h with
  | disabled => exact .disabled
  | enabled s t out related => exact next s t out related

theorem map (h : Indistinct R x y) (f : ω → ω') :
    Indistinct R (x.map fun (s, out) => (s, f out)) (y.map fun (t, out) => (t, f out)) := by
  cases h with
  | disabled => exact .disabled
  | enabled s t out related => exact .enabled s t (f out) related

/-- **Unwinding.** -/
theorem outputs {step : σ → α → Option (σ × ω)} {step' : τ → α → Option (τ × ω)} {P : α → Prop}
    (each : ∀ s t a, R s t → P a → Indistinct R (step s a) (step' t a)) {s : σ} {t : τ}
    {as : List α} (related : R s t) (all : ∀ a ∈ as, P a) :
    Indistinct R (Unwinding.outputs step s as) (Unwinding.outputs step' t as) := by
  induction as generalizing s t with
  | nil => exact .enabled s t [] related
  | cons a as ih =>
    have first := each s t a related (all a List.mem_cons_self)
    refine first.bind fun s' t' out related' => ?_
    have rest := ih related' fun b member => all b (List.mem_cons_of_mem a member)
    exact rest.map (out :: ·)

end Indistinct

end Unwinding
