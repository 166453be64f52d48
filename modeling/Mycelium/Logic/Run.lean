import Mathlib.Logic.Function.Basic
import Mathlib.Data.List.Induction

/-!
# Runs of a partial step function

A system is a step function `σ → α → Option σ`: `none` means that the label is
not enabled. A run is a list of labels. `Guarded` says that every step a run
takes is taken where a condition holds of it, `Throughout` that a property
holds in every state it passes. `Guarded.invariant` is the induction behind
every safety result; `throughout_iff_guarded` is the one behind the results
that say exactly which runs are safe.
-/

namespace Run

variable {σ α : Type} {step : σ → α → Option σ}

/-- The state after the labels `as`, if each of them was enabled in turn. -/
def exec (step : σ → α → Option σ) : σ → List α → Option σ
  | s, [] => some s
  | s, a :: as => (step s a).bind fun s' => exec step s' as

/-- Every step of the run is taken in a state where `P` holds of it. -/
def Guarded (step : σ → α → Option σ) (P : σ → α → Prop) : σ → List α → Prop
  | _, [] => True
  | s, a :: as => ∀ s', step s a = some s' → P s a ∧ Guarded step P s' as

/-- `Q` holds in every state the run passes, its first and last included. -/
def Throughout (step : σ → α → Option σ) (Q : σ → Prop) : σ → List α → Prop
  | s, [] => Q s
  | s, a :: as => Q s ∧ ∀ s', step s a = some s' → Throughout step Q s' as

instance Guarded.decidable {P : σ → α → Prop} [∀ s a, Decidable (P s a)] :
    ∀ s as, Decidable (Guarded step P s as)
  | _, [] => isTrue trivial
  | s, a :: as =>
    match taken : step s a with
    | none => isTrue fun s' now => absurd (taken.symm.trans now) nofun
    | some s' =>
      have : Decidable (Guarded step P s' as) := Guarded.decidable s' as
      decidable_of_iff (P s a ∧ Guarded step P s' as) ⟨fun h s'' now => by
        obtain rfl := Option.some.inj (taken.symm.trans now)
        exact h, fun h => h s' taken⟩

instance Throughout.decidable {Q : σ → Prop} [∀ s, Decidable (Q s)] :
    ∀ s as, Decidable (Throughout step Q s as)
  | s, [] => inferInstanceAs (Decidable (Q s))
  | s, a :: as =>
    match taken : step s a with
    | none => decidable_of_iff (Q s) ⟨fun here => ⟨here, fun s' now =>
        absurd (taken.symm.trans now) nofun⟩, And.left⟩
    | some s' =>
      have : Decidable (Throughout step Q s' as) := Throughout.decidable s' as
      decidable_of_iff (Q s ∧ Throughout step Q s' as) ⟨fun h => ⟨h.1, fun s'' now => by
        obtain rfl := Option.some.inj (taken.symm.trans now)
        exact h.2⟩, fun h => ⟨h.1, h.2 s' taken⟩⟩

@[simp] theorem exec_nil (s : σ) : exec step s [] = some s := rfl

theorem exec_cons {s s'' : σ} {a : α} {as : List α} (h : exec step s (a :: as) = some s'') :
    ∃ s', step s a = some s' ∧ exec step s' as = some s'' :=
  Option.bind_eq_some_iff.1 h

theorem exec_of_step {s s' : σ} {a : α} (taken : step s a = some s') (as : List α) :
    exec step s (a :: as) = exec step s' as := by
  rw [exec, taken, Option.bind_some]

theorem exec_append (s : σ) (as bs : List α) :
    exec step s (as ++ bs) = (exec step s as).bind fun s' => exec step s' bs := by
  induction as generalizing s with
  | nil => rfl
  | cons a as ih =>
    rw [List.cons_append, exec, exec, Option.bind_assoc]
    congr 1
    funext s'
    exact ih s'

/-- A run that goes one step further. -/
theorem exec_snoc {s s' s'' : σ} {as : List α} {a : α} (run : exec step s as = some s')
    (taken : step s' a = some s'') : exec step s (as ++ [a]) = some s'' := by
  rw [exec_append, run, Option.bind_some, exec, taken]
  rfl

/-- What holds at the start and after each further step of a run, the run so far included. -/
theorem history {P : List α → σ → Prop} {s₀ : σ} (start : P [] s₀)
    (next : ∀ as s a s', exec step s₀ as = some s → P as s → step s a = some s' →
      P (as ++ [a]) s') :
    ∀ {as : List α} {s : σ}, exec step s₀ as = some s → P as s := by
  intro as
  induction as using List.reverseRecOn with
  | nil =>
    intro s run
    cases run
    exact start
  | append_singleton as a ih =>
    intro s' run
    rw [exec_append] at run
    obtain ⟨s, before, last⟩ := Option.bind_eq_some_iff.1 run
    obtain ⟨_, taken, same⟩ := exec_cons last
    cases same
    exact next as s a s' before (ih before) taken

/-- Where each step of a system is a step of another, so is each run. -/
theorem exec_map {τ γ : Type} {step' : τ → γ → Option τ} {f : σ → τ} {g : α → γ}
    (simulates : ∀ s a s', step s a = some s' → step' (f s) (g a) = some (f s')) :
    ∀ {as : List α} {s s' : σ}, exec step s as = some s' →
      exec step' (f s) (as.map g) = some (f s') := by
  intro as
  induction as with
  | nil =>
    intro s s' run
    cases run
    rfl
  | cons a as ih =>
    intro s s'' run
    obtain ⟨s', taken, rest⟩ := exec_cons run
    rw [List.map_cons, exec, simulates s a s' taken]
    exact ih rest

theorem Guarded.cons {P : σ → α → Prop} {s s' : σ} {a : α} {as : List α}
    (taken : step s a = some s') (cond : P s a) (rest : Guarded step P s' as) :
    Guarded step P s (a :: as) := by
  intro s'' now
  obtain rfl := Option.some.inj (taken.symm.trans now)
  exact ⟨cond, rest⟩

/-- A condition that always holds guards every run. -/
theorem Guarded.of_forall {P : σ → α → Prop} (h : ∀ s a, P s a) :
    ∀ (as : List α) (s : σ), Guarded step P s as
  | [], _ => trivial
  | a :: as, s => fun s' _ => ⟨h s a, Guarded.of_forall h as s'⟩

/-- A condition on the labels alone. -/
theorem Guarded.of_mem {P : α → Prop} :
    ∀ {as : List α} (s : σ), (∀ a ∈ as, P a) → Guarded step (fun _ a => P a) s as
  | [], _, _ => trivial
  | _ :: _, _, all => fun s' _ => ⟨all _ List.mem_cons_self,
      Guarded.of_mem s' fun a later => all a (List.mem_cons_of_mem _ later)⟩

/-- What every guarded step preserves, a guarded run preserves. -/
theorem Guarded.invariant {P : σ → α → Prop} {I : σ → Prop}
    (preserved : ∀ s a s', I s → P s a → step s a = some s' → I s') :
    ∀ {as : List α} {s s' : σ}, I s → Guarded step P s as → exec step s as = some s' → I s' := by
  intro as
  induction as with
  | nil =>
    intro s s' start _ run
    cases run
    exact start
  | cons a as ih =>
    intro s s'' start guarded run
    obtain ⟨s', first, rest⟩ := exec_cons run
    obtain ⟨cond, guarded⟩ := guarded s' first
    exact ih (preserved s a s' start cond first) guarded rest

/-- What holds after every guarded step, holds throughout a guarded run. -/
theorem Guarded.throughout {P : σ → α → Prop} {I : σ → Prop}
    (preserved : ∀ s a s', I s → P s a → step s a = some s' → I s') :
    ∀ {as : List α} {s : σ}, I s → Guarded step P s as → Throughout step I s as := by
  intro as
  induction as with
  | nil => exact fun start _ => start
  | cons a as ih =>
    intro s start guarded
    refine ⟨start, fun s' taken => ?_⟩
    obtain ⟨cond, guarded⟩ := guarded s' taken
    exact ih (preserved s a s' start cond taken) guarded

/-- What every guarded step ensures, wherever it starts from, holds throughout a guarded run. -/
theorem Guarded.ensures {P : σ → α → Prop} {Q : σ → Prop}
    (post : ∀ s a s', P s a → step s a = some s' → Q s') {as : List α} {s : σ} (start : Q s)
    (guarded : Guarded step P s as) : Throughout step Q s as :=
  Guarded.throughout (fun s a s' _ cond taken => post s a s' cond taken) start guarded

theorem Throughout.mono {Q R : σ → Prop} (imp : ∀ s, Q s → R s) :
    ∀ {as : List α} {s : σ}, Throughout step Q s as → Throughout step R s as := by
  intro as
  induction as with
  | nil => exact fun here => imp _ here
  | cons a as ih =>
    intro s h
    exact ⟨imp s h.1, fun s' taken => ih (h.2 s' taken)⟩

/-- The unconditional case: an invariant of the step function holds after any run. -/
theorem invariant {I : σ → Prop} (preserved : ∀ s a s', I s → step s a = some s' → I s')
    {as : List α} {s s' : σ} (start : I s) (run : exec step s as = some s') : I s' :=
  Guarded.invariant (P := fun _ _ => True) (fun s a s' inv _ taken => preserved s a s' inv taken)
    start (Guarded.of_forall (fun _ _ => trivial) as s) run

theorem Guarded.mono {P Q : σ → α → Prop} (imp : ∀ s a, P s a → Q s a) :
    ∀ {as : List α} {s : σ}, Guarded step P s as → Guarded step Q s as := by
  intro as
  induction as with
  | nil => exact fun _ => trivial
  | cons a as ih =>
    intro s h s' taken
    exact ⟨imp s a (h s' taken).1, ih (h s' taken).2⟩

/-- A run that is guarded twice is guarded by the conjunction. -/
theorem Guarded.and {P Q : σ → α → Prop} :
    ∀ {as : List α} {s : σ}, Guarded step P s as → Guarded step Q s as →
      Guarded step (fun s a => P s a ∧ Q s a) s as := by
  intro as
  induction as with
  | nil => exact fun _ _ => trivial
  | cons a as ih =>
    intro s hp hq s' taken
    exact ⟨⟨(hp s' taken).1, (hq s' taken).1⟩, ih (hp s' taken).2 (hq s' taken).2⟩

/-- The first part of a guarded run. -/
theorem Guarded.take {P : σ → α → Prop} : ∀ {as : List α} (bs : List α) (s : σ),
    Guarded step P s (as ++ bs) → Guarded step P s as
  | [], _, _, _ => trivial
  | _ :: _, bs, _, h => fun s' taken => ⟨(h s' taken).1, Guarded.take bs s' (h s' taken).2⟩

/-- The rest of a guarded run. -/
theorem Guarded.drop {P : σ → α → Prop} {bs : List α} : ∀ {as : List α} {s s' : σ},
    Guarded step P s (as ++ bs) → exec step s as = some s' → Guarded step P s' bs := by
  intro as
  induction as with
  | nil =>
    intro s s' h run
    cases run
    exact h
  | cons a as ih =>
    intro s s'' h run
    obtain ⟨s', taken, rest⟩ := exec_cons run
    exact ih (h s' taken).2 rest

/-- **Exactly the guarded runs are good.** `I` is an invariant of the good part of a run:
under it a step that meets `P` keeps `I`, and one that does not leads to a bad state. -/
theorem throughout_iff_guarded {P A : σ → α → Prop} {I Good : σ → Prop}
    (good : ∀ s, I s → Good s)
    (keeps : ∀ s a s', I s → A s a → step s a = some s' → P s a → I s')
    (breaks : ∀ s a s', I s → A s a → step s a = some s' → Good s' → P s a) :
    ∀ {as : List α} {s : σ}, I s → Guarded step A s as →
      (Throughout step Good s as ↔ Guarded step P s as) := by
  intro as
  induction as with
  | nil => exact fun {s} start _ => ⟨fun _ => trivial, fun _ => good s start⟩
  | cons a as ih =>
    intro s start allowed
    constructor
    · rintro ⟨_, later⟩ s' taken
      obtain ⟨ok, allowed⟩ := allowed s' taken
      have rest := later s' taken
      have here : Good s' := by
        cases as with
        | nil => exact rest
        | cons => exact rest.1
      have cond := breaks s a s' start ok taken here
      exact ⟨cond, (ih (keeps s a s' start ok taken cond) allowed).1 rest⟩
    · intro guarded
      refine ⟨good s start, fun s' taken => ?_⟩
      obtain ⟨ok, allowed⟩ := allowed s' taken
      obtain ⟨cond, guarded⟩ := guarded s' taken
      exact (ih (keeps s a s' start ok taken cond) allowed).2 guarded

/-! ## Worker pools

A pool assigns each worker id the worker's local state, `none` when the id is unused. -/

section Pool

variable {κ W : Type} [DecidableEq κ] {pool : κ → Option W} {t : κ} {x : Option W}

/-- A property of all workers after one of them moved. -/
theorem forall_update {P : κ → W → Prop} :
    (∀ t' w, Function.update pool t x t' = some w → P t' w) ↔
      (∀ w, x = some w → P t w) ∧ ∀ t' w, t' ≠ t → pool t' = some w → P t' w := by
  constructor
  · intro h
    refine ⟨fun w same => h t w (by simpa using same), fun t' w other found => h t' w ?_⟩
    rwa [Function.update_of_ne other]
  · rintro ⟨self, others⟩ t' w found
    by_cases same : t' = t
    · subst same
      exact self w (by simpa using found)
    · exact others t' w same (by rwa [Function.update_of_ne same] at found)

end Pool

end Run
