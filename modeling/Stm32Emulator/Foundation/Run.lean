import Mathlib.Logic.Basic
import Mathlib.Data.List.Basic

/-!
# Runs of labelled transition relations

A system is a relation `step s a s'`: in state `s` the action `a` may lead to `s'`.  `Run step s as
s'` says that the actions `as`, in this order, lead from `s` to `s'`.

The one rule of the theory is `Run.invariant`: a property of *the history so far and the state* that
holds of the empty history and that each step extends by its action holds of every run.  The history
in the property is what lets a ghost quantity, such as a stack of open calls, be a function of the
actions and not a part of the state.  A ghost that looks at the states as well is carried along by
`withGhost`.
-/

namespace Stm32Emulator

variable {σ α γ : Type*}

/-- The actions `as` lead from `s` to `s'`.  Runs grow at their end. -/
inductive Run (step : σ → α → σ → Prop) (s : σ) : List α → σ → Prop
  | nil : Run step s [] s
  | snoc {as : List α} {s' s'' : σ} {a : α} :
      Run step s as s' → step s' a s'' → Run step s (as ++ [a]) s''

/-- The relation of a partial step function. -/
def stepRel (step : σ → α → Option σ) (s : σ) (a : α) (s' : σ) : Prop :=
  step s a = some s'

/-- The steps of a relation that meet a condition on the action and the state before it. -/
def guardedStep (ok : σ → α → Prop) (step : σ → α → σ → Prop) (s : σ) (a : α) (s' : σ) : Prop :=
  ok s a ∧ step s a s'

/-- A step with a ghost: a quantity that every step updates and that no step reads. -/
def withGhost (step : σ → α → Option σ) (next : γ → σ → α → γ) (p : σ × γ) (a : α) :
    Option (σ × γ) :=
  (step p.1 a).map fun s => (s, next p.2 p.1 a)

/-- Executing actions one after the other, each of which must meet the condition. -/
def execGuarded (ok : σ → α → Prop) [∀ s a, Decidable (ok s a)] (f : σ → α → Option σ) (s : σ)
    (as : List α) : Option σ :=
  as.foldlM (fun s a => if ok s a then f s a else none) s

@[simp] lemma withGhost_eq_some {step : σ → α → Option σ} {next : γ → σ → α → γ} {p q : σ × γ}
    {a : α} : withGhost step next p a = some q ↔ step p.1 a = some q.1 ∧ next p.2 p.1 a = q.2 := by
  rcases q with ⟨s, g⟩
  simp [withGhost]

namespace Run

variable {step : σ → α → σ → Prop} {s s' s'' : σ} {as bs : List α}

/-- A step is a run of one action. -/
lemma single {a : α} (h : step s a s') : Run step s [a] s' := by
  simpa using Run.snoc Run.nil h

/-- Runs compose. -/
lemma append (h₁ : Run step s as s') (h₂ : Run step s' bs s'') : Run step s (as ++ bs) s'' := by
  induction h₂ with
  | nil => simpa using h₁
  | snoc _ hstep ih =>
    rw [← List.append_assoc]
    exact Run.snoc ih hstep

/-- A run is a run of every larger relation. -/
lemma mono {step' : σ → α → σ → Prop} (h : Run step s as s')
    (hstep : ∀ s a s', step s a s' → step' s a s') : Run step' s as s' := by
  induction h with
  | nil => exact Run.nil
  | snoc _ ha ih => exact Run.snoc ih (hstep _ _ _ ha)

/-- **Invariant rule.**  A property of the history and the state that holds at the start and is
extended by each step holds at the end of every run. -/
theorem invariant {I : List α → σ → Prop} (hrun : Run step s as s') (hinit : I [] s)
    (hstep : ∀ as s s' a, I as s → step s a s' → I (as ++ [a]) s') : I as s' := by
  induction hrun with
  | nil => exact hinit
  | snoc _ ha ih => exact hstep _ _ _ _ ih ha

/-- The invariant rule for a property of the state alone. -/
theorem invariant_state {I : σ → Prop} (hrun : Run step s as s') (hinit : I s)
    (hstep : ∀ s s' a, I s → step s a s' → I s') : I s' :=
  hrun.invariant (I := fun _ s => I s) hinit fun _ s s' a => hstep s s' a

/-- The actions of a partial step function determine where they lead. -/
lemma deterministic {f : σ → α → Option σ} (h₁ : Run (stepRel f) s as s')
    (h₂ : Run (stepRel f) s as s'') : s' = s'' := by
  induction h₁ generalizing s'' with
  | nil =>
    generalize has : ([] : List α) = bs at h₂
    cases h₂ with
    | nil => rfl
    | snoc _ _ => simp at has
  | @snoc as s₁ s₂ a _ hstep ih =>
    generalize has : as ++ [a] = bs at h₂
    cases h₂ with
    | nil => simp at has
    | snoc hrun hstep' =>
      obtain ⟨rfl, hab⟩ := List.append_inj' has rfl
      obtain rfl : a = _ := by simpa using hab
      obtain rfl := ih hrun
      exact Option.some.inj (hstep.symm.trans hstep')

/-- Executing actions one after the other is a run. -/
lemma of_foldlM {f : σ → α → Option σ} (h : as.foldlM f s = some s') : Run (stepRel f) s as s' := by
  induction as generalizing s with
  | nil =>
    cases h
    exact Run.nil
  | cons a as ih =>
    obtain ⟨s₁, ha, h⟩ := Option.bind_eq_some_iff.mp h
    exact (Run.single ha).append (ih h)

/-- Executing actions whose conditions all hold is a guarded run. -/
lemma of_execGuarded {ok : σ → α → Prop} [∀ s a, Decidable (ok s a)] {f : σ → α → Option σ}
    (h : execGuarded ok f s as = some s') : Run (guardedStep ok (stepRel f)) s as s' := by
  induction as generalizing s with
  | nil =>
    cases h
    exact Run.nil
  | cons a as ih =>
    obtain ⟨s₁, ha, h⟩ := Option.bind_eq_some_iff.mp h
    dsimp only at ha
    split at ha
    · next hok => exact (Run.single ⟨hok, ha⟩).append (ih h)
    · cases ha

end Run

end Stm32Emulator
