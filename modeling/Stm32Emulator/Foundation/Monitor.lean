import Mathlib.Logic.Function.Basic
import Stm32Emulator.Foundation.Run

/-!
# Threads and a section for one of them

Threads with states of their own share a common state, and take steps in any order; the outside
world changes the common state at any time.  A section that one thread at a time is inside of owns
what the common state keeps: `free` while it is empty, and `held` by the thread inside otherwise.

`Monitor.run` is the rule: if no single step breaks this, then no run does.
-/

namespace Stm32Emulator

variable {ι σ τ α β : Type*}

/-- A step of one of the threads, or a move of the outside world. -/
inductive ThreadAction (ι α β : Type*) where
  | thread (i : ι) (a : α)
  | outside (b : β)
  deriving DecidableEq

/-- A thread takes a step and the others stay where they are. -/
def interleave [DecidableEq ι] (step : σ → τ → α → Option (σ × τ)) (move : σ → β → σ)
    (s : σ × (ι → τ)) :
    ThreadAction ι α β → Option (σ × (ι → τ))
  | .thread i a => (step s.1 (s.2 i) a).map fun r => (r.1, Function.update s.2 i r.2)
  | .outside b => some (move s.1 b, s.2)

/-- The common state and a thread are settled: the thread is outside, or it owns the section. -/
def Settled (inside : τ → Prop) (free : σ → Prop) (held : σ → τ → Prop) (s : σ) (t : τ) : Prop :=
  ¬ inside t ∧ free s ∨ inside t ∧ held s t

/-- A section that one thread at a time is inside of. -/
structure Monitor (step : σ → τ → α → Option (σ × τ)) (move : σ → β → σ) (inside : τ → Prop)
    (free : σ → Prop) (held : σ → τ → Prop) : Prop where
  /-- A thread outside, while the section is empty. -/
  enter : ∀ {s t a r}, ¬ inside t → free s → step s t a = some r → Settled inside free held r.1 r.2
  /-- The thread inside. -/
  stay : ∀ {s t a r}, inside t → held s t → step s t a = some r → Settled inside free held r.1 r.2
  /-- A thread outside, while another one is inside. -/
  refuse : ∀ {s t u a r}, ¬ inside t → inside u → held s u → step s t a = some r →
    ¬ inside r.2 ∧ held r.1 u
  move_free : ∀ {s} b, free s → free (move s b)
  move_held : ∀ {s u} b, inside u → held s u → held (move s b) u

/-- Nobody is inside and the section is free, or one thread is inside and holds it. -/
def Exclusive (inside : τ → Prop) (free : σ → Prop) (held : σ → τ → Prop)
    (s : σ × (ι → τ)) : Prop :=
  (∀ i, ¬ inside (s.2 i)) ∧ free s.1 ∨
    ∃ i, inside (s.2 i) ∧ (∀ j, j ≠ i → ¬ inside (s.2 j)) ∧ held s.1 (s.2 i)

namespace Exclusive

variable {inside : τ → Prop} {free : σ → Prop} {held : σ → τ → Prop} {s : σ × (ι → τ)}

/-- Two threads inside are the same. -/
lemma unique (h : Exclusive inside free held s) {i j : ι} (hi : inside (s.2 i))
    (hj : inside (s.2 j)) :
    i = j := by
  rcases h with ⟨hnone, -⟩ | ⟨k, -, hothers, -⟩
  · exact absurd hi (hnone i)
  · have hik : i = k := by_contra fun hne => hothers i hne hi
    have hjk : j = k := by_contra fun hne => hothers j hne hj
    exact hik.trans hjk.symm

/-- A thread inside holds the section. -/
lemma held_of_inside (h : Exclusive inside free held s) {i : ι} (hi : inside (s.2 i)) :
    held s.1 (s.2 i) := by
  rcases h with ⟨hnone, -⟩ | ⟨k, hk, hothers, hheld⟩
  · exact absurd hi (hnone i)
  · obtain rfl : i = k := by_contra fun hne => hothers i hne hi
    exact hheld

/-- Without a thread inside the section is free. -/
lemma free_of_forall (h : Exclusive inside free held s) (hnone : ∀ i, ¬ inside (s.2 i)) :
    free s.1 := by
  rcases h with ⟨-, hfree⟩ | ⟨k, hk, -⟩
  · exact hfree
  · exact absurd hk (hnone k)

/-- What both parts of the rule say of the common state. -/
lemma shared (h : Exclusive inside free held s) {P : σ → Prop} (hfree : ∀ s, free s → P s)
    (hheld : ∀ s t, inside t → held s t → P s) : P s.1 := by
  rcases h with ⟨-, hf⟩ | ⟨i, hi, -, hh⟩
  · exact hfree _ hf
  · exact hheld _ _ hi hh

end Exclusive

namespace Monitor

variable [DecidableEq ι] {step : σ → τ → α → Option (σ × τ)} {move : σ → β → σ} {inside : τ → Prop}
  {free : σ → Prop} {held : σ → τ → Prop}

/-- A step of a thread that leaves it settled, while all other threads are outside. -/
lemma exclusive_update {s : σ} {ts : ι → τ} {i : ι} {t : τ} (hothers : ∀ j, j ≠ i → ¬ inside (ts j))
    (h : Settled inside free held s t) :
    Exclusive inside free held (s, Function.update ts i t) := by
  have hupdated : ∀ j, j ≠ i → ¬ inside (Function.update ts i t j) := by
    intro j hj
    rw [Function.update_of_ne hj]
    exact hothers j hj
  rcases h with ⟨hout, hfree⟩ | ⟨hin, hheld⟩
  · refine Or.inl ⟨fun j => ?_, hfree⟩
    rcases eq_or_ne j i with rfl | hj
    · change ¬ inside (Function.update ts j t j)
      rwa [Function.update_self]
    · exact hupdated j hj
  · refine Or.inr ⟨i, ?_, hupdated, ?_⟩
    · change inside (Function.update ts i t i)
      rwa [Function.update_self]
    · change held s (Function.update ts i t i)
      rwa [Function.update_self]

/-- Every step keeps the section exclusive. -/
lemma exclusive_step (hmonitor : Monitor step move inside free held) {s s' : σ × (ι → τ)}
    {a : ThreadAction ι α β} (h : Exclusive inside free held s)
    (hstep : interleave step move s a = some s') :
    Exclusive inside free held s' := by
  cases a with
  | outside b =>
    obtain rfl := Option.some.inj hstep
    rcases h with ⟨hnone, hfree⟩ | ⟨i, hi, hothers, hheld⟩
    · exact Or.inl ⟨hnone, hmonitor.move_free b hfree⟩
    · exact Or.inr ⟨i, hi, hothers, hmonitor.move_held b hi hheld⟩
  | thread i a =>
    obtain ⟨r, hr, rfl⟩ := Option.map_eq_some_iff.mp hstep
    rcases h with ⟨hnone, hfree⟩ | ⟨k, hk, hothers, hheld⟩
    · exact exclusive_update (fun j _ => hnone j) (hmonitor.enter (hnone i) hfree hr)
    · rcases eq_or_ne i k with rfl | hne
      · exact exclusive_update hothers (hmonitor.stay hk hheld hr)
      · -- the thread inside is another one, and stays inside
        obtain ⟨hout, hheld'⟩ := hmonitor.refuse (hothers i hne) hk hheld hr
        refine Or.inr ⟨k, ?_, fun j hj => ?_, ?_⟩
        · change inside (Function.update s.2 i r.2 k)
          rwa [Function.update_of_ne hne.symm]
        · change ¬ inside (Function.update s.2 i r.2 j)
          rcases eq_or_ne j i with rfl | hji
          · rwa [Function.update_self]
          · rw [Function.update_of_ne hji]
            exact hothers j hj
        · change held r.1 (Function.update s.2 i r.2 k)
          rwa [Function.update_of_ne hne.symm]

/-- **The rule.**  A section that no step breaks is exclusive in every run. -/
theorem run (hmonitor : Monitor step move inside free held) {s s' : σ × (ι → τ)}
    {as : List (ThreadAction ι α β)} (h : Exclusive inside free held s)
    (hrun : Run (stepRel (interleave step move)) s as s') : Exclusive inside free held s' :=
  hrun.invariant_state h fun _ _ _ hs hstep => hmonitor.exclusive_step hs hstep

end Monitor

end Stm32Emulator
