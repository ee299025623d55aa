import Mathlib.Data.BitVec
import Stm32Emulator.Foundation.Run

/-!
# Latched flags

A flag is up when some action has raised it and no later action has taken it down.  `HeldSince` says
this of a run: it can be cut at an action that raises the flag, after which every action keeps it.
A flag that each step raises or keeps is up at the end of a run exactly if that is so
(`Run.heldSince_iff`), and so is every bit of a word of which each step clears some bits and then
sets some (`Run.getLsbD_latched_iff`).
-/

namespace Stm32Emulator

variable {σ α : Type*} {step : σ → α → σ → Prop} {raises keeps : σ → α → Prop} {s s' s'' : σ}
    {as : List α}

/-- The run passes an action that raises the flag, and all later ones keep it. -/
def HeldSince (raises keeps : σ → α → Prop) (step : σ → α → σ → Prop) (s : σ) (as : List α)
    (s' : σ) : Prop :=
  ∃ before a after s₁ s₂, as = before ++ a :: after ∧ Run step s before s₁ ∧ raises s₁ a ∧
    step s₁ a s₂ ∧
    Run (guardedStep keeps step) s₂ after s'

namespace HeldSince

/-- An action that raises the flag. -/
lemma raise (hrun : Run step s as s') {a : α} (ha : raises s' a) (hstep : step s' a s'') :
    HeldSince raises keeps step s (as ++ [a]) s'' :=
  ⟨as, a, [], s', s'', rfl, hrun, ha, hstep, .nil⟩

/-- An action that keeps the flag. -/
lemma keep (h : HeldSince raises keeps step s as s') {a : α} (ha : keeps s' a)
    (hstep : step s' a s'') :
    HeldSince raises keeps step s (as ++ [a]) s'' := by
  obtain ⟨before, b, after, s₁, s₂, rfl, hbefore, hb, hraise, hafter⟩ := h
  refine ⟨before, b, after ++ [a], s₁, s₂, ?_, hbefore, hb, hraise, hafter.snoc ⟨ha, hstep⟩⟩
  rw [List.append_assoc, List.cons_append]

end HeldSince

/-- **A flag that each step raises or keeps** is up exactly if it has been held since it was
raised. -/
theorem Run.heldSince_iff {P : σ → Prop} (hrun : Run step s as s') (hinit : ¬ P s)
    (hstep : ∀ s s' a, step s a s' → (P s' ↔ raises s a ∨ P s ∧ keeps s a)) :
    P s' ↔ HeldSince raises keeps step s as s' := by
  constructor
  · intro h
    induction hrun with
    | nil => exact absurd h hinit
    | snoc hrun hlast ih =>
      rcases (hstep _ _ _ hlast).mp h with hraises | ⟨hheld, hkeeps⟩
      · exact .raise hrun hraises hlast
      · exact (ih hheld).keep hkeeps hlast
  · rintro ⟨before, a, after, s₁, s₂, -, -, ha, hraise, hafter⟩
    refine hafter.invariant_state ((hstep _ _ _ hraise).mpr (Or.inl ha)) ?_
    rintro s s' a h ⟨hkeeps, hs⟩
    exact (hstep _ _ _ hs).mpr (Or.inr ⟨h, hkeeps⟩)

/-! ## Words of flags -/

variable {w : ℕ}

/-- Some bits are cleared, and then some are set. -/
def latch (word cleared raised : BitVec w) : BitVec w := word &&& ~~~cleared ||| raised

lemma getLsbD_latch_iff (word cleared raised : BitVec w) (k : ℕ) :
    (latch word cleared raised).getLsbD k = true ↔
      raised.getLsbD k = true ∨ word.getLsbD k = true ∧ cleared.getLsbD k = false := by
  rw [latch, BitVec.getLsbD_or, BitVec.getLsbD_and, BitVec.getLsbD_not, Bool.or_eq_true,
    Bool.and_eq_true, Bool.and_eq_true, Bool.not_eq_true', decide_eq_true_eq, or_comm]
  refine or_congr_right ⟨fun h => ⟨h.1, h.2.2⟩, fun h => ⟨h.1, BitVec.lt_of_getLsbD h.1, h.2⟩⟩

@[simp] lemma latch_zero_zero (word : BitVec w) : latch word 0#w 0#w = word := by
  rw [latch, BitVec.not_zero, BitVec.and_allOnes, BitVec.or_zero]

@[simp] lemma latch_allOnes (word raised : BitVec w) :
    latch word (BitVec.allOnes w) raised = raised := by
  rw [latch, BitVec.not_allOnes, BitVec.and_zero, BitVec.zero_or]

@[simp] lemma latch_cleared (word cleared : BitVec w) :
    latch word cleared 0#w = word &&& ~~~cleared :=
  BitVec.or_zero

@[simp] lemma latch_raised (word raised : BitVec w) : latch word 0#w raised = word ||| raised := by
  rw [latch, BitVec.not_zero, BitVec.and_allOnes]

/-- **The bits of a word of flags** that starts at zero. -/
theorem Run.getLsbD_latch_iff (hrun : Run step s as s') (word : σ → BitVec w)
    (cleared raised : σ → α → BitVec w) (hinit : word s = 0#w)
    (hstep : ∀ s s' a, step s a s' → word s' = latch (word s) (cleared s a) (raised s a)) (k : ℕ) :
    (word s').getLsbD k = true ↔
      HeldSince (fun s a => (raised s a).getLsbD k = true)
        (fun s a => (cleared s a).getLsbD k = false) step s as
        s' := by
  refine hrun.heldSince_iff (P := fun s => (word s).getLsbD k = true) ?_ fun s s' a h => ?_
  · rw [hinit, BitVec.getLsbD_zero]
    exact Bool.false_ne_true
  · rw [hstep s s' a h]
    exact Stm32Emulator.getLsbD_latch_iff _ _ _ k

end Stm32Emulator
