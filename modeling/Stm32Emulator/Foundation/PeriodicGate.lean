import Stm32Emulator.Foundation.Run

/-!
# A gate that opens once in a while

A counter advances in jumps, and before each jump a gate looks at it: the gate opens if the counter
is at least a period past the value at which it was last open.  If no jump is longer than `longest`,
then the gate opens neither too often nor too rarely, however the jumps are distributed.
-/

namespace Stm32Emulator

/-- The counter, its value when the gate was last open, and how often it has been. -/
structure PeriodicGate where
  count : ℕ
  last : ℕ
  openings : ℕ
  deriving DecidableEq, Repr

namespace PeriodicGate

def new : PeriodicGate := ⟨0, 0, 0⟩

/-- The gate looks at the counter, which then jumps. -/
def step (period : ℕ) (g : PeriodicGate) (jump : ℕ) : PeriodicGate :=
  if period ≤ g.count - g.last then ⟨g.count + jump, g.count, g.openings + 1⟩
  else ⟨g.count + jump, g.last, g.openings⟩

/-- What holds after each jump, if no jump is longer than `longest`: the gate was open recently, and
the openings are at least a period and at most a period and a jump apart. -/
structure OnTime (period longest : ℕ) (g : PeriodicGate) : Prop where
  last_le : g.last ≤ g.count
  count_lt : g.count < g.last + period + longest
  openings_le : period * g.openings ≤ g.last
  le_openings : g.last + g.openings ≤ (period + longest) * g.openings

variable {period longest jump : ℕ} {g : PeriodicGate}

lemma OnTime.new (hperiod : 0 < period) : OnTime period longest .new :=
  ⟨Nat.le_refl 0, by simp only [PeriodicGate.new]; omega, by simp [PeriodicGate.new],
    by simp [PeriodicGate.new]⟩

lemma OnTime.step (h : OnTime period longest g) (hperiod : 0 < period) (hjump : jump ≤ longest) :
    OnTime period longest (g.step period jump) := by
  obtain ⟨hlast, hcount, hle, hge⟩ := h
  unfold PeriodicGate.step
  split_ifs with hopen
  · refine ⟨by dsimp only; omega, by dsimp only; omega, ?_, ?_⟩
    · dsimp only
      rw [Nat.mul_succ]
      omega
    · dsimp only
      rw [Nat.mul_succ]
      omega
  · exact ⟨by dsimp only; omega, by dsimp only; omega, hle, hge⟩

/-- The gate is on time after any jumps. -/
lemma onTime_foldl (hperiod : 0 < period) {jumps : List ℕ} (hjumps : ∀ jump ∈ jumps, jump ≤ longest)
    (h : OnTime period longest g) : OnTime period longest (jumps.foldl (step period) g) := by
  induction jumps generalizing g with
  | nil => exact h
  | cons jump jumps ih =>
    exact ih (fun jump hjump => hjumps jump (List.mem_cons_of_mem _ hjump))
      (h.step hperiod (hjumps jump List.mem_cons_self))

/-- How often the gate has been open, by the counter. -/
lemma OnTime.bounds (h : OnTime period longest g) :
    period * g.openings ≤ g.count ∧
    g.count + g.openings < (period + longest) * (g.openings + 1) := by
  obtain ⟨hlast, hcount, hle, hge⟩ := h
  rw [Nat.mul_succ]
  omega

end PeriodicGate

end Stm32Emulator
