import Stm32Emulator.Exceptions.InstructionBudget
import Stm32Emulator.Foundation.PeriodicGate

/-!
# The cadence of the block hook

Two things are done from time to time in the block hook: an attempt to dispatch an interrupt, and a
poll of the devices and peripherals.  The counter advances in jumps, by the half words of a block,
and each of the two waits until its interval has passed.  So both are done as often as the counter
says, up to the length of a block.
-/

namespace Stm32Emulator

/-- The interval of the polls, less one. -/
def pumpEventInstInterval : ℕ := 1023

/-- The counter, and when the last attempt and the last poll took place. -/
structure HookClock where
  numInstructions : ℕ
  lastInterruptCheck : ℕ
  lastPump : ℕ
  deriving DecidableEq, Repr

namespace HookClock

def new : HookClock := ⟨0, 0, 0⟩

/-- There is an attempt in the hook. -/
def Attempts (interruptPeriod : ℕ) (c : HookClock) : Prop :=
  interruptPeriod ≤ c.numInstructions - c.lastInterruptCheck

/-- There is a poll in the hook. -/
def Pumps (c : HookClock) : Prop := pumpEventInstInterval + 1 ≤ c.numInstructions - c.lastPump

instance (interruptPeriod : ℕ) (c : HookClock) : Decidable (c.Attempts interruptPeriod) :=
  inferInstanceAs (Decidable (_ ≤ _))

instance (c : HookClock) : Decidable c.Pumps := inferInstanceAs (Decidable (_ ≤ _))

/-- The hook before a block. -/
def enter (interruptPeriod : ℕ) (c : HookClock) (b : Block) : HookClock where
  numInstructions := c.numInstructions + b.halfwords
  lastInterruptCheck := if c.Attempts interruptPeriod then c.numInstructions
    else c.lastInterruptCheck
  lastPump := if c.Pumps then c.numInstructions else c.lastPump

/-- How often something has been done in the hook, before some blocks. -/
def occasions (interruptPeriod : ℕ) (due : HookClock → Prop) [DecidablePred due] (c : HookClock) :
    List Block → ℕ
  | [] => 0
  | b :: bs =>
    (if due c then 1 else 0) + occasions interruptPeriod due (c.enter interruptPeriod b) bs

variable {interruptPeriod longest : ℕ} {c : HookClock}

/-- The interrupt part of the hook keeps the same clock. -/
lemma blockHook_clock {U : Type} [UnicornEngine U] {s s' : Core U} {vectorTableAddr : U32}
    {lastInterruptCheck' : ℕ} {b : Block} (hcount : s.numInstructions = c.numInstructions)
    (h : blockHook s c.lastInterruptCheck interruptPeriod b.size vectorTableAddr =
      some (s', lastInterruptCheck')) :
    s'.numInstructions = (c.enter interruptPeriod b).numInstructions ∧
      lastInterruptCheck' = (c.enter interruptPeriod b).lastInterruptCheck := by
  refine ⟨(blockHook_numInstructions h).trans (by rw [hcount]; rfl), ?_⟩
  unfold blockHook at h
  rw [hcount] at h
  dsimp only at h
  by_cases hdue : interruptPeriod ≤ c.numInstructions - c.lastInterruptCheck
  · rw [if_pos hdue] at h
    obtain ⟨⟨nvic, uc, dispatched⟩, -, h⟩ := Option.bind_eq_some_iff.mp h
    cases h
    exact (if_pos (show c.Attempts interruptPeriod from hdue)).symm
  · rw [if_neg hdue] at h
    cases h
    exact (if_neg (show ¬ c.Attempts interruptPeriod from hdue)).symm

/-- The attempts are the openings of a gate. -/
lemma gate_attempts (c : HookClock) (openings : ℕ) (bs : List Block) :
    (bs.map Block.halfwords).foldl (PeriodicGate.step interruptPeriod)
        ⟨c.numInstructions, c.lastInterruptCheck, openings⟩
      = ⟨(bs.foldl (enter interruptPeriod) c).numInstructions,
          (bs.foldl (enter interruptPeriod) c).lastInterruptCheck,
          openings + occasions interruptPeriod (Attempts interruptPeriod) c bs⟩ := by
  induction bs generalizing c openings with
  | nil => rfl
  | cons b bs ih =>
    rw [List.map_cons, List.foldl_cons, List.foldl_cons, occasions, ← Nat.add_assoc, ← ih]
    congr 1
    unfold PeriodicGate.step enter
    by_cases hdue : c.Attempts interruptPeriod
    · rw [if_pos hdue, if_pos hdue]
      exact if_pos hdue
    · rw [if_neg hdue, if_neg hdue]
      exact if_neg hdue

/-- And so are the polls. -/
lemma gate_pumps (c : HookClock) (openings : ℕ) (bs : List Block) :
    (bs.map Block.halfwords).foldl (PeriodicGate.step (pumpEventInstInterval + 1))
        ⟨c.numInstructions, c.lastPump, openings⟩
      = ⟨(bs.foldl (enter interruptPeriod) c).numInstructions,
        (bs.foldl (enter interruptPeriod) c).lastPump,
          openings + occasions interruptPeriod Pumps c bs⟩ := by
  induction bs generalizing c openings with
  | nil => rfl
  | cons b bs ih =>
    rw [List.map_cons, List.foldl_cons, List.foldl_cons, occasions, ← Nat.add_assoc, ← ih]
    congr 1
    unfold PeriodicGate.step enter
    by_cases hdue : c.Pumps
    · rw [if_pos hdue, if_pos hdue]
      exact if_pos hdue
    · rw [if_neg hdue, if_neg hdue]
      exact if_neg hdue

/-- **The cadence of the hook.**  However long the blocks are, up to `longest` half words, the
attempts to dispatch are no more than the counter has periods, and no fewer than it has periods
lengthened by a block; and so are the polls. -/
theorem hook_cadence (hperiod : 0 < interruptPeriod) (bs : List Block)
    (hlong : ∀ b ∈ bs, b.halfwords ≤ longest) :
    (interruptPeriod * occasions interruptPeriod (Attempts interruptPeriod) new bs
        ≤ (bs.foldl (enter interruptPeriod) new).numInstructions ∧
      (bs.foldl (enter interruptPeriod) new).numInstructions
        < (interruptPeriod + longest) *
          (occasions interruptPeriod (Attempts interruptPeriod) new bs + 1)) ∧
    1024 * occasions interruptPeriod Pumps new bs ≤
      (bs.foldl (enter interruptPeriod) new).numInstructions ∧
      (bs.foldl (enter interruptPeriod) new).numInstructions
        < (1024 + longest) * (occasions interruptPeriod Pumps new bs + 1) := by
  have hjumps : ∀ jump ∈ bs.map Block.halfwords, jump ≤ longest := by
    intro jump hjump
    obtain ⟨b, hb, rfl⟩ := List.mem_map.mp hjump
    exact hlong b hb
  have hattempts :=
    (PeriodicGate.onTime_foldl hperiod hjumps (PeriodicGate.OnTime.new hperiod)).bounds
  have hpumps := (PeriodicGate.onTime_foldl (Nat.succ_pos pumpEventInstInterval) hjumps
    (PeriodicGate.OnTime.new (Nat.succ_pos _))).bounds
  have hclock := @gate_attempts interruptPeriod new 0 bs
  have hpump := @gate_pumps interruptPeriod new 0 bs
  rw [Nat.zero_add] at hclock hpump
  rw [PeriodicGate.new] at hattempts hpumps
  rw [show (⟨0, 0, 0⟩ : PeriodicGate) =
    ⟨new.numInstructions, new.lastInterruptCheck, 0⟩ from rfl, hclock] at hattempts
  rw [show (⟨0, 0, 0⟩ : PeriodicGate) = ⟨new.numInstructions, new.lastPump, 0⟩ from rfl,
    hpump] at hpumps
  exact ⟨⟨hattempts.1, lt_of_le_of_lt (Nat.le_add_right _ _) hattempts.2⟩, hpumps.1,
    lt_of_le_of_lt (Nat.le_add_right _ _) hpumps.2⟩

/-- With a period of two every other block of one half word has an attempt. -/
theorem hook_cadence_sample :
    let b : Block := ⟨[.narrow], 1, by decide, by decide⟩
    occasions 2 (Attempts 2) new [b, b, b, b, b] = 2 ∧
      ([b, b, b, b, b].foldl (enter 2) new).numInstructions
        < (2 + 1) * (occasions 2 (Attempts 2) new [b, b, b, b, b] + 1) := by
  intro b
  refine ⟨by decide, (@hook_cadence 2 1 (by decide) [b, b, b, b, b] ?_).1.2⟩
  decide

end HookClock

end Stm32Emulator
