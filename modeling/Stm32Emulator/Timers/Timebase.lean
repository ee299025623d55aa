import Stm32Emulator.Foundation.SampledPeriod
import Stm32Emulator.Peripherals.Timers
import Mathlib.Data.Nat.Count

/-!
# SysTick and TIM5

Both timebases are derived from the number of executed instructions, which grows by whole
translation blocks. TIM5 divides it.  SysTick is checked for at block boundaries, and starts its
next period at the boundary at which it was raised, so that it loses what the block has overshot the
period by.
-/

namespace Stm32Emulator

open SampledPeriod

/-- The clock after `k` blocks. -/
def clock (blocks : ℕ → ℕ) : ℕ → ℕ
  | 0 => 0
  | k + 1 => clock blocks k + blocks k

/-- How many blocks have ended by clock `n`. -/
def blocksBy (blocks : ℕ → ℕ) (n : ℕ) : ℕ := Nat.findGreatest (fun k => clock blocks k ≤ n) n

/-- A run with SysTick enabled at clock 0: the check at each block boundary, and in between nothing
that enables or disables SysTick. -/
structure SystickRun (reload : U32) (blocks : ℕ → ℕ) (nvic : ℕ → Nvic) : Prop where
  start : (nvic 0).lastSystickTrigger = 0
  period : ∀ k, (nvic k).systickPeriod = some reload
  check : ∀ k, ∃ nvic', (nvic k).maybeSetSystickIntrPending (clock blocks (k + 1)) = some nvic' ∧
    (nvic (k + 1)).lastSystickTrigger = nvic'.lastSystickTrigger

/-- How often SysTick has been pended by clock `n`. -/
def systickPends (blocks : ℕ → ℕ) (nvic : ℕ → Nvic) (n : ℕ) : ℕ :=
  Nat.count (fun k => (nvic k).systickDue (clock blocks (k + 1)) = true) (blocksBy blocks n)

/-- The ticks of TIM5 by clock `n`, which its counter shows modulo `2 ^ 32`. -/
def tim5Ticks (n : ℕ) : ℕ := n / Tim5.instructionsPerTick

/-- The block boundaries contain, from some clock on, every clock that is a multiple of the period
later. -/
def MeetsPeriods (reload : U32) (blocks : ℕ → ℕ) : Prop :=
  ∃ m, ∀ j, ∃ k, clock blocks k = m + j * (reload.toNat + 1)

lemma clock_strictMono {blocks : ℕ → ℕ} (hblocks : ∀ k, 0 < blocks k) : StrictMono (clock blocks) :=
  strictMono_nat_of_lt_succ fun k => Nat.lt_add_of_pos_right (hblocks k)

namespace SystickRun

variable {reload : U32} {blocks : ℕ → ℕ} {nvic : ℕ → Nvic}

/-- The last trigger is the last event of a period that is checked at the block boundaries. -/
lemma lastSystickTrigger_eq (h : SystickRun reload blocks nvic) (k : ℕ) :
    (nvic k).lastSystickTrigger = last (clock blocks) (reload.toNat + 1) k := by
  induction k with
  | zero => exact h.start
  | succ k ih =>
    obtain ⟨nvic', hcheck, hlast⟩ := h.check k
    unfold Nvic.maybeSetSystickIntrPending at hcheck
    rw [h.period k] at hcheck
    dsimp only at hcheck
    rw [hlast, last, ← ih]
    split at hcheck
    · cases hcheck
    split at hcheck
    · next hdue =>
      rw [Nvic.setIntrPending_frame hcheck, if_pos (by omega)]
    · next hdue =>
      cases hcheck
      rw [if_neg (by omega)]

lemma systickDue_iff (h : SystickRun reload blocks nvic) (k : ℕ) :
    (nvic k).systickDue (clock blocks (k + 1)) = true ↔
      last (clock blocks) (reload.toNat + 1) k + (reload.toNat + 1) ≤ clock blocks (k + 1) := by
  rw [← h.lastSystickTrigger_eq]
  simp only [Nvic.systickDue, h.period k, decide_eq_true_eq]
  omega

/-- The pends are the events of this period. -/
lemma systickPends_eq (h : SystickRun reload blocks nvic) (n : ℕ) :
    systickPends blocks nvic n = eventsBy (clock blocks) (reload.toNat + 1) n := by
  unfold systickPends eventsBy blocksBy
  generalize Nat.findGreatest (fun k => clock blocks k ≤ n) n = k
  induction k with
  | zero => rfl
  | succ k ih =>
    rw [Nat.count_succ, ih, count, if_congr (h.systickDue_iff k) rfl rfl]
    split <;> rfl

/-- The pends stay in proportion to the clock exactly over a progression of block boundaries. -/
lemma systickPends_bounded_iff (h : SystickRun reload blocks nvic) (hblocks : ∀ k, 0 < blocks k) :
    (∃ b : ℕ, ∀ n : ℕ, |(systickPends blocks nvic n : ℚ) - n / (reload.toNat + 1 : ℕ)| ≤ b) ↔
      MeetsPeriods reload blocks := by
  simp only [h.systickPends_eq]
  exact bounded_iff_progression (clock_strictMono hblocks) rfl (Nat.succ_pos _)

/-- They stay in proportion to the ticks of TIM5 exactly if they do to the clock. -/
lemma systickPends_bounded_ticks_iff (h : SystickRun reload blocks nvic)
    (hblocks : ∀ k, 0 < blocks k) :
    (∃ b : ℕ, ∀ n : ℕ, |((systickPends blocks nvic n * (reload.toNat + 1) : ℕ) : ℤ) -
        (tim5Ticks n * Tim5.instructionsPerTick : ℕ)| ≤ b) ↔
      ∃ b : ℕ, ∀ n : ℕ, |(systickPends blocks nvic n : ℚ) - n / (reload.toNat + 1 : ℕ)| ≤ b := by
  have hmono := clock_strictMono hblocks
  have hperiod : 0 < reload.toNat + 1 := Nat.succ_pos _
  -- a tick is a fixed number of instructions, so that its multiple is near the clock
  have hticks (n : ℕ) : tim5Ticks n * Tim5.instructionsPerTick ≤ n ∧
      n < tim5Ticks n * Tim5.instructionsPerTick + Tim5.instructionsPerTick := by
    unfold tim5Ticks Tim5.instructionsPerTick
    omega
  simp only [h.systickPends_eq, abs_eventsBy_sub_le_iff hmono rfl hperiod]
  constructor
  · rintro ⟨b, hb⟩
    refine ⟨b + Tim5.instructionsPerTick, fun n => ?_⟩
    have hnear := hb n
    have hbound : b + Tim5.instructionsPerTick ≤
        (b + Tim5.instructionsPerTick) * (reload.toNat + 1) :=
      Nat.le_mul_of_pos_right _ hperiod
    rw [Nat.add_mul, Nat.add_mul]
    rw [Nat.add_mul] at hbound
    rw [abs_le] at hnear
    have := hticks n
    omega
  · rintro ⟨b, hb⟩
    refine ⟨b * (reload.toNat + 1) + Tim5.instructionsPerTick, fun n => ?_⟩
    have hnear := hb n
    have hle : eventsBy (clock blocks) (reload.toNat + 1) n * (reload.toNat + 1) ≤ n :=
      eventsBy_mul_le hmono rfl n
    rw [Nat.add_mul] at hnear
    rw [abs_le]
    have := hticks n
    omega

end SystickRun

/-- **The timebases stay in proportion exactly when the block boundaries meet the periods.**  The
number of pends of SysTick stays near the number of its periods, and in a fixed proportion to the
ticks of TIM5, if and only if from some clock on every multiple of the period later a block ends. -/
theorem timebases_in_proportion (reload : U32) (blocks : ℕ → ℕ) (hblocks : ∀ k, 0 < blocks k)
    (nvic : ℕ → Nvic) (hrun : SystickRun reload blocks nvic) :
    ((∃ b : ℕ, ∀ n : ℕ, |(systickPends blocks nvic n : ℚ) - n / (reload.toNat + 1 : ℕ)| ≤ b) ↔
      MeetsPeriods reload blocks) ∧
    ((∃ b : ℕ, ∀ n : ℕ, |((systickPends blocks nvic n * (reload.toNat + 1) : ℕ) : ℤ) -
        (tim5Ticks n * Tim5.instructionsPerTick : ℕ)| ≤ b) ↔ MeetsPeriods reload blocks) :=
  ⟨hrun.systickPends_bounded_iff hblocks,
    (hrun.systickPends_bounded_ticks_iff hblocks).trans (hrun.systickPends_bounded_iff hblocks)⟩

/-- Firmware sets the reload value and enables SysTick with its interrupt; then only the checks
happen. -/
def systickNvic (reload : U32) (blocks : ℕ → ℕ) : ℕ → Nvic
  | 0 =>
    let (stk, nvic) := SysTick.default.write Nvic.default 0x04 reload
    (stk.write nvic 0x00 3).2
  | k + 1 => ((systickNvic reload blocks k).maybeSetSystickIntrPending (clock blocks (k + 1))).getD
      Nvic.default

lemma systickRun_systickNvic (reload : U32) (blocks : ℕ → ℕ) :
    SystickRun reload blocks (systickNvic reload blocks) := by
  have hstate : ∀ k, (systickNvic reload blocks k).systickPeriod = some reload ∧
      (systickNvic reload blocks k).lastSystickTrigger ≤ clock blocks k := by
    intro k
    induction k with
    | zero =>
      refine ⟨?_, le_rfl⟩
      simp [systickNvic, SysTick.write, SysTick.setNvicSystickPeriod, SysTick.hasIntEnabled]
    | succ k ih =>
      obtain ⟨nvic', hcheck, hlast⟩ := Nvic.maybeSetSystickIntrPending_isSome
        (ih.2.trans (Nat.le_add_right _ (blocks k)))
      have hnext : systickNvic reload blocks (k + 1) = nvic' := by
        rw [systickNvic, clock, hcheck, Option.getD_some]
      rw [hnext]
      refine ⟨?_, hlast⟩
      rw [Nvic.maybeSetSystickIntrPending_frame hcheck]
      exact ih.1
  refine ⟨rfl, fun k => (hstate k).1, fun k => ?_⟩
  obtain ⟨nvic', hcheck, -⟩ := Nvic.maybeSetSystickIntrPending_isSome
    ((hstate k).2.trans (Nat.le_add_right _ (blocks k)))
  refine ⟨nvic', hcheck, ?_⟩
  rw [systickNvic, clock, hcheck, Option.getD_some]

/-- With blocks of one instruction the pends of a millisecond tick stay near the milliseconds. -/
theorem timebases_in_proportion_sample :
    ∃ b : ℕ, ∀ n : ℕ, |(systickPends (fun _ => 1) (systickNvic 215999 fun _ => 1) n : ℚ) -
      n / ((215999 : U32).toNat + 1 : ℕ)| ≤ b := by
  refine (timebases_in_proportion 215999 (fun _ => 1) (fun _ => Nat.one_pos) _
    (systickRun_systickNvic _ _)).1.mpr ⟨0, fun j => ⟨j * ((215999 : U32).toNat + 1), ?_⟩⟩
  have hclock : ∀ k, clock (fun _ => 1) k = k := by
    intro k
    induction k with
    | zero => rfl
    | succ k ih => rw [clock, ih]
  rw [hclock, Nat.zero_add]

/-- With blocks of seven instructions they fall behind without bound. -/
theorem seven_instruction_blocks_drift :
    ¬ ∃ b : ℕ, ∀ n : ℕ, |(systickPends (fun _ => 7) (systickNvic 215999 fun _ => 7) n : ℚ) -
      n / ((215999 : U32).toNat + 1 : ℕ)| ≤ b := by
  rw [(systickRun_systickNvic _ _).systickPends_bounded_iff fun _ => by decide]
  rintro ⟨m, hm⟩
  have hclock : ∀ k, clock (fun _ => 7) k = 7 * k := by
    intro k
    induction k with
    | zero => rfl
    | succ k ih => rw [clock, ih, Nat.mul_succ]
  -- two boundaries a period apart: the period would be a multiple of seven
  obtain ⟨k, hk⟩ := hm 0
  obtain ⟨k', hk'⟩ := hm 1
  rw [hclock] at hk hk'
  have hreload : (215999 : U32).toNat = 215999 := rfl
  rw [hreload] at hk hk'
  omega

end Stm32Emulator
