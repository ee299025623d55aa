import Stm32Emulator.EcuIo.WheelTeeth
import Mathlib.Data.Set.Card

/-!
# The position of the wheel

The angle that is projected for a time is that of the wheel which is advanced to that time, and it
does not matter in how many steps the wheel is advanced (`projection_agrees`).

The level at a position is safe to compute exactly for the configurations that miss no more teeth
than they have (`wheel_safe_iff`): the number of the teeth that are left is an unsigned difference.
-/

namespace Stm32Emulator.Ecu

namespace TriggerWheel

/-! ## Projecting and advancing -/

/-- The position is a fraction of a revolution. -/
def Wrapped (wheel : TriggerWheel ℚ) : Prop := 0 ≤ wheel.position ∧ wheel.position < 1

variable {wheel : TriggerWheel ℚ}

lemma wrapped_new (config : EcuIoTriggerWheelConfig) : (new config : TriggerWheel ℚ).Wrapped :=
  ⟨le_refl _, zero_lt_one⟩

lemma turn_eq (position : ℚ) (instructions : ℕ) (rpm : ℤ) :
    WheelArithmetic.turn position instructions rpm =
      Int.fract (position + instructions * rpm / 12960000000) := rfl

/-- The wheel after an advance. -/
lemma advance_fst (wheel : TriggerWheel ℚ) (nowInstructions : ℕ) (rpm : ℤ) :
    (wheel.advance nowInstructions rpm).1 =
      { wheel with
        position := if rpm ≤ 0 then wheel.position else
          WheelArithmetic.turn wheel.position (nowInstructions - wheel.lastInstructions)
            (min rpm 30000)
        lastInstructions := nowInstructions } := by
  unfold advance
  split_ifs <;> rfl

lemma wrapped_advance (h : wheel.Wrapped) (nowInstructions : ℕ) (rpm : ℤ) :
    (wheel.advance nowInstructions rpm).1.Wrapped := by
  rw [advance_fst]
  unfold Wrapped
  dsimp only
  split_ifs
  · exact h
  · exact ⟨Int.fract_nonneg _, Int.fract_lt_one _⟩

/-- The position that is projected. -/
lemma turn_clamped (h : wheel.Wrapped) (nowInstructions : ℕ) (rpm : ℤ) :
    WheelArithmetic.turn wheel.position (nowInstructions - wheel.lastInstructions)
    (max 0 (min rpm 30000)) =
      (wheel.advance nowInstructions rpm).1.position := by
  rw [advance_fst]
  dsimp only
  split_ifs with hrpm
  · have hstill : max 0 (min rpm 30000) = 0 := by omega
    rw [hstill, turn_eq, Int.cast_zero, mul_zero, zero_div, add_zero]
    exact Int.fract_eq_self.mpr h
  · have hmoves : max 0 (min rpm 30000) = min rpm 30000 := by omega
    rw [hmoves]

/-- Turning twice is turning once. -/
lemma turn_turn (position : ℚ) (first second : ℕ) (rpm : ℤ) :
    WheelArithmetic.turn (WheelArithmetic.turn position first rpm) second rpm =
      WheelArithmetic.turn position (first + second) rpm := by
  rw [turn_eq, turn_eq, turn_eq, Int.fract_eq_fract]
  refine ⟨-⌊position + first * rpm / 12960000000⌋, ?_⟩
  have hsplit := Int.self_sub_floor (position + first * rpm / 12960000000)
  rw [← hsplit]
  push_cast
  ring

/-- A stop on the way changes nothing. -/
lemma advance_advance {mid nowInstructions : ℕ} (hmid : wheel.lastInstructions ≤ mid)
    (hnow : mid ≤ nowInstructions) (rpm : ℤ) :
    ((wheel.advance mid rpm).1.advance nowInstructions rpm).1 =
      (wheel.advance nowInstructions rpm).1 := by
  have hdelta : (mid - wheel.lastInstructions) + (nowInstructions - mid) =
      nowInstructions - wheel.lastInstructions := by omega
  rw [advance_fst, advance_fst, advance_fst]
  dsimp only
  split_ifs
  · rfl
  · rw [turn_turn, hdelta]

/-- Any number of stops change nothing. -/
lemma advance_stops {stops : List ℕ} {nowInstructions : ℕ} (rpm : ℤ)
    (hordered : (wheel.lastInstructions :: (stops ++ [nowInstructions])).IsChain (· ≤ ·)) :
    ((stops ++ [nowInstructions]).foldl (fun wheel stop => (wheel.advance stop rpm).1) wheel) =
      (wheel.advance nowInstructions rpm).1 := by
  induction stops generalizing wheel with
  | nil => rfl
  | cons stop stops ih =>
    obtain ⟨hstop, hrest⟩ := List.isChain_cons_cons.mp hordered
    have hlast : (wheel.advance stop rpm).1.lastInstructions = stop := by
      rw [advance_fst]
    have hnow : stop ≤ nowInstructions := by
      have hpairwise := List.isChain_iff_pairwise.mp hrest
      exact (List.pairwise_cons.mp hpairwise).1 _ (by simp)
    rw [List.cons_append, List.foldl_cons, ih (by rwa [hlast])]
    exact advance_advance hstop hnow rpm

/-- **Projecting agrees with advancing.**  The angle that is projected for a time is that of the
wheel which is advanced to it, in millidegrees, for every speed; and at a constant speed the wheel
may be advanced in any number of steps. -/
theorem projection_agrees (wheel : TriggerWheel ℚ) (hwrapped : wheel.Wrapped) (nowInstructions : ℕ)
    (rpm : ℤ) :
    wheel.projectAngleMdeg nowInstructions rpm =
        ⌊360000 * (wheel.advance nowInstructions rpm).1.position⌋ ∧
      0 ≤ wheel.projectAngleMdeg nowInstructions rpm ∧
      wheel.projectAngleMdeg nowInstructions rpm < 360000 ∧
      ∀ stops : List ℕ, (wheel.lastInstructions :: (stops ++ [nowInstructions])).IsChain (· ≤ ·) →
        ((stops ++ [nowInstructions]).foldl
          (fun wheel stop => (wheel.advance stop rpm).1) wheel).position =
          (wheel.advance nowInstructions rpm).1.position := by
  have hangle : wheel.projectAngleMdeg nowInstructions rpm =
      ⌊360000 * (wheel.advance nowInstructions rpm).1.position⌋ := by
    unfold projectAngleMdeg
    rw [turn_clamped hwrapped, mul_comm]
    rfl
  obtain ⟨hnonneg, hlt⟩ := wrapped_advance hwrapped nowInstructions rpm
  refine ⟨hangle, ?_, ?_, fun stops hordered => ?_⟩
  · rw [hangle]
    exact Int.floor_nonneg.mpr (by positivity)
  · rw [hangle, Int.floor_lt]
    push_cast
    linarith
  · rw [advance_stops rpm hordered]

/-- A wheel a quarter of the way round, at a speed past the limit. -/
theorem projection_agrees_sample :
    (⟨⟨"rpm", "crank", 60, 2⟩, 1 / 4, 0⟩ : TriggerWheel ℚ).projectAngleMdeg 432000 40000 =
        ⌊360000 * ((⟨⟨"rpm", "crank", 60, 2⟩, 1 / 4, 0⟩ : TriggerWheel ℚ).advance 432000
          40000).1.position⌋ :=
  (projection_agrees ⟨⟨"rpm", "crank", 60, 2⟩, 1 / 4, 0⟩ ⟨by norm_num, by norm_num⟩ 432000 40000).1

end TriggerWheel

/-! ## The level at a position -/

namespace EcuIoTriggerWheelConfig

variable {wheel : EcuIoTriggerWheelConfig} {position : ℚ}

/-- The slot of a position. -/
def slotAt (wheel : EcuIoTriggerWheelConfig) (position : ℚ) : ℕ :=
  ⌊Int.fract position * wheel.teeth.toNat⌋₊

/-- The level at a position, unless the unsigned difference that it is compared with underflows. -/
def checkedLevelAt (wheel : EcuIoTriggerWheelConfig) (position : ℚ) : Option Bool :=
  if wheel.missing ≤ wheel.teeth then some (WheelArithmetic.levelAt wheel position) else none

/-- The slots in which the level is high at some position. -/
def highSlots (wheel : EcuIoTriggerWheelConfig) : Set ℕ :=
  {slot | ∃ position : ℚ, 0 ≤ position ∧ position < 1 ∧ wheel.slotAt position = slot ∧
    WheelArithmetic.levelAt wheel position = true}

/-- No position is unsafe, and as many slots are high as there are teeth left. -/
structure SafeLevels (wheel : EcuIoTriggerWheelConfig) : Prop where
  no_underflow : ∀ position : ℚ, 0 ≤ position → position < 1 →
    (wheel.checkedLevelAt position).isSome = true
  slot_lt : ∀ position : ℚ, 0 ≤ position → position < 1 → 0 < wheel.teeth.toNat →
    wheel.slotAt position < wheel.teeth.toNat
  card_high : wheel.highSlots.ncard = wheel.teeth.toNat - wheel.missing.toNat

lemma slotAt_lt (hteeth : 0 < wheel.teeth.toNat) (position : ℚ) :
    wheel.slotAt position < wheel.teeth.toNat := by
  unfold slotAt
  have hteeth' : (0 : ℚ) < wheel.teeth.toNat := by exact_mod_cast hteeth
  rw [Nat.floor_lt (mul_nonneg (Int.fract_nonneg _) hteeth'.le)]
  exact mul_lt_of_lt_one_left hteeth' (Int.fract_lt_one _)

/-- The level in terms of the slot. -/
lemma levelAt_iff (wheel : EcuIoTriggerWheelConfig) (position : ℚ) :
    WheelArithmetic.levelAt wheel position = true ↔
      wheel.slotAt position < (wheel.teeth - wheel.missing).toNat ∧
        Int.fract position * wheel.teeth.toNat - wheel.slotAt position < 1 / 2 := by
  have hplace : 0 ≤ Int.fract position * (wheel.teeth.toNat : ℚ) :=
    mul_nonneg (Int.fract_nonneg _) (Nat.cast_nonneg _)
  have hfloor : ⌊Int.fract position * (wheel.teeth.toNat : ℚ)⌋ = (wheel.slotAt position : ℤ) :=
    (Int.natCast_floor_eq_floor hplace).symm
  unfold WheelArithmetic.levelAt instWheelArithmeticRat
  dsimp only
  rw [hfloor, Bool.and_eq_true, decide_eq_true_eq, decide_eq_true_eq, Int.cast_natCast, Nat.cast_lt]

/-- The start of a slot is a position in its first half. -/
lemma exists_start {slot : ℕ} (hslot : slot < wheel.teeth.toNat) :
    ∃ position : ℚ, 0 ≤ position ∧ position < 1 ∧ wheel.slotAt position = slot ∧
      Int.fract position * wheel.teeth.toNat - wheel.slotAt position < 1 / 2 := by
  have hteeth : (0 : ℚ) < wheel.teeth.toNat := by exact_mod_cast (Nat.zero_le _).trans_lt hslot
  have hnonneg : (0 : ℚ) ≤ slot / wheel.teeth.toNat := by positivity
  have hlt : (slot : ℚ) / wheel.teeth.toNat < 1 := by
    rw [div_lt_one hteeth]
    exact_mod_cast hslot
  have hplace : Int.fract ((slot : ℚ) / wheel.teeth.toNat) * wheel.teeth.toNat = slot := by
    rw [Int.fract_eq_self.mpr ⟨hnonneg, hlt⟩, div_mul_cancel₀ _ hteeth.ne']
  have hat : wheel.slotAt (slot / wheel.teeth.toNat) = slot := by
    unfold slotAt
    rw [hplace, Nat.floor_natCast]
  refine ⟨slot / wheel.teeth.toNat, hnonneg, hlt, hat, ?_⟩
  rw [hplace, hat]
  norm_num

lemma ncard_slots (n : ℕ) : (Set.Iio n).ncard = n := by
  rw [← Finset.coe_range, Set.ncard_coe_finset, Finset.card_range]

/-- The slots that are high, as long as there are no more than teeth. -/
lemma highSlots_eq (hle : (wheel.teeth - wheel.missing).toNat ≤ wheel.teeth.toNat) :
    wheel.highSlots = Set.Iio (wheel.teeth - wheel.missing).toNat := by
  ext slot
  constructor
  · rintro ⟨position, -, -, rfl, hlevel⟩
    exact ((levelAt_iff wheel position).mp hlevel).1
  · intro hslot
    obtain ⟨position, hnonneg, hlt, hat, hhalf⟩ := exists_start (lt_of_lt_of_le hslot hle)
    refine ⟨position, hnonneg, hlt, hat, (levelAt_iff wheel position).mpr ⟨?_, hhalf⟩⟩
    rw [hat]
    exact hslot

/-- **The level is safe** to compute at every position if and only if there are no more missing
teeth than teeth. -/
theorem wheel_safe_iff (wheel : EcuIoTriggerWheelConfig) :
    wheel.SafeLevels ↔ wheel.missing ≤ wheel.teeth := by
  constructor
  · intro h
    by_contra hnot
    have hsome := h.no_underflow 0 (le_refl _) zero_lt_one
    unfold checkedLevelAt at hsome
    rw [if_neg hnot] at hsome
    cases hsome
  · intro hle
    have hleft : (wheel.teeth - wheel.missing).toNat = wheel.teeth.toNat - wheel.missing.toNat :=
      BitVec.toNat_sub_of_le hle
    refine ⟨fun position _ _ => ?_, fun position _ _ hteeth => slotAt_lt hteeth position, ?_⟩
    · unfold checkedLevelAt
      rw [if_pos hle]
      rfl
    · rw [highSlots_eq (by omega), hleft, ncard_slots]

/-- Where the difference wraps, no tooth is missing at all. -/
lemma highSlots_of_lt (hlt : wheel.teeth < wheel.missing) (hteeth : 0 < wheel.teeth.toNat) :
    wheel.highSlots = Set.Iio wheel.teeth.toNat := by
  have hwrap : wheel.teeth.toNat < (wheel.teeth - wheel.missing).toNat := by
    have := BitVec.lt_def.mp hlt
    bv_omega
  ext slot
  constructor
  · rintro ⟨position, -, -, rfl, -⟩
    exact slotAt_lt hteeth position
  · intro hslot
    obtain ⟨position, hnonneg, hlt', hat, hhalf⟩ := exists_start hslot
    refine ⟨position, hnonneg, hlt', hat, (levelAt_iff wheel position).mpr ⟨?_, hhalf⟩⟩
    rw [hat]
    exact lt_trans hslot hwrap

/-- A wheel that misses three of two teeth: the difference underflows, and where it wraps both slots
have their teeth. -/
theorem missing_more_than_teeth :
    (⟨"rpm", "crank", 2, 3⟩ : EcuIoTriggerWheelConfig).checkedLevelAt 0 = none ∧
      (⟨"rpm", "crank", 2, 3⟩ : EcuIoTriggerWheelConfig).highSlots.ncard = 2 ∧
      ¬ (⟨"rpm", "crank", 2, 3⟩ : EcuIoTriggerWheelConfig).SafeLevels := by
  have hnone : (⟨"rpm", "crank", 2, 3⟩ : EcuIoTriggerWheelConfig).checkedLevelAt 0 = none :=
    if_neg (by decide)
  refine ⟨hnone, ?_, fun h => ?_⟩
  · rw [highSlots_of_lt (by decide) (by decide), ncard_slots]
    rfl
  · have hsome := h.no_underflow 0 (le_refl _) zero_lt_one
    rw [hnone] at hsome
    cases hsome

end EcuIoTriggerWheelConfig

end Stm32Emulator.Ecu
