import Stm32Emulator.EcuIo.Device
import Stm32Emulator.Foundation.Run
import Mathlib.Algebra.Order.Floor.Semifield
import Mathlib.Tactic.FieldSimp
import Mathlib.Tactic.Positivity

/-!
# The teeth of the wheel

The wheel turns in exact arithmetic.  Its position is only sampled, but as long as no sample skips
half a slot, the level of its pin has exactly the edges that the teeth have, in their order
(`teeth_exact`).

The half slots of all revolutions are numbered through.  The position wraps at a full turn and the
number does not; it says the revolution, the tooth and the half (`halfSlot`).
-/

namespace Stm32Emulator.Ecu

/-! ## Half slots -/

/-- The half slot that a wheel with `teeth` slots has reached after `travel` revolutions. -/
def halfSlot (teeth : ℕ) (travel : ℚ) : ℕ := ⌊2 * teeth * travel⌋₊

section HalfSlots

variable {teeth : ℕ} {travel : ℚ}

lemma floor_slots (teeth : ℕ) (travel : ℚ) : ⌊teeth * travel⌋₊ = halfSlot teeth travel / 2 := by
  have hhalf : (teeth : ℚ) * travel = 2 * teeth * travel / (2 : ℕ) := by
    push_cast
    ring
  unfold halfSlot
  rw [hhalf, Nat.floor_div_natCast]

lemma floor_travel (hteeth : 0 < teeth) (travel : ℚ) :
    ⌊travel⌋₊ = halfSlot teeth travel / 2 / teeth := by
  have hne : (teeth : ℚ) ≠ 0 := by exact_mod_cast hteeth.ne'
  have hturn : travel = teeth * travel / teeth := by field_simp
  rw [← floor_slots, ← Nat.floor_div_natCast, ← hturn]

/-- The place within the revolution, counted in slots. -/
lemma place_eq (teeth : ℕ) (travel : ℚ) :
    Int.fract travel * teeth = teeth * travel - ((⌊travel⌋ * teeth : ℤ) : ℚ) := by
  unfold Int.fract
  push_cast
  ring

lemma floor_slots_of_nonneg (htravel : 0 ≤ travel) :
    ⌊teeth * travel⌋ = ((halfSlot teeth travel / 2 : ℕ) : ℤ) := by
  rw [← floor_slots, Int.natCast_floor_eq_floor (by positivity)]

/-- The slot within the revolution. -/
lemma floor_place (hteeth : 0 < teeth) (htravel : 0 ≤ travel) :
    ⌊Int.fract travel * teeth⌋ = ((halfSlot teeth travel / 2 % teeth : ℕ) : ℤ) := by
  have hturns : ⌊travel⌋ = ((halfSlot teeth travel / 2 / teeth : ℕ) : ℤ) := by
    rw [← floor_travel hteeth, Int.natCast_floor_eq_floor htravel]
  rw [place_eq, Int.floor_sub_intCast, floor_slots_of_nonneg htravel, hturns, Nat.mod_def,
    Nat.cast_sub (Nat.mul_div_le _ _)]
  push_cast
  ring

/-- The first half of a slot has an even number. -/
lemma first_half (htravel : 0 ≤ travel) :
    Int.fract travel * teeth - ⌊Int.fract travel * teeth⌋ < 1 / 2 ↔
      halfSlot teeth travel % 2 = 0 := by
  have hsame : Int.fract travel * teeth - ⌊Int.fract travel * teeth⌋ =
      teeth * travel - ((halfSlot teeth travel / 2 : ℕ) : ℚ) := by
    rw [place_eq, Int.floor_sub_intCast, floor_slots_of_nonneg htravel]
    generalize halfSlot teeth travel / 2 = slot
    push_cast
    ring
  have hnumber : 2 * teeth * travel < ((2 * (halfSlot teeth travel / 2) + 1 : ℕ) : ℚ) ↔
      halfSlot teeth travel < 2 * (halfSlot teeth travel / 2) + 1 :=
    (Nat.floor_lt (by positivity)).symm
  rw [hsame]
  generalize hslot : halfSlot teeth travel / 2 = slot at hnumber ⊢
  push_cast at hnumber
  constructor
  · intro h
    have := hnumber.mp (by linarith)
    omega
  · intro h
    have := hnumber.mpr (by omega)
    linarith

/-- A step of less than half a slot reaches the same half slot or the next one. -/
lemma halfSlot_add {increment : ℚ} (hnonneg : 0 ≤ increment) (hsmall : increment * (2 * teeth) < 1)
    (htravel : 0 ≤ travel) :
    halfSlot teeth (travel + increment) = halfSlot teeth travel ∨
      halfSlot teeth (travel + increment) = halfSlot teeth travel + 1 := by
  have hle : halfSlot teeth travel ≤ halfSlot teeth (travel + increment) := by
    refine Nat.floor_mono ?_
    have : 0 ≤ 2 * (teeth : ℚ) * increment := by positivity
    linarith
  have hlt : halfSlot teeth (travel + increment) < halfSlot teeth travel + 2 := by
    refine (Nat.floor_lt (by positivity)).mpr ?_
    have := Nat.lt_floor_add_one (2 * teeth * travel)
    unfold halfSlot
    push_cast
    linarith
  omega

end HalfSlots

/-! ## Levels and edges -/

namespace EcuIoTriggerWheelConfig

variable (wheel : EcuIoTriggerWheelConfig)

/-- The number of teeth that are not missing. -/
def present : ℕ := wheel.teeth.toNat - wheel.missing.toNat

/-- The level in a half slot. -/
def toothLevel (n : ℕ) : Bool :=
  decide (n / 2 % wheel.teeth.toNat < wheel.present) && decide (n % 2 = 0)

end EcuIoTriggerWheelConfig

/-- An edge at the pin of the wheel. -/
structure WheelEdge where
  revolution : ℕ
  tooth : ℕ
  rising : Bool
  deriving DecidableEq, Repr

/-- The edge with which a half slot begins: it rises into the first half of a tooth and falls into
the second. -/
def EcuIoTriggerWheelConfig.edgeAt (wheel : EcuIoTriggerWheelConfig) (n : ℕ) : Option WheelEdge :=
  if n / 2 % wheel.teeth.toNat < wheel.present then
    some ⟨n / 2 / wheel.teeth.toNat, n / 2 % wheel.teeth.toNat, decide (n % 2 = 0)⟩
  else none

/-- The two edges of a tooth. -/
def edgesOfTooth (revolution tooth : ℕ) : List WheelEdge :=
  [⟨revolution, tooth, true⟩, ⟨revolution, tooth, false⟩]

namespace EcuIoTriggerWheelConfig

variable {wheel : EcuIoTriggerWheelConfig}

lemma present_le : wheel.present ≤ wheel.teeth.toNat := Nat.sub_le _ _

lemma present_eq (hmissing : wheel.missing < wheel.teeth) :
    (wheel.teeth - wheel.missing).toNat = wheel.present :=
  BitVec.toNat_sub_of_le (BitVec.le_of_lt hmissing)

lemma teeth_pos (hmissing : wheel.missing < wheel.teeth) : 0 < wheel.teeth.toNat :=
  (Nat.zero_le _).trans_lt (BitVec.lt_def.mp hmissing)

lemma present_pos (hmissing : wheel.missing < wheel.teeth) : 0 < wheel.present :=
  Nat.sub_pos_of_lt (BitVec.lt_def.mp hmissing)

/-- The level at a position is that of its half slot. -/
lemma levelAt_fract (hmissing : wheel.missing < wheel.teeth) {travel : ℚ} (htravel : 0 ≤ travel) :
    WheelArithmetic.levelAt wheel (Int.fract travel) =
      wheel.toothLevel (halfSlot wheel.teeth.toNat travel) := by
  have hslot := floor_place (teeth_pos hmissing) htravel
  have hhalf := @first_half wheel.teeth.toNat travel htravel
  unfold WheelArithmetic.levelAt instWheelArithmeticRat toothLevel
  dsimp only
  rw [Int.fract_fract, decide_eq_decide.mpr hhalf, hslot, present_eq hmissing]
  congr 1
  exact decide_eq_decide.mpr Nat.cast_lt

/-- The level changes exactly at the edges. -/
lemma toothLevel_succ (n : ℕ) :
    (if wheel.toothLevel (n + 1) = wheel.toothLevel n then []
      else [⟨(n + 1) / 2 / wheel.teeth.toNat, (n + 1) / 2 % wheel.teeth.toNat,
        wheel.toothLevel (n + 1)⟩]) =
      [n + 1].filterMap wheel.edgeAt := by
  rw [List.filterMap_cons, List.filterMap_nil]
  unfold edgeAt toothLevel
  rcases Nat.mod_two_eq_zero_or_one n with heven | hodd
  · have hslot : (n + 1) / 2 = n / 2 := by omega
    have hnext : (n + 1) % 2 = 1 := by omega
    rw [hslot, heven, hnext]
    by_cases hpresent : n / 2 % wheel.teeth.toNat < wheel.present <;> simp [hpresent]
  · have hnext : (n + 1) % 2 = 0 := by omega
    rw [hodd, hnext]
    by_cases hpresent : (n + 1) / 2 % wheel.teeth.toNat < wheel.present <;> simp [hpresent]

/-! ### The edges of a revolution -/

lemma edgeAt_revolution {n : ℕ} {e : WheelEdge} (h : wheel.edgeAt n = some e) :
    e.revolution = n / (2 * wheel.teeth.toNat) := by
  unfold edgeAt at h
  split_ifs at h
  rw [← Option.some.inj h, Nat.div_div_eq_div_mul]

/-- The two halves of a slot of a revolution. -/
lemma half_of_revolution (teeth revolution slot : ℕ) {half : ℕ} (h : half < 2) :
    (2 * teeth * revolution + (2 * slot + half)) / 2 = slot + teeth * revolution ∧
      (2 * teeth * revolution + (2 * slot + half)) % 2 = half := by
  rw [Nat.mul_assoc]
  omega

/-- The edges of the first slots of a revolution are those of their teeth. -/
lemma edges_of_slots (revolution : ℕ) {slots : ℕ} (hle : slots ≤ wheel.teeth.toNat) :
    (List.range (2 * slots)).filterMap
      (fun i => wheel.edgeAt (2 * wheel.teeth.toNat * revolution + i)) =
      (List.range (min slots wheel.present)).flatMap (edgesOfTooth revolution) := by
  induction slots with
  | zero => rfl
  | succ slot ih =>
    have hlt : slot < wheel.teeth.toNat := hle
    obtain ⟨hfirst, heven⟩ := half_of_revolution wheel.teeth.toNat revolution slot Nat.two_pos
    obtain ⟨hsecond, hodd⟩ := half_of_revolution wheel.teeth.toNat revolution slot Nat.one_lt_two
    rw [Nat.add_zero] at hfirst heven
    have htooth : (slot + wheel.teeth.toNat * revolution) % wheel.teeth.toNat = slot := by
      rw [Nat.add_mul_mod_self_left, Nat.mod_eq_of_lt hlt]
    have hturn : (slot + wheel.teeth.toNat * revolution) / wheel.teeth.toNat = revolution := by
      rw [Nat.add_mul_div_left _ _ (by omega), Nat.div_eq_of_lt hlt, Nat.zero_add]
    rw [show 2 * (slot + 1) = 2 * slot + 1 + 1 by omega, List.range_succ, List.range_succ,
      List.append_assoc, List.filterMap_append, ih hlt.le]
    simp only [List.singleton_append, List.filterMap_cons, List.filterMap_nil, edgeAt,
      hfirst, hsecond, heven, hodd, htooth, hturn]
    by_cases hpresent : slot < wheel.present
    · rw [min_eq_left hpresent.le, min_eq_left hpresent, List.range_succ, List.flatMap_append]
      simp [hpresent, edgesOfTooth]
    · rw [min_eq_right (by omega), min_eq_right (by omega)]
      simp [hpresent]

/-- **A revolution** that is complete has the two edges of each tooth, in their order. -/
lemma edges_of_revolution {n revolution : ℕ} (hmissing : wheel.missing < wheel.teeth)
    (hle : 2 * wheel.teeth.toNat * (revolution + 1) ≤ n) :
    ((List.range n).filterMap wheel.edgeAt).filter (·.revolution = revolution) =
      (List.range wheel.present).flatMap (edgesOfTooth revolution) := by
  have hpos := teeth_pos hmissing
  have hedge : ∀ {i : ℕ} {e : WheelEdge}, wheel.edgeAt i = some e →
      e.revolution = i / (2 * wheel.teeth.toNat) := edgeAt_revolution
  obtain ⟨rest, rfl⟩ := Nat.exists_eq_add_of_le hle
  rw [Nat.mul_add_one, List.range_add, List.range_add, List.filterMap_append, List.filterMap_append,
    List.filter_append, List.filter_append]
  have hbefore : ((List.range (2 * wheel.teeth.toNat * revolution)).filterMap wheel.edgeAt).filter
      (·.revolution = revolution) = [] := by
    refine List.filter_eq_nil_iff.mpr fun e he => ?_
    obtain ⟨i, hi, hi'⟩ := List.mem_filterMap.mp he
    have hlt := Nat.div_lt_of_lt_mul (List.mem_range.mp hi)
    rw [decide_eq_true_eq, hedge hi']
    omega
  have hafter : (((List.range rest).map
      (2 * wheel.teeth.toNat * revolution + 2 * wheel.teeth.toNat + ·)).filterMap
      wheel.edgeAt).filter (·.revolution = revolution) = [] := by
    refine List.filter_eq_nil_iff.mpr fun e he => ?_
    obtain ⟨i, hi, hi'⟩ := List.mem_filterMap.mp he
    obtain ⟨j, -, rfl⟩ := List.mem_map.mp hi
    have hle : revolution + 1 ≤ (2 * wheel.teeth.toNat * revolution + 2 * wheel.teeth.toNat + j) /
        (2 * wheel.teeth.toNat) := by
      refine (Nat.le_div_iff_mul_le (by omega)).mpr ?_
      rw [Nat.add_one_mul, Nat.mul_comm revolution]
      omega
    rw [decide_eq_true_eq, hedge hi']
    omega
  have hthis : ((List.range (2 * wheel.teeth.toNat)).map
      (2 * wheel.teeth.toNat * revolution + ·)).filterMap wheel.edgeAt =
      (List.range wheel.present).flatMap (edgesOfTooth revolution) := by
    have hslots := @edges_of_slots wheel revolution _ (le_refl wheel.teeth.toNat)
    rw [min_eq_right present_le] at hslots
    rw [List.filterMap_map, ← hslots]
    rfl
  rw [hbefore, hafter, hthis, List.nil_append, List.append_nil]
  refine List.filter_eq_self.mpr fun e he => ?_
  obtain ⟨tooth, -, he⟩ := List.mem_flatMap.mp he
  simp only [edgesOfTooth, List.mem_cons, List.not_mem_nil, or_false] at he
  rcases he with rfl | rfl <;> simp

end EcuIoTriggerWheelConfig

/-! ## The wheel turns -/

/-- What happens to the device: its wheel is advanced, or something else changes it. -/
inductive WheelOp where
  | advance (nowInstructions : ℕ)
  | elsewhere (ecu : EcuIo ℚ)

/-- By how much of a revolution the wheel is about to be advanced. -/
def EcuIo.increment (ecu : EcuIo ℚ) (nowInstructions : ℕ) : ℚ :=
  match ecu.triggerWheel with
  | none => 0
  | some wheel =>
    if ecu.valueOf wheel.config.signal ≤ 0 then 0
    else
      (nowInstructions - wheel.lastInstructions : ℕ) *
        (min (ecu.valueOf wheel.config.signal) 30000 : ℤ) / 12960000000

/-- How far the wheel has turned in all, and the edges that were seen at its pin. -/
structure WheelLog where
  travel : ℚ
  edges : List WheelEdge

namespace WheelLog

def empty : WheelLog := ⟨0, []⟩

/-- An advance adds its increment, and an edge if it changes the level of the pin. -/
def next (log : WheelLog) (wheel : EcuIoTriggerWheelConfig) (ecu : EcuIo ℚ) (nowInstructions : ℕ) :
    WheelLog :=
  let level := (ecu.advanceTriggerWheel nowInstructions).digitalLevel wheel.pinSignal
  let travel := log.travel + ecu.increment nowInstructions
  { travel := travel
    edges := log.edges ++
      if level = ecu.digitalLevel wheel.pinSignal then []
      else [⟨⌊travel⌋₊, ⌊Int.fract travel * wheel.teeth.toNat⌋.toNat, level⟩] }

end WheelLog

/-- Advances of less than half a slot, and other changes, which leave the wheel and its pin
alone. -/
def wheelRel (wheel : EcuIoTriggerWheelConfig) (p : EcuIo ℚ × WheelLog) :
    WheelOp → EcuIo ℚ × WheelLog → Prop
  | .advance nowInstructions, p' =>
    p.1.increment nowInstructions * (2 * wheel.teeth.toNat) < 1 ∧
    p' = (p.1.advanceTriggerWheel nowInstructions, p.2.next wheel p.1 nowInstructions)
  | .elsewhere ecu, p' =>
    ecu.triggerWheel = p.1.triggerWheel ∧ ecu.values wheel.pinSignal = p.1.values wheel.pinSignal ∧
    p' = (ecu, p.2)

/-- The edges that were seen are those that the teeth have. -/
structure ExactTeeth (wheel : EcuIoTriggerWheelConfig) (ecu : EcuIo ℚ) (log : WheelLog) : Prop where
  /-- Before the wheel moves nothing is seen. -/
  unmoved : ecu.values wheel.pinSignal = none → log.travel = 0 ∧ log.edges = []
  /-- The edges are those of all half slots that the wheel has reached, each once and in order. -/
  edges : ecu.values wheel.pinSignal ≠ none →
    log.edges = (List.range (halfSlot wheel.teeth.toNat log.travel + 1)).filterMap wheel.edgeAt
  /-- In a revolution that is complete each tooth has risen and fallen once, in order. -/
  revolutions : ∀ revolution : ℕ, (revolution + 1 : ℚ) ≤ log.travel →
    log.edges.filter (·.revolution = revolution) =
      (List.range wheel.present).flatMap (edgesOfTooth revolution)
  /-- Where teeth are missing the pin is low. -/
  gap : (wheel.present : ℤ) ≤ ⌊Int.fract log.travel * wheel.teeth.toNat⌋ →
    ecu.digitalLevel wheel.pinSignal = false
  /-- A wheel that stands still holds its level. -/
  held : ∀ nowInstructions, ecu.valueOf wheel.signal ≤ 0 →
    (ecu.advanceTriggerWheel nowInstructions).values = ecu.values

/-- The position and the level of the wheel are those of its whole travel, and the edges of all half
slots that it has reached have been seen. -/
structure TurnsTo (wheel : EcuIoTriggerWheelConfig) (ecu : EcuIo ℚ) (log : WheelLog) : Prop where
  wheel_eq : ∃ lastInstructions, ecu.triggerWheel =
    some ⟨wheel, Int.fract log.travel, lastInstructions⟩
  travel_nonneg : 0 ≤ log.travel
  seen : (ecu.values wheel.pinSignal = none ∧ log.travel = 0 ∧ log.edges = []) ∨
    ecu.values wheel.pinSignal =
        some (levelValue (wheel.toothLevel (halfSlot wheel.teeth.toNat log.travel))) ∧
      log.edges = (List.range (halfSlot wheel.teeth.toNat log.travel + 1)).filterMap wheel.edgeAt

lemma digitalLevel_of_values {ecu : EcuIo ℚ} {name : String} {level : Bool}
    (h : ecu.values name = some (levelValue level)) : ecu.digitalLevel name = level := by
  unfold EcuIo.digitalLevel EcuIo.valueOf
  rw [h, Option.getD_some]
  cases level <;> decide

lemma digitalLevel_of_none {ecu : EcuIo ℚ} {name : String} (h : ecu.values name = none) :
    ecu.digitalLevel name = false := by
  unfold EcuIo.digitalLevel EcuIo.valueOf
  rw [h]
  rfl

namespace TurnsTo

variable {wheel : EcuIoTriggerWheelConfig} {ecu : EcuIo ℚ} {log : WheelLog}

lemma elsewhere (h : TurnsTo wheel ecu log) {ecu' : EcuIo ℚ}
    (hwheel : ecu'.triggerWheel = ecu.triggerWheel)
    (hpin : ecu'.values wheel.pinSignal = ecu.values wheel.pinSignal) : TurnsTo wheel ecu' log := by
  refine ⟨?_, h.travel_nonneg, ?_⟩
  · rw [hwheel]
    exact h.wheel_eq
  · rw [hpin]
    exact h.seen

/-- A wheel that stands still. -/
lemma advance_stopped (h : TurnsTo wheel ecu log) (hstopped : ecu.valueOf wheel.signal ≤ 0)
    (nowInstructions : ℕ) :
    ecu.advanceTriggerWheel nowInstructions =
      { ecu with triggerWheel := some ⟨wheel, Int.fract log.travel, nowInstructions⟩ } ∧
    ecu.increment nowInstructions = 0 := by
  obtain ⟨lastInstructions, hwheel⟩ := h.wheel_eq
  unfold EcuIo.advanceTriggerWheel EcuIo.increment TriggerWheel.advance
  rw [hwheel]
  dsimp only
  rw [if_pos hstopped, if_pos hstopped]
  exact ⟨rfl, rfl⟩

/-- A wheel that turns drives its pin with the level at its new travel. -/
lemma advance_turning (h : TurnsTo wheel ecu log) (hmissing : wheel.missing < wheel.teeth)
    (hturning : ¬ ecu.valueOf wheel.signal ≤ 0) (nowInstructions : ℕ) :
    0 ≤ ecu.increment nowInstructions ∧
    ecu.advanceTriggerWheel nowInstructions =
      { ecu with
        triggerWheel :=
          some ⟨wheel, Int.fract (log.travel + ecu.increment nowInstructions), nowInstructions⟩
        values := Function.update ecu.values wheel.pinSignal
          (some (levelValue (wheel.toothLevel
            (halfSlot wheel.teeth.toNat (log.travel + ecu.increment nowInstructions))))) } := by
  obtain ⟨lastInstructions, hwheel⟩ := h.wheel_eq
  have hincrement : ecu.increment nowInstructions =
      (nowInstructions - lastInstructions : ℕ) * (min (ecu.valueOf wheel.signal) 30000 : ℤ) /
        12960000000 := by
    unfold EcuIo.increment
    rw [hwheel]
    exact if_neg hturning
  have hspeed : 0 ≤ min (ecu.valueOf wheel.signal) 30000 :=
    le_min (not_le.mp hturning).le (by decide)
  have hnonneg : 0 ≤ ecu.increment nowInstructions := by
    rw [hincrement]
    have : (0 : ℚ) ≤ (min (ecu.valueOf wheel.signal) 30000 : ℤ) := by exact_mod_cast hspeed
    positivity
  have hposition : WheelArithmetic.turn (Int.fract log.travel) (nowInstructions - lastInstructions)
      (min (ecu.valueOf wheel.signal) 30000) =
        Int.fract (log.travel + ecu.increment nowInstructions) := by
    unfold WheelArithmetic.turn instWheelArithmeticRat
    dsimp only
    rw [← hincrement]
    refine Int.fract_eq_fract.mpr ⟨-⌊log.travel⌋, ?_⟩
    unfold Int.fract
    push_cast
    ring
  refine ⟨hnonneg, ?_⟩
  unfold EcuIo.advanceTriggerWheel TriggerWheel.advance
  rw [hwheel]
  dsimp only
  rw [if_neg hturning, hposition,
    EcuIoTriggerWheelConfig.levelAt_fract hmissing (add_nonneg h.travel_nonneg hnonneg)]

/-- The first sample of a wheel that turns is in the first tooth. -/
lemma halfSlot_first (hmissing : wheel.missing < wheel.teeth) {travel : ℚ}
    (hsmall : travel * (2 * wheel.teeth.toNat) < 1) :
    halfSlot wheel.teeth.toNat travel = 0 ∧ wheel.toothLevel 0 = true := by
  constructor
  · refine Nat.floor_eq_zero.mpr ?_
    linarith
  · simp [EcuIoTriggerWheelConfig.toothLevel, EcuIoTriggerWheelConfig.present_pos hmissing]

/-- An advance keeps the account. -/
lemma advance (h : TurnsTo wheel ecu log) (hmissing : wheel.missing < wheel.teeth)
    {nowInstructions : ℕ} (hsmall : ecu.increment nowInstructions * (2 * wheel.teeth.toNat) < 1) :
    TurnsTo wheel (ecu.advanceTriggerWheel nowInstructions)
    (log.next wheel ecu nowInstructions) := by
  by_cases hstopped : ecu.valueOf wheel.signal ≤ 0
  · obtain ⟨hecu, hincrement⟩ := h.advance_stopped hstopped nowInstructions
    have hlevel : (ecu.advanceTriggerWheel nowInstructions).digitalLevel wheel.pinSignal =
        ecu.digitalLevel wheel.pinSignal := by
      rw [hecu]
      rfl
    have hlog : log.next wheel ecu nowInstructions = log := by
      unfold WheelLog.next
      dsimp only
      rw [if_pos hlevel, hincrement, add_zero, List.append_nil]
    rw [hlog, hecu]
    exact ⟨⟨nowInstructions, rfl⟩, h.travel_nonneg, h.seen⟩
  · obtain ⟨hnonneg, hecu⟩ := h.advance_turning hmissing hstopped nowInstructions
    have htravel := add_nonneg h.travel_nonneg hnonneg
    have hvalue : (ecu.advanceTriggerWheel nowInstructions).values wheel.pinSignal =
        some (levelValue (wheel.toothLevel
          (halfSlot wheel.teeth.toNat (log.travel + ecu.increment nowInstructions)))) := by
      rw [hecu]
      exact Function.update_self ..
    have hedges : (log.next wheel ecu nowInstructions).edges =
        (List.range (halfSlot wheel.teeth.toNat
          (log.travel + ecu.increment nowInstructions) + 1)).filterMap
          wheel.edgeAt := by
      unfold WheelLog.next
      dsimp only
      rw [digitalLevel_of_values hvalue, floor_travel (EcuIoTriggerWheelConfig.teeth_pos hmissing),
        floor_place (EcuIoTriggerWheelConfig.teeth_pos hmissing) htravel, Int.toNat_natCast]
      rcases h.seen with ⟨hnone, hzero, hempty⟩ | ⟨hsome, hseen⟩
      · -- the first sample
        obtain ⟨hfirst, hhigh⟩ := halfSlot_first hmissing hsmall
        rw [hzero, zero_add, hfirst, hhigh, hempty, digitalLevel_of_none hnone]
        simp [EcuIoTriggerWheelConfig.edgeAt, EcuIoTriggerWheelConfig.present_pos hmissing]
      · rw [digitalLevel_of_values hsome, hseen]
        rcases halfSlot_add hnonneg hsmall h.travel_nonneg with hsame | hnext
        · rw [hsame, if_pos rfl, List.append_nil]
        · rw [hnext, EcuIoTriggerWheelConfig.toothLevel_succ, List.range_succ (n := _ + 1),
            List.filterMap_append]
    refine ⟨⟨nowInstructions, ?_⟩, htravel, Or.inr ⟨hvalue, hedges⟩⟩
    rw [hecu]
    rfl

lemma of_run (hmissing : wheel.missing < wheel.teeth) (h : TurnsTo wheel ecu log)
    {ops : List WheelOp} {p : EcuIo ℚ × WheelLog} (hrun : Run (wheelRel wheel) (ecu, log) ops p) :
    TurnsTo wheel p.1 p.2 := by
  refine hrun.invariant_state (I := fun p => TurnsTo wheel p.1 p.2) h fun p p' op hp hstep => ?_
  cases op with
  | advance nowInstructions =>
    obtain ⟨hsmall, rfl⟩ := hstep
    exact hp.advance hmissing hsmall
  | elsewhere ecu' =>
    obtain ⟨hwheel, hpin, rfl⟩ := hstep
    exact hp.elsewhere hwheel hpin

/-- The account says that the edges are exact. -/
lemma exactTeeth (h : TurnsTo wheel ecu log) (hmissing : wheel.missing < wheel.teeth) :
    ExactTeeth wheel ecu log := by
  have hpos := EcuIoTriggerWheelConfig.teeth_pos hmissing
  constructor
  case unmoved =>
    intro hnone
    rcases h.seen with ⟨-, hlog⟩ | ⟨hsome, -⟩
    · exact hlog
    · rw [hnone] at hsome
      cases hsome
  case edges =>
    intro hmoved
    rcases h.seen with ⟨hnone, -⟩ | ⟨-, hedges⟩
    · exact absurd hnone hmoved
    · exact hedges
  case revolutions =>
    intro revolution hcomplete
    rcases h.seen with ⟨-, hzero, -⟩ | ⟨-, hedges⟩
    · rw [hzero] at hcomplete
      have : (0 : ℚ) ≤ revolution := Nat.cast_nonneg revolution
      linarith
    · rw [hedges]
      refine EcuIoTriggerWheelConfig.edges_of_revolution hmissing
        (Nat.le_succ_of_le (Nat.le_floor ?_))
      push_cast
      exact mul_le_mul_of_nonneg_left hcomplete (by positivity)
  case gap =>
    intro hgap
    rcases h.seen with ⟨hnone, -⟩ | ⟨hsome, -⟩
    · exact digitalLevel_of_none hnone
    · rw [floor_place hpos h.travel_nonneg] at hgap
      rw [digitalLevel_of_values hsome, EcuIoTriggerWheelConfig.toothLevel, Bool.and_eq_false_iff]
      left
      rw [decide_eq_false_iff_not]
      omega
  case held =>
    intro nowInstructions hstopped
    rw [(h.advance_stopped hstopped nowInstructions).1]

end TurnsTo

/-- **The wheel loses and invents no tooth.** -/
theorem teeth_exact (config : EcuIoConfig) (pending : Option EmbeddedEcuIoState)
    {wheel : EcuIoTriggerWheelConfig} (hwheel : config.triggerWheel = some wheel)
    (hmissing : wheel.missing < wheel.teeth) {ops : List WheelOp} {ecu : EcuIo ℚ} {log : WheelLog}
    (hrun : Run (wheelRel wheel) (EcuIo.new config pending, .empty) ops (ecu, log)) :
    ExactTeeth wheel ecu log := by
  have hnew : TurnsTo wheel (EcuIo.new config pending) .empty := by
    refine ⟨⟨0, ?_⟩, le_refl _, Or.inl ⟨rfl, rfl, rfl⟩⟩
    unfold EcuIo.new TriggerWheel.new
    dsimp only
    rw [hwheel, Option.map_some, show Int.fract WheelLog.empty.travel = 0 from Int.fract_zero]
    rfl
  exact (hnew.of_run hmissing hrun).exactTeeth hmissing

/-- A wheel of two slots with one tooth. -/
def halfWheel : EcuIoTriggerWheelConfig := ⟨"rpm", "din1", 2, 1⟩

/-- The device with this wheel, at 30000 revolutions a minute. -/
def halfWheelAtSpeed : EcuIo ℚ :=
  { EcuIo.new ⟨[], [], some halfWheel⟩ none with
    values := Function.update (fun _ => none) "rpm" (some 30000) }

/-- At this speed 100000 instructions are less than half a slot. -/
lemma halfWheel_advance {p : EcuIo ℚ × WheelLog} {position : ℚ} {last now : ℕ}
    (hrpm : p.1.valueOf "rpm" = 30000)
    (hwheel : p.1.triggerWheel = some ⟨halfWheel, position, last⟩) (hnow : now ≤ last + 100000) :
    wheelRel halfWheel p (.advance now)
    (p.1.advanceTriggerWheel now, p.2.next halfWheel p.1 now) := by
  have hle : ((now - last : ℕ) : ℚ) ≤ 100000 := by exact_mod_cast (by omega : now - last ≤ 100000)
  refine ⟨?_, rfl⟩
  unfold EcuIo.increment
  rw [hwheel]
  change (if p.1.valueOf "rpm" ≤ 0 then 0
    else ((now - last : ℕ) : ℚ) * (min (p.1.valueOf "rpm") 30000 : ℤ) / 12960000000) *
      (2 * (2 : ℕ)) < 1
  rw [hrpm]
  norm_num
  linarith

/-- Two samples of a wheel that turns, in both halves of its tooth. -/
theorem teeth_exact_halfWheel : ∃ ecu log,
    Run (wheelRel halfWheel) (EcuIo.new ⟨[], [], some halfWheel⟩ none, .empty)
      [.elsewhere halfWheelAtSpeed, .advance 100000, .advance 200000] (ecu, log) ∧
    ExactTeeth halfWheel ecu log := by
  have hset : wheelRel halfWheel (EcuIo.new ⟨[], [], some halfWheel⟩ none, .empty)
      (.elsewhere halfWheelAtSpeed) (halfWheelAtSpeed, .empty) := ⟨rfl, rfl, rfl⟩
  have hfirst := halfWheel_advance (p := (halfWheelAtSpeed, .empty)) rfl rfl
    (by decide : 100000 ≤ 0 + 100000)
  have hrun := ((Run.single hset).snoc hfirst).snoc
    (halfWheel_advance rfl rfl (by decide : 200000 ≤ 100000 + 100000))
  exact ⟨_, _, hrun, teeth_exact _ none rfl (by decide) hrun⟩

end Stm32Emulator.Ecu
