import Stm32Emulator.Cdc.TcpBridge
import Stm32Emulator.EcuIo.Link
import Stm32Emulator.EcuIo.SignalLine
import Stm32Emulator.Peripherals.Adc
import Mathlib.Data.Rat.Floor

/-!
# The ECU I/O device

The device gives names to pins.  Its values are the last levels of all signals, those of the inputs
set by a client or by the host, and those of the outputs reported by the pins.  An output that
changes is a line for the client or an event for the host; an input that changes is an edge on its
pin.

The crank wheel turns in floating point, which is a parameter here (`WheelArithmetic`).
-/

namespace Stm32Emulator.Ecu

/-! ## Configuration -/

inductive EcuIoPinDirection where
  | input
  | output
  deriving DecidableEq, Repr

structure EcuIoPinConfig where
  name : String
  pin : Pin
  direction : EcuIoPinDirection
  deriving DecidableEq, Repr

structure EcuIoAdcChannelConfig where
  name : String
  pin : Pin
  deriving DecidableEq, Repr

structure EcuIoTriggerWheelConfig where
  signal : String
  pinSignal : String
  teeth : U32
  missing : U32
  deriving DecidableEq, Repr

structure EcuIoConfig where
  pins : List EcuIoPinConfig
  adcChannels : List EcuIoAdcChannelConfig
  triggerWheel : Option EcuIoTriggerWheelConfig
  deriving DecidableEq, Repr

/-! ## The crank wheel -/

/-- Positions of a wheel. -/
class WheelArithmetic (P : Type) where
  zero : P
  /-- The position after some instructions at a speed. -/
  turn : P → ℕ → ℤ → P
  levelAt : EcuIoTriggerWheelConfig → P → Bool
  angleMdeg : P → ℤ

/-- The wheel in exact arithmetic, at 216 million instructions a second.  Each slot but the last
ones has a tooth in its first half. -/
instance : WheelArithmetic ℚ where
  zero := 0
  turn position instructions rpm := Int.fract (position + instructions * rpm / 12960000000)
  levelAt config position :=
    let place := Int.fract position * config.teeth.toNat
    decide (⌊place⌋ < (config.teeth - config.missing).toNat) && decide (place - ⌊place⌋ < 1 / 2)
  angleMdeg position := ⌊position * 360000⌋

structure TriggerWheel (P : Type) where
  config : EcuIoTriggerWheelConfig
  position : P
  lastInstructions : ℕ

namespace TriggerWheel

variable {P : Type} [WheelArithmetic P]

def new (config : EcuIoTriggerWheelConfig) : TriggerWheel P := ⟨config, WheelArithmetic.zero, 0⟩

/-- The angle of the wheel, which is not moved. -/
def projectAngleMdeg (wheel : TriggerWheel P) (nowInstructions : ℕ) (rpm : ℤ) : ℤ :=
  WheelArithmetic.angleMdeg
    (WheelArithmetic.turn wheel.position (nowInstructions - wheel.lastInstructions)
      (max 0 (min rpm 30000)))

/-- Moving the wheel, and its new level.  A wheel that stands still has none. -/
def advance (wheel : TriggerWheel P) (nowInstructions : ℕ) (rpm : ℤ) :
    TriggerWheel P × Option Bool :=
  let delta := nowInstructions - wheel.lastInstructions
  let wheel := { wheel with lastInstructions := nowInstructions }
  if rpm ≤ 0 then
    (wheel, none)
  else
    let position := WheelArithmetic.turn wheel.position delta (min rpm 30000)
    ({ wheel with position := position }, some (WheelArithmetic.levelAt wheel.config position))

end TriggerWheel

/-! ## The device -/

/-- Without an embedded link the device listens on a socket. -/
structure EcuIo (P : Type) where
  embedded : Option EmbeddedEcuIoState
  client : Option ℕ
  recvBuffer : List U8
  outgoing : List U8
  values : String → Option ℤ
  adcChannels : List (Pin × String)
  digitalInputPins : List (Pin × String)
  lastDigitalLevels : String → Option Bool
  knownNames : List String
  triggerWheel : Option (TriggerWheel P)

def maxBufferedBytes : ℕ := 65536

/-- The number of a level. -/
def levelValue (level : Bool) : ℤ := if level then 1 else 0

/-- The pins of a direction, with their names. -/
def pinsOf (pins : List EcuIoPinConfig) (direction : EcuIoPinDirection) : List (Pin × String) :=
  (pins.filter fun p => p.direction = direction).map fun p => (p.pin, p.name)

namespace EcuIo

variable {P : Type} [WheelArithmetic P]

/-- A device on the pending link, to which it is attached, or else on a socket. -/
def new (config : EcuIoConfig) (pending : Option EmbeddedEcuIoState) : EcuIo P where
  embedded := pending.map EmbeddedEcuIoState.attachDevice
  client := none
  recvBuffer := []
  outgoing := []
  values := fun _ => none
  adcChannels := config.adcChannels.map fun c => (c.pin, c.name)
  digitalInputPins := pinsOf config.pins .input
  lastDigitalLevels := fun _ => none
  knownNames := config.pins.map (·.name) ++ config.adcChannels.map (·.name) ++
    config.triggerWheel.toList.map (·.signal)
  triggerWheel := config.triggerWheel.map TriggerWheel.new

/-! ### Values -/

/-- A value of a signal that is not known is ignored. -/
def setValue (ecu : EcuIo P) (name : String) (value : ℤ) : EcuIo P :=
  if name ∈ ecu.knownNames then { ecu with values := Function.update ecu.values name (some value) }
  else ecu

def handleLine (ecu : EcuIo P) (text : List Char) : EcuIo P :=
  match parseLine text with
  | some (name, value) => ecu.setValue name value
  | none => ecu

def valueOf (ecu : EcuIo P) (name : String) : ℤ := (ecu.values name).getD 0

def digitalLevel (ecu : EcuIo P) (name : String) : Bool := ecu.valueOf name != 0

/-- The first channel of a pin counts. -/
def adcMillivolts (ecu : EcuIo P) (pin : Pin) : ℤ :=
  max 0
    (min (((ecu.adcChannels.find? fun c => c.1 = pin).map fun c => ecu.valueOf c.2).getD 0) 3300)

/-- The wheel drives the signal of its pin. -/
def advanceTriggerWheel (ecu : EcuIo P) (nowInstructions : ℕ) : EcuIo P :=
  match ecu.triggerWheel with
  | none => ecu
  | some wheel =>
    let (wheel, level) := wheel.advance nowInstructions (ecu.valueOf wheel.config.signal)
    let ecu := { ecu with triggerWheel := some wheel }
    match level with
    | none => ecu
    | some level =>
      { ecu with
        values := Function.update ecu.values wheel.config.pinSignal (some (levelValue level)) }

/-! ### Inputs -/

/-- A signal has been low before the first visit. -/
def lastLevel (ecu : EcuIo P) (name : String) : Bool := (ecu.lastDigitalLevels name).getD false

def noteLevel (ecu : EcuIo P) (name : String) (level : Bool) : EcuIo P :=
  { ecu with lastDigitalLevels := Function.update ecu.lastDigitalLevels name (some level) }

/-- Visiting an input pin, whose edge is raised if the level has changed since the last visit of its
name. -/
def checkPin {S : Type} (raise : S → Pin → Bool → S) (p : EcuIo P × S) (entry : Pin × String) :
    EcuIo P × S :=
  let (ecu, s) := p
  let (pin, name) := entry
  let level := ecu.digitalLevel name
  if level != ecu.lastLevel name then (ecu.noteLevel name level, raise s pin level) else (ecu, s)

def checkDigitalEdges {S : Type} (raise : S → Pin → Bool → S) (ecu : EcuIo P) (s : S) :
    EcuIo P × S :=
  ecu.digitalInputPins.foldl (checkPin raise) (ecu, s)

/-! ### Outputs -/

/-- The level differs from the last one. -/
def changed (ecu : EcuIo P) (name : String) (level : Bool) : Bool :=
  ecu.values name != some (levelValue level)

def wheelAngle (ecu : EcuIo P) (instructionCount : ℕ) : Option ℤ :=
  ecu.triggerWheel.map fun wheel =>
    wheel.projectAngleMdeg instructionCount (ecu.valueOf wheel.config.signal)

/-- A pin tells its level.  A change is published, or sent to the client if there is one. -/
def reportOutput (ecu : EcuIo P) (instructionCount : ℕ) (name : String) (level : Bool) : EcuIo P :=
  let changed := ecu.changed name level
  let ecu := { ecu with values := Function.update ecu.values name (some (levelValue level)) }
  match changed, ecu.embedded with
  | true, some link =>
    { ecu with
      embedded := some (link.publishOutput instructionCount name (levelValue level)
        (ecu.wheelAngle instructionCount)) }
  | true, none =>
    if ecu.client.isSome then
      { ecu with
        outgoing := UsbCdcTcp.pushCapped ecu.outgoing (outputLine name (levelValue level))
          maxBufferedBytes }
    else ecu
  | false, _ => ecu

/-! ### What operations leave alone -/

/-- The wheel changes values only. -/
lemma advanceTriggerWheel_frame (ecu : EcuIo P) (nowInstructions : ℕ) :
    ecu.advanceTriggerWheel nowInstructions =
      { ecu with
        values := (ecu.advanceTriggerWheel nowInstructions).values
        triggerWheel := (ecu.advanceTriggerWheel nowInstructions).triggerWheel } := by
  unfold advanceTriggerWheel
  cases ecu.triggerWheel with
  | none => rfl
  | some wheel =>
    dsimp only
    rcases wheel.advance nowInstructions (ecu.valueOf wheel.config.signal) with ⟨wheel',
      _ | level⟩ <;> rfl

/-- Advancing keeps the configuration of the wheel. -/
lemma config_advance (wheel : TriggerWheel P) (nowInstructions : ℕ) (rpm : ℤ) :
    (wheel.advance nowInstructions rpm).1.config = wheel.config := by
  unfold TriggerWheel.advance
  dsimp only
  split_ifs <;> rfl

lemma config_advanceTriggerWheel (ecu : EcuIo P) (nowInstructions : ℕ) :
    (ecu.advanceTriggerWheel nowInstructions).triggerWheel.map TriggerWheel.config =
      ecu.triggerWheel.map TriggerWheel.config := by
  unfold EcuIo.advanceTriggerWheel
  cases hwheel : ecu.triggerWheel with
  | none =>
    dsimp only
    rw [hwheel]
  | some wheel =>
    have hconfig := config_advance wheel nowInstructions (ecu.valueOf wheel.config.signal)
    dsimp only
    generalize wheel.advance nowInstructions (ecu.valueOf wheel.config.signal) =
      advanced at hconfig ⊢
    obtain ⟨wheel', _ | level⟩ := advanced <;> exact congrArg some hconfig

/-- The wheel changes no signal but the one of its pin. -/
lemma values_advanceTriggerWheel (ecu : EcuIo P) (nowInstructions : ℕ) {name : String}
    (hname : ∀ wheel, ecu.triggerWheel = some wheel → wheel.config.pinSignal ≠ name) :
    (ecu.advanceTriggerWheel nowInstructions).values name = ecu.values name := by
  unfold EcuIo.advanceTriggerWheel
  cases hwheel : ecu.triggerWheel with
  | none => rfl
  | some wheel =>
    have hconfig := config_advance wheel nowInstructions (ecu.valueOf wheel.config.signal)
    dsimp only
    generalize wheel.advance nowInstructions (ecu.valueOf wheel.config.signal) =
      advanced at hconfig ⊢
    obtain ⟨wheel', _ | level⟩ := advanced
    · rfl
    · refine Function.update_of_ne ?_ _ _
      rw [hconfig]
      exact (hname wheel hwheel).symm

/-- Reporting an output changes values and what is queued or published. -/
lemma reportOutput_frame (ecu : EcuIo P) (instructionCount : ℕ) (name : String)
    (level : Bool) :
    ecu.reportOutput instructionCount name level =
      { ecu with
        embedded := (ecu.reportOutput instructionCount name level).embedded
        outgoing := (ecu.reportOutput instructionCount name level).outgoing
        values := Function.update ecu.values name (some (levelValue level)) } := by
  unfold reportOutput
  dsimp only
  split
  · rfl
  · split_ifs <;> rfl
  · rfl

omit [WheelArithmetic P] in
@[simp] lemma digitalLevel_noteLevel (ecu : EcuIo P) (name name' : String) (level : Bool) :
    (ecu.noteLevel name level).digitalLevel name' = ecu.digitalLevel name' := rfl

omit [WheelArithmetic P] in
@[simp] lemma lastLevel_noteLevel (ecu : EcuIo P) (name : String) (level : Bool) :
    (ecu.noteLevel name level).lastLevel = Function.update ecu.lastLevel name level := by
  funext name'
  unfold lastLevel noteLevel
  by_cases hname : name' = name
  · subst hname
    simp
  · simp [hname]

omit [WheelArithmetic P] in
/-- Visiting pins changes the last levels only. -/
lemma checkPin_foldl_frame {S : Type} (raise : S → Pin → Bool → S) (pins : List (Pin × String))
    (ecu : EcuIo P) (s : S) :
    (pins.foldl (checkPin raise) (ecu, s)).1 =
      { ecu with
        lastDigitalLevels := (pins.foldl (checkPin raise) (ecu, s)).1.lastDigitalLevels } := by
  induction pins generalizing ecu s with
  | nil => rfl
  | cons entry pins ih =>
    rw [List.foldl_cons]
    by_cases hlevel : (ecu.digitalLevel entry.2 != ecu.lastLevel entry.2) = true
    · simp only [checkPin, if_pos hlevel]
      rw [ih]
      rfl
    · simp only [checkPin, if_neg hlevel]
      exact ih ecu s

end EcuIo

/-! ## The pins -/

/-- The device and the time, which the callbacks of the pins work on. -/
structure World (P : Type) where
  ecuIo : EcuIo P
  instructionCount : ℕ

namespace World

variable {P : Type} [WheelArithmetic P]

/-- Connecting one pin. -/
def registerPin (gpio : GpioPorts (World P)) (p : EcuIoPinConfig) : GpioPorts (World P) :=
  match p.direction with
  | .input => gpio.addReadCallback p.pin fun w => (w.ecuIo.digitalLevel p.name, w)
  | .output => gpio.addWriteCallback p.pin fun level w =>
    { w with ecuIo := w.ecuIo.reportOutput w.instructionCount p.name level }

end World

end Stm32Emulator.Ecu
