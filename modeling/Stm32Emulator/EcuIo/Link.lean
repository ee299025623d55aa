import Stm32Emulator.Foundation.QueueLedger
import Stm32Emulator.Foundation.Word
import Mathlib.Logic.Function.Basic

/-!
# The embedded link of the ECU I/O device

`EmbeddedEcuIoState` is what the host and the device share when both run in one process: the inputs
that the host has set and the device has not taken, the level of every output, and the changes of
outputs that the host has not taken, numbered in their order.
-/

namespace Stm32Emulator.Ecu

/-- A change of an output, with the time and the angle of the wheel. -/
structure EmbeddedOutputEvent where
  sequence : BitVec 64
  instructionCount : ℕ
  name : String
  previousValue : Option ℤ
  value : ℤ
  wheelAngleMdeg : Option ℤ
  deriving DecidableEq, Repr

structure EmbeddedEcuIoState where
  devicePresent : Bool
  pendingInputs : List (String × ℤ)
  outputs : String → Option ℤ
  outputEvents : List EmbeddedOutputEvent
  nextOutputSequence : BitVec 64

namespace EmbeddedEcuIoState

def maxPendingInputs : ℕ := 1024
def maxPendingOutputEvents : ℕ := 8192

def default : EmbeddedEcuIoState := ⟨false, [], fun _ => none, [], 0⟩

/-! ## The host -/

def setInput (link : EmbeddedEcuIoState) (name : String) (value : ℤ) : EmbeddedEcuIoState :=
  { link with pendingInputs := pushBounded maxPendingInputs link.pendingInputs (name, value) }

def takeOutputEvents (link : EmbeddedEcuIoState) : EmbeddedEcuIoState × List EmbeddedOutputEvent :=
  ({ link with outputEvents := [] }, link.outputEvents)

/-! ## The device -/

def attachDevice (link : EmbeddedEcuIoState) : EmbeddedEcuIoState :=
  { link with devicePresent := true }

def detachDevice (link : EmbeddedEcuIoState) : EmbeddedEcuIoState :=
  { link with
    devicePresent := false, pendingInputs := [], outputs := fun _ => none, outputEvents := [] }

def takeInputs (link : EmbeddedEcuIoState) : EmbeddedEcuIoState × List (String × ℤ) :=
  ({ link with pendingInputs := [] }, link.pendingInputs)

/-- Telling the level of an output, which is an event if it differs from the last. -/
def publishOutput (link : EmbeddedEcuIoState) (instructionCount : ℕ) (name : String) (value : ℤ)
    (wheelAngleMdeg : Option ℤ) : EmbeddedEcuIoState :=
  let previousValue := link.outputs name
  let link := { link with outputs := Function.update link.outputs name (some value) }
  if previousValue = some value then
    link
  else
    { link with
      outputEvents := pushBounded maxPendingOutputEvents link.outputEvents
        ⟨link.nextOutputSequence, instructionCount, name, previousValue, value, wheelAngleMdeg⟩
      nextOutputSequence := link.nextOutputSequence + 1 }

end EmbeddedEcuIoState

end Stm32Emulator.Ecu
