import Stm32Emulator.Peripherals.Serial

/-!
# The external memory controller

Four banks of memory, each of which may belong to an external device.
-/

namespace Stm32Emulator

structure Fsmc (D : Type) where
  banks : Fin 4 → Option (ExtDevice U32 U32 D)

/-- What an offset addresses: the data of a bank, or a register, none of which keeps anything. -/
inductive FsmcAccess where
  | data (bank : Fin 4) (offset : U32)
  | register
  deriving DecidableEq, Repr

namespace Fsmc

variable {D : Type}

/-- No offset past the registers is ever accessed. -/
def access (offset : U32) : Option FsmcAccess :=
  if offset ≤ 0x0fffffff then some (.data 0 offset)
  else if offset ≤ 0x1fffffff then some (.data 1 (offset - 0x10000000))
  else if offset ≤ 0x2fffffff then some (.data 2 (offset - 0x20000000))
  else if offset ≤ 0x3fffffff then some (.data 3 (offset - 0x30000000))
  else if offset ≤ 0x4fffffff then some .register
  else none

def read (fsmc : Fsmc D) (d : D) (offset : U32) : Option (D × U32) :=
  match access offset with
  | some (.data bank offset) =>
    match fsmc.banks bank with
    | some device => some ((device.read offset d).2, (device.read offset d).1)
    | none => some (d, 0)
  | some .register => some (d, 0)
  | none => none

def write (fsmc : Fsmc D) (d : D) (offset value : U32) : Option D :=
  match access offset with
  | some (.data bank offset) =>
    match fsmc.banks bank with
    | some device => some (device.write offset value d)
    | none => some d
  | some .register => some d
  | none => none

end Fsmc

end Stm32Emulator
