import Stm32Emulator.Bus.DmaRange
import Stm32Emulator.Dma.Transfer

/-!
# What a DMA controller reaches

A controller is polled in its slot, and while it transfers the cell of this slot stays borrowed.  A
transfer borrows the slot at its peripheral address.  The memory it reads and writes may be mapped
to registers, and then the engine calls back for an access, which borrows the slot at its target.
To borrow the slot of the controller once more is a panic of its own kind, which is kept apart from
all others (`Borrowed`).
-/

namespace Stm32Emulator

variable {U D : Type}

/-! ## Transfers of a peripheral -/

namespace Peripheral

/-- The bytes of a transfer, one read of the register for each. -/
def readBytes (p : Peripheral D) (sys : System U D) (offset : U32) :
    ℕ → Option (Peripheral D × System U D × List U8)
  | 0 => some (p, sys, [])
  | remaining + 1 => (p.read sys offset).bind fun (p, sys, value) =>
    (p.readBytes sys offset remaining).map fun (p, sys, v) => (p, sys, value.setWidth 8 :: v)

/-- The converter reads its data register in a way of its own. -/
def readDma (p : Peripheral D) (sys : System U D) (offset : U32) (size : ℕ) :
    Option (Peripheral D × System U D × List U8) :=
  match p with
  | .adc state =>
    some (.adc (state.dmaReadBytes sys.d offset size).1, sys,
      (state.dmaReadBytes sys.d offset size).2)
  | p => p.readBytes sys offset size

/-- One write of the register for each byte of a transfer. -/
def writeDma [UnicornEngine U] (p : Peripheral D) (sys : System U D) (offset : U32)
    (value : List U8) :
    Option (Peripheral D × System U D) :=
  value.foldlM (fun r v => r.1.write r.2 offset (v.setWidth 32)) (p, sys)

end Peripheral

/-! ## Memory that may be mapped to registers -/

/-- A part of a range of guest addresses: memory of the engine, or one access of registers. -/
inductive MemoryPart where
  | ram (addr : U32) (size : ℕ)
  | mmio (addr : U32) (size : ℕ)
  deriving DecidableEq, Repr

namespace MemoryPart

def addr : MemoryPart → U32
  | .ram addr _ => addr
  | .mmio addr _ => addr

def size : MemoryPart → ℕ
  | .ram _ size => size
  | .mmio _ size => size

/-- Parts that follow each other from an address on. -/
def Consecutive : ℕ → List MemoryPart → Prop
  | _, [] => True
  | n, part :: parts => part.addr.toNat = n ∧ Consecutive (n + part.size) parts

end MemoryPart

/-- How the engine divides the ranges that the host reads and writes.  A range that is not mapped is
read and written by nothing. -/
structure MemoryMap where
  parts : U32 → ℕ → Option (List MemoryPart)
  consecutive : ∀ addr size l, parts addr size = some l → MemoryPart.Consecutive addr.toNat l
  total : ∀ addr size l, parts addr size = some l → (l.map MemoryPart.size).sum = size

/-! ## A borrowed slot -/

/-- The peripherals while the cell of one of them is borrowed, or the panic of borrowing it once
more. -/
inductive Borrowed (U D : Type) where
  | held (p : Peripherals U D)
  | doubleBorrow

lemma Borrowed.held_ne (p : Peripherals U D) : Borrowed.held p ≠ .doubleBorrow := by simp

instance (w : Borrowed U D) : Decidable (w = .doubleBorrow) :=
  match w with
  | .held _ => isFalse nofun
  | .doubleBorrow => isTrue rfl

namespace Peripherals

/-- An access does not go across the end of what is looked up. -/
def Fits (addr : U32) (size : ℕ) : Prop :=
  bitbanding addr ≠ none ∨ (reduceAddr addr).2 + size ≤ 4

instance (addr : U32) (size : ℕ) : Decidable (Fits addr size) := inferInstanceAs (Decidable (_ ∨ _))

/-- An address is routed to a slot. -/
def RoutedTo (S : SlotSearch) (p : Peripherals U D) (own : ℕ) (addr : U32) : Prop :=
  (getPeripheral S p.slots addr).map Prod.fst = some own

instance (S : SlotSearch) (p : Peripherals U D) (own : ℕ) (addr : U32) :
    Decidable (RoutedTo S p own addr) :=
  inferInstanceAs (Decidable (_ = _))

section Memory

variable (S : SlotSearch) (own : ℕ)

/-- Memory that is not mapped does not occur in a part; it would read as zero. -/
def ramBytes [UnicornEngine U] (uc : U) (addr : U32) (size : ℕ) : List U8 :=
  (List.range size).map fun i => (memByte uc (addr.toNat + i)).getD 0

/-- The bytes of a number, the lowest first, and the number of some bytes. -/
def leBytes (value : U32) (size : ℕ) : List U8 :=
  (List.range size).map fun i => value.extractLsb' (8 * i) 8
def leValue (bytes : List U8) : U32 := bytes.foldr (fun b v => (v <<< 8) ||| b.setWidth 32) 0

def readPart [UnicornEngine U] (p : Peripherals U D) : MemoryPart → Option (List U8 × Borrowed U D)
  | .ram addr size => some (ramBytes p.sys.uc addr size, .held p)
  | .mmio addr size =>
    if Fits addr size then
      if RoutedTo S p own (target addr) then some ([], .doubleBorrow)
      else (p.read S addr size).map fun (p, value) => (leBytes value size, .held p)
    else none

def writePart [UnicornEngine U] (p : Peripherals U D) (bytes : List U8) :
    MemoryPart → Option (Borrowed U D)
  | .ram addr _ =>
    some (.held
      { p with sys := { p.sys with uc := (memWrite p.sys.uc addr.toNat bytes).getD p.sys.uc } })
  | .mmio addr size =>
    if Fits addr size then
      if RoutedTo S p own (target addr) then some .doubleBorrow
      else (p.write S addr size (leValue bytes)).map .held
    else none

def readParts [UnicornEngine U] : List MemoryPart → Borrowed U D → Option (List U8 × Borrowed U D)
  | [], w => some ([], w)
  | _ :: _, .doubleBorrow => some ([], .doubleBorrow)
  | part :: parts, .held p => (readPart S own p part).bind fun (bytes, w) =>
    (readParts parts w).map fun (rest, w) => (bytes ++ rest, w)

def writeParts [UnicornEngine U] : List MemoryPart → List U8 → Borrowed U D → Option (Borrowed U D)
  | [], _, w => some w
  | _ :: _, _, .doubleBorrow => some .doubleBorrow
  | part :: parts, bytes, .held p => (writePart S own p (bytes.take part.size) part).bind fun w =>
    writeParts parts (bytes.drop part.size) w

end Memory

/-- What a controller in a slot reaches.  After the panic nothing happens any more. -/
def slotBus [UnicornEngine U] (S : SlotSearch) (map : MemoryMap) (own : ℕ) :
    DmaBus (Borrowed U D) where
  readDma addr size
    | .doubleBorrow => some (none, .doubleBorrow)
    | .held p =>
      match getPeripheral S p.slots addr with
      | none => some (none, .held p)
      | some (i, slot) =>
        if i = own then some (none, .doubleBorrow)
        else
          (slot.peripheral.readDma p.sys (addr - slot.start) size).map
            fun (peripheral, sys, bytes) =>
              (some bytes, .held ⟨p.slots.set i { slot with peripheral := peripheral }, sys⟩)
  writeDma addr bytes
    | .doubleBorrow => some .doubleBorrow
    | .held p =>
      match getPeripheral S p.slots addr with
      | none => some (.held p)
      | some (i, slot) =>
        if i = own then some .doubleBorrow
        else (slot.peripheral.writeDma p.sys (addr - slot.start) bytes).map fun (peripheral, sys) =>
          .held ⟨p.slots.set i { slot with peripheral := peripheral }, sys⟩
  memRead addr size w :=
    match map.parts addr size with
    | none => some (none, w)
    | some parts => (readParts S own parts w).map fun (bytes, w) => (some bytes, w)
  memWrite addr bytes w :=
    match map.parts addr bytes.length with
    | none => some w
    | some parts => writeParts S own parts bytes w
  setIntrPending irq
    | .doubleBorrow => some .doubleBorrow
    | .held p =>
      (p.sys.nvic.setIntrPending irq).map fun nvic =>
        .held { p with sys := { p.sys with nvic := nvic } }

/-- The poll of one slot, if a controller is in it. -/
def pollDma [UnicornEngine U] (S : SlotSearch) (map : MemoryMap) (own : ℕ) (p : Peripherals U D) :
    Option (Borrowed U D) :=
  match p.slots[own]? with
  | some ⟨start, end_, .dma dma⟩ =>
    (dma.advanceTo (slotBus S map own) p.sys.numInstructions (.held p)).map fun (dma, w) =>
      match w with
      | .held p => .held { p with slots := p.slots.set own ⟨start, end_, .dma dma⟩ }
      | .doubleBorrow => .doubleBorrow
  | _ => some (.held p)

end Peripherals

end Stm32Emulator
