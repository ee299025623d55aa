import Stm32Emulator.Bus.Peripheral
import Stm32Emulator.Foundation.IntervalLookup

/-!
# Guest accesses

A guest access goes to the peripheral whose slot contains the address.  Registers are words: a
shorter read takes its bytes from the word, and a shorter write reads the word, replaces the bytes
and writes the word back.  In the bit-band region every word stands for one bit.
-/

namespace Stm32Emulator

/-- The addresses of a peripheral, both ends included. -/
structure PeripheralSlot (D : Type) where
  start : U32
  end_ : U32
  peripheral : Peripheral D

/-- The peripherals that are registered, and what they share. -/
structure Peripherals (U D : Type) where
  slots : List (PeripheralSlot D)
  sys : System U D

/-- The search for an address among the start addresses. -/
abbrev SlotSearch := BinarySearch ℕ

namespace Peripherals

variable {U D : Type}

/-! ## Addresses -/

/-- The slot of an address, with its place.  The slots are searched by start address. -/
def getPeripheral (S : SlotSearch) (slots : List (PeripheralSlot D)) (addr : U32) :
    Option (ℕ × PeripheralSlot D) :=
  (lookup (fun slot : PeripheralSlot D => slot.start.toNat) (fun slot => slot.end_.toNat) S slots
    addr.toNat).bind fun i => (slots[i]?).map fun slot => (i, slot)

/-- The byte and the bit that a word of the bit-band region stands for. -/
def bitbanding (addr : U32) : Option (U32 × ℕ) :=
  if 0x42000000#32 ≤ addr ∧ addr < 0x44000000#32 then
    some (0x40000000#32 + (addr - 0x42000000#32) / 32#32, ((addr % 32#32) / 4#32).toNat)
  else
    none

/-- All but the banks of external memory are registers. -/
def isRegister (addr : U32) : Bool := !(0x60000000#32 ≤ addr && addr < 0xa0000000#32)

/-- The word around an address, and the place of the address in it. -/
def alignAddr4 (addr : U32) : U32 × ℕ := (addr - addr % 4#32, (addr % 4#32).toNat)

/-- What is passed on to the peripheral: registers by their word, external memory as it is. -/
def reduceAddr (addr : U32) : U32 × ℕ := if isRegister addr then alignAddr4 addr else (addr, 0)

/-! ## Accesses -/

/-- One read of the peripheral at an address; where there is none it reads as zero. -/
def readPeripheral (S : SlotSearch) (p : Peripherals U D) (addr : U32) :
    Option (Peripherals U D × U32) :=
  match getPeripheral S p.slots addr with
  | some (i, slot) =>
    (slot.peripheral.read p.sys (addr - slot.start)).map fun (peripheral, sys, v) =>
      ({ slots := p.slots.set i { slot with peripheral := peripheral }, sys := sys }, v)
  | none => some (p, 0)

/-- A read outside the bit-band region.  An access across the end of a word is a failed
assertion. -/
def readDirect (S : SlotSearch) (p : Peripherals U D) (addr : U32) (size : ℕ) :
    Option (Peripherals U D × U32) :=
  let (addr, byteOffset) := reduceAddr addr
  if byteOffset + size ≤ 4 then
    (p.readPeripheral S addr).map fun (p, v) => (p, v >>> (8 * byteOffset))
  else
    none

def read (S : SlotSearch) (p : Peripherals U D) (addr : U32) (size : ℕ) :
    Option (Peripherals U D × U32) :=
  match bitbanding addr with
  | some (addr, bitNumber) =>
    (p.readDirect S addr 1).map fun (p, v) => (p, (v >>> bitNumber) &&& 1#32)
  | none => p.readDirect S addr size

section Writes

variable [UnicornEngine U]

/-- One write of the peripheral at an address; where there is none it is ignored. -/
def writePeripheral (S : SlotSearch) (p : Peripherals U D) (addr value : U32) :
    Option (Peripherals U D) :=
  match getPeripheral S p.slots addr with
  | some (i, slot) =>
    (slot.peripheral.write p.sys (addr - slot.start) value).map fun (peripheral, sys) =>
      { slots := p.slots.set i { slot with peripheral := peripheral }, sys := sys }
  | none => some p

/-- A write outside the bit-band region. -/
def writeDirect (S : SlotSearch) (p : Peripherals U D) (addr : U32) (size : ℕ) (value : U32) :
    Option (Peripherals U D) :=
  let (addr, byteOffset) := reduceAddr addr
  if byteOffset + size ≤ 4 then
    if isRegister addr ∧ size < 4 then
      (p.read S addr 4).bind fun (p, oldValue) =>
        p.writePeripheral S addr
          (mergeLanes oldValue (value <<< (8 * byteOffset)) (laneMask size byteOffset))
    else
      p.writePeripheral S addr value
  else
    none

/-- The byte that a write to the bit-band region makes of the byte `v`. -/
def bitbandByte (v value : U32) (bitNumber : ℕ) : U32 :=
  (v &&& (1#32 <<< bitNumber)) ||| ((value &&& 1#32) <<< bitNumber)

def write (S : SlotSearch) (p : Peripherals U D) (addr : U32) (size : ℕ) (value : U32) :
    Option (Peripherals U D) :=
  match bitbanding addr with
  | some (addr, bitNumber) =>
    (p.readDirect S addr 1).bind fun (p, v) =>
      p.writeDirect S addr 1 (bitbandByte v value bitNumber)
  | none => p.writeDirect S addr size value

end Writes

/-! ## Slots -/

lemma getPeripheral_eq_some_iff {S : SlotSearch} {slots : List (PeripheralSlot D)} {addr : U32}
    {i : ℕ} {slot : PeripheralSlot D} :
    getPeripheral S slots addr = some (i, slot) ↔
      lookup (fun slot => slot.start.toNat)
        (fun slot => slot.end_.toNat) S slots addr.toNat = some i ∧
        slots[i]? = some slot := by
  unfold getPeripheral
  rw [Option.bind_eq_some_iff]
  constructor
  · rintro ⟨j, hlookup, hslot⟩
    obtain ⟨slot', hslot', heq⟩ := Option.map_eq_some_iff.mp hslot
    cases heq
    exact ⟨hlookup, hslot'⟩
  · rintro ⟨hlookup, hslot⟩
    exact ⟨i, hlookup, by rw [hslot, Option.map_some]⟩

/-- Putting back what a slot holds changes nothing. -/
lemma set_of_getPeripheral {S : SlotSearch} {slots : List (PeripheralSlot D)} {addr : U32} {i : ℕ}
    {slot : PeripheralSlot D} (hget : getPeripheral S slots addr = some (i, slot))
    {peripheral : Peripheral D} (h : slot.peripheral = peripheral) :
    slots.set i { slot with peripheral := peripheral } = slots := by
  obtain ⟨hi, rfl⟩ := List.getElem?_eq_some_iff.mp (getPeripheral_eq_some_iff.mp hget).2
  rw [← h]
  exact List.set_getElem_self hi

/-- What a new slot has in common with the old one in its place does not change. -/
lemma map_set_eq {β : Type*} {slots : List (PeripheralSlot D)} {i : ℕ} {slot new : PeripheralSlot D}
    (h : slots[i]? = some slot) {f : PeripheralSlot D → β} (hf : f new = f slot) :
    (slots.set i new).map f = slots.map f := by
  obtain ⟨hi, rfl⟩ := List.getElem?_eq_some_iff.mp h
  have hlt : i < (slots.map f).length := by simpa using hi
  have hself : f slots[i] = (slots.map f)[i] := by simp
  rw [List.map_set, hf, hself, List.set_getElem_self]

/-- Replacing the peripheral of a slot moves no slot. -/
lemma lookup_set (S : SlotSearch) {slots : List (PeripheralSlot D)} {i : ℕ}
    {slot : PeripheralSlot D} (h : slots[i]? = some slot) (peripheral : Peripheral D) (k : ℕ) :
    lookup (fun slot => slot.start.toNat) (fun slot => slot.end_.toNat) S
        (slots.set i { slot with peripheral := peripheral }) k
      = lookup (fun slot => slot.start.toNat) (fun slot => slot.end_.toNat) S slots k := by
  apply lookup_congr
  · exact map_set_eq h rfl
  · exact map_set_eq h rfl

/-! ## Accesses to registers -/

lemma isRegister_iff {addr : U32} :
    isRegister addr = true ↔ ¬ (0x60000000 ≤ addr.toNat ∧ addr.toNat < 0xa0000000) := by
  simp only [isRegister, Bool.not_eq_true', Bool.and_eq_false_iff, decide_eq_false_iff_not,
    BitVec.le_def, BitVec.lt_def, BitVec.toNat_ofNat]
  omega

lemma bitbanding_eq_none_iff {addr : U32} :
    bitbanding addr = none ↔ ¬ (0x42000000 ≤ addr.toNat ∧ addr.toNat < 0x44000000) := by
  simp [bitbanding, BitVec.le_def, BitVec.lt_def]

lemma toNat_alignAddr4 (addr : U32) : (alignAddr4 addr).1.toNat = addr.toNat - addr.toNat % 4 := by
  have hlt := addr.isLt
  have hmod : addr.toNat % 4 ≤ addr.toNat := Nat.mod_le _ _
  simp only [alignAddr4, BitVec.toNat_sub, BitVec.toNat_umod, BitVec.toNat_ofNat, Nat.reducePow,
    Nat.reduceMod]
  omega

lemma alignAddr4_snd (addr : U32) : (alignAddr4 addr).2 = addr.toNat % 4 := by
  simp [alignAddr4, BitVec.toNat_umod]

lemma alignAddr4_snd_lt (addr : U32) : (alignAddr4 addr).2 < 4 := by
  rw [alignAddr4_snd]
  exact Nat.mod_lt _ (by omega)

/-- The word around a register is aligned, and a register outside the bit-band region as well. -/
lemma alignAddr4_of_isRegister {addr : U32} (hreg : isRegister addr)
    (hband : bitbanding addr = none) :
    isRegister (alignAddr4 addr).1 ∧ bitbanding (alignAddr4 addr).1 = none ∧
      alignAddr4 (alignAddr4 addr).1 = ((alignAddr4 addr).1, 0) := by
  rw [isRegister_iff] at hreg ⊢
  rw [bitbanding_eq_none_iff] at hband ⊢
  have hnat := toNat_alignAddr4 addr
  refine ⟨by omega, by omega, Prod.ext ?_ ?_⟩
  · apply BitVec.eq_of_toNat_eq
    rw [toNat_alignAddr4]
    dsimp only
    omega
  · rw [alignAddr4_snd]
    dsimp only
    omega

/-- A bit of the bit-band region belongs to a register outside it. -/
lemma isRegister_of_bitbanding {addr byte : U32} {bitNumber : ℕ}
    (h : bitbanding addr = some (byte, bitNumber)) :
    isRegister byte ∧ bitbanding byte = none ∧ bitNumber < 8 := by
  unfold bitbanding at h
  split_ifs at h with hrange
  simp only [Option.some.injEq, Prod.mk.injEq] at h
  obtain ⟨rfl, rfl⟩ := h
  rw [isRegister_iff, bitbanding_eq_none_iff]
  simp only [BitVec.le_def, BitVec.lt_def, BitVec.toNat_ofNat] at hrange
  simp only [BitVec.toNat_add, BitVec.toNat_udiv, BitVec.toNat_sub, BitVec.toNat_umod,
    BitVec.toNat_ofNat, Nat.reducePow, Nat.reduceMod] at hrange ⊢
  omega

section Registers

variable {S : SlotSearch} {p : Peripherals U D} {addr : U32} {size : ℕ}

/-- Reading a register reads its word. -/
lemma readDirect_of_isRegister (hreg : isRegister addr) (hfit : (alignAddr4 addr).2 + size ≤ 4) :
    p.readDirect S addr size = (p.readPeripheral S (alignAddr4 addr).1).map
      fun r : Peripherals U D × U32 => (r.1, r.2 >>> (8 * (alignAddr4 addr).2)) := by
  simp only [readDirect, reduceAddr, hreg, if_true, if_pos hfit]

/-- Reading a whole word, as a shorter write does. -/
lemma read_word (hreg : isRegister addr) (hband : bitbanding addr = none) :
    p.read S (alignAddr4 addr).1 4 = p.readPeripheral S (alignAddr4 addr).1 := by
  obtain ⟨hreg', hband', halign⟩ := alignAddr4_of_isRegister hreg hband
  have hfit : (alignAddr4 (alignAddr4 addr).1).2 + 4 ≤ 4 := by rw [halign]
  simp only [Peripherals.read, hband']
  rw [readDirect_of_isRegister hreg' hfit, halign]
  simp

variable [UnicornEngine U]

/-- A short write of a register reads its word, merges the bytes and writes the word. -/
lemma writeDirect_of_lt (hreg : isRegister addr) (hband : bitbanding addr = none)
    (hfit : (alignAddr4 addr).2 + size ≤ 4) (hsize : size < 4) (value : U32) :
    p.writeDirect S addr size value = (p.readPeripheral S (alignAddr4 addr).1).bind fun r =>
      r.1.writePeripheral S (alignAddr4 addr).1
        (mergeLanes r.2 (value <<< (8 * (alignAddr4 addr).2))
          (laneMask size (alignAddr4 addr).2)) := by
  have hreg' := (alignAddr4_of_isRegister hreg hband).1
  simp only [writeDirect, reduceAddr, hreg, if_true, if_pos hfit, hreg', hsize, and_self,
    read_word hreg hband]

/-- A write of a whole word. -/
lemma writeDirect_word (hreg : isRegister addr) (hfit : (alignAddr4 addr).2 + 4 ≤ 4) (value : U32) :
    p.writeDirect S addr 4 value = p.writePeripheral S (alignAddr4 addr).1 value := by
  simp only [writeDirect, reduceAddr, hreg, if_true, if_pos hfit, Nat.lt_irrefl,
    and_false, if_false]

end Registers

end Peripherals

end Stm32Emulator
