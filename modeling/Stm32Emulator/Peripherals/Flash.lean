import Stm32Emulator.Engine.Unicorn

/-!
# The flash interface

The interface unlocks by a sequence of two keys.  An unlocked write of the control register erases a
sector of the memory of the engine, under its own address and under each alias; locking again saves
the memory to a backing file.
-/

namespace Stm32Emulator

/-- The file that keeps the memory from one run to the next, as operations on the outside world.
Each tells whether it succeeded. -/
structure BackingFile (D : Type) where
  createDirAll : D → Bool × D
  create : D → Bool × D
  writeAll : List U8 → D → Bool × D
  syncAll : D → Bool × D

structure FlashPersistence (D : Type) where
  start : U32
  size : U32
  backingFile : Option (BackingFile D)

structure InternalFlashConfig (D : Type) where
  start : U32
  aliases : List U32
  persistent : Option (FlashPersistence D)

namespace Flash

def key1 : U32 := 0x45670123
def key2 : U32 := 0xcdef89ab
def crSer : U32 := 1 <<< 1
def crSnbMask : U32 := 0x1f <<< 3
def crStrt : U32 := 1 <<< 16
def crLock : U32 := 1 <<< 31
def srOperr : U32 := 1 <<< 1
def optcrOptlock : U32 := 1
def erased : U8 := 0xff
def ioChunk : ℕ := 64 * 1024

end Flash

/-- The start bit of the control register is never stored. -/
structure Flash (D : Type) where
  acr : U32
  sr : U32
  cr : U32
  optcr : U32
  keyStage : ℕ
  internal : Option (InternalFlashConfig D)
  cr_strt : cr &&& Flash.crStrt = 0#32

namespace Flash

variable {U D : Type} [UnicornEngine U]

def new (internal : Option (InternalFlashConfig D)) : Flash D :=
  ⟨0, 0, crLock, 0x0fffaaec ||| optcrOptlock, 0, internal, by decide⟩

/-- The loop of `fill`; each round writes at least one byte. -/
def fillLoop (start size : ℕ) (value : U8) : ℕ → ℕ → U → Bool × U
  | 0, _, uc => (true, uc)
  | fuel + 1, offset, uc =>
    if offset < size then
      let count := min (min ioChunk size) (size - offset)
      match memWrite uc (start + offset) (List.replicate count value) with
      | some uc => fillLoop start size value fuel (offset + count) uc
      | none => (false, uc)
    else
      (true, uc)

/-- Filling memory chunk by chunk, up to the first that fails. -/
def fill (uc : U) (start size : ℕ) (value : U8) : Bool × U := fillLoop start size value size 0 uc

/-- The offset and the size of a sector; the second bank starts at sector sixteen. -/
def sectorRange (registerSector : ℕ) : Option (ℕ × ℕ) :=
  let inBank (bankOffset bankSector : ℕ) : Option (ℕ × ℕ) :=
    if bankSector ≤ 3 then some (bankOffset + bankSector * 16 * 1024, 16 * 1024)
    else if bankSector = 4 then some (bankOffset + 64 * 1024, 64 * 1024)
    else if bankSector ≤ 11 then
      some (bankOffset + (128 * 1024 + (bankSector - 5) * 128 * 1024), 128 * 1024)
    else none
  if registerSector ≤ 11 then inBank 0 registerSector
  else if 0x10 ≤ registerSector ∧ registerSector ≤ 0x1b then inBank 0x100000 (registerSector - 0x10)
  else none

/-- The sector at each of the given addresses, up to the first failure; an address past the end of
the address space is `none`. -/
def fillAll (uc : U) (offset size : ℕ) : List U32 → Option (Bool × U)
  | [] => some (true, uc)
  | start :: starts =>
    if 2 ^ 32 ≤ start.toNat + offset then
      none
    else
      match fill uc (start.toNat + offset) size erased with
      | (true, uc) => fillAll uc offset size starts
      | (false, uc) => some (false, uc)

/-- Erasing a sector, and whether that succeeded. -/
def eraseSector (flash : Flash D) (uc : U) (registerSector : ℕ) : Option (Bool × U) :=
  match flash.internal, sectorRange registerSector with
  | some config, some (offset, size) => fillAll uc offset size (config.start :: config.aliases)
  | _, _ => some (false, uc)

/-- Running the steps in order, up to the first that fails. -/
def runAll : List (D → Bool × D) → D → Bool × D
  | [], d => (true, d)
  | step :: steps, d =>
    match step d with
    | (true, d) => runAll steps d
    | (false, d) => (false, d)

/-- Saving the memory, and whether that succeeded.  Without a backing file there is nothing to
do. -/
def persist (flash : Flash D) (uc : U) (d : D) : Bool × D :=
  match flash.internal.bind (·.persistent) with
  | none => (true, d)
  | some persistent =>
    match persistent.backingFile with
    | none => (true, d)
    | some file =>
      match file.createDirAll d with
      | (false, d) => (false, d)
      | (true, d) =>
        match memRead uc persistent.start.toNat persistent.size.toNat with
        | none => (false, d)
        | some bytes => runAll [file.create, file.writeAll bytes, file.syncAll] d

/-- Saving looks at the configuration only. -/
lemma persist_congr {flash flash' : Flash D} (h : flash'.internal = flash.internal) (uc : U)
    (d : D) : flash'.persist uc d = flash.persist uc d := by
  unfold persist
  rw [h]

def writeKey (flash : Flash D) (value : U32) : Flash D :=
  if flash.keyStage = 0 ∧ value = key1 then { flash with keyStage := 1 }
  else if flash.keyStage = 1 ∧ value = key2 then
    { flash with
      keyStage := 0
      cr := flash.cr &&& ~~~crLock
      cr_strt := by rw [BitVec.and_assoc, BitVec.and_comm (~~~_), ← BitVec.and_assoc, flash.cr_strt,
        BitVec.zero_and] }
  else { flash with keyStage := 0 }

/-- The control register without the start bit. -/
def storeCr (flash : Flash D) (value : U32) : Flash D :=
  { flash with
    cr := value &&& ~~~crStrt
    cr_strt := by
      rw [BitVec.and_assoc, BitVec.and_comm (~~~_), BitVec.and_not_self]
      exact BitVec.and_zero }

/-- Noting an error unless the operation succeeded. -/
def noteResult (flash : Flash D) (success : Bool) : Flash D :=
  if success then flash else { flash with sr := flash.sr ||| srOperr }

/-- The erasure that a write of the control register starts. -/
def eraseOnWrite (flash : Flash D) (uc : U) (wasLocked : Bool) (value : U32) :
    Option (Flash D × U) :=
  if !wasLocked ∧ value &&& crStrt ≠ 0#32 ∧ value &&& crSer ≠ 0#32 then
    (flash.eraseSector uc ((value &&& crSnbMask) >>> 3).toNat).map fun (success, uc) =>
      (flash.noteResult success, uc)
  else
    some (flash, uc)

/-- The save that a write of the control register starts. -/
def persistOnWrite (flash : Flash D) (uc : U) (d : D) (wasLocked : Bool) (value : U32) :
    Flash D × D :=
  if !wasLocked ∧ value &&& crLock ≠ 0#32 then
    let (success, d) := flash.persist uc d
    (flash.noteResult success, d)
  else
    (flash, d)

def writeControl (flash : Flash D) (uc : U) (d : D) (value : U32) : Option (Flash D × U × D) :=
  let wasLocked := flash.cr &&& crLock != 0#32
  if wasLocked ∧ value &&& crLock = 0#32 then
    some (flash, uc, d)
  else
    ((flash.storeCr value).eraseOnWrite uc wasLocked value).map fun (flash, uc) =>
      let (flash, d) := flash.persistOnWrite uc d wasLocked value
      (flash, uc, d)

/-- The key registers read as zero. -/
def read (flash : Flash D) (offset : U32) : U32 :=
  if offset = 0x00 then flash.acr
  else if offset = 0x0c then flash.sr
  else if offset = 0x10 then flash.cr
  else if offset = 0x14 then flash.optcr
  else 0

def write (flash : Flash D) (uc : U) (d : D) (offset value : U32) : Option (Flash D × U × D) :=
  if offset = 0x00 then some ({ flash with acr := value }, uc, d)
  else if offset = 0x04 then some (flash.writeKey value, uc, d)
  -- writing a one clears a flag
  else if offset = 0x0c then some ({ flash with sr := flash.sr &&& ~~~value }, uc, d)
  else if offset = 0x10 then flash.writeControl uc d value
  else if offset = 0x14 ∧ flash.optcr &&& optcrOptlock = 0#32 then
    some ({ flash with optcr := value }, uc, d)
  else some (flash, uc, d)

end Flash

end Stm32Emulator
