import Stm32Emulator.Foundation.Word
import Mathlib.Logic.Function.Basic

/-!
# The DMA controller

Eight streams and the flags of their transfers.  Enabling a stream sets the time at which its
transfer takes place.
-/

namespace Stm32Emulator

open Function

/-- The direction of a transfer. -/
inductive DmaDir where
  | read
  | write
  | memCopy
  | invalid
  deriving DecidableEq, Repr

/-- The number of bytes left is a sixteen-bit count. -/
structure DmaStream where
  cr : U32
  nextCr : Option U32
  ndtr : U32
  par : U32
  m0ar : U32
  m1ar : U32
  fcr : U32
  ndtr_bits : ndtr &&& 0xffff#32 = ndtr
  deriving DecidableEq

namespace DmaStream

def default : DmaStream := ⟨0, none, 0, 0, 0, 0, 0, zero_and_lowHalf⟩

def channel (stream : DmaStream) : U8 := ((stream.cr >>> 25) &&& 0b111).setWidth 8

def dir (stream : DmaStream) : DmaDir :=
  let code := (stream.cr >>> 6) &&& 0b11
  if code = 0b00 then .read else if code = 0b01 then .write else if code = 0b10 then .memCopy
  else .invalid

def wordSize (stream : DmaStream) : ℕ :=
  let code := (stream.cr >>> 11) &&& 0b11
  if code = 0b01 then 2 else if code = 0b10 then 4 else 1

def dataSize (stream : DmaStream) : ℕ := stream.wordSize * stream.ndtr.toNat

/-- Reading `CR` moves on to the value announced before.  The enable bit of a write of no bytes
toggles from one read to the next. -/
def readCr (stream : DmaStream) : DmaStream × U32 :=
  let v := stream.cr
  let stream := match stream.nextCr with
    | some nextCr => { stream with cr := nextCr, nextCr := none }
    | none => stream
  if stream.dir = .write ∧ stream.dataSize = 0 then
    ({ stream with nextCr := some (stream.cr ^^^ 1) }, v)
  else
    (stream, v)

def register (stream : DmaStream) (offset : ℕ) : U32 :=
  if offset = 0x0000 then stream.cr
  else if offset = 0x0004 then stream.ndtr
  else if offset = 0x0008 then stream.par
  else if offset = 0x000c then stream.m0ar
  else if offset = 0x0010 then stream.m1ar
  else if offset = 0x0014 then stream.fcr
  else 0

def read (stream : DmaStream) (offset : ℕ) : DmaStream × U32 :=
  if offset = 0x0000 then stream.readCr else (stream, stream.register offset)

/-- The stream afterwards, and whether the write armed a transfer. -/
def write (stream : DmaStream) (offset : ℕ) (value : U32) : DmaStream × Bool :=
  if offset = 0x0000 then ({ stream with cr := value }, value &&& 1 ≠ 0)
  else if offset = 0x0004 then
    ({ stream with
        ndtr := value &&& 0xffff#32
        ndtr_bits := and_lowHalf_and_lowHalf value }, false)
  else if offset = 0x0008 then ({ stream with par := value }, false)
  else if offset = 0x000c then ({ stream with m0ar := value }, false)
  else if offset = 0x0010 then ({ stream with m1ar := value }, false)
  else if offset = 0x0014 then ({ stream with fcr := value }, false)
  else (stream, false)

end DmaStream

/-- What an offset addresses: a register of the controller, or one of the stream with a number that
nothing bounds yet. -/
inductive DmaAccess where
  | reg (offset : U32)
  | streamReg (stream offset : ℕ)
  deriving DecidableEq, Repr

def DmaAccess.fromOffset (offset : U32) : DmaAccess :=
  if offset.toNat < 0x28 then
    .reg offset
  else
    let stride := 0x18
    let start := 0x10
    .streamReg ((offset.toNat - start) / stride) ((offset.toNat - start) % stride)

structure Dma where
  name : String
  streams : Fin 8 → DmaStream
  lisr : U32
  hisr : U32
  /-- When the transfer of each stream is due. -/
  completeAt : Fin 8 → Option ℕ
  lastNow : ℕ

namespace Dma

def new (name : String) : Dma := ⟨name, fun _ => .default, 0, 0, fun _ => none, 0⟩

def transferCompleteDelay : ℕ := 10000

/-- A stream past the last one is `none`. -/
def read (dma : Dma) (offset : U32) : Option (Dma × U32) :=
  match DmaAccess.fromOffset offset with
  | .reg offset =>
    some (dma, if offset = 0x00 then dma.lisr else if offset = 0x04 then dma.hisr else 0)
  | .streamReg i offset =>
    if h : i < 8 then
      let (stream, v) := (dma.streams ⟨i, h⟩).read offset
      some ({ dma with streams := update dma.streams ⟨i, h⟩ stream }, v)
    else none

/-- The flags are cleared through two registers of their own. -/
def write (dma : Dma) (offset value : U32) : Option Dma :=
  match DmaAccess.fromOffset offset with
  | .reg offset => some (
      if offset = 0x08 then { dma with lisr := dma.lisr &&& ~~~value }
      else if offset = 0x0c then { dma with hisr := dma.hisr &&& ~~~value }
      else dma)
  | .streamReg i offset =>
    if h : i < 8 then
      let (stream, armed) := (dma.streams ⟨i, h⟩).write offset value
      let dma := { dma with streams := update dma.streams ⟨i, h⟩ stream }
      some (if armed then
          { dma with
            completeAt := update dma.completeAt ⟨i, h⟩
              (some (dma.lastNow + transferCompleteDelay)) }
        else dma)
    else none

end Dma

end Stm32Emulator
