import Stm32Emulator.Peripherals.Gpio

/-!
# The analogue converter

The converter goes through its sequence of channels, one step for each read of the data register.
-/

namespace Stm32Emulator

/-- The voltages at the pins, which the outside world sets. -/
structure EcuIo (D : Type) where
  adcMillivolts : D → Pin → ℤ

structure Adc (D : Type) where
  ecuIo : Option (EcuIo D)
  cr1 : U32
  cr2 : U32
  smpr1 : U32
  smpr2 : U32
  sqr1 : U32
  sqr2 : U32
  sqr3 : U32
  sr : U32
  sequenceIndex : ℕ

namespace Adc

variable {D : Type}

def new (ecuIo : Option (EcuIo D)) : Adc D := ⟨ecuIo, 0, 0, 0, 0, 0, 0, 0, 0, 0⟩

def cr2Swstart : U32 := 1 <<< 30
def srEoc : U32 := 1 <<< 1

/-- `PA0` to `PA7`, `PB0` and `PB1`, `PC0` to `PC5`. -/
def channelPins (channel : Fin 16) : Pin :=
  if channel < 8 then ⟨0, channel⟩ else if channel < 10 then ⟨1, channel - 8⟩ else ⟨2, channel - 10⟩

def millivoltsToCounts (millivolts : ℤ) : U32 :=
  BitVec.ofNat 32 ((max 0 (min millivolts 3300)).toNat * 4095 / 3300)

/-- The length of the sequence. -/
def numChannels (adc : Adc D) : ℕ := min (((adc.sqr1 >>> 20) &&& 0xf).toNat + 1) 16

/-- The channel at a place of the sequence. -/
def channelAt (adc : Adc D) (n : ℕ) : ℕ :=
  if n < 6 then ((adc.sqr3 >>> (n * 5)) &&& 0x1f).toNat
  else if n < 12 then ((adc.sqr2 >>> ((n - 6) * 5)) &&& 0x1f).toNat
  else ((adc.sqr1 >>> ((n - 12) * 5)) &&& 0x1f).toNat

def millivolts (adc : Adc D) (d : D) (channel : ℕ) : ℤ :=
  match adc.ecuIo with
  | some ecuIo => if h : channel < 16 then ecuIo.adcMillivolts d (channelPins ⟨channel, h⟩) else 0
  | none => 0

def nextConversionValue (adc : Adc D) (d : D) : Adc D × U32 :=
  let n := adc.numChannels
  let channel := adc.channelAt (adc.sequenceIndex % n)
  ({ adc with sequenceIndex := (adc.sequenceIndex + 1) % n },
    millivoltsToCounts (adc.millivolts d channel))

/-- The registers that store. -/
def register (adc : Adc D) (offset : U32) : U32 :=
  if offset = 0x00 then adc.sr
  else if offset = 0x04 then adc.cr1
  else if offset = 0x08 then adc.cr2
  else if offset = 0x0c then adc.smpr1
  else if offset = 0x10 then adc.smpr2
  else if offset = 0x2c then adc.sqr1
  else if offset = 0x30 then adc.sqr2
  else if offset = 0x34 then adc.sqr3
  else 0

/-- Reading the data register converts the next channel and reports the end of the conversion. -/
def readDr (adc : Adc D) (d : D) : Adc D × U32 :=
  let (adc, value) := adc.nextConversionValue d
  ({ adc with sr := adc.sr ||| srEoc }, value)

def registerRead (adc : Adc D) (d : D) (offset : U32) : Adc D × U32 :=
  if offset = 0x4c then adc.readDr d else (adc, adc.register offset)

def registerWrite (adc : Adc D) (offset value : U32) : Adc D :=
  if offset = 0x00 then { adc with sr := value }
  else if offset = 0x04 then { adc with cr1 := value }
  -- the start bit goes back to the first channel
  else if offset = 0x08 then
    { adc with
      cr2 := value
      sequenceIndex := if value &&& cr2Swstart ≠ 0 then 0 else adc.sequenceIndex }
  else if offset = 0x0c then { adc with smpr1 := value }
  else if offset = 0x10 then { adc with smpr2 := value }
  else if offset = 0x2c then { adc with sqr1 := value }
  else if offset = 0x30 then { adc with sqr2 := value }
  else if offset = 0x34 then { adc with sqr3 := value }
  else adc

/-- Conversions for a transfer, two bytes each; an odd byte at the end is not read. -/
def convertBytes (adc : Adc D) (d : D) : ℕ → Adc D × List U8
  | 0 | 1 => (adc, [])
  | remaining + 2 =>
    let (adc, value) := adc.nextConversionValue d
    let (adc, v) := adc.convertBytes d remaining
    (adc, value.extractLsb' 0 8 :: value.extractLsb' 8 8 :: v)

/-- The low bytes of a register that is read once for each byte of a transfer. -/
def registerBytes (adc : Adc D) (d : D) (offset : U32) : ℕ → Adc D × List U8
  | 0 => (adc, [])
  | remaining + 1 =>
    let (adc, value) := adc.registerRead d offset
    let (adc, v) := adc.registerBytes d offset remaining
    (adc, value.setWidth 8 :: v)

def dmaReadBytes (adc : Adc D) (d : D) (offset : U32) (size : ℕ) : Adc D × List U8 :=
  if offset ≠ 0x4c then adc.registerBytes d offset size else adc.convertBytes d size

end Adc

end Stm32Emulator
