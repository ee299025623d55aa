import Stm32Emulator.Foundation.Word

/-!
# Serial controllers

An external device is an object of the outside world that a controller reads and writes: its
operations act on the state `D` of that world.  `Usart` and `Spi` pass bytes to a device, `I2c` and
`Can` have none.
-/

namespace Stm32Emulator

/-- A device with addresses in `A` and data in `T`. -/
structure ExtDevice (A T D : Type) where
  read : A → D → T × D
  write : A → T → D → D

variable {D : Type}

/-! ## USART -/

structure Usart (D : Type) where
  extDevice : Option (ExtDevice Unit U8 D)

namespace Usart

/-- The transmitter is always ready, and there is always something to receive. -/
def srValue : U32 := (1 <<< 7) ||| (1 <<< 6) ||| (1 <<< 5) ||| (1 <<< 4)

/-- Reading the data register takes a byte from the device. -/
def read (usart : Usart D) (d : D) (offset : U32) : D × U32 :=
  if offset = 0x0000 then (d, srValue)
  else if offset = 0x0004 then
    match usart.extDevice with
    | some device => ((device.read () d).2, (device.read () d).1.setWidth 32)
    | none => (d, 0)
  else (d, 0)

def write (usart : Usart D) (d : D) (offset value : U32) : D :=
  if offset = 0x0004 then
    match usart.extDevice with
    | some device => device.write () (value.setWidth 8) d
    | none => d
  else d

end Usart

/-! ## SPI -/

structure Spi (D : Type) where
  cr1 : U32
  rxBuffer : U32
  readyToggle : Bool
  extDevice : Option (ExtDevice Unit U8 D)

namespace Spi

def is16bits (spi : Spi D) : Bool := spi.cr1 &&& (1 <<< 11) != 0

/-- Reading the status register makes the controller ready and busy in turns. -/
def read (spi : Spi D) (offset : U32) : Spi D × U32 :=
  if offset = 0x0000 then (spi, spi.cr1)
  else if offset = 0x0008 then
    ({ spi with readyToggle := !spi.readyToggle }, if !spi.readyToggle then 0b11 else 0)
  else if offset = 0x000c then (spi, spi.rxBuffer)
  else (spi, 0)

/-- What the device answers to one frame, which it is asked for before it gets the frame. -/
def receive (spi : Spi D) (d : D) : D × U32 :=
  match spi.extDevice with
  | some device =>
    if spi.is16bits then
      let (h, d) := device.read () d
      let (l, d) := device.read () d
      (d, (h.setWidth 32 <<< 8) ||| l.setWidth 32)
    else
      let (v, d) := device.read () d
      (d, v.setWidth 32)
  | none => (d, 0)

/-- One frame to the device, the high byte first. -/
def send (spi : Spi D) (d : D) (value : U32) : D :=
  match spi.extDevice with
  | some device =>
    if spi.is16bits then
      device.write () (value.setWidth 8) (device.write () ((value >>> 8).setWidth 8) d)
    else
      device.write () (value.setWidth 8) d
  | none => d

def write (spi : Spi D) (d : D) (offset value : U32) : Spi D × D :=
  if offset = 0x0000 then ({ spi with cr1 := value }, d)
  else if offset = 0x000c then
    let (d, v) := spi.receive d
    let spi := { spi with rxBuffer := v }
    (spi, spi.send d value)
  else (spi, d)

end Spi

/-! ## I2C -/

/-- Reading a status register moves `toggle` on, so that every flag comes up sooner or later. -/
structure I2c where
  toggle : U8
  deriving DecidableEq, Repr

namespace I2c

def default : I2c := ⟨0⟩

def advance (i2c : I2c) : I2c := ⟨(i2c.toggle + 1) % 5⟩

def read (i2c : I2c) (offset : U32) : I2c × U32 :=
  if offset = 0x0014 then
    (i2c.advance, if i2c.advance.toggle &&& 2 ≠ 0 then 0xffffffff else 0)
  else if offset = 0x0018 then
    (i2c.advance, if i2c.advance.toggle &&& 1 ≠ 0 then 0xffffffff else 0)
  else (i2c, 0)

end I2c

/-! ## CAN -/

/-- Mode requests are acknowledged at once. -/
structure Can where
  mcr : U32
  deriving DecidableEq, Repr

namespace Can

def new : Can := ⟨0⟩

def msrAfterMcrWrite (mcr : U32) : U32 := mcr &&& 0x00000003

/-- Every transmit mailbox is free. -/
def tsrAllMailboxesEmpty : U32 := 0x1c000000

def read (can : Can) (offset : U32) : U32 :=
  if offset = 0x0000 then can.mcr
  else if offset = 0x0004 then msrAfterMcrWrite can.mcr
  else if offset = 0x0008 then tsrAllMailboxesEmpty
  else 0

def write (can : Can) (offset value : U32) : Can :=
  if offset = 0x0000 then { can with mcr := value } else can

end Can

end Stm32Emulator
