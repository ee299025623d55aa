import Stm32Emulator.Foundation.Word

/-!
# Pins

The objects connected to a pin are callbacks on the state `D` of the outside world: a reader of the
pin asks them for its level, and a port that drives the pin tells them.
-/

namespace Stm32Emulator

/-! ## Ports -/

structure Pin where
  port : Fin 11
  pin : Fin 16
  deriving DecidableEq, Repr

lemma Pin.ext {pin pin' : Pin} (hport : pin.port = pin'.port) (hpin : pin.pin = pin'.pin) :
    pin = pin' := by
  obtain ⟨port, number⟩ := pin
  obtain rfl : port = _ := hport
  obtain rfl : number = _ := hpin
  rfl

/-- The callbacks of every port, with the pin that each is connected to. -/
structure GpioPorts (D : Type) where
  readCallbacks : Fin 11 → List (Fin 16 × (D → Bool × D))
  writeCallbacks : Fin 11 → List (Fin 16 × (Bool → D → D))

variable {D : Type}

namespace GpioPorts

def default : GpioPorts D := ⟨fun _ => [], fun _ => []⟩

def addReadCallback (gpio : GpioPorts D) (pin : Pin) (cb : D → Bool × D) : GpioPorts D :=
  { gpio with
    readCallbacks :=
      Function.update gpio.readCallbacks pin.port (gpio.readCallbacks pin.port ++ [(pin.pin, cb)]) }

def addWriteCallback (gpio : GpioPorts D) (pin : Pin) (cb : Bool → D → D) : GpioPorts D :=
  { gpio with
    writeCallbacks :=
      Function.update gpio.writeCallbacks pin.port
        (gpio.writeCallbacks pin.port ++ [(pin.pin, cb)]) }

/-- The level of every pin of a port. -/
def readPort (gpio : GpioPorts D) (d : D) (port : Fin 11) : D × U16 :=
  (gpio.readCallbacks port).foldl
    (fun (d, v) (pin, cb) => ((cb d).2, if (cb d).1 then v ||| (1#16 <<< pin.val) else v)) (d, 0#16)

/-- Telling the callbacks of one pin its new level. -/
def writePort (gpio : GpioPorts D) (d : D) (port : Fin 11) (pin : ℕ) (value : Bool) : D :=
  (gpio.writeCallbacks port).foldl
    (fun d (pinCb, cb) => if pinCb.val = pin then cb value d else d) d

end GpioPorts

/-! ## The registers of one port -/

structure Gpio where
  port : Fin 11
  mode : U32
  otype : U32
  ospeed : U32
  pupd : U32
  od : U32
  lck : U32
  afrl : U32
  afrh : U32
  deriving DecidableEq, Repr

namespace Gpio

def new (port : Fin 11) : Gpio := ⟨port, 0, 0, 0, 0, 0, 0, 0, 0⟩

def trailingZeros (value : U32) : ℕ := ((List.range 32).find? fun i => value.getLsbD i).getD 32

def strideMask (stride : ℕ) : U8 := 0xff >>> (8 - stride)

/-- The loop of `iterPortRegChanges`; each round clears the lowest change, of which a word has at
most as many as bits. -/
def iterPortRegChangesLoop {S : Type} (newValue : U32) (stride : ℕ) (f : S → ℕ → U8 → S) :
    ℕ → U32 → S → S
  | 0, _, s => s
  | fuel + 1, changes, s =>
    if changes = 0#32 then
      s
    else
      let pin := trailingZeros changes / stride
      let v := (newValue >>> (pin * stride)).setWidth 8 &&& strideMask stride
      iterPortRegChangesLoop newValue stride f fuel
        (changes &&& (~~~((strideMask stride).setWidth 32) <<< (pin * stride)))
        (if pin ≤ 16 then f s pin v else s)

/-- Visiting the fields of `stride` bits in which two values differ, the lowest first. -/
def iterPortRegChanges {S : Type} (oldValue newValue : U32) (stride : ℕ) (f : S → ℕ → U8 → S)
    (s : S) :
    S :=
  iterPortRegChangesLoop newValue stride f 32 (oldValue ^^^ newValue) s

/-- The registers that store. -/
def register (gpio : Gpio) (offset : U32) : U32 :=
  if offset = 0x0000 then gpio.mode
  else if offset = 0x0004 then gpio.otype
  else if offset = 0x0008 then gpio.ospeed
  else if offset = 0x000c then gpio.pupd
  else if offset = 0x0014 then gpio.od
  else if offset = 0x001c then gpio.lck
  else if offset = 0x0020 then gpio.afrl
  else if offset = 0x0024 then gpio.afrh
  else 0

/-- Reading `IDR` asks the callbacks. -/
def read (gpio : Gpio) (ports : GpioPorts D) (d : D) (offset : U32) : D × U32 :=
  if offset = 0x0010 then ((ports.readPort d gpio.port).1,
    (ports.readPort d gpio.port).2.setWidth 32)
  else (d, gpio.register offset)

/-- A write to `ODR`, which tells the pins that change. -/
def writeOd (gpio : Gpio) (ports : GpioPorts D) (d : D) (value : U32) : Gpio × D :=
  ({ gpio with od := value },
    iterPortRegChanges gpio.od value 1 (fun d pin v => ports.writePort d gpio.port pin (v != 0)) d)

/-- A write to `BSRR` sets the pins of the low half and then resets those of the high half. -/
def writeBsr (gpio : Gpio) (ports : GpioPorts D) (d : D) (value : U32) : Gpio × D :=
  let reset := value >>> 16
  let set := value &&& 0xffff#32
  let d := iterPortRegChanges 0 set 1 (fun d pin _ => ports.writePort d gpio.port pin true) d
  let d := iterPortRegChanges 0 reset 1 (fun d pin _ => ports.writePort d gpio.port pin false) d
  ({ gpio with od := (gpio.od &&& ~~~reset) ||| set }, d)

def write (gpio : Gpio) (ports : GpioPorts D) (d : D) (offset value : U32) : Gpio × D :=
  if offset = 0x0000 then ({ gpio with mode := value }, d)
  else if offset = 0x0004 then ({ gpio with otype := value }, d)
  else if offset = 0x0008 then ({ gpio with ospeed := value }, d)
  else if offset = 0x000c then ({ gpio with pupd := value }, d)
  else if offset = 0x0014 then gpio.writeOd ports d value
  else if offset = 0x0018 then gpio.writeBsr ports d value
  else if offset = 0x001c then ({ gpio with lck := value }, d)
  else if offset = 0x0020 then ({ gpio with afrl := value }, d)
  else if offset = 0x0024 then ({ gpio with afrh := value }, d)
  else (gpio, d)

end Gpio

end Stm32Emulator
