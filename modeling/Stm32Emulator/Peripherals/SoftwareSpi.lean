import Stm32Emulator.Peripherals.GpioObservers
import Stm32Emulator.Peripherals.Serial

/-!
# Software SPI

`SoftwareSpi` listens to three pins that firmware drives by hand.  It keeps its own copies of their
levels: both are low when `CS` falls, whatever the pins are then, and while `CS` is high they do not
follow.

What is decoded from the levels does not depend on the answers of the device (`SpiWorld.decoder`).
-/

namespace Stm32Emulator

variable {D : Type}

structure SoftwareSpiConfig where
  cs : Option Pin
  clk : Pin
  miso : Pin
  mosi : Pin
  deriving DecidableEq, Repr

structure SoftwareSpi where
  dataMosi : U8
  dataMiso : U8
  bitIndex : ℕ
  cs : Bool
  clk : Bool
  mosi : Bool
  miso : Bool
  deriving DecidableEq, Repr

/-- The controller, the world with its device, and the bytes that were handed to the device. -/
structure SpiWorld (D : Type) where
  spi : SoftwareSpi
  world : D
  handed : List U8

namespace SoftwareSpi

def default : SoftwareSpi := ⟨0, 0, 0, false, false, false, false⟩

/-- A byte is exchanged with the device, if there is one. -/
def xfer (extDevice : Option (ExtDevice Unit U8 D)) (d : D) (mosi : U8) : D × U8 :=
  match extDevice with
  | some device =>
    let d := device.write () mosi d
    ((device.read () d).2, (device.read () d).1)
  | none => (d, 0)

end SoftwareSpi

namespace SpiWorld

open SoftwareSpi

def new (d : D) : SpiWorld D := ⟨.default, d, []⟩

def writeCs (value : Bool) (w : SpiWorld D) : SpiWorld D :=
  let spi :=
    if w.spi.cs && !value then
      { w.spi with
        dataMosi := 0, dataMiso := 0, bitIndex := 0, clk := false, mosi := false, miso := false }
    else w.spi
  { w with spi := { spi with cs := value } }

/-- When the clock rises a bit goes out and another comes in. -/
def clockRise (extDevice : Option (ExtDevice Unit U8 D)) (w : SpiWorld D) : SpiWorld D :=
  let dataMosi := (w.spi.dataMosi <<< 1) ||| (if w.spi.mosi then 1 else 0)
  let spi : SoftwareSpi :=
    { w.spi with
      miso := w.spi.dataMiso &&& 0x80 != 0
      dataMiso := w.spi.dataMiso <<< 1
      dataMosi := dataMosi
      bitIndex := w.spi.bitIndex + 1 }
  if spi.bitIndex = 8 then
    let (d, miso) := xfer extDevice w.world dataMosi
    ⟨{ spi with bitIndex := 0, dataMiso := miso }, d, w.handed ++ [dataMosi]⟩
  else { w with spi := spi }

def writeClk (extDevice : Option (ExtDevice Unit U8 D)) (value : Bool)
    (w : SpiWorld D) : SpiWorld D :=
  if w.spi.cs then w
  else
    let w := if !w.spi.clk && value then w.clockRise extDevice else w
    { w with spi := { w.spi with clk := value } }

def readMiso (w : SpiWorld D) : Bool × SpiWorld D := (if w.spi.cs then false else w.spi.miso, w)

def writeMosi (value : Bool) (w : SpiWorld D) : SpiWorld D :=
  if w.spi.cs then w else { w with spi := { w.spi with mosi := value } }

end SpiWorld

/-! ## Connecting the pins -/

namespace SoftwareSpi

/-- Connecting the controller to its pins. -/
def register (config : SoftwareSpiConfig) (extDevice : Option (ExtDevice Unit U8 D))
    (gpio : GpioPorts (SpiWorld D)) : GpioPorts (SpiWorld D) :=
  let gpio := match config.cs with
    | some cs => gpio.addWriteCallback cs SpiWorld.writeCs
    | none => gpio
  let gpio := gpio.addWriteCallback config.clk (SpiWorld.writeClk extDevice)
  let gpio := gpio.addReadCallback config.miso SpiWorld.readMiso
  gpio.addWriteCallback config.mosi SpiWorld.writeMosi

end SoftwareSpi

namespace GpioPorts

/-- Callbacks that know nothing of the controller. -/
def besideSpi (gpio : GpioPorts D) : GpioPorts (SpiWorld D) where
  readCallbacks port := (gpio.readCallbacks port).map fun (pin, cb) =>
    (pin, fun w => ((cb w.world).1, { w with world := (cb w.world).2 }))
  writeCallbacks port := (gpio.writeCallbacks port).map fun (pin, cb) =>
    (pin, fun level w => { w with world := cb level w.world })

/-- Callbacks that are connected after others. -/
def append (gpio later : GpioPorts D) : GpioPorts D where
  readCallbacks port := gpio.readCallbacks port ++ later.readCallbacks port
  writeCallbacks port := gpio.writeCallbacks port ++ later.writeCallbacks port

end GpioPorts

/-- The ports with the controller, and with what else is connected before and after it. -/
def spiPorts (config : SoftwareSpiConfig) (extDevice : Option (ExtDevice Unit U8 D))
    (earlier later : GpioPorts D) : GpioPorts (SpiWorld D) :=
  (SoftwareSpi.register config extDevice earlier.besideSpi).append later.besideSpi

/-! ## Decoding -/

/-- A line of the bus that firmware drives. -/
inductive SpiLine where
  | cs
  | clk
  | mosi
  deriving DecidableEq, Repr

/-- The lines are on different pins. -/
structure SoftwareSpiConfig.Separate (config : SoftwareSpiConfig) : Prop where
  cs_clk : config.cs ≠ some config.clk
  cs_mosi : config.cs ≠ some config.mosi
  clk_mosi : config.clk ≠ config.mosi

/-- The line on a pin. -/
def SoftwareSpiConfig.lineAt (config : SoftwareSpiConfig) (pin : Pin) : Option SpiLine :=
  if config.cs = some pin then some .cs
  else if config.clk = pin then some .clk
  else if config.mosi = pin then some .mosi
  else none

/-- What the decoding depends on. -/
structure SpiDecoder where
  cs : Bool
  clk : Bool
  mosi : Bool
  dataMosi : U8
  bitIndex : ℕ
  handed : List U8
  deriving DecidableEq, Repr

/-- The next bit of a byte. -/
def shiftIn (data : U8) (bit : Bool) : U8 := (data <<< 1) ||| (if bit then 1 else 0)

namespace SpiDecoder

def shift (c : SpiDecoder) : SpiDecoder :=
  let dataMosi := shiftIn c.dataMosi c.mosi
  if c.bitIndex + 1 = 8 then
    { c with dataMosi := dataMosi, bitIndex := 0, handed := c.handed ++ [dataMosi] }
  else { c with dataMosi := dataMosi, bitIndex := c.bitIndex + 1 }

/-- A line is driven. -/
def drive (c : SpiDecoder) : SpiLine × Bool → SpiDecoder
  | (.cs, level) =>
    if c.cs && !level then ⟨level, false, false, 0, 0, c.handed⟩ else { c with cs := level }
  | (.clk, level) =>
    if c.cs then c else { (if !c.clk && level then c.shift else c) with clk := level }
  | (.mosi, level) => if c.cs then c else { c with mosi := level }

end SpiDecoder

namespace SpiWorld

def decoder (w : SpiWorld D) : SpiDecoder :=
  ⟨w.spi.cs, w.spi.clk, w.spi.mosi, w.spi.dataMosi, w.spi.bitIndex, w.handed⟩

lemma decoder_writeCs (w : SpiWorld D) (level : Bool) :
    (w.writeCs level).decoder = w.decoder.drive (.cs, level) := by
  unfold writeCs decoder SpiDecoder.drive
  dsimp only
  split_ifs <;> rfl

lemma decoder_clockRise (extDevice : Option (ExtDevice Unit U8 D)) (w : SpiWorld D) :
    (w.clockRise extDevice).decoder = w.decoder.shift := by
  unfold clockRise decoder SpiDecoder.shift shiftIn
  dsimp only
  by_cases hlast : w.spi.bitIndex + 1 = 8
  · rw [if_pos hlast, if_pos hlast]
  · rw [if_neg hlast, if_neg hlast]

lemma decoder_writeClk (extDevice : Option (ExtDevice Unit U8 D)) (w : SpiWorld D) (level : Bool) :
    (w.writeClk extDevice level).decoder = w.decoder.drive (.clk, level) := by
  unfold writeClk SpiDecoder.drive
  dsimp only
  by_cases hcs : w.spi.cs = true
  · rw [if_pos hcs, if_pos (show w.decoder.cs = true from hcs)]
  · rw [if_neg hcs, if_neg (show ¬ w.decoder.cs = true from hcs)]
    have hrise := w.decoder_clockRise extDevice
    by_cases hedge : (!w.spi.clk && level) = true
    · rw [if_pos hedge, if_pos (show (!w.decoder.clk && level) = true from hedge), ← hrise]
      rfl
    · rw [if_neg hedge, if_neg (show ¬ (!w.decoder.clk && level) = true from hedge)]
      rfl

lemma decoder_writeMosi (w : SpiWorld D) (level : Bool) :
    (w.writeMosi level).decoder = w.decoder.drive (.mosi, level) := by
  unfold writeMosi decoder SpiDecoder.drive
  dsimp only
  split_ifs <;> rfl

/-- Telling a pin's callbacks among those of its port. -/
def tell (pin : ℕ) (level : Bool) (entries : List (Fin 16 × (Bool → SpiWorld D → SpiWorld D)))
    (w : SpiWorld D) : SpiWorld D :=
  entries.foldl (fun w (pinCb, cb) => if pinCb.val = pin then cb level w else w) w

lemma tell_append (pin : ℕ) (level : Bool)
    (entries later : List (Fin 16 × (Bool → SpiWorld D → SpiWorld D))) (w : SpiWorld D) :
    tell pin level (entries ++ later) w = tell pin level later (tell pin level entries w) :=
  List.foldl_append

/-- The callbacks of the others. -/
lemma decoder_tell_beside (pin : ℕ) (level : Bool) (gpio : GpioPorts D) (port : Fin 11)
    (w : SpiWorld D) :
    (tell pin level (gpio.besideSpi.writeCallbacks port) w).decoder = w.decoder := by
  unfold GpioPorts.besideSpi
  dsimp only
  induction gpio.writeCallbacks port generalizing w with
  | nil => rfl
  | cons entry entries ih =>
    refine (ih _).trans ?_
    dsimp only
    split_ifs <;> rfl

/-- The callbacks of the controller at a port. -/
def callbacksAt (config : SoftwareSpiConfig) (extDevice : Option (ExtDevice Unit U8 D))
    (port : Fin 11) :
    List (Fin 16 × (Bool → SpiWorld D → SpiWorld D)) :=
  (match config.cs with
    | some cs => if cs.port = port then [(cs.pin, writeCs)] else []
    | none => []) ++
  (if config.clk.port = port then [(config.clk.pin, writeClk extDevice)] else []) ++
  (if config.mosi.port = port then [(config.mosi.pin, writeMosi)] else [])

lemma writeCallbacks_addWriteCallback (gpio : GpioPorts D) (pin : Pin) (cb : Bool → D → D)
    (port : Fin 11) :
    (gpio.addWriteCallback pin cb).writeCallbacks port =
      gpio.writeCallbacks port ++ if pin.port = port then [(pin.pin, cb)] else [] := by
  unfold GpioPorts.addWriteCallback
  dsimp only
  by_cases hport : pin.port = port
  · subst hport
    rw [Function.update_self, if_pos rfl]
  · rw [Function.update_of_ne (Ne.symm hport), if_neg hport, List.append_nil]

lemma writeCallbacks_register (config : SoftwareSpiConfig)
    (extDevice : Option (ExtDevice Unit U8 D)) (gpio : GpioPorts (SpiWorld D)) (port : Fin 11) :
    (SoftwareSpi.register config extDevice gpio).writeCallbacks port =
      gpio.writeCallbacks port ++ callbacksAt config extDevice port := by
  have hread : ∀ (gpio : GpioPorts (SpiWorld D)) (pin : Pin) (cb : SpiWorld D → Bool × SpiWorld D),
      (gpio.addReadCallback pin cb).writeCallbacks = gpio.writeCallbacks := fun _ _ _ => rfl
  unfold SoftwareSpi.register callbacksAt
  dsimp only
  rw [writeCallbacks_addWriteCallback, hread, writeCallbacks_addWriteCallback]
  cases config.cs with
  | none => simp
  | some cs =>
    dsimp only
    rw [writeCallbacks_addWriteCallback]
    simp

/-- One callback is told if the pin is its own. -/
lemma tell_single (cb : Bool → SpiWorld D → SpiWorld D) (own pin : Pin) (level : Bool)
    (w : SpiWorld D) :
    tell pin.pin.val level (if own.port = pin.port then [(own.pin, cb)] else []) w =
      if own = pin then cb level w else w := by
  by_cases hown : own = pin
  · subst hown
    rw [if_pos rfl, if_pos rfl]
    exact if_pos rfl
  · rw [if_neg hown]
    by_cases hport : own.port = pin.port
    · have hpin : ¬ own.pin.val = pin.pin.val := fun h => hown (Pin.ext hport (Fin.ext h))
      rw [if_pos hport]
      exact if_neg hpin
    · rw [if_neg hport]
      rfl

/-- The callbacks of the controller drive the line of the pin. -/
lemma decoder_tell_callbacksAt {config : SoftwareSpiConfig} (hpins : config.Separate)
    (extDevice : Option (ExtDevice Unit U8 D)) (w : SpiWorld D) (pin : Pin) (level : Bool) :
    (tell pin.pin.val level (callbacksAt config extDevice pin.port) w).decoder =
      match config.lineAt pin with
      | some line => w.decoder.drive (line, level)
      | none => w.decoder := by
  have hcs : ∀ w : SpiWorld D, tell pin.pin.val level (match config.cs with
      | some cs => if cs.port = pin.port then [(cs.pin, writeCs)] else []
      | none => []) w = if config.cs = some pin then w.writeCs level else w := by
    intro w
    cases config.cs with
    | none => simp [tell]
    | some cs =>
      dsimp only
      rw [tell_single]
      simp
  unfold callbacksAt SoftwareSpiConfig.lineAt
  rw [tell_append, tell_append, hcs, tell_single, tell_single]
  by_cases hline : config.cs = some pin
  · have hclk : config.clk ≠ pin := fun h => hpins.cs_clk (by rw [hline, h])
    have hmosi : config.mosi ≠ pin := fun h => hpins.cs_mosi (by rw [hline, h])
    rw [if_pos hline, if_pos hline, if_neg hclk, if_neg hmosi]
    exact w.decoder_writeCs level
  · rw [if_neg hline, if_neg hline]
    by_cases hclk : config.clk = pin
    · have hmosi : config.mosi ≠ pin := fun h => hpins.clk_mosi (hclk.trans h.symm)
      rw [if_pos hclk, if_pos hclk, if_neg hmosi]
      exact w.decoder_writeClk extDevice level
    · rw [if_neg hclk, if_neg hclk]
      by_cases hmosi : config.mosi = pin
      · rw [if_pos hmosi, if_pos hmosi]
        exact w.decoder_writeMosi level
      · rw [if_neg hmosi, if_neg hmosi]

/-- **A pin that is driven** drives its line, if it has one. -/
lemma decoder_writePort {config : SoftwareSpiConfig} (hpins : config.Separate)
    (extDevice : Option (ExtDevice Unit U8 D)) (earlier later : GpioPorts D) (w : SpiWorld D)
    (pin : Pin) (level : Bool) :
    ((spiPorts config extDevice earlier later).writePort w pin.port pin.pin.val level).decoder =
      match config.lineAt pin with
      | some line => w.decoder.drive (line, level)
      | none => w.decoder := by
  change (tell pin.pin.val level
    ((SoftwareSpi.register config extDevice earlier.besideSpi).writeCallbacks
    pin.port ++ later.besideSpi.writeCallbacks pin.port) w).decoder = _
  rw [writeCallbacks_register, tell_append, tell_append, decoder_tell_beside,
    decoder_tell_callbacksAt hpins, decoder_tell_beside]

end SpiWorld

end Stm32Emulator
