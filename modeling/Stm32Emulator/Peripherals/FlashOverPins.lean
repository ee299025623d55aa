import Stm32Emulator.Peripherals.SpiFrames

/-!
# Reading the flash

Firmware reads a flash over three pins and a fourth one that it samples, or with the frames of the
SPI controller.  Both give the content of the file, from the registers of the ports down to the
bytes.

On the pins a bit is three writes to `BSRR` and a read of `IDR` (`GpioBoard.bitBang`), which for the
controller of the pins is one `shiftBit`.
-/

namespace Stm32Emulator

variable {D : Type}

/-! ## A bit at the registers -/

/-- The write to `BSRR` that drives one pin. -/
def setPin (pin : Pin) (level : Bool) : GpioWrite :=
  ⟨pin.port, 0x0018, 1#32 <<< (if level then pin.pin.val else pin.pin.val + 16)⟩

namespace GpioBoard

/-- Firmware reads `IDR` and looks at one pin. -/
def readPin (ports : GpioPorts D) (s : GpioBoard D) (pin : Pin) : Bool × GpioBoard D :=
  let (d, value) := (s.gpio pin.port).read ports s.world 0x0010
  (value.getLsbD pin.pin, { s with world := d })

/-- Firmware sets the data line, raises the clock, samples the other data line, and lowers the
clock. -/
def bitBang (config : SoftwareSpiConfig) (ports : GpioPorts D) (bit : Bool) (s : GpioBoard D) :
    Bool × GpioBoard D :=
  let s := (s.write ports (setPin config.mosi bit)).write ports (setPin config.clk true)
  let (miso, s) := s.readPin ports config.miso
  (miso, s.write ports (setPin config.clk false))

def bitBangBits (config : SoftwareSpiConfig) (ports : GpioPorts D) :
    List Bool → GpioBoard D → List Bool × GpioBoard D
  | [], s => ([], s)
  | bit :: bits, s =>
    let (miso, s) := s.bitBang config ports bit
    let (later, s) := bitBangBits config ports bits s
    (miso :: later, s)

def bitBangByte (config : SoftwareSpiConfig) (ports : GpioPorts D) (v : U8) (s : GpioBoard D) :
    U8 × GpioBoard D :=
  let (bits, s) := s.bitBangBits config ports (SpiWorld.bitsOf v)
  (SpiReference.byteOf bits, s)

def bitBangBytes (config : SoftwareSpiConfig) (ports : GpioPorts D) :
    List U8 → GpioBoard D → List U8 × GpioBoard D
  | [], s => ([], s)
  | v :: bytes, s =>
    let (answer, s) := s.bitBangByte config ports v
    let (answers, s) := bitBangBytes config ports bytes s
    (answer :: answers, s)

/-- Firmware raises and lowers `CS`. -/
def select (ports : GpioPorts D) (cs : Pin) (s : GpioBoard D) : GpioBoard D :=
  (s.write ports (setPin cs true)).write ports (setPin cs false)

lemma driven_setPin (s : GpioBoard D) (pin : Pin) (level : Bool) :
    s.driven (setPin pin level) = [(pin.pin, level)] := by
  have hpins : ∀ (i : Fin 16) (level : Bool),
      (Gpio.pinsIn ((1#32 <<< (if level then i.val else i.val + 16)) &&& 0xffff#32)).map
        (·, true) ++
        (Gpio.pinsIn ((1#32 <<< (if level then i.val else i.val + 16)) >>> 16)).map (·, false) =
          [(i, level)] := by
    decide +kernel
  exact hpins pin.pin level

lemma world_setPin {s : GpioBoard D} (h : s.Named) (ports : GpioPorts D) (pin : Pin)
    (level : Bool) :
    (s.write ports (setPin pin level)).world =
      ports.writePort s.world pin.port pin.pin.val level := by
  rw [world_write h, driven_setPin]
  rfl

end GpioBoard

/-! ## The pins of the controller -/

namespace SpiWorld

/-- Driving a line of the bus. -/
def driveLine (extDevice : Option (ExtDevice Unit U8 D)) (level : Bool) (w : SpiWorld D) :
    SpiLine → SpiWorld D
  | .cs => w.writeCs level
  | .clk => w.writeClk extDevice level
  | .mosi => w.writeMosi level

variable {config : SoftwareSpiConfig} {extDevice : Option (ExtDevice Unit U8 D)} {w : SpiWorld D}

/-- The callbacks of the controller for a pin drive its line. -/
lemma tell_callbacksAt (hpins : config.Separate) {pin : Pin} {line : SpiLine}
    (hline : config.lineAt pin = some line) (level : Bool) :
    tell pin.pin.val level (callbacksAt config extDevice pin.port) w =
      w.driveLine extDevice level line := by
  unfold callbacksAt
  rw [tell_append, tell_append, tell_single, tell_single]
  unfold SoftwareSpiConfig.lineAt at hline
  by_cases hiscs : config.cs = some pin
  · have hclk : config.clk ≠ pin := fun h => hpins.cs_clk (by rw [hiscs, h])
    have hmosi : config.mosi ≠ pin := fun h => hpins.cs_mosi (by rw [hiscs, h])
    rw [if_pos hiscs] at hline
    cases hline
    rw [if_neg hclk, if_neg hmosi, hiscs]
    dsimp only
    rw [tell_single, if_pos rfl]
    rfl
  · have hcs : ∀ cs, config.cs = some cs → cs ≠ pin := by
      rintro cs hsome rfl
      exact hiscs hsome
    rw [if_neg hiscs] at hline
    have hrest : ∀ w : SpiWorld D, (if config.mosi = pin then writeMosi level
        (if config.clk = pin then writeClk extDevice level w else w) else
        (if config.clk = pin then writeClk extDevice level w else w)) =
        w.driveLine extDevice level line := by
      intro w
      split_ifs at hline with hisclk hismosi <;> cases hline
      · rw [if_pos hisclk, if_neg fun h => hpins.clk_mosi (hisclk.trans h.symm)]
        rfl
      · rw [if_neg hisclk, if_pos hismosi]
        rfl
    cases hcfg : config.cs with
    | none => exact hrest w
    | some cs =>
      dsimp only
      rw [tell_single, if_neg (hcs cs hcfg)]
      exact hrest w

end SpiWorld

/-- The ports with the controller of the pins and nothing else. -/
abbrev busPorts (config : SoftwareSpiConfig) (extDevice : Option (ExtDevice Unit U8 D)) :
    GpioPorts (SpiWorld D) :=
  spiPorts config extDevice .default .default

section

variable {config : SoftwareSpiConfig} {extDevice : Option (ExtDevice Unit U8 D)}
    {s : GpioBoard (SpiWorld D)}

lemma writePort_busPorts (hpins : config.Separate) {pin : Pin} {line : SpiLine}
    (hline : config.lineAt pin = some line) (w : SpiWorld D) (level : Bool) :
    (busPorts config extDevice).writePort w pin.port pin.pin.val level =
      w.driveLine extDevice level line := by
  have hcallbacks : (busPorts config extDevice).writeCallbacks pin.port =
      SpiWorld.callbacksAt config extDevice pin.port := by
    change (SoftwareSpi.register config extDevice GpioPorts.default.besideSpi).writeCallbacks
      pin.port ++ [] = _
    rw [SpiWorld.writeCallbacks_register, List.append_nil]
    rfl
  rw [GpioPorts.writePort, hcallbacks]
  exact SpiWorld.tell_callbacksAt hpins hline level

/-- Only the controller answers on its pin. -/
lemma readCallbacks_busPorts (port : Fin 11) : (busPorts config extDevice).readCallbacks port =
    if config.miso.port = port then [(config.miso.pin, SpiWorld.readMiso)] else [] := by
  have hwrite : ∀ (gpio : GpioPorts (SpiWorld D)) (pin : Pin) (cb : Bool → SpiWorld D → SpiWorld D),
      (gpio.addWriteCallback pin cb).readCallbacks = gpio.readCallbacks := fun _ _ _ => rfl
  change (SoftwareSpi.register config extDevice GpioPorts.default.besideSpi).readCallbacks
    port ++ [] = _
  unfold SoftwareSpi.register
  dsimp only
  rw [List.append_nil, hwrite, GpioPorts.addReadCallback, hwrite]
  have hnone : ∀ gpio : GpioPorts (SpiWorld D), gpio.readCallbacks = (fun _ => []) →
      Function.update gpio.readCallbacks config.miso.port
        (gpio.readCallbacks config.miso.port ++ [(config.miso.pin, SpiWorld.readMiso)]) port =
      if config.miso.port = port then [(config.miso.pin, SpiWorld.readMiso)] else [] := by
    intro gpio hgpio
    rw [hgpio]
    by_cases hport : config.miso.port = port
    · subst hport
      rw [Function.update_self, if_pos rfl, List.nil_append]
    · rw [Function.update_of_ne (Ne.symm hport), if_neg hport]
  dsimp only
  cases config.cs with
  | none => exact hnone _ rfl
  | some cs => exact hnone _ rfl

/-- Sampling the pin of the controller. -/
lemma readPin_miso (hnamed : s.Named) :
    s.readPin (busPorts config extDevice) config.miso = (s.world.readMiso.1, s) := by
  unfold GpioBoard.readPin Gpio.read GpioPorts.readPort
  rw [if_pos rfl, hnamed config.miso.port, readCallbacks_busPorts, if_pos rfl, List.foldl_cons,
    List.foldl_nil]
  refine Prod.ext ?_ rfl
  dsimp only
  have hbit : ∀ i : Fin 16, ((0#16 ||| 1#16 <<< i.val).setWidth 32).getLsbD i.val = true ∧
      ((0#16).setWidth 32).getLsbD i.val = false := by decide +kernel
  cases s.world.readMiso.1 with
  | false => exact (hbit config.miso.pin).2
  | true => exact (hbit config.miso.pin).1

lemma SoftwareSpiConfig.Separate.lineAt_clk (hpins : config.Separate) :
    config.lineAt config.clk = some .clk := by
  unfold lineAt
  rw [if_neg hpins.cs_clk, if_pos rfl]

lemma SoftwareSpiConfig.Separate.lineAt_mosi (hpins : config.Separate) :
    config.lineAt config.mosi = some .mosi := by
  unfold lineAt
  rw [if_neg hpins.cs_mosi, if_neg hpins.clk_mosi, if_pos rfl]

lemma SoftwareSpiConfig.lineAt_cs {cs : Pin} (hcs : config.cs = some cs) :
    config.lineAt cs = some .cs :=
  if_pos hcs

/-- A board that does to the controller of the pins what `f` does. -/
def Does {α : Type} (f : SpiWorld D → α × SpiWorld D) (s : GpioBoard (SpiWorld D))
    (r : α × GpioBoard (SpiWorld D)) : Prop :=
  r.2.Named ∧ r.1 = (f s.world).1 ∧ r.2.world = (f s.world).2

variable (extDevice)

lemma world_drive (hpins : config.Separate) (hnamed : s.Named) {pin : Pin} {line : SpiLine}
    (hline : config.lineAt pin = some line) (level : Bool) :
    (s.write (busPorts config extDevice) (setPin pin level)).Named ∧
      (s.write (busPorts config extDevice) (setPin pin level)).world =
        s.world.driveLine extDevice level line := by
  refine ⟨hnamed.write _ _, ?_⟩
  rw [GpioBoard.world_setPin hnamed, writePort_busPorts hpins hline]

/-- **A bit at the registers** is a bit of the controller. -/
lemma does_bitBang (hpins : config.Separate) (hnamed : s.Named) (bit : Bool) :
    Does (SpiWorld.shiftBit extDevice bit) s
      (s.bitBang config (busPorts config extDevice) bit) := by
  obtain ⟨hnamed₁, hworld₁⟩ := world_drive extDevice hpins hnamed hpins.lineAt_mosi bit
  obtain ⟨hnamed₂, hworld₂⟩ := world_drive extDevice hpins hnamed₁ hpins.lineAt_clk true
  obtain ⟨hnamed₃, hworld₃⟩ := world_drive extDevice hpins hnamed₂ hpins.lineAt_clk false
  unfold GpioBoard.bitBang
  dsimp only
  rw [readPin_miso hnamed₂]
  refine ⟨hnamed₃, ?_, ?_⟩
  · dsimp only
    rw [hworld₂, hworld₁]
    rfl
  · dsimp only
    rw [hworld₃, hworld₂, hworld₁]
    rfl

lemma does_bitBangBits (hpins : config.Separate) (hnamed : s.Named) (bits : List Bool) :
    Does (SpiWorld.shiftBits extDevice bits) s
      (s.bitBangBits config (busPorts config extDevice) bits) := by
  induction bits generalizing s with
  | nil => exact ⟨hnamed, rfl, rfl⟩
  | cons bit bits ih =>
    obtain ⟨hnamed', hmiso, hworld⟩ := does_bitBang extDevice hpins hnamed bit
    obtain ⟨hlast, hlater, hafter⟩ := ih hnamed'
    rw [hworld] at hlater hafter
    exact ⟨hlast, congrArg₂ List.cons hmiso hlater, hafter⟩

lemma does_bitBangBytes (hpins : config.Separate) (hnamed : s.Named) (bytes : List U8) :
    Does (SpiWorld.shiftBytes extDevice bytes) s
      (s.bitBangBytes config (busPorts config extDevice) bytes) := by
  induction bytes generalizing s with
  | nil => exact ⟨hnamed, rfl, rfl⟩
  | cons v bytes ih =>
    obtain ⟨hnamed', hbits, hworld⟩ := does_bitBangBits extDevice hpins hnamed (SpiWorld.bitsOf v)
    obtain ⟨hlast, hlater, hafter⟩ := ih hnamed'
    rw [hworld] at hlater hafter
    exact ⟨hlast, congrArg₂ List.cons (congrArg SpiReference.byteOf hbits) hlater, hafter⟩

/-- `CS` goes high and falls. -/
lemma world_select (hpins : config.Separate) (hnamed : s.Named) {cs : Pin}
    (hcs : config.cs = some cs) :
    (s.select (busPorts config extDevice) cs).Named ∧
      (s.select (busPorts config extDevice) cs).world = (s.world.writeCs true).writeCs false := by
  obtain ⟨hnamed₁, hworld₁⟩ :=
    world_drive extDevice hpins hnamed (SoftwareSpiConfig.lineAt_cs hcs) true
  obtain ⟨hnamed₂, hworld₂⟩ :=
    world_drive extDevice hpins hnamed₁ (SoftwareSpiConfig.lineAt_cs hcs) false
  rw [hworld₁] at hworld₂
  exact ⟨hnamed₂, hworld₂⟩

end

/-! ## The flash -/

namespace SpiFlash

/-- A flash that is not empty. -/
abbrev Chip := {flash : SpiFlash // flash.Valid}

variable {chip : Chip}

lemma device_read {v : U8} {flash : SpiFlash} (h : chip.val.read = some (v, flash)) :
    (device.read () chip).1 = v ∧ (device.read () chip).2.val = flash := by
  unfold device
  dsimp only
  split
  · next heq =>
    cases heq.symm.trans h
    exact ⟨rfl, rfl⟩
  · next heq => cases heq.symm.trans h

lemma device_write {v : U8} {flash : SpiFlash} (h : chip.val.write v = some flash) :
    (device.write () v chip).val = flash := by
  unfold device
  dsimp only
  split
  · next heq =>
    cases heq.symm.trans h
    rfl
  · next heq => cases heq.symm.trans h

/-- The byte of the content at an address, around its end. -/
def byteAt (chip : Chip) (addr : ℕ) : U8 := chip.val.content.getD (addr % chip.val.size) 0

/-- A reply streams the byte at its place, and goes on. -/
lemma streams_device_read {addr k : ℕ} (h : chip.val.Streams addr k) :
    (device.read () chip).1 = byteAt chip (addr + k) ∧
    (device.read () chip).2.val.Streams addr (k + 1) ∧
      (device.read () chip).2.val.content = chip.val.content ∧
      (device.read () chip).2.val.size = chip.val.size := by
  obtain ⟨hcmd, hreply⟩ := h
  obtain ⟨c, hc, hread⟩ := read_fileContent chip.property hreply
  obtain ⟨hv, hflash⟩ := device_read hread
  rw [hv, hflash]
  refine ⟨?_, ⟨hcmd, ?_⟩, rfl, rfl⟩
  · rw [byteAt, List.getD_eq_getElem?_getD, hc]
    rfl
  · dsimp only
    rw [Nat.mod_add_mod, Nat.add_assoc]

/-- One write and one read: what the device does between two answers. -/
lemma xfer_device (chip : Chip) (v : U8) :
    ∃ flash', chip.val.write v = some flash' ∧ Written chip.val v flash' ∧
    ∃ next : Chip, next.val = flash' ∧ SoftwareSpi.xfer (some device) chip v =
      ((device.read () next).2, (device.read () next).1) := by
  obtain ⟨flash', hwrite, hwritten⟩ := exists_write chip.property v
  exact ⟨flash', hwrite, hwritten, device.write () v chip, device_write hwrite, rfl⟩

/-- A read keeps the command that is being collected, and the content. -/
lemma device_read_kept (chip : Chip) : (device.read () chip).2.val.cmd = chip.val.cmd ∧
    (device.read () chip).2.val.content = chip.val.content ∧
    (device.read () chip).2.val.size = chip.val.size := by
  obtain ⟨v, reply, hread, -⟩ := read_spec chip.property
  rw [(device_read hread).2]
  exact ⟨rfl, rfl, rfl⟩

/-- The flash with the same file. -/
def SameFile (chip chip' : Chip) : Prop :=
  chip'.val.content = chip.val.content ∧ chip'.val.size = chip.val.size

lemma SameFile.byteAt {chip chip' : Chip} (h : SameFile chip chip') :
    byteAt chip' = byteAt chip := by
  funext addr
  unfold SpiFlash.byteAt
  rw [h.1, h.2]

lemma SameFile.trans {chip chip' chip'' : Chip} (h : SameFile chip chip')
    (h' : SameFile chip' chip'') :
    SameFile chip chip'' :=
  ⟨h'.1.trans h.1, h'.2.trans h.2⟩

/-- A byte keeps the file. -/
lemma sameFile_xfer (chip : Chip) (v : U8) :
    SameFile chip (SoftwareSpi.xfer (some device) chip v).1 := by
  obtain ⟨flash', -, hwritten, next, rfl, hxfer⟩ := xfer_device chip v
  obtain ⟨-, hcontent, hsize⟩ := device_read_kept next
  obtain ⟨-, hsize', hcontent'⟩ := hwritten.valid chip.property
  rw [hxfer]
  exact ⟨hcontent.trans hcontent', hsize.trans hsize'⟩

/-- The flash collects the arguments of a read. -/
lemma cmd_xfer {chip : Chip} (v : U8) :
    (chip.val.cmd = none → v = 0x03 →
      (SoftwareSpi.xfer (some device) chip v).1.val.cmd = some (.readData, [])) ∧
      ∀ args, chip.val.cmd = some (.readData, args) → args.length < 2 →
        (SoftwareSpi.xfer (some device) chip v).1.val.cmd = some (.readData, args ++ [v]) := by
  obtain ⟨flash', -, hwritten, next, rfl, hxfer⟩ := xfer_device chip v
  rw [hxfer, (device_read_kept next).1]
  refine ⟨hwritten.cmd_of_command, fun args hcmd hlength => ?_⟩
  rw [hwritten.eq_of_argument hcmd hlength]

/-- The answer `k` bytes after the address is on its way out. -/
structure Answers (chip : Chip) (addr k : ℕ) (answer : U8) (d : Chip) : Prop where
  same : SameFile chip d
  answer_eq : answer = byteAt chip (addr + k)
  streams : d.val.Streams addr (k + 1)

/-- The last argument of a read. -/
lemma answers_of_complete {chip d : Chip} {a b : U8} (hsame : SameFile chip d)
    (hcmd : d.val.cmd = some (.readData, [a, b])) (c : U8) :
    Answers chip (address a b c) 0 (SoftwareSpi.xfer (some device) d c).2
      (SoftwareSpi.xfer (some device) d c).1 := by
  obtain ⟨flash', -, hwritten, next, rfl, hxfer⟩ := xfer_device d c
  obtain ⟨-, hsize, hcontent⟩ := hwritten.valid d.property
  obtain ⟨hreply, hnone⟩ := hwritten.reply_of_complete hcmd
  have hstreams : next.val.Streams (address a b c) 0 := ⟨hnone, by rw [hreply, hsize]; rfl⟩
  have hnext : SameFile chip next := hsame.trans ⟨hcontent, hsize⟩
  obtain ⟨hv, hlater, hcontent', hsize'⟩ := streams_device_read hstreams
  rw [hxfer]
  exact ⟨hnext.trans ⟨hcontent', hsize'⟩, hv.trans (by rw [hnext.byteAt]), hlater⟩

/-- A byte that is no command. -/
lemma Answers.xfer {chip d : Chip} {addr k : ℕ} {answer v : U8} (h : Answers chip addr k answer d)
    (hv : Command.tryFrom v = none) :
    Answers chip addr (k + 1)
    (SoftwareSpi.xfer (some device) d v).2 (SoftwareSpi.xfer (some device) d v).1 := by
  obtain ⟨flash', -, hwritten, next, rfl, hxfer⟩ := xfer_device d v
  obtain rfl : next = d := Subtype.ext (hwritten.eq_of_ignored h.streams.1 hv)
  obtain ⟨hv, hlater, hcontent, hsize⟩ := streams_device_read h.streams
  rw [hxfer]
  exact ⟨h.same.trans ⟨hcontent, hsize⟩, hv.trans (by rw [h.same.byteAt]), hlater⟩

end SpiFlash

/-! ## A block -/

/-- A block of the file: its address, and the bytes that are sent while it comes in. -/
structure FlashBlock where
  a : U8
  b : U8
  c : U8
  dummies : List U8
  deriving DecidableEq, Repr

namespace FlashBlock

/-- What firmware sends for a block. -/
def sent (block : FlashBlock) : List U8 := 0x03 :: block.a :: block.b :: block.c :: block.dummies

def address (block : FlashBlock) : ℕ := SpiFlash.address block.a block.b block.c

/-- The bytes of the file, around its end. -/
def bytes (chip : SpiFlash.Chip) (block : FlashBlock) : List U8 :=
  (List.range block.dummies.length).map fun k => SpiFlash.byteAt chip (block.address + k)

/-- While a block comes in no byte starts a command. -/
def Quiet (block : FlashBlock) : Prop := ∀ v ∈ block.dummies, Command.tryFrom v = none

end FlashBlock

section

open SpiFlash

variable {chip d : Chip} {w : SpiWorld Chip} {answer : U8}

lemma shiftBytes_cons (v : U8) (bytes : List U8) :
    w.shiftBytes (some device) (v :: bytes) =
      ((w.shiftByte (some device) v).1 ::
        ((w.shiftByte (some device) v).2.shiftBytes (some device) bytes).1,
        ((w.shiftByte (some device) v).2.shiftBytes (some device) bytes).2) :=
  rfl

lemma shiftBytes_dummies {addr k : ℕ} {dummies : List U8} (h : w.Between [] answer d)
    (hanswers : Answers chip addr k answer d) (hquiet : ∀ v ∈ dummies, Command.tryFrom v = none) :
    (w.shiftBytes (some device) dummies).1 =
        (List.range' k dummies.length).map (fun k => byteAt chip (addr + k)) ∧
      ∃ answer d, (w.shiftBytes (some device) dummies).2.Between [] answer d ∧ SameFile chip d ∧
        d.val.cmd = none := by
  induction dummies generalizing w answer d k with
  | nil => exact ⟨rfl, answer, d, h, hanswers.same, hanswers.streams.1⟩
  | cons v dummies ih =>
    obtain ⟨hv, hquiet⟩ := List.forall_mem_cons.mp hquiet
    obtain ⟨hout, hbetween⟩ := h.shiftByte (some device) v
    obtain ⟨hlater, hend⟩ := ih hbetween (hanswers.xfer hv) hquiet
    refine ⟨?_, hend⟩
    rw [List.length_cons, List.range'_succ, List.map_cons, ← hanswers.answer_eq, ← hlater]
    exact congrArg (· :: _) hout

/-- **A block over the pins of the controller.** -/
lemma shiftBytes_block (h : w.Between [] answer d) (hsame : SameFile chip d)
    (hcmd : d.val.cmd = none) {block : FlashBlock} (hquiet : block.Quiet) :
    (w.shiftBytes (some device) block.sent).1.drop 4 = block.bytes chip ∧
      ∃ answer d, (w.shiftBytes (some device) block.sent).2.Between [] answer d ∧ SameFile chip d ∧
        d.val.cmd = none := by
  obtain ⟨a, b, c, dummies⟩ := block
  obtain ⟨-, h₁⟩ := h.shiftByte (some device) 0x03
  obtain ⟨-, h₂⟩ := h₁.shiftByte (some device) a
  obtain ⟨-, h₃⟩ := h₂.shiftByte (some device) b
  obtain ⟨-, h₄⟩ := h₃.shiftByte (some device) c
  have hcmd₁ := (cmd_xfer 0x03).1 hcmd rfl
  have hcmd₂ := (cmd_xfer a).2 [] hcmd₁ Nat.two_pos
  have hcmd₃ := (cmd_xfer b).2 [a] hcmd₂ Nat.one_lt_two
  have hsame₃ := ((hsame.trans (sameFile_xfer _ 0x03)).trans (sameFile_xfer _ a)).trans
    (sameFile_xfer _ b)
  obtain ⟨hbytes, hend⟩ := shiftBytes_dummies h₄ (answers_of_complete hsame₃ hcmd₃ c) hquiet
  unfold FlashBlock.sent FlashBlock.bytes
  rw [shiftBytes_cons, shiftBytes_cons, shiftBytes_cons, shiftBytes_cons, List.range_eq_range']
  exact ⟨hbytes, hend⟩

/-- The device of the pins has been asked for the next answer, that of `Spi` has not. -/
structure Ahead (w : SpiWorld Chip) (d : Chip) : Prop where
  between : w.Between [] (device.read () d).1 (device.read () d).2

lemma exists_ahead (d : Chip) : ∃ w : SpiWorld Chip, Ahead w d :=
  ⟨⟨{ SoftwareSpi.default with dataMiso := (device.read () d).1 }, (device.read () d).2, []⟩,
    ⟨rfl, rfl, rfl, (BitVec.shiftLeft_zero _).symm, ⟨0, rfl⟩, rfl⟩⟩

/-- Frames keep the device of the pins ahead by one answer. -/
lemma Ahead.frames (h : Ahead w d) (values : List U32) :
    Ahead (w.shiftBytes (some device) (values.map (·.setWidth 8))).2
      (Spi.frames (Spi.frame8 device) d values).2 := by
  induction values generalizing w d with
  | nil => exact h
  | cons value values ih => exact ih ⟨(h.between.shiftByte (some device) (value.setWidth 8)).2⟩

lemma exchanges_kept {spi : Spi Chip} (values : List U32) :
    (Spi.exchanges (spi, d) values).2.1.extDevice = spi.extDevice ∧
      (Spi.exchanges (spi, d) values).2.1.is16bits = spi.is16bits := by
  induction values generalizing spi d with
  | nil => exact ⟨rfl, rfl⟩
  | cons value values ih =>
    obtain ⟨hdevice, hframes⟩ := @ih (spi.write d 0x000c value).2 (spi.write d 0x000c value).1
    exact ⟨hdevice, hframes⟩

end

/-! ## Firmware that reads the flash -/

namespace FlashBlock

open SpiFlash

/-- Over the pins. -/
def overPins (config : SoftwareSpiConfig) (ports : GpioPorts (SpiWorld Chip)) (cs : Pin)
    (block : FlashBlock) (s : GpioBoard (SpiWorld Chip)) : List U8 × GpioBoard (SpiWorld Chip) :=
  let (answers, s) := (s.select ports cs).bitBangBytes config ports block.sent
  (answers.drop 4, s)

/-- With frames of eight bits. -/
def overFrames (block : FlashBlock) (p : Spi Chip × Chip) : List U8 × Spi Chip × Chip :=
  let (words, p) := Spi.exchanges p (block.sent.map (·.setWidth 32))
  ((words.drop 4).map Spi.lowByte, p)

/-- One block after the other. -/
def readAll {S : Type} (one : FlashBlock → S → List U8 × S) :
    List FlashBlock → S → List (List U8) × S
  | [], s => ([], s)
  | block :: blocks, s =>
    let (bytes, s) := one block s
    let (later, s) := readAll one blocks s
    (bytes :: later, s)

/-- The reader keeps an invariant and gives the bytes of each block. -/
lemma readAll_eq {S : Type} {one : FlashBlock → S → List U8 × S} {I : S → Prop} {chip : Chip}
    (hone : ∀ block s, I s → block.Quiet → (one block s).1 = block.bytes chip ∧ I (one block s).2)
    (blocks : List FlashBlock) (hquiet : ∀ block ∈ blocks, block.Quiet) {s : S} (h : I s) :
    (readAll one blocks s).1 = blocks.map (bytes chip) := by
  induction blocks generalizing s with
  | nil => rfl
  | cons block blocks ih =>
    obtain ⟨hblock, hquiet⟩ := List.forall_mem_cons.mp hquiet
    obtain ⟨hbytes, hnext⟩ := hone block s h hblock
    exact congrArg₂ List.cons hbytes (ih hquiet hnext)

/-- The flash has its file and collects no command. -/
def Idle (chip d : Chip) : Prop := SameFile chip d ∧ d.val.cmd = none

lemma Idle.device_read {chip d : Chip} (h : Idle chip d) : Idle chip (device.read () d).2 := by
  obtain ⟨hcmd, hcontent, hsize⟩ := device_read_kept d
  exact ⟨h.1.trans ⟨hcontent, hsize⟩, hcmd.trans h.2⟩

lemma Idle.of_device_read {chip d : Chip} (h : Idle chip (device.read () d).2) : Idle chip d := by
  obtain ⟨hcmd, hcontent, hsize⟩ := device_read_kept d
  exact ⟨h.1.trans ⟨hcontent.symm, hsize.symm⟩, hcmd.symm.trans h.2⟩

lemma overPins_eq {config : SoftwareSpiConfig} (hpins : config.Separate) {cs : Pin}
    (hcs : config.cs = some cs) {chip : Chip} {block : FlashBlock} {s : GpioBoard (SpiWorld Chip)}
    (hquiet : block.Quiet) (h : s.Named ∧ Idle chip s.world.world) :
    (block.overPins config (busPorts config (some device)) cs s).1 = block.bytes chip ∧
      (block.overPins config (busPorts config (some device)) cs s).2.Named ∧
      Idle chip (block.overPins config (busPorts config (some device)) cs s).2.world.world := by
  obtain ⟨hnamed, hsame, hcmd⟩ := h
  obtain ⟨hselected, hworld⟩ := world_select (some device) hpins hnamed hcs
  have hhigh : (s.world.writeCs true).world = s.world.world := rfl
  have hbetween : ((s.world.writeCs true).writeCs false).Between [] 0 s.world.world := by
    rw [← hhigh]
    exact (SpiWorld.windowBegins_writeCs rfl).between
  rw [← hworld] at hbetween
  obtain ⟨hbytes, answer, d, hend, hidle⟩ := shiftBytes_block hbetween hsame hcmd hquiet
  obtain ⟨hlast, hanswers, hafter⟩ := does_bitBangBytes (some device) hpins hselected block.sent
  unfold overPins
  dsimp only
  rw [hanswers, hafter, hend.world_eq]
  exact ⟨hbytes, hlast, hidle⟩

lemma map_setWidth (bytes : List U8) : (bytes.map (·.setWidth 32)).map (·.setWidth 8) = bytes := by
  rw [List.map_map]
  exact List.map_id'' Spi.lowByte_setWidth bytes

lemma overFrames_eq {chip : Chip} {block : FlashBlock} {p : Spi Chip × Chip} (hquiet : block.Quiet)
    (h : p.1.extDevice = some device ∧ p.1.is16bits = false ∧ Idle chip p.2) :
    (block.overFrames p).1 = block.bytes chip ∧ (block.overFrames p).2.1.extDevice = some device ∧
      (block.overFrames p).2.1.is16bits = false ∧ Idle chip (block.overFrames p).2.2 := by
  obtain ⟨spi, d⟩ := p
  obtain ⟨hdevice, hframes, hidle⟩ := h
  obtain ⟨hwords, hleft⟩ :=
    Spi.exchanges_of_8bits hdevice hframes d (block.sent.map (·.setWidth 32))
  obtain ⟨hdevice', hframes'⟩ := @exchanges_kept d spi (block.sent.map (·.setWidth 32))
  obtain ⟨w, hahead⟩ := exists_ahead d
  obtain ⟨hsame, hcmd⟩ := hidle.device_read
  obtain ⟨hbytes, answer, d', hend, hidle'⟩ := shiftBytes_block hahead.between hsame hcmd hquiet
  have hlater := (hahead.frames (block.sent.map (·.setWidth 32))).between
  have hanswers := @answers_agree Chip device w _ d _ rfl hahead.between
    (block.sent.map (·.setWidth 32))
  rw [map_setWidth] at hlater hanswers
  obtain rfl := hend.world_eq.symm.trans hlater.world_eq
  unfold overFrames
  dsimp only
  refine ⟨?_, hdevice'.trans hdevice, hframes'.trans hframes, ?_⟩
  · rw [hwords, hanswers, ← List.map_drop, hbytes]
    exact map_setWidth _
  · rw [hleft]
    exact Idle.of_device_read hidle'

/-- **Reading the flash.**  Firmware that reads any blocks gets the bytes of the file, around its
end, over the pins and with the frames of the controller, if the flash collects no command at
first. -/
theorem flash_blocks (config : SoftwareSpiConfig) (hpins : config.Separate) {cs : Pin}
    (hcs : config.cs = some cs) (spi : Spi Chip) (hdevice : spi.extDevice = some device)
    (hframes : spi.is16bits = false) (chip : Chip) (hidle : chip.val.cmd = none)
    (s : GpioBoard (SpiWorld Chip)) (hnamed : s.Named) (hworld : s.world.world = chip)
    (blocks : List FlashBlock) (hquiet : ∀ block ∈ blocks, block.Quiet) :
    (readAll (overPins config (busPorts config (some device)) cs) blocks s).1 =
      blocks.map (bytes chip) ∧
      (readAll overFrames blocks (spi, chip)).1 = blocks.map (bytes chip) := by
  have hstart : Idle chip chip := ⟨⟨rfl, rfl⟩, hidle⟩
  constructor
  · refine readAll_eq (I := fun s => s.Named ∧ Idle chip s.world.world) ?_ blocks hquiet
      ⟨hnamed, hworld ▸ hstart⟩
    exact fun block s h hquiet => overPins_eq hpins hcs hquiet h
  · refine readAll_eq (I := fun p => p.1.extDevice = some device ∧ p.1.is16bits = false ∧
      Idle chip p.2) ?_ blocks hquiet ⟨hdevice, hframes, hstart⟩
    exact fun block p h hquiet => overFrames_eq hquiet h

/-- A block around the end of a file of four bytes, and one at its start. -/
theorem flash_blocks_sample :
    let blocks : List FlashBlock := [⟨0, 0, 3, [0xff, 0]⟩, ⟨0, 0, 0, [0]⟩]
    let s : GpioBoard (SpiWorld Chip) := .new (.new validSample)
    (readAll (overPins portASpi (busPorts portASpi (some device)) ⟨0, 0⟩) blocks s).1 =
      [[0x28, 0x0a], [0x0a]] ∧
      (readAll overFrames blocks (spiFrames8 device, validSample)).1 = [[0x28, 0x0a], [0x0a]] :=
  flash_blocks portASpi ⟨by decide, by decide, by decide⟩ rfl
    (spiFrames8 device) rfl rfl validSample rfl _
    (GpioBoard.named_new _) rfl _ (by unfold Quiet; decide)

end FlashBlock

end Stm32Emulator
