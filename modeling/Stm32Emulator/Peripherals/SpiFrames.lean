import Stm32Emulator.Peripherals.SpiFlash
import Stm32Emulator.Peripherals.SpiWaveform

/-!
# Frames of the serial bus

A device has the same conversation over `Spi`, which reads it before each frame, and over
`SoftwareSpi`, which reads it after each byte and shifts the answer out with the next one, if its
first answer is zero (`spi_conversations_agree`).

In a frame of sixteen bits `Spi` reads the device twice before it writes both bytes.  The words are
those of two frames of eight bits as far as the second answer does not depend on the first byte
(`frames16_agree`).
-/

namespace Stm32Emulator

variable {D : Type}

/-! ## Frames of eight bits -/

namespace Spi

/-- Firmware writes the data register and reads it. -/
def exchange (p : Spi D × D) (value : U32) : U32 × Spi D × D :=
  let (spi, d) := p.1.write p.2 0x000c value
  ((spi.read 0x000c).2, (spi.read 0x000c).1, d)

/-- One exchange after the other: what is read, and what is left. -/
def exchanges (p : Spi D × D) : List U32 → List U32 × Spi D × D
  | [] => ([], p)
  | value :: values =>
    let (word, p) := exchange p value
    let (words, p) := exchanges p values
    (word :: words, p)

/-- The halves of a frame of sixteen bits. -/
def highByte (value : U32) : U8 := (value >>> 8).setWidth 8

def lowByte (value : U32) : U8 := value.setWidth 8

/-- Frames one after the other: the answers of the device, and what is left of it. -/
def frames (frame : D → U32 → U32 × D) (d : D) : List U32 → List U32 × D
  | [] => ([], d)
  | value :: values =>
    let (word, d) := frame d value
    let (words, d) := frames frame d values
    (word :: words, d)

/-- A frame of eight bits. -/
def frame8 (device : ExtDevice Unit U8 D) (d : D) (value : U32) : U32 × D :=
  let (v, d) := device.read () d
  (v.setWidth 32, device.write () (lowByte value) d)

/-- A frame of sixteen bits. -/
def frame16 (device : ExtDevice Unit U8 D) (d : D) (value : U32) : U32 × D :=
  let (h, d) := device.read () d
  let (l, d) := device.read () d
  ((h.setWidth 32 <<< 8) ||| l.setWidth 32,
    device.write () (lowByte value) (device.write () (highByte value) d))

section Frames

variable {spi : Spi D} {device : ExtDevice Unit U8 D}

lemma receive_send_of_8bits (hdevice : spi.extDevice = some device) (hframes : spi.is16bits = false)
    (d : D) (value : U32) :
    (spi.receive d).2 = (frame8 device d value).1 ∧
      spi.send (spi.receive d).1 value = (frame8 device d value).2 := by
  unfold receive send
  rw [hdevice, hframes]
  exact ⟨rfl, rfl⟩

lemma receive_send_of_16bits (hdevice : spi.extDevice = some device) (hframes : spi.is16bits = true)
    (d : D) (value : U32) :
    (spi.receive d).2 = (frame16 device d value).1 ∧
      spi.send (spi.receive d).1 value = (frame16 device d value).2 := by
  unfold receive send
  rw [hdevice, hframes]
  exact ⟨rfl, rfl⟩

/-- An exchange is a frame, and leaves the controller as it is but for the word. -/
lemma exchanges_eq_frames {frame : D → U32 → U32 × D}
    (hframe : ∀ spi : Spi D, spi.extDevice = some device → spi.is16bits = b → ∀ d value,
      (spi.receive d).2 = (frame d value).1 ∧ spi.send (spi.receive d).1 value = (frame d value).2)
    (hdevice : spi.extDevice = some device) (hframes : spi.is16bits = b) (d : D)
    (values : List U32) :
    (exchanges (spi, d) values).1 = (frames frame d values).1 ∧
      (exchanges (spi, d) values).2.2 = (frames frame d values).2 := by
  induction values generalizing spi d with
  | nil => exact ⟨rfl, rfl⟩
  | cons value values ih =>
    obtain ⟨hword, hleft⟩ := hframe spi hdevice hframes d value
    have hexchange : exchange (spi, d) value =
        ((frame d value).1, { spi with rxBuffer := (frame d value).1 }, (frame d value).2) := by
      rw [← hword, ← hleft]
      rfl
    obtain ⟨hwords, hlater⟩ :=
      @ih { spi with rxBuffer := (frame d value).1 } hdevice hframes (frame d value).2
    unfold exchanges frames
    rw [hexchange]
    exact ⟨congrArg _ hwords, hlater⟩

lemma exchanges_of_8bits (hdevice : spi.extDevice = some device) (hframes : spi.is16bits = false)
    (d : D) (values : List U32) :
    (exchanges (spi, d) values).1 = (frames (frame8 device) d values).1 ∧
      (exchanges (spi, d) values).2.2 = (frames (frame8 device) d values).2 :=
  exchanges_eq_frames (fun _ => receive_send_of_8bits) hdevice hframes d values

lemma exchanges_of_16bits (hdevice : spi.extDevice = some device) (hframes : spi.is16bits = true)
    (d : D) (values : List U32) :
    (exchanges (spi, d) values).1 = (frames (frame16 device) d values).1 ∧
      (exchanges (spi, d) values).2.2 = (frames (frame16 device) d values).2 :=
  exchanges_eq_frames (fun _ => receive_send_of_16bits) hdevice hframes d values

end Frames

end Spi

/-! ## Bytes over the pins -/

namespace SpiWorld

/-- Firmware shifts one bit: it sets the data line, raises the clock, reads the other data line, and
lowers the clock. -/
def shiftBit (extDevice : Option (ExtDevice Unit U8 D)) (bit : Bool) (w : SpiWorld D) :
    Bool × SpiWorld D :=
  let (miso, w) := ((w.writeMosi bit).writeClk extDevice true).readMiso
  (miso, w.writeClk extDevice false)

def shiftBits (extDevice : Option (ExtDevice Unit U8 D)) :
    List Bool → SpiWorld D → List Bool × SpiWorld D
  | [], w => ([], w)
  | bit :: bits, w =>
    let (miso, w) := w.shiftBit extDevice bit
    let (later, w) := shiftBits extDevice bits w
    (miso :: later, w)

/-- The bits of a byte, the highest first. -/
def bitsOf (v : U8) : List Bool := (List.range 8).map fun i => v.getLsbD (7 - i)

def shiftByte (extDevice : Option (ExtDevice Unit U8 D)) (v : U8) (w : SpiWorld D) :
    U8 × SpiWorld D :=
  let (bits, w) := w.shiftBits extDevice (bitsOf v)
  (SpiReference.byteOf bits, w)

/-- One byte after the other: what is shifted out by the device, and what is left. -/
def shiftBytes (extDevice : Option (ExtDevice Unit U8 D)) :
    List U8 → SpiWorld D → List U8 × SpiWorld D
  | [], w => ([], w)
  | v :: bytes, w =>
    let (answer, w) := w.shiftByte extDevice v
    let (answers, w) := shiftBytes extDevice bytes w
    (answer :: answers, w)

variable {extDevice : Option (ExtDevice Unit U8 D)} {w : SpiWorld D}

lemma msb_eq (m : U8) : (m &&& 0x80 != 0) = m.getLsbD 7 := by
  revert m
  decide

lemma byteOf_bitsOf (v : U8) : SpiReference.byteOf (bitsOf v) = v := by
  revert v
  decide

/-- The highest bits of a byte that is shifted out are its bits. -/
lemma bitsOf_eq (m : U8) : bitsOf m = (List.range 8).map fun i => (m <<< i).getLsbD 7 := by
  revert m
  decide

/-- A bit is the rise of the clock after the data line is set, and its fall. -/
lemma shiftBit_eq (hcs : w.spi.cs = false) (hclk : w.spi.clk = false) (bit : Bool) :
    w.shiftBit extDevice bit = (w.spi.dataMiso.getLsbD 7, if w.spi.bitIndex + 1 = 8 then
        ⟨{ dataMosi := shiftIn w.spi.dataMosi bit
           dataMiso := (SoftwareSpi.xfer extDevice w.world (shiftIn w.spi.dataMosi bit)).2
           bitIndex := 0
           cs := false
           clk := false
           mosi := bit
           miso := w.spi.dataMiso.getLsbD 7 },
          (SoftwareSpi.xfer extDevice w.world (shiftIn w.spi.dataMosi bit)).1,
          w.handed ++ [shiftIn w.spi.dataMosi bit]⟩
      else
        { w with spi :=
          { dataMosi := shiftIn w.spi.dataMosi bit
            dataMiso := w.spi.dataMiso <<< 1
            bitIndex := w.spi.bitIndex + 1
            cs := false
            clk := false
            mosi := bit
            miso := w.spi.dataMiso.getLsbD 7 } }) := by
  have hmsb := msb_eq w.spi.dataMiso
  unfold shiftBit readMiso writeClk writeMosi clockRise
  by_cases hlast : w.spi.bitIndex + 1 = 8
  · simpa [hcs, hclk, hlast, shiftIn] using hmsb
  · simpa [hcs, hclk, hlast, shiftIn] using hmsb

/-- A window in which `bits` were shifted since the last byte, of which the answer is `answer`. -/
structure Between (w : SpiWorld D) (bits : List Bool) (answer : U8) (d : D) : Prop where
  cs_eq : w.spi.cs = false
  clk_eq : w.spi.clk = false
  bitIndex_eq : w.spi.bitIndex = bits.length
  dataMiso_eq : w.spi.dataMiso = answer <<< bits.length
  data_eq : ∃ data, w.spi.dataMosi = bits.foldl shiftIn data
  world_eq : w.world = d

variable {bits : List Bool} {answer : U8} {d : D}

/-- A bit that is not the last of its byte. -/
lemma Between.shiftBit (h : w.Between bits answer d) (extDevice : Option (ExtDevice Unit U8 D))
    (hlast : bits.length + 1 ≠ 8) (bit : Bool) :
    (w.shiftBit extDevice bit).1 = (answer <<< bits.length).getLsbD 7 ∧
      (w.shiftBit extDevice bit).2.Between (bits ++ [bit]) answer d := by
  obtain ⟨data, hdata⟩ := h.data_eq
  rw [shiftBit_eq h.cs_eq h.clk_eq, h.bitIndex_eq, if_neg hlast, h.dataMiso_eq]
  have hlength : (bits ++ [bit]).length = bits.length + 1 := List.length_append
  refine ⟨rfl, rfl, rfl, hlength.symm, ?_, ⟨data, ?_⟩, h.world_eq⟩
  · rw [hlength, BitVec.shiftLeft_add]
  · rw [List.foldl_append, ← hdata]
    rfl

/-- The last bit exchanges a byte with the device. -/
lemma Between.shiftBit_last (h : w.Between bits answer d) (extDevice : Option (ExtDevice Unit U8 D))
    (hlast : bits.length + 1 = 8) (bit : Bool) :
    (w.shiftBit extDevice bit).1 = (answer <<< bits.length).getLsbD 7 ∧
      (w.shiftBit extDevice bit).2.Between []
        (SoftwareSpi.xfer extDevice d (SpiReference.byteOf (bits ++ [bit]))).2
        (SoftwareSpi.xfer extDevice d (SpiReference.byteOf (bits ++ [bit]))).1 := by
  obtain ⟨data, hdata⟩ := h.data_eq
  have hbyte : shiftIn w.spi.dataMosi bit = SpiReference.byteOf (bits ++ [bit]) := by
    rw [← foldl_shiftIn_of_length (List.length_append.trans hlast) data, List.foldl_append, ← hdata]
    rfl
  rw [shiftBit_eq h.cs_eq h.clk_eq, h.bitIndex_eq, if_pos hlast, h.dataMiso_eq, hbyte, h.world_eq]
  exact ⟨rfl, rfl, rfl, rfl, (BitVec.shiftLeft_zero _).symm, ⟨_, rfl⟩, rfl⟩

/-- The rest of a byte. -/
lemma Between.shiftBits (h : w.Between bits answer d) (extDevice : Option (ExtDevice Unit U8 D))
    {later : List Bool} (hne : later ≠ [])
    (hlength : bits.length + later.length = 8) :
    (w.shiftBits extDevice later).1 = (List.range' bits.length later.length).map
        (fun i => (answer <<< i).getLsbD 7) ∧
      (w.shiftBits extDevice later).2.Between []
        (SoftwareSpi.xfer extDevice d (SpiReference.byteOf (bits ++ later))).2
        (SoftwareSpi.xfer extDevice d (SpiReference.byteOf (bits ++ later))).1 := by
  induction later generalizing w bits with
  | nil => exact absurd rfl hne
  | cons bit later ih =>
    rw [List.length_cons] at hlength
    unfold SpiWorld.shiftBits
    dsimp only
    rw [List.length_cons, List.range'_succ, List.map_cons]
    by_cases hlast : later = []
    · subst hlast
      obtain ⟨hbit, hbetween⟩ := h.shiftBit_last extDevice hlength bit
      exact ⟨congrArg (fun b => [b]) hbit, hbetween⟩
    · have hpos := List.length_pos_iff.mpr hlast
      obtain ⟨hbit, hbetween⟩ := h.shiftBit extDevice (by omega) bit
      have happend : (bits ++ [bit]).length = bits.length + 1 := List.length_append
      obtain ⟨hbits, hlater⟩ := ih hbetween hlast (by omega)
      rw [happend] at hbits
      rw [List.append_assoc] at hlater
      exact ⟨congrArg₂ List.cons hbit hbits, hlater⟩

/-- **One byte**: the answer to the one before goes out, and the device is handed this one. -/
lemma Between.shiftByte (h : w.Between [] answer d) (extDevice : Option (ExtDevice Unit U8 D))
    (v : U8) :
    (w.shiftByte extDevice v).1 = answer ∧
      (w.shiftByte extDevice v).2.Between [] (SoftwareSpi.xfer extDevice d v).2
        (SoftwareSpi.xfer extDevice d v).1 := by
  have hne : bitsOf v ≠ [] := by
    unfold bitsOf
    exact List.cons_ne_nil _ _
  obtain ⟨hbits, hbetween⟩ := h.shiftBits extDevice hne rfl
  rw [List.nil_append, byteOf_bitsOf] at hbetween
  refine ⟨?_, hbetween⟩
  unfold SpiWorld.shiftByte
  dsimp only
  rw [hbits]
  calc SpiReference.byteOf ((List.range 8).map fun i => (answer <<< i).getLsbD 7)
      = SpiReference.byteOf (bitsOf answer) := by rw [bitsOf_eq]
    _ = answer := byteOf_bitsOf answer

/-- A window begins: `CS` and the clock are low, no bit has been shifted, and no answer waits. -/
structure WindowBegins (w : SpiWorld D) : Prop where
  cs_eq : w.spi.cs = false
  clk_eq : w.spi.clk = false
  bitIndex_eq : w.spi.bitIndex = 0
  dataMiso_eq : w.spi.dataMiso = 0

/-- So it does when `CS` falls, ... -/
lemma windowBegins_writeCs (hcs : w.spi.cs = true) : (w.writeCs false).WindowBegins := by
  unfold writeCs
  rw [hcs]
  exact ⟨rfl, rfl, rfl, rfl⟩

/-- ... and at the start, after which nothing raises `CS` if there is no chip select. -/
lemma windowBegins_new (d : D) : (new d).WindowBegins := ⟨rfl, rfl, rfl, rfl⟩

/-- The first answer of a window is zero. -/
lemma WindowBegins.between (h : w.WindowBegins) : w.Between [] 0 w.world :=
  ⟨h.cs_eq, h.clk_eq, h.bitIndex_eq, h.dataMiso_eq, ⟨_, rfl⟩, rfl⟩

end SpiWorld

/-! ## The same conversation -/

section Conversations

variable {device : ExtDevice Unit U8 D} {w : SpiWorld D} {answer : U8} {d d' : D}

/-- After a byte the device of `SoftwareSpi` has been asked for the next answer, that of `Spi` has
not. -/
lemma answers_agree (hread : device.read () d = (answer, d')) (h : w.Between [] answer d')
    (values : List U32) :
    (Spi.frames (Spi.frame8 device) d values).1 =
      (w.shiftBytes (some device) (values.map (·.setWidth 8))).1.map (·.setWidth 32) := by
  induction values generalizing w answer d d' with
  | nil => rfl
  | cons value values ih =>
    obtain ⟨hanswer, hbetween⟩ := h.shiftByte (some device) (value.setWidth 8)
    have hframe : Spi.frame8 device d value =
        (answer.setWidth 32, device.write () (value.setWidth 8) d') := by
      unfold Spi.frame8
      rw [hread]
      rfl
    rw [List.map_cons]
    unfold Spi.frames SpiWorld.shiftBytes
    dsimp only
    rw [hframe, List.map_cons, hanswer]
    exact congrArg _ (ih rfl hbetween)

/-- The conversation in a window that begins. -/
lemma exchanges_eq_shiftBytes (hfirst : device.read () d = (0, d)) {spi : Spi D}
    (hdevice : spi.extDevice = some device) (hframes : spi.is16bits = false) (hworld : w.world = d)
    (hbegins : w.WindowBegins) (values : List U32) :
    (Spi.exchanges (spi, d) values).1 =
      (w.shiftBytes (some device) (values.map (·.setWidth 8))).1.map (·.setWidth 32) := by
  have hbetween : w.Between [] 0 d := hworld ▸ hbegins.between
  rw [(Spi.exchanges_of_8bits hdevice hframes d values).1]
  exact answers_agree hfirst hbetween values

/-- **The same conversation.**  If the first answer of the device is zero and leaves it as it is,
then what is read from the data register after each byte is what is shifted out while `CS` is low,
after it has fallen and, without a chip select, from the start. -/
theorem spi_conversations_agree (device : ExtDevice Unit U8 D) (d : D)
    (hfirst : device.read () d = (0, d)) (spi : Spi D) (hdevice : spi.extDevice = some device)
    (hframes : spi.is16bits = false) (w : SpiWorld D) (hworld : w.world = d) (values : List U32) :
    (w.spi.cs = true → (Spi.exchanges (spi, d) values).1 =
      ((w.writeCs false).shiftBytes (some device) (values.map (·.setWidth 8))).1.map
        (·.setWidth 32)) ∧
    (w.WindowBegins → (Spi.exchanges (spi, d) values).1 =
      (w.shiftBytes (some device) (values.map (·.setWidth 8))).1.map (·.setWidth 32)) :=
  ⟨fun hcs => exchanges_eq_shiftBytes (w := w.writeCs false) hfirst hdevice hframes hworld
      (SpiWorld.windowBegins_writeCs hcs) values,
    fun hbegins => exchanges_eq_shiftBytes hfirst hdevice hframes hworld hbegins values⟩

end Conversations

namespace SpiFlash

/-- Every access to a valid flash succeeds, and leaves it valid. -/
lemma exists_read (flash : {flash : SpiFlash // flash.Valid}) :
    ∃ r, flash.val.read = some r ∧ r.2.Valid := by
  obtain ⟨c, reply, hread, hvalid⟩ := read_spec flash.property
  exact ⟨_, hread, hvalid⟩

lemma exists_valid_write (flash : {flash : SpiFlash // flash.Valid}) (v : U8) :
    ∃ flash', flash.val.write v = some flash' ∧ flash'.Valid := by
  obtain ⟨flash', hwrite, hwritten⟩ := exists_write flash.property v
  exact ⟨flash', hwrite, (hwritten.valid flash.property).1⟩

/-- A flash as a device on the bus. -/
def device : ExtDevice Unit U8 {flash : SpiFlash // flash.Valid} where
  read _ flash :=
    match h : flash.val.read with
    | some (v, flash') => (v, ⟨flash', by
        obtain ⟨r, hread, hvalid⟩ := exists_read flash
        cases h.symm.trans hread
        exact hvalid⟩)
    | none => (0, flash)
  write _ v flash :=
    match h : flash.val.write v with
    | some flash' => ⟨flash', by
        obtain ⟨flash'', hwrite, hvalid⟩ := exists_valid_write flash v
        cases h.symm.trans hwrite
        exact hvalid⟩
    | none => flash

def validSample : {flash : SpiFlash // flash.Valid} := ⟨sampleSpiFlash, valid_new _ (by decide) _⟩

end SpiFlash

/-- A controller of frames of eight bits with a device. -/
def spiFrames8 (device : ExtDevice Unit U8 D) : Spi D := ⟨0, 0, false, some device⟩

/-- The identity of a flash, read over both: after `CS` has fallen, and from the start. -/
theorem spi_conversations_agree_flash :
    let w : SpiWorld _ := ⟨{ SoftwareSpi.default with cs := true }, SpiFlash.validSample, []⟩
    let answers :=
      (Spi.exchanges (spiFrames8 SpiFlash.device, SpiFlash.validSample) [0x9f, 0, 0, 0, 0]).1
    answers = [0x00, 0x00, 0xef, 0x40, 0x14] ∧
      answers =
        ((w.writeCs false).shiftBytes (some SpiFlash.device) [0x9f, 0, 0, 0, 0]).1.map
          (·.setWidth 32) ∧
      answers = ((SpiWorld.new SpiFlash.validSample).shiftBytes (some SpiFlash.device)
        [0x9f, 0, 0, 0, 0]).1.map (·.setWidth 32) :=
  ⟨by decide,
    (spi_conversations_agree SpiFlash.device SpiFlash.validSample rfl (spiFrames8 _) rfl rfl _ rfl
      [0x9f, 0, 0, 0, 0]).1 rfl,
    (spi_conversations_agree SpiFlash.device SpiFlash.validSample rfl (spiFrames8 _) rfl rfl _ rfl
      [0x9f, 0, 0, 0, 0]).2 (SpiWorld.windowBegins_new _)⟩

/-! ## Frames of sixteen bits -/

/-- What a device is asked for. -/
inductive SerialCall where
  | read
  | write (v : U8)
  deriving DecidableEq, Repr

/-- The byte of a write. -/
def SerialCall.byte? : SerialCall → Option U8
  | read => none
  | write v => some v

namespace ExtDevice

/-- A device with the calls to it. -/
def logged (device : ExtDevice Unit U8 D) : ExtDevice Unit U8 (D × List SerialCall) where
  read _ p := ((device.read () p.1).1, (device.read () p.1).2, p.2 ++ [.read])
  write _ v p := (device.write () v p.1, p.2 ++ [.write v])

/-- The device answers the same, and is left the same, whether it is read before a byte is written
or after. -/
def ReadsBefore (device : ExtDevice Unit U8 D) (v : U8) (d : D) : Prop :=
  device.read () (device.write () v d) =
    ((device.read () d).1, device.write () v (device.read () d).2)

end ExtDevice

namespace Spi

/-- The words of some bytes, the high one first. -/
def joined : List U32 → List U32
  | h :: l :: words => ((h <<< 8) ||| l) :: joined words
  | _ => []

/-- The frames of eight bits with the bytes of some words, the high one first. -/
def halves (values : List U32) : List U32 :=
  values.flatMap fun value => [(highByte value).setWidth 32, (lowByte value).setWidth 32]

/-- At every frame, the second read may as well come after the high byte. -/
def ReadsBefore (device : ExtDevice Unit U8 D) (d : D) : List U32 → Prop
  | [] => True
  | value :: values =>
    device.ReadsBefore (highByte value) (device.read () d).2 ∧
      ReadsBefore device (frame16 device d value).2 values

lemma lowByte_setWidth (v : U8) : lowByte (v.setWidth 32) = v := by
  unfold lowByte
  rw [BitVec.setWidth_setWidth_of_le v (by decide), BitVec.setWidth_eq]

section Words

variable {device : ExtDevice Unit U8 D} {d : D}

/-- The calls of one frame after the other. -/
lemma calls_of_frames {frame : D × List SerialCall → U32 → U32 × D × List SerialCall}
    {callsOf : U32 → List SerialCall}
    (hframe : ∀ p value, (frame p value).2.2 = p.2 ++ callsOf value) (p : D × List SerialCall)
    (values : List U32) :
    (frames frame p values).2.2 = p.2 ++ values.flatMap callsOf := by
  induction values generalizing p with
  | nil => exact (List.append_nil _).symm
  | cons value values ih =>
    unfold frames
    exact (ih _).trans (by rw [hframe, List.flatMap_cons, List.append_assoc])

lemma calls_frame8 (p : D × List SerialCall) (value : U32) :
    (frame8 device.logged p value).2.2 = p.2 ++ [.read, .write (lowByte value)] :=
  List.append_assoc p.2 _ _

lemma calls_frame16 (p : D × List SerialCall) (value : U32) : (frame16 device.logged p value).2.2 =
    p.2 ++ [.read, .read, .write (highByte value), .write (lowByte value)] := by
  unfold frame16 ExtDevice.logged
  simp only [List.append_assoc, List.cons_append, List.nil_append]

/-- The calls in two frames of eight bits each. -/
lemma calls_of_halves (d : D) (values : List U32) :
    (frames (frame8 device.logged) (d, []) (halves values)).2.2 =
      values.flatMap fun value =>
        [.read, .write (highByte value), .read, .write (lowByte value)] := by
  rw [calls_of_frames calls_frame8, List.nil_append]
  unfold halves
  rw [List.flatMap_assoc]
  refine List.flatMap_congr fun value _ => ?_
  rw [List.flatMap_cons, List.flatMap_singleton, lowByte_setWidth, lowByte_setWidth]
  rfl

/-- The answers and the device do not depend on the calls before. -/
lemma frames_logged {frame : {D : Type} → ExtDevice Unit U8 D → D → U32 → U32 × D}
    (hframe : ∀ (p : D × List SerialCall) value, (frame device.logged p value).1 =
      (frame device p.1 value).1 ∧
      (frame device.logged p value).2.1 = (frame device p.1 value).2)
    (p : D × List SerialCall) (values : List U32) :
    (frames (frame device.logged) p values).1 = (frames (frame device) p.1 values).1 ∧
      (frames (frame device.logged) p values).2.1 = (frames (frame device) p.1 values).2 := by
  induction values generalizing p with
  | nil => exact ⟨rfl, rfl⟩
  | cons value values ih =>
    obtain ⟨hword, hleft⟩ := hframe p value
    unfold frames
    dsimp only
    rw [(ih _).1, (ih _).2, hword, hleft]
    exact ⟨rfl, rfl⟩

/-- **Two frames of eight bits** are one of sixteen, if the second read may come after the high
byte. -/
lemma frame16_eq {value : U32} (hread : device.ReadsBefore (highByte value) (device.read () d).2) :
    let high := frame8 device d ((highByte value).setWidth 32)
    let low := frame8 device high.2 ((lowByte value).setWidth 32)
    frame16 device d value = ((high.1 <<< 8) ||| low.1, low.2) := by
  have hhigh : frame8 device d ((highByte value).setWidth 32) =
      ((device.read () d).1.setWidth 32,
        device.write () (highByte value) (device.read () d).2) := by
    unfold frame8
    rw [lowByte_setWidth]
  have hlow : frame8 device (device.write () (highByte value) (device.read () d).2)
      ((lowByte value).setWidth 32) = ((device.read () (device.read () d).2).1.setWidth 32,
        device.write () (lowByte value)
          (device.write () (highByte value) (device.read () (device.read () d).2).2)) := by
    unfold frame8
    rw [hread, lowByte_setWidth]
  dsimp only
  rw [hhigh, hlow]
  rfl

lemma frames16_eq {values : List U32} (hreads : ReadsBefore device d values) :
    (frames (frame16 device) d values).1 = joined (frames (frame8 device) d (halves values)).1 ∧
      (frames (frame16 device) d values).2 = (frames (frame8 device) d (halves values)).2 := by
  induction values generalizing d with
  | nil => exact ⟨rfl, rfl⟩
  | cons value values ih =>
    obtain ⟨hread, hlater⟩ := hreads
    obtain ⟨hwords, hleft⟩ := ih hlater
    have hframe := frame16_eq hread
    have hhalves : halves (value :: values) =
        (highByte value).setWidth 32 :: (lowByte value).setWidth 32 :: halves values := rfl
    rw [hframe] at hwords hleft
    rw [hhalves]
    unfold frames
    rw [hframe]
    exact ⟨congrArg _ hwords, hleft⟩

end Words

/-- **Frames of sixteen bits.**  The device gets the bytes of the words in order, the high one
first, and is read as often as in two frames of eight bits each, but twice before both bytes.  The
words and the device are the same if at every frame the second read may as well come after the high
byte. -/
theorem frames16_agree (device : ExtDevice Unit U8 D) (d : D) (spi spi' : Spi (D × List SerialCall))
    (hdevice : spi.extDevice = some device.logged) (hframes : spi.is16bits = true)
    (hdevice' : spi'.extDevice = some device.logged) (hframes' : spi'.is16bits = false)
    (values : List U32) :
    let words := exchanges (spi, d, []) values
    let bytes := exchanges (spi', d, []) (halves values)
    words.2.2.2 = values.flatMap (fun value =>
        [.read, .read, .write (highByte value), .write (lowByte value)]) ∧
      bytes.2.2.2 = values.flatMap (fun value =>
        [.read, .write (highByte value), .read, .write (lowByte value)]) ∧
      words.2.2.2.filterMap SerialCall.byte? = bytes.2.2.2.filterMap SerialCall.byte? ∧
      words.2.2.2.count .read = bytes.2.2.2.count .read ∧
      (ReadsBefore device d values → words.1 = joined bytes.1 ∧ words.2.2.1 = bytes.2.2.1) := by
  obtain ⟨hwords, hleft⟩ := exchanges_of_16bits hdevice hframes (d, []) values
  obtain ⟨hwords', hleft'⟩ := exchanges_of_8bits hdevice' hframes' (d, []) (halves values)
  have hcalls : (exchanges (spi, d, []) values).2.2.2 = values.flatMap (fun value =>
      [.read, .read, .write (highByte value), .write (lowByte value)]) := by
    rw [hleft, calls_of_frames calls_frame16, List.nil_append]
  have hcalls' : (exchanges (spi', d, []) (halves values)).2.2.2 = values.flatMap (fun value =>
      [.read, .write (highByte value), .read, .write (lowByte value)]) := by
    rw [hleft', calls_of_halves]
  refine ⟨hcalls, hcalls', ?_, ?_, fun hreads => ?_⟩
  · rw [hcalls, hcalls', List.filterMap_flatMap, List.filterMap_flatMap]
    rfl
  · rw [hcalls, hcalls', List.count_flatMap, List.count_flatMap]
    rfl
  · obtain ⟨hwords₁, hleft₁⟩ := frames16_eq hreads
    obtain ⟨hlogged, hloggedLeft⟩ :=
      @frames_logged D device frame16 (fun _ _ => ⟨rfl, rfl⟩) (d, []) values
    obtain ⟨hlogged', hloggedLeft'⟩ :=
      @frames_logged D device frame8 (fun _ _ => ⟨rfl, rfl⟩) (d, []) (halves values)
    rw [hwords, hwords', hleft, hleft', hlogged, hlogged', hloggedLeft, hloggedLeft']
    exact ⟨hwords₁, hleft₁⟩

end Spi

/-- A controller of frames of sixteen bits with a device. -/
def spiFrames16 (device : ExtDevice Unit U8 D) : Spi D := ⟨1 <<< 11, 0, false, some device⟩

/-- A device that counts what is written to it, and answers the same whatever that is. -/
def countingDevice : ExtDevice Unit U8 ℕ := ⟨fun _ d => (0x5a, d), fun _ _ d => d + 1⟩

theorem frames16_agree_counting :
    let words := Spi.exchanges (spiFrames16 countingDevice.logged, 0, []) [0x1234, 0xabcd]
    let bytes := Spi.exchanges (spiFrames8 countingDevice.logged, 0, [])
      (Spi.halves [0x1234, 0xabcd])
    words.1 = [0x5a5a, 0x5a5a] ∧ words.1 = Spi.joined bytes.1 ∧ words.2.2.1 = bytes.2.2.1 := by
  have hreads : Spi.ReadsBefore countingDevice 0 [0x1234, 0xabcd] := ⟨rfl, rfl, trivial⟩
  exact ⟨by
    decide, (Spi.frames16_agree countingDevice 0 (spiFrames16 _) (spiFrames8 _) rfl (by decide) rfl
    (by decide) [0x1234, 0xabcd]).2.2.2.2 hreads⟩

/-- The identity of a flash: in frames of sixteen bits it is read before it has seen the command, so
that its first byte comes one byte late, and the two reads of a frame come before its bytes. -/
theorem frames16_of_flash :
    let words := Spi.exchanges (spiFrames16 SpiFlash.device.logged, SpiFlash.validSample, [])
      [0x9f00, 0x0000]
    let bytes := Spi.exchanges (spiFrames8 SpiFlash.device.logged, SpiFlash.validSample, [])
      (Spi.halves [0x9f00, 0x0000])
    words.1 = [0x0000, 0x00ef] ∧ Spi.joined bytes.1 = [0x0000, 0xef40] ∧
    words.1 ≠ Spi.joined bytes.1 ∧
    words.2.2.2.take 4 = [.read, .read, .write 0x9f, .write 0] ∧
    bytes.2.2.2.take 4 = [.read, .write 0x9f, .read, .write 0] := by
  decide

end Stm32Emulator
