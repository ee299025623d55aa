import Stm32Emulator.Foundation.CheckedArithmetic
import Stm32Emulator.Displays.Framebuffer

/-!
# The touch screen

A byte with its first bit set asks for a coordinate of the touch, or for its pressure.  The
controller answers with twelve bits, the high ones first.

The position comes from the window system, and how it is turned into a reading from the
configuration.  A difference below zero, a quotient by zero and an operation that is not known are
`none`.  Which bytes the controller takes is said by `Accepts`.
-/

namespace Stm32Emulator

structure TouchscreenConfig where
  framebuffer : String
  flipX : Option Bool
  flipY : Option Bool
  swapXY : Option Bool
  scaleDown : Option U32
  deriving DecidableEq, Repr

structure Touchscreen where
  config : TouchscreenConfig
  framebuffer : Framebuffer RGB565
  reply : Option (List U8)

/-- What the window system and the guest do to a touch screen. -/
inductive TouchOp where
  | touched (position : Option (U16 × U16))
  | read
  | write (v : U8)
  deriving DecidableEq, Repr

namespace Touchscreen

inductive Operation where
  | measureX
  | measureY
  | measureZ1
  | measureZ2
  deriving DecidableEq, Repr

def Operation.tryFrom (v : U8) : Option Operation :=
  if v = 0b101 then some .measureX
  else if v = 0b001 then some .measureY
  else if v = 0b011 then some .measureZ1
  else if v = 0b100 then some .measureZ2
  else none

inductive Mode where
  | m12Bits
  | m8Bits
  deriving DecidableEq, Repr

def Mode.tryFrom (v : U8) : Option Mode :=
  if v = 0 then some .m12Bits else if v = 1 then some .m8Bits else none

inductive Power where
  | lowPower
  | refOffAdcOn
  | refOnAdcOff
  | alwaysOn
  deriving DecidableEq, Repr

def Power.tryFrom (v : U8) : Option Power :=
  if v = 0b00 then some .lowPower
  else if v = 0b01 then some .refOffAdcOn
  else if v = 0b10 then some .refOnAdcOff
  else if v = 0b11 then some .alwaysOn
  else none

structure Command where
  op : Operation
  mode : Mode
  differential : Bool
  power : Power
  deriving DecidableEq, Repr

/-- The start bit of a byte. -/
def startBit (value : U8) : Bool := value &&& 0b10000000 != 0

/-- The operation in a byte. -/
def opCode (value : U8) : U8 := (value >>> 4) &&& 0b111

/-- A byte without the start bit is no command, which is no failure. -/
def Command.tryFrom (value : U8) : Option (Option Command) :=
  if startBit value then do
    let op ← Operation.tryFrom (opCode value)
    let mode ← Mode.tryFrom ((value >>> 3) &&& 1)
    let power ← Power.tryFrom (value &&& 0b11)
    return some ⟨op, mode, (value >>> 2) &&& 1 ≠ 0, power⟩
  else some none

def new (config : TouchscreenConfig) (fbs : Framebuffers) : Option Touchscreen :=
  (fbs.get RGB565 config.framebuffer).map fun framebuffer => ⟨config, framebuffer, none⟩

def read (touchscreen : Touchscreen) : U8 × Touchscreen :=
  match touchscreen.reply with
  | some reply => (reply.headD 0, { touchscreen with reply := some reply.tail })
  | none => (0, touchscreen)

def max : U32 := 0xfff

/-- The operation with the coordinates exchanged, if that is configured. -/
def swapped (config : TouchscreenConfig) (op : Operation) : Operation :=
  match config.swapXY, op with
  | some true, .measureX => .measureY
  | some true, .measureY => .measureX
  | _, _ => op

/-- A position on the scale of twelve bits. -/
def measure (config : FramebufferConfig) (pos : U16 × U16) : Operation → Option U32
  | .measureX => (checkedMul (pos.1.setWidth 32) max).bind (checkedDiv · (config.width.setWidth 32))
  | .measureY =>
    (checkedMul (pos.2.setWidth 32) max).bind (checkedDiv · (config.height.setWidth 32))
  | .measureZ1 => some 10
  | .measureZ2 => some 10

def flipped (config : TouchscreenConfig) (op : Operation) (v : U32) : Option U32 :=
  match op, config.flipX, config.flipY with
  | .measureX, some true, _ => checkedSub max v
  | .measureY, _, some true => checkedSub max v
  | _, _, _ => some v

def scaledDown (config : TouchscreenConfig) (v : U32) : Option U32 :=
  match config.scaleDown with
  | some scaleDown => checkedDiv v scaleDown
  | none => some v

/-- Twelve bits, the most significant first. -/
def encode (v : U32) : List U8 := [(v >>> 4).setWidth 8, (v <<< 4).setWidth 8]

/-- The reading of an operation. -/
def reading (touchscreen : Touchscreen) (pos : U16 × U16) (op : Operation) : Option U32 := do
  let v ← measure touchscreen.framebuffer.config pos op
  let v ← flipped touchscreen.config op v
  scaledDown touchscreen.config v

def write (touchscreen : Touchscreen) (v : U8) : Option Touchscreen := do
  match ← Command.tryFrom v with
  | none => some touchscreen
  | some cmd =>
    match touchscreen.framebuffer.touchPosition with
    | none => some { touchscreen with reply := none }
    | some pos =>
      (touchscreen.reading pos (swapped touchscreen.config cmd.op)).map fun v =>
        { touchscreen with reply := some (encode v) }

def step (touchscreen : Touchscreen) : TouchOp → Option Touchscreen
  | .touched position =>
    some
      { touchscreen with framebuffer := { touchscreen.framebuffer with touchPosition := position } }
  | .read => some touchscreen.read.2
  | .write v => touchscreen.write v

def exec (touchscreen : Touchscreen) (ops : List TouchOp) : Option Touchscreen :=
  ops.foldlM step touchscreen

/-! ## What is asked of the controller -/

/-- The big-endian encoding of a number of twelve bits, aligned to the left. -/
def Encodes12 (reply : List U8) : Prop :=
  ∃ n < 2 ^ 12, reply = [BitVec.ofNat 8 (n / 2 ^ 4), BitVec.ofNat 8 (n % 2 ^ 4 * 2 ^ 4)]

/-- A write leaves the reply, clears it, or queues a new one of twelve bits. -/
def Queues (before after : Touchscreen) : Prop :=
  after.reply = before.reply ∨ after.reply = none ∨ ∃ reply, after.reply = some reply ∧
  Encodes12 reply

/-- The controller takes every byte of a run. -/
def TakesAll (start : Touchscreen) (ops : List TouchOp) : Prop :=
  ∀ history op, history ++ [op] <+: ops → ∃ before after, start.exec history = some before ∧
    before.step op = some after ∧ ((∃ v, op = .write v) → Queues before after)

/-- A coordinate that is flipped is not past the end of the scale. -/
def FlipsInRange (config : TouchscreenConfig) (width height : ℕ) (pos : U16 × U16)
    (op : Operation) : Prop :=
  (op = .measureX → config.flipX = some true → pos.1.toNat * 4095 / width ≤ 4095) ∧
    (op = .measureY → config.flipY = some true → pos.2.toNat * 4095 / height ≤ 4095)

/-- A byte that the controller takes: it is no command, or one of a known operation, which with a
touch has a reading. -/
def Accepts (config : TouchscreenConfig) (width height : ℕ) (position : Option (U16 × U16))
    (v : U8) : Prop :=
  startBit v = true → ∃ op, Operation.tryFrom (opCode v) = some op ∧
    ∀ pos, position = some pos →
      config.scaleDown ≠ some 0 ∧ FlipsInRange config width height pos (swapped config op)

/-- Where the touch is after operations. -/
def positionAfter (position : Option (U16 × U16)) (ops : List TouchOp) : Option (U16 × U16) :=
  ops.foldl (fun position op => match op with
    | .touched position => position
    | _ => position) position

/-! ## Readings -/

variable {touchscreen before after start : Touchscreen} {pos : U16 × U16} {op : Operation} {v : U8}

lemma setWidth_toNat (x : U16) : (x.setWidth 32).toNat = x.toNat := by
  rw [BitVec.toNat_setWidth, Nat.mod_eq_of_lt (x.isLt.trans (by decide))]

/-- The product of a position and the end of the scale is a word. -/
lemma measure_eq (x size : U16) (hsize : 0 < size.toNat) :
    ∃ z, (checkedMul (x.setWidth 32) max).bind (checkedDiv · (size.setWidth 32)) = some z ∧
      z.toNat = x.toNat * 4095 / size.toNat := by
  have hmax : max.toNat = 4095 := rfl
  have hx : x.toNat < 65536 := x.isLt
  obtain ⟨y, hy, hyval⟩ := checkedMul_eq_some (x := x.setWidth 32) (y := max) (by
    rw [setWidth_toNat, hmax]
    omega)
  have hne : size.setWidth 32 ≠ 0 := by
    intro h
    have hzero := congrArg BitVec.toNat h
    rw [setWidth_toNat] at hzero
    exact hsize.ne' hzero
  obtain ⟨z, hz, hzval⟩ := checkedDiv_eq_some (x := y) hne
  refine ⟨z, by rw [hy, Option.bind_some, hz], ?_⟩
  rw [hzval, hyval, setWidth_toNat, setWidth_toNat, hmax]

lemma checkedSub_isSome_iff (v : U32) : (checkedSub max v).isSome = true ↔ v.toNat ≤ 4095 := by
  constructor
  · intro h
    by_contra hgt
    rw [checkedSub_eq_none (show max.toNat < v.toNat from not_le.mp hgt)] at h
    cases h
  · intro h
    obtain ⟨z, hz, -⟩ := checkedSub_eq_some (x := max) (y := v) h
    rw [hz]
    rfl

lemma scaledDown_isSome_iff (config : TouchscreenConfig) (v : U32) :
    (scaledDown config v).isSome = true ↔ config.scaleDown ≠ some 0 := by
  unfold scaledDown
  rcases config.scaleDown with - | scaleDown
  · simp
  · by_cases hzero : scaleDown = 0
    · dsimp only
      rw [checkedDiv_eq_none hzero]
      simp [hzero]
    · obtain ⟨z, hz, -⟩ := checkedDiv_eq_some (x := v) hzero
      dsimp only
      rw [hz]
      simpa using hzero

/-- Only a coordinate is flipped. -/
lemma flipped_isSome_iff (config : TouchscreenConfig) (v : U32) :
    (flipped config op v).isSome = true ↔
      (op = .measureX → config.flipX = some true → v.toNat ≤ 4095) ∧
        (op = .measureY → config.flipY = some true → v.toNat ≤ 4095) := by
  unfold flipped
  split
  · next hflip =>
    rw [checkedSub_isSome_iff]
    simp [hflip]
  · next hflip =>
    rw [checkedSub_isSome_iff]
    simp [hflip]
  · next hx hy =>
    simp only [Option.isSome_some, true_iff]
    exact ⟨fun hop hflip => absurd hflip (hx hop), fun hop hflip => absurd hflip (hy hop)⟩

/-- When an operation has a reading. -/
lemma reading_isSome_iff (hw : 0 < touchscreen.framebuffer.config.width.toNat)
    (hh : 0 < touchscreen.framebuffer.config.height.toNat) :
    (touchscreen.reading pos op).isSome = true ↔ touchscreen.config.scaleDown ≠ some 0 ∧
      FlipsInRange touchscreen.config touchscreen.framebuffer.config.width.toNat
        touchscreen.framebuffer.config.height.toNat pos op := by
  obtain ⟨z, hz, hflips⟩ : ∃ z, measure touchscreen.framebuffer.config pos op = some z ∧
      ((flipped touchscreen.config op z).isSome = true ↔
        FlipsInRange touchscreen.config touchscreen.framebuffer.config.width.toNat
          touchscreen.framebuffer.config.height.toNat pos op) := by
    rcases op with - | - | - | -
    · obtain ⟨z, hz, hval⟩ := measure_eq pos.1 _ hw
      exact ⟨z, hz, by rw [flipped_isSome_iff, hval]; simp [FlipsInRange]⟩
    · obtain ⟨z, hz, hval⟩ := measure_eq pos.2 _ hh
      exact ⟨z, hz, by rw [flipped_isSome_iff, hval]; simp [FlipsInRange]⟩
    · exact ⟨10, rfl, by rw [flipped_isSome_iff]; simp [FlipsInRange]⟩
    · exact ⟨10, rfl, by rw [flipped_isSome_iff]; simp [FlipsInRange]⟩
  unfold reading
  rw [hz, ← hflips]
  simp only [Option.bind_eq_bind, Option.bind_some]
  rcases hflip : flipped touchscreen.config op z with - | y
  · simp
  · rw [Option.bind_some, scaledDown_isSome_iff]
    simp

/-- Whatever the reading is, its last twelve bits are encoded. -/
lemma encodes_encode (v : U32) : Encodes12 (encode v) := by
  refine ⟨v.toNat % 2 ^ 12, Nat.mod_lt _ (by decide), ?_⟩
  have hhigh : (v >>> 4).setWidth 8 = BitVec.ofNat 8 (v.toNat % 2 ^ 12 / 2 ^ 4) := by
    apply BitVec.eq_of_toNat_eq
    rw [BitVec.toNat_setWidth, BitVec.toNat_ushiftRight, BitVec.toNat_ofNat,
      Nat.shiftRight_eq_div_pow]
    omega
  have hlow : (v <<< 4).setWidth 8 = BitVec.ofNat 8 (v.toNat % 2 ^ 12 % 2 ^ 4 * 2 ^ 4) := by
    apply BitVec.eq_of_toNat_eq
    rw [BitVec.toNat_setWidth, BitVec.toNat_shiftLeft, BitVec.toNat_ofNat, Nat.shiftLeft_eq]
    omega
  rw [encode, hhigh, hlow]

/-! ## Commands -/

/-- Every mode and every power setting is known. -/
lemma tryFrom_start (hstart : startBit v = true) :
    Command.tryFrom v = none ∧ Operation.tryFrom (opCode v) = none ∨
      ∃ cmd, Command.tryFrom v = some (some cmd) ∧ Operation.tryFrom (opCode v) = some cmd.op := by
  have hknown : ∀ v : U8, (Mode.tryFrom ((v >>> 3) &&& 1)).isSome = true ∧
      (Power.tryFrom (v &&& 0b11)).isSome = true := by
    decide
  obtain ⟨hmode, hpower⟩ := hknown v
  obtain ⟨mode, hmode⟩ := Option.isSome_iff_exists.mp hmode
  obtain ⟨power, hpower⟩ := Option.isSome_iff_exists.mp hpower
  unfold Command.tryFrom
  rw [if_pos hstart, hmode, hpower]
  rcases Operation.tryFrom (opCode v) with - | op
  · exact Or.inl ⟨rfl, rfl⟩
  · exact Or.inr ⟨_, rfl, rfl⟩

/-- Which bytes are taken. -/
lemma write_isSome_iff (hw : 0 < touchscreen.framebuffer.config.width.toNat)
    (hh : 0 < touchscreen.framebuffer.config.height.toNat) :
    (touchscreen.write v).isSome = true ↔
      Accepts touchscreen.config touchscreen.framebuffer.config.width.toNat
      touchscreen.framebuffer.config.height.toNat touchscreen.framebuffer.touchPosition v := by
  unfold write Accepts
  by_cases hstart : startBit v = true
  · rcases tryFrom_start hstart with ⟨hcmd, hop⟩ | ⟨cmd, hcmd, hop⟩
    · rw [hcmd, hop]
      simp [hstart]
    · rw [hcmd, hop]
      simp only [Option.bind_eq_bind, Option.bind_some]
      rcases touchscreen.framebuffer.touchPosition with - | pos
      · simp
      · simp only [Option.isSome_map, reading_isSome_iff hw hh]
        simp [hstart]
  · have hnone : Command.tryFrom v = some none := if_neg hstart
    rw [hnone]
    simp [hstart]

lemma write_queues (h : touchscreen.write v = some after) : Queues touchscreen after := by
  obtain ⟨cmd, -, h⟩ := Option.bind_eq_some_iff.mp h
  rcases cmd with - | cmd
  · cases h
    exact Or.inl rfl
  · rcases hpos : touchscreen.framebuffer.touchPosition with - | pos
    · rw [hpos] at h
      cases h
      exact Or.inr (Or.inl rfl)
    · rw [hpos] at h
      obtain ⟨x, -, rfl⟩ := Option.map_eq_some_iff.mp h
      exact Or.inr (Or.inr ⟨encode x, rfl, encodes_encode x⟩)

/-! ## Runs -/

/-- Every touch is one that a window reports, also one outside the window. -/
lemma exists_event (sdl : Sdl) (position : Option (U16 × U16)) :
    ∃ event, (sdl.processEvent event).asFramebuffer RGB565
      = { sdl.asFramebuffer RGB565 with touchPosition := position } := by
  rcases position with - | ⟨x, y⟩
  · exact ⟨.mouseButtonUp, rfl⟩
  · refine ⟨.mouseButtonDown x.toNat y.toNat, ?_⟩
    have hword : ∀ z : U16, BitVec.ofInt 16 z.toNat = z := fun z => by simp
    simp only [Sdl.processEvent, Sdl.asFramebuffer, hword]
    rfl

/-- What no operation changes, and what the window system sets. -/
structure Positioned (start : Touchscreen) (ops : List TouchOp)
    (touchscreen : Touchscreen) : Prop where
  config : touchscreen.config = start.config
  framebuffer : touchscreen.framebuffer.config = start.framebuffer.config
  position : touchscreen.framebuffer.touchPosition =
    positionAfter start.framebuffer.touchPosition ops

lemma step_positioned {ops : List TouchOp} {op : TouchOp} (h : Positioned start ops before)
    (hstep : before.step op = some after) : Positioned start (ops ++ [op]) after := by
  have hsame : ∀ position, positionAfter position (ops ++ [op]) = match op with
      | .touched position => position
      | _ => positionAfter position ops := by
    intro position
    rw [positionAfter, List.foldl_append]
    rcases op with - | - | - <;> rfl
  rcases op with position | - | v
  · cases hstep
    exact ⟨h.config, h.framebuffer, (hsame _).symm⟩
  · cases hstep
    have hread : before.read.2.config = before.config ∧
        before.read.2.framebuffer = before.framebuffer := by
      unfold read
      split <;> exact ⟨rfl, rfl⟩
    exact ⟨hread.1.trans h.config, (congrArg (·.config) hread.2).trans h.framebuffer,
      (congrArg (·.touchPosition) hread.2).trans (h.position.trans (hsame _).symm)⟩
  · have hwrite : after.config = before.config ∧ after.framebuffer = before.framebuffer := by
      obtain ⟨cmd, -, hstep⟩ := Option.bind_eq_some_iff.mp hstep
      rcases cmd with - | cmd
      · cases hstep
        exact ⟨rfl, rfl⟩
      · rcases hpos : before.framebuffer.touchPosition with - | pos
        · rw [hpos] at hstep
          cases hstep
          exact ⟨rfl, rfl⟩
        · rw [hpos] at hstep
          obtain ⟨x, -, rfl⟩ := Option.map_eq_some_iff.mp hstep
          exact ⟨rfl, rfl⟩
    exact ⟨hwrite.1.trans h.config, (congrArg (·.config) hwrite.2).trans h.framebuffer,
      (congrArg (·.touchPosition) hwrite.2).trans (h.position.trans (hsame _).symm)⟩

lemma exec_append_singleton (start : Touchscreen) (ops : List TouchOp) (op : TouchOp) :
    start.exec (ops ++ [op]) = (start.exec ops).bind (·.step op) := by
  unfold exec
  rw [List.foldlM_append]
  refine congrArg (Option.bind _) (funext fun touchscreen => ?_)
  exact Option.bind_fun_some _

lemma exec_positioned {ops : List TouchOp} (h : start.exec ops = some after) :
    Positioned start ops after := by
  induction ops using List.reverseRecOn generalizing after with
  | nil =>
    cases h
    exact ⟨rfl, rfl, rfl⟩
  | append_singleton ops op ih =>
    rw [exec_append_singleton] at h
    obtain ⟨before, hbefore, hstep⟩ := Option.bind_eq_some_iff.mp h
    exact step_positioned (ih hbefore) hstep

/-- **Which byte streams the touch screen takes**, with any touches in between. -/
theorem takes_all_iff (hw : 0 < start.framebuffer.config.width.toNat)
    (hh : 0 < start.framebuffer.config.height.toNat) (ops : List TouchOp) :
    TakesAll start ops ↔ ∀ history v, history ++ [.write v] <+: ops →
      Accepts start.config start.framebuffer.config.width.toNat
        start.framebuffer.config.height.toNat
        (positionAfter start.framebuffer.touchPosition history) v := by
  have haccepts : ∀ {history touchscreen v}, start.exec history = some touchscreen →
      ((touchscreen.write v).isSome = true ↔
        Accepts start.config start.framebuffer.config.width.toNat
        start.framebuffer.config.height.toNat
          (positionAfter start.framebuffer.touchPosition history) v) := by
    intro history touchscreen v hexec
    obtain ⟨hconfig, hframebuffer, hposition⟩ := exec_positioned hexec
    rw [← hframebuffer] at hw hh
    rw [write_isSome_iff hw hh, hconfig, hframebuffer, hposition]
  constructor
  · intro htakes history v hpre
    obtain ⟨before, after, hexec, hstep, -⟩ := htakes history (.write v) hpre
    exact (haccepts hexec).mp (Option.isSome_iff_exists.mpr ⟨after, hstep⟩)
  · intro h
    have hstep : ∀ history op touchscreen, history ++ [op] <+: ops →
        start.exec history = some touchscreen →
        ∃ after, touchscreen.step op = some after := by
      intro history op touchscreen hpre hexec
      rcases op with position | - | v
      · exact ⟨_, rfl⟩
      · exact ⟨_, rfl⟩
      · exact Option.isSome_iff_exists.mp ((haccepts hexec).mpr (h history v hpre))
    have hexec : ∀ history, history <+: ops →
        ∃ touchscreen, start.exec history = some touchscreen := by
      intro history
      induction history using List.reverseRecOn with
      | nil => exact fun _ => ⟨start, rfl⟩
      | append_singleton history op ih =>
        intro hpre
        obtain ⟨touchscreen, hexec⟩ := ih ((List.prefix_append history [op]).trans hpre)
        obtain ⟨after, hafter⟩ := hstep history op touchscreen hpre hexec
        exact ⟨after, by rw [exec_append_singleton, hexec, Option.bind_some, hafter]⟩
    intro history op hpre
    obtain ⟨before, hbefore⟩ := hexec history ((List.prefix_append history [op]).trans hpre)
    obtain ⟨after, hafter⟩ := hstep history op before hpre hbefore
    refine ⟨before, after, hbefore, hafter, ?_⟩
    rintro ⟨v, rfl⟩
    exact write_queues hafter

/-- A touch screen of 240 columns and 320 rows with a column to be flipped. -/
def panel (scaleDown : Option U32) : Touchscreen where
  config := ⟨"tft", some true, none, none, scaleDown⟩
  framebuffer := (⟨⟨"tft", 240, 320, "rgb565", none, some true, none⟩,
    ⟨480, 320, List.replicate (480 * 320) 0, List.length_replicate⟩, false,
    none⟩ : Sdl).asFramebuffer RGB565
  reply := none

/-- A touch on the panel is measured. -/
theorem takes_all_panel :
    TakesAll (panel none) [.touched (some (120, 160)), .write 0xd0, .read, .read] := by
  refine (takes_all_iff (by decide) (by decide) _).mpr fun history v hpre => ?_
  -- the one byte is the second operation
  rcases history with _ | ⟨a, history⟩
  · cases (List.cons_prefix_cons.mp hpre).1
  · obtain ⟨rfl, hrest⟩ := List.cons_prefix_cons.mp hpre
    rcases history with _ | ⟨b, history⟩
    · cases (List.cons_prefix_cons.mp hrest).1
      refine fun _ => ⟨.measureX, rfl, fun pos hpos => ?_⟩
      cases hpos
      exact ⟨by decide, fun _ _ => by decide, fun hop => absurd hop (by decide)⟩
    · have hlater : history ++ [.write v] <+: [TouchOp.read, .read] :=
        (List.cons_prefix_cons.mp hrest).2
      have hmem : TouchOp.write v ∈ [TouchOp.read, .read] := hlater.subset (by simp)
      simp at hmem

/-- Three runs that stop: an operation that is not known, a touch right of the panel, and a quotient
by zero. -/
theorem not_taken :
    ¬ TakesAll (panel none) [.write 0x80] ∧
      ¬ TakesAll (panel none) [.touched (some (250, 0)), .write 0xd0] ∧
      ¬ TakesAll (panel (some 0)) [.touched (some (0, 0)), .write 0xd0] := by
  refine ⟨fun h => ?_, fun h => ?_, fun h => ?_⟩
  · obtain ⟨before, after, hexec, hstep, -⟩ := h [] (.write 0x80) List.prefix_rfl
    cases hexec
    cases hstep
  · obtain ⟨before, after, hexec, hstep, -⟩ :=
      h [.touched (some (250, 0))] (.write 0xd0) List.prefix_rfl
    cases hexec
    cases hstep
  · obtain ⟨before, after, hexec, hstep, -⟩ :=
      h [.touched (some (0, 0))] (.write 0xd0) List.prefix_rfl
    cases hexec
    cases hstep

end Touchscreen

end Stm32Emulator
