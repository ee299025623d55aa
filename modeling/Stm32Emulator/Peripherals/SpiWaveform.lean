import Stm32Emulator.Foundation.Run
import Stm32Emulator.Peripherals.SoftwareSpi

/-!
# The waveform of the software SPI

What the pins show is the waveform of `ODR`: the changes of the levels of the three lines.  The
reference (`SpiReference`) decodes it, sampling `MOSI` when `CLK` rises while `CS` is low.
`SoftwareSpi` decodes what it is told instead, with copies of the levels that are low after `CS`
falls.  The two agree as long as firmware does not use what a copy does not know
(`SpiHistory.Clean`): it must drive `MOSI` again before it is sampled, and must not drive `CLK` high
again, if the line was high when `CS` fell.
-/

namespace Stm32Emulator

variable {D : Type}

/-! ## The reference -/

/-- The levels of the lines, the bits of the current byte and the bytes before it. -/
structure SpiReference where
  cs : Bool
  clk : Bool
  mosi : Bool
  bits : List Bool
  bytes : List U8
  deriving DecidableEq, Repr

namespace SpiReference

def initial : SpiReference := ⟨false, false, false, [], []⟩

def level (r : SpiReference) : SpiLine → Bool
  | .cs => r.cs
  | .clk => r.clk
  | .mosi => r.mosi

/-- The byte of some bits, the first of which is the highest. -/
def byteOf (bits : List Bool) : U8 := bits.foldl shiftIn 0

/-- Sampling a bit, of which eight are a byte. -/
def sample (r : SpiReference) : SpiReference :=
  let bits := r.bits ++ [r.mosi]
  if bits.length = 8 then { r with bits := [], bytes := r.bytes ++ [byteOf bits] }
  else { r with bits := bits }

/-- The level of a line changes. -/
def change (r : SpiReference) : SpiLine × Bool → SpiReference
  | (.cs, level) => { r with cs := level, bits := if level then r.bits else [] }
  | (.clk, level) => { (if level && !r.cs then r.sample else r) with clk := level }
  | (.mosi, level) => { r with mosi := level }

/-- A line is driven, which may leave its level as it is. -/
def drive (r : SpiReference) (e : SpiLine × Bool) : SpiReference :=
  if r.level e.1 = e.2 then r else r.change e

lemma level_sample (r : SpiReference) : r.sample.level = r.level := by
  unfold sample
  funext line
  dsimp only
  split_ifs <;> cases line <;> rfl

lemma level_change (r : SpiReference) (e : SpiLine × Bool) (line : SpiLine) :
    (r.change e).level line = if line = e.1 then e.2 else r.level line := by
  obtain ⟨driven, level⟩ := e
  cases driven with
  | cs => cases line <;> rfl
  | mosi => cases line <;> rfl
  | clk =>
    have hsample : (if (level && !r.cs) = true then r.sample else r).level = r.level := by
      split_ifs
      · exact r.level_sample
      · rfl
    cases line with
    | clk => rfl
    | cs => exact congrFun hsample .cs
    | mosi => exact congrFun hsample .mosi

lemma level_drive (r : SpiReference) (e : SpiLine × Bool) (line : SpiLine) :
    (r.drive e).level line = if line = e.1 then e.2 else r.level line := by
  unfold drive
  by_cases hsame : r.level e.1 = e.2
  · rw [if_pos hsame]
    by_cases hline : line = e.1
    · rw [if_pos hline, hline, hsame]
    · rw [if_neg hline]
  · rw [if_neg hsame, level_change]

lemma level_foldl_of_not_mem (r : SpiReference) {events : List (SpiLine × Bool)} {line : SpiLine}
    (h : line ∉ events.map Prod.fst) : (events.foldl drive r).level line = r.level line := by
  induction events generalizing r with
  | nil => rfl
  | cons e events ih =>
    rw [List.map_cons, List.mem_cons, not_or] at h
    rw [List.foldl_cons, ih _ h.2, level_drive, if_neg h.1]

/-- A line that is driven once has its level afterwards. -/
lemma level_foldl_of_mem (r : SpiReference) {events : List (SpiLine × Bool)}
    (hnodup : (events.map Prod.fst).Nodup) {e : SpiLine × Bool} (he : e ∈ events) :
    (events.foldl drive r).level e.1 = e.2 := by
  induction events generalizing r with
  | nil => exact absurd he List.not_mem_nil
  | cons e' events ih =>
    rw [List.map_cons, List.nodup_cons] at hnodup
    rw [List.foldl_cons]
    rcases List.mem_cons.mp he with rfl | he
    · rw [level_foldl_of_not_mem _ hnodup.1, level_drive, if_pos rfl]
    · exact ih _ hnodup.2 he

/-! ### What driving a line does -/

lemma drive_of_same {r : SpiReference} (line : SpiLine) {driven : Bool}
    (h : r.level line = driven) :
    r.drive (line, driven) = r := if_pos h

lemma drive_of_ne {r : SpiReference} (line : SpiLine) {driven : Bool} (h : r.level line ≠ driven) :
    r.drive (line, driven) = r.change (line, driven) := if_neg h

lemma drive_cs_high (r : SpiReference) : r.drive (.cs, true) = { r with cs := true } := by
  by_cases h : r.cs = true
  · rw [drive_of_same .cs h, ← h]
  · exact drive_of_ne .cs h

lemma drive_cs_falls {r : SpiReference} (h : r.cs = true) :
    r.drive (.cs, false) = { r with cs := false, bits := [] } :=
  drive_of_ne .cs (by rw [level, h]; decide)

lemma drive_mosi (r : SpiReference) (level : Bool) :
    r.drive (.mosi, level) = { r with mosi := level } := by
  by_cases h : r.mosi = level
  · rw [drive_of_same .mosi h, ← h]
  · exact drive_of_ne .mosi h

lemma drive_clk_low (r : SpiReference) : r.drive (.clk, false) = { r with clk := false } := by
  by_cases h : r.clk = false
  · rw [drive_of_same .clk h, ← h]
  · exact drive_of_ne .clk h

lemma drive_clk_deselected {r : SpiReference} (hcs : r.cs = true) (level : Bool) :
    r.drive (.clk, level) = { r with clk := level } := by
  by_cases h : r.clk = level
  · rw [drive_of_same .clk h, ← h]
  · rw [drive_of_ne .clk h]
    simp [change, hcs]

lemma drive_clk_rises {r : SpiReference} (hcs : r.cs = false) (hclk : r.clk = false) :
    r.drive (.clk, true) = { r.sample with clk := true } := by
  rw [drive_of_ne .clk (by rw [level, hclk]; decide)]
  simp [change, hcs]

/-- Driving different lines changes those that have another level. -/
lemma foldl_drive (r : SpiReference) {events : List (SpiLine × Bool)}
    (hnodup : (events.map Prod.fst).Nodup) :
    events.foldl drive r = (events.filter fun e => r.level e.1 ≠ e.2).foldl change r := by
  induction events generalizing r with
  | nil => rfl
  | cons e events ih =>
    rw [List.map_cons, List.nodup_cons] at hnodup
    rw [List.foldl_cons, ih _ hnodup.2]
    have hlater : (events.filter fun e' => (r.drive e).level e'.1 ≠ e'.2) =
        events.filter fun e' => r.level e'.1 ≠ e'.2 := by
      refine List.filter_congr fun e' he' => ?_
      have hne : e'.1 ≠ e.1 := fun h => hnodup.1 (h ▸ List.mem_map_of_mem he')
      rw [level_drive, if_neg hne]
    rw [hlater]
    unfold drive
    by_cases hsame : r.level e.1 = e.2
    · rw [if_pos hsame, List.filter_cons_of_neg (by simpa using hsame)]
    · rw [if_neg hsame, List.filter_cons_of_pos (by simpa using hsame), List.foldl_cons]

end SpiReference

/-! ## The waveform -/

/-- The lines that a write drives, in order. -/
def SoftwareSpiConfig.drives (config : SoftwareSpiConfig) (s : GpioBoard D) (op : GpioWrite) :
    List (SpiLine × Bool) :=
  (s.driven op).filterMap fun p => (config.lineAt ⟨op.port, p.1⟩).map fun line => (line, p.2)

/-- The lines whose bit in `ODR` a write changes, with their new levels. -/
def SoftwareSpiConfig.waveform (config : SoftwareSpiConfig) (ports : GpioPorts D) (s : GpioBoard D)
    (op : GpioWrite) : List (SpiLine × Bool) :=
  (s.driven op).filterMap fun p =>
    let pin : Pin := ⟨op.port, p.1⟩
    if s.bit pin ≠ p.2 ∧ (s.write ports op).bit pin = p.2 then
      (config.lineAt pin).map fun line => (line, p.2)
    else none

namespace SoftwareSpiConfig

variable {config : SoftwareSpiConfig}

def pinOf (config : SoftwareSpiConfig) : SpiLine → Option Pin
  | .cs => config.cs
  | .clk => some config.clk
  | .mosi => some config.mosi

lemma pinOf_of_lineAt {pin : Pin} {line : SpiLine} (h : config.lineAt pin = some line) :
    config.pinOf line = some pin := by
  unfold lineAt at h
  split_ifs at h with hcs hclk hmosi
  · obtain rfl := Option.some.inj h
    exact hcs
  · obtain rfl := Option.some.inj h
    exact congrArg some hclk
  · obtain rfl := Option.some.inj h
    exact congrArg some hmosi

/-- No line of the write is set and reset. -/
def Settles (config : SoftwareSpiConfig) (op : GpioWrite) : Prop :=
  ∀ pin, (config.lineAt ⟨op.port, pin⟩).isSome → ¬ op.SetsAndResets pin

/-- A write that settles drives no line twice. -/
lemma nodup_drives (s : GpioBoard D) {op : GpioWrite} (h : config.Settles op) :
    ((config.drives s op).map Prod.fst).Nodup := by
  unfold drives
  rw [List.map_filterMap]
  refine (s.pairwise_driven op).filterMap _ fun p p' hboth line hline line' hline' heq => ?_
  subst heq
  rw [Option.map_map, Option.map_eq_some_iff] at hline hline'
  obtain ⟨_, hat, rfl⟩ := hline
  obtain ⟨_, hat', heq⟩ := hline'
  obtain rfl := heq
  have hpin := (pinOf_of_lineAt hat).symm.trans (pinOf_of_lineAt hat')
  rw [Option.some.injEq, Pin.mk.injEq] at hpin
  exact h p.1 (Option.isSome_of_eq_some hat) (hboth hpin.2)

/-- The changes of a write that settles are the lines that it drives to another level. -/
lemma waveform_eq (ports : GpioPorts D) (s : GpioBoard D) {op : GpioWrite} (h : config.Settles op)
    {r : SpiReference}
    (hlevel : ∀ pin line, config.lineAt pin = some line → r.level line = s.bit pin) :
    config.waveform ports s op = (config.drives s op).filter fun e => r.level e.1 ≠ e.2 := by
  unfold waveform drives
  rw [List.filter_filterMap]
  refine List.filterMap_congr fun p hp => ?_
  dsimp only
  cases hline : config.lineAt ⟨op.port, p.1⟩ with
  | none => simp
  | some line =>
    have hbit := GpioBoard.bit_write_of_mem ports s hp (h p.1 (Option.isSome_of_eq_some hline))
    rw [Option.map_some, hbit, ← hlevel _ _ hline]
    by_cases hsame : r.level line = p.2 <;> simp [hsame, Option.filter]

end SoftwareSpiConfig

instance (op : GpioWrite) (pin : Fin 16) : Decidable (op.SetsAndResets pin) :=
  inferInstanceAs (Decidable (_ ∧ _ ∧ _))

instance (config : SoftwareSpiConfig) (op : GpioWrite) : Decidable (config.Settles op) :=
  inferInstanceAs (Decidable (∀ _, _ → _))

/-! ## What a copy does not know -/

/-- The lines as firmware has driven them, and whether `MOSI` and `CLK` were low when `CS` fell or
have been driven since. -/
structure SpiHistory where
  reference : SpiReference
  mosiKnown : Bool
  clkKnown : Bool
  deriving DecidableEq, Repr

namespace SpiHistory

def initial : SpiHistory := ⟨.initial, true, true⟩

/-- A line is driven. -/
def tell (h : SpiHistory) : SpiLine × Bool → SpiHistory
  | (.cs, level) =>
    { reference := h.reference.drive (.cs, level)
      mosiKnown := if h.reference.cs && !level then !h.reference.mosi else h.mosiKnown
      clkKnown := if h.reference.cs && !level then !h.reference.clk else h.clkKnown }
  | (.clk, level) =>
    { h with
      reference := h.reference.drive (.clk, level)
      clkKnown := h.clkKnown || !h.reference.cs }
  | (.mosi, level) =>
    { h with
      reference := h.reference.drive (.mosi, level)
      mosiKnown := h.mosiKnown || !h.reference.cs }

/-- While `CS` is low, `CLK` rises only when `MOSI` is known, and is driven high again only when it
is known itself. -/
def Clean (h : SpiHistory) (e : SpiLine × Bool) : Prop :=
  e = (.clk, true) → h.reference.cs = false →
    if h.reference.clk then h.clkKnown = true else h.mosiKnown = true

instance (h : SpiHistory) (e : SpiLine × Bool) : Decidable (h.Clean e) :=
  inferInstanceAs (Decidable (_ → _ → ite ..))

/-- Driving several lines in turn. -/
def CleanAll (h : SpiHistory) : List (SpiLine × Bool) → Prop
  | [] => True
  | e :: events => h.Clean e ∧ (h.tell e).CleanAll events

instance decidableCleanAll (h : SpiHistory) :
    (events : List (SpiLine × Bool)) → Decidable (h.CleanAll events)
  | [] => inferInstanceAs (Decidable True)
  | e :: events =>
    let _ := decidableCleanAll (h.tell e) events
    inferInstanceAs (Decidable (_ ∧ _))

lemma reference_tell (h : SpiHistory) (e : SpiLine × Bool) :
    (h.tell e).reference = h.reference.drive e := by
  obtain ⟨line, level⟩ := e
  cases line <;> rfl

lemma reference_foldl (h : SpiHistory) (events : List (SpiLine × Bool)) :
    (events.foldl tell h).reference = events.foldl SpiReference.drive h.reference := by
  induction events generalizing h with
  | nil => rfl
  | cons e events ih => rw [List.foldl_cons, List.foldl_cons, ih, reference_tell]

end SpiHistory

/-! ## Decoding -/

/-- What was in the register before is shifted out at the top. -/
lemma foldl_shiftIn_eq (data : U8) (bits : List Bool) :
    bits.foldl shiftIn data = (data <<< bits.length) ||| SpiReference.byteOf bits := by
  unfold SpiReference.byteOf
  induction bits using List.reverseRecOn with
  | nil => simp
  | append_singleton bits bit ih =>
    rw [List.foldl_append, List.foldl_append, List.foldl_cons, List.foldl_cons, List.foldl_nil,
      List.foldl_nil, ih, List.length_append, List.length_singleton]
    unfold shiftIn
    rw [BitVec.shiftLeft_or_distrib, BitVec.shiftLeft_add, BitVec.or_assoc]

/-- After eight bits the register holds their byte. -/
lemma foldl_shiftIn_of_length {bits : List Bool} (h : bits.length = 8) (data : U8) :
    bits.foldl shiftIn data = SpiReference.byteOf bits := by
  rw [foldl_shiftIn_eq, h, BitVec.shiftLeft_eq_zero (le_refl 8), BitVec.zero_or]

/-- The copies of the levels are right as far as they are known, and the bits are those of the
reference. -/
structure TracksSpi (c : SpiDecoder) (h : SpiHistory) : Prop where
  cs_eq : c.cs = h.reference.cs
  handed_eq : c.handed = h.reference.bytes
  mosi_eq : h.reference.cs = false → c.mosi = (h.reference.mosi && h.mosiKnown)
  clk_eq : h.reference.cs = false → c.clk = (h.reference.clk && h.clkKnown)
  bitIndex_eq : h.reference.cs = false → c.bitIndex = h.reference.bits.length
  data_eq : h.reference.cs = false → ∃ data, c.dataMosi = h.reference.bits.foldl shiftIn data

namespace TracksSpi

variable {c : SpiDecoder} {h : SpiHistory}

lemma initial (d : D) : TracksSpi (SpiWorld.new d).decoder .initial :=
  ⟨rfl, rfl, fun _ => rfl, fun _ => rfl, fun _ => rfl, fun _ => ⟨0, rfl⟩⟩

/-- While `CS` is high only the bytes and `CS` matter. -/
lemma deselected {c : SpiDecoder} {h : SpiHistory} (hcs : c.cs = true)
    (hcs' : h.reference.cs = true) (hhanded : c.handed = h.reference.bytes) : TracksSpi c h := by
  have hne : h.reference.cs ≠ false := by
    rw [hcs']
    decide
  exact ⟨hcs.trans hcs'.symm, hhanded, fun hlow => absurd hlow hne, fun hlow => absurd hlow hne,
    fun hlow => absurd hlow hne, fun hlow => absurd hlow hne⟩

lemma drive_cs (t : TracksSpi c h) (level : Bool) :
    TracksSpi (c.drive (.cs, level)) (h.tell (.cs, level)) := by
  unfold SpiDecoder.drive SpiHistory.tell
  dsimp only
  rw [t.cs_eq]
  cases level with
  | true =>
    rw [SpiReference.drive_cs_high, Bool.not_true, Bool.and_false]
    exact deselected rfl rfl t.handed_eq
  | false =>
    by_cases hcs : h.reference.cs = true
    · rw [SpiReference.drive_cs_falls hcs, hcs]
      exact ⟨rfl, t.handed_eq, fun _ => (Bool.and_not_self _).symm, fun _ =>
        (Bool.and_not_self _).symm, fun _ => rfl, fun _ => ⟨0, rfl⟩⟩
    · rw [Bool.not_eq_true] at hcs
      rw [SpiReference.drive_of_same .cs hcs, hcs]
      exact ⟨hcs.symm, t.handed_eq, t.mosi_eq, t.clk_eq, t.bitIndex_eq, t.data_eq⟩

lemma drive_mosi (t : TracksSpi c h) (level : Bool) :
    TracksSpi (c.drive (.mosi, level)) (h.tell (.mosi, level)) := by
  unfold SpiDecoder.drive SpiHistory.tell
  dsimp only
  rw [SpiReference.drive_mosi]
  by_cases hcs : h.reference.cs = true
  · have hc := t.cs_eq.trans hcs
    rw [if_pos hc]
    exact deselected hc hcs t.handed_eq
  · rw [Bool.not_eq_true] at hcs
    rw [if_neg (by rw [t.cs_eq, hcs]; decide), hcs]
    refine ⟨t.cs_eq.trans hcs, t.handed_eq, fun _ => ?_, fun _ => t.clk_eq hcs, fun _ =>
      t.bitIndex_eq hcs, fun _ => t.data_eq hcs⟩
    dsimp only
    rw [Bool.not_false, Bool.or_true, Bool.and_true]

/-- A bit that is sampled is the level of `MOSI`, if that is known. -/
lemma shift (t : TracksSpi c h) (hcs : h.reference.cs = false) (hknown : h.mosiKnown = true) :
    TracksSpi c.shift { h with reference := h.reference.sample } := by
  obtain ⟨data, hdata⟩ := t.data_eq hcs
  have hmosi : c.mosi = h.reference.mosi := by
    rw [t.mosi_eq hcs, hknown, Bool.and_true]
  have hbits : shiftIn c.dataMosi c.mosi =
      (h.reference.bits ++ [h.reference.mosi]).foldl shiftIn data := by
    rw [List.foldl_append, ← hdata, hmosi]
    rfl
  have hindex : c.bitIndex + 1 = (h.reference.bits ++ [h.reference.mosi]).length := by
    rw [t.bitIndex_eq hcs, List.length_append, List.length_singleton]
  unfold SpiDecoder.shift SpiReference.sample
  dsimp only
  rw [hindex, hbits]
  by_cases hlast : (h.reference.bits ++ [h.reference.mosi]).length = 8
  · rw [if_pos hlast, if_pos hlast, foldl_shiftIn_of_length hlast]
    refine ⟨t.cs_eq, ?_, t.mosi_eq, t.clk_eq, fun _ => rfl, fun _ => ⟨_, rfl⟩⟩
    dsimp only
    rw [t.handed_eq]
  · rw [if_neg hlast, if_neg hlast]
    exact ⟨t.cs_eq, t.handed_eq, t.mosi_eq, t.clk_eq, fun _ => rfl, fun _ => ⟨data, rfl⟩⟩

lemma drive_clk (t : TracksSpi c h) {level : Bool} (hclean : h.Clean (.clk, level)) :
    TracksSpi (c.drive (.clk, level)) (h.tell (.clk, level)) := by
  unfold SpiDecoder.drive SpiHistory.tell
  dsimp only
  by_cases hcs : h.reference.cs = true
  · have hc := t.cs_eq.trans hcs
    rw [if_pos hc, SpiReference.drive_clk_deselected hcs]
    exact deselected hc hcs t.handed_eq
  · rw [Bool.not_eq_true] at hcs
    rw [if_neg (by rw [t.cs_eq, hcs]; decide)]
    have hknown : (h.clkKnown || !h.reference.cs) = true := by
      rw [hcs, Bool.not_false, Bool.or_true]
    rw [hknown]
    cases level with
    | false =>
      rw [SpiReference.drive_clk_low, Bool.and_false]
      exact ⟨t.cs_eq, t.handed_eq, t.mosi_eq, fun _ => rfl, t.bitIndex_eq, t.data_eq⟩
    | true =>
      have hsampled := hclean rfl hcs
      rw [t.clk_eq hcs]
      by_cases hclk : h.reference.clk = true
      · -- `CLK` has been high, and the copy knows it
        rw [if_pos hclk] at hsampled
        rw [SpiReference.drive_of_same .clk hclk, hclk, hsampled]
        refine ⟨t.cs_eq, t.handed_eq, t.mosi_eq, fun _ => ?_, t.bitIndex_eq, t.data_eq⟩
        dsimp only
        rw [hclk]
        rfl
      · rw [if_neg hclk] at hsampled
        rw [Bool.not_eq_true] at hclk
        have t' := t.shift hcs hsampled
        rw [SpiReference.drive_clk_rises hcs hclk, hclk]
        exact ⟨t'.cs_eq, t'.handed_eq, t'.mosi_eq, fun _ => rfl, t'.bitIndex_eq, t'.data_eq⟩

/-- **Driving a line** keeps the copies right. -/
lemma drive (t : TracksSpi c h) {e : SpiLine × Bool} (hclean : h.Clean e) :
    TracksSpi (c.drive e) (h.tell e) := by
  obtain ⟨line, level⟩ := e
  cases line with
  | cs => exact t.drive_cs level
  | clk => exact t.drive_clk hclean
  | mosi => exact t.drive_mosi level

lemma foldl (t : TracksSpi c h) {events : List (SpiLine × Bool)} (hclean : h.CleanAll events) :
    TracksSpi (events.foldl SpiDecoder.drive c) (events.foldl SpiHistory.tell h) := by
  induction events generalizing c h with
  | nil => exact t
  | cons e events ih => exact ih (t.drive hclean.1) hclean.2

end TracksSpi

/-! ## Runs -/

/-- The ports with the controller, what firmware has driven, and what the waveform of `ODR` says. -/
structure SpiBench (D : Type) where
  board : GpioBoard (SpiWorld D)
  history : SpiHistory
  reference : SpiReference

namespace SpiBench

def new (d : D) : SpiBench D := ⟨.new (.new d), .initial, .initial⟩

def step (config : SoftwareSpiConfig) (ports : GpioPorts (SpiWorld D)) (s : SpiBench D)
    (op : GpioWrite) :
    SpiBench D where
  board := s.board.write ports op
  history := (config.drives s.board op).foldl SpiHistory.tell s.history
  reference := (config.waveform ports s.board op).foldl SpiReference.change s.reference

/-- A write that sets and resets no line and uses no line that is not known. -/
def Clean (config : SoftwareSpiConfig) (s : SpiBench D) (op : GpioWrite) : Prop :=
  config.Settles op ∧ s.history.CleanAll (config.drives s.board op)

instance (config : SoftwareSpiConfig) (s : SpiBench D) (op : GpioWrite) :
    Decidable (Clean config s op) :=
  inferInstanceAs (Decidable (_ ∧ _))

/-- The controller follows what firmware has driven, which is the waveform. -/
structure Decodes (config : SoftwareSpiConfig) (s : SpiBench D) : Prop where
  named : s.board.Named
  reference_eq : s.history.reference = s.reference
  level_eq : ∀ pin line, config.lineAt pin = some line → s.reference.level line = s.board.bit pin
  tracks : TracksSpi s.board.world.decoder s.history

namespace Decodes

variable {config : SoftwareSpiConfig} {s : SpiBench D} {op : GpioWrite}

lemma new (config : SoftwareSpiConfig) (d : D) : Decodes config (new d) := by
  refine ⟨fun _ => rfl, rfl, fun pin line _ => ?_, TracksSpi.initial d⟩
  have hbit : (SpiBench.new d).board.bit pin = false := BitVec.getLsbD_zero
  rw [hbit]
  cases line <;> rfl

/-- The reference goes through the lines that the write drives. -/
lemma reference_step (h : Decodes config s) (ports : GpioPorts (SpiWorld D))
    (hsettles : config.Settles op) :
    (s.step config ports op).reference =
      (config.drives s.board op).foldl SpiReference.drive s.reference := by
  unfold step
  dsimp only
  rw [SoftwareSpiConfig.waveform_eq ports s.board hsettles h.level_eq,
    SpiReference.foldl_drive _ (SoftwareSpiConfig.nodup_drives s.board hsettles)]

lemma level_step (h : Decodes config s) (ports : GpioPorts (SpiWorld D))
    (hsettles : config.Settles op) {pin : Pin} {line : SpiLine}
    (hline : config.lineAt pin = some line) :
    (s.step config ports op).reference.level line = (s.board.write ports op).bit pin := by
  rw [h.reference_step ports hsettles]
  by_cases hdriven : pin.port = op.port ∧ pin.pin ∈ (s.board.driven op).map Prod.fst
  · obtain ⟨hport, hmem⟩ := hdriven
    obtain ⟨p, hp, hfst⟩ := List.mem_map.mp hmem
    have hpin : pin = ⟨op.port, p.1⟩ := Pin.ext hport hfst.symm
    rw [hpin] at hline
    have he : (line, p.2) ∈ config.drives s.board op := by
      refine List.mem_filterMap.mpr ⟨p, hp, ?_⟩
      rw [hline]
      rfl
    rw [hpin, GpioBoard.bit_write_of_mem ports s.board hp
      (hsettles p.1 (Option.isSome_of_eq_some hline))]
    exact SpiReference.level_foldl_of_mem _ (SoftwareSpiConfig.nodup_drives s.board hsettles) he
  · rw [GpioBoard.bit_write_of_not_mem ports s.board op fun hport hmem => hdriven ⟨hport, hmem⟩,
      ← h.level_eq pin line hline]
    refine SpiReference.level_foldl_of_not_mem _ fun hmem => ?_
    obtain ⟨e, he, rfl⟩ := List.mem_map.mp hmem
    obtain ⟨p, hp, he⟩ := List.mem_filterMap.mp he
    obtain ⟨line', hline', rfl⟩ := Option.map_eq_some_iff.mp he
    have hpin := Option.some.inj ((SoftwareSpiConfig.pinOf_of_lineAt hline).symm.trans
      (SoftwareSpiConfig.pinOf_of_lineAt hline'))
    exact hdriven ⟨congrArg Pin.port hpin, List.mem_map.mpr ⟨p, hp, (congrArg Pin.pin hpin).symm⟩⟩

/-- What the controller decodes from a write. -/
lemma decoder_step (h : Decodes config s) (hpins : config.Separate)
    (extDevice : Option (ExtDevice Unit U8 D)) (earlier later : GpioPorts D) :
    (s.step config (spiPorts config extDevice earlier later) op).board.world.decoder =
      (config.drives s.board op).foldl SpiDecoder.drive s.board.world.decoder := by
  unfold step SoftwareSpiConfig.drives
  dsimp only
  rw [GpioBoard.world_write h.named]
  generalize s.board.world = w
  induction s.board.driven op generalizing w with
  | nil => rfl
  | cons p driven ih =>
    rw [List.foldl_cons, ih, List.filterMap_cons]
    have hdriven := SpiWorld.decoder_writePort hpins extDevice earlier later w ⟨op.port, p.1⟩ p.2
    cases hline : config.lineAt ⟨op.port, p.1⟩ with
    | none =>
      rw [hline] at hdriven
      rw [hdriven]
      rfl
    | some line =>
      rw [hline] at hdriven
      rw [hdriven]
      rfl

lemma step (h : Decodes config s) (hpins : config.Separate)
    (extDevice : Option (ExtDevice Unit U8 D)) (earlier later : GpioPorts D)
    (hclean : s.Clean config op) :
    Decodes config (s.step config (spiPorts config extDevice earlier later) op) where
  named := h.named.write _ op
  reference_eq := by
    rw [h.reference_step _ hclean.1, ← h.reference_eq]
    exact SpiHistory.reference_foldl _ _
  level_eq := fun pin line hline => h.level_step _ hclean.1 hline
  tracks := by
    rw [h.decoder_step hpins]
    exact h.tracks.foldl hclean.2

end Decodes

end SpiBench

/-- **Software SPI decodes the waveform**, in every run whose writes are clean.  The lines that one
write changes change one after the other, in the order of their pins. -/
theorem spi_decodes_waveform {config : SoftwareSpiConfig} (hpins : config.Separate)
    (extDevice : Option (ExtDevice Unit U8 D)) (earlier later : GpioPorts D) (d : D)
    {ops : List GpioWrite} {s : SpiBench D}
    (hrun : Run (guardedStep (SpiBench.Clean config)
      (stepRel fun s op => some (s.step config (spiPorts config extDevice earlier later) op)))
      (.new d) ops s) :
    s.board.world.handed = s.reference.bytes := by
  have hdecodes : SpiBench.Decodes config s := by
    refine hrun.invariant_state (SpiBench.Decodes.new config d) fun s s' op h hstep => ?_
    obtain ⟨hclean, hstep⟩ := hstep
    rw [← Option.some.inj hstep]
    exact h.step hpins extDevice earlier later hclean
  rw [← hdecodes.reference_eq]
  exact hdecodes.tracks.handed_eq

/-! ## Two transfers -/

/-- `CS`, `CLK`, `MISO` and `MOSI` on the first pins of port A. -/
def portASpi : SoftwareSpiConfig := ⟨some ⟨0, 0⟩, ⟨0, 1⟩, ⟨0, 2⟩, ⟨0, 3⟩⟩

/-- A write to `BSRR` of port A. -/
def bsrrA (value : U32) : GpioWrite := ⟨0, 0x0018, value⟩

/-- `CLK` rises and falls. -/
def clockPulse : List GpioWrite := [bsrrA 0x2, bsrrA 0x20000]

/-- `CS` falls, and each bit of `0xa5` is driven before the clock. -/
def cleanTransfer : List GpioWrite :=
  [bsrrA 0x1, bsrrA 0x10000] ++
    ([true, false, true, false, false, true, false, true].flatMap fun bit =>
      bsrrA (if bit then 0x8 else 0x80000) :: clockPulse)

theorem spi_decodes_waveform_clean : ∃ s : SpiBench Unit,
    s.board.world.handed = [0xa5] ∧ s.board.world.handed = s.reference.bytes := by
  have hexec : (execGuarded (SpiBench.Clean portASpi)
      (fun s op => some (s.step portASpi (spiPorts portASpi none .default .default) op))
      (SpiBench.new ()) cleanTransfer).map (fun s => s.board.world.handed) = some [0xa5] := by
    decide +kernel
  obtain ⟨s, hexec, hhanded⟩ := Option.map_eq_some_iff.mp hexec
  exact ⟨s, hhanded, spi_decodes_waveform
    ⟨by decide, by decide, by decide⟩ none .default .default () (Run.of_execGuarded hexec)⟩

/-- `MOSI` is high before `CS` falls and stays high: every sample should be one, and the device is
handed zero. -/
theorem spi_misses_early_mosi :
    let s := ([bsrrA 0x9, bsrrA 0x10000] ++ (List.replicate 8 clockPulse).flatten).foldl
      (SpiBench.step portASpi (spiPorts portASpi none .default .default)) (SpiBench.new ())
    s.board.world.handed = [0x00] ∧ s.reference.bytes = [0xff] := by
  decide +kernel

end Stm32Emulator
