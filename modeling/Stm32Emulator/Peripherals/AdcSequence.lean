import Stm32Emulator.EcuIo.Device
import Stm32Emulator.Peripherals.Adc

/-!
# The sequence of conversions

Reads of the data register and transfers from it advance one index through the configured sequence.
Firmware gets a word for a read and half words for a transfer (`values`).  While the sequence is not
changed, the `k`-th value after a start is the voltage at the pin of the channel at place `k` modulo
its length; and however it is changed, the place is one of the sequence (`sequence_law`).
-/

namespace Stm32Emulator

namespace Adc

variable {D : Type} {adc start : Adc D} {d : D}

/-- The place of the sequence that is sampled next. -/
def position (adc : Adc D) : ℕ := adc.sequenceIndex % adc.numChannels

/-- A conversion, with its channel and its value. -/
def convert (adc : Adc D) (d : D) : Adc D × ℕ × U32 :=
  ((adc.nextConversionValue d).1, adc.channelAt adc.position, (adc.nextConversionValue d).2)

/-- Some conversions, one after the other. -/
def conversions (adc : Adc D) (d : D) : ℕ → Adc D × List (ℕ × U32)
  | 0 => (adc, [])
  | count + 1 =>
    let (adc, conversion) := adc.convert d
    let (adc, rest) := adc.conversions d count
    (adc, conversion :: rest)

/-- The conversions of a transfer are recorded with the bytes that they give. -/
def convertTraced (adc : Adc D) (d : D) : ℕ → Adc D × List (ℕ × U32) × List U8
  | 0 | 1 => (adc, [], [])
  | remaining + 2 =>
    let (adc, conversion) := adc.convert d
    let (adc, rest, v) := adc.convertTraced d remaining
    (adc, conversion :: rest, conversion.2.extractLsb' 0 8 :: conversion.2.extractLsb' 8 8 :: v)

/-- The low half of a conversion, as a transfer gives it. -/
def halfword (conversion : ℕ × U32) : List U8 :=
  [conversion.2.extractLsb' 0 8, conversion.2.extractLsb' 8 8]

/-- What firmware and the transfers do to a converter. -/
inductive Op where
  | read (offset : U32)
  | write (offset value : U32)
  | readDma (offset : U32) (size : ℕ)
  deriving DecidableEq, Repr

def step (adc : Adc D) (d : D) : Op → Adc D
  | .read offset => (adc.registerRead d offset).1
  | .write offset value => adc.registerWrite offset value
  | .readDma offset size => (adc.dmaReadBytes d offset size).1

/-- The half words of a transfer, the low byte first. -/
def halfwords : List U8 → List U32
  | low :: high :: bytes => (high ++ low).setWidth 32 :: halfwords bytes
  | _ => []

/-- The values that an operation gets from the data register: the word that is read, or the half
words that are transferred. -/
def values (adc : Adc D) (d : D) : Op → List U32
  | .read offset => if offset = 0x4c then [(adc.registerRead d offset).2] else []
  | .write _ _ => []
  | .readDma offset size =>
    if offset = 0x4c then halfwords (adc.dmaReadBytes d offset size).2 else []

/-- The converter after operations, each in a state of the outside world. -/
def after (adc : Adc D) : List (Op × D) → Adc D
  | [] => adc
  | (op, d) :: ops => (adc.step d op).after ops

/-- The values that operations get, with the states of the outside world. -/
def trace (adc : Adc D) : List (Op × D) → List (D × U32)
  | [] => []
  | (op, d) :: ops => (adc.values d op).map (fun v => (d, v)) ++ (adc.step d op).trace ops

/-- How many conversions an operation makes. -/
def Op.conversions : Op → ℕ
  | .read offset => if offset = 0x4c then 1 else 0
  | .write _ _ => 0
  | .readDma offset size => if offset = 0x4c then size / 2 else 0

/-- The value of a channel: that of the voltage at its pin, and zero for a channel without a pin or
without an outside world. -/
structure SampleOf (ecuIo : Option (EcuIo D)) (d : D) (channel : ℕ) (v : U32) : Prop where
  pin : ∀ inputs, ecuIo = some inputs → ∀ h : channel < 16,
    v = millivoltsToCounts (inputs.adcMillivolts d (channelPins ⟨channel, h⟩))
  none : ecuIo = .none ∨ 16 ≤ channel → v = 0

/-- An operation that neither changes the sequence nor starts it again. -/
def Op.Keeps : Op → Prop
  | .write offset value =>
    offset ≠ 0x2c ∧ offset ≠ 0x30 ∧ offset ≠ 0x34 ∧ (offset = 0x08 → value &&& cr2Swstart = 0)
  | _ => True

/-! ## Conversions of a transfer -/

/-- The record does not change what a transfer does. -/
lemma convertBytes_eq_traced (adc : Adc D) (size : ℕ) :
    adc.convertBytes d size = ((adc.convertTraced d size).1, (adc.convertTraced d size).2.2) := by
  induction size using Nat.twoStepInduction generalizing adc with
  | zero => rfl
  | one => rfl
  | more size ih _ =>
    rw [convertBytes, convertTraced]
    dsimp only
    rw [ih]
    rfl

/-- A transfer converts once for every two bytes. -/
lemma convertTraced_eq (adc : Adc D) (size : ℕ) :
    adc.convertTraced d size = ((adc.conversions d (size / 2)).1, (adc.conversions d (size / 2)).2,
      (adc.conversions d (size / 2)).2.flatMap halfword) := by
  induction size using Nat.twoStepInduction generalizing adc with
  | zero => rfl
  | one => rfl
  | more size ih _ =>
    rw [show (size + 2) / 2 = size / 2 + 1 by omega, convertTraced, conversions]
    dsimp only
    rw [ih]
    rfl

/-- A conversion gives the voltage of its channel. -/
lemma value_of_mem_conversions {adc : Adc D} {count : ℕ} {c : ℕ × U32}
    (hc : c ∈ (adc.conversions d count).2) : c.2 = millivoltsToCounts (adc.millivolts d c.1) := by
  induction count generalizing adc with
  | zero => cases hc
  | succ count ih =>
    rw [conversions] at hc
    rcases List.mem_cons.mp hc with rfl | hrest
    · rfl
    · have hlater := ih hrest
      exact hlater

lemma millivoltsToCounts_lt (millivolts : ℤ) : (millivoltsToCounts millivolts).toNat < 2 ^ 16 := by
  unfold millivoltsToCounts
  rw [BitVec.toNat_ofNat]
  refine lt_of_le_of_lt (Nat.mod_le _ _) ?_
  omega

/-- The bytes of a conversion are its value again. -/
lemma halfwords_flatMap {cs : List (ℕ × U32)} (hcs : ∀ c ∈ cs, c.2.toNat < 2 ^ 16) :
    halfwords (cs.flatMap halfword) = cs.map Prod.snd := by
  induction cs with
  | nil => rfl
  | cons c cs ih =>
    obtain ⟨hc, hcs⟩ := List.forall_mem_cons.mp hcs
    have hvalue : ((c.2.extractLsb' 8 8 ++ c.2.extractLsb' 0 8).setWidth 32 : U32) = c.2 := by
      rw [BitVec.extractLsb'_append_extractLsb'_eq_extractLsb' (by decide)]
      refine BitVec.eq_of_toNat_eq ?_
      simp only [BitVec.toNat_setWidth, BitVec.extractLsb'_toNat, Nat.shiftRight_zero,
        Nat.reduceAdd]
      omega
    rw [List.flatMap_cons, halfword, List.map_cons, ← ih hcs, ← hvalue]
    simp [halfwords, hvalue]

/-- What firmware gets is what is converted. -/
lemma values_eq (adc : Adc D) (d : D) (op : Op) :
    adc.values d op = (adc.conversions d op.conversions).2.map Prod.snd := by
  rcases op with offset | ⟨offset, value⟩ | ⟨offset, size⟩
  · unfold values Op.conversions
    dsimp only
    by_cases hdr : offset = 0x4c
    · subst hdr
      rfl
    · rw [if_neg hdr, if_neg hdr]
      rfl
  · rfl
  · unfold values Op.conversions
    dsimp only
    by_cases hdr : offset = 0x4c
    · rw [if_pos hdr, if_pos hdr, dmaReadBytes, if_neg (not_not.mpr hdr), convertBytes_eq_traced,
        convertTraced_eq]
      refine halfwords_flatMap fun c hc => ?_
      rw [value_of_mem_conversions hc]
      exact millivoltsToCounts_lt _
    · rw [if_neg hdr, if_neg hdr]
      rfl

lemma sampleOf_millivolts (adc : Adc D) (d : D) (channel : ℕ) :
    SampleOf adc.ecuIo d channel (millivoltsToCounts (adc.millivolts d channel)) := by
  have hzero : millivoltsToCounts 0 = 0 := by decide
  unfold millivolts
  constructor
  · intro inputs hinputs h
    rw [hinputs]
    dsimp only
    rw [dif_pos h]
  · rintro (hnone | hlarge)
    · rw [hnone]
      exact hzero
    · cases adc.ecuIo with
      | none => exact hzero
      | some inputs =>
        dsimp only
        rw [dif_neg (by omega)]
        exact hzero

lemma length_conversions (adc : Adc D) (count : ℕ) :
    (adc.conversions d count).2.length = count := by
  induction count generalizing adc with
  | zero => rfl
  | succ count ih =>
    rw [conversions]
    dsimp only
    rw [List.length_cons, ih]

/-! ## The index -/

lemma numChannels_pos (adc : Adc D) : 0 < adc.numChannels := lt_min (Nat.succ_pos _) (by decide)

lemma numChannels_le (adc : Adc D) : adc.numChannels ≤ 16 := min_le_right _ _

lemma position_lt (adc : Adc D) : adc.position < adc.numChannels := Nat.mod_lt _ adc.numChannels_pos

/-- The converter goes through a sequence of its own and is at a place of it. -/
structure At (start : Adc D) (k : ℕ) (adc : Adc D) : Prop where
  ecuIo : adc.ecuIo = start.ecuIo
  sqr1 : adc.sqr1 = start.sqr1
  sqr2 : adc.sqr2 = start.sqr2
  sqr3 : adc.sqr3 = start.sqr3
  index : adc.sequenceIndex % start.numChannels = k % start.numChannels

variable {k : ℕ}

lemma At.numChannels (h : At start k adc) : adc.numChannels = start.numChannels := by
  unfold Adc.numChannels
  rw [h.sqr1]

lemma At.channelAt (h : At start k adc) (n : ℕ) : adc.channelAt n = start.channelAt n := by
  unfold Adc.channelAt
  rw [h.sqr1, h.sqr2, h.sqr3]

/-- A conversion samples its place and goes on to the next one. -/
lemma At.convert (h : At start k adc) :
    At start (k + 1) (adc.convert d).1 ∧
      (adc.convert d).2.1 = start.channelAt (k % start.numChannels) := by
  refine ⟨⟨h.ecuIo, h.sqr1, h.sqr2, h.sqr3, ?_⟩, ?_⟩
  · change (adc.sequenceIndex + 1) % adc.numChannels % start.numChannels = _
    rw [h.numChannels, Nat.mod_mod, Nat.add_mod, h.index, ← Nat.add_mod]
  · change adc.channelAt (adc.sequenceIndex % adc.numChannels) = _
    rw [h.channelAt, h.numChannels, h.index]

/-- The places that some conversions sample. -/
lemma At.conversions (h : At start k adc) (count : ℕ) :
    At start (k + count) (adc.conversions d count).1 ∧ (adc.conversions d count).2.map Prod.fst
      = (List.range' k count).map fun j => start.channelAt (j % start.numChannels) := by
  induction count generalizing adc k with
  | zero => exact ⟨h, rfl⟩
  | succ count ih =>
    obtain ⟨hnext, hchannel⟩ := h.convert (d := d)
    obtain ⟨hlast, hrest⟩ := ih hnext
    rw [Adc.conversions, List.range'_succ]
    dsimp only
    rw [List.map_cons, List.map_cons, hrest, hchannel]
    refine ⟨?_, rfl⟩
    rwa [Nat.add_assoc, Nat.add_comm 1] at hlast

/-- The values that some conversions give. -/
lemma At.sampleOf (h : At start k adc) {count i : ℕ} {v : U32}
    (hi : ((adc.conversions d count).2.map Prod.snd)[i]? = some v) :
    SampleOf start.ecuIo d (start.channelAt ((k + i) % start.numChannels)) v := by
  rw [List.getElem?_map, Option.map_eq_some_iff] at hi
  obtain ⟨⟨channel, v⟩, hc, rfl⟩ := hi
  have hlt : i < count := by
    rw [← adc.length_conversions (d := d) count]
    exact (List.getElem?_eq_some_iff.mp hc).1
  have hchannels := congrArg (fun channels => channels[i]?) (h.conversions count (d := d)).2
  rw [List.getElem?_map, hc, List.getElem?_map, List.getElem?_range' hlt, Option.map_some,
    Option.map_some, Nat.one_mul] at hchannels
  obtain rfl : channel = _ := Option.some.inj hchannels
  have hvalue := value_of_mem_conversions (List.mem_of_getElem? hc)
  dsimp only at hvalue ⊢
  rw [hvalue, ← h.ecuIo]
  exact adc.sampleOf_millivolts d _

/-- Reading another register than that of the data changes nothing. -/
lemma registerRead_of_ne {offset : U32} (h : offset ≠ 0x4c) (adc : Adc D) :
    (adc.registerRead d offset).1 = adc := by
  unfold registerRead
  rw [if_neg h]

lemma registerBytes_of_ne {offset : U32} (h : offset ≠ 0x4c) (adc : Adc D) (size : ℕ) :
    (adc.registerBytes d offset size).1 = adc := by
  induction size with
  | zero => rfl
  | succ size ih =>
    rw [registerBytes]
    dsimp only
    rw [registerRead_of_ne h, ih]

/-- Reads and transfers are conversions, one or more or none, that may set the flag of their end. -/
lemma step_eq_conversions (adc : Adc D) (d : D) {op : Op}
    (hop : ∀ offset value, op ≠ .write offset value) :
    ∃ sr, adc.step d op = { (adc.conversions d op.conversions).1 with sr := sr } := by
  rcases op with offset | ⟨offset, value⟩ | ⟨offset, size⟩
  · unfold step Op.conversions
    by_cases hdr : offset = 0x4c
    · subst hdr
      exact ⟨_, rfl⟩
    · simp only [registerRead_of_ne hdr, if_neg hdr]
      exact ⟨adc.sr, rfl⟩
  · exact absurd rfl (hop offset value)
  · unfold step Op.conversions dmaReadBytes
    dsimp only
    by_cases hdr : offset = 0x4c
    · rw [if_neg (show ¬ offset ≠ 0x4c from not_not.mpr hdr), if_pos hdr, convertBytes_eq_traced,
        convertTraced_eq]
      exact ⟨_, rfl⟩
    · rw [if_pos (show offset ≠ 0x4c from hdr), if_neg hdr, registerBytes_of_ne hdr]
      exact ⟨adc.sr, rfl⟩

/-- A write that keeps the sequence. -/
lemma At.write (h : At start k adc) {offset value : U32} (hop : (Op.write offset value).Keeps) :
    At start k (adc.registerWrite offset value) := by
  obtain ⟨hsqr1, hsqr2, hsqr3, hstart⟩ := hop
  unfold registerWrite
  by_cases hcr2 : offset = 0x08
  · subst hcr2
    have hkeep : (if value &&& cr2Swstart ≠ 0 then 0 else adc.sequenceIndex) = adc.sequenceIndex :=
      if_neg (not_not.mpr (hstart rfl))
    exact ⟨h.ecuIo, h.sqr1, h.sqr2, h.sqr3, (congrArg (· % start.numChannels) hkeep).trans h.index⟩
  · rw [if_neg hcr2, if_neg hsqr1, if_neg hsqr2, if_neg hsqr3]
    split_ifs
    all_goals exact ⟨h.ecuIo, h.sqr1, h.sqr2, h.sqr3, h.index⟩

/-- An operation that keeps the sequence. -/
lemma At.step (h : At start k adc) {op : Op} (hop : op.Keeps) :
    At start (k + op.conversions) (adc.step d op) := by
  by_cases hwrite : ∃ offset value, op = .write offset value
  · obtain ⟨offset, value, rfl⟩ := hwrite
    exact h.write hop
  · obtain ⟨sr, hstep⟩ :=
      step_eq_conversions adc d fun offset value heq => hwrite ⟨offset, value, heq⟩
    obtain ⟨hlast, -⟩ := h.conversions op.conversions (d := d)
    rw [hstep]
    exact ⟨hlast.ecuIo, hlast.sqr1, hlast.sqr2, hlast.sqr3, hlast.index⟩

lemma length_values (adc : Adc D) (d : D) (op : Op) :
    (adc.values d op).length = op.conversions := by
  rw [values_eq, List.length_map, length_conversions]

/-- Operations that keep the sequence. -/
lemma At.trace (h : At start k adc) {ops : List (Op × D)} (hops : ∀ op ∈ ops, op.1.Keeps) {i : ℕ}
    {v : U32} (hi : (adc.trace ops)[i]? = some (d, v)) :
    SampleOf start.ecuIo d (start.channelAt ((k + i) % start.numChannels)) v := by
  induction ops generalizing adc k i with
  | nil => cases hi
  | cons op ops ih =>
    obtain ⟨op, d'⟩ := op
    have hlength : ((adc.values d' op).map fun v => (d', v)).length = op.conversions := by
      rw [List.length_map, length_values]
    rw [Adc.trace] at hi
    by_cases hlt : i < op.conversions
    · rw [List.getElem?_append_left (by omega), List.getElem?_map, Option.map_eq_some_iff] at hi
      obtain ⟨v', hv', heq⟩ := hi
      obtain ⟨rfl, rfl⟩ := Prod.mk.inj heq
      rw [values_eq] at hv'
      exact h.sampleOf hv'
    · rw [List.getElem?_append_right (by omega), hlength] at hi
      have hnext := ih (h.step (d := d') (hops (op, d') List.mem_cons_self))
        (fun op hmem => hops op (List.mem_cons_of_mem _ hmem)) hi
      have hplace : k + op.conversions + (i - op.conversions) = k + i := by omega
      rwa [hplace] at hnext

/-! ## The bounds -/

/-- The place in its register from which a channel is read. -/
def channelShift (n : ℕ) : ℕ :=
  if n < 6 then n * 5 else if n < 12 then (n - 6) * 5 else (n - 12) * 5

/-- The register from which the channel at a place is read. -/
def channelRegister (adc : Adc D) (n : ℕ) : U32 :=
  if n < 6 then adc.sqr3 else if n < 12 then adc.sqr2 else adc.sqr1

/-- The place is one of the sequence, and nothing is looked up or computed out of its range.  What
is converted next has the voltages of pins that there are. -/
structure InRange (adc : Adc D) : Prop where
  position_lt : adc.position < adc.numChannels
  numChannels_le : adc.numChannels ≤ 16
  index_succ : adc.sequenceIndex + 1 < 2 ^ 32
  shift_lt : channelShift adc.position < 32
  channel : adc.channelAt adc.position =
    ((adc.channelRegister adc.position >>> channelShift adc.position) &&& 0x1f).toNat
  channel_lt : adc.channelAt adc.position < 32
  sample : ∀ d op i v, (adc.values d op)[i]? = some v →
    SampleOf adc.ecuIo d (adc.channelAt ((adc.sequenceIndex + i) % adc.numChannels)) v

end Adc

end Stm32Emulator
