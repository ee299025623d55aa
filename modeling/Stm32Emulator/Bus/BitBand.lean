import Stm32Emulator.Bus.Access
import Stm32Emulator.Bus.Registers
import Stm32Emulator.Engine.RegisterFile
import Stm32Emulator.Foundation.Run

/-!
# Plain registers under every kind of access

Over plain registers the peripherals are a flat memory of 32-bit words: `wordAt` is the word at each
address, an ordinary write merges its bytes into one word, and a write to the bit-band region sets
one bit of one word.  The model agrees with the flat memory on every ordinary write.  On a write to
the bit-band region it agrees exactly when the byte around the bit is clear but for the bit itself,
and the bit is not cleared (`KeepsByte`): the model masks the byte with the bit and not with its
complement.
-/

namespace Stm32Emulator

open Function

variable {U D : Type}

namespace Peripherals

/-! ## Words by address -/

/-- The word that the register at an address holds. -/
def wordAt (S : SlotSearch) (p : Peripherals U D) (addr : U32) : U32 :=
  match getPeripheral S p.slots addr with
  | some (_, slot) => slot.peripheral.word p.sys (addr - slot.start)
  | none => 0

/-- A plain register stands at the address, and no second window on it anywhere. -/
def IsPlain (S : SlotSearch) (p : Peripherals U D) (addr : U32) : Prop :=
  ∃ i slot, getPeripheral S p.slots addr = some (i, slot) ∧
    slot.peripheral.plain (addr - slot.start) ∧
    ∀ j slot', j ≠ i → p.slots[j]? = some slot' → ¬ slot.peripheral.SharesState slot'.peripheral

section Words

variable {S : SlotSearch} {p : Peripherals U D} {addr : U32}

/-- Reading a plain register gives its word and changes nothing. -/
lemma IsPlain.readPeripheral (h : p.IsPlain S addr) :
    p.readPeripheral S addr = some (p, p.wordAt S addr) := by
  obtain ⟨i, slot, hget, hplain, -⟩ := h
  obtain ⟨-, hslot⟩ := getPeripheral_eq_some_iff.mp hget
  obtain ⟨hi, rfl⟩ := List.getElem?_eq_some_iff.mp hslot
  have hself : p.slots.set i p.slots[i] = p.slots := List.set_getElem_self hi
  simp only [Peripherals.readPeripheral, wordAt, hget, Peripheral.read_of_plain hplain,
    Option.map_some, hself]

/-- Where the slots stand, only the peripheral of one of them replaced. -/
lemma getPeripheral_set {slots : List (PeripheralSlot D)} {i : ℕ} {slot : PeripheralSlot D}
    (h : slots[i]? = some slot) (peripheral : Peripheral D) (addr : U32) :
    getPeripheral S (slots.set i { slot with peripheral := peripheral }) addr
      = (getPeripheral S slots addr).map fun r =>
          (r.1, if r.1 = i then { slot with peripheral := peripheral } else r.2) := by
  unfold getPeripheral
  rw [lookup_set S h]
  cases hlookup : lookup (fun slot : PeripheralSlot D => slot.start.toNat)
    (fun slot => slot.end_.toNat) S slots addr.toNat with
  | none => rfl
  | some j =>
    simp only [Option.bind_some, Option.map_map, comp_def]
    by_cases hj : j = i
    · subst hj
      obtain ⟨hlt, rfl⟩ := List.getElem?_eq_some_iff.mp h
      simp [hlt]
    · rw [List.getElem?_set_ne (Ne.symm hj)]
      simp [hj]

variable [UnicornEngine U]

/-- Writing a plain register replaces its word and no other. -/
lemma IsPlain.writePeripheral (h : p.IsPlain S addr) (value : U32) :
    ∃ p', p.writePeripheral S addr value = some p' ∧
      p'.wordAt S = update (p.wordAt S) addr value ∧ ∀ b, p.IsPlain S b → p'.IsPlain S b := by
  obtain ⟨i, slot, hget, hplain, halone⟩ := h
  obtain ⟨-, hslot⟩ := getPeripheral_eq_some_iff.mp hget
  obtain ⟨peripheral, sys, hwrite, heffect⟩ := Peripheral.write_of_plain hplain p.sys value
  refine ⟨{ slots := p.slots.set i { slot with peripheral := peripheral }, sys := sys }, ?_, ?_, ?_⟩
  · simp only [Peripherals.writePeripheral, hget, hwrite, Option.map_some]
  · funext b
    unfold wordAt
    rw [getPeripheral_set hslot, update_apply]
    by_cases hb : b = addr
    · subst hb
      simp [hget, heffect.word]
    rw [if_neg hb]
    cases hother : getPeripheral S p.slots b with
    | none => rfl
    | some r =>
      rcases r with ⟨j, slot'⟩
      obtain ⟨-, hslot'⟩ := getPeripheral_eq_some_iff.mp hother
      by_cases hj : j = i
      · subst hj
        obtain rfl : slot = slot' := Option.some.inj (hslot.symm.trans hslot')
        have hne : b - slot.start ≠ addr - slot.start := fun heq => hb (by bv_omega)
        simp [heffect.word, hne]
      · simp [hj, heffect.elsewhere _ (halone j slot' hj hslot')]
  · -- every slot keeps its kind, and with it what it shares
    have hold : ∀ {n : ℕ} {slot' : PeripheralSlot D},
        (p.slots.set i { slot with peripheral := peripheral })[n]? = some slot' → ∃ old,
          p.slots[n]? = some old ∧ slot'.start = old.start ∧
          (∀ o, slot'.peripheral.plain o = old.peripheral.plain o) ∧
          ∀ q, slot'.peripheral.SharesState q ↔ old.peripheral.SharesState q := by
      intro n slot' hn
      by_cases hni : n = i
      · subst hni
        obtain ⟨hlt, -⟩ := List.getElem?_eq_some_iff.mp hslot
        rw [List.getElem?_set_self hlt] at hn
        obtain rfl := Option.some.inj hn
        exact ⟨slot, hslot, rfl, heffect.plain, heffect.sharesState⟩
      · rw [List.getElem?_set_ne (Ne.symm hni)] at hn
        exact ⟨slot', hn, rfl, fun _ => rfl, fun _ => Iff.rfl⟩
    rintro b ⟨j, slot', hother, hplain', halone'⟩
    obtain ⟨-, hslot'⟩ := getPeripheral_eq_some_iff.mp hother
    have hnew : getPeripheral S (p.slots.set i { slot with peripheral := peripheral }) b
        = some (j, if j = i then { slot with peripheral := peripheral } else slot') := by
      rw [getPeripheral_set hslot, hother]
      rfl
    obtain ⟨old, hj, hstart, hplainj, hshares⟩ := hold (getPeripheral_eq_some_iff.mp hnew).2
    obtain rfl : slot' = old := Option.some.inj (hslot'.symm.trans hj)
    refine ⟨j, _, hnew, ?_, ?_⟩
    · rw [hstart, hplainj, hplain']
    · intro n other hnj hn
      obtain ⟨old, hold, -, -, hsharesn⟩ := hold hn
      rw [hshares, Peripheral.SharesState.comm, hsharesn, Peripheral.SharesState.comm]
      exact halone' n old hnj hold

/-- A short write of a plain register merges its bytes into the word. -/
lemma IsPlain.writeDirect {size : ℕ} (hreg : isRegister addr) (hband : bitbanding addr = none)
    (h : p.IsPlain S (alignAddr4 addr).1) (hfit : (alignAddr4 addr).2 + size ≤ 4) (value : U32) :
    ∃ p', p.writeDirect S addr size value = some p' ∧
      p'.wordAt S = update (p.wordAt S) (alignAddr4 addr).1
        (mergeLanes (p.wordAt S (alignAddr4 addr).1) (value <<< (8 * (alignAddr4 addr).2))
          (laneMask size (alignAddr4 addr).2)) ∧
      ∀ b, p.IsPlain S b → p'.IsPlain S b := by
  rcases Nat.lt_or_ge size 4 with hsize | hsize
  · rw [writeDirect_of_lt hreg hband hfit hsize, h.readPeripheral]
    exact h.writePeripheral _
  · obtain ⟨rfl, hoff⟩ : size = 4 ∧ (alignAddr4 addr).2 = 0 := by omega
    have hmerge : mergeLanes (p.wordAt S (alignAddr4 addr).1) (value <<< (8 * 0))
        (laneMask 4 0) = value := by
      apply BitVec.eq_of_getLsbD_eq
      intro i hi
      rw [getLsbD_mergeLanes, getLsbD_laneMask (by omega) hi, if_pos (by simpa using hi)]
      simp
    rw [writeDirect_word hreg hfit, hoff, hmerge]
    exact h.writePeripheral _

end Words

/-! ## Bits by address -/

/-- The word with one bit set or cleared. -/
def setBit (word : U32) (bit : ℕ) (b : Bool) : U32 :=
  if b then word ||| (1#32 <<< bit) else word &&& ~~~(1#32 <<< bit)

lemma getLsbD_setBit (word : U32) (bit : ℕ) (b : Bool) {i : ℕ} (hi : i < 32) :
    (setBit word bit b).getLsbD i = if i = bit then b else word.getLsbD i := by
  unfold setBit
  by_cases hbit : i = bit
  · subst hbit
    cases b <;>
      simp only [Bool.false_eq_true, if_false, if_true, BitVec.getLsbD_or, BitVec.getLsbD_and,
      BitVec.getLsbD_not, getLsbD_one_shiftLeft, hi] <;> simp
  · cases b <;>
      simp only [Bool.false_eq_true, if_false, if_true, BitVec.getLsbD_or, BitVec.getLsbD_and,
      BitVec.getLsbD_not, getLsbD_one_shiftLeft, hi, hbit] <;> simp

/-- What the flat memory makes of a write: a bit of one word for an address in the bit-band region,
and `size` bytes of one word elsewhere. -/
def flatWrite (words : U32 → U32) (addr : U32) (size : ℕ) (value : U32) : U32 → U32 :=
  match bitbanding addr with
  | some (byte, bitNumber) =>
    update words (alignAddr4 byte).1
      (setBit (words (alignAddr4 byte).1) (8 * (alignAddr4 byte).2 + bitNumber) (value.getLsbD 0))
  | none =>
    update words (alignAddr4 addr).1
      (mergeLanes (words (alignAddr4 addr).1) (value <<< (8 * (alignAddr4 addr).2))
        (laneMask size (alignAddr4 addr).2))

/-- The byte around a bit is clear but for the bit itself, and a set bit is not cleared. -/
def KeepsByte (word : U32) (byteOffset bitNumber : ℕ) (value : U32) : Prop :=
  (word.getLsbD (8 * byteOffset + bitNumber) = true → value.getLsbD 0 = true) ∧
    ∀ i < 8, i ≠ bitNumber → word.getLsbD (8 * byteOffset + i) = false

instance (word : U32) (byteOffset bitNumber : ℕ) (value : U32) :
    Decidable (KeepsByte word byteOffset bitNumber value) :=
  inferInstanceAs (Decidable (_ ∧ _))

/-- The bits of the byte that a write to the bit-band region makes: all but the addressed bit are
clear, and that bit is the old one or the new one. -/
lemma getLsbD_bitbandByte (v value : U32) {bitNumber i : ℕ} (hi : i < 32) :
    (bitbandByte v value bitNumber).getLsbD i
      = (decide (i = bitNumber) && (v.getLsbD i || value.getLsbD 0)) := by
  rw [bitbandByte, and_one_eq value (by omega), BitVec.getLsbD_or, BitVec.getLsbD_and,
    getLsbD_one_shiftLeft]
  have hzero : (0#32 <<< bitNumber).getLsbD i = false := by simp
  by_cases hbit : i = bitNumber
  · subst hbit
    split_ifs with hvalue
    · rw [getLsbD_one_shiftLeft]
      simp [hi, hvalue]
    · rw [hzero, Bool.not_eq_true _ |>.mp hvalue]
      simp [hi]
  · split_ifs with hvalue
    · rw [getLsbD_one_shiftLeft]
      simp [hbit]
    · rw [hzero]
      simp [hbit]

/-- The word that a write to the bit-band region makes has the bit set or cleared, and nothing else
changed, exactly when `KeepsByte`. -/
lemma mergeLanes_bitbandByte_eq_iff (word value : U32) {byteOffset bitNumber : ℕ}
    (hoff : byteOffset < 4) (hbit : bitNumber < 8) :
    mergeLanes word (bitbandByte (word >>> (8 * byteOffset)) value bitNumber <<< (8 * byteOffset))
        (laneMask 1 byteOffset)
      = setBit word (8 * byteOffset + bitNumber) (value.getLsbD 0) ↔
    KeepsByte word byteOffset bitNumber value := by
  -- the bits of both words, inside the byte and outside it
  have hin : ∀ i < 8, (mergeLanes word (bitbandByte (word >>> (8 * byteOffset)) value bitNumber <<<
      (8 * byteOffset)) (laneMask 1 byteOffset)).getLsbD (8 * byteOffset + i)
        = (decide (i = bitNumber) && (word.getLsbD (8 * byteOffset + i) || value.getLsbD 0)) := by
    intro i hi
    have hlt : 8 * byteOffset + i < 32 := by omega
    rw [getLsbD_mergeLanes, getLsbD_laneMask (by omega) hlt, if_pos (by simp; omega),
      BitVec.getLsbD_shiftLeft, Nat.add_sub_cancel_left, getLsbD_bitbandByte _ _ (by omega),
      BitVec.getLsbD_ushiftRight]
    simp [hlt]
  have hout : ∀ i < 32, ¬ (8 * byteOffset ≤ i ∧ i < 8 * byteOffset + 8) →
      (mergeLanes word (bitbandByte (word >>> (8 * byteOffset)) value bitNumber <<<
        (8 * byteOffset)) (laneMask 1 byteOffset)).getLsbD i = word.getLsbD i := by
    intro i hi hlane
    rw [getLsbD_mergeLanes, getLsbD_laneMask (by omega) hi, if_neg (by simp; omega)]
  constructor
  · intro h
    have hbits : ∀ i < 8,
        (decide (i = bitNumber) && (word.getLsbD (8 * byteOffset + i) || value.getLsbD 0))
        = if i = bitNumber then value.getLsbD 0 else word.getLsbD (8 * byteOffset + i) := by
      intro i hi
      rw [← hin i hi, h, getLsbD_setBit _ _ _ (by omega)]
      simp
    constructor
    · intro hset
      simpa [hset] using hbits bitNumber hbit
    · intro i hi hne
      simpa [hne] using (hbits i hi).symm
  · rintro ⟨hset, hclear⟩
    apply BitVec.eq_of_getLsbD_eq
    intro i hi
    rw [getLsbD_setBit _ _ _ hi]
    by_cases hlane : 8 * byteOffset ≤ i ∧ i < 8 * byteOffset + 8
    · obtain ⟨j, rfl⟩ := Nat.exists_eq_add_of_le hlane.1
      rw [hin j (by omega)]
      by_cases hj : j = bitNumber
      · subst hj
        cases hword : word.getLsbD (8 * byteOffset + j)
        · simp
        · simp [hset hword]
      · rw [hclear j (by omega) hj]
        simp [hj]
    · rw [hout i hi hlane, if_neg (by omega)]

section Faithful

variable {S : SlotSearch} {p : Peripherals U D} {addr byte : U32} {bitNumber : ℕ}

/-- Reading in the bit-band region gives the bit. -/
lemma IsPlain.read_bitband (hband : bitbanding addr = some (byte, bitNumber))
    (h : p.IsPlain S (alignAddr4 byte).1) (size : ℕ) :
    p.read S addr size = some (p,
      if (p.wordAt S (alignAddr4 byte).1).getLsbD (8 * (alignAddr4 byte).2 + bitNumber) then 1#32
      else 0#32) := by
  obtain ⟨hreg, -, hbit⟩ := isRegister_of_bitbanding hband
  have hfit : (alignAddr4 byte).2 + 1 ≤ 4 := alignAddr4_snd_lt byte
  simp only [Peripherals.read, hband, readDirect_of_isRegister hreg hfit, h.readPeripheral,
    Option.map_some]
  rw [and_one_eq _ (by omega), BitVec.getLsbD_ushiftRight, BitVec.getLsbD_ushiftRight, Nat.add_zero]

variable [UnicornEngine U]

/-- A write to the bit-band region is a write of the byte around the bit. -/
lemma IsPlain.write_bitband (hband : bitbanding addr = some (byte, bitNumber))
    (h : p.IsPlain S (alignAddr4 byte).1) (size : ℕ) (value : U32) :
    ∃ p', p.write S addr size value = some p' ∧
      p'.wordAt S = update (p.wordAt S) (alignAddr4 byte).1
        (mergeLanes (p.wordAt S (alignAddr4 byte).1)
          (bitbandByte (p.wordAt S (alignAddr4 byte).1 >>> (8 * (alignAddr4 byte).2))
            value bitNumber <<< (8 * (alignAddr4 byte).2)) (laneMask 1 (alignAddr4 byte).2)) ∧
      ∀ b, p.IsPlain S b → p'.IsPlain S b := by
  obtain ⟨hreg, hnone, -⟩ := isRegister_of_bitbanding hband
  have hfit : (alignAddr4 byte).2 + 1 ≤ 4 := alignAddr4_snd_lt byte
  simp only [Peripherals.write, hband, readDirect_of_isRegister hreg hfit, h.readPeripheral,
    Option.map_some, Option.bind_some]
  exact h.writeDirect hreg hnone hfit _

/-- A write to the bit-band region acts as on the flat memory. -/
def BitBandFaithful (S : SlotSearch) (p : Peripherals U D) (addr : U32) (size : ℕ)
    (value : U32) : Prop :=
  ∃ p', p.write S addr size value = some p' ∧ p'.wordAt S = flatWrite (p.wordAt S) addr size value

lemma IsPlain.bitBandFaithful_iff (hband : bitbanding addr = some (byte, bitNumber))
    (h : p.IsPlain S (alignAddr4 byte).1) (size : ℕ) (value : U32) :
    BitBandFaithful S p addr size value ↔
      KeepsByte (p.wordAt S (alignAddr4 byte).1) (alignAddr4 byte).2 bitNumber value := by
  obtain ⟨-, -, hbit⟩ := isRegister_of_bitbanding hband
  obtain ⟨p', hwrite, hwords, -⟩ := h.write_bitband hband size value
  rw [← mergeLanes_bitbandByte_eq_iff _ _ (alignAddr4_snd_lt byte) hbit]
  unfold BitBandFaithful flatWrite
  rw [hband]
  constructor
  · rintro ⟨p'', hp'', hflat⟩
    obtain rfl : p' = p'' := Option.some.inj (hwrite.symm.trans hp'')
    have hword := congrFun (hwords.symm.trans hflat) (alignAddr4 byte).1
    simpa using hword
  · intro heq
    refine ⟨p', hwrite, ?_⟩
    rw [hwords, heq]

end Faithful

/-! ## Sequences of writes -/

/-- A write by the guest. -/
structure BusWrite where
  addr : U32
  size : ℕ
  value : U32
  deriving DecidableEq, Repr

section Runs

variable {S : SlotSearch} {p : Peripherals U D}

/-- The write goes to a plain register, and not across the end of a word. -/
def TargetsPlain (S : SlotSearch) (p : Peripherals U D) (w : BusWrite) : Prop :=
  match bitbanding w.addr with
  | some (byte, _) => p.IsPlain S (alignAddr4 byte).1
  | none =>
    isRegister w.addr ∧ (alignAddr4 w.addr).2 + w.size ≤ 4 ∧ p.IsPlain S (alignAddr4 w.addr).1

/-- The write is not to the bit-band region, or it keeps the byte around its bit. -/
def Keeps (words : U32 → U32) (w : BusWrite) : Prop :=
  match bitbanding w.addr with
  | some (byte, bitNumber) =>
    KeepsByte (words (alignAddr4 byte).1) (alignAddr4 byte).2 bitNumber w.value
  | none => True

/-- One step of the flat memory. -/
def flatStep (words : U32 → U32) (w : BusWrite) : Option (U32 → U32) :=
  some (flatWrite words w.addr w.size w.value)

lemma TargetsPlain.mono {p' : Peripherals U D} {w : BusWrite} (h : p.TargetsPlain S w)
    (hkept : ∀ b, p.IsPlain S b → p'.IsPlain S b) : p'.TargetsPlain S w := by
  unfold TargetsPlain at h ⊢
  split at h
  · exact hkept _ h
  · exact ⟨h.1, h.2.1, hkept _ h.2.2⟩

variable [UnicornEngine U]

/-- One step of the model. -/
def busStep (S : SlotSearch) (p : Peripherals U D) (w : BusWrite) : Option (Peripherals U D) :=
  p.write S w.addr w.size w.value

/-- A step of the flat memory that keeps its byte is a step of the model. -/
lemma busStep_of_flatStep {w : BusWrite} {words : U32 → U32} (hplain : p.TargetsPlain S w)
    (hkeeps : Keeps (p.wordAt S) w) (hstep : flatStep (p.wordAt S) w = some words) :
    ∃ p', busStep S p w = some p' ∧ p'.wordAt S = words ∧ ∀ b, p.IsPlain S b → p'.IsPlain S b := by
  obtain rfl : flatWrite (p.wordAt S) w.addr w.size w.value = words := Option.some.inj hstep
  unfold busStep flatWrite
  unfold TargetsPlain at hplain
  unfold Keeps at hkeeps
  cases hband : bitbanding w.addr with
  | some r =>
    rcases r with ⟨byte, bitNumber⟩
    rw [hband] at hplain hkeeps
    obtain ⟨-, -, hbit⟩ := isRegister_of_bitbanding hband
    obtain ⟨p', hwrite, hwords, hkept⟩ := hplain.write_bitband hband w.size w.value
    rw [(mergeLanes_bitbandByte_eq_iff _ _ (alignAddr4_snd_lt byte) hbit).mpr hkeeps] at hwords
    exact ⟨p', hwrite, hwords, hkept⟩
  | none =>
    rw [hband] at hplain
    obtain ⟨hreg, hfit, hword⟩ := hplain
    simp only [Peripherals.write, hband]
    exact hword.writeDirect hreg hband hfit w.value

/-- A run of the flat memory whose writes keep their bytes is a run of the model. -/
lemma run_of_flatRun {ws : List BusWrite} {words : U32 → U32}
    (hplain : ∀ w ∈ ws, p.TargetsPlain S w)
    (hrun : Run (guardedStep Keeps (stepRel flatStep)) (p.wordAt S) ws words) :
    ∃ p', Run (stepRel (busStep S)) p ws p' ∧ p'.wordAt S = words ∧
      ∀ b, p.IsPlain S b → p'.IsPlain S b := by
  induction hrun with
  | nil => exact ⟨p, Run.nil, rfl, fun _ => id⟩
  | snoc _ hstep ih =>
    obtain ⟨p₁, hrun₁, hwords, hkept⟩ := ih fun w hw => hplain w (List.mem_append_left _ hw)
    have htarget := (hplain _ (List.mem_append_right _ (List.mem_singleton_self _))).mono hkept
    obtain ⟨hkeeps, hflat⟩ := hstep
    obtain ⟨p', hmodel, hwords', hkept'⟩ :=
      busStep_of_flatStep htarget (by rwa [hwords]) (by rw [hwords]; exact hflat)
    exact ⟨p', hrun₁.snoc hmodel, hwords', fun b hb => hkept' b (hkept b hb)⟩

/-- **Plain registers are a flat memory, up to the bytes that bit-band writes clear.**  A write to
the bit-band region sets its bit and nothing else exactly when it keeps its byte, a read there gives
the bit, and every run of the flat memory whose writes keep their bytes is one of the model. -/
theorem bit_band_accesses (S : SlotSearch) (p : Peripherals U D) :
    (∀ addr byte bitNumber size value, bitbanding addr = some (byte, bitNumber) →
      p.IsPlain S (alignAddr4 byte).1 →
        (BitBandFaithful S p addr size value ↔
          KeepsByte (p.wordAt S (alignAddr4 byte).1) (alignAddr4 byte).2 bitNumber value) ∧
        p.read S addr size = some (p,
          if (p.wordAt S (alignAddr4 byte).1).getLsbD
            (8 * (alignAddr4 byte).2 + bitNumber) then 1#32
          else 0#32)) ∧
    ∀ ws words, (∀ w ∈ ws, p.TargetsPlain S w) →
      Run (guardedStep Keeps (stepRel flatStep)) (p.wordAt S) ws words →
        ∃ p', Run (stepRel (busStep S)) p ws p' ∧ p'.wordAt S = words := by
  refine ⟨fun addr byte bitNumber size value hband hplain =>
    ⟨hplain.bitBandFaithful_iff hband size value, hplain.read_bitband hband size⟩, ?_⟩
  intro ws words hplain hrun
  obtain ⟨p', hmodel, hwords, -⟩ := run_of_flatRun hplain hrun
  exact ⟨p', hmodel, hwords⟩

/-- A timer whose interrupt enable register holds `3`, as the only peripheral. -/
def sampleTimer : Peripherals RegisterFile Unit where
  slots := [⟨0x40000c00, 0x40000c50, .tim5 { Tim5.default with dier := 3 }⟩]
  sys := ⟨.default, .default, .default, sampleCpu 0, (), 0⟩

/-- The register stands at offset `0x0c`. -/
lemma isPlain_sampleTimer : sampleTimer.IsPlain BinarySearch.linear 0x40000c0c := by
  refine ⟨0, ⟨0x40000c00, 0x40000c50, .tim5 { Tim5.default with dier := 3 }⟩, rfl, by decide, ?_⟩
  intro j slot hj hslot
  rcases j with _ | j
  · exact absurd rfl hj
  · simp [sampleTimer] at hslot

/-- Clearing the register, setting bit one of it through the bit-band region, and then a byte. -/
def sampleWrites : List BusWrite := [⟨0x40000c0c, 4, 0⟩, ⟨0x42018184, 4, 1⟩, ⟨0x40000c0d, 1, 5⟩]

theorem bit_band_accesses_sample :
    (BitBandFaithful BinarySearch.linear sampleTimer 0x42018180 4 1 ↔
      KeepsByte (sampleTimer.wordAt BinarySearch.linear 0x40000c0c) 0 0 1) ∧
    ∃ p', Run (stepRel (busStep BinarySearch.linear)) sampleTimer sampleWrites p' ∧
      p'.wordAt BinarySearch.linear 0x40000c0c = 0x502 := by
  obtain ⟨hbit, hruns⟩ := bit_band_accesses BinarySearch.linear sampleTimer
  refine ⟨(hbit 0x42018180 0x40000c0c 0 4 1 rfl isPlain_sampleTimer).1, ?_⟩
  have hplain : ∀ w ∈ sampleWrites, sampleTimer.TargetsPlain BinarySearch.linear w := by
    intro w hw
    simp only [sampleWrites, List.mem_cons, List.not_mem_nil, or_false] at hw
    rcases hw with rfl | rfl | rfl
    · exact ⟨rfl, by decide, isPlain_sampleTimer⟩
    · exact isPlain_sampleTimer
    · exact ⟨rfl, by decide, isPlain_sampleTimer⟩
  have hkeeps :
      KeepsByte (flatWrite (sampleTimer.wordAt BinarySearch.linear) 0x40000c0c 4 0 0x40000c0c)
      0 1 1 := by
    decide +kernel
  obtain ⟨p', hrun, hwords⟩ := hruns sampleWrites _ hplain
    (((Run.nil.snoc ⟨trivial, rfl⟩).snoc ⟨hkeeps, rfl⟩).snoc ⟨trivial, rfl⟩)
  refine ⟨p', hrun, ?_⟩
  rw [hwords]
  decide +kernel

/-- Setting the lowest bit of the register, which is set already, clears the bit above it. -/
theorem bit_band_clears_neighbour :
    (sampleTimer.write BinarySearch.linear 0x42018180 4 1).map
      (fun p => p.wordAt BinarySearch.linear 0x40000c0c) = some 1 ∧
    ¬ BitBandFaithful BinarySearch.linear sampleTimer 0x42018180 4 1 := by
  have hword : (sampleTimer.write BinarySearch.linear 0x42018180 4 1).map
      (fun p => p.wordAt BinarySearch.linear 0x40000c0c) = some 1 := by decide +kernel
  refine ⟨hword, ?_⟩
  rintro ⟨p', hwrite, hflat⟩
  rw [hwrite, Option.map_some, hflat] at hword
  revert hword
  decide +kernel

end Runs

end Peripherals

end Stm32Emulator
