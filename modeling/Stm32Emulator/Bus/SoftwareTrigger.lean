import Stm32Emulator.Bus.Routing

/-!
# Software triggers

A write to the trigger register makes the interrupt pending that the nine low bits of the word name.
The pending word has a bit for the interrupts below 112 only, and the number is shifted without a
look at it: the write is safe if and only if the number is below (`stir_safe_iff`).  What it makes
pending comes out of the search once its enable bit is written (`mem_searches`).
-/

namespace Stm32Emulator

variable {U D : Type}

/-! ## One search after the other -/

namespace Nvic

variable {nvic nvic' : Nvic} {irq : ℤ}

/-- The interrupts that up to `n` searches in a row find. -/
def searches : ℕ → Nvic → List ℤ
  | 0, _ => []
  | n + 1, nvic =>
    match nvic.getAndClearNextDispatchable with
    | some (irq, nvic') => irq :: searches n nvic'
    | none => []

/-- A search takes one interrupt and leaves the others. -/
lemma dispatchable_search (hfind : nvic.getAndClearNextDispatchable = some (irq, nvic')) (j : ℤ) :
    nvic'.Dispatchable j ↔ nvic.Dispatchable j ∧ j ≠ irq := by
  obtain ⟨hd, -, rfl⟩ := getAndClearNextDispatchable_eq_some_iff.mp hfind
  obtain ⟨hge, hlt⟩ := lt_of_isPending hd.1
  have hplace : ((irqOffset + irq).toNat : ℤ) - irqOffset = irq := by
    unfold irqOffset
    omega
  have hpending := isPending_clear nvic
    (show (irqOffset + irq).toNat < 128 by unfold irqOffset; omega) j
  rw [hplace] at hpending
  unfold Dispatchable
  rw [hpending, Bool.and_eq_true, decide_eq_true_eq]
  exact and_right_comm

/-- Whatever can be dispatched comes out of the searches, after those of lower number. -/
lemma mem_searches {n : ℕ} (low : ℤ) (hd : nvic.Dispatchable irq)
    (hlow : ∀ j, nvic.Dispatchable j → low ≤ j) (hn : irq < low + n) : irq ∈ searches n nvic := by
  induction n generalizing nvic low with
  | zero =>
    have hle := hlow irq hd
    omega
  | succ n ih =>
    unfold searches
    cases hfind : nvic.getAndClearNextDispatchable with
    | none => exact absurd hd (getAndClearNextDispatchable_eq_none_iff.mp hfind irq)
    | some found =>
      obtain ⟨first, nvic'⟩ := found
      obtain ⟨hfirst, hmin, -⟩ := getAndClearNextDispatchable_eq_some_iff.mp hfind
      have hiff := dispatchable_search hfind
      rcases eq_or_ne irq first with rfl | hne
      · exact List.mem_cons_self
      · -- what is left is above the one that was taken
        refine List.mem_cons_of_mem first (ih (first + 1) ((hiff irq).mpr ⟨hd, hne⟩) ?_ ?_)
        · intro j hj
          obtain ⟨hj, hjne⟩ := (hiff j).mp hj
          exact lt_of_le_of_ne (hmin j hj) (Ne.symm hjne)
        · have hle := hlow first hfirst
          omega

/-- Every external interrupt has a word in which a one enables it. -/
lemma exists_writesOne (h0 : 0 ≤ irq) (hlt : irq < 128) :
    ∃ offset value, writesOne iserOffset irq offset value = true := by
  refine ⟨BitVec.ofNat 32 (iserOffset + 4 * (irq.toNat / 32)), 1#32 <<< (irq.toNat % 32), ?_⟩
  have hbit : irq.toNat % 32 < 32 := Nat.mod_lt _ (by decide)
  have hoffset : (BitVec.ofNat 32 (iserOffset + 4 * (irq.toNat / 32))).toNat
      = iserOffset + 4 * (irq.toNat / 32) := by
    rw [BitVec.toNat_ofNat, Nat.mod_eq_of_lt]
    unfold iserOffset
    omega
  unfold writesOne
  rw [hoffset, getLsbD_one_shiftLeft, decide_eq_true ⟨h0, hlt, rfl⟩, decide_eq_true hbit]
  simp

/-- The one enables it. -/
lemma exists_write_enabled (nvic : Nvic) {offset value : U32}
    (hone : writesOne iserOffset irq offset value = true) :
    ∃ nvic', nvic.write offset value = some nvic' ∧ nvic'.isEnabled irq = true := by
  have hword : enableWord iserOffset offset = some (irq.toNat / 32) := by
    obtain ⟨hrange, -⟩ := Bool.and_eq_true_iff.mp hone
    obtain ⟨-, hlt, hoffset⟩ := of_decide_eq_true hrange
    exact enableWord_eq_some_iff.mpr ⟨by omega, hoffset⟩
  obtain ⟨nvic', hwrite⟩ : ∃ nvic', nvic.write offset value = some nvic' := by
    unfold write
    rw [hword]
    exact ⟨_, rfl⟩
  refine ⟨nvic', hwrite, ?_⟩
  rw [isEnabled_write hwrite, hone, writesOne_eq_false (enableWord_icer_eq_none hword)]
  simp

/-- Once its enable bit is written, a pending interrupt comes out of the searches. -/
def DispatchedOnceEnabled (nvic : Nvic) (irq : ℤ) : Prop :=
  (∃ offset value, writesOne iserOffset irq offset value = true) ∧
    ∀ offset value, writesOne iserOffset irq offset value = true →
      ∃ nvic', nvic.write offset value = some nvic' ∧ irq ∈ searches 128 nvic'

lemma dispatchedOnceEnabled (hpending : nvic.isPending irq = true) (h0 : 0 ≤ irq) :
    nvic.DispatchedOnceEnabled irq := by
  obtain ⟨hge, hlt⟩ := lt_of_isPending hpending
  refine ⟨exists_writesOne h0 (by omega), fun offset value hone => ?_⟩
  obtain ⟨nvic', hwrite, henabled⟩ := exists_write_enabled nvic hone
  have hpending' : nvic'.isPending irq = true := by
    rw [write_frame hwrite]
    exact hpending
  refine ⟨nvic', hwrite, mem_searches (-16) ⟨hpending', Or.inr henabled⟩ ?_ (by omega)⟩
  exact fun j hj => (lt_of_isPending hj.1).1

end Nvic

/-! ## The trigger register -/

namespace Stir

/-- The interrupt that a write names: the nine low bits of the word that has its bytes in their
place. -/
def intid (size byteOffset : ℕ) (value : U32) : ℕ :=
  value.toNat % 2 ^ (8 * size) * 2 ^ (8 * byteOffset) % 2 ^ 9

/-- The interrupts that have a bit in the pending word. -/
def Modelled (irq : ℤ) : Prop := irqOffset + irq < 128

/-- The write goes on.  Exactly the interrupt that it names becomes pending, and as long as it is it
can be dispatched; or the interrupt is not modelled and nothing happens. -/
inductive Safe (p : Peripherals U D) (irq : ℕ) : Option (Peripherals U D) → Prop
  | pended {nvic : Nvic} (hframe : nvic = { p.sys.nvic with pending := nvic.pending })
      (hpending : ∀ j, nvic.isPending j = (p.sys.nvic.isPending j || decide (j = irq)))
      (hlater : ∀ later : Nvic, later.isPending irq = true → later.DispatchedOnceEnabled irq) :
      Safe p irq (some ⟨p.slots, { p.sys with nvic := nvic }⟩)
  | ignored (hnot : ¬ Modelled irq) : Safe p irq (some p)

/-- The word that the bytes of a write are merged into.  The register reads as zero. -/
def word (size byteOffset : ℕ) (value : U32) : U32 :=
  if size < 4 then mergeLanes 0 (value <<< (8 * byteOffset)) (laneMask size byteOffset) else value

/-- The number of the word is the one that is named. -/
lemma toNat_word (value : U32) {size byteOffset : ℕ} (hfit : byteOffset + size ≤ 4) :
    (word size byteOffset value &&& 0x1ff#32).toNat = intid size byteOffset value := by
  have hmask : ∀ i, (0x1ff#32).getLsbD i = decide (i < 9) := by
    intro i
    by_cases hi : i < 32
    · revert i
      decide
    · rw [BitVec.getLsbD_of_ge _ i (by omega), decide_eq_false (by omega)]
  apply Nat.eq_of_testBit_eq
  intro i
  unfold intid
  rw [BitVec.testBit_toNat, BitVec.getLsbD_and, hmask, Nat.testBit_mod_two_pow,
    Nat.testBit_mul_two_pow, Nat.testBit_mod_two_pow, BitVec.testBit_toNat, Bool.and_comm]
  by_cases hi : i < 9
  · rw [decide_eq_true hi, Bool.true_and, Bool.true_and]
    have hlt : i < 32 := by omega
    unfold word
    split_ifs with hsize
    · have hzero : (0 : U32).getLsbD i = false := BitVec.getLsbD_zero
      rw [getLsbD_mergeLanes, getLsbD_laneMask hfit hlt, BitVec.getLsbD_shiftLeft, hzero]
      grind
    · obtain rfl : byteOffset = 0 := by omega
      have hsize' : i < 8 * size := by omega
      simp [hsize']
  · rw [decide_eq_false hi, Bool.false_and, Bool.false_and]

end Stir

namespace Peripherals

variable {S : SlotSearch} {p : Peripherals U D} {addr : U32} {size : ℕ}

/-- The trigger register is found at its address. -/
def HasStir (S : SlotSearch) (p : Peripherals U D) : Prop :=
  ∃ i slot, getPeripheral S p.slots 0xe000ef00 = some (i, slot) ∧ slot.start = 0xe000ef00 ∧
    slot.peripheral = .nvicStir

/-- The register reads as zero. -/
lemma HasStir.read (h : HasStir S p) : p.readPeripheral S 0xe000ef00 = some (p, 0) := by
  obtain ⟨i, slot, hget, hstart, hstir⟩ := h
  unfold readPeripheral
  rw [hget]
  dsimp only
  rw [hstir, Peripheral.read, Option.map_some, set_of_getPeripheral hget hstir]

variable [UnicornEngine U]

/-- The register is found wherever routing is unique. -/
lemma RoutesUniquely.hasStir (h : RoutesUniquely p) (S : SlotSearch) : HasStir S p := by
  obtain ⟨i, slot, hget, hstart, hkind⟩ := h.determined ⟨0xe000ef00, 0xe000ef04, .nvicStir⟩
    (by simp [corePeripherals]) 0xe000ef00 (Nat.le_refl 0xe000ef00) (by dsimp only; decide)
  refine ⟨i, slot, hget S, hstart, ?_⟩
  cases hperipheral : slot.peripheral with
  | nvicStir => rfl
  | _ =>
    rw [hperipheral] at hkind
    cases hkind

/-- A word that is written makes its interrupt pending. -/
lemma HasStir.write (h : HasStir S p) (value : U32) : p.writePeripheral S 0xe000ef00 value
    = (p.sys.nvic.setIntrPending ((value &&& 0x1ff#32).toNat : ℤ)).map
        fun nvic => ⟨p.slots, { p.sys with nvic := nvic }⟩ := by
  obtain ⟨i, slot, hget, hstart, hstir⟩ := h
  have hoffset : (0xe000ef00 : U32) - slot.start = 0 := by
    rw [hstart, BitVec.sub_self]
    rfl
  unfold writePeripheral
  rw [hget]
  dsimp only
  rw [hstir, hoffset, Peripheral.write, Peripheral.stirWrite, if_pos rfl, Option.map_map]
  refine congrArg (fun f => Option.map f _) (funext fun nvic => ?_)
  dsimp only [Function.comp]
  rw [set_of_getPeripheral hget hstir]

/-- A write within the register, of any size. -/
lemma HasStir.write_bytes (h : HasStir S p) (hstart : 0xe000ef00 ≤ addr.toNat)
    (hlt : addr.toNat < 0xe000ef04) (hend : addr.toNat + size ≤ 0xe000ef04) (value : U32) :
    p.write S addr size value
      = (p.sys.nvic.setIntrPending (Stir.intid size (addr.toNat % 4) value : ℤ)).map
          fun nvic => ⟨p.slots, { p.sys with nvic := nvic }⟩ := by
  have hreg : isRegister addr = true := isRegister_iff.mpr (by omega)
  have hband : bitbanding addr = none := bitbanding_eq_none_iff.mpr (by omega)
  have hoffset := alignAddr4_snd addr
  have hword : (alignAddr4 addr).1 = 0xe000ef00 := by
    apply BitVec.eq_of_toNat_eq
    rw [toNat_alignAddr4, show (0xe000ef00 : U32).toNat = 0xe000ef00 from rfl]
    omega
  have hfit : (alignAddr4 addr).2 + size ≤ 4 := by omega
  rw [← hoffset, ← Stir.toNat_word value hfit, ← h.write]
  unfold Peripherals.write Stir.word
  rw [hband]
  dsimp only
  split_ifs with hsize
  · rw [writeDirect_of_lt hreg hband hfit hsize, hword, h.read, Option.bind_some]
  · obtain rfl : size = 4 := by omega
    rw [writeDirect_word hreg hfit, hword]

/-- **A software trigger is safe** if and only if the interrupt that it names has a bit in the
pending word.  The interrupt is that of the merged word: the bytes that are not written are zero, so
a store that misses the two low bytes names interrupt 0. -/
theorem stir_safe_iff (hstir : HasStir S p) (hstart : 0xe000ef00 ≤ addr.toNat)
    (hlt : addr.toNat < 0xe000ef04) (hend : addr.toNat + size ≤ 0xe000ef04) (value : U32) :
    Stir.Safe p (Stir.intid size (addr.toNat % 4) value) (p.write S addr size value) ↔
      Stir.intid size (addr.toNat % 4) value < 112 := by
  rw [hstir.write_bytes hstart hlt hend]
  generalize Stir.intid size (addr.toNat % 4) value = irq
  constructor
  · intro hsafe
    cases hpend : p.sys.nvic.setIntrPending irq with
    | none =>
      rw [hpend] at hsafe
      cases hsafe
    | some nvic =>
      obtain ⟨⟨-, hbit⟩, -⟩ := Nvic.setIntrPending_eq_some_iff.mp hpend
      unfold irqOffset at hbit
      omega
  · intro hirq
    obtain ⟨nvic, hpend⟩ := Option.isSome_iff_exists.mp (p.sys.nvic.setIntrPending_isSome
      (show -15 ≤ (irq : ℤ) ∧ (irq : ℤ) ≤ 111 by omega))
    rw [hpend]
    exact Stir.Safe.pended (Nvic.setIntrPending_frame hpend) (Nvic.isPending_setIntrPending hpend)
      fun later hlater => Nvic.dispatchedOnceEnabled hlater (by omega)

/-- A byte that names the highest of them. -/
theorem stir_safe_highest : ∃ p : Peripherals RegisterFile Unit, HasStir BinarySearch.linear p ∧
    Stir.Safe p 111 (p.write BinarySearch.linear 0xe000ef00 1 0xab6f) := by
  have hstir : HasStir BinarySearch.linear
      (⟨corePeripherals, sampleSystem⟩ : Peripherals RegisterFile Unit) :=
    ⟨4, ⟨0xe000ef00, 0xe000ef04, .nvicStir⟩, rfl, rfl, rfl⟩
  have hsafe : Stir.Safe ⟨corePeripherals, sampleSystem⟩
      (Stir.intid 1 ((0xe000ef00 : U32).toNat % 4) 0xab6f)
      (Peripherals.write BinarySearch.linear
        (⟨corePeripherals, sampleSystem⟩ : Peripherals RegisterFile Unit) 0xe000ef00 1 0xab6f) :=
    (stir_safe_iff hstir (by decide) (by decide) (by decide) 0xab6f).mpr (by decide)
  exact ⟨_, hstir, hsafe⟩

/-- The first interrupt without a bit: the shift is past the end of the word. -/
theorem stir_overflows : ∃ p : Peripherals RegisterFile Unit, HasStir BinarySearch.linear p ∧
    p.write BinarySearch.linear 0xe000ef00 4 112 = none ∧
    ¬ Stir.Safe p (Stir.intid 4 0 112) (p.write BinarySearch.linear 0xe000ef00 4 112) := by
  have hstir : HasStir BinarySearch.linear
      (⟨corePeripherals, sampleSystem⟩ : Peripherals RegisterFile Unit) :=
    ⟨4, ⟨0xe000ef00, 0xe000ef04, .nvicStir⟩, rfl, rfl, rfl⟩
  have hnone : (⟨corePeripherals, sampleSystem⟩ : Peripherals RegisterFile Unit).write
      BinarySearch.linear 0xe000ef00 4 112 = none := by
    rw [hstir.write_bytes (by decide) (by decide) (by decide)]
    rfl
  refine ⟨_, hstir, hnone, ?_⟩
  rw [hnone]
  exact nofun

end Peripherals

end Stm32Emulator
