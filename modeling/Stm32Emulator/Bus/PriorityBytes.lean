import Stm32Emulator.Bus.Routing
import Stm32Emulator.Bus.Lanes

/-!
# The priority bytes

The priorities of the interrupts are 240 bytes that the guest reads and writes one, two or four at a
time.  An access goes through the search for the slot, the offset from the start of the registers,
the word around the address and the merging of its lanes.  Behind all of this is a flat array of
bytes (`flatBytes`): `priorities_flat` says so for a core without other peripherals.
-/

namespace Stm32Emulator

open Peripherals

variable {U D : Type}

/-! ## Bytes of words -/

/-- The byte of a word. -/
def byteAt (w : U32) (k : ℕ) : U8 := w.extractLsb' (8 * k) 8

lemma getD_toLeBytes (w : U32) {k : ℕ} (hk : k < 4) : (toLeBytes w).getD k 0#8 = byteAt w k := by
  interval_cases k <;> rfl

lemma byteAt_fromLeBytes (b₀ b₁ b₂ b₃ : U8) {k : ℕ} (hk : k < 4) :
    byteAt (fromLeBytes b₀ b₁ b₂ b₃) k = [b₀, b₁, b₂, b₃].getD k 0#8 := by
  rw [← getD_toLeBytes _ hk, toLeBytes_fromLeBytes]

lemma byteAt_ushiftRight (w : U32) (offset k : ℕ) :
    byteAt (w >>> (8 * offset)) k = byteAt w (offset + k) := by
  unfold byteAt
  apply BitVec.eq_of_getLsbD_eq
  intro i hi
  rw [BitVec.getLsbD_extractLsb', BitVec.getLsbD_extractLsb',
    BitVec.getLsbD_ushiftRight, Nat.mul_add, Nat.add_assoc]

/-- The lanes of a short write hold its bytes, and the others are as before. -/
lemma byteAt_mergeLanes (old value : U32) {size offset : ℕ} (hfit : offset + size ≤ 4) {k : ℕ}
    (hk : k < 4) :
    byteAt (mergeLanes old (value <<< (8 * offset)) (laneMask size offset)) k =
      if offset ≤ k ∧ k < offset + size then byteAt value (k - offset) else byteAt old k := by
  unfold byteAt
  apply BitVec.eq_of_getLsbD_eq
  intro i hi
  have hlt : 8 * k + i < 32 := by omega
  rw [BitVec.getLsbD_extractLsb', getLsbD_mergeLanes, getLsbD_laneMask hfit hlt]
  by_cases hlane : offset ≤ k ∧ k < offset + size
  · have hmask : 8 * offset ≤ 8 * k + i ∧ 8 * k + i < 8 * (offset + size) := by omega
    have hnot : ¬ 8 * k + i < 8 * offset := by omega
    have hplace : 8 * k + i - 8 * offset = 8 * (k - offset) + i := by omega
    rw [if_pos hlane, BitVec.getLsbD_extractLsb', decide_eq_true hmask, if_pos rfl,
      BitVec.getLsbD_shiftLeft, hplace]
    simp [hlt, hnot]
  · have hmask : ¬ (8 * offset ≤ 8 * k + i ∧ 8 * k + i < 8 * (offset + size)) := by omega
    rw [if_neg hlane, BitVec.getLsbD_extractLsb', decide_eq_false hmask, if_neg Bool.false_ne_true]

/-! ## The flat array -/

/-- The address of the first priority byte, and that behind the last. -/
def priorityStart : ℕ := 0xe000e400
def priorityEnd : ℕ := 0xe000e4f0

/-- Bytes of a value stored at a place of the array. -/
def storeBytes (bytes : Fin 240 → U8) (first size : ℕ) (value : U32) : Fin 240 → U8 :=
  fun i => if first ≤ i.val ∧ i.val < first + size then byteAt value (i.val - first) else bytes i

/-- What an access of the guest stores. -/
def flatStep (bytes : Fin 240 → U8) : BusEvent → Fin 240 → U8
  | .write addr size value =>
    if priorityStart ≤ addr.toNat ∧ addr.toNat < priorityEnd then
      storeBytes bytes (addr.toNat - priorityStart) size value
    else bytes
  | _ => bytes

/-- The array after some accesses. -/
def flatBytes (es : List BusEvent) : Fin 240 → U8 := es.foldl flatStep fun _ => 0

/-- A naturally aligned access to the priorities. -/
structure PriorityAccess (addr : U32) (size : ℕ) : Prop where
  start_le : priorityStart ≤ addr.toNat
  lt_end : addr.toNat < priorityEnd
  size_mem : size ∈ [1, 2, 4]
  aligned : addr.toNat % size = 0

/-- An access elsewhere. -/
def Elsewhere (addr : U32) : Prop := addr.toNat < priorityStart ∨ priorityEnd ≤ addr.toNat

/-- The guest accesses the priorities, or other registers in any way. -/
def CoreAccess : BusEvent → Prop
  | .read addr size => PriorityAccess addr size ∨ Elsewhere addr
  | .write addr size _ => PriorityAccess addr size ∨ Elsewhere addr
  | .elsewhere => False

/-- The access is within one word of the priorities, which starts `base` bytes behind the first. -/
lemma PriorityAccess.word {addr : U32} {size : ℕ} (h : PriorityAccess addr size) :
    ∃ base, base + 4 ≤ 240 ∧ addr.toNat - priorityStart = base + (alignAddr4 addr).2 ∧
      (alignAddr4 addr).2 + size ≤ 4 ∧ ((alignAddr4 addr).1 - 0xe000e000).toNat = 0x400 + base ∧
      0xe000e100 ≤ (alignAddr4 addr).1.toNat ∧ (alignAddr4 addr).1.toNat ≤ 0xe000e4ef := by
  obtain ⟨hstart, hend, hsize, haligned⟩ := h
  have hword := toNat_alignAddr4 addr
  have hcore : (0xe000e000 : U32).toNat = 0xe000e000 := rfl
  unfold priorityStart at hstart ⊢
  unfold priorityEnd at hend
  rw [BitVec.toNat_sub, hword, hcore, alignAddr4_snd]
  refine ⟨addr.toNat - addr.toNat % 4
    - 0xe000e400, by omega, by omega, ?_, by omega, by omega, by omega⟩
  simp only [List.mem_cons, List.not_mem_nil, or_false] at hsize
  rcases hsize with rfl | rfl | rfl <;> omega

/-- The priorities are registers, and not in the bit-band region. -/
lemma PriorityAccess.register {addr : U32} {size : ℕ} (h : PriorityAccess addr size) :
    isRegister addr = true ∧ bitbanding addr = none := by
  have hstart := h.start_le
  have hend := h.lt_end
  unfold priorityStart at hstart
  unfold priorityEnd at hend
  exact ⟨isRegister_iff.mpr (by omega), bitbanding_eq_none_iff.mpr (by omega)⟩

/-! ## Words of priorities -/

namespace Nvic

variable {nvic nvic' : Nvic} {offset : U32} {base : ℕ}

/-- The offset of a word of priorities. -/
lemma priority_offset (hoffset : offset.toNat = 0x400 + base) (hbase : base + 4 ≤ 240) :
    enableWord iserOffset offset = none ∧ enableWord icerOffset offset = none ∧
      iprWordBase offset = some base := by
  refine ⟨?_, ?_, ?_⟩
  · by_contra hne
    obtain ⟨word, hword⟩ := Option.ne_none_iff_exists'.mp hne
    have := enableWord_eq_some_iff.mp hword
    unfold iserOffset at this
    omega
  · by_contra hne
    obtain ⟨word, hword⟩ := Option.ne_none_iff_exists'.mp hne
    have := enableWord_eq_some_iff.mp hword
    unfold icerOffset at this
    omega
  · unfold iprWordBase iprOffset iprCount
    rw [if_pos (by omega), hoffset, Nat.add_sub_cancel_left]

lemma read_priorityWord (hoffset : offset.toNat = 0x400 + base) (hbase : base + 4 ≤ 240) :
    ∃ w, nvic.read offset = some w ∧
      ∀ k, (hk : k < 4) → byteAt w k = nvic.priorities ⟨base + k, by omega⟩ := by
  obtain ⟨hiser, hicer, hipr⟩ := priority_offset hoffset hbase
  have hpriority : ∀ i, (hi : i < 240) → nvic.priority i = some (nvic.priorities ⟨i, hi⟩) :=
    fun i hi => dif_pos hi
  unfold Nvic.read
  rw [hiser, hicer, hipr]
  dsimp only
  rw [hpriority base (by omega), hpriority (base + 1) (by omega), hpriority (base + 2) (by omega),
    hpriority (base + 3) (by omega)]
  refine ⟨_, rfl, fun k hk => ?_⟩
  rw [byteAt_fromLeBytes _ _ _ _ hk]
  interval_cases k <;> rfl

lemma write_priorityWord (hoffset : offset.toNat = 0x400 + base) (hbase : base + 4 ≤ 240)
    (value : U32) :
    nvic.write offset value =
      some { nvic with priorities := storeBytes nvic.priorities base 4 value } := by
  obtain ⟨hiser, hicer, hipr⟩ := priority_offset hoffset hbase
  unfold Nvic.write
  rw [hiser, hicer, hipr]
  dsimp only
  rw [if_pos (show base + 4 ≤ iprCount from hbase)]
  congr 2
  funext i
  unfold storeBytes
  by_cases hi : base ≤ i.val ∧ i.val < base + 4
  · rw [if_pos hi, if_pos hi, getD_toLeBytes value (by omega)]
  · rw [if_neg hi, if_neg hi]

/-- A write elsewhere leaves the priorities alone. -/
lemma priorities_write (h : nvic.write offset value = some nvic')
    (hipr : iprWordBase offset = none) :
    nvic'.priorities = nvic.priorities := by
  unfold Nvic.write at h
  rw [hipr] at h
  split at h
  · rw [← Option.some.inj h]
  · split at h
    · rw [← Option.some.inj h]
    · rw [← Option.some.inj h]

lemma priorities_setIntrPending {irq : ℤ} (h : nvic.setIntrPending irq = some nvic') :
    nvic'.priorities = nvic.priorities := by
  rw [setIntrPending_frame h]

end Nvic

/-! ## Accesses of other peripherals -/

lemma SysTick.priorities_write (stk : SysTick) (nvic : Nvic) (offset value : U32) :
    (stk.write nvic offset value).2.priorities = nvic.priorities := by
  unfold SysTick.write
  split_ifs <;> rfl

lemma Scb.priorities_write {scb scb' : Scb} {nvic nvic' : Nvic} {offset value : U32}
    (h : scb.write nvic offset value = some (scb', nvic')) :
    nvic'.priorities = nvic.priorities := by
  have hpend : ∀ {c : Prop} [Decidable c] {irq : ℤ} {n n' : Nvic},
      (if c then n.setIntrPending irq else some n) = some n' → n'.priorities = n.priorities := by
    intro c _ irq n n' hn
    split_ifs at hn
    · exact Nvic.priorities_setIntrPending hn
    · rw [← Option.some.inj hn]
  by_cases hicsr : offset = 0x0004#32
  · rw [hicsr, write_icsr] at h
    obtain ⟨n, hn, h⟩ := Option.bind_eq_some_iff.mp h
    obtain ⟨n', hn', h⟩ := Option.bind_eq_some_iff.mp h
    rw [← (Prod.mk.inj (Option.some.inj h)).2]
    exact (hpend hn').trans (hpend hn)
  · unfold Scb.write at h
    rw [if_neg hicsr] at h
    split_ifs at h
    · rw [← (Prod.mk.inj (Option.some.inj h)).2]
    · rw [← (Prod.mk.inj (Option.some.inj h)).2]

namespace Peripheral

variable {p p' : Peripheral D} {sys sys' : System U D} {offset value v : U32}

/-- No read changes the interrupt controller. -/
lemma nvic_read (h : p.read sys offset = some (p', sys', v)) : sys'.nvic = sys.nvic := by
  cases p <;> simp only [read, Option.map_eq_some_iff, Option.some.injEq, Prod.mk.injEq,
    Prod.exists] at h
  all_goals grind

/-- Only the interrupt controller's own registers store priorities. -/
lemma priorities_write [UnicornEngine U] (h : p.write sys offset value = some (p', sys'))
    (hipr : ∀ b, p.kind = .nvic b → Nvic.iprWordBase (offset + b) = none) :
    sys'.nvic.priorities = sys.nvic.priorities := by
  cases p with
  | nvic b =>
    obtain ⟨nvic, hwrite, heq⟩ := Option.map_eq_some_iff.mp h
    rw [← (Prod.mk.inj heq).2]
    exact Nvic.priorities_write hwrite (hipr b rfl)
  | nvicStir =>
    obtain ⟨nvic, hwrite, heq⟩ := Option.map_eq_some_iff.mp h
    rw [← (Prod.mk.inj heq).2]
    unfold stirWrite at hwrite
    split_ifs at hwrite
    · exact Nvic.priorities_setIntrPending hwrite
    · rw [← Option.some.inj hwrite]
  | sysTick stk =>
    rw [← (Prod.mk.inj (Option.some.inj h)).2]
    exact SysTick.priorities_write stk sys.nvic offset value
  | scb scb =>
    obtain ⟨r, hwrite, heq⟩ := Option.map_eq_some_iff.mp h
    rw [← (Prod.mk.inj heq).2]
    exact Scb.priorities_write hwrite
  | _ =>
    simp only [write, Option.map_eq_some_iff, Option.some.injEq, Prod.mk.injEq, Prod.exists] at h
    grind

end Peripheral

/-! ## Accesses to the core -/

/-- The peripherals of the core alone, with some priorities. -/
structure CoreWith (bytes : Fin 240 → U8) (p : Peripherals U D) : Prop where
  layout_eq : p.layout = (⟨corePeripherals, p.sys⟩ : Peripherals U D).layout
  priorities_eq : p.sys.nvic.priorities = bytes

/-- What is registered when nothing is declared. -/
lemma fromSvd_nil (sys : System U D) (extDevices : ExtDevices D)
    (internalFlash : Option (InternalFlashConfig D)) :
    fromSvd [] sys extDevices internalFlash = some ⟨corePeripherals, sys⟩ := by
  simp [fromSvd, inAddressOrder, sortByKey, finishRegistration, adjacentAll, corePeripherals]

namespace CoreWith

variable {bytes : Fin 240 → U8} {p p' : Peripherals U D} {addr value v : U32} {size : ℕ}
    {S : SlotSearch}

section Reads

/-- Reads leave the core and the priorities as they are. -/
lemma of_readPeripheral (h : CoreWith bytes p) (hread : p.readPeripheral S addr = some (p', v)) :
    CoreWith bytes p' := by
  refine ⟨(layout_readPeripheral hread).trans h.layout_eq, ?_⟩
  rw [← h.priorities_eq]
  unfold readPeripheral at hread
  split at hread
  · obtain ⟨⟨peripheral, sys, w⟩, hslot, heq⟩ := Option.map_eq_some_iff.mp hread
    rw [← (Prod.mk.inj heq).1, ← Peripheral.nvic_read hslot]
  · rw [← (Prod.mk.inj (Option.some.inj hread)).1]

lemma of_readDirect (h : CoreWith bytes p) (hread : p.readDirect S addr size = some (p', v)) :
    CoreWith bytes p' := by
  unfold readDirect at hread
  dsimp only at hread
  split_ifs at hread
  obtain ⟨⟨q, w⟩, hslot, heq⟩ := Option.map_eq_some_iff.mp hread
  rw [← (Prod.mk.inj heq).1]
  exact h.of_readPeripheral hslot

lemma of_read (h : CoreWith bytes p) (hread : p.read S addr size = some (p', v)) :
    CoreWith bytes p' := by
  unfold Peripherals.read at hread
  split at hread
  · obtain ⟨⟨q, w⟩, hdirect, heq⟩ := Option.map_eq_some_iff.mp hread
    rw [← (Prod.mk.inj heq).1]
    exact h.of_readDirect hdirect
  · exact h.of_readDirect hread

end Reads

/-- The slots are in the order of their start addresses. -/
lemma sorted (h : CoreWith bytes p) :
    (p.slots.map fun slot => slot.start.toNat).Pairwise (· ≤ ·) := by
  rw [map_eq_of_layout h.layout_eq fun start _ _ => start.toNat]
  simp [corePeripherals]

/-- The block of the core with the registers of the interrupt controller. -/
lemma nvic_of_mem_core {slot : PeripheralSlot D} (h : slot ∈ corePeripherals) {b : U32}
    (hkind : slot.peripheral.kind = .nvic b) : slot.start = 0xe000e100 ∧ b = 0x100 := by
  simp only [corePeripherals, List.mem_cons, List.not_mem_nil, or_false] at h
  rcases h with rfl | rfl | rfl | rfl | rfl
  all_goals simp_all [Peripheral.kind]

/-- The offset of a word elsewhere is none of the priorities. -/
lemma iprWordBase_of_elsewhere (hle : (0xe000e100 : U32).toNat ≤ addr.toNat) (h : Elsewhere addr) :
    Nvic.iprWordBase (addr - 0xe000e100 + 0x100) = none := by
  have hrebase : (addr - 0xe000e100 + 0x100).toNat = addr.toNat - 0xe000e000 := by bv_omega
  unfold Elsewhere priorityStart priorityEnd at h
  unfold Nvic.iprWordBase Nvic.iprOffset Nvic.iprCount
  rw [hrebase, if_neg (by omega)]

variable [UnicornEngine U]

lemma routes (h : CoreWith bytes p) : RoutesUniquely p :=
  routesUniquely_of_disjoint (fromSvd_nil p.sys .default none)
    (by simp [corePeripherals]) h.layout_eq

/-- **A read of the priorities** returns bytes of the array and changes nothing. -/
lemma read_priorities (h : CoreWith bytes p) (hpriority : PriorityAccess addr size) :
    ∃ v, p.read S addr size = some (p, v) ∧ ∀ k < size, ∀ i : Fin 240,
      i.val = addr.toNat - priorityStart + k → byteAt v k = bytes i := by
  obtain ⟨hreg, hband⟩ := hpriority.register
  obtain ⟨base, hbase, hfirst, hfit, hoffset, hge, hle⟩ := hpriority.word
  have hword := (h.routes.nvic S (alignAddr4 addr).1 hge hle).1
  obtain ⟨w, hread, hbytes⟩ := Nvic.read_priorityWord hoffset hbase
  rw [hread, Option.map_some] at hword
  refine ⟨w >>> (8 * (alignAddr4 addr).2), ?_, fun k hk i hi => ?_⟩
  · unfold Peripherals.read
    rw [hband]
    dsimp only
    rw [readDirect_of_isRegister hreg hfit, hword, Option.map_some]
  · have hplace : base + ((alignAddr4 addr).2 + k) = i.val := by
      rw [hi, hfirst, Nat.add_assoc]
    rw [byteAt_ushiftRight, hbytes _ (by omega), h.priorities_eq]
    exact congrArg bytes (Fin.ext hplace)

/-- **A write of the priorities** stores its bytes. -/
lemma write_priorities (h : CoreWith bytes p) (hpriority : PriorityAccess addr size) (value : U32) :
    ∃ p', p.write S addr size value = some p' ∧
      CoreWith (storeBytes bytes (addr.toNat - priorityStart) size value) p' := by
  obtain ⟨hreg, hband⟩ := hpriority.register
  obtain ⟨base, hbase, hfirst, hfit, hoffset, hge, hle⟩ := hpriority.word
  obtain ⟨hreadWord, hwriteWord⟩ := h.routes.nvic S (alignAddr4 addr).1 hge hle
  obtain ⟨w, hread, hbytes⟩ := Nvic.read_priorityWord hoffset hbase
  rw [hread, Option.map_some] at hreadWord
  -- a word of any value is written by replacing its four bytes
  have hstore : ∀ x bytes', storeBytes bytes base 4 x = bytes' →
      ∃ p', p.writePeripheral S (alignAddr4 addr).1 x = some p' ∧ CoreWith bytes' p' := by
    rintro x _ rfl
    have hx := hwriteWord x
    rw [Nvic.write_priorityWord hoffset hbase, Option.map_some] at hx
    refine ⟨_, hx, h.layout_eq, ?_⟩
    rw [← h.priorities_eq]
  rw [hfirst]
  unfold Peripherals.write
  rw [hband]
  dsimp only
  by_cases hsize : size < 4
  · rw [writeDirect_of_lt hreg hband hfit hsize, hreadWord, Option.bind_some]
    apply hstore
    funext i
    unfold storeBytes
    by_cases hi : base ≤ i.val ∧ i.val < base + 4
    · have hplace : i.val - base < 4 := by omega
      have hi' : (⟨base + (i.val - base), by omega⟩ : Fin 240) = i :=
        Fin.ext (Nat.add_sub_cancel' hi.1)
      rw [if_pos hi, byteAt_mergeLanes w value hfit hplace, hbytes _ hplace, h.priorities_eq, hi']
      refine if_congr (by omega) ?_ rfl
      rw [Nat.sub_sub]
    · rw [if_neg hi, if_neg (by omega)]
  · obtain rfl : size = 4 := by omega
    rw [writeDirect_word hreg hfit]
    apply hstore
    rw [show (alignAddr4 addr).2 = 0 by omega, Nat.add_zero]

/-! ### Accesses elsewhere -/

/-- A write of another word leaves the core and the priorities as they are. -/
lemma of_writePeripheral (h : CoreWith bytes p) (helsewhere : Elsewhere addr)
    (hwrite : p.writePeripheral S addr value = some p') : CoreWith bytes p' := by
  refine ⟨(layout_writePeripheral hwrite).trans h.layout_eq, ?_⟩
  rw [← h.priorities_eq]
  unfold writePeripheral at hwrite
  split at hwrite
  · rename_i i slot hget
    obtain ⟨⟨peripheral, sys⟩, hslot, heq⟩ := Option.map_eq_some_iff.mp hwrite
    rw [← heq]
    refine Peripheral.priorities_write hslot fun b hkind => ?_
    obtain ⟨hlookup, hi⟩ := getPeripheral_eq_some_iff.mp hget
    obtain ⟨core, hcore, hstart, hend, hsame⟩ := exists_slot_of_layout h.layout_eq hi
    have hmem : core ∈ corePeripherals := List.mem_of_getElem? hcore
    obtain ⟨x, hx, hle, -⟩ := mem_of_lookup h.sorted hlookup
    rw [hi] at hx
    obtain rfl := Option.some.inj hx
    -- the block of the core with the registers of the interrupt controller
    obtain ⟨hnvic, rfl⟩ := nvic_of_mem_core hmem (hsame.symm.trans hkind)
    rw [hstart, hnvic] at hle ⊢
    exact iprWordBase_of_elsewhere hle helsewhere
  · rw [← Option.some.inj hwrite]

/-- The word around a register elsewhere is elsewhere. -/
lemma elsewhere_reduceAddr (helsewhere : Elsewhere addr) : Elsewhere (reduceAddr addr).1 := by
  unfold reduceAddr
  split_ifs
  · have hword := toNat_alignAddr4 addr
    unfold Elsewhere priorityStart priorityEnd at helsewhere ⊢
    omega
  · exact helsewhere

lemma of_writeDirect (h : CoreWith bytes p) (helsewhere : Elsewhere addr)
    (hwrite : p.writeDirect S addr size value = some p') : CoreWith bytes p' := by
  have hword := elsewhere_reduceAddr helsewhere
  unfold writeDirect at hwrite
  dsimp only at hwrite
  split_ifs at hwrite
  · obtain ⟨⟨q, w⟩, hread, hmerged⟩ := Option.bind_eq_some_iff.mp hwrite
    exact (h.of_read hread).of_writePeripheral hword hmerged
  · exact h.of_writePeripheral hword hwrite

/-- A byte behind the bit-band region is elsewhere. -/
lemma elsewhere_bitbanding {byte : U32} {bitNumber : ℕ}
    (hband : bitbanding addr = some (byte, bitNumber)) :
    Elsewhere byte := by
  unfold bitbanding at hband
  split_ifs at hband with hrange
  rw [← (Prod.mk.inj (Option.some.inj hband)).1]
  simp only [BitVec.le_def, BitVec.lt_def, BitVec.toNat_ofNat] at hrange
  unfold Elsewhere priorityStart priorityEnd
  left
  simp only [BitVec.toNat_add, BitVec.toNat_udiv, BitVec.toNat_sub, BitVec.toNat_ofNat,
    Nat.reducePow, Nat.reduceMod] at hrange ⊢
  omega

lemma of_write (h : CoreWith bytes p) (helsewhere : Elsewhere addr)
    (hwrite : p.write S addr size value = some p') : CoreWith bytes p' := by
  unfold Peripherals.write at hwrite
  split at hwrite
  · rename_i byte bitNumber hband
    obtain ⟨⟨q, w⟩, hread, hdirect⟩ := Option.bind_eq_some_iff.mp hwrite
    exact (h.of_readDirect hread).of_writeDirect (elsewhere_bitbanding hband) hdirect
  · exact h.of_writeDirect helsewhere hwrite

/-- **An access** changes the priorities as it does the array. -/
lemma step (h : CoreWith bytes p) {e : BusEvent} (hcore : CoreAccess e)
    (hstep : EventStep S p e p') :
    CoreWith (flatStep bytes e) p' := by
  cases hstep with
  | read hread => exact h.of_read hread
  | elsewhere hlayout => exact hcore.elim
  | @write addr size value _ hwrite =>
    unfold flatStep
    dsimp only
    rcases hcore with hpriority | helsewhere
    · rw [if_pos ⟨hpriority.start_le, hpriority.lt_end⟩]
      obtain ⟨q, hq, hafter⟩ := h.write_priorities (S := S) hpriority value
      rwa [Option.some.inj (hwrite.symm.trans hq)]
    · unfold Elsewhere at helsewhere
      rw [if_neg (by omega)]
      exact h.of_write helsewhere hwrite

end CoreWith

/-! ## Runs -/

section Runs

variable [UnicornEngine U] {S : SlotSearch} {p₀ p : Peripherals U D} {sys : System U D}
  {extDevices : ExtDevices D} {internalFlash : Option (InternalFlashConfig D)} {es : List BusEvent}

/-- **The priorities are a flat array of bytes.**  With the core alone, after any run of accesses to
the priorities, each naturally aligned, and of accesses to anything else, a read of the priorities
returns the bytes that have been written last, or zero, and a write succeeds. -/
theorem priorities_flat (hreg : fromSvd [] sys extDevices internalFlash = some p₀)
    (hinit : sys.nvic = .default)
    (hrun : Run (guardedStep (fun _ e => CoreAccess e) (EventStep S)) p₀ es p) {addr : U32}
    {size : ℕ} (hpriority : PriorityAccess addr size) :
    (∃ v, p.read S addr size = some (p, v) ∧ ∀ k < size, ∀ i : Fin 240,
      i.val = addr.toNat - priorityStart + k → byteAt v k = flatBytes es i) ∧
      ∀ value, (p.write S addr size value).isSome := by
  have hcore : CoreWith (flatBytes es) p := by
    refine hrun.invariant (I := fun es p => CoreWith (flatBytes es) p) ?_ ?_
    · obtain rfl := Option.some.inj ((fromSvd_nil sys extDevices internalFlash).symm.trans hreg)
      refine ⟨rfl, ?_⟩
      dsimp only
      rw [hinit]
      rfl
    · rintro es q q' e hq ⟨haccess, hstep⟩
      unfold flatBytes
      rw [List.foldl_append]
      exact hq.step haccess hstep
  refine ⟨hcore.read_priorities hpriority, fun value => ?_⟩
  obtain ⟨p', hwrite, -⟩ := hcore.write_priorities (S := S) hpriority value
  rw [hwrite]
  rfl

end Runs

/-- A byte is written, and the word around it read. -/
theorem priorities_flat_sample : ∃ es p v, Run (guardedStep (fun _ e => CoreAccess e)
      (EventStep BinarySearch.linear)) ⟨corePeripherals, sampleSystem⟩ es p ∧
    p.read BinarySearch.linear 0xe000e404 4 = some (p, v) ∧ byteAt v 2 = 0xab ∧ byteAt v 3 = 0 := by
  have hbyte : PriorityAccess 0xe000e406 1 := ⟨by decide, by decide, by decide, by decide⟩
  have hword : PriorityAccess 0xe000e404 4 := ⟨by decide, by decide, by decide, by decide⟩
  have hreg := fromSvd_nil sampleSystem .default none
  have hwrites := (priorities_flat (S := BinarySearch.linear) hreg rfl Run.nil hbyte).2
  obtain ⟨p, hwrite⟩ := Option.isSome_iff_exists.mp (hwrites 0xab)
  have hstep : guardedStep (fun _ e => CoreAccess e) (EventStep BinarySearch.linear)
      ⟨corePeripherals, sampleSystem⟩ (.write 0xe000e406 1 0xab) p := ⟨Or.inl hbyte, .write hwrite⟩
  have hrun := Run.single hstep
  obtain ⟨v, hread, hbytes⟩ := (priorities_flat hreg rfl hrun hword).1
  refine ⟨_, p, v, hrun, hread, ?_, ?_⟩
  · rw [hbytes 2 (by omega) 6 rfl]
    decide
  · rw [hbytes 3 (by omega) 7 rfl]
    decide

end Stm32Emulator
