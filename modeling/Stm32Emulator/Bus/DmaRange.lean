import Stm32Emulator.Bus.Layout
import Stm32Emulator.Bus.Registration
import Stm32Emulator.Engine.RegisterFile

/-!
# The streams of a DMA controller

The streams end `0xd0` bytes after the start of the controller.  Its slot ends where its last
register does, and the end of a slot still belongs to it.  The first address past the streams that
an access can reach decides whether an access can name a stream that does not exist.
-/

namespace Stm32Emulator

variable {U D : Type}

/-! ## Offsets -/

/-- A register of the controller, or a stream that exists. -/
def DmaAccess.InRange (access : DmaAccess) : Prop :=
  match access with
  | .reg _ => True
  | .streamReg stream _ => stream < 8

instance (access : DmaAccess) : Decidable access.InRange := by
  unfold DmaAccess.InRange
  split <;> infer_instance

lemma DmaAccess.inRange_fromOffset_iff (offset : U32) :
    (fromOffset offset).InRange ↔ offset.toNat < 0xd0 := by
  unfold fromOffset
  split_ifs with h
  · simp only [InRange, true_iff]
    omega
  · simp only [InRange]
    omega

lemma Dma.read_ne_none_iff (dma : Dma) (offset : U32) :
    dma.read offset ≠ none ↔ (DmaAccess.fromOffset offset).InRange := by
  unfold read
  cases DmaAccess.fromOffset offset with
  | reg offset => simp [DmaAccess.InRange]
  | streamReg stream offset =>
    by_cases h : stream < 8 <;> simp [DmaAccess.InRange, h]

lemma Dma.write_ne_none_iff (dma : Dma) (offset value : U32) :
    dma.write offset value ≠ none ↔ (DmaAccess.fromOffset offset).InRange := by
  unfold write
  cases DmaAccess.fromOffset offset with
  | reg offset => simp [DmaAccess.InRange]
  | streamReg stream offset =>
    by_cases h : stream < 8 <;> simp [DmaAccess.InRange, h]

namespace Peripherals

/-! ## The addresses that accesses reach -/

/-- The address that is looked up for an access. -/
def target (addr : U32) : U32 :=
  match bitbanding addr with
  | some (byte, _) => (reduceAddr byte).1
  | none => (reduceAddr addr).1

/-- The addresses that are looked up: words outside the bit-band region, and everything in the banks
of external memory. -/
def IsTarget (n : ℕ) : Prop :=
  ¬ (0x42000000 ≤ n ∧ n < 0x44000000) ∧ (0x60000000 ≤ n ∧ n < 0xa0000000 ∨ n % 4 = 0)

/-- The first of them from a number on. -/
def firstTarget (n : ℕ) : ℕ :=
  let word := if 0x60000000 ≤ n ∧ n < 0xa0000000 then n else (n + 3) / 4 * 4
  if 0x42000000 ≤ word ∧ word < 0x44000000 then 0x44000000 else word

lemma isTarget_firstTarget (n : ℕ) : IsTarget (firstTarget n) := by
  unfold IsTarget firstTarget
  dsimp only
  split_ifs <;> omega

lemma le_firstTarget (n : ℕ) : n ≤ firstTarget n := by
  unfold firstTarget
  dsimp only
  split_ifs <;> omega

lemma firstTarget_le {n a : ℕ} (ha : IsTarget a) (h : n ≤ a) : firstTarget n ≤ a := by
  unfold IsTarget at ha
  unfold firstTarget
  dsimp only
  split_ifs <;> omega

lemma toNat_reduceAddr (addr : U32) :
    (reduceAddr addr).1.toNat
      = if 0x60000000 ≤ addr.toNat ∧ addr.toNat < 0xa0000000 then addr.toNat
        else addr.toNat - addr.toNat % 4 := by
  unfold reduceAddr
  by_cases h : isRegister addr
  · rw [if_pos h, if_neg (isRegister_iff.mp h), toNat_alignAddr4]
  · rw [if_neg h, if_pos (by rw [isRegister_iff] at h; omega)]

lemma isTarget_target (addr : U32) : IsTarget (target addr).toNat := by
  unfold target
  cases hband : bitbanding addr with
  | some r =>
    rcases r with ⟨byte, bitNumber⟩
    obtain ⟨hreg, hnone, -⟩ := isRegister_of_bitbanding hband
    rw [isRegister_iff] at hreg
    rw [bitbanding_eq_none_iff] at hnone
    dsimp only
    rw [toNat_reduceAddr, if_neg hreg]
    unfold IsTarget
    omega
  | none =>
    rw [bitbanding_eq_none_iff] at hband
    dsimp only
    rw [toNat_reduceAddr]
    unfold IsTarget
    split_ifs <;> omega

lemma target_of_isTarget {addr : U32} (h : IsTarget addr.toNat) : target addr = addr := by
  have hband : bitbanding addr = none := bitbanding_eq_none_iff.mpr h.1
  apply BitVec.eq_of_toNat_eq
  unfold target
  rw [hband]
  dsimp only
  rw [toNat_reduceAddr]
  have hword := h.2
  split_ifs <;> omega

section Accesses

variable {S : SlotSearch} {p : Peripherals U D} {addr : U32} {size : ℕ}

lemma readDirect_ne_none_iff (hfit : (reduceAddr addr).2 + size ≤ 4) :
    p.readDirect S addr size ≠ none ↔ p.readPeripheral S (reduceAddr addr).1 ≠ none := by
  unfold readDirect
  dsimp only
  rw [if_pos hfit]
  simp

/-- An access that does not go across the end of a word does not go across the end of what is looked
up. -/
lemma reduceAddr_fits (hfit : addr.toNat % 4 + size ≤ 4) : (reduceAddr addr).2 + size ≤ 4 := by
  unfold reduceAddr
  split_ifs
  · rwa [alignAddr4_snd]
  · dsimp only
    omega

/-- An access does not panic where no access to the peripheral at its target does. -/
lemma read_ne_none (hfit : addr.toNat % 4 + size ≤ 4)
    (hread : p.readPeripheral S (target addr) ≠ none) :
    p.read S addr size ≠ none := by
  unfold Peripherals.read
  unfold target at hread
  cases hband : bitbanding addr with
  | some r =>
    rcases r with ⟨byte, bitNumber⟩
    rw [hband] at hread
    obtain ⟨hreg, -, -⟩ := isRegister_of_bitbanding hband
    have hfit : (reduceAddr byte).2 + 1 ≤ 4 := by
      rw [reduceAddr, if_pos hreg]
      exact alignAddr4_snd_lt byte
    simpa using (readDirect_ne_none_iff hfit).mpr hread
  | none =>
    rw [hband] at hread
    exact (readDirect_ne_none_iff (reduceAddr_fits hfit)).mpr hread

variable [UnicornEngine U]

lemma writeDirect_ne_none (hband : bitbanding addr = none) (hfit : (reduceAddr addr).2 + size ≤ 4)
    (hread : p.readPeripheral S (reduceAddr addr).1 ≠ none)
    (hwrite : ∀ (q : Peripherals U D) v, q.layout = p.layout →
      q.writePeripheral S (reduceAddr addr).1 v ≠ none) (value : U32) :
    p.writeDirect S addr size value ≠ none := by
  unfold writeDirect
  dsimp only
  rw [if_pos hfit]
  split_ifs with hshort
  · have hreg : isRegister addr := by
      by_contra hnot
      rw [reduceAddr, if_neg hnot] at hshort
      exact hnot hshort.1
    have hreduce : (reduceAddr addr).1 = (alignAddr4 addr).1 := by rw [reduceAddr, if_pos hreg]
    rw [hreduce] at hread hwrite ⊢
    rw [read_word hreg hband]
    intro hnone
    cases hword : p.readPeripheral S (alignAddr4 addr).1 with
    | none => exact hread hword
    | some r =>
      rw [hword, Option.bind_some] at hnone
      exact hwrite r.1 _ (layout_readPeripheral hword) hnone
  · exact hwrite p value rfl

lemma write_ne_none (hfit : addr.toNat % 4 + size ≤ 4)
    (hread : ∀ q : Peripherals U D, q.layout = p.layout → q.readPeripheral S (target addr) ≠ none)
    (hwrite : ∀ (q : Peripherals U D) v, q.layout = p.layout →
      q.writePeripheral S (target addr) v ≠ none)
    (value : U32) : p.write S addr size value ≠ none := by
  unfold Peripherals.write
  unfold target at hread hwrite
  cases hband : bitbanding addr with
  | some r =>
    rcases r with ⟨byte, bitNumber⟩
    rw [hband] at hread hwrite
    obtain ⟨hreg, hnone, -⟩ := isRegister_of_bitbanding hband
    have hfit : (reduceAddr byte).2 + 1 ≤ 4 := by
      rw [reduceAddr, if_pos hreg]
      exact alignAddr4_snd_lt byte
    intro hpanic
    cases hbyte : p.readDirect S byte 1 with
    | none => exact (readDirect_ne_none_iff hfit).mpr (hread p rfl) hbyte
    | some r =>
      simp only [hbyte, Option.bind_some] at hpanic
      have hlayout := layout_readDirect hbyte
      exact writeDirect_ne_none hnone hfit (hread r.1 hlayout)
        (fun q v hq => hwrite q v (hq.trans hlayout)) _ hpanic
  | none =>
    rw [hband] at hread hwrite
    exact writeDirect_ne_none hband (reduceAddr_fits hfit) (hread p rfl) hwrite value

end Accesses

/-! ## Slots in order -/

section Routed

variable {extDevices : ExtDevices D} {internalFlash : Option (InternalFlashConfig D)}
  {svdPeripherals : List SvdPeripheral} {sys : System U D} {S : SlotSearch} {p₀ p : Peripherals U D}

/-- A registration leaves the slots in the order of their start addresses. -/
lemma sorted_of_fromSvd (h : fromSvd svdPeripherals sys extDevices internalFlash = some p₀) :
    (p₀.slots.map fun slot => slot.start.toNat).Pairwise (· ≤ ·) := by
  rw [(fromSvd_eq_some h).2.2, List.pairwise_map]
  exact pairwise_sortByKey _ _

/-- An address past the start of a slot is routed to it exactly when the slot reaches the address
and the next one starts after it. -/
lemma getPeripheral_eq_iff (hsorted : (p.slots.map fun slot => slot.start.toNat).Pairwise (· ≤ ·))
    {i : ℕ} {slot : PeripheralSlot D} (hslot : p.slots[i]? = some slot) {addr : U32}
    (hlt : slot.start.toNat < addr.toNat) :
    getPeripheral S p.slots addr = some (i, slot) ↔
      addr.toNat ≤ slot.end_.toNat ∧
        ∀ next, p.slots[i + 1]? = some next → addr.toNat < next.start.toNat := by
  rw [getPeripheral_eq_some_iff, lookup_eq_some_iff hslot, lastStart_eq_some_iff hsorted hslot hlt]
  constructor
  · rintro ⟨⟨hlater, hle⟩, -⟩
    exact ⟨hle, fun next hnext => hlater (i + 1) next (Nat.lt_succ_self i) hnext⟩
  · rintro ⟨hle, hnext⟩
    refine ⟨⟨fun j later hij hlater => ?_, hle⟩, hslot⟩
    have hj : j < p.slots.length := (List.getElem?_eq_some_iff.mp hlater).1
    have hsucc : p.slots[i + 1]? = some p.slots[i + 1] := List.getElem?_eq_getElem (by omega)
    have hstart := hnext _ hsucc
    rcases Nat.lt_or_eq_of_le (Nat.succ_le_of_lt hij) with hlt | heq
    · have hmap : ∀ {n : ℕ} {x : PeripheralSlot D}, p.slots[n]? = some x →
          (p.slots.map fun slot => slot.start.toNat)[n]? = some x.start.toNat := by
        intro n x hx
        rw [List.getElem?_map, hx, Option.map_some]
      exact hstart.trans_le (le_of_pairwise_of_lt hsorted hlt (hmap hsucc) (hmap hlater))
    · obtain rfl : j = i + 1 := heq.symm
      exact hnext later hlater

/-! ## Controllers -/

lemma ne_of_startsWith {name first : String} (h : name.startsWith first) (other : String)
    (hother : ¬ first.toList <+: other.toList) : name ≠ other := by
  rintro rfl
  exact hother (String.startsWith_string_iff.mp h)

/-- A name has no two beginnings that differ. -/
lemma not_startsWith {name first : String} (h : name.startsWith first) (other : String)
    (hother : ¬ (first.toList <+: other.toList ∨ other.toList <+: first.toList)) :
    ¬ name.startsWith other = true := by
  intro h'
  exact hother (List.prefix_or_prefix_of_prefix (String.startsWith_string_iff.mp h)
    (String.startsWith_string_iff.mp h'))

/-- A name that starts with `DMA` names a DMA controller. -/
lemma ofName_of_startsWith_dma {name : String} (h : name.startsWith "DMA") :
    Peripheral.ofName name extDevices internalFlash = some (some (.dma (.new name))) := by
  have hne := ne_of_startsWith h
  have hnot := not_startsWith h
  unfold Peripheral.ofName
  rw [if_neg (hne "NVIC" (by decide)), if_neg (hne "STK" (by decide)),
    if_neg (hne "SCB" (by decide)), if_neg (hnot "GPIO" (by decide)),
    if_neg (hnot "USART" (by decide)), if_neg (hnot "FSMC" (by decide)),
    if_neg (hne "RCC" (by decide)), if_neg (hne "PWR" (by decide)),
    if_neg (hne "OTG_FS_GLOBAL" (by decide)), if_neg (hne "RTC" (by decide)),
    if_neg (hne "FLASH" (by decide)), if_neg (hne "TIM11" (by decide)),
    if_neg (hne "TIM5" (by decide)), if_neg (hne "TIM6" (by decide)),
    if_neg (hnot "CAN" (by decide)), if_neg (hnot "I2C" (by decide)), if_pos h]

/-- Every declared controller has a slot at its base. -/
lemma exists_slot_of_startsWith_dma
    (h : fromSvd svdPeripherals sys extDevices internalFlash = some p₀) {q : SvdPeripheral}
    (hq : q ∈ svdPeripherals) (hname : q.name.startsWith "DMA") :
    ∃ slot ∈ p₀.slots, slot.start = q.baseAddress.setWidth 32 ∧ slot.peripheral.kind = .dma := by
  obtain ⟨hall, -, hslots⟩ := fromSvd_eq_some h
  have hmem : q ∈ inAddressOrder svdPeripherals := mem_sortByKey.mpr hq
  obtain ⟨r, hr⟩ := hall q hmem
  obtain ⟨-, -, -, -, peripheral, hperipheral, hslot, hrange⟩ := registerDeclared_spec hr
  rw [ofName_of_startsWith_dma hname, Option.some.injEq] at hperipheral
  rw [← hperipheral] at hslot
  obtain ⟨slot, hsome, hdma⟩ := Option.map_eq_some_iff.mp hslot
  have hne := ne_of_startsWith hname
  refine ⟨slot, ?_, ?_, by rw [hdma]; rfl⟩
  · rw [hslots]
    refine mem_sortByKey.mpr (List.mem_append_left _ (List.mem_filterMap.mpr ⟨q, hmem, ?_⟩))
    rw [declaredSlot, hr, Option.bind_some, hsome]
  · apply BitVec.eq_of_toNat_eq
    have hstart := hrange slot hsome
    rw [declaredRange, if_neg (hne "FSMC" (by decide)), if_neg (hne "OTG_FS_GLOBAL" (by decide)),
      if_neg (hne "SCB" (by decide)), Prod.mk.injEq] at hstart
    exact hstart.1

/-- The slot ends, or the next one starts, before an access past the streams is reached. -/
def EndsWithStreams (p : Peripherals U D) (i : ℕ) (slot : PeripheralSlot D) : Prop :=
  slot.end_.toNat < firstTarget (slot.start.toNat + 0xd0) ∨
    ∃ next, p.slots[i + 1]? = some next ∧ next.start.toNat ≤ firstTarget (slot.start.toNat + 0xd0)

/-- In order, a slot ends with its streams exactly when nothing past them is routed to it. -/
lemma endsWithStreams_iff (hsorted : (p.slots.map fun slot => slot.start.toNat).Pairwise (· ≤ ·))
    {i : ℕ} {slot : PeripheralSlot D} (hslot : p.slots[i]? = some slot) :
    EndsWithStreams p i slot ↔ ∀ addr, getPeripheral S p.slots (target addr) = some (i, slot) →
      (target addr).toNat < slot.start.toNat + 0xd0 := by
  have hle := le_firstTarget (slot.start.toNat + 0xd0)
  constructor
  · intro hends addr hget
    by_contra hpast
    rw [getPeripheral_eq_iff hsorted hslot (by omega)] at hget
    have hfirst := firstTarget_le (isTarget_target addr) (not_lt.mp hpast)
    rcases hends with hend | ⟨next, hnext, hstart⟩
    · omega
    · have hlater := hget.2 next hnext
      omega
  · intro hall
    by_contra hnot
    unfold EndsWithStreams at hnot
    push Not at hnot
    obtain ⟨hend, hnext⟩ := hnot
    -- the first address past the streams that is looked up
    have hnat : (BitVec.ofNat 32 (firstTarget (slot.start.toNat + 0xd0))).toNat
        = firstTarget (slot.start.toNat + 0xd0) := by
      rw [BitVec.toNat_ofNat, Nat.mod_eq_of_lt (hend.trans_lt slot.end_.isLt)]
    have htarget := target_of_isTarget (by rw [hnat]; exact isTarget_firstTarget _)
    have hpast := hall (BitVec.ofNat 32 (firstTarget (slot.start.toNat + 0xd0))) (by
      rw [htarget, getPeripheral_eq_iff hsorted hslot (by omega), hnat]
      exact ⟨hend, hnext⟩)
    rw [htarget, hnat] at hpast
    omega

variable [UnicornEngine U]

/-- Every access that is routed to the controller in a slot names a register of the controller or of
a stream that exists, and does not panic. -/
def AccessesInRange (S : SlotSearch) (p : Peripherals U D) (i : ℕ)
    (slot : PeripheralSlot D) : Prop :=
  ∀ (addr : U32) (size : ℕ) (value : U32), size = 1 ∨ size = 2 ∨ size = 4 →
    addr.toNat % 4 + size ≤ 4 →
    getPeripheral S p.slots (target addr) = some (i, slot) →
      (DmaAccess.fromOffset (target addr - slot.start)).InRange ∧
        p.read S addr size ≠ none ∧ p.write S addr size value ≠ none

/-- No access to a stream that exists panics. -/
lemma dma_access_ne_none {i : ℕ} {slot : PeripheralSlot D} (hdma : slot.peripheral.kind = .dma)
    {addr : U32} (hget : getPeripheral S p.slots addr = some (i, slot))
    (hrange : (DmaAccess.fromOffset (addr - slot.start)).InRange) {q : Peripherals U D}
    (hlayout : q.layout = p.layout) :
    q.readPeripheral S addr ≠ none ∧ ∀ v, q.writePeripheral S addr v ≠ none := by
  obtain ⟨slot', hget', hstart, -, hkind⟩ := getPeripheral_of_layout hlayout.symm hget
  obtain ⟨dma, hperipheral⟩ := Peripheral.exists_dma_of_kind (hkind.symm.trans hdma)
  rw [hstart] at hrange
  constructor
  · have hread := (Dma.read_ne_none_iff dma _).mpr hrange
    simpa [readPeripheral, hget', hperipheral, Peripheral.read] using hread
  · intro v
    have hwrite := (Dma.write_ne_none_iff dma _ v).mpr hrange
    simpa [writePeripheral, hget', hperipheral, Peripheral.write] using hwrite

/-- **When accesses stay within the streams.**  Every declared DMA controller has a slot.  In every
state that is reached, an access routed to it can name a stream that does not exist, and then
panics, unless its slot ends, or the next one starts, before the first address past the streams that
an access reaches. -/
theorem dma_streams_in_range (hreg : fromSvd svdPeripherals sys extDevices internalFlash = some p₀)
    {es : List BusEvent} (hrun : Run (EventStep S) p₀ es p) :
    (∀ q ∈ svdPeripherals, q.name.startsWith "DMA" → ∃ (i : ℕ) (slot : PeripheralSlot D),
      p.slots[i]? = some slot ∧ slot.start = q.baseAddress.setWidth 32 ∧
      slot.peripheral.kind = .dma) ∧
    ∀ (i : ℕ) (slot : PeripheralSlot D), p.slots[i]? = some slot → slot.peripheral.kind = .dma →
      (AccessesInRange S p i slot ↔ EndsWithStreams p i slot) := by
  have hlayout := layout_of_run hrun
  constructor
  · intro q hq hname
    obtain ⟨slot, hslot, hstart, hdma⟩ := exists_slot_of_startsWith_dma hreg hq hname
    obtain ⟨i, hi⟩ := List.mem_iff_getElem?.mp hslot
    obtain ⟨slot', hi', hstart', -, hkind⟩ := exists_slot_of_layout hlayout.symm hi
    exact ⟨i, slot', hi', hstart'.symm.trans hstart, hkind.symm.trans hdma⟩
  · intro i slot hslot hdma
    have hsorted : (p.slots.map fun slot => slot.start.toNat).Pairwise (· ≤ ·) := by
      rw [map_eq_of_layout hlayout fun start _ _ => start.toNat]
      exact sorted_of_fromSvd hreg
    rw [endsWithStreams_iff (S := S) hsorted hslot]
    have hoffset : ∀ addr, getPeripheral S p.slots (target addr) = some (i, slot) →
        ((DmaAccess.fromOffset (target addr - slot.start)).InRange ↔
          (target addr).toNat < slot.start.toNat + 0xd0) := by
      intro addr hget
      have hlookup := (getPeripheral_eq_some_iff.mp hget).1
      obtain ⟨x, hx, hle, -⟩ := mem_of_lookup hsorted hlookup
      obtain rfl : slot = x := Option.some.inj (hslot.symm.trans hx)
      rw [DmaAccess.inRange_fromOffset_iff, BitVec.toNat_sub_of_le (BitVec.le_def.mpr hle)]
      omega
    constructor
    · intro hall addr hget
      obtain ⟨hrange, -⟩ := hall (target addr) 1 0 (Or.inl rfl) (by omega) (by
        rwa [target_of_isTarget (isTarget_target addr)])
      rw [target_of_isTarget (isTarget_target addr)] at hrange
      exact (hoffset addr hget).mp hrange
    · intro hall addr size value _ hfit hget
      have hrange := (hoffset addr hget).mpr (hall addr hget)
      have hfine := fun q => @dma_access_ne_none U D S p _ i slot hdma _ hget hrange q
      exact ⟨hrange, read_ne_none hfit (hfine p rfl).1,
        write_ne_none hfit (fun q hq => (hfine q hq).1) (fun q v hq => (hfine q hq).2 v) value⟩

end Routed

/-- A controller, the last register of which has the offset `last`. -/
def sampleDmaDevice (last : U32) : List SvdPeripheral := [⟨"DMA2", 0x40026400, none, [0x00, last]⟩]

def sampleShared : System RegisterFile Unit := ⟨.default, .default, .default, sampleCpu 0, (), 0⟩

def sampleController (last : U32) : Peripherals RegisterFile Unit :=
  ⟨⟨0x40026400, 0x40026404 + last, .dma (.new "DMA2")⟩ :: corePeripherals, sampleShared⟩

lemma fromSvd_sampleDmaDevice {last : U32} (h : last = 0xc8 ∨ last = 0xcc) :
    fromSvd (sampleDmaDevice last) sampleShared .default none = some (sampleController last) := by
  rcases h with rfl | rfl <;>
    simp [fromSvd, sampleDmaDevice, sampleController, inAddressOrder, sortByKey, registerDeclared,
      declaredRegisters, registerPeripheral, ofName_of_startsWith_dma, genericSize,
      lastOffset, checkedAdd, modeledRange, finishRegistration, adjacentAll, corePeripherals]

/-- Without the last register of the last stream the slot ends with the streams. -/
theorem dma_streams_in_range_sample :
    ∃ p slot, Run (EventStep BinarySearch.linear) (sampleController 0xc8) [.read 0x40026400 4] p ∧
      p.slots[0]? = some slot ∧ AccessesInRange BinarySearch.linear p 0 slot := by
  have hread : (sampleController 0xc8).read BinarySearch.linear 0x40026400 4
      = some (sampleController 0xc8, 0) := rfl
  have hrun := Run.single (EventStep.read hread)
  have hslots := (dma_streams_in_range (fromSvd_sampleDmaDevice (Or.inl rfl)) hrun).2
  exact ⟨_, _, hrun, rfl, (hslots 0 _ rfl rfl).mpr (Or.inl (by decide))⟩

/-- With it the word after the slot belongs to a ninth stream. -/
theorem dma_stream_past_the_last :
    ∃ p slot, fromSvd (sampleDmaDevice 0xcc) sampleShared .default none = some p ∧
      p.slots[0]? = some slot ∧ slot.peripheral.kind = .dma ∧
      p.read BinarySearch.linear 0x400264d0 4 = none ∧
      ¬ AccessesInRange BinarySearch.linear p 0 slot := by
  refine ⟨_, _, fromSvd_sampleDmaDevice (Or.inr rfl), rfl, rfl, rfl, fun hall => ?_⟩
  exact (hall 0x400264d0 4 0 (by decide) (by decide) rfl).2.1 rfl

end Peripherals

end Stm32Emulator
