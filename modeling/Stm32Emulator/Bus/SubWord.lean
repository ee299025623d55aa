import Stm32Emulator.Bus.BitBand
import Stm32Emulator.Bus.Flags

/-!
# Short writes

A write of one or two bytes of a register reads the word, replaces the bytes and writes the word
back. It is local to its lanes when the read changes nothing, the word keeps all other bits and all
other flags stay.  All three are up to the register: `readSafe`, `writeSafe` and `Quiet` say of each
what has to hold of the state and of the written bytes, and a short write is local to its lanes
exactly when they do.  So a byte written to a register whose ones clear flags (the pending register
of the external interrupts, the clear-enable words, the interrupt registers of the USB controller)
clears the flags of the other bytes as well, one written to a data register takes out of it what
firmware has not asked for, and one written to the trigger register of the interrupt controller
triggers the interrupt that the other bytes name.
-/

namespace Stm32Emulator

open Function

variable {U D : Type}

/-! ## Writes -/

/-- A write of the merged word keeps the bits outside the mask. -/
def Peripheral.writeSafe (p : Peripheral D) (sys : System U D) (offset mask value : U32) : Prop :=
  match p with
  | .nvic baseOffset =>
    ∀ word, Nvic.enableWord Nvic.icerOffset (offset + baseOffset) = some word →
      (sys.nvic.enabled >>> (word * 32)).setWidth 32 &&& ~~~mask = 0#32
  | .scb _ =>
    offset = 0x0004 →
      (mask.getLsbD 26 = false → sys.nvic.activeExceptionNumber.getLsbD 26 = true →
        sys.nvic.isPending Irq.systick = true) ∧
      (mask.getLsbD 28 = false → sys.nvic.activeExceptionNumber.getLsbD 28 = true →
        sys.nvic.isPending Irq.pendsv = true)
  | .pwr state =>
    offset = 0x0004 → mask.getLsbD 3 = true ∨ mask.getLsbD 9 = false ∨
      value.getLsbD 9 = state.csr1.getLsbD 3
  | .otgFs state => state.FlagsWithin offset mask
  | .flash state => offset = 0x0c → state.sr &&& ~~~mask = 0#32
  | .tim11 state =>
    offset = 0x0010 → AgreeOutside mask
      (Tim11.srAfterSetup state.cr1 state.ccmr1 state.ccer) state.sr
  | .exti => offset = 0x14 → sys.exti.pr &&& ~~~mask = 0#32
  | _ => True

lemma SysTick.agreeOutside_write (stk : SysTick) (nvic : Nvic) {offset : U32}
    (hoffset : offset ≠ 0x0000 ∧ offset ≠ 0x0008) (value mask : U32) :
    AgreeOutside mask
      ((stk.write nvic offset (mergeLanes (stk.read offset).2 value mask)).1.word offset)
      (stk.word offset) := by
  obtain ⟨hctl, hval⟩ := hoffset
  by_cases hreload : offset = 0x0004
  · subst hreload
    exact agreeOutside_mergeLanes _ _ _
  · simp only [write, hctl, hreload, if_false, AgreeOutside.refl]

lemma Can.agreeOutside_write (can : Can) (offset value mask : U32) :
    AgreeOutside mask ((can.write offset (mergeLanes (can.read offset) value mask)).read offset)
      (can.read offset) := by
  by_cases hmcr : offset = 0x0000
  · subst hmcr
    exact agreeOutside_mergeLanes _ _ _
  · simp only [write, hmcr, if_false, AgreeOutside.refl]

/-! Where nothing is stored, nothing is held. -/

lemma Gpio.register_of_notMem {offset : U32} (h : offset ∉ storing) (gpio : Gpio) :
    gpio.register offset = 0 := by
  simp only [storing, List.mem_cons, List.not_mem_nil, or_false, not_or] at h
  simp only [register, h, if_false]

lemma Adc.register_of_notMem {offset : U32} (h : offset ∉ storing) (adc : Adc D) :
    adc.register offset = 0 := by
  simp only [storing, List.mem_cons, List.not_mem_nil, or_false, not_or] at h
  simp only [register, h, if_false]

lemma Exti.readSyscfg_of_notMem {offset : U32} (h : offset ∉ storingSyscfg) (exti : Exti) :
    exti.readSyscfg offset = 0 := by
  simp only [storingSyscfg, List.mem_cons, List.not_mem_nil, or_false, not_or] at h
  simp only [readSyscfg, h, if_false]

/-- Plain registers keep all that is not written. -/
lemma Peripheral.writeSafe_of_plain {p : Peripheral D} {offset : U32} (h : p.plain offset)
    (sys : System U D) (mask value : U32) : p.writeSafe sys offset mask value := by
  cases p with
  | scb state =>
    obtain rfl : offset = 0x88 := by simpa [plain] using h
    exact fun hicsr => absurd hicsr (by decide)
  | flash state =>
    obtain rfl : offset = 0x00 := by simpa [plain] using h
    exact fun hsr => absurd hsr (by decide)
  | exti =>
    rintro rfl
    simp [plain, Exti.storing] at h
  | nvic | pwr | otgFs | tim11 => simp [plain] at h
  | _ => trivial

lemma Exti.agreeOutside_writeExti_iff (exti : Exti) {offset : U32} (h : offset ∉ storing)
    (value mask : U32) :
    AgreeOutside mask
      ((exti.writeExti offset (mergeLanes (exti.readExti offset) value mask)).readExti offset)
        (exti.readExti offset) ↔
      (offset = 0x14 → exti.pr &&& ~~~mask = 0#32) := by
  simp only [storing, List.mem_cons, List.not_mem_nil, or_false, not_or] at h
  obtain ⟨himr, hemr, hrtsr, hftsr, hswier⟩ := h
  by_cases hpr : offset = 0x14
  · subst hpr
    have hagree : AgreeOutside mask (exti.pr &&& ~~~mergeLanes exti.pr value mask) exti.pr ↔ _ :=
      agreeOutside_and_not_mergeLanes_iff (fun _ h => h) value mask
    exact hagree.trans (by simp)
  · refine iff_of_true ?_ fun h => absurd h hpr
    simp only [writeExti, himr, hemr, hrtsr, hftsr, hswier, hpr, if_false, AgreeOutside.refl]

section Write

variable [UnicornEngine U]

/-- **A register written with the bytes that it was read with keeps them** exactly where it is
safe. -/
lemma Peripheral.agreeOutside_write_iff {p p' : Peripheral D} {sys sys' : System U D}
    {offset v value mask : U32} (hmask : IsLaneMask mask)
    (hread : p.read sys offset = some (p, sys, v))
    (hwrite : p.write sys offset (mergeLanes v value mask) = some (p', sys')) :
    AgreeOutside mask (p'.word sys' offset) (p.word sys offset) ↔
      p.writeSafe sys offset mask value := by
  by_cases hplain : p.plain offset
  · obtain ⟨q, sys₁, hplainWrite, heffect⟩ := write_of_plain hplain sys (mergeLanes v value mask)
    cases hplainWrite.symm.trans hwrite
    cases (read_of_plain hplain sys).symm.trans hread
    rw [heffect.word, if_pos rfl]
    exact iff_of_true (agreeOutside_mergeLanes _ _ _) (writeSafe_of_plain hplain _ _ _)
  have hreadSafe := (read_eq_self_iff hread).mp ⟨rfl, rfl⟩
  cases p with
  | nvic baseOffset =>
    obtain ⟨v', hv, heq⟩ := Option.map_eq_some_iff.mp hread
    cases heq
    obtain ⟨nvic', hnvic, heq⟩ := Option.map_eq_some_iff.mp hwrite
    cases heq
    simp only [word, hv, Option.getD_some]
    exact Nvic.agreeOutside_write_iff hv hnvic
  | nvicStir =>
    obtain ⟨nvic', -, heq⟩ := Option.map_eq_some_iff.mp hwrite
    cases heq
    exact iff_of_true (AgreeOutside.refl _ _) trivial
  | sysTick state =>
    obtain ⟨-, rfl⟩ : (state.read offset).1 = state ∧ (state.read offset).2 = v := by
      simpa [Peripheral.read] using hread
    cases hwrite
    exact iff_of_true (SysTick.agreeOutside_write _ _ hreadSafe _ _) trivial
  | dwt state =>
    cases hread
    cases hwrite
    exact iff_of_true (Dwt.agreeOutside_write _ _ _ _ _) trivial
  | scb state =>
    cases hread
    obtain ⟨⟨scb', nvic'⟩, hscb, heq⟩ := Option.map_eq_some_iff.mp hwrite
    cases heq
    by_cases hicsr : offset = 0x0004#32
    · subst hicsr
      exact (Scb.agreeOutside_write_iff hscb).trans (by simp [writeSafe])
    · have hcpacr : offset ≠ 0x0088#32 := by simpa [plain] using hplain
      have hzero : ∀ (scb : Scb) nvic, scb.word nvic offset = 0 := by
        intro scb nvic
        rw [Scb.word, if_neg hicsr, Scb.read, if_neg hicsr, if_neg hcpacr]
        rfl
      simp only [word, hzero]
      exact iff_of_true (AgreeOutside.refl _ _) fun h => absurd h hicsr
  | gpio state =>
    have hnot : offset ∉ Gpio.storing := by simpa [plain] using hplain
    cases hwrite
    simp only [word, Gpio.register_of_notMem hnot]
    exact iff_of_true (AgreeOutside.refl _ _) trivial
  | usart state =>
    cases hwrite
    exact iff_of_true (AgreeOutside.refl _ _) trivial
  | fsmc state =>
    obtain ⟨d', -, heq⟩ := Option.map_eq_some_iff.mp hwrite
    cases heq
    exact iff_of_true (AgreeOutside.refl _ _) trivial
  | rcc state =>
    cases hread
    cases hwrite
    exact iff_of_true (Rcc.laneWise state offset value mask hmask) trivial
  | pwr state =>
    cases hread
    cases hwrite
    exact Pwr.agreeOutside_write_iff state offset value mask
  | otgFs state =>
    obtain ⟨⟨otg, v'⟩, hotg, heq⟩ := Option.map_eq_some_iff.mp hread
    cases heq
    obtain ⟨⟨otg', d'⟩, hotg', heq⟩ := Option.map_eq_some_iff.mp hwrite
    cases heq
    exact OtgFs.agreeOutside_registerWrite_iff hotg hotg'
  | rtc state =>
    cases hread
    cases hwrite
    exact iff_of_true (Rtc.laneWise state offset value mask hmask) trivial
  | flash state =>
    cases hread
    obtain ⟨⟨flash', uc', d'⟩, hflash, heq⟩ := Option.map_eq_some_iff.mp hwrite
    cases heq
    exact Flash.agreeOutside_write_iff hflash
  | tim11 state =>
    cases hread
    cases hwrite
    exact Tim11.agreeOutside_write_iff state offset value mask
  | tim5 state =>
    cases hread
    cases hwrite
    exact iff_of_true (Tim5.agreeOutside_write _ _ _ _ _) trivial
  | tim6 state =>
    cases hread
    cases hwrite
    exact iff_of_true (Tim6.agreeOutside_write _ _ _ _ _) trivial
  | can state =>
    cases hread
    cases hwrite
    exact iff_of_true (Can.agreeOutside_write _ _ _ _) trivial
  | i2c state =>
    cases hwrite
    exact iff_of_true (AgreeOutside.refl _ _) trivial
  | dma state =>
    obtain ⟨⟨dma, v'⟩, hdma, heq⟩ := Option.map_eq_some_iff.mp hread
    cases heq
    obtain ⟨dma', hdma', heq⟩ := Option.map_eq_some_iff.mp hwrite
    cases heq
    exact iff_of_true (Dma.agreeOutside_write hdma hdma') trivial
  | spi state =>
    have hnot : offset ≠ 0x0000 := by simpa [plain] using hplain
    cases hwrite
    simp only [word, Spi.word, if_neg hnot]
    exact iff_of_true (AgreeOutside.refl _ _) trivial
  | adc state =>
    have hnot : offset ∉ Adc.storing := by simpa [plain] using hplain
    cases hwrite
    simp only [word, Adc.register_of_notMem hnot]
    exact iff_of_true (AgreeOutside.refl _ _) trivial
  | exti =>
    have hnot : offset ∉ Exti.storing := by simpa [plain] using hplain
    cases hread
    cases hwrite
    exact Exti.agreeOutside_writeExti_iff sys.exti hnot value mask
  | syscfg =>
    have hnot : offset ∉ Exti.storingSyscfg := by simpa [plain] using hplain
    cases hwrite
    simp only [word, Exti.readSyscfg_of_notMem hnot]
    exact iff_of_true (AgreeOutside.refl _ _) trivial

end Write

namespace Peripherals

/-! ## Short writes by address -/

/-- The word that a write belongs to, and the mask of the bytes that it writes.  A write to the
bit-band region writes the byte around its bit. -/
def lanes (addr : U32) (size : ℕ) : U32 × U32 :=
  match bitbanding addr with
  | some (byte, _) => ((alignAddr4 byte).1, laneMask 1 (alignAddr4 byte).2)
  | none => ((alignAddr4 addr).1, laneMask size (alignAddr4 addr).2)

/-- The bytes that are written, in their lanes. -/
def laneValue (S : SlotSearch) (p : Peripherals U D) (addr value : U32) : U32 :=
  match bitbanding addr with
  | some (byte, bitNumber) =>
    bitbandByte (((p.readDirect S byte 1).map fun r => r.2).getD 0) value bitNumber
      <<< (8 * (alignAddr4 byte).2)
  | none => value <<< (8 * (alignAddr4 addr).2)

/-- The step from `p` to `p'` keeps all flags outside the lanes of the mask: the peripheral at the
word keeps its own and the shared ones, and no other peripheral changes. -/
def FlagsKept (S : SlotSearch) (p p' : Peripherals U D) (word mask : U32) : Prop :=
  match getPeripheral S p.slots word with
  | none => p' = p
  | some (i, slot) =>
    ∃ peripheral, p'.slots = p.slots.set i { slot with peripheral := peripheral } ∧
      slot.peripheral.FlagsKept peripheral p.sys p'.sys (word - slot.start) mask

/-- The step from `p` to `p'` touches only the lanes of the mask: the read that it begins with
changes nothing, the word keeps all other bits, and all other status, pending and enable bits
stay. -/
structure LaneLocal (S : SlotSearch) (p p' : Peripherals U D) (word mask : U32) : Prop where
  read : ∃ v, p.readPeripheral S word = some (p, v)
  flags : p.FlagsKept S p' word mask
  word : AgreeOutside mask (p'.wordAt S word) (p.wordAt S word)

/-- The register at the address is safe to read and, for the given bytes, to write, and the merged
word is quiet. -/
structure SubWordSafe [UnicornEngine U] (S : SlotSearch) (p : Peripherals U D)
    (word mask value : U32) : Prop where
  read : ∀ (i : ℕ) (slot : PeripheralSlot D), getPeripheral S p.slots word = some (i, slot) →
    slot.peripheral.readSafe p.sys (word - slot.start)
  write : ∀ (i : ℕ) (slot : PeripheralSlot D), getPeripheral S p.slots word = some (i, slot) →
    slot.peripheral.writeSafe p.sys (word - slot.start) mask value
  quiet : ∀ (i : ℕ) (slot : PeripheralSlot D), getPeripheral S p.slots word = some (i, slot) →
    ∀ v, slot.peripheral.read p.sys (word - slot.start) = some (slot.peripheral, p.sys, v) →
      slot.peripheral.Quiet p.sys (word - slot.start) (mergeLanes v value mask)

section SubWord

variable {S : SlotSearch} {p p' : Peripherals U D}

/-- A read changes nothing exactly where the register is safe to read. -/
lemma readPeripheral_eq_self_iff {word : U32} {r : Peripherals U D × U32}
    (h : p.readPeripheral S word = some r) :
    r.1 = p ↔ ∀ (i : ℕ) (slot : PeripheralSlot D), getPeripheral S p.slots word = some (i, slot) →
      slot.peripheral.readSafe p.sys (word - slot.start) := by
  unfold readPeripheral at h
  cases hget : getPeripheral S p.slots word with
  | none =>
    rw [hget] at h
    cases h
    exact iff_of_true rfl fun _ _ hfound => nomatch hfound
  | some found =>
    obtain ⟨i, slot⟩ := found
    rw [hget] at h
    obtain ⟨⟨peripheral, sys, v⟩, hread, rfl⟩ := Option.map_eq_some_iff.mp h
    obtain ⟨-, hslot⟩ := getPeripheral_eq_some_iff.mp hget
    obtain ⟨hi, hat⟩ := List.getElem?_eq_some_iff.mp hslot
    have hsame : ({ slots := p.slots.set i { slot with peripheral := peripheral }, sys := sys }
        : Peripherals U D) = p ↔ peripheral = slot.peripheral ∧ sys = p.sys := by
      constructor
      · intro h
        have hset := congrArg (fun q : Peripherals U D => q.slots[i]?) h
        dsimp only at hset
        rw [List.getElem?_set_self hi, hslot] at hset
        exact ⟨congrArg PeripheralSlot.peripheral (Option.some.inj hset),
          congrArg Peripherals.sys h⟩
      · rintro ⟨rfl, rfl⟩
        rw [← hat, List.set_getElem_self]
    rw [hsame, Peripheral.read_eq_self_iff hread]
    constructor
    · intro hsafe j slot' hget'
      cases hget'
      exact hsafe
    · intro hsafe
      exact hsafe i slot rfl

/-- The read of a slot that leaves the whole state as it is leaves the slot and the system. -/
lemma read_of_readPeripheral {word v : U32} {i : ℕ} {slot : PeripheralSlot D}
    (hget : getPeripheral S p.slots word = some (i, slot))
    (h : p.readPeripheral S word = some (p, v)) :
    slot.peripheral.read p.sys (word - slot.start) = some (slot.peripheral, p.sys, v) := by
  have hsafe := (readPeripheral_eq_self_iff h).mp rfl i slot hget
  unfold readPeripheral at h
  rw [hget] at h
  obtain ⟨⟨peripheral, sys, v'⟩, hread, heq⟩ := Option.map_eq_some_iff.mp h
  obtain ⟨rfl, rfl⟩ := (Peripheral.read_eq_self_iff hread).mpr hsafe
  rw [hread, (Prod.mk.inj heq).2]

variable [UnicornEngine U]

/-- A write changes the peripheral at its address, and the word that it leaves there is its own. -/
lemma writePeripheral_of_getPeripheral {word value : U32} {i : ℕ} {slot : PeripheralSlot D}
    (hget : getPeripheral S p.slots word = some (i, slot))
    (h : p.writePeripheral S word value = some p') :
    ∃ peripheral,
      slot.peripheral.write p.sys (word - slot.start) value = some (peripheral, p'.sys) ∧
      p'.slots = p.slots.set i { slot with peripheral := peripheral } ∧
      p'.wordAt S word = peripheral.word p'.sys (word - slot.start) := by
  obtain ⟨-, hslot⟩ := getPeripheral_eq_some_iff.mp hget
  unfold writePeripheral at h
  rw [hget] at h
  obtain ⟨⟨peripheral, sys⟩, hwrite, rfl⟩ := Option.map_eq_some_iff.mp h
  refine ⟨peripheral, hwrite, rfl, ?_⟩
  simp only [wordAt, getPeripheral_set hslot, hget, Option.map_some, if_true]

/-- A write after a read that changes nothing keeps the bits and flags outside its lanes exactly
where its register is safe and quiet. -/
lemma word_and_flags_iff {word v mask value : U32} (hmask : IsLaneMask mask)
    (hshort : ∃ k < 4, mask.getLsbD (8 * k) = false) (hread : p.readPeripheral S word = some (p, v))
    (hwrite : p.writePeripheral S word (mergeLanes v value mask) = some p') :
    AgreeOutside mask (p'.wordAt S word) (p.wordAt S word) ∧ p.FlagsKept S p' word mask ↔
      ∀ (i : ℕ) (slot : PeripheralSlot D), getPeripheral S p.slots word = some (i, slot) →
        slot.peripheral.writeSafe p.sys (word - slot.start) mask value ∧
        ∀ v', slot.peripheral.read p.sys (word - slot.start) = some (slot.peripheral, p.sys, v') →
          slot.peripheral.Quiet p.sys (word - slot.start) (mergeLanes v' value mask) := by
  unfold FlagsKept
  cases hget : getPeripheral S p.slots word with
  | none =>
    unfold writePeripheral at hwrite
    rw [hget] at hwrite
    cases hwrite
    exact iff_of_true ⟨AgreeOutside.refl _ _, rfl⟩ nofun
  | some found =>
    obtain ⟨i, slot⟩ := found
    obtain ⟨peripheral, hslotWrite, hslots, hwordAt⟩ := writePeripheral_of_getPeripheral hget hwrite
    have hslotRead := read_of_readPeripheral hget hread
    have hold : p.wordAt S word = slot.peripheral.word p.sys (word - slot.start) := by
      simp only [wordAt, hget]
    have hword := Peripheral.agreeOutside_write_iff hmask hslotRead hslotWrite
    rw [hwordAt, hold]
    constructor
    · rintro ⟨hkeeps, q, hq, hflags⟩ j slot' hget'
      cases hget'
      obtain ⟨-, hslot⟩ := getPeripheral_eq_some_iff.mp hget
      obtain ⟨hi, -⟩ := List.getElem?_eq_some_iff.mp hslot
      have hset := congrArg (fun slots => slots[i]?) (hslots.symm.trans hq)
      rw [List.getElem?_set_self hi, List.getElem?_set_self hi] at hset
      obtain rfl : peripheral = q := congrArg PeripheralSlot.peripheral (Option.some.inj hset)
      refine ⟨hword.mp hkeeps, fun v' hv' => ?_⟩
      obtain rfl : v = v' := congrArg (fun r => r.2.2) (Option.some.inj (hslotRead.symm.trans hv'))
      exact (Peripheral.flagsKept_iff hshort hslotRead hslotWrite hkeeps).mp hflags
    · intro hsafe
      obtain ⟨hwriteSafe, hquiet⟩ := hsafe i slot rfl
      have hkeeps := hword.mpr hwriteSafe
      exact ⟨hkeeps, peripheral, hslots,
        (Peripheral.flagsKept_iff hshort hslotRead hslotWrite hkeeps).mpr (hquiet v hslotRead)⟩

/-- One read, and one write of the merged word. -/
lemma laneLocal_iff {word mask value : U32} (hmask : IsLaneMask mask)
    (hshort : ∃ k < 4, mask.getLsbD (8 * k) = false)
    (h : (p.readPeripheral S word).bind (fun r =>
      r.1.writePeripheral S word (mergeLanes r.2 value mask)) = some p') :
    p.LaneLocal S p' word mask ↔ p.SubWordSafe S word mask value := by
  obtain ⟨⟨p₁, v⟩, hread, hwrite⟩ := Option.bind_eq_some_iff.mp h
  have hsafe := readPeripheral_eq_self_iff hread
  dsimp only at hsafe hwrite
  by_cases hsame : p₁ = p
  · subst hsame
    have hkept := word_and_flags_iff hmask hshort hread hwrite
    constructor
    · intro hlocal
      have hall := hkept.mp ⟨hlocal.word, hlocal.flags⟩
      exact ⟨hsafe.mp rfl, fun i slot hget => (hall i slot hget).1,
        fun i slot hget => (hall i slot hget).2⟩
    · intro hall
      obtain ⟨hword, hflags⟩ :=
        hkept.mpr fun i slot hget => ⟨hall.write i slot hget, hall.quiet i slot hget⟩
      exact ⟨⟨v, hread⟩, hflags, hword⟩
  · refine iff_of_false ?_ fun hall => hsame (hsafe.mpr hall.read)
    intro hlocal
    obtain ⟨v', hv'⟩ := hlocal.read
    obtain ⟨rfl, -⟩ := Prod.mk.inj (Option.some.inj (hread.symm.trans hv'))
    exact hsame rfl

/-- **A short write touches only its lanes exactly where its register is safe**: where the read
changes nothing, no bit outside the lanes is one that the write clears or raises, and the merged
word sets, clears or moves no flag of another register. -/
theorem sub_word_write_lane_local_iff {addr value : U32} {size : ℕ} (hreg : isRegister addr)
    (hsize : size < 4) (hwrite : p.write S addr size value = some p') :
    p.LaneLocal S p' (lanes addr size).1 (lanes addr size).2 ↔
      p.SubWordSafe S (lanes addr size).1 (lanes addr size).2 (p.laneValue S addr value) := by
  unfold Peripherals.write at hwrite
  unfold lanes laneValue
  cases hband : bitbanding addr with
  | none =>
    rw [hband] at hwrite
    have hfit : (alignAddr4 addr).2 + size ≤ 4 := by
      by_contra hnot
      simp only [writeDirect, reduceAddr, hreg, if_true, if_neg hnot] at hwrite
      cases hwrite
    dsimp only at hwrite ⊢
    rw [writeDirect_of_lt hreg hband hfit hsize] at hwrite
    exact laneLocal_iff (isLaneMask_laneMask hfit) (exists_laneMask_clear hfit hsize) hwrite
  | some bit =>
    obtain ⟨byte, bitNumber⟩ := bit
    obtain ⟨hbyte, hbyteBand, -⟩ := isRegister_of_bitbanding hband
    have hfit : (alignAddr4 byte).2 + 1 ≤ 4 := alignAddr4_snd_lt byte
    rw [hband] at hwrite
    dsimp only at hwrite ⊢
    obtain ⟨⟨p₁, v⟩, hread, hrest⟩ := Option.bind_eq_some_iff.mp hwrite
    have hreadWord := hread
    rw [readDirect_of_isRegister hbyte hfit] at hreadWord
    obtain ⟨⟨p₂, w⟩, hword, heq⟩ := Option.map_eq_some_iff.mp hreadWord
    obtain ⟨rfl, -⟩ := Prod.mk.inj heq
    by_cases hsame : p₂ = p
    · subst hsame
      rw [hread, Option.map_some, Option.getD_some]
      dsimp only at hrest
      rw [writeDirect_of_lt hbyte hbyteBand hfit (by omega)] at hrest
      exact laneLocal_iff (isLaneMask_laneMask hfit) (exists_laneMask_clear hfit (by omega)) hrest
    · have hsafe := readPeripheral_eq_self_iff hword
      refine iff_of_false ?_ fun hall => hsame (hsafe.mpr hall.read)
      intro hlocal
      obtain ⟨v', hv'⟩ := hlocal.read
      obtain ⟨rfl, -⟩ := Prod.mk.inj (Option.some.inj (hword.symm.trans hv'))
      exact hsame rfl

end SubWord

/-- The pending register of the external interrupts, with the lines zero and nine pending. -/
def samplePending : Peripherals RegisterFile Unit where
  slots := [⟨0x40013c00, 0x40013c18, .exti⟩]
  sys := ⟨.default, { Exti.default with pr := 0x201 }, .default, sampleCpu 0, (), 0⟩

/-- Two bytes written to the falling trigger selection touch no pending line. -/
theorem sub_word_write_lane_local_iff_sample :
    ∃ p', samplePending.write BinarySearch.linear 0x40013c0c 2 5 = some p' ∧
      samplePending.LaneLocal BinarySearch.linear p' 0x40013c0c 0xffff := by
  have hwrites : ∃ p', samplePending.write BinarySearch.linear 0x40013c0c 2 5 = some p' := ⟨_, rfl⟩
  obtain ⟨p', hwrite⟩ := hwrites
  refine ⟨p', hwrite,
    (sub_word_write_lane_local_iff (by decide) (by omega) hwrite).mpr ⟨?_, ?_, ?_⟩⟩
  · intro i slot hget
    cases hget
    trivial
  · intro i slot hget
    cases hget
    exact nofun
  · intro i slot hget v hread
    cases hget
    trivial

/-- A byte that acknowledges line zero clears line nine as well. -/
theorem sub_word_write_acknowledges_other_lane :
    ∃ p', samplePending.write BinarySearch.linear 0x40013c14 1 1 = some p' ∧
      p'.wordAt BinarySearch.linear 0x40013c14 = 0 ∧
      ¬ samplePending.LaneLocal BinarySearch.linear p' 0x40013c14 0xff := by
  refine ⟨_, rfl, rfl, ?_⟩
  intro hlocal
  have hword : (0x000#32 : U32) &&& ~~~0xff#32 = 0x201#32 &&& ~~~0xff#32 := hlocal.word
  exact absurd hword (by decide)

end Peripherals

end Stm32Emulator
