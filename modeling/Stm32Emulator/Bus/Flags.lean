import Stm32Emulator.Bus.Lanes
import Stm32Emulator.Bus.ReadEffects
import Stm32Emulator.Usb.LaneFlags

/-!
# The flags of the peripherals

The status, pending and enable bits that firmware finds in the registers of a peripheral are its
`flags`. Those of the interrupt controller and of the external interrupt lines belong to all
peripherals.  A write has lanes in its own register and in the registers whose flags it sets or
clears under another address (`names`), and it keeps the flags outside these lanes (`FlagsKept`)
exactly if it is safe for the word that it replaces and `quiet`: it raises, clears or makes follow
no flag elsewhere.
-/

namespace Stm32Emulator

open Function

variable {U D : Type}

/-- The enable word that is read at an offset.  It can be set at one offset and cleared at
another. -/
def Nvic.enableIndex (offset : U32) : Option ℕ :=
  match enableWord iserOffset offset with
  | some word => some word
  | none => enableWord icerOffset offset

namespace Peripheral

/-! ## Flags -/

/-- The status, pending and enable bits of a register, as firmware reads them.  Priorities and pins
are none. -/
def flags (p : Peripheral D) (sys : System U D) (offset : U32) : U32 :=
  match p with
  | .nvic baseOffset =>
    if (Nvic.enableIndex (offset + baseOffset)).isSome then p.word sys offset else 0#32
  | .gpio _ => 0#32
  | .otgFs state => state.flags offset
  -- the flags that a read moves on
  | .sysTick state => if offset = 0x0000 then (state.read offset).2 else state.word offset
  | .i2c state => (state.read offset).2
  | .spi state => if offset = 0x0008 then (state.read offset).2 else state.word offset
  | _ => p.word sys offset

/-- A write at `offset` names the flags at `o`: they are those of its own register, or those that
its register sets or clears. -/
def names (p : Peripheral D) (offset o : U32) : Bool :=
  o = offset || match p with
    | .nvic baseOffset =>
      (Nvic.enableIndex (offset + baseOffset)).isSome &&
        Nvic.enableIndex (o + baseOffset) = Nvic.enableIndex (offset + baseOffset)
    | .dma _ => offset = 0x08#32 && o = 0x00#32 || offset = 0x0c#32 && o = 0x04#32
    | _ => false

/-- The lanes of a write at `offset` that stand at `o`. -/
def lanesAt (p : Peripheral D) (offset mask o : U32) : U32 :=
  if p.names offset o then mask else 0#32

/-- The pending bit of the interrupt stands in the lanes. -/
def PendingLane (p : Peripheral D) (offset mask : U32) (irq : ℤ) : Prop :=
  match p with
  | .scb _ => offset = 0x0004#32 ∧
    (irq = Irq.systick ∧ mask.getLsbD 26 = true ∨ irq = Irq.pendsv ∧ mask.getLsbD 28 = true)
  | _ => False

/-- The enable bit of the interrupt stands in the lanes. -/
def EnableLane (p : Peripheral D) (offset mask : U32) (irq : ℤ) : Prop :=
  match p with
  | .nvic baseOffset => 0 ≤ irq ∧
    Nvic.enableIndex (offset + baseOffset) = some (irq.toNat / 32) ∧
    mask.getLsbD (irq.toNat % 32) = true
  | _ => False

/-- A write at `offset` keeps all flags outside its lanes: those in the registers of the peripheral,
those of the interrupt controller and those of the external interrupt lines. -/
structure FlagsKept (p p' : Peripheral D) (sys sys' : System U D) (offset mask : U32) : Prop where
  registers : ∀ o, AgreeOutside (p.lanesAt offset mask o) (p'.flags sys' o) (p.flags sys o)
  pending : ∀ irq, ¬ p.PendingLane offset mask irq →
    sys'.nvic.isPending irq = sys.nvic.isPending irq
  enabled : ∀ irq, ¬ p.EnableLane offset mask irq →
    sys'.nvic.isEnabled irq = sys.nvic.isEnabled irq
  lines : p ≠ .exti → ∀ o, sys'.exti.readExti o = sys.exti.readExti o

end Peripheral

/-! ## Registers that stand for themselves

A write replaces the word of its register and no other word of the peripheral. -/

lemma SysTick.word_write_of_ne (stk : SysTick) (nvic : Nvic) {offset o : U32} (ho : o ≠ offset)
    (value : U32) : (stk.write nvic offset value).1.word o = stk.word o := by
  unfold write word
  split_ifs <;> simp_all

lemma SysTick.read_control_write (stk : SysTick) (nvic : Nvic) {offset : U32}
    (hoffset : offset ≠ 0x0000) (value : U32) :
    ((stk.write nvic offset value).1.read 0x0000).2 = (stk.read 0x0000).2 := by
  rw [write, if_neg hoffset]
  split_ifs <;> rfl

lemma Dwt.read_write_of_ne (dwt : Dwt) (n : ℕ) {offset o : U32} (ho : o ≠ offset) (value : U32) :
    (dwt.write n offset value).read n o = dwt.read n o := by
  unfold write read
  split_ifs <;> simp_all [setCyccnt]
  rfl

lemma Rcc.read_write_of_ne (rcc : Rcc) {offset o : U32} (ho : o ≠ offset) (value : U32) :
    (rcc.write offset value).read o = rcc.read o := by
  unfold write read
  split_ifs <;> simp_all

lemma Rtc.read_write_of_ne (rtc : Rtc) {offset o : U32} (ho : o ≠ offset) (value : U32) :
    (rtc.write offset value).read o = rtc.read o := by
  unfold write read
  split_ifs <;> simp_all

lemma Spi.word_write_of_ne (spi : Spi D) (d : D) {offset o : U32} (ho : o ≠ offset) (value : U32) :
    (spi.write d offset value).1.word o = spi.word o := by
  unfold write word
  split_ifs <;> simp_all

lemma Spi.read_status_write (spi : Spi D) (d : D) (offset value : U32) :
    ((spi.write d offset value).1.read 0x0008).2 = (spi.read 0x0008).2 := by
  unfold write
  split_ifs <;> rfl

lemma Adc.register_write_of_ne (adc : Adc D) {offset o : U32} (ho : o ≠ offset) (value : U32) :
    (adc.registerWrite offset value).register o = adc.register o := by
  by_cases hstoring : offset ∈ storing
  · rw [register_registerWrite hstoring, update_of_ne ho]
  · simp only [storing, List.mem_cons, List.not_mem_nil, or_false, not_or] at hstoring
    simp only [registerWrite, hstoring, if_false]

lemma Exti.readExti_write_of_ne (exti : Exti) {offset o : U32} (ho : o ≠ offset) (value : U32) :
    (exti.writeExti offset value).readExti o = exti.readExti o := by
  by_cases hstoring : offset ∈ storing
  · rw [readExti_writeExti hstoring, update_of_ne ho]
  · simp only [storing, List.mem_cons, List.not_mem_nil, or_false, not_or] at hstoring
    simp only [writeExti, hstoring, if_false]
    split_ifs with hpr
    · subst hpr
      simp only [readExti, ho, if_false]
    · rfl

lemma Exti.readSyscfg_write_of_ne (exti : Exti) {offset o : U32} (ho : o ≠ offset) (value : U32) :
    (exti.writeSyscfg offset value).readSyscfg o = exti.readSyscfg o := by
  by_cases hstoring : offset ∈ storingSyscfg
  · rw [readSyscfg_writeSyscfg hstoring, update_of_ne ho]
  · simp only [storingSyscfg, List.mem_cons, List.not_mem_nil, or_false, not_or] at hstoring
    simp only [writeSyscfg, hstoring, if_false]

lemma Tim5.read_write_of_ne (tim : Tim5) (n : ℕ) {offset o : U32} (ho : o ≠ offset) (value : U32) :
    (tim.write n offset value).read n o = tim.read n o := by
  by_cases hstoring : offset ∈ storing
  · rw [read_write hstoring, update_of_ne ho]
  · simp only [storing, List.mem_cons, List.not_mem_nil, or_false, not_or] at hstoring
    simp only [write, hstoring, if_false]
    split_ifs with hsr
    · subst hsr
      simp only [read, ho, if_false]
      rfl
    · rfl

lemma Tim6.word_write_of_ne (tim : Tim6) (now : ℕ) {offset o : U32} (ho : o ≠ offset)
    (value : U32) : (tim.write now offset value).word now o = tim.word now o := by
  by_cases hstoring : offset ∈ storing
  · rw [word_write hstoring, update_of_ne ho]
  · simp only [storing, List.mem_cons, List.not_mem_nil, or_false, not_or] at hstoring
    by_cases hcnt : o = 0x24
    · subst hcnt
      rfl
    simp only [write, hstoring, if_false, word, hcnt]
    split_ifs with hsr hegr hset hcount hpsc
    · subst hsr
      simp only [read, ho, if_false, hcnt]
    · simp only [read, hcnt, if_false]
    · rfl
    · simp only [read, hcnt, if_false]
    · subst hpsc
      simp only [writePsc, read, ho, hcnt, if_false]
    · rfl

/-! ## Registers that others follow -/

lemma DmaStream.register_write_of_ne {offset o : ℕ} (ho : o ≠ offset) (stream : DmaStream)
    (value : U32) : (stream.write offset value).1.register o = stream.register o := by
  by_cases hstoring : offset ∈ storing
  · rw [register_write hstoring, update_of_ne ho]
  · simp only [storing, List.mem_cons, List.not_mem_nil, or_false, not_or] at hstoring
    obtain ⟨hpar, hm0ar, hm1ar, hfcr⟩ := hstoring
    simp only [write, hpar, hm0ar, hm1ar, hfcr, if_false]
    split_ifs with hcr hndtr
    · subst hcr
      simp only [register, ho, if_false]
    · subst hndtr
      simp only [register, ho, if_false]
    · rfl

lemma Pwr.read_write_iff (pwr : Pwr) {offset : U32} (value : U32) :
    (∀ o, o ≠ offset → (pwr.write offset value).read o = pwr.read o) ↔
      (offset = 0x0000 → csr1AfterCr1Write value ||| pwr.csr1
        = csr1AfterCr1Write pwr.cr1 ||| pwr.csr1) := by
  constructor
  · rintro h rfl
    exact h 0x0004 (by decide)
  · intro h o ho
    unfold write read
    split_ifs <;> simp_all

lemma Can.read_write_iff (can : Can) {offset : U32} (value : U32) :
    (∀ o, o ≠ offset → (can.write offset value).read o = can.read o) ↔
      (offset = 0x0000 → msrAfterMcrWrite value = msrAfterMcrWrite can.mcr) := by
  constructor
  · rintro h rfl
    exact h 0x0004 (by decide)
  · intro h o ho
    unfold write read
    split_ifs <;> simp_all

/-- The register of which the word is written, and all that the timer derives from it. -/
lemma Tim11.read_write_iff (tim : Tim11) {offset : U32} (value : U32) :
    (∀ o, o ≠ offset → (tim.write offset value).read o = tim.read o) ↔
      (offset = 0x0000 → tim.sr ||| srAfterSetup value tim.ccmr1 tim.ccer = tim.sr) ∧
      (offset = 0x0018 → tim.sr ||| srAfterSetup tim.cr1 value tim.ccer = tim.sr) ∧
      (offset = 0x0020 → tim.sr ||| srAfterSetup tim.cr1 tim.ccmr1 value = tim.sr) := by
  constructor
  · intro h
    refine ⟨?_, ?_, ?_⟩ <;>
    · rintro rfl
      exact h 0x0010 (by decide)
  · rintro ⟨hcr1, hccmr1, hccer⟩ o ho
    unfold write read refreshCaptureStatus
    split_ifs <;> simp_all

namespace Flash

variable [UnicornEngine U]

/-- The memory after the erase that a write of the control register starts, and whether it
succeeded. -/
def controlErase (flash : Flash D) (uc : U) (value : U32) : Option (Bool × U) :=
  if value &&& crStrt ≠ 0#32 ∧ value &&& crSer ≠ 0#32 then
    flash.eraseSector uc ((value &&& crSnbMask) >>> 3).toNat
  else
    some (true, uc)

/-- Where no error has been noted yet, the erase and the save that a write of the control register
starts succeed. -/
def ControlSucceeds (flash : Flash D) (uc : U) (d : D) (value : U32) : Prop :=
  flash.cr &&& crLock = 0#32 → flash.sr &&& srOperr = 0#32 → ∀ success uc',
    flash.controlErase uc value = some (success, uc') →
      success = true ∧ (value &&& crLock ≠ 0#32 → (flash.persist uc' d).1 = true)

lemma sr_noteResult (flash : Flash D) (success : Bool) :
    (flash.noteResult success).sr = if success then flash.sr else flash.sr ||| srOperr := by
  unfold noteResult
  split_ifs <;> rfl

lemma or_operr_eq_iff (sr : U32) : sr ||| srOperr = sr ↔ sr &&& srOperr ≠ 0#32 := by
  have hbit : (srOperr : U32) = 1#32 <<< 1 := by decide
  rw [hbit, and_one_shiftLeft_ne_zero_iff]
  constructor
  · intro h
    rw [← h, BitVec.getLsbD_or]
    simp
  · intro h
    apply BitVec.eq_of_getLsbD_eq
    intro i _
    rw [BitVec.getLsbD_or, getLsbD_one_shiftLeft]
    by_cases hi : i = 1
    · subst hi
      simp [h]
    · simp [hi]

/-- An unlocked write notes how the erase went. -/
lemma eraseOnWrite_storeCr (flash : Flash D) (uc : U) (value : U32) :
    (flash.storeCr value).eraseOnWrite uc false value =
      (flash.controlErase uc value).map fun r => ((flash.storeCr value).noteResult r.1, r.2) := by
  unfold eraseOnWrite controlErase
  simp only [Bool.not_false, true_and]
  split_ifs <;> rfl

/-- An unlocked write that locks notes how the save went. -/
lemma sr_persistOnWrite (flash : Flash D) (uc : U) (d : D) (value : U32) :
    (flash.persistOnWrite uc d false value).1.sr =
      if value &&& crLock ≠ 0#32 ∧ (flash.persist uc d).1 = false then flash.sr ||| srOperr
      else flash.sr := by
  unfold persistOnWrite
  simp only [Bool.not_false, true_and]
  by_cases hlocks : value &&& crLock ≠ 0#32
  · rw [if_pos hlocks, sr_noteResult]
    cases (flash.persist uc d).1 <;> simp [hlocks]
  · rw [if_neg hlocks, if_neg fun h => hlocks h.1]

lemma sr_writeControl_iff {flash flash' : Flash D} {uc uc' : U} {d d' : D} {value : U32}
    (h : flash.writeControl uc d value = some (flash', uc', d')) :
    flash'.sr = flash.sr ↔ flash.ControlSucceeds uc d value := by
  unfold writeControl at h
  dsimp only at h
  by_cases hlock : flash.cr &&& crLock = 0#32
  · have hwas : (flash.cr &&& crLock != 0#32) = false := by simpa using hlock
    rw [hwas, if_neg (by simp)] at h
    rw [eraseOnWrite_storeCr, Option.map_map] at h
    obtain ⟨⟨success, uc₁⟩, herase, heq⟩ := Option.map_eq_some_iff.mp h
    have hsr : flash'.sr = _ := congrArg (fun r : Flash D × U × D => r.1.sr) heq.symm
    have hpersist : ((flash.storeCr value).noteResult success).persist uc₁ d =
        flash.persist uc₁ d :=
      persist_congr (by unfold noteResult; split_ifs <;> rfl) uc₁ d
    have hstored : (flash.storeCr value).sr = flash.sr := rfl
    dsimp only [comp_apply] at hsr
    rw [hsr, sr_persistOnWrite, sr_noteResult, hpersist, hstored]
    have hsucceeds : flash.ControlSucceeds uc d value ↔ (flash.sr &&& srOperr = 0#32 →
        success = true ∧ (value &&& crLock ≠ 0#32 → (flash.persist uc₁ d).1 = true)) := by
      constructor
      · intro h hclear
        exact h hlock hclear success uc₁ herase
      · intro h _ hclear success' uc' herase'
        cases herase.symm.trans herase'
        exact h hclear
    have hnoted := or_operr_eq_iff flash.sr
    rw [hsucceeds]
    by_cases hclear : flash.sr &&& srOperr = 0#32
    · have hnot : flash.sr ||| srOperr ≠ flash.sr := fun h => hnoted.mp h hclear
      cases success with
      | true =>
        cases (flash.persist uc₁ d).1 with
        | true => simp [hclear]
        | false => by_cases hlocks : value &&& crLock = 0#32 <;> simp [hclear, hlocks, hnot]
      | false =>
        refine iff_of_false ?_ fun h => Bool.false_ne_true (h hclear).1
        simp only [Bool.false_eq_true, if_false]
        split_ifs
        · rw [BitVec.or_assoc, BitVec.or_self]
          exact hnot
        · exact hnot
    · refine iff_of_true ?_ fun h => absurd h hclear
      have hset := hnoted.mpr hclear
      simp only [hset, ite_self]
  · have hwas : (flash.cr &&& crLock != 0#32) = true := by simpa using hlock
    refine iff_of_true ?_ fun hunlocked => absurd hunlocked hlock
    rw [hwas] at h
    split_ifs at h
    · cases h
      rfl
    · simp only [eraseOnWrite, persistOnWrite, Bool.not_true, Bool.false_eq_true,
        false_and, if_false, Option.map_some] at h
      cases h
      rfl
/-- A write of the control register keeps the other settings. -/
lemma writeControl_frame {flash flash' : Flash D} {uc uc' : U} {d d' : D} {value : U32}
    (h : flash.writeControl uc d value = some (flash', uc', d')) :
    flash'.acr = flash.acr ∧ flash'.optcr = flash.optcr := by
  have hnote : ∀ (f : Flash D) success,
      (f.noteResult success).acr = f.acr ∧ (f.noteResult success).optcr = f.optcr := by
    intro f success
    unfold noteResult
    split_ifs <;> exact ⟨rfl, rfl⟩
  unfold writeControl at h
  dsimp only at h
  split_ifs at h
  · cases h
    exact ⟨rfl, rfl⟩
  · obtain ⟨⟨erased, uc₁⟩, herase, heq⟩ := Option.map_eq_some_iff.mp h
    have herased : erased.acr = flash.acr ∧ erased.optcr = flash.optcr := by
      unfold eraseOnWrite at herase
      split_ifs at herase
      · obtain ⟨⟨success, uc₂⟩, -, heq⟩ := Option.map_eq_some_iff.mp herase
        cases heq
        exact hnote _ _
      · cases herase
        exact ⟨rfl, rfl⟩
    cases heq
    unfold persistOnWrite
    split_ifs
    · exact ⟨(hnote _ _).1.trans herased.1, (hnote _ _).2.trans herased.2⟩
    · exact herased

/-- The status register follows the control register: it notes errors.  The first key is all that a
word other than the second can be. -/
lemma read_write_iff {flash flash' : Flash D} {uc uc' : U} {d d' : D} {offset value : U32}
    (hkey : offset = 0x04 → value ≠ key2)
    (h : flash.write uc d offset value = some (flash', uc', d')) :
    (∀ o, o ≠ offset → flash'.read o = flash.read o) ↔
      (offset = 0x10 → flash.ControlSucceeds uc d value) := by
  by_cases hcr : offset = 0x10
  · subst hcr
    have hwrite : flash.writeControl uc d value = some (flash', uc', d') := h
    rw [← sr_writeControl_iff hwrite]
    obtain ⟨hacr, hoptcr⟩ := writeControl_frame hwrite
    constructor
    · intro hall _
      exact hall 0x0c (by decide)
    · intro hsr o ho
      simp only [read, hacr, hoptcr, hsr rfl, ho, if_false]
  refine iff_of_true (fun o ho => ?_) fun h => absurd h hcr
  by_cases hacr : offset = 0x00
  · subst hacr
    cases h
    simp only [read, ho, if_false]
  by_cases hkeyr : offset = 0x04
  · subst hkeyr
    cases h
    unfold writeKey
    split_ifs with _ hsecond
    · rfl
    · exact absurd hsecond.2 (hkey rfl)
    · rfl
  by_cases hsr : offset = 0x0c
  · subst hsr
    cases h
    simp only [read, ho, if_false]
  by_cases hoptcr : offset = 0x14 ∧ flash.optcr &&& optcrOptlock = 0#32
  · obtain ⟨rfl, hunlocked⟩ := hoptcr
    have hwrite : (if 0x14#32 = 0x14#32 ∧ flash.optcr &&& optcrOptlock = 0#32 then
        some ({ flash with optcr := value }, uc, d) else some (flash, uc, d))
          = some (flash', uc', d') := h
    rw [if_pos ⟨rfl, hunlocked⟩] at hwrite
    cases hwrite
    simp only [read, ho, if_false]
  · simp only [write, hacr, hkeyr, hsr, hcr, hoptcr, if_false] at h
    cases h
    rfl

end Flash

/-- The flags stand at the registers that report them as well as at those that clear them. -/
lemma Dma.word_write_of_ne {dma dma' : Dma} {offset o value : U32}
    (ho : o ≠ offset) (hlow : ¬ (offset = 0x08 ∧ o = 0x00)) (hhigh : ¬ (offset = 0x0c ∧ o = 0x04))
    (h : dma.write offset value = some dma') : dma'.word o = dma.word o := by
  unfold write at h
  unfold word
  cases haccess : DmaAccess.fromOffset offset with
  | reg reg =>
    obtain rfl : offset = reg := by
      unfold DmaAccess.fromOffset at haccess
      split_ifs at haccess
      exact DmaAccess.reg.inj haccess
    rw [haccess] at h
    dsimp only at h
    cases hother : DmaAccess.fromOffset o with
    | reg reg =>
      obtain rfl : o = reg := by
        unfold DmaAccess.fromOffset at hother
        split_ifs at hother
        exact DmaAccess.reg.inj hother
      dsimp only
      split_ifs at h with hlifcr hhifcr <;> cases h
      · subst hlifcr
        have hzero : o ≠ 0x00 := fun hzero => hlow ⟨rfl, hzero⟩
        simp only [hzero, ho, or_self, if_false]
      · subst hhifcr
        have hfour : o ≠ 0x04 := fun hfour => hhigh ⟨rfl, hfour⟩
        simp only [hfour, ho, or_self, if_false]
      · rfl
    | streamReg i reg =>
      dsimp only
      split_ifs at h <;> cases h <;> rfl
  | streamReg i reg =>
    rw [haccess] at h
    dsimp only at h
    by_cases hi : i < 8
    swap
    · rw [dif_neg hi] at h
      cases h
    rw [dif_pos hi] at h
    have hdma : ∃ completeAt, dma' =
        { dma with
          streams := update dma.streams ⟨i, hi⟩ ((dma.streams ⟨i, hi⟩).write reg value).1
          completeAt := completeAt } := by
      rw [← Option.some.inj h]
      split_ifs <;> exact ⟨_, rfl⟩
    obtain ⟨_, rfl⟩ := hdma
    cases hother : DmaAccess.fromOffset o with
    | reg reg => rfl
    | streamReg j reg' =>
      dsimp only
      by_cases hj : j < 8
      · rw [dif_pos hj, dif_pos hj]
        by_cases hij : j = i
        · subst hij
          have hreg : reg' ≠ reg := by
            rintro rfl
            exact ho (DmaAccess.fromOffset_injective (hother.trans haccess.symm))
          rw [update_self]
          exact DmaStream.register_write_of_ne hreg _ _
        · rw [update_of_ne (by simpa using hij)]
      · rw [dif_neg hj, dif_neg hj]

/-! ## The interrupt controller -/

namespace Nvic

lemma enableIndex_eq_some_iff {offset : U32} {word : ℕ} :
    enableIndex offset = some word ↔
      enableWord iserOffset offset = some word ∨ enableWord icerOffset offset = some word := by
  unfold enableIndex
  cases hiser : enableWord iserOffset offset with
  | some word' => simp [enableWord_icer_eq_none hiser]
  | none => simp

/-- What stands at an offset of an enable word. -/
lemma read_of_enableIndex {nvic : Nvic} {offset : U32} {word : ℕ}
    (h : enableIndex offset = some word) :
    nvic.read offset = some ((nvic.enabled >>> (word * 32)).setWidth 32) := by
  unfold read
  rcases enableIndex_eq_some_iff.mp h with hiser | hicer
  · rw [hiser]
  · cases hiser : enableWord iserOffset offset with
    | some word' =>
      rw [enableWord_icer_eq_none hiser] at hicer
      cases hicer
    | none => rw [hicer]

/-- The enable bits are those of the enable words. -/
lemma isEnabled_eq_getLsbD (nvic : Nvic) {irq : ℤ} (h : 0 ≤ irq) :
    nvic.isEnabled irq =
      ((nvic.enabled >>> (irq.toNat / 32 * 32)).setWidth 32).getLsbD (irq.toNat % 32) := by
  have hmod : irq.toNat % 32 < 32 := Nat.mod_lt _ (by omega)
  have hsum : irq.toNat / 32 * 32 + irq.toNat % 32 = irq.toNat := by omega
  rw [getLsbD_enableWord _ _ hmod, hsum, Bool.eq_iff_iff, isEnabled_eq_true_iff, and_iff_right h]

/-- An enable word changes only through a write at one of its two offsets. -/
lemma enableWord_write_of_ne {nvic nvic' : Nvic} {offset value : U32} {word : ℕ}
    (hword : enableIndex offset ≠ some word) (h : nvic.write offset value = some nvic') :
    (nvic'.enabled >>> (word * 32)).setWidth 32 = (nvic.enabled >>> (word * 32)).setWidth 32 := by
  by_cases hlt : word < 4
  · apply BitVec.eq_of_getLsbD_eq
    intro i hi
    have hirq := isEnabled_write h ((word * 32 + i : ℕ) : ℤ)
    have hdiv : (word * 32 + i) / 32 = word := by omega
    have hmod : (word * 32 + i) % 32 = i := by omega
    have hnone : ∀ base, base = iserOffset ∨ base = icerOffset →
        writesOne base ((word * 32 + i : ℕ) : ℤ) offset value = false := by
      intro base hbase
      unfold writesOne
      rw [decide_eq_false, Bool.false_and]
      rintro ⟨-, -, hoffset⟩
      rw [Int.toNat_natCast, hdiv] at hoffset
      have hat : enableWord base offset = some word := enableWord_eq_some_iff.mpr ⟨hlt, hoffset⟩
      rcases hbase with rfl | rfl
      · exact hword (enableIndex_eq_some_iff.mpr (Or.inl hat))
      · exact hword (enableIndex_eq_some_iff.mpr (Or.inr hat))
    rw [hnone _ (Or.inl rfl), hnone _ (Or.inr rfl), Bool.or_false, Bool.not_false, Bool.and_true,
      isEnabled_eq_getLsbD _ (by omega), isEnabled_eq_getLsbD _ (by omega), Int.toNat_natCast, hdiv,
      hmod] at hirq
    exact hirq
  · apply BitVec.eq_of_getLsbD_eq
    intro i hi
    rw [getLsbD_enableWord _ _ hi, getLsbD_enableWord _ _ hi, BitVec.getLsbD_of_ge _ _ (by omega),
      BitVec.getLsbD_of_ge _ _ (by omega)]

/-- Only registers that pend change what is pending. -/
lemma isPending_write {nvic nvic' : Nvic} {offset value : U32}
    (h : nvic.write offset value = some nvic') (irq : ℤ) :
    nvic'.isPending irq = nvic.isPending irq := by
  rw [write_frame h]
  rfl

end Nvic

/-- What a write to `ICSR` pends. -/
lemma Scb.isPending_write_iff {scb scb' : Scb} {nvic nvic' : Nvic} {offset value : U32}
    (h : scb.write nvic offset value = some (scb', nvic')) (irq : ℤ) :
    nvic'.isPending irq = true ↔ nvic.isPending irq = true ∨ offset = 0x0004#32 ∧
      (irq = Irq.systick ∧ value.getLsbD 26 = true ∨ irq = Irq.pendsv ∧
        value.getLsbD 28 = true) := by
  by_cases hicsr : offset = 0x0004#32
  · subst hicsr
    rw [write_icsr] at h
    obtain ⟨nvic₁, h₁, hrest⟩ := Option.bind_eq_some_iff.mp h
    obtain ⟨nvic₂, h₂, heq⟩ := Option.bind_eq_some_iff.mp hrest
    obtain ⟨-, rfl⟩ := Prod.mk.inj (Option.some.inj heq)
    rw [Nvic.isPending_of_ite (and_one_shiftLeft_ne_zero_iff value 28) h₂,
      Nvic.isPending_of_ite (and_one_shiftLeft_ne_zero_iff value 26) h₁]
    simp only [Bool.or_eq_true, Bool.and_eq_true, decide_eq_true_eq]
    tauto
  · unfold write at h
    rw [if_neg hicsr] at h
    have hsame : nvic' = nvic := by
      split_ifs at h <;> cases h <;> rfl
    simp [hsame, hicsr]

lemma Scb.isEnabled_write {scb scb' : Scb} {nvic nvic' : Nvic} {offset value : U32}
    (h : scb.write nvic offset value = some (scb', nvic')) (irq : ℤ) :
    nvic'.isEnabled irq = nvic.isEnabled irq := by
  have hpend : ∀ {c : Prop} [Decidable c] {n n' : Nvic} {j : ℤ},
      (if c then n.setIntrPending j else some n) = some n' →
      n'.isEnabled irq = n.isEnabled irq := by
    intro c _ n n' j h
    split_ifs at h
    · rw [Nvic.setIntrPending_frame h]
      rfl
    · cases h
      rfl
  by_cases hicsr : offset = 0x0004#32
  · subst hicsr
    rw [write_icsr] at h
    obtain ⟨nvic₁, h₁, hrest⟩ := Option.bind_eq_some_iff.mp h
    obtain ⟨nvic₂, h₂, heq⟩ := Option.bind_eq_some_iff.mp hrest
    obtain ⟨-, rfl⟩ := Prod.mk.inj (Option.some.inj heq)
    exact (hpend h₂).trans (hpend h₁)
  · unfold write at h
    rw [if_neg hicsr] at h
    split_ifs at h <;> cases h <;> rfl

/-- The coprocessor access register is the only storage. -/
lemma Scb.word_write_of_ne {scb scb' : Scb} {nvic nvic' : Nvic} {offset o value : U32}
    (ho : o ≠ offset) (h : scb.write nvic offset value = some (scb', nvic')) :
    scb'.word nvic' o = scb.word nvic o := by
  by_cases hicsr : offset = 0x0004#32
  · subst hicsr
    rw [write_icsr] at h
    obtain ⟨nvic₁, -, hrest⟩ := Option.bind_eq_some_iff.mp h
    obtain ⟨nvic₂, -, heq⟩ := Option.bind_eq_some_iff.mp hrest
    obtain ⟨rfl, -⟩ := Prod.mk.inj (Option.some.inj heq)
    simp only [word, read, if_neg ho]
  · unfold write at h
    rw [if_neg hicsr] at h
    split_ifs at h with hcpacr
    · subst hcpacr
      cases h
      simp only [word, read, ho, if_false]
    · cases h
      rfl

/-! ## Quiet writes -/

namespace Peripheral

/-- Where a register names its own flags only, those of all other registers have to stay. -/
lemma flagsKept_iff_of_own {p p' : Peripheral D} {sys sys' : System U D} {offset mask : U32}
    (hown : AgreeOutside mask (p'.flags sys' offset) (p.flags sys offset))
    (hnames : ∀ o, p.names offset o = decide (o = offset))
    (hpending : ∀ irq, sys'.nvic.isPending irq = sys.nvic.isPending irq)
    (henabled : ∀ irq, sys'.nvic.isEnabled irq = sys.nvic.isEnabled irq)
    (hlines : ∀ o, sys'.exti.readExti o = sys.exti.readExti o) :
    p.FlagsKept p' sys sys' offset mask ↔ ∀ o, o ≠ offset → p'.flags sys' o = p.flags sys o := by
  constructor
  · intro h o ho
    have hagree := h.registers o
    rw [lanesAt, hnames, decide_eq_false ho, if_neg Bool.false_ne_true, agreeOutside_iff] at hagree
    exact BitVec.eq_of_getLsbD_eq fun i _ => hagree i BitVec.getLsbD_zero
  · intro h
    refine ⟨fun o => ?_, fun irq _ => hpending irq, fun irq _ => henabled irq, fun _ => hlines⟩
    rw [lanesAt, hnames]
    by_cases ho : o = offset
    · subst ho
      rw [decide_eq_true rfl, if_pos rfl]
      exact hown
    · rw [h o ho]

/-- A write that leaves the interrupts and the external lines alone keeps the flags exactly if it
keeps the other words of its peripheral. -/
lemma flagsKept_iff_of_word {p p' : Peripheral D} {sys sys' : System U D} {offset mask : U32}
    (hword : AgreeOutside mask (p'.word sys' offset) (p.word sys offset))
    (hflags : p.flags sys = p.word sys) (hflags' : p'.flags sys' = p'.word sys')
    (hnames : ∀ o, p.names offset o = decide (o = offset)) (hnvic : sys'.nvic = sys.nvic)
    (hlines : ∀ o, sys'.exti.readExti o = sys.exti.readExti o) :
    p.FlagsKept p' sys sys' offset mask ↔ ∀ o, o ≠ offset → p'.word sys' o = p.word sys o := by
  rw [← hflags, ← hflags'] at hword ⊢
  exact flagsKept_iff_of_own hword hnames (fun _ => by rw [hnvic]) (fun _ => by rw [hnvic]) hlines

section Quiet

variable [UnicornEngine U]

/-- A write of the word raises, clears or moves no flag that stands elsewhere. -/
def Quiet (p : Peripheral D) (sys : System U D) (offset value : U32) : Prop :=
  match p with
  -- the interrupt that is named is pending already
  | .nvicStir => offset = 0 → sys.nvic.isPending (value &&& 0x1ff#32).toNat = true
  -- the ready flags that follow `CR1` stay
  | .pwr state => offset = 0x0000 →
    Pwr.csr1AfterCr1Write value ||| state.csr1 = Pwr.csr1AfterCr1Write state.cr1 ||| state.csr1
  | .otgFs state => state.Quiet sys.d offset value
  | .flash state => offset = 0x10 → state.ControlSucceeds sys.uc sys.d value
  -- the timer is not set up to capture, or the capture flag is up already
  | .tim11 state =>
    (offset = 0x0000 →
      state.sr ||| Tim11.srAfterSetup value state.ccmr1 state.ccer = state.sr) ∧
    (offset = 0x0018 →
      state.sr ||| Tim11.srAfterSetup state.cr1 value state.ccer = state.sr) ∧
    (offset = 0x0020 →
      state.sr ||| Tim11.srAfterSetup state.cr1 state.ccmr1 value = state.sr)
  -- the acknowledged modes stay
  | .can state =>
    offset = 0x0000 → Can.msrAfterMcrWrite value = Can.msrAfterMcrWrite state.mcr
  | _ => True

variable {p' : Peripheral D} {sys sys' : System U D} {offset v value mask : U32}

/-- The enable words that are not named stay as they are. -/
lemma flagsKept_nvic {baseOffset : U32}
    (hwrite : (nvic baseOffset : Peripheral D).write sys offset value = some (p', sys'))
    (hword : AgreeOutside mask (p'.word sys' offset)
      ((nvic baseOffset : Peripheral D).word sys offset)) :
    (nvic baseOffset : Peripheral D).FlagsKept p' sys sys' offset mask := by
  obtain ⟨nvic', hnvic, heq⟩ := Option.map_eq_some_iff.mp hwrite
  cases heq
  have hlanes : ∀ word, Nvic.enableIndex (offset + baseOffset) = some word →
      AgreeOutside mask ((nvic'.enabled >>> (word * 32)).setWidth 32)
        ((sys.nvic.enabled >>> (word * 32)).setWidth 32) := by
    intro word hindex
    simp only [Peripheral.word, Nvic.read_of_enableIndex hindex, Option.getD_some] at hword
    exact hword
  refine ⟨fun o => ?_, fun irq _ => Nvic.isPending_write hnvic irq, fun irq hirq => ?_,
    fun _ _ => rfl⟩
  · cases hindex : Nvic.enableIndex (o + baseOffset) with
    | none =>
      simp only [flags, hindex]
      exact AgreeOutside.refl _ _
    | some word =>
      simp only [flags, hindex, Option.isSome_some, if_true, Peripheral.word,
        Nvic.read_of_enableIndex hindex, Option.getD_some]
      by_cases hown : Nvic.enableIndex (offset + baseOffset) = some word
      · have hnames : (nvic baseOffset : Peripheral D).names offset o = true := by
          simp [names, hown, hindex]
        rw [lanesAt, if_pos hnames]
        exact hlanes word hown
      · rw [Nvic.enableWord_write_of_ne hown hnvic]
  · by_cases hnonneg : 0 ≤ irq
    · rw [Nvic.isEnabled_eq_getLsbD _ hnonneg, Nvic.isEnabled_eq_getLsbD _ hnonneg]
      by_cases hown : Nvic.enableIndex (offset + baseOffset) = some (irq.toNat / 32)
      · refine agreeOutside_iff.mp (hlanes _ hown) _ ?_
        by_contra hmask
        exact hirq ⟨hnonneg, hown, by simpa using hmask⟩
      · rw [Nvic.enableWord_write_of_ne hown hnvic]
    · simp [Nvic.isEnabled, hnonneg]

/-- The trigger register pends what it is told to, and that is all. -/
lemma flagsKept_nvicStir_iff
    (hwrite : (nvicStir : Peripheral D).write sys offset value = some (p', sys')) :
    (nvicStir : Peripheral D).FlagsKept p' sys sys' offset mask ↔
      (nvicStir : Peripheral D).Quiet sys offset value := by
  obtain ⟨nvic', hstir, heq⟩ := Option.map_eq_some_iff.mp hwrite
  cases heq
  have hpends : ∀ j, nvic'.isPending j = (sys.nvic.isPending j ||
      decide (offset = 0 ∧ j = (value &&& 0x1ff#32).toNat)) := by
    intro j
    unfold stirWrite at hstir
    split_ifs at hstir with hzero
    · simp [Nvic.isPending_setIntrPending hstir, hzero]
    · cases hstir
      rw [decide_eq_false fun h => hzero h.1, Bool.or_false]
  have henables : ∀ j, nvic'.isEnabled j = sys.nvic.isEnabled j := by
    intro j
    unfold stirWrite at hstir
    split_ifs at hstir
    · rw [Nvic.setIntrPending_frame hstir]
      rfl
    · cases hstir
      rfl
  constructor
  · intro h hzero
    have hpend := h.pending (value &&& 0x1ff#32).toNat not_false
    rw [← hpend, hpends]
    simp [hzero]
  · intro h
    refine ⟨fun _ => AgreeOutside.refl _ _, fun irq _ => ?_, fun irq _ => henables irq,
      fun _ _ => rfl⟩
    rw [hpends]
    by_cases hnamed : offset = 0 ∧ irq = (value &&& 0x1ff#32).toNat
    · rw [hnamed.2, h hnamed.1, Bool.true_or]
    · rw [decide_eq_false hnamed, Bool.or_false]

/-- Away from the control register, of which a read moves a flag, the timer keeps its flags. -/
lemma flagsKept_sysTick {state : SysTick} (hctl : offset ≠ 0x0000)
    (hwrite : (sysTick state : Peripheral D).write sys offset value = some (p', sys'))
    (hword : AgreeOutside mask (p'.word sys' offset)
      ((sysTick state : Peripheral D).word sys offset)) :
    (sysTick state : Peripheral D).FlagsKept p' sys sys' offset mask := by
  cases hwrite
  have hnvic : ∀ n : Nvic, (state.write n offset value).2 =
      { n with systickPeriod := (state.write n offset value).2.systickPeriod } := by
    intro n
    unfold SysTick.write
    split_ifs <;> rfl
  have hown : AgreeOutside mask
      ((sysTick (state.write sys.nvic offset value).1 : Peripheral D).flags
        { sys with nvic := (state.write sys.nvic offset value).2 } offset)
      ((sysTick state : Peripheral D).flags sys offset) := by
    rw [flags, flags, if_neg hctl, if_neg hctl]
    exact hword
  refine (flagsKept_iff_of_own hown (by simp [names]) (fun irq => ?_) (fun irq => ?_)
    fun _ => rfl).mpr fun o ho => ?_
  · dsimp only
    rw [hnvic]
    rfl
  · dsimp only
    rw [hnvic]
    rfl
  · by_cases hcontrol : o = 0x0000
    · subst hcontrol
      exact state.read_control_write _ ho.symm _
    · rw [flags, flags, if_neg hcontrol, if_neg hcontrol]
      exact state.word_write_of_ne _ ho _

/-- A bit of `ICSR` that stays outside the lanes tells that its exception is not pended anew. -/
lemma flagsKept_scb {state : Scb}
    (hwrite : (scb state : Peripheral D).write sys offset value = some (p', sys'))
    (hword : AgreeOutside mask (p'.word sys' offset)
      ((scb state : Peripheral D).word sys offset)) :
    (scb state : Peripheral D).FlagsKept p' sys sys' offset mask := by
  obtain ⟨⟨scb', nvic'⟩, hscb, heq⟩ := Option.map_eq_some_iff.mp hwrite
  cases heq
  refine ⟨fun o => ?_, fun irq hirq => ?_, fun irq _ => Scb.isEnabled_write hscb irq,
    fun _ _ => rfl⟩
  · by_cases ho : o = offset
    · subst ho
      simp only [lanesAt, names, decide_true, Bool.true_or, if_true]
      exact hword
    · simp only [flags, Peripheral.word, Scb.word_write_of_ne ho hscb]
      exact AgreeOutside.refl _ _
  · rw [Bool.eq_iff_iff, Scb.isPending_write_iff hscb]
    refine or_iff_left_of_imp ?_
    rintro ⟨rfl, hset⟩
    have hbits : ∀ k < 32, mask.getLsbD k = false →
        (scb'.word nvic' 0x0004#32).getLsbD k = (state.word sys.nvic 0x0004#32).getLsbD k :=
      fun k _ hk => agreeOutside_iff.mp hword k hk
    rcases hset with ⟨rfl, hset⟩ | ⟨rfl, hset⟩
    · have hclear : mask.getLsbD 26 = false := by
        by_contra hlane
        exact hirq ⟨rfl, Or.inl ⟨rfl, by simpa using hlane⟩⟩
      have hbit := hbits 26 (by omega) hclear
      rw [Scb.getLsbD_word _ _ (by omega), Scb.getLsbD_word _ _ (by omega), if_pos rfl,
        if_pos rfl] at hbit
      rw [← hbit, Scb.isPending_write_iff hscb]
      exact Or.inr ⟨rfl, Or.inl ⟨rfl, hset⟩⟩
    · have hclear : mask.getLsbD 28 = false := by
        by_contra hlane
        exact hirq ⟨rfl, Or.inr ⟨rfl, by simpa using hlane⟩⟩
      have hbit := hbits 28 (by omega) hclear
      rw [Scb.getLsbD_word _ _ (by omega), Scb.getLsbD_word _ _ (by omega), if_neg (by omega),
        if_pos rfl, if_neg (by omega), if_pos rfl] at hbit
      rw [← hbit, Scb.isPending_write_iff hscb]
      exact Or.inr ⟨rfl, Or.inr ⟨rfl, hset⟩⟩

/-- The flags of the controller do not reach beyond its registers. -/
lemma flagsKept_otgFs_iff {state : OtgFs D}
    (hread : (otgFs state : Peripheral D).read sys offset = some (otgFs state, sys, v))
    (hwrite : (otgFs state : Peripheral D).write sys offset (mergeLanes v value mask)
      = some (p', sys'))
    (hword : AgreeOutside mask (p'.word sys' offset)
      ((otgFs state : Peripheral D).word sys offset)) :
    (otgFs state : Peripheral D).FlagsKept p' sys sys' offset mask ↔
      (otgFs state : Peripheral D).Quiet sys offset (mergeLanes v value mask) := by
  obtain ⟨⟨otg, v'⟩, hotg, heq⟩ := Option.map_eq_some_iff.mp hread
  cases heq
  obtain ⟨⟨otg', d'⟩, hotg', heq⟩ := Option.map_eq_some_iff.mp hwrite
  cases heq
  have hwithin := (OtgFs.agreeOutside_registerWrite_iff hotg hotg').mp hword
  rw [Quiet, ← OtgFs.flags_registerWrite_iff hotg hotg' hwithin]
  have hlanes : ∀ o, (otgFs state).lanesAt offset mask o = if o = offset then mask else 0#32 := by
    simp [lanesAt, names]
  constructor
  · intro h o
    rw [← hlanes]
    exact h.registers o
  · intro h
    refine ⟨fun o => ?_, fun _ _ => rfl, fun _ _ => rfl, fun _ _ => rfl⟩
    rw [hlanes]
    exact h o

/-- A short write never gives the second key, so that what a write of the control register starts
is all that can raise a flag. -/
lemma flagsKept_flash_iff {state : Flash D} (hshort : ∃ k < 4, mask.getLsbD (8 * k) = false)
    (hwrite : (flash state : Peripheral D).write sys offset
      (mergeLanes (state.read offset) value mask) = some (p', sys'))
    (hword : AgreeOutside mask (p'.word sys' offset)
      ((flash state : Peripheral D).word sys offset)) :
    (flash state : Peripheral D).FlagsKept p' sys sys' offset mask ↔
      (flash state : Peripheral D).Quiet sys offset
        (mergeLanes (state.read offset) value mask) := by
  obtain ⟨⟨flash', uc', d'⟩, hflash, heq⟩ := Option.map_eq_some_iff.mp hwrite
  cases heq
  have hkey : offset = 0x04 → mergeLanes (state.read offset) value mask ≠ Flash.key2 := by
    rintro rfl hsecond
    obtain ⟨k, hk, hclear⟩ := hshort
    have hbit : ∀ k < 4, Flash.key2.getLsbD (8 * k) = true := by decide
    have hmerged := hbit k hk
    rw [← hsecond, getLsbD_mergeLanes_of_not hclear] at hmerged
    have hzero : state.read 0x04 = 0#32 := rfl
    rw [hzero, BitVec.getLsbD_zero] at hmerged
    cases hmerged
  refine (flagsKept_iff_of_word hword rfl rfl (by simp [names]) rfl fun _ => rfl).trans ?_
  exact Flash.read_write_iff hkey hflash

/-- The registers that clear the flags of the streams name these flags. -/
lemma flagsKept_dma {state : Dma}
    (hwrite : (dma state : Peripheral D).write sys offset value = some (p', sys'))
    (hword : AgreeOutside mask (p'.word sys' offset)
      ((dma state : Peripheral D).word sys offset)) :
    (dma state : Peripheral D).FlagsKept p' sys sys' offset mask := by
  obtain ⟨dma', hdma', heq⟩ := Option.map_eq_some_iff.mp hwrite
  cases heq
  refine ⟨fun o => ?_, fun _ _ => rfl, fun _ _ => rfl, fun _ _ => rfl⟩
  by_cases ho : o = offset
  · subst ho
    simp only [lanesAt, names, decide_true, Bool.true_or, if_true]
    exact hword
  by_cases hlow : offset = 0x08 ∧ o = 0x00
  · obtain ⟨rfl, rfl⟩ := hlow
    exact hword
  by_cases hhigh : offset = 0x0c ∧ o = 0x04
  · obtain ⟨rfl, rfl⟩ := hhigh
    exact hword
  · simp only [flags, Peripheral.word, Dma.word_write_of_ne ho hlow hhigh hdma']
    exact AgreeOutside.refl _ _

/-- Away from the status register, of which a read moves the flags, the bus keeps its flags. -/
lemma flagsKept_spi {state : Spi D} (hstatus : offset ≠ 0x0008)
    (hwrite : (spi state : Peripheral D).write sys offset value = some (p', sys'))
    (hword : AgreeOutside mask (p'.word sys' offset)
      ((spi state : Peripheral D).word sys offset)) :
    (spi state : Peripheral D).FlagsKept p' sys sys' offset mask := by
  cases hwrite
  have hown : AgreeOutside mask
      ((spi (state.write sys.d offset value).1 : Peripheral D).flags
        { sys with d := (state.write sys.d offset value).2 } offset)
      ((spi state : Peripheral D).flags sys offset) := by
    rw [flags, flags, if_neg hstatus, if_neg hstatus]
    exact hword
  refine (flagsKept_iff_of_own hown (by simp [names]) (fun _ => rfl) (fun _ => rfl)
    fun _ => rfl).mpr fun o ho => ?_
  by_cases hready : o = 0x0008
  · subst hready
    exact state.read_status_write _ _ _
  · rw [flags, flags, if_neg hready, if_neg hready]
    exact state.word_write_of_ne _ ho _

lemma flagsKept_exti (hwrite : (exti : Peripheral D).write sys offset value = some (p', sys'))
    (hword : AgreeOutside mask (p'.word sys' offset) ((exti : Peripheral D).word sys offset)) :
    (exti : Peripheral D).FlagsKept p' sys sys' offset mask := by
  cases hwrite
  refine ⟨fun o => ?_, fun _ _ => rfl, fun _ _ => rfl, fun h => absurd rfl h⟩
  by_cases ho : o = offset
  · subst ho
    simp only [lanesAt, names, decide_true, Bool.true_or, if_true]
    exact hword
  · simp only [flags, Peripheral.word, Exti.readExti_write_of_ne _ ho]
    exact AgreeOutside.refl _ _

/-- **A write that keeps the bits of its own word** outside the lanes keeps all other flags exactly
if it is quiet. -/
lemma flagsKept_iff {p : Peripheral D} (hshort : ∃ k < 4, mask.getLsbD (8 * k) = false)
    (hread : p.read sys offset = some (p, sys, v))
    (hwrite : p.write sys offset (mergeLanes v value mask) = some (p', sys'))
    (hword : AgreeOutside mask (p'.word sys' offset) (p.word sys offset)) :
    p.FlagsKept p' sys sys' offset mask ↔ p.Quiet sys offset (mergeLanes v value mask) := by
  cases p with
  | nvic baseOffset => exact iff_of_true (flagsKept_nvic hwrite hword) trivial
  | nvicStir => exact flagsKept_nvicStir_iff hwrite
  | sysTick state =>
    have hsafe := (Peripheral.read_eq_self_iff hread).mp ⟨rfl, rfl⟩
    exact iff_of_true (flagsKept_sysTick hsafe.1 hwrite hword) trivial
  | dwt state =>
    cases hwrite
    exact (flagsKept_iff_of_word hword rfl rfl (by simp [names]) rfl fun _ => rfl).trans
      (iff_of_true (fun o ho => state.read_write_of_ne _ ho _) trivial)
  | scb state => exact iff_of_true (flagsKept_scb hwrite hword) trivial
  | gpio state =>
    cases hwrite
    exact iff_of_true ⟨fun _ => AgreeOutside.refl _ _, fun _ _ => rfl, fun _ _ => rfl,
      fun _ _ => rfl⟩ trivial
  | usart state =>
    cases hwrite
    exact (flagsKept_iff_of_word hword rfl rfl (by simp [names]) rfl fun _ => rfl).trans
      (iff_of_true (fun o ho => rfl) trivial)
  | fsmc state =>
    obtain ⟨d', -, heq⟩ := Option.map_eq_some_iff.mp hwrite
    cases heq
    exact (flagsKept_iff_of_word hword rfl rfl (by simp [names]) rfl fun _ => rfl).trans
      (iff_of_true (fun o ho => rfl) trivial)
  | rcc state =>
    cases hwrite
    exact (flagsKept_iff_of_word hword rfl rfl (by simp [names]) rfl fun _ => rfl).trans
      (iff_of_true (fun o ho => state.read_write_of_ne ho _) trivial)
  | pwr state =>
    cases hwrite
    exact (flagsKept_iff_of_word hword rfl rfl (by simp [names]) rfl fun _ => rfl).trans
      (state.read_write_iff _)
  | otgFs state => exact flagsKept_otgFs_iff hread hwrite hword
  | rtc state =>
    cases hwrite
    exact (flagsKept_iff_of_word hword rfl rfl (by simp [names]) rfl fun _ => rfl).trans
      (iff_of_true (fun o ho => state.read_write_of_ne ho _) trivial)
  | flash state =>
    cases hread
    exact flagsKept_flash_iff hshort hwrite hword
  | tim11 state =>
    cases hwrite
    exact (flagsKept_iff_of_word hword rfl rfl (by simp [names]) rfl fun _ => rfl).trans
      (state.read_write_iff _)
  | tim5 state =>
    cases hwrite
    exact (flagsKept_iff_of_word hword rfl rfl (by simp [names]) rfl fun _ => rfl).trans
      (iff_of_true (fun o ho => state.read_write_of_ne _ ho _) trivial)
  | tim6 state =>
    cases hwrite
    exact (flagsKept_iff_of_word hword rfl rfl (by simp [names]) rfl fun _ => rfl).trans
      (iff_of_true (fun o ho => state.word_write_of_ne _ ho _) trivial)
  | can state =>
    cases hwrite
    exact (flagsKept_iff_of_word hword rfl rfl (by simp [names]) rfl fun _ => rfl).trans
      (state.read_write_iff _)
  | i2c state =>
    cases hwrite
    exact iff_of_true ⟨fun _ => AgreeOutside.refl _ _, fun _ _ => rfl, fun _ _ => rfl,
      fun _ _ => rfl⟩ trivial
  | dma state => exact iff_of_true (flagsKept_dma hwrite hword) trivial
  | spi state =>
    have hstatus := (Peripheral.read_eq_self_iff hread).mp ⟨rfl, rfl⟩
    exact iff_of_true (flagsKept_spi hstatus hwrite hword) trivial
  | adc state =>
    cases hwrite
    exact (flagsKept_iff_of_word hword rfl rfl (by simp [names]) rfl fun _ => rfl).trans
      (iff_of_true (fun o ho => state.register_write_of_ne ho _) trivial)
  | exti => exact iff_of_true (flagsKept_exti hwrite hword) trivial
  | syscfg =>
    cases hwrite
    have hlines : ∀ o, (sys.exti.writeSyscfg offset (mergeLanes v value mask)).readExti o =
        sys.exti.readExti o := fun o => congrFun (Exti.readExti_writeSyscfg _ _ _) o
    exact (flagsKept_iff_of_word hword rfl rfl (by simp [names]) rfl hlines).trans
      (iff_of_true (fun o ho => Exti.readSyscfg_write_of_ne _ ho _) trivial)

end Quiet

end Peripheral

end Stm32Emulator
