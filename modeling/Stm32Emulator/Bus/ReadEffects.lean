import Stm32Emulator.Bus.Registers
import Stm32Emulator.Usb.Lanes

/-!
# What a read changes

Reads of some registers take a word out of a queue, move a stand-in on or reach the outside world.
`readSafe` says for each register when a read leaves everything as it is.
-/

namespace Stm32Emulator

open Function

variable {U D : Type}

/-- A read of the register leaves everything as it is. -/
def Peripheral.readSafe (p : Peripheral D) (sys : System U D) (offset : U32) : Prop :=
  match p with
  | .sysTick _ => offset ≠ 0x0000 ∧ offset ≠ 0x0008
  | .gpio state => offset = 0x0010 → (sys.gpio.readPort sys.d state.port).1 = sys.d
  | .usart state =>
    offset = 0x0004 → ∀ device, state.extDevice = some device → (device.read () sys.d).2 = sys.d
  | .fsmc state =>
    ∀ bank place device, Fsmc.access offset = some (.data bank place) →
      state.banks bank = some device →
      (device.read place sys.d).2 = sys.d
  | .otgFs state =>
    (OtgFs.fifoEndpoint offset = some 0 → state.rxFifo = []) ∧
      (offset = OtgFs.grxstsp → state.rxStatus = [])
  | .i2c _ => offset ≠ 0x0014 ∧ offset ≠ 0x0018
  | .dma state =>
    ∀ i : Fin 8, DmaAccess.fromOffset offset = .streamReg i 0 →
      (state.streams i).nextCr = none ∧
      ¬ ((state.streams i).dir = .write ∧ (state.streams i).dataSize = 0)
  | .spi _ => offset ≠ 0x0008
  | .adc state =>
    offset = 0x4c → (state.sequenceIndex + 1) % state.numChannels = state.sequenceIndex ∧
      state.sr ||| Adc.srEoc = state.sr
  | _ => True

/-- The stand-in for the running counter always advances. -/
lemma SysTick.read_eq_self_iff (stk : SysTick) (offset : U32) :
    (stk.read offset).1 = stk ↔ offset ≠ 0x0000 ∧ offset ≠ 0x0008 := by
  have htoggled : { stk with valToggle := !stk.valToggle } ≠ stk := by
    intro h
    exact Bool.not_ne_self _ (congrArg SysTick.valToggle h)
  by_cases hctl : offset = 0x0000
  · subst hctl
    exact iff_of_false htoggled fun h => h.1 rfl
  by_cases hval : offset = 0x0008
  · subst hval
    exact iff_of_false htoggled fun h => h.2 rfl
  · rw [read, if_neg hctl, if_neg hval]
    refine iff_of_true ?_ ⟨hctl, hval⟩
    split_ifs <;> rfl

/-- The ready flags always change. -/
lemma Spi.read_eq_self_iff (spi : Spi D) (offset : U32) :
    (spi.read offset).1 = spi ↔ offset ≠ 0x0008 := by
  by_cases hsr : offset = 0x0008
  · subst hsr
    refine iff_of_false ?_ fun h => h rfl
    intro h
    exact Bool.not_ne_self _ (congrArg Spi.readyToggle h)
  · rw [read, if_neg hsr]
    refine iff_of_true ?_ hsr
    split_ifs <;> rfl

/-- The status flags always move on. -/
lemma I2c.read_eq_self_iff (i2c : I2c) (offset : U32) :
    (i2c.read offset).1 = i2c ↔ offset ≠ 0x0014 ∧ offset ≠ 0x0018 := by
  have hadvanced : i2c.advance ≠ i2c := by
    intro h
    have hnever : ∀ toggle : U8, (toggle + 1) % 5 ≠ toggle := by decide
    exact hnever i2c.toggle (congrArg I2c.toggle h)
  by_cases hsr1 : offset = 0x0014
  · subst hsr1
    exact iff_of_false hadvanced fun h => h.1 rfl
  by_cases hsr2 : offset = 0x0018
  · subst hsr2
    exact iff_of_false hadvanced fun h => h.2 rfl
  · rw [read, if_neg hsr1, if_neg hsr2]
    exact iff_of_true rfl ⟨hsr1, hsr2⟩

lemma Gpio.read_eq_self_iff (gpio : Gpio) (ports : GpioPorts D) (d : D) (offset : U32) :
    (gpio.read ports d offset).1 = d ↔ (offset = 0x0010 → (ports.readPort d gpio.port).1 = d) := by
  by_cases hidr : offset = 0x0010
  · subst hidr
    exact ⟨fun h _ => h, fun h => h rfl⟩
  · rw [read, if_neg hidr]
    exact iff_of_true rfl fun h => absurd h hidr

lemma Usart.read_eq_self_iff (usart : Usart D) (d : D) (offset : U32) :
    (usart.read d offset).1 = d ↔
      (offset = 0x0004 → ∀ device, usart.extDevice = some device → (device.read () d).2 = d) := by
  by_cases hdr : offset = 0x0004
  · subst hdr
    unfold read
    rw [if_pos rfl]
    cases usart.extDevice with
    | none => exact iff_of_true rfl fun _ _ hdevice => absurd hdevice.symm (Option.some_ne_none _)
    | some device =>
      constructor
      · intro h _ other hother
        cases hother
        exact h
      · intro h
        exact h rfl device rfl
  · rw [read, if_neg hdr]
    refine iff_of_true ?_ fun h => absurd h hdr
    split_ifs <;> rfl

lemma Fsmc.read_eq_self_iff {fsmc : Fsmc D} {d d' : D} {offset v : U32}
    (h : fsmc.read d offset = some (d', v)) :
    d' = d ↔ ∀ bank place device, access offset = some (.data bank place) →
    fsmc.banks bank = some device →
      (device.read place d).2 = d := by
  unfold read at h
  cases haccess : access offset with
  | none =>
    rw [haccess] at h
    cases h
  | some reached =>
    rw [haccess] at h
    cases reached with
    | register =>
      cases h
      exact iff_of_true rfl nofun
    | data bank place =>
      dsimp only at h
      cases hbank : fsmc.banks bank with
      | none =>
        rw [hbank] at h
        cases h
        refine iff_of_true rfl fun bank' place' device hreached hdevice => ?_
        cases hreached
        cases hbank.symm.trans hdevice
      | some device =>
        rw [hbank] at h
        cases h
        constructor
        · intro h bank' place' device' hreached hdevice
          cases hreached
          cases hbank.symm.trans hdevice
          exact h
        · intro h
          exact h bank place device rfl hbank

/-- A read of a stream's control register takes an announced value, or announces one. -/
lemma DmaStream.readCr_eq_self_iff (stream : DmaStream) :
    stream.readCr.1 = stream ↔
      stream.nextCr = none ∧ ¬ (stream.dir = .write ∧ stream.dataSize = 0) := by
  cases hnext : stream.nextCr with
  | none =>
    unfold readCr
    rw [hnext]
    dsimp only
    split_ifs with hempty
    · refine iff_of_false ?_ fun h => h.2 hempty
      intro h
      cases (congrArg DmaStream.nextCr h).trans hnext
    · exact iff_of_true rfl ⟨rfl, hempty⟩
  | some cr =>
    refine iff_of_false ?_ (by simp)
    unfold readCr
    rw [hnext]
    dsimp only
    split_ifs with hempty
    · intro h
      have htoggled := Option.some.inj ((congrArg DmaStream.nextCr h).trans hnext)
      have hxor := congrArg (cr ^^^ ·) htoggled
      rw [← BitVec.xor_assoc, BitVec.xor_self, BitVec.zero_xor] at hxor
      cases hxor
    · intro h
      cases (congrArg DmaStream.nextCr h).trans hnext

lemma Dma.read_eq_self_iff {dma dma' : Dma} {offset v : U32}
    (h : dma.read offset = some (dma', v)) :
    dma' = dma ↔ ∀ i : Fin 8, DmaAccess.fromOffset offset = .streamReg i 0 →
      (dma.streams i).nextCr = none ∧
      ¬ ((dma.streams i).dir = .write ∧ (dma.streams i).dataSize = 0) := by
  unfold read at h
  cases haccess : DmaAccess.fromOffset offset with
  | reg reg =>
    rw [haccess] at h
    obtain ⟨rfl, -⟩ := Prod.mk.inj (Option.some.inj h)
    exact iff_of_true rfl nofun
  | streamReg i reg =>
    rw [haccess] at h
    dsimp only at h
    by_cases hi : i < 8
    · rw [dif_pos hi] at h
      obtain ⟨rfl, -⟩ := Prod.mk.inj (Option.some.inj h)
      have hstream : { dma with
          streams := update dma.streams ⟨i, hi⟩ ((dma.streams ⟨i, hi⟩).read reg).1 } = dma ↔
          ((dma.streams ⟨i, hi⟩).read reg).1 = dma.streams ⟨i, hi⟩ := by
        constructor
        · intro h
          exact (update_eq_self_iff.mp (congrArg Dma.streams h))
        · intro h
          rw [h, update_eq_self]
      rw [hstream, DmaStream.read]
      by_cases hcr : reg = 0x0000
      · subst hcr
        rw [if_pos rfl, DmaStream.readCr_eq_self_iff]
        constructor
        · intro h j hj
          obtain ⟨rfl, -⟩ := DmaAccess.streamReg.inj hj
          exact h
        · intro h
          exact h ⟨i, hi⟩ rfl
      · rw [if_neg hcr]
        refine iff_of_true rfl fun j hj => ?_
        exact absurd (DmaAccess.streamReg.inj hj).2 hcr
    · rw [dif_neg hi] at h
      cases h

lemma Adc.registerRead_eq_self_iff (adc : Adc D) (d : D) (offset : U32) :
    (adc.registerRead d offset).1 = adc ↔
      (offset = 0x4c → (adc.sequenceIndex + 1) % adc.numChannels = adc.sequenceIndex ∧
        adc.sr ||| srEoc = adc.sr) := by
  by_cases hdr : offset = 0x4c
  · subst hdr
    have hread : (adc.registerRead d 0x4c).1
        = { adc with
            sequenceIndex := (adc.sequenceIndex + 1) % adc.numChannels
            sr := adc.sr ||| srEoc } := rfl
    rw [hread]
    constructor
    · intro h _
      exact ⟨congrArg Adc.sequenceIndex h, congrArg Adc.sr h⟩
    · intro h
      obtain ⟨hindex, hsr⟩ := h rfl
      rw [hindex, hsr]
  · rw [registerRead, if_neg hdr]
    exact iff_of_true rfl fun h => absurd h hdr

/-- A read that reaches the outside world leaves everything as it is when it leaves that as it
is. -/
lemma System.with_d_eq_iff (sys : System U D) (d : D) : { sys with d := d } = sys ↔ d = sys.d := by
  constructor
  · intro h
    exact congrArg System.d h
  · rintro rfl
    rfl

/-- What a register read does beyond giving a word. -/
lemma Peripheral.read_eq_self_iff {p p' : Peripheral D} {sys sys' : System U D} {offset v : U32}
    (h : p.read sys offset = some (p', sys', v)) :
    (p' = p ∧ sys' = sys) ↔ p.readSafe sys offset := by
  cases p with
  | nvic baseOffset =>
    obtain ⟨v, -, heq⟩ := Option.map_eq_some_iff.mp h
    cases heq
    exact iff_of_true ⟨rfl, rfl⟩ trivial
  | sysTick state =>
    cases h
    simp only [readSafe, Peripheral.sysTick.injEq, and_true]
    exact SysTick.read_eq_self_iff _ _
  | gpio state =>
    cases h
    simp only [readSafe, true_and, System.with_d_eq_iff]
    exact Gpio.read_eq_self_iff _ _ _ _
  | usart state =>
    cases h
    simp only [readSafe, true_and, System.with_d_eq_iff]
    exact Usart.read_eq_self_iff _ _ _
  | fsmc state =>
    obtain ⟨r, hread, heq⟩ := Option.map_eq_some_iff.mp h
    cases heq
    simp only [readSafe, true_and, System.with_d_eq_iff]
    exact Fsmc.read_eq_self_iff hread
  | otgFs state =>
    obtain ⟨r, hread, heq⟩ := Option.map_eq_some_iff.mp h
    cases heq
    simp only [readSafe, Peripheral.otgFs.injEq, and_true]
    exact OtgFs.registerRead_eq_self_iff hread
  | i2c state =>
    cases h
    simp only [readSafe, Peripheral.i2c.injEq, and_true]
    exact I2c.read_eq_self_iff _ _
  | dma state =>
    obtain ⟨r, hread, heq⟩ := Option.map_eq_some_iff.mp h
    cases heq
    simp only [readSafe, Peripheral.dma.injEq, and_true]
    exact Dma.read_eq_self_iff hread
  | spi state =>
    cases h
    simp only [readSafe, Peripheral.spi.injEq, and_true]
    exact Spi.read_eq_self_iff _ _
  | adc state =>
    cases h
    simp only [readSafe, Peripheral.adc.injEq, and_true]
    exact Adc.registerRead_eq_self_iff _ _ _
  | _ =>
    cases h
    exact iff_of_true ⟨rfl, rfl⟩ trivial

end Stm32Emulator
