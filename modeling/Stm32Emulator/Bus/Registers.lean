import Stm32Emulator.Bus.Peripheral
import Mathlib.Logic.Function.Basic

/-!
# The words that registers hold

`Peripheral.word` is the word that a register holds.  For most registers it is the word that a read
gives.  Registers that read as more than they hold, and windows on data, which hold no word at all,
have a definition of their own.

A *plain* register only stores: a read gives its word and does nothing else, and a write replaces
its word and the word of no other register.
-/

namespace Stm32Emulator

open Function

variable {U D : Type}

/-! ## Words -/

/-- The control register reads with a flag that comes and goes, and the value register as a
counter. -/
def SysTick.word (stk : SysTick) (offset : U32) : U32 :=
  if offset = 0x0000 then stk.ctl else if offset = 0x0004 then stk.reload else 0

/-- `ICSR` holds the pending bits that can be set through it. -/
def Scb.word (scb : Scb) (nvic : Nvic) (offset : U32) : U32 :=
  if offset = 0x0004#32 then
    (if nvic.isPending Irq.systick then 1#32 <<< 26 else 0#32) |||
      if nvic.isPending Irq.pendsv then 1#32 <<< 28 else 0#32
  else scb.read nvic offset

/-- The data register holds nothing. -/
def Usart.word (offset : U32) : U32 := if offset = 0x0000 then srValue else 0

/-- The levels in the interrupt status are not held, and neither are the windows on the FIFOs. -/
def OtgFs.word (otg : OtgFs D) (offset : U32) : U32 :=
  if (fifoEndpoint offset).isSome ∨ offset = grxstsp then 0
  else if offset = gintsts then otg.globalInterruptStatus
  else ((otg.registerRead offset).map fun r => r.2).getD 0

/-- The counter holds nothing. -/
def Tim6.word (tim : Tim6) (now : ℕ) (offset : U32) : U32 :=
  if offset = 0x24 then 0 else tim.read now offset

/-- The flags stand at the registers that report them and at those that clear them. -/
def Dma.word (dma : Dma) (offset : U32) : U32 :=
  match DmaAccess.fromOffset offset with
  | .reg offset =>
    if offset = 0x00 ∨ offset = 0x08 then dma.lisr
    else if offset = 0x04 ∨ offset = 0x0c then dma.hisr
    else 0
  | .streamReg i offset => if h : i < 8 then (dma.streams ⟨i, h⟩).register offset else 0

/-- The ready flags come and go, and the data register holds nothing. -/
def Spi.word (spi : Spi D) (offset : U32) : U32 := if offset = 0x0000 then spi.cr1 else 0

namespace Peripheral

/-- The word that a register holds. -/
def word (p : Peripheral D) (sys : System U D) (offset : U32) : U32 :=
  match p with
  | .nvic baseOffset => (sys.nvic.read (offset + baseOffset)).getD 0
  | .nvicStir => 0
  | .sysTick state => state.word offset
  | .dwt state => state.read sys.numInstructions offset
  | .scb state => state.word sys.nvic offset
  | .gpio state => state.register offset
  | .usart _ => Usart.word offset
  | .fsmc _ => 0
  | .rcc state => state.read offset
  | .pwr state => state.read offset
  | .otgFs state => state.word offset
  | .rtc state => state.read offset
  | .flash state => state.read offset
  | .tim11 state => state.read offset
  | .tim5 state => state.read sys.numInstructions offset
  | .tim6 state => state.word sys.numInstructions offset
  | .can state => state.read offset
  | .i2c _ => 0
  | .dma state => state.word offset
  | .spi state => state.word offset
  | .adc state => state.register offset
  | .exti => sys.exti.readExti offset
  | .syscfg => sys.exti.readSyscfg offset

/-- The words depend on the interrupt controller, the external interrupt lines and the time
alone. -/
lemma word_congr (p : Peripheral D) {sys sys' : System U D} (hnvic : sys'.nvic = sys.nvic)
    (hexti : sys'.exti = sys.exti) (htime : sys'.numInstructions = sys.numInstructions)
    (offset : U32) :
    p.word sys' offset = p.word sys offset := by
  unfold word
  rw [hnvic, hexti, htime]

end Peripheral

/-! ## Registers that store

A write of one of these registers replaces its word and no other word of the peripheral. -/

def Gpio.storing : List U32 := [0x00, 0x04, 0x08, 0x0c, 0x14, 0x1c, 0x20, 0x24]

lemma Gpio.register_write {gpio : Gpio} {offset : U32} (h : offset ∈ storing) (ports : GpioPorts D)
    (d : D) (value : U32) :
    (gpio.write ports d offset value).1.register = update gpio.register offset value := by
  simp only [storing, List.mem_cons, List.not_mem_nil, or_false] at h
  refine eq_update_iff.mpr ⟨?_, fun o ho => ?_⟩
  · rcases h with rfl | rfl | rfl | rfl | rfl | rfl | rfl | rfl <;> rfl
  · rcases h with rfl | rfl | rfl | rfl | rfl | rfl | rfl | rfl <;>
      simp only [write, writeOd, register, ho, if_false] <;> rfl

def Adc.storing : List U32 := [0x00, 0x04, 0x08, 0x0c, 0x10, 0x2c, 0x30, 0x34]

lemma Adc.register_registerWrite {adc : Adc D} {offset : U32} (h : offset ∈ storing) (value : U32) :
    (adc.registerWrite offset value).register = update adc.register offset value := by
  simp only [storing, List.mem_cons, List.not_mem_nil, or_false] at h
  refine eq_update_iff.mpr ⟨?_, fun o ho => ?_⟩
  · rcases h with rfl | rfl | rfl | rfl | rfl | rfl | rfl | rfl <;> rfl
  · rcases h with rfl | rfl | rfl | rfl | rfl | rfl | rfl | rfl <;>
      simp only [registerWrite, register, ho, if_false] <;> rfl

/-- All but the pending register, of which a write clears bits. -/
def Exti.storing : List U32 := [0x00, 0x04, 0x08, 0x0c, 0x10]

lemma Exti.readExti_writeExti {exti : Exti} {offset : U32} (h : offset ∈ storing) (value : U32) :
    (exti.writeExti offset value).readExti = update exti.readExti offset value := by
  simp only [storing, List.mem_cons, List.not_mem_nil, or_false] at h
  refine eq_update_iff.mpr ⟨?_, fun o ho => ?_⟩
  · rcases h with rfl | rfl | rfl | rfl | rfl <;> rfl
  · rcases h with rfl | rfl | rfl | rfl | rfl <;>
      simp only [writeExti, readExti, ho, if_false] <;> rfl

def Exti.storingSyscfg : List U32 := [0x08, 0x0c, 0x10, 0x14]

lemma Exti.readSyscfg_writeSyscfg {exti : Exti} {offset : U32} (h : offset ∈ storingSyscfg)
    (value : U32) :
    (exti.writeSyscfg offset value).readSyscfg = update exti.readSyscfg offset value := by
  simp only [storingSyscfg, List.mem_cons, List.not_mem_nil, or_false] at h
  refine eq_update_iff.mpr ⟨?_, fun o ho => ?_⟩
  · rcases h with rfl | rfl | rfl | rfl <;> rfl
  · rcases h with rfl | rfl | rfl | rfl <;>
      simp only [writeSyscfg, readSyscfg, ho, if_false] <;> rfl

lemma Exti.readSyscfg_writeExti (exti : Exti) (offset value : U32) :
    (exti.writeExti offset value).readSyscfg = exti.readSyscfg := by
  unfold writeExti
  split_ifs <;> rfl

lemma Exti.readExti_writeSyscfg (exti : Exti) (offset value : U32) :
    (exti.writeSyscfg offset value).readExti = exti.readExti := by
  unfold writeSyscfg
  split_ifs <;> rfl

/-- All but the status register, of which a write clears bits. -/
def Tim5.storing : List U32 := [0x00, 0x0c, 0x24, 0x34]

lemma Tim5.writeCr1_frame (tim : Tim5) (n : ℕ) (value : U32) :
    ∃ cntOffset heldCnt, tim.writeCr1 n value =
      { tim with cr1 := value, cntOffset := cntOffset, heldCnt := heldCnt } := by
  unfold writeCr1
  dsimp only
  split_ifs <;> exact ⟨_, _, rfl⟩

lemma Tim5.writeCnt_frame (tim : Tim5) (n : ℕ) (value : U32) :
    ∃ cntOffset heldCnt, tim.writeCnt n value =
      { tim with cntOffset := cntOffset, heldCnt := heldCnt } := by
  unfold writeCnt
  split_ifs <;> exact ⟨_, _, rfl⟩

lemma Tim5.read_write {tim : Tim5} {offset : U32} (h : offset ∈ storing) (n : ℕ)
    (value : U32) :
    (tim.write n offset value).read n = update (tim.read n) offset value := by
  funext o
  simp only [storing, List.mem_cons, List.not_mem_nil, or_false] at h
  rw [update_apply]
  rcases h with rfl | rfl | rfl | rfl
  · have hcnt := tim.cnt_writeCr1 n value
    obtain ⟨c, k, hframe⟩ := tim.writeCr1_frame n value
    by_cases ho : o = 0x00
    · subst ho
      simp [write, read, hframe]
    · rw [if_neg ho]
      simp only [write, read, ho, if_false, if_true, hcnt]
      rw [hframe]
  · by_cases ho : o = 0x0c
    · subst ho
      rfl
    · rw [if_neg ho]
      simp only [write, read, ho, if_false]
      rfl
  · have hcnt := tim.cnt_writeCnt n value
    obtain ⟨c, k, hframe⟩ := tim.writeCnt_frame n value
    by_cases ho : o = 0x24
    · subst ho
      exact hcnt
    · rw [if_neg ho]
      have hwrite : tim.write n 0x24 value = tim.writeCnt n value := rfl
      simp only [read, ho, if_false, hwrite]
      rw [hframe]
  · by_cases ho : o = 0x34
    · subst ho
      rfl
    · rw [if_neg ho]
      simp only [write, read, ho, if_false]
      rfl

/-- The registers of the timer that keep all bits written. -/
def Tim6.storing : List U32 := [0x00, 0x04, 0x0c, 0x2c]

lemma Tim6.writeCr1_frame (tim : Tim6) (now : ℕ) (value : U32) :
    ∃ enabledAt, tim.writeCr1 now value = { tim with cr1 := value, enabledAt := enabledAt } := by
  unfold writeCr1
  dsimp only
  split_ifs <;> exact ⟨_, rfl⟩

lemma Tim6.word_write {tim : Tim6} {offset : U32} (h : offset ∈ storing) (now : ℕ) (value : U32) :
    (tim.write now offset value).word now = update (tim.word now) offset value := by
  funext o
  simp only [storing, List.mem_cons, List.not_mem_nil, or_false] at h
  rw [update_apply]
  obtain ⟨enabledAt, hcr1⟩ := tim.writeCr1_frame now value
  by_cases hcnt : o = 0x24
  · subst hcnt
    rcases h with rfl | rfl | rfl | rfl <;> rfl
  by_cases ho : o = offset
  · subst ho
    rcases h with rfl | rfl | rfl | rfl <;> first | rfl | simp [word, write, read, hcr1]
  · rw [if_neg ho]
    rcases h with rfl | rfl | rfl | rfl <;>
      simp only [word, write, read, ho, hcnt, if_false, if_true, hcr1] <;> rfl

/-- The address registers and the FIFO control register of a stream. -/
def DmaStream.storing : List ℕ := [0x08, 0x0c, 0x10, 0x14]

lemma DmaStream.register_write {stream : DmaStream} {offset : ℕ} (h : offset ∈ storing)
    (value : U32) :
    (stream.write offset value).1.register = update stream.register offset value := by
  funext o
  simp only [storing, List.mem_cons, List.not_mem_nil, or_false] at h
  rw [update_apply]
  by_cases ho : o = offset
  · subst ho
    rcases h with rfl | rfl | rfl | rfl <;> rfl
  · rw [if_neg ho]
    rcases h with rfl | rfl | rfl | rfl <;> simp only [write, register, ho, if_false] <;> rfl

/-- An offset is determined by what it addresses. -/
lemma DmaAccess.fromOffset_injective {offset offset' : U32}
    (h : fromOffset offset = fromOffset offset') :
    offset = offset' := by
  unfold fromOffset at h
  apply BitVec.eq_of_toNat_eq
  split_ifs at h with h₁ h₂ h₂
  · cases h
    rfl
  · simp only [DmaAccess.streamReg.injEq] at h
    omega

/-- A register of a stream, past those of the controller. -/
def Dma.storing (offset : U32) : Bool :=
  match DmaAccess.fromOffset offset with
  | .reg _ => false
  | .streamReg i offset => i < 8 ∧ offset ∈ DmaStream.storing

lemma Dma.read_of_storing {dma : Dma} {offset : U32} (h : storing offset) :
    dma.read offset = some (dma, dma.word offset) := by
  unfold storing at h
  unfold read word
  cases haccess : DmaAccess.fromOffset offset with
  | reg _ => simp [haccess] at h
  | streamReg i reg =>
    simp only [haccess, decide_eq_true_eq] at h
    obtain ⟨hi, hreg⟩ := h
    have hcr : reg ≠ 0 := by
      rintro rfl
      simp [DmaStream.storing] at hreg
    simp only [hi, dif_pos, DmaStream.read, if_neg hcr, update_eq_self]

lemma Dma.word_write {dma : Dma} {offset : U32} (h : storing offset) (value : U32) :
    ∃ dma', dma.write offset value = some dma' ∧ dma'.word = update dma.word offset value := by
  unfold storing at h
  cases haccess : DmaAccess.fromOffset offset with
  | reg _ => simp [haccess] at h
  | streamReg i reg =>
    simp only [haccess, decide_eq_true_eq] at h
    obtain ⟨hi, hreg⟩ := h
    have hstream := @DmaStream.register_write (dma.streams ⟨i, hi⟩) _ hreg value
    have harmed : ((dma.streams ⟨i, hi⟩).write reg value).2 = false := by
      simp only [DmaStream.storing, List.mem_cons, List.not_mem_nil, or_false] at hreg
      rcases hreg with rfl | rfl | rfl | rfl <;> rfl
    refine ⟨{ dma with
      streams := update dma.streams ⟨i, hi⟩ ((dma.streams ⟨i, hi⟩).write reg value).1 }, ?_, ?_⟩
    · simp only [write, haccess, hi, dif_pos, harmed, Bool.false_eq_true, if_false]
    funext o
    rw [update_apply]
    by_cases ho : o = offset
    · subst ho
      simp only [word, haccess, hi, dif_pos, update_self, hstream, if_true]
    rw [if_neg ho]
    unfold word
    cases hother : DmaAccess.fromOffset o with
    | reg _ => rfl
    | streamReg j reg' =>
      dsimp only
      by_cases hj : j < 8
      · rw [dif_pos hj, dif_pos hj]
        by_cases hij : j = i
        · subst hij
          have hne : reg' ≠ reg := by
            rintro rfl
            exact ho (DmaAccess.fromOffset_injective (hother.trans haccess.symm))
          rw [update_self, hstream, update_of_ne hne]
        · rw [update_of_ne (by simpa using hij)]
      · rw [dif_neg hj, dif_neg hj]

/-! ## Plain registers -/

namespace Peripheral

/-- The plain registers of each kind. -/
def plain (p : Peripheral D) (offset : U32) : Bool :=
  match p with
  | .dwt _ => offset = 0x00
  | .scb _ => offset = 0x88
  | .gpio _ => offset ∈ Gpio.storing
  | .flash _ => offset = 0x00
  | .tim5 _ => offset ∈ Tim5.storing ∧ offset ≠ 0x24
  | .tim6 _ => offset ∈ Tim6.storing
  | .dma _ => Dma.storing offset
  | .spi _ => offset = 0x00
  | .adc _ => offset ∈ Adc.storing
  | .exti => offset ∈ Exti.storing
  | .syscfg => offset ∈ Exti.storingSyscfg
  | _ => false

/-- Two windows on the same registers. -/
def SharesState (p q : Peripheral D) : Prop :=
  p = .exti ∧ q = .exti ∨ p = .syscfg ∧ q = .syscfg

lemma SharesState.comm {p q : Peripheral D} : p.SharesState q ↔ q.SharesState p := by
  unfold SharesState
  tauto

/-- A plain register reads as the word that it holds. -/
lemma read_of_plain {p : Peripheral D} {offset : U32} (h : p.plain offset) (sys : System U D) :
    p.read sys offset = some (p, sys, p.word sys offset) := by
  cases p with
  | dwt state => rfl
  | scb state =>
    obtain rfl : offset = 0x88 := by simpa [plain] using h
    rfl
  | gpio state =>
    have hidr : offset ≠ 0x10 := by
      rintro rfl
      simp [plain, Gpio.storing] at h
    simp only [read, word, Gpio.read, if_neg hidr]
  | flash state => rfl
  | tim5 state => rfl
  | tim6 state =>
    have hcnt : offset ≠ 0x24 := by
      rintro rfl
      simp [plain, Tim6.storing] at h
    simp only [read, word, Tim6.word, if_neg hcnt]
  | dma state => simp only [read, Dma.read_of_storing h, Option.map_some, word]
  | spi state =>
    obtain rfl : offset = 0x00 := by simpa [plain] using h
    rfl
  | adc state =>
    have hdr : offset ≠ 0x4c := by
      rintro rfl
      simp [plain, Adc.storing] at h
    simp only [read, word, Adc.registerRead, if_neg hdr]
  | exti => rfl
  | syscfg => rfl
  | _ => simp [plain] at h

/-- What a write of a plain register does. -/
structure PlainWrite (p : Peripheral D) (sys : System U D) (offset value : U32) (p' : Peripheral D)
    (sys' : System U D) : Prop where
  word : ∀ o, p'.word sys' o = if o = offset then value else p.word sys o
  plain : ∀ o, p'.plain o = p.plain o
  sharesState : ∀ q, p'.SharesState q ↔ p.SharesState q
  elsewhere : ∀ q : Peripheral D, ¬ p.SharesState q → ∀ o, q.word sys' o = q.word sys o

/-- A write that leaves the shared state alone is plain when the words of the peripheral say so. -/
lemma PlainWrite.of_word {p p' : Peripheral D} {sys sys' : System U D} {offset value : U32}
    (hword : p'.word sys' = update (p.word sys) offset value) (hplain : p'.plain = p.plain)
    (hshares : ∀ q, p'.SharesState q ↔ p.SharesState q) (hnvic : sys'.nvic = sys.nvic)
    (hexti : sys'.exti = sys.exti) (htime : sys'.numInstructions = sys.numInstructions) :
    PlainWrite p sys offset value p' sys' where
  word := by
    intro o
    rw [hword, update_apply]
  plain := congrFun hplain
  sharesState := hshares
  elsewhere := fun q _ o => q.word_congr hnvic hexti htime o

variable [UnicornEngine U]

lemma write_of_plain {p : Peripheral D} {offset : U32} (h : p.plain offset) (sys : System U D)
    (value : U32) :
    ∃ p' sys', p.write sys offset value = some (p', sys') ∧
      PlainWrite p sys offset value p' sys' := by
  cases p with
  | dwt state =>
    obtain rfl : offset = 0x00 := by simpa [plain] using h
    refine ⟨_, _, rfl, .of_word (eq_update_iff.mpr ⟨rfl, fun o ho => ?_⟩) rfl
      (by simp [SharesState]) rfl rfl rfl⟩
    simp only [word, Dwt.write, Dwt.read, ho, if_false, if_true]
    rfl
  | scb state =>
    obtain rfl : offset = 0x88 := by simpa [plain] using h
    refine ⟨_, _, rfl, .of_word (eq_update_iff.mpr ⟨rfl, fun o ho => ?_⟩) rfl
      (by simp [SharesState]) rfl rfl rfl⟩
    have hcpacr : o ≠ 0x88#32 := ho
    simp only [word, Scb.word, Scb.read, if_neg hcpacr]
  | gpio state =>
    have h' : offset ∈ Gpio.storing := by simpa [plain] using h
    exact ⟨_, _, rfl, .of_word (Gpio.register_write h' _ _ _) rfl
      (by simp [SharesState]) rfl rfl rfl⟩
  | flash state =>
    obtain rfl : offset = 0x00 := by simpa [plain] using h
    refine ⟨_, _, rfl, .of_word (eq_update_iff.mpr ⟨rfl, fun o ho => ?_⟩) rfl
      (by simp [SharesState]) rfl rfl rfl⟩
    simp only [word, Flash.read, ho, if_false]
  | tim5 state =>
    have h' : offset ∈ Tim5.storing ∧ offset ≠ 0x24 := by simpa [plain] using h
    exact ⟨_, _, rfl, .of_word (Tim5.read_write h'.1 _ _) rfl (by simp [SharesState]) rfl rfl rfl⟩
  | tim6 state =>
    have h' : offset ∈ Tim6.storing := by simpa [plain] using h
    exact ⟨_, _, rfl, .of_word (Tim6.word_write h' _ _) rfl (by simp [SharesState]) rfl rfl rfl⟩
  | dma state =>
    obtain ⟨dma', hwrite, hword⟩ := @Dma.word_write state _ h value
    refine ⟨.dma dma', sys, ?_, .of_word hword rfl (by simp [SharesState]) rfl rfl rfl⟩
    simp only [write, hwrite, Option.map_some]
  | spi state =>
    obtain rfl : offset = 0x00 := by simpa [plain] using h
    refine ⟨_, _, rfl, .of_word (eq_update_iff.mpr ⟨rfl, fun o ho => ?_⟩) rfl
      (by simp [SharesState]) rfl rfl rfl⟩
    simp only [word, Spi.word, if_neg ho]
  | adc state =>
    have h' : offset ∈ Adc.storing := by simpa [plain] using h
    exact ⟨_, _, rfl, .of_word (Adc.register_registerWrite h' _) rfl
      (by simp [SharesState]) rfl rfl rfl⟩
  | exti =>
    have h' : offset ∈ Exti.storing := by simpa [plain] using h
    refine ⟨_, _, rfl, ?_, fun _ => rfl, fun _ => Iff.rfl, ?_⟩
    · intro o
      simp only [word, Exti.readExti_writeExti h', update_apply]
    · intro q hq o
      cases q <;> first | rfl | exact absurd (Or.inl ⟨rfl, rfl⟩) hq | skip
      simp only [word, Exti.readSyscfg_writeExti]
  | syscfg =>
    have h' : offset ∈ Exti.storingSyscfg := by simpa [plain] using h
    refine ⟨_, _, rfl, ?_, fun _ => rfl, fun _ => Iff.rfl, ?_⟩
    · intro o
      simp only [word, Exti.readSyscfg_writeSyscfg h', update_apply]
    · intro q hq o
      cases q <;> first | rfl | exact absurd (Or.inr ⟨rfl, rfl⟩) hq | skip
      simp only [word, Exti.readExti_writeSyscfg]
  | _ => simp [plain] at h

end Peripheral

end Stm32Emulator
