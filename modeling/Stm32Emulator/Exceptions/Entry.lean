import Stm32Emulator.Engine.RegisterFile
import Stm32Emulator.Exceptions.Frame
import Stm32Emulator.Peripherals.Nvic

/-!
# Exception entry and return

The part of the interrupt controller that drives the CPU: entering an exception, returning from it,
dispatching a pending interrupt, and the interrupt hook that the engine calls.  A panic of the
program (an unmapped stack or vector, an arithmetic overflow) is `none`.

Entry and return also give the `FrameAccess` of the frame they push or pop.  After the model come
the facts the later modules use: what entry does (`runInterrupt_spec`), when an attempt to dispatch
is blocked (`Blocked`), and what each attempt does (`runPendingInterrupts_eq`).
-/

namespace Stm32Emulator

variable {U : Type} [UnicornEngine U]

/-! ## The model -/

/-- The bits of `XPSR` that hold the state of an IT block. -/
def xpsrItstateMask : U32 := 0x0600fc00

/-- The value of `LR` on exception entry: bit 2 is the stack, bit 4 a basic frame. -/
def excReturn (spsel fpca : Bool) : U32 :=
  let lr : U32 := 0xFFFFFFE9
  let lr := if spsel then lr ||| 0b00000100#32 else lr
  if fpca then lr else lr ||| 0b00010000#32

/-- `LR` looks like an `EXC_RETURN` value. -/
def isExcReturn (lr : U32) : Bool := lr &&& 0xFFFFFF00#32 == 0xFFFFFF00#32

/-- The stack that an `EXC_RETURN` value names. -/
def excReturnSpsel (lr : U32) : Bool := lr &&& 0b00000100#32 != 0#32

/-- The frame shape that an `EXC_RETURN` value names. -/
def excReturnFpca (lr : U32) : Bool := lr &&& 0b00010000#32 == 0#32

/-- `CONTROL` as the return path writes it. -/
def controlOf (spsel fpca : Bool) : U32 :=
  (if spsel then 1#32 <<< 1 else 0#32) ||| (if fpca then 2#32 <<< 1 else 0#32)

/-- The vector of an exception. -/
def readVectorAddr (uc : U) (vectorTableAddr : U32) (irq : ℤ) : Option U32 :=
  let vaddr := vectorTableAddr.toNat + 4 * (irqOffset + irq).toNat
  if 0 ≤ irqOffset + irq ∧ vaddr < 2 ^ 32 then memReadU32 uc vaddr else none

def areInterruptsDisabled (uc : U) : Bool :=
  regRead uc .primask != 0#32 || regRead uc .basepri != 0#32

namespace Nvic

/-- Entering an exception: push the context, set up `LR`, `IPSR` and `PC`, and stop the engine. -/
def runInterrupt (nvic : Nvic) (uc : U) (vectorTableAddr : U32) (irq : ℤ) :
    Option (Nvic × U × FrameAccess) := do
  let vector ← readVectorAddr uc vectorTableAddr irq
  let spsel := controlSpsel (regRead uc .control)
  let fpca := controlFpca (regRead uc .control)
  let (uc, frame) ← pushRegs uc spsel fpca
  let uc := regWrite uc .xpsr (regRead uc .xpsr &&& ~~~xpsrItstateMask)
  let uc := regWrite uc .lr (excReturn spsel fpca)
  let uc := regWrite uc .ipsr (BitVec.ofInt 32 irq)
  let uc := regWrite uc .pc vector
  let uc := emuStop uc
  some ({ nvic with
    inInterrupt := true
    activeExceptionNumber := BitVec.ofInt 32 (irqOffset + irq) }, uc, frame)

/-- Entering `SVCall`, which does not go through the pending word. -/
def enterSvcall (nvic : Nvic) (uc : U) (vectorTableAddr : U32) : Option (Nvic × U × FrameAccess) :=
  nvic.runInterrupt uc vectorTableAddr Irq.svcall

/-- The frame popped on exception return.  Shape and stack are those that `LR` names if it looks
like an `EXC_RETURN` value, which also rewrites `CONTROL`; else those of the current `CONTROL`. -/
def popFrame (uc : U) : Option (U × FrameAccess) :=
  let lr := regRead uc .lr
  if isExcReturn lr then
    let spsel := excReturnSpsel lr
    let fpca := excReturnFpca lr
    (popRegs uc spsel fpca).map fun (uc, frame) =>
      (regWrite uc .control (controlOf spsel fpca), frame)
  else
    let spsel := controlSpsel (regRead uc .control)
    let fpca := controlFpca (regRead uc .control)
    popRegs uc spsel fpca

/-- Returning from an exception: pop a frame and stop the engine. -/
def returnFromInterrupt (nvic : Nvic) (uc : U) : Option (Nvic × U × FrameAccess) := do
  let (uc, frame) ← popFrame uc
  let uc := emuStop uc
  some ({ nvic with inInterrupt := false, activeExceptionNumber := 0#32 }, uc, frame)

/-- An attempt to dispatch a pending interrupt.  The last component is the interrupt dispatched. -/
def runPendingInterrupts (nvic : Nvic) (uc : U) (numInstructions : ℕ) (vectorTableAddr : U32) :
    Option (Nvic × U × Option ℤ) := do
  let nvic ← nvic.maybeSetSystickIntrPending numInstructions
  if nvic.pending = 0#128 ∨ nvic.inInterrupt = true then
    some (nvic, uc, none)
  else if areInterruptsDisabled uc then
    some (nvic, uc, none)
  else if regRead uc .xpsr &&& xpsrItstateMask ≠ 0#32 then
    some (nvic, uc, none)
  else
    match nvic.getAndClearNextDispatchable with
    | none => some (nvic, uc, none)
    | some (irq, nvic) => do
      let (nvic, uc, _) ← nvic.runInterrupt uc vectorTableAddr irq
      some (nvic, uc, some irq)

end Nvic

/-- A fetch address that can only be an `EXC_RETURN` value. -/
def isExceptionReturnPc (pc : U32) : Bool := pc &&& 0xFFFFFF00#32 == 0xFFFFFF00#32

/-- The interrupt hook.  Exception 8 is an exception return, 2 a supervisor call, and 3 a prefetch
abort, which at an `EXC_RETURN` address is an exception return too and elsewhere is only reported.
Any other exception ends the program. -/
def intrHook (nvic : Nvic) (uc : U) (numInstructions : ℕ) (vectorTableAddr : U32)
    (exception : ℕ) : Option (Nvic × U) :=
  let exceptionReturn := do
    let (nvic, uc, _) ← nvic.returnFromInterrupt uc
    let (nvic, uc, _) ← nvic.runPendingInterrupts uc numInstructions vectorTableAddr
    some (nvic, uc)
  match exception with
  | 8 => exceptionReturn
  | 2 => do
    let (nvic, uc, _) ← nvic.enterSvcall uc vectorTableAddr
    some (nvic, uc)
  | 3 => if isExceptionReturnPc (regRead uc .pc) then exceptionReturn else some (nvic, uc)
  | _ => none

/-! ## Entry -/

/-- What exception entry needs: a vector, and mapped memory for the frame below the stack
pointer. -/
structure EntryReady (uc : U) (vectorTableAddr : U32) (irq : ℤ) : Prop where
  /-- The vector can be read. -/
  vector : (readVectorAddr uc vectorTableAddr irq).isSome
  /-- The frame fits below the stack pointer, ... -/
  room : 4 * frameLength (fpca uc) ≤ (regRead uc (spReg (spsel uc))).toNat
  /-- ... where memory is mapped. -/
  mapped : Mapped uc ((regRead uc (spReg (spsel uc))).toNat - 4 * frameLength (fpca uc))
    (4 * frameLength (fpca uc))

/-- What exception entry leaves behind: the state `uc'`, reached from `uc`. -/
structure Entered (uc uc' : U) (frame : FrameAccess) : Prop where
  /-- The frame is the one that `CONTROL` asks for. -/
  psp : frame.psp = spsel uc
  extended : frame.extended = fpca uc
  /-- `LR` holds the matching `EXC_RETURN` value. -/
  lr : regRead uc' .lr = excReturn (spsel uc) (fpca uc)
  /-- `CONTROL` is unchanged. -/
  control : regRead uc' .control = regRead uc .control
  /-- The stack pointer went down by the frame. -/
  sp : (regRead uc' .sp).toNat + 4 * frameLength (fpca uc) = (regRead uc (spReg (spsel uc))).toNat
  /-- The context lies in the frame. -/
  words : WordsAt uc' (regRead uc' .sp).toNat (frameValues uc (fpca uc)).reverse
  /-- No other byte changed. -/
  memory : ∀ a, ¬ ((regRead uc' .sp).toNat ≤ a ∧
    a < (regRead uc' .sp).toNat + 4 * frameLength (fpca uc)) → memByte uc' a = memByte uc a
  /-- Exactly the words of the frame were accessed. -/
  accessed : ∀ a, a ∈ frame.accessed ↔ a ∈ wordAddrs (regRead uc' .sp).toNat (frameLength (fpca uc))

/-- Pushing the context succeeds when there is room for it. -/
lemma exists_pushRegs {uc : U} (hroom : 4 * frameLength (fpca uc) ≤
      (regRead uc (spReg (spsel uc))).toNat)
    (hmap : Mapped uc ((regRead uc (spReg (spsel uc))).toNat - 4 * frameLength (fpca uc))
      (4 * frameLength (fpca uc))) :
    ∃ c : StackCursor U, pushRegs uc (spsel uc) (fpca uc) =
        some (regWrite c.uc .sp (BitVec.ofNat 32 c.sp), ⟨spsel uc, fpca uc, c.accessed⟩) ∧
      Pushed ⟨uc, (regRead uc (spReg (spsel uc))).toNat, []⟩ c (frameValues uc (fpca uc)) := by
  obtain ⟨c, hc, hpush⟩ := foldlM_pushWord (frameValues uc (fpca uc))
    (c := ⟨uc, (regRead uc (spReg (spsel uc))).toNat, []⟩)
    (by rwa [length_frameValues]) (by rwa [length_frameValues])
  refine ⟨c, ?_, hpush⟩
  rw [pushRegs_eq, hc]
  rfl

/-- **Exception entry** succeeds when it is ready, and leaves the frame behind. -/
theorem runInterrupt_spec (nvic : Nvic) {uc : U} {vectorTableAddr : U32} {irq : ℤ}
    (hready : EntryReady uc vectorTableAddr irq) :
    ∃ uc' frame, nvic.runInterrupt uc vectorTableAddr irq =
      some ({ nvic with
        inInterrupt := true
        activeExceptionNumber := BitVec.ofInt 32 (irqOffset + irq) }, uc', frame) ∧
      Entered uc uc' frame := by
  obtain ⟨vector, hvector⟩ := Option.isSome_iff_exists.mp hready.vector
  obtain ⟨c, hc, hpush⟩ := exists_pushRegs hready.room hready.mapped
  have hsp := hpush.sp_eq
  rw [length_frameValues] at hsp
  have hsp32 : (BitVec.ofNat 32 c.sp).toNat = c.sp := by
    rw [BitVec.toNat_ofNat]
    have hlt := (regRead uc (spReg (spsel uc))).isLt
    dsimp only at hsp
    omega
  -- the registers written after the pushes are neither `SP` nor `CONTROL`
  generalize huc₁ : regWrite c.uc .sp (BitVec.ofNat 32 c.sp) = uc₁ at hc
  generalize huc₂ : regWrite uc₁ .xpsr (regRead uc₁ .xpsr &&& ~~~xpsrItstateMask) = uc₂
  generalize huc₃ : regWrite uc₂ .lr (excReturn (spsel uc) (fpca uc)) = uc₃
  generalize huc₄ : regWrite uc₃ .ipsr (BitVec.ofInt 32 irq) = uc₄
  generalize huc₅ : emuStop (regWrite uc₄ .pc vector) = uc₅
  have hkeep : ∀ r : RegisterARM, RegisterARM.affects .xpsr r = false →
      RegisterARM.affects .lr r = false → RegisterARM.affects .ipsr r = false →
      RegisterARM.affects .pc r = false → regRead uc₅ r = regRead uc₁ r := by
    intro r h₁ h₂ h₃ h₄
    rw [← huc₅, UnicornEngine.regRead_emuStop,
      UnicornEngine.regRead_regWrite_of_not_affects _ _ _ _ h₄, ← huc₄,
      UnicornEngine.regRead_regWrite_of_not_affects _ _ _ _ h₃, ← huc₃,
      UnicornEngine.regRead_regWrite_of_not_affects _ _ _ _ h₂, ← huc₂,
      UnicornEngine.regRead_regWrite_of_not_affects _ _ _ _ h₁]
  have hmem : ∀ a, memByte uc₅ a = memByte c.uc a := by
    intro a
    rw [← huc₅, ← huc₄, ← huc₃, ← huc₂, ← huc₁]
    simp
  have hsp₅ : regRead uc₅ .sp = BitVec.ofNat 32 c.sp := by
    rw [hkeep _ rfl rfl rfl rfl, ← huc₁, UnicornEngine.regRead_regWrite_sp]
  refine ⟨uc₅, ⟨spsel uc, fpca uc, c.accessed⟩, ?_, rfl, rfl, ?_, ?_, ?_, ?_, ?_, ?_⟩
  · unfold Nvic.runInterrupt
    have hc' : pushRegs uc (controlSpsel (regRead uc .control)) (controlFpca (regRead uc .control))
        = some (uc₁, ⟨spsel uc, fpca uc, c.accessed⟩) := hc
    simp only [hvector, hc', Option.bind_eq_bind, Option.bind_some]
    subst huc₅ huc₄ huc₃ huc₂
    rfl
  · rw [← huc₅, UnicornEngine.regRead_emuStop,
      UnicornEngine.regRead_regWrite_of_not_affects _ _ _ _ rfl, ← huc₄,
      UnicornEngine.regRead_regWrite_of_not_affects _ _ _ _ rfl, ← huc₃]
    exact UnicornEngine.regRead_regWrite_lr _ _
  · rw [hkeep _ rfl rfl rfl rfl, ← huc₁, regRead_control_regWrite _ rfl, hpush.regs]
  · rw [hsp₅, hsp32]
    exact hsp
  · rw [hsp₅, hsp32]
    exact hpush.words.congr fun a _ _ => hmem a
  · intro a ha
    rw [hsp₅, hsp32, hsp] at ha
    rw [hmem, hpush.frame a ha]
  · intro a
    rw [hsp₅, hsp32, hpush.accessed, length_frameValues]
    simp

/-- Exception entry unmaps nothing. -/
lemma Entered.isSome_memByte {uc uc' : U} {frame : FrameAccess} (h : Entered uc uc' frame) {a : ℕ}
    (ha : (memByte uc a).isSome) : (memByte uc' a).isSome := by
  by_cases hin : (regRead uc' .sp).toNat ≤ a ∧
      a < (regRead uc' .sp).toNat + 4 * frameLength (fpca uc)
  · refine h.words.mapped a hin.1 ?_
    rw [List.length_reverse, length_frameValues]
    exact hin.2
  · rwa [h.memory a hin]

/-- A sample CPU can enter any exception. -/
lemma sampleCpu_ready (control : U32) (irq : ℤ) (hlo : -16 ≤ irq) (hhi : irq < 240) :
    EntryReady (sampleCpu control) 0#32 irq := by
  have hsp : 0x20000800 ≤ (regRead (sampleCpu control) (spReg (spsel (sampleCpu control)))).toNat ∧
      (regRead (sampleCpu control) (spReg (spsel (sampleCpu control)))).toNat ≤ 0x20000c00 := by
    rw [regRead_sampleCpu_spReg]
    cases spsel (sampleCpu control) <;> decide
  have hlength : frameLength (fpca (sampleCpu control)) ≤ 26 := by
    unfold frameLength
    split <;> decide
  obtain ⟨hsplo, hsphi⟩ := hsp
  have hirq : 0 ≤ irqOffset + irq ∧ (irqOffset + irq).toNat < 256 := by
    unfold irqOffset
    omega
  refine ⟨?_, by omega, ?_⟩
  · have hvector : Mapped (sampleCpu control) ((0#32).toNat + 4 * (irqOffset + irq).toNat)
        (4 * 1) := by
      intro a ha hlt
      rw [BitVec.toNat_ofNat] at hlt
      rw [memByte_sampleCpu, if_pos (by omega)]
      rfl
    obtain ⟨ws, hlen, hws⟩ := hvector.exists_wordsAt
    obtain ⟨w, rfl⟩ := List.length_eq_one_iff.mp hlen
    unfold readVectorAddr
    rw [if_pos ⟨hirq.1, by rw [BitVec.toNat_ofNat]; omega⟩, hws.1]
    rfl
  · intro a ha hlt
    rw [memByte_sampleCpu, if_pos (by omega)]
    rfl

/-- Exception entry changes two fields of the controller. -/
lemma runInterrupt_nvic {nvic nvic' : Nvic} {uc uc' : U} {vectorTableAddr : U32} {irq : ℤ}
    {frame : FrameAccess}
    (h : nvic.runInterrupt uc vectorTableAddr irq = some (nvic', uc', frame)) :
    nvic' = { nvic with
      inInterrupt := true
      activeExceptionNumber := BitVec.ofInt 32 (irqOffset + irq) } := by
  unfold Nvic.runInterrupt at h
  obtain ⟨vector, -, h⟩ := Option.bind_eq_some_iff.mp h
  obtain ⟨⟨uc₁, frame₁⟩, -, h⟩ := Option.bind_eq_some_iff.mp h
  cases h
  rfl

/-- The last register that exception entry writes is `PC`, which receives the vector. -/
lemma runInterrupt_pc {nvic nvic' : Nvic} {uc uc' : U} {vectorTableAddr : U32} {irq : ℤ}
    {frame : FrameAccess}
    (h : nvic.runInterrupt uc vectorTableAddr irq = some (nvic', uc', frame)) :
    ∃ uc₁ : U, ∃ vector, readVectorAddr uc vectorTableAddr irq = some vector ∧
      uc' = emuStop (regWrite uc₁ .pc vector) := by
  unfold Nvic.runInterrupt at h
  obtain ⟨vector, hvector, h⟩ := Option.bind_eq_some_iff.mp h
  obtain ⟨⟨uc₁, frame₁⟩, -, h⟩ := Option.bind_eq_some_iff.mp h
  cases h
  exact ⟨_, vector, hvector, rfl⟩

/-- Exception return changes two fields of the controller. -/
lemma returnFromInterrupt_nvic {nvic nvic' : Nvic} {uc uc' : U} {frame : FrameAccess}
    (h : nvic.returnFromInterrupt uc = some (nvic', uc', frame)) :
    nvic' = { nvic with inInterrupt := false, activeExceptionNumber := 0#32 } := by
  unfold Nvic.returnFromInterrupt at h
  obtain ⟨⟨uc₁, frame₁⟩, -, h⟩ := Option.bind_eq_some_iff.mp h
  cases h
  rfl

/-! ## Attempts to dispatch -/

/-- What keeps an attempt from dispatching anything: a running handler, masked interrupts, or the
middle of an IT block. -/
def Blocked (nvic : Nvic) (uc : U) : Prop :=
  nvic.inInterrupt = true ∨ regRead uc .primask ≠ 0#32 ∨ regRead uc .basepri ≠ 0#32 ∨
    regRead uc .xpsr &&& xpsrItstateMask ≠ 0#32

/-- The outcomes of an attempt after the `SysTick` check has given `nvic₁`. -/
inductive Attempt (nvic₁ : Nvic) (uc : U) (vectorTableAddr : U32) : Nvic → U → Option ℤ → Prop
  /-- Nothing is dispatched, because the attempt is blocked or nothing can be dispatched. -/
  | idle (h : Blocked nvic₁ uc ∨ ∀ irq, ¬ nvic₁.Dispatchable irq) :
      Attempt nvic₁ uc vectorTableAddr nvic₁ uc none
  /-- The interrupt that the search finds is entered. -/
  | dispatch {irq : ℤ} {nvic₂ nvic' : Nvic} {uc' : U} {frame : FrameAccess}
      (hopen : ¬ Blocked nvic₁ uc)
      (hfind : nvic₁.getAndClearNextDispatchable = some (irq, nvic₂))
      (hentry : nvic₂.runInterrupt uc vectorTableAddr irq = some (nvic', uc', frame)) :
      Attempt nvic₁ uc vectorTableAddr nvic' uc' (some irq)

/-- With nothing pending, nothing can be dispatched. -/
lemma not_dispatchable_of_pending_eq_zero {nvic : Nvic} (h : nvic.pending = 0#128) (irq : ℤ) :
    ¬ nvic.Dispatchable irq := by
  rintro ⟨hpend, -⟩
  rw [Nvic.isPending_eq_true_iff, h] at hpend
  simp at hpend

/-- **Every attempt** is one of the two outcomes. -/
theorem runPendingInterrupts_cases {nvic nvic' : Nvic} {uc uc' : U} {numInstructions : ℕ}
    {vectorTableAddr : U32} {dispatched : Option ℤ}
    (h : nvic.runPendingInterrupts uc numInstructions vectorTableAddr
      = some (nvic', uc', dispatched)) :
    ∃ nvic₁, nvic.maybeSetSystickIntrPending numInstructions = some nvic₁ ∧
      Attempt nvic₁ uc vectorTableAddr nvic' uc' dispatched := by
  unfold Nvic.runPendingInterrupts at h
  obtain ⟨nvic₁, hsystick, h⟩ := Option.bind_eq_some_iff.mp h
  refine ⟨nvic₁, hsystick, ?_⟩
  split at h
  · next hquiet =>
    cases h
    apply Attempt.idle
    rcases hquiet with hzero | hrunning
    · exact Or.inr (not_dispatchable_of_pending_eq_zero hzero)
    · exact Or.inl (Or.inl hrunning)
  · next hquiet =>
    obtain ⟨-, hnotRunning⟩ := not_or.mp hquiet
    split at h
    · next hmasked =>
      cases h
      apply Attempt.idle
      unfold areInterruptsDisabled at hmasked
      rcases Bool.or_eq_true_iff.mp hmasked with hprimask | hbasepri
      · exact Or.inl (Or.inr (Or.inl (bne_iff_ne.mp hprimask)))
      · exact Or.inl (Or.inr (Or.inr (Or.inl (bne_iff_ne.mp hbasepri))))
    · next hunmasked =>
      split at h
      · next hit =>
        cases h
        exact Attempt.idle (Or.inl (Or.inr (Or.inr (Or.inr hit))))
      · next hit =>
        have hopen : ¬ Blocked nvic₁ uc := by
          unfold areInterruptsDisabled at hunmasked
          simp only [Bool.or_eq_true, bne_iff_ne, not_or] at hunmasked
          unfold Blocked
          tauto
        cases hfind : nvic₁.getAndClearNextDispatchable with
        | none =>
          rw [hfind] at h
          cases h
          exact Attempt.idle (Or.inr (Nvic.getAndClearNextDispatchable_eq_none_iff.mp hfind))
        | some p =>
          obtain ⟨irq, nvic₂⟩ := p
          rw [hfind] at h
          obtain ⟨⟨nvic₃, uc₃, frame⟩, hentry, h⟩ := Option.bind_eq_some_iff.mp h
          cases h
          exact Attempt.dispatch hopen hfind hentry

/-- An attempt that is blocked or finds nothing leaves what the `SysTick` check gave. -/
theorem runPendingInterrupts_idle {nvic nvic₁ : Nvic} {uc : U} {numInstructions : ℕ}
    {vectorTableAddr : U32}
    (hsystick : nvic.maybeSetSystickIntrPending numInstructions = some nvic₁)
    (h : Blocked nvic₁ uc ∨ ∀ irq, ¬ nvic₁.Dispatchable irq) :
    nvic.runPendingInterrupts uc numInstructions vectorTableAddr = some (nvic₁, uc, none) := by
  unfold Nvic.runPendingInterrupts
  simp only [hsystick, Option.bind_eq_bind, Option.bind_some]
  split
  · rfl
  · next hquiet =>
    split
    · rfl
    · next hunmasked =>
      split
      · rfl
      · next hit =>
        have hopen : ¬ Blocked nvic₁ uc := by
          unfold areInterruptsDisabled at hunmasked
          simp only [Bool.or_eq_true, bne_iff_ne, not_or] at hunmasked hquiet
          unfold Blocked
          tauto
        rw [Nvic.getAndClearNextDispatchable_eq_none_iff.mpr (h.resolve_left hopen)]

/-- An attempt that is not blocked enters the interrupt that the search finds. -/
theorem runPendingInterrupts_of_find {nvic nvic₁ nvic₂ : Nvic} {uc : U} {numInstructions : ℕ}
    {vectorTableAddr : U32} {irq : ℤ}
    (hsystick : nvic.maybeSetSystickIntrPending numInstructions = some nvic₁)
    (hopen : ¬ Blocked nvic₁ uc) (hfind : nvic₁.getAndClearNextDispatchable = some (irq, nvic₂)) :
    nvic.runPendingInterrupts uc numInstructions vectorTableAddr =
      (nvic₂.runInterrupt uc vectorTableAddr irq).map fun r => (r.1, r.2.1, some irq) := by
  have hpending : ¬ (nvic₁.pending = 0#128 ∨ nvic₁.inInterrupt = true) := by
    rintro (hzero | hrunning)
    · exact not_dispatchable_of_pending_eq_zero hzero irq
        (Nvic.getAndClearNextDispatchable_eq_some_iff.mp hfind).1
    · exact hopen (Or.inl hrunning)
  have hunmasked : areInterruptsDisabled uc = false := by
    unfold areInterruptsDisabled
    rw [Bool.or_eq_false_iff, bne_eq_false_iff_eq, bne_eq_false_iff_eq]
    unfold Blocked at hopen
    tauto
  have hit : ¬ regRead uc .xpsr &&& xpsrItstateMask ≠ 0#32 := by
    unfold Blocked at hopen
    tauto
  unfold Nvic.runPendingInterrupts
  simp only [hsystick, Option.bind_eq_bind, Option.bind_some, if_neg hpending,
    hunmasked, if_neg hit, hfind, Option.map_eq_bind]
  rfl

end Stm32Emulator
