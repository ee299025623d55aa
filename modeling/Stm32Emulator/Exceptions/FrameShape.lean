import Stm32Emulator.Exceptions.Context

/-!
# The frame that is popped

Exception return takes the shape and the stack of the frame from `LR` if `LR` looks like an
`EXC_RETURN` value, and from `CONTROL` if not.  A handler that ends with `pop {..., pc}` branches to
its `EXC_RETURN` value without having it in `LR`, and a handler that uses floating-point
instructions sets `CONTROL.FPCA`.  `frame_agrees_iff` says exactly when what is popped is what was
pushed and `CONTROL` is back at its value on entry.
-/

namespace Stm32Emulator

variable {U : Type} [UnicornEngine U]

/-- A handler at its final branch: the stack is balanced and still mapped, and of `CONTROL` at most
`FPCA` has been set.  `LR` may hold any value. -/
structure LegalHandler (entered returning : U) : Prop where
  sp : regRead returning .sp = regRead entered .sp
  mapped : ∀ a, (memByte entered a).isSome → (memByte returning a).isSome
  control : regRead returning .control = regRead entered .control ∨
    regRead returning .control = regRead entered .control ||| (2#32 <<< 1)

/-- The frame popped is the one pushed, and `CONTROL` is as it was. -/
structure FrameAgrees (uc uc' : U) (pushed popped : FrameAccess) : Prop where
  psp : popped.psp = pushed.psp
  extended : popped.extended = pushed.extended
  control : regRead uc' .control = regRead uc .control

/-- Either `LR` names the frame that was pushed and the interrupted code was privileged, or `LR` is
no `EXC_RETURN` value and `CONTROL` is still what it was. -/
def ReturnsAsEntered (uc returning : U) : Prop :=
  (isExcReturn (regRead returning .lr) = true ∧
      excReturnSpsel (regRead returning .lr) = spsel uc ∧
      excReturnFpca (regRead returning .lr) = fpca uc ∧ regRead uc .control &&& 1#32 = 0#32) ∨
    (isExcReturn (regRead returning .lr) = false ∧
      regRead returning .control = regRead uc .control)

/-- `CONTROL` is made of `SPSEL` and `FPCA` exactly when `nPRIV` is clear. -/
lemma controlOf_eq_control_iff (uc : U) :
    controlOf (spsel uc) (fpca uc) = regRead uc .control ↔ regRead uc .control &&& 1#32 = 0#32 := by
  have hbits := (and_not_eq_zero_iff _ _).mp (UnicornEngine.control_bits uc)
  unfold spsel fpca
  generalize regRead uc .control = control at hbits
  have hcases : ∃ x : BitVec 3, control = x.setWidth 32 := by
    refine ⟨control.setWidth 3, ?_⟩
    apply BitVec.eq_of_getLsbD_eq
    intro i hi
    rw [BitVec.getLsbD_setWidth, BitVec.getLsbD_setWidth]
    by_cases h3 : i < 3
    · simp [h3, hi]
    · have hzero : control.getLsbD i = false := by
        by_contra hne
        have h7 := hbits i (by simpa using hne)
        have hseven : ∀ j, j < 32 → ¬ j < 3 → (7#32).getLsbD j = false := by decide
        rw [hseven i hi h3] at h7
        cases h7
      simp [h3, hzero]
  obtain ⟨x, rfl⟩ := hcases
  clear hbits
  revert x
  decide

/-- Exception return pops the frame that `LR` or `CONTROL` names, and leaves the `CONTROL` value of
that frame in the first case and the current one in the second. -/
lemma returnFromInterrupt_frame {nvic nvic' : Nvic} {uc uc' : U} {popped : FrameAccess}
    (h : nvic.returnFromInterrupt uc = some (nvic', uc', popped)) :
    (isExcReturn (regRead uc .lr) = true ∧ popped.psp = excReturnSpsel (regRead uc .lr) ∧
        popped.extended = excReturnFpca (regRead uc .lr) ∧
        regRead uc' .control = controlOf popped.psp popped.extended) ∨
      (isExcReturn (regRead uc .lr) = false ∧ popped.psp = spsel uc ∧ popped.extended = fpca uc ∧
        regRead uc' .control = regRead uc .control) := by
  unfold Nvic.returnFromInterrupt at h
  obtain ⟨⟨uc₁, frame⟩, hpop, h⟩ := Option.bind_eq_some_iff.mp h
  cases h
  rw [UnicornEngine.regRead_emuStop]
  unfold Nvic.popFrame at hpop
  cases hlr : isExcReturn (regRead uc .lr) with
  | true =>
    simp only [hlr, if_true, Option.map_eq_some_iff] at hpop
    obtain ⟨⟨uc₂, frame₂⟩, hpop, heq⟩ := hpop
    cases heq
    obtain ⟨hpsp, hextended, -⟩ := popRegs_frame hpop
    refine Or.inl ⟨rfl, hpsp, hextended, ?_⟩
    rw [regRead_regWrite_controlOf, hpsp, hextended]
  | false =>
    simp only [hlr, Bool.false_eq_true, if_false] at hpop
    exact Or.inr ⟨rfl, popRegs_frame hpop⟩

/-- When the handler returns, the frame that was pushed is still mapped. -/
lemma Entered.mapped_of_legalHandler {uc uc₁ uc₂ : U} {pushed : FrameAccess}
    (hentered : Entered uc uc₁ pushed) (hhandler : LegalHandler uc₁ uc₂)
    (hspsel : spsel uc₂ = spsel uc) :
    Mapped uc₂ (regRead uc₂ (spReg (spsel uc))).toNat (4 * (frameRegs (fpca uc)).length) := by
  rw [← hspsel, ← regRead_sp, hhandler.sp]
  intro a hlo hhi
  apply hhandler.mapped
  have hwords := hentered.words
  have hlen : (frameValues uc (fpca uc)).reverse.length = frameLength (fpca uc) := by
    rw [List.length_reverse, length_frameValues]
  have hle := length_frameRegs_le (fpca uc)
  exact hwords.mapped a hlo (by omega)

/-- A handler that has at most set `FPCA` leaves `SPSEL`. -/
lemma LegalHandler.spsel_eq {entered returning : U} (h : LegalHandler entered returning) :
    spsel returning = spsel entered := by
  unfold spsel
  rcases h.control with hsame | hset
  · rw [hsame]
  · rw [hset]
    unfold controlSpsel
    have hfpca : (2#32 <<< 1) &&& (1#32 <<< 1) = 0#32 := by decide
    rw [BitVec.and_or_distrib_right, hfpca, BitVec.or_zero]

/-- **The frame popped is the frame pushed, and `CONTROL` is back, exactly when** the handler
returns as it was entered. -/
theorem frame_agrees_iff (nvic : Nvic) (uc : U) (vectorTableAddr : U32) (irq : ℤ)
    (hready : EntryReady uc vectorTableAddr irq) :
    ∃ nvic₁ uc₁ pushed, nvic.runInterrupt uc vectorTableAddr irq = some (nvic₁, uc₁, pushed) ∧
      ∀ (nvic₂ : Nvic) uc₂, LegalHandler uc₁ uc₂ →
        ((∃ nvic₃ uc₃ popped, nvic₂.returnFromInterrupt uc₂ = some (nvic₃, uc₃, popped) ∧
            FrameAgrees uc uc₃ pushed popped) ↔
          ReturnsAsEntered uc uc₂) := by
  obtain ⟨uc₁, pushed, hentry, hentered⟩ := runInterrupt_spec nvic hready
  refine ⟨_, uc₁, pushed, hentry, fun nvic₂ uc₂ hhandler => ?_⟩
  have hspsel : spsel uc₂ = spsel uc := by
    rw [hhandler.spsel_eq]
    unfold spsel
    rw [hentered.control]
  constructor
  · rintro ⟨nvic₃, uc₃, popped, hreturn, hagrees⟩
    rcases returnFromInterrupt_frame hreturn with ⟨hlr, hpsp, hextended, hcontrol⟩ |
      ⟨hlr, -, -, hcontrol⟩
    · have hpsp' : popped.psp = spsel uc := hagrees.psp.trans hentered.psp
      have hextended' : popped.extended = fpca uc := hagrees.extended.trans hentered.extended
      refine Or.inl ⟨hlr, hpsp.symm.trans hpsp', hextended.symm.trans hextended', ?_⟩
      rw [← controlOf_eq_control_iff, ← hagrees.control, hcontrol, hpsp', hextended']
    · exact Or.inr ⟨hlr, hcontrol.symm.trans hagrees.control⟩
  · intro hret
    have hmapped := hentered.mapped_of_legalHandler hhandler hspsel
    obtain ⟨⟨uc', frame⟩, hpop⟩ := Option.isSome_iff_exists.mp (popRegs_isSome hmapped)
    have hreturn : ∃ nvic₃ uc₃ popped,
        nvic₂.returnFromInterrupt uc₂ = some (nvic₃, uc₃, popped) := by
      unfold Nvic.returnFromInterrupt Nvic.popFrame
      rcases hret with ⟨hlr, hpsp, hextended, -⟩ | ⟨hlr, hcontrol⟩
      · simp only [hlr, if_true, hpsp, hextended, hpop, Option.map_some, Option.bind_eq_bind,
          Option.bind_some]
        exact ⟨_, _, _, rfl⟩
      · simp only [hlr, Bool.false_eq_true, if_false, hcontrol]
        unfold spsel fpca at hpop
        rw [hpop]
        exact ⟨_, _, _, rfl⟩
    obtain ⟨nvic₃, uc₃, popped, hreturn⟩ := hreturn
    refine ⟨nvic₃, uc₃, popped, hreturn, ?_⟩
    rcases returnFromInterrupt_frame hreturn with ⟨hlr, hpsp, hextended, hcontrol⟩ |
      ⟨hlr, hpsp, hextended, hcontrol⟩
    · rcases hret with ⟨-, hlrpsp, hlrextended, hpriv⟩ | ⟨hlr', -⟩
      · refine ⟨?_, ?_, ?_⟩
        · rw [hpsp, hlrpsp, hentered.psp]
        · rw [hextended, hlrextended, hentered.extended]
        · rw [hcontrol, hpsp, hlrpsp, hextended, hlrextended]
          exact (controlOf_eq_control_iff uc).mpr hpriv
      · rw [hlr] at hlr'
        cases hlr'
    · rcases hret with ⟨hlr', -, -, -⟩ | ⟨-, hsame⟩
      · rw [hlr] at hlr'
        cases hlr'
      · refine ⟨?_, ?_, ?_⟩
        · rw [hpsp, hspsel, hentered.psp]
        · rw [hextended, hentered.extended]
          unfold fpca
          rw [hsame]
        · rw [hcontrol, hsame]

/-- A floating-point context is active and the handler ends with `bx lr`. -/
theorem frame_agrees_iff_sample :
    EntryReady (sampleCpu 6) 0 7 ∧
      ∃ nvic₁ uc₁ pushed, Nvic.default.runInterrupt (sampleCpu 6) 0 7 = some (nvic₁, uc₁, pushed) ∧
        LegalHandler uc₁ uc₁ ∧
        ((∃ nvic₃ uc₃ popped, nvic₁.returnFromInterrupt uc₁ = some (nvic₃, uc₃, popped) ∧
            FrameAgrees (sampleCpu 6) uc₃ pushed popped) ↔
          ReturnsAsEntered (sampleCpu 6) uc₁) := by
  have hready : EntryReady (sampleCpu 6) 0 7 := sampleCpu_ready 6 7 (by decide) (by decide)
  obtain ⟨nvic₁, uc₁, pushed, hentry, hiff⟩ :=
    frame_agrees_iff Nvic.default (sampleCpu 6) 0 7 hready
  have hhandler : LegalHandler uc₁ uc₁ := ⟨rfl, fun _ h => h, Or.inl rfl⟩
  exact ⟨hready, nvic₁, uc₁, pushed, hentry, hhandler, hiff nvic₁ uc₁ hhandler⟩

/-- The handler of an interrupt taken without a floating-point context uses floating point, which
sets `FPCA`, and ends with `pop {..., pc}` while `LR` holds an ordinary return address: an extended
frame is popped where a basic one was pushed. -/
theorem frame_shape_mismatch :
    ∃ nvic₁ uc₁ pushed, Nvic.default.runInterrupt (sampleCpu 0) 0 7 = some (nvic₁, uc₁, pushed) ∧
      ∃ uc₂ : RegisterFile, LegalHandler uc₁ uc₂ ∧
        ∃ nvic₃ uc₃ popped, nvic₁.returnFromInterrupt uc₂ = some (nvic₃, uc₃, popped) ∧
          ¬ FrameAgrees (sampleCpu 0) uc₃ pushed popped := by
  obtain ⟨uc₁, pushed, hentry, hentered⟩ :=
    runInterrupt_spec Nvic.default (sampleCpu_ready 0 7 (by decide) (by decide))
  generalize huc₂ : regWrite (regWrite uc₁ .lr 0x08000201#32) .control 4#32 = uc₂
  have hcontrol₁ : regRead uc₁ .control = 0#32 := hentered.control.trans rfl
  have hcontrol : regRead uc₂ .control = 4#32 := by
    rw [← huc₂]
    exact UnicornEngine.regRead_regWrite_control _ _ (by decide)
  have hkeep : ∀ r : RegisterARM, RegisterARM.affects .control r = false →
      RegisterARM.affects .lr r = false → regRead uc₂ r = regRead uc₁ r := by
    intro r h₁ h₂
    rw [← huc₂, UnicornEngine.regRead_regWrite_of_not_affects _ _ _ _ h₁,
      UnicornEngine.regRead_regWrite_of_not_affects _ _ _ _ h₂]
  have hlr : isExcReturn (regRead uc₂ .lr) = false := by
    rw [← huc₂, UnicornEngine.regRead_regWrite_of_not_affects _ _ _ _ rfl,
      UnicornEngine.regRead_regWrite_lr]
    decide
  have hmem : ∀ a, (memByte uc₁ a).isSome → (memByte uc₂ a).isSome := by
    intro a ha
    rw [← huc₂]
    simpa using ha
  have hspsel : spsel uc₂ = false ∧ spsel uc₁ = false ∧ fpca uc₂ = true := by
    unfold spsel fpca
    rw [hcontrol, hcontrol₁]
    decide
  have hsp : regRead uc₂ .sp = regRead uc₁ .sp := by
    rw [regRead_sp, regRead_sp, hspsel.1, hspsel.2.1]
    exact hkeep _ rfl rfl
  have hhandler : LegalHandler uc₁ uc₂ := ⟨hsp, hmem, Or.inr (by rw [hcontrol, hcontrol₁]; rfl)⟩
  have hbase : (regRead uc₂ (spReg false)).toNat = 0x200007e0 := by
    have hentrySp := hentered.sp
    have hspsel₂ := regRead_sp uc₂
    rw [hspsel.1] at hspsel₂
    rw [regRead_sampleCpu_spReg] at hentrySp
    rw [← hspsel₂, hsp]
    exact Nat.add_right_cancel (hentrySp.trans (by decide : _ = 0x200007e0 + 32))
  have hmapped : Mapped uc₂ (regRead uc₂ (spReg false)).toNat (4 * (frameRegs true).length) := by
    have hlen : (frameRegs true).length = 25 := by decide
    intro a hlo hhi
    rw [hbase] at hlo hhi
    apply hmem
    apply hentered.isSome_memByte
    rw [memByte_sampleCpu, if_pos (by omega)]
    rfl
  obtain ⟨⟨uc', frame⟩, hpop⟩ := Option.isSome_iff_exists.mp (popRegs_isSome hmapped)
  have hreturn : ∃ nvic₃ uc₃ popped, Nvic.returnFromInterrupt { Nvic.default with
      inInterrupt := true
      activeExceptionNumber := BitVec.ofInt 32 (irqOffset + 7) } uc₂ =
        some (nvic₃, uc₃, popped) := by
    unfold Nvic.returnFromInterrupt Nvic.popFrame
    have hpop' : popRegs uc₂ (controlSpsel (regRead uc₂ .control))
        (controlFpca (regRead uc₂ .control)) = some (uc', frame) := by
      rw [hcontrol]
      exact hpop
    simp only [hlr, Bool.false_eq_true, if_false, hpop', Option.bind_eq_bind, Option.bind_some]
    exact ⟨_, _, _, rfl⟩
  obtain ⟨nvic₃, uc₃, popped, hreturn⟩ := hreturn
  refine ⟨_, uc₁, pushed, hentry, uc₂, hhandler, nvic₃, uc₃, popped, hreturn, fun hagrees => ?_⟩
  rcases returnFromInterrupt_frame hreturn with ⟨hlr', -⟩ | ⟨-, -, hextended, -⟩
  · rw [hlr] at hlr'
    cases hlr'
  · rw [hagrees.extended, hentered.extended, hspsel.2.2] at hextended
    exact absurd hextended (by decide)

end Stm32Emulator
