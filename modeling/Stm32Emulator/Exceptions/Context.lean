import Stm32Emulator.Exceptions.Entry

/-!
# Entry and return are inverse

A handler that comes back with `LR`, `CONTROL`, the stack pointer and the pushed frame as it found
them may have changed everything else.  `exception_round_trip` shows that exception return then
gives back the interrupted context, and that it reads only words that exception entry wrote.

The argument is in two halves.  Entry leaves the values of the interrupted registers in the frame
(`Entered.words`); read from the bottom, they stand in the order in which return pops them
(`reverse_frameValues`).  Return writes them back, and no register of the table is disturbed by a
later one (`frameRegs_pairwise`).
-/

namespace Stm32Emulator

variable {U : Type} [UnicornEngine U]

/-! ## Frames from the bottom -/

/-- Read upwards, the words of a frame are the values of the registers in popping order, and the
reserved word of an extended frame. -/
lemma reverse_frameValues (uc : U) (fpca : Bool) :
    (frameValues uc fpca).reverse =
      (frameRegs fpca).map (regRead uc) ++ if fpca then [0#32] else [] := by
  cases fpca <;> simp [frameValues, frameRegs]

/-- No register of a frame is affected by one that is popped after it. -/
lemma frameRegs_pairwise (fpca : Bool) :
    (frameRegs fpca).Pairwise fun r r' => r'.affects r = false := by
  cases fpca <;> decide

/-- Writing `SP` or `CONTROL` does not affect the registers of a frame, and these do not affect the
stack pointers or `CONTROL`. -/
lemma frameRegs_independent (fpca : Bool) : ∀ r ∈ frameRegs fpca,
    RegisterARM.affects .sp r = false ∧ RegisterARM.affects .control r = false ∧
      r.affects .control = false := by
  cases fpca <;> decide

lemma length_frameRegs_le (fpca : Bool) : (frameRegs fpca).length ≤ frameLength fpca := by
  cases fpca <;> decide

/-! ## `EXC_RETURN` and `CONTROL` values -/

@[simp] lemma isExcReturn_excReturn (spsel fpca : Bool) :
    isExcReturn (excReturn spsel fpca) = true := by
  cases spsel <;> cases fpca <;> decide

@[simp] lemma excReturnSpsel_excReturn (spsel fpca : Bool) :
    excReturnSpsel (excReturn spsel fpca) = spsel := by
  cases spsel <;> cases fpca <;> decide

@[simp] lemma excReturnFpca_excReturn (spsel fpca : Bool) :
    excReturnFpca (excReturn spsel fpca) = fpca := by
  cases spsel <;> cases fpca <;> decide

@[simp] lemma controlSpsel_controlOf (spsel fpca : Bool) :
    controlSpsel (controlOf spsel fpca) = spsel := by
  cases spsel <;> cases fpca <;> decide

/-- The value that exception return writes to `CONTROL` reads back. -/
lemma regRead_regWrite_controlOf (uc : U) (spsel fpca : Bool) :
    regRead (regWrite uc .control (controlOf spsel fpca)) .control = controlOf spsel fpca := by
  apply UnicornEngine.regRead_regWrite_control
  cases spsel <;> cases fpca <;> decide

/-! ## The round trip -/

/-- What a handler that returns has kept of the state in which it was entered. -/
structure HandlerReturns (entered returning : U) (pushed : FrameAccess) : Prop where
  /-- `LR` still holds the `EXC_RETURN` value. -/
  lr : regRead returning .lr = regRead entered .lr
  /-- `CONTROL` is unmodified. -/
  control : regRead returning .control = regRead entered .control
  /-- The active stack pointer is back at its value on entry. -/
  sp : regRead returning .sp = regRead entered .sp
  /-- The pushed words are untouched. -/
  frame : ∀ a ∈ pushed.accessed, ∀ i < 4, memByte returning (a + i) = memByte entered (a + i)

/-- The frame is still in memory when the handler returns. -/
lemma Entered.words_of_handlerReturns {uc uc₁ uc₂ : U} {pushed : FrameAccess}
    (hentered : Entered uc uc₁ pushed) (hret : HandlerReturns uc₁ uc₂ pushed) :
    WordsAt uc₂ (regRead uc₁ .sp).toNat ((frameRegs (fpca uc)).map (regRead uc)) := by
  have hwords := hentered.words
  rw [reverse_frameValues] at hwords
  refine hwords.append_left.congr fun a hlo hhi => ?_
  rw [List.length_map] at hhi
  have hle := length_frameRegs_le (fpca uc)
  obtain ⟨k, i, hi, rfl⟩ : ∃ k i, i < 4 ∧ a = (regRead uc₁ .sp).toNat + 4 * k + i :=
    ⟨(a - (regRead uc₁ .sp).toNat) / 4, (a - (regRead uc₁ .sp).toNat) % 4, by omega, by omega⟩
  refine hret.frame _ ?_ i hi
  rw [hentered.accessed, mem_wordAddrs]
  exact ⟨k, by omega, rfl⟩

/-- The stack pointer that exception entry selected is at the frame when the handler returns. -/
lemma Entered.sp_of_handlerReturns {uc uc₁ uc₂ : U} {pushed : FrameAccess}
    (hentered : Entered uc uc₁ pushed) (hret : HandlerReturns uc₁ uc₂ pushed) :
    regRead uc₂ (spReg (spsel uc)) = regRead uc₁ .sp := by
  have hspsel : spsel uc₂ = spsel uc := by
    unfold spsel
    rw [hret.control, hentered.control]
  rw [← hret.sp, regRead_sp, hspsel]

/-- `uc'` has the context that was interrupted in `uc`. -/
structure ContextRestored (uc uc' : U) : Prop where
  /-- The general registers, the return address and the program status, `ITSTATE` included. -/
  basic : ∀ r ∈ [.r0, .r1, .r2, .r3, .r12, .lr, .pc, .xpsr], regRead uc' r = regRead uc r
  /-- With an active floating-point context, its registers. -/
  extended : fpca uc = true →
    (∀ n, regRead uc' (.s n) = regRead uc (.s n)) ∧ regRead uc' .fpscr = regRead uc .fpscr
  /-- The stack pointer that was selected, ... -/
  selected : regRead uc' (spReg (spsel uc)) = regRead uc (spReg (spsel uc))
  /-- ... which is selected again. -/
  sp : regRead uc' .sp = regRead uc .sp

/-- What return writes after the registers of the frame leaves these and selects the stack. -/
lemma contextRestored_of_regs {uc uc' : U}
    (hregs : ∀ r ∈ frameRegs (fpca uc), regRead uc' r = regRead uc r)
    (hspsel : spsel uc' = spsel uc) :
    ContextRestored uc (emuStop
      (regWrite (regWrite uc' .sp (regRead uc (spReg (spsel uc)))) .control
      (controlOf (spsel uc) (fpca uc)))) := by
  generalize huc₃ : emuStop (regWrite (regWrite uc' .sp (regRead uc (spReg (spsel uc)))) .control
    (controlOf (spsel uc) (fpca uc))) = uc₃
  have hframe : ∀ r ∈ frameRegs (fpca uc), regRead uc₃ r = regRead uc r := by
    intro r hr
    obtain ⟨hsp, hcontrol, -⟩ := frameRegs_independent _ r hr
    rw [← huc₃, UnicornEngine.regRead_emuStop,
      UnicornEngine.regRead_regWrite_of_not_affects _ _ _ _ hcontrol,
      UnicornEngine.regRead_regWrite_of_not_affects _ _ _ _ hsp, hregs r hr]
  have hselected : regRead uc₃ (spReg (spsel uc)) = regRead uc (spReg (spsel uc)) := by
    rw [← huc₃, UnicornEngine.regRead_emuStop, UnicornEngine.regRead_regWrite_of_not_affects]
    · rw [← hspsel]
      exact regRead_regWrite_sp_selected uc' _
    · cases spsel uc <;> rfl
  refine ⟨?_, ?_, hselected, ?_⟩
  · intro r hr
    apply hframe r
    unfold frameRegs
    exact List.mem_append_left _ (by revert r; decide)
  · intro hfpca
    rw [hfpca] at hframe
    exact ⟨fun n => hframe (.s n) (by revert n; decide), hframe .fpscr (by decide)⟩
  · have hspsel₃ : spsel uc₃ = spsel uc := by
      unfold spsel
      rw [← huc₃, UnicornEngine.regRead_emuStop, regRead_regWrite_controlOf, controlSpsel_controlOf]
      rfl
    rw [regRead_sp, regRead_sp uc, hspsel₃, hselected]

/-- **Exception entry followed by exception return is the identity on the interrupted context.**
Entry succeeds on mapped memory.  Whatever a handler that returns has done to the controller, the
registers and the rest of memory, return succeeds, restores the context, and reads only words that
entry wrote. -/
theorem exception_round_trip (nvic : Nvic) (uc : U) (vectorTableAddr : U32) (irq : ℤ)
    (hready : EntryReady uc vectorTableAddr irq) :
    ∃ nvic₁ uc₁ pushed, nvic.runInterrupt uc vectorTableAddr irq = some (nvic₁, uc₁, pushed) ∧
      ∀ (nvic₂ : Nvic) uc₂, HandlerReturns uc₁ uc₂ pushed →
        ∃ nvic₃ uc₃ popped, nvic₂.returnFromInterrupt uc₂ = some (nvic₃, uc₃, popped) ∧
          ContextRestored uc uc₃ ∧ ∀ a ∈ popped.accessed, a ∈ pushed.accessed := by
  obtain ⟨uc₁, pushed, hentry, hentered⟩ := runInterrupt_spec nvic hready
  refine ⟨_, uc₁, pushed, hentry, fun nvic₂ uc₂ hret => ?_⟩
  have hlr : regRead uc₂ .lr = excReturn (spsel uc) (fpca uc) := hret.lr.trans hentered.lr
  have hbase := hentered.sp_of_handlerReturns hret
  have hwords := hentered.words_of_handlerReturns hret
  rw [← hbase] at hwords
  -- the words popped are the values saved, so return writes these back
  have hpop : popRegs uc₂ (spsel uc) (fpca uc) = _ :=
    popRegs_eq (by rw [List.length_map]) hwords
  rw [← List.map_prod_left_eq_zip, hbase, hentered.sp, BitVec.ofNat_toNat, BitVec.setWidth_eq]
    at hpop
  generalize huc' : writeRegs uc₂ ((frameRegs (fpca uc)).map fun r => (r, regRead uc r)) = uc'
    at hpop
  have hregs : ∀ r ∈ frameRegs (fpca uc), regRead uc' r = regRead uc r := fun r hr => by
    rw [← huc']
    exact regRead_writeRegs_restore uc₂ uc (frameRegs_pairwise _) hr
  have hspsel : spsel uc' = spsel uc := by
    unfold spsel
    rw [← huc', regRead_writeRegs_of_not_affects, hret.control, hentered.control]
    intro p hp
    obtain ⟨r, hr, rfl⟩ := List.mem_map.mp hp
    exact (frameRegs_independent _ r hr).2.2
  have hreturn : nvic₂.returnFromInterrupt uc₂ =
      some ({ nvic₂ with inInterrupt := false, activeExceptionNumber := 0#32 },
        emuStop (regWrite (regWrite uc' .sp (regRead uc (spReg (spsel uc)))) .control
          (controlOf (spsel uc) (fpca uc))),
        ⟨spsel uc, fpca uc,
          wordAddrs (regRead uc₁ .sp).toNat (frameRegs (fpca uc)).length⟩) := by
    unfold Nvic.returnFromInterrupt Nvic.popFrame
    simp only [hlr, isExcReturn_excReturn, excReturnSpsel_excReturn,
      excReturnFpca_excReturn, if_true, hpop, Option.map_some, Option.bind_eq_bind,
      Option.bind_some]
  refine ⟨_, _, _, hreturn, contextRestored_of_regs hregs hspsel, fun a ha => ?_⟩
  rw [mem_wordAddrs] at ha
  obtain ⟨k, hk, rfl⟩ := ha
  rw [hentered.accessed, mem_wordAddrs]
  exact ⟨k, hk.trans_le (length_frameRegs_le _), rfl⟩

/-- An interrupt taken with an active floating-point context on the process stack, whose handler
returns at once. -/
theorem exception_round_trip_sample :
    EntryReady (sampleCpu 6) 0 7 ∧
      ∃ nvic₁ uc₁ pushed, Nvic.default.runInterrupt (sampleCpu 6) 0 7 = some (nvic₁, uc₁, pushed) ∧
        ∃ nvic₃ uc₃ popped, nvic₁.returnFromInterrupt uc₁ = some (nvic₃, uc₃, popped) ∧
          ContextRestored (sampleCpu 6) uc₃ ∧ ∀ a ∈ popped.accessed, a ∈ pushed.accessed := by
  have hready : EntryReady (sampleCpu 6) 0 7 := sampleCpu_ready 6 7 (by decide) (by decide)
  obtain ⟨nvic₁, uc₁, pushed, hentry, hreturn⟩ :=
    exception_round_trip Nvic.default (sampleCpu 6) 0 7 hready
  exact ⟨hready, nvic₁, uc₁, pushed, hentry,
    hreturn nvic₁ uc₁ ⟨rfl, rfl, rfl, fun _ _ _ _ => rfl⟩⟩

end Stm32Emulator
