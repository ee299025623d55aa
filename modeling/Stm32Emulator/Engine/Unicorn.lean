import Stm32Emulator.Foundation.Word

/-!
# The CPU engine

The emulator drives a CPU engine that it does not contain.  `UnicornEngine U` is what the code
relies on: registers that can be read and written, byte-addressed memory of which only a part need
be mapped, and a request to stop.  The laws are those of an ARMv7-M register file in which `SP`
names the stack pointer that `CONTROL.SPSEL` selects.

A write need not read back as it was written (the program counter drops its lowest bit), and it may
show in another register: `RegisterARM.affects` lists these aliases.  What always holds is that
writing a value that was once read from a register restores that value, `regRead_restore`.
-/

namespace Stm32Emulator

/-! ## Registers -/

/-- The CPU registers that the emulator reads or writes. -/
inductive RegisterARM where
  | r0 | r1 | r2 | r3 | r12
  | sp | lr | pc | xpsr | ipsr
  | msp | psp | control | primask | basepri
  | fpscr
  /-- The single-precision register `S0` to `S15`. -/
  | s (n : Fin 16)
  deriving DecidableEq, Repr

namespace RegisterARM

/-- Writing `r` may change what reading `r'` gives: the register itself, the stack pointer that
`SP` names, `IPSR` inside `XPSR`, and the Thumb bit of `XPSR`, which a branch target sets. -/
def affects : RegisterARM → RegisterARM → Bool
  | sp, r' => r' = sp || r' = msp || r' = psp
  | msp, r' => r' = msp || r' = sp
  | psp, r' => r' = psp || r' = sp
  | control, r' => r' = control || r' = sp
  | xpsr, r' => r' = xpsr || r' = ipsr
  | ipsr, r' => r' = ipsr || r' = xpsr
  | pc, r' => r' = pc || r' = xpsr
  | r, r' => r' = r

end RegisterARM

/-- `CONTROL.SPSEL`, bit 1: the process stack pointer is selected. -/
def controlSpsel (control : U32) : Bool := control &&& (1#32 <<< 1) != 0#32

/-- `CONTROL.FPCA`, bit 2: the floating-point context is active. -/
def controlFpca (control : U32) : Bool := control &&& (2#32 <<< 1) != 0#32

/-- The stack pointer register that a value of `SPSEL` selects. -/
def spReg (spsel : Bool) : RegisterARM := if spsel then .psp else .msp

/-! ## The interface -/

/-- A CPU engine with mapped memory. -/
class UnicornEngine (U : Type) where
  /-- `reg_read`. -/
  regRead : U → RegisterARM → U32
  /-- `reg_write`. -/
  regWrite : U → RegisterARM → U32 → U
  /-- The byte at an address, `none` where nothing is mapped. -/
  memByte : U → ℕ → Option U8
  /-- `mem_write`, `none` when it fails. -/
  memWrite : U → ℕ → List U8 → Option U
  /-- `emu_stop`. -/
  emuStop : U → U
  /-- `SP` names the selected stack pointer. -/
  regRead_sp : ∀ u, regRead u .sp = regRead u (spReg (controlSpsel (regRead u .control)))
  /-- `SP` reads back as written. -/
  regRead_regWrite_sp : ∀ u v, regRead (regWrite u .sp v) .sp = v
  /-- Writing `SP` leaves the stack pointer that is not selected. -/
  regRead_regWrite_sp_other : ∀ u v,
    regRead (regWrite u .sp v) (spReg (!controlSpsel (regRead u .control)))
      = regRead u (spReg (!controlSpsel (regRead u .control)))
  /-- `LR` reads back as written. -/
  regRead_regWrite_lr : ∀ u v, regRead (regWrite u .lr v) .lr = v
  /-- `CONTROL` has three bits, ... -/
  control_bits : ∀ u, regRead u .control &&& ~~~7#32 = 0#32
  /-- ... and these read back as written. -/
  regRead_regWrite_control : ∀ u v, v &&& ~~~7#32 = 0#32 →
    regRead (regWrite u .control v) .control = v
  /-- Writing a register changes no register that it does not affect. -/
  regRead_regWrite_of_not_affects : ∀ u (r r' : RegisterARM) v, r.affects r' = false →
    regRead (regWrite u r v) r' = regRead u r'
  /-- Writing what was once read from a register restores it. -/
  regRead_restore : ∀ u u' r, regRead (regWrite u r (regRead u' r)) r = regRead u' r
  /-- Writing a register changes no memory. -/
  memByte_regWrite : ∀ u r v a, memByte (regWrite u r v) a = memByte u a
  /-- A write to mapped memory succeeds, ... -/
  memWrite_isSome : ∀ u a bs, (∀ i < bs.length, (memByte u (a + i)).isSome) →
    (memWrite u a bs).isSome
  /-- ... changes no register, ... -/
  regRead_memWrite : ∀ u u' a bs r, memWrite u a bs = some u' → regRead u' r = regRead u r
  /-- ... and replaces the bytes of its range and no others. -/
  memByte_memWrite : ∀ u u' a bs b, memWrite u a bs = some u' →
    memByte u' b = if a ≤ b ∧ b < a + bs.length then bs[b - a]? else memByte u b
  /-- Asking the engine to stop changes no register ... -/
  regRead_emuStop : ∀ u r, regRead (emuStop u) r = regRead u r
  /-- ... and no memory. -/
  memByte_emuStop : ∀ u a, memByte (emuStop u) a = memByte u a

export UnicornEngine (regRead regWrite memByte memWrite emuStop)

attribute [simp] UnicornEngine.memByte_regWrite UnicornEngine.regRead_emuStop
  UnicornEngine.memByte_emuStop

variable {U : Type} [UnicornEngine U]

/-- `mem_read`: the bytes of a range, when all of it is mapped. -/
def memRead (uc : U) (addr len : ℕ) : Option (List U8) :=
  (List.range len).mapM fun i => memByte uc (addr + i)

/-- Four bytes of memory as a little-endian word. -/
def memReadU32 (uc : U) (addr : ℕ) : Option U32 :=
  match memRead uc addr 4 with
  | some [b₀, b₁, b₂, b₃] => some (fromLeBytes b₀ b₁ b₂ b₃)
  | _ => none

/-- `CONTROL.SPSEL` of the current state. -/
def spsel (uc : U) : Bool := controlSpsel (regRead uc .control)

/-- `CONTROL.FPCA` of the current state. -/
def fpca (uc : U) : Bool := controlFpca (regRead uc .control)

/-! ## Reading words -/

lemma memReadU32_eq_some_iff {uc : U} {addr : ℕ} {w : U32} :
    memReadU32 uc addr = some w ↔ ∃ b₀ b₁ b₂ b₃, memByte uc addr = some b₀ ∧
      memByte uc (addr + 1) = some b₁ ∧ memByte uc (addr + 2) = some b₂ ∧
      memByte uc (addr + 3) = some b₃ ∧ w = fromLeBytes b₀ b₁ b₂ b₃ := by
  have hrange : memRead uc addr 4 = (memByte uc addr).bind fun b₀ =>
      (memByte uc (addr + 1)).bind fun b₁ => (memByte uc (addr + 2)).bind fun b₂ =>
        (memByte uc (addr + 3)).bind fun b₃ => some [b₀, b₁, b₂, b₃] := by
    simp [memRead, List.range_succ_eq_map, Option.bind_assoc]
  unfold memReadU32
  rw [hrange]
  cases memByte uc addr with
  | none => simp
  | some b₀ =>
    cases memByte uc (addr + 1) with
    | none => simp
    | some b₁ =>
      cases memByte uc (addr + 2) with
      | none => simp
      | some b₂ =>
        cases memByte uc (addr + 3) with
        | none => simp
        | some b₃ => simp [eq_comm]

/-- A word is a function of its four bytes. -/
lemma memReadU32_congr {uc uc' : U} {addr : ℕ}
    (h : ∀ i < 4, memByte uc' (addr + i) = memByte uc (addr + i)) :
    memReadU32 uc' addr = memReadU32 uc addr := by
  ext w
  have h0 := h 0 (by decide)
  have h1 := h 1 (by decide)
  have h2 := h 2 (by decide)
  have h3 := h 3 (by decide)
  rw [Nat.add_zero] at h0
  rw [memReadU32_eq_some_iff, memReadU32_eq_some_iff, h0, h1, h2, h3]

/-- A word that was written reads back. -/
lemma memReadU32_memWrite {uc uc' : U} {addr : ℕ} {w : U32}
    (h : memWrite uc addr (toLeBytes w) = some uc') : memReadU32 uc' addr = some w := by
  rw [memReadU32_eq_some_iff]
  refine ⟨w.extractLsb' 0 8, w.extractLsb' 8 8, w.extractLsb' 16 8, w.extractLsb' 24 8,
    ?_, ?_, ?_, ?_, (fromLeBytes_extract w).symm⟩ <;>
  · rw [UnicornEngine.memByte_memWrite _ _ _ _ _ h]
    simp [toLeBytes]

/-! ## The selected stack pointer -/

lemma regRead_sp (uc : U) : regRead uc .sp = regRead uc (spReg (spsel uc)) :=
  UnicornEngine.regRead_sp uc

/-- `SPSEL` and `FPCA` survive writing a register that does not affect `CONTROL`. -/
lemma regRead_control_regWrite {uc : U} {r : RegisterARM} (v : U32)
    (h : r.affects .control = false) : regRead (regWrite uc r v) .control = regRead uc .control :=
  UnicornEngine.regRead_regWrite_of_not_affects _ _ _ _ h

/-- Writing `SP` writes the selected stack pointer. -/
lemma regRead_regWrite_sp_selected (uc : U) (v : U32) :
    regRead (regWrite uc .sp v) (spReg (spsel uc)) = v := by
  have hcontrol : spsel (regWrite uc .sp v) = spsel uc := by
    unfold spsel
    rw [regRead_control_regWrite v rfl]
  have h := regRead_sp (regWrite uc .sp v)
  rw [UnicornEngine.regRead_regWrite_sp, hcontrol] at h
  exact h.symm

end Stm32Emulator
