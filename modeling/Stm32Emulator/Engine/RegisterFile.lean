import Stm32Emulator.Engine.Unicorn
import Mathlib.Logic.Function.Basic

/-!
# A register file with byte memory

`RegisterFile` is a concrete engine: one cell for each register, `SP` and `IPSR` being views of
other cells, and a partial map from addresses to bytes.  It shows that the laws of `UnicornEngine`
can be met, and concrete states of it are what examples are computed on.
-/

namespace Stm32Emulator

/-- The cells of the registers, and memory. -/
structure RegisterFile where
  /-- The cell of each register.  `SP` and `IPSR` have no cell of their own. -/
  regs : RegisterARM → U32
  /-- The byte at each mapped address. -/
  mem : ℕ → Option U8

namespace RegisterFile

open RegisterARM Function

/-- The register that holds the value of `SP`. -/
def selected (f : RegisterFile) : RegisterARM := spReg (controlSpsel (f.regs control &&& 7#32))

/-- Reading a register: `CONTROL` has three bits, the program counter is even, and `IPSR` is the
low part of `XPSR`. -/
def read (f : RegisterFile) : RegisterARM → U32
  | .sp => f.regs f.selected
  | .control => f.regs control &&& 7#32
  | .pc => f.regs pc &&& ~~~1#32
  | .ipsr => f.regs xpsr &&& 0x1ff#32
  | r => f.regs r

/-- Writing a register: the lowest bit of a new program counter becomes the Thumb bit of `XPSR`. -/
def write (f : RegisterFile) (r : RegisterARM) (v : U32) : RegisterFile :=
  match r with
  | .sp => { f with regs := update f.regs f.selected v }
  | .ipsr =>
    { f with regs := update f.regs xpsr ((f.regs xpsr &&& ~~~0x1ff#32) ||| (v &&& 0x1ff#32)) }
  | .pc =>
    let thumb := (v &&& 1#32) <<< 24
    { f with
      regs := update (update f.regs pc v) xpsr ((f.regs xpsr &&& ~~~(1#32 <<< 24)) ||| thumb) }
  | r => { f with regs := update f.regs r v }

/-- Writing bytes, when the whole range is mapped. -/
def writeBytes (f : RegisterFile) (addr : ℕ) (bs : List U8) : Option RegisterFile :=
  if (List.range bs.length).all fun i => (f.mem (addr + i)).isSome then
    some
      { f with mem := fun b => if addr ≤ b ∧ b < addr + bs.length then bs[b - addr]? else f.mem b }
  else
    none

lemma selected_cases (f : RegisterFile) : f.selected = msp ∨ f.selected = psp := by
  unfold selected spReg
  split
  · exact Or.inr rfl
  · exact Or.inl rfl

lemma read_spReg (f : RegisterFile) (b : Bool) : f.read (spReg b) = f.regs (spReg b) := by
  cases b <;> rfl

/-- Writing `SP` leaves the cell of `CONTROL`. -/
lemma selected_write_sp (f : RegisterFile) (v : U32) : (f.write sp v).selected = f.selected := by
  have hne : control ≠ f.selected := by
    rcases f.selected_cases with h | h <;> rw [h] <;> decide
  change spReg (controlSpsel (update f.regs f.selected v control &&& 7#32)) = f.selected
  rw [update_of_ne hne]
  rfl

/-- The Thumb bit lies outside `IPSR`. -/
lemma thumb_and_ipsr (x v : U32) :
    ((x &&& ~~~(1#32 <<< 24)) ||| ((v &&& 1#32) <<< 24)) &&& 0x1ff#32 = x &&& 0x1ff#32 := by
  have hclear : ~~~(1#32 <<< 24) &&& 0x1ff#32 = 0x1ff#32 := by decide
  have hthumb : ((v &&& 1#32) <<< 24) &&& 0x1ff#32 = 0#32 := by
    rw [BitVec.and_one_eq_setWidth_ofBool_getLsbD]
    cases v.getLsbD 0 <;> decide
  rw [BitVec.and_or_distrib_right, BitVec.and_assoc, hclear, hthumb, BitVec.or_zero]

/-- A cell that a write does not affect is kept. -/
lemma regs_write (f : RegisterFile) {r c : RegisterARM} (v : U32) (h : r.affects c = false) :
    (f.write r v).regs c = f.regs c := by
  cases r with
  | sp =>
    simp only [affects, Bool.or_eq_false_iff, decide_eq_false_iff_not] at h
    have hne : c ≠ f.selected := by
      rcases f.selected_cases with hs | hs
      · rw [hs]
        exact h.1.2
      · rw [hs]
        exact h.2
    exact update_of_ne hne ..
  | ipsr =>
    simp only [affects, Bool.or_eq_false_iff, decide_eq_false_iff_not] at h
    exact update_of_ne h.2 ..
  | pc =>
    simp only [affects, Bool.or_eq_false_iff, decide_eq_false_iff_not] at h
    exact (update_of_ne h.2 ..).trans (update_of_ne h.1 ..)
  | _ =>
    simp only [affects, Bool.or_eq_false_iff, decide_eq_false_iff_not] at h
    exact update_of_ne (by first | exact h | exact h.1) ..

/-- What leaves `SP` alone leaves the cells alone that it is read from. -/
lemma not_affects_of_sp {r : RegisterARM} (h : r.affects sp = false) :
    r.affects control = false ∧ r.affects msp = false ∧ r.affects psp = false := by
  cases r <;> simp_all [affects]

lemma read_write_of_not_affects (f : RegisterFile) (r r' : RegisterARM) (v : U32)
    (h : r.affects r' = false) : (f.write r v).read r' = f.read r' := by
  cases r' with
  | sp =>
    obtain ⟨hcontrol, hmsp, hpsp⟩ := not_affects_of_sp h
    have hsel : (f.write r v).selected = f.selected := by
      unfold selected
      rw [regs_write f v hcontrol]
    change (f.write r v).regs (f.write r v).selected = f.regs f.selected
    rw [hsel]
    rcases f.selected_cases with hs | hs
    · rw [hs, regs_write f v hmsp]
    · rw [hs, regs_write f v hpsp]
  | ipsr =>
    change (f.write r v).regs xpsr &&& 0x1ff#32 = f.regs xpsr &&& 0x1ff#32
    by_cases hpc : r = pc
    · rw [hpc]
      exact thumb_and_ipsr (f.regs xpsr) v
    · have hxpsr : r.affects xpsr = false := by
        cases r <;> simp_all [affects]
      rw [regs_write f v hxpsr]
  | control => exact congrArg (· &&& 7#32) (regs_write f v h)
  | pc => exact congrArg (· &&& ~~~1#32) (regs_write f v h)
  | _ => exact regs_write f v h

lemma read_restore (f f' : RegisterFile) (r : RegisterARM) :
    (f.write r (f'.read r)).read r = f'.read r := by
  cases r with
  | sp =>
    change (f.write sp (f'.read sp)).regs (f.write sp (f'.read sp)).selected = f'.read sp
    rw [selected_write_sp]
    exact update_self ..
  | pc =>
    simp only [write, read]
    rw [update_of_ne (by decide), update_self, BitVec.and_assoc, BitVec.and_self]
  | ipsr =>
    simp only [write, read, update_self]
    apply BitVec.eq_of_getLsbD_eq
    intro i hi
    simp only [BitVec.getLsbD_and, BitVec.getLsbD_or, BitVec.getLsbD_not]
    cases (0x1ff#32).getLsbD i <;> simp
  | control =>
    simp only [write, read, update_self, BitVec.and_assoc, BitVec.and_self]
  | _ => simp [write, read]

end RegisterFile

open RegisterFile in
/-- The register file is an engine. -/
instance : UnicornEngine RegisterFile where
  regRead := RegisterFile.read
  regWrite := RegisterFile.write
  memByte := RegisterFile.mem
  memWrite := writeBytes
  emuStop := id
  regRead_sp f := (read_spReg f _).symm
  regRead_regWrite_sp f v := by
    change (f.write .sp v).regs (f.write .sp v).selected = v
    rw [selected_write_sp]
    exact Function.update_self ..
  regRead_regWrite_sp_other f v := by
    rw [read_spReg, read_spReg]
    refine Function.update_of_ne ?_ ..
    change spReg _ ≠ spReg _
    simp only [RegisterFile.read]
    cases controlSpsel (f.regs .control &&& 7#32) <;> decide
  regRead_regWrite_lr f v := by simp [RegisterFile.write, RegisterFile.read]
  control_bits f := by
    simp only [RegisterFile.read]
    rw [BitVec.and_assoc, BitVec.and_not_self]
    exact BitVec.and_zero
  regRead_regWrite_control f v h := by
    simp only [RegisterFile.write, RegisterFile.read, Function.update_self]
    apply BitVec.eq_of_getLsbD_eq
    intro i hi
    have hbit := (and_not_eq_zero_iff v 7#32).mp h i
    rw [BitVec.getLsbD_and]
    cases hv : v.getLsbD i
    · rfl
    · rw [hbit hv]
      rfl
  regRead_regWrite_of_not_affects := read_write_of_not_affects
  regRead_restore := read_restore
  memByte_regWrite f r v a := by cases r <;> rfl
  memWrite_isSome f a bs h := by
    unfold writeBytes
    rw [if_pos]
    · rfl
    · simpa using h
  regRead_memWrite f f' a bs r h := by
    unfold writeBytes at h
    split at h
    · obtain rfl := Option.some.inj h
      cases r <;> rfl
    · cases h
  memByte_memWrite f f' a bs b h := by
    unfold writeBytes at h
    split at h
    · obtain rfl := Option.some.inj h
      rfl
    · cases h
  regRead_emuStop _ _ := rfl
  memByte_emuStop _ _ := rfl

/-- A CPU with a given `CONTROL`, and two mapped regions of ones: a vector table at address zero and
a block of RAM that holds both stacks. -/
def sampleCpu (control : U32) : RegisterFile where
  regs
    | .control => control
    | .msp => 0x20000800
    | .psp => 0x20000c00
    | .pc => 0x08000100
    | .xpsr => 0x01000000
    | _ => 0
  mem a := if a < 0x400 ∨ 0x20000000 ≤ a ∧ a < 0x20001000 then some 1 else none

lemma memByte_sampleCpu (control : U32) (a : ℕ) : memByte (sampleCpu control) a =
    if a < 0x400 ∨ 0x20000000 ≤ a ∧ a < 0x20001000 then some 1 else none := rfl

lemma regRead_sampleCpu_spReg (control : U32) (b : Bool) :
    regRead (sampleCpu control) (spReg b) = if b then 0x20000c00#32 else 0x20000800#32 := by
  cases b <;> rfl

end Stm32Emulator
