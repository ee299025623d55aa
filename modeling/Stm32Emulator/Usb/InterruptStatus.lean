import Stm32Emulator.Foundation.SetBits
import Stm32Emulator.Usb.FlagLatches

/-!
# The interrupts of the USB controller

What firmware finds in an interrupt register is what has happened and has not been acknowledged
since, and the interrupt of the controller is pended by every poll that leaves such a flag unmasked.
-/

namespace Stm32Emulator

open OtgFs

variable {D W : Type}

/-! ## The flags -/

/-- The flags that firmware finds in the interrupt registers. -/
inductive UsbFlag where
  | reset
  | sof
  | xfrcIn (ep : Fin numEndpoints)
  | txfe (ep : Fin numEndpoints)
  | xfrcOut (ep : Fin numEndpoints)
  | stup (ep : Fin numEndpoints)
  deriving DecidableEq, Repr

namespace UsbFlag

def register : UsbFlag → FlagRegister
  | reset | sof => .controller
  | xfrcIn ep | txfe ep => .inEndpoint ep
  | xfrcOut ep | stup ep => .outEndpoint ep

/-- The bit of the register. -/
def index : UsbFlag → ℕ
  | reset => 12
  | sof => 3
  | xfrcIn _ | xfrcOut _ => 0
  | txfe _ => 7
  | stup _ => 3

/-- Firmware that reads the register finds the flag. -/
def Shown (flag : UsbFlag) (otg : OtgFs D) : Prop :=
  ∃ value, otg.registerRead flag.register.address = some (otg, value) ∧
    value.getLsbD flag.index = true

/-- What raises the flag. -/
def Raised (flag : UsbFlag) (s : UsbState D) (a : UsbAction W) : Prop :=
  match flag, a with
  | reset, a => busResets s a = true
  | sof, a => startsFrame s a = true
  | xfrcIn ep, .write offset value => s.1.CompletesIn ep offset value
  | txfe ep, .write offset value => s.1.DemandsWords ep offset value
  | xfrcOut ep, .read offset =>
    s.1.Pops ep offset ∧ s.1.rxStatus.headD 0 &&& rxstsPktstsMask = rxstsOutComp
  | stup ep, .read offset =>
    s.1.Pops ep offset ∧ s.1.rxStatus.headD 0 &&& rxstsPktstsMask = rxstsSetupComp
  | _, _ => False

/-- Firmware does not acknowledge the flag, and a flag of an endpoint is not wiped out by a bus
reset. -/
def Kept (flag : UsbFlag) (s : UsbState D) (a : UsbAction W) : Prop :=
  (written flag.register.address a).getLsbD flag.index = false ∧
    (flag.register = .controller ∨ busResets s a = false)

/-- Firmware has unmasked the flag. -/
def Unmasked (flag : UsbFlag) (otg : OtgFs D) : Prop :=
  match flag.register with
  | .controller => otg.globalInterruptMask.getLsbD flag.index = true
  | .inEndpoint ep =>
    otg.daintMask.getLsbD ep.val = true ∧ otg.globalInterruptMask &&& gintstsIepint ≠ 0#32
  | .outEndpoint ep =>
    otg.daintMask.getLsbD (16 + ep.val) = true ∧ otg.globalInterruptMask &&& gintstsOepint ≠ 0#32

variable {s s' : UsbState D} {a : UsbAction W}

/-- Register and bit tell the flags apart. -/
lemma eq_of_register_index {flag flag' : UsbFlag} (hregister : flag.register = flag'.register)
    (hindex : flag.index = flag'.index) : flag = flag' := by
  cases flag <;> cases flag' <;> simp_all [register, index]

lemma getLsbD_bit {bit : U32} {j : ℕ} (hbit : bit = 1#32 <<< j) (hj : j < 32) (k : ℕ) :
    bit.getLsbD k = true ↔ k = j := by
  rw [hbit, getLsbD_one_shiftLeft, decide_eq_true hj, Bool.and_true, decide_eq_true_eq]

lemma getLsbD_ite_zero (c : Prop) [Decidable c] (bit : U32) (k : ℕ) :
    (if c then bit else 0#32).getLsbD k = true ↔ c ∧ bit.getLsbD k = true := by
  split
  · next hc => rw [and_iff_right hc]
  · next hc =>
    rw [BitVec.getLsbD_zero]
    exact iff_of_false Bool.false_ne_true fun h => hc h.1

lemma getLsbD_raisedGlobal_iff (s : UsbState D) (a : UsbAction W) (k : ℕ) :
    (raisedGlobal s a).getLsbD k = true ↔
      busResets s a = true ∧ k = 12 ∨ startsFrame s a = true ∧ k = 3 := by
  rw [raisedGlobal, BitVec.getLsbD_or, Bool.or_eq_true, getLsbD_ite_zero, getLsbD_ite_zero,
    getLsbD_bit (show usbReset = 1#32 <<< 12 by decide) (by decide),
    getLsbD_bit (show gintstsSof = 1#32 <<< 3 by decide) (by decide)]

/-- A write that completes a transfer does not make the endpoint demand words. -/
lemma not_demandsWords_of_completesIn {otg : OtgFs D} {ep : Fin numEndpoints} {offset value : U32}
    (h : otg.CompletesIn ep offset value) : ¬ otg.DemandsWords ep offset value := by
  have hempmsk : fifoEndpoint diepempmsk = none := by decide
  rintro (⟨harms, hsize, -⟩ | ⟨rfl, -, -, -⟩)
  · rcases h with ⟨hfifo, -⟩ | ⟨-, hempty⟩
    · exact not_armsIn_of_fifo hfifo harms
    · exact hsize hempty
  · rcases h with ⟨hfifo, -⟩ | ⟨harms, -⟩
    · rw [hempmsk] at hfifo
      cases hfifo
    · exact ne_of_decodeEndpoint (by decide) harms.1 rfl

lemma getLsbD_raisedIn_iff (otg : OtgFs D) (d : D) (ep : Fin numEndpoints) (offset value : U32)
    (k : ℕ) :
    (raisedIn ep (otg, d) (.write offset value : UsbAction W)).getLsbD k = true ↔
      otg.CompletesIn ep offset value ∧ k = 0 ∨ otg.DemandsWords ep offset value ∧ k = 7 := by
  have hxfrc := getLsbD_bit (show diepintXfrc = 1#32 <<< 0 by decide) (by decide) k
  have htxfe := getLsbD_bit (show diepintTxfe = 1#32 <<< 7 by decide) (by decide) k
  rw [raisedIn]
  by_cases hcompletes : otg.CompletesIn ep offset value
  · rw [if_pos hcompletes, hxfrc, and_iff_right hcompletes]
    exact (or_iff_left fun h => not_demandsWords_of_completesIn hcompletes h.1).symm
  · rw [if_neg hcompletes, getLsbD_ite_zero, htxfe]
    exact (or_iff_right fun h => hcompletes h.1).symm

lemma getLsbD_completionFlag_iff (word : U32) (k : ℕ) :
    (completionFlag word).getLsbD k = true ↔
      word &&& rxstsPktstsMask = rxstsSetupComp ∧ k = 3 ∨
      word &&& rxstsPktstsMask = rxstsOutComp ∧ k = 0 := by
  have hne : rxstsSetupComp ≠ rxstsOutComp := by decide
  have hstup := getLsbD_bit (show doepintStup = 1#32 <<< 3 by decide) (by decide) k
  have hxfrc := getLsbD_bit (show doepintXfrc = 1#32 <<< 0 by decide) (by decide) k
  rw [completionFlag]
  by_cases hsetup : word &&& rxstsPktstsMask = rxstsSetupComp
  · rw [if_pos hsetup, hstup, and_iff_right hsetup]
    exact (or_iff_left fun h => hne (hsetup.symm.trans h.1)).symm
  · rw [if_neg hsetup, getLsbD_ite_zero, hxfrc]
    exact (or_iff_right fun h => hsetup h.1).symm

/-- The bits that are raised are the flags. -/
lemma getLsbD_raised_iff {r : FlagRegister} {k : ℕ} :
    (r.raised s a).getLsbD k = true ↔
      ∃ flag : UsbFlag, flag.register = r ∧ flag.index = k ∧ flag.Raised s a := by
  cases r with
  | controller =>
    rw [FlagRegister.raised, getLsbD_raisedGlobal_iff]
    constructor
    · rintro (⟨h, rfl⟩ | ⟨h, rfl⟩)
      · exact ⟨reset, rfl, rfl, h⟩
      · exact ⟨sof, rfl, rfl, h⟩
    · rintro ⟨flag, hregister, rfl, h⟩
      cases flag with
      | reset => exact Or.inl ⟨h, rfl⟩
      | sof => exact Or.inr ⟨h, rfl⟩
      | _ => cases hregister
  | inEndpoint ep =>
    constructor
    · intro h
      cases a with
      | write offset value =>
        rcases (getLsbD_raisedIn_iff (W := W) s.1 s.2 ep offset value k).mp h with ⟨hcompletes,
          rfl⟩ | ⟨hdemands, rfl⟩
        · exact ⟨xfrcIn ep, rfl, rfl, hcompletes⟩
        · exact ⟨txfe ep, rfl, rfl, hdemands⟩
      | _ => exact absurd h (by simp [FlagRegister.raised, raisedIn])
    · rintro ⟨flag, hregister, rfl, h⟩
      cases flag with
      | xfrcIn ep' =>
        cases hregister
        cases a with
        | write offset value =>
          exact (getLsbD_raisedIn_iff (W := W) s.1 s.2 ep offset value 0).mpr (Or.inl ⟨h, rfl⟩)
        | _ => exact h.elim
      | txfe ep' =>
        cases hregister
        cases a with
        | write offset value =>
          exact (getLsbD_raisedIn_iff (W := W) s.1 s.2 ep offset value 7).mpr (Or.inr ⟨h, rfl⟩)
        | _ => exact h.elim
      | _ => cases hregister
  | outEndpoint ep =>
    constructor
    · intro h
      cases a with
      | read offset =>
        obtain ⟨hpops, hflag⟩ := (getLsbD_ite_zero _ _ k).mp h
        rcases (getLsbD_completionFlag_iff _ k).mp hflag with ⟨hsetup, rfl⟩ | ⟨hout, rfl⟩
        · exact ⟨stup ep, rfl, rfl, hpops, hsetup⟩
        · exact ⟨xfrcOut ep, rfl, rfl, hpops, hout⟩
      | _ => exact absurd h (by simp [FlagRegister.raised, raisedOut])
    · rintro ⟨flag, hregister, rfl, h⟩
      cases flag with
      | stup ep' =>
        cases hregister
        cases a with
        | read offset =>
          exact (getLsbD_ite_zero _ _ 3).mpr
            ⟨h.1, (getLsbD_completionFlag_iff _ 3).mpr (Or.inl ⟨h.2, rfl⟩)⟩
        | _ => exact h.elim
      | xfrcOut ep' =>
        cases hregister
        cases a with
        | read offset =>
          exact (getLsbD_ite_zero _ _ 0).mpr
            ⟨h.1, (getLsbD_completionFlag_iff _ 0).mpr (Or.inr ⟨h.2, rfl⟩)⟩
        | _ => exact h.elim
      | _ => cases hregister

lemma getLsbD_raised_index_iff {flag : UsbFlag} :
    (flag.register.raised s a).getLsbD flag.index = true ↔ flag.Raised s a := by
  rw [getLsbD_raised_iff]
  constructor
  · rintro ⟨flag', hregister, hindex, h⟩
    rwa [← eq_of_register_index hregister hindex]
  · exact fun h => ⟨flag, rfl, rfl, h⟩

lemma getLsbD_clearedEndpoint_iff {register : U32} {k : ℕ} (hk : k < 32) :
    (clearedEndpoint register s a).getLsbD k = false ↔
      (written register a).getLsbD k = false ∧ busResets s a = false := by
  unfold clearedEndpoint
  cases hresets : busResets s a
  · rw [if_neg Bool.false_ne_true, and_iff_left rfl]
  · rw [if_pos rfl, BitVec.getLsbD_allOnes, decide_eq_true hk]
    exact iff_of_false (Ne.symm Bool.false_ne_true) fun h => Bool.false_ne_true h.2.symm

lemma getLsbD_cleared_iff (flag : UsbFlag) :
    (flag.register.cleared s a).getLsbD flag.index = false ↔ flag.Kept s a := by
  cases flag with
  | reset => exact (and_iff_left (Or.inl rfl)).symm
  | sof => exact (and_iff_left (Or.inl rfl)).symm
  | _ =>
    refine (getLsbD_clearedEndpoint_iff (by simp [index])).trans ?_
    exact and_congr_right fun _ => (or_iff_right FlagRegister.noConfusion).symm

end UsbFlag

/-! ## What firmware reads -/

namespace OtgFs

/-- A bit of the endpoint interrupts. -/
lemma getLsbD_daint_iff (otg : OtgFs D) (k : ℕ) :
    otg.daint.getLsbD k = true ↔
      ∃ ep : Fin numEndpoints, k = ep.val ∧ (otg.epIn ep).int ≠ 0#32 ∨
        k = 16 + ep.val ∧ (otg.epOut ep).int ≠ 0#32 := by
  have hone (value : U32) (c : Prop) [Decidable c] {j : ℕ} (hj : j < 32) :
      (if c then value ||| (1#32 <<< j) else value).getLsbD k = true ↔
      value.getLsbD k = true ∨ k = j ∧ c := by
    split
    · next hc =>
      rw [BitVec.getLsbD_or, getLsbD_one_shiftLeft, decide_eq_true hj, Bool.and_true,
        Bool.or_eq_true, decide_eq_true_eq, and_iff_left hc]
    · next hc => rw [or_iff_left fun h => hc h.2]
  have hfold (eps : List (Fin numEndpoints)) (value : U32) :
      (eps.foldl (fun value ep =>
        let value := if (otg.epIn ep).int ≠ 0#32 then value ||| (1#32 <<< ep.val) else value
        if (otg.epOut ep).int ≠ 0#32 then value ||| (1#32 <<< (16 + ep.val))
        else value) value).getLsbD k = true ↔
      value.getLsbD k = true ∨ ∃ ep ∈ eps, k = ep.val ∧ (otg.epIn ep).int ≠ 0#32 ∨
        k = 16 + ep.val ∧ (otg.epOut ep).int ≠ 0#32 := by
    induction eps generalizing value with
    | nil => simp
    | cons ep eps ih =>
      have hin : ep.val < 32 := ep.isLt.trans (by decide)
      have hout : 16 + ep.val < 32 := Nat.add_lt_add_left (ep.isLt.trans (show 6 < 16 by decide)) 16
      rw [List.foldl_cons, ih]
      dsimp only
      rw [hone _ _ hout, hone _ _ hin, List.exists_mem_cons_iff, or_assoc, or_assoc, or_assoc]
  rw [daint, hfold, BitVec.getLsbD_zero]
  simp

/-- A word is not zero exactly if some bit of it is set. -/
lemma ne_zero_iff_exists_getLsbD {w : ℕ} (x : BitVec w) : x ≠ 0#w ↔ ∃ k, x.getLsbD k = true := by
  constructor
  · intro h
    obtain ⟨k, hk⟩ := List.exists_mem_of_ne_nil _ (mt setBits_eq_nil_iff.mp h)
    exact ⟨k, mem_setBits.mp hk⟩
  · rintro ⟨k, hk⟩ rfl
    rw [BitVec.getLsbD_zero] at hk
    cases hk

lemma daint_in_iff (otg : OtgFs D) :
    otg.daint &&& otg.daintMask &&& 0x0000ffff#32 ≠ 0#32 ↔
      ∃ ep : Fin numEndpoints, (otg.epIn ep).int ≠ 0#32 ∧ otg.daintMask.getLsbD ep.val = true := by
  have hin : ∀ ep : Fin numEndpoints, (0x0000ffff#32).getLsbD ep.val = true := by decide
  have hout : ∀ ep : Fin numEndpoints, (0x0000ffff#32).getLsbD (16 + ep.val) = false := by decide
  rw [ne_zero_iff_exists_getLsbD]
  simp only [BitVec.getLsbD_and, Bool.and_eq_true, getLsbD_daint_iff]
  constructor
  · rintro ⟨k, ⟨⟨ep, ⟨rfl, hint⟩ | ⟨rfl, -⟩⟩, hmask⟩, hhalf⟩
    · exact ⟨ep, hint, hmask⟩
    · rw [hout] at hhalf
      cases hhalf
  · rintro ⟨ep, hint, hmask⟩
    exact ⟨ep.val, ⟨⟨ep, Or.inl ⟨rfl, hint⟩⟩, hmask⟩, hin ep⟩

lemma daint_out_iff (otg : OtgFs D) :
    otg.daint &&& otg.daintMask &&& 0xffff0000#32 ≠ 0#32 ↔
      ∃ ep : Fin numEndpoints, (otg.epOut ep).int ≠ 0#32 ∧
        otg.daintMask.getLsbD (16 + ep.val) = true := by
  have hin : ∀ ep : Fin numEndpoints, (0xffff0000#32).getLsbD ep.val = false := by decide
  have hout : ∀ ep : Fin numEndpoints, (0xffff0000#32).getLsbD (16 + ep.val) = true := by decide
  rw [ne_zero_iff_exists_getLsbD]
  simp only [BitVec.getLsbD_and, Bool.and_eq_true, getLsbD_daint_iff]
  constructor
  · rintro ⟨k, ⟨⟨ep, ⟨rfl, -⟩ | ⟨rfl, hint⟩⟩, hmask⟩, hhalf⟩
    · rw [hin] at hhalf
      cases hhalf
    · exact ⟨ep, hint, hmask⟩
  · rintro ⟨ep, hint, hmask⟩
    exact ⟨16 + ep.val, ⟨⟨ep, Or.inr ⟨rfl, hint⟩⟩, hmask⟩, hout ep⟩

/-- The bits of the interrupt status that a mask lets through: stored flags, and the three
levels. -/
lemma effectiveGintsts_and_ne_zero_iff (otg : OtgFs D) (mask : U32) :
    otg.effectiveGintsts &&& mask ≠ 0#32 ↔
      otg.globalInterruptStatus &&& mask ≠ 0#32 ∨ otg.rxStatus ≠ [] ∧
      mask &&& gintstsRxflvl ≠ 0#32 ∨
        (∃ ep : Fin numEndpoints, (otg.epIn ep).int ≠ 0#32 ∧ otg.daintMask.getLsbD ep.val = true) ∧
          mask &&& gintstsIepint ≠ 0#32 ∨
        (∃ ep : Fin numEndpoints, (otg.epOut ep).int ≠ 0#32 ∧
          otg.daintMask.getLsbD (16 + ep.val) = true) ∧
          mask &&& gintstsOepint ≠ 0#32 := by
  have hlevel (status bit : U32) (c : Prop) [Decidable c] :
      (if c then status ||| bit else status) &&& mask ≠ 0#32 ↔
      status &&& mask ≠ 0#32 ∨ c ∧ mask &&& bit ≠ 0#32 := by
    split
    · next hc =>
      rw [and_iff_right hc, ne_zero_iff_exists_getLsbD, ne_zero_iff_exists_getLsbD,
        ne_zero_iff_exists_getLsbD, ← exists_or]
      refine exists_congr fun k => ?_
      simp only [BitVec.getLsbD_and, BitVec.getLsbD_or, Bool.and_eq_true, Bool.or_eq_true]
      tauto
    · next hc => simp [hc]
  unfold effectiveGintsts
  dsimp only
  rw [hlevel, hlevel, hlevel, daint_in_iff, daint_out_iff, or_assoc, or_assoc]

/-- The flags of the controller are read as they are stored. -/
lemma getLsbD_effectiveGintsts_iff (otg : OtgFs D) {k : ℕ} (hk : k = 3 ∨ k = 12) :
    otg.effectiveGintsts.getLsbD k = true ↔ otg.globalInterruptStatus.getLsbD k = true := by
  have hlt : k < 32 := by omega
  have hbit := effectiveGintsts_and_ne_zero_iff otg (1#32 <<< k)
  rw [and_one_shiftLeft_ne_zero_iff, and_one_shiftLeft_ne_zero_iff] at hbit
  have hlevels : (1#32 <<< k) &&& gintstsRxflvl = 0#32 ∧ (1#32 <<< k) &&& gintstsIepint = 0#32 ∧
      (1#32 <<< k) &&& gintstsOepint = 0#32 := by
    rcases hk with rfl | rfl <;> decide
  rw [hbit, hlevels.1, hlevels.2.1, hlevels.2.2]
  simp

lemma registerRead_doepint (otg : OtgFs D) (ep : Fin numEndpoints) :
    otg.registerRead (doepintOffset ep) = some (otg, (otg.epOut ep).int) := by
  have hdecode : decodeEndpoint doepBase (doepintOffset ep) = some (ep, epIntOffset) :=
    eq_doepintOffset_iff.mp rfl
  have hdiep : decodeEndpoint diepBase (doepintOffset ep) = none := by
    revert ep
    decide
  unfold registerRead
  rw [fifoEndpoint_eq_none_of_decodeEndpoint le_rfl hdecode, hdiep, hdecode]
  rfl

end OtgFs

namespace UsbFlag

/-- What firmware finds is what is stored. -/
lemma shown_iff {flag : UsbFlag} {otg : OtgFs D} :
    flag.Shown otg ↔ (flag.register.flags otg).getLsbD flag.index = true := by
  have hread {value : U32} (h : otg.registerRead flag.register.address = some (otg, value)) :
      flag.Shown otg ↔ value.getLsbD flag.index = true := by
    simp only [Shown, h, Option.some.injEq, Prod.mk.injEq, true_and, exists_eq_left']
  cases flag with
  | reset => exact (hread rfl).trans (getLsbD_effectiveGintsts_iff otg (Or.inr rfl))
  | sof => exact (hread rfl).trans (getLsbD_effectiveGintsts_iff otg (Or.inl rfl))
  | xfrcIn ep => exact hread (registerRead_diepint otg ep)
  | txfe ep => exact hread (registerRead_diepint otg ep)
  | xfrcOut ep => exact hread (registerRead_doepint otg ep)
  | stup ep => exact hread (registerRead_doepint otg ep)

end UsbFlag

/-! ## Whole runs -/

section

variable {move : W → D → D} {bridge : Option (UsbBridge D)} {d : D} {as : List (UsbAction W)}
    {s : UsbState D}

/-- The stored bits of a run from power-on. -/
lemma FlagRegister.getLsbD_flags_iff (hrun : Run (stepRel (usbStep move))
    (OtgFs.new bridge, d) as s) (r : FlagRegister) (k : ℕ) :
    (r.flags s.1).getLsbD k = true ↔
      HeldSince (fun s a => (r.raised s a).getLsbD k = true)
        (fun s a => (r.cleared s a).getLsbD k = false)
        (stepRel (usbStep move)) (OtgFs.new bridge, d) as s := by
  refine hrun.getLsbD_latch_iff (fun s => r.flags s.1) (fun s a => r.cleared s a)
    (fun s a => r.raised s a) ?_ ?_ k
  · cases r <;> rfl
  · exact fun s s' a hstep => FlagRegister.flags_usbStep hstep r

/-- Only flags are ever stored. -/
lemma UsbFlag.exists_of_flags (hrun : Run (stepRel (usbStep move)) (OtgFs.new bridge, d) as s)
    {r : FlagRegister} {k : ℕ} (h : (r.flags s.1).getLsbD k = true) :
    ∃ flag : UsbFlag, flag.register = r ∧ flag.index = k ∧ flag.Shown s.1 := by
  obtain ⟨_, _, _, _, _, -, -, hraised, -, -⟩ := (r.getLsbD_flags_iff hrun k).mp h
  obtain ⟨flag, rfl, rfl, -⟩ := getLsbD_raised_iff.mp hraised
  exact ⟨flag, rfl, rfl, shown_iff.mpr h⟩

/-- The interrupt line: packets for firmware, or a flag, of which it has unmasked the interrupt. -/
lemma interruptPending_iff (hrun : Run (stepRel (usbStep move)) (OtgFs.new bridge, d) as s) :
    s.1.interruptPending = true ↔
      s.1.rxStatus ≠ [] ∧ s.1.globalInterruptMask &&& gintstsRxflvl ≠ 0#32 ∨
        ∃ flag : UsbFlag, flag.Shown s.1 ∧ flag.Unmasked s.1 := by
  have hbank (r : FlagRegister) : r.flags s.1 ≠ 0#32 ↔
      ∃ flag : UsbFlag, flag.register = r ∧ flag.Shown s.1 := by
    rw [ne_zero_iff_exists_getLsbD]
    constructor
    · rintro ⟨k, hk⟩
      obtain ⟨flag, hregister, -, hshown⟩ := UsbFlag.exists_of_flags hrun hk
      exact ⟨flag, hregister, hshown⟩
    · rintro ⟨flag, rfl, hshown⟩
      exact ⟨flag.index, UsbFlag.shown_iff.mp hshown⟩
  rw [interruptPending, bne_iff_ne, effectiveGintsts_and_ne_zero_iff]
  constructor
  · rintro (h | h | ⟨⟨ep, hint, hmask⟩, hline⟩ | ⟨⟨ep, hint, hmask⟩, hline⟩)
    · obtain ⟨k, hk⟩ := (ne_zero_iff_exists_getLsbD _).mp h
      obtain ⟨hflag, hmask⟩ := Bool.and_eq_true_iff.mp ((BitVec.getLsbD_and ..).symm.trans hk)
      obtain ⟨flag, hregister, rfl, hshown⟩ := UsbFlag.exists_of_flags hrun (r := .controller) hflag
      refine Or.inr ⟨flag, hshown, ?_⟩
      rw [UsbFlag.Unmasked, hregister]
      exact hmask
    · exact Or.inl h
    · obtain ⟨flag, hregister, hshown⟩ := (hbank (.inEndpoint ep)).mp hint
      refine Or.inr ⟨flag, hshown, ?_⟩
      rw [UsbFlag.Unmasked, hregister]
      exact ⟨hmask, hline⟩
    · obtain ⟨flag, hregister, hshown⟩ := (hbank (.outEndpoint ep)).mp hint
      refine Or.inr ⟨flag, hshown, ?_⟩
      rw [UsbFlag.Unmasked, hregister]
      exact ⟨hmask, hline⟩
  · rintro (h | ⟨flag, hshown, hunmasked⟩)
    · exact Or.inr (Or.inl h)
    rw [UsbFlag.Unmasked] at hunmasked
    rcases hregister : flag.register with _ | ep | ep
    · rw [hregister] at hunmasked
      have hflag := UsbFlag.shown_iff.mp hshown
      rw [hregister] at hflag
      refine Or.inl ((ne_zero_iff_exists_getLsbD _).mpr ⟨flag.index, ?_⟩)
      exact (BitVec.getLsbD_and ..).trans (Bool.and_eq_true_iff.mpr ⟨hflag, hunmasked⟩)
    · rw [hregister] at hunmasked
      exact Or.inr
        (Or.inr (Or.inl ⟨⟨ep, (hbank (.inEndpoint ep)).mpr ⟨flag, hregister, hshown⟩, hunmasked.1⟩,
        hunmasked.2⟩))
    · rw [hregister] at hunmasked
      exact Or.inr
        (Or.inr (Or.inr ⟨⟨ep, (hbank (.outEndpoint ep)).mpr ⟨flag, hregister, hshown⟩, hunmasked.1⟩,
        hunmasked.2⟩))

/-- **Firmware sees what has happened, and is interrupted for it.**  In every run from power-on a
flag is found in its register exactly if it has been raised and has been kept since; and a poll
pends the interrupt of the controller, and no other, exactly if afterwards a packet waits or a flag
is found of which firmware has unmasked the interrupt. -/
theorem usb_interrupts_exact (hrun : Run (stepRel (usbStep move)) (OtgFs.new bridge, d) as s) :
    (∀ flag : UsbFlag, flag.Shown s.1 ↔
      HeldSince flag.Raised flag.Kept (stepRel (usbStep move)) (OtgFs.new bridge, d) as s) ∧
    ∀ nvic n otg d' nvic', s.1.poll s.2 nvic n = some (otg, d', nvic') → ∀ irq,
      (nvic'.isPending irq = true ↔ nvic.isPending irq = true ∨ irq = 67 ∧
        (otg.rxStatus ≠ [] ∧ otg.globalInterruptMask &&& gintstsRxflvl ≠ 0#32 ∨
          ∃ flag : UsbFlag, flag.Shown otg ∧ flag.Unmasked otg)) := by
  refine ⟨fun flag => ?_, fun nvic n otg d' nvic' hpoll irq => ?_⟩
  · have hraised : (fun (s : UsbState D) (a : UsbAction W) =>
        (flag.register.raised s a).getLsbD flag.index = true) = flag.Raised :=
      funext₂ fun s a => propext UsbFlag.getLsbD_raised_index_iff
    have hkept : (fun (s : UsbState D) (a : UsbAction W) =>
        (flag.register.cleared s a).getLsbD flag.index = false) = flag.Kept :=
      funext₂ fun s a => propext (UsbFlag.getLsbD_cleared_iff flag)
    rw [UsbFlag.shown_iff, FlagRegister.getLsbD_flags_iff hrun, hraised, hkept]
  · have hstep : usbStep move s (.poll nvic n) = some (otg, d') := by
      rw [usbStep, hpoll]
      rfl
    rw [← interruptPending_iff (hrun.snoc hstep)]
    exact isPending_poll hpoll irq

/-- Firmware unmasks the interrupts of OUT endpoint 0, and takes a SETUP packet out of the status
queue. -/
def sampleSetupPacket : List (UsbAction Unit) :=
  [.write 0x81c 0x10000, .write 0x18 0x80000, .setup 0 ⟨[0x80, 6, 0, 1, 0, 0, 18, 0], rfl⟩,
    .read grxstsp, .read grxstsp]

/-- The end of the packet is shown, and interrupts firmware with the next poll. -/
theorem usb_interrupts_exact_sample :
    ∃ s : UsbState Unit, Run (stepRel (usbStep fun _ d => d))
      (OtgFs.new none, ()) sampleSetupPacket s ∧
      HeldSince (UsbFlag.stup 0).Raised (UsbFlag.stup 0).Kept (stepRel (usbStep fun _ d => d))
        (OtgFs.new none, ()) sampleSetupPacket s ∧
      ∀ r, s.1.poll s.2 Nvic.default 0 = some r → r.2.2.isPending 67 = true := by
  have hexec : (sampleSetupPacket.foldlM (usbStep fun (_ : Unit) d => d) (OtgFs.new none, ())).map
      (fun s => ((s.1.epOut 0).int, (s.1.poll s.2 Nvic.default 0).map fun r => (r.1.epOut 0).int,
        (s.1.poll s.2 Nvic.default 0).map fun r => (r.1.daintMask, r.1.globalInterruptMask))) =
      some (8#32, some 8#32, some (0x10000#32, 0x80000#32)) := by
    decide +kernel
  obtain ⟨s, hexec, hvalues⟩ := Option.map_eq_some_iff.mp hexec
  obtain ⟨hint, hvalues⟩ := Prod.mk.inj hvalues
  obtain ⟨hpolled, hmasks⟩ := Prod.mk.inj hvalues
  have hrun := Run.of_foldlM hexec
  have hexact := usb_interrupts_exact hrun
  have hstored : (s.1.epOut 0).int.getLsbD 3 = true := by
    rw [hint]
    decide
  refine ⟨s, hrun, (hexact.1 (.stup 0)).mp (UsbFlag.shown_iff.mpr hstored), fun r hpoll => ?_⟩
  rw [hpoll] at hpolled hmasks
  refine (hexact.2 Nvic.default 0 r.1 r.2.1 r.2.2 hpoll 67).mpr
    (Or.inr ⟨rfl, Or.inr ⟨.stup 0, ?_, ?_⟩⟩)
  · have hint : (r.1.epOut 0).int = 8#32 := Option.some.inj hpolled
    refine UsbFlag.shown_iff.mpr (show (r.1.epOut 0).int.getLsbD 3 = true from ?_)
    rw [hint]
    decide
  · obtain ⟨hdaint, hgint⟩ := Prod.mk.inj (Option.some.inj hmasks)
    refine ⟨?_, ?_⟩
    · rw [hdaint]
      decide
    · rw [hgint]
      decide

end

end Stm32Emulator
