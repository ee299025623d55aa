import Stm32Emulator.Usb.InterruptStatus
import Stm32Emulator.Usb.Lanes

/-!
# Flags of the other USB registers

A write to one register may change flags that stand in others.  A word for a FIFO ends a transfer
and disarms the endpoint, an armed transfer raises an interrupt, the host sends packets, and the
registers that sum up the interrupts follow them.  `Quiet` says of a write that it does none of
this, and a write keeps the flags of all other registers exactly when it is quiet.
-/

namespace Stm32Emulator

open Function

namespace OtgFs

variable {D : Type}

/-- The flags of a register as firmware reads them, the levels of the interrupt status among
them. -/
def flags (otg : OtgFs D) (offset : U32) : U32 :=
  if offset = gintsts then otg.effectiveGintsts else otg.word offset

/-- The write changes no flag of another register. -/
structure Quiet (otg : OtgFs D) (d : D) (offset value : U32) : Prop where
  /-- No transfer ends with a word for its FIFO, which would disarm the endpoint. -/
  fifo : ∀ ep, fifoEndpoint offset = some ep → ¬ otg.CompletesIn ep offset value
  /-- What is raised at an IN endpoint is up already. -/
  raises : ∀ ep, raisedIn ep (otg, d) (.write offset value : UsbAction Unit) &&&
    ~~~(otg.epIn ep).int = 0#32
  /-- The host sends nothing while no packet waits. -/
  sends : otg.rxStatus = [] → hostPackets (otg, d) (.write offset value : UsbAction Unit) = []
  /-- The last interrupt of an endpoint is not acknowledged: `DAINT` would follow. -/
  epIn : ∀ ep, decodeEndpoint diepBase offset = some (ep, epIntOffset) →
    (otg.epIn ep).int ≠ 0#32 → (otg.epIn ep).int &&& ~~~value ≠ 0#32
  epOut : ∀ ep, decodeEndpoint doepBase offset = some (ep, epIntOffset) →
    (otg.epOut ep).int ≠ 0#32 → (otg.epOut ep).int &&& ~~~value ≠ 0#32
  /-- A new mask of the endpoint interrupts leaves the interrupt status as it is. -/
  daintmsk : offset = OtgFs.daintmsk →
    { otg with daintMask := value }.effectiveGintsts = otg.effectiveGintsts

/-! ## Flags by address -/

/-- The word of an endpoint register. -/
def regWord (regs : EndpointRegs) (reg : ℕ) : U32 :=
  if reg = epCtlOffset then regs.ctl
  else if reg = epIntOffset then regs.int
  else if reg = epTsizOffset then regs.tsiz
  else 0#32

lemma regWord_congr {regs regs' : EndpointRegs} {reg : ℕ}
    (hctl : reg = epCtlOffset → regs'.ctl = regs.ctl)
    (hint : reg = epIntOffset → regs'.int = regs.int)
    (htsiz : reg = epTsizOffset → regs'.tsiz = regs.tsiz) : regWord regs' reg = regWord regs reg :=
  ite_congr rfl hctl fun _ => ite_congr rfl hint fun _ => ite_congr rfl htsiz fun _ => rfl

section Addresses

variable {offset : U32} {ep : Fin numEndpoints} {reg : ℕ}

lemma flags_diep (h : decodeEndpoint diepBase offset = some (ep, reg)) (otg : OtgFs D) :
    otg.flags offset =
      if reg = dtxfstsOffset then dtxfstsAvailableWords else regWord (otg.epIn ep) reg := by
  obtain ⟨hfifo, hpop, hstatus⟩ := plain_of_decodeEndpoint (by decide) h
  rw [flags, if_neg hstatus, word_of_registerRead hfifo hpop hstatus (otg.registerRead_diep h),
    regWord]
  split_ifs <;> simp_all

lemma flags_doep (h : decodeEndpoint doepBase offset = some (ep, reg)) (otg : OtgFs D) :
    otg.flags offset = regWord (otg.epOut ep) reg := by
  obtain ⟨hfifo, hpop, hstatus⟩ := plain_of_decodeEndpoint (by decide) h
  have hdiep : decodeEndpoint diepBase offset = none := by
    by_contra hsome
    obtain ⟨⟨ep', reg'⟩, hr⟩ := Option.ne_none_iff_exists'.mp hsome
    cases h.symm.trans (decodeEndpoint_doepBase_of_diepBase hr)
  rw [flags, if_neg hstatus,
    word_of_registerRead hfifo hpop hstatus (otg.registerRead_doep hdiep h), regWord]

lemma flags_gintsts (otg : OtgFs D) : otg.flags gintsts = otg.effectiveGintsts := if_pos rfl

lemma flags_grxstsr (otg : OtgFs D) : otg.flags grxstsr = otg.rxStatus.headD 0 := rfl

lemma flags_daint (otg : OtgFs D) : otg.flags daintOffset = otg.daint := rfl

end Addresses

/-! ## Levels -/

/-- The levels in the interrupt status: a packet waits, or an unmasked endpoint has an interrupt. -/
def levels (otg : OtgFs D) : U32 :=
  (if otg.rxStatus ≠ [] then gintstsRxflvl else 0#32) |||
    (if otg.daint &&& otg.daintMask &&& 0x0000ffff#32 ≠ 0#32 then gintstsIepint else 0#32) |||
    if otg.daint &&& otg.daintMask &&& 0xffff0000#32 ≠ 0#32 then gintstsOepint else 0#32

lemma effectiveGintsts_eq (otg : OtgFs D) :
    otg.effectiveGintsts = otg.globalInterruptStatus ||| otg.levels := by
  unfold effectiveGintsts levels
  dsimp only
  split_ifs <;> simp only [BitVec.or_assoc, BitVec.or_zero, BitVec.zero_or]

/-- `DAINT` shows which endpoints have an interrupt. -/
lemma daint_congr {otg otg' : OtgFs D}
    (hin : ∀ ep, (otg'.epIn ep).int = 0#32 ↔ (otg.epIn ep).int = 0#32)
    (hout : ∀ ep, (otg'.epOut ep).int = 0#32 ↔ (otg.epOut ep).int = 0#32) :
    otg'.daint = otg.daint := by
  apply BitVec.eq_of_getLsbD_eq
  intro k _
  rw [Bool.eq_iff_iff, getLsbD_daint_iff, getLsbD_daint_iff]
  simp only [ne_eq, hin, hout]

/-- What the flags of a register depend on beyond the endpoint registers and the status queue. -/
structure SameGlobals (otg otg' : OtgFs D) (o : U32) : Prop where
  registers : otg'.registers o = otg.registers o
  status : o = gintsts → otg'.globalInterruptStatus = otg.globalInterruptStatus
  mask : o = gintmsk → otg'.globalInterruptMask = otg.globalInterruptMask
  dcfg : o = dcfgOffset → otg'.dcfg = otg.dcfg
  dctl : o = dctlOffset → otg'.dctl = otg.dctl
  diepMask : o = diepmsk → otg'.diepMask = otg.diepMask
  doepMask : o = doepmsk → otg'.doepMask = otg.doepMask
  daintMask : o = OtgFs.daintmsk ∨ o = gintsts → otg'.daintMask = otg.daintMask
  diepEmptyMask : o = diepempmsk → otg'.diepEmptyMask = otg.diepEmptyMask

/-- What stays the same of the endpoints as a whole, and of the status queue. -/
structure SameSummary (otg otg' : OtgFs D) : Prop where
  epIn : ∀ ep, (otg'.epIn ep).int = 0#32 ↔ (otg.epIn ep).int = 0#32
  epOut : ∀ ep, (otg'.epOut ep).int = 0#32 ↔ (otg.epOut ep).int = 0#32
  waits : otg'.rxStatus = [] ↔ otg.rxStatus = []
  head : otg'.rxStatus.headD 0 = otg.rxStatus.headD 0

section Congruence

variable {otg otg' : OtgFs D}

lemma SameSummary.daint (h : SameSummary otg otg') : otg'.daint = otg.daint :=
  daint_congr h.epIn h.epOut

lemma SameSummary.levels (h : SameSummary otg otg') (hmask : otg'.daintMask = otg.daintMask) :
    otg'.levels = otg.levels := by
  unfold OtgFs.levels
  rw [h.daint, hmask]
  simp only [ne_eq, h.waits]

/-- The word of a register past the endpoint banks. -/
def globalWord (otg : OtgFs D) (offset : U32) : U32 :=
  if offset = grstctl then otg.registers offset ||| 0x80000000#32
  else if offset = gintmsk then otg.globalInterruptMask
  else if offset = grxstsr then otg.rxStatus.headD 0
  else if offset = dcfgOffset then otg.dcfg
  else if offset = dctlOffset then otg.dctl
  else if offset = diepmsk then otg.diepMask
  else if offset = doepmsk then otg.doepMask
  else if offset = daintOffset then otg.daint
  else if offset = OtgFs.daintmsk then otg.daintMask
  else if offset = diepempmsk then otg.diepEmptyMask
  else otg.registers offset

lemma registerRead_global {offset : U32} (hfifo : fifoEndpoint offset = none)
    (hdiep : decodeEndpoint diepBase offset = none) (hdoep : decodeEndpoint doepBase offset = none)
    (hpop : offset ≠ grxstsp) (hstatus : offset ≠ gintsts) :
    (otg.registerRead offset).map (fun r => r.2) = some (otg.globalWord offset) := by
  unfold registerRead globalWord
  rw [hfifo, hdiep, hdoep]
  dsimp only
  rw [if_neg hstatus, if_neg hpop]
  simp only [← apply_ite some, ← apply_ite (Prod.mk otg), Option.map_some]

lemma globalWord_congr {o : U32} (hglobals : SameGlobals otg otg' o)
    (hsummary : SameSummary otg otg') : otg'.globalWord o = otg.globalWord o := by
  unfold globalWord
  rw [hglobals.registers, hsummary.head, hsummary.daint]
  refine ite_congr rfl (fun _ => rfl) fun _ => ite_congr rfl hglobals.mask fun _ => ?_
  refine ite_congr rfl (fun _ => rfl) fun _ => ite_congr rfl hglobals.dcfg fun _ => ?_
  refine ite_congr rfl hglobals.dctl fun _ => ite_congr rfl hglobals.diepMask fun _ => ?_
  refine ite_congr rfl hglobals.doepMask fun _ => ite_congr rfl (fun _ => rfl) fun _ => ?_
  refine ite_congr rfl (fun h => hglobals.daintMask (Or.inl h)) fun _ => ?_
  exact ite_congr rfl hglobals.diepEmptyMask fun _ => rfl

/-- A flag that is not in an endpoint register changes only with what it depends on. -/
lemma flags_congr {o : U32} (hglobals : SameGlobals otg otg' o) (hsummary : SameSummary otg otg')
    (hin : ∀ ep reg, decodeEndpoint diepBase o = some (ep, reg) →
      regWord (otg'.epIn ep) reg = regWord (otg.epIn ep) reg)
    (hout : ∀ ep reg, decodeEndpoint doepBase o = some (ep, reg) →
      regWord (otg'.epOut ep) reg = regWord (otg.epOut ep) reg) :
    otg'.flags o = otg.flags o := by
  cases hdiep : decodeEndpoint diepBase o with
  | some r => rw [flags_diep hdiep, flags_diep hdiep, hin _ _ hdiep]
  | none =>
  cases hdoep : decodeEndpoint doepBase o with
  | some r => rw [flags_doep hdoep, flags_doep hdoep, hout _ _ hdoep]
  | none =>
  by_cases hstatus : o = gintsts
  · subst hstatus
    rw [flags_gintsts, flags_gintsts, effectiveGintsts_eq, effectiveGintsts_eq,
      hglobals.status rfl, hsummary.levels (hglobals.daintMask (Or.inr rfl))]
  rw [flags, flags, if_neg hstatus, if_neg hstatus, word, word]
  by_cases hwindow : (fifoEndpoint o).isSome ∨ o = grxstsp
  · rw [if_pos hwindow, if_pos hwindow]
  rw [if_neg hwindow, if_neg hwindow, if_neg hstatus, if_neg hstatus]
  obtain ⟨hfifo, hpop⟩ := not_or.mp hwindow
  have hfifo : fifoEndpoint o = none := by simpa using hfifo
  rw [registerRead_global hfifo hdiep hdoep hpop hstatus,
    registerRead_global hfifo hdiep hdoep hpop hstatus, globalWord_congr hglobals hsummary]

end Congruence

/-! ## What a write changes -/

section Writes

variable {otg : OtgFs D} {r : OtgFs D × D} {d : D} {offset value : U32}

lemma decodeEndpoint_injective {base : ℕ} {o o' : U32} {ep : Fin numEndpoints} {reg : ℕ}
    (h : decodeEndpoint base o = some (ep, reg)) (h' : decodeEndpoint base o' = some (ep, reg)) :
    o = o' := by
  rw [decodeEndpoint_eq_some_iff] at h h'
  exact BitVec.eq_of_toNat_eq (h.1.trans h'.1.symm)

/-- A quiet write raises nothing at an IN endpoint, and acknowledges at most some of what is up. -/
lemma Quiet.int_epIn (hquiet : otg.Quiet d offset value)
    (h : otg.registerWrite d offset value = some r) (ep : Fin numEndpoints) :
    (r.1.epIn ep).int = if decodeEndpoint diepBase offset = some (ep, epIntOffset) then
      (otg.epIn ep).int &&& ~~~value else (otg.epIn ep).int := by
  have hlatch := latchesIn_registerWrite h ep
  rw [LatchesIn, written_diepint] at hlatch
  rw [hlatch]
  split
  · next hdecode =>
    have hctl : ∀ ep', decodeEndpoint diepBase offset ≠ some (ep', epCtlOffset) := by
      intro ep' hep'
      have hreg := congrArg Prod.snd (Option.some.inj (hdecode.symm.trans hep'))
      exact absurd hreg (show epIntOffset ≠ epCtlOffset by decide)
    rw [raisedIn_of_other (fifoEndpoint_eq_none_of_decodeEndpoint (by decide) hdecode) hctl
      (ne_of_decodeEndpoint (by decide) hdecode), latch_cleared]
  · rw [latch_raised]
    apply BitVec.eq_of_getLsbD_eq
    intro k _
    have hup := (and_not_eq_zero_iff _ _).mp (hquiet.raises ep) k
    rw [BitVec.getLsbD_or]
    cases hbit : (raisedIn ep (otg, d) (.write offset value : UsbAction Unit)).getLsbD k
    · rw [Bool.or_false]
    · rw [Bool.or_true, hup hbit]

lemma int_epOut (h : otg.registerWrite d offset value = some r) (ep : Fin numEndpoints) :
    (r.1.epOut ep).int = if decodeEndpoint doepBase offset = some (ep, epIntOffset) then
      (otg.epOut ep).int &&& ~~~value else (otg.epOut ep).int := by
  have hwritten : written (doepintOffset ep) (.write offset value : UsbAction Unit) =
      if decodeEndpoint doepBase offset = some (ep, epIntOffset) then value else 0#32 :=
    if_congr eq_doepintOffset_iff rfl rfl
  rw [int_registerWrite_out (W := Unit) h, hwritten]
  split
  · rfl
  · rw [BitVec.not_zero, BitVec.and_allOnes]

/-- Clearing bits leaves zero exactly where it did before. -/
lemma and_not_eq_zero_iff_of {x value : U32} (h : x ≠ 0#32 → x &&& ~~~value ≠ 0#32) :
    x &&& ~~~value = 0#32 ↔ x = 0#32 := by
  constructor
  · intro hcleared
    by_contra hx
    exact h hx hcleared
  · rintro rfl
    exact BitVec.zero_and

/-- A quiet write leaves the sums of the interrupts, and what firmware sees of the status queue. -/
lemma Quiet.sameSummary (hquiet : otg.Quiet d offset value)
    (h : otg.registerWrite d offset value = some r) : SameSummary otg r.1 where
  epIn := by
    intro ep
    rw [hquiet.int_epIn h]
    split
    · next hdecode => exact and_not_eq_zero_iff_of (hquiet.epIn ep hdecode)
    · rfl
  epOut := by
    intro ep
    rw [int_epOut h]
    split
    · next hdecode => exact and_not_eq_zero_iff_of (hquiet.epOut ep hdecode)
    · rfl
  waits := by
    rw [(Queues.registerWrite (W := Unit) (registerWrite_cases h)).status]
    by_cases hempty : otg.rxStatus = []
    · rw [hquiet.sends hempty, hempty]
      rfl
    · simp [hempty]
  head := by
    rw [(Queues.registerWrite (W := Unit) (registerWrite_cases h)).status]
    cases hstatus : otg.rxStatus with
    | nil =>
      rw [hquiet.sends hstatus]
      rfl
    | cons => rfl

lemma SameGlobals.refl (otg : OtgFs D) (o : U32) : SameGlobals otg otg o :=
  ⟨rfl, fun _ => rfl, fun _ => rfl, fun _ => rfl, fun _ => rfl, fun _ => rfl, fun _ => rfl,
    fun _ => rfl, fun _ => rfl⟩

/-- The end of a transfer concerns the endpoint, the queues and the host. -/
lemma sameGlobals_completeInTransfer (otg : OtgFs D) (d : D) (ep : Fin numEndpoints) (o : U32) :
    SameGlobals otg (otg.completeInTransfer d ep).1 o := by
  by_cases hep : ep = 0
  · subst hep
    obtain ⟨_, ⟨_, _, rfl⟩, heq⟩ := completeInTransfer_zero otg d
    rw [heq]
    exact { SameGlobals.refl otg o with }
  · obtain ⟨_, _, _, heq, -⟩ := completeInTransfer_of_ne otg d hep
    rw [heq]
    exact { SameGlobals.refl otg o with }

/-- A write past the endpoint banks replaces the word of its register. -/
lemma sameGlobals_global {o : U32} (h : otg.registerWrite d offset value = some r)
    (hfifo : fifoEndpoint offset = none) (hdiep : decodeEndpoint diepBase offset = none)
    (hdoep : decodeEndpoint doepBase offset = none) (ho : o ≠ offset)
    (hsums : ¬ (offset = OtgFs.daintmsk ∧ o = gintsts)) : SameGlobals otg r.1 o := by
  unfold registerWrite at h
  rw [hfifo, hdiep, hdoep] at h
  dsimp only at h
  have hstored : ∀ x, SameGlobals otg (otg.insertRegister offset x) o := fun x =>
    { SameGlobals.refl otg o with registers := update_of_ne ho _ _ }
  by_cases hstatus : offset = gintsts
  · subst hstatus
    cases h
    exact { SameGlobals.refl otg o with status := fun heq => absurd heq ho }
  by_cases hmask : offset = gintmsk
  · subst hmask
    cases h
    exact { SameGlobals.refl otg o with mask := fun heq => absurd heq ho }
  by_cases hgrstctl : offset = grstctl
  · subst hgrstctl
    cases h
    exact hstored _
  by_cases hdcfg : offset = dcfgOffset
  · subst hdcfg
    cases h
    exact { SameGlobals.refl otg o with dcfg := fun heq => absurd heq ho }
  by_cases hdctl : offset = dctlOffset
  · subst hdctl
    cases h
    exact { SameGlobals.refl otg o with dctl := fun heq => absurd heq ho }
  by_cases hdiepmsk : offset = diepmsk
  · subst hdiepmsk
    cases h
    exact { SameGlobals.refl otg o with diepMask := fun heq => absurd heq ho }
  by_cases hdoepmsk : offset = doepmsk
  · subst hdoepmsk
    cases h
    exact { SameGlobals.refl otg o with doepMask := fun heq => absurd heq ho }
  by_cases hdaintmsk : offset = OtgFs.daintmsk
  · subst hdaintmsk
    cases h
    refine { SameGlobals.refl otg o with daintMask := ?_ }
    rintro (heq | heq)
    · exact absurd heq ho
    · exact absurd ⟨rfl, heq⟩ hsums
  by_cases hdiepempmsk : offset = diepempmsk
  · subst hdiepempmsk
    cases h
    exact { SameGlobals.refl otg o with diepEmptyMask := fun heq => absurd heq ho }
  · simp only [hstatus, hmask, hgrstctl, hdcfg, hdctl, hdiepmsk, hdoepmsk, hdaintmsk, hdiepempmsk,
      if_false] at h
    cases h
    exact hstored _

lemma sameGlobals_registerWrite {o : U32} (h : otg.registerWrite d offset value = some r)
    (ho : o ≠ offset) (hsums : ¬ (offset = OtgFs.daintmsk ∧ o = gintsts)) :
    SameGlobals otg r.1 o := by
  cases registerWrite_cases h with
  | @fifo ep _ hfifo hpush =>
    rw [pushTxFifoWord_eq_some hpush]
    split
    · exact { sameGlobals_completeInTransfer ((otg.pushed ep value).disarm ep) d ep o with }
    · exact { SameGlobals.refl otg o with }
  | @diepctl ep hfifo hdecode =>
    by_cases hempty : (value &&& diepctlEpena ≠ 0#32 ∧ ¬ otg.InArmed ep) ∧ otg.inXfrsiz ep = 0
    · rw [writeDiepctl_of_empty hempty.1 hempty.2]
      exact { sameGlobals_completeInTransfer ((otg.enabled ep value).disarm ep) d ep o with }
    · obtain ⟨f, heq, -⟩ := writeDiepctl_of_not_empty hempty d
      rw [heq]
      exact { SameGlobals.refl otg o with }
  | diep => exact { SameGlobals.refl otg o with }
  | @doepctl ep =>
    obtain ⟨_, _, heq⟩ := queuesOnly_writeDoepctl otg ep value
    rw [heq]
    exact { SameGlobals.refl otg o with }
  | doep => exact { SameGlobals.refl otg o with }
  | global hfifo hdiep hdoep => exact sameGlobals_global h hfifo hdiep hdoep ho hsums

lemma regWord_modifyIn {ep ep' : Fin numEndpoints} {reg : ℕ} {f : EndpointRegs → EndpointRegs}
    (hf : ep = ep' → ∀ regs, regWord (f regs) reg = regWord regs reg) (otg : OtgFs D) :
    regWord ((otg.modifyIn ep' f).epIn ep) reg = regWord (otg.epIn ep) reg := by
  by_cases hep : ep = ep'
  · subst hep
    rw [epIn_modifyIn, hf rfl]
  · rw [epIn_modifyIn_of_ne hep]

lemma regWord_modifyOut {ep ep' : Fin numEndpoints} {reg : ℕ} {f : EndpointRegs → EndpointRegs}
    (hf : ep = ep' → ∀ regs, regWord (f regs) reg = regWord regs reg) (otg : OtgFs D) :
    regWord ((otg.modifyOut ep' f).epOut ep) reg = regWord (otg.epOut ep) reg := by
  by_cases hep : ep = ep'
  · subst hep
    rw [epOut_modifyOut, hf rfl]
  · rw [epOut_modifyOut_of_ne hep]

/-- The end of a transfer raises an interrupt and changes no other register. -/
lemma regWord_completeInTransfer {reg : ℕ} (hreg : reg ≠ epIntOffset) (otg : OtgFs D) (d : D)
    (ep ep' : Fin numEndpoints) :
    regWord ((otg.completeInTransfer d ep').1.epIn ep) reg = regWord (otg.epIn ep) reg := by
  have hview := congrArg Prod.fst (txView_completeInTransfer otg d ep')
  have hepIn : (otg.completeInTransfer d ep').1.epIn =
      (otg.raiseInEndpointInterrupt ep' diepintXfrc).epIn := hview
  rw [hepIn]
  refine regWord_modifyIn (fun _ regs => ?_) otg
  exact regWord_congr (fun _ => rfl) (fun hint => absurd hint hreg) fun _ => rfl

/-- A write to `DIEPCTL` changes that register, and interrupts. -/
lemma regWord_writeDiepctl {ep ep' : Fin numEndpoints} {reg : ℕ} (hreg : reg ≠ epIntOffset)
    (hown : ¬ (ep = ep' ∧ reg = epCtlOffset)) (otg : OtgFs D) (d : D) (value : U32) :
    regWord ((otg.writeDiepctl d ep' value).1.epIn ep) reg = regWord (otg.epIn ep) reg := by
  have hkeeps : ∀ (x : OtgFs D) (f : EndpointRegs → EndpointRegs),
      (∀ regs, (f regs).tsiz = regs.tsiz) →
        regWord ((x.modifyIn ep' f).epIn ep) reg = regWord (x.epIn ep) reg := by
    intro x f hf
    refine regWord_modifyIn (fun hep regs => ?_) x
    exact regWord_congr (fun hctl => absurd ⟨hep, hctl⟩ hown) (fun hint => absurd hint hreg)
      fun _ => hf regs
  have harmed : ∀ x : OtgFs D,
      regWord (((x.modifyIn ep' fun regs => { regs with ctl := value }).modifyIn
      ep' fun regs => { regs with armedInBytesSent := 0 }).epIn ep) reg =
      regWord (x.epIn ep) reg := by
    intro x
    rw [hkeeps, hkeeps]
    · exact fun _ => rfl
    · exact fun _ => rfl
  unfold writeDiepctl
  dsimp only
  split
  · split
    · rw [regWord_completeInTransfer hreg, hkeeps, harmed]
      exact fun _ => rfl
    · split
      · rw [raiseInEndpointInterrupt, hkeeps, harmed]
        exact fun _ => rfl
      · exact harmed otg
  · rw [hkeeps]
    exact fun _ => rfl

/-- Of the registers of IN endpoints a quiet write changes only its own. -/
lemma Quiet.regWord_epIn (hquiet : otg.Quiet d offset value)
    (h : otg.registerWrite d offset value = some r) {ep : Fin numEndpoints} {reg : ℕ}
    (hown : decodeEndpoint diepBase offset ≠ some (ep, reg)) :
    regWord (r.1.epIn ep) reg = regWord (otg.epIn ep) reg := by
  by_cases hreg : reg = epIntOffset
  · subst hreg
    exact (hquiet.int_epIn h ep).trans (if_neg hown)
  cases registerWrite_cases h with
  | @fifo ep' _ hfifo hpush =>
    have hmore := hquiet.fifo ep' hfifo
    rw [pushTxFifoWord_eq_some hpush, if_neg fun hends => hmore (Or.inl ⟨hfifo, hends⟩)]
    rw [pushed, regWord_modifyIn]
    exact fun _ _ => rfl
  | @diepctl ep' hfifo hdecode =>
    refine regWord_writeDiepctl hreg ?_ otg d value
    rintro ⟨rfl, rfl⟩
    exact hown hdecode
  | @diep ep' reg' f hfifo hdecode hreg' =>
    have hwrite := (registerWrite_diep hdecode).symm.trans h
    rw [if_neg hreg'] at hwrite
    rw [← Option.some.inj hwrite]
    split_ifs with hint htsiz
    · rw [regWord_modifyIn]
      intro _ regs
      exact regWord_congr (fun _ => rfl) (fun h => absurd h hreg) fun _ => rfl
    · rw [regWord_modifyIn]
      intro hep regs
      refine regWord_congr (fun _ => rfl) (fun _ => rfl) fun hsize => ?_
      exact absurd (hdecode.trans (by rw [htsiz, hsize, hep])) hown
    · rfl
  | @doepctl ep' hfifo hdiep hdecode =>
    obtain ⟨_, _, heq⟩ := queuesOnly_writeDoepctl otg ep' value
    rw [heq]
    rfl
  | doep => rfl
  | global hfifo hdiep hdoep hframe =>
    rw [hframe.epIn ep]
    exact regWord_congr (fun _ => rfl) (fun h => absurd h hreg) fun _ => rfl

/-- Of the registers of OUT endpoints a write changes only its own. -/
lemma regWord_epOut (h : otg.registerWrite d offset value = some r) {ep : Fin numEndpoints}
    {reg : ℕ} (hown : decodeEndpoint doepBase offset ≠ some (ep, reg)) :
    regWord (r.1.epOut ep) reg = regWord (otg.epOut ep) reg := by
  cases registerWrite_cases h with
  | fifo hfifo hpush => rw [epOut_pushTxFifoWord hpush]
  | diepctl => rw [epOut_writeDiepctl]
  | diep => rfl
  | @doepctl ep' hfifo hdiep hdecode =>
    obtain ⟨_, _, heq⟩ := queuesOnly_writeDoepctl otg ep' value
    have hepOut : (otg.writeDoepctl ep' value).epOut =
        (otg.modifyOut ep' fun regs => { regs with ctl := value }).epOut := by rw [heq]
    rw [hepOut]
    rw [regWord_modifyOut]
    intro hep regs
    refine regWord_congr (fun hctl => ?_) (fun _ => rfl) fun _ => rfl
    exact absurd (hdecode.trans (by rw [hctl, hep])) hown
  | @doep ep' reg' f hfifo hdiep hdecode hreg' =>
    have hwrite := (registerWrite_doep hdiep hdecode).symm.trans h
    rw [if_neg hreg'] at hwrite
    rw [← Option.some.inj hwrite]
    split_ifs with hint htsiz
    · rw [regWord_modifyOut]
      intro hep regs
      refine regWord_congr (fun _ => rfl) (fun hflags => ?_) fun _ => rfl
      exact absurd (hdecode.trans (by rw [hint, hflags, hep])) hown
    · rw [regWord_modifyOut]
      intro hep regs
      refine regWord_congr (fun _ => rfl) (fun _ => rfl) fun hsize => ?_
      exact absurd (hdecode.trans (by rw [htsiz, hsize, hep])) hown
    · rfl
  | global hfifo hdiep hdoep hframe => rw [hframe.epOut]

/-- **A quiet write** changes no flag of another register. -/
lemma Quiet.flags_of_ne {o : U32} (hquiet : otg.Quiet d offset value)
    (h : otg.registerWrite d offset value = some r) (ho : o ≠ offset) :
    r.1.flags o = otg.flags o := by
  by_cases hsums : offset = OtgFs.daintmsk ∧ o = gintsts
  · obtain ⟨rfl, rfl⟩ := hsums
    cases h
    exact hquiet.daintmsk rfl
  · refine flags_congr (sameGlobals_registerWrite h ho hsums) (hquiet.sameSummary h) ?_ ?_
    · intro ep reg hdecode
      exact hquiet.regWord_epIn h fun hown => ho (decodeEndpoint_injective hdecode hown)
    · intro ep reg hdecode
      exact regWord_epOut h fun hown => ho (decodeEndpoint_injective hdecode hown)

/-- The address of `DIEPCTL` of an endpoint. -/
def diepctlOffset (ep : Fin numEndpoints) : U32 :=
  BitVec.ofNat 32 (diepBase + ep.val * epStride + epCtlOffset)

lemma decodeEndpoint_diepctlOffset (ep : Fin numEndpoints) :
    decodeEndpoint diepBase (diepctlOffset ep) = some (ep, epCtlOffset) := by
  revert ep
  decide

/-- A transfer that ends with a word for its FIFO disarms the endpoint. -/
lemma not_inArmed_of_completesIn {ep : Fin numEndpoints} (hfifo : fifoEndpoint offset = some ep)
    (h : otg.registerWrite d offset value = some r) (hends : otg.CompletesIn ep offset value) :
    ¬ r.1.InArmed ep := by
  obtain ⟨-, hdone⟩ := hends.resolve_right fun harms => not_armsIn_of_fifo hfifo harms.1
  unfold registerWrite at h
  rw [hfifo] at h
  have hepIn := congrArg Prod.fst
    (txView_completeInTransfer ((otg.pushed ep value).disarm ep) d ep)
  have hepIn : (((otg.pushed ep value).disarm ep).completeInTransfer d ep).1.epIn = _ := hepIn
  rw [pushTxFifoWord_eq_some h, if_pos hdone, InArmed, hepIn]
  simp only [txView, raiseInEndpointInterrupt, epIn_modifyIn]
  exact not_inArmed_disarm _ ep

/-- What the host sends first is announced by a word that is not zero. -/
lemma hostPackets_eq_nil_of_head
    (h : ((hostPackets (otg, d) (.write offset value : UsbAction Unit)).map RxPacket.status).headD 0
      = 0) : hostPackets (otg, d) (.write offset value : UsbAction Unit) = [] := by
  have hstep : ∀ step : VirtualHostStep,
      (step.packets.map RxPacket.status).headD 0 = 0 → step.packets = [] := by
    intro step hhead
    cases step with
    | awaitingSetControlLineStateStatus | configured => rfl
    | _ => exact absurd hhead (by decide)
  simp only [hostPackets] at h ⊢
  split_ifs at h ⊢
  · exact hstep _ h
  · exact absurd h (by decide)
  · rfl

section Kept

variable (h : otg.registerWrite d offset value = some r)
  (hsame : ∀ o, o ≠ offset → r.1.flags o = otg.flags o)

include h hsame

/-- A word that ends a transfer disarms its endpoint, of which the control register tells. -/
lemma not_completesIn_of_flags {ep : Fin numEndpoints} (hfifo : fifoEndpoint offset = some ep) :
    ¬ otg.CompletesIn ep offset value := by
  intro hends
  have hne : diepctlOffset ep ≠ offset := by
    rintro rfl
    cases hfifo.symm.trans
      (fifoEndpoint_eq_none_of_decodeEndpoint (by decide) (decodeEndpoint_diepctlOffset ep))
  have hctl := hsame _ hne
  rw [flags_diep (decodeEndpoint_diepctlOffset ep),
    flags_diep (decodeEndpoint_diepctlOffset ep)] at hctl
  have hctl : (r.1.epIn ep).ctl = (otg.epIn ep).ctl := hctl
  have harmed : otg.InArmed ep := by
    rcases hends with ⟨-, harmed, -⟩ | ⟨harms, -⟩
    · exact harmed
    · exact absurd harms (not_armsIn_of_fifo hfifo)
  rw [InArmed, ← hctl] at harmed
  exact not_inArmed_of_completesIn hfifo h hends harmed

/-- The interrupt register of an endpoint that is not written shows what is raised. -/
lemma raisedIn_of_flags (ep : Fin numEndpoints) :
    raisedIn ep (otg, d) (.write offset value : UsbAction Unit) &&& ~~~(otg.epIn ep).int
      = 0#32 := by
  have hlatch := latchesIn_registerWrite h ep
  rw [LatchesIn, written_diepint] at hlatch
  have hdecode : decodeEndpoint diepBase (diepintOffset ep) = some (ep, epIntOffset) :=
    eq_diepintOffset_iff.mp rfl
  by_cases hown : diepintOffset ep = offset
  · subst hown
    have hctl : ∀ ep', decodeEndpoint diepBase (diepintOffset ep) ≠ some (ep', epCtlOffset) := by
      intro ep' hep'
      have hreg := congrArg Prod.snd (Option.some.inj (hdecode.symm.trans hep'))
      exact absurd hreg (show epIntOffset ≠ epCtlOffset by decide)
    rw [raisedIn_of_other (fifoEndpoint_eq_none_of_decodeEndpoint (by decide) hdecode) hctl
      (ne_of_decodeEndpoint (by decide) hdecode)]
    exact BitVec.zero_and
  · have hint := hsame _ hown
    rw [flags_diep hdecode, flags_diep hdecode] at hint
    have hint : (r.1.epIn ep).int = (otg.epIn ep).int := hint
    rw [if_neg fun hdec => hown (decodeEndpoint_injective hdecode hdec), latch_raised,
      hint] at hlatch
    rw [and_not_eq_zero_iff]
    intro k hbit
    rw [hlatch, BitVec.getLsbD_or, hbit, Bool.or_true]

/-- The first packet that the host sends is the first of the receive queue. -/
lemma hostPackets_of_flags (hempty : otg.rxStatus = []) :
    hostPackets (otg, d) (.write offset value : UsbAction Unit) = [] := by
  have hqueues := (Queues.registerWrite (W := Unit) (registerWrite_cases h)).status
  by_cases hown : grxstsr = offset
  · subst hown
    have hnone : ∀ {base : ℕ} {x}, diepBase ≤ base → decodeEndpoint base grxstsr ≠ some x :=
      fun hbase hsome => ne_of_decodeEndpoint (lt_of_lt_of_le (by decide) hbase) hsome rfl
    have hends : ¬ otg.CompletesIn 0 grxstsr value := by
      rintro (⟨hfifo, -⟩ | ⟨⟨hdiep, -⟩, -⟩)
      · exact absurd hfifo (by decide)
      · exact hnone le_rfl hdiep
    have hstarts : ¬ otg.ActivatesOut grxstsr value := fun hdoep => hnone (by decide) hdoep.1
    simp only [hostPackets]
    rw [if_neg hends, if_neg hstarts]
  · have hhead := hsame _ hown
    rw [flags_grxstsr, flags_grxstsr, hqueues, hempty, List.nil_append] at hhead
    exact hostPackets_eq_nil_of_head hhead

/-- `DAINT` shows whether an interrupt of the endpoint is left. -/
lemma epIn_int_of_flags {ep : Fin numEndpoints}
    (hdecode : decodeEndpoint diepBase offset = some (ep, epIntOffset))
    (hint : (otg.epIn ep).int ≠ 0#32) : (otg.epIn ep).int &&& ~~~value ≠ 0#32 := by
  intro hcleared
  have hdaint := hsame daintOffset (ne_of_decodeEndpoint (by decide) hdecode).symm
  rw [flags_daint, flags_daint] at hdaint
  have hbit : otg.daint.getLsbD ep.val = true :=
    (getLsbD_daint_iff otg _).mpr ⟨ep, Or.inl ⟨rfl, hint⟩⟩
  rw [← hdaint] at hbit
  obtain ⟨ep', ⟨hep, hint'⟩ | ⟨hep, -⟩⟩ := (getLsbD_daint_iff r.1 _).mp hbit
  · obtain rfl := Fin.ext hep
    have hwrite := Option.some.inj ((registerWrite_diep hdecode).symm.trans h)
    rw [if_neg (by decide), if_pos rfl] at hwrite
    rw [← hwrite, epIn_modifyIn] at hint'
    exact hint' hcleared
  · have hlt := ep.isLt
    dsimp only [numEndpoints] at hlt
    omega

lemma epOut_int_of_flags {ep : Fin numEndpoints}
    (hdecode : decodeEndpoint doepBase offset = some (ep, epIntOffset))
    (hint : (otg.epOut ep).int ≠ 0#32) : (otg.epOut ep).int &&& ~~~value ≠ 0#32 := by
  intro hcleared
  have hdaint := hsame daintOffset (ne_of_decodeEndpoint (by decide) hdecode).symm
  rw [flags_daint, flags_daint] at hdaint
  have hbit : otg.daint.getLsbD (16 + ep.val) = true :=
    (getLsbD_daint_iff otg _).mpr ⟨ep, Or.inr ⟨rfl, hint⟩⟩
  rw [← hdaint] at hbit
  obtain ⟨ep', ⟨hep, -⟩ | ⟨hep, hint'⟩⟩ := (getLsbD_daint_iff r.1 _).mp hbit
  · have hlt := ep'.isLt
    dsimp only [numEndpoints] at hlt
    omega
  · obtain rfl : ep = ep' := Fin.ext (by omega)
    rw [int_epOut h, if_pos hdecode] at hint'
    exact hint' hcleared

/-- A write that changes no flag of another register is quiet. -/
lemma quiet_of_flags : otg.Quiet d offset value where
  fifo _ := not_completesIn_of_flags h hsame
  raises := raisedIn_of_flags h hsame
  sends := hostPackets_of_flags h hsame
  epIn _ := epIn_int_of_flags h hsame
  epOut _ := epOut_int_of_flags h hsame
  daintmsk := by
    rintro rfl
    have hstatus := hsame gintsts (by decide)
    cases h
    exact hstatus

end Kept

end Writes

/-- **A write of some bytes of a register** that clears no flag in the others keeps all other flags
exactly if it is quiet. -/
lemma flags_registerWrite_iff {otg : OtgFs D} {d : D} {offset v value mask : U32} {r : OtgFs D × D}
    (hread : otg.registerRead offset = some (otg, v))
    (h : otg.registerWrite d offset (mergeLanes v value mask) = some r)
    (hwithin : otg.FlagsWithin offset mask) :
    (∀ o, AgreeOutside (if o = offset then mask else 0#32) (r.1.flags o) (otg.flags o)) ↔
      otg.Quiet d offset (mergeLanes v value mask) := by
  constructor
  · intro hall
    refine quiet_of_flags h fun o ho => ?_
    have hagree := hall o
    rw [if_neg ho, agreeOutside_iff] at hagree
    exact BitVec.eq_of_getLsbD_eq fun i _ => hagree i BitVec.getLsbD_zero
  · intro hquiet o
    by_cases ho : o = offset
    · subst ho
      rw [if_pos rfl]
      have hword := (agreeOutside_registerWrite_iff hread h).mpr hwithin
      by_cases hstatus : o = gintsts
      · subst hstatus
        have hmask : r.1.daintMask = otg.daintMask := by
          cases h
          rfl
        rw [flags_gintsts, flags_gintsts, effectiveGintsts_eq, effectiveGintsts_eq,
          (hquiet.sameSummary h).levels hmask]
        exact AgreeOutside.or_right hword _
      · rw [flags, flags, if_neg hstatus, if_neg hstatus]
        exact hword
    · rw [hquiet.flags_of_ne h ho]

end OtgFs

end Stm32Emulator
