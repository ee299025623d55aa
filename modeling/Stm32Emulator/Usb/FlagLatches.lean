import Stm32Emulator.Foundation.Latch
import Stm32Emulator.Usb.RxFifo
import Stm32Emulator.Usb.TxEmpty

/-!
# The stored flags of the USB controller

The controller stores interrupt flags of its own and of each endpoint.  Each of these words is
latched: an action clears some of its bits, by an acknowledgement or a bus reset, and then raises
some (`FlagRegister.flags_usbStep`).
-/

namespace Stm32Emulator

open OtgFs Function

variable {D W : Type}

/-! ## What an action clears and raises -/

/-- The bus is reset, by the host or by the poll that attaches it. -/
def busResets (s : UsbState D) : UsbAction W → Bool
  | .busReset => true
  | .poll nvic _ => s.1.attaches s.2 (nvic.isEnabled 67)
  | _ => false

/-- A poll starts a frame: a host is attached, and the last frame is long ago. -/
def startsFrame (s : UsbState D) : UsbAction W → Bool
  | .poll nvic n =>
    (s.1.attaches s.2 (nvic.isEnabled 67) || s.1.hostAttached && s.1.hostPresent s.2) &&
      decide (sofPeriodInstructions ≤ n - s.1.lastSofInstruction)
  | _ => false

/-- The bits that the action writes to a register, or none. -/
def written (register : U32) : UsbAction W → U32
  | .write offset value => if offset = register then value else 0#32
  | _ => 0#32

namespace OtgFs

/-- The write makes an endpoint demand words: it arms a transfer that is not empty while the
FIFO-empty interrupt is unmasked, or unmasks this interrupt while a transfer is armed. -/
abbrev DemandsWords (otg : OtgFs D) (ep : Fin numEndpoints) (offset value : U32) : Prop :=
  otg.ArmsIn ep offset value ∧ otg.inXfrsiz ep ≠ 0 ∧ otg.Unmasked ep ∨
    offset = diepempmsk ∧ otg.InArmed ep ∧ value &&& (1#32 <<< ep.val) ≠ 0#32 ∧ ¬ otg.Unmasked ep

/-- The read takes a word out of the status queue that is about the endpoint. -/
abbrev Pops (otg : OtgFs D) (ep : Fin numEndpoints) (offset : U32) : Prop :=
  offset = grxstsp ∧ (otg.rxStatus.headD 0 &&& 0xf#32).toNat = ep.val

/-- The flag that a status word stands for: the end of a SETUP packet, or of a data packet. -/
def completionFlag (word : U32) : U32 :=
  if word &&& rxstsPktstsMask = rxstsSetupComp then doepintStup
  else if word &&& rxstsPktstsMask = rxstsOutComp then doepintXfrc
  else 0#32

/-- The address of `DOEPINT` of an endpoint. -/
def doepintOffset (ep : Fin numEndpoints) : U32 :=
  BitVec.ofNat 32 (doepBase + ep.val * epStride + epIntOffset)

end OtgFs

/-- The flags of an IN endpoint that an action raises. -/
def raisedIn (ep : Fin numEndpoints) (s : UsbState D) : UsbAction W → U32
  | .write offset value =>
    if s.1.CompletesIn ep offset value then diepintXfrc
    else if s.1.DemandsWords ep offset value then diepintTxfe
    else 0#32
  | _ => 0#32

/-- The flags of an OUT endpoint that an action raises. -/
def raisedOut (ep : Fin numEndpoints) (s : UsbState D) : UsbAction W → U32
  | .read offset => if s.1.Pops ep offset then completionFlag (s.1.rxStatus.headD 0) else 0#32
  | _ => 0#32

/-- The flags of the controller that an action raises. -/
def raisedGlobal (s : UsbState D) (a : UsbAction W) : U32 :=
  (if busResets s a then usbReset else 0#32) ||| (if startsFrame s a then gintstsSof else 0#32)

/-- The flags of an endpoint that an action clears: all of them with a bus reset, and else those
that firmware acknowledges. -/
def clearedEndpoint (register : U32) (s : UsbState D) (a : UsbAction W) : U32 :=
  if busResets s a then BitVec.allOnes 32 else written register a

namespace OtgFs

/-! ## Addresses -/

lemma decodeEndpoint_eq_some_iff {base : ℕ} {offset : U32} {ep : Fin numEndpoints} {reg : ℕ} :
    decodeEndpoint base offset = some (ep, reg) ↔
      offset.toNat = base + ep.val * epStride + reg ∧ reg < epStride := by
  unfold decodeEndpoint
  dsimp only
  constructor
  · intro h
    split_ifs at h with hbase hep
    obtain ⟨rfl, rfl⟩ := Prod.mk.inj (Option.some.inj h)
    dsimp only [epStride]
    omega
  · rintro ⟨hoffset, hreg⟩
    have hep := ep.isLt
    dsimp only [epStride, numEndpoints] at *
    rw [if_neg (by omega), dif_pos (by omega)]
    refine congrArg some (Prod.ext (Fin.ext ?_) ?_)
    · dsimp only
      omega
    · dsimp only
      omega

lemma eq_diepintOffset_iff {offset : U32} {ep : Fin numEndpoints} :
    offset = diepintOffset ep ↔ decodeEndpoint diepBase offset = some (ep, epIntOffset) := by
  rw [decodeEndpoint_eq_some_iff, diepintOffset]
  have hep := ep.isLt
  dsimp only [epStride, numEndpoints, epIntOffset, diepBase] at *
  constructor
  · rintro rfl
    rw [BitVec.toNat_ofNat]
    omega
  · rintro ⟨h, -⟩
    rw [← h, BitVec.ofNat_toNat, BitVec.setWidth_eq]

/-- The endpoint registers lie past their base. -/
lemma ne_of_decodeEndpoint {base : ℕ} {offset register : U32} {ep : Fin numEndpoints} {reg : ℕ}
    (hbase : register.toNat < base) (h : decodeEndpoint base offset = some (ep, reg)) :
    offset ≠ register := by
  rintro rfl
  rw [decodeEndpoint, if_pos hbase] at h
  cases h

lemma eq_doepintOffset_iff {offset : U32} {ep : Fin numEndpoints} :
    offset = doepintOffset ep ↔ decodeEndpoint doepBase offset = some (ep, epIntOffset) := by
  rw [decodeEndpoint_eq_some_iff, doepintOffset]
  have hep := ep.isLt
  dsimp only [epStride, numEndpoints, epIntOffset, doepBase] at *
  constructor
  · rintro rfl
    rw [BitVec.toNat_ofNat]
    omega
  · rintro ⟨h, -⟩
    rw [← h, BitVec.ofNat_toNat, BitVec.setWidth_eq]

/-! ## The flags of an IN endpoint -/

variable {otg : OtgFs D} {d : D} {ep ep' : Fin numEndpoints} {offset value : U32}

lemma epIn_modifyIn_of_ne (h : ep ≠ ep') (otg : OtgFs D) (f : EndpointRegs → EndpointRegs) :
    (otg.modifyIn ep' f).epIn ep = otg.epIn ep := update_of_ne h _ _

/-- The end of a transfer raises `XFRC` on its endpoint. -/
lemma int_completeInTransfer (otg : OtgFs D) (d : D) (ep ep' : Fin numEndpoints) :
    ((otg.completeInTransfer d ep').1.epIn ep).int =
      if ep = ep' then (otg.epIn ep).int ||| diepintXfrc else (otg.epIn ep).int := by
  have hview := congrArg Prod.fst (txView_completeInTransfer otg d ep')
  have hepIn : (otg.completeInTransfer d ep').1.epIn =
      (otg.raiseInEndpointInterrupt ep' diepintXfrc).epIn := hview
  rw [hepIn, raiseInEndpointInterrupt]
  split
  · next h =>
    subst h
    rw [epIn_modifyIn]
  · next h => rw [epIn_modifyIn_of_ne h]

/-- Arming a transfer raises `XFRC` if it is empty, and else `TXFE` if that is unmasked. -/
lemma int_writeDiepctl (otg : OtgFs D) (d : D) (ep : Fin numEndpoints) (value : U32) :
    ((otg.writeDiepctl d ep value).1.epIn ep).int =
      if value &&& diepctlEpena ≠ 0#32 ∧ ¬ otg.InArmed ep then
        if otg.inXfrsiz ep = 0 then (otg.epIn ep).int ||| diepintXfrc
        else if otg.Unmasked ep then (otg.epIn ep).int ||| diepintTxfe
        else (otg.epIn ep).int
      else (otg.epIn ep).int := by
  unfold writeDiepctl
  dsimp only
  simp only [bne_iff_ne, ne_eq, epIn_modifyIn, inXfrsiz_eq_zero_iff]
  split
  · split
    · rw [int_completeInTransfer, if_pos rfl]
      simp only [epIn_modifyIn]
    rw [apply_ite Prod.fst, apply_ite (fun otg : OtgFs D => (otg.epIn ep).int)]
    refine if_congr Iff.rfl ?_ ?_
    · simp only [raiseInEndpointInterrupt, epIn_modifyIn]
    · simp only [epIn_modifyIn]
  · simp only [epIn_modifyIn]

/-- Other endpoints are left alone. -/
lemma epIn_writeDiepctl_of_ne (h : ep ≠ ep') (otg : OtgFs D) (d : D) (value : U32) :
    ((otg.writeDiepctl d ep' value).1.epIn ep).int = (otg.epIn ep).int := by
  unfold writeDiepctl
  dsimp only
  split
  · split
    · rw [int_completeInTransfer, if_neg h]
      simp only [epIn_modifyIn_of_ne h]
    split
    · simp only [raiseInEndpointInterrupt, epIn_modifyIn_of_ne h]
    · simp only [epIn_modifyIn_of_ne h]
  · rw [epIn_modifyIn_of_ne h]

/-- A word for a FIFO raises `XFRC` if it completes an armed transfer. -/
lemma int_pushTxFifoWord {r : OtgFs D × D} (h : otg.pushTxFifoWord d ep' value = some r)
    (ep : Fin numEndpoints) :
    (r.1.epIn ep).int =
      if ep = ep' ∧ otg.InArmed ep' ∧ otg.inXfrsiz ep' ≤ (otg.epIn ep').armedInBytesSent + 4 then
        (otg.epIn ep).int ||| diepintXfrc
      else (otg.epIn ep).int := by
  have hpushed : ((otg.pushed ep' value).epIn ep).int = (otg.epIn ep).int := by
    by_cases hep : ep = ep'
    · subst hep
      rw [pushed, epIn_modifyIn]
    · rw [pushed, epIn_modifyIn_of_ne hep]
  have hdisarm : (((otg.pushed ep' value).disarm ep').epIn ep).int = (otg.epIn ep).int := by
    rw [← hpushed, disarm]
    by_cases hep : ep = ep'
    · subst hep
      rw [epIn_modifyIn]
    · rw [epIn_modifyIn_of_ne hep]
  rw [pushTxFifoWord_eq_some h]
  by_cases hcomplete : otg.InArmed ep' ∧ otg.inXfrsiz ep' ≤ (otg.epIn ep').armedInBytesSent + 4
  · rw [if_pos hcomplete, int_completeInTransfer, hdisarm]
    simp only [hcomplete, and_true, not_false_eq_true, ne_eq]
  · rw [if_neg hcomplete, if_neg fun h => hcomplete h.2, hpushed]

lemma not_armsIn_of_fifo {ep'' : Fin numEndpoints} (hfifo : fifoEndpoint offset = some ep'') :
    ¬ otg.ArmsIn ep offset value := fun h => by
  rw [fifoEndpoint_eq_none_of_decodeEndpoint (by decide) h.1] at hfifo
  cases hfifo

/-- A write to `DIEPEMPMSK` raises `TXFE` on the armed endpoints that it unmasks. -/
lemma int_writeDiepempmsk (otg : OtgFs D) (value : U32) (ep : Fin numEndpoints) :
    ((otg.writeDiepempmsk value).epIn ep).int =
      if otg.InArmed ep ∧ value &&& (1#32 <<< ep.val) ≠ 0#32 ∧ ¬ otg.Unmasked ep then
        (otg.epIn ep).int ||| diepintTxfe
      else (otg.epIn ep).int := by
  have hnew : (value &&& ~~~otg.diepEmptyMask &&& (1#32 <<< ep.val) ≠ 0#32 ∧ otg.InArmed ep) ↔
      otg.InArmed ep ∧ value &&& (1#32 <<< ep.val) ≠ 0#32 ∧ ¬ otg.Unmasked ep := by
    have hlt : ep.val < 32 := ep.isLt.trans (by decide)
    rw [Unmasked, and_one_shiftLeft_ne_zero_iff, and_one_shiftLeft_ne_zero_iff,
      and_one_shiftLeft_ne_zero_iff, BitVec.getLsbD_and, BitVec.getLsbD_not, Bool.and_eq_true,
      Bool.and_eq_true, Bool.not_eq_true', and_comm, Bool.not_eq_true,
      and_iff_right (decide_eq_true hlt)]
  have hepIn : (otg.writeDiepempmsk value).epIn ep =
      if value &&& ~~~otg.diepEmptyMask &&& (1#32 <<< ep.val) ≠ 0#32 ∧ otg.InArmed ep then
        { otg.epIn ep with int := (otg.epIn ep).int ||| diepintTxfe }
      else otg.epIn ep := rfl
  rw [hepIn, apply_ite EndpointRegs.int]
  exact if_congr hnew rfl rfl

/-- The flags of an IN endpoint after a write, as a latch. -/
abbrev LatchesIn (otg : OtgFs D) (d : D) (offset value : U32) (ep : Fin numEndpoints)
    (otg' : OtgFs D) : Prop :=
  (otg'.epIn ep).int = latch (otg.epIn ep).int
    (written (diepintOffset ep) (.write offset value : UsbAction Unit))
    (raisedIn ep (otg, d) (.write offset value : UsbAction Unit))

lemma written_diepint (offset value : U32) (ep : Fin numEndpoints) :
    written (diepintOffset ep) (.write offset value : UsbAction W) =
      if decodeEndpoint diepBase offset = some (ep, epIntOffset) then value else 0#32 :=
  if_congr eq_diepintOffset_iff rfl rfl

/-- A write that neither completes a transfer nor makes the endpoint demand words. -/
lemma raisedIn_eq_zero (hcompletes : ¬ otg.CompletesIn ep offset value)
    (hdemands : ¬ otg.DemandsWords ep offset value) (d : D) :
    raisedIn ep (otg, d) (.write offset value : UsbAction W) = 0#32 := by
  rw [raisedIn, if_neg hcompletes, if_neg hdemands]

/-- A word for a FIFO. -/
lemma latchesIn_fifo {r : OtgFs D × D} (hfifo : fifoEndpoint offset = some ep')
    (h : otg.pushTxFifoWord d ep' value = some r) : LatchesIn otg d offset value ep r.1 := by
  have hempmsk : offset ≠ diepempmsk := by
    rintro rfl
    rw [show fifoEndpoint diepempmsk = none by decide] at hfifo
    cases hfifo
  have hdiep : decodeEndpoint diepBase offset ≠ some (ep, epIntOffset) := fun hdiep => by
    rw [fifoEndpoint_eq_none_of_decodeEndpoint (by decide) hdiep] at hfifo
    cases hfifo
  have hdemands : ¬ otg.DemandsWords ep offset value := by
    simp only [DemandsWords, not_armsIn_of_fifo hfifo, hempmsk, false_and, or_self,
      not_false_eq_true]
  have hcompletes : otg.CompletesIn ep offset value ↔
      ep = ep' ∧ otg.InArmed ep' ∧ otg.inXfrsiz ep' ≤ (otg.epIn ep').armedInBytesSent + 4 := by
    simp only [CompletesIn, not_armsIn_of_fifo hfifo, hfifo, Option.some.injEq, false_and, or_false]
    refine ⟨?_, ?_⟩ <;> rintro ⟨rfl, hdone⟩ <;> exact ⟨rfl, hdone⟩
  rw [LatchesIn, written_diepint, if_neg hdiep, latch_raised, int_pushTxFifoWord h, raisedIn,
    if_neg hdemands]
  by_cases hdone : otg.CompletesIn ep offset value
  · rw [if_pos hdone, if_pos (hcompletes.mp hdone)]
  · rw [if_neg hdone, if_neg fun h => hdone (hcompletes.mpr h), BitVec.or_zero]

/-- A write to a control register. -/
lemma latchesIn_diepctl (hdecode : decodeEndpoint diepBase offset = some (ep', epCtlOffset)) :
    LatchesIn otg d offset value ep (otg.writeDiepctl d ep' value).1 := by
  have hfifo := fifoEndpoint_eq_none_of_decodeEndpoint (by decide) hdecode
  have hempmsk : offset ≠ diepempmsk := ne_of_decodeEndpoint (by decide) hdecode
  have hcompletes : otg.CompletesIn ep offset value ↔
      otg.ArmsIn ep offset value ∧ otg.inXfrsiz ep = 0 := by
    simp only [CompletesIn, hfifo, reduceCtorEq, false_and, false_or]
  have hdemands : otg.DemandsWords ep offset value ↔
      otg.ArmsIn ep offset value ∧ otg.inXfrsiz ep ≠ 0 ∧ otg.Unmasked ep := by
    simp only [DemandsWords, hempmsk, false_and, or_false]
  have hint : decodeEndpoint diepBase offset ≠ some (ep, epIntOffset) := by
    rw [hdecode]
    exact fun h => absurd (congrArg Prod.snd (Option.some.inj h))
      (show epCtlOffset ≠ epIntOffset by decide)
  rw [LatchesIn, written_diepint, if_neg hint, latch_raised]
  by_cases harms : otg.ArmsIn ep offset value
  · obtain ⟨hep, harm⟩ := harms
    obtain rfl : ep' = ep := congrArg Prod.fst (Option.some.inj (hdecode.symm.trans hep))
    rw [int_writeDiepctl, if_pos harm, raisedIn]
    by_cases hempty : otg.inXfrsiz ep' = 0
    · rw [if_pos hempty, if_pos (hcompletes.mpr ⟨⟨hep, harm⟩, hempty⟩)]
    · rw [if_neg hempty, if_neg fun h => hempty (hcompletes.mp h).2]
      by_cases hunmasked : otg.Unmasked ep'
      · rw [if_pos hunmasked, if_pos (hdemands.mpr ⟨⟨hep, harm⟩, hempty, hunmasked⟩)]
      · rw [if_neg hunmasked, if_neg fun h => hunmasked (hdemands.mp h).2.2, BitVec.or_zero]
  · rw [raisedIn_eq_zero (fun h => harms (hcompletes.mp h).1) (fun h => harms (hdemands.mp h).1),
      BitVec.or_zero]
    by_cases hep : ep = ep'
    · subst hep
      rw [int_writeDiepctl, if_neg fun h => harms ⟨hdecode, h⟩]
    · exact epIn_writeDiepctl_of_ne hep otg d value

/-- A write that is neither a word for a FIFO, nor one to a control register, nor one to
`DIEPEMPMSK`. -/
lemma raisedIn_of_other (hfifo : fifoEndpoint offset = none)
    (hctl : ∀ ep, decodeEndpoint diepBase offset ≠ some (ep, epCtlOffset))
    (hempmsk : offset ≠ diepempmsk) (d : D) :
    raisedIn ep (otg, d) (.write offset value : UsbAction W) = 0#32 := by
  refine raisedIn_eq_zero ?_ ?_ d
  · rintro (⟨h, -⟩ | ⟨h, -⟩)
    · rw [hfifo] at h
      cases h
    · exact hctl ep h.1
  · rintro (⟨h, -⟩ | ⟨h, -⟩)
    · exact hctl ep h.1
    · exact hempmsk h

/-- A register write changes the flags of an IN endpoint as a latch. -/
lemma latchesIn_registerWrite {r : OtgFs D × D} (h : otg.registerWrite d offset value = some r)
    (ep : Fin numEndpoints) : LatchesIn otg d offset value ep r.1 := by
  cases registerWrite_cases h with
  | fifo hfifo hpush => exact latchesIn_fifo hfifo hpush
  | diepctl hfifo hdecode => exact latchesIn_diepctl hdecode
  | @diep ep' reg f hfifo hdecode hreg hf =>
    have hempmsk : offset ≠ diepempmsk := ne_of_decodeEndpoint (by decide) hdecode
    have hctl : ∀ ep, decodeEndpoint diepBase offset ≠ some (ep, epCtlOffset) := fun ep hep =>
      hreg (congrArg Prod.snd (Option.some.inj (hdecode.symm.trans hep)))
    rw [registerWrite_diep hdecode, if_neg hreg] at h
    rw [LatchesIn, raisedIn_of_other hfifo hctl hempmsk, latch_cleared, written_diepint, hdecode,
      ← Option.some.inj h]
    by_cases hep : ep = ep'
    · subst hep
      by_cases hint : reg = epIntOffset
      · rw [if_pos hint, if_pos (by rw [hint]), epIn_modifyIn]
      · rw [if_neg hint, if_neg fun h => hint (congrArg Prod.snd (Option.some.inj h)),
          BitVec.not_zero, BitVec.and_allOnes]
        split
        · rw [epIn_modifyIn]
        · rfl
    · rw [if_neg fun h => hep (congrArg Prod.fst (Option.some.inj h)).symm, BitVec.not_zero,
        BitVec.and_allOnes]
      split_ifs
      · rw [epIn_modifyIn_of_ne hep]
      · rw [epIn_modifyIn_of_ne hep]
      · rfl
  | @doepctl ep' hfifo hdiep hdecode =>
    have hempmsk : offset ≠ diepempmsk := ne_of_decodeEndpoint (by decide) hdecode
    obtain ⟨_, _, heq⟩ := queuesOnly_writeDoepctl otg ep' value
    rw [LatchesIn, raisedIn_of_other hfifo (by simp [hdiep]) hempmsk, written_diepint,
      hdiep, if_neg nofun, latch_zero_zero, heq]
    rfl
  | doep hfifo hdiep hdecode hreg =>
    have hempmsk : offset ≠ diepempmsk := ne_of_decodeEndpoint (by decide) hdecode
    rw [LatchesIn, raisedIn_of_other hfifo (by simp [hdiep]) hempmsk, written_diepint,
      hdiep, if_neg nofun, latch_zero_zero]
    rfl
  | global hfifo hdiep hdoep =>
    rw [LatchesIn, written_diepint, hdiep, if_neg nofun, latch_raised]
    have hcompletes : ¬ otg.CompletesIn ep offset value := by
      simp [CompletesIn, ArmsIn, hfifo, hdiep]
    have hctl : ∀ ep, decodeEndpoint diepBase offset ≠ some (ep, epCtlOffset) := by simp [hdiep]
    rcases registerWrite_global h hfifo hdiep hdoep with ⟨rfl, heq⟩ | ⟨-, rfl, heq⟩ |
      ⟨-, hempmsk, -, -, hepIn, -⟩
    · cases heq
      rw [raisedIn_of_other hfifo hctl (by decide), BitVec.or_zero]
    · cases heq
      have hdemands : otg.DemandsWords ep diepempmsk value ↔
          otg.InArmed ep ∧ value &&& (1#32 <<< ep.val) ≠ 0#32 ∧ ¬ otg.Unmasked ep := by
        simp only [DemandsWords, ArmsIn, hdiep, reduceCtorEq, false_and, false_or, true_and]
      rw [int_writeDiepempmsk, raisedIn, if_neg hcompletes, ← if_congr hdemands rfl rfl]
      split
      · rfl
      · rw [BitVec.or_zero]
    · rw [hepIn, raisedIn_of_other hfifo hctl hempmsk, BitVec.or_zero]

/-! ## The flags of an OUT endpoint -/

lemma epOut_completeInTransfer (otg : OtgFs D) (d : D) (ep : Fin numEndpoints) :
    (otg.completeInTransfer d ep).1.epOut = otg.epOut := by
  by_cases hep : ep = 0
  · subst hep
    obtain ⟨_, ⟨_, _, rfl⟩, heq⟩ := completeInTransfer_zero otg d
    rw [heq]
    rfl
  · obtain ⟨_, _, _, heq, -⟩ := completeInTransfer_of_ne otg d hep
    rw [heq]
    rfl

lemma epOut_writeDiepctl (otg : OtgFs D) (d : D) (ep : Fin numEndpoints) (value : U32) :
    (otg.writeDiepctl d ep value).1.epOut = otg.epOut := by
  unfold writeDiepctl
  dsimp only
  split_ifs
  · exact epOut_completeInTransfer _ d ep
  · rfl
  · rfl
  · rfl

lemma int_raiseOutEndpointInterrupt (otg : OtgFs D) (ep' : Fin numEndpoints) (bits : U32)
    (ep : Fin numEndpoints) :
    ((otg.raiseOutEndpointInterrupt ep' bits).epOut ep).int =
      (otg.epOut ep).int ||| if ep'.val = ep.val then bits else 0#32 := by
  unfold raiseOutEndpointInterrupt modifyOut
  dsimp only
  split
  · next hep =>
    obtain rfl : ep' = ep := Fin.ext hep
    rw [update_self]
  · next hep => rw [update_of_ne fun h => hep (congrArg Fin.val h.symm), BitVec.or_zero]

/-- The end of a packet raises a flag of its endpoint when firmware takes it out of the status
queue. -/
lemma int_popRxStatus {r : OtgFs D × U32} (h : otg.popRxStatus = some r) (d : D)
    (ep : Fin numEndpoints) :
    (r.1.epOut ep).int =
      (otg.epOut ep).int ||| raisedOut ep (otg, d) (.read grxstsp : UsbAction W) := by
  unfold popRxStatus at h
  simp only [raisedOut, Pops, true_and, completionFlag]
  dsimp only at h
  split_ifs at h with hsetup hlt hout hlt
  · cases h
    rw [if_pos hsetup]
    exact int_raiseOutEndpointInterrupt _ _ _ ep
  · cases h
    rw [if_neg hsetup, if_pos hout]
    exact int_raiseOutEndpointInterrupt _ _ _ ep
  · cases h
    rw [if_neg hsetup, if_neg hout, ite_self, BitVec.or_zero]

/-- A word for a FIFO leaves the OUT endpoints alone. -/
lemma epOut_pushTxFifoWord {r : OtgFs D × D} (h : otg.pushTxFifoWord d ep value = some r) :
    r.1.epOut = otg.epOut := by
  rw [pushTxFifoWord_eq_some h]
  split
  · exact epOut_completeInTransfer _ d ep
  · rfl

lemma epOut_modifyOut (otg : OtgFs D) (ep : Fin numEndpoints) (f : EndpointRegs → EndpointRegs) :
    (otg.modifyOut ep f).epOut ep = f (otg.epOut ep) := update_self ..

lemma epOut_modifyOut_of_ne (h : ep ≠ ep') (otg : OtgFs D) (f : EndpointRegs → EndpointRegs) :
    (otg.modifyOut ep' f).epOut ep = otg.epOut ep := update_of_ne h _ _

/-- A register write acknowledges flags of an OUT endpoint and raises none. -/
lemma int_registerWrite_out {r : OtgFs D × D} (h : otg.registerWrite d offset value = some r)
    (ep : Fin numEndpoints) :
    (r.1.epOut ep).int =
      (otg.epOut ep).int &&& ~~~written (doepintOffset ep) (.write offset value : UsbAction W) := by
  have hwritten : written (doepintOffset ep) (.write offset value : UsbAction W) =
      if decodeEndpoint doepBase offset = some (ep, epIntOffset) then value else 0#32 :=
    if_congr eq_doepintOffset_iff rfl rfl
  have hquiet (hdoep : decodeEndpoint doepBase offset ≠ some (ep, epIntOffset))
      (hsame : r.1.epOut = otg.epOut) :
      (r.1.epOut ep).int =
        (otg.epOut ep).int &&& ~~~written (doepintOffset ep)
          (.write offset value : UsbAction W) := by
    rw [hsame, hwritten, if_neg hdoep, BitVec.not_zero, BitVec.and_allOnes]
  cases registerWrite_cases h with
  | fifo hfifo hpush =>
    refine hquiet (fun hdoep => ?_) (epOut_pushTxFifoWord hpush)
    rw [fifoEndpoint_eq_none_of_decodeEndpoint le_rfl hdoep] at hfifo
    cases hfifo
  | diepctl hfifo hdecode =>
    refine hquiet ?_ (epOut_writeDiepctl _ _ _ _)
    rw [decodeEndpoint_doepBase_of_diepBase hdecode]
    exact nofun
  | diep hfifo hdecode =>
    refine hquiet ?_ rfl
    rw [decodeEndpoint_doepBase_of_diepBase hdecode]
    exact nofun
  | @doepctl ep' hfifo hdiep hdecode =>
    have hint : decodeEndpoint doepBase offset ≠ some (ep, epIntOffset) := by
      rw [hdecode]
      exact fun h => absurd (congrArg Prod.snd (Option.some.inj h))
        (show epCtlOffset ≠ epIntOffset by decide)
    have hepOut : (otg.writeDoepctl ep' value).epOut =
        (otg.modifyOut ep' fun regs => { regs with ctl := value }).epOut := by
      obtain ⟨_, _, heq⟩ := queuesOnly_writeDoepctl otg ep' value
      rw [heq]
    rw [hwritten, if_neg hint, BitVec.not_zero, BitVec.and_allOnes, hepOut]
    by_cases hep : ep = ep'
    · subst hep
      rw [epOut_modifyOut]
    · rw [epOut_modifyOut_of_ne hep]
  | @doep ep' reg f hfifo hdiep hdecode hreg =>
    rw [registerWrite_doep hdiep hdecode, if_neg hreg] at h
    rw [hwritten, hdecode, ← Option.some.inj h]
    by_cases hep : ep = ep'
    · subst hep
      by_cases hint : reg = epIntOffset
      · rw [if_pos hint, if_pos (by rw [hint]), epOut_modifyOut]
      · rw [if_neg hint, if_neg fun h => hint (congrArg Prod.snd (Option.some.inj h)),
          BitVec.not_zero, BitVec.and_allOnes]
        split
        · rw [epOut_modifyOut]
        · rfl
    · rw [if_neg fun h => hep (congrArg Prod.fst (Option.some.inj h)).symm, BitVec.not_zero,
        BitVec.and_allOnes]
      split_ifs
      · rw [epOut_modifyOut_of_ne hep]
      · rw [epOut_modifyOut_of_ne hep]
      · rfl
  | global hfifo hdiep hdoep hframe =>
    refine hquiet ?_ hframe.epOut
    rw [hdoep]
    exact nofun

/-- A packet from the bridge raises no flags. -/
lemma int_forwardBulkOut (otg : OtgFs D) (d : D) (ep : Fin numEndpoints) :
    ((otg.forwardBulkOut d).1.epOut ep).int = (otg.epOut ep).int := by
  by_cases h : ∃ ep' bridge, otg.ReadyOut ep' bridge
  · obtain ⟨ep', bridge, h⟩ := h
    rw [forwardBulkOut_of_ready h]
    dsimp only
    split
    · rfl
    · by_cases hep : ep = ep'
      · subst hep
        simp only [packetArrived, queueRx, epOut_modifyOut]
      · simp only [packetArrived, queueRx, epOut_modifyOut_of_ne hep]
  · rw [forwardBulkOut_of_not_ready fun ep bridge hready => h ⟨ep, bridge, hready⟩]

/-! ## The flags of the controller -/

lemma status_completeInTransfer (otg : OtgFs D) (d : D) (ep : Fin numEndpoints) :
    (otg.completeInTransfer d ep).1.globalInterruptStatus = otg.globalInterruptStatus := by
  by_cases hep : ep = 0
  · subst hep
    obtain ⟨_, ⟨_, _, rfl⟩, heq⟩ := completeInTransfer_zero otg d
    rw [heq]
    rfl
  · obtain ⟨_, _, _, heq, -⟩ := completeInTransfer_of_ne otg d hep
    rw [heq]
    rfl

/-- A register write acknowledges flags of the controller and raises none. -/
lemma status_registerWrite {r : OtgFs D × D} (h : otg.registerWrite d offset value = some r) :
    r.1.globalInterruptStatus =
      otg.globalInterruptStatus &&& ~~~written gintsts (.write offset value : UsbAction W) := by
  have hquiet (hne : offset ≠ gintsts)
      (hsame : r.1.globalInterruptStatus = otg.globalInterruptStatus) :
      r.1.globalInterruptStatus =
        otg.globalInterruptStatus &&& ~~~written gintsts (.write offset value : UsbAction W) := by
    rw [hsame, written, if_neg hne, BitVec.not_zero, BitVec.and_allOnes]
  cases registerWrite_cases h with
  | fifo hfifo hpush =>
    refine hquiet ?_ ?_
    · rintro rfl
      rw [show fifoEndpoint gintsts = none by decide] at hfifo
      cases hfifo
    · rw [pushTxFifoWord_eq_some hpush]
      split
      · exact status_completeInTransfer _ _ _
      · rfl
  | diepctl hfifo hdecode =>
    refine hquiet (ne_of_decodeEndpoint (by decide) hdecode) ?_
    unfold writeDiepctl
    dsimp only
    split_ifs
    · exact status_completeInTransfer _ _ _
    · rfl
    · rfl
    · rfl
  | diep hfifo hdecode => exact hquiet (ne_of_decodeEndpoint (by decide) hdecode) rfl
  | @doepctl ep' hfifo hdiep hdecode =>
    refine hquiet (ne_of_decodeEndpoint (by decide) hdecode) ?_
    obtain ⟨_, _, heq⟩ := queuesOnly_writeDoepctl otg ep' value
    rw [heq]
    rfl
  | doep hfifo hdiep hdecode => exact hquiet (ne_of_decodeEndpoint (by decide) hdecode) rfl
  | global hfifo hdiep hdoep =>
    unfold registerWrite at h
    rw [hfifo, hdiep, hdoep] at h
    dsimp only at h
    split_ifs at h with hgintsts <;> cases h
    · rw [written, if_pos hgintsts]
    all_goals exact hquiet (by assumption) rfl

lemma status_startOfFrame (otg : OtgFs D) (n : ℕ) :
    (otg.startOfFrame n).globalInterruptStatus = otg.globalInterruptStatus |||
      if otg.hostAttached && decide
        (sofPeriodInstructions ≤ n - otg.lastSofInstruction) then gintstsSof
      else 0#32 := by
  unfold startOfFrame
  simp only [Bool.and_eq_true, decide_eq_true_eq]
  split
  · rfl
  · exact BitVec.or_zero.symm

/-- The bus reset of an attaching host and the start of a frame. -/
lemma status_poll {r : OtgFs D × D × Nvic} {nvic : Nvic} {n : ℕ} (h : otg.poll d nvic n = some r) :
    r.1.globalInterruptStatus =
      otg.globalInterruptStatus ||| raisedGlobal (otg, d) (.poll nvic n : UsbAction W) := by
  have hr := congrArg Prod.fst (poll_eq_some h)
  dsimp only at hr
  obtain ⟨_, _, _, hforward⟩ := forwardBulkOut_eq
    ((otg.refreshVirtualHostAttachment d (nvic.isEnabled 67)).1.startOfFrame n)
    (otg.refreshVirtualHostAttachment d (nvic.isEnabled 67)).2
  have hstatus : r.1.globalInterruptStatus =
      ((otg.refreshVirtualHostAttachment d (nvic.isEnabled 67)).1.startOfFrame
        n).globalInterruptStatus := by
    rw [hr, hforward]
  rw [hstatus, status_startOfFrame, raisedGlobal]
  rcases otg.refreshVirtualHostAttachment_cases d (nvic.isEnabled 67) with ⟨hattaches, heq⟩ |
    ⟨hattaches, -⟩
  · have hresets : busResets (otg, d) (.poll nvic n : UsbAction W) = true := hattaches
    have hframe : startsFrame (otg, d) (.poll nvic n : UsbAction W) =
        (true && decide (sofPeriodInstructions ≤ n - otg.lastSofInstruction)) := by
      rw [startsFrame, hattaches, Bool.true_or]
    rw [heq, hresets, hframe, if_pos rfl, ← BitVec.or_assoc]
    rfl
  · have hresets : busResets (otg, d) (.poll nvic n : UsbAction W) = false := hattaches
    have hframe : startsFrame (otg, d) (.poll nvic n : UsbAction W) =
        ((otg.hostAttached && otg.hostPresent d) &&
          decide (sofPeriodInstructions ≤ n - otg.lastSofInstruction)) := by
      rw [startsFrame, hattaches, Bool.false_or]
    rw [refreshVirtualHostAttachment_of_not_attaches hattaches, hresets, hframe,
      if_neg Bool.false_ne_true, BitVec.zero_or]

/-- A poll pends the interrupt of the controller exactly if its line is up afterwards. -/
lemma isPending_poll {r : OtgFs D × D × Nvic} {nvic : Nvic} {n : ℕ} (h : otg.poll d nvic n = some r)
    (irq : ℤ) :
    r.2.2.isPending irq = true ↔
      nvic.isPending irq = true ∨ irq = 67 ∧ r.1.interruptPending = true := by
  obtain ⟨nvic', hnvic, rfl⟩ := Option.map_eq_some_iff.mp h
  dsimp only at hnvic ⊢
  generalize OtgFs.interruptPending _ = pending at hnvic ⊢
  cases pending with
  | true =>
    rw [if_pos rfl] at hnvic
    rw [Nvic.isPending_setIntrPending hnvic, Bool.or_eq_true, decide_eq_true_eq, and_iff_left rfl]
  | false =>
    cases hnvic
    rw [or_iff_left fun h => Bool.false_ne_true h.2]

end OtgFs

section

variable {move : W → D → D} {s s' : UsbState D} {a : UsbAction W}

/-- **One action latches the flags of an IN endpoint.** -/
lemma int_usbStep_in (hstep : usbStep move s a = some s') (ep : Fin numEndpoints) :
    (s'.1.epIn ep).int = latch (s.1.epIn ep).int (clearedEndpoint (diepintOffset ep) s a)
      (raisedIn ep s a) := by
  cases a with
  | write offset value => exact latchesIn_registerWrite hstep ep
  | read offset =>
    obtain ⟨r, hread, rfl⟩ := Option.map_eq_some_iff.mp hstep
    have hepIn : r.1.epIn = s.1.epIn := congrArg Prod.fst (txView_registerRead hread)
    exact (congrArg (fun epIn => (epIn ep).int) hepIn).trans (latch_zero_zero _).symm
  | poll nvic n =>
    obtain ⟨r, hpoll, rfl⟩ := Option.map_eq_some_iff.mp hstep
    rcases poll_cases hpoll with ⟨hattaches, status, last, hotg, -⟩ |
      ⟨hattaches, status, last, hotg, -⟩
    · have hresets : busResets s (.poll nvic n : UsbAction W) = true := hattaches
      rw [clearedEndpoint, if_pos hresets, latch_allOnes]
      refine (congrArg (fun otg : OtgFs D => (otg.epIn ep).int) hotg).trans ?_
      rfl
    · rw [clearedEndpoint, if_neg (by rw [busResets, hattaches]; exact Bool.false_ne_true)]
      have hepIn := congrArg Prod.fst
        (txView_forwardBulkOut (s.1.sampled (s.1.hostAttached && s.1.hostPresent s.2)
        status last) s.2)
      refine ((congrArg (fun otg : OtgFs D => (otg.epIn ep).int) hotg).trans ?_).trans
        (latch_zero_zero _).symm
      exact congrArg (fun epIn : Fin numEndpoints → EndpointRegs => (epIn ep).int) hepIn
  | busReset =>
    cases hstep
    exact (latch_allOnes _ _).symm
  | setup ep' packet =>
    cases hstep
    exact (latch_zero_zero _).symm
  | controlOut ep' packet data =>
    cases hstep
    obtain ⟨_, _, heq⟩ := queuesOnly_virtualHostControlOut s.1 ep' packet.1 data.1
    rw [heq]
    exact (latch_zero_zero _).symm
  | outside w =>
    cases hstep
    exact (latch_zero_zero _).symm

/-- **One action latches the flags of an OUT endpoint.** -/
lemma int_usbStep_out (hstep : usbStep move s a = some s') (ep : Fin numEndpoints) :
    (s'.1.epOut ep).int = latch (s.1.epOut ep).int (clearedEndpoint (doepintOffset ep) s a)
      (raisedOut ep s a) := by
  cases a with
  | write offset value =>
    exact (int_registerWrite_out (W := W) hstep ep).trans (latch_cleared _ _).symm
  | read offset =>
    obtain ⟨r, hread, rfl⟩ := Option.map_eq_some_iff.mp hstep
    refine Eq.trans ?_ (latch_raised _ _).symm
    have hquiet (hpop : offset ≠ grxstsp) (hsame : r.1.epOut = s.1.epOut) :
        (r.1.epOut ep).int = (s.1.epOut ep).int |||
          raisedOut ep s (.read offset : UsbAction W) := by
      rw [hsame, raisedOut, if_neg fun h => hpop h.1, BitVec.or_zero]
    rcases registerRead_cases hread with ⟨hfifo, rfl⟩ | ⟨-, rfl, hpop⟩ | ⟨-, hne, hsame⟩
    · refine hquiet ?_ rfl
      rintro rfl
      rw [show fifoEndpoint grxstsp = none by decide] at hfifo
      cases hfifo
    · exact int_popRxStatus hpop s.2 ep
    · exact hquiet hne (by rw [hsame])
  | poll nvic n =>
    obtain ⟨r, hpoll, rfl⟩ := Option.map_eq_some_iff.mp hstep
    rcases poll_cases hpoll with ⟨hattaches, status, last, hotg, -⟩ |
      ⟨hattaches, status, last, hotg, -⟩
    · have hresets : busResets s (.poll nvic n : UsbAction W) = true := hattaches
      rw [clearedEndpoint, if_pos hresets, latch_allOnes]
      refine (congrArg (fun otg : OtgFs D => (otg.epOut ep).int) hotg).trans ?_
      rfl
    · rw [clearedEndpoint, if_neg (by rw [busResets, hattaches]; exact Bool.false_ne_true)]
      refine ((congrArg (fun otg : OtgFs D => (otg.epOut ep).int) hotg).trans ?_).trans
        (latch_zero_zero _).symm
      exact int_forwardBulkOut _ _ ep
  | busReset =>
    cases hstep
    exact (latch_allOnes _ _).symm
  | setup ep' packet =>
    cases hstep
    exact (latch_zero_zero _).symm
  | controlOut ep' packet data =>
    cases hstep
    obtain ⟨_, _, heq⟩ := queuesOnly_virtualHostControlOut s.1 ep' packet.1 data.1
    rw [heq]
    exact (latch_zero_zero _).symm
  | outside w =>
    cases hstep
    exact (latch_zero_zero _).symm

/-- **One action latches the flags of the controller.** -/
lemma status_usbStep (hstep : usbStep move s a = some s') :
    s'.1.globalInterruptStatus = latch s.1.globalInterruptStatus (written gintsts a)
      (raisedGlobal s a) := by
  have hquiet (hresets : busResets s a = false) (hframe : startsFrame s a = false)
      (hsame : s'.1.globalInterruptStatus = s.1.globalInterruptStatus &&& ~~~written gintsts a) :
      s'.1.globalInterruptStatus =
        latch s.1.globalInterruptStatus (written gintsts a) (raisedGlobal s a) := by
    rw [hsame, raisedGlobal, hresets, hframe, if_neg Bool.false_ne_true, if_neg Bool.false_ne_true,
      BitVec.or_zero, latch_cleared]
  have hidle : s.1.globalInterruptStatus = s.1.globalInterruptStatus &&& ~~~(0#32) := by
    rw [BitVec.not_zero, BitVec.and_allOnes]
  cases a with
  | write offset value => exact hquiet rfl rfl (status_registerWrite (W := W) hstep)
  | read offset =>
    obtain ⟨r, hread, rfl⟩ := Option.map_eq_some_iff.mp hstep
    refine hquiet rfl rfl (Eq.trans ?_ hidle)
    rcases registerRead_cases hread with ⟨-, rfl⟩ | ⟨-, -, hpop⟩ | ⟨-, -, hsame⟩
    · rfl
    · obtain ⟨-, epOut, heq⟩ := popRxStatus_eq_some hpop
      rw [heq]
    · rw [hsame]
  | poll nvic n =>
    obtain ⟨r, hpoll, rfl⟩ := Option.map_eq_some_iff.mp hstep
    exact (status_poll (W := W) hpoll).trans (latch_raised _ _).symm
  | busReset =>
    cases hstep
    have hraised : raisedGlobal s (.busReset : UsbAction W) = usbReset := BitVec.or_zero
    rw [hraised]
    exact (latch_raised _ _).symm
  | setup ep packet =>
    cases hstep
    exact hquiet rfl rfl hidle
  | controlOut ep packet data =>
    cases hstep
    obtain ⟨_, _, heq⟩ := queuesOnly_virtualHostControlOut s.1 ep packet.1 data.1
    refine hquiet rfl rfl (Eq.trans ?_ hidle)
    rw [heq]
  | outside w =>
    cases hstep
    exact hquiet rfl rfl hidle

end

/-! ## The registers -/

/-- The registers that store flags. -/
inductive FlagRegister where
  | controller
  | inEndpoint (ep : Fin numEndpoints)
  | outEndpoint (ep : Fin numEndpoints)
  deriving DecidableEq, Repr

namespace FlagRegister

/-- Where firmware reads the flags and acknowledges them. -/
def address : FlagRegister → U32
  | controller => gintsts
  | inEndpoint ep => diepintOffset ep
  | outEndpoint ep => doepintOffset ep

/-- The flags that are stored. -/
def flags (otg : OtgFs D) : FlagRegister → U32
  | controller => otg.globalInterruptStatus
  | inEndpoint ep => (otg.epIn ep).int
  | outEndpoint ep => (otg.epOut ep).int

def cleared (s : UsbState D) (a : UsbAction W) : FlagRegister → U32
  | controller => written gintsts a
  | inEndpoint ep => clearedEndpoint (diepintOffset ep) s a
  | outEndpoint ep => clearedEndpoint (doepintOffset ep) s a

def raised (s : UsbState D) (a : UsbAction W) : FlagRegister → U32
  | controller => raisedGlobal s a
  | inEndpoint ep => raisedIn ep s a
  | outEndpoint ep => raisedOut ep s a

/-- **One action latches the flags of a register.** -/
lemma flags_usbStep {move : W → D → D} {s s' : UsbState D} {a : UsbAction W}
    (hstep : usbStep move s a = some s') (register : FlagRegister) :
    register.flags s'.1 = latch (register.flags s.1) (register.cleared s a)
      (register.raised s a) := by
  cases register with
  | controller => exact status_usbStep hstep
  | inEndpoint ep => exact int_usbStep_in hstep ep
  | outEndpoint ep => exact int_usbStep_out hstep ep

end FlagRegister

end Stm32Emulator
