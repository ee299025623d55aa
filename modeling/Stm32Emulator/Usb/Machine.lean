import Stm32Emulator.Foundation.Run
import Stm32Emulator.Peripherals.OtgFs

/-!
# The USB machine

The controller and the outside world as one system.  Firmware reads and writes registers, the
emulator polls, the host resets the bus and sends packets, and the outside world moves by itself (a
client connects, or sends bytes).  All of these come in any order.
-/

namespace Stm32Emulator

open OtgFs

variable {D W : Type}

/-- The data of a SETUP packet. -/
abbrev SetupPacket := { packet : List U8 // packet.length = 8 }

/-- The data of one packet of a full-speed endpoint. -/
abbrev Payload := { data : List U8 // data.length ≤ 64 }

/-- The controller and the outside world. -/
abbrev UsbState (D : Type) := OtgFs D × D

inductive UsbAction (W : Type) where
  | read (offset : U32)
  | write (offset value : U32)
  | poll (nvic : Nvic) (numInstructions : ℕ)
  | busReset
  | setup (ep : Fin numEndpoints) (packet : SetupPacket)
  | controlOut (ep : Fin numEndpoints) (packet : SetupPacket) (data : Payload)
  | outside (w : W)

/-- One action; `none` is a panic. -/
def usbStep (move : W → D → D) (s : UsbState D) : UsbAction W → Option (UsbState D)
  | .read offset => (s.1.registerRead offset).map fun r => (r.1, s.2)
  | .write offset value => s.1.registerWrite s.2 offset value
  | .poll nvic n => (s.1.poll s.2 nvic n).map fun r => (r.1, r.2.1)
  | .busReset => some (s.1.virtualHostReset s.2)
  | .setup ep packet => some (s.1.virtualHostSetup ep packet, s.2)
  | .controlOut ep packet data => some (s.1.virtualHostControlOut ep packet data, s.2)
  | .outside w => some (s.1, move w s.2)

namespace OtgFs

/-- The IN endpoint is armed. -/
abbrev InArmed (otg : OtgFs D) (ep : Fin numEndpoints) : Prop :=
  (otg.epIn ep).ctl &&& diepctlEpena ≠ 0#32

/-- The size of the transfer that an IN endpoint has been given. -/
def inXfrsiz (otg : OtgFs D) (ep : Fin numEndpoints) : ℕ :=
  ((otg.epIn ep).tsiz &&& xfrsizMask).toNat

/-- The write is one to `DIEPCTL` that arms the endpoint. -/
abbrev ArmsIn (otg : OtgFs D) (ep : Fin numEndpoints) (offset value : U32) : Prop :=
  decodeEndpoint diepBase offset = some (ep, epCtlOffset) ∧ value &&& diepctlEpena ≠ 0#32 ∧
    ¬ otg.InArmed ep

/-- The refresh attaches the host, and so resets the bus. -/
def attaches (otg : OtgFs D) (d : D) (firmwareIrqEnabled : Bool) : Bool :=
  !otg.hostAttached && (otg.refreshVirtualHostAttachment d firmwareIrqEnabled).1.hostAttached

/-- A refresh that does not attach the host at most detaches it. -/
lemma refreshVirtualHostAttachment_cases (otg : OtgFs D) (d : D) (firmwareIrqEnabled : Bool) :
    otg.attaches d firmwareIrqEnabled = true ∧
        otg.refreshVirtualHostAttachment d firmwareIrqEnabled
          = { otg with hostAttached := true }.virtualHostReset d ∨
      otg.attaches d firmwareIrqEnabled = false ∧
        ∃ attached, otg.refreshVirtualHostAttachment d firmwareIrqEnabled
          = ({ otg with hostAttached := attached }, d) := by
  unfold attaches refreshVirtualHostAttachment
  dsimp only
  generalize otg.hostPresent d = hostPresent
  split
  · next h =>
    simp only [Bool.and_eq_true, Bool.not_eq_true'] at h
    exact Or.inl ⟨by simp [h.2, virtualHostReset, setGlobalInterruptStatus], rfl⟩
  split
  · exact Or.inr ⟨by simp, false, rfl⟩
  · exact Or.inr ⟨by simp, otg.hostAttached, rfl⟩

/-- A poll refreshes the attachment, may start a frame, and forwards a packet. -/
lemma poll_eq_some {otg : OtgFs D} {d : D} {nvic : Nvic} {n : ℕ} {r : OtgFs D × D × Nvic}
    (h : otg.poll d nvic n = some r) :
    (r.1, r.2.1) = (((otg.refreshVirtualHostAttachment d (nvic.isEnabled 67)).1.startOfFrame n)
      |>.forwardBulkOut (otg.refreshVirtualHostAttachment d (nvic.isEnabled 67)).2) := by
  obtain ⟨nvic', -, rfl⟩ := Option.map_eq_some_iff.mp h
  rfl

/-- Popping a status word touches the status queue and the OUT endpoints. -/
lemma popRxStatus_eq_some {otg : OtgFs D} {r : OtgFs D × U32} (h : otg.popRxStatus = some r) :
    r.2 = otg.rxStatus.headD 0 ∧
      ∃ epOut, r.1 = { otg with rxStatus := otg.rxStatus.tail, epOut := epOut } := by
  unfold popRxStatus at h
  dsimp only at h
  split_ifs at h <;> cases h <;> exact ⟨rfl, _, rfl⟩

/-- A register read pops a word of data, pops a status word, or changes nothing. -/
lemma registerRead_cases {otg : OtgFs D} {offset : U32} {r : OtgFs D × U32}
    (h : otg.registerRead offset = some r) :
    fifoEndpoint offset = some 0 ∧ r = otg.popRxFifoWord ∨
      fifoEndpoint offset ≠ some 0 ∧ offset = grxstsp ∧ otg.popRxStatus = some r ∨
      fifoEndpoint offset ≠ some 0 ∧ offset ≠ grxstsp ∧ r.1 = otg := by
  have hdecode {base ep reg} (hbase : base ≤ doepBase ∧ diepBase ≤ base)
      (hd : decodeEndpoint base offset = some (ep, reg)) : offset ≠ grxstsp := by
    rintro rfl
    rw [decodeEndpoint, if_pos (lt_of_lt_of_le (by decide) hbase.2)] at hd
    cases hd
  unfold registerRead at h
  split at h
  · next ep hfifo =>
    split at h
    · next hep =>
      subst hep
      cases h
      exact Or.inl ⟨hfifo, rfl⟩
    · next hep =>
      cases h
      refine Or.inr (Or.inr ⟨by simpa [hfifo] using hep, ?_, rfl⟩)
      rintro rfl
      rw [show fifoEndpoint grxstsp = none by decide] at hfifo
      cases hfifo
  · next hfifo =>
    have hne : fifoEndpoint offset ≠ some 0 := by simp [hfifo]
    split at h
    · next hd =>
      cases h
      exact Or.inr (Or.inr ⟨hne, hdecode (by decide) hd, rfl⟩)
    split at h
    · next hd =>
      cases h
      exact Or.inr (Or.inr ⟨hne, hdecode (by decide) hd, rfl⟩)
    by_cases hpop : offset = grxstsp
    · subst hpop
      exact Or.inr (Or.inl ⟨hne, rfl, h⟩)
    · refine Or.inr (Or.inr ⟨hne, hpop, ?_⟩)
      have hsome (x : U32) (hx : some (otg, x) = some r) : r.1 = otg := by
        cases hx
        rfl
      iterate 3
        rcases ite_eq_iff.mp h with ⟨-, h⟩ | ⟨-, h⟩
        · exact hsome _ h
      rw [if_neg hpop] at h
      iterate 8
        rcases ite_eq_iff.mp h with ⟨-, h⟩ | ⟨-, h⟩
        · exact hsome _ h
      exact hsome _ h

/-! ## Words for a FIFO -/

@[simp] lemma epIn_modifyIn (otg : OtgFs D) (ep : Fin numEndpoints)
    (f : EndpointRegs → EndpointRegs) : (otg.modifyIn ep f).epIn ep = f (otg.epIn ep) :=
  Function.update_self ..

/-- The endpoint is no longer armed. -/
def disarm (otg : OtgFs D) (ep : Fin numEndpoints) : OtgFs D :=
  otg.modifyIn ep fun regs => { regs with ctl := regs.ctl &&& ~~~diepctlEpena }

lemma not_inArmed_disarm (otg : OtgFs D) (ep : Fin numEndpoints) :
    ¬ (otg.disarm ep).InArmed ep := by
  simp only [disarm, InArmed, epIn_modifyIn, not_not]
  rw [BitVec.and_assoc, BitVec.and_comm (~~~_), BitVec.and_not_self]
  exact BitVec.and_zero

/-- One more word in the FIFO of an endpoint. -/
def pushed (otg : OtgFs D) (ep : Fin numEndpoints) (value : U32) : OtgFs D :=
  { otg with
    txFifo := Function.update otg.txFifo ep (otg.txFifo ep ++ toLeBytes value) }.modifyIn ep
    fun regs => { regs with armedInBytesSent := regs.armedInBytesSent + 4 }

/-- The word that completes an armed transfer ends it. -/
lemma pushTxFifoWord_eq_some {otg : OtgFs D} {d : D} {ep : Fin numEndpoints} {value : U32}
    {r : OtgFs D × D} (h : otg.pushTxFifoWord d ep value = some r) :
    r = if otg.InArmed ep ∧ otg.inXfrsiz ep ≤ (otg.epIn ep).armedInBytesSent + 4 then
      ((otg.pushed ep value).disarm ep).completeInTransfer d ep
    else
      (otg.pushed ep value, d) := by
  unfold pushTxFifoWord at h
  dsimp only at h
  split at h
  · cases h
  simp only [epIn_modifyIn] at h
  rw [← apply_ite some] at h
  cases h
  simp only [bne_iff_ne]
  rfl

/-! ## Register writes -/

/-- What a write to a register outside the endpoint banks leaves alone. -/
structure GlobalFrame (otg otg' : OtgFs D) : Prop where
  bridge : otg'.bridge = otg.bridge
  bulkInEndpoint : otg'.bulkInEndpoint = otg.bulkInEndpoint
  bulkOutEndpoint : otg'.bulkOutEndpoint = otg.bulkOutEndpoint
  virtualHostStep : otg'.virtualHostStep = otg.virtualHostStep
  hostAttached : otg'.hostAttached = otg.hostAttached
  epOut : otg'.epOut = otg.epOut
  rxFifo : otg'.rxFifo = otg.rxFifo
  rxStatus : otg'.rxStatus = otg.rxStatus
  txFifo : otg'.txFifo = otg.txFifo
  /-- Of the IN endpoints only interrupts are raised. -/
  epIn : ∀ ep, otg'.epIn ep = { otg.epIn ep with int := (otg'.epIn ep).int }

lemma GlobalFrame.writeDiepempmsk (otg : OtgFs D) (value : U32) :
    GlobalFrame otg (otg.writeDiepempmsk value) := by
  refine ⟨rfl, rfl, rfl, rfl, rfl, rfl, rfl, rfl, rfl, fun ep => ?_⟩
  unfold OtgFs.writeDiepempmsk
  dsimp only
  split <;> rfl

/-- The kinds of register writes: a word for a FIFO, the control register, the interrupts or the
size of an endpoint, or a register outside the endpoint banks. -/
inductive RegisterWrite (otg : OtgFs D) (d : D) (offset value : U32) : OtgFs D × D → Prop
  | fifo {ep : Fin numEndpoints} {r : OtgFs D × D} (hfifo : fifoEndpoint offset = some ep)
      (h : otg.pushTxFifoWord d ep value = some r) : RegisterWrite otg d offset value r
  | diepctl {ep : Fin numEndpoints} (hfifo : fifoEndpoint offset = none)
      (hdecode : decodeEndpoint diepBase offset = some (ep, epCtlOffset)) :
      RegisterWrite otg d offset value (otg.writeDiepctl d ep value)
  | diep {ep : Fin numEndpoints} {reg : ℕ} {f : EndpointRegs → EndpointRegs}
      (hfifo : fifoEndpoint offset = none)
      (hdecode : decodeEndpoint diepBase offset = some (ep, reg)) (hreg : reg ≠ epCtlOffset)
      (hf : ∀ regs, (f regs).ctl = regs.ctl ∧ (f regs).armedInBytesSent = regs.armedInBytesSent) :
      RegisterWrite otg d offset value (otg.modifyIn ep f, d)
  | doepctl {ep : Fin numEndpoints} (hfifo : fifoEndpoint offset = none)
      (hdiep : decodeEndpoint diepBase offset = none)
      (hdecode : decodeEndpoint doepBase offset = some (ep, epCtlOffset)) :
      RegisterWrite otg d offset value (otg.writeDoepctl ep value, d)
  | doep {ep : Fin numEndpoints} {reg : ℕ} {f : EndpointRegs → EndpointRegs}
      (hfifo : fifoEndpoint offset = none) (hdiep : decodeEndpoint diepBase offset = none)
      (hdecode : decodeEndpoint doepBase offset = some (ep, reg)) (hreg : reg ≠ epCtlOffset) :
      RegisterWrite otg d offset value (otg.modifyOut ep f, d)
  | global {otg' : OtgFs D} {d' : D} (hfifo : fifoEndpoint offset = none)
      (hdiep : decodeEndpoint diepBase offset = none)
      (hdoep : decodeEndpoint doepBase offset = none) (hframe : GlobalFrame otg otg')
      (hd : d' = d ∨ ∃ bridge, otg.bridge = some bridge ∧
        d' = bridge.setProtocolStage .usbStarted d) :
      RegisterWrite otg d offset value (otg', d')

lemma modifyIn_id (otg : OtgFs D) (ep : Fin numEndpoints) : otg.modifyIn ep id = otg := by
  simp [modifyIn]

lemma modifyOut_id (otg : OtgFs D) (ep : Fin numEndpoints) : otg.modifyOut ep id = otg := by
  simp [modifyOut]

/-- Every register write is of one of these kinds. -/
theorem registerWrite_cases {otg : OtgFs D} {d : D} {offset value : U32} {r : OtgFs D × D}
    (h : otg.registerWrite d offset value = some r) : RegisterWrite otg d offset value r := by
  unfold registerWrite at h
  split at h
  · next hfifo => exact .fifo hfifo h
  next hfifo =>
  split at h
  · next ep reg hdecode =>
    cases h
    by_cases hctl : reg = epCtlOffset
    · subst hctl
      exact .diepctl hfifo hdecode
    rw [if_neg hctl]
    split_ifs
    · exact .diep hfifo hdecode hctl fun _ => ⟨rfl, rfl⟩
    · exact .diep hfifo hdecode hctl fun _ => ⟨rfl, rfl⟩
    · have : RegisterWrite otg d offset value (otg.modifyIn ep id, d) :=
        .diep hfifo hdecode hctl fun _ => ⟨rfl, rfl⟩
      rwa [modifyIn_id] at this
  next hdiep =>
  split at h
  · next ep reg hdecode =>
    cases h
    by_cases hctl : reg = epCtlOffset
    · subst hctl
      exact .doepctl hfifo hdiep hdecode
    rw [if_neg hctl]
    split_ifs
    · exact .doep hfifo hdiep hdecode hctl
    · exact .doep hfifo hdiep hdecode hctl
    · have : RegisterWrite otg d offset value (otg.modifyOut ep id, d) :=
        .doep hfifo hdiep hdecode hctl
      rwa [modifyOut_id] at this
  next hdoep =>
  have hsame {otg' : OtgFs D} (h : some (otg', d) = some r) (hframe : GlobalFrame otg otg') :
      RegisterWrite otg d offset value r := by
    cases h
    exact .global hfifo hdiep hdoep hframe (Or.inl rfl)
  have hrfl : ∀ ep, otg.epIn ep = { otg.epIn ep with int := (otg.epIn ep).int } := fun _ => rfl
  rcases ite_eq_iff.mp h with ⟨-, h⟩ | ⟨-, h⟩
  · exact hsame h ⟨rfl, rfl, rfl, rfl, rfl, rfl, rfl, rfl, rfl, hrfl⟩
  rcases ite_eq_iff.mp h with ⟨-, h⟩ | ⟨-, h⟩
  · cases h
    refine .global hfifo hdiep hdoep ⟨rfl, rfl, rfl, rfl, rfl, rfl, rfl, rfl, rfl, hrfl⟩ ?_
    split
    · next bridge hbridge =>
      split
      · exact Or.inr ⟨bridge, hbridge, rfl⟩
      · exact Or.inl rfl
    · exact Or.inl rfl
  iterate 6
    rcases ite_eq_iff.mp h with ⟨-, h⟩ | ⟨-, h⟩
    · exact hsame h ⟨rfl, rfl, rfl, rfl, rfl, rfl, rfl, rfl, rfl, hrfl⟩
  rcases ite_eq_iff.mp h with ⟨-, h⟩ | ⟨-, h⟩
  · exact hsame h (GlobalFrame.writeDiepempmsk otg value)
  · exact hsame h ⟨rfl, rfl, rfl, rfl, rfl, rfl, rfl, rfl, rfl, hrfl⟩

/-- The FIFO windows lie past the endpoint registers. -/
lemma fifoEndpoint_eq_none_of_decodeEndpoint {base : ℕ} {offset : U32} {ep : Fin numEndpoints}
    {reg : ℕ} (hbase : base ≤ doepBase) (h : decodeEndpoint base offset = some (ep, reg)) :
    fifoEndpoint offset = none := by
  unfold decodeEndpoint at h
  unfold fifoEndpoint
  split at h
  · cases h
  · dsimp only at h
    split at h
    · next hlt =>
      have hlt : (offset.toNat - base) / 0x20 < 6 := hlt
      have hbase : base ≤ 0xb00 := hbase
      exact if_pos (show offset.toNat < 0x1000 by omega)
    · cases h

/-- The two banks of endpoint registers do not overlap. -/
lemma decodeEndpoint_doepBase_of_diepBase {offset : U32} {ep : Fin numEndpoints} {reg : ℕ}
    (h : decodeEndpoint diepBase offset = some (ep, reg)) :
    decodeEndpoint doepBase offset = none := by
  unfold decodeEndpoint at h ⊢
  split at h
  · cases h
  · dsimp only at h
    split at h
    · next hlt =>
      have hlt : (offset.toNat - 0x900) / 0x20 < 6 := hlt
      exact if_pos (show offset.toNat < 0xb00 by omega)
    · cases h

end OtgFs

end Stm32Emulator
