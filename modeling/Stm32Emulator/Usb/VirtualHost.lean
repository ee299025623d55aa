import Stm32Emulator.Usb.Machine

/-!
# What the operations of the controller change

The moves of the virtual host, the end of a transfer and the register writes, each as an update of
the controller in which every field that is not named stays as it is.
-/

namespace Stm32Emulator

open OtgFs Function

variable {D W : Type}

/-- The step that follows the end of a control transfer. -/
def VirtualHostStep.next : VirtualHostStep → VirtualHostStep
  | awaitingDeviceDescriptor => .awaitingSetAddressStatus
  | awaitingSetAddressStatus => .awaitingSetConfigurationStatus
  | awaitingSetConfigurationStatus => .awaitingSetLineCodingStatus
  | awaitingSetLineCodingStatus => .awaitingSetControlLineStateStatus
  | awaitingSetControlLineStateStatus => .configured
  | configured => .configured

namespace OtgFs

/-- The bridge hears of every step but the one that repeats. -/
def stageAfterAdvance (otg : OtgFs D) (d : D) : D :=
  match otg.bridge with
  | some bridge =>
    if otg.virtualHostStep.next ≠ otg.virtualHostStep then
      bridge.setProtocolStage otg.virtualHostStep.next.stage d
    else d
  | none => d

/-- Only the two receive queues have changed. -/
def QueuesOnly (otg otg' : OtgFs D) : Prop :=
  ∃ rxFifo rxStatus, otg' = { otg with rxFifo := rxFifo, rxStatus := rxStatus }

lemma QueuesOnly.refl (otg : OtgFs D) : QueuesOnly otg otg := ⟨otg.rxFifo, otg.rxStatus, rfl⟩

lemma QueuesOnly.trans {otg otg' otg'' : OtgFs D} (h : QueuesOnly otg otg')
    (h' : QueuesOnly otg' otg'') : QueuesOnly otg otg'' := by
  obtain ⟨_, _, rfl⟩ := h
  obtain ⟨rxFifo, rxStatus, rfl⟩ := h'
  exact ⟨rxFifo, rxStatus, rfl⟩

lemma queuesOnly_queueRx (otg : OtgFs D) (status : U32) (bytes : List U8) :
    QueuesOnly otg (otg.queueRx status bytes) := ⟨_, _, rfl⟩

lemma queuesOnly_virtualHostSetup (otg : OtgFs D) (ep : Fin numEndpoints) (packet : List U8) :
    QueuesOnly otg (otg.virtualHostSetup ep packet) :=
  (queuesOnly_queueRx _ _ _).trans (queuesOnly_queueRx _ _ _)

lemma queuesOnly_virtualHostControlOut (otg : OtgFs D) (ep : Fin numEndpoints)
    (packet data : List U8) : QueuesOnly otg (otg.virtualHostControlOut ep packet data) := by
  unfold virtualHostControlOut
  dsimp only
  split
  · exact queuesOnly_virtualHostSetup _ _ _
  · exact (queuesOnly_virtualHostSetup _ _ _).trans
      ((queuesOnly_queueRx _ _ _).trans (queuesOnly_queueRx _ _ _))

/-- A write of the control register of an OUT endpoint stores it, and may queue a request of the
host. -/
lemma queuesOnly_writeDoepctl (otg : OtgFs D) (ep : Fin numEndpoints) (value : U32) :
    QueuesOnly (otg.modifyOut ep fun regs => { regs with ctl := value })
    (otg.writeDoepctl ep value) := by
  unfold writeDoepctl
  dsimp only
  split
  · exact queuesOnly_virtualHostSetup _ _ _
  · exact QueuesOnly.refl _

/-- The host queues packets and takes the next step. -/
lemma advanceVirtualHost_eq (otg : OtgFs D) (d : D) :
    ∃ queued, QueuesOnly otg queued ∧ otg.advanceVirtualHost d =
      ({ queued with virtualHostStep := otg.virtualHostStep.next }, otg.stageAfterAdvance d) := by
  unfold advanceVirtualHost stageAfterAdvance
  generalize otg.virtualHostStep = step
  cases step with
  | awaitingDeviceDescriptor =>
    exact ⟨_, (queuesOnly_queueRx _ _ _).trans ((queuesOnly_queueRx _ _ _).trans
      (queuesOnly_virtualHostSetup _ _ _)), rfl⟩
  | awaitingSetAddressStatus => exact ⟨_, queuesOnly_virtualHostSetup _ _ _, rfl⟩
  | awaitingSetConfigurationStatus => exact ⟨_, queuesOnly_virtualHostControlOut _ _ _ _, rfl⟩
  | awaitingSetLineCodingStatus => exact ⟨_, queuesOnly_virtualHostSetup _ _ _, rfl⟩
  | awaitingSetControlLineStateStatus => exact ⟨_, QueuesOnly.refl _, rfl⟩
  | configured => exact ⟨_, QueuesOnly.refl _, rfl⟩

/-- The end of a transfer on endpoint zero. -/
lemma completeInTransfer_zero (otg : OtgFs D) (d : D) :
    ∃ queued, QueuesOnly otg queued ∧ otg.completeInTransfer d 0 =
      ({ queued.raiseInEndpointInterrupt 0 diepintXfrc with
          txFifo := update otg.txFifo 0 []
          virtualHostStep := otg.virtualHostStep.next }, otg.stageAfterAdvance d) := by
  unfold completeInTransfer
  dsimp only
  rw [if_pos rfl]
  obtain ⟨queued, ⟨rxFifo, rxStatus, rfl⟩, heq⟩ := advanceVirtualHost_eq
    { otg.raiseInEndpointInterrupt 0 diepintXfrc with txFifo := update otg.txFifo 0 [] } d
  exact ⟨{ otg with rxFifo := rxFifo, rxStatus := rxStatus }, ⟨_, _, rfl⟩, heq⟩

/-- The end of a transfer on another endpoint. -/
lemma completeInTransfer_of_ne (otg : OtgFs D) (d : D) {ep : Fin numEndpoints} (hep : ep ≠ 0) :
    ∃ txFifo pendingBridgeWrites d', otg.completeInTransfer d ep =
      ({ otg.raiseInEndpointInterrupt ep diepintXfrc with
          txFifo := txFifo, pendingBridgeWrites := pendingBridgeWrites }, d') ∧
      (d' = d ∨ otg.isConfigured = true ∧ some ep = otg.bulkInEndpoint ∧
        ∃ bridge bytes, otg.bridge = some bridge ∧ d' = bridge.pushFromDevice bytes d) := by
  unfold completeInTransfer
  dsimp only
  rw [if_neg hep]
  split
  · next hbulk =>
    split
    · next bridge hbridge =>
        exact ⟨_, _, _, rfl, Or.inr ⟨hbulk.1, hbulk.2, bridge, _, hbridge, rfl⟩⟩
    · exact ⟨_, _, _, rfl, Or.inl rfl⟩
  · exact ⟨_, _, _, rfl, Or.inl rfl⟩

/-! ## Data from the bridge -/

/-- The room that an OUT endpoint has been given. -/
def outXfrsiz (otg : OtgFs D) (ep : Fin numEndpoints) : ℕ :=
  ((otg.epOut ep).tsiz &&& xfrsizMask).toNat

/-- The bulk endpoint of a configured device is armed and has room for data from the bridge. -/
structure ReadyOut (otg : OtgFs D) (ep : Fin numEndpoints) (bridge : UsbBridge D) : Prop where
  configured : otg.isConfigured = true
  endpoint : otg.bulkOutEndpoint = some ep
  bridge : otg.bridge = some bridge
  armed : (otg.epOut ep).ctl &&& diepctlEpena ≠ 0#32
  room : otg.outXfrsiz ep ≠ 0

/-- A packet has arrived: the endpoint is disarmed and has less room. -/
def packetArrived (otg : OtgFs D) (ep : Fin numEndpoints) (bytes : List U8) : OtgFs D :=
  ((otg.modifyOut ep fun regs =>
    { regs with
      ctl := regs.ctl &&& ~~~diepctlEpena
      tsiz := (regs.tsiz &&& ~~~xfrsizMask) |||
        BitVec.ofNat 32 (otg.outXfrsiz ep - bytes.length) }).queueRx
    (rxStatusWord rxstsOutData bytes.length ep) bytes).queueRx (rxStatusWord rxstsOutComp 0 ep) []

/-- The bytes that a ready endpoint takes from the bridge arrive as a packet, if there are any. -/
lemma forwardBulkOut_of_ready {otg : OtgFs D} {ep : Fin numEndpoints} {bridge : UsbBridge D}
    (h : otg.ReadyOut ep bridge) (d : D) :
    otg.forwardBulkOut d =
      (if (bridge.takeForDevice (min 64 (otg.outXfrsiz ep)) d).1 = [] then otg
        else otg.packetArrived ep (bridge.takeForDevice (min 64 (otg.outXfrsiz ep)) d).1,
        (bridge.takeForDevice (min 64 (otg.outXfrsiz ep)) d).2) := by
  unfold forwardBulkOut
  rw [if_neg (by rw [h.configured]; decide), h.endpoint, h.bridge]
  have hroom : ((otg.epOut ep).tsiz &&& xfrsizMask).toNat ≠ 0 := h.room
  dsimp only
  rw [if_neg h.armed, if_neg hroom]
  exact (apply_ite (fun otg' => (otg', _)) _ _ _).symm

/-- Without a ready endpoint the bridge is left alone. -/
lemma forwardBulkOut_of_not_ready {otg : OtgFs D} (h : ∀ ep bridge, ¬ otg.ReadyOut ep bridge)
    (d : D) :
    otg.forwardBulkOut d = (otg, d) := by
  unfold forwardBulkOut
  split
  · rfl
  next hconfigured =>
  split
  · next ep bridge hendpoint hbridge =>
    split
    · rfl
    next harmed =>
    dsimp only
    split
    · rfl
    · next hroom =>
      exact absurd ⟨by simpa using hconfigured, hendpoint, hbridge, harmed, hroom⟩ (h ep bridge)
  · rfl

/-- Data from the bridge changes the OUT endpoints and the receive queues only. -/
lemma forwardBulkOut_eq (otg : OtgFs D) (d : D) :
    ∃ epOut rxFifo rxStatus, (otg.forwardBulkOut d).1 =
      { otg with epOut := epOut, rxFifo := rxFifo, rxStatus := rxStatus } := by
  by_cases h : ∃ ep bridge, otg.ReadyOut ep bridge
  · obtain ⟨ep, bridge, h⟩ := h
    rw [forwardBulkOut_of_ready h]
    dsimp only
    split
    · exact ⟨_, _, _, rfl⟩
    · exact ⟨_, _, _, rfl⟩
  · rw [forwardBulkOut_of_not_ready fun ep bridge hready => h ⟨ep, bridge, hready⟩]
    exact ⟨_, _, _, rfl⟩

/-! ## Polls and reads -/

/-- What a poll changes before it forwards a packet. -/
def sampled (otg : OtgFs D) (attached : Bool) (status : U32) (last : ℕ) : OtgFs D :=
  { otg with hostAttached := attached, globalInterruptStatus := status, lastSofInstruction := last }

/-- The start of a frame only raises an interrupt. -/
lemma startOfFrame_eq (otg : OtgFs D) (n : ℕ) :
    ∃ status last, otg.startOfFrame n = otg.sampled otg.hostAttached status last := by
  unfold startOfFrame
  split
  · exact ⟨_, _, rfl⟩
  · exact ⟨_, _, rfl⟩

/-- The host is attached when a client is present and firmware has its interrupts on. -/
lemma attaches_eq (otg : OtgFs D) (d : D) (firmwareIrqEnabled : Bool) :
    otg.attaches d firmwareIrqEnabled =
      (otg.hostPresent d && (otg.globalInterruptMask != 0#32 && firmwareIrqEnabled) &&
        !otg.hostAttached) := by
  unfold attaches refreshVirtualHostAttachment
  dsimp only
  split
  · next h =>
    rw [h]
    simp only [Bool.and_eq_true] at h
    rw [h.2, Bool.true_and]
    rfl
  next h =>
  rw [Bool.not_eq_true _ |>.mp h]
  split
  · exact Bool.and_false _
  · exact Bool.not_and_self _

/-- Otherwise it stays attached only as long as a client is present. -/
lemma refreshVirtualHostAttachment_of_not_attaches {otg : OtgFs D} {d : D}
    {firmwareIrqEnabled : Bool} (h : otg.attaches d firmwareIrqEnabled = false) :
    otg.refreshVirtualHostAttachment d firmwareIrqEnabled =
      ({ otg with hostAttached := otg.hostAttached && otg.hostPresent d }, d) := by
  rw [attaches_eq] at h
  unfold refreshVirtualHostAttachment
  dsimp only
  rw [if_neg (by rw [h]; exact Bool.false_ne_true)]
  cases hpresent : otg.hostPresent d
  · rw [Bool.and_false]
    rfl
  · rw [Bool.and_true]
    rfl

/-- A poll attaches the host, and then forwards nothing, or it keeps the host only as long as one is
present and may forward a packet. -/
lemma poll_cases {otg : OtgFs D} {d : D} {nvic : Nvic} {n : ℕ} {r : OtgFs D × D × Nvic}
    (h : otg.poll d nvic n = some r) :
    otg.attaches d (nvic.isEnabled 67) = true ∧
        (∃ status last, r.1 = (otg.virtualHostReset d).1.sampled true status last ∧
          r.2.1 = (otg.virtualHostReset d).2) ∨
      otg.attaches d (nvic.isEnabled 67) = false ∧
        (∃ status last,
          r.1 =
            ((otg.sampled (otg.hostAttached && otg.hostPresent d) status last).forwardBulkOut d).1 ∧
          r.2.1 =
            ((otg.sampled (otg.hostAttached && otg.hostPresent d) status last).forwardBulkOut
              d).2) := by
  have hr := poll_eq_some h
  rcases otg.refreshVirtualHostAttachment_cases d (nvic.isEnabled 67) with ⟨hattaches,
    heq⟩ | ⟨hnot, -⟩
  · left
    obtain ⟨status, last, hsof⟩ :=
      startOfFrame_eq ({ otg with hostAttached := true }.virtualHostReset d).1 n
    have hidle :
        (({ otg with hostAttached := true }.virtualHostReset d).1.startOfFrame n).isConfigured
        = false := by
      rw [hsof]
      rfl
    have hforward :
        (({ otg with hostAttached := true }.virtualHostReset d).1.startOfFrame n).forwardBulkOut
        ({ otg with hostAttached := true }.virtualHostReset d).2 = (_, _) := if_pos hidle
    rw [heq, hforward] at hr
    refine ⟨hattaches, status, last, (congrArg Prod.fst hr).trans ?_, congrArg Prod.snd hr⟩
    rw [hsof]
    rfl
  · right
    obtain ⟨status, last, hsof⟩ :=
      startOfFrame_eq { otg with hostAttached := otg.hostAttached && otg.hostPresent d } n
    rw [refreshVirtualHostAttachment_of_not_attaches hnot, hsof] at hr
    exact ⟨hnot, status, last, congrArg Prod.fst hr, congrArg Prod.snd hr⟩

/-- Popping a status word raises at most an interrupt of an OUT endpoint. -/
lemma popRxStatus_epOut {otg : OtgFs D} {r : OtgFs D × U32} (h : otg.popRxStatus = some r)
    (ep : Fin numEndpoints) : ∃ int, r.1.epOut ep = { otg.epOut ep with int := int } := by
  have hraise (otg : OtgFs D) (other : Fin numEndpoints) (bits : U32) :
      ∃ int, (otg.raiseOutEndpointInterrupt other bits).epOut ep =
        { otg.epOut ep with int := int } := by
    unfold raiseOutEndpointInterrupt modifyOut
    dsimp only
    by_cases hep : ep = other
    · subst hep
      rw [update_self]
      exact ⟨_, rfl⟩
    · rw [update_of_ne hep]
      exact ⟨_, rfl⟩
  unfold popRxStatus at h
  dsimp only at h
  split_ifs at h <;> cases h
  · exact hraise _ _ _
  · exact hraise _ _ _
  · exact ⟨_, rfl⟩

/-! ## Register writes -/

lemma modifyIn_modifyIn (otg : OtgFs D) (ep : Fin numEndpoints)
    (f g : EndpointRegs → EndpointRegs) :
    (otg.modifyIn ep f).modifyIn ep g = otg.modifyIn ep (g ∘ f) := by
  simp only [modifyIn, update_self, update_idem, comp_apply]

/-- The endpoint is enabled for a new transfer. -/
def enabled (otg : OtgFs D) (ep : Fin numEndpoints) (value : U32) : OtgFs D :=
  otg.modifyIn ep fun regs => { regs with ctl := value, armedInBytesSent := 0 }

lemma inXfrsiz_eq_zero_iff (otg : OtgFs D) (ep : Fin numEndpoints) :
    otg.inXfrsiz ep = 0 ↔ (otg.epIn ep).tsiz &&& xfrsizMask = 0#32 :=
  ⟨fun h => BitVec.eq_of_toNat_eq h, fun h => by simp [inXfrsiz, h]⟩

/-- A write to `DIEPCTL` that arms an empty transfer completes it at once. -/
lemma writeDiepctl_of_empty {otg : OtgFs D} {ep : Fin numEndpoints} {value : U32}
    (harms : value &&& diepctlEpena ≠ 0#32 ∧ ¬ otg.InArmed ep) (hempty : otg.inXfrsiz ep = 0)
    (d : D) :
    otg.writeDiepctl d ep value = ((otg.enabled ep value).disarm ep).completeInTransfer d ep := by
  unfold writeDiepctl
  dsimp only
  rw [if_pos (by simpa only [bne_iff_ne] using harms), modifyIn_modifyIn, epIn_modifyIn]
  dsimp only [comp_apply]
  rw [if_pos ((inXfrsiz_eq_zero_iff otg ep).mp hempty)]
  rfl

/-- Any other write to `DIEPCTL` changes the endpoint only. -/
lemma writeDiepctl_of_not_empty {otg : OtgFs D} {ep : Fin numEndpoints} {value : U32}
    (h : ¬ ((value &&& diepctlEpena ≠ 0#32 ∧ ¬ otg.InArmed ep) ∧ otg.inXfrsiz ep = 0)) (d : D) :
    ∃ f, otg.writeDiepctl d ep value = (otg.modifyIn ep f, d) ∧ ∀ regs, (f regs).ctl = value := by
  rw [inXfrsiz_eq_zero_iff] at h
  unfold writeDiepctl
  dsimp only
  split
  · next harms =>
    rw [modifyIn_modifyIn, epIn_modifyIn]
    dsimp only [comp_apply]
    rw [if_neg fun hempty => h ⟨by simpa only [bne_iff_ne] using harms, hempty⟩]
    split
    · exact ⟨_, congrArg (·, d) (modifyIn_modifyIn _ _ _ _), fun _ => rfl⟩
    · exact ⟨_, rfl, fun _ => rfl⟩
  · exact ⟨_, rfl, fun _ => rfl⟩

/-- A write to a register of an IN endpoint. -/
lemma registerWrite_diep {otg : OtgFs D} {d : D} {offset value : U32} {ep : Fin numEndpoints}
    {reg : ℕ} (hdecode : decodeEndpoint diepBase offset = some (ep, reg)) :
    otg.registerWrite d offset value = some (
      if reg = epCtlOffset then otg.writeDiepctl d ep value
      else if reg = epIntOffset then
        (otg.modifyIn ep fun regs => { regs with int := regs.int &&& ~~~value }, d)
      else if reg = epTsizOffset then
        (otg.modifyIn ep fun regs => { regs with tsiz := value }, d)
      else (otg, d)) := by
  unfold registerWrite
  rw [fifoEndpoint_eq_none_of_decodeEndpoint (by decide) hdecode, hdecode]

/-- A write to a register of an OUT endpoint. -/
lemma registerWrite_doep {otg : OtgFs D} {d : D} {offset value : U32} {ep : Fin numEndpoints}
    {reg : ℕ} (hdiep : decodeEndpoint diepBase offset = none)
    (hdecode : decodeEndpoint doepBase offset = some (ep, reg)) :
    otg.registerWrite d offset value = some (
      if reg = epCtlOffset then (otg.writeDoepctl ep value, d)
      else if reg = epIntOffset then
        (otg.modifyOut ep fun regs => { regs with int := regs.int &&& ~~~value }, d)
      else if reg = epTsizOffset then
        (otg.modifyOut ep fun regs => { regs with tsiz := value }, d)
      else (otg, d)) := by
  unfold registerWrite
  rw [fifoEndpoint_eq_none_of_decodeEndpoint (by decide) hdecode, hdiep, hdecode]

/-- The stage that the bridge is told when the interrupts are first unmasked. -/
def stageAfterGintmsk (otg : OtgFs D) (d : D) (value : U32) : D :=
  match otg.bridge with
  | some bridge =>
    if otg.globalInterruptMask = 0#32 ∧
      value ≠ 0#32 then bridge.setProtocolStage .usbStarted d else d
  | none => d

/-- A write past the endpoint banks: one to the interrupt mask, one to the FIFO-empty mask, or one
to a register on which nothing depends. -/
lemma registerWrite_global {otg : OtgFs D} {d : D} {offset value : U32} {r : OtgFs D × D}
    (h : otg.registerWrite d offset value = some r) (hfifo : fifoEndpoint offset = none)
    (hdiep : decodeEndpoint diepBase offset = none)
    (hdoep : decodeEndpoint doepBase offset = none) :
    offset = gintmsk ∧ r = ({ otg with globalInterruptMask := value },
      otg.stageAfterGintmsk d value) ∨
    offset ≠ gintmsk ∧ offset = diepempmsk ∧ r = (otg.writeDiepempmsk value, d) ∨
    offset ≠ gintmsk ∧ offset ≠ diepempmsk ∧ r.2 = d ∧ GlobalFrame otg r.1 ∧ r.1.epIn = otg.epIn ∧
      r.1.diepEmptyMask = otg.diepEmptyMask ∧
      r.1.globalInterruptMask = otg.globalInterruptMask := by
  unfold registerWrite at h
  rw [hfifo, hdiep, hdoep] at h
  dsimp only at h
  by_cases hgintmsk : offset = gintmsk
  · subst hgintmsk
    cases h
    exact Or.inl ⟨rfl, rfl⟩
  by_cases hdiepempmsk : offset = diepempmsk
  · subst hdiepempmsk
    cases h
    exact Or.inr (Or.inl ⟨by decide, rfl, rfl⟩)
  refine Or.inr (Or.inr ⟨hgintmsk, hdiepempmsk, ?_⟩)
  have hrfl : ∀ ep, otg.epIn ep = { otg.epIn ep with int := (otg.epIn ep).int } := fun _ => rfl
  rw [if_neg hgintmsk, if_neg hdiepempmsk] at h
  split_ifs at h <;> cases h <;>
    exact ⟨rfl, ⟨rfl, rfl, rfl, rfl, rfl, rfl, rfl, rfl, rfl, hrfl⟩, rfl, rfl, rfl⟩

end OtgFs

end Stm32Emulator
