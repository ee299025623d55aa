import Stm32Emulator.Usb.VirtualHost

/-!
# The controller as a user of its bridge

The controller reaches the outside world through its bridge only.  Every action makes at most one
call of the bridge, which the controller alone decides (`bridgeCall`, `snd_eq_of_usbStep`); and over
two bridges that answer alike it does the same (`usbStep_over`).
-/

namespace Stm32Emulator

open OtgFs Function

variable {D D' W W' : Type}

/-! ## Bridges that answer alike -/

/-- The bridge `b'` does in the image of the outside world what `b` does in it. -/
structure BridgeHom (b : UsbBridge D) (b' : UsbBridge D') (f : D → D') : Prop where
  pushFromDevice : ∀ bytes d, b'.pushFromDevice bytes (f d) = f (b.pushFromDevice bytes d)
  takeForDevice : ∀ maximum d, b'.takeForDevice maximum (f d) =
    ((b.takeForDevice maximum d).1, f (b.takeForDevice maximum d).2)
  isClientConnected : ∀ d, b'.isClientConnected (f d) = b.isClientConnected d
  setProtocolStage : ∀ stage d, b'.setProtocolStage stage (f d) = f (b.setProtocolStage stage d)

namespace OtgFs

/-- The controller on another bridge. -/
def onBridge (otg : OtgFs D) (b' : UsbBridge D') : OtgFs D' :=
  { otg with bridge := some b' }

/-- The controller on another bridge, in the image of the outside world. -/
def carry (b' : UsbBridge D') (f : D → D') (s : UsbState D) : UsbState D' :=
  (s.1.onBridge b', f s.2)

variable {b : UsbBridge D} {b' : UsbBridge D'} {f : D → D'} {otg : OtgFs D}

lemma carry_ite (b' : UsbBridge D') (f : D → D') (c : Prop) [Decidable c] (s s' : UsbState D) :
    carry b' f (if c then s else s') = if c then carry b' f s else carry b' f s' :=
  apply_ite (carry b' f) c s s'

lemma onBridge_ite (b' : UsbBridge D') (c : Prop) [Decidable c] (otg otg' : OtgFs D) :
    (if c then otg else otg').onBridge b' = if c then otg.onBridge b' else otg'.onBridge b' :=
  apply_ite (fun otg => otg.onBridge b') c otg otg'

lemma virtualHostReset_over (h : BridgeHom b b' f) (hb : otg.bridge = some b) (d : D) :
    (otg.onBridge b').virtualHostReset (f d) = carry b' f (otg.virtualHostReset d) := by
  unfold virtualHostReset
  rw [hb]
  exact Prod.ext rfl (h.setProtocolStage _ d)

lemma virtualHostControlOut_over (b' : UsbBridge D') (otg : OtgFs D) (ep : Fin numEndpoints)
    (packet data : List U8) : (otg.onBridge b').virtualHostControlOut ep packet data =
      (otg.virtualHostControlOut ep packet data).onBridge b' := by
  unfold virtualHostControlOut
  dsimp only
  split <;> rfl

lemma advanceVirtualHost_over (h : BridgeHom b b' f) (hb : otg.bridge = some b) (d : D) :
    (otg.onBridge b').advanceVirtualHost (f d) = carry b' f (otg.advanceVirtualHost d) := by
  have hstep : (otg.onBridge b').virtualHostStep = otg.virtualHostStep := rfl
  unfold advanceVirtualHost
  rw [hb, hstep]
  cases otg.virtualHostStep with
  | configured => rfl
  | awaitingSetConfigurationStatus =>
    dsimp only
    rw [virtualHostControlOut_over]
    exact Prod.ext rfl (h.setProtocolStage _ d)
  | _ => exact Prod.ext rfl (h.setProtocolStage _ d)

lemma completeInTransfer_over (h : BridgeHom b b' f) (hb : otg.bridge = some b) (d : D)
    (ep : Fin numEndpoints) :
    (otg.onBridge b').completeInTransfer (f d) ep = carry b' f (otg.completeInTransfer d ep) := by
  unfold completeInTransfer
  dsimp only
  rw [carry_ite, carry_ite]
  refine if_congr Iff.rfl ?_ (if_congr Iff.rfl ?_ rfl)
  · exact @advanceVirtualHost_over _ _ _ _ _ { otg.raiseInEndpointInterrupt ep diepintXfrc with
      txFifo := update otg.txFifo 0 [] } h hb d
  · have hraised : (otg.raiseInEndpointInterrupt ep diepintXfrc).bridge = some b := hb
    rw [hraised]
    exact Prod.ext rfl (h.pushFromDevice _ d)

lemma pushTxFifoWord_over (h : BridgeHom b b' f) (hb : otg.bridge = some b) (d : D)
    (ep : Fin numEndpoints) (value : U32) :
    (otg.onBridge b').pushTxFifoWord (f d) ep value =
      (otg.pushTxFifoWord d ep value).map (carry b' f) := by
  unfold pushTxFifoWord
  dsimp only
  rw [apply_ite (Option.map (carry b' f)), apply_ite (Option.map (carry b' f))]
  refine if_congr Iff.rfl rfl (if_congr Iff.rfl (congrArg some ?_) rfl)
  exact @completeInTransfer_over _ _ _ _ _ ((otg.pushed ep value).disarm ep) h hb d ep

lemma writeDiepctl_over (h : BridgeHom b b' f) (hb : otg.bridge = some b) (d : D)
    (ep : Fin numEndpoints) (value : U32) :
    (otg.onBridge b').writeDiepctl (f d) ep value = carry b' f (otg.writeDiepctl d ep value) := by
  unfold writeDiepctl
  dsimp only
  rw [carry_ite, carry_ite, carry_ite]
  refine if_congr Iff.rfl (if_congr Iff.rfl ?_ rfl) rfl
  exact @completeInTransfer_over _ _ _ _ _
    ((((otg.modifyIn ep fun regs => { regs with ctl := value }).modifyIn ep
    fun regs => { regs with armedInBytesSent := 0 }).modifyIn ep
      fun regs => { regs with ctl := regs.ctl &&& ~~~diepctlEpena })) h hb d ep

lemma writeDoepctl_over (b' : UsbBridge D') (otg : OtgFs D) (ep : Fin numEndpoints) (value : U32) :
    (otg.onBridge b').writeDoepctl ep value = (otg.writeDoepctl ep value).onBridge b' := by
  unfold writeDoepctl
  dsimp only
  rw [onBridge_ite]
  rfl

lemma registerWrite_over (h : BridgeHom b b' f) (hb : otg.bridge = some b) (d : D)
    (offset value : U32) :
    (otg.onBridge b').registerWrite (f d) offset value =
      (otg.registerWrite d offset value).map (carry b' f) := by
  unfold registerWrite
  split
  · exact pushTxFifoWord_over h hb d _ value
  split
  · rw [Option.map_some, carry_ite, carry_ite, carry_ite, writeDiepctl_over h hb]
    rfl
  split
  · rw [Option.map_some, carry_ite, carry_ite, carry_ite, writeDoepctl_over]
    rfl
  rw [hb]
  simp only [apply_ite (Option.map (carry b' f)), Option.map_some]
  refine if_congr Iff.rfl rfl (if_congr Iff.rfl (congrArg some ?_) rfl)
  refine Prod.ext rfl ?_
  dsimp only [carry]
  rw [apply_ite f, ← h.setProtocolStage]
  rfl

lemma popRxStatus_over (b' : UsbBridge D') (otg : OtgFs D) :
    (otg.onBridge b').popRxStatus = otg.popRxStatus.map fun r => (r.1.onBridge b', r.2) := by
  unfold popRxStatus
  dsimp only
  simp only [apply_ite (Option.map _), apply_dite (Option.map _), Option.map_some, Option.map_none]
  rfl

lemma registerRead_over (b' : UsbBridge D') (otg : OtgFs D) (offset : U32) :
    (otg.onBridge b').registerRead offset = (otg.registerRead offset).map fun r =>
    (r.1.onBridge b', r.2) := by
  unfold registerRead
  split
  · split <;> rfl
  split
  · rfl
  split
  · rfl
  rw [popRxStatus_over]
  simp only [apply_ite (Option.map _), Option.map_some]
  rfl

lemma hostPresent_over (h : BridgeHom b b' f) (hb : otg.bridge = some b) (d : D) :
    (otg.onBridge b').hostPresent (f d) = otg.hostPresent d := by
  unfold hostPresent
  rw [hb]
  exact h.isClientConnected d

lemma refreshVirtualHostAttachment_over (h : BridgeHom b b' f) (hb : otg.bridge = some b) (d : D)
    (firmwareIrqEnabled : Bool) :
    (otg.onBridge b').refreshVirtualHostAttachment (f d) firmwareIrqEnabled =
      carry b' f (otg.refreshVirtualHostAttachment d firmwareIrqEnabled) := by
  unfold refreshVirtualHostAttachment
  dsimp only
  rw [hostPresent_over h hb, carry_ite, carry_ite]
  refine if_congr Iff.rfl ?_ rfl
  exact @virtualHostReset_over _ _ _ _ _ { otg with hostAttached := true } h hb d

lemma bridge_refreshVirtualHostAttachment (otg : OtgFs D) (d : D) (firmwareIrqEnabled : Bool) :
    (otg.refreshVirtualHostAttachment d firmwareIrqEnabled).1.bridge = otg.bridge := by
  unfold refreshVirtualHostAttachment
  dsimp only
  split_ifs <;> rfl

lemma forwardBulkOut_over (h : BridgeHom b b' f) (hb : otg.bridge = some b) (d : D) :
    (otg.onBridge b').forwardBulkOut (f d) = carry b' f (otg.forwardBulkOut d) := by
  by_cases hready : ∃ ep, otg.ReadyOut ep b
  · obtain ⟨ep, hready⟩ := hready
    have hready' : (otg.onBridge b').ReadyOut ep b' :=
      ⟨hready.configured, hready.endpoint, rfl, hready.armed, hready.room⟩
    rw [forwardBulkOut_of_ready hready, forwardBulkOut_of_ready hready', h.takeForDevice]
    dsimp only [carry]
    rw [onBridge_ite]
    rfl
  · rw [forwardBulkOut_of_not_ready, forwardBulkOut_of_not_ready]
    · rfl
    · intro ep bridge hr
      exact hready ⟨ep, hr.configured, hr.endpoint, hb, hr.armed, hr.room⟩
    · intro ep bridge hr
      exact hready ⟨ep, hr.configured, hr.endpoint, hb, hr.armed, hr.room⟩

lemma startOfFrame_over (b' : UsbBridge D') (otg : OtgFs D) (n : ℕ) :
    (otg.onBridge b').startOfFrame n = (otg.startOfFrame n).onBridge b' := by
  unfold startOfFrame
  rw [onBridge_ite]
  rfl

lemma bridge_startOfFrame (otg : OtgFs D) (n : ℕ) : (otg.startOfFrame n).bridge = otg.bridge := by
  unfold startOfFrame
  split <;> rfl

lemma poll_over (h : BridgeHom b b' f) (hb : otg.bridge = some b) (d : D) (nvic : Nvic) (n : ℕ) :
    (otg.onBridge b').poll (f d) nvic n =
      (otg.poll d nvic n).map fun r => (r.1.onBridge b', f r.2.1, r.2.2) := by
  have hrefreshed := (bridge_refreshVirtualHostAttachment otg d (nvic.isEnabled 67)).trans hb
  unfold poll
  dsimp only
  rw [refreshVirtualHostAttachment_over h hb]
  generalize otg.refreshVirtualHostAttachment d (nvic.isEnabled 67) = r at hrefreshed ⊢
  have hforward : ((r.1.onBridge b').startOfFrame n).forwardBulkOut (f r.2) =
      carry b' f ((r.1.startOfFrame n).forwardBulkOut r.2) :=
    (congrArg (fun otg => forwardBulkOut otg (f r.2)) (startOfFrame_over b' r.1 n)).trans
      (forwardBulkOut_over h ((bridge_startOfFrame r.1 n).trans hrefreshed) r.2)
  dsimp only [carry] at hforward ⊢
  simp only [hforward, Option.map_map]
  rfl

end OtgFs

/-- **The controller does the same over bridges that answer alike.** -/
theorem usbStep_over {b : UsbBridge D} {b' : UsbBridge D'} {f : D → D'} {move : W → D → D}
    {move' : W → D' → D'} (h : BridgeHom b b' f) (hmove : ∀ w d, move' w (f d) = f (move w d))
    {s : UsbState D} (hb : s.1.bridge = some b) (a : UsbAction W) :
    usbStep move' (carry b' f s) a = (usbStep move s a).map (carry b' f) := by
  obtain ⟨otg, d⟩ := s
  cases a with
  | read offset =>
    simp only [usbStep, carry, registerRead_over, Option.map_map]
    rfl
  | write offset value => exact registerWrite_over h hb d offset value
  | poll nvic n =>
    simp only [usbStep, carry, poll_over h hb, Option.map_map]
    rfl
  | busReset => exact congrArg some (virtualHostReset_over h hb d)
  | setup ep packet => rfl
  | controlOut ep packet data =>
    simp only [usbStep, carry, virtualHostControlOut_over, Option.map_some]
  | outside w =>
    simp only [usbStep, carry, Option.map_some, hmove]

/-! ## The calls -/

inductive BridgeCall where
  | push (bytes : List U8)
  | take (maximum : ℕ)
  | stage (stage : EmbeddedCdcStage)
  deriving DecidableEq, Repr

/-- What a call does to the outside world. -/
def BridgeCall.run (b : UsbBridge D) (d : D) : BridgeCall → D
  | .push bytes => b.pushFromDevice bytes d
  | .take maximum => (b.takeForDevice maximum d).2
  | .stage next => b.setProtocolStage next d

namespace OtgFs

/-- The call at the end of a transfer to the host. -/
def completionCall (otg : OtgFs D) (ep : Fin numEndpoints) : Option BridgeCall :=
  if ep = 0 then
    if otg.virtualHostStep.next ≠ otg.virtualHostStep then
      some (.stage otg.virtualHostStep.next.stage) else none
  else if otg.isConfigured ∧ some ep = otg.bulkInEndpoint then
    some (.push ((otg.txFifo ep).take (otg.inXfrsiz ep)))
  else
    none

/-- The call of a register write: it completes a transfer, or unmasks the interrupts. -/
def writeCall (otg : OtgFs D) (offset value : U32) : Option BridgeCall :=
  match fifoEndpoint offset with
  | some ep =>
    if otg.InArmed ep ∧ otg.inXfrsiz ep ≤ (otg.epIn ep).armedInBytesSent + 4 then
      (otg.pushed ep value).completionCall ep
    else
      none
  | none =>
  match decodeEndpoint diepBase offset with
  | some (ep, reg) =>
    if reg = epCtlOffset ∧ (value &&& diepctlEpena ≠ 0#32 ∧ ¬ otg.InArmed ep) ∧
      otg.inXfrsiz ep = 0 then
      otg.completionCall ep
    else
      none
  | none =>
    if offset = gintmsk ∧ otg.globalInterruptMask = 0#32 ∧
      value ≠ 0#32 then some (.stage .usbStarted) else none

/-- The call of a poll: it resets the bus, or takes a packet for the endpoint that is ready. -/
def pollCall (otg : OtgFs D) (attaches : Bool) : Option BridgeCall :=
  if attaches then
    some (.stage .awaitingDeviceDescriptor)
  else
    otg.bulkOutEndpoint.bind fun ep =>
      if otg.isConfigured ∧ (otg.epOut ep).ctl &&& diepctlEpena ≠ 0#32 ∧ otg.outXfrsiz ep ≠ 0 then
        some (.take (min 64 (otg.outXfrsiz ep)))
      else
        none

end OtgFs

/-- The call that an action makes. -/
def bridgeCall (s : UsbState D) : UsbAction W → Option BridgeCall
  | .write offset value => s.1.writeCall offset value
  | .poll nvic _ => s.1.pollCall (s.1.attaches s.2 (nvic.isEnabled 67))
  | .busReset => some (.stage .awaitingDeviceDescriptor)
  | _ => none

/-- The outside world after a call, if there is one. -/
def afterCall (b : UsbBridge D) (d : D) (call : Option BridgeCall) : D :=
  call.elim d (BridgeCall.run b d)

/-- The outside world after an action. -/
def afterAction (b : UsbBridge D) (move : W → D → D) (s : UsbState D) : UsbAction W → D
  | .outside w => move w s.2
  | a => afterCall b s.2 (bridgeCall s a)

namespace OtgFs

variable {b : UsbBridge D} {otg : OtgFs D}

lemma virtualHostReset_call (hb : otg.bridge = some b) (d : D) :
    (otg.virtualHostReset d).2 = b.setProtocolStage .awaitingDeviceDescriptor d := by
  unfold virtualHostReset
  rw [hb]

lemma completeInTransfer_call (hb : otg.bridge = some b) (d : D) (ep : Fin numEndpoints) :
    (otg.completeInTransfer d ep).1.bridge = some b ∧
      (otg.completeInTransfer d ep).2 = afterCall b d (otg.completionCall ep) := by
  unfold completionCall
  by_cases hep : ep = 0
  · subst hep
    obtain ⟨_, ⟨_, _, rfl⟩, heq⟩ := completeInTransfer_zero otg d
    rw [heq, if_pos rfl]
    refine ⟨hb, ?_⟩
    dsimp only
    rw [stageAfterAdvance, hb]
    dsimp only
    split <;> rfl
  · rw [if_neg hep]
    unfold completeInTransfer
    dsimp only
    rw [if_neg hep]
    have hraised : (otg.raiseInEndpointInterrupt ep diepintXfrc).bridge = some b := hb
    have hsame : ((otg.raiseInEndpointInterrupt ep diepintXfrc).isConfigured = true ∧
        some ep = (otg.raiseInEndpointInterrupt ep diepintXfrc).bulkInEndpoint) ↔
        otg.isConfigured = true ∧ some ep = otg.bulkInEndpoint := Iff.rfl
    by_cases hbulk : otg.isConfigured ∧ some ep = otg.bulkInEndpoint
    · rw [if_pos (hsame.mpr hbulk), if_pos hbulk, hraised]
      refine ⟨rfl, ?_⟩
      have hsize : ((otg.raiseInEndpointInterrupt ep diepintXfrc).epIn ep).tsiz =
          (otg.epIn ep).tsiz := by
        simp [raiseInEndpointInterrupt]
      dsimp only
      rw [hsize]
      rfl
    · rw [if_neg (mt hsame.mp hbulk), if_neg hbulk]
      exact ⟨hb, rfl⟩

lemma registerWrite_call (hb : otg.bridge = some b) {d : D} {offset value : U32} {r : OtgFs D × D}
    (h : otg.registerWrite d offset value = some r) :
    r.1.bridge = some b ∧ r.2 = afterCall b d (otg.writeCall offset value) := by
  unfold writeCall
  cases registerWrite_cases h with
  | @fifo ep _ hfifo hpush =>
    rw [pushTxFifoWord_eq_some hpush, hfifo]
    dsimp only
    by_cases hcompletes : otg.InArmed ep ∧ otg.inXfrsiz ep ≤ (otg.epIn ep).armedInBytesSent + 4
    · rw [if_pos hcompletes, if_pos hcompletes]
      have hdisarmed : ((otg.pushed ep value).disarm ep).bridge = some b := hb
      have hcall : ((otg.pushed ep value).disarm ep).completionCall ep =
          (otg.pushed ep value).completionCall ep := by
        simp only [completionCall, inXfrsiz, disarm, epIn_modifyIn]
        rfl
      rw [← hcall]
      exact completeInTransfer_call hdisarmed d ep
    · rw [if_neg hcompletes, if_neg hcompletes]
      exact ⟨hb, rfl⟩
  | @diepctl ep hfifo hdecode =>
    rw [hfifo, hdecode]
    dsimp only
    by_cases hempty : (value &&& diepctlEpena ≠ 0#32 ∧ ¬ otg.InArmed ep) ∧ otg.inXfrsiz ep = 0
    · rw [writeDiepctl_of_empty hempty.1 hempty.2, if_pos ⟨rfl, hempty⟩]
      have henabled : ((otg.enabled ep value).disarm ep).bridge = some b := hb
      have hcall : ((otg.enabled ep value).disarm ep).completionCall ep =
          otg.completionCall ep := by
        simp only [completionCall, inXfrsiz, disarm, enabled, epIn_modifyIn]
        rfl
      rw [← hcall]
      exact completeInTransfer_call henabled d ep
    · obtain ⟨f, heq, -⟩ := writeDiepctl_of_not_empty hempty d
      rw [heq, if_neg fun h => hempty h.2]
      exact ⟨hb, rfl⟩
  | @diep ep reg f hfifo hdecode hreg hf =>
    rw [hfifo, hdecode]
    dsimp only
    rw [if_neg fun h => hreg h.1]
    exact ⟨hb, rfl⟩
  | @doepctl ep hfifo hdiep hdecode =>
    rw [hfifo, hdiep]
    dsimp only
    rw [if_neg]
    · obtain ⟨_, _, heq⟩ := queuesOnly_writeDoepctl otg ep value
      rw [heq]
      exact ⟨hb, rfl⟩
    · rintro ⟨rfl, -⟩
      rw [show decodeEndpoint doepBase gintmsk = none by decide] at hdecode
      cases hdecode
  | @doep ep reg f hfifo hdiep hdecode hreg =>
    rw [hfifo, hdiep]
    dsimp only
    rw [if_neg]
    · exact ⟨hb, rfl⟩
    · rintro ⟨rfl, -⟩
      rw [show decodeEndpoint doepBase gintmsk = none by decide] at hdecode
      cases hdecode
  | global hfifo hdiep hdoep hframe =>
    refine ⟨hframe.bridge.trans hb, ?_⟩
    rw [hfifo, hdiep]
    dsimp only
    rcases registerWrite_global h hfifo hdiep hdoep with ⟨rfl, heq⟩ | ⟨hne, -, heq⟩ |
      ⟨hne, -, hd, -⟩
    · cases heq
      rw [stageAfterGintmsk, hb]
      dsimp only
      by_cases hunmasks : otg.globalInterruptMask = 0#32 ∧ value ≠ 0#32
      · rw [if_pos hunmasks, if_pos ⟨rfl, hunmasks⟩]
        rfl
      · rw [if_neg hunmasks, if_neg fun h => hunmasks h.2]
        rfl
    · cases heq
      rw [if_neg fun h => hne h.1]
      rfl
    · dsimp only at hd
      rw [hd, if_neg fun h => hne h.1]
      rfl

lemma forwardBulkOut_call (hb : otg.bridge = some b) (d : D) :
    (otg.forwardBulkOut d).1.bridge = some b ∧
    (otg.forwardBulkOut d).2 = afterCall b d (otg.pollCall false) := by
  constructor
  · obtain ⟨_, _, _, heq⟩ := forwardBulkOut_eq otg d
    rw [heq]
    exact hb
  unfold pollCall
  rw [if_neg Bool.false_ne_true]
  by_cases hready : ∃ ep, otg.ReadyOut ep b
  · obtain ⟨ep, hready⟩ := hready
    have hcond : otg.isConfigured ∧ (otg.epOut ep).ctl &&& diepctlEpena ≠ 0#32 ∧
        otg.outXfrsiz ep ≠ 0 :=
      ⟨hready.configured, hready.armed, hready.room⟩
    rw [forwardBulkOut_of_ready hready, hready.endpoint, Option.bind_some]
    dsimp only
    rw [if_pos hcond]
    rfl
  · rw [forwardBulkOut_of_not_ready]
    · rcases hendpoint : otg.bulkOutEndpoint with _ | ep
      · rfl
      · rw [Option.bind_some, if_neg fun h => hready ⟨ep, h.1, hendpoint, hb, h.2.1, h.2.2⟩]
        rfl
    · intro ep bridge hr
      exact hready ⟨ep, hr.configured, hr.endpoint, hb, hr.armed, hr.room⟩

end OtgFs

/-- **The calls are all that the controller does to the outside world.** -/
theorem snd_eq_of_usbStep {b : UsbBridge D} {move : W → D → D} {s s' : UsbState D} {a : UsbAction W}
    (hb : s.1.bridge = some b) (h : usbStep move s a = some s') :
    s'.1.bridge = some b ∧ s'.2 = afterAction b move s a := by
  obtain ⟨otg, d⟩ := s
  cases a with
  | read offset =>
    obtain ⟨r, hread, rfl⟩ := Option.map_eq_some_iff.mp h
    refine ⟨?_, rfl⟩
    rcases registerRead_cases hread with ⟨-, rfl⟩ | ⟨-, -, hpop⟩ | ⟨-, -, hsame⟩
    · exact hb
    · obtain ⟨-, epOut, heq⟩ := popRxStatus_eq_some hpop
      rw [heq]
      exact hb
    · rw [hsame]
      exact hb
  | write offset value => exact registerWrite_call hb h
  | poll nvic n =>
    obtain ⟨r, hpoll, rfl⟩ := Option.map_eq_some_iff.mp h
    simp only [afterAction, bridgeCall]
    rcases poll_cases hpoll with ⟨hattaches, status, last, hotg, hd⟩ |
      ⟨hnot, status, last, hotg, hd⟩
    · rw [hotg, hd, hattaches]
      exact ⟨hb, virtualHostReset_call hb d⟩
    · have hsampled : (otg.sampled (otg.hostAttached && otg.hostPresent d) status last).bridge =
          some b := hb
      rw [hotg, hd, hnot]
      exact forwardBulkOut_call hsampled d
  | busReset =>
    cases h
    exact ⟨hb, virtualHostReset_call hb d⟩
  | setup ep packet =>
    cases h
    exact ⟨hb, rfl⟩
  | controlOut ep packet data =>
    cases h
    obtain ⟨_, _, heq⟩ := queuesOnly_virtualHostControlOut otg ep packet.1 data.1
    dsimp only
    rw [heq]
    exact ⟨hb, rfl⟩
  | outside w =>
    cases h
    exact ⟨hb, rfl⟩

/-! ## Steps over another bridge -/

section

variable {b : UsbBridge D} {b' : UsbBridge D'} {f : D → D'}

lemma OtgFs.onBridge_eq_self {otg : OtgFs D} (hb : otg.bridge = some b) : otg.onBridge b = otg := by
  cases otg
  cases hb
  rfl

lemma OtgFs.attaches_over (h : BridgeHom b b' f) {otg : OtgFs D} (hb : otg.bridge = some b) (d : D)
    (firmwareIrqEnabled : Bool) :
    (otg.onBridge b').attaches (f d) firmwareIrqEnabled = otg.attaches d firmwareIrqEnabled := by
  rw [attaches_eq, attaches_eq, hostPresent_over h hb]
  rfl

/-- The calls are those over a bridge that answers alike. -/
lemma bridgeCall_over (h : BridgeHom b b' f) {s : UsbState D} (hb : s.1.bridge = some b)
    (a : UsbAction W) :
    bridgeCall (carry b' f s) a = bridgeCall s a := by
  cases a with
  | poll nvic n =>
    simp only [bridgeCall, carry, attaches_over h hb]
    rfl
  | _ => rfl

/-- A step of the machine is a step over every bridge that answers alike. -/
lemma exists_usbStep {move : W → D → D} {move' : W → D' → D'} (h : BridgeHom b b' f)
    (hmove : ∀ w d, move' w (f d) = f (move w d)) {s s' : UsbState D'} {a : UsbAction W}
    (hb : s.1.bridge = some b') {d : D} (hd : f d = s.2) (hstep : usbStep move' s a = some s') :
    ∃ d', f d' = s'.2 ∧ usbStep move (s.1.onBridge b, d) a = some (s'.1.onBridge b, d') := by
  have hover : carry b' f (s.1.onBridge b, d) = s := Prod.ext (onBridge_eq_self hb) hd
  have hbridge : (s.1.onBridge b, d).1.bridge = some b := rfl
  rw [← hover, usbStep_over h hmove hbridge] at hstep
  obtain ⟨t, ht, rfl⟩ := Option.map_eq_some_iff.mp hstep
  have htbridge := (snd_eq_of_usbStep hbridge ht).1
  refine ⟨t.2, rfl, ht.trans (congrArg some (Prod.ext ?_ rfl))⟩
  exact (onBridge_eq_self htbridge).symm

end

end Stm32Emulator
