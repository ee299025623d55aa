import Stm32Emulator.Cdc.TcpBridge
import Stm32Emulator.Usb.RxFifo
import Stm32Emulator.Usb.VirtualHost

/-!
# Bulk transfers from the host

The bytes of the bridge reach firmware packet by packet, one for each time that firmware arms the
bulk endpoint.  The packets are seen in the queues of the controller (`bulkOutQueued`), the bytes
that leave the bridge are recorded (`UsbBridge.recordingTakes`), and a ghost counts the armings
(`BulkOutRecord`).

What carries the flow control is that an armed endpoint stands for an arming that no packet has
used.
-/

namespace Stm32Emulator

open OtgFs Function

variable {D W : Type}

/-! ## What is observed -/

/-- A bridge that also records the bytes taken from it. -/
def UsbBridge.recordingTakes (bridge : UsbBridge D) : UsbBridge (D × List U8) where
  pushFromDevice bytes d := (bridge.pushFromDevice bytes d.1, d.2)
  takeForDevice maximum d :=
    ((bridge.takeForDevice maximum d.1).1,
      ((bridge.takeForDevice maximum d.1).2, d.2 ++ (bridge.takeForDevice maximum d.1).1))
  isClientConnected d := bridge.isClientConnected d.1
  setProtocolStage stage d := (bridge.setProtocolStage stage d.1, d.2)
  length_takeForDevice maximum d := bridge.length_takeForDevice maximum d.1

/-- The outside world moves under the record. -/
def recordingTakesMove (move : W → D → D) (w : W) (d : D × List U8) : D × List U8 :=
  (move w d.1, d.2)

/-- The endpoint that the firmware uses for bulk data from the host. -/
abbrev bulkOut : Fin numEndpoints := 2

/-- The status word announces data on the bulk endpoint. -/
def isBulkOutData (status : U32) : Bool :=
  status &&& rxstsPktstsMask = rxstsOutData ∧ status &&& 0xf#32 = BitVec.ofNat 32 bulkOut.val

/-- The data packets that are queued on the bulk endpoint from one state to another: the bytes
behind the new status words of the endpoint. -/
def bulkOutQueued (otg otg' : OtgFs D) : List (List U8) :=
  ((otg'.rxStatus.drop otg.rxStatus.length).filter isBulkOutData).map
    fun _ => otg'.rxFifo.drop otg.rxFifo.length

namespace OtgFs

/-- The OUT endpoint is armed. -/
abbrev OutArmed (otg : OtgFs D) (ep : Fin numEndpoints) : Prop :=
  (otg.epOut ep).ctl &&& diepctlEpena ≠ 0#32

/-- The write is one to `DOEPCTL` that arms the endpoint. -/
abbrev ArmsOut (otg : OtgFs D) (ep : Fin numEndpoints) (offset value : U32) : Prop :=
  decodeEndpoint doepBase offset = some (ep, epCtlOffset) ∧ value &&& diepctlEpena ≠ 0#32 ∧
    ¬ otg.OutArmed ep

end OtgFs

/-- Firmware sets the enable bit of the bulk endpoint while it is clear. -/
def ArmsBulkOut (s : UsbState D) : UsbAction W → Prop
  | .write offset value => s.1.ArmsOut bulkOut offset value
  | _ => False

instance (s : UsbState D) (a : UsbAction W) : Decidable (ArmsBulkOut s a) :=
  match a with
  | .write offset value => inferInstanceAs (Decidable (s.1.ArmsOut bulkOut offset value))
  | .read _ | .poll _ _ | .busReset | .setup _ _ | .controlOut _ _ _ | .outside _ =>
    inferInstanceAs (Decidable False)

/-- The ghost. -/
structure BulkOutRecord where
  /-- The data packets queued on the bulk endpoint. -/
  packets : List (List U8)
  /-- How often firmware has armed the endpoint. -/
  arms : ℕ
  deriving DecidableEq

/-- One action's effect on the ghost. -/
def BulkOutRecord.next (move : W → D → D) (r : BulkOutRecord) (s : UsbState D) (a : UsbAction W) :
    BulkOutRecord where
  packets :=
    match usbStep move s a with
    | some s' => r.packets ++ bulkOutQueued s.1 s'.1
    | none => r.packets
  arms := if ArmsBulkOut s a then r.arms + 1 else r.arms

/-- The packets of the host are those of the virtual host: none is put into the queues by a test. -/
def HostIsVirtual : UsbAction W → Prop
  | .setup .. => False
  | .controlOut .. => False
  | _ => True

instance (a : UsbAction W) : Decidable (HostIsVirtual a) :=
  match a with
  | .setup _ _ | .controlOut _ _ _ => inferInstanceAs (Decidable False)
  | .read _ | .write _ _ | .poll _ _ | .busReset | .outside _ => inferInstanceAs (Decidable True)

/-! ## What is queued -/

section

variable {otg otg' : OtgFs D} {ps : List RxPacket}

/-- The packets that an operation queues are observed. -/
lemma bulkOutQueued_of_queues (h : Queues otg otg' ps) :
    bulkOutQueued otg otg' =
      (ps.filter fun p => isBulkOutData p.status).map fun _ => (ps.map RxPacket.bytes).flatten := by
  unfold bulkOutQueued
  rw [h.status, h.fifo, List.drop_left, List.drop_left, List.filter_map, List.map_map]
  rfl

lemma bulkOutQueued_eq_nil (h : Queues otg otg' ps)
    (hps : ∀ p ∈ ps, isBulkOutData p.status = false) :
    bulkOutQueued otg otg' = [] := by
  have hfilter : (ps.filter fun p => isBulkOutData p.status) = [] :=
    List.filter_eq_nil_iff.mpr fun p hp => by simp [hps p hp]
  rw [bulkOutQueued_of_queues h, hfilter, List.map_nil]

/-- Without new status words nothing is observed. -/
lemma bulkOutQueued_of_length_le (h : otg'.rxStatus.length ≤ otg.rxStatus.length) :
    bulkOutQueued otg otg' = [] := by
  unfold bulkOutQueued
  rw [List.drop_eq_nil_of_le h]
  rfl

lemma isBulkOutData_out {n : ℕ} (hn : n ≤ 64) :
    isBulkOutData (rxStatusWord rxstsOutData n bulkOut) = true ∧
      isBulkOutData (rxStatusWord rxstsOutComp 0 bulkOut) = false := by
  revert n
  decide +kernel

/-- A packet on the bulk endpoint is observed as its bytes. -/
lemma bulkOutQueued_of_out (data : Payload) (h : Queues otg otg' (RxPacket.out bulkOut data)) :
    bulkOutQueued otg otg' = [data.1] := by
  obtain ⟨hdata, hcomp⟩ := isBulkOutData_out data.2
  rw [bulkOutQueued_of_queues h]
  simp [RxPacket.out, hdata, hcomp]

/-- The packets of the enumeration are for endpoint zero. -/
lemma isBulkOutData_packets (step : VirtualHostStep) :
    ∀ p ∈ step.packets, isBulkOutData p.status = false := by
  cases step <;> decide

/-- A register write queues nothing on the bulk endpoint. -/
lemma isBulkOutData_hostPackets_write (s : UsbState D) (offset value : U32) :
    ∀ p ∈ hostPackets s (.write offset value : UsbAction W), isBulkOutData p.status = false := by
  simp only [hostPackets]
  split_ifs
  · exact isBulkOutData_packets _
  · decide
  · exact fun p hp => absurd hp List.not_mem_nil

end

/-! ## A packet from the bridge -/

/-- What is queued for the device at the bridge. -/
def UsbCdcTcp.queued (bridge : UsbCdcTcp) : List U8 :=
  match bridge.embedded with
  | some link => link.hostToDevice
  | none => bridge.toDevice

/-- The bytes that are taken are the first of the queue, and those behind them stay. -/
lemma UsbCdcTcp.queued_takeForDevice (maximum : ℕ) (bridge : UsbCdcTcp) :
    bridge.queued = (bridge.takeForDevice maximum).1 ++
      (bridge.takeForDevice maximum).2.queued := by
  rcases hlink : bridge.embedded with _ | link
  · rw [takeForDevice_of_listening hlink]
    simp only [queued, hlink]
    exact (List.take_append_drop _ _).symm
  · simp only [queued, takeForDevice, hlink, EmbeddedCdcState.readForDevice]
    exact (List.take_append_drop _ _).symm

/-- Asking for bytes where there are none changes nothing. -/
lemma UsbCdcTcp.takeForDevice_eq_self {maximum : ℕ} {bridge : UsbCdcTcp}
    (h : (bridge.takeForDevice maximum).1 = []) : (bridge.takeForDevice maximum).2 = bridge := by
  have hcount {queue : List U8} (h : queue.take (min maximum queue.length) = []) :
      min maximum queue.length = 0 := by
    rcases List.take_eq_nil_iff.mp h with hzero | rfl
    · exact hzero
    · exact Nat.min_zero maximum
  rcases hlink : bridge.embedded with _ | link
  · rw [takeForDevice_of_listening hlink] at h ⊢
    dsimp only at h ⊢
    rw [hcount h, List.drop_zero]
  · simp only [takeForDevice, hlink, EmbeddedCdcState.readForDevice] at h ⊢
    rw [hcount h, List.drop_zero, ← hlink]

/-- A transfer size that is stored behind its mask reads back. -/
lemma and_xfrsizMask_replace (tsiz : U32) {room : ℕ} (hroom : room ≤ (tsiz &&& xfrsizMask).toNat) :
    (((tsiz &&& ~~~xfrsizMask) ||| BitVec.ofNat 32 room) &&& xfrsizMask).toNat = room := by
  have hmask : (xfrsizMask : U32).toNat = 2 ^ 19 - 1 := by decide
  have hlt : room < 2 ^ 19 := by
    rw [BitVec.toNat_and, hmask, Nat.and_two_pow_sub_one_eq_mod] at hroom
    exact lt_of_le_of_lt hroom (Nat.mod_lt _ (by decide))
  have hclear : tsiz &&& ~~~xfrsizMask &&& xfrsizMask = 0#32 := by
    rw [BitVec.and_assoc, BitVec.and_comm (~~~_), BitVec.and_not_self]
    exact BitVec.and_zero
  rw [BitVec.and_or_distrib_right, hclear, BitVec.zero_or, BitVec.toNat_and, hmask,
    Nat.and_two_pow_sub_one_eq_mod, BitVec.toNat_ofNat]
  omega

/-- The controller, the bridge and what has been taken from it. -/
abbrev BulkOutState := UsbState (UsbCdcTcp × List U8)

/-- A packet has been delivered in a step: the endpoint of a configured device was armed and had
room, and has been disarmed and has that much less room, and the bytes were the first at the
bridge. -/
structure PacketDelivered (s s' : BulkOutState) (bytes : List U8) : Prop where
  configured : s.1.isConfigured = true
  armed : s.1.OutArmed bulkOut
  nonempty : bytes ≠ []
  length_le : bytes.length ≤ min 64 (s.1.outXfrsiz bulkOut)
  disarmed : (s'.1.epOut bulkOut).ctl = (s.1.epOut bulkOut).ctl &&& ~~~diepctlEpena
  room : s'.1.outXfrsiz bulkOut + bytes.length = s.1.outXfrsiz bulkOut
  taken : s.2.1.queued = bytes ++ s'.2.1.queued

lemma PacketDelivered.not_outArmed {s s' : BulkOutState} {bytes : List U8}
    (h : PacketDelivered s s' bytes) : ¬ s'.1.OutArmed bulkOut := by
  rw [OutArmed, h.disarmed, not_not, BitVec.and_assoc, BitVec.and_comm (~~~_), BitVec.and_not_self]
  exact BitVec.and_zero

/-- The bulk endpoint is connected to the recording bridge. -/
structure OnBridge (otg : OtgFs (UsbCdcTcp × List U8)) : Prop where
  bridge : otg.bridge = some UsbCdcTcp.usbBridge.recordingTakes
  endpoint : otg.bulkOutEndpoint = some bulkOut

/-- The endpoint at which a packet has arrived. -/
lemma epOut_packetArrived (otg : OtgFs D) (ep : Fin numEndpoints) (bytes : List U8) :
    (otg.packetArrived ep bytes).epOut ep =
      { otg.epOut ep with
          ctl := (otg.epOut ep).ctl &&& ~~~diepctlEpena
          tsiz := ((otg.epOut ep).tsiz &&& ~~~xfrsizMask) |||
            BitVec.ofNat 32 (otg.outXfrsiz ep - bytes.length) } :=
  update_self ..

/-- A packet arrives at a ready endpoint. -/
lemma packetDelivered_packetArrived {otg : OtgFs (UsbCdcTcp × List U8)} {d : UsbCdcTcp × List U8}
    (hready : otg.ReadyOut bulkOut UsbCdcTcp.usbBridge.recordingTakes)
    (hbytes : (d.1.takeForDevice (min 64 (otg.outXfrsiz bulkOut))).1 ≠ []) :
    PacketDelivered (otg, d)
      (otg.packetArrived bulkOut (d.1.takeForDevice (min 64 (otg.outXfrsiz bulkOut))).1,
        ((d.1.takeForDevice (min 64 (otg.outXfrsiz bulkOut))).2,
          d.2 ++ (d.1.takeForDevice (min 64 (otg.outXfrsiz bulkOut))).1))
      (d.1.takeForDevice (min 64 (otg.outXfrsiz bulkOut))).1 where
  configured := hready.configured
  armed := hready.armed
  nonempty := hbytes
  length_le := d.1.length_takeForDevice _
  disarmed := by rw [epOut_packetArrived]
  room := by
    have hlength := d.1.length_takeForDevice (min 64 (otg.outXfrsiz bulkOut))
    have hroom :
        ((otg.packetArrived bulkOut
          (d.1.takeForDevice (min 64 (otg.outXfrsiz bulkOut))).1).outXfrsiz
        bulkOut) = otg.outXfrsiz bulkOut - (d.1.takeForDevice
          (min 64 (otg.outXfrsiz bulkOut))).1.length := by
      rw [outXfrsiz, epOut_packetArrived]
      exact and_xfrsizMask_replace _ (Nat.sub_le _ _)
    dsimp only
    rw [hroom]
    omega
  taken := d.1.queued_takeForDevice _

/-- A forwarded packet is delivered, and otherwise nothing changes. -/
lemma forwardBulkOut_cases {otg : OtgFs (UsbCdcTcp × List U8)} (h : OnBridge otg)
    (d : UsbCdcTcp × List U8) :
    (∃ bytes, bulkOutQueued otg (otg.forwardBulkOut d).1 = [bytes] ∧
      PacketDelivered (otg, d) (otg.forwardBulkOut d) bytes ∧
      (otg.forwardBulkOut d).2.2 = d.2 ++ bytes) ∨
    otg.forwardBulkOut d = (otg, d) := by
  by_cases hready : ∃ ep bridge, otg.ReadyOut ep bridge
  · obtain ⟨ep, bridge, hready⟩ := hready
    obtain rfl : bulkOut = ep := Option.some.inj (h.endpoint.symm.trans hready.endpoint)
    obtain rfl : UsbCdcTcp.usbBridge.recordingTakes = bridge :=
      Option.some.inj (h.bridge.symm.trans hready.bridge)
    have hforward := forwardBulkOut_of_ready hready d
    by_cases hbytes : (d.1.takeForDevice (min 64 (otg.outXfrsiz bulkOut))).1 = []
    · -- the bridge has nothing
      right
      rw [hforward]
      refine Prod.ext (if_pos hbytes) (Prod.ext ?_ ?_)
      · exact UsbCdcTcp.takeForDevice_eq_self hbytes
      · exact (congrArg (d.2 ++ ·) hbytes).trans (List.append_nil d.2)
    · left
      have hforward : otg.forwardBulkOut d =
          (otg.packetArrived bulkOut (d.1.takeForDevice (min 64 (otg.outXfrsiz bulkOut))).1,
            ((d.1.takeForDevice (min 64 (otg.outXfrsiz bulkOut))).2,
              d.2 ++ (d.1.takeForDevice (min 64 (otg.outXfrsiz bulkOut))).1)) :=
        hforward.trans (congrArg (·, _) (if_neg hbytes))
      rw [hforward]
      refine ⟨_, ?_, packetDelivered_packetArrived hready hbytes, rfl⟩
      have hlength : (d.1.takeForDevice (min 64 (otg.outXfrsiz bulkOut))).1.length ≤ 64 :=
        (d.1.length_takeForDevice _).trans (min_le_left _ _)
      exact bulkOutQueued_of_out ⟨_, hlength⟩
        ((Queues.queueOut _ bulkOut ⟨_, hlength⟩).after rfl rfl)
  · exact Or.inr (forwardBulkOut_of_not_ready (fun ep bridge hr => hready ⟨ep, bridge, hr⟩) d)

/-! ## One action -/

/-- Nothing is queued on the bulk endpoint, nothing is taken from the bridge, and the endpoint is
only armed if it was before or has been armed by the action. -/
structure BulkOutQuiet (s s' : BulkOutState) (a : UsbAction W) : Prop where
  queued : bulkOutQueued s.1 s'.1 = []
  log : s'.2.2 = s.2.2
  armed : s'.1.OutArmed bulkOut → s.1.OutArmed bulkOut ∨ ArmsBulkOut s a

/-- The host has been attached, which resets the bus: nothing is delivered or taken, and the
endpoints and the receive queues are cleared. -/
structure HostAttached (s s' : BulkOutState) : Prop where
  queued : bulkOutQueued s.1 s'.1 = []
  log : s'.2.2 = s.2.2
  /-- The stage is announced to an embedded link, and a bridge on a socket stays as it is. -/
  bridge : s.2.1.embedded = none → s'.2.1 = s.2.1
  epIn : ∀ ep, s'.1.epIn ep = .default
  epOut : ∀ ep, s'.1.epOut ep = .default
  rxFifo : s'.1.rxFifo = []
  rxStatus : s'.1.rxStatus = []

/-- What one action does: it delivers a packet, or it is quiet. -/
structure BulkOutStep (s s' : BulkOutState) (a : UsbAction W) : Prop where
  onBridge : OnBridge s'.1
  cases : (∃ bytes, bulkOutQueued s.1 s'.1 = [bytes] ∧ PacketDelivered s s' bytes ∧
    s'.2.2 = s.2.2 ++ bytes) ∨ BulkOutQuiet s s' a

section

variable {otg : OtgFs (UsbCdcTcp × List U8)} {d : UsbCdcTcp × List U8}

/-- The end of a transfer to the host changes neither the OUT endpoints nor what has been taken. -/
lemma OnBridge.completeInTransfer (h : OnBridge otg) (d : UsbCdcTcp × List U8)
    (ep : Fin numEndpoints) :
    OnBridge (otg.completeInTransfer d ep).1 ∧ (otg.completeInTransfer d ep).1.epOut = otg.epOut ∧
      (otg.completeInTransfer d ep).2.2 = d.2 := by
  by_cases hep : ep = 0
  · subst hep
    obtain ⟨_, ⟨_, _, rfl⟩, heq⟩ := completeInTransfer_zero otg d
    rw [heq]
    refine ⟨⟨h.bridge, h.endpoint⟩, rfl, ?_⟩
    unfold stageAfterAdvance
    rw [h.bridge]
    dsimp only
    split <;> rfl
  · obtain ⟨_, _, d', heq, hd⟩ := completeInTransfer_of_ne otg d hep
    rw [heq]
    refine ⟨⟨h.bridge, h.endpoint⟩, rfl, ?_⟩
    rcases hd with rfl | ⟨-, -, bridge, bytes, hbridge, rfl⟩
    · rfl
    · cases h.bridge.symm.trans hbridge
      rfl

lemma ctl_modifyOut (otg : OtgFs D) (ep other : Fin numEndpoints) {f : EndpointRegs → EndpointRegs}
    (hf : ∀ regs, (f regs).ctl = regs.ctl) :
    ((otg.modifyOut ep f).epOut other).ctl = (otg.epOut other).ctl := by
  unfold modifyOut
  dsimp only
  by_cases hep : other = ep
  · rw [hep, update_self, hf]
  · rw [update_of_ne hep]

/-- The interrupts and the size of an endpoint are not its control register. -/
lemma ctl_epOut_of_doep {otg : OtgFs D} {d : D} {offset value : U32} {r : OtgFs D × D}
    {ep : Fin numEndpoints} {reg : ℕ} (hdiep : decodeEndpoint diepBase offset = none)
    (hdecode : decodeEndpoint doepBase offset = some (ep, reg)) (hreg : reg ≠ epCtlOffset)
    (hwrite : otg.registerWrite d offset value = some r) (other : Fin numEndpoints) :
    (r.1.epOut other).ctl = (otg.epOut other).ctl := by
  rw [registerWrite_doep hdiep hdecode, if_neg hreg] at hwrite
  cases hwrite
  split_ifs
  · exact ctl_modifyOut otg ep other
      (f := fun regs => { regs with int := regs.int &&& ~~~value }) fun _ => rfl
  · exact ctl_modifyOut otg ep other (f := fun regs => { regs with tsiz := value }) fun _ => rfl
  · rfl

/-- A register write. -/
lemma OnBridge.registerWrite (h : OnBridge otg) {offset value : U32}
    {r : OtgFs (UsbCdcTcp × List U8) × UsbCdcTcp × List U8}
    (hwrite : otg.registerWrite d offset value = some r) :
    BulkOutStep (otg, d) r (.write offset value : UsbAction W) := by
  have hqueued : bulkOutQueued otg r.1 = [] :=
    bulkOutQueued_eq_nil (Queues.registerWrite (W := W) (registerWrite_cases hwrite))
      (isBulkOutData_hostPackets_write _ _ _)
  -- most writes leave the OUT endpoints alone
  have hsame (hbridge : OnBridge r.1) (hepOut : r.1.epOut = otg.epOut) (hlog : r.2.2 = d.2) :
      BulkOutStep (otg, d) r (.write offset value : UsbAction W) := by
    refine ⟨hbridge, Or.inr ⟨hqueued, hlog, fun harmed => Or.inl ?_⟩⟩
    rwa [OutArmed, hepOut] at harmed
  cases registerWrite_cases hwrite with
  | @fifo ep _ _ hpush =>
    have hr := pushTxFifoWord_eq_some hpush
    have hpushed : OnBridge ((otg.pushed ep value).disarm ep) := ⟨h.bridge, h.endpoint⟩
    by_cases hcompletes : otg.InArmed ep ∧ otg.inXfrsiz ep ≤ (otg.epIn ep).armedInBytesSent + 4
    · rw [if_pos hcompletes] at hr
      obtain ⟨hbridge, hepOut, hlog⟩ := hpushed.completeInTransfer d ep
      rw [← hr] at hbridge hepOut hlog
      exact hsame hbridge hepOut hlog
    · rw [if_neg hcompletes] at hr
      subst hr
      exact hsame ⟨h.bridge, h.endpoint⟩ rfl rfl
  | @diepctl ep =>
    by_cases hempty : (value &&& diepctlEpena ≠ 0#32 ∧ ¬ otg.InArmed ep) ∧ otg.inXfrsiz ep = 0
    · have hdisarmed : OnBridge ((otg.enabled ep value).disarm ep) := ⟨h.bridge, h.endpoint⟩
      obtain ⟨hbridge, hepOut, hlog⟩ := hdisarmed.completeInTransfer d ep
      rw [← writeDiepctl_of_empty hempty.1 hempty.2] at hbridge hepOut hlog
      exact hsame hbridge hepOut hlog
    · obtain ⟨f, heq, -⟩ := writeDiepctl_of_not_empty hempty d
      rw [heq] at hsame ⊢
      exact hsame ⟨h.bridge, h.endpoint⟩ rfl rfl
  | diep => exact hsame ⟨h.bridge, h.endpoint⟩ rfl rfl
  | @doepctl ep _ _ hdecode =>
    have hstep : OnBridge (otg.writeDoepctl ep value) ∧ (otg.writeDoepctl ep value).epOut =
        update otg.epOut ep { otg.epOut ep with ctl := value } := by
      obtain ⟨_, _, heq⟩ := queuesOnly_writeDoepctl otg ep value
      rw [heq]
      exact ⟨⟨h.bridge, h.endpoint⟩, rfl⟩
    refine ⟨hstep.1, Or.inr ⟨hqueued, rfl, fun harmed => ?_⟩⟩
    rw [OutArmed, hstep.2] at harmed
    by_cases hep : bulkOut = ep
    · subst hep
      rw [update_self] at harmed
      by_cases hwas : otg.OutArmed bulkOut
      · exact Or.inl hwas
      · exact Or.inr ⟨hdecode, harmed, hwas⟩
    · rw [update_of_ne hep] at harmed
      exact Or.inl harmed
  | @doep ep reg f _ hdiep hdecode hreg =>
    refine ⟨⟨h.bridge, h.endpoint⟩, Or.inr ⟨hqueued, rfl, fun harmed => Or.inl ?_⟩⟩
    have hctl := ctl_epOut_of_doep hdiep hdecode hreg hwrite bulkOut
    rwa [OutArmed, hctl] at harmed
  | global hfifo hdiep hdoep hframe hd =>
    refine hsame ⟨hframe.bridge.trans h.bridge,
      hframe.bulkOutEndpoint.trans h.endpoint⟩ hframe.epOut ?_
    rcases hd with rfl | ⟨bridge, hbridge, rfl⟩
    · rfl
    · cases h.bridge.symm.trans hbridge
      rfl

/-- A register read. -/
lemma OnBridge.registerRead (h : OnBridge otg) {offset : U32}
    {r : OtgFs (UsbCdcTcp × List U8) × U32} (hread : otg.registerRead offset = some r) :
    BulkOutStep (otg, d) (r.1, d) (.read offset : UsbAction W) := by
  rcases registerRead_cases hread with ⟨-, rfl⟩ | ⟨-, -, hpop⟩ | ⟨-, -, hsame⟩
  · exact ⟨⟨h.bridge, h.endpoint⟩, Or.inr ⟨bulkOutQueued_of_length_le le_rfl, rfl, Or.inl⟩⟩
  · obtain ⟨int, hint⟩ := popRxStatus_epOut hpop bulkOut
    obtain ⟨-, epOut, heq⟩ := popRxStatus_eq_some hpop
    have hlength : r.1.rxStatus.length ≤ otg.rxStatus.length := by
      rw [heq]
      exact (List.tail_sublist _).length_le
    refine ⟨?_, Or.inr ⟨bulkOutQueued_of_length_le hlength, rfl, fun harmed => Or.inl ?_⟩⟩
    · rw [heq]
      exact ⟨h.bridge, h.endpoint⟩
    · rwa [OutArmed, hint] at harmed
  · rw [hsame]
    exact ⟨h, Or.inr ⟨bulkOutQueued_of_length_le le_rfl, rfl, Or.inl⟩⟩

/-- A reset empties the queues and disarms the endpoints. -/
lemma OnBridge.virtualHostReset (h : OnBridge otg) (d : UsbCdcTcp × List U8) (attached : Bool)
    (status : U32) (last : ℕ) (a : UsbAction W) :
    BulkOutStep (otg, d)
      ((otg.virtualHostReset d).1.sampled attached status last, (otg.virtualHostReset d).2) a := by
  refine ⟨⟨h.bridge, h.endpoint⟩,
    Or.inr ⟨bulkOutQueued_of_length_le (Nat.zero_le _), ?_, fun harmed => ?_⟩⟩
  · simp only [OtgFs.virtualHostReset, h.bridge]
    rfl
  · have hidle : EndpointRegs.default.ctl &&& diepctlEpena = 0#32 := by decide
    exact absurd hidle harmed

lemma OnBridge.hostAttached_virtualHostReset (h : OnBridge otg) (d : UsbCdcTcp × List U8)
    (attached : Bool) (status : U32) (last : ℕ) :
    HostAttached (otg, d)
      ((otg.virtualHostReset d).1.sampled attached status last, (otg.virtualHostReset d).2) where
  queued := bulkOutQueued_of_length_le (Nat.zero_le _)
  log := by
    simp only [OtgFs.virtualHostReset, h.bridge]
    rfl
  bridge := by
    intro hsocket
    simp only [OtgFs.virtualHostReset, h.bridge]
    have hstage : d.1.setProtocolStage .awaitingDeviceDescriptor = d.1 := by
      rw [UsbCdcTcp.setProtocolStage, hsocket, Option.map_none, ← hsocket]
    exact hstage
  epIn _ := rfl
  epOut _ := rfl
  rxFifo := rfl
  rxStatus := rfl

/-- A poll, what one that attaches the host does, and what one that neither attaches it nor delivers
anything leaves alone. -/
lemma OnBridge.poll (h : OnBridge otg) {nvic : Nvic} {n : ℕ}
    {r : OtgFs (UsbCdcTcp × List U8) × (UsbCdcTcp × List U8) × Nvic}
    (hpoll : otg.poll d nvic n = some r) :
    BulkOutStep (otg, d) (r.1, r.2.1) (.poll nvic n : UsbAction W) ∧
      (otg.attaches d (nvic.isEnabled 67) = true → HostAttached (otg, d) (r.1, r.2.1)) ∧
      (otg.attaches d (nvic.isEnabled 67) = false → bulkOutQueued otg r.1 = [] →
        r.2.1 = d ∧ r.1.epIn = otg.epIn ∧ r.1.epOut = otg.epOut) := by
  rcases poll_cases hpoll with ⟨hattaches, status, last, hotg, hd⟩ | ⟨hnot, status, last, hotg, hd⟩
  · rw [hotg, hd]
    exact ⟨h.virtualHostReset d true status last _,
      fun _ => h.hostAttached_virtualHostReset d true status last,
      fun hnot => by cases hattaches.symm.trans hnot⟩
  · have hbridge : OnBridge (otg.sampled (otg.hostAttached && otg.hostPresent d) status last) :=
      ⟨h.bridge, h.endpoint⟩
    have hafter : OnBridge r.1 := by
      obtain ⟨_, _, _, heq⟩ :=
        forwardBulkOut_eq (otg.sampled (otg.hostAttached && otg.hostPresent d) status last) d
      rw [hotg, heq]
      exact ⟨h.bridge, h.endpoint⟩
    have hattached (hattaches : otg.attaches d (nvic.isEnabled 67) = true) :
        HostAttached (otg, d) (r.1, r.2.1) := by
      cases hnot.symm.trans hattaches
    rcases forwardBulkOut_cases hbridge d with ⟨bytes, hqueued, hdelivered, hlog⟩ | hsame
    · rw [← hotg] at hqueued
      rw [← hd] at hlog
      refine ⟨⟨hafter, Or.inl ⟨bytes, hqueued, ?_, hlog⟩⟩, hattached, fun _ hnil => ?_⟩
      · rw [hotg, hd]
        exact ⟨hdelivered.configured, hdelivered.armed, hdelivered.nonempty, hdelivered.length_le,
          hdelivered.disarmed, hdelivered.room, hdelivered.taken⟩
      · cases hqueued.symm.trans hnil
    · rw [hsame] at hotg hd
      refine ⟨⟨hafter, Or.inr ⟨?_, ?_, fun harmed => Or.inl ?_⟩⟩, hattached,
        fun _ _ => ⟨hd, ?_, ?_⟩⟩
      · rw [hotg]
        exact bulkOutQueued_of_length_le le_rfl
      · rw [hd]
      · rw [hotg] at harmed
        exact harmed
      · rw [hotg]
        rfl
      · rw [hotg]
        rfl

end

/-- Every action of a run with the virtual host. -/
lemma OnBridge.step {s s' : BulkOutState} (h : OnBridge s.1) {a : UsbAction HostMove}
    (ha : HostIsVirtual a) (hstep : usbStep (recordingTakesMove hostMove) s a = some s') :
    BulkOutStep s s' a := by
  cases a with
  | read offset =>
    obtain ⟨r, hread, rfl⟩ := Option.map_eq_some_iff.mp hstep
    exact h.registerRead hread
  | write offset value => exact h.registerWrite hstep
  | poll nvic n =>
    obtain ⟨r, hpoll, rfl⟩ := Option.map_eq_some_iff.mp hstep
    exact (h.poll hpoll).1
  | busReset =>
    cases hstep
    exact h.virtualHostReset s.2 s.1.hostAttached _ s.1.lastSofInstruction _
  | setup => exact ha.elim
  | controlOut => exact ha.elim
  | outside w =>
    cases hstep
    exact ⟨h, Or.inr ⟨bulkOutQueued_of_length_le le_rfl, rfl, Or.inl⟩⟩

/-! ## Whole runs -/

/-- The controller on the bridge, what has been taken from it, and the ghost. -/
def bulkOutStep : BulkOutState × BulkOutRecord → UsbAction HostMove →
    Option (BulkOutState × BulkOutRecord) :=
  withGhost (usbStep (recordingTakesMove hostMove))
    (BulkOutRecord.next (recordingTakesMove hostMove))

/-- Power-on, with any bridge. -/
def bulkOutPowerOn (bridge : UsbCdcTcp) : BulkOutState × BulkOutRecord :=
  ((OtgFs.new (some UsbCdcTcp.usbBridge.recordingTakes), (bridge, [])), ⟨[], 0⟩)

/-- The invariant: an armed endpoint stands for an arming that no packet has used, and the packets
are what has been taken from the bridge. -/
structure BulkOutInvariant (s : BulkOutState) (r : BulkOutRecord) : Prop where
  onBridge : OnBridge s.1
  used : r.packets.length ≤ r.arms
  unused : s.1.OutArmed bulkOut → r.packets.length < r.arms
  packets : r.packets.flatten = s.2.2

/-- Every action keeps the invariant. -/
lemma BulkOutInvariant.step {s s' : BulkOutState} {r : BulkOutRecord} (h : BulkOutInvariant s r)
    {a : UsbAction HostMove} (ha : HostIsVirtual a)
    (hstep : usbStep (recordingTakesMove hostMove) s a = some s') :
    BulkOutInvariant s' (r.next (recordingTakesMove hostMove) s a) := by
  obtain ⟨hbridge, hcases⟩ := h.onBridge.step ha hstep
  have harms : r.arms ≤ (r.next (recordingTakesMove hostMove) s a).arms := by
    simp only [BulkOutRecord.next]
    split
    · exact Nat.le_succ _
    · exact le_rfl
  have hpackets : (r.next (recordingTakesMove hostMove) s a).packets =
      r.packets ++ bulkOutQueued s.1 s'.1 := by
    simp only [BulkOutRecord.next, hstep]
  rcases hcases with ⟨bytes, hqueued, hdelivered, hlog⟩ | hquiet
  · -- the packet uses the arming that the endpoint stood for
    have hunused := h.unused hdelivered.armed
    have hlength : (r.packets ++ [bytes]).length = r.packets.length + 1 := List.length_append
    rw [hqueued] at hpackets
    refine ⟨hbridge, ?_, fun harmed => absurd harmed hdelivered.not_outArmed, ?_⟩
    · rw [hpackets, hlength]
      exact hunused.trans_le harms
    · rw [hpackets, hlog, List.flatten_append, h.packets, List.flatten_singleton]
  · rw [hquiet.queued, List.append_nil] at hpackets
    refine ⟨hbridge, ?_, fun harmed => ?_, ?_⟩
    · rw [hpackets]
      exact h.used.trans harms
    · rw [hpackets]
      rcases hquiet.armed harmed with hwas | hnew
      · exact (h.unused hwas).trans_le harms
      · have hone : (r.next (recordingTakesMove hostMove) s a).arms = r.arms + 1 := if_pos hnew
        rw [hone]
        exact Nat.lt_succ_of_le h.used
    · rw [hpackets, h.packets, hquiet.log]

/-- **One packet for one arming, and every byte in its place.**  In every run from power-on, at most
as many data packets are queued on the bulk endpoint as firmware has armed it, and their bytes are
those taken from the bridge, in order.  A packet that the next action queues is delivered to an
armed endpoint of a configured device and disarms it; a poll that attaches the host queues none and
clears the endpoints, and any other that queues none changes neither the bridge nor an endpoint. -/
theorem bulk_out_flow_control (bridge : UsbCdcTcp) {as : List (UsbAction HostMove)}
    {s : BulkOutState} {r : BulkOutRecord}
    (hrun : Run (guardedStep (fun _ a => HostIsVirtual a) (stepRel bulkOutStep))
      (bulkOutPowerOn bridge) as (s, r)) :
    r.packets.length ≤ r.arms ∧ r.packets.flatten = s.2.2 ∧
      ∀ a s', HostIsVirtual a → usbStep (recordingTakesMove hostMove) s a = some s' →
        (∀ bytes ∈ bulkOutQueued s.1 s'.1, PacketDelivered s s' bytes) ∧
        (∀ nvic n, a = .poll nvic n → s.1.attaches s.2 (nvic.isEnabled 67) = true →
          HostAttached s s') ∧
        (∀ nvic n, a = .poll nvic n → s.1.attaches s.2 (nvic.isEnabled 67) = false →
          bulkOutQueued s.1 s'.1 = [] →
            s'.2 = s.2 ∧ s'.1.epIn = s.1.epIn ∧ s'.1.epOut = s.1.epOut) := by
  have hinv : BulkOutInvariant s r := by
    refine hrun.invariant_state (I := fun p => BulkOutInvariant p.1 p.2) ?_ ?_
    · have hidle : EndpointRegs.default.ctl &&& diepctlEpena = 0#32 := by decide
      exact ⟨⟨rfl, rfl⟩, le_rfl, fun harmed => absurd hidle harmed, rfl⟩
    · rintro ⟨s, r⟩ ⟨s', r'⟩ a hinv ⟨ha, hstep⟩
      obtain ⟨hstep, rfl⟩ := withGhost_eq_some.mp hstep
      exact hinv.step ha hstep
  refine ⟨hinv.used, hinv.packets, fun a s' ha hstep => ⟨fun bytes hbytes => ?_, ?_, ?_⟩⟩
  · rcases (hinv.onBridge.step ha hstep).cases with ⟨bytes', hqueued, hdelivered, -⟩ | hquiet
    · rw [hqueued, List.mem_singleton] at hbytes
      rw [hbytes]
      exact hdelivered
    · rw [hquiet.queued] at hbytes
      cases hbytes
  · rintro nvic n rfl
    obtain ⟨r', hpoll, rfl⟩ := Option.map_eq_some_iff.mp hstep
    exact (hinv.onBridge.poll (W := HostMove) hpoll).2.1
  · rintro nvic n rfl
    obtain ⟨r', hpoll, rfl⟩ := Option.map_eq_some_iff.mp hstep
    exact (hinv.onBridge.poll (W := HostMove) hpoll).2.2

/-- A bridge on a socket, with a client that has sent three bytes. -/
def clientBridge : UsbCdcTcp :=
  ⟨65536, none, some 0, some 0, UsbCdcTcp.defaultStaleClientGracePeriod, [0x41, 0x42, 0x43], []⟩

/-- Firmware ends the five requests and arms the bulk endpoint, and the emulator polls. -/
def sampleBulkOut : List (UsbAction HostMove) :=
  List.replicate 5 (.write 0x900 0x80000000) ++
    [.write 0xb50 64, .write 0xb40 0x80000000, .poll Nvic.default 0]

/-- The three bytes arrive in one packet. -/
theorem bulk_out_flow_control_sample :
    ∃ s r, Run (guardedStep (fun _ a => HostIsVirtual a) (stepRel bulkOutStep))
      (bulkOutPowerOn clientBridge) sampleBulkOut (s, r) ∧
      r.packets = [[0x41, 0x42, 0x43]] ∧ r.arms = 1 ∧ r.packets.flatten = s.2.2 := by
  have hexec : (execGuarded (fun _ a => HostIsVirtual a) bulkOutStep (bulkOutPowerOn clientBridge)
      sampleBulkOut).map (fun p => (p.2.packets, p.2.arms)) = some ([[0x41, 0x42, 0x43]], 1) := by
    decide +kernel
  obtain ⟨⟨s, r⟩, hexec, hvalues⟩ := Option.map_eq_some_iff.mp hexec
  obtain ⟨hpackets, harms⟩ := Prod.mk.inj hvalues
  have hrun := Run.of_execGuarded hexec
  exact ⟨s, r, hrun, hpackets, harms, (bulk_out_flow_control clientBridge hrun).2.1⟩

/-- Firmware arms the bulk endpoint before the host is attached. -/
def sampleEarlyArming : List (UsbAction HostMove) := [.write 0xb40 0x80000000, .write 0x18 0x10]

/-- A poll that delivers nothing disarms the endpoint: it attaches the host, which resets the
bus. -/
theorem attaching_poll_disarms :
    ∃ s r s', Run (guardedStep (fun _ a => HostIsVirtual a) (stepRel bulkOutStep))
      (bulkOutPowerOn clientBridge) sampleEarlyArming (s, r) ∧
      usbStep (recordingTakesMove hostMove) s
        (.poll { Nvic.default with enabled := 1 <<< 67 } 0) = some s' ∧
      bulkOutQueued s.1 s'.1 = [] ∧ s'.2 = s.2 ∧ s'.1.epOut ≠ s.1.epOut := by
  have hexec : ((execGuarded (fun _ a => HostIsVirtual a) bulkOutStep (bulkOutPowerOn clientBridge)
      sampleEarlyArming).bind fun p =>
        (usbStep (recordingTakesMove hostMove) p.1
          (.poll { Nvic.default with enabled := 1 <<< 67 } 0)).map
          fun s' => (bulkOutQueued p.1.1 s'.1, decide (s'.2 = p.1.2), (p.1.1.epOut 2).ctl,
            (s'.1.epOut 2).ctl))
      = some ([], true, 0x80000000#32, 0#32) := by
    decide +kernel
  obtain ⟨⟨s, r⟩, hexec, hpoll⟩ := Option.bind_eq_some_iff.mp hexec
  obtain ⟨s', hpoll, hvalues⟩ := Option.map_eq_some_iff.mp hpoll
  simp only [Prod.mk.injEq, decide_eq_true_eq] at hvalues
  obtain ⟨hqueued, hsame, hbefore, hafter⟩ := hvalues
  refine ⟨s, r, s', Run.of_execGuarded hexec, hpoll, hqueued, hsame, fun hepOut => ?_⟩
  rw [hepOut, hbefore] at hafter
  exact absurd hafter (by decide)

end Stm32Emulator
