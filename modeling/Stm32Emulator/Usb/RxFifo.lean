import Stm32Emulator.Foundation.Chunks
import Stm32Emulator.Usb.VirtualHost

/-!
# Packets from the host

The packets that the host sends are queued as status words and, in a queue of their own, as bytes.
Firmware pops a status word, reads the packet in words, and goes on to the next.  A ghost keeps the
packets (`RxRecord`), and the words that firmware reads are compared with them.

The two queues stay in step as long as no packet with data is queued behind an incomplete word: the
controller does not pad the packets, so that the last word of one packet may take bytes of the next.
-/

namespace Stm32Emulator

open OtgFs

variable {D W : Type}

/-- The number of bytes that a status word reports. -/
def reportedBytes (status : U32) : ℕ := ((status >>> 4) &&& 0x7ff#32).toNat

/-- A packet: a status word and the bytes that it reports. -/
structure RxPacket where
  status : U32
  bytes : List U8
  reported : reportedBytes status = bytes.length

namespace RxPacket

/-- What a status word reports about a packet of a full-speed endpoint. -/
lemma reportedBytes_rxStatusWord (ep : Fin numEndpoints) (n : ℕ) (hn : n ≤ 64) :
    reportedBytes (rxStatusWord rxstsSetupData n ep) = n ∧
      reportedBytes (rxStatusWord rxstsSetupComp n ep) = n ∧
      reportedBytes (rxStatusWord rxstsOutData n ep) = n ∧
      reportedBytes (rxStatusWord rxstsOutComp n ep) = n := by
  revert ep n
  decide +kernel

/-- Nothing: what the controller answers when no status word is queued. -/
def none : RxPacket := ⟨0, [], rfl⟩

/-- A SETUP packet, with its completion. -/
def setup (ep : Fin numEndpoints) (packet : SetupPacket) : List RxPacket :=
  [⟨rxStatusWord rxstsSetupData 8 ep, packet,
      by rw [packet.2, (reportedBytes_rxStatusWord ep 8 (by decide)).1]⟩,
    ⟨rxStatusWord rxstsSetupComp 0 ep, [], (reportedBytes_rxStatusWord ep 0 (by decide)).2.1⟩]

/-- An OUT packet, with its completion. -/
def out (ep : Fin numEndpoints) (data : Payload) : List RxPacket :=
  [⟨rxStatusWord rxstsOutData data.1.length ep, data,
      (reportedBytes_rxStatusWord ep _ data.2).2.2.1⟩,
    ⟨rxStatusWord rxstsOutComp 0 ep, [], (reportedBytes_rxStatusWord ep 0 (by decide)).2.2.2⟩]

/-- A SETUP packet and the data that goes with it. -/
def controlOut (ep : Fin numEndpoints) (packet : SetupPacket) (data : Payload) : List RxPacket :=
  if data.1 = [] then setup ep packet else setup ep packet ++ out ep data

end RxPacket

/-- The packets with which the host answers the end of a control transfer. -/
def VirtualHostStep.packets : VirtualHostStep → List RxPacket
  | awaitingDeviceDescriptor =>
    RxPacket.out 0 ⟨[], by decide⟩ ++ RxPacket.setup 0 ⟨setAddressPacket virtualDeviceAddress, rfl⟩
  | awaitingSetAddressStatus => RxPacket.setup 0 ⟨setConfigurationPacket 1, rfl⟩
  | awaitingSetConfigurationStatus =>
    RxPacket.controlOut 0 ⟨setLineCodingPacket.1, rfl⟩ ⟨setLineCodingPacket.2, by decide⟩
  | awaitingSetLineCodingStatus => RxPacket.setup 0 ⟨setControlLineStatePacket, rfl⟩
  | awaitingSetControlLineStateStatus => []
  | configured => []

namespace OtgFs

/-- The packet that the bridge has for the bulk-OUT endpoint, if firmware has armed it. -/
def bulkOutPackets (otg : OtgFs D) (d : D) : List RxPacket :=
  match otg.bulkOutEndpoint, otg.bridge with
  | some outEp, some bridge =>
    let requested := ((otg.epOut outEp).tsiz &&& xfrsizMask).toNat
    let data : Payload := ⟨(bridge.takeForDevice (min 64 requested) d).1,
      (bridge.length_takeForDevice _ d).trans (min_le_left _ _)⟩
    if otg.isConfigured ∧ (otg.epOut outEp).ctl &&& diepctlEpena ≠ 0#32 ∧ requested ≠ 0 ∧
      data.1 ≠ [] then
      RxPacket.out outEp data
    else
      []
  | _, _ => []

/-- The write completes a transfer of the IN endpoint: the word that fills an armed transfer, or the
arming of an empty one. -/
abbrev CompletesIn (otg : OtgFs D) (ep : Fin numEndpoints) (offset value : U32) : Prop :=
  fifoEndpoint offset = some ep ∧ otg.InArmed ep ∧
      otg.inXfrsiz ep ≤ (otg.epIn ep).armedInBytesSent + 4 ∨
    otg.ArmsIn ep offset value ∧ otg.inXfrsiz ep = 0

/-- The write to `DOEPCTL` activates endpoint zero while the host waits for the device. -/
abbrev ActivatesOut (otg : OtgFs D) (offset value : U32) : Prop :=
  decodeEndpoint doepBase offset = some (0, epCtlOffset) ∧ value &&& doepctlUsbaep ≠ 0#32 ∧
    (otg.epOut 0).ctl &&& doepctlUsbaep = 0#32 ∧ otg.virtualHostStep = .awaitingDeviceDescriptor

end OtgFs

/-- The packets that the host sends in a step. -/
def hostPackets (s : UsbState D) : UsbAction W → List RxPacket
  | .write offset value =>
    if s.1.CompletesIn 0 offset value then s.1.virtualHostStep.packets
    else if s.1.ActivatesOut offset value then RxPacket.setup 0 ⟨getDeviceDescriptorPacket, rfl⟩
    else []
  | .poll nvic _ => if s.1.attaches s.2 (nvic.isEnabled 67) then [] else s.1.bulkOutPackets s.2
  | .setup ep packet => RxPacket.setup ep packet
  | .controlOut ep packet data => RxPacket.controlOut ep packet data
  | _ => []

/-! ## What firmware should obtain -/

/-- The ghost. -/
structure RxRecord where
  /-- The packets whose status words firmware has not popped yet. -/
  pending : List RxPacket
  /-- The packet whose status word firmware has popped last, ... -/
  packet : RxPacket
  /-- ... the status word that it obtained, ... -/
  status : U32
  /-- ... and the bytes that it has read since. -/
  obtained : List U8

namespace RxRecord

/-- Nothing sent and nothing read. -/
def empty : RxRecord := ⟨[], RxPacket.none, 0, []⟩

/-- The words that firmware has still to read: as many as hold the reported bytes. -/
def wordsLeft (r : RxRecord) : ℕ := (reportedBytes r.status + 3) / 4 - r.obtained.length / 4

/-- The value that a register read returns. -/
def readValue (s : UsbState D) (offset : U32) : U32 :=
  match s.1.registerRead offset with
  | some (_, value) => value
  | Option.none => 0

/-- One action's effect on the ghost.  A bus reset takes back all packets. -/
def next (r : RxRecord) (s : UsbState D) : UsbAction W → RxRecord
  | .read offset =>
    if fifoEndpoint offset = some 0 then
      { r with obtained := r.obtained ++ toLeBytes (readValue s offset) }
    else if offset = grxstsp then
      { pending := r.pending.tail
        packet := r.pending.headD RxPacket.none
        status := readValue s offset
        obtained := [] }
    else r
  | .busReset => empty
  | .poll nvic n =>
    if s.1.attaches s.2 (nvic.isEnabled 67) then empty
    else { r with pending := r.pending ++ hostPackets s (.poll nvic n : UsbAction W) }
  | a => { r with pending := r.pending ++ hostPackets s a }

/-- Firmware reads exactly the words of a packet before it pops the next status word. -/
def Disciplined (r : RxRecord) : UsbAction W → Prop
  | .read offset =>
    if fifoEndpoint offset = some 0 then 0 < r.wordsLeft
    else offset = grxstsp → r.wordsLeft = 0
  | _ => True

instance (r : RxRecord) (a : UsbAction W) : Decidable (r.Disciplined a) :=
  match a with
  | .read _ => inferInstanceAs (Decidable (ite _ _ _))
  | .write _ _ | .poll _ _ | .busReset | .setup _ _ | .controlOut _ _ _ | .outside _ =>
    inferInstanceAs (Decidable True)

/-- What firmware has obtained is the packet: the status word, and once all its words are read, the
bytes. -/
structure Faithful (r : RxRecord) : Prop where
  status : r.status = r.packet.status
  bytes : r.wordsLeft = 0 → r.obtained.take (reportedBytes r.status) = r.packet.bytes

end RxRecord

/-- Data is only queued when the unread bytes fill their last word. -/
def QueuesWholeWords (s : UsbState D) (a : UsbAction W) : Prop :=
  (∃ p ∈ hostPackets s a, p.bytes ≠ []) → 4 ∣ s.1.rxFifo.length

instance (s : UsbState D) (a : UsbAction W) : Decidable (QueuesWholeWords s a) :=
  inferInstanceAs (Decidable (_ → _))

/-! ## What an operation queues -/

/-- The operation queues these packets behind what is there. -/
structure Queues (otg otg' : OtgFs D) (ps : List RxPacket) : Prop where
  fifo : otg'.rxFifo = otg.rxFifo ++ (ps.map RxPacket.bytes).flatten
  status : otg'.rxStatus = otg.rxStatus ++ ps.map RxPacket.status

namespace Queues

variable {otg otg' otg'' : OtgFs D} {d : D} {ps ps' : List RxPacket} {value : U32}

/-- Operations that touch neither queue. -/
lemma of_eq (hfifo : otg'.rxFifo = otg.rxFifo) (hstatus : otg'.rxStatus = otg.rxStatus) :
    Queues otg otg' [] :=
  ⟨by simp [hfifo], by simp [hstatus]⟩

/-- What comes before touches neither queue. -/
lemma after (h : Queues otg' otg'' ps) (hfifo : otg'.rxFifo = otg.rxFifo)
    (hstatus : otg'.rxStatus = otg.rxStatus) : Queues otg otg'' ps :=
  ⟨by rw [h.fifo, hfifo], by rw [h.status, hstatus]⟩

lemma trans (h₁ : Queues otg otg' ps) (h₂ : Queues otg' otg'' ps') :
    Queues otg otg'' (ps ++ ps') where
  fifo := by rw [h₂.fifo, h₁.fifo, List.map_append, List.flatten_append, List.append_assoc]
  status := by rw [h₂.status, h₁.status, List.map_append, List.append_assoc]

lemma virtualHostSetup (otg : OtgFs D) (ep : Fin numEndpoints) (packet : SetupPacket) :
    Queues otg (otg.virtualHostSetup ep packet) (RxPacket.setup ep packet) :=
  ⟨by simp [OtgFs.virtualHostSetup, queueRx, RxPacket.setup],
    by simp [OtgFs.virtualHostSetup, queueRx, RxPacket.setup]⟩

/-- Queueing an OUT packet and its completion. -/
lemma queueOut (otg : OtgFs D) (ep : Fin numEndpoints) (data : Payload) :
    Queues otg ((otg.queueRx (rxStatusWord rxstsOutData data.1.length ep) data.1).queueRx
      (rxStatusWord rxstsOutComp 0 ep) []) (RxPacket.out ep data) :=
  ⟨by simp [queueRx, RxPacket.out], by simp [queueRx, RxPacket.out]⟩

lemma virtualHostControlOut (otg : OtgFs D) (ep : Fin numEndpoints) (packet : SetupPacket)
    (data : Payload) :
    Queues otg (otg.virtualHostControlOut ep packet data) (RxPacket.controlOut ep packet data) := by
  unfold OtgFs.virtualHostControlOut RxPacket.controlOut
  dsimp only
  split
  · exact virtualHostSetup otg ep packet
  · exact (virtualHostSetup otg ep packet).trans (queueOut _ ep data)

lemma virtualHostControlInStatusAck (otg : OtgFs D) (ep : Fin numEndpoints) :
    Queues otg (otg.virtualHostControlInStatusAck ep) (RxPacket.out ep ⟨[], by decide⟩) :=
  queueOut otg ep ⟨[], by decide⟩

lemma advanceVirtualHost (otg : OtgFs D) (d : D) :
    Queues otg (otg.advanceVirtualHost d).1 otg.virtualHostStep.packets := by
  unfold OtgFs.advanceVirtualHost
  dsimp only
  have hstep {otg' : OtgFs D} {ps : List RxPacket} (h : Queues otg otg' ps)
      (step : VirtualHostStep) : Queues otg { otg' with virtualHostStep := step } ps :=
    ⟨h.fifo, h.status⟩
  refine hstep ?_ _
  generalize otg.virtualHostStep = step
  cases step with
  | awaitingDeviceDescriptor =>
    exact (virtualHostControlInStatusAck otg 0).trans
      (virtualHostSetup _ 0 ⟨setAddressPacket virtualDeviceAddress, rfl⟩)
  | awaitingSetAddressStatus => exact virtualHostSetup otg 0 ⟨setConfigurationPacket 1, rfl⟩
  | awaitingSetConfigurationStatus =>
    exact virtualHostControlOut otg 0 ⟨setLineCodingPacket.1, rfl⟩
      ⟨setLineCodingPacket.2, by decide⟩
  | awaitingSetLineCodingStatus => exact virtualHostSetup otg 0 ⟨setControlLineStatePacket, rfl⟩
  | awaitingSetControlLineStateStatus => exact of_eq rfl rfl
  | configured => exact of_eq rfl rfl

/-- The host only answers the end of a transfer of endpoint zero. -/
lemma completeInTransfer (otg : OtgFs D) (d : D) (ep : Fin numEndpoints) :
    Queues otg (otg.completeInTransfer d ep).1
      (if ep = 0 then otg.virtualHostStep.packets else []) := by
  unfold OtgFs.completeInTransfer
  dsimp only
  split
  · exact (advanceVirtualHost _ d).after rfl rfl
  split
  · split
    · exact of_eq rfl rfl
    · exact of_eq rfl rfl
  · exact of_eq rfl rfl

lemma pushTxFifoWord {ep : Fin numEndpoints} {r : OtgFs D × D}
    (h : otg.pushTxFifoWord d ep value = some r) :
    Queues otg r.1 (if ep = 0 ∧ otg.InArmed 0 ∧ otg.inXfrsiz 0 ≤ (otg.epIn 0).armedInBytesSent + 4
      then otg.virtualHostStep.packets else []) := by
  rw [pushTxFifoWord_eq_some h]
  by_cases hep : ep = 0
  · subst hep
    simp only [true_and]
    split
    · exact (completeInTransfer ((otg.pushed 0 value).disarm 0) d 0).after rfl rfl
    · exact of_eq rfl rfl
  · have hother : ¬ (ep = 0 ∧ otg.InArmed 0 ∧ otg.inXfrsiz 0 ≤ (otg.epIn 0).armedInBytesSent + 4) :=
      fun h => hep h.1
    rw [if_neg hother]
    split
    · have hcomplete := completeInTransfer ((otg.pushed ep value).disarm ep) d ep
      rw [if_neg hep] at hcomplete
      exact hcomplete.after rfl rfl
    · exact of_eq rfl rfl

lemma writeDiepctl (otg : OtgFs D) (d : D) (ep : Fin numEndpoints) (value : U32) :
    Queues otg (otg.writeDiepctl d ep value).1
      (if ep = 0 ∧ (value &&& diepctlEpena ≠ 0#32 ∧ ¬ otg.InArmed 0) ∧ otg.inXfrsiz 0 = 0
        then otg.virtualHostStep.packets else []) := by
  by_cases hempty : (value &&& diepctlEpena ≠ 0#32 ∧ ¬ otg.InArmed ep) ∧ otg.inXfrsiz ep = 0
  · rw [writeDiepctl_of_empty hempty.1 hempty.2]
    have hcomplete := completeInTransfer ((otg.enabled ep value).disarm ep) d ep
    by_cases hep : ep = 0
    · subst hep
      rw [if_pos ⟨rfl, hempty⟩]
      exact hcomplete.after rfl rfl
    · rw [if_neg hep] at hcomplete
      rw [if_neg fun h => hep h.1]
      exact hcomplete.after rfl rfl
  · have hother : ¬ (ep = 0 ∧ (value &&& diepctlEpena ≠ 0#32 ∧ ¬ otg.InArmed 0) ∧
        otg.inXfrsiz 0 = 0) := by
      rintro ⟨rfl, h⟩
      exact hempty h
    obtain ⟨f, heq, -⟩ := writeDiepctl_of_not_empty hempty d
    rw [heq, if_neg hother]
    exact of_eq rfl rfl

lemma writeDoepctl (otg : OtgFs D) (ep : Fin numEndpoints) (value : U32) :
    Queues otg (otg.writeDoepctl ep value)
      (if ep = 0 ∧ value &&& doepctlUsbaep ≠ 0#32 ∧ (otg.epOut 0).ctl &&& doepctlUsbaep = 0#32 ∧
        otg.virtualHostStep = .awaitingDeviceDescriptor
        then RxPacket.setup 0 ⟨getDeviceDescriptorPacket, rfl⟩ else []) := by
  unfold OtgFs.writeDoepctl
  dsimp only
  by_cases hep : ep = 0
  · subst hep
    have hstep : (otg.modifyOut 0 fun regs => { regs with ctl := value }).virtualHostStep
      = otg.virtualHostStep := rfl
    simp only [bne_iff_ne, ne_eq, not_not, true_and, hstep]
    split_ifs
    · exact (virtualHostSetup _ 0 ⟨getDeviceDescriptorPacket, rfl⟩).after rfl rfl
    · exact of_eq rfl rfl
  · simp only [hep, false_and, if_false]
    exact of_eq rfl rfl

lemma forwardBulkOut (otg : OtgFs D) (d : D) :
    Queues otg (otg.forwardBulkOut d).1 (otg.bulkOutPackets d) := by
  -- without an endpoint or a bridge nothing is forwarded
  have hidle (hforward : otg.forwardBulkOut d = (otg, d)) (hpackets : otg.bulkOutPackets d = []) :
      Queues otg (otg.forwardBulkOut d).1 (otg.bulkOutPackets d) := by
    rw [hforward, hpackets]
    exact of_eq rfl rfl
  rcases hep : otg.bulkOutEndpoint with _ | outEp
  · refine hidle ?_ ?_
    · unfold OtgFs.forwardBulkOut
      rw [hep]
      split <;> rfl
    · unfold bulkOutPackets
      rw [hep]
  rcases hbridge : otg.bridge with _ | bridge
  · refine hidle ?_ ?_
    · unfold OtgFs.forwardBulkOut
      rw [hep, hbridge]
      split <;> rfl
    · unfold bulkOutPackets
      rw [hep, hbridge]
  unfold OtgFs.forwardBulkOut bulkOutPackets
  rw [hep, hbridge]
  dsimp only
  split
  · next hconf =>
    rw [if_neg fun h => by simp [hconf] at h]
    exact of_eq rfl rfl
  next hconf =>
  split
  · next hidle =>
    rw [if_neg fun h => h.2.1 hidle]
    exact of_eq rfl rfl
  next harmed =>
  split
  · next hzero =>
    rw [if_neg fun h => h.2.2.1 hzero]
    exact of_eq rfl rfl
  next hsize =>
  split
  · next hnil =>
    rw [if_neg fun h => h.2.2.2 hnil]
    exact of_eq rfl rfl
  next hne =>
  rw [if_pos ⟨by simpa using hconf, harmed, hsize, hne⟩]
  exact (queueOut _ outEp ⟨_, _⟩).after rfl rfl

/-- A register write queues the packets that the host sends in the step. -/
lemma registerWrite {offset : U32} {r : OtgFs D × D} (h : RegisterWrite otg d offset value r) :
    Queues otg r.1 (hostPackets (otg, d) (.write offset value : UsbAction W)) := by
  have hquiet (hin : ¬ otg.CompletesIn 0 offset value) (hout : ¬ otg.ActivatesOut offset value) :
      hostPackets (otg, d) (.write offset value : UsbAction W) = [] := by
    simp only [hostPackets, hin, hout, if_false]
  cases h with
  | @fifo ep _ hfifo h =>
    have hdecode {base : ℕ} {reg : ℕ} (hbase : base ≤ doepBase) :
        decodeEndpoint base offset ≠ some (0, reg) := fun hdecode => by
      rw [fifoEndpoint_eq_none_of_decodeEndpoint hbase hdecode] at hfifo
      cases hfifo
    have hout : ¬ otg.ActivatesOut offset value := fun h => hdecode le_rfl h.1
    have hps : hostPackets (otg, d) (.write offset value : UsbAction W) = if ep = 0 ∧
        otg.InArmed 0 ∧ otg.inXfrsiz 0 ≤ (otg.epIn 0).armedInBytesSent + 4 then
          otg.virtualHostStep.packets else [] := by
      simp only [hostPackets, hout, if_false]
      refine if_congr ?_ rfl rfl
      rw [CompletesIn, hfifo, Option.some.injEq]
      exact or_iff_left fun h => hdecode (by decide) h.1.1
    rw [hps]
    exact pushTxFifoWord h
  | @diepctl ep hfifo hdecode =>
    have hout : ¬ otg.ActivatesOut offset value := by
      rintro ⟨hdoep, -⟩
      rw [decodeEndpoint_doepBase_of_diepBase hdecode] at hdoep
      cases hdoep
    have hps : hostPackets (otg, d) (.write offset value : UsbAction W) = if ep = 0 ∧
        (value &&& diepctlEpena ≠ 0#32 ∧ ¬ otg.InArmed 0) ∧ otg.inXfrsiz 0 = 0 then
          otg.virtualHostStep.packets else [] := by
      simp only [hostPackets, hout, if_false]
      refine if_congr ?_ rfl rfl
      simp only [CompletesIn, hfifo, ArmsIn, hdecode, reduceCtorEq, false_and, false_or,
        Option.some.injEq, Prod.mk.injEq, and_true, and_assoc]
    rw [hps]
    exact writeDiepctl otg d ep value
  | @diep ep reg _ hfifo hdecode hreg _ =>
    rw [hquiet]
    · exact of_eq rfl rfl
    · rintro (⟨h, -⟩ | ⟨⟨h, -⟩, -⟩)
      · cases hfifo.symm.trans h
      · cases hdecode.symm.trans h
        exact hreg rfl
    · rintro ⟨hdoep, -⟩
      rw [decodeEndpoint_doepBase_of_diepBase hdecode] at hdoep
      cases hdoep
  | @doepctl ep hfifo hdiep hdecode =>
    have hin : ¬ otg.CompletesIn 0 offset value := by simp [CompletesIn, ArmsIn, hfifo, hdiep]
    have hps : hostPackets (otg, d) (.write offset value : UsbAction W) = if ep = 0 ∧
        value &&& doepctlUsbaep ≠ 0#32 ∧ (otg.epOut 0).ctl &&& doepctlUsbaep = 0#32 ∧
          otg.virtualHostStep = .awaitingDeviceDescriptor then
            RxPacket.setup 0 ⟨getDeviceDescriptorPacket, rfl⟩ else [] := by
      simp only [hostPackets, hin, if_false]
      refine if_congr ?_ rfl rfl
      simp only [ActivatesOut, hdecode, Option.some.injEq, Prod.mk.injEq, and_true]
    rw [hps]
    exact writeDoepctl otg ep value
  | @doep ep reg _ hfifo hdiep hdecode hreg =>
    rw [hquiet]
    · exact of_eq rfl rfl
    · simp [CompletesIn, ArmsIn, hfifo, hdiep]
    · rintro ⟨hdoep, -⟩
      cases hdecode.symm.trans hdoep
      exact hreg rfl
  | global hfifo hdiep hdoep hframe _ =>
    rw [hquiet]
    · exact of_eq hframe.rxFifo hframe.rxStatus
    · simp [CompletesIn, ArmsIn, hfifo, hdiep]
    · simp [ActivatesOut, hdoep]

/-- A poll that attaches the host leaves both queues empty. -/
lemma poll_of_attaches {nvic : Nvic} {n : ℕ} {r : OtgFs D × D × Nvic}
    (h : otg.poll d nvic n = some r) (hattaches : otg.attaches d (nvic.isEnabled 67) = true) :
    r.1.rxFifo = [] ∧ r.1.rxStatus = [] := by
  rcases poll_cases h with ⟨-, status, last, hotg, -⟩ | ⟨hnot, -⟩
  · rw [hotg]
    exact ⟨rfl, rfl⟩
  · cases hattaches.symm.trans hnot

/-- A poll that does not attach the host queues the bridge's packet. -/
lemma poll {nvic : Nvic} {n : ℕ} {r : OtgFs D × D × Nvic} (h : otg.poll d nvic n = some r)
    (hattaches : otg.attaches d (nvic.isEnabled 67) = false) :
    Queues otg r.1 (otg.bulkOutPackets d) := by
  rcases poll_cases h with ⟨hyes, -⟩ | ⟨-, status, last, hotg, -⟩
  · cases hattaches.symm.trans hyes
  · rw [hotg]
    exact (forwardBulkOut _ d).after rfl rfl

end Queues

/-! ## The invariant -/

/-- The bytes of a list of packets. -/
abbrev packetBytes (ps : List RxPacket) : List (List U8) := ps.map RxPacket.bytes

/-- The host's packets, queued together, are chunked. -/
lemma chunked_hostPackets (s : UsbState D) (a : UsbAction W) :
    Chunked 4 (packetBytes (hostPackets s a)) := by
  have hsetup (ep : Fin numEndpoints) (packet : SetupPacket) :
      Chunked 4 (packetBytes (RxPacket.setup ep packet)) := by
    simp [Chunked, RxPacket.setup]
  have hout (ep : Fin numEndpoints) (data : Payload) :
      Chunked 4 (packetBytes (RxPacket.out ep data)) := by
    simp [Chunked, RxPacket.out]
  have hcontrol (ep : Fin numEndpoints) (packet : SetupPacket) (data : Payload) :
      Chunked 4 (packetBytes (RxPacket.controlOut ep packet data)) := by
    unfold RxPacket.controlOut
    split
    · exact hsetup ep packet
    · rw [packetBytes, List.map_append]
      refine (hsetup ep packet).append (hout ep data) fun _ => ?_
      simp [RxPacket.setup, packet.2]
  cases a with
  | write offset value =>
    simp only [hostPackets]
    split
    · unfold VirtualHostStep.packets
      split
      · rw [packetBytes, List.map_append]
        exact (hout 0 _).append (hsetup 0 _) fun _ => by simp [RxPacket.out]
      · exact hsetup 0 _
      · exact hcontrol 0 _ _
      · exact hsetup 0 _
      · exact List.Pairwise.nil
      · exact List.Pairwise.nil
    split
    · exact hsetup 0 _
    · exact List.Pairwise.nil
  | poll nvic n =>
    simp only [hostPackets]
    split
    · exact List.Pairwise.nil
    unfold bulkOutPackets
    split
    · dsimp only
      split
      · exact hout _ _
      · exact List.Pairwise.nil
    · exact List.Pairwise.nil
  | setup ep packet => exact hsetup ep packet
  | controlOut ep packet data => exact hcontrol ep packet data
  | read _ => exact List.Pairwise.nil
  | busReset => exact List.Pairwise.nil
  | outside _ => exact List.Pairwise.nil

/-- The invariant: the status queue holds the packets that are pending, and the byte queue what is
left of the current packet and, behind it, the bytes of the pending ones. -/
structure RxInvariant (otg : OtgFs D) (r : RxRecord) : Prop where
  statuses : otg.rxStatus = r.pending.map RxPacket.status
  status : r.status = r.packet.status
  fifo : otg.rxFifo = r.packet.bytes.drop r.obtained.length ++ (packetBytes r.pending).flatten
  obtained : r.obtained.take r.packet.bytes.length = r.packet.bytes.take r.obtained.length
  whole_words : 4 ∣ r.obtained.length
  chunked : Chunked 4 (r.packet.bytes.drop r.obtained.length :: packetBytes r.pending)

namespace RxInvariant

variable {otg otg' : OtgFs D} {s s' : UsbState D} {r : RxRecord}

lemma empty (hfifo : otg.rxFifo = []) (hstatus : otg.rxStatus = []) :
    RxInvariant otg RxRecord.empty :=
  ⟨hstatus, rfl, hfifo, rfl, dvd_zero 4, List.pairwise_singleton _ _⟩

/-- As many bytes are reported as the packet has. -/
lemma reported (hinv : RxInvariant otg r) : reportedBytes r.status = r.packet.bytes.length := by
  rw [hinv.status, r.packet.reported]

/-- Words are left to read exactly while bytes of the packet are. -/
lemma wordsLeft_eq_zero_iff (hinv : RxInvariant otg r) :
    r.wordsLeft = 0 ↔ r.packet.bytes.length ≤ r.obtained.length := by
  have hwhole := hinv.whole_words
  rw [RxRecord.wordsLeft, hinv.reported]
  omega

lemma faithful (hinv : RxInvariant otg r) : r.Faithful where
  status := hinv.status
  bytes hdone := by
    rw [hinv.reported, hinv.obtained]
    exact List.take_of_length_le (hinv.wordsLeft_eq_zero_iff.mp hdone)

/-- Queueing packets keeps the invariant, if those with data find the queue in whole words. -/
lemma queue {ps : List RxPacket} (hinv : RxInvariant otg r) (hqueues : Queues otg otg' ps)
    (hchunked : Chunked 4 (packetBytes ps))
    (hwhole : (∃ p ∈ ps, p.bytes ≠ []) → 4 ∣ otg.rxFifo.length) :
    RxInvariant otg' { r with pending := r.pending ++ ps } where
  statuses := by rw [hqueues.status, hinv.statuses, List.map_append]
  status := hinv.status
  fifo := by
    rw [hqueues.fifo, hinv.fifo]
    simp only [packetBytes, List.map_append, List.flatten_append, List.append_assoc]
  obtained := hinv.obtained
  whole_words := hinv.whole_words
  chunked := by
    rw [packetBytes, List.map_append, ← List.cons_append]
    refine hinv.chunked.append hchunked ?_
    rintro ⟨c, hc, hne⟩
    obtain ⟨p, hp, rfl⟩ := List.mem_map.mp hc
    rw [List.flatten_cons, ← hinv.fifo]
    exact hwhole ⟨p, hp, hne⟩

/-- Popping a status word goes on to the next packet. -/
lemma pop (hinv : RxInvariant otg r) (hdone : r.wordsLeft = 0)
    (hfifo : otg'.rxFifo = otg.rxFifo) (hstatus : otg'.rxStatus = otg.rxStatus.tail) :
    RxInvariant otg' ⟨r.pending.tail, r.pending.headD RxPacket.none, otg.rxStatus.headD 0, []⟩ := by
  have hread : r.packet.bytes.drop r.obtained.length = [] :=
    List.drop_eq_nil_of_le (hinv.wordsLeft_eq_zero_iff.mp hdone)
  have hchunked := hinv.chunked.tail
  have hfifo' := hinv.fifo
  rw [hread, List.nil_append] at hfifo'
  have hstatuses := hinv.statuses
  cases hpending : r.pending with
  | nil =>
    rw [hpending] at hfifo' hstatuses
    exact ⟨by rw [hstatus, hstatuses]; rfl, by rw [hstatuses]; rfl, by rw [hfifo, hfifo']; rfl, rfl,
      dvd_zero 4, List.pairwise_singleton _ _⟩
  | cons p ps =>
    rw [hpending] at hfifo' hstatuses hchunked
    exact ⟨by rw [hstatus, hstatuses]; rfl, by rw [hstatuses]; rfl, by rw [hfifo, hfifo']; rfl,
      List.take_nil, dvd_zero 4, hchunked⟩

/-- Reading a word of the current packet keeps the invariant. -/
lemma read (hinv : RxInvariant otg r) (hleft : 0 < r.wordsLeft) :
    RxInvariant otg.popRxFifoWord.1
      { r with obtained := r.obtained ++ toLeBytes otg.popRxFifoWord.2 } := by
  have hword : toLeBytes otg.popRxFifoWord.2 = nextWord 4 0 otg.rxFifo := by
    rcases h : otg.rxFifo with _ | ⟨b₀, _ | ⟨b₁, _ | ⟨b₂, _ | ⟨b₃, bs⟩⟩⟩⟩ <;>
      simp [popRxFifoWord, h, nextWord, List.replicate]
  have hlt : r.obtained.length < r.packet.bytes.length := by
    by_contra hge
    rw [hinv.wordsLeft_eq_zero_iff.mpr (not_lt.mp hge)] at hleft
    exact lt_irrefl 0 hleft
  have hne : r.packet.bytes.drop r.obtained.length ≠ [] := by
    simpa [List.drop_eq_nil_iff] using hlt
  have hlength : (r.obtained ++ nextWord 4 0 otg.rxFifo).length = r.obtained.length + 4 := by
    rw [List.length_append, length_nextWord]
  rw [hword]
  refine ⟨hinv.statuses, hinv.status, ?_, ?_, ?_, ?_⟩
  · dsimp only
    rw [hlength, ← List.drop_drop, ← hinv.chunked.drop_flatten hne, List.flatten_cons, ← hinv.fifo]
    rfl
  · -- the packet's part of the word follows what was obtained before
    dsimp only
    have hobtained : r.obtained.take r.packet.bytes.length = r.obtained :=
      List.take_of_length_le hlt.le
    have htail : (nextWord 4 0 otg.rxFifo).take (r.packet.bytes.length - r.obtained.length)
        = (r.packet.bytes.drop r.obtained.length).take 4 := by
      rw [hinv.fifo, ← List.length_drop, take_nextWord]
    rw [hlength, List.take_append, htail, List.take_add, hinv.obtained]
  · dsimp only
    rw [hlength]
    exact (Nat.dvd_add_right hinv.whole_words).mpr dvd_rfl
  · dsimp only
    rw [hlength, ← List.drop_drop]
    exact hinv.chunked.drop

/-- Every action of a disciplined firmware that queues whole words keeps the invariant. -/
lemma step {move : W → D → D} {a : UsbAction W} (hinv : RxInvariant s.1 r)
    (hwhole : QueuesWholeWords s a) (hdisciplined : r.Disciplined a)
    (h : usbStep move s a = some s') : RxInvariant s'.1 (r.next s a) := by
  obtain ⟨otg, d⟩ := s
  have hqueue {otg' : OtgFs D} (hqueues : Queues otg otg' (hostPackets (otg, d) a)) :
      RxInvariant otg' { r with pending := r.pending ++ hostPackets (otg, d) a } :=
    hinv.queue hqueues (chunked_hostPackets _ a) hwhole
  cases a with
  | read offset =>
    obtain ⟨⟨otg', value⟩, hread, rfl⟩ := Option.map_eq_some_iff.mp h
    have hvalue : RxRecord.readValue (otg, d) offset = value := by
      simp only [RxRecord.readValue, hread]
    simp only [RxRecord.next, hvalue]
    simp only [RxRecord.Disciplined] at hdisciplined
    rcases registerRead_cases hread with ⟨hfifo, h⟩ | ⟨hfifo, hpop, h⟩ | ⟨hfifo, hpop, h⟩
    · rw [if_pos hfifo] at hdisciplined ⊢
      cases h
      exact hinv.read hdisciplined
    · rw [if_neg hfifo] at hdisciplined ⊢
      rw [if_pos hpop]
      obtain ⟨hvalue, epOut, hotg⟩ := popRxStatus_eq_some h
      dsimp only at hvalue hotg
      rw [hvalue]
      exact hinv.pop (hdisciplined hpop) (by rw [hotg]) (by rw [hotg])
    · rw [if_neg hfifo, if_neg hpop]
      cases h
      exact hinv
  | write offset value => exact hqueue (Queues.registerWrite (registerWrite_cases h))
  | poll nvic n =>
    obtain ⟨r', hpoll, rfl⟩ := Option.map_eq_some_iff.mp h
    simp only [RxRecord.next]
    cases hattaches : otg.attaches d (nvic.isEnabled 67) with
    | true =>
      obtain ⟨hfifo, hstatus⟩ := Queues.poll_of_attaches hpoll hattaches
      exact empty hfifo hstatus
    | false =>
      refine hqueue ?_
      simp only [hostPackets, hattaches, Bool.false_eq_true, if_false]
      exact Queues.poll hpoll hattaches
  | busReset =>
    cases h
    exact empty rfl rfl
  | setup ep packet =>
    cases h
    exact hqueue (Queues.virtualHostSetup otg ep packet)
  | controlOut ep packet data =>
    cases h
    exact hqueue (Queues.virtualHostControlOut otg ep packet data)
  | outside w =>
    cases h
    exact hqueue (Queues.of_eq rfl rfl)

end RxInvariant

/-! ## Integrity -/

/-- **Packets from the host arrive whole.**  In every run from power-on in which firmware reads each
packet before it pops the next status word, and data is only queued when the unread bytes fill their
last word, the status words arrive in order, and firmware obtains the bytes of each packet. -/
theorem packets_arrive_whole (bridge : Option (UsbBridge D)) (move : W → D → D) (d : D)
    {as : List (UsbAction W)} {s : UsbState D} {r : RxRecord}
    (hrun : Run (guardedStep (fun p a => QueuesWholeWords p.1 a ∧ p.2.Disciplined a)
        (stepRel (withGhost (usbStep move) RxRecord.next)))
      ((OtgFs.new bridge, d), RxRecord.empty) as (s, r)) :
    r.Faithful := by
  have hinv : RxInvariant s.1 r := by
    refine hrun.invariant_state (I := fun p => RxInvariant p.1.1 p.2) (.empty rfl rfl) ?_
    rintro ⟨s, r⟩ ⟨s', r'⟩ a hinv ⟨⟨hwhole, hdisciplined⟩, hstep⟩
    obtain ⟨hstep, rfl⟩ := withGhost_eq_some.mp hstep
    exact hinv.step hwhole hdisciplined hstep
  exact hinv.faithful

/-- The host asks for the device descriptor, and firmware reads the request. -/
def sampleSetup : List (UsbAction Unit) :=
  [.write 0xb00 0x10008040, .read 0x20, .read 0x1000, .read 0x1000]

/-- Firmware obtains the request. -/
theorem packets_arrive_whole_sample :
    ∃ s r, Run (guardedStep (fun p a => QueuesWholeWords p.1 a ∧ p.2.Disciplined a)
        (stepRel (withGhost (usbStep fun (_ : Unit) (d : Unit) => d) RxRecord.next)))
      ((OtgFs.new none, ()), RxRecord.empty) sampleSetup (s, r) ∧
      r.packet.bytes = getDeviceDescriptorPacket ∧ r.wordsLeft = 0 ∧ r.Faithful := by
  have hexec : (execGuarded (fun p a => QueuesWholeWords p.1 a ∧ p.2.Disciplined a)
      (withGhost (usbStep fun (_ : Unit) (d : Unit) => d) RxRecord.next)
      ((OtgFs.new none, ()), RxRecord.empty) sampleSetup).map
        (fun p => (p.2.packet.bytes, p.2.wordsLeft)) = some (getDeviceDescriptorPacket, 0) := by
    decide +kernel
  obtain ⟨⟨s, r⟩, hexec, hvalues⟩ := Option.map_eq_some_iff.mp hexec
  simp only [Prod.mk.injEq] at hvalues
  have hrun := Run.of_execGuarded hexec
  exact ⟨s, r, hrun, hvalues.1, hvalues.2, packets_arrive_whole none _ () hrun⟩

/-- Firmware ends four requests before it reads anything, so that the last one is queued behind the
seven bytes of the third; then it reads packet after packet. -/
def sampleBacklog : List (UsbAction Unit) :=
  List.replicate 4 (.write 0x900 0x80000000) ++ [.read 0x20, .read 0x20] ++
    (List.replicate 4 [.read 0x20, .read 0x1000, .read 0x1000, .read 0x20]).flatten ++
      [.read 0x20, .read 0x1000, .read 0x1000]

/-- The last request lacks its first byte, which firmware has read as the padding of the packet
before. -/
theorem backlog_misaligned :
    ∃ s r, Run (guardedStep (fun p a => p.2.Disciplined a)
        (stepRel (withGhost (usbStep fun (_ : Unit) (d : Unit) => d) RxRecord.next)))
      ((OtgFs.new none, ()), RxRecord.empty) sampleBacklog (s, r) ∧
      r.packet.bytes = setControlLineStatePacket ∧
      r.obtained = [0x22, 0x03, 0x00, 0x00, 0x00, 0x00, 0x00, 0x00] ∧ ¬ r.Faithful := by
  have hexec : (execGuarded (fun p a => p.2.Disciplined a)
      (withGhost (usbStep fun (_ : Unit) (d : Unit) => d) RxRecord.next)
      ((OtgFs.new none, ()), RxRecord.empty) sampleBacklog).map
        (fun p => (p.2.packet.bytes, p.2.obtained, p.2.wordsLeft, reportedBytes p.2.status))
      = some (setControlLineStatePacket,
        [0x22, 0x03, 0x00, 0x00, 0x00, 0x00, 0x00, 0x00], 0, 8) := by
    decide +kernel
  obtain ⟨⟨s, r⟩, hexec, hvalues⟩ := Option.map_eq_some_iff.mp hexec
  simp only [Prod.mk.injEq] at hvalues
  obtain ⟨hpacket, hobtained, hdone, hreported⟩ := hvalues
  refine ⟨s, r, Run.of_execGuarded hexec, hpacket, hobtained, fun hfaithful => ?_⟩
  have := hfaithful.bytes hdone
  rw [hpacket, hobtained, hreported] at this
  cases this

end Stm32Emulator
