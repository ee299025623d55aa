import Stm32Emulator.Usb.RxFifo
import Stm32Emulator.Usb.VirtualHost
import Mathlib.Data.List.Infix

/-!
# The enumeration

After a bus reset the host enumerates the device with five requests.  They are seen in the queues of
the controller (`queuedRequests`), and a ghost counts those that firmware has answered
(`EnumerationRecord`): it has read the request before it arms the transfer, and the transfer has the
size that was asked for.

The virtual host looks at neither.  It goes on with every end of a transfer of endpoint zero, and it
asks for the device descriptor with every activation of the endpoint.
-/

namespace Stm32Emulator

open OtgFs

variable {D W : Type}

/-! ## The requests -/

/-- Status words, each with the bytes that it reports. -/
def splitPackets : List U32 → List U8 → List (U32 × List U8)
  | [], _ => []
  | status :: statuses, bytes =>
    (status, bytes.take (reportedBytes status)) ::
      splitPackets statuses (bytes.drop (reportedBytes status))

/-- The status word announces a SETUP packet. -/
def isSetupData (status : U32) : Bool := status &&& rxstsPktstsMask = rxstsSetupData

/-- The request among packets that are queued together: a SETUP packet and the data that goes with
it. -/
def requestsOf (packets : List (U32 × List U8)) : List (List (List U8)) :=
  if packets.any fun p => isSetupData p.1 then
    [(packets.map Prod.snd).filter fun bytes => !bytes.isEmpty]
  else
    []

/-- The request that is queued from one state to another, if there is one. -/
def queuedRequests (otg otg' : OtgFs D) : List (List (List U8)) :=
  requestsOf (splitPackets (otg'.rxStatus.drop otg.rxStatus.length)
    (otg'.rxFifo.drop otg.rxFifo.length))

/-- The five requests, the fourth with seven bytes of data. -/
def enumeration : List (List (List U8)) :=
  [[getDeviceDescriptorPacket], [setAddressPacket virtualDeviceAddress], [setConfigurationPacket 1],
    [setLineCodingPacket.1, setLineCodingPacket.2], [setControlLineStatePacket]]

/-- The size of the transfer that answers a request: the bytes that it asks for, or an empty status
packet. -/
def answerLength (request : List (List U8)) : ℕ :=
  let setup := request.headD []
  if setup.getD 0 0 &&& 0x80#8 ≠ 0#8 then
    (setup.getD 6 0).toNat + 256 * (setup.getD 7 0).toNat else 0

/-! ## The ghost -/

/-- What has been asked since the bus reset, and what has been answered. -/
structure EnumerationRecord where
  /-- The requests that have been queued. -/
  queued : List (List (List U8))
  /-- The number of those whose status stage is over. -/
  completed : ℕ
  /-- The transfer of endpoint zero has been armed after firmware had read the pending request. -/
  answering : Bool
  deriving DecidableEq

namespace EnumerationRecord

def empty : EnumerationRecord := ⟨[], 0, false⟩

/-- A register write may arm the transfer. -/
def answeringAfter (r : EnumerationRecord) (s : UsbState D) (offset value : U32) : Bool :=
  if s.1.ArmsIn 0 offset value then
    decide (r.completed < r.queued.length) && s.1.rxStatus.isEmpty && s.1.rxFifo.isEmpty
  else
    r.answering

/-- A transfer that ends with the write answers the pending request. -/
abbrev Answers (r : EnumerationRecord) (s : UsbState D) (offset value : U32) : Prop :=
  r.completed < r.queued.length ∧ r.answeringAfter s offset value = true ∧
    s.1.inXfrsiz 0 = answerLength (r.queued.getD r.completed [])

/-- One action's effect on the ghost. -/
def next (move : W → D → D) (r : EnumerationRecord) (s : UsbState D) (a : UsbAction W) :
    EnumerationRecord :=
  let queued :=
    match usbStep move s a with
    | some s' => r.queued ++ queuedRequests s.1 s'.1
    | none => r.queued
  match a with
  | .write offset value =>
    { queued := queued
      completed :=
        if s.1.CompletesIn 0 offset value ∧ r.Answers s offset value then r.completed + 1
        else r.completed
      answering := r.answeringAfter s offset value }
  | _ => { r with queued := queued }

end EnumerationRecord

/-- The action does not end the epoch that a bus reset has begun, and it is none by which a test
puts packets into the queues. -/
def InEpoch (s : UsbState D) : UsbAction W → Prop
  | .busReset => False
  | .poll nvic _ => s.1.attaches s.2 (nvic.isEnabled 67) = false
  | .setup .. => False
  | .controlOut .. => False
  | _ => True

instance (s : UsbState D) (a : UsbAction W) : Decidable (InEpoch s a) :=
  match a with
  | .busReset | .setup _ _ | .controlOut _ _ _ => inferInstanceAs (Decidable False)
  | .poll _ _ => inferInstanceAs (Decidable (_ = _))
  | .read _ | .write _ _ | .outside _ => inferInstanceAs (Decidable True)

/-- The requests are queued in order, none before the one before it has been answered, and the
device is configured only once all five have been. -/
structure InOrder (otg : OtgFs D) (r : EnumerationRecord) : Prop where
  queued : r.queued <+: enumeration
  nodup : r.queued.Nodup
  answered : r.queued.length ≤ r.completed + 1
  configured : otg.isConfigured = true → r.queued = enumeration ∧ r.completed = 5

/-- Until the device is configured every transfer of endpoint zero that ends answers the pending
request, and endpoint zero is activated only before the first request. -/
def KeepsOrder (p : UsbState D × EnumerationRecord) : UsbAction W → Prop
  | .write offset value =>
    (p.1.1.CompletesIn 0 offset value → p.1.1.isConfigured = false → p.2.Answers p.1 offset value) ∧
      (p.1.1.ActivatesOut offset value → p.2.queued = [])
  | _ => True

instance (p : UsbState D × EnumerationRecord) (a : UsbAction W) : Decidable (KeepsOrder p a) :=
  match a with
  | .write _ _ => inferInstanceAs (Decidable (_ ∧ _))
  | .read _ | .poll _ _ | .busReset | .setup _ _ | .controlOut _ _ _ | .outside _ =>
    inferInstanceAs (Decidable True)

/-! ## What is queued -/

lemma splitPackets_packets (ps : List RxPacket) :
    splitPackets (ps.map RxPacket.status) (ps.map RxPacket.bytes).flatten =
      ps.map fun p => (p.status, p.bytes) := by
  induction ps with
  | nil => rfl
  | cons p ps ih =>
    simp only [List.map_cons, List.flatten_cons, splitPackets]
    rw [p.reported, List.take_left, List.drop_left, ih]

/-- The request among the packets of an operation is observed. -/
lemma queuedRequests_of_queues {otg otg' : OtgFs D} {ps : List RxPacket} (h : Queues otg otg' ps) :
    queuedRequests otg otg' = requestsOf (ps.map fun p => (p.status, p.bytes)) := by
  unfold queuedRequests
  rw [h.status, h.fifo, List.drop_left, List.drop_left, splitPackets_packets]

/-- Without new status words there is no request. -/
lemma queuedRequests_of_length_le {otg otg' : OtgFs D}
    (h : otg'.rxStatus.length ≤ otg.rxStatus.length) :
    queuedRequests otg otg' = [] := by
  unfold queuedRequests
  rw [List.drop_eq_nil_of_le h]
  rfl

/-- How far the enumeration has got: the number of requests that have been answered. -/
def VirtualHostStep.index : VirtualHostStep → ℕ
  | awaitingDeviceDescriptor => 0
  | awaitingSetAddressStatus => 1
  | awaitingSetConfigurationStatus => 2
  | awaitingSetLineCodingStatus => 3
  | awaitingSetControlLineStateStatus => 4
  | configured => 5

/-- The end of a control transfer queues the next request. -/
lemma VirtualHostStep.requestsOf_packets (step : VirtualHostStep) :
    requestsOf (step.packets.map fun p => (p.status, p.bytes)) =
      (enumeration.drop (step.index + 1)).take 1 := by
  cases step <;> decide +kernel

/-- Data from the bridge is no request. -/
lemma requestsOf_bulkOutPackets (otg : OtgFs D) (d : D) :
    requestsOf ((otg.bulkOutPackets d).map fun p => (p.status, p.bytes)) = [] := by
  have hout (ep : Fin numEndpoints) (data : Payload) :
      requestsOf ((RxPacket.out ep data).map fun p => (p.status, p.bytes)) = [] := by
    have hstatus : ∀ (ep : Fin numEndpoints) (n : ℕ), n ≤ 64 →
        isSetupData (rxStatusWord rxstsOutData n ep) = false ∧
          isSetupData (rxStatusWord rxstsOutComp 0 ep) = false := by
      decide +kernel
    obtain ⟨hdata, hcomp⟩ := hstatus ep _ data.2
    simp [requestsOf, RxPacket.out, hdata, hcomp]
  unfold bulkOutPackets
  split
  · dsimp only
    split
    · exact hout _ _
    · rfl
  · rfl

/-! ## The step of the virtual host -/

section

variable {otg : OtgFs D} {d : D} {offset value : U32} {r : OtgFs D × D}

lemma virtualHostStep_completeInTransfer (otg : OtgFs D) (d : D) (ep : Fin numEndpoints) :
    (otg.completeInTransfer d ep).1.virtualHostStep =
      if ep = 0 then otg.virtualHostStep.next else otg.virtualHostStep := by
  by_cases hep : ep = 0
  · subst hep
    obtain ⟨_, ⟨_, _, rfl⟩, heq⟩ := completeInTransfer_zero otg d
    rw [heq, if_pos rfl]
  · obtain ⟨_, _, _, heq, -⟩ := completeInTransfer_of_ne otg d hep
    rw [heq, if_neg hep]
    rfl

/-- The virtual host goes on exactly when a transfer of endpoint zero ends. -/
lemma virtualHostStep_registerWrite (h : otg.registerWrite d offset value = some r) :
    r.1.virtualHostStep =
      if otg.CompletesIn 0 offset value then otg.virtualHostStep.next else otg.virtualHostStep := by
  cases registerWrite_cases h with
  | @fifo ep _ hfifo hpush =>
    have harms : ¬ otg.ArmsIn 0 offset value := fun harms => by
      rw [fifoEndpoint_eq_none_of_decodeEndpoint (by decide) harms.1] at hfifo
      cases hfifo
    rw [pushTxFifoWord_eq_some hpush]
    by_cases hep : ep = 0
    · subst hep
      have hcompletes : otg.CompletesIn 0 offset value ↔
          otg.InArmed 0 ∧ otg.inXfrsiz 0 ≤ (otg.epIn 0).armedInBytesSent + 4 := by
        simp only [CompletesIn, hfifo, harms, false_and, or_false, true_and]
      rw [if_congr hcompletes rfl rfl]
      split
      · exact virtualHostStep_completeInTransfer _ d 0
      · rfl
    · have hcompletes : ¬ otg.CompletesIn 0 offset value := by
        simp [CompletesIn, hfifo, harms, hep]
      rw [if_neg hcompletes]
      split
      · exact (virtualHostStep_completeInTransfer _ d ep).trans (if_neg hep)
      · rfl
  | @diepctl ep hfifo hdecode =>
    have hcompletes : otg.CompletesIn 0 offset value ↔
        ep = 0 ∧ (value &&& diepctlEpena ≠ 0#32 ∧ ¬ otg.InArmed 0) ∧ otg.inXfrsiz 0 = 0 := by
      simp only [CompletesIn, ArmsIn, hfifo, hdecode, reduceCtorEq, false_and, false_or,
        Option.some.injEq, Prod.mk.injEq, and_true, and_assoc]
    rw [if_congr hcompletes rfl rfl]
    by_cases hempty : (value &&& diepctlEpena ≠ 0#32 ∧ ¬ otg.InArmed ep) ∧ otg.inXfrsiz ep = 0
    · rw [writeDiepctl_of_empty hempty.1 hempty.2, virtualHostStep_completeInTransfer]
      refine if_congr ⟨fun hep => ⟨hep, ?_⟩, fun h => h.1⟩ rfl rfl
      subst hep
      exact hempty
    · obtain ⟨f, heq, -⟩ := writeDiepctl_of_not_empty hempty d
      rw [heq, if_neg]
      · rfl
      · rintro ⟨rfl, hends⟩
        exact hempty hends
  | @diep ep reg _ hfifo hdecode hreg =>
    rw [if_neg]
    · rfl
    · rintro (⟨h, -⟩ | ⟨⟨h, -⟩, -⟩)
      · cases hfifo.symm.trans h
      · cases hdecode.symm.trans h
        exact hreg rfl
  | @doepctl ep hfifo hdiep =>
    obtain ⟨_, _, heq⟩ := queuesOnly_writeDoepctl otg ep value
    rw [if_neg (by simp [CompletesIn, ArmsIn, hfifo, hdiep]), heq]
    rfl
  | doep hfifo hdiep => rw [if_neg (by simp [CompletesIn, ArmsIn, hfifo, hdiep])]; rfl
  | global hfifo hdiep _ hframe =>
    rw [if_neg (by simp [CompletesIn, ArmsIn, hfifo, hdiep])]
    exact hframe.virtualHostStep

/-- A write that activates endpoint zero ends no transfer. -/
lemma OtgFs.ActivatesOut.not_completesIn (h : otg.ActivatesOut offset value) :
    ¬ otg.CompletesIn 0 offset value := by
  rintro (⟨hfifo, -⟩ | ⟨⟨hdiep, -⟩, -⟩)
  · rw [fifoEndpoint_eq_none_of_decodeEndpoint le_rfl h.1] at hfifo
    cases hfifo
  · cases (decodeEndpoint_doepBase_of_diepBase hdiep).symm.trans h.1

/-- What a register write queues. -/
lemma queuedRequests_registerWrite (h : otg.registerWrite d offset value = some r) :
    queuedRequests otg r.1 =
      if otg.CompletesIn 0 offset value then
        (enumeration.drop (otg.virtualHostStep.index + 1)).take 1
      else if otg.ActivatesOut offset value then [[getDeviceDescriptorPacket]]
      else [] := by
  rw [queuedRequests_of_queues (Queues.registerWrite (W := Unit) (registerWrite_cases h))]
  simp only [hostPackets]
  split
  · exact otg.virtualHostStep.requestsOf_packets
  split
  · decide +kernel
  · rfl

end

/-! ## One action -/

/-- The invariant: as many requests have been answered as the virtual host has taken steps, and one
more has been queued, unless the first one is still to come. -/
structure EnumerationInvariant (otg : OtgFs D) (r : EnumerationRecord) : Prop where
  completed : r.completed = otg.virtualHostStep.index
  queued : r.queued = enumeration.take (otg.virtualHostStep.index + 1) ∨
    otg.virtualHostStep.index = 0 ∧ r.queued = []

lemma VirtualHostStep.index_next (step : VirtualHostStep) :
    step.next.index = min (step.index + 1) 5 := by
  cases step <;> rfl

lemma VirtualHostStep.index_le (step : VirtualHostStep) : step.index ≤ 5 := by
  cases step <;> decide

lemma VirtualHostStep.index_eq_iff (step : VirtualHostStep) :
    step.index = 5 ↔ step = .configured := by
  cases step <;> decide

namespace EnumerationInvariant

variable {otg otg' : OtgFs D} {r : EnumerationRecord}

lemma inOrder (h : EnumerationInvariant otg r) : InOrder otg r := by
  have hqueue : r.queued <+: enumeration := by
    rcases h.queued with hqueued | ⟨-, hqueued⟩
    · rw [hqueued]
      exact List.take_prefix _ _
    · rw [hqueued]
      exact List.nil_prefix
  have hnodup : enumeration.Nodup := by decide +kernel
  refine ⟨hqueue, hnodup.sublist hqueue.sublist, ?_, fun hconfigured => ?_⟩
  · rw [h.completed]
    rcases h.queued with hqueued | ⟨-, hqueued⟩
    · rw [hqueued]
      exact List.length_take_le _ _
    · rw [hqueued]
      exact Nat.zero_le _
  · have hindex : otg.virtualHostStep.index = 5 :=
      (VirtualHostStep.index_eq_iff _).mpr (by simpa [isConfigured] using hconfigured)
    have hcompleted := h.completed
    have hqueued := h.queued
    rw [hindex] at hcompleted hqueued
    exact ⟨hqueued.resolve_right fun h => absurd h.1 (by decide), hcompleted⟩

/-- Nothing is asked, and nothing is answered. -/
lemma same (h : EnumerationInvariant otg r) (hstep : otg'.virtualHostStep = otg.virtualHostStep)
    {r' : EnumerationRecord} (hqueued : r'.queued = r.queued)
    (hcompleted : r'.completed = r.completed) :
    EnumerationInvariant otg' r' :=
  ⟨by rw [hcompleted, hstep, h.completed], by rw [hqueued, hstep]; exact h.queued⟩

/-- A transfer ends before the device is configured: order is kept exactly when it is the answer to
the pending request. -/
lemma complete_iff (h : EnumerationInvariant otg r) (hconfigured : otg.isConfigured = false)
    (hstep : otg'.virtualHostStep = otg.virtualHostStep.next) {r' : EnumerationRecord}
    {answers : Prop} [Decidable answers] (hpending : answers → r.completed < r.queued.length)
    (hqueued : r'.queued = r.queued ++ (enumeration.drop (otg.virtualHostStep.index + 1)).take 1)
    (hcompleted : r'.completed = if answers then r.completed + 1 else r.completed) :
    (EnumerationInvariant otg' r' ↔ answers) ∧ (InOrder otg' r' → answers) := by
  have hindex : otg.virtualHostStep.index < 5 := by
    refine lt_of_le_of_ne otg.virtualHostStep.index_le fun h => ?_
    rw [VirtualHostStep.index_eq_iff] at h
    simp [isConfigured, h] at hconfigured
  have hnext : otg'.virtualHostStep.index = otg.virtualHostStep.index + 1 := by
    rw [hstep, VirtualHostStep.index_next]
    exact min_eq_left hindex
  have horder : InOrder otg' r' → answers := by
    intro horder
    by_contra hnot
    rw [if_neg hnot] at hcompleted
    rcases h.queued with heq | ⟨hzero, hnil⟩
    · have hcompleted : r'.completed = otg.virtualHostStep.index := hcompleted.trans h.completed
      by_cases hlast : otg.virtualHostStep.index = 4
      · -- the device is configured although the last request has not been answered
        have hconfigured : otg'.isConfigured = true := by
          rw [hlast, VirtualHostStep.index_eq_iff] at hnext
          simp [isConfigured, hnext]
        have hall := (horder.configured hconfigured).2
        omega
      · -- a request is queued although the one before it has not been answered
        have hlength : r'.queued.length = otg.virtualHostStep.index + 2 := by
          have hfive : enumeration.length = 5 := rfl
          rw [hqueued, heq, ← List.take_add, List.length_take, hfive]
          omega
        have hanswered := horder.answered
        omega
    · -- the first request has been skipped
      have hqueue := horder.queued
      rw [hqueued, hnil, hzero] at hqueue
      exact absurd hqueue (by decide +kernel)
  refine ⟨⟨fun hinv => horder hinv.inOrder, fun hanswers => ?_⟩, horder⟩
  rw [if_pos hanswers] at hcompleted
  refine ⟨by rw [hcompleted, hnext, h.completed], Or.inl ?_⟩
  rcases h.queued with heq | ⟨hzero, hnil⟩
  · rw [hqueued, heq, hnext, List.take_add (i := otg.virtualHostStep.index + 1) (j := 1)]
  · have hlt := hpending hanswers
    rw [hnil] at hlt
    exact absurd hlt (Nat.not_lt_zero _)

/-- Endpoint zero is activated while the host waits for the device: order is kept exactly when
nothing has been asked yet. -/
lemma activate_iff (h : EnumerationInvariant otg r)
    (hwaits : otg.virtualHostStep = .awaitingDeviceDescriptor)
    (hstep : otg'.virtualHostStep = otg.virtualHostStep) {r' : EnumerationRecord}
    (hqueued : r'.queued = r.queued ++ [[getDeviceDescriptorPacket]])
    (hcompleted : r'.completed = r.completed) :
    (EnumerationInvariant otg' r' ↔ r.queued = []) ∧ (InOrder otg' r' → r.queued = []) := by
  have horder : InOrder otg' r' → r.queued = [] := by
    intro horder
    rcases h.queued with heq | ⟨-, hnil⟩
    · have hqueue := horder.queued
      rw [hqueued, heq, hwaits] at hqueue
      exact absurd hqueue (by decide +kernel)
    · exact hnil
  refine ⟨⟨fun hinv => horder hinv.inOrder, fun hnil => ⟨?_, Or.inl ?_⟩⟩, horder⟩
  · rw [hcompleted, hstep, h.completed]
  · rw [hqueued, hnil, hstep, hwaits]
    rfl

/-- A register write. -/
lemma registerWrite_iff {d : D} {move : W → D → D} {offset value : U32} {s' : UsbState D}
    (h : EnumerationInvariant otg r) (hwrite : otg.registerWrite d offset value = some s') :
    (EnumerationInvariant s'.1 (r.next move (otg, d) (.write offset value)) ↔
        KeepsOrder ((otg, d), r) (.write offset value : UsbAction W)) ∧
      (InOrder s'.1 (r.next move (otg, d) (.write offset value)) →
        KeepsOrder ((otg, d), r) (.write offset value : UsbAction W)) := by
  have hqueued : (r.next move (otg, d) (.write offset value)).queued =
      r.queued ++ queuedRequests otg s'.1 := by
    have hstep : usbStep move (otg, d) (.write offset value) = some s' := hwrite
    simp only [EnumerationRecord.next, hstep]
  have hcompleted : (r.next move (otg, d) (.write offset value)).completed =
      if otg.CompletesIn 0 offset value ∧ r.Answers (otg, d) offset value then r.completed + 1
      else r.completed := rfl
  generalize r.next move (otg, d) (.write offset value) = r' at hqueued hcompleted ⊢
  have hstep := virtualHostStep_registerWrite hwrite
  rw [queuedRequests_registerWrite hwrite] at hqueued
  by_cases hcompletes : otg.CompletesIn 0 offset value
  · have hactivates : ¬ otg.ActivatesOut offset value := fun h => h.not_completesIn hcompletes
    rw [if_pos hcompletes] at hqueued hstep
    simp only [hcompletes, true_and] at hcompleted
    cases hconfigured : otg.isConfigured with
    | true =>
      -- a configured device is asked nothing, and has nothing left to answer
      have hkeeps : KeepsOrder ((otg, d), r) (.write offset value : UsbAction W) :=
        ⟨fun _ hnot => absurd (hconfigured.symm.trans hnot) Bool.true_eq_false.mp,
          fun h => absurd h hactivates⟩
      have hinv : EnumerationInvariant s'.1 r' := by
        have hlast : otg.virtualHostStep = .configured := by simpa [isConfigured] using hconfigured
        have hnot : ¬ r.Answers (otg, d) offset value := by
          rintro ⟨hpending, -⟩
          obtain ⟨hall, hfive⟩ := h.inOrder.configured hconfigured
          rw [hall, hfive] at hpending
          exact absurd hpending (by decide)
        refine h.same (by rw [hstep, hlast]; rfl) ?_ (hcompleted.trans (if_neg hnot))
        rw [hqueued, hlast]
        exact List.append_nil _
      exact ⟨iff_of_true hinv hkeeps, fun _ => hkeeps⟩
    | false =>
      obtain ⟨hiff, horder⟩ := h.complete_iff hconfigured hstep
        (fun hanswers => hanswers.1) hqueued hcompleted
      have hkeeps : KeepsOrder ((otg, d), r) (.write offset value : UsbAction W) ↔
          r.Answers (otg, d) offset value :=
        ⟨fun hkeeps => hkeeps.1 hcompletes hconfigured,
          fun hanswers => ⟨fun _ _ => hanswers, fun h => absurd h hactivates⟩⟩
      rw [hkeeps]
      exact ⟨hiff, horder⟩
  rw [if_neg hcompletes] at hqueued hstep
  have hcompleted : r'.completed = r.completed := hcompleted.trans (if_neg fun h => hcompletes h.1)
  by_cases hactivates : otg.ActivatesOut offset value
  · rw [if_pos hactivates] at hqueued
    obtain ⟨hiff, horder⟩ := h.activate_iff hactivates.2.2.2 hstep hqueued hcompleted
    have hkeeps : KeepsOrder ((otg, d), r) (.write offset value : UsbAction W) ↔ r.queued = [] :=
      ⟨fun hkeeps => hkeeps.2 hactivates, fun hnil => ⟨fun h => absurd h hcompletes, fun _ => hnil⟩⟩
    rw [hkeeps]
    exact ⟨hiff, horder⟩
  · rw [if_neg hactivates, List.append_nil] at hqueued
    have hkeeps : KeepsOrder ((otg, d), r) (.write offset value : UsbAction W) :=
      ⟨fun h => absurd h hcompletes, fun h => absurd h hactivates⟩
    exact ⟨iff_of_true (h.same hstep hqueued hcompleted) hkeeps, fun _ => hkeeps⟩

/-- Every action of an epoch. -/
lemma step_iff {move : W → D → D} {s s' : UsbState D} (h : EnumerationInvariant s.1 r)
    {a : UsbAction W} (hepoch : InEpoch s a) (hstep : usbStep move s a = some s') :
    (EnumerationInvariant s'.1 (r.next move s a) ↔ KeepsOrder (s, r) a) ∧
      (InOrder s'.1 (r.next move s a) → KeepsOrder (s, r) a) := by
  -- the actions that ask for nothing
  have hquiet (hkeeps : KeepsOrder (s, r) a) (hrequests : queuedRequests s.1 s'.1 = [])
      (hhost : s'.1.virtualHostStep = s.1.virtualHostStep)
      (hnext : r.next move s a = { r with queued := r.queued ++ queuedRequests s.1 s'.1 }) :
      (EnumerationInvariant s'.1 (r.next move s a) ↔ KeepsOrder (s, r) a) ∧
        (InOrder s'.1 (r.next move s a) → KeepsOrder (s, r) a) := by
    rw [hrequests, List.append_nil] at hnext
    rw [hnext]
    exact ⟨iff_of_true (h.same hhost rfl rfl) hkeeps, fun _ => hkeeps⟩
  have hrecord (hnot : ∀ offset value, a ≠ .write offset value) :
      r.next move s a = { r with queued := r.queued ++ queuedRequests s.1 s'.1 } := by
    cases a with
    | write offset value => exact absurd rfl (hnot offset value)
    | _ => simp only [EnumerationRecord.next, hstep]
  cases a with
  | write offset value => exact h.registerWrite_iff hstep
  | read offset =>
    obtain ⟨r', hread, rfl⟩ := Option.map_eq_some_iff.mp hstep
    rcases registerRead_cases hread with ⟨-, rfl⟩ | ⟨-, -, hpop⟩ | ⟨-, -, hsame⟩
    · exact hquiet trivial (queuedRequests_of_length_le le_rfl) rfl (hrecord nofun)
    · obtain ⟨-, epOut, heq⟩ := popRxStatus_eq_some hpop
      refine hquiet trivial (queuedRequests_of_length_le ?_) ?_ (hrecord nofun)
      · rw [heq]
        exact (List.tail_sublist _).length_le
      · rw [heq]
    · refine hquiet trivial (queuedRequests_of_length_le ?_) ?_ (hrecord nofun)
      · rw [hsame]
      · rw [hsame]
  | poll nvic n =>
    obtain ⟨r', hpoll, rfl⟩ := Option.map_eq_some_iff.mp hstep
    rcases poll_cases hpoll with ⟨hattaches, -⟩ | ⟨-, status, last, hotg, -⟩
    · cases hattaches.symm.trans hepoch
    refine hquiet trivial ?_ ?_ (hrecord nofun)
    · rw [queuedRequests_of_queues (Queues.poll hpoll hepoch)]
      exact requestsOf_bulkOutPackets _ _
    · obtain ⟨_, _, _, heq⟩ := forwardBulkOut_eq
        (s.1.sampled (s.1.hostAttached && s.1.hostPresent s.2) status last) s.2
      rw [hotg, heq]
      rfl
  | busReset => exact hepoch.elim
  | setup => exact hepoch.elim
  | controlOut => exact hepoch.elim
  | outside w =>
    cases hstep
    exact hquiet trivial (queuedRequests_of_length_le le_rfl) rfl (hrecord nofun)

end EnumerationInvariant

/-! ## Whole epochs -/

/-- The controller and the outside world, with the ghost. -/
def enumerationStep (move : W → D → D) :
    UsbState D × EnumerationRecord → UsbAction W → Option (UsbState D × EnumerationRecord) :=
  withGhost (usbStep move) (EnumerationRecord.next move)

/-- **The host enumerates the device in order.**  In every epoch, from a bus reset of any
controller, in which the transfers of endpoint zero answer the pending requests and the endpoint is
activated only before the first one, the requests are queued in order, each after the one before it
has been answered, and the device is configured only after all five; and the next action keeps that
order exactly when it meets the condition. -/
theorem enumeration_in_order (move : W → D → D) (otg : OtgFs D) (d : D) {as : List (UsbAction W)}
    {p : UsbState D × EnumerationRecord}
    (hrun : Run (guardedStep (fun p a => InEpoch p.1 a ∧ KeepsOrder p a)
      (stepRel (enumerationStep move))) (otg.virtualHostReset d, EnumerationRecord.empty) as p) :
    InOrder p.1.1 p.2 ∧ ∀ a p', InEpoch p.1 a → enumerationStep move p a = some p' →
      (InOrder p'.1.1 p'.2 ↔ KeepsOrder p a) := by
  have hinv : EnumerationInvariant p.1.1 p.2 := by
    refine hrun.invariant_state (I := fun p => EnumerationInvariant p.1.1 p.2)
      ⟨rfl, Or.inr ⟨rfl, rfl⟩⟩ ?_
    rintro ⟨s, r⟩ ⟨s', r'⟩ a hinv ⟨⟨hepoch, hkeeps⟩, hstep⟩
    obtain ⟨hstep, rfl⟩ := withGhost_eq_some.mp hstep
    exact (hinv.step_iff hepoch hstep).1.mpr hkeeps
  refine ⟨hinv.inOrder, fun a p' hepoch hstep => ?_⟩
  obtain ⟨hstep, hnext⟩ := withGhost_eq_some.mp hstep
  obtain ⟨hiff, horder⟩ := hinv.step_iff hepoch hstep
  rw [hnext] at hiff horder
  exact ⟨horder, fun hkeeps => (hiff.mpr hkeeps).inOrder⟩

/-- Firmware reads a SETUP packet with its completion. -/
def sampleReadSetup : List (UsbAction Unit) := [.read 0x20, .read 0x1000, .read 0x1000, .read 0x20]

/-- Firmware answers a request with an empty transfer. -/
def sampleEmptyAnswer : List (UsbAction Unit) := [.write 0x910 0, .write 0x900 0x80000000]

/-- Firmware activates endpoint zero, reads the requests, and answers the first with the eighteen
bytes of a descriptor and the others with an empty transfer. -/
def sampleEnumerated : List (UsbAction Unit) :=
  List.flatten
    [[.write 0xb00 0x10008040], sampleReadSetup, [.write 0x910 18, .write 0x900 0x80000000],
      List.replicate 5 (.write 0x1000 0), [.read 0x20, .read 0x20], sampleReadSetup,
      sampleEmptyAnswer, sampleReadSetup, sampleEmptyAnswer, sampleReadSetup, sampleReadSetup,
      sampleEmptyAnswer, sampleReadSetup, sampleEmptyAnswer]

/-- The device is configured after the five requests. -/
theorem enumeration_in_order_sample :
    ∃ p, Run (guardedStep (fun p a => InEpoch p.1 a ∧ KeepsOrder p a)
        (stepRel (enumerationStep fun (_ : Unit) (d : Unit) => d)))
        ((OtgFs.new none).virtualHostReset (), EnumerationRecord.empty) sampleEnumerated p ∧
      p.1.1.isConfigured = true ∧ p.2.queued = enumeration ∧ InOrder p.1.1 p.2 := by
  have hexec : (execGuarded (fun p a => InEpoch p.1 a ∧ KeepsOrder p a)
      (enumerationStep fun (_ : Unit) (d : Unit) => d)
      ((OtgFs.new none).virtualHostReset (), EnumerationRecord.empty) sampleEnumerated).map
        (fun p => p.1.1.isConfigured) = some true := by
    decide +kernel
  obtain ⟨p, hexec, hconfigured⟩ := Option.map_eq_some_iff.mp hexec
  have hrun := Run.of_execGuarded hexec
  have horder := (enumeration_in_order _ _ _ hrun).1
  exact ⟨p, hrun, hconfigured, (horder.configured hconfigured).1, horder⟩

/-- Firmware activates endpoint zero, deactivates it, and activates it again. -/
def sampleReactivation : List (UsbAction Unit) :=
  [.write 0xb00 0x8000, .write 0xb00 0, .write 0xb00 0x8000]

/-- The host asks for the device descriptor twice. -/
theorem reactivated_endpoint_asked_twice :
    ∃ p, Run (guardedStep (fun p a => InEpoch p.1 a)
      (stepRel (enumerationStep fun (_ : Unit) (d : Unit) => d)))
        ((OtgFs.new none).virtualHostReset (), EnumerationRecord.empty) sampleReactivation p ∧
      p.2.queued = [[getDeviceDescriptorPacket], [getDeviceDescriptorPacket]] ∧
      ¬ InOrder p.1.1 p.2 := by
  have hexec :
      (execGuarded (fun p a => InEpoch p.1 a) (enumerationStep fun (_ : Unit) (d : Unit) => d)
      ((OtgFs.new none).virtualHostReset (), EnumerationRecord.empty) sampleReactivation).map
        (fun p => p.2.queued) = some
          [[getDeviceDescriptorPacket], [getDeviceDescriptorPacket]] := by
    decide +kernel
  obtain ⟨p, hexec, hqueued⟩ := Option.map_eq_some_iff.mp hexec
  refine ⟨p, Run.of_execGuarded hexec, hqueued, fun horder => ?_⟩
  have hnodup := horder.nodup
  rw [hqueued] at hnodup
  exact absurd hnodup (by decide +kernel)

end Stm32Emulator
