import Stm32Emulator.Usb.VirtualHost

/-!
# Bulk transfers to the host

What the bridge receives is compared with what firmware wrote.  The bridge is made to record the
data pushed to it (`UsbBridge.recording`), and a ghost records what should have been pushed
(`BulkInRecord`).  The two agree in every run in which a transfer is armed only over an empty FIFO
and no filled FIFO is flushed under an armed transfer: the controller neither clears the FIFO when a
transfer is armed, nor when firmware asks for a flush.
-/

namespace Stm32Emulator

open OtgFs Function

variable {D W : Type}

/-- A bridge that also records the data pushed to it. -/
def UsbBridge.recording (bridge : UsbBridge D) : UsbBridge (D × List (List U8)) where
  pushFromDevice bytes d := (bridge.pushFromDevice bytes d.1, d.2 ++ [bytes])
  takeForDevice maximum d :=
    ((bridge.takeForDevice maximum d.1).1, ((bridge.takeForDevice maximum d.1).2, d.2))
  isClientConnected d := bridge.isClientConnected d.1
  setProtocolStage stage d := (bridge.setProtocolStage stage d.1, d.2)
  length_takeForDevice maximum d := bridge.length_takeForDevice maximum d.1

/-- The outside world moves under the record. -/
def recordingMove (move : W → D → D) (w : W) (d : D × List (List U8)) : D × List (List U8) :=
  (move w d.1, d.2)

/-- The endpoint that the firmware uses for bulk data to the host. -/
abbrev bulkIn : Fin numEndpoints := 2

/-- The write asks for a flush of the FIFO of the endpoint, by its number or with all others. -/
abbrev FlushesTx (ep : Fin numEndpoints) (offset value : U32) : Prop :=
  offset = grstctl ∧ value &&& grstctlTxfflsh ≠ 0#32 ∧
    (((value >>> 6) &&& 0x1f#32).toNat = ep.val ∨ ((value >>> 6) &&& 0x1f#32).toNat = 0x10)

/-! ## What should be delivered -/

/-- The ghost: what firmware has written for the transfer, and what the bridge should have
received. -/
structure BulkInRecord where
  /-- The bytes written to the FIFO since the transfer was armed or the FIFO flushed. -/
  written : List U8
  /-- The bytes of each transfer that completed while the device was configured. -/
  delivered : List (List U8)
  deriving DecidableEq

/-- The bytes written for the transfer, after one more register write. -/
def writtenAfter (written : List U8) (otg : OtgFs D) (offset value : U32) : List U8 :=
  if fifoEndpoint offset = some bulkIn then written ++ toLeBytes value
  else if otg.ArmsIn bulkIn offset value ∨ FlushesTx bulkIn offset value then []
  else written

/-- The register write completes a transfer of the configured device: as many bytes as the transfer
size have been written since it was armed. -/
abbrev CompletesBulkIn (otg : OtgFs D) (written : List U8) (offset value : U32) : Prop :=
  otg.isConfigured ∧ otg.inXfrsiz bulkIn ≤ written.length ∧
    (fifoEndpoint offset = some bulkIn ∧ otg.InArmed bulkIn ∨ otg.ArmsIn bulkIn offset value)

/-- One action's effect on the ghost. -/
def BulkInRecord.next (r : BulkInRecord) (s : UsbState D) : UsbAction W → BulkInRecord
  | .write offset value =>
    let written := writtenAfter r.written s.1 offset value
    { written := written
      delivered :=
        if CompletesBulkIn s.1 written offset value then
          r.delivered ++ [written.take (s.1.inXfrsiz bulkIn)]
        else
          r.delivered }
  | _ => r

/-- A transfer of data is armed only over an empty FIFO, and no filled FIFO is flushed under an
armed transfer. -/
def NoLeftovers (s : UsbState D) : UsbAction W → Prop
  | .write offset value =>
    (s.1.ArmsIn bulkIn offset value → s.1.inXfrsiz bulkIn = 0 ∨ s.1.txFifo bulkIn = []) ∧
      (FlushesTx bulkIn offset value → s.1.InArmed bulkIn → s.1.txFifo bulkIn = [])
  | _ => True

instance (s : UsbState D) (a : UsbAction W) : Decidable (NoLeftovers s a) :=
  match a with
  | .write _ _ => inferInstanceAs (Decidable (_ ∧ _))
  | .read _ | .poll _ _ | .busReset | .setup _ _ | .controlOut _ _ _ | .outside _ =>
    inferInstanceAs (Decidable True)

namespace BulkInRecord

variable {s : UsbState D} {offset value : U32}

/-- A word for the FIFO counts for the transfer, and may complete it. -/
lemma next_fifo (r : BulkInRecord) (hfifo : fifoEndpoint offset = some bulkIn) :
    r.next s (.write offset value : UsbAction W) =
      ⟨r.written ++ toLeBytes value,
        if s.1.isConfigured ∧ s.1.inXfrsiz bulkIn ≤ (r.written ++ toLeBytes value).length ∧
          s.1.InArmed bulkIn then
          r.delivered ++ [(r.written ++ toLeBytes value).take (s.1.inXfrsiz bulkIn)]
        else r.delivered⟩ := by
  have harms : ¬ s.1.ArmsIn bulkIn offset value := fun harms => by
    rw [fifoEndpoint_eq_none_of_decodeEndpoint (by decide) harms.1] at hfifo
    cases hfifo
  simp only [next, writtenAfter, CompletesBulkIn, hfifo, harms, if_true, true_and, or_false]

/-- An arming starts the transfer, and completes it if it is empty. -/
lemma next_arms (r : BulkInRecord) (harms : s.1.ArmsIn bulkIn offset value) :
    r.next s (.write offset value : UsbAction W) =
      ⟨[], if s.1.isConfigured ∧ s.1.inXfrsiz bulkIn = 0 then r.delivered ++ [[]]
        else r.delivered⟩ := by
  have hfifo : fifoEndpoint offset ≠ some bulkIn := by
    simp [fifoEndpoint_eq_none_of_decodeEndpoint (by decide) harms.1]
  have hwritten : writtenAfter r.written s.1 offset value = [] := by
    rw [writtenAfter, if_neg hfifo, if_pos (Or.inl harms)]
  have hcompletes : CompletesBulkIn s.1 [] offset value ↔
      s.1.isConfigured ∧ s.1.inXfrsiz bulkIn = 0 := by
    simp only [CompletesBulkIn, List.length_nil, Nat.le_zero]
    exact ⟨fun h => ⟨h.1, h.2.1⟩, fun h => ⟨h.1, h.2, Or.inr harms⟩⟩
  simp only [next, hwritten, List.take_nil]
  rw [if_congr hcompletes rfl rfl]

/-- Any other write counts for nothing, but a flush discards what has been written. -/
lemma next_of_not (r : BulkInRecord) (hfifo : fifoEndpoint offset ≠ some bulkIn)
    (harms : ¬ s.1.ArmsIn bulkIn offset value) :
    r.next s (.write offset value : UsbAction W) =
      ⟨if FlushesTx bulkIn offset value then [] else r.written, r.delivered⟩ := by
  simp only [next, writtenAfter, CompletesBulkIn, hfifo, harms, if_false, false_and, false_or,
    and_false]

end BulkInRecord

/-! ## Operations that leave the transfer alone -/

namespace OtgFs

/-- All that decides what a bulk transfer to the host delivers. -/
def bulkInView (otg : OtgFs D) :
    Option (UsbBridge D) × Option (Fin numEndpoints) × U32 × ℕ × List U8 :=
  (otg.bridge, otg.bulkInEndpoint, (otg.epIn bulkIn).ctl, (otg.epIn bulkIn).armedInBytesSent,
    otg.txFifo bulkIn)

@[simp] lemma bulkInView_modifyOut (otg : OtgFs D) (ep : Fin numEndpoints)
    (f : EndpointRegs → EndpointRegs) : (otg.modifyOut ep f).bulkInView = otg.bulkInView := rfl

/-- Packets from the host have no part in it. -/
lemma bulkInView_of_queuesOnly {otg otg' : OtgFs D} (h : QueuesOnly otg otg') :
    otg'.bulkInView = otg.bulkInView := by
  obtain ⟨_, _, rfl⟩ := h
  rfl

/-- Changing an endpoint other than the bulk endpoint, or only its interrupts or its size. -/
lemma bulkInView_modifyIn {otg : OtgFs D} {ep : Fin numEndpoints} {f : EndpointRegs → EndpointRegs}
    (h : ep = bulkIn → ∀ regs, (f regs).ctl = regs.ctl ∧
      (f regs).armedInBytesSent = regs.armedInBytesSent) :
    (otg.modifyIn ep f).bulkInView = otg.bulkInView := by
  by_cases hep : ep = bulkIn
  · subst hep
    simp [bulkInView, modifyIn, h rfl]
  · simp [bulkInView, modifyIn, update_of_ne (Ne.symm hep)]

@[simp] lemma bulkInView_raiseInEndpointInterrupt (otg : OtgFs D) (ep : Fin numEndpoints)
    (bits : U32) : (otg.raiseInEndpointInterrupt ep bits).bulkInView = otg.bulkInView :=
  bulkInView_modifyIn fun _ _ => ⟨rfl, rfl⟩

/-- Clearing or filling the FIFO of another endpoint. -/
lemma bulkInView_txFifo {otg : OtgFs D} {ep : Fin numEndpoints} (hep : ep ≠ bulkIn)
    (bytes : List U8) :
    { otg with txFifo := update otg.txFifo ep bytes }.bulkInView = otg.bulkInView := by
  simp [bulkInView, update_of_ne hep.symm]

lemma bulkInView_writeDoepctl (otg : OtgFs D) (ep : Fin numEndpoints) (value : U32) :
    (otg.writeDoepctl ep value).bulkInView = otg.bulkInView := by
  rw [bulkInView_of_queuesOnly (queuesOnly_writeDoepctl otg ep value), bulkInView_modifyOut]

lemma bulkInView_registerRead {otg : OtgFs D} {offset : U32} {r : OtgFs D × U32}
    (h : otg.registerRead offset = some r) : r.1.bulkInView = otg.bulkInView := by
  rcases registerRead_cases h with ⟨-, rfl⟩ | ⟨-, -, h⟩ | ⟨-, -, h⟩
  · rfl
  · obtain ⟨-, epOut, h⟩ := popRxStatus_eq_some h
    rw [h]
    rfl
  · rw [h]

lemma bulkInView_advanceVirtualHost (otg : OtgFs D) (d : D) :
    (otg.advanceVirtualHost d).1.bulkInView = otg.bulkInView := by
  obtain ⟨queued, hqueued, heq⟩ := advanceVirtualHost_eq otg d
  have hview : queued.bulkInView = otg.bulkInView := bulkInView_of_queuesOnly hqueued
  rw [heq]
  exact hview

end OtgFs

/-- An action that is not about the bulk transfer to the host: nothing is pushed to the bridge, and
the transfer goes on or ends without being armed anew. -/
structure BulkInFrame (s s' : UsbState (D × List (List U8))) : Prop where
  bridge : s'.1.bridge = s.1.bridge
  endpoint : s'.1.bulkInEndpoint = s.1.bulkInEndpoint
  log : s'.2.2 = s.2.2
  transfer : s'.1.InArmed bulkIn → s.1.InArmed bulkIn ∧ s'.1.txFifo bulkIn = s.1.txFifo bulkIn ∧
    (s'.1.epIn bulkIn).armedInBytesSent = (s.1.epIn bulkIn).armedInBytesSent

namespace BulkInFrame

variable {otg otg' : OtgFs (D × List (List U8))} {d d' : D × List (List U8)} {b : UsbBridge D}
  {s s' s'' : UsbState (D × List (List U8))}

lemma of_view (hview : otg'.bulkInView = otg.bulkInView) (hlog : d'.2 = d.2) :
    BulkInFrame (otg, d) (otg', d') := by
  simp only [bulkInView, Prod.mk.injEq] at hview
  obtain ⟨hbridge, hendpoint, hctl, hsent, hfifo⟩ := hview
  refine ⟨hbridge, hendpoint, hlog, fun harmed => ⟨?_, hfifo, hsent⟩⟩
  simpa [InArmed, hctl] using harmed

lemma trans (h₁ : BulkInFrame s s') (h₂ : BulkInFrame s' s'') : BulkInFrame s s'' where
  bridge := h₂.bridge.trans h₁.bridge
  endpoint := h₂.endpoint.trans h₁.endpoint
  log := h₂.log.trans h₁.log
  transfer harmed := by
    obtain ⟨harmed, hfifo, hsent⟩ := h₂.transfer harmed
    obtain ⟨harmed, hfifo', hsent'⟩ := h₁.transfer harmed
    exact ⟨harmed, hfifo.trans hfifo', hsent.trans hsent'⟩

lemma registerRead {offset : U32} {r : OtgFs (D × List (List U8)) × U32}
    (h : otg.registerRead offset = some r) : BulkInFrame (otg, d) (r.1, d) :=
  of_view (bulkInView_registerRead h) rfl

/-- After a reset no endpoint is armed. -/
lemma virtualHostReset (hb : otg.bridge = some b.recording) :
    BulkInFrame (otg, d) (otg.virtualHostReset d) where
  bridge := rfl
  endpoint := rfl
  log := by
    simp only [OtgFs.virtualHostReset, hb]
    rfl
  transfer harmed := absurd (show _ = 0#32 from BitVec.zero_and) harmed

lemma advanceVirtualHost (hb : otg.bridge = some b.recording) :
    BulkInFrame (otg, d) (otg.advanceVirtualHost d) := by
  have hlog : (otg.advanceVirtualHost d).2.2 = d.2 := by
    simp only [OtgFs.advanceVirtualHost, hb]
    rw [apply_ite Prod.snd]
    exact ite_self _
  exact of_view (bulkInView_advanceVirtualHost otg d) hlog

/-- Taking bytes from the bridge pushes none to it. -/
lemma forwardBulkOut (hb : otg.bridge = some b.recording) :
    BulkInFrame (otg, d) (otg.forwardBulkOut d) := by
  have hlog : (otg.forwardBulkOut d).2.2 = d.2 := by
    by_cases hready : ∃ ep bridge, otg.ReadyOut ep bridge
    · obtain ⟨ep, bridge, hready⟩ := hready
      obtain rfl := Option.some.inj (hb.symm.trans hready.bridge)
      rw [forwardBulkOut_of_ready hready]
      rfl
    · rw [forwardBulkOut_of_not_ready fun ep bridge h => hready ⟨ep, bridge, h⟩]
  have hview : (otg.forwardBulkOut d).1.bulkInView = otg.bulkInView := by
    obtain ⟨_, _, _, heq⟩ := forwardBulkOut_eq otg d
    rw [heq]
    rfl
  exact of_view hview hlog

lemma poll {nvic : Nvic} {n : ℕ} {r : OtgFs (D × List (List U8)) × (D × List (List U8)) × Nvic}
    (hb : otg.bridge = some b.recording) (h : otg.poll d nvic n = some r) :
    BulkInFrame (otg, d) (r.1, r.2.1) := by
  rcases poll_cases h with ⟨-, status, last, hotg, hd⟩ | ⟨-, status, last, hotg, hd⟩
  · rw [hotg, hd]
    exact (virtualHostReset hb).trans (of_view rfl rfl)
  · rw [hotg, hd]
    have hsampled : BulkInFrame (otg, d)
        (otg.sampled (otg.hostAttached && otg.hostPresent d) status last, d) := of_view rfl rfl
    exact hsampled.trans (forwardBulkOut hb)

/-- The end of a transfer of another endpoint. -/
lemma completeInTransfer {ep : Fin numEndpoints} (hb : otg.bridge = some b.recording)
    (hendpoint : otg.bulkInEndpoint = some bulkIn) (hep : ep ≠ bulkIn) :
    BulkInFrame (otg, d) (otg.completeInTransfer d ep) := by
  have hraise : BulkInFrame (otg, d) (otg.raiseInEndpointInterrupt ep diepintXfrc, d) :=
    of_view (bulkInView_raiseInEndpointInterrupt otg ep _) rfl
  unfold OtgFs.completeInTransfer
  dsimp only
  split
  · refine (hraise.trans (of_view (bulkInView_txFifo (by decide) []) rfl)).trans
      (advanceVirtualHost (b := b) hb)
  · rw [if_neg]
    · exact hraise
    · rintro ⟨-, h⟩
      exact hep (Option.some.inj (h.trans hendpoint))

lemma pushTxFifoWord {ep : Fin numEndpoints} {value : U32} (hb : otg.bridge = some b.recording)
    (hendpoint : otg.bulkInEndpoint = some bulkIn) (hep : ep ≠ bulkIn)
    (h : otg.pushTxFifoWord d ep value = some s') : BulkInFrame (otg, d) s' := by
  have hmodify (otg : OtgFs (D × List (List U8))) (f : EndpointRegs → EndpointRegs) :
      BulkInFrame (otg, d) (otg.modifyIn ep f, d) :=
    of_view (bulkInView_modifyIn fun h => absurd h hep) rfl
  have hpushed : BulkInFrame (otg, d) (otg.pushed ep value, d) :=
    (of_view (bulkInView_txFifo hep _) rfl).trans (hmodify _ _)
  rw [pushTxFifoWord_eq_some h]
  split
  · exact (hpushed.trans (hmodify _ _)).trans (completeInTransfer hb hendpoint hep)
  · exact hpushed

lemma writeDiepctl {ep : Fin numEndpoints} {value : U32} (hb : otg.bridge = some b.recording)
    (hendpoint : otg.bulkInEndpoint = some bulkIn) (hep : ep ≠ bulkIn) :
    BulkInFrame (otg, d) (otg.writeDiepctl d ep value) := by
  have hmodify (otg : OtgFs (D × List (List U8))) (f : EndpointRegs → EndpointRegs) :
      BulkInFrame (otg, d) (otg.modifyIn ep f, d) :=
    of_view (bulkInView_modifyIn fun h => absurd h hep) rfl
  by_cases hempty : (value &&& diepctlEpena ≠ 0#32 ∧ ¬ otg.InArmed ep) ∧ otg.inXfrsiz ep = 0
  · rw [writeDiepctl_of_empty hempty.1 hempty.2]
    exact ((hmodify _ _).trans (hmodify _ _)).trans (completeInTransfer hb hendpoint hep)
  · obtain ⟨f, heq, -⟩ := writeDiepctl_of_not_empty hempty d
    rw [heq]
    exact hmodify _ _

end BulkInFrame

/-! ## The invariant -/

/-- The invariant: the bridge has received what it should have, and while a transfer is armed the
FIFO and the byte counter are those of the transfer. -/
structure BulkInInvariant (b : UsbBridge D) (s : UsbState (D × List (List U8))) (r : BulkInRecord) :
    Prop where
  bridge : s.1.bridge = some b.recording
  endpoint : s.1.bulkInEndpoint = some bulkIn
  log : s.2.2 = r.delivered
  transfer : s.1.InArmed bulkIn →
    s.1.txFifo bulkIn = r.written ∧ (s.1.epIn bulkIn).armedInBytesSent = r.written.length

namespace BulkInInvariant

variable {otg : OtgFs (D × List (List U8))} {d : D × List (List U8)} {b : UsbBridge D}
  {s s' : UsbState (D × List (List U8))} {r r' : BulkInRecord} {offset value : U32}

lemma new (b : UsbBridge D) (d : D) :
    BulkInInvariant b (OtgFs.new (some b.recording), (d, [])) ⟨[], []⟩ where
  bridge := rfl
  endpoint := rfl
  log := rfl
  transfer _ := ⟨rfl, rfl⟩

/-- Actions that are not about the transfer keep the invariant. -/
lemma frame (hinv : BulkInInvariant b s r) (hframe : BulkInFrame s s')
    (hdelivered : r'.delivered = r.delivered)
    (hwritten : s'.1.InArmed bulkIn → r'.written = r.written) : BulkInInvariant b s' r' where
  bridge := hframe.bridge.trans hinv.bridge
  endpoint := hframe.endpoint.trans hinv.endpoint
  log := by rw [hframe.log, hinv.log, hdelivered]
  transfer harmed := by
    obtain ⟨harmed', hfifo, hsent⟩ := hframe.transfer harmed
    rw [hfifo, hsent, hwritten harmed]
    exact hinv.transfer harmed'

/-- The end of the transfer pushes the FIFO, cut to the transfer size, if the device is
configured. -/
lemma complete (otg : OtgFs (D × List (List U8))) (d : D × List (List U8)) (r : BulkInRecord)
    (hb : otg.bridge = some b.recording) (hendpoint : otg.bulkInEndpoint = some bulkIn)
    (hlog : d.2 = r.delivered) (written : List U8) :
    BulkInInvariant b ((otg.disarm bulkIn).completeInTransfer d bulkIn)
      ⟨written, if otg.isConfigured then
        r.delivered ++ [(otg.txFifo bulkIn).take (otg.inXfrsiz bulkIn)] else r.delivered⟩ := by
  have hidle
      (h : ((otg.disarm bulkIn).raiseInEndpointInterrupt bulkIn diepintXfrc).InArmed bulkIn) :
      False := by
    refine not_inArmed_disarm otg bulkIn ?_
    simpa [InArmed, raiseInEndpointInterrupt] using h
  have hxfrsiz : ((otg.disarm bulkIn).raiseInEndpointInterrupt bulkIn diepintXfrc).inXfrsiz bulkIn
      = otg.inXfrsiz bulkIn := by
    simp [inXfrsiz, raiseInEndpointInterrupt, disarm]
  unfold OtgFs.completeInTransfer
  dsimp only
  rw [if_neg (by decide)]
  by_cases hconf : otg.isConfigured = true
  · rw [if_pos ⟨hconf, hendpoint.symm⟩, if_pos hconf]
    split
    · next bridge hbridge =>
      obtain rfl : b.recording = bridge := Option.some.inj (hb.symm.trans hbridge)
      exact ⟨hb, hendpoint, by rw [← hlog, ← hxfrsiz]; rfl, fun h => (hidle h).elim⟩
    · next hbridge => cases hb.symm.trans hbridge
  · rw [if_neg fun h => hconf h.1, if_neg hconf]
    exact ⟨hb, hendpoint, hlog, fun h => (hidle h).elim⟩

/-- A word for the FIFO of the bulk endpoint keeps the invariant. -/
lemma push (hinv : BulkInInvariant b s r) (hfifo : fifoEndpoint offset = some bulkIn)
    (h : s.1.pushTxFifoWord s.2 bulkIn value = some s') :
    BulkInInvariant b s' (r.next s (.write offset value : UsbAction W)) := by
  obtain ⟨otg, d⟩ := s
  obtain ⟨hb, hendpoint, hlog, htransfer⟩ := hinv
  rw [BulkInRecord.next_fifo r hfifo, pushTxFifoWord_eq_some h]
  dsimp only at hb hendpoint hlog htransfer ⊢
  have hfilled : (otg.pushed bulkIn value).txFifo bulkIn =
      otg.txFifo bulkIn ++ toLeBytes value := by
    simp [pushed, modifyIn]
  have hsize : (otg.pushed bulkIn value).inXfrsiz bulkIn = otg.inXfrsiz bulkIn := by
    simp [inXfrsiz, pushed]
  by_cases harmed : otg.InArmed bulkIn
  · obtain ⟨htx, hsent⟩ := htransfer harmed
    have hlength : (otg.epIn bulkIn).armedInBytesSent + 4 =
        (r.written ++ toLeBytes value).length := by
      rw [hsent, List.length_append, length_toLeBytes]
    rw [hlength]
    by_cases hdone : otg.inXfrsiz bulkIn ≤ (r.written ++ toLeBytes value).length
    · rw [if_pos ⟨harmed, hdone⟩]
      have hcomplete := complete (otg.pushed bulkIn value) d r hb hendpoint hlog
        (r.written ++ toLeBytes value)
      rw [hfilled, hsize, htx] at hcomplete
      simp only [hdone, harmed, not_false_eq_true, ne_eq, and_true]
      exact hcomplete
    · rw [if_neg fun h => hdone h.2, if_neg fun h => hdone h.2.1]
      refine ⟨hb, hendpoint, hlog, fun _ => ⟨by rw [hfilled, htx], ?_⟩⟩
      rw [← hlength]
      simp [pushed]
  · rw [if_neg fun h => harmed h.1, if_neg fun h => harmed h.2.2]
    refine ⟨hb, hendpoint, hlog, fun h => absurd ?_ harmed⟩
    simpa [InArmed, pushed] using h

/-- A write to the control register of the bulk endpoint keeps the invariant, if it arms a transfer
of data only over an empty FIFO. -/
lemma diepctl (hinv : BulkInInvariant b s r)
    (hdecode : decodeEndpoint diepBase offset = some (bulkIn, epCtlOffset))
    (hclean : s.1.ArmsIn bulkIn offset value → s.1.inXfrsiz bulkIn = 0 ∨ s.1.txFifo bulkIn = []) :
    BulkInInvariant b (s.1.writeDiepctl s.2 bulkIn value)
      (r.next s (.write offset value : UsbAction W)) := by
  obtain ⟨otg, d⟩ := s
  obtain ⟨hb, hendpoint, hlog, htransfer⟩ := hinv
  have hfifo : fifoEndpoint offset = none :=
    fifoEndpoint_eq_none_of_decodeEndpoint (by decide) hdecode
  unfold OtgFs.writeDiepctl
  dsimp only at hb hendpoint hlog htransfer hclean ⊢
  simp only [epIn_modifyIn, bne_iff_ne]
  by_cases harms : otg.ArmsIn bulkIn offset value
  · rw [if_pos harms.2, BulkInRecord.next_arms r harms]
    dsimp only
    by_cases hempty : (otg.epIn bulkIn).tsiz &&& xfrsizMask = 0#32
    · -- an empty transfer ends at once, whatever the FIFO holds
      rw [if_pos hempty]
      have hsize : otg.inXfrsiz bulkIn = 0 := by simp [inXfrsiz, hempty]
      let armed := (otg.modifyIn bulkIn fun regs => { regs with ctl := value }).modifyIn bulkIn
        fun regs => { regs with armedInBytesSent := 0 }
      have hzero : armed.inXfrsiz bulkIn = 0 := by simpa [armed, inXfrsiz] using hsize
      have hcomplete := complete armed d r hb hendpoint hlog []
      rw [hzero, List.take_zero] at hcomplete
      simp only [hsize, and_true]
      exact hcomplete
    · have hsize : otg.inXfrsiz bulkIn ≠ 0 := by
        intro hzero
        exact hempty (BitVec.eq_of_toNat_eq (by simpa [inXfrsiz] using hzero))
      have hfifo : otg.txFifo bulkIn = [] := (hclean harms).resolve_left hsize
      rw [if_neg hempty]
      simp only [hsize, and_false, if_false]
      have hstart (otg' : OtgFs (D × List (List U8))) (hview : otg'.bulkInView
          = (otg.bridge, otg.bulkInEndpoint, value, 0, otg.txFifo bulkIn)) :
          BulkInInvariant b (otg', d) ⟨[], r.delivered⟩ := by
        simp only [bulkInView, Prod.mk.injEq] at hview
        obtain ⟨hb', hendpoint', -, hsent, htx⟩ := hview
        exact ⟨hb'.trans hb, hendpoint'.trans hendpoint, hlog, fun _ => ⟨htx.trans hfifo, hsent⟩⟩
      split
      · refine hstart _ ?_
        rw [bulkInView_raiseInEndpointInterrupt]
        simp [bulkInView, modifyIn]
      · exact hstart _ (by simp [bulkInView, modifyIn])
  · -- no edge: the endpoint stays armed, or stays or becomes idle
    have hedge : ¬ (value &&& diepctlEpena ≠ 0#32 ∧ ¬ otg.InArmed bulkIn) :=
      fun h => harms ⟨hdecode, h⟩
    have hflush : ¬ FlushesTx bulkIn offset value := by
      rintro ⟨rfl, -⟩
      rw [show decodeEndpoint diepBase grstctl = none by decide] at hdecode
      cases hdecode
    rw [if_neg hedge, BulkInRecord.next_of_not r (by simp [hfifo]) harms, if_neg hflush]
    refine ⟨hb, hendpoint, hlog, fun harmed => ?_⟩
    have hvalue : value &&& diepctlEpena ≠ 0#32 := by simpa [InArmed] using harmed
    have hstill : otg.InArmed bulkIn := not_not.mp fun hidle => hedge ⟨hvalue, hidle⟩
    simpa [modifyIn] using htransfer hstill

/-- A register write keeps the invariant. -/
lemma write (hinv : BulkInInvariant b s r) (h : RegisterWrite s.1 s.2 offset value s')
    (hok : NoLeftovers s (.write offset value : UsbAction W)) :
    BulkInInvariant b s' (r.next s (.write offset value : UsbAction W)) := by
  -- outside the FIFO and the control register of the endpoint, only a flush touches the ghost
  have hother (hframe : BulkInFrame s s') (hfifo : fifoEndpoint offset ≠ some bulkIn)
      (hdecode : decodeEndpoint diepBase offset ≠ some (bulkIn, epCtlOffset)) :
      BulkInInvariant b s' (r.next s (.write offset value : UsbAction W)) := by
    rw [BulkInRecord.next_of_not r hfifo fun h => hdecode h.1]
    refine hinv.frame hframe rfl fun harmed => ?_
    dsimp only
    split
    · next hflush =>
      obtain ⟨harmed, -, -⟩ := hframe.transfer harmed
      rw [← (hinv.transfer harmed).1, hok.2 hflush harmed]
    · rfl
  obtain ⟨otg, d⟩ := s
  cases h with
  | @fifo ep _ hfifo h =>
    by_cases hep : ep = bulkIn
    · subst hep
      exact hinv.push hfifo h
    · refine hother (BulkInFrame.pushTxFifoWord hinv.bridge hinv.endpoint hep h)
        (by simpa [hfifo] using hep) fun hdecode => ?_
      rw [fifoEndpoint_eq_none_of_decodeEndpoint (by decide) hdecode] at hfifo
      cases hfifo
  | @diepctl ep hfifo hdecode =>
    by_cases hep : ep = bulkIn
    · subst hep
      exact hinv.diepctl hdecode hok.1
    · exact hother (BulkInFrame.writeDiepctl hinv.bridge hinv.endpoint hep) (by simp [hfifo])
        (by simpa [hdecode] using hep)
  | diep hfifo hdecode hreg hf =>
    exact hother (BulkInFrame.of_view (bulkInView_modifyIn fun _ => hf) rfl) (by simp [hfifo])
      (by simp [hdecode, hreg])
  | doepctl hfifo hdiep _ =>
    exact hother (BulkInFrame.of_view (bulkInView_writeDoepctl otg _ value) rfl) (by simp [hfifo])
      (by simp [hdiep])
  | doep hfifo hdiep _ _ =>
    exact hother (BulkInFrame.of_view (bulkInView_modifyOut otg _ _) rfl) (by simp [hfifo])
      (by simp [hdiep])
  | @global otg' d' hfifo hdiep _ hframe hd =>
    have hview : otg'.bulkInView = otg.bulkInView := by
      simp only [bulkInView, hframe.bridge, hframe.bulkInEndpoint, hframe.txFifo]
      rw [hframe.epIn bulkIn]
    have hlog : d'.2 = d.2 := by
      rcases hd with rfl | ⟨bridge, hbridge, rfl⟩
      · rfl
      · obtain rfl : b.recording = bridge := Option.some.inj (hinv.bridge.symm.trans hbridge)
        rfl
    exact hother (BulkInFrame.of_view hview hlog) (by simp [hfifo]) (by simp [hdiep])

/-- Every action that leaves nothing over keeps the invariant. -/
lemma step {move : W → D → D} {a : UsbAction W} (hinv : BulkInInvariant b s r)
    (hok : NoLeftovers s a) (h : usbStep (recordingMove move) s a = some s') :
    BulkInInvariant b s' (r.next s a) := by
  obtain ⟨otg, d⟩ := s
  cases a with
  | read offset =>
    obtain ⟨_, hread, rfl⟩ := Option.map_eq_some_iff.mp h
    exact hinv.frame (BulkInFrame.registerRead hread) rfl fun _ => rfl
  | write offset value => exact hinv.write (registerWrite_cases h) hok
  | poll nvic n =>
    obtain ⟨_, hpoll, rfl⟩ := Option.map_eq_some_iff.mp h
    exact hinv.frame (BulkInFrame.poll hinv.bridge hpoll) rfl fun _ => rfl
  | busReset =>
    cases h
    exact hinv.frame (BulkInFrame.virtualHostReset hinv.bridge) rfl fun _ => rfl
  | setup ep packet =>
    cases h
    exact hinv.frame (BulkInFrame.of_view
      (bulkInView_of_queuesOnly (queuesOnly_virtualHostSetup otg ep _)) rfl) rfl
      fun _ => rfl
  | controlOut ep packet data =>
    cases h
    exact hinv.frame
      (BulkInFrame.of_view (bulkInView_of_queuesOnly
        (queuesOnly_virtualHostControlOut otg ep _ _)) rfl) rfl
      fun _ => rfl
  | outside w =>
    cases h
    exact hinv.frame (BulkInFrame.of_view rfl rfl) rfl fun _ => rfl

end BulkInInvariant

/-! ## Delivery -/

/-- The machine with a recording bridge, and the ghost. -/
def bulkInStep (move : W → D → D) :
    UsbState (D × List (List U8)) × BulkInRecord → UsbAction W →
      Option (UsbState (D × List (List U8)) × BulkInRecord) :=
  withGhost (usbStep (recordingMove move)) BulkInRecord.next

/-- Power-on, with nothing recorded. -/
def bulkInPowerOn (b : UsbBridge D) (d : D) : UsbState (D × List (List U8)) × BulkInRecord :=
  ((OtgFs.new (some b.recording), (d, [])), ⟨[], []⟩)

/-- **Bulk transfers to the host deliver what firmware sent.**  In every run from power-on that
leaves nothing over, what the bridge has received is, for each transfer that completed while the
device was configured, the first bytes written to the endpoint's FIFO since the transfer was armed,
as many as the transfer size. -/
theorem bulk_in_delivers (b : UsbBridge D) (move : W → D → D) (d : D) {as : List (UsbAction W)}
    {s : UsbState (D × List (List U8))} {r : BulkInRecord}
    (hrun : Run (guardedStep (fun p a => NoLeftovers p.1 a) (stepRel (bulkInStep move)))
      (bulkInPowerOn b d) as (s, r)) :
    s.2.2 = r.delivered := by
  have hinv : BulkInInvariant b s r := by
    refine hrun.invariant_state (I := fun p => BulkInInvariant b p.1 p.2) (.new b d) ?_
    rintro ⟨s, r⟩ ⟨s', r'⟩ a hinv ⟨hok, hstep⟩
    obtain ⟨hstep, rfl⟩ := withGhost_eq_some.mp hstep
    exact hinv.step hok hstep
  exact hinv.log

/-- A bridge that sends nothing. -/
def silentBridge : UsbBridge Unit where
  pushFromDevice _ _ := ()
  takeForDevice _ _ := ([], ())
  isClientConnected _ := true
  setProtocolStage _ _ := ()
  length_takeForDevice _ _ := Nat.zero_le _

/-- Firmware ends the five requests of the enumeration, and sends three bytes. -/
def sampleTransfer : List (UsbAction Unit) :=
  List.replicate 5 (.write 0x900 0x80000000) ++
    [.write 0x950 3, .write 0x940 0x80000000, .write 0x3000 0x00ff0042]

/-- The bridge receives the three bytes. -/
theorem bulk_in_delivers_sample :
    ∃ s r, Run (guardedStep (fun p a => NoLeftovers p.1 a) (stepRel (bulkInStep fun _ d => d)))
      (bulkInPowerOn silentBridge ()) sampleTransfer (s, r) ∧
      r.delivered = [[0x42#8, 0x00#8, 0xff#8]] ∧ s.2.2 = r.delivered := by
  have hexec : (execGuarded (fun p a => NoLeftovers p.1 a) (bulkInStep fun _ d => d)
      (bulkInPowerOn silentBridge ()) sampleTransfer).map (fun p => p.2.delivered)
        = some [[0x42#8, 0x00#8, 0xff#8]] := by
    decide +kernel
  obtain ⟨⟨s, r⟩, hexec, hdelivered⟩ := Option.map_eq_some_iff.mp hexec
  have hrun := Run.of_execGuarded hexec
  exact ⟨s, r, hrun, hdelivered, bulk_in_delivers silentBridge _ () hrun⟩

/-- Firmware gives up a transfer after one word, flushes the FIFO and sends four other bytes. -/
def sampleAbort : List (UsbAction Unit) :=
  List.replicate 5 (.write 0x900 0x80000000) ++
    [.write 0x950 8, .write 0x940 0x80000000, .write 0x3000 0x11111111, .write 0x940 0,
      .write 0x10 0xa0, .write 0x950 4, .write 0x940 0x80000000, .write 0x3000 0x22222222]

/-- The bridge receives the bytes that were flushed. -/
theorem flushed_bytes_forwarded :
    ∃ s r, Run (stepRel (bulkInStep fun _ d => d))
      (bulkInPowerOn silentBridge ()) sampleAbort (s, r) ∧
      r.delivered = [[0x22#8, 0x22#8, 0x22#8, 0x22#8]] ∧
      s.2.2 = [[0x11#8, 0x11#8, 0x11#8, 0x11#8]] := by
  have hexec : (execGuarded (fun _ _ => True) (bulkInStep fun _ d => d)
      (bulkInPowerOn silentBridge ()) sampleAbort).map (fun p => (p.2.delivered, p.1.2.2))
        = some ([[0x22#8, 0x22#8, 0x22#8, 0x22#8]], [[0x11#8, 0x11#8, 0x11#8, 0x11#8]]) := by
    decide +kernel
  obtain ⟨⟨s, r⟩, hexec, hvalues⟩ := Option.map_eq_some_iff.mp hexec
  simp only [Prod.mk.injEq] at hvalues
  exact ⟨s, r, (Run.of_execGuarded hexec).mono fun _ _ _ h => h.2, hvalues⟩

end Stm32Emulator
