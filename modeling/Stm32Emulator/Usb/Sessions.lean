import Stm32Emulator.Cdc.TcpSessions
import Stm32Emulator.Usb.BulkIn
import Stm32Emulator.Usb.BulkOut

/-!
# Sessions and bus resets

The controller learns of the clients of its bridge only by asking, once in a poll, whether one is
connected. A client that it sees for the first time makes it reset the bus, so that the device is
enumerated afresh.  A ghost keeps the bytes that move for a client without such a reset
(`FreshRecord`).

There are none as long as the bridge does not replace a client that the controller has seen, in
which case it asks too late, and as long as a device that is still configured from before is not
served with its interrupts off.
-/

namespace Stm32Emulator

open OtgFs

/-! ## Polls of the bridge -/

namespace UsbCdcTcp

/-- Of these connections one takes the place of the client that is held. -/
def Replaces (bridge : UsbCdcTcp) : List AcceptResult → Prop
  | .ok _ now nonblocking :: accepts =>
    if bridge.clientConnectedAt.any fun connectedAt =>
      now - connectedAt < bridge.staleClientGracePeriod then
      bridge.Replaces accepts
    else
      nonblocking = true
  | _ => False

instance decidableReplaces (bridge : UsbCdcTcp) : (accepts : List AcceptResult) →
    Decidable (bridge.Replaces accepts)
  | [] => inferInstanceAs (Decidable False)
  | .failed :: _ => inferInstanceAs (Decidable False)
  | .ok _ now nonblocking :: accepts =>
    have := bridge.decidableReplaces accepts
    inferInstanceAs (Decidable (if bridge.clientConnectedAt.any
      fun connectedAt => now - connectedAt < bridge.staleClientGracePeriod then
        bridge.Replaces accepts else nonblocking = true))

/-- The bridge is on a socket, and without a client nothing is queued for the device. -/
structure Listens (bridge : UsbCdcTcp) : Prop where
  listening : bridge.embedded = none
  nobody : bridge.client = none → bridge.toDevice = []

/-- A part of a poll: no client appears, and if one is still held it is the same. -/
structure KeepsSession (bridge : UsbCdcTcp) (r : UsbCdcTcp × List TcpEvent × Bool) : Prop where
  listens : bridge.Listens → r.1.Listens
  held : r.1.client.isSome → bridge.client.isSome ∧ TcpEvent.disconnected ∉ r.2.1

lemma Listens.markDisconnected {bridge : UsbCdcTcp} (h : bridge.Listens) :
    bridge.markDisconnected.Listens :=
  ⟨h.listening, fun _ => rfl⟩

lemma Listens.acceptClients {bridge : UsbCdcTcp} (h : bridge.Listens)
    (accepts : List AcceptResult) :
    (bridge.acceptClients accepts).1.Listens := by
  induction accepts generalizing bridge with
  | nil => exact h
  | cons result accepts ih =>
    cases result with
    | failed => exact h
    | ok client now nonblocking =>
      unfold UsbCdcTcp.acceptClients
      dsimp only
      split
      · exact ih h
      have hbridge : (if bridge.client.isSome then bridge.markDisconnected
          else bridge).Listens := by
        split
        · exact h.markDisconnected
        · exact h
      split
      · exact hbridge
      · exact ih ⟨hbridge.listening, fun hclient => absurd hclient (Option.some_ne_none _)⟩

/-- Connections that replace nobody are rejected, or lose the client. -/
lemma acceptClients_of_not_replaces {bridge : UsbCdcTcp} (hclient : bridge.client.isSome)
    {accepts : List AcceptResult} (h : ¬ bridge.Replaces accepts) :
    (∃ ok, bridge.acceptClients accepts = (bridge, [], ok)) ∨
      bridge.acceptClients accepts = (bridge.markDisconnected, [.disconnected], false) := by
  induction accepts with
  | nil => exact Or.inl ⟨true, rfl⟩
  | cons result accepts ih =>
    cases result with
    | failed => exact Or.inl ⟨false, rfl⟩
    | ok client now nonblocking =>
      unfold Replaces at h
      unfold acceptClients
      simp only [hclient, Bool.true_and, if_true]
      split
      · next hgrace =>
        rw [if_pos hgrace] at h
        exact ih h
      · next hgrace =>
        rw [if_neg hgrace] at h
        rw [if_pos (by simpa using h)]
        exact Or.inr rfl

lemma not_disconnected_receiveLoop (bridge : UsbCdcTcp) (reads : List ReadResult) :
    TcpEvent.disconnected ∉ (bridge.receiveLoop reads).2.1 := by
  induction reads generalizing bridge with
  | nil => exact List.not_mem_nil
  | cons result reads ih =>
    cases result with
    | connectionReset => exact List.not_mem_nil
    | failed => exact List.not_mem_nil
    | ok bytes =>
      unfold receiveLoop
      split
      · exact List.not_mem_nil
      · have hevents :=
          ih { bridge with toDevice := pushCapped bridge.toDevice bytes bridge.maxBufferedBytes }
        simpa using hevents

lemma not_disconnected_sendLoop (bridge : UsbCdcTcp) (writes : List WriteResult) :
    TcpEvent.disconnected ∉ (bridge.sendLoop writes).2.1 := by
  induction writes generalizing bridge with
  | nil => exact List.not_mem_nil
  | cons result writes ih =>
    unfold sendLoop
    split
    · exact List.not_mem_nil
    cases result with
    | connectionReset => exact List.not_mem_nil
    | failed => exact List.not_mem_nil
    | ok count =>
      dsimp only
      split
      · exact List.not_mem_nil
      · have hevents := ih { bridge with fromDevice := bridge.fromDevice.drop count }
        simpa using hevents

/-- A loop over the client's socket keeps the client, or loses it. -/
lemma keepsSession_afterLoop {bridge : UsbCdcTcp} {loop : UsbCdcTcp × List TcpEvent × LoopEnd}
    (hclient : bridge.client.isSome) (hsame : loop.1.client = bridge.client)
    (hembedded : loop.1.embedded = bridge.embedded) (hevents : TcpEvent.disconnected ∉ loop.2.1) :
    KeepsSession bridge (afterLoop loop) := by
  rcases loop with ⟨bridge', events, ended⟩
  have hlistens (h : bridge.Listens) : bridge'.Listens := by
    refine ⟨hembedded.trans h.listening, fun hnone => ?_⟩
    rw [← hsame, hnone] at hclient
    cases hclient
  cases ended with
  | wouldBlock => exact ⟨hlistens, fun _ => ⟨hclient, hevents⟩⟩
  | disconnected => exact ⟨fun h => (hlistens h).markDisconnected, nofun⟩
  | failed => exact ⟨hlistens, fun _ => ⟨hclient, hevents⟩⟩

lemma keepsSession_receiveFromClient (bridge : UsbCdcTcp) (reads : List ReadResult) :
    KeepsSession bridge (bridge.receiveFromClient reads) := by
  unfold receiveFromClient
  split
  · next hclient =>
    have hframe := bridge.receiveLoop_frame reads
    exact keepsSession_afterLoop hclient (by rw [hframe]) (by rw [hframe])
      (bridge.not_disconnected_receiveLoop reads)
  · exact ⟨id, fun h => ⟨h, List.not_mem_nil⟩⟩

lemma keepsSession_sendToClient (bridge : UsbCdcTcp) (writes : List WriteResult) :
    KeepsSession bridge (bridge.sendToClient writes) := by
  unfold sendToClient
  split
  · next hclient =>
    have hframe := bridge.sendLoop_frame writes
    exact keepsSession_afterLoop hclient (by rw [hframe]) (by rw [hframe])
      (bridge.not_disconnected_sendLoop writes)
  · exact ⟨id, fun h => ⟨h, List.not_mem_nil⟩⟩

/-- A poll leaves the bridge in order, and a client that it holds after connections that replace
nobody is the one that was held before. -/
lemma Listens.poll {bridge : UsbCdcTcp} (h : bridge.Listens) (io : SocketScript) :
    (bridge.poll io).1.Listens ∧
      (bridge.client.isSome → ¬ bridge.Replaces io.accepts → (bridge.poll io).1.client.isSome →
        TcpEvent.disconnected ∉ (bridge.poll io).2.1) := by
  have haccept := h.acceptClients io.accepts
  have hreplaces (hclient : bridge.client.isSome) (hnot : ¬ bridge.Replaces io.accepts) :=
    acceptClients_of_not_replaces hclient hnot
  have haccepted (hclient : bridge.client.isSome) (hnot : ¬ bridge.Replaces io.accepts)
      (hheld : (bridge.acceptClients io.accepts).1.client.isSome) :
      TcpEvent.disconnected ∉ (bridge.acceptClients io.accepts).2.1 := by
    rcases hreplaces hclient hnot with ⟨_, heq⟩ | heq
    · rw [heq]
      exact List.not_mem_nil
    · rw [heq] at hheld
      cases hheld
  have hreceived (hclient : bridge.client.isSome) (hnot : ¬ bridge.Replaces io.accepts)
      (hheld : ((bridge.acceptClients io.accepts).1.receiveFromClient io.reads).1.client.isSome) :
      TcpEvent.disconnected ∉ (bridge.acceptClients io.accepts).2.1 ++
        ((bridge.acceptClients io.accepts).1.receiveFromClient io.reads).2.1 := by
    obtain ⟨hheld, hreceived⟩ := (keepsSession_receiveFromClient _ io.reads).held hheld
    exact List.mem_append.not.mpr (not_or.mpr ⟨haccepted hclient hnot hheld, hreceived⟩)
  have hlistens := (keepsSession_receiveFromClient _ io.reads).listens haccept
  have hcases := pollCases h.listening io
  generalize bridge.poll io = result at hcases ⊢
  cases hcases with
  | accepting haccepts =>
    rw [haccepts] at haccept haccepted
    exact ⟨haccept, haccepted⟩
  | reading haccepts hreads =>
    rw [haccepts] at hlistens hreceived
    dsimp only at hlistens hreceived
    rw [hreads] at hlistens hreceived
    exact ⟨hlistens, hreceived⟩
  | @writing _ bridge₂ _ _ haccepts hreads =>
    have hsend := keepsSession_sendToClient bridge₂ io.writes
    rw [haccepts] at hlistens hreceived
    dsimp only at hlistens hreceived
    rw [hreads] at hlistens hreceived
    refine ⟨hsend.listens hlistens, fun hclient hnot hheld => ?_⟩
    obtain ⟨hheld, hsent⟩ := hsend.held hheld
    exact List.mem_append.not.mpr (not_or.mpr ⟨hreceived hclient hnot hheld, hsent⟩)

end UsbCdcTcp

/-! ## The controller on its bridge -/

/-- The controller, the bridge and the data pushed to it. -/
abbrev SessionState := UsbState (UsbCdcTcp × List (List U8))

/-- What firmware and the emulator do.  In a poll of the emulator the bridge comes first. -/
inductive SessionAction where
  | read (offset : U32)
  | write (offset value : U32)
  | poll (io : SocketScript) (nvic : Nvic) (numInstructions : ℕ)

/-- The state between the two halves of a poll. -/
def SessionState.polledBridge (s : SessionState) (io : SocketScript) : SessionState :=
  (s.1, recordingMove hostMove (.poll io) s.2)

def sessionStep (s : SessionState) : SessionAction → Option SessionState
  | .read offset => usbStep (recordingMove hostMove) s (.read offset)
  | .write offset value => usbStep (recordingMove hostMove) s (.write offset value)
  | .poll io nvic n => usbStep (recordingMove hostMove) (s.polledBridge io) (.poll nvic n)

/-- The ghost. -/
structure FreshRecord where
  /-- The bus has been reset since the last client was lost. -/
  fresh : Bool
  /-- The bytes that were moved while no client was held or the bus had not been reset for it. -/
  stale : List U8
  deriving DecidableEq

/-- One action's effect on the ghost. -/
def FreshRecord.next (r : FreshRecord) (s : SessionState) (a : SessionAction) : FreshRecord :=
  match sessionStep s a, a with
  | some s', .write _ _ =>
    { r with
      stale :=
        if r.fresh = true ∧ s.2.1.client.isSome then r.stale
        else r.stale ++ (s'.2.2.drop s.2.2.length).flatten }
  | some s', .poll io nvic _ =>
    let kept := r.fresh && decide (TcpEvent.disconnected ∉ (s.2.1.poll io).2.1)
    let fresh := kept || s.1.attaches (s.polledBridge io).2 (nvic.isEnabled 67)
    { fresh := fresh
      stale :=
        if fresh = true ∧ (s.polledBridge io).2.1.client.isSome then r.stale
        else r.stale ++ (bulkOutQueued s.1 s'.1).flatten }
  | _, _ => r

/-- No client is replaced while the host is attached, and while it is not, a configured device is
neither served with its interrupts off nor does it send data. -/
def EnumeratesFirst (s : SessionState) : SessionAction → Prop
  | .read _ => True
  | .write offset value => ∀ ep, s.1.bulkInEndpoint = some ep → s.1.CompletesIn ep offset value →
    s.1.isConfigured = true → s.1.inXfrsiz ep ≠ 0 → s.1.hostAttached = true
  | .poll io nvic _ =>
    (s.1.hostAttached = true → ¬ s.2.1.Replaces io.accepts) ∧
      (s.1.hostAttached = false → s.1.isConfigured = true → (s.polledBridge io).2.1.client.isSome →
        s.1.globalInterruptMask ≠ 0#32 ∧ nvic.isEnabled 67 = true)

instance (s : SessionState) (a : SessionAction) : Decidable (EnumeratesFirst s a) := by
  cases a <;> unfold EnumeratesFirst <;> infer_instance

/-! ## What moves bytes -/

section

variable {otg : OtgFs (UsbCdcTcp × List (List U8))} {d : UsbCdcTcp × List (List U8)}

/-- A bridge on a socket is told of no stages. -/
lemma setProtocolStage_of_listening (h : d.1.Listens) (stage : EmbeddedCdcStage) :
    UsbCdcTcp.usbBridge.recording.setProtocolStage stage d = d := by
  have hsame : d.1.setProtocolStage stage = d.1 := by
    unfold UsbCdcTcp.setProtocolStage
    rw [h.listening, Option.map_none, ← h.listening]
  exact Prod.ext hsame rfl

/-- Pushed bytes do not change what is held. -/
lemma UsbCdcTcp.Listens.pushFromDevice {bridge : UsbCdcTcp} (h : bridge.Listens) (bytes : List U8) :
    (bridge.pushFromDevice bytes).client = bridge.client ∧
    (bridge.pushFromDevice bytes).Listens := by
  rw [pushFromDevice_of_listening h.listening]
  exact ⟨rfl, h.listening, h.nobody⟩

/-- Nor do bytes that are taken. -/
lemma UsbCdcTcp.Listens.takeForDevice {bridge : UsbCdcTcp} (h : bridge.Listens) (maximum : ℕ) :
    (bridge.takeForDevice maximum).2.client = bridge.client ∧
    (bridge.takeForDevice maximum).2.Listens := by
  rw [takeForDevice_of_listening h.listening]
  refine ⟨rfl, h.listening, fun hnone => ?_⟩
  dsimp only at hnone ⊢
  rw [h.nobody hnone]
  exact List.drop_nil

/-- The data that the end of a transfer pushes. -/
lemma completeInTransfer_pushes (hbridge : otg.bridge = some UsbCdcTcp.usbBridge.recording)
    (h : d.1.Listens) (ep : Fin numEndpoints) :
    (otg.completeInTransfer d ep).2 = d ∨
      otg.isConfigured = true ∧ otg.bulkInEndpoint = some ep ∧
      ∃ bytes, (otg.inXfrsiz ep = 0 → bytes = []) ∧
        (otg.completeInTransfer d ep).2 = (d.1.pushFromDevice bytes, d.2 ++ [bytes]) := by
  by_cases hep : ep = 0
  · subst hep
    obtain ⟨_, -, heq⟩ := completeInTransfer_zero otg d
    left
    rw [heq]
    unfold stageAfterAdvance
    rw [hbridge]
    dsimp only
    split
    · exact setProtocolStage_of_listening h _
    · rfl
  by_cases hbulk : (otg.raiseInEndpointInterrupt ep diepintXfrc).isConfigured = true ∧
      some ep = (otg.raiseInEndpointInterrupt ep diepintXfrc).bulkInEndpoint
  · right
    have hxfrsiz : (otg.raiseInEndpointInterrupt ep diepintXfrc).inXfrsiz ep = otg.inXfrsiz ep := by
      simp [inXfrsiz, raiseInEndpointInterrupt]
    refine ⟨hbulk.1, hbulk.2.symm, (otg.txFifo ep).take (otg.inXfrsiz ep), fun hzero => ?_, ?_⟩
    · rw [hzero, List.take_zero]
    · unfold completeInTransfer
      dsimp only
      rw [if_neg hep, if_pos hbulk]
      have hbridge' : (otg.raiseInEndpointInterrupt ep diepintXfrc).bridge =
          some UsbCdcTcp.usbBridge.recording := hbridge
      rw [hbridge', ← hxfrsiz]
      rfl
  · left
    unfold completeInTransfer
    dsimp only
    rw [if_neg hep, if_neg hbulk]

lemma completeInTransfer_frame (otg : OtgFs (UsbCdcTcp × List (List U8)))
    (d : UsbCdcTcp × List (List U8)) (ep : Fin numEndpoints) :
    (otg.completeInTransfer d ep).1.bridge = otg.bridge ∧
      (otg.completeInTransfer d ep).1.hostAttached = otg.hostAttached := by
  by_cases hep : ep = 0
  · subst hep
    obtain ⟨_, ⟨_, _, rfl⟩, heq⟩ := completeInTransfer_zero otg d
    rw [heq]
    exact ⟨rfl, rfl⟩
  · obtain ⟨_, _, _, heq, -⟩ := completeInTransfer_of_ne otg d hep
    rw [heq]
    exact ⟨rfl, rfl⟩

/-- A register write pushes at most the data of a transfer that it ends. -/
lemma registerWrite_pushes (hbridge : otg.bridge = some UsbCdcTcp.usbBridge.recording)
    (h : d.1.Listens) {offset value : U32} {s' : SessionState}
    (hwrite : otg.registerWrite d offset value = some s') :
    (s'.1.bridge = otg.bridge ∧ s'.1.hostAttached = otg.hostAttached) ∧
      (s'.2 = d ∨ ∃ ep, otg.bulkInEndpoint = some ep ∧ otg.CompletesIn ep offset value ∧
        otg.isConfigured = true ∧ ∃ bytes, (otg.inXfrsiz ep = 0 → bytes = []) ∧
          s'.2 = (d.1.pushFromDevice bytes, d.2 ++ [bytes])) := by
  cases registerWrite_cases hwrite with
  | @fifo ep _ hfifo hpush =>
    have hs' := pushTxFifoWord_eq_some hpush
    by_cases hcompletes : otg.InArmed ep ∧ otg.inXfrsiz ep ≤ (otg.epIn ep).armedInBytesSent + 4
    · rw [if_pos hcompletes] at hs'
      rw [hs']
      have hxfrsiz : ((otg.pushed ep value).disarm ep).inXfrsiz ep = otg.inXfrsiz ep := by
        simp [inXfrsiz, disarm, pushed]
      have hbridge' : ((otg.pushed ep value).disarm ep).bridge =
          some UsbCdcTcp.usbBridge.recording := hbridge
      refine ⟨completeInTransfer_frame _ _ _, ?_⟩
      rcases completeInTransfer_pushes hbridge' h ep with hsame |
        ⟨hconfigured, hendpoint, bytes, hempty, heq⟩
      · exact Or.inl hsame
      · rw [hxfrsiz] at hempty
        exact Or.inr ⟨ep, hendpoint, Or.inl ⟨hfifo, hcompletes⟩, hconfigured, bytes, hempty, heq⟩
    · rw [if_neg hcompletes] at hs'
      rw [hs']
      exact ⟨⟨rfl, rfl⟩, Or.inl rfl⟩
  | @diepctl ep _ hdecode =>
    by_cases hempty : (value &&& diepctlEpena ≠ 0#32 ∧ ¬ otg.InArmed ep) ∧ otg.inXfrsiz ep = 0
    · rw [writeDiepctl_of_empty hempty.1 hempty.2]
      have hxfrsiz : ((otg.enabled ep value).disarm ep).inXfrsiz ep = 0 := by
        have hsame : ((otg.enabled ep value).disarm ep).inXfrsiz ep = otg.inXfrsiz ep := by
          simp [inXfrsiz, disarm, enabled]
        exact hsame.trans hempty.2
      have hbridge' : ((otg.enabled ep value).disarm ep).bridge =
          some UsbCdcTcp.usbBridge.recording := hbridge
      refine ⟨completeInTransfer_frame _ _ _, ?_⟩
      rcases completeInTransfer_pushes hbridge' h ep with hsame |
        ⟨hconfigured, hendpoint, bytes, hnil, heq⟩
      · exact Or.inl hsame
      · exact Or.inr ⟨ep, hendpoint, Or.inr ⟨⟨hdecode, hempty.1⟩, hempty.2⟩, hconfigured, bytes,
          fun _ => hnil hxfrsiz, heq⟩
    · obtain ⟨f, heq, -⟩ := writeDiepctl_of_not_empty hempty d
      rw [heq]
      exact ⟨⟨rfl, rfl⟩, Or.inl rfl⟩
  | diep => exact ⟨⟨rfl, rfl⟩, Or.inl rfl⟩
  | @doepctl ep =>
    obtain ⟨_, _, heq⟩ := queuesOnly_writeDoepctl otg ep value
    rw [heq]
    exact ⟨⟨rfl, rfl⟩, Or.inl rfl⟩
  | doep => exact ⟨⟨rfl, rfl⟩, Or.inl rfl⟩
  | global _ _ _ hframe hd =>
    refine ⟨⟨hframe.bridge, hframe.hostAttached⟩, Or.inl ?_⟩
    rcases hd with rfl | ⟨bridge, hb, rfl⟩
    · rfl
    · cases hbridge.symm.trans hb
      exact setProtocolStage_of_listening h _

/-- Forwarding bytes of the bridge does not change what is held, and moves none if there are none or
the device is not configured. -/
lemma forwardBulkOut_session (hbridge : otg.bridge = some UsbCdcTcp.usbBridge.recording)
    (h : d.1.Listens) :
    ((otg.forwardBulkOut d).2.1.client = d.1.client ∧ (otg.forwardBulkOut d).2.1.Listens) ∧
      (otg.isConfigured = false ∨ d.1.toDevice = [] → (otg.forwardBulkOut d).1 = otg) := by
  by_cases hready : ∃ ep bridge, otg.ReadyOut ep bridge
  · obtain ⟨ep, bridge, hready⟩ := hready
    cases hbridge.symm.trans hready.bridge
    rw [forwardBulkOut_of_ready hready]
    refine ⟨h.takeForDevice _, fun hidle => ?_⟩
    rcases hidle with hconfigured | hnil
    · cases hconfigured.symm.trans hready.configured
    · have htake : (d.1.takeForDevice (min 64 (otg.outXfrsiz ep))).1 = [] := by
        rw [UsbCdcTcp.takeForDevice_of_listening h.listening, hnil]
        exact List.take_nil
      exact if_pos htake
  · rw [forwardBulkOut_of_not_ready fun ep bridge hr => hready ⟨ep, bridge, hr⟩]
    exact ⟨⟨rfl, h⟩, fun _ => rfl⟩

end

/-! ## The invariant -/

/-- The invariant: a client is held while the host is attached, and the bus has been reset for
it. -/
structure SessionInvariant (s : SessionState) (r : FreshRecord) : Prop where
  bridge : s.1.bridge = some UsbCdcTcp.usbBridge.recording
  listens : s.2.1.Listens
  attached : s.1.hostAttached = true → s.2.1.client.isSome ∧ r.fresh = true
  stale : r.stale = []

namespace SessionInvariant

variable {s s' : SessionState} {r : FreshRecord}

lemma read (h : SessionInvariant s r) {offset : U32}
    (hstep : sessionStep s (.read offset) = some s') :
    SessionInvariant s' (r.next s (.read offset)) := by
  have hr : r.next s (.read offset) = r := by
    simp only [FreshRecord.next, hstep]
  rw [hr]
  obtain ⟨r', hread, rfl⟩ := Option.map_eq_some_iff.mp hstep
  rcases registerRead_cases hread with ⟨-, rfl⟩ | ⟨-, -, hpop⟩ | ⟨-, -, hsame⟩
  · exact ⟨h.bridge, h.listens, h.attached, h.stale⟩
  · obtain ⟨-, epOut, heq⟩ := popRxStatus_eq_some hpop
    rw [heq]
    exact ⟨h.bridge, h.listens, h.attached, h.stale⟩
  · rw [hsame]
    exact h

lemma write (h : SessionInvariant s r) {offset value : U32}
    (hfirst : EnumeratesFirst s (.write offset value))
    (hstep : sessionStep s (.write offset value) = some s') :
    SessionInvariant s' (r.next s (.write offset value)) := by
  have hr : r.next s (.write offset value) =
      ⟨r.fresh, if r.fresh = true ∧ s.2.1.client.isSome then r.stale
        else r.stale ++ (s'.2.2.drop s.2.2.length).flatten⟩ := by
    simp only [FreshRecord.next, hstep]
  rw [hr]
  obtain ⟨⟨hbridge, hattached⟩, hpushes⟩ := registerWrite_pushes h.bridge h.listens hstep
  rcases hpushes with hsame | ⟨ep, hendpoint, hcompletes, hconfigured, bytes, hempty, heq⟩
  · rw [hsame]
    refine ⟨hbridge.trans h.bridge, ?_, fun hattached' => ?_, ?_⟩
    · rw [hsame]
      exact h.listens
    · rw [hsame]
      exact h.attached (hattached.symm.trans hattached')
    · dsimp only
      split
      · exact h.stale
      · rw [List.drop_length, h.stale]
        rfl
  · obtain ⟨hclient, hlistens⟩ := h.listens.pushFromDevice bytes
    rw [heq]
    refine ⟨hbridge.trans h.bridge, ?_, fun hattached' => ?_, ?_⟩
    · rw [heq]
      exact hlistens
    · rw [heq]
      dsimp only
      rw [hclient]
      exact h.attached (hattached.symm.trans hattached')
    · dsimp only
      split
      · exact h.stale
      · next hstale =>
        -- the host is not attached, so that the transfer was empty
        have hzero : s.1.inXfrsiz ep = 0 := by
          by_contra hdata
          obtain ⟨hclient, hfresh⟩ := h.attached (hfirst ep hendpoint hcompletes hconfigured hdata)
          exact hstale ⟨hfresh, hclient⟩
        rw [List.drop_left, h.stale, hempty hzero]
        rfl

/-- The controller asks whether a client is held. -/
lemma hostPresent_eq (hbridge : s.1.bridge = some UsbCdcTcp.usbBridge.recording)
    {d : UsbCdcTcp × List (List U8)} (h : d.1.Listens) : s.1.hostPresent d = d.1.client.isSome := by
  have hconnected : d.1.isClientConnected = d.1.client.isSome := by
    unfold UsbCdcTcp.isClientConnected
    rw [h.listening]
  unfold hostPresent
  rw [hbridge]
  exact hconnected

lemma poll (h : SessionInvariant s r) {io : SocketScript} {nvic : Nvic} {n : ℕ}
    (hfirst : EnumeratesFirst s (.poll io nvic n))
    (hstep : sessionStep s (.poll io nvic n) = some s') :
    SessionInvariant s' (r.next s (.poll io nvic n)) := by
  have hlistens : (s.polledBridge io).2.1.Listens := (h.listens.poll io).1
  have hkept : s.2.1.client.isSome → ¬ s.2.1.Replaces io.accepts →
      (s.polledBridge io).2.1.client.isSome →
      TcpEvent.disconnected ∉ (s.2.1.poll io).2.1 := (h.listens.poll io).2
  have hpresent := hostPresent_eq h.bridge hlistens
  have hr : r.next s (.poll io nvic n) =
      let fresh := r.fresh && decide (TcpEvent.disconnected ∉ (s.2.1.poll io).2.1) ||
        s.1.attaches (s.polledBridge io).2 (nvic.isEnabled 67)
      ⟨fresh, if fresh = true ∧ (s.polledBridge io).2.1.client.isSome then r.stale
        else r.stale ++ (bulkOutQueued s.1 s'.1).flatten⟩ := by
    simp only [FreshRecord.next, hstep]
  rw [hr, h.stale]
  obtain ⟨⟨otg, d, nvic'⟩, hpoll, rfl⟩ := Option.map_eq_some_iff.mp hstep
  have hpoll : s.1.poll (s.polledBridge io).2 nvic n = some (otg, d, nvic') := hpoll
  obtain ⟨hreplaces, hinterrupts⟩ := hfirst
  generalize (s.polledBridge io).2 = d₁ at hlistens hkept hpresent hpoll hinterrupts ⊢
  rcases poll_cases hpoll with ⟨hattaches, status, last, hotg, hd⟩ | ⟨hnot, status, last, hotg, hd⟩
  · -- the bus is reset, and a client is held
    have hheld : d₁.1.client.isSome := by
      rw [attaches_eq, hpresent] at hattaches
      simp only [Bool.and_eq_true] at hattaches
      exact hattaches.1.1
    have hsame : (s.1.virtualHostReset d₁).2 = d₁ := by
      simp only [virtualHostReset, h.bridge]
      exact setProtocolStage_of_listening hlistens _
    dsimp only at hotg hd ⊢
    rw [hotg, hd, hsame, hattaches, Bool.or_true]
    exact ⟨h.bridge, hlistens, fun _ => ⟨hheld, rfl⟩, if_pos ⟨rfl, hheld⟩⟩
  · have hbridge : (s.1.sampled (s.1.hostAttached && s.1.hostPresent d₁) status last).bridge =
        some UsbCdcTcp.usbBridge.recording := h.bridge
    obtain ⟨⟨hclient, hlistens'⟩, hidle⟩ := forwardBulkOut_session hbridge hlistens
    obtain ⟨_, _, _, heq⟩ :=
      forwardBulkOut_eq (s.1.sampled (s.1.hostAttached && s.1.hostPresent d₁) status last) d₁
    dsimp only at hotg hd ⊢
    rw [hnot, Bool.or_false]
    refine ⟨?_, ?_, fun hattached => ?_, ?_⟩
    · rw [hotg, heq]
      exact h.bridge
    · rw [hd]
      exact hlistens'
    · -- the host was attached and a client is held, which must be the same as before
      rw [hotg, heq] at hattached
      have hattached : (s.1.hostAttached && s.1.hostPresent d₁) = true := hattached
      rw [hpresent, Bool.and_eq_true] at hattached
      obtain ⟨hclient', hfresh⟩ := h.attached hattached.1
      have hevents := hkept hclient' (hreplaces hattached.1) hattached.2
      rw [hd, hclient, hfresh]
      exact ⟨hattached.2, by simpa using hevents⟩
    · dsimp only
      split
      · rfl
      next hstale =>
      have hquiet : s.1.isConfigured = false ∨ d₁.1.toDevice = [] := by
        by_cases hheld : d₁.1.client.isSome
        · -- a client for which the bus has not been reset is not seen by the controller yet
          left
          have hdetached : s.1.hostAttached = false := by
            rw [← Bool.not_eq_true]
            intro hattached
            obtain ⟨hclient', hfresh⟩ := h.attached hattached
            have hevents := hkept hclient' (hreplaces hattached) hheld
            exact hstale ⟨by rw [hfresh]; simpa using hevents, hheld⟩
          rw [← Bool.not_eq_true]
          intro hconfigured
          obtain ⟨hmask, hirq⟩ := hinterrupts hdetached hconfigured hheld
          rw [attaches_eq, hpresent, hheld, hirq, hdetached] at hnot
          simp [hmask] at hnot
        · exact Or.inr (hlistens.nobody (Option.not_isSome_iff_eq_none.mp hheld))
      have hnone : bulkOutQueued s.1
          (s.1.sampled (s.1.hostAttached && s.1.hostPresent d₁) status last) = [] :=
        bulkOutQueued_of_length_le le_rfl
      rw [hotg, hidle hquiet, hnone]
      rfl

end SessionInvariant

/-- Nothing is left of an earlier session. -/
structure Clean (otg : OtgFs D) : Prop where
  rxFifo : otg.rxFifo = []
  rxStatus : otg.rxStatus = []
  txFifo : ∀ ep, otg.txFifo ep = []
  endpoints : ∀ ep, otg.epIn ep = .default ∧ otg.epOut ep = .default
  virtualHostStep : otg.virtualHostStep = .awaitingDeviceDescriptor

/-- The controller on a bridge, with no reset yet. -/
def sessionPowerOn (bridge : UsbCdcTcp) : SessionState × FreshRecord :=
  ((OtgFs.new (some UsbCdcTcp.usbBridge.recording), (bridge, [])), ⟨false, []⟩)

/-- **Every session is enumerated afresh.**  In every run in which the bridge does not replace a
client while the host is attached, and a configured device is neither served nor sends while it is
not, no byte moves for a client before the bus has been reset for it; and a poll that resets the bus
leaves nothing of an earlier session. -/
theorem sessions_enumerated_afresh (maxBufferedBytes : ℕ) (bridge : UsbCdcTcp)
    (hnew : UsbCdcTcp.new maxBufferedBytes none = some bridge) {as : List SessionAction}
    {p : SessionState × FreshRecord}
    (hrun : Run (guardedStep (fun p a => EnumeratesFirst p.1 a)
      (stepRel (withGhost sessionStep FreshRecord.next))) (sessionPowerOn bridge) as p) :
    p.2.stale = [] ∧ ∀ io nvic n s', sessionStep p.1 (.poll io nvic n) = some s' →
      p.1.1.attaches (p.1.polledBridge io).2 (nvic.isEnabled 67) = true → Clean s'.1 := by
  have hinit : SessionInvariant (sessionPowerOn bridge).1 (sessionPowerOn bridge).2 := by
    unfold UsbCdcTcp.new at hnew
    split at hnew
    · cases hnew
    · cases hnew
      exact ⟨rfl, ⟨rfl, fun _ => rfl⟩, nofun, rfl⟩
  have hinv : SessionInvariant p.1 p.2 := by
    refine hrun.invariant_state (I := fun p => SessionInvariant p.1 p.2) hinit ?_
    rintro ⟨s, r⟩ ⟨s', r'⟩ a hinv ⟨hfirst, hstep⟩
    obtain ⟨hstep, rfl⟩ := withGhost_eq_some.mp hstep
    cases a with
    | read offset => exact hinv.read hstep
    | write offset value => exact hinv.write hfirst hstep
    | poll io nvic n => exact hinv.poll hfirst hstep
  refine ⟨hinv.stale, fun io nvic n s' hstep hattaches => ?_⟩
  obtain ⟨⟨otg, d, nvic'⟩, hpoll, rfl⟩ := Option.map_eq_some_iff.mp hstep
  rcases poll_cases hpoll with ⟨-, status, last, hotg, -⟩ | ⟨hnot, -⟩
  · dsimp only at hotg ⊢
    rw [hotg]
    exact ⟨rfl, rfl, fun _ => rfl, fun _ => ⟨rfl, rfl⟩, rfl⟩
  · cases hattaches.symm.trans hnot

/-- Firmware ends the five requests, arms the bulk endpoint, and a byte arrives in the next poll. -/
def sampleSession (client now : ℕ) (byte : U8) : List SessionAction :=
  [.poll ⟨[.ok client now true], [], []⟩ { Nvic.default with enabled := 1 <<< 67 } 0] ++
    List.replicate 5 (.write 0x900 0x80000000) ++
    [.write 0xb50 64, .write 0xb40 0x80000000,
      .poll ⟨[], [.ok [byte]], []⟩ { Nvic.default with enabled := 1 <<< 67 } 0]

/-- Two sessions, one after the other. -/
def sampleSessions : List SessionAction :=
  [.write 0x18 0x10] ++ sampleSession 0 0 0x41 ++ [.poll ⟨[], [.ok []], []⟩ Nvic.default 0] ++
    sampleSession 1 5 0x42

/-- Both are enumerated, and in the second a byte has arrived. -/
theorem sessions_enumerated_afresh_sample :
    ∃ p, Run (guardedStep (fun p a => EnumeratesFirst p.1 a)
        (stepRel (withGhost sessionStep FreshRecord.next)))
        (sessionPowerOn listeningBridge) sampleSessions p ∧
      p.1.2.1.client = some 1 ∧ p.1.1.rxFifo.getLast? = some 0x42 ∧ p.2.fresh = true ∧
      p.2.stale = [] := by
  have hexec :
      (execGuarded (fun p a => EnumeratesFirst p.1 a) (withGhost sessionStep FreshRecord.next)
      (sessionPowerOn listeningBridge) sampleSessions).map
        (fun p => (p.1.2.1.client, p.1.1.rxFifo.getLast?, p.2.fresh)) =
          some (some 1, some 0x42, true) := by
    decide +kernel
  obtain ⟨p, hexec, hvalues⟩ := Option.map_eq_some_iff.mp hexec
  simp only [Prod.mk.injEq] at hvalues
  have hrun := Run.of_execGuarded hexec
  exact ⟨p, hrun, hvalues.1, hvalues.2.1, hvalues.2.2,
    (sessions_enumerated_afresh 65536 listeningBridge (by decide) hrun).1⟩

/-- After its grace period the first client is replaced, and the second sends a byte. -/
def sampleReplacement : List SessionAction :=
  [.write 0x18 0x10] ++ sampleSession 0 0 0x41 ++
    [.read 0x20, .write 0xb40 0x80000000,
      .poll ⟨[.ok 1 20000000000 true], [.ok [0x42]], []⟩
        { Nvic.default with enabled := 1 <<< 67 } 0]

/-- The byte reaches firmware although the bus has not been reset for the second client. -/
theorem replaced_client_not_enumerated :
    ∃ p, Run (stepRel (withGhost sessionStep FreshRecord.next)) (sessionPowerOn listeningBridge)
        sampleReplacement p ∧
      p.1.2.1.client = some 1 ∧ p.1.1.isConfigured = true ∧ p.2.stale = [0x42] ∧
      ¬ p.2.stale = [] := by
  have hexec : (execGuarded (fun _ _ => True) (withGhost sessionStep FreshRecord.next)
      (sessionPowerOn listeningBridge) sampleReplacement).map
        (fun p => (p.1.2.1.client, p.1.1.isConfigured, p.2.stale)) =
          some (some 1, true, [0x42]) := by
    decide +kernel
  obtain ⟨p, hexec, hvalues⟩ := Option.map_eq_some_iff.mp hexec
  simp only [Prod.mk.injEq] at hvalues
  obtain ⟨hclient, hconfigured, hstale⟩ := hvalues
  refine ⟨p, (Run.of_execGuarded hexec).mono fun _ _ _ h => h.2, hclient, hconfigured, hstale, ?_⟩
  rw [hstale]
  exact List.cons_ne_nil _ _

end Stm32Emulator
