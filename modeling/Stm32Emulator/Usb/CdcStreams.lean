import Stm32Emulator.Cdc.LinkFifo
import Stm32Emulator.Usb.BridgeCalls
import Stm32Emulator.Usb.BulkIn
import Stm32Emulator.Usb.BulkOut
import Stm32Emulator.Usb.StageMirror

/-!
# The streams of a session

Firmware and the host exchange two streams of bytes, through the endpoint FIFOs, the controller, the
bridge and the queues of the embedded link.  Both ends are observed where they are: firmware at the
endpoint registers, the host at the operations of its link.

Every action of the controller and of the host is at most one operation of the link (`linkOp`), so
that the account of the link carries over to whole runs of the machine.
-/

namespace Stm32Emulator

open OtgFs Function

/-! ## The operations of the link -/

def BridgeCall.linkOp : BridgeCall → LinkOp
  | .push bytes => .writeFromDevice bytes
  | .take maximum => .readForDevice maximum
  | .stage next => .setProtocolStage next

def HostMove.linkOp : HostMove → Option LinkOp
  | .connect => some .connect
  | .disconnect => some .disconnect
  | .writeFromHost bytes => some (.writeFromHost bytes)
  | .readForHost target => some (.readForHost target)
  | .poll _ => none

/-- The operation of the link that an action is. -/
def linkOp (s : UsbState UsbCdcTcp) : UsbAction HostMove → Option LinkOp
  | .outside move => move.linkOp
  | a => (bridgeCall s a).map BridgeCall.linkOp

/-- The link after an operation, if there is one. -/
def afterOp (link : EmbeddedCdcState) (op : Option LinkOp) : EmbeddedCdcState :=
  op.elim link fun op => (linkStep link op).1

lemma embedded_afterCall {bridge : UsbCdcTcp} {link : EmbeddedCdcState}
    (hlink : bridge.embedded = some link) (call : Option BridgeCall) :
    (afterCall UsbCdcTcp.usbBridge bridge call).embedded =
      some (afterOp link (call.map BridgeCall.linkOp)) := by
  rcases call with _ | call
  · exact hlink
  cases call with
  | push bytes =>
    simp only [afterCall, afterOp, Option.map_some, Option.elim_some, BridgeCall.run,
      UsbCdcTcp.usbBridge, UsbCdcTcp.pushFromDevice, hlink]
    rfl
  | take maximum =>
    simp only [afterCall, afterOp, Option.map_some, Option.elim_some, BridgeCall.run,
      UsbCdcTcp.usbBridge, UsbCdcTcp.takeForDevice, hlink]
    rfl
  | stage next =>
    simp only [afterCall, afterOp, Option.map_some, Option.elim_some, BridgeCall.run,
      UsbCdcTcp.usbBridge, UsbCdcTcp.setProtocolStage, hlink]
    rfl

lemma embedded_hostMove {bridge : UsbCdcTcp} {link : EmbeddedCdcState}
    (hlink : bridge.embedded = some link) (move : HostMove) :
    (hostMove move bridge).embedded = some (afterOp link move.linkOp) := by
  cases move with
  | poll io =>
    have hpoll : bridge.poll io = (bridge, [], true) := if_pos (by rw [hlink]; rfl)
    rw [hostMove, hpoll]
    exact hlink
  | connect => simp only [hostMove, hlink, Option.map_some]; rfl
  | disconnect => simp only [hostMove, hlink, Option.map_some]; rfl
  | writeFromHost bytes => simp only [hostMove, hlink, Option.map_some]; rfl
  | readForHost target => simp only [hostMove, hlink, Option.map_some]; rfl

/-- **The machine refines the link**: an action is the operation `linkOp` of it, or leaves it
alone. -/
lemma embedded_of_usbStep {s s' : UsbState UsbCdcTcp} {a : UsbAction HostMove}
    {link : EmbeddedCdcState} (hb : s.1.bridge = some UsbCdcTcp.usbBridge)
    (hlink : s.2.embedded = some link) (hstep : usbStep hostMove s a = some s') :
    s'.1.bridge = some UsbCdcTcp.usbBridge ∧ s'.2.embedded = some (afterOp link (linkOp s a)) := by
  obtain ⟨hbridge, hd⟩ := snd_eq_of_usbStep hb hstep
  refine ⟨hbridge, ?_⟩
  rw [hd]
  cases a with
  | outside move => exact embedded_hostMove hlink move
  | _ => exact embedded_afterCall hlink _

/-! ## What firmware sees -/

section

variable {D W : Type} {b : UsbBridge D} {move : W → D → D}

lemma UsbBridge.recording_hom (b : UsbBridge D) : BridgeHom b.recording b Prod.fst :=
  ⟨fun _ _ => rfl, fun _ _ => rfl, fun _ => rfl, fun _ _ => rfl⟩

lemma UsbBridge.recordingTakes_hom (b : UsbBridge D) : BridgeHom b.recordingTakes b Prod.fst :=
  ⟨fun _ _ => rfl, fun _ _ => rfl, fun _ => rfl, fun _ _ => rfl⟩

/-- The data that a call pushes to the bridge. -/
def pushedBy : Option BridgeCall → List (List U8)
  | some (.push bytes) => [bytes]
  | _ => []

/-- The bytes that a call takes from the bridge. -/
def takenBy (b : UsbBridge D) (d : D) : Option BridgeCall → List U8
  | some (.take maximum) => (b.takeForDevice maximum d).1
  | _ => []

lemma snd_afterAction_recording (s : UsbState (D × List (List U8))) (a : UsbAction W) :
    (afterAction b.recording (recordingMove move) s a).2 = s.2.2 ++ pushedBy (bridgeCall s a) := by
  have hcall (call : Option BridgeCall) : (afterCall b.recording s.2 call).2 =
      s.2.2 ++ pushedBy call := by
    rcases call with _ | call
    · exact (List.append_nil _).symm
    cases call with
    | push bytes => rfl
    | take maximum => exact (List.append_nil _).symm
    | stage next => exact (List.append_nil _).symm
  cases a with
  | outside w => exact (List.append_nil _).symm
  | _ => exact hcall _

lemma snd_afterAction_recordingTakes (s : UsbState (D × List U8)) (a : UsbAction W) :
    (afterAction b.recordingTakes (recordingTakesMove move) s a).2 =
      s.2.2 ++ takenBy b s.2.1 (bridgeCall s a) := by
  have hcall (call : Option BridgeCall) :
      (afterCall b.recordingTakes s.2 call).2 = s.2.2 ++ takenBy b s.2.1 call := by
    rcases call with _ | call
    · exact (List.append_nil _).symm
    cases call with
    | push bytes => exact (List.append_nil _).symm
    | take maximum => rfl
    | stage next => exact (List.append_nil _).symm
  cases a with
  | outside w => exact (List.append_nil _).symm
  | _ => exact hcall _

/-- Over a recording bridge the transfers of firmware are those of the record. -/
structure Transfers (b : UsbBridge D) (s : UsbState D) (r : BulkInRecord) : Prop where
  bridge : s.1.bridge = some b
  recorded : BulkInInvariant b (s.1.onBridge b.recording, (s.2, r.delivered)) r

lemma Transfers.step {s s' : UsbState D} {r : BulkInRecord} {a : UsbAction W} (h : Transfers b s r)
    (hok : NoLeftovers s a) (hstep : usbStep move s a = some s') :
    Transfers b s' (r.next s a) ∧
    (r.next s a).delivered = r.delivered ++ pushedBy (bridgeCall s a) := by
  have hmove : ∀ w (d : D × List (List U8)), move w d.1 = (recordingMove move w d).1 :=
    fun _ _ => rfl
  obtain ⟨⟨d, log⟩, hd, hrecorded⟩ :=
    exists_usbStep b.recording_hom hmove h.bridge (d := (s.2, r.delivered)) rfl hstep
  have hbridge := (snd_eq_of_usbStep h.bridge hstep).1
  have hok' : NoLeftovers (s.1.onBridge b.recording, (s.2, r.delivered)) a := by
    cases a <;> exact hok
  have hnext : r.next (s.1.onBridge b.recording, (s.2, r.delivered)) a = r.next s a := by
    cases a <;> rfl
  have hinv := h.recorded.step hok' hrecorded
  rw [hnext] at hinv
  have hlog : log = (r.next s a).delivered := hinv.log
  have hafter := congrArg Prod.snd (snd_eq_of_usbStep (b := b.recording) rfl hrecorded).2
  rw [snd_afterAction_recording, ← bridgeCall_over b.recording_hom rfl] at hafter
  have hover : carry b Prod.fst (s.1.onBridge b.recording, (s.2, r.delivered)) = s :=
    Prod.ext (onBridge_eq_self h.bridge) rfl
  rw [hover] at hafter
  refine ⟨⟨hbridge, ?_⟩, hlog.symm.trans hafter⟩
  rw [← hlog]
  cases hd
  exact hinv

end

/-- The packets that are queued for firmware are what is taken from the bridge. -/
lemma flatten_bulkOutQueued {s s' : UsbState UsbCdcTcp} {a : UsbAction HostMove}
    (hb : s.1.bridge = some UsbCdcTcp.usbBridge) (hendpoint : s.1.bulkOutEndpoint = some bulkOut)
    (ha : HostIsVirtual a) (hstep : usbStep hostMove s a = some s') :
    s'.1.bulkOutEndpoint = some bulkOut ∧
      (bulkOutQueued s.1 s'.1).flatten = takenBy UsbCdcTcp.usbBridge s.2 (bridgeCall s a) := by
  have hmove : ∀ w (d : UsbCdcTcp × List U8), hostMove w d.1 =
      (recordingTakesMove hostMove w d).1 :=
    fun _ _ => rfl
  obtain ⟨⟨d, log⟩, hd, hrecorded⟩ :=
    exists_usbStep UsbCdcTcp.usbBridge.recordingTakes_hom hmove hb (d := (s.2, [])) rfl hstep
  have hon : OnBridge (s.1.onBridge UsbCdcTcp.usbBridge.recordingTakes) := ⟨rfl, hendpoint⟩
  obtain ⟨hon', hcases⟩ := OnBridge.step
    (s := (s.1.onBridge UsbCdcTcp.usbBridge.recordingTakes, (s.2, []))) hon ha hrecorded
  refine ⟨hon'.endpoint, ?_⟩
  have hafter := congrArg Prod.snd
    (snd_eq_of_usbStep (b := UsbCdcTcp.usbBridge.recordingTakes) rfl hrecorded).2
  rw [snd_afterAction_recordingTakes, ← bridgeCall_over UsbCdcTcp.usbBridge.recordingTakes_hom rfl,
    List.nil_append] at hafter
  have hover : carry UsbCdcTcp.usbBridge Prod.fst
      (s.1.onBridge UsbCdcTcp.usbBridge.recordingTakes, (s.2, ([] : List U8))) = s :=
    Prod.ext (onBridge_eq_self hb) rfl
  rw [hover] at hafter
  rw [← hafter]
  rcases hcases with ⟨bytes, hqueued, -, hlog⟩ | hquiet
  · have hqueued' : bulkOutQueued s.1 s'.1 = [bytes] := hqueued
    rw [hqueued', List.flatten_singleton]
    exact hlog.symm
  · have hqueued' : bulkOutQueued s.1 s'.1 = [] := hquiet.queued
    rw [hqueued']
    exact hquiet.log.symm

/-! ## The record -/

/-- One direction, since the host last connected. -/
structure StreamRecord where
  written : List U8
  read : List U8
  /-- Whatever was written found room in the queue. -/
  fits : Bool
  deriving DecidableEq

namespace StreamRecord

def empty : StreamRecord := ⟨[], [], true⟩

/-- Some bytes are written to the queue, and some are read. -/
def next (r : StreamRecord) (queue items got : List U8) : StreamRecord :=
  ⟨r.written ++ items, r.read ++ got, r.fits && decide ((queue ++ items).length ≤ 65536)⟩

end StreamRecord

/-- The link of a bridge that has one. -/
def UsbCdcTcp.link (bridge : UsbCdcTcp) : EmbeddedCdcState := bridge.embedded.getD .new

/-- The host connects, and succeeds. -/
def hostConnects (link : EmbeddedCdcState) : UsbAction HostMove → Bool
  | .outside .connect => link.connect.2
  | _ => false

/-- The bytes that the link takes from the host. -/
def hostWrites (link : EmbeddedCdcState) : UsbAction HostMove → List U8
  | .outside (.writeFromHost bytes) => if (link.writeFromHost bytes).2 then bytes else []
  | _ => []

/-- The bytes that the host gets. -/
def hostReads (link : EmbeddedCdcState) : UsbAction HostMove → List U8
  | .outside (.readForHost target) => (link.readForHost target).2
  | _ => []

/-- The transfers to the host that firmware completes. -/
def firmwareSends (r : BulkInRecord) (s : UsbState UsbCdcTcp) (a : UsbAction HostMove) :
    List (List U8) :=
  (r.next s a).delivered.drop r.delivered.length

/-- The packets that are queued for firmware. -/
def firmwareReceives (s : UsbState UsbCdcTcp) (a : UsbAction HostMove) : List (List U8) :=
  (usbStep hostMove s a).elim [] fun s' => bulkOutQueued s.1 s'.1

/-- What firmware and the host have exchanged. -/
structure CdcRecord where
  /-- The transfers of firmware, in the whole run. -/
  transfers : BulkInRecord
  toHost : StreamRecord
  toDevice : StreamRecord
  deriving DecidableEq

/-- One action's effect on the record. -/
def CdcRecord.next (r : CdcRecord) (s : UsbState UsbCdcTcp) (a : UsbAction HostMove) :
    CdcRecord where
  transfers := r.transfers.next s a
  toHost :=
    if hostConnects s.2.link a then .empty
    else r.toHost.next s.2.link.deviceToHost (firmwareSends r.transfers s a).flatten
      (hostReads s.2.link a)
  toDevice :=
    if hostConnects s.2.link a then .empty
    else r.toDevice.next s.2.link.hostToDevice (hostWrites s.2.link a)
      (firmwareReceives s a).flatten

/-! ## The accounts of the streams -/

/-- A ledger that has the bytes of the record, and has lost nothing in a session in which all
fitted. -/
structure Accounts (l : QueueLedger U8) (r : StreamRecord) (session : Bool) : Prop where
  written : l.written = r.written
  read : l.read = r.read
  lossless : session = true → r.fits = true → l.Lossless 65536

namespace Accounts

variable {l : QueueLedger U8} {r : StreamRecord} {session session' : Bool}

lemma empty (session : Bool) : Accounts .empty .empty session :=
  ⟨rfl, rfl, fun _ _ => QueueLedger.lossless_empty⟩

lemma idle (h : Accounts l r session) (queue : List U8) :
    Accounts l (r.next queue [] []) session := by
  refine ⟨h.written.trans (List.append_nil _).symm, h.read.trans (List.append_nil _).symm,
    fun hsession hfits => ?_⟩
  exact h.lossless hsession (Bool.and_eq_true_iff.mp hfits).1

lemma take (h : Accounts l r session) (queue got : List U8) :
    Accounts (l.take got) (r.next queue [] got) session := by
  refine ⟨h.written.trans (List.append_nil _).symm, congrArg (· ++ got) h.read,
    fun hsession hfits => ?_⟩
  exact (h.lossless hsession (Bool.and_eq_true_iff.mp hfits).1).take got

lemma push (h : Accounts l r session) (hsame : session' = true → session = true)
    (items queue queue' : List U8) :
    Accounts (l.push items queue queue' (!session')) (r.next queue items []) session' := by
  refine ⟨congrArg (· ++ items) h.written, h.read.trans (List.append_nil _).symm,
    fun hsession hfits => ?_⟩
  obtain ⟨hfits, hroom⟩ := Bool.and_eq_true_iff.mp hfits
  rw [hsession]
  exact (h.lossless (hsame hsession) hfits).push (of_decide_eq_true hroom) queue'

/-- The stream of a session. -/
lemma stream (h : Accounts l r session) {queue : List U8} (hbalanced : l.Balanced 65536 queue) :
    (r.read ++ queue).Sublist r.written ∧
      (session = true → r.fits = true → r.written = r.read ++ queue) := by
  rw [← h.written, ← h.read]
  exact ⟨hbalanced.sublist, fun hsession hfits =>
    hbalanced.eq_of_lossless (h.lossless hsession hfits)⟩

end Accounts

/-- The ledgers after an operation, if there is one. -/
def observed (g : LinkLedgers) (link : EmbeddedCdcState) (op : Option LinkOp) : LinkLedgers :=
  op.elim g fun op => g.observe op (linkStep link op).2 link (linkStep link op).1

lemma LinkBalanced.observed {link : EmbeddedCdcState} {g : LinkLedgers} (h : LinkBalanced link g)
    (op : Option LinkOp) : LinkBalanced (afterOp link op) (observed g link op) := by
  cases op with
  | none => exact h
  | some op => exact h.step op

section

variable {link : EmbeddedCdcState} {g : LinkLedgers} {r : StreamRecord}

/-- An action is a move of the host, or one of the controller, of which the host notices nothing. -/
lemma outside_or_call (link : EmbeddedCdcState) (s : UsbState UsbCdcTcp) (a : UsbAction HostMove) :
    (∃ move, a = .outside move) ∨ linkOp s a = (bridgeCall s a).map BridgeCall.linkOp ∧
      hostConnects link a = false ∧ hostReads link a = [] ∧ hostWrites link a = [] := by
  cases a with
  | outside move => exact Or.inl ⟨move, rfl⟩
  | _ => exact Or.inr ⟨rfl, rfl, rfl, rfl⟩

/-- A connect opens a new account if it succeeds, and else leaves the account of either direction as
it is. -/
lemma Accounts.connect {ledger : LinkLedgers → QueueLedger U8} {queue queue' : List U8}
    (h : Accounts (ledger g) r g.session) (hempty : ledger (.empty true) = .empty)
    (hwrite : ledger (g.write .connect (linkStep link .connect).2 link (linkStep link .connect).1) =
      (ledger g).push [] queue queue'
        (!sessionAfter g.session .connect (linkStep link .connect).2)) :
    Accounts
      (ledger (g.observe .connect (linkStep link .connect).2 link (linkStep link .connect).1))
      (if hostConnects link (.outside .connect : UsbAction HostMove) then .empty
        else r.next queue [] [])
      (g.observe .connect (linkStep link .connect).2 link (linkStep link .connect).1).session := by
  by_cases hconnect : hostConnects link (.outside .connect) = true
  · have hreply : (linkStep link .connect).2.ok = true := hconnect
    rw [if_pos hconnect, LinkLedgers.observe, if_pos hreply, hempty]
    exact Accounts.empty _
  · have hreply : ¬ (linkStep link .connect).2.ok = true := hconnect
    rw [if_neg hconnect, LinkLedgers.observe, if_neg hreply, hwrite]
    exact h.push (session_of_sessionAfter .connect fun _ =>
      Bool.not_eq_true _ |>.mp hreply) [] queue _

/-- The stream to the host, after one action. -/
lemma Accounts.toHost (h : Accounts g.toHost r g.session) (s : UsbState UsbCdcTcp)
    (a : UsbAction HostMove) :
    Accounts (observed g link (linkOp s a)).toHost
      (if hostConnects link a then .empty
        else r.next link.deviceToHost (pushedBy (bridgeCall s a)).flatten (hostReads link a))
      (observed g link (linkOp s a)).session := by
  rcases outside_or_call link s a with ⟨move, rfl⟩ | ⟨hop, hconnects, hreads, -⟩
  · cases move with
    | poll io => exact h.idle _
    | disconnect =>
      exact h.push (session_of_sessionAfter .disconnect LinkOp.noConfusion) [] link.deviceToHost _
    | writeFromHost bytes =>
      exact h.push (session_of_sessionAfter (.writeFromHost bytes) LinkOp.noConfusion)
        [] link.deviceToHost _
    | readForHost target => exact h.take _ _
    | connect => exact Accounts.connect h rfl rfl
  · rw [hop, hconnects, hreads, if_neg Bool.false_ne_true]
    rcases bridgeCall s a with _ | call
    · exact h.idle _
    cases call with
    | push bytes =>
      simp only [pushedBy, List.flatten_singleton]
      exact h.push (session_of_sessionAfter (.writeFromDevice bytes) LinkOp.noConfusion) bytes
        link.deviceToHost _
    | take maximum => exact h.idle _
    | stage next =>
      exact h.push (session_of_sessionAfter (.setProtocolStage next) LinkOp.noConfusion)
        [] link.deviceToHost _

/-- The stream to the device, after one action. -/
lemma Accounts.toDevice (h : Accounts g.toDevice r g.session) {s : UsbState UsbCdcTcp}
    (hlink : s.2.embedded = some link) (a : UsbAction HostMove) :
    Accounts (observed g link (linkOp s a)).toDevice
      (if hostConnects link a then .empty
        else r.next link.hostToDevice (hostWrites link a)
          (takenBy UsbCdcTcp.usbBridge s.2 (bridgeCall s a)))
      (observed g link (linkOp s a)).session := by
  rcases outside_or_call link s a with ⟨move, rfl⟩ | ⟨hop, hconnects, -, hwrites⟩
  · cases move with
    | poll io => exact h.idle _
    | disconnect =>
      exact h.push (session_of_sessionAfter .disconnect LinkOp.noConfusion) [] link.hostToDevice _
    | writeFromHost bytes =>
      exact h.push (session_of_sessionAfter (.writeFromHost bytes) LinkOp.noConfusion) _
        link.hostToDevice _
    | readForHost target => exact h.idle _
    | connect => exact Accounts.connect h rfl rfl
  · rw [hop, hconnects, hwrites, if_neg Bool.false_ne_true]
    rcases bridgeCall s a with _ | call
    · exact h.idle _
    cases call with
    | push bytes =>
      exact h.push (session_of_sessionAfter (.writeFromDevice bytes) LinkOp.noConfusion) []
        link.hostToDevice _
    | take maximum =>
      have htaken : takenBy UsbCdcTcp.usbBridge s.2 (some (.take maximum)) =
          (link.readForDevice maximum).2 := by
        simp only [takenBy, UsbCdcTcp.usbBridge, UsbCdcTcp.takeForDevice, hlink]
      rw [htaken]
      exact h.take _ _
    | stage next =>
      exact h.push (session_of_sessionAfter (.setProtocolStage next) LinkOp.noConfusion)
        [] link.hostToDevice _

end

/-! ## Whole runs -/

/-- The machine with the record of the session. -/
def cdcStep : UsbState UsbCdcTcp × CdcRecord → UsbAction HostMove →
    Option (UsbState UsbCdcTcp × CdcRecord) :=
  withGhost (usbStep hostMove) CdcRecord.next

/-- Power-on, with nothing exchanged. -/
def cdcPowerOn (bridge : UsbCdcTcp) : UsbState UsbCdcTcp × CdcRecord :=
  ((OtgFs.new (some UsbCdcTcp.usbBridge), bridge), ⟨⟨[], []⟩, .empty, .empty⟩)

/-- The link of the machine, with its ledgers. -/
structure OnLink (s : UsbState UsbCdcTcp) (link : EmbeddedCdcState) (g : LinkLedgers) : Prop where
  bridge : s.1.bridge = some UsbCdcTcp.usbBridge
  embedded : s.2.embedded = some link
  balanced : LinkBalanced link g

lemma OnLink.step {s s' : UsbState UsbCdcTcp} {link : EmbeddedCdcState} {g : LinkLedgers}
    (h : OnLink s link g) {a : UsbAction HostMove} (hstep : usbStep hostMove s a = some s') :
    OnLink s' (afterOp link (linkOp s a)) (observed g link (linkOp s a)) := by
  obtain ⟨hbridge, hlink⟩ := embedded_of_usbStep h.bridge h.embedded hstep
  exact ⟨hbridge, hlink, h.balanced.observed _⟩

lemma OnLink.link_eq {s : UsbState UsbCdcTcp} {link : EmbeddedCdcState} {g : LinkLedgers}
    (h : OnLink s link g) :
    s.2.link = link := by
  rw [UsbCdcTcp.link, h.embedded]
  rfl

/-- A bridge that has just been created on a new link. -/
lemma OnLink.powerOn {maxBufferedBytes : ℕ} {bridge : UsbCdcTcp}
    (hnew : UsbCdcTcp.new maxBufferedBytes (some EmbeddedCdcState.new) = some bridge) :
    OnLink (OtgFs.new (some UsbCdcTcp.usbBridge), bridge) EmbeddedCdcState.new.attachDevice
      (.empty false) := by
  unfold UsbCdcTcp.new at hnew
  split at hnew
  · cases hnew
  · cases hnew
    exact ⟨rfl, rfl, rfl, rfl, nofun, fun _ => ⟨rfl, rfl⟩, .empty _, .empty _⟩

section

variable {maxBufferedBytes : ℕ} {bridge : UsbCdcTcp} {as : List (UsbAction HostMove)}
    {s : UsbState UsbCdcTcp}
  {r : CdcRecord}

/-- **The stream of firmware reaches the host.**  In every run from power-on that leaves nothing
over in the FIFO, what the host has read since it connected, followed by what waits for it, is in
order part of the transfers that firmware has completed since then; in a session in which the queue
never overflowed it is all of them. -/
theorem firmware_stream_reaches_host
    (hnew : UsbCdcTcp.new maxBufferedBytes (some EmbeddedCdcState.new) = some bridge)
    (hrun : Run (guardedStep (fun p a => NoLeftovers p.1 a) (stepRel cdcStep))
      (cdcPowerOn bridge) as (s, r)) :
    (r.toHost.read ++ s.2.link.deviceToHost).Sublist r.toHost.written ∧
      (s.2.link.hostConnected = true → r.toHost.fits = true →
        r.toHost.written = r.toHost.read ++ s.2.link.deviceToHost) := by
  have hinv : Transfers UsbCdcTcp.usbBridge s r.transfers ∧
      ∃ link g, OnLink s link g ∧ Accounts g.toHost r.toHost g.session := by
    refine hrun.invariant_state (I := fun p => Transfers UsbCdcTcp.usbBridge p.1 p.2.transfers ∧
      ∃ link g, OnLink p.1 link g ∧ Accounts g.toHost p.2.toHost g.session) ?_ ?_
    · exact ⟨⟨rfl, BulkInInvariant.new _ _⟩, _, _, .powerOn hnew, .empty _⟩
    · rintro ⟨s, r⟩ ⟨s', r'⟩ a ⟨htransfers, link, g, hlink, haccounts⟩ ⟨hok, hstep⟩
      obtain ⟨hstep, rfl⟩ := withGhost_eq_some.mp hstep
      obtain ⟨htransfers', hdelivered⟩ := htransfers.step hok hstep
      refine ⟨htransfers', _, _, hlink.step hstep, ?_⟩
      have hsends : firmwareSends r.transfers s a = pushedBy (bridgeCall s a) := by
        rw [firmwareSends, hdelivered, List.drop_left]
      simp only [CdcRecord.next, hlink.link_eq, hsends]
      exact haccounts.toHost s a
  obtain ⟨-, link, g, hlink, haccounts⟩ := hinv
  rw [hlink.link_eq, ← hlink.balanced.session]
  exact haccounts.stream hlink.balanced.toHost.balanced

/-- The host connects to an enumerated device and writes three bytes; firmware takes them and sends
three others, of which the host reads two. -/
def sampleExchange : List (UsbAction HostMove) :=
  List.replicate 5 (.write 0x900 0x80000000) ++
    [.outside .connect, .outside (.writeFromHost [0x41, 0x42, 0x43]), .write 0xb50 64,
      .write 0xb40 0x80000000, .poll Nvic.default 0, .write 0x950 3, .write 0x940 0x80000000,
      .write 0x3000 0x00ff0042, .outside (.readForHost 2)]

/-- The third byte waits for the host. -/
theorem firmware_stream_reaches_host_sample :
    ∃ s r, Run (guardedStep (fun p a => NoLeftovers p.1 a) (stepRel cdcStep))
      (cdcPowerOn linkedBridge) sampleExchange (s, r) ∧
      r.toHost = ⟨[0x42, 0x00, 0xff], [0x42, 0x00], true⟩ ∧ s.2.link.deviceToHost = [0xff] := by
  have hexec : (execGuarded (fun p a => NoLeftovers p.1 a) cdcStep
      (cdcPowerOn linkedBridge) sampleExchange).map
      (fun p => (p.2.toHost, p.1.2.link.hostConnected)) =
        some (⟨[0x42, 0x00, 0xff], [0x42, 0x00], true⟩, true) := by
    decide +kernel
  obtain ⟨⟨s, r⟩, hexec, hvalues⟩ := Option.map_eq_some_iff.mp hexec
  obtain ⟨htoHost, hconnected⟩ := Prod.mk.inj hvalues
  have hrun := Run.of_execGuarded hexec
  have hnew : UsbCdcTcp.new 65536 (some EmbeddedCdcState.new) = some linkedBridge := by decide
  have hstream := (firmware_stream_reaches_host hnew hrun).2 hconnected
  dsimp only at htoHost
  rw [htoHost] at hstream
  have hwaiting : [0x42, 0x00] ++ [0xff] = [0x42, 0x00] ++ s.2.link.deviceToHost := hstream rfl
  exact ⟨s, r, hrun, htoHost, (List.append_cancel_left hwaiting).symm⟩

/-- **The stream of the host reaches firmware.**  In every run from power-on with the virtual host,
the packets queued for firmware since the host connected, followed by what waits to be sent, are in
order part of what the link has taken from the host since then; in a session in which the queue
never overflowed they are all of it. -/
theorem host_stream_reaches_firmware
    (hnew : UsbCdcTcp.new maxBufferedBytes (some EmbeddedCdcState.new) = some bridge)
    (hrun : Run (guardedStep (fun _ a => HostIsVirtual a) (stepRel cdcStep))
      (cdcPowerOn bridge) as (s, r)) :
    (r.toDevice.read ++ s.2.link.hostToDevice).Sublist r.toDevice.written ∧
      (s.2.link.hostConnected = true → r.toDevice.fits = true →
        r.toDevice.written = r.toDevice.read ++ s.2.link.hostToDevice) := by
  have hinv : s.1.bulkOutEndpoint = some bulkOut ∧
      ∃ link g, OnLink s link g ∧ Accounts g.toDevice r.toDevice g.session := by
    refine hrun.invariant_state (I := fun p => p.1.1.bulkOutEndpoint = some bulkOut ∧
      ∃ link g, OnLink p.1 link g ∧ Accounts g.toDevice p.2.toDevice g.session) ?_ ?_
    · exact ⟨rfl, _, _, .powerOn hnew, .empty _⟩
    · rintro ⟨s, r⟩ ⟨s', r'⟩ a ⟨hendpoint, link, g, hlink, haccounts⟩ ⟨ha, hstep⟩
      obtain ⟨hstep, rfl⟩ := withGhost_eq_some.mp hstep
      obtain ⟨hendpoint', hqueued⟩ := flatten_bulkOutQueued hlink.bridge hendpoint ha hstep
      refine ⟨hendpoint', _, _, hlink.step hstep, ?_⟩
      have hreceives : (firmwareReceives s a).flatten =
          takenBy UsbCdcTcp.usbBridge s.2 (bridgeCall s a) := by
        rw [firmwareReceives, hstep]
        exact hqueued
      simp only [CdcRecord.next, hlink.link_eq, hreceives]
      exact haccounts.toDevice hlink.embedded a
  obtain ⟨-, link, g, hlink, haccounts⟩ := hinv
  rw [hlink.link_eq, ← hlink.balanced.session]
  exact haccounts.stream hlink.balanced.toDevice.balanced

/-- The three bytes arrive in one packet. -/
theorem host_stream_reaches_firmware_sample :
    ∃ s r, Run (guardedStep (fun _ a => HostIsVirtual a) (stepRel cdcStep))
      (cdcPowerOn linkedBridge) sampleExchange (s, r) ∧
      r.toDevice = ⟨[0x41, 0x42, 0x43], [0x41, 0x42, 0x43], true⟩ ∧ s.2.link.hostToDevice = [] := by
  have hexec : (execGuarded (fun _ a => HostIsVirtual a) cdcStep
      (cdcPowerOn linkedBridge) sampleExchange).map
      (fun p => (p.2.toDevice, p.1.2.link.hostConnected)) =
        some (⟨[0x41, 0x42, 0x43], [0x41, 0x42, 0x43], true⟩, true) := by
    decide +kernel
  obtain ⟨⟨s, r⟩, hexec, hvalues⟩ := Option.map_eq_some_iff.mp hexec
  obtain ⟨htoDevice, hconnected⟩ := Prod.mk.inj hvalues
  have hrun := Run.of_execGuarded hexec
  have hnew : UsbCdcTcp.new 65536 (some EmbeddedCdcState.new) = some linkedBridge := by decide
  have hstream := (host_stream_reaches_firmware hnew hrun).2 hconnected
  dsimp only at htoDevice
  rw [htoDevice] at hstream
  have hwaiting : [0x41, 0x42, 0x43] ++ [] = [0x41, 0x42, 0x43] ++ s.2.link.hostToDevice :=
    hstream rfl
  exact ⟨s, r, hrun, htoDevice, (List.append_cancel_left hwaiting).symm⟩

end

end Stm32Emulator
