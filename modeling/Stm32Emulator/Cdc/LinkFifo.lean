import Stm32Emulator.Cdc.EmbeddedLink

/-!
# The queues of the embedded link

Both queues of `EmbeddedCdcState` are accounted for by a `QueueLedger` that starts anew with every
successful connect.  The ledgers only observe the operations: their arguments, their replies and the
queues before and after.  A session starts with a connect that succeeds and lasts until the host
disconnects, the device is detached or a stage is set in which the protocol is not ready
(`sessionAfter`).  That both accounts balance after every sequence of operations says that the
queues are first-in-first-out, that they lose bytes only to an overflow or, after the session, to
its end, and that nothing outlives its session.
-/

namespace Stm32Emulator

namespace EmbeddedCdcState

/-- A capped push keeps the newest bytes. -/
lemma pushCapped_eq_keepLast (queue bytes : List U8) (capacity : ℕ) :
    pushCapped queue bytes capacity = keepLast capacity (queue ++ bytes) := by
  have hdrop : queue.drop (min (queue.length + bytes.length - capacity) queue.length) =
      queue.drop (queue.length + bytes.length - capacity) := by
    rcases Nat.le_total (queue.length + bytes.length - capacity) queue.length with h | h
    · rw [min_eq_left h]
    · rw [min_eq_right h, List.drop_length, List.drop_of_length_le h]
  unfold pushCapped keepLast
  dsimp only
  rw [hdrop, List.length_append, List.drop_append]
  split
  · next h =>
    congr 2
    omega
  · next h =>
    rw [show queue.length + bytes.length - capacity - queue.length = 0 by omega, List.drop_zero]

lemma connect_ok (link : EmbeddedCdcState) : link.connect.2 = link.protocolReady := by
  unfold connect protocolReady
  split
  · next h => exact (decide_eq_false h).symm
  · next h => exact (decide_eq_true (not_not.mp h)).symm

lemma writeFromHost_ok (link : EmbeddedCdcState) (bytes : List U8) :
    (link.writeFromHost bytes).2 = (link.hostConnected && link.protocolReady) := by
  unfold writeFromHost protocolReady
  cases link.hostConnected <;> by_cases hready : link.stage = .protocolReady <;> simp [hready]

end EmbeddedCdcState

/-! ## Observing the operations -/

/-- Whether there is a session after an operation. -/
def sessionAfter (session : Bool) (op : LinkOp) (reply : LinkReply) : Bool :=
  match op with
  | .connect => session || reply.ok
  | .disconnect | .detachDevice => false
  | .setProtocolStage stage => session && stage = .protocolReady
  | _ => session

/-- Whether there is a session, and the ledgers of the two queues. -/
structure LinkLedgers where
  session : Bool
  toDevice : QueueLedger U8
  toHost : QueueLedger U8

namespace LinkLedgers

/-- Nothing has been exchanged. -/
def empty (session : Bool) : LinkLedgers := ⟨session, .empty, .empty⟩

/-- The bytes that the host hands over for the device. -/
def hostBytes (reply : LinkReply) : LinkOp → List U8
  | .writeFromHost bytes => if reply.ok then bytes else []
  | _ => []

/-- The bytes that the device hands over for the host. -/
def deviceBytes : LinkOp → List U8
  | .writeFromDevice bytes => bytes
  | _ => []

/-- An operation that may write is entered; what it loses is lost to the end of the session if there
is none after it. -/
def write (g : LinkLedgers) (op : LinkOp) (reply : LinkReply) (link link' : EmbeddedCdcState) :
    LinkLedgers where
  session := sessionAfter g.session op reply
  toDevice := g.toDevice.push (hostBytes reply op) link.hostToDevice link'.hostToDevice
    (!sessionAfter g.session op reply)
  toHost := g.toHost.push (deviceBytes op) link.deviceToHost link'.deviceToHost
    (!sessionAfter g.session op reply)

/-- What an operation, its reply and the queues around it add to the ledgers. -/
def observe (g : LinkLedgers) (op : LinkOp) (reply : LinkReply) (link link' : EmbeddedCdcState) :
    LinkLedgers :=
  match op with
  | .connect => if reply.ok then empty true else g.write op reply link link'
  | .readForHost _ => { g with toHost := g.toHost.take reply.bytes }
  | .readForDevice _ => { g with toDevice := g.toDevice.take reply.bytes }
  | op => g.write op reply link link'

end LinkLedgers

/-- One operation of an observed link. -/
def observedStep (p : EmbeddedCdcState × LinkLedgers) (op : LinkOp) :
    EmbeddedCdcState × LinkLedgers :=
  ((linkStep p.1 op).1, p.2.observe op (linkStep p.1 op).2 p.1 (linkStep p.1 op).1)

/-- A sequence of operations on a new link. -/
def observedRun (ops : List LinkOp) : EmbeddedCdcState × LinkLedgers :=
  ops.foldl observedStep (EmbeddedCdcState.new, LinkLedgers.empty false)

/-! ## The accounts -/

/-- The account of a queue balances, and while the session lasts nothing has been lost to its
end. -/
structure SessionBalanced (session : Bool) (ledger : QueueLedger U8) (queue : List U8) : Prop where
  balanced : ledger.Balanced 65536 queue
  ended : session = true → ∀ items, Departure.ended items ∉ ledger.left

namespace SessionBalanced

variable {session session' : Bool} {ledger : QueueLedger U8} {queue : List U8}

lemma empty (session : Bool) : SessionBalanced session .empty [] :=
  ⟨.empty, fun _ _ => List.not_mem_nil⟩

lemma take (h : SessionBalanced session ledger queue) (n : ℕ) :
    SessionBalanced session (ledger.take (queue.take n)) (queue.drop n) := by
  refine ⟨h.balanced.take n, fun hsession items hmem => ?_⟩
  simp only [QueueLedger.take, List.mem_append, List.mem_singleton, reduceCtorEq, or_false] at hmem
  exact h.ended hsession items hmem

lemma push (h : SessionBalanced session ledger queue) (hsession : session' = true → session = true)
    {items queue' : List U8} (hcapped : session' = true → queue' = keepLast 65536 (queue ++ items))
    (hended : session' = false → queue' = []) :
    SessionBalanced session' (ledger.push items queue queue' (!session')) queue' := by
  refine ⟨h.balanced.push (fun hlasts => hcapped (by simpa using hlasts))
    (fun hends => hended (by simpa using hends)), fun hlasts items hmem => ?_⟩
  subst hlasts
  simp only [QueueLedger.push, Bool.not_true, Bool.false_eq_true, if_false, List.mem_append,
    List.mem_singleton, reduceCtorEq, or_false] at hmem
  exact h.ended (hsession rfl) items hmem

end SessionBalanced

/-- The session is the flag of the link, both accounts balance, and without a session nothing is
queued. -/
structure LinkBalanced (link : EmbeddedCdcState) (g : LinkLedgers) : Prop where
  maxBufferedBytes : link.maxBufferedBytes = 65536
  session : g.session = link.hostConnected
  detached : link.stage = .detached → g.session = false
  empty : g.session = false → link.hostToDevice = [] ∧ link.deviceToHost = []
  toDevice : SessionBalanced g.session g.toDevice link.hostToDevice
  toHost : SessionBalanced g.session g.toHost link.deviceToHost

/-- Only a connect that succeeds starts a session. -/
lemma session_of_sessionAfter {session : Bool} (op : LinkOp) {reply : LinkReply}
    (hop : op = .connect → reply.ok = false) (h : sessionAfter session op reply = true) :
    session = true := by
  cases op with
  | connect => simpa [sessionAfter, hop rfl] using h
  | setProtocolStage stage => exact (Bool.and_eq_true_iff.mp h).1
  | disconnect | detachDevice => cases h
  | _ => exact h

namespace LinkBalanced

open EmbeddedCdcState LinkLedgers

variable {link link' : EmbeddedCdcState} {g : LinkLedgers}

lemma new : LinkBalanced EmbeddedCdcState.new (LinkLedgers.empty false) :=
  ⟨rfl, rfl, fun _ => rfl, fun _ => ⟨rfl, rfl⟩, .empty _, .empty _⟩

lemma keepLast_toDevice (h : LinkBalanced link g) :
    keepLast 65536 (link.hostToDevice ++ []) = link.hostToDevice := by
  rw [List.append_nil, keepLast_of_length_le h.toDevice.balanced.length_le]

lemma keepLast_toHost (h : LinkBalanced link g) :
    keepLast 65536 (link.deviceToHost ++ []) = link.deviceToHost := by
  rw [List.append_nil, keepLast_of_length_le h.toHost.balanced.length_le]

/-- What an operation that is entered as a write does to the queues: after the session they are
empty, and in a session the bytes are pushed. -/
structure Writes (session : Bool) (op : LinkOp) (reply : LinkReply)
    (link link' : EmbeddedCdcState) : Prop where
  ended : session = false → link'.hostToDevice = [] ∧ link'.deviceToHost = []
  toDevice : session = true →
    link'.hostToDevice = keepLast 65536 (link.hostToDevice ++ hostBytes reply op)
  toHost : session = true →
    link'.deviceToHost = keepLast 65536 (link.deviceToHost ++ deviceBytes op)

/-- An operation that does what a write does keeps the accounts. -/
lemma write (h : LinkBalanced link g) {op : LinkOp} {reply : LinkReply}
    (hop : op = .connect → reply.ok = false)
    (hmax : link'.maxBufferedBytes = link.maxBufferedBytes)
    (hsession : sessionAfter g.session op reply = link'.hostConnected)
    (hdetached : link'.stage = .detached → sessionAfter g.session op reply = false)
    (hwrites : Writes (sessionAfter g.session op reply) op reply link link') :
    LinkBalanced link' (g.write op reply link link') where
  maxBufferedBytes := hmax.trans h.maxBufferedBytes
  session := hsession
  detached := hdetached
  empty := hwrites.ended
  toDevice := h.toDevice.push (session_of_sessionAfter op hop) hwrites.toDevice
    fun hends => (hwrites.ended hends).1
  toHost := h.toHost.push (session_of_sessionAfter op hop) hwrites.toHost
    fun hends => (hwrites.ended hends).2

/-- Nothing is written, and the session and the queues stay as they are. -/
lemma writes_same (h : LinkBalanced link g) {op : LinkOp} {reply : LinkReply}
    (hdevice : link'.hostToDevice = link.hostToDevice)
    (hhost : link'.deviceToHost = link.deviceToHost)
    (hlost : g.session = true → hostBytes reply op = [] ∧ deviceBytes op = []) :
    Writes g.session op reply link link' where
  ended := by
    rw [hdevice, hhost]
    exact h.empty
  toDevice := by
    intro hsession
    rw [hdevice, (hlost hsession).1]
    exact h.keepLast_toDevice.symm
  toHost := by
    intro hsession
    rw [hhost, (hlost hsession).2]
    exact h.keepLast_toHost.symm

/-- The session is over, and the queues are empty. -/
lemma writes_ended {op : LinkOp} {reply : LinkReply} (hdevice : link'.hostToDevice = [])
    (hhost : link'.deviceToHost = []) : Writes false op reply link link' :=
  ⟨fun _ => ⟨hdevice, hhost⟩, nofun, nofun⟩

/-- An operation that only reads the queue to the device or that to the host. -/
lemma read (h : LinkBalanced link g) {toDevice toHost : List U8} {g' : LinkLedgers}
    (hsession : g'.session = g.session)
    (hempty : g.session = false → toDevice = [] ∧ toHost = [])
    (htoDevice : SessionBalanced g.session g'.toDevice toDevice)
    (htoHost : SessionBalanced g.session g'.toHost toHost) :
    LinkBalanced { link with hostToDevice := toDevice, deviceToHost := toHost } g' :=
  ⟨h.maxBufferedBytes, hsession.trans h.session, hsession ▸ h.detached, hsession ▸ hempty,
    hsession ▸ htoDevice, hsession ▸ htoHost⟩

/-- A stage other than `protocolReady` ends the session, and so does any while the device is
detached. -/
lemma step_setProtocolStage (h : LinkBalanced link g) (stage : EmbeddedCdcStage) :
    LinkBalanced (linkStep link (.setProtocolStage stage)).1
      (g.observe (.setProtocolStage stage) (linkStep link (.setProtocolStage stage)).2 link
        (linkStep link (.setProtocolStage stage)).1) := by
  simp only [linkStep, observe, setProtocolStage]
  by_cases hdetached : link.stage = .detached
  · have hover : sessionAfter g.session (.setProtocolStage stage) ⟨true, []⟩ = false := by
      rw [sessionAfter, h.detached hdetached, Bool.false_and]
    rw [if_pos hdetached, if_pos (by simp)]
    refine h.write LinkOp.noConfusion rfl hover (fun _ => hover) ?_
    rw [hover]
    exact writes_ended rfl rfl
  · rw [if_neg hdetached]
    by_cases hready : stage = .protocolReady
    · have hsame : sessionAfter g.session (.setProtocolStage stage) ⟨true, []⟩ = g.session := by
        rw [sessionAfter, decide_eq_true hready, Bool.and_true]
      rw [if_neg (not_not.mpr hready)]
      refine h.write LinkOp.noConfusion rfl (hsame.trans h.session) (fun hstage => ?_) ?_
      · cases hready.symm.trans hstage
      · rw [hsame]
        exact h.writes_same rfl rfl fun _ => ⟨rfl, rfl⟩
    · have hover : sessionAfter g.session (.setProtocolStage stage) ⟨true, []⟩ = false := by
        rw [sessionAfter, decide_eq_false hready, Bool.and_false]
      rw [if_pos hready]
      refine h.write LinkOp.noConfusion rfl hover (fun _ => hover) ?_
      rw [hover]
      exact writes_ended rfl rfl

/-- Every operation keeps the accounts. -/
lemma step (h : LinkBalanced link g) (op : LinkOp) :
    LinkBalanced (linkStep link op).1
      (g.observe op (linkStep link op).2 link (linkStep link op).1) := by
  cases op with
  | connect =>
    simp only [linkStep, observe, connect]
    split
    · have hsame : sessionAfter g.session .connect ⟨false, []⟩ = g.session := Bool.or_false _
      refine h.write (fun _ => rfl) rfl (hsame.trans h.session) (fun hstage => ?_) ?_
      · exact hsame.trans (h.detached hstage)
      · rw [hsame]
        exact h.writes_same rfl rfl fun _ => ⟨rfl, rfl⟩
    · next hready =>
      rw [not_not] at hready
      refine ⟨h.maxBufferedBytes, rfl, fun hstage => ?_, fun _ => ⟨rfl, rfl⟩, .empty _, .empty _⟩
      cases hready.symm.trans hstage
  | disconnect => exact h.write LinkOp.noConfusion rfl rfl (fun _ => rfl) (writes_ended rfl rfl)
  | attachDevice =>
    exact h.write LinkOp.noConfusion rfl h.session EmbeddedCdcStage.noConfusion
      (h.writes_same rfl rfl fun _ => ⟨rfl, rfl⟩)
  | detachDevice => exact h.write LinkOp.noConfusion rfl rfl (fun _ => rfl) (writes_ended rfl rfl)
  | setProtocolStage stage => exact h.step_setProtocolStage stage
  | writeFromHost bytes =>
    simp only [linkStep, observe, writeFromHost]
    split
    · exact h.write LinkOp.noConfusion rfl h.session h.detached
        (h.writes_same rfl rfl fun _ => ⟨rfl, rfl⟩)
    · next hok =>
      have hconnected : g.session = true := by
        simp at hok
        exact h.session.trans hok.1
      refine h.write LinkOp.noConfusion rfl h.session h.detached
        ⟨fun hover => ?_, fun _ => ?_, fun _ => ?_⟩
      · cases hover.symm.trans hconnected
      · simp only [pushCapped_eq_keepLast, h.maxBufferedBytes, hostBytes, if_true]
      · simp only [deviceBytes, h.keepLast_toHost]
  | writeFromDevice bytes =>
    simp only [linkStep, observe, writeFromDevice]
    split
    · next hlost =>
      refine h.write LinkOp.noConfusion rfl h.session h.detached
        (h.writes_same rfl rfl fun hconnected => ?_)
      simp [← h.session, hconnected] at hlost
    · next hok =>
      have hconnected : g.session = true := h.session.trans (by simpa using hok)
      refine h.write LinkOp.noConfusion rfl h.session h.detached
        ⟨fun hover => ?_, fun _ => ?_, fun _ => ?_⟩
      · cases hover.symm.trans hconnected
      · simp only [hostBytes, h.keepLast_toDevice]
      · simp only [pushCapped_eq_keepLast, h.maxBufferedBytes, deviceBytes]
  | readForHost target =>
    refine h.read rfl (fun hover => ?_) h.toDevice (h.toHost.take _)
    obtain ⟨hdevice, hhost⟩ := h.empty hover
    rw [hhost, List.drop_nil]
    exact ⟨hdevice, rfl⟩
  | readForDevice maximum =>
    refine h.read rfl (fun hover => ?_) (h.toDevice.take _) h.toHost
    obtain ⟨hdevice, hhost⟩ := h.empty hover
    rw [hdevice, List.drop_nil]
    exact ⟨rfl, hhost⟩

lemma observedRun (ops : List LinkOp) :
    LinkBalanced (Stm32Emulator.observedRun ops).1 (Stm32Emulator.observedRun ops).2 := by
  induction ops using List.reverseRecOn with
  | nil => exact new
  | append_singleton ops op ih =>
    rw [Stm32Emulator.observedRun, List.foldl_concat]
    exact ih.step op

end LinkBalanced

/-- **The link is a pair of queues for each session.**  After every sequence of operations the link
is connected exactly in a session, a connect succeeds once the protocol is ready, and a host's bytes
are taken in a session whose protocol is ready.  The bytes written since the last connect are, in
order, those that left the queue and those still in it; those that left were read, or were the
oldest of a queue that would have exceeded its capacity, as many as it exceeded it by, or were left
over after the session; and nothing else was read. -/
theorem link_is_fifo (ops : List LinkOp) :
    let link := (observedRun ops).1
    let ledgers := (observedRun ops).2
    link.hostConnected = ledgers.session ∧
      (linkStep link .connect).2.ok = link.protocolReady ∧
      (∀ bytes, (linkStep link (.writeFromHost bytes)).2.ok =
        (ledgers.session && link.protocolReady)) ∧
      SessionBalanced ledgers.session ledgers.toHost link.deviceToHost ∧
      (ledgers.toHost.read ++ link.deviceToHost).Sublist ledgers.toHost.written ∧
      SessionBalanced ledgers.session ledgers.toDevice link.hostToDevice ∧
      (ledgers.toDevice.read ++ link.hostToDevice).Sublist ledgers.toDevice.written := by
  have h := LinkBalanced.observedRun ops
  refine ⟨h.session.symm, ?_, fun bytes => ?_, h.toHost, h.toHost.balanced.sublist, h.toDevice,
    h.toDevice.balanced.sublist⟩
  · exact EmbeddedCdcState.connect_ok _
  · rw [h.session]
    exact EmbeddedCdcState.writeFromHost_ok _ _

/-- The host connects, the device writes three bytes, of which it reads two, and it writes one
itself. -/
def sampleLinkOps : List LinkOp :=
  [.attachDevice, .setProtocolStage .protocolReady, .connect, .writeFromDevice [1, 2, 3],
    .readForHost 2, .writeFromHost [9]]

/-- In the session nothing is lost, and with the detached device it is over. -/
theorem link_is_fifo_sample :
    (observedRun sampleLinkOps).2.session = true ∧
      (observedRun sampleLinkOps).2.toHost.written =
        (observedRun sampleLinkOps).2.toHost.read ++ (observedRun sampleLinkOps).1.deviceToHost ∧
      (observedRun sampleLinkOps).2.toHost.read = [1, 2] ∧
      (observedRun sampleLinkOps).2.toDevice.written = [9] ∧
      (observedRun (sampleLinkOps ++ [.detachDevice])).2.session = false ∧
      (observedRun (sampleLinkOps ++ [.detachDevice])).1.deviceToHost = [] := by
  obtain ⟨-, -, -, htoHost, -, htoDevice, -⟩ := link_is_fifo sampleLinkOps
  have hlossless : (observedRun sampleLinkOps).2.toHost.Lossless 65536 := by
    have hleft : (observedRun sampleLinkOps).2.toHost.left =
        [.overflow 3 [], .taken [1, 2], .overflow 1 []] := by decide
    intro departure hmem
    rw [hleft] at hmem
    simp only [List.mem_cons, List.not_mem_nil, or_false] at hmem
    rcases hmem with rfl | rfl | rfl <;> decide
  exact ⟨by decide, htoHost.balanced.eq_of_lossless hlossless, by decide, by decide, by decide,
    by decide⟩

end Stm32Emulator
