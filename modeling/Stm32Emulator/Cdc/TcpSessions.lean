import Stm32Emulator.Cdc.TcpBridge

/-!
# Sessions of the bridge

A session is the time in which one client is held.  `SessionLog` divides the events of the bridge
into sessions; it is isolated if in every session what was sent to the client was pushed by the
device, and what the device took was received from the client, both in that session.

The bridge keeps its sessions apart as long as the device pushes nothing while no client is held:
such bytes wait in the queue for the next client.
-/

namespace Stm32Emulator

/-! ## The log of the sessions -/

structure TcpSession where
  client : ℕ
  pushed : List U8
  sent : List U8
  received : List U8
  taken : List U8
  deriving DecidableEq, Repr

/-- The client got bytes of this session only, and so did the device. -/
structure TcpSession.Isolated (session : TcpSession) : Prop where
  sent : session.sent.Sublist session.pushed
  taken : session.taken.Sublist session.received

/-- The sessions that are over, the one that is not, and what was sent or taken outside of any. -/
structure SessionLog where
  past : List TcpSession
  current : Option TcpSession
  stray : List U8
  deriving DecidableEq, Repr

namespace SessionLog

def empty : SessionLog := ⟨[], none, []⟩

/-- What one event adds to the log. -/
def observe (log : SessionLog) : TcpEvent → SessionLog
  | .connected client =>
    { log with past := log.past ++ log.current.toList, current := some ⟨client, [], [], [], []⟩ }
  | .disconnected => { log with past := log.past ++ log.current.toList, current := none }
  | .received bytes =>
    { log with current := log.current.map fun s => { s with received := s.received ++ bytes } }
  | .pushed bytes =>
    { log with current := log.current.map fun s => { s with pushed := s.pushed ++ bytes } }
  | .sent bytes =>
    match log.current with
    | some s => { log with current := some { s with sent := s.sent ++ bytes } }
    | none => { log with stray := log.stray ++ bytes }
  | .taken bytes =>
    match log.current with
    | some s => { log with current := some { s with taken := s.taken ++ bytes } }
    | none => { log with stray := log.stray ++ bytes }

def after (log : SessionLog) (events : List TcpEvent) : SessionLog := events.foldl observe log

@[simp] lemma after_cons (log : SessionLog) (event : TcpEvent) (events : List TcpEvent) :
    log.after (event :: events) = (log.observe event).after events := rfl

@[simp] lemma after_append (log : SessionLog) (events later : List TcpEvent) :
    log.after (events ++ later) = (log.after events).after later := List.foldl_append

/-- Every session is isolated, and nothing was sent or taken outside of a session. -/
structure Isolated (log : SessionLog) : Prop where
  sessions : ∀ session ∈ log.past ++ log.current.toList, session.Isolated
  stray : log.stray = []

end SessionLog

/-! ## The bridge and its log -/

/-- What the device, the host and the clients do: polls with any behaviour of the sockets, and the
two operations of the controller. -/
inductive TcpOp where
  | poll (io : SocketScript)
  | pushFromDevice (bytes : List U8)
  | takeForDevice (maximum : ℕ)
  deriving DecidableEq, Repr

/-- An operation and its events. -/
def tcpStep (bridge : UsbCdcTcp) : TcpOp → UsbCdcTcp × List TcpEvent
  | .poll io => ((bridge.poll io).1, (bridge.poll io).2.1)
  | .pushFromDevice bytes => (bridge.pushFromDevice bytes, [.pushed bytes])
  | .takeForDevice maximum =>
    ((bridge.takeForDevice maximum).2, [.taken (bridge.takeForDevice maximum).1])

/-- An operation on the bridge together with what it adds to the log. -/
def loggedRel (p : UsbCdcTcp × SessionLog) (op : TcpOp) (q : UsbCdcTcp × SessionLog) : Prop :=
  ((tcpStep p.1 op).1, p.2.after (tcpStep p.1 op).2) = q

/-- The device pushes bytes only while a client is held. -/
def PushesToClient (p : UsbCdcTcp × SessionLog) (op : TcpOp) : Prop :=
  ∀ bytes, op = .pushFromDevice bytes → bytes ≠ [] → p.1.client ≠ none

/-- The queues hold bytes of the session that is not over. -/
structure QueuesOf (bridge : UsbCdcTcp) (session : TcpSession) : Prop where
  fromDevice : (session.sent ++ bridge.fromDevice).Sublist session.pushed
  toDevice : (session.taken ++ bridge.toDevice).Sublist session.received

/-- The log is isolated, and the bridge agrees with it. -/
structure KeepsApart (bridge : UsbCdcTcp) (log : SessionLog) : Prop where
  listening : bridge.embedded = none
  past : ∀ session ∈ log.past, session.Isolated
  stray : log.stray = []
  client : bridge.client = log.current.map TcpSession.client
  current : ∀ session, log.current = some session → QueuesOf bridge session
  nobody : log.current = none → bridge.fromDevice = [] ∧ bridge.toDevice = []

lemma QueuesOf.isolated {bridge : UsbCdcTcp} {session : TcpSession} (h : QueuesOf bridge session) :
    session.Isolated :=
  ⟨(List.sublist_append_left _ _).trans h.fromDevice,
    (List.sublist_append_left _ _).trans h.toDevice⟩

namespace KeepsApart

open UsbCdcTcp

variable {bridge : UsbCdcTcp} {log : SessionLog}

lemma isolated (h : KeepsApart bridge log) : log.Isolated := by
  refine ⟨fun session hmem => ?_, h.stray⟩
  rcases List.mem_append.mp hmem with hpast | hcurrent
  · exact h.past session hpast
  · exact (h.current session (Option.mem_toList.mp hcurrent)).isolated

/-- A session is current exactly while a client is held. -/
lemma exists_current (h : KeepsApart bridge log) (hclient : bridge.client ≠ none) :
    ∃ session, log.current = some session := by
  rw [h.client] at hclient
  exact Option.ne_none_iff_exists'.mp fun hnone => hclient (by rw [hnone]; rfl)

lemma current_eq_none (h : KeepsApart bridge log) (hclient : bridge.client = none) :
    log.current = none := by
  rw [h.client] at hclient
  exact Option.map_eq_none_iff.mp hclient

/-! ### The events -/

/-- A client that is gone takes its bytes along. -/
lemma markDisconnected (h : KeepsApart bridge log) :
    KeepsApart bridge.markDisconnected (log.observe .disconnected) where
  listening := h.listening
  past := h.isolated.sessions
  stray := h.stray
  client := rfl
  current := nofun
  nobody := fun _ => ⟨rfl, rfl⟩

/-- A client is accepted while nobody is held. -/
lemma connected (h : KeepsApart bridge log) (hclient : bridge.client = none) (client now : ℕ) :
    KeepsApart { bridge with client := some client, clientConnectedAt := some now }
      (log.observe (.connected client)) where
  listening := h.listening
  past := h.isolated.sessions
  stray := h.stray
  client := rfl
  current := by
    rintro session ⟨rfl⟩
    obtain ⟨hfrom, hto⟩ := h.nobody (h.current_eq_none hclient)
    constructor
    · rw [hfrom]
      exact List.Sublist.refl _
    · rw [hto]
      exact List.Sublist.refl _
  nobody := nofun

/-- The queues and the session change together, while the client is held on. -/
lemma update (h : KeepsApart bridge log) {bridge' : UsbCdcTcp} {session session' : TcpSession}
    (hsession : log.current = some session) (hembedded : bridge'.embedded = bridge.embedded)
    (hclient : bridge'.client = bridge.client) (hsame : session'.client = session.client)
    (hqueues : QueuesOf bridge' session') :
    KeepsApart bridge' { log with current := some session' } where
  listening := hembedded.trans h.listening
  past := h.past
  stray := h.stray
  client := by rw [hclient, h.client, hsession, Option.map_some, Option.map_some, hsame]
  current := by
    rintro _ ⟨rfl⟩
    exact hqueues
  nobody := nofun

/-- Bytes of the client are queued. -/
lemma received (h : KeepsApart bridge log) (hclient : bridge.client ≠ none) (bytes : List U8) :
    KeepsApart { bridge with toDevice := pushCapped bridge.toDevice bytes bridge.maxBufferedBytes }
      (log.observe (.received bytes)) := by
  obtain ⟨session, hsession⟩ := h.exists_current hclient
  have hqueues := h.current session hsession
  simp only [SessionLog.observe, hsession, Option.map_some]
  refine h.update hsession rfl rfl rfl ⟨hqueues.fromDevice, ?_⟩
  refine ((pushCapped_sublist _ _ _).append_left _).trans ?_
  rw [← List.append_assoc]
  exact hqueues.toDevice.append_right _

/-- Bytes of the device are queued, if there are any. -/
lemma pushed (h : KeepsApart bridge log) (bytes : List U8)
    (hheld : bytes ≠ [] → bridge.client ≠ none) :
    KeepsApart (bridge.pushFromDevice bytes) (log.observe (.pushed bytes)) := by
  rw [pushFromDevice_of_listening h.listening]
  simp only [SessionLog.observe]
  cases hcurrent : log.current with
  | none =>
    have hbytes : bytes = [] := by
      by_contra hbytes
      obtain ⟨session, hsession⟩ := h.exists_current (hheld hbytes)
      cases hcurrent.symm.trans hsession
    subst hbytes
    rw [Option.map_none, ← hcurrent]
    exact h
  | some session =>
    have hqueues := h.current session hcurrent
    refine h.update hcurrent rfl rfl rfl ⟨?_, hqueues.toDevice⟩
    refine ((pushCapped_sublist _ _ _).append_left _).trans ?_
    rw [← List.append_assoc]
    exact hqueues.fromDevice.append_right _

/-- The oldest bytes of the device are sent. -/
lemma sent (h : KeepsApart bridge log) (hclient : bridge.client ≠ none) (count : ℕ) :
    KeepsApart { bridge with fromDevice := bridge.fromDevice.drop count }
      (log.observe (.sent (bridge.fromDevice.take count))) := by
  obtain ⟨session, hsession⟩ := h.exists_current hclient
  have hqueues := h.current session hsession
  simp only [SessionLog.observe, hsession]
  refine h.update hsession rfl rfl rfl ⟨?_, hqueues.toDevice⟩
  rw [List.append_assoc, List.take_append_drop]
  exact hqueues.fromDevice

/-- The device takes the oldest bytes of the client, or nothing. -/
lemma taken (h : KeepsApart bridge log) (maximum : ℕ) :
    KeepsApart (bridge.takeForDevice maximum).2
      (log.observe (.taken (bridge.takeForDevice maximum).1)) := by
  rw [takeForDevice_of_listening h.listening]
  simp only [SessionLog.observe]
  cases hcurrent : log.current with
  | none =>
    simp only [(h.nobody hcurrent).2, List.take_nil, List.drop_nil, List.append_nil]
    refine ⟨h.listening, h.past, h.stray, h.client.trans (by rw [hcurrent]), nofun, fun _ => ?_⟩
    exact ⟨(h.nobody hcurrent).1, rfl⟩
  | some session =>
    have hqueues := h.current session hcurrent
    refine h.update hcurrent rfl rfl rfl ⟨hqueues.fromDevice, ?_⟩
    rw [List.append_assoc, List.take_append_drop]
    exact hqueues.toDevice

/-! ### The loops of a poll -/

lemma acceptClients (h : KeepsApart bridge log) (accepts : List AcceptResult) :
    KeepsApart (bridge.acceptClients accepts).1 (log.after (bridge.acceptClients accepts).2.1) := by
  induction accepts generalizing bridge log with
  | nil => exact h
  | cons result accepts ih =>
    cases result with
    | failed => exact h
    | ok client now nonblocking =>
      simp only [UsbCdcTcp.acceptClients]
      split
      · exact ih h
      · -- a client that is replaced is marked as disconnected first
        have hfree : KeepsApart (if bridge.client.isSome then bridge.markDisconnected else bridge)
            (log.after (if bridge.client.isSome then [.disconnected] else [])) := by
          split
          · exact h.markDisconnected
          · exact h
        have hnobody : (if bridge.client.isSome then bridge.markDisconnected else bridge).client =
            none := by
          split
          · rfl
          · next hclient => simpa using hclient
        split
        · exact hfree
        · rw [SessionLog.after_append, SessionLog.after_cons]
          exact ih (hfree.connected hnobody client now)

lemma receiveLoop (h : KeepsApart bridge log) (hclient : bridge.client ≠ none)
    (reads : List ReadResult) :
    KeepsApart (bridge.receiveLoop reads).1 (log.after (bridge.receiveLoop reads).2.1) := by
  induction reads generalizing bridge log with
  | nil => exact h
  | cons result reads ih =>
    cases result with
    | connectionReset => exact h
    | failed => exact h
    | ok bytes =>
      simp only [UsbCdcTcp.receiveLoop]
      split
      · exact h
      · exact ih (h.received hclient bytes) hclient

lemma sendLoop (h : KeepsApart bridge log) (hclient : bridge.client ≠ none)
    (writes : List WriteResult) :
    KeepsApart (bridge.sendLoop writes).1 (log.after (bridge.sendLoop writes).2.1) := by
  induction writes generalizing bridge log with
  | nil => exact h
  | cons result writes ih =>
    simp only [UsbCdcTcp.sendLoop]
    split
    · exact h
    · cases result with
      | connectionReset => exact h
      | failed => exact h
      | ok count =>
        dsimp only
        split
        · exact h
        · exact ih (h.sent hclient count) hclient

lemma afterLoop {loop : UsbCdcTcp × List TcpEvent × LoopEnd}
    (h : KeepsApart loop.1 (log.after loop.2.1)) :
    KeepsApart (UsbCdcTcp.afterLoop loop).1 (log.after (UsbCdcTcp.afterLoop loop).2.1) := by
  rcases loop with ⟨bridge, events, ended⟩
  cases ended with
  | wouldBlock => exact h
  | failed => exact h
  | disconnected =>
    simp only [UsbCdcTcp.afterLoop, SessionLog.after_append]
    exact h.markDisconnected

lemma receiveFromClient (h : KeepsApart bridge log) (reads : List ReadResult) :
    KeepsApart (bridge.receiveFromClient reads).1
      (log.after (bridge.receiveFromClient reads).2.1) := by
  unfold UsbCdcTcp.receiveFromClient
  split
  · next hclient => exact afterLoop (h.receiveLoop (Option.isSome_iff_ne_none.mp hclient) reads)
  · exact h

lemma sendToClient (h : KeepsApart bridge log) (writes : List WriteResult) :
    KeepsApart (bridge.sendToClient writes).1 (log.after (bridge.sendToClient writes).2.1) := by
  unfold UsbCdcTcp.sendToClient
  split
  · next hclient => exact afterLoop (h.sendLoop (Option.isSome_iff_ne_none.mp hclient) writes)
  · exact h

lemma poll (h : KeepsApart bridge log) (io : SocketScript) :
    KeepsApart (bridge.poll io).1 (log.after (bridge.poll io).2.1) := by
  have haccept := h.acceptClients io.accepts
  have hcases := UsbCdcTcp.pollCases h.listening io
  generalize bridge.poll io = result at hcases ⊢
  cases hcases with
  | accepting haccepted =>
    rw [haccepted] at haccept
    exact haccept
  | reading haccepted hreceived =>
    rw [haccepted] at haccept
    have hreceive := haccept.receiveFromClient io.reads
    rw [hreceived] at hreceive
    simpa only [SessionLog.after_append] using hreceive
  | writing haccepted hreceived =>
    rw [haccepted] at haccept
    have hreceive := haccept.receiveFromClient io.reads
    rw [hreceived] at hreceive
    simpa only [SessionLog.after_append] using hreceive.sendToClient io.writes

/-- Every operation keeps the sessions apart, unless bytes are pushed while no client is held. -/
lemma step (h : KeepsApart bridge log) (op : TcpOp) (hheld : PushesToClient (bridge, log) op) :
    KeepsApart (tcpStep bridge op).1 (log.after (tcpStep bridge op).2) := by
  cases op with
  | poll io => exact h.poll io
  | pushFromDevice bytes => exact h.pushed bytes (hheld bytes rfl)
  | takeForDevice maximum => exact h.taken maximum

end KeepsApart

/-- **Sessions are isolated.**  In every run in which the device pushes bytes only while a client is
held, each client is sent, in order, bytes that were pushed while it was held and no others, the
device takes bytes only that were received from the client then held, and nothing is sent or taken
while there is none. -/
theorem sessions_isolated (bridge : UsbCdcTcp) (maxBufferedBytes : ℕ)
    (hnew : UsbCdcTcp.new maxBufferedBytes none = some bridge) (ops : List TcpOp)
    (bridge' : UsbCdcTcp) (log : SessionLog)
    (hrun : Run (guardedStep PushesToClient loggedRel) (bridge, .empty) ops (bridge', log)) :
    log.Isolated := by
  have hinit : KeepsApart bridge .empty := by
    unfold UsbCdcTcp.new at hnew
    split at hnew
    · cases hnew
    · cases hnew
      exact ⟨rfl, nofun, rfl, rfl, nofun, fun _ => ⟨rfl, rfl⟩⟩
  have hkeeps : KeepsApart bridge' log := by
    refine hrun.invariant_state (I := fun p => KeepsApart p.1 p.2) hinit ?_
    rintro ⟨bridge, log⟩ _ op h ⟨hheld, rfl⟩
    exact h.step op hheld
  exact hkeeps.isolated

/-- The bridge before the first poll. -/
def listeningBridge : UsbCdcTcp :=
  ⟨65536, none, none, none, UsbCdcTcp.defaultStaleClientGracePeriod, [], []⟩

/-- A client is sent a byte, is replaced after its grace period with another byte still queued, and
the byte is lost. -/
theorem sessions_isolated_sample :
    ∃ ops bridge log, Run (guardedStep PushesToClient loggedRel)
      (listeningBridge, .empty) ops (bridge, log) ∧
      log.past = [⟨0, [1, 2], [1], [], []⟩] ∧ log.current = some ⟨1, [], [], [9], []⟩ ∧
      log.Isolated := by
  have hrun : Run (guardedStep PushesToClient loggedRel) (listeningBridge, .empty)
      [.poll ⟨[.ok 0 0 true], [], []⟩] _ := Run.single ⟨nofun, rfl⟩
  have hrun := hrun.snoc (a := .pushFromDevice [1, 2]) ⟨fun _ _ _ => by decide, rfl⟩
  have hrun := hrun.snoc (a := .poll ⟨[], [], [.ok 1]⟩) ⟨nofun, rfl⟩
  have hrun := hrun.snoc (a := .poll ⟨[.ok 1 20000000000 true], [.ok [9]], [.ok 1]⟩) ⟨nofun, rfl⟩
  exact ⟨_, _, _, hrun, by decide, by decide, sessions_isolated _ 65536 (by decide) _ _ _ hrun⟩

/-- A byte that is pushed before any client connects is sent to the first one. -/
theorem byte_of_nobody_sent :
    let ops := [TcpOp.pushFromDevice [1], .poll ⟨[.ok 0 0 true], [], [.ok 1]⟩]
    let p := ops.foldl (fun p op => ((tcpStep p.1 op).1, p.2.after (tcpStep p.1 op).2))
      (listeningBridge, SessionLog.empty)
    p.2.current = some ⟨0, [], [1], [], []⟩ ∧ ¬ p.2.Isolated := by
  refine ⟨by decide, fun h => ?_⟩
  have hsession := (h.sessions ⟨0, [], [1], [], []⟩ (by decide)).sent
  cases hsession

end Stm32Emulator
