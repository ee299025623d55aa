import Stm32Emulator.Cdc.EmbeddedLink

/-!
# The bridge to the host

`UsbCdcTcp` carries the bytes of the bulk endpoints either to the embedded link or to the client of
a TCP socket, one client at a time.  What the sockets do in one poll is a script: the results of the
calls to `accept`, to `read` and to `write`, in the order in which they are made.  A call past the
end of its script would block, so that each of the three loops ends.
-/

namespace Stm32Emulator

/-- The bridge.  Without an embedded link it listens on a socket.  Clients are numbered, and times
are in nanoseconds. -/
structure UsbCdcTcp where
  maxBufferedBytes : ℕ
  embedded : Option EmbeddedCdcState
  client : Option ℕ
  clientConnectedAt : Option ℕ
  staleClientGracePeriod : ℕ
  toDevice : List U8
  fromDevice : List U8
  deriving DecidableEq, Repr

/-- A call to `accept`: a connection, made at a time, that can be made nonblocking or not. -/
inductive AcceptResult where
  | ok (client now : ℕ) (nonblocking : Bool)
  | failed
  deriving DecidableEq, Repr

/-- A call to `read`; the end of the stream is `ok []`. -/
inductive ReadResult where
  | ok (bytes : List U8)
  | connectionReset
  | failed
  deriving DecidableEq, Repr

/-- A call to `write`, which takes some of the bytes. -/
inductive WriteResult where
  | ok (count : ℕ)
  | connectionReset
  | failed
  deriving DecidableEq, Repr

/-- What the sockets do in one poll. -/
structure SocketScript where
  accepts : List AcceptResult
  reads : List ReadResult
  writes : List WriteResult
  deriving DecidableEq, Repr

/-- What happens at the sockets and at the device side of the bridge. -/
inductive TcpEvent where
  | connected (client : ℕ)
  | disconnected
  | received (bytes : List U8)
  | sent (bytes : List U8)
  | pushed (bytes : List U8)
  | taken (bytes : List U8)
  deriving DecidableEq, Repr

/-- How a loop over a socket ends. -/
inductive LoopEnd where
  | wouldBlock
  | disconnected
  | failed
  deriving DecidableEq, Repr

namespace UsbCdcTcp

/-- Ten seconds. -/
def defaultStaleClientGracePeriod : ℕ := 10000000000

/-- A bridge on the pending link, to which it attaches the device, or else on a socket. -/
def new (maxBufferedBytes : ℕ) (pending : Option EmbeddedCdcState) : Option UsbCdcTcp :=
  if maxBufferedBytes = 0 then
    none
  else
    some ⟨maxBufferedBytes, pending.map EmbeddedCdcState.attachDevice, none, none,
      defaultStaleClientGracePeriod, [], []⟩

/-- Making room in a queue and appending, byte by byte. -/
def pushCapped (queue bytes : List U8) (capacity : ℕ) : List U8 :=
  bytes.foldl (fun queue byte =>
    (if queue.length = capacity then queue.tail else queue) ++ [byte]) queue

def pushFromDevice (bytes : List U8) (bridge : UsbCdcTcp) : UsbCdcTcp :=
  match bridge.embedded with
  | some link => { bridge with embedded := some (link.writeFromDevice bytes) }
  | none =>
    { bridge with fromDevice := pushCapped bridge.fromDevice bytes bridge.maxBufferedBytes }

def takeForDevice (maximum : ℕ) (bridge : UsbCdcTcp) : List U8 × UsbCdcTcp :=
  match bridge.embedded with
  | some link =>
    ((link.readForDevice maximum).2,
      { bridge with embedded := some (link.readForDevice maximum).1 })
  | none =>
    let count := min maximum bridge.toDevice.length
    (bridge.toDevice.take count, { bridge with toDevice := bridge.toDevice.drop count })

def setProtocolStage (stage : EmbeddedCdcStage) (bridge : UsbCdcTcp) : UsbCdcTcp :=
  { bridge with embedded := bridge.embedded.map fun link => link.setProtocolStage stage }

def isClientConnected (bridge : UsbCdcTcp) : Bool :=
  match bridge.embedded with
  | some link => link.devicePresent
  | none => bridge.client.isSome

/-! ## Polling the sockets -/

/-- The bytes queued for a client are not kept for the next one. -/
def markDisconnected (bridge : UsbCdcTcp) : UsbCdcTcp :=
  { bridge with client := none, clientConnectedAt := none, toDevice := [], fromDevice := [] }

/-- New connections, and whether `accept` and `set_nonblocking` succeeded.  A client is only
replaced after its grace period. -/
def acceptClients (bridge : UsbCdcTcp) : List AcceptResult → UsbCdcTcp × List TcpEvent × Bool
  | [] => (bridge, [], true)
  | .failed :: _ => (bridge, [], false)
  | .ok client now nonblocking :: accepts =>
    let stillWithinGracePeriod :=
      bridge.clientConnectedAt.any fun connectedAt =>
        now - connectedAt < bridge.staleClientGracePeriod
    if bridge.client.isSome && stillWithinGracePeriod then
      bridge.acceptClients accepts
    else
      let events := if bridge.client.isSome then [.disconnected] else []
      let bridge := if bridge.client.isSome then bridge.markDisconnected else bridge
      if !nonblocking then
        (bridge, events, false)
      else
        let bridge := { bridge with client := some client, clientConnectedAt := some now }
        let (bridge, later, ok) := bridge.acceptClients accepts
        (bridge, events ++ .connected client :: later, ok)

/-- The loop of `receive_from_client`. -/
def receiveLoop (bridge : UsbCdcTcp) : List ReadResult → UsbCdcTcp × List TcpEvent × LoopEnd
  | [] => (bridge, [], .wouldBlock)
  | .connectionReset :: _ => (bridge, [], .disconnected)
  | .failed :: _ => (bridge, [], .failed)
  | .ok bytes :: reads =>
    if bytes = [] then
      (bridge, [], .disconnected)
    else
      let bridge :=
        { bridge with toDevice := pushCapped bridge.toDevice bytes bridge.maxBufferedBytes }
      let (bridge, later, ended) := bridge.receiveLoop reads
      (bridge, .received bytes :: later, ended)

/-- The loop of `send_to_client`.  A call offers a part of the queue and may take less than that. -/
def sendLoop (bridge : UsbCdcTcp) : List WriteResult → UsbCdcTcp × List TcpEvent × LoopEnd
  | [] => (bridge, [], .wouldBlock)
  | result :: writes =>
    if bridge.fromDevice = [] then
      (bridge, [], .wouldBlock)
    else
      match result with
      | .connectionReset => (bridge, [], .disconnected)
      | .failed => (bridge, [], .failed)
      | .ok count =>
        if count = 0 then
          (bridge, [], .disconnected)
        else
          let bytes := bridge.fromDevice.take count
          let (bridge, later, ended) :=
            { bridge with fromDevice := bridge.fromDevice.drop count }.sendLoop writes
          (bridge, .sent bytes :: later, ended)

/-- What follows a loop: a client that is gone is marked as such, and an error is passed on. -/
def afterLoop (loop : UsbCdcTcp × List TcpEvent × LoopEnd) : UsbCdcTcp × List TcpEvent × Bool :=
  match loop with
  | (bridge, events, .wouldBlock) => (bridge, events, true)
  | (bridge, events, .disconnected) => (bridge.markDisconnected, events ++ [.disconnected], true)
  | (bridge, events, .failed) => (bridge, events, false)

def receiveFromClient (bridge : UsbCdcTcp) (reads : List ReadResult) :
    UsbCdcTcp × List TcpEvent × Bool :=
  if bridge.client.isSome then afterLoop (bridge.receiveLoop reads) else (bridge, [], true)

def sendToClient (bridge : UsbCdcTcp) (writes : List WriteResult) :
    UsbCdcTcp × List TcpEvent × Bool :=
  if bridge.client.isSome then afterLoop (bridge.sendLoop writes) else (bridge, [], true)

/-- One poll, what happened in it, and whether it succeeded. -/
def poll (bridge : UsbCdcTcp) (io : SocketScript) : UsbCdcTcp × List TcpEvent × Bool :=
  if bridge.embedded.isSome then
    (bridge, [], true)
  else
    match bridge.acceptClients io.accepts with
    | (bridge, accepted, false) => (bridge, accepted, false)
    | (bridge, accepted, true) =>
      match bridge.receiveFromClient io.reads with
      | (bridge, received, false) => (bridge, accepted ++ received, false)
      | (bridge, received, true) =>
        let (bridge, sent, ok) := bridge.sendToClient io.writes
        (bridge, accepted ++ received ++ sent, ok)

/-- What a poll does at the socket, by how far it gets. -/
inductive PollCases (bridge : UsbCdcTcp) (io : SocketScript) :
    UsbCdcTcp × List TcpEvent × Bool → Prop
  | accepting {bridge₁ : UsbCdcTcp} {accepted : List TcpEvent} :
      bridge.acceptClients io.accepts = (bridge₁, accepted, false) →
      PollCases bridge io (bridge₁, accepted, false)
  | reading {bridge₁ bridge₂ : UsbCdcTcp} {accepted received : List TcpEvent} :
      bridge.acceptClients io.accepts = (bridge₁, accepted, true) →
      bridge₁.receiveFromClient io.reads = (bridge₂, received, false) →
      PollCases bridge io (bridge₂, accepted ++ received, false)
  | writing {bridge₁ bridge₂ : UsbCdcTcp} {accepted received : List TcpEvent} :
      bridge.acceptClients io.accepts = (bridge₁, accepted, true) →
      bridge₁.receiveFromClient io.reads = (bridge₂, received, true) →
      PollCases bridge io ((bridge₂.sendToClient io.writes).1,
        accepted ++ received ++ (bridge₂.sendToClient io.writes).2.1,
        (bridge₂.sendToClient io.writes).2.2)

lemma pollCases {bridge : UsbCdcTcp} (hlistening : bridge.embedded = none) (io : SocketScript) :
    PollCases bridge io (bridge.poll io) := by
  unfold poll
  rw [if_neg (by rw [hlistening]; exact Bool.false_ne_true)]
  rcases haccepted : bridge.acceptClients io.accepts with ⟨bridge₁, accepted, _ | _⟩
  · exact .accepting haccepted
  · dsimp only
    rcases hreceived : bridge₁.receiveFromClient io.reads with ⟨bridge₂, received, _ | _⟩
    · exact .reading haccepted hreceived
    · exact .writing haccepted hreceived

/-! ## The bridge as the controller sees it -/

lemma length_takeForDevice (maximum : ℕ) (bridge : UsbCdcTcp) :
    (bridge.takeForDevice maximum).1.length ≤ maximum := by
  unfold takeForDevice EmbeddedCdcState.readForDevice
  split <;> simp

def usbBridge : UsbBridge UsbCdcTcp where
  pushFromDevice := pushFromDevice
  takeForDevice := takeForDevice
  isClientConnected := isClientConnected
  setProtocolStage := setProtocolStage
  length_takeForDevice := length_takeForDevice

/-! ## The queues of a listening bridge -/

lemma pushFromDevice_of_listening {bridge : UsbCdcTcp} (h : bridge.embedded = none)
    (bytes : List U8) :
    bridge.pushFromDevice bytes =
      { bridge with fromDevice := pushCapped bridge.fromDevice bytes bridge.maxBufferedBytes } := by
  unfold pushFromDevice
  split
  · next hlink => cases h.symm.trans hlink
  · rfl

lemma takeForDevice_of_listening {bridge : UsbCdcTcp} (h : bridge.embedded = none) (maximum : ℕ) :
    bridge.takeForDevice maximum =
      (bridge.toDevice.take (min maximum bridge.toDevice.length),
        { bridge with toDevice := bridge.toDevice.drop (min maximum bridge.toDevice.length) }) := by
  unfold takeForDevice
  split
  · next hlink => cases h.symm.trans hlink
  · rfl

/-- A capped push loses bytes only. -/
lemma pushCapped_sublist (queue bytes : List U8) (capacity : ℕ) :
    (pushCapped queue bytes capacity).Sublist (queue ++ bytes) := by
  unfold pushCapped
  induction bytes generalizing queue with
  | nil => simp
  | cons byte bytes ih =>
    rw [List.foldl_cons, ← List.singleton_append (l := bytes), ← List.append_assoc]
    refine (ih _).trans ((List.Sublist.append_right ?_ _).append_right _)
    split
    · exact List.tail_sublist _
    · exact List.Sublist.refl _

/-- A capped push loses nothing that fits. -/
lemma pushCapped_of_le {queue bytes : List U8} {capacity : ℕ}
    (h : queue.length + bytes.length ≤ capacity) :
    pushCapped queue bytes capacity = queue ++ bytes := by
  unfold pushCapped
  induction bytes generalizing queue with
  | nil => simp
  | cons byte bytes ih =>
    rw [List.length_cons] at h
    rw [List.foldl_cons, if_neg (by omega), ih (by simp; omega), List.append_assoc]
    rfl

/-! ## What the loops leave alone -/

/-- The loops change the queues only. -/
lemma receiveLoop_frame (bridge : UsbCdcTcp) (reads : List ReadResult) :
    (bridge.receiveLoop reads).1 =
      { bridge with toDevice := (bridge.receiveLoop reads).1.toDevice } := by
  induction reads generalizing bridge with
  | nil => rfl
  | cons result reads ih =>
    cases result with
    | connectionReset => rfl
    | failed => rfl
    | ok bytes =>
      simp only [receiveLoop]
      split_ifs
      · rfl
      · exact ih
          { bridge with toDevice := pushCapped bridge.toDevice bytes bridge.maxBufferedBytes }

lemma sendLoop_frame (bridge : UsbCdcTcp) (writes : List WriteResult) :
    (bridge.sendLoop writes).1 =
      { bridge with fromDevice := (bridge.sendLoop writes).1.fromDevice } := by
  induction writes generalizing bridge with
  | nil => rfl
  | cons result writes ih =>
    simp only [sendLoop]
    split_ifs
    · rfl
    · cases result with
      | connectionReset => rfl
      | failed => rfl
      | ok count =>
        dsimp only
        split_ifs
        · rfl
        · exact ih { bridge with fromDevice := bridge.fromDevice.drop count }

end UsbCdcTcp

/-! ## The host side of the bridge -/

/-- What the host does with the link, and the polls of the bridge. -/
inductive HostMove where
  | connect
  | disconnect
  | writeFromHost (bytes : List U8)
  | readForHost (target : ℕ)
  | poll (io : SocketScript)
  deriving DecidableEq, Repr

/-- A move of the host. -/
def hostMove (move : HostMove) (bridge : UsbCdcTcp) : UsbCdcTcp :=
  match move with
  | .connect => { bridge with embedded := bridge.embedded.map fun link => link.connect.1 }
  | .disconnect => { bridge with embedded := bridge.embedded.map fun link => link.disconnect }
  | .writeFromHost bytes =>
    { bridge with embedded := bridge.embedded.map fun link => (link.writeFromHost bytes).1 }
  | .readForHost target =>
    { bridge with embedded := bridge.embedded.map fun link => (link.readForHost target).1 }
  | .poll io => (bridge.poll io).1

end Stm32Emulator
