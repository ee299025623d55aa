import Stm32Emulator.EcuIo.Device
import Stm32Emulator.Foundation.Lines

/-!
# The clients of the ECU I/O device

One client is held at a time, and others are refused.  What the client sends is kept until a line is
complete, and what is queued for it is kept until it can be written.  Both buffers outlive the
client: they are not emptied when it is gone.
-/

namespace Stm32Emulator.Ecu

/-- What happens at the socket of the device. -/
inductive ClientEvent where
  | connected (client : ℕ)
  | disconnected
  | received (bytes : List U8)
  | handled (text : List Char)
  | reported (line : List U8)
  | sent (bytes : List U8)
  deriving DecidableEq, Repr

def newline : U8 := 0x0a

/-- Appending, and dropping the oldest bytes past the capacity. -/
def pushCappedVec (buffer bytes : List U8) (capacity : ℕ) : List U8 :=
  (buffer ++ bytes).drop ((buffer ++ bytes).length - capacity)

namespace EcuIo

variable {P : Type}

/-- New connections, and whether `accept` and `set_nonblocking` succeeded. -/
def acceptClients (ecu : EcuIo P) : List AcceptResult → EcuIo P × List ClientEvent × Bool
  | [] => (ecu, [], true)
  | .failed :: _ => (ecu, [], false)
  | .ok client _ nonblocking :: accepts =>
    if ecu.client.isSome then
      ecu.acceptClients accepts
    else if !nonblocking then
      (ecu, [], false)
    else
      let (ecu, later, ok) := { ecu with client := some client }.acceptClients accepts
      (ecu, .connected client :: later, ok)

/-- The loop of `receiveFromClient`. -/
def receiveLoop (ecu : EcuIo P) : List ReadResult → EcuIo P × List ClientEvent × LoopEnd
  | [] => (ecu, [], .wouldBlock)
  | .connectionReset :: _ => (ecu, [], .disconnected)
  | .failed :: _ => (ecu, [], .failed)
  | .ok bytes :: reads =>
    if bytes = [] then
      (ecu, [], .disconnected)
    else
      let ecu := { ecu with recvBuffer := pushCappedVec ecu.recvBuffer bytes maxBufferedBytes }
      let (ecu, later, ended) := ecu.receiveLoop reads
      (ecu, .received bytes :: later, ended)

/-- The loop of `processCompleteLines`; each round takes a line and its newline. -/
def processLoop : ℕ → EcuIo P → EcuIo P × List ClientEvent
  | 0, ecu => (ecu, [])
  | fuel + 1, ecu =>
    match ecu.recvBuffer.findIdx? (· = newline) with
    | none => (ecu, [])
    | some pos =>
      let line := ecu.recvBuffer.take pos
      let ecu := { ecu with recvBuffer := ecu.recvBuffer.drop (pos + 1) }
      match decodeLine line with
      | none => processLoop fuel ecu
      | some text =>
        let (ecu, later) := processLoop fuel (ecu.handleLine text)
        (ecu, .handled text :: later)

def processCompleteLines (ecu : EcuIo P) : EcuIo P × List ClientEvent :=
  processLoop ecu.recvBuffer.length ecu

/-- Reading from the client and handling its lines, those of a client that is gone too.  An error is
passed on before any line is handled. -/
def receiveFromClient (ecu : EcuIo P) (reads : List ReadResult) :
    EcuIo P × List ClientEvent × Bool :=
  match if ecu.client.isSome then ecu.receiveLoop reads else (ecu, [], .wouldBlock) with
  | (ecu, received, .failed) => (ecu, received, false)
  | (ecu, received, .wouldBlock) =>
    let (ecu, handled) := ecu.processCompleteLines
    (ecu, received ++ handled, true)
  | (ecu, received, .disconnected) =>
    -- the lines were sent by the client that is gone
    let (ecu, handled) := { ecu with client := none }.processCompleteLines
    (ecu, received ++ handled ++ [.disconnected], true)

/-- The loop of `sendToClient`.  A call offers a part of the queue and may take less than that. -/
def sendLoop (ecu : EcuIo P) : List WriteResult → EcuIo P × List ClientEvent × LoopEnd
  | [] => (ecu, [], .wouldBlock)
  | result :: writes =>
    if ecu.outgoing = [] then
      (ecu, [], .wouldBlock)
    else
      match result with
      | .connectionReset => (ecu, [], .disconnected)
      | .failed => (ecu, [], .failed)
      | .ok count =>
        if count = 0 then
          (ecu, [], .disconnected)
        else
          let bytes := ecu.outgoing.take count
          let (ecu, later, ended) :=
            { ecu with outgoing := ecu.outgoing.drop count }.sendLoop writes
          (ecu, .sent bytes :: later, ended)

def sendToClient (ecu : EcuIo P) (writes : List WriteResult) : EcuIo P × List ClientEvent × Bool :=
  match if ecu.client.isSome then ecu.sendLoop writes else (ecu, [], .wouldBlock) with
  | (ecu, sent, .wouldBlock) => (ecu, sent, true)
  | (ecu, sent, .disconnected) => ({ ecu with client := none }, sent ++ [.disconnected], true)
  | (ecu, sent, .failed) => (ecu, sent, false)

/-- Taking the inputs of the host. -/
def takeLinkInputs (ecu : EcuIo P) (link : EmbeddedEcuIoState) : EcuIo P :=
  link.takeInputs.2.foldl (fun ecu (name, value) => ecu.setValue name value)
    { ecu with embedded := some link.takeInputs.1 }

/-- One poll, what happened in it, and whether it succeeded. -/
def poll (ecu : EcuIo P) (io : SocketScript) : EcuIo P × List ClientEvent × Bool :=
  match ecu.embedded with
  | some link => (ecu.takeLinkInputs link, [], true)
  | none =>
    match ecu.acceptClients io.accepts with
    | (ecu, accepted, false) => (ecu, accepted, false)
    | (ecu, accepted, true) =>
      match ecu.receiveFromClient io.reads with
      | (ecu, received, false) => (ecu, accepted ++ received, false)
      | (ecu, received, true) =>
        let (ecu, sent, ok) := ecu.sendToClient io.writes
        (ecu, accepted ++ received ++ sent, ok)

/-- What a poll does at the socket, by how far it gets. -/
inductive PollCases (ecu : EcuIo P) (io : SocketScript) : EcuIo P × List ClientEvent × Bool → Prop
  | accepting {ecu₁ : EcuIo P} {accepted : List ClientEvent} :
      ecu.acceptClients io.accepts = (ecu₁, accepted, false) →
      PollCases ecu io (ecu₁, accepted, false)
  | reading {ecu₁ ecu₂ : EcuIo P} {accepted received : List ClientEvent} :
      ecu.acceptClients io.accepts = (ecu₁, accepted, true) →
      ecu₁.receiveFromClient io.reads = (ecu₂, received, false) →
      PollCases ecu io (ecu₂, accepted ++ received, false)
  | writing {ecu₁ ecu₂ : EcuIo P} {accepted received : List ClientEvent} :
      ecu.acceptClients io.accepts = (ecu₁, accepted, true) →
      ecu₁.receiveFromClient io.reads = (ecu₂, received, true) →
      PollCases ecu io ((ecu₂.sendToClient io.writes).1,
        accepted ++ received ++ (ecu₂.sendToClient io.writes).2.1,
        (ecu₂.sendToClient io.writes).2.2)

lemma pollCases {ecu : EcuIo P} (hlistening : ecu.embedded = none) (io : SocketScript) :
    PollCases ecu io (ecu.poll io) := by
  unfold poll
  rw [hlistening]
  dsimp only
  rcases haccepted : ecu.acceptClients io.accepts with ⟨ecu₁, accepted, _ | _⟩
  · exact .accepting haccepted
  · dsimp only
    rcases hreceived : ecu₁.receiveFromClient io.reads with ⟨ecu₂, received, _ | _⟩
    · exact .reading haccepted hreceived
    · exact .writing haccepted hreceived

/-! ## The lines of a buffer -/

/-- What the bytes are handled as. -/
def textsOf (bytes : List U8) : List (List Char) :=
  (Lines.complete newline bytes).filterMap decodeLine

/-- Setting a value changes nothing else. -/
lemma setValue_frame (ecu : EcuIo P) (name : String) (value : ℤ) :
    ecu.setValue name value = { ecu with values := (ecu.setValue name value).values } := by
  unfold setValue
  split_ifs <;> rfl

@[simp] lemma digitalInputPins_setValue (ecu : EcuIo P) (name : String) (value : ℤ) :
    (ecu.setValue name value).digitalInputPins = ecu.digitalInputPins := by rw [setValue_frame]

@[simp] lemma knownNames_setValue (ecu : EcuIo P) (name : String) (value : ℤ) :
    (ecu.setValue name value).knownNames = ecu.knownNames := by rw [setValue_frame]

lemma handleLine_frame (ecu : EcuIo P) (text : List Char) :
    ecu.handleLine text = { ecu with values := (ecu.handleLine text).values } := by
  unfold handleLine
  split
  · exact setValue_frame _ _ _
  · rfl

/-- The loop handles the complete lines, leaves the one that is not, and changes nothing else but
values. -/
lemma processLoop_spec (fuel : ℕ) (ecu : EcuIo P) (hfuel : ecu.recvBuffer.length ≤ fuel) :
    (processLoop fuel ecu).2 = (textsOf ecu.recvBuffer).map .handled ∧
      (processLoop fuel ecu).1 =
        { ecu with
          recvBuffer := Lines.rest newline ecu.recvBuffer
          values := (processLoop fuel ecu).1.values } := by
  induction fuel generalizing ecu with
  | zero =>
    have hnil : ecu.recvBuffer = [] := List.length_eq_zero_iff.mp (Nat.le_zero.mp hfuel)
    unfold processLoop textsOf
    rw [hnil]
    refine ⟨rfl, ?_⟩
    cases ecu
    simp_all [Lines.rest, Lines.split]
  | succ fuel ih =>
    unfold processLoop
    cases hpos : ecu.recvBuffer.findIdx? (· = newline) with
    | none =>
      have hnot := Lines.not_mem_of_findIdx?_eq_none hpos
      unfold textsOf
      rw [Lines.complete_of_not_mem hnot, Lines.rest_of_not_mem hnot]
      exact ⟨rfl, rfl⟩
    | some pos =>
      obtain ⟨hbuffer, hnot⟩ := Lines.eq_line_of_findIdx? hpos
      have hlength : (ecu.recvBuffer.drop (pos + 1)).length ≤ fuel := by
        rw [List.length_drop]
        omega
      have htexts : textsOf ecu.recvBuffer =
          (decodeLine (ecu.recvBuffer.take pos)).toList ++
            textsOf (ecu.recvBuffer.drop (pos + 1)) := by
        unfold textsOf
        conv_lhs => rw [hbuffer, Lines.complete_line hnot]
        cases hline : decodeLine (ecu.recvBuffer.take pos) <;> simp [hline]
      have hrest : Lines.rest newline ecu.recvBuffer =
          Lines.rest newline (ecu.recvBuffer.drop (pos + 1)) := by
        conv_lhs => rw [hbuffer, Lines.rest_line hnot]
      rw [htexts, hrest]
      dsimp only
      cases hline : decodeLine (ecu.recvBuffer.take pos) with
      | none => exact ih { ecu with recvBuffer := ecu.recvBuffer.drop (pos + 1) } hlength
      | some text =>
        have hframe :=
          handleLine_frame { ecu with recvBuffer := ecu.recvBuffer.drop (pos + 1) } text
        obtain ⟨hevents, hstate⟩ :=
          ih ({ ecu with recvBuffer := ecu.recvBuffer.drop (pos + 1) }.handleLine text)
            (by rw [hframe]; exact hlength)
        dsimp only
        constructor
        · rw [hevents, hframe]
          rfl
        · rw [hstate, hframe]

/-- All complete lines are handled. -/
lemma processCompleteLines_spec (ecu : EcuIo P) :
    ecu.processCompleteLines.2 = (textsOf ecu.recvBuffer).map .handled ∧
      ecu.processCompleteLines.1 =
        { ecu with
          recvBuffer := Lines.rest newline ecu.recvBuffer
          values := ecu.processCompleteLines.1.values } :=
  processLoop_spec _ ecu le_rfl

/-! ## Operations -/

/-- The line that reporting an output queues, if it does. -/
def queuedLine (ecu : EcuIo P) (name : String) (level : Bool) : Option (List U8) :=
  if ecu.changed name level && ecu.embedded.isNone && ecu.client.isSome then
    some (outputLine name (levelValue level))
  else none

end EcuIo

/-- What happens to the device: polls with any behaviour of the socket, inputs, reports of outputs,
the wheel, and visits of the input pins. -/
inductive EcuOp where
  | poll (io : SocketScript)
  | setValue (name : String) (value : ℤ)
  | reportOutput (instructionCount : ℕ) (name : String) (level : Bool)
  | advanceTriggerWheel (nowInstructions : ℕ)
  | checkDigitalEdges
  deriving DecidableEq, Repr

namespace EcuIo

variable {P : Type} [WheelArithmetic P]

/-- An operation, what happens at the socket, and the edges that are raised. -/
def step (ecu : EcuIo P) : EcuOp → EcuIo P × List ClientEvent × List (Pin × Bool)
  | .poll io => ((ecu.poll io).1, (ecu.poll io).2.1, [])
  | .setValue name value => (ecu.setValue name value, [], [])
  | .reportOutput instructionCount name level =>
    (ecu.reportOutput instructionCount name level,
      (ecu.queuedLine name level).toList.map .reported, [])
  | .advanceTriggerWheel nowInstructions => (ecu.advanceTriggerWheel nowInstructions, [], [])
  | .checkDigitalEdges =>
    let (ecu, edges) := ecu.checkDigitalEdges (fun edges pin level => edges ++ [(pin, level)]) []
    (ecu, [], edges)

end EcuIo

end Stm32Emulator.Ecu
