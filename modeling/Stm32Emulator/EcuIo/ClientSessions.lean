import Stm32Emulator.EcuIo.Clients
import Stm32Emulator.Foundation.Run

/-!
# Sessions of the clients

A session is the time in which one client is held.  `EcuLog` divides what happens at the socket into
sessions; it is isolated if in every session the lines that were handled are the lines of the bytes
that the client sent, and the bytes that were sent to it begin the lines reported while it was held.

The buffers outlive the client, so that sessions are kept apart only as long as a client is accepted
when both are empty.
-/

namespace Stm32Emulator.Ecu

/-! ## The log of the sessions -/

structure EcuSession where
  client : ℕ
  received : List U8
  handled : List (List Char)
  reported : List (List U8)
  sent : List U8
  deriving DecidableEq, Repr

/-- What was handled are the client's own lines so far, and what was sent are lines reported to
it. -/
structure EcuSession.Own (session : EcuSession) : Prop where
  handled : session.handled <+: EcuIo.textsOf session.received
  sent : session.sent <+: session.reported.flatten

/-- All of the client's lines were handled. -/
def EcuSession.Settled (session : EcuSession) : Prop :=
  session.handled = EcuIo.textsOf session.received

/-- The sessions that are over, the one that is not, and what happened outside of any. -/
structure EcuLog where
  past : List EcuSession
  current : Option EcuSession
  stray : List ClientEvent
  deriving DecidableEq, Repr

namespace EcuLog

def empty : EcuLog := ⟨[], none, []⟩

/-- What an event adds to the session that is not over. -/
def extend (session : EcuSession) : ClientEvent → EcuSession
  | .received bytes => { session with received := session.received ++ bytes }
  | .handled text => { session with handled := session.handled ++ [text] }
  | .reported line => { session with reported := session.reported ++ [line] }
  | .sent bytes => { session with sent := session.sent ++ bytes }
  | _ => session

/-- What one event adds to the log. -/
def observe (log : EcuLog) (event : ClientEvent) : EcuLog :=
  match event, log.current with
  | .connected client, _ =>
    { log with past := log.past ++ log.current.toList, current := some ⟨client, [], [], [], []⟩ }
  | .disconnected, _ => { log with past := log.past ++ log.current.toList, current := none }
  | event, some session => { log with current := some (extend session event) }
  | event, none => { log with stray := log.stray ++ [event] }

def after (log : EcuLog) (events : List ClientEvent) : EcuLog := events.foldl observe log

@[simp] lemma after_nil (log : EcuLog) : log.after [] = log := rfl

@[simp] lemma after_cons (log : EcuLog) (event : ClientEvent) (events : List ClientEvent) :
    log.after (event :: events) = (log.observe event).after events := rfl

@[simp] lemma after_append (log : EcuLog) (events later : List ClientEvent) :
    log.after (events ++ later) = (log.after events).after later := List.foldl_append

/-- The clients got and gave their own bytes only, and all lines of a client that is gone were
handled. -/
structure Isolated (log : EcuLog) : Prop where
  own : ∀ session ∈ log.past ++ log.current.toList, session.Own
  settled : ∀ session ∈ log.past, session.Settled
  stray : log.stray = []

end EcuLog

/-! ## The device and its log -/

/-- The bytes that a loop over reads receives. -/
def readBytes : List ReadResult → List U8
  | .ok bytes :: reads => if bytes = [] then [] else bytes ++ readBytes reads
  | _ => []

section Logged

variable {P : Type} [WheelArithmetic P]

/-- An operation on the device together with what it adds to the log. -/
def loggedRel (p : EcuIo P × EcuLog) (op : EcuOp) (q : EcuIo P × EcuLog) : Prop :=
  ((p.1.step op).1, p.2.after (p.1.step op).2.1) = q

end Logged

section Guards

variable {P : Type}

/-- A client that is accepted finds both buffers empty. -/
def AcceptsClean (ecu : EcuIo P) (op : EcuOp) : Prop :=
  ∀ io client now accepts, op = .poll io → io.accepts = .ok client now true :: accepts →
    ecu.client = none → ecu.recvBuffer = [] ∧ ecu.outgoing = []

/-- Neither buffer grows past its capacity. -/
structure BelowCaps (ecu : EcuIo P) (op : EcuOp) : Prop where
  recvBuffer : ∀ io, op = .poll io →
    ecu.recvBuffer.length + (readBytes io.reads).length ≤ maxBufferedBytes
  outgoing : ∀ instructionCount name level line, op = .reportOutput instructionCount name level →
    ecu.queuedLine name level = some line → ecu.outgoing.length + line.length ≤ maxBufferedBytes

/-- The buffers hold the end of what the session received and of what it is to be sent. -/
structure BuffersOf (ecu : EcuIo P) (session : EcuSession) : Prop where
  recvBuffer : ∃ consumed, session.received = consumed ++ ecu.recvBuffer ∧
    Lines.rest newline consumed = [] ∧ session.handled = EcuIo.textsOf consumed
  outgoing : session.sent ++ ecu.outgoing = session.reported.flatten

/-- The log is isolated, and the device agrees with it. -/
structure KeepsOwn (ecu : EcuIo P) (log : EcuLog) : Prop where
  listening : ecu.embedded = none
  past : ∀ session ∈ log.past, session.Own ∧ session.Settled
  stray : log.stray = []
  client : ecu.client = log.current.map EcuSession.client
  current : ∀ session, log.current = some session → BuffersOf ecu session
  nobody : log.current = none → newline ∉ ecu.recvBuffer

end Guards

namespace BuffersOf

variable {P : Type} {ecu : EcuIo P} {session : EcuSession}

/-- The lines of the session are those that were handled and those that wait. -/
lemma textsOf_received (h : BuffersOf ecu session) :
    EcuIo.textsOf session.received = session.handled ++ EcuIo.textsOf ecu.recvBuffer := by
  obtain ⟨consumed, hreceived, hrest, hhandled⟩ := h.recvBuffer
  unfold EcuIo.textsOf at *
  rw [hreceived, Lines.complete_append, hrest, List.nil_append, List.filterMap_append, hhandled]

lemma own (h : BuffersOf ecu session) : session.Own := by
  constructor
  · rw [h.textsOf_received]
    exact List.prefix_append _ _
  · rw [← h.outgoing]
    exact List.prefix_append _ _

/-- Without a complete line in the buffer, all lines were handled. -/
lemma settled (h : BuffersOf ecu session) (hnot : newline ∉ ecu.recvBuffer) : session.Settled := by
  have hnone : EcuIo.textsOf ecu.recvBuffer = [] := by
    unfold EcuIo.textsOf
    rw [Lines.complete_of_not_mem hnot]
    rfl
  unfold EcuSession.Settled
  rw [h.textsOf_received, hnone, List.append_nil]

end BuffersOf

namespace KeepsOwn

variable {P : Type} {ecu ecu' : EcuIo P} {log : EcuLog}

lemma isolated (h : KeepsOwn ecu log) : log.Isolated := by
  refine ⟨fun session hmem => ?_, fun session hmem => (h.past session hmem).2, h.stray⟩
  rcases List.mem_append.mp hmem with hpast | hcurrent
  · exact (h.past session hpast).1
  · exact (h.current session (Option.mem_toList.mp hcurrent)).own

/-- Only the link, the client and the buffers count. -/
lemma congr (h : KeepsOwn ecu log) (hembedded : ecu'.embedded = ecu.embedded)
    (hclient : ecu'.client = ecu.client) (hrecv : ecu'.recvBuffer = ecu.recvBuffer)
    (houtgoing : ecu'.outgoing = ecu.outgoing) : KeepsOwn ecu' log where
  listening := hembedded.trans h.listening
  past := h.past
  stray := h.stray
  client := hclient.trans h.client
  current := by
    intro session hsession
    obtain ⟨hbuffer, hqueue⟩ := h.current session hsession
    exact ⟨by rwa [hrecv], by rwa [houtgoing]⟩
  nobody := by
    intro hnone
    rw [hrecv]
    exact h.nobody hnone

/-- A session is current exactly while a client is held. -/
lemma exists_current (h : KeepsOwn ecu log) (hclient : ecu.client ≠ none) :
    ∃ session, log.current = some session := by
  rw [h.client] at hclient
  exact Option.ne_none_iff_exists'.mp fun hnone => hclient (by rw [hnone]; rfl)

lemma current_eq_none (h : KeepsOwn ecu log) (hclient : ecu.client = none) :
    log.current = none := by
  rw [h.client] at hclient
  exact Option.map_eq_none_iff.mp hclient

/-! ### The events -/

/-- A client is gone when none of its lines waits. -/
lemma disconnected (h : KeepsOwn ecu log) (hnot : newline ∉ ecu.recvBuffer) :
    KeepsOwn { ecu with client := none } (log.observe .disconnected) where
  listening := h.listening
  past := by
    intro session hmem
    rcases List.mem_append.mp hmem with hpast | hcurrent
    · exact h.past session hpast
    · have hbuffers := h.current session (Option.mem_toList.mp hcurrent)
      exact ⟨hbuffers.own, hbuffers.settled hnot⟩
  stray := h.stray
  client := rfl
  current := nofun
  nobody := fun _ => hnot

/-- A client is accepted while nobody is held and both buffers are empty. -/
lemma connected (h : KeepsOwn ecu log) (hclient : ecu.client = none) (hrecv : ecu.recvBuffer = [])
    (houtgoing : ecu.outgoing = []) (client : ℕ) :
    KeepsOwn { ecu with client := some client } (log.observe (.connected client)) where
  listening := h.listening
  past := by
    intro session hmem
    have hnone := h.current_eq_none hclient
    rw [EcuLog.observe, hnone, Option.toList_none, List.append_nil] at hmem
    exact h.past session hmem
  stray := h.stray
  client := rfl
  current := by
    rintro session ⟨rfl⟩
    exact ⟨⟨[], by rw [hrecv]; rfl, rfl, rfl⟩, by rw [houtgoing]; rfl⟩
  nobody := nofun

/-- The buffers and the session change together, while the client is held on. -/
lemma update (h : KeepsOwn ecu log) {session session' : EcuSession}
    (hsession : log.current = some session) (hembedded : ecu'.embedded = ecu.embedded)
    (hclient : ecu'.client = ecu.client) (hsame : session'.client = session.client)
    (hbuffers : BuffersOf ecu' session') : KeepsOwn ecu' { log with current := some session' } where
  listening := hembedded.trans h.listening
  past := h.past
  stray := h.stray
  client := by rw [hclient, h.client, hsession, Option.map_some, Option.map_some, hsame]
  current := by
    rintro _ ⟨rfl⟩
    exact hbuffers
  nobody := nofun

/-- Bytes of the client are kept. -/
lemma received (h : KeepsOwn ecu log) (hclient : ecu.client ≠ none) (bytes : List U8) :
    KeepsOwn { ecu with recvBuffer := ecu.recvBuffer ++ bytes }
    (log.observe (.received bytes)) := by
  obtain ⟨session, hsession⟩ := h.exists_current hclient
  have hbuffers := h.current session hsession
  obtain ⟨consumed, hreceived, hrest, hhandled⟩ := hbuffers.recvBuffer
  simp only [EcuLog.observe, hsession]
  refine h.update hsession rfl rfl rfl ⟨⟨consumed, ?_, hrest, hhandled⟩, hbuffers.outgoing⟩
  simp only [EcuLog.extend, hreceived, List.append_assoc]

/-- The oldest bytes are sent. -/
lemma sent (h : KeepsOwn ecu log) (hclient : ecu.client ≠ none) (count : ℕ) :
    KeepsOwn { ecu with outgoing := ecu.outgoing.drop count }
      (log.observe (.sent (ecu.outgoing.take count))) := by
  obtain ⟨session, hsession⟩ := h.exists_current hclient
  have hbuffers := h.current session hsession
  simp only [EcuLog.observe, hsession]
  refine h.update hsession rfl rfl rfl ⟨hbuffers.recvBuffer, ?_⟩
  simp only [EcuLog.extend]
  rw [List.append_assoc, List.take_append_drop]
  exact hbuffers.outgoing

/-- A line is queued. -/
lemma reported (h : KeepsOwn ecu log) (hclient : ecu.client ≠ none) (line : List U8) :
    KeepsOwn { ecu with outgoing := ecu.outgoing ++ line } (log.observe (.reported line)) := by
  obtain ⟨session, hsession⟩ := h.exists_current hclient
  have hbuffers := h.current session hsession
  simp only [EcuLog.observe, hsession]
  refine h.update hsession rfl rfl rfl ⟨hbuffers.recvBuffer, ?_⟩
  simp only [EcuLog.extend, List.flatten_append, List.flatten_singleton]
  rw [← List.append_assoc, hbuffers.outgoing]

/-! ### The loops of a poll -/

lemma after_handled {session : EcuSession} (hsession : log.current = some session)
    (texts : List (List Char)) :
    log.after (texts.map .handled) =
      { log with current := some { session with handled := session.handled ++ texts } } := by
  induction texts generalizing log session with
  | nil =>
    rw [List.map_nil, EcuLog.after_nil, List.append_nil, ← hsession]
  | cons text texts ih =>
    have hobserve : log.observe (.handled text) =
        { log with current := some { session with handled := session.handled ++ [text] } } := by
      simp only [EcuLog.observe, hsession, EcuLog.extend]
    rw [List.map_cons, EcuLog.after_cons, hobserve, ih rfl]
    simp only [List.append_assoc, List.singleton_append]

/-- All complete lines are handled, and none waits. -/
lemma processCompleteLines (h : KeepsOwn ecu log) :
    KeepsOwn ecu.processCompleteLines.1 (log.after ecu.processCompleteLines.2) ∧
      newline ∉ ecu.processCompleteLines.1.recvBuffer ∧
      ecu.processCompleteLines.1.client = ecu.client := by
  obtain ⟨hevents, hstate⟩ := ecu.processCompleteLines_spec
  have hnot : newline ∉ Lines.rest newline ecu.recvBuffer := Lines.not_mem_rest
  refine ⟨?_, by rwa [hstate], by rw [hstate]⟩
  rw [hevents]
  cases hcurrent : log.current with
  | none =>
    have hnone := h.nobody hcurrent
    have htexts : EcuIo.textsOf ecu.recvBuffer = [] := by
      unfold EcuIo.textsOf
      rw [Lines.complete_of_not_mem hnone]
      rfl
    rw [htexts]
    refine h.congr ?_ ?_ ?_ ?_ <;> rw [hstate]
    exact Lines.rest_of_not_mem hnone
  | some session =>
    rw [after_handled hcurrent]
    refine h.update hcurrent (by rw [hstate]) (by rw [hstate]) rfl ⟨?_, ?_⟩
    · obtain ⟨consumed, hreceived, hrest, hhandled⟩ := (h.current session hcurrent).recvBuffer
      obtain ⟨whole, hwhole, hrest', hcomplete⟩ := Lines.exists_whole newline ecu.recvBuffer
      refine ⟨consumed ++ whole, ?_, ?_, ?_⟩
      · rw [hstate, List.append_assoc, ← hwhole]
        exact hreceived
      · rw [Lines.rest_append, hrest, List.nil_append, hrest']
      · unfold EcuIo.textsOf at hhandled ⊢
        rw [Lines.complete_append, hrest, List.nil_append, List.filterMap_append,
          hcomplete, ← hhandled]
    · rw [hstate]
      exact (h.current session hcurrent).outgoing

lemma acceptClients (h : KeepsOwn ecu log) (accepts : List AcceptResult)
    (hclean : ∀ client now later, accepts = .ok client now true :: later → ecu.client = none →
      ecu.recvBuffer = [] ∧ ecu.outgoing = []) :
    KeepsOwn (ecu.acceptClients accepts).1 (log.after (ecu.acceptClients accepts).2.1) ∧
      (ecu.acceptClients accepts).1.recvBuffer = ecu.recvBuffer := by
  induction accepts generalizing ecu log with
  | nil => exact ⟨h, rfl⟩
  | cons result accepts ih =>
    cases result with
    | failed => exact ⟨h, rfl⟩
    | ok client now nonblocking =>
      simp only [EcuIo.acceptClients]
      split
      · next hheld =>
        refine ih h fun _ _ _ _ hnone => ?_
        rw [hnone] at hheld
        cases hheld
      · next hfree =>
        have hnone : ecu.client = none := by simpa using hfree
        split
        · exact ⟨h, rfl⟩
        · next hnonblocking =>
          have htrue : nonblocking = true := by simpa using hnonblocking
          obtain ⟨hrecv, houtgoing⟩ := hclean client now accepts (by rw [htrue]) hnone
          exact ih (h.connected hnone hrecv houtgoing client) (fun _ _ _ _ hno => by cases hno)

lemma receiveLoop (h : KeepsOwn ecu log) (hclient : ecu.client ≠ none) (reads : List ReadResult)
    (hcap : ecu.recvBuffer.length + (readBytes reads).length ≤ maxBufferedBytes) :
    KeepsOwn (ecu.receiveLoop reads).1 (log.after (ecu.receiveLoop reads).2.1) ∧
      (ecu.receiveLoop reads).1.client = ecu.client := by
  induction reads generalizing ecu log with
  | nil => exact ⟨h, rfl⟩
  | cons result reads ih =>
    cases result with
    | connectionReset => exact ⟨h, rfl⟩
    | failed => exact ⟨h, rfl⟩
    | ok bytes =>
      simp only [EcuIo.receiveLoop]
      split
      · exact ⟨h, rfl⟩
      · next hbytes =>
        unfold readBytes at hcap
        rw [if_neg hbytes, List.length_append] at hcap
        have hfits : pushCappedVec ecu.recvBuffer bytes maxBufferedBytes =
            ecu.recvBuffer ++ bytes := by
          unfold pushCappedVec
          rw [Nat.sub_eq_zero_of_le (by rw [List.length_append]; omega), List.drop_zero]
        rw [hfits]
        refine ih (h.received hclient bytes) hclient ?_
        rw [List.length_append]
        omega

lemma sendLoop (h : KeepsOwn ecu log) (hclient : ecu.client ≠ none) (writes : List WriteResult) :
    KeepsOwn (ecu.sendLoop writes).1 (log.after (ecu.sendLoop writes).2.1) ∧
      (ecu.sendLoop writes).1.recvBuffer = ecu.recvBuffer := by
  induction writes generalizing ecu log with
  | nil => exact ⟨h, rfl⟩
  | cons result writes ih =>
    simp only [EcuIo.sendLoop]
    split
    · exact ⟨h, rfl⟩
    · cases result with
      | connectionReset => exact ⟨h, rfl⟩
      | failed => exact ⟨h, rfl⟩
      | ok count =>
        dsimp only
        split
        · exact ⟨h, rfl⟩
        · exact ih (h.sent hclient count) hclient

/-- Handling lines does not look at the client. -/
lemma processLoop_client (fuel : ℕ) (ecu : EcuIo P) (client : Option ℕ) :
    EcuIo.processLoop fuel { ecu with client := client } =
      ({ (EcuIo.processLoop fuel ecu).1 with client := client },
        (EcuIo.processLoop fuel ecu).2) := by
  have hline : ∀ (ecu : EcuIo P) (text : List Char),
      { ecu with client := client }.handleLine text =
        { ecu.handleLine text with client := client } := by
    intro ecu text
    unfold EcuIo.handleLine
    split
    · unfold EcuIo.setValue
      dsimp only
      split_ifs <;> rfl
    · rfl
  induction fuel generalizing ecu with
  | zero => rfl
  | succ fuel ih =>
    simp only [EcuIo.processLoop]
    cases ecu.recvBuffer.findIdx? (· = newline) with
    | none => rfl
    | some pos =>
      dsimp only
      cases decodeLine (ecu.recvBuffer.take pos) with
      | none => exact ih { ecu with recvBuffer := ecu.recvBuffer.drop (pos + 1) }
      | some text =>
        dsimp only
        rw [hline { ecu with recvBuffer := ecu.recvBuffer.drop (pos + 1) } text, ih]

/-- After reading without an error no line waits. -/
lemma receiveFromClient (h : KeepsOwn ecu log) (reads : List ReadResult)
    (hcap : ecu.recvBuffer.length + (readBytes reads).length ≤ maxBufferedBytes) :
    KeepsOwn (ecu.receiveFromClient reads).1 (log.after (ecu.receiveFromClient reads).2.1) ∧
      ((ecu.receiveFromClient reads).2.2 = true →
        newline ∉ (ecu.receiveFromClient reads).1.recvBuffer) := by
  unfold EcuIo.receiveFromClient
  by_cases hclient : ecu.client = none
  · obtain ⟨hkeeps, hnot, -⟩ := h.processCompleteLines
    rw [hclient]
    exact ⟨hkeeps, fun _ => hnot⟩
  · obtain ⟨hkeeps, -⟩ := h.receiveLoop hclient reads hcap
    rw [if_pos (Option.isSome_iff_ne_none.mpr hclient)]
    rcases hloop : ecu.receiveLoop reads with ⟨ecu₁, received, ended⟩
    rw [hloop] at hkeeps
    obtain ⟨hprocessed, hnot, -⟩ := hkeeps.processCompleteLines
    cases ended with
    | failed => exact ⟨hkeeps, fun hno => by cases hno⟩
    | wouldBlock =>
      dsimp only
      rw [EcuLog.after_append]
      exact ⟨hprocessed, fun _ => hnot⟩
    | disconnected =>
      have hcommute : { ecu₁ with client := none }.processCompleteLines =
          ({ ecu₁.processCompleteLines.1 with client := none }, ecu₁.processCompleteLines.2) :=
        processLoop_client _ _ _
      dsimp only
      rw [hcommute, EcuLog.after_append, EcuLog.after_append]
      exact ⟨hprocessed.disconnected hnot, fun _ => hnot⟩

lemma sendToClient (h : KeepsOwn ecu log) (hnot : newline ∉ ecu.recvBuffer)
    (writes : List WriteResult) :
    KeepsOwn (ecu.sendToClient writes).1 (log.after (ecu.sendToClient writes).2.1) ∧
      newline ∉ (ecu.sendToClient writes).1.recvBuffer := by
  unfold EcuIo.sendToClient
  by_cases hclient : ecu.client = none
  · rw [hclient]
    exact ⟨h, hnot⟩
  · obtain ⟨hkeeps, hsame⟩ := h.sendLoop hclient writes
    rw [if_pos (Option.isSome_iff_ne_none.mpr hclient)]
    rcases hloop : ecu.sendLoop writes with ⟨ecu₁, sent, ended⟩
    rw [hloop] at hkeeps hsame
    have hnot₁ : newline ∉ ecu₁.recvBuffer := by rwa [hsame]
    cases ended with
    | wouldBlock => exact ⟨hkeeps, hnot₁⟩
    | failed => exact ⟨hkeeps, hnot₁⟩
    | disconnected =>
      dsimp only
      rw [EcuLog.after_append]
      exact ⟨hkeeps.disconnected hnot₁, hnot₁⟩

/-- After a poll that succeeds no line waits. -/
lemma poll (h : KeepsOwn ecu log) (io : SocketScript) (hclean : AcceptsClean ecu (.poll io))
    (hcaps : BelowCaps ecu (.poll io)) :
    KeepsOwn (ecu.poll io).1 (log.after (ecu.poll io).2.1) ∧
      ((ecu.poll io).2.2 = true → newline ∉ (ecu.poll io).1.recvBuffer) := by
  obtain ⟨haccept, hrecv⟩ := h.acceptClients io.accepts fun client now later haccepts hnone =>
    hclean io client now later rfl haccepts hnone
  have hcases := EcuIo.pollCases h.listening io
  generalize ecu.poll io = result at hcases ⊢
  cases hcases with
  | accepting haccepted =>
    rw [haccepted] at haccept
    exact ⟨haccept, fun hno => by cases hno⟩
  | reading haccepted hreceived =>
    rw [haccepted] at haccept hrecv
    obtain ⟨hreceive, -⟩ := haccept.receiveFromClient io.reads
      (by rw [hrecv]; exact hcaps.recvBuffer io rfl)
    rw [hreceived] at hreceive
    rw [EcuLog.after_append]
    exact ⟨hreceive, fun hno => by cases hno⟩
  | writing haccepted hreceived =>
    rw [haccepted] at haccept hrecv
    obtain ⟨hreceive, hnot⟩ :=
      haccept.receiveFromClient io.reads (by rw [hrecv]; exact hcaps.recvBuffer io rfl)
    rw [hreceived] at hreceive hnot
    obtain ⟨hsend, hnot'⟩ := hreceive.sendToClient (hnot rfl) io.writes
    rw [EcuLog.after_append, EcuLog.after_append]
    exact ⟨hsend, fun _ => hnot'⟩

/-- Reporting an output queues its line, if there is one. -/
lemma outgoing_reportOutput [WheelArithmetic P] (hlistening : ecu.embedded = none)
    (instructionCount : ℕ) (name : String) (level : Bool) :
    ecu.reportOutput instructionCount name level =
      { ecu with
        values := Function.update ecu.values name (some (levelValue level))
        outgoing := match ecu.queuedLine name level with
          | some line => UsbCdcTcp.pushCapped ecu.outgoing line maxBufferedBytes
          | none => ecu.outgoing } := by
  unfold EcuIo.reportOutput EcuIo.queuedLine
  rw [hlistening]
  cases ecu.changed name level <;> cases ecu.client <;> simp

end KeepsOwn

section Runs

variable {P : Type} [WheelArithmetic P] {ecu : EcuIo P} {log : EcuLog}

/-- Every operation keeps the sessions apart, unless a client is accepted with something in a
buffer. -/
lemma KeepsOwn.step (h : KeepsOwn ecu log) (op : EcuOp) (hclean : AcceptsClean ecu op)
    (hcaps : BelowCaps ecu op) : KeepsOwn (ecu.step op).1 (log.after (ecu.step op).2.1) := by
  cases op with
  | poll io => exact (h.poll io hclean hcaps).1
  | setValue name value =>
    change KeepsOwn (ecu.setValue name value) log
    rw [EcuIo.setValue_frame]
    exact h.congr rfl rfl rfl rfl
  | advanceTriggerWheel nowInstructions =>
    change KeepsOwn (ecu.advanceTriggerWheel nowInstructions) log
    rw [EcuIo.advanceTriggerWheel_frame]
    exact h.congr rfl rfl rfl rfl
  | checkDigitalEdges =>
    change KeepsOwn (ecu.checkDigitalEdges _ []).1 log
    unfold EcuIo.checkDigitalEdges
    rw [EcuIo.checkPin_foldl_frame]
    exact h.congr rfl rfl rfl rfl
  | reportOutput instructionCount name level =>
    have hreport := KeepsOwn.outgoing_reportOutput h.listening instructionCount name level
    have hstep : ecu.step (.reportOutput instructionCount name level) =
        (ecu.reportOutput instructionCount name level,
          (ecu.queuedLine name level).toList.map .reported, []) := rfl
    rw [hstep, hreport]
    cases hline : ecu.queuedLine name level with
    | none => exact h.congr rfl rfl rfl rfl
    | some line =>
      have hclient : ecu.client ≠ none := by
        unfold EcuIo.queuedLine at hline
        intro hnone
        simp [hnone] at hline
      have hfits := hcaps.outgoing instructionCount name level line rfl hline
      refine (h.reported hclient line).congr rfl rfl rfl ?_
      exact UsbCdcTcp.pushCapped_of_le hfits

/-- **Sessions of clients are isolated.**  In every run in which a client is accepted only when both
buffers are empty, and no buffer grows past its capacity, each client's lines are handled and no
others, all of them once it is gone, and it is sent the beginning of the lines that were reported
while it was held.  After a poll that succeeds all complete lines were handled. -/
theorem client_sessions_isolated (config : EcuIoConfig) {ops : List EcuOp}
    (hrun : Run (guardedStep (fun p op => AcceptsClean p.1 op ∧ BelowCaps p.1 op) loggedRel)
      (EcuIo.new config none, EcuLog.empty) ops (ecu, log)) :
    log.Isolated ∧ ∀ io, AcceptsClean ecu (.poll io) → BelowCaps ecu (.poll io) →
      (ecu.poll io).2.2 = true → ∀ session, (log.after (ecu.poll io).2.1).current = some session →
        session.Settled := by
  have hkeeps : KeepsOwn ecu log := by
    refine hrun.invariant_state (I := fun p => KeepsOwn p.1 p.2) ?_ ?_
    · exact ⟨rfl, nofun, rfl, rfl, nofun, fun _ => List.not_mem_nil⟩
    · rintro ⟨ecu, log⟩ _ op h ⟨⟨hclean, hcaps⟩, rfl⟩
      exact h.step op hclean hcaps
  refine ⟨hkeeps.isolated, fun io hclean hcaps hok session hsession => ?_⟩
  obtain ⟨hpolled, hnot⟩ := hkeeps.poll io hclean hcaps
  exact (hpolled.current session hsession).settled (hnot hok)

end Runs

/-! ## Two clients -/

/-- An input and an output. -/
def sampleConfig : EcuIoConfig where
  pins := [⟨"n1", ⟨0, 1⟩, .input⟩, ⟨"o1", ⟨0, 0⟩, .output⟩]
  adcChannels := []
  triggerWheel := none

/-- One more operation of a run. -/
lemma logged_snoc {ok : EcuIo ℚ × EcuLog → EcuOp → Prop} {p q : EcuIo ℚ × EcuLog} {ops : List EcuOp}
    (hrun : Run (guardedStep ok loggedRel) p ops q) (op : EcuOp) (hok : ok q op) :
    Run (guardedStep ok loggedRel) p (ops ++ [op])
      ((q.1.step op).1, q.2.after (q.1.step op).2.1) := hrun.snoc ⟨hok, rfl⟩

/-- A poll with short reads grows no buffer past its capacity. -/
lemma belowCaps_of_short {ecu : EcuIo ℚ} {accepts : List AcceptResult} {bytes : List U8}
    {writes : List WriteResult} (hbuffer : ecu.recvBuffer.length ≤ 100)
    (hbytes : bytes.length ≤ 100) :
    BelowCaps ecu (.poll ⟨accepts, [.ok bytes], writes⟩) := by
  refine ⟨?_, nofun⟩
  rintro io ⟨rfl⟩
  simp only [readBytes, List.append_nil]
  unfold maxBufferedBytes
  split_ifs
  · simp only [List.length_nil]
    omega
  · omega

/-- An input is set and an output is reported, in two writes, before the next client comes. -/
theorem client_sessions_isolated_sample : ∃ ops, ∃ (ecu : EcuIo ℚ) (log : EcuLog),
    Run (guardedStep (fun p op => AcceptsClean p.1 op ∧ BelowCaps p.1 op) loggedRel)
        (EcuIo.new sampleConfig none, EcuLog.empty) ops (ecu, log) ∧
      log.past = [⟨0, outputLine "n1" 1, ["n1=1".toList], [outputLine "o1" 1], outputLine "o1" 1⟩] ∧
      log.current = some ⟨1, outputLine "n1" 0, ["n1=0".toList], [], []⟩ ∧ log.Isolated := by
  have hclean : ∀ (ecu : EcuIo ℚ) op, ecu.recvBuffer = [] → ecu.outgoing = [] →
      AcceptsClean ecu op :=
    fun ecu op hrecv houtgoing _ _ _ _ _ _ _ => ⟨hrecv, houtgoing⟩
  have hheld : ∀ (ecu : EcuIo ℚ) op, ecu.client ≠ none → AcceptsClean ecu op :=
    fun ecu op hclient _ _ _ _ _ _ hnone => absurd hnone hclient
  have hrun : Run (guardedStep (fun p op => AcceptsClean p.1 op ∧ BelowCaps p.1 op) loggedRel)
      ((EcuIo.new sampleConfig none : EcuIo ℚ), EcuLog.empty) []
        (EcuIo.new sampleConfig none, EcuLog.empty) :=
    Run.nil
  have hrun := logged_snoc hrun (.poll ⟨[.ok 0 0 true], [.ok (outputLine "n1" 1)], []⟩)
    ⟨hclean _ _ rfl rfl, belowCaps_of_short (by decide) (by decide)⟩
  have hrun := logged_snoc hrun (.reportOutput 0 "o1" true) ⟨hheld _ _ (by decide), by
    refine ⟨nofun, ?_⟩
    rintro _ _ _ line ⟨rfl⟩ hline
    obtain rfl := Option.some.inj hline
    decide⟩
  have hrun := logged_snoc hrun (.poll ⟨[], [], [.ok 3, .ok 2]⟩)
    ⟨hheld _ _ (by decide), ⟨fun io hio => by cases hio; decide, nofun⟩⟩
  have hrun := logged_snoc hrun (.poll ⟨[], [.ok []], []⟩)
    ⟨hheld _ _ (by decide), belowCaps_of_short (by decide) (by decide)⟩
  have hrun := logged_snoc hrun (.poll ⟨[.ok 1 0 true], [.ok (outputLine "n1" 0)], []⟩)
    ⟨hclean _ _ rfl rfl, belowCaps_of_short (by decide) (by decide)⟩
  exact ⟨_, _, _, hrun, rfl, rfl, (client_sessions_isolated sampleConfig hrun).1⟩

/-- A client sends the beginning of a line and is gone.  The first line of the next one is handled
together with it. -/
theorem partial_line_glued : ∃ ops, ∃ (ecu : EcuIo ℚ) (log : EcuLog),
    Run (guardedStep (fun p op => BelowCaps p.1 op) loggedRel)
    (EcuIo.new sampleConfig none, EcuLog.empty) ops (ecu, log) ∧
      log.current = some ⟨1, outputLine "n1" 0, ["n1=n1=0".toList], [], []⟩ ∧ ¬ log.Isolated := by
  have hrun : Run (guardedStep (fun p op => BelowCaps p.1 op) loggedRel)
      ((EcuIo.new sampleConfig none : EcuIo ℚ), EcuLog.empty) []
        (EcuIo.new sampleConfig none, EcuLog.empty) :=
    Run.nil
  have hrun := logged_snoc hrun (.poll ⟨[.ok 0 0 true], [.ok ((outputLine "n1" 1).take 3)], []⟩)
    (belowCaps_of_short (by decide) (by decide))
  have hrun := logged_snoc hrun (.poll ⟨[], [.ok []], []⟩)
    (belowCaps_of_short (by decide) (by decide))
  have hrun := logged_snoc hrun (.poll ⟨[.ok 1 0 true], [.ok (outputLine "n1" 0)], []⟩)
    (belowCaps_of_short (by decide) (by decide))
  refine ⟨_, _, _, hrun, rfl, fun h => ?_⟩
  have hown := (h.own ⟨1, outputLine "n1" 0, ["n1=n1=0".toList], [], []⟩
    (List.mem_append_right _ (by decide))).handled
  exact absurd hown (by decide)

end Stm32Emulator.Ecu
