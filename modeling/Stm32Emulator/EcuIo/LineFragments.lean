import Stm32Emulator.EcuIo.LineStream
import Stm32Emulator.Foundation.CutStreams

/-!
# Lines in a buffer that overflows

A buffer that is full drops its oldest bytes, which may end within a line.  So of the lines that are
handled each is a line that was sent, or the end of one.  Those that a client receives may be joined
from pieces of several lines, as the beginning of one may have been sent before its end is dropped.
Each overflow changes at most one line (`lines_cut_by_overflows`).
-/

namespace Stm32Emulator.Ecu

open Lines

/-! ## What goes through the buffers -/

namespace ClientEvent

def handled? : ClientEvent → Option (List Char)
  | handled text => some text
  | _ => none

def reported? : ClientEvent → Option (List U8)
  | reported line => some line
  | _ => none

def sent? : ClientEvent → Option (List U8)
  | sent bytes => some bytes
  | _ => none

end ClientEvent

/-- How many of some pieces a buffer of a length has no room for. -/
def overflows (length : ℕ) : List (List U8) → ℕ
  | [] => 0
  | piece :: pieces => (if maxBufferedBytes < length + piece.length then 1 else 0) +
      overflows (min (length + piece.length) maxBufferedBytes) pieces

/-- What was received and handled, reported and sent, and how often a buffer overflowed. -/
structure BufferLog where
  received : List U8
  handled : List (List Char)
  inboundOverflows : ℕ
  reported : List U8
  sent : List U8
  outboundOverflows : ℕ

namespace BufferLog

def empty : BufferLog := ⟨[], [], 0, [], [], 0⟩

end BufferLog

section Steps

variable {P : Type} [WheelArithmetic P]

/-- An operation, and the log of the buffers after it. -/
def bufferStep (p : EcuIo P × BufferLog) (op : EcuOp) : EcuIo P × BufferLog :=
  let (ecu, log) := p
  let events := (ecu.step op).2.1
  ((ecu.step op).1,
    { received := log.received ++ receivedBytes events
      handled := log.handled ++ events.filterMap ClientEvent.handled?
      inboundOverflows :=
        log.inboundOverflows + overflows ecu.recvBuffer.length
          (events.filterMap ClientEvent.received?)
      reported := log.reported ++ (events.filterMap ClientEvent.reported?).flatten
      sent := log.sent ++ (events.filterMap ClientEvent.sent?).flatten
      outboundOverflows :=
        log.outboundOverflows + overflows ecu.outgoing.length
          (events.filterMap ClientEvent.reported?) })

end Steps

/-! ## The inbound buffer -/

/-- The bytes that were handled end with a line; with those in the buffer they are the bytes that
were received, with as many runs cut out as there were overflows. -/
def Inbound (received : List U8) (handled : List (List Char)) (cuts : ℕ)
    (buffer : List U8) : Prop :=
  ∃ consumed, rest newline consumed = [] ∧ handled = EcuIo.textsOf consumed ∧
    CutOut (fun before => rest newline before = []) received cuts (consumed ++ buffer)

namespace Inbound

variable {received buffer : List U8} {handled : List (List Char)} {cuts : ℕ}

/-- Bytes are received. -/
lemma receive (h : Inbound received handled cuts buffer) (bytes : List U8) :
    Inbound (received ++ bytes) handled
      (cuts + if maxBufferedBytes < buffer.length + bytes.length then 1 else 0)
      (pushCappedVec buffer bytes maxBufferedBytes) := by
  obtain ⟨consumed, hrest, hhandled, hcut⟩ := h
  exact ⟨consumed, hrest, hhandled, hcut.keepLast hrest bytes maxBufferedBytes⟩

/-- Complete lines are handled. -/
lemma handle (h : Inbound received handled cuts buffer) :
    Inbound received (handled ++ EcuIo.textsOf buffer) cuts (rest newline buffer) := by
  obtain ⟨consumed, hrest, rfl, hcut⟩ := h
  obtain ⟨whole, hbuffer, hwhole, hcomplete⟩ := exists_whole newline buffer
  refine ⟨consumed ++ whole, ?_, ?_, ?_⟩
  · rw [rest_append, hrest, List.nil_append, hwhole]
  · unfold EcuIo.textsOf
    rw [complete_append, hrest, List.nil_append, List.filterMap_append, hcomplete]
  · rwa [List.append_assoc, ← hbuffer]

/-- The lines that were handled are ends of lines that were received, all but some of them whole. -/
lemma lines (h : Inbound received handled cuts buffer) :
    ∃ lines, handled = lines.filterMap decodeLine ∧
    List.SublistForall₂ (· <:+ ·) lines (complete newline received) ∧
    ∃ whole : List (List U8), whole.Sublist lines ∧ whole.Sublist (complete newline received) ∧
      lines.length ≤ whole.length + cuts := by
  obtain ⟨consumed, hrest, hhandled, hcut⟩ := h
  have hlines : (complete newline consumed).Sublist (complete newline (consumed ++ buffer)) := by
    rw [complete_append]
    exact List.sublist_append_left _ _
  obtain ⟨whole, hkept, hreceived, hlength⟩ := hcut.exists_whole newline
  obtain ⟨common, hcommon, hcommon', hmissing⟩ := exists_common_sublist hlines hkept
  refine ⟨complete newline consumed, hhandled,
    IsTrans.trans _ _ _ hlines.sublistForall₂ hcut.tails, common, hcommon,
    hcommon'.trans hreceived, ?_⟩
  omega

variable {P : Type} {ecu : EcuIo P}

/-- The loop over the reads. -/
lemma receiveLoop (h : Inbound received handled cuts ecu.recvBuffer)
    (hlength : ecu.recvBuffer.length ≤ maxBufferedBytes) (reads : List ReadResult) :
    Inbound (received ++ receivedBytes (ecu.receiveLoop reads).2.1) handled
        (cuts + overflows ecu.recvBuffer.length
          ((ecu.receiveLoop reads).2.1.filterMap ClientEvent.received?))
          (ecu.receiveLoop reads).1.recvBuffer ∧
      (ecu.receiveLoop reads).1.recvBuffer.length ≤ maxBufferedBytes := by
  have hnothing : ∀ {ecu : EcuIo P} {received : List U8} {cuts : ℕ},
      Inbound received handled cuts ecu.recvBuffer →
      ecu.recvBuffer.length ≤ maxBufferedBytes →
      Inbound (received ++ receivedBytes []) handled
        (cuts + overflows ecu.recvBuffer.length []) ecu.recvBuffer ∧
        ecu.recvBuffer.length ≤ maxBufferedBytes := by
    intro ecu received cuts h hlength
    rw [show receivedBytes [] = [] from rfl, List.append_nil]
    exact ⟨h, hlength⟩
  induction reads generalizing ecu received cuts with
  | nil => exact hnothing h hlength
  | cons result reads ih =>
    cases result with
    | connectionReset => exact hnothing h hlength
    | failed => exact hnothing h hlength
    | ok bytes =>
      by_cases hbytes : bytes = []
      · simp only [EcuIo.receiveLoop, if_pos hbytes]
        exact hnothing h hlength
      · have hkept : (pushCappedVec ecu.recvBuffer bytes maxBufferedBytes).length =
            min (ecu.recvBuffer.length + bytes.length) maxBufferedBytes := by
          unfold pushCappedVec
          rw [List.length_drop, List.length_append]
          omega
        have hpushed := h.receive bytes
        simp only [EcuIo.receiveLoop, if_neg hbytes]
        generalize pushCappedVec ecu.recvBuffer bytes maxBufferedBytes = buffer at hkept hpushed ⊢
        have hle : buffer.length ≤ maxBufferedBytes := by
          rw [hkept]
          exact min_le_right _ _
        have hlater := @ih (received ++ bytes) _ { ecu with recvBuffer := buffer } hpushed hle
        dsimp only at hlater
        rw [hkept, List.append_assoc, Nat.add_assoc] at hlater
        exact hlater

/-- Receiving, and handling the lines. -/
lemma receiveFromClient (h : Inbound received handled cuts ecu.recvBuffer)
    (hlength : ecu.recvBuffer.length ≤ maxBufferedBytes) (reads : List ReadResult) :
    Inbound (received ++ receivedBytes (ecu.receiveFromClient reads).2.1)
        (handled ++ (ecu.receiveFromClient reads).2.1.filterMap ClientEvent.handled?)
        (cuts + overflows ecu.recvBuffer.length
          ((ecu.receiveFromClient reads).2.1.filterMap ClientEvent.received?))
        (ecu.receiveFromClient reads).1.recvBuffer ∧
      (ecu.receiveFromClient reads).1.recvBuffer.length ≤ maxBufferedBytes := by
  have hloop : ∀ result, (if ecu.client.isSome then ecu.receiveLoop reads
      else (ecu, [], .wouldBlock)) = result →
      Inbound (received ++ receivedBytes result.2.1) handled
          (cuts + overflows ecu.recvBuffer.length (result.2.1.filterMap ClientEvent.received?))
          result.1.recvBuffer ∧
        result.1.recvBuffer.length ≤ maxBufferedBytes ∧
        result.2.1.filterMap ClientEvent.handled? = [] := by
    rintro _ rfl
    split_ifs
    · obtain ⟨hinbound, hlength⟩ := h.receiveLoop hlength reads
      refine ⟨hinbound, hlength, List.filterMap_eq_nil_iff.mpr fun event hevent => ?_⟩
      obtain ⟨bytes, rfl⟩ := EcuIo.eq_received_of_mem_loop hevent
      rfl
    · rw [show receivedBytes [] = [] from rfl, List.append_nil]
      exact ⟨h, hlength, rfl⟩
  have hreceived : ∀ texts : List (List Char),
      (texts.map ClientEvent.handled).filterMap ClientEvent.received? = [] :=
    fun texts => by rw [List.filterMap_map]; exact List.filterMap_none texts
  have hhandled : ∀ texts : List (List Char),
      (texts.map ClientEvent.handled).filterMap ClientEvent.handled? = texts :=
    fun texts => by rw [List.filterMap_map]; exact List.filterMap_some
  have hrest : ∀ buffer : List U8, (rest newline buffer).length ≤ buffer.length := by
    intro buffer
    obtain ⟨whole, hbuffer, -⟩ := exists_whole newline buffer
    have := congrArg List.length hbuffer
    rw [List.length_append] at this
    omega
  unfold EcuIo.receiveFromClient
  generalize (if ecu.client.isSome then ecu.receiveLoop reads else (ecu, [], .wouldBlock)) =
    result at hloop ⊢
  obtain ⟨hinbound, hlength, hnone⟩ := hloop result rfl
  obtain ⟨ecu₁, events, ended⟩ := result
  dsimp only at hinbound hlength hnone
  cases ended with
  | failed =>
    dsimp only
    rw [hnone, List.append_nil]
    exact ⟨hinbound, hlength⟩
  | wouldBlock =>
    obtain ⟨htexts, hstate⟩ := EcuIo.processCompleteLines_spec ecu₁
    dsimp only
    rw [htexts, hstate, receivedBytes_append, receivedBytes_handled, List.append_nil,
      List.filterMap_append, List.filterMap_append, hnone, hreceived, hhandled, List.nil_append,
      List.append_nil]
    exact ⟨hinbound.handle, (hrest _).trans hlength⟩
  | disconnected =>
    obtain ⟨htexts, hstate⟩ := EcuIo.processCompleteLines_spec { ecu₁ with client := none }
    have hgone : receivedBytes [.disconnected] = [] := rfl
    have hgone' : [ClientEvent.disconnected].filterMap ClientEvent.received? = [] := rfl
    have hgone'' : [ClientEvent.disconnected].filterMap ClientEvent.handled? = [] := rfl
    dsimp only at htexts hstate ⊢
    rw [htexts, hstate, receivedBytes_append, receivedBytes_append, receivedBytes_handled, hgone,
      List.append_nil, List.append_nil, List.filterMap_append, List.filterMap_append,
      List.filterMap_append, List.filterMap_append, hnone, hreceived, hhandled, hgone', hgone'',
      List.nil_append, List.append_nil, List.append_nil, List.append_nil]
    exact ⟨hinbound.handle, (hrest _).trans hlength⟩

/-- A poll. -/
lemma poll (h : Inbound received handled cuts ecu.recvBuffer)
    (hlength : ecu.recvBuffer.length ≤ maxBufferedBytes) (hlistening : ecu.embedded = none)
    (io : SocketScript) :
    Inbound (received ++ receivedBytes (ecu.poll io).2.1)
        (handled ++ (ecu.poll io).2.1.filterMap ClientEvent.handled?)
        (cuts + overflows ecu.recvBuffer.length ((ecu.poll io).2.1.filterMap ClientEvent.received?))
        (ecu.poll io).1.recvBuffer ∧
      (ecu.poll io).1.recvBuffer.length ≤ maxBufferedBytes := by
  have haccept := EcuIo.acceptClients_frame ecu io.accepts
  have hnothing := EcuIo.receivedBytes_acceptClients ecu io.accepts
  have hreceived := EcuIo.filterMap_acceptClients (f := ClientEvent.received?)
    (fun _ => rfl) ecu io.accepts
  have hhandled := EcuIo.filterMap_acceptClients (f := ClientEvent.handled?)
    (fun _ => rfl) ecu io.accepts
  have hcases := EcuIo.pollCases hlistening io
  have hsame : (ecu.acceptClients io.accepts).1.recvBuffer = ecu.recvBuffer := by rw [haccept]
  have hreceive := @receiveFromClient received handled cuts P (ecu.acceptClients io.accepts).1
    (by rwa [hsame]) (by rwa [hsame]) io.reads
  rw [hsame] at hreceive
  generalize ecu.poll io = result at hcases ⊢
  cases hcases with
  | accepting haccepts =>
    rw [haccepts] at hnothing hreceived hhandled hsame
    dsimp only at hnothing hreceived hhandled hsame ⊢
    rw [hnothing, hreceived, hhandled, List.append_nil, List.append_nil, hsame]
    exact ⟨h, hlength⟩
  | reading haccepts hreads =>
    rw [haccepts] at hnothing hreceived hhandled hreceive
    dsimp only at hnothing hreceived hhandled hreceive ⊢
    rw [hreads] at hreceive
    rw [receivedBytes_append, List.filterMap_append, List.filterMap_append, hnothing,
      hreceived, hhandled]
    exact hreceive
  | @writing ecu₁ ecu₂ _ _ haccepts hreads =>
    have hsend := EcuIo.sendToClient_frame ecu₂ io.writes
    have hsent := EcuIo.receivedBytes_sendToClient ecu₂ io.writes
    have hsent' := EcuIo.filterMap_sendToClient (f := ClientEvent.received?) rfl
      (fun _ => rfl) ecu₂ io.writes
    have hsent'' := EcuIo.filterMap_sendToClient (f := ClientEvent.handled?) rfl
      (fun _ => rfl) ecu₂ io.writes
    rw [haccepts] at hnothing hreceived hhandled hreceive
    dsimp only at hnothing hreceived hhandled hreceive ⊢
    rw [hreads] at hreceive
    rw [receivedBytes_append, receivedBytes_append, List.filterMap_append, List.filterMap_append,
      List.filterMap_append, List.filterMap_append, hnothing, hreceived, hhandled, hsent,
      hsent', hsent'', List.append_nil, List.append_nil, List.append_nil, hsend]
    exact hreceive

end Inbound

/-! ## The outbound queue -/

section Outbound

variable {P : Type} {ecu : EcuIo P}

/-- The loop over the writes takes what it sends from the front of the queue. -/
lemma sent_sendLoop (ecu : EcuIo P) (writes : List WriteResult) :
    ((ecu.sendLoop writes).2.1.filterMap ClientEvent.sent?).flatten ++
      (ecu.sendLoop writes).1.outgoing =
      ecu.outgoing := by
  induction writes generalizing ecu with
  | nil => rfl
  | cons result writes ih =>
    simp only [EcuIo.sendLoop]
    split_ifs
    · rfl
    · cases result with
      | connectionReset => rfl
      | failed => rfl
      | ok count =>
        dsimp only
        split_ifs
        · rfl
        · have hlater := ih { ecu with outgoing := ecu.outgoing.drop count }
          have hcons : ∀ bytes (events : List ClientEvent),
              ((.sent bytes :: events).filterMap ClientEvent.sent?).flatten =
                bytes ++ (events.filterMap ClientEvent.sent?).flatten := fun _ _ => rfl
          dsimp only
          rw [hcons, List.append_assoc, hlater]
          exact List.take_append_drop _ _

/-- Nothing else of a poll touches the queue. -/
lemma sent_poll (hlistening : ecu.embedded = none) (io : SocketScript) :
    ((ecu.poll io).2.1.filterMap ClientEvent.sent?).flatten ++ (ecu.poll io).1.outgoing =
      ecu.outgoing ∧
      (ecu.poll io).2.1.filterMap ClientEvent.reported? = [] := by
  have hloop : ∀ ecu : EcuIo P,
      ((ecu.sendToClient io.writes).2.1.filterMap ClientEvent.sent?).flatten ++
      (ecu.sendToClient io.writes).1.outgoing = ecu.outgoing := by
    intro ecu
    have hsent : ∀ result, (if ecu.client.isSome then ecu.sendLoop io.writes
        else (ecu, [], .wouldBlock)) = result →
        (result.2.1.filterMap ClientEvent.sent?).flatten ++ result.1.outgoing = ecu.outgoing := by
      rintro _ rfl
      split_ifs
      · exact sent_sendLoop ecu io.writes
      · rfl
    unfold EcuIo.sendToClient
    generalize (if ecu.client.isSome then ecu.sendLoop io.writes else (ecu, [], .wouldBlock)) =
      result at hsent ⊢
    have hsent := hsent result rfl
    obtain ⟨ecu₁, events, ended⟩ := result
    cases ended with
    | wouldBlock => exact hsent
    | failed => exact hsent
    | disconnected =>
      have hgone : [ClientEvent.disconnected].filterMap ClientEvent.sent? = [] := rfl
      dsimp only at hsent ⊢
      rwa [List.filterMap_append, hgone, List.append_nil]
  have haccept := EcuIo.acceptClients_frame ecu io.accepts
  have hsent := EcuIo.filterMap_acceptClients (f := ClientEvent.sent?) (fun _ => rfl) ecu io.accepts
  have hreported := EcuIo.filterMap_acceptClients (f := ClientEvent.reported?)
    (fun _ => rfl) ecu io.accepts
  have hcases := EcuIo.pollCases hlistening io
  generalize ecu.poll io = result at hcases ⊢
  cases hcases with
  | accepting haccepts =>
    rw [haccepts] at haccept hsent hreported
    dsimp only at haccept hsent hreported ⊢
    rw [hsent, hreported, haccept]
    exact ⟨rfl, rfl⟩
  | @reading ecu₁ ecu₂ _ _ haccepts hreads =>
    have hreceive := EcuIo.receiveFromClient_frame ecu₁ io.reads
    have hsent' := EcuIo.filterMap_receiveFromClient (f := ClientEvent.sent?) rfl (fun _ => rfl)
      (fun _ => rfl) ecu₁ io.reads
    have hreported' := EcuIo.filterMap_receiveFromClient (f := ClientEvent.reported?) rfl
      (fun _ => rfl) (fun _ => rfl) ecu₁ io.reads
    rw [haccepts] at haccept hsent hreported
    rw [hreads] at hreceive hsent' hreported'
    dsimp only at haccept hsent hreported hreceive hsent' hreported' ⊢
    rw [List.filterMap_append, List.filterMap_append, hsent, hsent', hreported, hreported',
      hreceive, haccept]
    exact ⟨rfl, rfl⟩
  | @writing ecu₁ ecu₂ _ _ haccepts hreads =>
    have hreceive := EcuIo.receiveFromClient_frame ecu₁ io.reads
    have hsent' := EcuIo.filterMap_receiveFromClient (f := ClientEvent.sent?) rfl (fun _ => rfl)
      (fun _ => rfl) ecu₁ io.reads
    have hreported' := EcuIo.filterMap_receiveFromClient (f := ClientEvent.reported?) rfl
      (fun _ => rfl) (fun _ => rfl) ecu₁ io.reads
    have hnone := EcuIo.filterMap_sendToClient (f := ClientEvent.reported?) rfl
      (fun _ => rfl) ecu₂ io.writes
    rw [haccepts] at haccept hsent hreported
    rw [hreads] at hreceive hsent' hreported'
    dsimp only at haccept hsent hreported hreceive hsent' hreported' ⊢
    have hsame : ecu₂.outgoing = ecu.outgoing := by rw [hreceive, haccept]
    rw [List.filterMap_append, List.filterMap_append, List.filterMap_append, List.filterMap_append,
      hsent, hsent', hreported, hreported', hnone]
    exact ⟨(hloop ecu₂).trans hsame, rfl⟩

/-- Making room byte by byte keeps the newest bytes. -/
lemma pushCapped_eq_keepLast {queue : List U8} {capacity : ℕ} (hpos : 0 < capacity)
    (hlength : queue.length ≤ capacity) (bytes : List U8) :
    UsbCdcTcp.pushCapped queue bytes capacity = keepLast capacity (queue ++ bytes) := by
  induction bytes generalizing queue with
  | nil =>
    rw [List.append_nil, keepLast_of_length_le hlength]
    rfl
  | cons byte bytes ih =>
    have hpushed := pushBounded_eq_keepLast hpos hlength byte
    have hlater := @ih (keepLast capacity (queue ++ [byte])) (length_keepLast_le _ _)
    rw [keepLast_append, List.append_assoc] at hlater
    refine Eq.trans ?_ hlater
    rw [← hpushed]
    rfl

end Outbound

/-! ## Operations -/

section Accounts

variable {P : Type} {ecu : EcuIo P} {log : BufferLog}

/-- The log accounts for both buffers. -/
structure Accounts (ecu : EcuIo P) (log : BufferLog) : Prop where
  listening : ecu.embedded = none
  recvLength : ecu.recvBuffer.length ≤ maxBufferedBytes
  outgoingLength : ecu.outgoing.length ≤ maxBufferedBytes
  inbound : Inbound log.received log.handled log.inboundOverflows ecu.recvBuffer
  outbound : CutOut (fun _ => True) log.reported log.outboundOverflows (log.sent ++ ecu.outgoing)

variable [WheelArithmetic P]

/-- An operation without events that leaves the buffers alone. -/
lemma Accounts.keep (h : Accounts ecu log) {op : EcuOp} (hevents : (ecu.step op).2.1 = [])
    (hframe : (ecu.step op).1.embedded = ecu.embedded ∧
      (ecu.step op).1.recvBuffer = ecu.recvBuffer ∧
      (ecu.step op).1.outgoing = ecu.outgoing) :
    Accounts (bufferStep (ecu, log) op).1 (bufferStep (ecu, log) op).2 := by
  obtain ⟨hembedded, hrecv, houtgoing⟩ := hframe
  have hlog : (bufferStep (ecu, log) op).2 = log := by
    unfold bufferStep
    dsimp only
    rw [hevents]
    simp [receivedBytes, overflows]
  have hecu : (bufferStep (ecu, log) op).1 = (ecu.step op).1 := rfl
  rw [hlog, hecu]
  exact ⟨hembedded.trans h.listening, hrecv ▸ h.recvLength, houtgoing ▸ h.outgoingLength,
    hrecv ▸ h.inbound, houtgoing ▸ h.outbound⟩

/-- A report that queues a line. -/
lemma bufferStep_of_queued (hlistening : ecu.embedded = none)
    (hlength : ecu.outgoing.length ≤ maxBufferedBytes) {instructionCount : ℕ} {name : String}
    {level : Bool} {line : List U8} (hline : ecu.queuedLine name level = some line) :
    bufferStep (ecu, log) (.reportOutput instructionCount name level) =
      ({ ecu with
          values := Function.update ecu.values name (some (levelValue level))
          outgoing := keepLast maxBufferedBytes (ecu.outgoing ++ line) },
        { log with
          reported := log.reported ++ line
          outboundOverflows :=
            log.outboundOverflows + if maxBufferedBytes < ecu.outgoing.length + line.length then 1
              else 0 }) := by
  have hreport := KeepsOwn.outgoing_reportOutput hlistening instructionCount name level
  have hevents : (ecu.step (.reportOutput instructionCount name level)).2.1 =
      (ecu.queuedLine name level).toList.map .reported := rfl
  have hecu : (ecu.step (.reportOutput instructionCount name level)).1 =
      ecu.reportOutput instructionCount name level := rfl
  have hreceived : ([line].map ClientEvent.reported).filterMap ClientEvent.received? = [] := rfl
  have hreported : ([line].map ClientEvent.reported).filterMap ClientEvent.reported? = [line] := rfl
  have hhandled : ([line].map ClientEvent.reported).filterMap ClientEvent.handled? = [] := rfl
  have hsent : ([line].map ClientEvent.reported).filterMap ClientEvent.sent? = [] := rfl
  have hnothing : receivedBytes ([line].map ClientEvent.reported) = [] := rfl
  rw [hline] at hreport hevents
  dsimp only [Option.toList_some] at hreport hevents
  rw [pushCapped_eq_keepLast (by decide) hlength] at hreport
  unfold bufferStep
  dsimp only
  rw [hevents, hecu, hreport, hreceived, hreported, hhandled, hsent, hnothing,
    List.flatten_singleton, List.flatten_nil, List.append_nil, List.append_nil, List.append_nil]
  rfl

/-- Every operation is accounted for. -/
lemma Accounts.step (h : Accounts ecu log) (op : EcuOp) :
    Accounts (bufferStep (ecu, log) op).1 (bufferStep (ecu, log) op).2 := by
  cases op with
  | setValue name value =>
    refine h.keep rfl ?_
    change (ecu.setValue name value).embedded = _ ∧ (ecu.setValue name value).recvBuffer = _ ∧
      (ecu.setValue name value).outgoing = _
    rw [EcuIo.setValue_frame]
    exact ⟨rfl, rfl, rfl⟩
  | advanceTriggerWheel nowInstructions =>
    refine h.keep rfl ?_
    change (ecu.advanceTriggerWheel nowInstructions).embedded = _ ∧
      (ecu.advanceTriggerWheel nowInstructions).recvBuffer = _ ∧
      (ecu.advanceTriggerWheel nowInstructions).outgoing = _
    rw [EcuIo.advanceTriggerWheel_frame]
    exact ⟨rfl, rfl, rfl⟩
  | checkDigitalEdges =>
    refine h.keep rfl ?_
    change (ecu.checkDigitalEdges _ []).1.embedded = _ ∧
      (ecu.checkDigitalEdges _ []).1.recvBuffer = _ ∧
      (ecu.checkDigitalEdges _ []).1.outgoing = _
    unfold EcuIo.checkDigitalEdges
    rw [EcuIo.checkPin_foldl_frame]
    exact ⟨rfl, rfl, rfl⟩
  | poll io =>
    obtain ⟨hinbound, hlength⟩ := h.inbound.poll h.recvLength h.listening io
    obtain ⟨hsent, hreported⟩ := sent_poll h.listening io
    have hframe := EcuIo.poll_frame_of_listening ecu io h.listening
    have hevents : (ecu.step (.poll io)).2.1 = (ecu.poll io).2.1 := rfl
    have hecu : (ecu.step (.poll io)).1 = (ecu.poll io).1 := rfl
    unfold bufferStep
    dsimp only
    rw [hevents, hecu, hreported]
    refine ⟨by rw [hframe], hlength, ?_, hinbound, ?_⟩
    · have hle := congrArg List.length hsent
      rw [List.length_append] at hle
      have hbefore := h.outgoingLength
      omega
    · dsimp only
      rw [List.flatten_nil, List.append_nil, List.append_assoc, hsent]
      exact h.outbound
  | reportOutput instructionCount name level =>
    cases hline : ecu.queuedLine name level with
    | none =>
      have hreport := KeepsOwn.outgoing_reportOutput h.listening instructionCount name level
      have hevents : (ecu.step (.reportOutput instructionCount name level)).2.1 =
          (ecu.queuedLine name level).toList.map .reported := rfl
      have hecu : (ecu.step (.reportOutput instructionCount name level)).1 =
          ecu.reportOutput instructionCount name level := rfl
      rw [hline] at hreport hevents
      refine h.keep hevents ?_
      rw [hecu, hreport]
      exact ⟨rfl, rfl, rfl⟩
    | some line =>
      have hlength := length_keepLast_le maxBufferedBytes (ecu.outgoing ++ line)
      have hcut := h.outbound.keepLast trivial line maxBufferedBytes
      rw [bufferStep_of_queued h.listening h.outgoingLength hline]
      generalize keepLast maxBufferedBytes (ecu.outgoing ++ line) = outgoing at hlength hcut ⊢
      dsimp only
      exact ⟨h.listening, h.recvLength, hlength, h.inbound, hcut⟩

/-- From the start on. -/
lemma accounts_foldl (config : EcuIoConfig) (ops : List EcuOp) :
    Accounts (ops.foldl bufferStep ((EcuIo.new config none : EcuIo P), BufferLog.empty)).1
      (ops.foldl bufferStep ((EcuIo.new config none : EcuIo P), BufferLog.empty)).2 := by
  have hnew : Accounts (EcuIo.new config none : EcuIo P) BufferLog.empty :=
    ⟨rfl, Nat.zero_le _, Nat.zero_le _, ⟨[], rfl, rfl, .whole⟩, .whole⟩
  generalize (EcuIo.new config none : EcuIo P) = ecu at hnew ⊢
  generalize BufferLog.empty = log at hnew ⊢
  induction ops generalizing ecu log with
  | nil => exact hnew
  | cons op ops ih => exact ih _ _ (hnew.step op)

omit [WheelArithmetic P] in
/-- What was sent was reported, in this order. -/
lemma Accounts.sent_sublist (h : Accounts ecu log) : log.sent.Sublist log.reported :=
  (List.sublist_append_left _ _).trans h.outbound.sublist

omit [WheelArithmetic P] in
/-- The lines that were sent are lines that were reported, all but some of them. -/
lemma Accounts.lines_sent (h : Accounts ecu log) :
    ∃ whole : List (List U8), whole.Sublist (complete newline log.sent) ∧
      whole.Sublist (complete newline log.reported) ∧
      (complete newline log.sent).length ≤ whole.length + log.outboundOverflows := by
  have hlines : (complete newline log.sent).Sublist
      (complete newline (log.sent ++ ecu.outgoing)) := by
    rw [complete_append]
    exact List.sublist_append_left _ _
  obtain ⟨whole, hkept, hreported, hlength⟩ := h.outbound.exists_whole newline
  obtain ⟨common, hcommon, hcommon', hmissing⟩ := exists_common_sublist hlines hkept
  refine ⟨common, hcommon, hcommon'.trans hreported, ?_⟩
  omega

/-- **Overflows cut lines.**  The lines that are handled are lines that were received or the ends of
such, in order, and what is sent was reported, in order; each overflow leaves all lines but one
whole. -/
theorem lines_cut_by_overflows (config : EcuIoConfig) (ops : List EcuOp) :
    let log := (ops.foldl bufferStep ((EcuIo.new config none : EcuIo P), BufferLog.empty)).2
    (∃ lines, log.handled = lines.filterMap decodeLine ∧
      List.SublistForall₂ (· <:+ ·) lines (complete newline log.received) ∧
      ∃ whole : List (List U8), whole.Sublist lines ∧
        whole.Sublist (complete newline log.received) ∧
        lines.length ≤ whole.length + log.inboundOverflows) ∧
    log.sent.Sublist log.reported ∧
      ∃ whole : List (List U8), whole.Sublist (complete newline log.sent) ∧
        whole.Sublist (complete newline log.reported) ∧
        (complete newline log.sent).length ≤ whole.length + log.outboundOverflows := by
  have haccounts := accounts_foldl (P := P) config ops
  exact ⟨haccounts.inbound.lines, haccounts.sent_sublist, haccounts.lines_sent⟩

end Accounts

/-! ## Lines that nobody sent -/

/-- The bytes of many lines are lines among these. -/
lemma complete_replicate {block : List U8} (hrest : rest newline block = []) (n : ℕ)
    {line : List U8} (hline : line ∈ complete newline (List.replicate n block).flatten) :
    line ∈ complete newline block := by
  induction n with
  | zero => cases hline
  | succ n ih =>
    rw [List.replicate_succ, List.flatten_cons, complete_append, hrest, List.nil_append] at hline
    exact (List.mem_append.mp hline).elim id ih

/-- Reads whose bytes the buffer takes. -/
lemma receiveLoop_ok {P : Type} {pieces : List (List U8)} (hpieces : ∀ piece ∈ pieces, piece ≠ [])
    {ecu : EcuIo P} (hlength : ecu.recvBuffer.length ≤ maxBufferedBytes) :
    ecu.receiveLoop (pieces.map .ok) =
      ({ ecu with recvBuffer := keepLast maxBufferedBytes (ecu.recvBuffer ++ pieces.flatten) },
        pieces.map .received, .wouldBlock) := by
  induction pieces generalizing ecu with
  | nil =>
    rw [List.flatten_nil, List.append_nil, keepLast_of_length_le hlength]
    rfl
  | cons piece pieces ih =>
    obtain ⟨hpiece, hlater⟩ := List.forall_mem_cons.mp hpieces
    have hpushed : pushCappedVec ecu.recvBuffer piece maxBufferedBytes =
        keepLast maxBufferedBytes (ecu.recvBuffer ++ piece) := rfl
    have hle := length_keepLast_le maxBufferedBytes (ecu.recvBuffer ++ piece)
    have hjoined := keepLast_append maxBufferedBytes (ecu.recvBuffer ++ piece) pieces.flatten
    simp only [List.map_cons, EcuIo.receiveLoop, if_neg hpiece, hpushed]
    generalize keepLast maxBufferedBytes (ecu.recvBuffer ++ piece) = buffer at hle hjoined ⊢
    have hih := @ih hlater { ecu with recvBuffer := buffer } hle
    dsimp only at hih
    rw [hih, hjoined, List.flatten_cons, List.append_assoc]

/-- Reading that ends without an error. -/
lemma receiveFromClient_ok {P : Type} {ecu : EcuIo P} {reads : List ReadResult}
    {events : List ClientEvent} {buffer : List U8} (hclient : ecu.client.isSome = true)
    (hloop : ecu.receiveLoop reads = ({ ecu with recvBuffer := buffer }, events, .wouldBlock)) :
    (ecu.receiveFromClient reads).2 = (events ++ (EcuIo.textsOf buffer).map .handled, true) := by
  have htexts := (EcuIo.processCompleteLines_spec { ecu with recvBuffer := buffer }).1
  unfold EcuIo.receiveFromClient
  rw [if_pos hclient, hloop]
  dsimp only at htexts ⊢
  rw [htexts]

/-- A poll that only reads. -/
lemma poll_reads {P : Type} {ecu : EcuIo P} {reads : List ReadResult} {events : List ClientEvent}
    (hlistening : ecu.embedded = none)
    (hreceive : (ecu.receiveFromClient reads).2 = (events, true)) :
    (ecu.poll ⟨[], reads, []⟩).2.1 = events := by
  have hsend : ∀ ecu : EcuIo P, (ecu.sendToClient []).2.1 = [] := by
    intro ecu
    unfold EcuIo.sendToClient
    split_ifs <;> rfl
  unfold EcuIo.poll
  rw [hlistening]
  dsimp only [EcuIo.acceptClients]
  generalize ecu.receiveFromClient reads = result at hreceive ⊢
  obtain ⟨ecu₁, events₁, ok⟩ := result
  obtain ⟨rfl, rfl⟩ := Prod.mk.inj hreceive
  dsimp only
  rw [hsend, List.nil_append, List.append_nil]

/-- A line, and the beginning of another that fills the buffer to one byte less than both need. -/
def longPieces : List (List U8) :=
  [0x61, 0x6e, 0x31, 0x3d, 0x31, 0x0a] :: List.replicate 63 (List.replicate 1024 0x78) ++
    [List.replicate 1019 0x78]

lemma flatten_longPieces : longPieces.flatten =
    0x61 :: ([0x6e, 0x31, 0x3d, 0x31] ++ newline :: List.replicate 65531 0x78) := by
  unfold longPieces
  rw [List.flatten_append, List.flatten_cons, List.flatten_replicate_replicate,
    List.flatten_singleton, List.append_assoc, List.replicate_append_replicate,
    show 63 * 1024 + 1019 = 65531 from rfl]
  generalize List.replicate 65531 _ = later
  rfl

/-- The first byte is dropped. -/
lemma keepLast_longPieces : keepLast maxBufferedBytes longPieces.flatten =
    [0x6e, 0x31, 0x3d, 0x31] ++ newline :: List.replicate 65531 0x78 := by
  have hlength : ∀ later : List U8, later.length = 65531 →
      (0x61 :: ([0x6e, 0x31, 0x3d, 0x31] ++ newline :: later)).length = maxBufferedBytes + 1 := by
    intro later hlater
    simp only [List.cons_append, List.nil_append, List.length_cons, hlater, maxBufferedBytes]
  rw [flatten_longPieces, keepLast_of_length_eq (hlength _ List.length_replicate), List.drop_one,
    List.tail_cons]

/-- A client that reads nothing while outputs are reported. -/
structure Unread (ecu : EcuIo ℚ) (log : BufferLog) (queued : List U8) : Prop where
  listening : ecu.embedded = none
  client : ecu.client.isSome = true
  outgoing : ecu.outgoing = keepLast maxBufferedBytes queued
  reported : log.reported = queued
  sent : log.sent = []

namespace Unread

variable {ecu : EcuIo ℚ} {log : BufferLog} {queued : List U8}

/-- A change of an output is queued. -/
lemma report (h : Unread ecu log queued) {name : String} {level : Bool}
    (hchanged : ecu.values name ≠ some (levelValue level)) :
    Unread (bufferStep (ecu, log) (.reportOutput 0 name level)).1
        (bufferStep (ecu, log) (.reportOutput 0 name level)).2
        (queued ++ outputLine name (levelValue level)) ∧
      (bufferStep (ecu, log) (.reportOutput 0 name level)).1.values name =
        some (levelValue level) := by
  have hline : ecu.queuedLine name level = some (outputLine name (levelValue level)) := by
    unfold EcuIo.queuedLine EcuIo.changed
    rw [h.listening, h.client, bne_iff_ne.mpr hchanged]
    rfl
  have hlength : ecu.outgoing.length ≤ maxBufferedBytes := by
    rw [h.outgoing]
    exact length_keepLast_le _ _
  rw [bufferStep_of_queued h.listening hlength hline, h.outgoing, h.reported, keepLast_append]
  generalize hkept : keepLast maxBufferedBytes
    (queued ++ outputLine name (levelValue level)) = outgoing
  dsimp only
  exact ⟨⟨h.listening, h.client, hkept.symm, rfl, h.sent⟩, Function.update_self _ _ _⟩

/-- An output goes up and down again some times. -/
lemma pulses (h : Unread ecu log queued) {name : String} (hchanged : ecu.values name ≠ some 1)
    (n : ℕ) :
    let p :=
      (List.replicate n
        [EcuOp.reportOutput 0 name true, .reportOutput 0 name false]).flatten.foldl bufferStep
          (ecu, log)
    Unread p.1 p.2 (queued ++
      (List.replicate n (outputLine name 1 ++ outputLine name 0)).flatten) := by
  induction n generalizing ecu log queued with
  | zero =>
    rw [List.replicate_zero, List.replicate_zero, List.flatten_nil, List.flatten_nil,
      List.append_nil]
    exact h
  | succ n ih =>
    obtain ⟨hup, hvalue⟩ := @report _ _ _ h name true hchanged
    obtain ⟨hdown, hvalue'⟩ := @report _ _ _ hup name false (by rw [hvalue]; decide)
    have hlater := ih hdown (by rw [hvalue']; decide)
    rw [List.replicate_succ, List.replicate_succ, List.flatten_cons, List.flatten_cons,
      List.foldl_append, ← List.append_assoc, ← List.append_assoc]
    exact hlater

/-- The client reads one byte. -/
lemma sent_one (h : Unread ecu log queued) {byte : U8} {later : List U8}
    (hkept : keepLast maxBufferedBytes queued = byte :: later) :
    (bufferStep (ecu, log) (.poll ⟨[], [], [.ok 1]⟩)).2.sent = [byte] ∧
      (bufferStep (ecu, log) (.poll ⟨[], [], [.ok 1]⟩)).2.reported = queued := by
  have houtgoing := h.outgoing.trans hkept
  obtain ⟨htexts, hstate⟩ := EcuIo.processCompleteLines_spec ecu
  have hreceive : ecu.receiveFromClient [] =
      (ecu.processCompleteLines.1, (EcuIo.textsOf ecu.recvBuffer).map .handled, true) := by
    unfold EcuIo.receiveFromClient
    rw [if_pos h.client]
    dsimp only [EcuIo.receiveLoop]
    rw [htexts, List.nil_append]
  have hsend : ∀ ecu : EcuIo ℚ, ecu.client.isSome = true → ecu.outgoing = byte :: later →
      (ecu.sendToClient [.ok 1]).2.1 = [.sent [byte]] := by
    intro ecu hclient houtgoing
    unfold EcuIo.sendToClient
    rw [if_pos hclient]
    simp [EcuIo.sendLoop, houtgoing]
  have hpoll : ((ecu.poll ⟨[], [], [.ok 1]⟩).2.1.filterMap ClientEvent.sent?).flatten = [byte] := by
    have hnone := EcuIo.filterMap_receiveFromClient (f := ClientEvent.sent?) rfl (fun _ => rfl)
      (fun _ => rfl) ecu []
    unfold EcuIo.poll
    rw [h.listening]
    dsimp only [EcuIo.acceptClients]
    rw [hreceive] at hnone ⊢
    dsimp only at hnone ⊢
    rw [hsend _ (by rw [hstate]; exact h.client) (by rw [hstate]; exact houtgoing),
      List.filterMap_append, List.filterMap_append, hnone]
    rfl
  have hreported := (sent_poll h.listening ⟨[], [], [.ok 1]⟩).2
  have hevents : (ecu.step (.poll ⟨[], [], [.ok 1]⟩)).2.1 = (ecu.poll ⟨[], [], [.ok 1]⟩).2.1 := rfl
  unfold bufferStep
  dsimp only
  rw [hevents, hpoll, hreported, h.sent, h.reported, List.flatten_nil, List.append_nil]
  exact ⟨rfl, rfl⟩

end Unread

/-- The device once a client is accepted. -/
def accepted : EcuIo ℚ × BufferLog :=
  bufferStep (EcuIo.new sampleConfig none, BufferLog.empty) (.poll ⟨[.ok 0 0 true], [], []⟩)

/-- What is handled and received in a poll that reads these pieces. -/
lemma handled_pieces {pieces : List (List U8)} (hpieces : ∀ piece ∈ pieces, piece ≠ [])
    {ecu : EcuIo ℚ} {log : BufferLog} (hlistening : ecu.embedded = none)
    (hclient : ecu.client.isSome = true) (hempty : ecu.recvBuffer = []) :
    (bufferStep (ecu, log) (.poll ⟨[], pieces.map .ok, []⟩)).2.handled =
        log.handled ++ EcuIo.textsOf (keepLast maxBufferedBytes pieces.flatten) ∧
      (bufferStep (ecu, log) (.poll ⟨[], pieces.map .ok, []⟩)).2.received =
        log.received ++ pieces.flatten := by
  have hloop := @receiveLoop_ok ℚ pieces hpieces ecu (by rw [hempty]; exact Nat.zero_le _)
  rw [hempty, List.nil_append] at hloop
  have hevents := poll_reads hlistening (receiveFromClient_ok hclient hloop)
  have hstep : (ecu.step (.poll ⟨[], pieces.map .ok, []⟩)).2.1 =
      (ecu.poll ⟨[], pieces.map .ok, []⟩).2.1 := rfl
  have hhandled : (pieces.map ClientEvent.received).filterMap ClientEvent.handled? = [] := by
    rw [List.filterMap_map]
    exact List.filterMap_none pieces
  have hreceived : receivedBytes (pieces.map ClientEvent.received) = pieces.flatten := by
    unfold receivedBytes
    rw [List.filterMap_map]
    exact congrArg List.flatten List.filterMap_some
  generalize EcuIo.textsOf (keepLast maxBufferedBytes pieces.flatten) = texts at hevents ⊢
  have htexts : (texts.map ClientEvent.handled).filterMap ClientEvent.handled? = texts := by
    rw [List.filterMap_map]
    exact List.filterMap_some
  unfold bufferStep
  dsimp only
  rw [hstep, hevents, List.filterMap_append, hhandled, htexts, receivedBytes_append, hreceived,
    receivedBytes_handled, List.nil_append, List.append_nil]
  exact ⟨rfl, rfl⟩

/-- A client sends a long line after `an1=1`. -/
lemma handled_longPieces :
    (bufferStep accepted (.poll ⟨[], longPieces.map .ok, []⟩)).2.handled = ["n1=1".toList] ∧
    (bufferStep accepted (.poll ⟨[], longPieces.map .ok, []⟩)).2.received = longPieces.flatten := by
  have hpieces : ∀ piece ∈ longPieces, piece ≠ [] := by
    intro piece hpiece
    rcases List.mem_append.mp hpiece with hpiece | hpiece
    · rcases List.mem_cons.mp hpiece with rfl | hpiece
      · exact List.cons_ne_nil _ _
      · rw [List.eq_of_mem_replicate hpiece]
        exact List.cons_ne_nil _ _
    · rw [List.mem_singleton.mp hpiece]
      exact List.cons_ne_nil _ _
  have hnot : ∀ n, newline ∉ List.replicate n (0x78 : U8) := fun n hmem =>
    absurd (List.eq_of_mem_replicate hmem) (by decide)
  have htexts : EcuIo.textsOf (keepLast maxBufferedBytes longPieces.flatten) = ["n1=1".toList] := by
    unfold EcuIo.textsOf
    rw [keepLast_longPieces, complete_line (by decide), complete_of_not_mem (hnot _)]
    decide
  obtain ⟨hhandled, hreceived⟩ :=
    @handled_pieces longPieces hpieces accepted.1 accepted.2 rfl rfl rfl
  rw [htexts, show accepted.2.handled = [] from rfl, List.nil_append, Prod.mk.eta] at hhandled
  rw [show accepted.2.received = [] from rfl, List.nil_append, Prod.mk.eta] at hreceived
  exact ⟨hhandled, hreceived⟩

/-- A client that is first sent the end of a line of which it was sent nothing else. -/
lemma sent_pulses {n : ℕ} {later : List U8} (hkept : keepLast maxBufferedBytes
    (List.replicate n (outputLine "o1" 1 ++ outputLine "o1" 0)).flatten = newline :: later) :
    ∃ ops : List EcuOp,
      let log := (ops.foldl bufferStep ((EcuIo.new sampleConfig none : EcuIo ℚ), BufferLog.empty)).2
      ∃ line ∈ complete newline log.sent, line ∉ complete newline log.reported := by
  have hstart : Unread accepted.1 accepted.2 [] := ⟨rfl, rfl, rfl, rfl, rfl⟩
  have hpulses := @Unread.pulses _ _ _ hstart "o1" (by decide) n
  obtain ⟨hsent, hreported⟩ := hpulses.sent_one hkept
  have hrest : rest newline (outputLine "o1" 1 ++ outputLine "o1" 0) = [] := by decide
  refine ⟨.poll ⟨[.ok 0 0 true], [], []⟩ ::
    ((List.replicate n [.reportOutput 0 "o1" true, .reportOutput 0 "o1" false]).flatten ++
      [.poll ⟨[], [], [.ok 1]⟩]), ?_⟩
  rw [List.foldl_cons, List.foldl_append, List.foldl_cons, List.foldl_nil]
  refine ⟨[], ?_, fun hline => ?_⟩
  · change [] ∈ complete newline (bufferStep (List.foldl bufferStep accepted _) _).2.sent
    rw [Prod.mk.eta] at hsent
    rw [hsent]
    decide
  · change [] ∈ complete newline
      (bufferStep (List.foldl bufferStep accepted _) _).2.reported at hline
    rw [Prod.mk.eta] at hreported
    rw [hreported, List.nil_append] at hline
    have hline := complete_replicate hrest _ hline
    exact absurd hline (by decide)

/-- What the client of the next sample is to be sent. -/
lemma keepLast_pulses : ∃ later, keepLast maxBufferedBytes
    (List.replicate 6554 (outputLine "o1" 1 ++ outputLine "o1" 0)).flatten = newline :: later := by
  have hblock : outputLine "o1" 1 ++ outputLine "o1" 0 =
      [0x6f, 0x31, 0x3d, 0x31, newline, 0x6f, 0x31, 0x3d, 0x30, newline] := by decide
  have hlength : (List.replicate 6554 (outputLine "o1" 1 ++ outputLine "o1" 0)).flatten.length =
      maxBufferedBytes + 4 := by
    rw [hblock, List.length_flatten, List.map_replicate, List.sum_replicate]
    rfl
  rw [keepLast_of_length_eq hlength, List.replicate_succ, List.flatten_cons, hblock]
  exact ⟨_, rfl⟩

/-- **Overflow makes lines.**  A client sends `an1=1`, and `n1=1` is handled.  Another does not read
for a while, and is sent an empty line. -/
theorem overflow_makes_lines :
    (∃ ops : List EcuOp,
      let log := (ops.foldl bufferStep ((EcuIo.new sampleConfig none : EcuIo ℚ), BufferLog.empty)).2
      ∃ text ∈ log.handled, text ∉ (complete newline log.received).filterMap decodeLine) ∧
    ∃ ops : List EcuOp,
      let log := (ops.foldl bufferStep ((EcuIo.new sampleConfig none : EcuIo ℚ), BufferLog.empty)).2
      ∃ line ∈ complete newline log.sent, line ∉ complete newline log.reported := by
  constructor
  · refine ⟨[.poll ⟨[.ok 0 0 true], [], []⟩, .poll ⟨[], longPieces.map .ok, []⟩], ?_⟩
    obtain ⟨hhandled, hreceived⟩ := handled_longPieces
    have hnot : newline ∉ List.replicate 65531 (0x78 : U8) := fun hmem =>
      absurd (List.eq_of_mem_replicate hmem) (by decide)
    have hlines : complete newline longPieces.flatten = [[0x61, 0x6e, 0x31, 0x3d, 0x31]] := by
      rw [flatten_longPieces, ← List.cons_append, complete_line (by decide),
        complete_of_not_mem hnot]
    rw [List.foldl_cons, List.foldl_cons, List.foldl_nil, ← accepted]
    dsimp only
    rw [hhandled, hreceived, hlines]
    exact ⟨"n1=1".toList, List.mem_singleton_self _, by decide⟩
  · obtain ⟨later, hkept⟩ := keepLast_pulses
    exact sent_pulses hkept

end Stm32Emulator.Ecu
