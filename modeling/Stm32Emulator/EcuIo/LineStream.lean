import Stm32Emulator.EcuIo.ClientSessions
import Stm32Emulator.EcuIo.PollEffects

/-!
# The stream of the clients

What the clients send is one stream, which arrives in reads and polls of any size.  If the buffer
never overflows, the values and the buffer are those of handling the whole stream at once, whenever
no complete line waits (`line_stream_unchunked`).  A poll that fails to accept or to read leaves its
lines to a later one.
-/

namespace Stm32Emulator.Ecu

/-! ## Handling a stream at once -/

/-- The assignments of some lines, those that give a known signal a number. -/
def assignments (known : List String) (lines : List (List U8)) : List (String × ℤ) :=
  (lines.filterMap fun line => (decodeLine line).bind parseLine).filter fun p => p.1 ∈ known

/-- The values after some assignments. -/
def assign (values : String → Option ℤ) (as : List (String × ℤ)) : String → Option ℤ :=
  as.foldl (fun values p => Function.update values p.1 (some p.2)) values

/-- The values after the complete lines of a stream, and the line that is not complete. -/
def handleStream (known : List String) (values : String → Option ℤ) (stream : List U8) :
    (String → Option ℤ) × List U8 :=
  (assign values (assignments known (Lines.complete newline stream)), Lines.rest newline stream)

lemma assignments_append (known : List String) (lines later : List (List U8)) :
    assignments known (lines ++ later) = assignments known lines ++ assignments known later := by
  unfold assignments
  rw [List.filterMap_append, List.filter_append]

lemma assign_append (values : String → Option ℤ) (as later : List (String × ℤ)) :
    assign values (as ++ later) = assign (assign values as) later := List.foldl_append

/-- **A stream in pieces**: the rest of the first is handled with the second. -/
lemma handleStream_append (known : List String) (values : String → Option ℤ) (a b : List U8) :
    handleStream known values (a ++ b) =
      handleStream known (handleStream known values a).1
        ((handleStream known values a).2 ++ b) := by
  unfold handleStream
  rw [Lines.complete_append, Lines.rest_append, assignments_append, assign_append]

/-- A line that is not complete stays. -/
lemma handleStream_of_not_mem {stream : List U8} (h : newline ∉ stream) (known : List String)
    (values : String → Option ℤ) : handleStream known values stream = (values, stream) := by
  unfold handleStream
  rw [Lines.complete_of_not_mem h, Lines.rest_of_not_mem h]
  rfl

namespace EcuIo

variable {P : Type} {ecu ecu' : EcuIo P}

/-- The values and the buffer once the complete lines of the buffer are handled. -/
def handled (ecu : EcuIo P) : (String → Option ℤ) × List U8 :=
  handleStream ecu.knownNames ecu.values ecu.recvBuffer

/-- The values after a line. -/
lemma values_handleLine (ecu : EcuIo P) (line : List U8) :
    ((decodeLine line).elim ecu ecu.handleLine).values =
      assign ecu.values (assignments ecu.knownNames [line]) := by
  have hline : ∀ text, (ecu.handleLine text).values =
      assign ecu.values ((parseLine text).toList.filter fun p => p.1 ∈ ecu.knownNames) := by
    intro text
    unfold handleLine setValue
    cases parseLine text with
    | none => rfl
    | some p =>
      obtain ⟨name, value⟩ := p
      dsimp only
      split_ifs with hknown <;> simp [hknown, assign]
  unfold assignments
  rw [List.filterMap_cons, List.filterMap_nil]
  cases decodeLine line with
  | none => rfl
  | some text =>
    rw [Option.bind_some, Option.elim_some, hline]
    cases parseLine text <;> rfl

/-- The values after all complete lines. -/
lemma values_processLoop_eq (fuel : ℕ) (ecu : EcuIo P) (hfuel : ecu.recvBuffer.length ≤ fuel) :
    (processLoop fuel ecu).1.values =
      assign ecu.values (assignments ecu.knownNames (Lines.complete newline ecu.recvBuffer)) := by
  induction fuel generalizing ecu with
  | zero =>
    have hnil : ecu.recvBuffer = [] := List.length_eq_zero_iff.mp (Nat.le_zero.mp hfuel)
    rw [hnil]
    rfl
  | succ fuel ih =>
    unfold processLoop
    cases hpos : ecu.recvBuffer.findIdx? (· = newline) with
    | none =>
      rw [Lines.complete_of_not_mem (Lines.not_mem_of_findIdx?_eq_none hpos)]
      rfl
    | some pos =>
      obtain ⟨hbuffer, hnot⟩ := Lines.eq_line_of_findIdx? hpos
      have hlength : (ecu.recvBuffer.drop (pos + 1)).length ≤ fuel := by
        rw [List.length_drop]
        omega
      have hlines : Lines.complete newline ecu.recvBuffer =
          [ecu.recvBuffer.take pos] ++ Lines.complete newline (ecu.recvBuffer.drop (pos + 1)) := by
        conv_lhs => rw [hbuffer, Lines.complete_line hnot]
        rfl
      have hvalues := values_handleLine { ecu with recvBuffer := ecu.recvBuffer.drop (pos + 1) }
        (ecu.recvBuffer.take pos)
      rw [hlines, assignments_append, assign_append]
      dsimp only at hvalues ⊢
      rw [← hvalues]
      cases decodeLine (ecu.recvBuffer.take pos) with
      | none => exact ih { ecu with recvBuffer := ecu.recvBuffer.drop (pos + 1) } hlength
      | some text =>
        have hframe := handleLine_frame
          { ecu with recvBuffer := ecu.recvBuffer.drop (pos + 1) } text
        have hlater := ih ({ ecu with recvBuffer := ecu.recvBuffer.drop (pos + 1) }.handleLine text)
          (by rw [hframe]; exact hlength)
        refine hlater.trans ?_
        rw [hframe]
        rfl

/-- Handling all complete lines. -/
lemma processCompleteLines_eq (ecu : EcuIo P) :
    ecu.processCompleteLines.1 =
      { ecu with values := ecu.handled.1, recvBuffer := ecu.handled.2 } := by
  rw [(processCompleteLines_spec ecu).2]
  congr 1
  exact values_processLoop_eq _ ecu le_rfl

lemma newline_not_mem_handled (ecu : EcuIo P) : newline ∉ ecu.handled.2 := Lines.not_mem_rest

/-- Lines are handled once. -/
lemma handled_processCompleteLines (ecu : EcuIo P) :
    ecu.processCompleteLines.1.handled = ecu.handled := by
  rw [processCompleteLines_eq]
  exact handleStream_of_not_mem ecu.newline_not_mem_handled _ _

end EcuIo

/-! ## What a poll receives -/

def ClientEvent.received? : ClientEvent → Option (List U8)
  | received bytes => some bytes
  | _ => none

/-- The bytes that were received. -/
def receivedBytes (events : List ClientEvent) : List U8 :=
  (events.filterMap ClientEvent.received?).flatten

lemma receivedBytes_append (events later : List ClientEvent) :
    receivedBytes (events ++ later) = receivedBytes events ++ receivedBytes later := by
  unfold receivedBytes
  rw [List.filterMap_append, List.flatten_append]

lemma receivedBytes_handled (texts : List (List Char)) :
    receivedBytes (texts.map .handled) = [] := by
  induction texts with
  | nil => rfl
  | cons text texts ih => exact ih

namespace EcuIo

variable {P : Type} {ecu ecu' : EcuIo P}

variable {event : ClientEvent}

/-- What happens in each part of a poll. -/
lemma eq_connected_of_mem {ecu : EcuIo P} {accepts : List AcceptResult}
    (h : event ∈ (ecu.acceptClients accepts).2.1) : ∃ client, event = .connected client := by
  induction accepts generalizing ecu with
  | nil => cases h
  | cons result accepts ih =>
    cases result with
    | failed => cases h
    | ok client now nonblocking =>
      simp only [acceptClients] at h
      split_ifs at h
      · exact ih h
      · cases h
      · rcases List.mem_cons.mp h with rfl | h
        · exact ⟨client, rfl⟩
        · exact ih h

lemma eq_received_of_mem_loop {ecu : EcuIo P} {reads : List ReadResult}
    (h : event ∈ (ecu.receiveLoop reads).2.1) : ∃ bytes, event = .received bytes := by
  induction reads generalizing ecu with
  | nil => cases h
  | cons result reads ih =>
    cases result with
    | connectionReset => cases h
    | failed => cases h
    | ok bytes =>
      simp only [receiveLoop] at h
      split_ifs at h
      · cases h
      · rcases List.mem_cons.mp h with rfl | h
        · exact ⟨bytes, rfl⟩
        · exact ih h

lemma eq_sent_of_mem_loop {ecu : EcuIo P} {writes : List WriteResult}
    (h : event ∈ (ecu.sendLoop writes).2.1) : ∃ bytes, event = .sent bytes := by
  induction writes generalizing ecu with
  | nil => cases h
  | cons result writes ih =>
    simp only [sendLoop] at h
    split_ifs at h
    · cases h
    · cases result with
      | connectionReset => cases h
      | failed => cases h
      | ok count =>
        dsimp only at h
        split_ifs at h
        · cases h
        · rcases List.mem_cons.mp h with rfl | h
          · exact ⟨_, rfl⟩
          · exact ih h

lemma eq_sent_of_mem {ecu : EcuIo P} {writes : List WriteResult}
    (h : event ∈ (ecu.sendToClient writes).2.1) :
    event = .disconnected ∨ ∃ bytes, event = .sent bytes := by
  have hloop : ∀ event ∈ (if ecu.client.isSome then ecu.sendLoop writes
      else (ecu, [], .wouldBlock)).2.1,
      ∃ bytes, event = .sent bytes := by
    intro event h
    split_ifs at h
    · exact eq_sent_of_mem_loop h
    · cases h
  unfold sendToClient at h
  generalize (if ecu.client.isSome then ecu.sendLoop writes else (ecu, [], .wouldBlock)) =
    result at hloop h
  obtain ⟨ecu₁, sent, _ | _ | _⟩ := result
  · exact Or.inr (hloop _ h)
  · rcases List.mem_append.mp h with h | h
    · exact Or.inr (hloop _ h)
    · exact Or.inl (List.mem_singleton.mp h)
  · exact Or.inr (hloop _ h)

lemma eq_received_of_mem {ecu : EcuIo P} {reads : List ReadResult}
    (h : event ∈ (ecu.receiveFromClient reads).2.1) :
    event = .disconnected ∨ (∃ bytes, event = .received bytes) ∨ ∃ text, event = .handled text := by
  have hloop : ∀ event ∈ (if ecu.client.isSome then ecu.receiveLoop reads
      else (ecu, [], .wouldBlock)).2.1,
      ∃ bytes, event = .received bytes := by
    intro event h
    split_ifs at h
    · exact eq_received_of_mem_loop h
    · cases h
  have hhandled : ∀ ecu : EcuIo P, ∀ event ∈ ecu.processCompleteLines.2, ∃ text, event =
      .handled text := by
    intro ecu event h
    rw [(processCompleteLines_spec ecu).1] at h
    obtain ⟨text, -, rfl⟩ := List.mem_map.mp h
    exact ⟨text, rfl⟩
  unfold receiveFromClient at h
  generalize (if ecu.client.isSome then ecu.receiveLoop reads else (ecu, [], .wouldBlock)) =
    result at hloop h
  obtain ⟨ecu₁, received, _ | _ | _⟩ := result
  · rcases List.mem_append.mp h with h | h
    · exact Or.inr (Or.inl (hloop _ h))
    · exact Or.inr (Or.inr (hhandled _ _ h))
  · rcases List.mem_append.mp h with h | h
    · rcases List.mem_append.mp h with h | h
      · exact Or.inr (Or.inl (hloop _ h))
      · exact Or.inr (Or.inr (hhandled _ _ h))
    · exact Or.inl (List.mem_singleton.mp h)
  · exact Or.inr (Or.inl (hloop _ h))

/-- What does not look at the events of a part of the poll finds nothing there. -/
lemma filterMap_acceptClients {β : Type} {f : ClientEvent → Option β}
    (hf : ∀ client, f (.connected client) = none) (ecu : EcuIo P) (accepts : List AcceptResult) :
    (ecu.acceptClients accepts).2.1.filterMap f = [] := by
  refine List.filterMap_eq_nil_iff.mpr fun event h => ?_
  obtain ⟨client, rfl⟩ := eq_connected_of_mem h
  exact hf client

lemma filterMap_receiveFromClient {β : Type} {f : ClientEvent → Option β}
    (hgone : f .disconnected = none) (hreceived : ∀ bytes, f (.received bytes) = none)
    (hhandled : ∀ text, f (.handled text) = none) (ecu : EcuIo P) (reads : List ReadResult) :
    (ecu.receiveFromClient reads).2.1.filterMap f = [] := by
  refine List.filterMap_eq_nil_iff.mpr fun event h => ?_
  obtain rfl | ⟨bytes, rfl⟩ | ⟨text, rfl⟩ := eq_received_of_mem h
  · exact hgone
  · exact hreceived bytes
  · exact hhandled text

lemma filterMap_sendToClient {β : Type} {f : ClientEvent → Option β}
    (hgone : f .disconnected = none) (hsent : ∀ bytes, f (.sent bytes) = none) (ecu : EcuIo P)
    (writes : List WriteResult) :
    (ecu.sendToClient writes).2.1.filterMap f = [] := by
  refine List.filterMap_eq_nil_iff.mpr fun event h => ?_
  obtain rfl | ⟨bytes, rfl⟩ := eq_sent_of_mem h
  · exact hgone
  · exact hsent bytes

lemma receivedBytes_acceptClients (ecu : EcuIo P) (accepts : List AcceptResult) :
    receivedBytes (ecu.acceptClients accepts).2.1 = [] := by
  unfold receivedBytes
  rw [filterMap_acceptClients fun _ => rfl]
  rfl

lemma receivedBytes_sendToClient (ecu : EcuIo P) (writes : List WriteResult) :
    receivedBytes (ecu.sendToClient writes).2.1 = [] := by
  unfold receivedBytes
  rw [filterMap_sendToClient rfl fun _ => rfl]
  rfl

/-- What is received is appended, if there is room for all of it. -/
lemma recvBuffer_receiveLoop (ecu : EcuIo P) (reads : List ReadResult)
    (hroom : ecu.recvBuffer.length + (receivedBytes (ecu.receiveLoop reads).2.1).length ≤
      maxBufferedBytes) :
    (ecu.receiveLoop reads).1.recvBuffer =
      ecu.recvBuffer ++ receivedBytes (ecu.receiveLoop reads).2.1 := by
  induction reads generalizing ecu with
  | nil => exact (List.append_nil _).symm
  | cons result reads ih =>
    cases result with
    | connectionReset => exact (List.append_nil _).symm
    | failed => exact (List.append_nil _).symm
    | ok bytes =>
      by_cases hbytes : bytes = []
      · simp only [receiveLoop, if_pos hbytes]
        exact (List.append_nil _).symm
      · simp only [receiveLoop, if_neg hbytes] at hroom ⊢
        have hcons : ∀ later, receivedBytes (.received bytes :: later) =
            bytes ++ receivedBytes later :=
          fun _ => rfl
        rw [hcons, List.length_append] at hroom
        have hfits : pushCappedVec ecu.recvBuffer bytes maxBufferedBytes =
            ecu.recvBuffer ++ bytes := by
          unfold pushCappedVec
          rw [Nat.sub_eq_zero_of_le (by rw [List.length_append]; omega), List.drop_zero]
        rw [hfits] at hroom ⊢
        rw [hcons, ← List.append_assoc]
        refine ih { ecu with recvBuffer := ecu.recvBuffer ++ bytes } (le_of_eq_of_le ?_ hroom)
        rw [List.length_append, Nat.add_assoc]

/-- Receiving handles what was received after what was there; if reading succeeds, no complete line
waits. -/
lemma handled_receiveFromClient (ecu : EcuIo P) (reads : List ReadResult)
    (hroom : ecu.recvBuffer.length + (receivedBytes (ecu.receiveFromClient reads).2.1).length ≤
      maxBufferedBytes) :
    (ecu.receiveFromClient reads).1.handled =
        { ecu with
          recvBuffer := ecu.recvBuffer ++
            receivedBytes (ecu.receiveFromClient reads).2.1 }.handled ∧
      ((ecu.receiveFromClient reads).2.2 = true →
        newline ∉ (ecu.receiveFromClient reads).1.recvBuffer) := by
  have hloop : ∀ result, (if ecu.client.isSome then ecu.receiveLoop reads
      else (ecu, [], .wouldBlock)) = result →
      ecu.recvBuffer.length + (receivedBytes result.2.1).length ≤ maxBufferedBytes →
      result.1 = { ecu with recvBuffer := ecu.recvBuffer ++ receivedBytes result.2.1 } := by
    rintro _ rfl hroom
    split_ifs at hroom ⊢
    · rw [receiveLoop_frame, recvBuffer_receiveLoop ecu reads hroom]
    · rw [show receivedBytes [] = [] from rfl, List.append_nil]
  unfold receiveFromClient at hroom ⊢
  generalize (if ecu.client.isSome then ecu.receiveLoop reads else (ecu, [], .wouldBlock)) =
    result at hloop hroom ⊢
  have hloop := hloop result rfl
  obtain ⟨ecu₁, received, ended⟩ := result
  cases ended with
  | failed =>
    refine ⟨?_, nofun⟩
    dsimp only at hroom hloop ⊢
    rw [hloop hroom]
  | wouldBlock =>
    have htexts := (processCompleteLines_spec ecu₁).1
    dsimp only at hroom hloop ⊢
    rw [htexts, receivedBytes_append, receivedBytes_handled, List.append_nil] at hroom ⊢
    rw [handled_processCompleteLines, processCompleteLines_eq]
    refine ⟨?_, fun _ => newline_not_mem_handled ecu₁⟩
    rw [hloop hroom]
  | disconnected =>
    have htexts := (processCompleteLines_spec { ecu₁ with client := none }).1
    have hgone : receivedBytes [.disconnected] = [] := rfl
    dsimp only at hroom hloop htexts ⊢
    rw [htexts, receivedBytes_append, receivedBytes_append, receivedBytes_handled, hgone,
      List.append_nil, List.append_nil] at hroom ⊢
    rw [handled_processCompleteLines, processCompleteLines_eq]
    refine ⟨?_, fun _ => newline_not_mem_handled { ecu₁ with client := none }⟩
    rw [hloop hroom]
    rfl

/-- The poll does not fail to accept or to read. -/
def ReadsWell (ecu : EcuIo P) (io : SocketScript) : Prop :=
  (ecu.acceptClients io.accepts).2.2 = true ∧
    ((ecu.acceptClients io.accepts).1.receiveFromClient io.reads).2.2 = true

/-- The buffer has room for what the poll receives. -/
def HasRoom (ecu : EcuIo P) (io : SocketScript) : Prop :=
  ecu.recvBuffer.length + (receivedBytes (ecu.poll io).2.1).length ≤ maxBufferedBytes

instance (ecu : EcuIo P) (io : SocketScript) : Decidable (ecu.HasRoom io) :=
  inferInstanceAs (Decidable (_ ≤ _))

/-- **One poll** handles what it receives after what was there. -/
lemma handled_poll (hlistening : ecu.embedded = none) {io : SocketScript} (hroom : ecu.HasRoom io) :
    (ecu.poll io).1.handled =
        { ecu with recvBuffer := ecu.recvBuffer ++ receivedBytes (ecu.poll io).2.1 }.handled ∧
      (ecu.ReadsWell io → newline ∉ (ecu.poll io).1.recvBuffer) := by
  have haccept := acceptClients_frame ecu io.accepts
  have hnothing := receivedBytes_acceptClients ecu io.accepts
  have hcases := pollCases hlistening io
  unfold HasRoom at hroom
  unfold ReadsWell
  generalize ecu.poll io = result at hcases hroom ⊢
  cases hcases with
  | accepting haccepted =>
    rw [haccepted] at haccept hnothing ⊢
    dsimp only at haccept hnothing ⊢
    rw [hnothing, List.append_nil, haccept]
    exact ⟨rfl, fun h => nomatch h.1⟩
  | @reading ecu₁ _ _ _ haccepted hreceived =>
    have hreceive := handled_receiveFromClient ecu₁ io.reads
    rw [haccepted] at haccept hnothing ⊢
    rw [hreceived] at hreceive
    dsimp only at haccept hnothing hreceive hroom ⊢
    rw [receivedBytes_append, hnothing, List.nil_append] at hroom ⊢
    refine ⟨?_, fun h => ?_⟩
    · rw [(hreceive (by rw [haccept]; exact hroom)).1, haccept]
      rfl
    · rw [hreceived] at h
      exact nomatch h.2
  | @writing ecu₁ ecu₂ _ _ haccepted hreceived =>
    have hreceive := handled_receiveFromClient ecu₁ io.reads
    have hsend := sendToClient_frame ecu₂ io.writes
    have hsent := receivedBytes_sendToClient ecu₂ io.writes
    rw [haccepted] at haccept hnothing
    rw [hreceived] at hreceive
    dsimp only at haccept hnothing hreceive hroom ⊢
    rw [receivedBytes_append, receivedBytes_append, hnothing, hsent, List.nil_append,
      List.append_nil] at hroom ⊢
    obtain ⟨hhandled, hnot⟩ := hreceive (by rw [haccept]; exact hroom)
    have hsame : (ecu₂.sendToClient io.writes).1.handled = ecu₂.handled := by
      rw [hsend]
      rfl
    refine ⟨?_, fun _ => ?_⟩
    · rw [hsame, hhandled, haccept]
      rfl
    · rw [hsend]
      exact hnot rfl

end EcuIo

/-! ## Runs -/

section Runs

variable {P : Type} {ecu ecu' : EcuIo P} {ios : List SocketScript} {stream : List U8}

/-- A poll, and the bytes that were received so far. -/
def streamRel (p : EcuIo P × List U8) (io : SocketScript) (q : EcuIo P × List U8) : Prop :=
  ((p.1.poll io).1, p.2 ++ receivedBytes (p.1.poll io).2.1) = q

/-- **The stream may come in any pieces.**  After any polls that the buffer has room for, the values
and the buffer are those of handling the whole stream at once: its complete lines that give a known
signal a number, in order, and the rest.  Complete lines wait only after a poll that fails to accept
or to read, and are handled then. -/
theorem line_stream_unchunked (hlistening : ecu.embedded = none)
    (hrun : Run (guardedStep (fun p io => p.1.HasRoom io) streamRel) (ecu, []) ios (ecu', stream)) :
    let whole := { ecu with recvBuffer := ecu.recvBuffer ++ stream }.processCompleteLines.1
    (whole.values, whole.recvBuffer) =
      handleStream ecu.knownNames ecu.values (ecu.recvBuffer ++ stream) ∧
      (newline ∉ ecu'.recvBuffer → ecu'.values = whole.values ∧
        ecu'.recvBuffer = whole.recvBuffer) ∧
      ecu'.handled = (whole.values, whole.recvBuffer) ∧
      ∀ io, ecu'.HasRoom io → ecu'.ReadsWell io → newline ∉ (ecu'.poll io).1.recvBuffer := by
  have hinvariant : (ecu'.embedded = none ∧ ecu'.knownNames = ecu.knownNames) ∧
      ecu'.handled = handleStream ecu.knownNames ecu.values (ecu.recvBuffer ++ stream) := by
    refine hrun.invariant_state
      (I := fun p => (p.1.embedded = none ∧ p.1.knownNames = ecu.knownNames) ∧
      p.1.handled = handleStream ecu.knownNames ecu.values (ecu.recvBuffer ++ p.2)) ?_ ?_
    · exact ⟨⟨hlistening, rfl⟩, by rw [List.append_nil]; rfl⟩
    · rintro ⟨ecu₁, stream₁⟩ _ io ⟨⟨hlistening₁, hknown⟩, hhandled⟩ ⟨hroom, rfl⟩
      have hframe := EcuIo.poll_frame_of_listening ecu₁ io hlistening₁
      refine ⟨⟨by rw [hframe], by rw [hframe]; exact hknown⟩, ?_⟩
      dsimp only at hhandled hknown ⊢
      rw [(EcuIo.handled_poll hlistening₁ hroom).1, ← List.append_assoc,
        handleStream_append _ _ (_ ++ stream₁), ← hhandled]
      unfold EcuIo.handled
      dsimp only
      rw [handleStream_append, hknown]
  obtain ⟨⟨hlistening', hknown⟩, hhandled⟩ := hinvariant
  have hwhole : ∀ e : EcuIo P,
      (e.processCompleteLines.1.values, e.processCompleteLines.1.recvBuffer) =
      handleStream e.knownNames e.values e.recvBuffer := by
    intro e
    rw [EcuIo.processCompleteLines_eq]
    rfl
  have hwhole := hwhole { ecu with recvBuffer := ecu.recvBuffer ++ stream }
  refine ⟨hwhole, fun hnot => ?_, hhandled.trans hwhole.symm,
    fun io hroom => (EcuIo.handled_poll hlistening' hroom).2⟩
  have hsettled : ecu'.handled = (ecu'.values, ecu'.recvBuffer) := handleStream_of_not_mem hnot _ _
  exact Prod.mk.inj (hsettled.symm.trans (hhandled.trans hwhole.symm))

end Runs

/-- A client sends a number in two polls, a byte that is no text, and the beginning of a line. -/
def splitNumber : List SocketScript :=
  [⟨[.ok 0 0 true], [.ok [0x6e, 0x31, 0x3d, 0x34]], []⟩,
    ⟨[], [.ok [0x32, 0x0a], .ok [0xff, 0x0a, 0x6e]], []⟩]

/-- One more poll. -/
lemma stream_snoc {p q : EcuIo ℚ × List U8} {ios : List SocketScript}
    (hrun : Run (guardedStep (fun p io => p.1.HasRoom io) streamRel) p ios q) (io : SocketScript)
    (hroom : q.1.HasRoom io) :
    Run (guardedStep (fun p io => p.1.HasRoom io) streamRel) p (ios ++ [io])
      ((q.1.poll io).1, q.2 ++ receivedBytes (q.1.poll io).2.1) := hrun.snoc ⟨hroom, rfl⟩

theorem line_stream_unchunked_sample : ∃ (ecu : EcuIo ℚ) (stream : List U8),
    Run (guardedStep (fun p io => p.1.HasRoom io) streamRel)
    (EcuIo.new sampleConfig none, []) splitNumber (ecu, stream) ∧
      ecu.values "n1" = some 42 ∧ ecu.recvBuffer = [0x6e] := by
  have hrun : Run (guardedStep (fun p io => p.1.HasRoom io) streamRel)
      ((EcuIo.new sampleConfig none : EcuIo ℚ), []) [] (EcuIo.new sampleConfig none, []) := Run.nil
  have hrun := stream_snoc hrun ⟨[.ok 0 0 true], [.ok [0x6e, 0x31, 0x3d, 0x34]], []⟩ (by decide)
  have hrun := stream_snoc hrun ⟨[], [.ok [0x32, 0x0a], .ok [0xff, 0x0a, 0x6e]], []⟩ (by decide)
  obtain ⟨hwhole, hsettled, -⟩ := line_stream_unchunked rfl hrun
  obtain ⟨hvalues, hbuffer⟩ := hsettled (by decide)
  obtain ⟨hassigned, hrest⟩ := Prod.mk.inj hwhole
  refine ⟨_, _, hrun, ?_, ?_⟩
  · rw [hvalues, hassigned]
    decide
  · rw [hbuffer, hrest]
    decide

end Stm32Emulator.Ecu
