import Stm32Emulator.Cdc.DeadClients
import Stm32Emulator.Cdc.TcpSessions
import Stm32Emulator.EcuIo.ClientSessions
import Stm32Emulator.EcuIo.PollEffects

/-!
# Dead clients of the ECU I/O device

The device knows the same one kind of error as the bridge of the USB controller
(`dead_client_dropped_iff`).  As it has no grace period, a client that it keeps keeps others out
until a later call ends it.
-/

namespace Stm32Emulator.Ecu

namespace EcuIo

variable {P : Type}

/-! ## The loops -/

/-- The loops end as the calls do. -/
lemma ended_receiveLoop (ecu : EcuIo P) (reads : List ReadResult) :
    (ecu.receiveLoop reads).2.2 = (readEnd reads).loopEnd := by
  induction reads generalizing ecu with
  | nil => rfl
  | cons result reads ih =>
    cases result with
    | connectionReset => rfl
    | failed => rfl
    | ok bytes =>
      unfold receiveLoop readEnd
      split_ifs
      · rfl
      · exact ih _

lemma ended_sendLoop (ecu : EcuIo P) (writes : List WriteResult) :
    (ecu.sendLoop writes).2.2 = (writeEnd ecu.outgoing.length writes).loopEnd := by
  induction writes generalizing ecu with
  | nil => rfl
  | cons result writes ih =>
    unfold sendLoop writeEnd
    by_cases hempty : ecu.outgoing = []
    · rw [if_pos hempty, if_pos (List.length_eq_zero_iff.mpr hempty)]
      rfl
    · rw [if_neg hempty, if_neg (mt List.length_eq_zero_iff.mp hempty)]
      cases result with
      | connectionReset => rfl
      | failed => rfl
      | ok count =>
        dsimp only
        split_ifs
        · rfl
        · have hlater := ih { ecu with outgoing := ecu.outgoing.drop count }
          rw [List.length_drop] at hlater
          exact hlater

lemma leaves_receiveFromClient {ecu : EcuIo P} (hheld : ecu.client ≠ none)
    (reads : List ReadResult) :
    (readEnd reads).Leaves ecu.client (ecu.receiveFromClient reads).1.client
      (ecu.receiveFromClient reads).2.2 := by
  have hended := ecu.ended_receiveLoop reads
  have hclient := congrArg client (ecu.receiveLoop_frame reads)
  have hlines : ∀ ecu : EcuIo P, ecu.processCompleteLines.1.client = ecu.client := fun ecu => by
    rw [(processCompleteLines_spec ecu).2]
  unfold receiveFromClient
  rw [if_pos (Option.isSome_iff_ne_none.mpr hheld)]
  generalize ecu.receiveLoop reads = loop at hended hclient ⊢
  obtain ⟨ecu₁, received, result⟩ := loop
  cases result with
  | wouldBlock =>
    exact SocketEnd.leaves_of_loopEnd hended (fun _ => (hlines ecu₁).trans hclient) nofun rfl
  | disconnected =>
    exact SocketEnd.leaves_of_loopEnd hended (fun hheld => absurd rfl hheld) (fun _ => hlines _) rfl
  | failed => exact SocketEnd.leaves_of_loopEnd hended (fun _ => hclient) nofun rfl

lemma leaves_sendToClient {ecu : EcuIo P} (hheld : ecu.client ≠ none) (writes : List WriteResult) :
    (writeEnd ecu.outgoing.length writes).Leaves ecu.client (ecu.sendToClient writes).1.client
      (ecu.sendToClient writes).2.2 := by
  have hended := ecu.ended_sendLoop writes
  have hclient := congrArg client (ecu.sendLoop_frame writes)
  unfold sendToClient
  rw [if_pos (Option.isSome_iff_ne_none.mpr hheld)]
  generalize ecu.sendLoop writes = loop at hended hclient ⊢
  obtain ⟨ecu₁, sent, result⟩ := loop
  cases result with
  | wouldBlock => exact SocketEnd.leaves_of_loopEnd hended (fun _ => hclient) nofun rfl
  | disconnected =>
    exact SocketEnd.leaves_of_loopEnd hended (fun hheld => absurd rfl hheld) (fun _ => rfl) rfl
  | failed => exact SocketEnd.leaves_of_loopEnd hended (fun _ => hclient) nofun rfl

/-- Without a client nothing is read or written. -/
lemma receiveFromClient_of_nobody {ecu : EcuIo P} (hfree : ecu.client = none)
    (reads : List ReadResult) :
    (ecu.receiveFromClient reads).1.client = none ∧ (ecu.receiveFromClient reads).2.2 = true := by
  have hlines := congrArg client (processCompleteLines_spec ecu).2
  unfold receiveFromClient
  rw [hfree] at hlines ⊢
  exact ⟨hlines, rfl⟩

lemma sendToClient_of_nobody {ecu : EcuIo P} (hfree : ecu.client = none)
    (writes : List WriteResult) :
    ecu.sendToClient writes = (ecu, [], true) := by
  unfold sendToClient
  rw [hfree]
  rfl

/-! ## Whole sessions -/

/-- What a poll makes of the session is whole if it leaves it alone, or begins one as there was
none. -/
inductive Whole (ecu : EcuIo P) : EcuIo P → Prop
  | same : Whole ecu ecu
  | begun (client : ℕ) : ecu.client = none → Whole ecu { ecu with client := some client }

/-- Whether a client is held once all were accepted, if accepting does not fail. -/
def admitted (held : Bool) : List AcceptResult → Option Bool
  | [] => some held
  | .failed :: _ => none
  | .ok _ _ nonblocking :: accepts =>
    if held then admitted held accepts else if nonblocking then admitted true accepts else none

/-- Accepting clients. -/
lemma acceptClients_spec {start ecu : EcuIo P} (h : Whole start ecu) (accepts : List AcceptResult) :
    Whole start (ecu.acceptClients accepts).1 ∧
      if (ecu.acceptClients accepts).2.2 then
        admitted ecu.client.isSome accepts = some (ecu.acceptClients accepts).1.client.isSome
      else admitted ecu.client.isSome accepts = none := by
  induction accepts generalizing ecu with
  | nil => exact ⟨h, rfl⟩
  | cons result accepts ih =>
    cases result with
    | failed => exact ⟨h, rfl⟩
    | ok client now nonblocking =>
      unfold acceptClients admitted
      cases hheld : ecu.client with
      | some old =>
        have hlater := ih h
        rw [hheld] at hlater
        exact hlater
      | none =>
        cases nonblocking with
        | false => exact ⟨h, rfl⟩
        | true =>
          refine @ih { ecu with client := some client } ?_
          cases h with
          | same => exact .begun client hheld
          | begun old _ => cases hheld

/-! ## A poll -/

/-- The error that a poll meets in reading from or writing to the client that is held. -/
def metError (ecu : EcuIo P) (io : SocketScript) : Option SocketError :=
  if ecu.embedded.isSome then none
  else
    match admitted ecu.client.isSome io.accepts with
    | some true => clientError ecu.outgoing.length io
    | _ => none

/-- A client that is dead is dropped, so that the next one is accepted, and a poll that fails leaves
a whole session. -/
structure DropsDeadClient (ecu : EcuIo P) (io : SocketScript) : Prop where
  dropped : ecu.metError io ≠ none → (ecu.poll io).1.client = none
  accepts : ecu.metError io ≠ none → ∀ client now reads writes,
    .connected client ∈ ((ecu.poll io).1.poll ⟨[.ok client now true], reads, writes⟩).2.1
  whole : (ecu.poll io).2.2 = false → Whole ecu (ecu.poll io).1

lemma metError_of_refused {ecu ecu₁ : EcuIo P} {io : SocketScript} {accepted : List ClientEvent}
    (h : ecu.acceptClients io.accepts = (ecu₁, accepted, false)) : ecu.metError io = none := by
  obtain ⟨-, hadmitted⟩ := acceptClients_spec (Whole.same : Whole ecu ecu) io.accepts
  rw [h] at hadmitted
  unfold metError
  rw [show admitted _ _ = none from hadmitted]
  exact ite_self none

/-- The error is one that the client meets that is held once all were accepted. -/
lemma metError_of_accepted {ecu ecu₁ : EcuIo P} {io : SocketScript} {accepted : List ClientEvent}
    (hlistening : ecu.embedded = none) (h : ecu.acceptClients io.accepts = (ecu₁, accepted, true)) :
    ecu.metError io = if ecu₁.client = none then none else clientError ecu₁.outgoing.length io := by
  obtain ⟨-, hadmitted⟩ := acceptClients_spec (Whole.same : Whole ecu ecu) io.accepts
  have houtgoing : (ecu.acceptClients io.accepts).1.outgoing = ecu.outgoing := by
    rw [acceptClients_frame]
  rw [h] at hadmitted houtgoing
  unfold metError
  rw [hlistening, show admitted _ _ = some _ from hadmitted, ← houtgoing]
  dsimp only
  cases ecu₁.client <;> rfl

/-- **One poll.**  An error that is known is the end of the client, any other is not, and without
one a poll that fails leaves a whole session. -/
lemma poll_spec (ecu : EcuIo P) (io : SocketScript) :
    (ecu.metError io ≠ none → Takes (ecu.metError io) (ecu.poll io).1.client (ecu.poll io).2.2) ∧
      (ecu.metError io = none → (ecu.poll io).2.2 = false → Whole ecu (ecu.poll io).1) := by
  cases hembedded : ecu.embedded with
  | some link =>
    unfold metError poll
    rw [hembedded]
    exact ⟨fun h => absurd rfl h, nofun⟩
  | none =>
    have hcases := pollCases hembedded io
    generalize ecu.poll io = result at hcases ⊢
    cases hcases with
    | accepting haccepted =>
      obtain ⟨hwhole, -⟩ := acceptClients_spec (Whole.same : Whole ecu ecu) io.accepts
      rw [haccepted] at hwhole
      exact ⟨fun h => absurd (metError_of_refused haccepted) h, fun _ _ => hwhole⟩
    | @reading ecu₁ _ _ _ haccepted hreceived =>
      have hheld : ecu₁.client ≠ none := by
        intro hfree
        have hok := (receiveFromClient_of_nobody hfree io.reads).2
        rw [hreceived] at hok
        cases hok
      have hread := leaves_receiveFromClient hheld io.reads
      rw [hreceived] at hread
      rw [metError_of_accepted hembedded haccepted, if_neg hheld]
      exact takes_and_whole (takes_of_reading hheld hread _)
    | @writing ecu₁ ecu₂ _ _ haccepted hreceived =>
      rw [metError_of_accepted hembedded haccepted]
      by_cases hheld : ecu₁.client = none
      · have hfree := (receiveFromClient_of_nobody hheld io.reads).1
        rw [hreceived] at hfree
        rw [if_pos hheld, sendToClient_of_nobody hfree]
        exact ⟨fun h => absurd rfl h, nofun⟩
      · have hread := leaves_receiveFromClient hheld io.reads
        have hqueue : (ecu₁.receiveFromClient io.reads).1.outgoing = ecu₁.outgoing := by
          rw [receiveFromClient_frame]
        rw [hreceived] at hread hqueue
        rw [if_neg hheld]
        refine takes_and_whole (takes_of_writing hheld hread (fun hheld₂ => ?_) fun hfree => ?_)
        · rw [← hqueue]
          exact leaves_sendToClient hheld₂ io.writes
        · rw [sendToClient_of_nobody hfree]
          exact ⟨hfree, rfl⟩

/-- The next client is accepted if none is held. -/
lemma connected_of_nobody {ecu : EcuIo P} (hlistening : ecu.embedded = none)
    (hfree : ecu.client = none) (client now : ℕ) (reads : List ReadResult)
    (writes : List WriteResult) :
    .connected client ∈ (ecu.poll ⟨[.ok client now true], reads, writes⟩).2.1 := by
  have haccept : ecu.acceptClients [.ok client now true] =
      ({ ecu with client := some client }, [.connected client], true) := by
    unfold acceptClients
    rw [hfree]
    rfl
  have hcases := pollCases hlistening ⟨[.ok client now true], reads, writes⟩
  generalize ecu.poll ⟨[.ok client now true], reads, writes⟩ = result at hcases ⊢
  cases hcases with
  | accepting haccepted => cases haccept.symm.trans haccepted
  | reading haccepted _ =>
    cases haccept.symm.trans haccepted
    exact List.mem_append_left _ (List.mem_singleton_self _)
  | writing haccepted _ =>
    cases haccept.symm.trans haccepted
    exact List.mem_append_left _ (List.mem_append_left _ (List.mem_singleton_self _))

/-- **A dead client is dropped** if the error is known. -/
lemma dropsDeadClient_iff (ecu : EcuIo P) (io : SocketScript) :
    ecu.DropsDeadClient io ↔ ecu.metError io ≠ some .other := by
  obtain ⟨htakes, hwhole⟩ := ecu.poll_spec io
  have hstill : ecu.metError io ≠ none → (ecu.poll io).1.embedded = none := by
    intro hmet
    unfold metError at hmet
    cases hembedded : ecu.embedded with
    | none => rw [ecu.poll_frame_of_listening io hembedded]
    | some link => exact absurd (by rw [hembedded]; rfl) hmet
  have haccepts := fun hmet hnone => connected_of_nobody (hstill hmet) hnone
  rw [← drops_iff_known htakes haccepts hwhole]
  exact ⟨fun h => ⟨h.dropped, h.accepts, h.whole⟩, fun h => ⟨h.1, h.2.1, h.2.2⟩⟩

end EcuIo

/-- **Dead clients.**  On both bridges a client is dropped, and the session is left whole, exactly
if the poll meets no error with the client but `ConnectionReset`. -/
theorem dead_client_dropped_iff {P : Type} (ecu : EcuIo P) (bridge : UsbCdcTcp)
    (io : SocketScript) :
    (ecu.DropsDeadClient io ↔ ecu.metError io ≠ some .other) ∧
      (bridge.DropsDeadClient io ↔ bridge.metError io ≠ some .other) :=
  ⟨ecu.dropsDeadClient_iff io, bridge.dropsDeadClient_iff io⟩

/-- A client sends a line, and reading from it fails next. -/
def abortedRead : SocketScript := ⟨[.ok 0 0 true], [.ok (outputLine "n1" 1), .failed], []⟩

/-- The client is held on both bridges, and another is refused by both.  The line waits, and is not
handled. -/
theorem dead_client_kept :
    let ecu := ((EcuIo.new sampleConfig none : EcuIo ℚ).poll abortedRead).1
    let bridge := (listeningBridge.poll abortedRead).1
    ¬ (EcuIo.new sampleConfig none : EcuIo ℚ).DropsDeadClient abortedRead ∧
      ¬ listeningBridge.DropsDeadClient abortedRead ∧
      (ecu.client = some 0 ∧ ecu.recvBuffer = outputLine "n1" 1 ∧ ecu.values "n1" = none) ∧
      (∀ now, (ecu.poll ⟨[.ok 1 now true], [], []⟩).1.client = some 0) ∧
      bridge.client = some 0 ∧
      (bridge.poll ⟨[.ok 1 9999999999 true], [], []⟩).1.client = some 0 := by
  refine ⟨fun h => absurd (h.dropped ?_) ?_, fun h => absurd (h.dropped ?_) ?_,
    ⟨rfl, rfl, rfl⟩, fun _ => rfl, rfl, ?_⟩
  · decide
  · decide
  · decide
  · decide
  · decide

end Stm32Emulator.Ecu
