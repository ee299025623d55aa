import Stm32Emulator.EcuIo.Clients

/-!
# What a poll changes

A poll changes the client, the buffers, the values and the inputs that the link holds, and nothing
else (`poll_frame`).  Of the values it changes those of the signals that lines or the host name
(`values_poll`), and a client that it leaves was held before or is new (`connected_of_poll`).
-/

namespace Stm32Emulator.Ecu.EcuIo

variable {P : Type}

/-! ## What a poll leaves alone -/

/-- Accepting changes the client only. -/
lemma acceptClients_frame (ecu : EcuIo P) (accepts : List AcceptResult) :
    (ecu.acceptClients accepts).1 =
      { ecu with client := (ecu.acceptClients accepts).1.client } := by
  induction accepts generalizing ecu with
  | nil => rfl
  | cons result accepts ih =>
    cases result with
    | failed => rfl
    | ok client now nonblocking =>
      simp only [acceptClients]
      split_ifs
      · exact ih ecu
      · rfl
      · exact ih { ecu with client := some client }

/-- The loops change the buffers only. -/
lemma receiveLoop_frame (ecu : EcuIo P) (reads : List ReadResult) :
    (ecu.receiveLoop reads).1 =
      { ecu with recvBuffer := (ecu.receiveLoop reads).1.recvBuffer } := by
  induction reads generalizing ecu with
  | nil => rfl
  | cons result reads ih =>
    cases result with
    | connectionReset => rfl
    | failed => rfl
    | ok bytes =>
      simp only [receiveLoop]
      split_ifs
      · rfl
      · exact ih { ecu with recvBuffer := pushCappedVec ecu.recvBuffer bytes maxBufferedBytes }

lemma sendLoop_frame (ecu : EcuIo P) (writes : List WriteResult) :
    (ecu.sendLoop writes).1 = { ecu with outgoing := (ecu.sendLoop writes).1.outgoing } := by
  induction writes generalizing ecu with
  | nil => rfl
  | cons result writes ih =>
    simp only [sendLoop]
    split_ifs
    · rfl
    · cases result with
      | connectionReset => rfl
      | failed => rfl
      | ok count =>
        dsimp only
        split_ifs
        · rfl
        · exact ih { ecu with outgoing := ecu.outgoing.drop count }

lemma receiveFromClient_frame (ecu : EcuIo P) (reads : List ReadResult) :
    (ecu.receiveFromClient reads).1 =
      { ecu with
        client := (ecu.receiveFromClient reads).1.client
        recvBuffer := (ecu.receiveFromClient reads).1.recvBuffer
        values := (ecu.receiveFromClient reads).1.values } := by
  have hloop : (if ecu.client.isSome then ecu.receiveLoop reads else (ecu, [], .wouldBlock)).1 =
      { ecu with
        recvBuffer :=
          (if ecu.client.isSome then ecu.receiveLoop reads
            else (ecu, [], .wouldBlock)).1.recvBuffer } := by
    split_ifs
    · exact receiveLoop_frame ecu reads
    · rfl
  unfold receiveFromClient
  generalize (if ecu.client.isSome then ecu.receiveLoop reads else (ecu, [], .wouldBlock)) =
    result at hloop ⊢
  obtain ⟨ecu₁, received, _ | _ | _⟩ := result
  · dsimp only at hloop ⊢
    rw [(processCompleteLines_spec ecu₁).2, hloop]
  · dsimp only at hloop ⊢
    rw [(processCompleteLines_spec { ecu₁ with client := none }).2, hloop]
  · dsimp only at hloop ⊢
    rw [hloop]

lemma sendToClient_frame (ecu : EcuIo P) (writes : List WriteResult) :
    (ecu.sendToClient writes).1 =
      { ecu with
        client := (ecu.sendToClient writes).1.client
        outgoing := (ecu.sendToClient writes).1.outgoing } := by
  have hloop : (if ecu.client.isSome then ecu.sendLoop writes else (ecu, [], .wouldBlock)).1 =
      { ecu with
        outgoing :=
          (if ecu.client.isSome then ecu.sendLoop writes
            else (ecu, [], .wouldBlock)).1.outgoing } := by
    split_ifs
    · exact sendLoop_frame ecu writes
    · rfl
  unfold sendToClient
  generalize (if ecu.client.isSome then ecu.sendLoop writes else (ecu, [], .wouldBlock)) =
    result at hloop ⊢
  obtain ⟨ecu₁, sent, _ | _ | _⟩ := result
  · dsimp only at hloop ⊢
    rw [hloop]
  · dsimp only at hloop ⊢
    rw [hloop]
  · dsimp only at hloop ⊢
    rw [hloop]

/-- A poll of a device that listens changes its client, buffers and values. -/
lemma poll_frame_of_listening (ecu : EcuIo P) (io : SocketScript)
    (hlistening : ecu.embedded = none) :
    (ecu.poll io).1 =
      { ecu with
        embedded := none
        client := (ecu.poll io).1.client
        recvBuffer := (ecu.poll io).1.recvBuffer
        outgoing := (ecu.poll io).1.outgoing
        values := (ecu.poll io).1.values } := by
  have haccept := acceptClients_frame ecu io.accepts
  have hcases := pollCases hlistening io
  generalize ecu.poll io = result at hcases ⊢
  cases hcases with
  | accepting haccepted =>
    rw [haccepted] at haccept
    dsimp only at haccept ⊢
    rw [haccept, hlistening]
  | @reading ecu₁ ecu₂ _ _ haccepted hreceived =>
    have hreceive := receiveFromClient_frame ecu₁ io.reads
    rw [haccepted] at haccept
    rw [hreceived] at hreceive
    dsimp only at haccept hreceive ⊢
    rw [hreceive, haccept, hlistening]
  | @writing ecu₁ ecu₂ _ _ haccepted hreceived =>
    have hreceive := receiveFromClient_frame ecu₁ io.reads
    have hsend := sendToClient_frame ecu₂ io.writes
    rw [haccepted] at haccept
    rw [hreceived] at hreceive
    dsimp only at haccept hreceive ⊢
    rw [hsend, hreceive, haccept, hlistening]

/-- Taking the inputs of the host changes values, and the inputs that the link holds. -/
lemma takeLinkInputs_frame (ecu : EcuIo P) (link : EmbeddedEcuIoState) :
    ecu.takeLinkInputs link =
      { ecu with
        embedded := some link.takeInputs.1
        values := (ecu.takeLinkInputs link).values } := by
  have hfold : ∀ (inputs : List (String × ℤ)) (ecu : EcuIo P),
      inputs.foldl (fun ecu input => ecu.setValue input.1 input.2) ecu =
        { ecu with
          values :=
            (inputs.foldl (fun ecu input => ecu.setValue input.1 input.2) ecu).values } := by
    intro inputs
    induction inputs with
    | nil => exact fun _ => rfl
    | cons input inputs ih =>
      intro ecu
      rw [List.foldl_cons, ih]
      dsimp only
      rw [setValue_frame]
  exact hfold link.takeInputs.2 { ecu with embedded := some link.takeInputs.1 }

/-- No poll changes the pins, the last levels, the signals and the wheel. -/
lemma poll_frame (ecu : EcuIo P) (io : SocketScript) :
    (ecu.poll io).1 =
      { ecu with
        embedded := (ecu.poll io).1.embedded
        client := (ecu.poll io).1.client
        recvBuffer := (ecu.poll io).1.recvBuffer
        outgoing := (ecu.poll io).1.outgoing
        values := (ecu.poll io).1.values } := by
  cases hembedded : ecu.embedded with
  | none => rw [poll_frame_of_listening ecu io hembedded]
  | some link =>
    unfold poll
    rw [hembedded]
    dsimp only
    rw [takeLinkInputs_frame]

/-! ## Signals that are set -/

/-- The signals that the handled lines set. -/
def handledNames (events : List ClientEvent) : List String :=
  events.filterMap fun
    | .handled text => (parseLine text).map Prod.fst
    | _ => none

/-- The signals that a poll sets, by lines or by inputs of the host. -/
def inboundNames (ecu : EcuIo P) (io : SocketScript) : List String :=
  match ecu.embedded with
  | some link => link.pendingInputs.map Prod.fst
  | none => handledNames (ecu.poll io).2.1

lemma handledNames_append (events later : List ClientEvent) :
    handledNames (events ++ later) = handledNames events ++ handledNames later :=
  List.filterMap_append

lemma values_setValue_of_ne (ecu : EcuIo P) {name name' : String} (value : ℤ) (hne : name' ≠ name) :
    (ecu.setValue name value).values name' = ecu.values name' := by
  unfold setValue
  split_ifs
  · exact Function.update_of_ne hne _ _
  · rfl

lemma values_processLoop (fuel : ℕ) (ecu : EcuIo P) {name : String}
    (hname : name ∉ handledNames (processLoop fuel ecu).2) :
    (processLoop fuel ecu).1.values name = ecu.values name := by
  induction fuel generalizing ecu with
  | zero => rfl
  | succ fuel ih =>
    unfold processLoop at hname ⊢
    cases hpos : ecu.recvBuffer.findIdx? (· = newline) with
    | none => rfl
    | some pos =>
      rw [hpos] at hname
      dsimp only at hname ⊢
      cases hline : decodeLine (ecu.recvBuffer.take pos) with
      | none =>
        rw [hline] at hname
        exact ih { ecu with recvBuffer := ecu.recvBuffer.drop (pos + 1) } hname
      | some text =>
        rw [hline] at hname
        dsimp only at hname ⊢
        have hcons := handledNames_append [.handled text] (processLoop fuel
          ({ ecu with recvBuffer := ecu.recvBuffer.drop (pos + 1) }.handleLine text)).2
        rw [List.singleton_append] at hcons
        rw [hcons, List.mem_append, not_or] at hname
        rw [ih _ hname.2]
        unfold handleLine
        cases hparse : parseLine text with
        | none => rfl
        | some setting =>
          refine values_setValue_of_ne _ _ fun heq => hname.1 ?_
          simp [handledNames, hparse, heq]

lemma values_receiveFromClient (ecu : EcuIo P) (reads : List ReadResult) {name : String}
    (hname : name ∉ handledNames (ecu.receiveFromClient reads).2.1) :
    (ecu.receiveFromClient reads).1.values name = ecu.values name := by
  have hloop : (if ecu.client.isSome then ecu.receiveLoop reads
      else (ecu, [], .wouldBlock)).1.values =
      ecu.values := by
    split_ifs
    · rw [receiveLoop_frame]
    · rfl
  unfold receiveFromClient at hname ⊢
  generalize (if ecu.client.isSome then ecu.receiveLoop reads else (ecu, [], .wouldBlock)) = result
    at hloop hname ⊢
  obtain ⟨ecu₁, received, _ | _ | _⟩ := result
  · dsimp only at hloop hname ⊢
    rw [handledNames_append, List.mem_append, not_or] at hname
    exact (values_processLoop _ ecu₁ hname.2).trans (congrFun hloop name)
  · dsimp only at hloop hname ⊢
    rw [handledNames_append, handledNames_append, List.mem_append, List.mem_append, not_or, not_or]
      at hname
    exact (values_processLoop _ { ecu₁ with client := none } hname.1.2).trans (congrFun hloop name)
  · exact congrFun hloop name

/-- **Polls** set the signals that lines or the host name, and no others. -/
lemma values_poll (ecu : EcuIo P) (io : SocketScript) {name : String}
    (hname : name ∉ ecu.inboundNames io) : (ecu.poll io).1.values name = ecu.values name := by
  unfold inboundNames at hname
  cases hembedded : ecu.embedded with
  | some link =>
    unfold poll
    rw [hembedded] at hname ⊢
    have hfold : ∀ (inputs : List (String × ℤ)) (ecu : EcuIo P), name ∉ inputs.map Prod.fst →
        (inputs.foldl (fun ecu input => ecu.setValue input.1 input.2) ecu).values name =
          ecu.values name := by
      intro inputs
      induction inputs with
      | nil => exact fun _ _ => rfl
      | cons input inputs ih =>
        intro ecu hmem
        rw [List.map_cons, List.mem_cons, not_or] at hmem
        rw [List.foldl_cons, ih _ hmem.2]
        exact values_setValue_of_ne ecu input.2 hmem.1
    exact hfold link.pendingInputs { ecu with embedded := some link.takeInputs.1 } hname
  | none =>
    rw [hembedded] at hname
    have haccept := acceptClients_frame ecu io.accepts
    have hcases := pollCases hembedded io
    dsimp only at hname
    generalize ecu.poll io = result at hcases hname ⊢
    cases hcases with
    | accepting haccepted =>
      rw [haccepted] at haccept
      exact congrFun (congrArg EcuIo.values haccept) name
    | @reading ecu₁ _ _ _ haccepted hreceived =>
      have hreceive := @values_receiveFromClient _ ecu₁ io.reads name
      rw [haccepted] at haccept
      rw [hreceived] at hreceive
      rw [handledNames_append, List.mem_append, not_or] at hname
      exact (hreceive hname.2).trans (congrFun (congrArg EcuIo.values haccept) name)
    | @writing ecu₁ _ _ _ haccepted hreceived =>
      have hreceive := @values_receiveFromClient _ ecu₁ io.reads name
      rw [haccepted] at haccept
      rw [hreceived] at hreceive
      rw [handledNames_append, handledNames_append, List.mem_append, List.mem_append, not_or,
        not_or] at hname
      dsimp only
      rw [sendToClient_frame]
      exact (hreceive hname.1.2).trans (congrFun (congrArg EcuIo.values haccept) name)

/-! ## Clients that are held -/

lemma client_of_receiveFromClient (ecu : EcuIo P) (reads : List ReadResult)
    (hheld : (ecu.receiveFromClient reads).1.client ≠ none) : ecu.client ≠ none := by
  have hloop : (if ecu.client.isSome then ecu.receiveLoop reads
      else (ecu, [], .wouldBlock)).1.client =
      ecu.client := by
    split_ifs
    · rw [receiveLoop_frame]
    · rfl
  rw [← hloop]
  unfold receiveFromClient at hheld
  generalize (if ecu.client.isSome then ecu.receiveLoop reads else (ecu, [], .wouldBlock)) = result
    at hheld ⊢
  obtain ⟨ecu₁, received, _ | _ | _⟩ := result
  · dsimp only at hheld ⊢
    rwa [(processCompleteLines_spec ecu₁).2] at hheld
  · dsimp only at hheld
    rw [(processCompleteLines_spec { ecu₁ with client := none }).2] at hheld
    exact absurd rfl hheld
  · exact hheld

lemma client_of_sendToClient (ecu : EcuIo P) (writes : List WriteResult)
    (hheld : (ecu.sendToClient writes).1.client ≠ none) : ecu.client ≠ none := by
  have hloop : (if ecu.client.isSome then ecu.sendLoop writes
      else (ecu, [], .wouldBlock)).1.client =
      ecu.client := by
    split_ifs
    · rw [sendLoop_frame]
    · rfl
  rw [← hloop]
  unfold sendToClient at hheld
  generalize (if ecu.client.isSome then ecu.sendLoop writes else (ecu, [], .wouldBlock)) = result
    at hheld ⊢
  obtain ⟨ecu₁, sent, _ | _ | _⟩ := result
  · exact hheld
  · exact absurd rfl hheld
  · exact hheld

/-- A client that is held after accepting was held before or is new. -/
lemma connected_of_acceptClients (ecu : EcuIo P) (accepts : List AcceptResult)
    (hfree : ecu.client = none) (hheld : (ecu.acceptClients accepts).1.client ≠ none) :
    ∃ client, .connected client ∈ (ecu.acceptClients accepts).2.1 := by
  cases accepts with
  | nil => exact absurd hfree hheld
  | cons result accepts =>
    cases result with
    | failed => exact absurd hfree hheld
    | ok client now nonblocking =>
      simp only [acceptClients, hfree] at hheld ⊢
      cases nonblocking with
      | false => exact absurd hfree hheld
      | true => exact ⟨client, List.mem_cons_self⟩

/-- A client that is held after a poll was held before or is new. -/
lemma connected_of_poll (ecu : EcuIo P) (io : SocketScript) (hlistening : ecu.embedded = none)
    (hfree : ecu.client = none) (hheld : (ecu.poll io).1.client ≠ none) :
    ∃ client, .connected client ∈ (ecu.poll io).2.1 := by
  have haccept := connected_of_acceptClients ecu io.accepts hfree
  have hcases := pollCases hlistening io
  generalize ecu.poll io = result at hcases hheld ⊢
  cases hcases with
  | accepting haccepted =>
    rw [haccepted] at haccept
    exact haccept hheld
  | @reading ecu₁ _ _ _ haccepted hreceived =>
    have hreceive := client_of_receiveFromClient ecu₁ io.reads
    rw [haccepted] at haccept
    rw [hreceived] at hreceive
    obtain ⟨client, hmem⟩ := haccept (hreceive hheld)
    exact ⟨client, List.mem_append_left _ hmem⟩
  | @writing ecu₁ ecu₂ _ _ haccepted hreceived =>
    have hreceive := client_of_receiveFromClient ecu₁ io.reads
    rw [haccepted] at haccept
    rw [hreceived] at hreceive
    obtain ⟨client, hmem⟩ := haccept (hreceive (client_of_sendToClient ecu₂ io.writes hheld))
    exact ⟨client, List.mem_append_left _ (List.mem_append_left _ hmem)⟩

end Stm32Emulator.Ecu.EcuIo
