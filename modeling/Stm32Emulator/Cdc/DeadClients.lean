import Stm32Emulator.Cdc.TcpBridge

/-!
# Clients that are dead

A call to `read` or `write` fails if the client is gone.  Of the kinds of these errors the bridge
knows one, `ConnectionReset`, which ends the session.  With any other the poll fails and the client
is kept (`UsbCdcTcp.dropsDeadClient_iff`).
-/

namespace Stm32Emulator

/-! ## How the calls to a socket end -/

/-- An error of a call, other than that it would block. -/
inductive SocketError where
  | connectionReset
  | other
  deriving DecidableEq, Repr

inductive SocketEnd where
  | wouldBlock
  | closed
  | failed (error : SocketError)
  deriving DecidableEq, Repr

namespace SocketEnd

def error? : SocketEnd → Option SocketError
  | failed error => some error
  | _ => none

/-- What a loop makes of it. -/
def loopEnd : SocketEnd → LoopEnd
  | wouldBlock => .wouldBlock
  | closed => .disconnected
  | failed .connectionReset => .disconnected
  | failed .other => .failed

end SocketEnd

/-- What ends the reads. -/
def readEnd : List ReadResult → SocketEnd
  | [] => .wouldBlock
  | .connectionReset :: _ => .failed .connectionReset
  | .failed :: _ => .failed .other
  | .ok bytes :: reads => if bytes = [] then .closed else readEnd reads

/-- What ends the writes, if so many bytes are queued. -/
def writeEnd (queued : ℕ) : List WriteResult → SocketEnd
  | [] => .wouldBlock
  | result :: writes =>
    if queued = 0 then .wouldBlock
    else
      match result with
      | .connectionReset => .failed .connectionReset
      | .failed => .failed .other
      | .ok count => if count = 0 then .closed else writeEnd (queued - count) writes

/-- The error that is met with a client that is held.  It is written to only if it can be read
from. -/
def clientError (queued : ℕ) (io : SocketScript) : Option SocketError :=
  match readEnd io.reads with
  | .wouldBlock => (writeEnd queued io.writes).error?
  | ended => ended.error?

/-- What becomes of a client, and whether the function around the calls succeeds. -/
def SocketEnd.Leaves (ended : SocketEnd) (client client' : Option ℕ) (ok : Bool) : Prop :=
  match ended with
  | wouldBlock => client' = client ∧ ok = true
  | failed .other => client' = client ∧ ok = false
  | _ => client' = none ∧ ok = true

/-- A function that marks the client as gone if the loop says so, and fails if the loop does. -/
lemma SocketEnd.leaves_of_loopEnd {ended : SocketEnd} {result : LoopEnd} {client client' : Option ℕ}
    {ok : Bool} (h : result = ended.loopEnd) (hkept : result ≠ .disconnected → client' = client)
    (hgone : result = .disconnected → client' = none) (hok : ok = decide (result ≠ .failed)) :
    ended.Leaves client client' ok := by
  subst h hok
  cases ended with
  | wouldBlock => exact ⟨hkept nofun, rfl⟩
  | closed => exact ⟨hgone rfl, rfl⟩
  | failed error =>
    cases error with
    | connectionReset => exact ⟨hgone rfl, rfl⟩
    | other => exact ⟨hkept nofun, rfl⟩

/-- An error that is known is the end of the client, any other is not. -/
def Takes (error : Option SocketError) (client : Option ℕ) (ok : Bool) : Prop :=
  match error with
  | some .other => client ≠ none ∧ ok = false
  | some .connectionReset => client = none ∧ ok = true
  | none => ok = true

/-- What follows from this for a poll of which one thing holds if it succeeds with a client that is
gone, and another if it fails without an error of the client. -/
lemma drops_iff_known {error : Option SocketError} {client : Option ℕ} {ok : Bool}
    {accepts whole : Prop} (htakes : error ≠ none → Takes error client ok)
    (haccepts : error ≠ none → client = none → accepts)
    (hwhole : error = none → ok = false → whole) :
    ((error ≠ none → client = none) ∧ (error ≠ none → accepts) ∧ (ok = false → whole)) ↔
      error ≠ some .other := by
  constructor
  · rintro ⟨hdropped, -, -⟩ rfl
    exact (htakes nofun).1 (hdropped nofun)
  · intro hknown
    cases error with
    | none => exact ⟨fun h => absurd rfl h, fun h => absurd rfl h, hwhole rfl⟩
    | some error =>
      cases error with
      | other => exact absurd rfl hknown
      | connectionReset =>
        obtain ⟨hnone, hok⟩ := htakes nofun
        refine ⟨fun _ => hnone, fun _ => haccepts nofun hnone, fun hfailed => ?_⟩
        cases hfailed.symm.trans hok

/-- A poll that takes an error fails only with one. -/
lemma takes_and_whole {error : Option SocketError} {client : Option ℕ} {ok : Bool} {whole : Prop}
    (h : Takes error client ok) :
    (error ≠ none → Takes error client ok) ∧ (error = none → ok = false → whole) := by
  refine ⟨fun _ => h, fun hnone hfailed => ?_⟩
  rw [hnone] at h
  cases hfailed.symm.trans h

lemma SocketEnd.takes {ended : SocketEnd} {client client' : Option ℕ} {ok : Bool}
    (hheld : client ≠ none) (h : ended.Leaves client client' ok) :
    Takes ended.error? client' ok := by
  cases ended with
  | wouldBlock => exact h.2
  | closed => exact h.2
  | failed error =>
    cases error with
    | connectionReset => exact h
    | other =>
      obtain ⟨rfl, rfl⟩ := h
      exact ⟨hheld, rfl⟩

/-- Reading fails. -/
lemma takes_of_reading {io : SocketScript} {client client' : Option ℕ} (hheld : client ≠ none)
    (hread : (readEnd io.reads).Leaves client client' false) (queued : ℕ) :
    Takes (clientError queued io) client' false := by
  unfold clientError
  cases hended : readEnd io.reads with
  | wouldBlock =>
    rw [hended] at hread
    cases hread.2
  | closed =>
    rw [hended] at hread
    exact SocketEnd.takes hheld hread
  | failed error =>
    rw [hended] at hread
    exact SocketEnd.takes hheld hread

/-- Reading does not fail, and the client is written to if it is still there. -/
lemma takes_of_writing {io : SocketScript} {queued : ℕ} {client client₁ client₂ : Option ℕ}
    {ok : Bool} (hheld : client ≠ none) (hread : (readEnd io.reads).Leaves client client₁ true)
    (hwrite : client₁ ≠ none → (writeEnd queued io.writes).Leaves client₁ client₂ ok)
    (hnobody : client₁ = none → client₂ = none ∧ ok = true) :
    Takes (clientError queued io) client₂ ok := by
  unfold clientError
  cases hended : readEnd io.reads with
  | wouldBlock =>
    rw [hended] at hread
    obtain ⟨rfl, -⟩ := hread
    exact SocketEnd.takes hheld (hwrite hheld)
  | closed =>
    rw [hended] at hread
    exact (hnobody hread.1).2
  | failed error =>
    rw [hended] at hread
    cases error with
    | connectionReset => exact hnobody hread.1
    | other => cases hread.2

namespace UsbCdcTcp

/-- The loops end as the calls do. -/
lemma ended_receiveLoop (bridge : UsbCdcTcp) (reads : List ReadResult) :
    (bridge.receiveLoop reads).2.2 = (readEnd reads).loopEnd := by
  induction reads generalizing bridge with
  | nil => rfl
  | cons result reads ih =>
    cases result with
    | connectionReset => rfl
    | failed => rfl
    | ok bytes =>
      unfold receiveLoop readEnd
      split_ifs
      · rfl
      · exact ih _

lemma ended_sendLoop (bridge : UsbCdcTcp) (writes : List WriteResult) :
    (bridge.sendLoop writes).2.2 = (writeEnd bridge.fromDevice.length writes).loopEnd := by
  induction writes generalizing bridge with
  | nil => rfl
  | cons result writes ih =>
    unfold sendLoop writeEnd
    by_cases hempty : bridge.fromDevice = []
    · rw [if_pos hempty, if_pos (List.length_eq_zero_iff.mpr hempty)]
      rfl
    · rw [if_neg hempty, if_neg (mt List.length_eq_zero_iff.mp hempty)]
      cases result with
      | connectionReset => rfl
      | failed => rfl
      | ok count =>
        dsimp only
        split_ifs
        · rfl
        · have hlater := ih { bridge with fromDevice := bridge.fromDevice.drop count }
          rw [List.length_drop] at hlater
          exact hlater

/-! ## Whole sessions -/

/-- What a poll makes of the session is whole if it leaves it alone, begins one as there was none,
or ends it with its queues, and may begin another. -/
inductive Whole (bridge : UsbCdcTcp) : UsbCdcTcp → Prop
  | same : Whole bridge bridge
  | begun (client now : ℕ) : bridge.client = none →
      Whole bridge { bridge with client := some client, clientConnectedAt := some now }
  | ended (session : Option (ℕ × ℕ)) : Whole bridge { bridge.markDisconnected with
      client := session.map Prod.fst, clientConnectedAt := session.map Prod.snd }

/-- The end of the session. -/
lemma Whole.markDisconnected {bridge bridge' : UsbCdcTcp} (h : Whole bridge bridge') :
    bridge'.markDisconnected = bridge.markDisconnected := by
  cases h <;> rfl

/-- One more client. -/
lemma Whole.begin {bridge bridge' : UsbCdcTcp} (h : Whole bridge bridge')
    (hfree : bridge'.client = none) (client now : ℕ) :
    Whole bridge { bridge' with client := some client, clientConnectedAt := some now } := by
  cases h with
  | same => exact .begun client now hfree
  | begun client' now' _ => cases hfree
  | ended session => exact .ended (some (client, now))

/-- Whether a client is held once all were accepted, and how much is queued for it, if accepting
does not fail. -/
def admitted (gracePeriod : ℕ) (held : Bool) (connectedAt : Option ℕ) (queued : ℕ) :
    List AcceptResult → Option (Bool × ℕ)
  | [] => some (held, queued)
  | .failed :: _ => none
  | .ok _ now nonblocking :: accepts =>
    if held && connectedAt.any fun connectedAt => now - connectedAt < gracePeriod then
      admitted gracePeriod held connectedAt queued accepts
    else if nonblocking then
      admitted gracePeriod true (some now) (if held then 0 else queued) accepts
    else none

/-- Accepting clients. -/
lemma acceptClients_spec {start bridge : UsbCdcTcp} (h : Whole start bridge)
    (accepts : List AcceptResult) :
    Whole start (bridge.acceptClients accepts).1 ∧
      if (bridge.acceptClients accepts).2.2 then
        admitted bridge.staleClientGracePeriod bridge.client.isSome bridge.clientConnectedAt
          bridge.fromDevice.length accepts = some ((bridge.acceptClients accepts).1.client.isSome,
            (bridge.acceptClients accepts).1.fromDevice.length)
      else
        admitted bridge.staleClientGracePeriod bridge.client.isSome bridge.clientConnectedAt
          bridge.fromDevice.length accepts = none := by
  induction accepts generalizing bridge with
  | nil => exact ⟨h, rfl⟩
  | cons result accepts ih =>
    cases result with
    | failed => exact ⟨h, rfl⟩
    | ok client now nonblocking =>
      unfold acceptClients admitted
      dsimp only
      by_cases hgrace : (bridge.client.isSome && bridge.clientConnectedAt.any fun connectedAt =>
          decide (now - connectedAt < bridge.staleClientGracePeriod)) = true
      · rw [if_pos hgrace, if_pos hgrace]
        exact ih h
      · rw [if_neg hgrace, if_neg hgrace]
        cases hheld : bridge.client with
        | none =>
          cases nonblocking with
          | false => exact ⟨h, rfl⟩
          | true => exact ih (h.begin hheld client now)
        | some old =>
          cases nonblocking with
          | false =>
            refine ⟨?_, rfl⟩
            have hended : Whole start
                { start.markDisconnected with client := none, clientConnectedAt := none } :=
              .ended none
            rw [← h.markDisconnected] at hended
            exact hended
          | true =>
            have hended : Whole start
                { start.markDisconnected with
                  client := some client, clientConnectedAt := some now } :=
              .ended (some (client, now))
            rw [← h.markDisconnected] at hended
            exact ih hended

/-! ## A poll -/

/-- The error that a poll meets in reading from or writing to the client that is held. -/
def metError (bridge : UsbCdcTcp) (io : SocketScript) : Option SocketError :=
  if bridge.embedded.isSome then none
  else
    match admitted bridge.staleClientGracePeriod bridge.client.isSome bridge.clientConnectedAt
        bridge.fromDevice.length io.accepts with
    | some (true, queued) => clientError queued io
    | _ => none

/-- A client that is dead is dropped, so that the next one is accepted, and a poll that fails leaves
a whole session. -/
structure DropsDeadClient (bridge : UsbCdcTcp) (io : SocketScript) : Prop where
  dropped : bridge.metError io ≠ none → (bridge.poll io).1.client = none
  accepts : bridge.metError io ≠ none → ∀ client now reads writes,
    .connected client ∈ ((bridge.poll io).1.poll ⟨[.ok client now true], reads, writes⟩).2.1
  whole : (bridge.poll io).2.2 = false → Whole bridge (bridge.poll io).1

/-- What follows a loop. -/
lemma leaves_afterLoop {loop : UsbCdcTcp × List TcpEvent × LoopEnd} {ended : SocketEnd}
    (h : loop.2.2 = ended.loopEnd) :
    ended.Leaves loop.1.client (afterLoop loop).1.client (afterLoop loop).2.2 := by
  obtain ⟨bridge, events, result⟩ := loop
  cases result with
  | wouldBlock => exact SocketEnd.leaves_of_loopEnd h (fun _ => rfl) nofun rfl
  | disconnected =>
    exact SocketEnd.leaves_of_loopEnd h (fun hheld => absurd rfl hheld) (fun _ => rfl) rfl
  | failed => exact SocketEnd.leaves_of_loopEnd h (fun _ => rfl) nofun rfl

lemma leaves_receiveFromClient {bridge : UsbCdcTcp} (hheld : bridge.client ≠ none)
    (reads : List ReadResult) :
    (readEnd reads).Leaves bridge.client (bridge.receiveFromClient reads).1.client
      (bridge.receiveFromClient reads).2.2 := by
  have hloop := leaves_afterLoop (bridge.ended_receiveLoop reads)
  rw [receiveLoop_frame] at hloop
  unfold receiveFromClient
  rwa [if_pos (Option.isSome_iff_ne_none.mpr hheld)]

lemma leaves_sendToClient {bridge : UsbCdcTcp} (hheld : bridge.client ≠ none)
    (writes : List WriteResult) :
    (writeEnd bridge.fromDevice.length writes).Leaves bridge.client
      (bridge.sendToClient writes).1.client (bridge.sendToClient writes).2.2 := by
  have hloop := leaves_afterLoop (bridge.ended_sendLoop writes)
  rw [sendLoop_frame] at hloop
  unfold sendToClient
  rwa [if_pos (Option.isSome_iff_ne_none.mpr hheld)]

/-- Without a client nothing is read or written. -/
lemma receiveFromClient_of_nobody {bridge : UsbCdcTcp} (hfree : bridge.client = none)
    (reads : List ReadResult) :
    bridge.receiveFromClient reads = (bridge, [], true) := by
  unfold receiveFromClient
  rw [hfree]
  rfl

lemma sendToClient_of_nobody {bridge : UsbCdcTcp} (hfree : bridge.client = none)
    (writes : List WriteResult) :
    bridge.sendToClient writes = (bridge, [], true) := by
  unfold sendToClient
  rw [hfree]
  rfl

/-- A client that is kept keeps its queue. -/
lemma fromDevice_receiveFromClient (bridge : UsbCdcTcp) (reads : List ReadResult)
    (hheld : (bridge.receiveFromClient reads).1.client ≠ none) :
    (bridge.receiveFromClient reads).1.fromDevice = bridge.fromDevice := by
  have hloop := congrArg fromDevice (bridge.receiveLoop_frame reads)
  unfold receiveFromClient at hheld ⊢
  split_ifs at hheld ⊢
  · generalize bridge.receiveLoop reads = loop at hheld hloop ⊢
    obtain ⟨bridge₁, events, ended⟩ := loop
    cases ended with
    | wouldBlock => exact hloop
    | disconnected => exact absurd rfl hheld
    | failed => exact hloop
  · rfl

lemma metError_of_refused {bridge bridge₁ : UsbCdcTcp} {io : SocketScript}
    {accepted : List TcpEvent} (h : bridge.acceptClients io.accepts = (bridge₁, accepted, false)) :
    bridge.metError io = none := by
  obtain ⟨-, hadmitted⟩ := acceptClients_spec (Whole.same : Whole bridge bridge) io.accepts
  rw [h] at hadmitted
  unfold metError
  rw [show admitted _ _ _ _ _ = none from hadmitted]
  exact ite_self none

/-- The error is one that the client meets that is held once all were accepted. -/
lemma metError_of_accepted {bridge bridge₁ : UsbCdcTcp} {io : SocketScript}
    {accepted : List TcpEvent} (hlistening : bridge.embedded = none)
    (h : bridge.acceptClients io.accepts = (bridge₁, accepted, true)) :
    bridge.metError io = if bridge₁.client = none then none
    else clientError bridge₁.fromDevice.length io := by
  obtain ⟨-, hadmitted⟩ := acceptClients_spec (Whole.same : Whole bridge bridge) io.accepts
  rw [h] at hadmitted
  unfold metError
  rw [hlistening, show admitted _ _ _ _ _ = some _ from hadmitted]
  cases bridge₁.client <;> rfl

/-- **One poll.**  An error that is known is the end of the client, any other is not, and without
one a poll that fails leaves a whole session. -/
lemma poll_spec (bridge : UsbCdcTcp) (io : SocketScript) :
    (bridge.metError io ≠ none → Takes (bridge.metError io)
      (bridge.poll io).1.client (bridge.poll io).2.2) ∧
      (bridge.metError io = none → (bridge.poll io).2.2 = false →
        Whole bridge (bridge.poll io).1) := by
  cases hembedded : bridge.embedded with
  | some link =>
    unfold metError poll
    rw [hembedded]
    exact ⟨fun h => absurd rfl h, nofun⟩
  | none =>
    have hcases := pollCases hembedded io
    generalize bridge.poll io = result at hcases ⊢
    cases hcases with
    | accepting haccepted =>
      obtain ⟨hwhole, -⟩ := acceptClients_spec (Whole.same : Whole bridge bridge) io.accepts
      rw [haccepted] at hwhole
      exact ⟨fun h => absurd (metError_of_refused haccepted) h, fun _ _ => hwhole⟩
    | @reading bridge₁ _ _ _ haccepted hreceived =>
      have hheld : bridge₁.client ≠ none := by
        intro hfree
        cases hreceived.symm.trans (receiveFromClient_of_nobody hfree io.reads)
      have hread := leaves_receiveFromClient hheld io.reads
      rw [hreceived] at hread
      rw [metError_of_accepted hembedded haccepted, if_neg hheld]
      exact takes_and_whole (takes_of_reading hheld hread _)
    | @writing bridge₁ bridge₂ _ _ haccepted hreceived =>
      rw [metError_of_accepted hembedded haccepted]
      by_cases hheld : bridge₁.client = none
      · cases hreceived.symm.trans (receiveFromClient_of_nobody hheld io.reads)
        rw [if_pos hheld, sendToClient_of_nobody hheld]
        exact ⟨fun h => absurd rfl h, nofun⟩
      · have hread := leaves_receiveFromClient hheld io.reads
        have hqueue := bridge₁.fromDevice_receiveFromClient io.reads
        rw [hreceived] at hread hqueue
        rw [if_neg hheld]
        refine takes_and_whole (takes_of_writing hheld hread (fun hheld₂ => ?_) fun hfree => ?_)
        · rw [← show bridge₂.fromDevice = bridge₁.fromDevice from hqueue hheld₂]
          exact leaves_sendToClient hheld₂ io.writes
        · rw [sendToClient_of_nobody hfree]
          exact ⟨hfree, rfl⟩

/-- The next client is accepted if none is held. -/
lemma connected_of_nobody {bridge : UsbCdcTcp} (hlistening : bridge.embedded = none)
    (hfree : bridge.client = none) (client now : ℕ) (reads : List ReadResult)
    (writes : List WriteResult) :
    .connected client ∈ (bridge.poll ⟨[.ok client now true], reads, writes⟩).2.1 := by
  have haccept : bridge.acceptClients [.ok client now true] =
      ({ bridge with client := some client, clientConnectedAt := some now },
        [.connected client], true) := by
    unfold acceptClients
    rw [hfree]
    rfl
  have hcases := pollCases hlistening ⟨[.ok client now true], reads, writes⟩
  generalize bridge.poll ⟨[.ok client now true], reads, writes⟩ = result at hcases ⊢
  cases hcases with
  | accepting haccepted => cases haccept.symm.trans haccepted
  | reading haccepted _ =>
    cases haccept.symm.trans haccepted
    exact List.mem_append_left _ (List.mem_singleton_self _)
  | writing haccepted _ =>
    cases haccept.symm.trans haccepted
    exact List.mem_append_left _ (List.mem_append_left _ (List.mem_singleton_self _))

lemma embedded_afterLoop (loop : UsbCdcTcp × List TcpEvent × LoopEnd) :
    (afterLoop loop).1.embedded = loop.1.embedded := by
  obtain ⟨bridge, events, _ | _ | _⟩ := loop <;> rfl

/-- A bridge that listens still does after a poll. -/
lemma embedded_poll {bridge : UsbCdcTcp} (hlistening : bridge.embedded = none) (io : SocketScript) :
    (bridge.poll io).1.embedded = none := by
  have haccept : (bridge.acceptClients io.accepts).1.embedded = none := by
    obtain ⟨hwhole, -⟩ := acceptClients_spec (Whole.same : Whole bridge bridge) io.accepts
    generalize (bridge.acceptClients io.accepts).1 = bridge₁ at hwhole ⊢
    cases hwhole <;> exact hlistening
  have hreceive : ∀ bridge : UsbCdcTcp, (bridge.receiveFromClient io.reads).1.embedded =
      bridge.embedded := by
    intro bridge
    unfold receiveFromClient
    split_ifs
    · rw [embedded_afterLoop, receiveLoop_frame]
    · rfl
  have hsend : ∀ bridge : UsbCdcTcp, (bridge.sendToClient io.writes).1.embedded =
      bridge.embedded := by
    intro bridge
    unfold sendToClient
    split_ifs
    · rw [embedded_afterLoop, sendLoop_frame]
    · rfl
  have hcases := pollCases hlistening io
  generalize bridge.poll io = result at hcases ⊢
  cases hcases with
  | accepting haccepted =>
    rw [haccepted] at haccept
    exact haccept
  | @reading bridge₁ _ _ _ haccepted hreceived =>
    have hsame := hreceive bridge₁
    rw [haccepted] at haccept
    rw [hreceived] at hsame
    exact hsame.trans haccept
  | @writing bridge₁ bridge₂ _ _ haccepted hreceived =>
    have hsame := hreceive bridge₁
    rw [haccepted] at haccept
    rw [hreceived] at hsame
    exact (hsend bridge₂).trans (hsame.trans haccept)

/-- **A dead client is dropped** if the error is known. -/
lemma dropsDeadClient_iff (bridge : UsbCdcTcp) (io : SocketScript) :
    bridge.DropsDeadClient io ↔ bridge.metError io ≠ some .other := by
  obtain ⟨htakes, hwhole⟩ := bridge.poll_spec io
  have hlistening : bridge.metError io ≠ none → bridge.embedded = none := by
    intro hmet
    unfold metError at hmet
    cases hembedded : bridge.embedded with
    | none => rfl
    | some link => exact absurd (by rw [hembedded]; rfl) hmet
  have haccepts := fun hmet hnone => connected_of_nobody (embedded_poll (hlistening hmet) io) hnone
  rw [← drops_iff_known htakes haccepts hwhole]
  exact ⟨fun h => ⟨h.dropped, h.accepts, h.whole⟩, fun h => ⟨h.1, h.2.1, h.2.2⟩⟩

end UsbCdcTcp

end Stm32Emulator
