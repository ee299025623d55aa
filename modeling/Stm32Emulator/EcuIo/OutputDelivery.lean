import Stm32Emulator.EcuIo.OutputEvents

/-!
# Delivery of the events

The events of the outputs are what the client or the host gets.  Their lines are queued behind what
was left for the client, and sent from there; on a link they wait until the host takes them
(`Delivered`).  Together with the invariant of the outputs this is `outputs_report_changes`: the
bytes that are sent and the events that are published are the changes of `ODR`, in their order.
-/

namespace Stm32Emulator.Ecu

variable {P : Type} [WheelArithmetic P]

/-- What an event tells the host. -/
def told (event : EmbeddedOutputEvent) : String × ℤ := (event.name, event.value)

/-- An output and the number of its level. -/
def numbered (event : String × Bool) : String × ℤ := (event.1, if event.2 then 1 else 0)

/-- What was left for the session and its events are what was sent or taken and what waits. -/
structure Delivered (s : OutputBoard P) (log : OutputLog) : Prop where
  lines : s.world.ecuIo.embedded = none → log.fits = true →
    log.sent ++ s.world.ecuIo.outgoing = log.leftBytes ++ log.events.flatMap lineOf
  published : s.world.ecuIo.embedded ≠ none → log.fits = true →
    (log.taken ++ s.world.ecuIo.waitingEvents).map told =
      log.leftEvents.map told ++ log.events.map numbered

/-! ## Reports -/

omit [WheelArithmetic P] in
lemma outputLine_levelValue (name : String) (level : Bool) :
    outputLine name (levelValue level) = lineOf (name, level) := by
  unfold outputLine lineOf levelValue
  cases level
  · have hzero : "=" ++ toString (0 : ℤ) ++ "\n" = "=0\n" := by decide
    simp only [Bool.false_eq_true, if_false, ← hzero, String.append_assoc]
  · have hone : "=" ++ toString (1 : ℤ) ++ "\n" = "=1\n" := by decide
    simp only [if_true, ← hone, String.append_assoc]

/-- A report that is an event is queued, if there is room for its line. -/
lemma outgoing_report {w : World P} (hembedded : w.ecuIo.embedded = none) {r : String × Bool}
    {line : List U8} (hline : line = if w.ecuIo.emits r.1 r.2 then lineOf r else [])
    (hroom : w.ecuIo.outgoing.length + line.length ≤ maxBufferedBytes) :
    (report w r).ecuIo.outgoing = w.ecuIo.outgoing ++ line := by
  subst hline
  unfold report
  dsimp only
  rw [(reportOutput_emits w.ecuIo w.instructionCount r.1 r.2).1, hembedded, Option.isNone_none,
    Bool.and_true]
  cases hemits : w.ecuIo.emits r.1 r.2 with
  | false => simp
  | true =>
    rw [hemits, if_pos rfl] at hroom
    rw [if_pos rfl, if_pos rfl, outputLine_levelValue,
      pushCapped_eq_keepLast (by decide) (by omega), keepLast_of_length_le]
    rwa [List.length_append]

/-- A report that is an event is published, if there is room for it. -/
lemma embedded_report {w : World P} {link : EmbeddedEcuIoState}
    (hembedded : w.ecuIo.embedded = some link) {r : String × Bool} {events : List (String × Bool)}
    (hevents : events = if w.ecuIo.emits r.1 r.2 then [r] else [])
    (hroom : link.outputEvents.length + events.length ≤ EmbeddedEcuIoState.maxPendingOutputEvents) :
    ∃ link', (report w r).ecuIo.embedded = some link' ∧
      link'.outputEvents.length = link.outputEvents.length + events.length ∧
      link'.outputEvents.map told = link.outputEvents.map told ++ events.map numbered := by
  subst hevents
  unfold report
  dsimp only
  rw [(reportOutput_emits w.ecuIo w.instructionCount r.1 r.2).2, hembedded, Option.map_some]
  cases hemits : w.ecuIo.emits r.1 r.2 with
  | false =>
    refine ⟨link, rfl, ?_, ?_⟩
    · rfl
    · exact (List.append_nil _).symm
  | true =>
    rw [hemits, if_pos rfl, List.length_singleton] at hroom
    refine ⟨_, rfl, ?_, ?_⟩
    · rw [if_pos rfl]
      dsimp only
      rw [pushBounded, if_neg (by omega)]
      simp
    · rw [if_pos rfl, if_pos rfl]
      dsimp only
      rw [pushBounded, if_neg (by omega), List.map_append]
      rfl

lemma embedded_report_eq_none {w : World P} (hembedded : w.ecuIo.embedded = none)
    (r : String × Bool) :
    (report w r).ecuIo.embedded = none := by
  unfold report
  dsimp only
  rw [(reportOutput_emits w.ecuIo w.instructionCount r.1 r.2).2, hembedded, Option.map_none]

/-- **The lines of the events** of a sequence of reports are queued in their order. -/
lemma outgoing_reports (w : World P) (reports : List (String × Bool))
    (hembedded : w.ecuIo.embedded = none)
    (hroom : w.ecuIo.outgoing.length + ((emitted w reports).flatMap lineOf).length ≤
      maxBufferedBytes) :
    (reports.foldl report w).ecuIo.embedded = none ∧
      (reports.foldl report w).ecuIo.outgoing =
        w.ecuIo.outgoing ++ (emitted w reports).flatMap lineOf := by
  induction reports generalizing w with
  | nil => exact ⟨hembedded, (List.append_nil _).symm⟩
  | cons r reports ih =>
    have hfirst : (if w.ecuIo.emits r.1 r.2 then [r] else []).flatMap lineOf =
        if w.ecuIo.emits r.1 r.2 then lineOf r else [] := by
      split_ifs <;> simp
    rw [emitted, List.flatMap_append, hfirst, List.length_append] at hroom
    have hqueued := outgoing_report (r := r) hembedded rfl (by omega)
    rw [emitted, List.flatMap_append, hfirst, ← List.append_assoc, ← hqueued]
    refine ih (report w r) (embedded_report_eq_none hembedded r) ?_
    rw [hqueued, List.length_append]
    omega

/-- **The events** of a sequence of reports are published in their order. -/
lemma embedded_reports (w : World P) (reports : List (String × Bool)) {link : EmbeddedEcuIoState}
    (hembedded : w.ecuIo.embedded = some link)
    (hroom : link.outputEvents.length + (emitted w reports).length ≤
      EmbeddedEcuIoState.maxPendingOutputEvents) :
    ∃ link', (reports.foldl report w).ecuIo.embedded = some link' ∧
      link'.outputEvents.map told =
        link.outputEvents.map told ++ (emitted w reports).map numbered := by
  induction reports generalizing w link with
  | nil => exact ⟨link, hembedded, (List.append_nil _).symm⟩
  | cons r reports ih =>
    rw [emitted, List.length_append] at hroom
    obtain ⟨link₁, hlink₁, hlength, hfirst⟩ := embedded_report (r := r) hembedded rfl (by omega)
    obtain ⟨link', hlink', hlater⟩ := ih (report w r) hlink₁ (by omega)
    refine ⟨link', hlink', ?_⟩
    rw [hlater, hfirst, emitted, List.map_append, List.append_assoc]

/-- Reports make no link and remove none. -/
lemma embedded_reports_eq_none_iff (w : World P) (reports : List (String × Bool)) :
    (reports.foldl report w).ecuIo.embedded = none ↔ w.ecuIo.embedded = none := by
  induction reports generalizing w with
  | nil => exact Iff.rfl
  | cons r reports ih =>
    rw [List.foldl_cons, ih]
    unfold report
    dsimp only
    rw [(reportOutput_emits w.ecuIo w.instructionCount r.1 r.2).2, Option.map_eq_none_iff]

namespace Delivered

variable {config : EcuIoConfig} {s s' : OutputBoard P} {log : OutputLog}

/-! ## One step -/

omit [WheelArithmetic P] in
/-- A step that leaves the queues alone. -/
lemma of_same (h : Delivered s log) (houtgoing : s'.world.ecuIo.outgoing = s.world.ecuIo.outgoing)
    (hembedded : s'.world.ecuIo.embedded.map EmbeddedEcuIoState.outputEvents =
      s.world.ecuIo.embedded.map EmbeddedEcuIoState.outputEvents) : Delivered s' log := by
  have hnone : s'.world.ecuIo.embedded = none ↔ s.world.ecuIo.embedded = none := by
    rw [← Option.map_eq_none_iff (f := EmbeddedEcuIoState.outputEvents), hembedded,
      Option.map_eq_none_iff]
  have hwaiting : s'.world.ecuIo.waitingEvents = s.world.ecuIo.waitingEvents := by
    unfold EcuIo.waitingEvents
    rw [hembedded]
  constructor
  · rw [hnone, houtgoing]
    exact h.lines
  · rw [ne_eq, hnone, hwaiting]
    exact h.published

/-- **Writes** queue or publish their events. -/
lemma write (h : Delivered s log) (hinvariant : OutputInvariant config s log) (port : Fin 11)
    (offset value : U32) :
    Delivered (s.step config (.write port offset value))
    (log.next config s (.write port offset value)) := by
  set reports := OutputInvariant.reportsOfWrite config s port offset value with hreports
  have hworld : (s.step config (.write port offset value)).world = reports.foldl report s.world :=
    OutputInvariant.world_write hinvariant
  have hevents : OutputLog.eventsOf config s port offset value = emitted s.world reports := rfl
  have hnone := embedded_reports_eq_none_iff s.world reports
  have hfits : ∀ {fits : Bool}, (log.fits && fits) = true → log.fits = true ∧ fits = true :=
    fun h => Bool.and_eq_true_iff.mp h
  constructor
  · intro hembedded hroom
    rw [hworld, hnone] at hembedded
    obtain ⟨hbefore, hroom⟩ := hfits hroom
    rw [EcuIo.hasRoomFor, hembedded, decide_eq_true_eq, hevents] at hroom
    obtain ⟨-, hqueued⟩ := outgoing_reports s.world reports hembedded hroom
    have hlines := h.lines hembedded hbefore
    simp only [OutputLog.next, hworld, hqueued, hevents, List.flatMap_append]
    rw [← List.append_assoc, hlines, List.append_assoc]
  · intro hembedded hroom
    rw [hworld, ne_eq, hnone] at hembedded
    obtain ⟨link, hlink⟩ := Option.ne_none_iff_exists'.mp hembedded
    obtain ⟨hbefore, hroom⟩ := hfits hroom
    rw [EcuIo.hasRoomFor, hlink, decide_eq_true_eq, hevents] at hroom
    obtain ⟨link', hlink', hpublished⟩ := embedded_reports s.world reports hlink hroom
    have hwaiting := h.published hembedded hbefore
    simp only [EcuIo.waitingEvents, hlink, Option.map_some, Option.getD_some,
      List.map_append] at hwaiting
    simp only [OutputLog.next, EcuIo.waitingEvents, hworld, hlink', Option.map_some,
      Option.getD_some, List.map_append, hpublished, hevents]
    rw [← List.append_assoc, hwaiting, List.append_assoc]

/-- **A poll** sends from the front of the queue, to the client or to a new one. -/
lemma poll_of_listening (h : Delivered s log) (io : SocketScript)
    (hembedded : s.world.ecuIo.embedded = none) :
    Delivered (s.withEcuIo (s.world.ecuIo.poll io).1) (log.next config s (.poll io)) := by
  have hsent := (sent_poll hembedded io).1
  have hembedded' : (s.world.ecuIo.poll io).1.embedded = none := by
    rw [EcuIo.poll_frame_of_listening s.world.ecuIo io hembedded]
  refine ⟨fun _ hfits => ?_, fun hne => absurd hembedded' hne⟩
  simp only [OutputLog.next, OutputBoard.withEcuIo] at hfits ⊢
  split_ifs at hfits ⊢ with hconnected
  · simp only [OutputLog.start, List.nil_append, List.flatMap_nil, List.append_nil]
    exact hsent
  · rw [List.append_assoc, hsent]
    exact h.lines hembedded hfits

/-- A poll on a link sends nothing. -/
lemma poll_of_link (h : Delivered s log) (io : SocketScript) {link : EmbeddedEcuIoState}
    (hlink : s.world.ecuIo.embedded = some link) :
    Delivered (s.withEcuIo (s.world.ecuIo.poll io).1) (log.next config s (.poll io)) := by
  have hpoll : s.world.ecuIo.poll io = (s.world.ecuIo.takeLinkInputs link, [], true) := by
    unfold EcuIo.poll
    rw [hlink]
  have hnext : log.next config s (.poll io) = log := by
    simp only [OutputLog.next, hpoll, List.any_nil, Bool.false_eq_true, if_false,
      List.filterMap_nil, List.flatten_nil, List.append_nil]
  rw [hnext]
  refine h.of_same ?_ ?_ <;> simp only [OutputBoard.withEcuIo, hpoll]
  · rw [EcuIo.takeLinkInputs_frame]
  · rw [EcuIo.takeLinkInputs_frame, hlink]
    rfl

omit [WheelArithmetic P] in
/-- The host takes all events that wait. -/
lemma takeOutputEvents (h : Delivered s log) :
    Delivered (s.withEcuIo { s.world.ecuIo with
        embedded := s.world.ecuIo.embedded.map fun link => link.takeOutputEvents.1 })
      { log with
        taken := log.taken ++
          (s.world.ecuIo.embedded.map fun link => link.takeOutputEvents.2).getD [] } := by
  cases hembedded : s.world.ecuIo.embedded with
  | none =>
    refine ⟨fun _ hfits => h.lines hembedded hfits, fun hne => absurd rfl hne⟩
  | some link =>
    refine ⟨nofun, fun _ hfits => ?_⟩
    have hpublished := h.published (by rw [hembedded]; exact Option.some_ne_none link) hfits
    rw [EcuIo.waitingEvents, hembedded] at hpublished
    simp only [OutputBoard.withEcuIo, EcuIo.waitingEvents, EmbeddedEcuIoState.takeOutputEvents,
      Option.map_some, Option.getD_some, List.append_nil] at hpublished ⊢
    exact hpublished

/-- **Step.** -/
lemma step (h : Delivered s log) (hinvariant : OutputInvariant config s log) (op : OutputOp) :
    Delivered (s.step config op) (log.next config s op) := by
  cases op with
  | write port offset value => exact h.write hinvariant port offset value
  | poll io =>
    rcases hembedded : s.world.ecuIo.embedded with _ | link
    · exact h.poll_of_listening io hembedded
    · exact h.poll_of_link io hembedded
  | setInput name value =>
    refine h.of_same rfl ?_
    simp only [OutputBoard.step, OutputBoard.withEcuIo, Option.map_map]
    rfl
  | takeOutputEvents => exact h.takeOutputEvents
  | advanceTriggerWheel nowInstructions =>
    have hframe := EcuIo.advanceTriggerWheel_frame s.world.ecuIo nowInstructions
    have houtgoing := congrArg EcuIo.outgoing hframe
    have hembedded := congrArg EcuIo.embedded hframe
    exact h.of_same houtgoing (congrArg (Option.map EmbeddedEcuIoState.outputEvents) hembedded)
  | checkDigitalEdges =>
    have hframe := visit_frame s.world.ecuIo
    have houtgoing := congrArg EcuIo.outgoing hframe
    have hembedded := congrArg EcuIo.embedded hframe
    exact h.of_same houtgoing (congrArg (Option.map EmbeddedEcuIoState.outputEvents) hembedded)
  | execute instructions => exact h.of_same rfl rfl

end Delivered

/-! ## Runs -/

/-- The session is the changes of the outputs in order, and it is what the client or the host gets.
The levels of an output alternate, and of an output that was reported the next write is one event if
it changes the bit of the pin, and none if it does not. -/
structure ReportsChanges (config : EcuIoConfig) (s : OutputBoard P) (log : OutputLog) : Prop where
  delivered : Delivered s log
  inOrder : log.events = log.changes
  alternates : ∀ name, (levelsOf name log.events).IsChain (· ≠ ·)
  once : ∀ port offset value, (offset = 0x0018 → Gpio.BsrrDisjoint value) →
    ∀ e ∈ pinsOf config.pins .output, e.2 ∈ log.reported → s.world.ecuIo.listening = true →
      levelsOf e.2 (OutputLog.eventsOf config s port offset value) =
        if s.bit e.1 = (s.step config (.write port offset value)).bit e.1 then []
        else [(s.step config (.write port offset value)).bit e.1]

/-- **The events of the outputs are their changes.**  In every run in which lines, host and wheel
leave the outputs to the ports, a session is the sequence of the changes of the outputs, and their
lines or events are what the client or the host gets. -/
theorem outputs_report_changes (config : EcuIoConfig) (hconfig : DistinctOutputs config)
    (pending : Option EmbeddedEcuIoState) {ops : List OutputOp} {s : OutputBoard P}
    {log : OutputLog}
    (hrun : Run (guardedStep (fun p op => LeavesOutputs config p.1 op) (outputRel config))
      (OutputBoard.new config pending,
        .start [] (EcuIo.new config pending : EcuIo P)) ops (s, log)) :
    ReportsChanges config s log := by
  have hinvariant := OutputInvariant.of_run hconfig hrun
  have hdelivered : OutputInvariant config s log ∧ Delivered s log := by
    refine hrun.invariant_state
      (I := fun p => OutputInvariant config p.1 p.2 ∧ Delivered p.1 p.2) ?_ ?_
    · refine ⟨OutputInvariant.of_run hconfig Run.nil, fun _ _ => ?_, fun _ _ => ?_⟩
      · exact (List.append_nil _).symm
      · exact (List.append_nil _).symm
    · rintro ⟨s, log⟩ _ op ⟨hinvariant, hdelivered⟩ ⟨hleaves, rfl⟩
      exact ⟨hinvariant.step hconfig hleaves, hdelivered.step hinvariant op⟩
  exact ⟨hdelivered.2, hinvariant.inOrder, hinvariant.alternates,
    fun port offset value hdisjoint e he hreported hlistening =>
      OutputInvariant.levelsOf_eventsOf hconfig hdisjoint hinvariant he hreported hlistening⟩

/-! ## An injector -/

/-- An output on PA5. -/
def injectorConfig : EcuIoConfig where
  pins := [⟨"inj1", ⟨0, 5⟩, .output⟩]
  adcChannels := []
  triggerWheel := none

/-- The pin is set, set again and reset. -/
def injectorWrites : List OutputOp :=
  [.write 0 0x0014 0x20, .write 0 0x0018 0x20, .write 0 0x0018 0x200000]

/-- The runs of the injector on a socket or a link. -/
abbrev InjectorRun (pending : Option EmbeddedEcuIoState) (ops : List OutputOp)
    (p : OutputBoard ℚ × OutputLog) : Prop :=
  Run (guardedStep (fun p op => LeavesOutputs injectorConfig p.1 op) (outputRel injectorConfig))
    (OutputBoard.new injectorConfig pending,
      .start [] (EcuIo.new injectorConfig pending : EcuIo ℚ)) ops p

lemma InjectorRun.after {pending : Option EmbeddedEcuIoState} {ops : List OutputOp}
    {p : OutputBoard ℚ × OutputLog} (hrun : InjectorRun pending ops p) (op : OutputOp)
    (hleaves : LeavesOutputs injectorConfig p.1 op) :
    InjectorRun pending (ops ++ [op])
    (p.1.step injectorConfig op, p.2.next injectorConfig p.1 op) :=
  hrun.snoc ⟨hleaves, rfl⟩

lemma InjectorRun.writes {pending : Option EmbeddedEcuIoState} {ops : List OutputOp}
    {p : OutputBoard ℚ × OutputLog} (hrun : InjectorRun pending ops p) :
    ∃ q, InjectorRun pending (ops ++ injectorWrites) q ∧
      q = injectorWrites.foldl
        (fun q op => (q.1.step injectorConfig op, q.2.next injectorConfig q.1 op)) p := by
  have hrun := hrun.after (.write 0 0x0014 0x20) fun h => absurd h (by decide)
  have hrun := hrun.after (.write 0 0x0018 0x20) fun _ => by decide
  have hrun := hrun.after (.write 0 0x0018 0x200000) fun _ => by decide
  rw [List.append_assoc, List.append_assoc] at hrun
  exact ⟨_, hrun, rfl⟩

/-- A client that connects first is sent two lines, and a host gets two events. -/
theorem outputs_report_changes_sample :
    (∃ s log, InjectorRun none (.poll ⟨[.ok 0 0 true], [], []⟩ :: injectorWrites ++
        [.poll ⟨[], [], [.ok 7]⟩]) (s, log) ∧
      log.events = [("inj1", true), ("inj1", false)] ∧
      log.sent = "inj1=1\n".toUTF8.data.toList.map UInt8.toBitVec ∧
      s.world.ecuIo.outgoing = "inj1=0\n".toUTF8.data.toList.map UInt8.toBitVec) ∧
    ∃ s log, InjectorRun (some .default) (injectorWrites ++ [.takeOutputEvents]) (s, log) ∧
      log.events = [("inj1", true), ("inj1", false)] ∧
      (log.taken ++ s.world.ecuIo.waitingEvents).map told = [("inj1", 1), ("inj1", 0)] := by
  have hconfig : DistinctOutputs injectorConfig := ⟨by decide, nofun⟩
  constructor
  · have hrun : InjectorRun none [] _ := Run.nil
    have hrun := hrun.after (.poll ⟨[.ok 0 0 true], [], []⟩) (fun _ hname => nomatch hname)
    obtain ⟨q, hrun, rfl⟩ := hrun.writes
    have hrun := hrun.after (.poll ⟨[], [], [.ok 7]⟩) (fun _ hname => nomatch hname)
    have hreports := outputs_report_changes injectorConfig hconfig none hrun
    have hlines := hreports.delivered.lines (by decide +kernel) (by decide +kernel)
    refine ⟨_, _,
      hrun, by decide +kernel, by decide +kernel, List.append_cancel_left (hlines.trans ?_)⟩
    decide +kernel
  · have hrun : InjectorRun (some .default) [] _ := Run.nil
    obtain ⟨q, hrun, rfl⟩ := hrun.writes
    have hrun := hrun.after .takeOutputEvents trivial
    have hreports := outputs_report_changes injectorConfig hconfig _ hrun
    refine ⟨_, _, hrun, by decide +kernel, ?_⟩
    refine (hreports.delivered.published ?_ (by decide +kernel)).trans (by decide +kernel)
    exact Option.isSome_iff_ne_none.mp (by decide +kernel)

end Stm32Emulator.Ecu
