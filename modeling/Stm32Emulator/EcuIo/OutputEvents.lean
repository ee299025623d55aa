import Stm32Emulator.EcuIo.LineFragments
import Stm32Emulator.EcuIo.OutputReports
import Mathlib.Data.List.Chain

/-!
# Events of the outputs

The ports and the device run together: firmware writes registers of the ports, the device is polled,
and the host works on its link.  The log keeps, for the session of a client or of the host, the
events, beside them the changes of the outputs as `ODR` shows them, and what was sent to the client
or taken by the host.  Every step keeps the events and the changes the same (`OutputInvariant`).
-/

namespace Stm32Emulator.Ecu

variable {P : Type} [WheelArithmetic P]

/-! ## The board -/

/-- The ports and the device. -/
structure OutputBoard (P : Type) where
  gpio : Fin 11 → Gpio
  world : World P

/-- What happens on the board. -/
inductive OutputOp where
  | write (port : Fin 11) (offset value : U32)
  | poll (io : SocketScript)
  | setInput (name : String) (value : ℤ)
  | takeOutputEvents
  | advanceTriggerWheel (nowInstructions : ℕ)
  | checkDigitalEdges
  | execute (instructions : ℕ)

namespace OutputBoard

def new (config : EcuIoConfig) (pending : Option EmbeddedEcuIoState) : OutputBoard P :=
  ⟨Gpio.new, ⟨EcuIo.new config pending, 0⟩⟩

omit [WheelArithmetic P] in
/-- The bit of a pin in `ODR`. -/
def bit (s : OutputBoard P) (pin : Pin) : Bool := (s.gpio pin.port).od.getLsbD pin.pin

omit [WheelArithmetic P] in
def withEcuIo (s : OutputBoard P) (ecu : EcuIo P) : OutputBoard P :=
  { s with world := { s.world with ecuIo := ecu } }

def step (config : EcuIoConfig) (s : OutputBoard P) : OutputOp → OutputBoard P
  | .write port offset value =>
    let (gpio, world) := (s.gpio port).write (registeredPorts P config) s.world offset value
    ⟨Function.update s.gpio port gpio, world⟩
  | .poll io => s.withEcuIo (s.world.ecuIo.poll io).1
  | .setInput name value =>
    s.withEcuIo { s.world.ecuIo with
      embedded := s.world.ecuIo.embedded.map fun link => link.setInput name value }
  | .takeOutputEvents =>
    s.withEcuIo { s.world.ecuIo with
      embedded := s.world.ecuIo.embedded.map fun link => link.takeOutputEvents.1 }
  | .advanceTriggerWheel nowInstructions =>
    s.withEcuIo (s.world.ecuIo.advanceTriggerWheel nowInstructions)
  | .checkDigitalEdges => s.withEcuIo (s.world.ecuIo.step .checkDigitalEdges).1
  | .execute instructions =>
    { s with world := { s.world with instructionCount := s.world.instructionCount + instructions } }

end OutputBoard

/-! ## The log -/

/-- There is a client or a host. -/
def EcuIo.listening (ecu : EcuIo P) : Bool := ecu.embedded.isSome || ecu.client.isSome

/-- The host does not have the level of an output, which it can only have from another device. -/
def EcuIo.isNew (ecu : EcuIo P) (name : String) (level : Bool) : Bool :=
  match ecu.embedded with
  | some link => link.outputs name != some (levelValue level)
  | none => true

/-- The events that wait for the host. -/
def EcuIo.waitingEvents (ecu : EcuIo P) : List EmbeddedOutputEvent :=
  (ecu.embedded.map EmbeddedEcuIoState.outputEvents).getD []

/-- The line of an event. -/
def lineOf (event : String × Bool) : List U8 :=
  (event.1 ++ (if event.2 then "=1\n" else "=0\n")).toUTF8.data.toList.map UInt8.toBitVec

/-- There is room for the lines of some events at the client, or for the events at the host. -/
def EcuIo.hasRoomFor (ecu : EcuIo P) (events : List (String × Bool)) : Bool :=
  match ecu.embedded with
  | some link =>
    link.outputEvents.length + events.length ≤ EmbeddedEcuIoState.maxPendingOutputEvents
  | none => ecu.outgoing.length + (events.flatMap lineOf).length ≤ maxBufferedBytes

/-- The outputs that have been reported, and of the session the changes and the events.  Beside them
stands what the session got: what was left for it when it began, and what was sent to the client or
taken by the host. -/
structure OutputLog where
  reported : List String
  changes : List (String × Bool)
  events : List (String × Bool)
  leftBytes : List U8
  leftEvents : List EmbeddedOutputEvent
  sent : List U8
  taken : List EmbeddedOutputEvent
  /-- No queue has overflowed. -/
  fits : Bool

namespace OutputLog

/-- The beginning of a session. -/
def start (reported : List String) (ecu : EcuIo P) : OutputLog :=
  ⟨reported, [], [], ecu.outgoing, ecu.waitingEvents, [], [], true⟩

/-- The changes of a write, seen by whoever listens: the outputs whose bit in `ODR` has changed, or
whose level is reported for the first time. -/
def changesOf (config : EcuIoConfig) (log : OutputLog) (s : OutputBoard P) (port : Fin 11)
    (offset value : U32) : List (String × Bool) :=
  ((s.gpio port).driven offset value).flatMap fun p =>
    let level := (s.step config (.write port offset value)).bit ⟨port, p.1⟩
    ((outputsOf config ⟨port, p.1⟩).filter fun name =>
      s.world.ecuIo.listening &&
        if name ∈ log.reported then s.bit ⟨port, p.1⟩ != level
        else s.world.ecuIo.isNew name level).map fun name => (name, level)

/-- The events of a write. -/
def eventsOf (config : EcuIoConfig) (s : OutputBoard P) (port : Fin 11) (offset value : U32) :
    List (String × Bool) :=
  emitted s.world (reportsOf config port ((s.gpio port).driven offset value))

def isConnected : ClientEvent → Bool
  | .connected _ => true
  | _ => false

/-- A new client begins a new session, and finds what was left for the one before. -/
def next (config : EcuIoConfig) (log : OutputLog) (s : OutputBoard P) : OutputOp → OutputLog
  | .write port offset value =>
    { log with
      reported :=
        log.reported ++ (reportsOf config port ((s.gpio port).driven offset value)).map Prod.fst
      changes := log.changes ++ log.changesOf config s port offset value
      events := log.events ++ eventsOf config s port offset value
      fits := log.fits && s.world.ecuIo.hasRoomFor (eventsOf config s port offset value) }
  | .poll io =>
    let events := (s.world.ecuIo.poll io).2.1
    let log := if events.any isConnected then start log.reported s.world.ecuIo else log
    { log with sent := log.sent ++ (events.filterMap ClientEvent.sent?).flatten }
  | .takeOutputEvents =>
    { log with
      taken :=
        log.taken ++ (s.world.ecuIo.embedded.map fun link => link.takeOutputEvents.2).getD [] }
  | _ => log

end OutputLog

/-- A step of the board with the log. -/
def outputRel (config : EcuIoConfig) (p : OutputBoard P × OutputLog) (op : OutputOp)
    (q : OutputBoard P × OutputLog) : Prop :=
  (p.1.step config op, p.2.next config p.1 op) = q

/-- The names of the outputs. -/
def outputNames (config : EcuIoConfig) : List String := (pinsOf config.pins .output).map Prod.snd

/-- No write to `BSRR` sets and resets a pin at once, and no line and no input of the host names an
output. -/
def LeavesOutputs (config : EcuIoConfig) (s : OutputBoard P) : OutputOp → Prop
  | .write _ offset value => offset = 0x0018 → Gpio.BsrrDisjoint value
  | .poll io => ∀ name ∈ s.world.ecuIo.inboundNames io, name ∉ outputNames config
  | _ => True

/-- The outputs have names of their own, and the wheel drives none of them. -/
structure DistinctOutputs (config : EcuIoConfig) : Prop where
  nodup : (outputNames config).Nodup
  wheel : ∀ wheel ∈ config.triggerWheel, wheel.pinSignal ∉ outputNames config

/-- The levels of one output in a list of events. -/
def levelsOf (name : String) (events : List (String × Bool)) : List Bool :=
  (events.filter fun event => event.1 = name).map Prod.snd

/-! ## Levels in a list of events -/

lemma levelsOf_append (name : String) (events later : List (String × Bool)) :
    levelsOf name (events ++ later) = levelsOf name events ++ levelsOf name later := by
  unfold levelsOf
  rw [List.filter_append, List.map_append]

lemma levelsOf_eq_nil {name : String} {events : List (String × Bool)}
    (h : ∀ level, (name, level) ∉ events) : levelsOf name events = [] := by
  unfold levelsOf
  rw [List.map_eq_nil_iff, List.filter_eq_nil_iff]
  rintro ⟨name', level⟩ hevent hname
  obtain rfl : name' = name := by simpa using hname
  exact h level hevent

lemma mem_of_mem_levelsOf {name : String} {level : Bool} {events : List (String × Bool)}
    (h : level ∈ levelsOf name events) : (name, level) ∈ events := by
  obtain ⟨⟨name', level'⟩, hevent, rfl⟩ := List.mem_map.mp h
  obtain ⟨hmem, hname⟩ := List.mem_filter.mp hevent
  obtain rfl : name' = name := by simpa using hname
  exact hmem

/-- Of different outputs each has one event. -/
lemma levelsOf_of_mem {name : String} {level : Bool} {events : List (String × Bool)}
    (hnodup : (events.map Prod.fst).Nodup) (h : (name, level) ∈ events) :
    levelsOf name events = [level] := by
  induction events with
  | nil => cases h
  | cons event events ih =>
    rw [List.map_cons, List.nodup_cons] at hnodup
    unfold levelsOf at ih ⊢
    rcases List.mem_cons.mp h with rfl | hmem
    · have hnil : levelsOf name events = [] := levelsOf_eq_nil fun level' hmem =>
        hnodup.1 (List.mem_map.mpr ⟨_, hmem, rfl⟩)
      unfold levelsOf at hnil
      rw [List.filter_cons_of_pos (by simp), List.map_cons, hnil]
    · have hne : event.1 ≠ name := by
        rintro rfl
        exact hnodup.1 (List.mem_map.mpr ⟨_, hmem, rfl⟩)
      rw [List.filter_cons_of_neg (by simpa using hne)]
      exact ih hnodup.2 hmem

/-! ## The outputs of the pins -/

lemma mem_outputsOf {config : EcuIoConfig} {pin : Pin} {name : String} :
    name ∈ outputsOf config pin ↔ (pin, name) ∈ pinsOf config.pins .output := by
  unfold outputsOf
  constructor
  · intro h
    obtain ⟨⟨pin', name'⟩, hentry, rfl⟩ := List.mem_map.mp h
    obtain ⟨hmem, hpin⟩ := List.mem_filter.mp hentry
    obtain rfl : pin' = pin := by simpa using hpin
    exact hmem
  · intro h
    exact List.mem_map.mpr ⟨(pin, name), List.mem_filter.mpr ⟨h, by simp⟩, rfl⟩

lemma mem_reportsOf {config : EcuIoConfig} {port : Fin 11} {driven : List (Fin 16 × Bool)}
    {r : String × Bool} :
    r ∈ reportsOf config port driven ↔
      ∃ pin, (pin, r.2) ∈ driven ∧ (⟨port, pin⟩, r.1) ∈ pinsOf config.pins .output := by
  unfold reportsOf
  rw [List.mem_flatMap]
  constructor
  · rintro ⟨⟨pin, level⟩, hdriven, hreport⟩
    obtain ⟨name, hname, rfl⟩ := List.mem_map.mp hreport
    exact ⟨pin, hdriven, mem_outputsOf.mp hname⟩
  · rintro ⟨pin, hdriven, hmem⟩
    exact ⟨(pin, r.2), hdriven, List.mem_map.mpr ⟨r.1, mem_outputsOf.mpr hmem, rfl⟩⟩

namespace DistinctOutputs

variable {config : EcuIoConfig} (hconfig : DistinctOutputs config)

include hconfig

/-- The name of an output determines its pin. -/
lemma eq_of_name_eq {e e' : Pin × String} (he : e ∈ pinsOf config.pins .output)
    (he' : e' ∈ pinsOf config.pins .output) (hname : e.2 = e'.2) : e = e' :=
  List.inj_on_of_nodup_map hconfig.nodup he he' hname

/-- A write that drives no pin twice reports no output twice. -/
lemma nodup_reportsOf (port : Fin 11) {driven : List (Fin 16 × Bool)}
    (hdriven : (driven.map Prod.fst).Nodup) :
    ((reportsOf config port driven).map Prod.fst).Nodup := by
  have hnames : (reportsOf config port driven).map Prod.fst =
      driven.flatMap fun p => outputsOf config ⟨port, p.1⟩ := by
    unfold reportsOf
    rw [List.map_flatMap]
    simp only [List.map_map, Function.comp_def, List.map_id']
  rw [hnames, List.nodup_flatMap]
  constructor
  · intro p _
    exact hconfig.nodup.sublist (List.filter_sublist.map Prod.snd)
  · refine (List.pairwise_map.mp hdriven).imp fun {p q} hne => ?_
    intro name hp hq
    have heq := hconfig.eq_of_name_eq (mem_outputsOf.mp hp) (mem_outputsOf.mp hq) rfl
    simp only [Prod.mk.injEq, Pin.mk.injEq, true_and, and_true] at heq
    exact hne heq

end DistinctOutputs

/-! ## The invariant -/

/-- The device and the host have the bit of every output that was reported, and nothing of the
others.  The last event of an output has its bit, as long as somebody listens. -/
structure OutputInvariant (config : EcuIoConfig) (s : OutputBoard P) (log : OutputLog) : Prop where
  ports : ∀ port, (s.gpio port).port = port
  wheel : ∀ wheel, s.world.ecuIo.triggerWheel = some wheel →
    wheel.config.pinSignal ∉ outputNames config
  agrees : ∀ e ∈ pinsOf config.pins .output, e.2 ∈ log.reported →
    Agrees s.world.ecuIo e.2 (s.bit e.1)
  unreported : ∀ e ∈ pinsOf config.pins .output, e.2 ∉ log.reported →
    s.world.ecuIo.values e.2 = none
  inOrder : log.events = log.changes
  names : ∀ event ∈ log.events, event.1 ∈ log.reported
  last : s.world.ecuIo.listening = true → ∀ e ∈ pinsOf config.pins .output,
    ∀ level ∈ (levelsOf e.2 log.events).getLast?, level = s.bit e.1
  alternates : ∀ name, (levelsOf name log.events).IsChain (· ≠ ·)

omit [WheelArithmetic P] in
lemma levelValue_inj {level level' : Bool} :
    levelValue level = levelValue level' ↔ level = level' := by
  cases level <;> cases level' <;> decide

omit [WheelArithmetic P] in
/-- An output whose level the device and the host have is an event if its level changes. -/
lemma Agrees.emits {ecu : EcuIo P} {name : String} {level : Bool} (h : Agrees ecu name level)
    (level' : Bool) : ecu.emits name level' = (ecu.listening && level != level') := by
  have hne : ∀ value : Option ℤ, value = some (levelValue level) →
      (value != some (levelValue level')) = (level != level') := by
    rintro _ rfl
    rw [Bool.eq_iff_iff, bne_iff_ne, bne_iff_ne, ne_eq, Option.some.injEq, levelValue_inj]
  unfold EcuIo.emits EcuIo.changed EcuIo.listening
  rw [hne _ h.1]
  cases hembedded : ecu.embedded with
  | none => exact Bool.and_comm _ _
  | some link =>
    dsimp only
    rw [hne _ (h.2 link hembedded), Bool.and_self]
    rfl

omit [WheelArithmetic P] in
/-- An output that the device does not have is an event if it is new. -/
lemma emits_of_values_eq_none {ecu : EcuIo P} {name : String} (h : ecu.values name = none)
    (level : Bool) :
    ecu.emits name level = (ecu.listening && ecu.isNew name level) := by
  unfold EcuIo.emits EcuIo.changed EcuIo.listening EcuIo.isNew
  rw [h]
  cases ecu.embedded with
  | none => simp
  | some link => simp

namespace OutputInvariant

variable {config : EcuIoConfig} {s : OutputBoard P} {log : OutputLog}

/-! ### Writes -/

section Write

variable {port : Fin 11} {offset value : U32}

/-- The reports of a write. -/
def reportsOfWrite (config : EcuIoConfig) (s : OutputBoard P) (port : Fin 11) (offset value : U32) :
    List (String × Bool) :=
  reportsOf config port ((s.gpio port).driven offset value)

/-- The bits after a write. -/
lemma bit_write (pin : Pin) :
    (s.step config (.write port offset value)).bit pin =
      if pin.port = port then
        ((s.gpio port).write (registeredPorts P config) s.world offset value).1.od.getLsbD pin.pin
      else s.bit pin := by
  unfold OutputBoard.bit OutputBoard.step
  dsimp only
  split_ifs with hport
  · rw [hport, Function.update_self]
  · rw [Function.update_of_ne hport]

variable (hconfig : DistinctOutputs config) (hdisjoint : offset = 0x0018 → Gpio.BsrrDisjoint value)

include hconfig hdisjoint

omit [WheelArithmetic P] in
lemma nodup_reportsOfWrite : ((reportsOfWrite config s port offset value).map Prod.fst).Nodup :=
  hconfig.nodup_reportsOf port (Gpio.nodup_driven hdisjoint)

/-- A report tells the bit of its pin after the write. -/
lemma level_of_mem_reports {e : Pin × String} (he : e ∈ pinsOf config.pins .output) {level : Bool}
    (hr : (e.2, level) ∈ reportsOfWrite config s port offset value) :
    level = (s.step config (.write port offset value)).bit e.1 := by
  obtain ⟨pin, hdriven, hmem⟩ := mem_reportsOf.mp hr
  have hpin : e.1 = ⟨port, pin⟩ := congrArg Prod.fst (hconfig.eq_of_name_eq he hmem rfl)
  rw [bit_write, hpin, if_pos rfl]
  exact Gpio.level_of_mem_driven hdisjoint (registeredPorts P config) s.world hdriven

/-- An output whose bit changes is reported. -/
lemma mem_reports_of_bit_ne {e : Pin × String} (he : e ∈ pinsOf config.pins .output)
    (hne : s.bit e.1 ≠ (s.step config (.write port offset value)).bit e.1) :
    (e.2, (s.step config (.write port offset value)).bit e.1) ∈
      reportsOfWrite config s port offset value := by
  have hwrite : (s.step config (.write port offset value)).bit e.1 =
      if e.1.port = port then
        ((s.gpio port).write (registeredPorts P config) s.world offset value).1.od.getLsbD e.1.pin
      else s.bit e.1 := bit_write e.1
  by_cases hport : e.1.port = port
  · subst hport
    rw [hwrite, if_pos rfl] at hne
    obtain ⟨⟨pin, level⟩, hdriven, hpin⟩ := List.mem_map.mp
      (Gpio.mem_driven_of_ne (registeredPorts P config) s.world hne)
    obtain rfl : pin = e.1.pin := hpin
    have hr : (e.2, level) ∈ reportsOfWrite config s e.1.port offset value :=
      mem_reportsOf.mpr ⟨e.1.pin, hdriven, he⟩
    rw [← level_of_mem_reports hconfig hdisjoint he hr]
    exact hr
  · rw [hwrite, if_neg hport] at hne
    exact absurd rfl hne

/-- The events are the reports that are events before the write. -/
lemma eventsOf_eq : OutputLog.eventsOf config s port offset value =
    (reportsOfWrite config s port offset value).filter fun r => s.world.ecuIo.emits r.1 r.2 :=
  emitted_eq_filter s.world _ (nodup_reportsOfWrite hconfig hdisjoint)

lemma nodup_eventsOf : ((OutputLog.eventsOf config s port offset value).map Prod.fst).Nodup := by
  rw [eventsOf_eq hconfig hdisjoint]
  exact (nodup_reportsOfWrite hconfig hdisjoint).sublist (List.filter_sublist.map Prod.fst)

omit [WheelArithmetic P] hconfig hdisjoint in
/-- A report of an output is an event under the conditions of the log. -/
lemma emits_eq (h : OutputInvariant config s log) {e : Pin × String}
    (he : e ∈ pinsOf config.pins .output) (level : Bool) :
    s.world.ecuIo.emits e.2 level =
      (s.world.ecuIo.listening &&
        if e.2 ∈ log.reported then s.bit e.1 != level else s.world.ecuIo.isNew e.2 level) := by
  split_ifs with hreported
  · exact (h.agrees e he hreported).emits level
  · exact emits_of_values_eq_none (h.unreported e he hreported) level

/-- **The events of a write** are its changes. -/
lemma eventsOf_eq_changesOf (h : OutputInvariant config s log) :
    OutputLog.eventsOf config s port offset value = log.changesOf config s port offset value := by
  rw [eventsOf_eq hconfig hdisjoint]
  unfold reportsOfWrite reportsOf OutputLog.changesOf
  rw [List.filter_flatMap]
  refine List.flatMap_congr fun p hp => ?_
  have hlevel : ∀ name ∈ outputsOf config ⟨port, p.1⟩,
      p.2 = (s.step config (.write port offset value)).bit ⟨port, p.1⟩ := by
    intro name hname
    exact level_of_mem_reports hconfig hdisjoint (mem_outputsOf.mp hname)
      (mem_reportsOf.mpr ⟨p.1, hp, mem_outputsOf.mp hname⟩)
  have hevents : ((outputsOf config ⟨port, p.1⟩).filter fun name => s.world.ecuIo.emits name p.2) =
      (outputsOf config ⟨port, p.1⟩).filter fun name => s.world.ecuIo.listening &&
        if name ∈ log.reported then
          s.bit ⟨port, p.1⟩ != (s.step config (.write port offset value)).bit ⟨port, p.1⟩
        else s.world.ecuIo.isNew name
          ((s.step config (.write port offset value)).bit ⟨port, p.1⟩) := by
    refine List.filter_congr fun name hname => ?_
    rw [h.emits_eq (mem_outputsOf.mp hname), ← hlevel name hname]
  rw [List.filter_map]
  dsimp only [Function.comp_def]
  rw [hevents]
  refine List.map_congr_left fun name hname => ?_
  rw [← hlevel name (List.mem_of_mem_filter hname)]

/-- The levels of an output in the events of a write. -/
lemma levelsOf_eventsOf (h : OutputInvariant config s log) {e : Pin × String}
    (he : e ∈ pinsOf config.pins .output) (hreported : e.2 ∈ log.reported)
    (hlistening : s.world.ecuIo.listening = true) :
    levelsOf e.2 (OutputLog.eventsOf config s port offset value) =
      if s.bit e.1 = (s.step config (.write port offset value)).bit e.1 then []
      else [(s.step config (.write port offset value)).bit e.1] := by
  have hnodup : ((OutputLog.eventsOf config s port offset value).map Prod.fst).Nodup :=
    nodup_eventsOf hconfig hdisjoint
  have hmem : ∀ level, (e.2, level) ∈ OutputLog.eventsOf config s port offset value ↔
      (e.2, level) ∈ reportsOfWrite config s port offset value ∧ s.bit e.1 ≠ level := by
    intro level
    rw [eventsOf_eq hconfig hdisjoint, List.mem_filter, h.emits_eq he, if_pos hreported, hlistening,
      Bool.true_and, bne_iff_ne]
  split_ifs with hbit
  · refine levelsOf_eq_nil fun level hevent => ?_
    obtain ⟨hr, hne⟩ := (hmem level).mp hevent
    rw [level_of_mem_reports hconfig hdisjoint he hr] at hne
    exact hne hbit
  · refine levelsOf_of_mem hnodup ((hmem _).mpr ⟨?_, hbit⟩)
    exact mem_reports_of_bit_ne hconfig hdisjoint he hbit

omit hconfig hdisjoint in
/-- The world after a write. -/
lemma world_write (h : OutputInvariant config s log) :
    (s.step config (.write port offset value)).world =
      (reportsOfWrite config s port offset value).foldl report s.world := by
  have hreports := write_reports config (s.gpio port) s.world offset value
  rw [h.ports port] at hreports
  exact hreports

omit hconfig hdisjoint in
/-- Reports leave the wheel alone, and whether somebody listens. -/
lemma reports_frame (w : World P) (reports : List (String × Bool)) :
    (reports.foldl report w).ecuIo.triggerWheel = w.ecuIo.triggerWheel ∧
      (reports.foldl report w).ecuIo.listening = w.ecuIo.listening := by
  induction reports generalizing w with
  | nil => exact ⟨rfl, rfl⟩
  | cons r reports ih =>
    obtain ⟨hwheel, hlistening⟩ := ih (report w r)
    rw [List.foldl_cons, hwheel, hlistening]
    unfold report EcuIo.listening
    constructor
    · rw [EcuIo.reportOutput_frame]
    · dsimp only
      rw [(reportOutput_emits w.ecuIo w.instructionCount r.1 r.2).2, EcuIo.reportOutput_frame,
        Option.isSome_map]

lemma mem_reports_of_mem_eventsOf {event : String × Bool}
    (hevent : event ∈ OutputLog.eventsOf config s port offset value) :
    event ∈ reportsOfWrite config s port offset value := by
  rw [eventsOf_eq hconfig hdisjoint] at hevent
  exact List.mem_of_mem_filter hevent

/-- After a write the device and the host have the bits of the outputs that were reported before or
in it. -/
lemma agrees_write (h : OutputInvariant config s log) {e : Pin × String}
    (he : e ∈ pinsOf config.pins .output)
    (hreported : e.2 ∈ log.reported ∨
      e.2 ∈ (reportsOfWrite config s port offset value).map Prod.fst) :
    Agrees ((reportsOfWrite config s port offset value).foldl report s.world).ecuIo e.2
      ((s.step config (.write port offset value)).bit e.1) := by
  by_cases hnow : e.2 ∈ (reportsOfWrite config s port offset value).map Prod.fst
  · obtain ⟨⟨name, level⟩, hr, hname⟩ := List.mem_map.mp hnow
    obtain rfl : name = e.2 := hname
    rw [← level_of_mem_reports hconfig hdisjoint he hr]
    refine agrees_reports s.world _ (nodup_reportsOfWrite hconfig hdisjoint)
      (fun r hr hvalue => ?_) hr
    -- what the device has is the bit before the write
    obtain ⟨pin, -, hentry⟩ := mem_reportsOf.mp hr
    by_cases hbefore : r.1 ∈ log.reported
    · have hagrees := h.agrees _ hentry hbefore
      have hlevel := levelValue_inj.mp (Option.some.inj (hagrees.1.symm.trans hvalue))
      rw [← hlevel]
      exact hagrees
    · rw [h.unreported _ hentry hbefore] at hvalue
      cases hvalue
  · have hbit : s.bit e.1 = (s.step config (.write port offset value)).bit e.1 := by
      by_contra hne
      have hr := mem_reports_of_bit_ne hconfig hdisjoint he hne
      exact hnow (List.mem_map.mpr ⟨_, hr, rfl⟩)
    rw [← hbit]
    exact (sameOutput_reports s.world _ hnow).agrees (h.agrees e he (hreported.resolve_right hnow))

/-- The last event of an output after a write has its bit. -/
lemma last_write (h : OutputInvariant config s log) (hlistening : s.world.ecuIo.listening = true)
    {e : Pin × String} (he : e ∈ pinsOf config.pins .output) {level : Bool}
    (hlast : level ∈
      (levelsOf e.2 (log.events ++ OutputLog.eventsOf config s port offset value)).getLast?) :
    level = (s.step config (.write port offset value)).bit e.1 := by
  rw [levelsOf_append, List.getLast?_append, Option.mem_def, Option.or_eq_some_iff] at hlast
  rcases hlast with hnew | ⟨hnone, hold⟩
  · have hevent := mem_of_mem_levelsOf (List.mem_of_getLast? hnew)
    exact level_of_mem_reports hconfig hdisjoint he
      (mem_reports_of_mem_eventsOf hconfig hdisjoint hevent)
  · have hbefore := h.names _ (mem_of_mem_levelsOf (List.mem_of_getLast? hold))
    rw [levelsOf_eventsOf hconfig hdisjoint h he hbefore hlistening] at hnone
    have hbit : s.bit e.1 = (s.step config (.write port offset value)).bit e.1 := by
      by_contra hne
      rw [if_neg hne] at hnone
      cases hnone
    rw [← hbit]
    exact h.last hlistening e he level hold

/-- The levels of an output alternate after a write. -/
lemma alternates_write (h : OutputInvariant config s log) (name : String) :
    (levelsOf name (log.events ++ OutputLog.eventsOf config s port offset value)).IsChain
      (· ≠ ·) := by
  rw [levelsOf_append]
  by_cases hsilent : ∀ level, (name, level) ∉ OutputLog.eventsOf config s port offset value
  · rw [levelsOf_eq_nil hsilent, List.append_nil]
    exact h.alternates name
  · -- one event, of the level that the last one does not have
    push Not at hsilent
    obtain ⟨level, hevent⟩ := hsilent
    rw [levelsOf_of_mem (nodup_eventsOf hconfig hdisjoint) hevent]
    refine (h.alternates name).append (List.isChain_singleton _) fun last hlast level' hlevel' => ?_
    obtain rfl : level = level' := by simpa using hlevel'
    obtain ⟨pin, -, hentry⟩ :=
      mem_reportsOf.mp (mem_reports_of_mem_eventsOf hconfig hdisjoint hevent)
    have hbefore := h.names _ (mem_of_mem_levelsOf (List.mem_of_getLast? hlast))
    rw [eventsOf_eq hconfig hdisjoint, List.mem_filter, h.emits_eq hentry, if_pos hbefore,
      Bool.and_eq_true, bne_iff_ne] at hevent
    rw [h.last hevent.2.1 _ hentry last hlast]
    exact hevent.2.2

/-- **Writes** keep the invariant. -/
lemma write (h : OutputInvariant config s log) :
    OutputInvariant config (s.step config (.write port offset value))
      (log.next config s (.write port offset value)) := by
  set s' := s.step config (.write port offset value) with hs'
  have hworld : s'.world = (reportsOfWrite config s port offset value).foldl report s.world :=
    world_write h
  obtain ⟨hwheel, hlistening⟩ := reports_frame s.world (reportsOfWrite config s port offset value)
  rw [← hworld] at hwheel hlistening
  have hreported : (log.next config s (.write port offset value)).reported =
      log.reported ++ (reportsOfWrite config s port offset value).map Prod.fst := rfl
  have hevents : (log.next config s (.write port offset value)).events =
      log.events ++ OutputLog.eventsOf config s port offset value := rfl
  constructor
  · intro port'
    rw [hs']
    unfold OutputBoard.step
    dsimp only
    by_cases hport : port' = port
    · subst hport
      rw [Function.update_self, Gpio.port_write, h.ports]
    · rw [Function.update_of_ne hport, h.ports]
  · rw [hwheel]
    exact h.wheel
  · intro e he hmem
    rw [hreported, List.mem_append] at hmem
    rw [hworld]
    exact agrees_write hconfig hdisjoint h he hmem
  · intro e he hmem
    rw [hreported, List.mem_append, not_or] at hmem
    rw [hworld, (sameOutput_reports s.world _ hmem.2).values]
    exact h.unreported e he hmem.1
  · rw [hevents, h.inOrder, eventsOf_eq_changesOf hconfig hdisjoint h]
    rfl
  · intro event hevent
    rw [hevents, List.mem_append] at hevent
    rw [hreported, List.mem_append]
    exact hevent.imp (h.names event) fun hnew =>
      List.mem_map_of_mem (mem_reports_of_mem_eventsOf hconfig hdisjoint hnew)
  · intro hnow e he level hlast
    rw [hlistening] at hnow
    exact last_write hconfig hdisjoint h hnow he hlast
  · exact alternates_write hconfig hdisjoint h

end Write

/-! ### What leaves the outputs alone -/

omit [WheelArithmetic P] in
/-- A step that keeps the ports, the outputs and the wheel keeps the invariant, if it makes nobody
listen to a session that has begun. -/
lemma of_same (h : OutputInvariant config s log) {s' : OutputBoard P} (hgpio : s'.gpio = s.gpio)
    (hsame : ∀ e ∈ pinsOf config.pins .output, SameOutput e.2 s.world.ecuIo s'.world.ecuIo)
    (hwheel : s'.world.ecuIo.triggerWheel.map TriggerWheel.config =
      s.world.ecuIo.triggerWheel.map TriggerWheel.config)
    (hlistening : s'.world.ecuIo.listening = true → s.world.ecuIo.listening = true ∨
      log.events = []) :
    OutputInvariant config s' log := by
  have hbit : s'.bit = s.bit := by
    unfold OutputBoard.bit
    rw [hgpio]
  refine ⟨?_, ?_, ?_, ?_, h.inOrder, h.names, ?_, h.alternates⟩
  · rw [hgpio]
    exact h.ports
  · intro wheel hwheel'
    rw [hwheel', Option.map_some, eq_comm, Option.map_eq_some_iff] at hwheel
    obtain ⟨wheel₀, hwheel₀, hsameConfig⟩ := hwheel
    rw [← hsameConfig]
    exact h.wheel wheel₀ hwheel₀
  · intro e he hreported
    rw [hbit]
    exact (hsame e he).agrees (h.agrees e he hreported)
  · intro e he hreported
    rw [(hsame e he).values]
    exact h.unreported e he hreported
  · intro hnow e he level hlast
    rw [hbit]
    rcases hlistening hnow with hbefore | hnil
    · exact h.last hbefore e he level hlast
    · rw [hnil] at hlast
      cases hlast

omit [WheelArithmetic P] in
/-- A session may begin at any time. -/
lemma start (h : OutputInvariant config s log) :
    OutputInvariant config s (OutputLog.start log.reported s.world.ecuIo) :=
  ⟨h.ports, h.wheel, h.agrees, h.unreported, rfl, fun _ hevent => absurd hevent List.not_mem_nil,
    fun _ _ _ _ hlast => (by cases hlast), fun _ => List.isChain_nil⟩

omit [WheelArithmetic P] in
/-- What the session gets makes no difference. -/
lemma got (h : OutputInvariant config s log) (sent : List U8) (taken : List EmbeddedOutputEvent) :
    OutputInvariant config s { log with sent := sent, taken := taken } :=
  ⟨h.ports, h.wheel, h.agrees, h.unreported, h.inOrder, h.names, h.last, h.alternates⟩

omit [WheelArithmetic P] in
/-- A poll changes no output that is not named. -/
lemma sameOutput_poll (ecu : EcuIo P) (io : SocketScript) {name : String}
    (hname : name ∉ ecu.inboundNames io) : SameOutput name ecu (ecu.poll io).1 := by
  refine ⟨EcuIo.values_poll ecu io hname, ?_⟩
  cases hembedded : ecu.embedded with
  | none => rw [EcuIo.poll_frame_of_listening ecu io hembedded]
  | some link =>
    unfold EcuIo.poll
    rw [hembedded]
    dsimp only
    rw [EcuIo.takeLinkInputs_frame]
    rfl

omit [WheelArithmetic P] in
/-- Polls make nobody listen to a session that has begun. -/
lemma listening_of_poll (ecu : EcuIo P) (io : SocketScript)
    (hconnected : ¬ (ecu.poll io).2.1.any OutputLog.isConnected = true)
    (hnow : (ecu.poll io).1.listening = true) : ecu.listening = true := by
  unfold EcuIo.listening at hnow ⊢
  cases hembedded : ecu.embedded with
  | some link => rfl
  | none =>
    -- the client was held before the poll
    rw [EcuIo.poll_frame_of_listening ecu io hembedded] at hnow
    have hclient : (ecu.poll io).1.client ≠ none := Option.isSome_iff_ne_none.mp hnow
    have hheld : ecu.client ≠ none := by
      intro hfree
      obtain ⟨client, hmem⟩ := EcuIo.connected_of_poll ecu io hembedded hfree hclient
      exact hconnected (List.any_eq_true.mpr ⟨_, hmem, rfl⟩)
    exact Option.isSome_iff_ne_none.mpr hheld

omit [WheelArithmetic P] in
/-- The host does nothing to the outputs on its link. -/
lemma host (h : OutputInvariant config s log) (f : EmbeddedEcuIoState → EmbeddedEcuIoState)
    (hf : ∀ link, (f link).outputs = link.outputs) :
    OutputInvariant config
      (s.withEcuIo { s.world.ecuIo with embedded := s.world.ecuIo.embedded.map f }) log := by
  refine h.of_same rfl (fun e _ => ⟨rfl, ?_⟩) rfl fun hnow => Or.inl ?_
  · simp only [OutputBoard.withEcuIo, Option.map_map, Function.comp_def, hf]
  · simpa [OutputBoard.withEcuIo, EcuIo.listening] using hnow

/-- **Step.**  Every step that leaves the outputs to the ports keeps the invariant. -/
lemma step (h : OutputInvariant config s log) (hconfig : DistinctOutputs config) {op : OutputOp}
    (hleaves : LeavesOutputs config s op) :
    OutputInvariant config (s.step config op) (log.next config s op) := by
  cases op with
  | write port offset value => exact h.write hconfig hleaves
  | poll io =>
    have hsame : ∀ e ∈ pinsOf config.pins .output,
        SameOutput e.2 s.world.ecuIo (s.world.ecuIo.poll io).1 := by
      intro e he
      refine sameOutput_poll s.world.ecuIo io fun hname => ?_
      exact hleaves e.2 hname (List.mem_map_of_mem he)
    have hwheel : (s.world.ecuIo.poll io).1.triggerWheel = s.world.ecuIo.triggerWheel := by
      rw [EcuIo.poll_frame]
    simp only [OutputLog.next]
    split_ifs with hconnected
    · have hbegun : OutputInvariant config (s.step config (.poll io))
          (OutputLog.start log.reported s.world.ecuIo) :=
        h.start.of_same rfl hsame (congrArg _ hwheel) fun _ => Or.inr rfl
      exact hbegun.got _ _
    · have hkept : OutputInvariant config (s.step config (.poll io)) log :=
        h.of_same rfl hsame (congrArg _ hwheel) fun hnow =>
          Or.inl (listening_of_poll s.world.ecuIo io hconnected hnow)
      exact hkept.got _ _
  | setInput name value => exact h.host (fun link => link.setInput name value) fun _ => rfl
  | takeOutputEvents => exact (h.host (fun link => link.takeOutputEvents.1) fun _ => rfl).got _ _
  | advanceTriggerWheel nowInstructions =>
    have hframe := EcuIo.advanceTriggerWheel_frame s.world.ecuIo nowInstructions
    have hembedded := congrArg EcuIo.embedded hframe
    have hlistening := congrArg EcuIo.listening hframe
    refine h.of_same rfl (fun e he => ⟨?_, congrArg _ hembedded⟩) ?_
      fun hnow => Or.inl (hlistening ▸ hnow)
    · refine EcuIo.values_advanceTriggerWheel s.world.ecuIo nowInstructions ?_
      exact fun wheel hwheel heq => h.wheel wheel hwheel (heq ▸ List.mem_map_of_mem he)
    · exact EcuIo.config_advanceTriggerWheel s.world.ecuIo nowInstructions
  | checkDigitalEdges =>
    have hframe := visit_frame s.world.ecuIo
    have hvalues := congrArg EcuIo.values hframe
    have hembedded := congrArg EcuIo.embedded hframe
    have hwheel := congrArg EcuIo.triggerWheel hframe
    have hlistening := congrArg EcuIo.listening hframe
    exact h.of_same rfl (fun e _ => ⟨congrFun hvalues e.2, congrArg _ hembedded⟩)
      (congrArg _ hwheel) fun hnow => Or.inl (hlistening ▸ hnow)
  | execute instructions =>
    exact h.of_same rfl (fun e _ => ⟨rfl, rfl⟩) rfl fun hnow => Or.inl hnow

end OutputInvariant

/-! ## Runs -/

/-- Every run from the start keeps the invariant. -/
lemma OutputInvariant.of_run {config : EcuIoConfig} (hconfig : DistinctOutputs config)
    {pending : Option EmbeddedEcuIoState} {ops : List OutputOp} {s : OutputBoard P}
    {log : OutputLog}
    (hrun : Run (guardedStep (fun p op => LeavesOutputs config p.1 op) (outputRel config))
      (OutputBoard.new config pending,
        .start [] (EcuIo.new config pending : EcuIo P)) ops (s, log)) :
    OutputInvariant config s log := by
  refine hrun.invariant_state (I := fun p => OutputInvariant config p.1 p.2) ?_ ?_
  · refine ⟨fun _ => rfl, ?_, ?_, fun _ _ _ => rfl, rfl, ?_, ?_, fun _ => List.isChain_nil⟩
    · intro wheel hwheel
      obtain ⟨wheelConfig, hmem, rfl⟩ := Option.map_eq_some_iff.mp hwheel
      exact hconfig.wheel wheelConfig hmem
    · exact fun _ _ hmem => absurd hmem List.not_mem_nil
    · exact fun _ hmem => absurd hmem List.not_mem_nil
    · intro _ _ _ level hlast
      cases hlast
  · rintro ⟨s, log⟩ _ op h ⟨hleaves, rfl⟩
    exact h.step hconfig hleaves

end Stm32Emulator.Ecu
