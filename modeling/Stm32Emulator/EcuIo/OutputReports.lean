import Stm32Emulator.EcuIo.DigitalEdges
import Stm32Emulator.Peripherals.GpioOutputs

/-!
# Reports of outputs

A write to a port is a sequence of reports to the device: one for each output of each pin that the
write drives (`write_reports`).  A report is an event if the device has another level and somebody
listens (`emits`). As the device keeps one level for each output, a report makes no difference to
the reports of other outputs (`emitted_eq_filter`).
-/

namespace Stm32Emulator.Ecu

variable {P : Type} [WheelArithmetic P]

/-! ## The reports of a write -/

/-- The outputs on a pin, in the order of the configuration. -/
def outputsOf (config : EcuIoConfig) (pin : Pin) : List String :=
  ((pinsOf config.pins .output).filter fun e => e.1 = pin).map Prod.snd

/-- Telling the device the level of an output. -/
def report (w : World P) (r : String × Bool) : World P :=
  { w with ecuIo := w.ecuIo.reportOutput w.instructionCount r.1 r.2 }

/-- The reports that driving pins of a port makes. -/
def reportsOf (config : EcuIoConfig) (port : Fin 11) (driven : List (Fin 16 × Bool)) :
    List (String × Bool) :=
  driven.flatMap fun p => (outputsOf config ⟨port, p.1⟩).map fun name => (name, p.2)

/-- The callback of an output. -/
def outputCallback (entry : Pin × String) : Fin 16 × (Bool → World P → World P) :=
  (entry.1.pin, fun level w => report w (entry.2, level))

/-- The outputs are called back in their order. -/
lemma writeCallbacks_foldl (pins : List EcuIoPinConfig) (gpio : GpioPorts (World P))
    (port : Fin 11) :
    (pins.foldl World.registerPin gpio).writeCallbacks port =
      gpio.writeCallbacks port ++
        ((pinsOf pins .output).filter fun entry => entry.1.port = port).map outputCallback := by
  induction pins generalizing gpio with
  | nil => simp [pinsOf]
  | cons p pins ih =>
    rw [List.foldl_cons, ih, pinsOf_cons, List.filter_append, List.map_append, ← List.append_assoc]
    congr 1
    unfold World.registerPin
    cases hdirection : p.direction with
    | input => simp [GpioPorts.addReadCallback]
    | output =>
      by_cases hport : p.pin.port = port
      · subst hport
        simp [GpioPorts.addWriteCallback, outputCallback, report]
      · simp [GpioPorts.addWriteCallback, hport, Function.update_of_ne (Ne.symm hport)]

/-- Driving a pin reports its outputs. -/
lemma writePort_registered (config : EcuIoConfig) (w : World P) (port : Fin 11) (pin : Fin 16)
    (level : Bool) :
    (registeredPorts P config).writePort w port pin level =
      ((outputsOf config ⟨port, pin⟩).map fun name => (name, level)).foldl report w := by
  unfold GpioPorts.writePort registeredPorts outputsOf
  rw [writeCallbacks_foldl, GpioPorts.default, List.nil_append]
  generalize pinsOf config.pins .output = entries
  induction entries generalizing w with
  | nil => rfl
  | cons entry entries ih =>
    obtain ⟨⟨port', pin'⟩, name⟩ := entry
    by_cases hport : port' = port
    · subst hport
      rw [List.filter_cons_of_pos (by simp), List.map_cons, List.foldl_cons]
      by_cases hpin : pin' = pin
      · subst hpin
        rw [List.filter_cons_of_pos (by simp), List.map_cons, List.map_cons, List.foldl_cons]
        simp only [outputCallback, if_true]
        exact ih _
      · rw [List.filter_cons_of_neg (by simpa using hpin)]
        have hne : ¬ pin'.val = pin.val := fun h => hpin (Fin.ext h)
        dsimp only [outputCallback]
        rw [if_neg hne]
        exact ih w
    · rw [List.filter_cons_of_neg (by simpa using hport), List.filter_cons_of_neg (by simp [hport])]
      exact ih w

/-- **A write reports the outputs of the pins that it drives**, one after the other. -/
lemma write_reports (config : EcuIoConfig) (gpio : Gpio) (w : World P) (offset value : U32) :
    (gpio.write (registeredPorts P config) w offset value).2 =
      (reportsOf config gpio.port (gpio.driven offset value)).foldl report w := by
  rw [Gpio.write_drives]
  unfold reportsOf
  generalize gpio.driven offset value = driven
  induction driven generalizing w with
  | nil => rfl
  | cons p driven ih =>
    rw [List.foldl_cons, List.flatMap_cons, List.foldl_append, ih, writePort_registered]

/-! ## Events -/

/-- The report of a level is an event: it differs from the last one, and there is a client or a host
that does not have it. -/
def EcuIo.emits (ecu : EcuIo P) (name : String) (level : Bool) : Bool :=
  ecu.changed name level &&
    match ecu.embedded with
    | some link => link.outputs name != some (levelValue level)
    | none => ecu.client.isSome

/-- **Events** are queued or published, and a report that is none leaves the queue and the link as
they are. -/
lemma reportOutput_emits (ecu : EcuIo P) (instructionCount : ℕ) (name : String) (level : Bool) :
    (ecu.reportOutput instructionCount name level).outgoing =
        (if ecu.emits name level && ecu.embedded.isNone then
          UsbCdcTcp.pushCapped ecu.outgoing (outputLine name (levelValue level)) maxBufferedBytes
        else ecu.outgoing) ∧
      (ecu.reportOutput instructionCount name level).embedded =
        ecu.embedded.map fun link =>
          if ecu.emits name level then
            { link with
              outputs := Function.update link.outputs name (some (levelValue level))
              outputEvents := pushBounded EmbeddedEcuIoState.maxPendingOutputEvents
                link.outputEvents
                ⟨link.nextOutputSequence, instructionCount, name, link.outputs name,
                  levelValue level, { ecu with
                    values := Function.update ecu.values name (some (levelValue level)) }.wheelAngle
                      instructionCount⟩
              nextOutputSequence := link.nextOutputSequence + 1 }
          else link := by
  unfold EcuIo.reportOutput EcuIo.emits
  cases hchanged : ecu.changed name level with
  | false =>
    cases hembedded : ecu.embedded with
    | none => exact ⟨rfl, rfl⟩
    | some link => exact ⟨rfl, rfl⟩
  | true =>
    cases hembedded : ecu.embedded with
    | none =>
      dsimp only
      cases hclient : ecu.client <;> exact ⟨rfl, rfl⟩
    | some link =>
      refine ⟨by simp, ?_⟩
      by_cases hsame : link.outputs name = some (levelValue level)
      · have hupdate : Function.update link.outputs name (some (levelValue level)) =
            link.outputs := by
          rw [← hsame, Function.update_eq_self]
        simp [EmbeddedEcuIoState.publishOutput, hsame, hupdate]
      · simp [EmbeddedEcuIoState.publishOutput, hsame]

/-- The reports of a sequence that are events. -/
def emitted (w : World P) : List (String × Bool) → List (String × Bool)
  | [] => []
  | r :: reports => (if w.ecuIo.emits r.1 r.2 then [r] else []) ++ emitted (report w r) reports

/-! ## One output -/

/-- The device and the host have this level of an output. -/
def Agrees (ecu : EcuIo P) (name : String) (level : Bool) : Prop :=
  ecu.values name = some (levelValue level) ∧
    ∀ link, ecu.embedded = some link → link.outputs name = some (levelValue level)

/-- The device and the host have the same level of an output as before. -/
structure SameOutput (name : String) (ecu ecu' : EcuIo P) : Prop where
  values : ecu'.values name = ecu.values name
  outputs : ecu'.embedded.map (fun link => link.outputs name) = ecu.embedded.map fun link =>
    link.outputs name

omit [WheelArithmetic P] in
lemma SameOutput.trans {name : String} {ecu ecu' ecu'' : EcuIo P} (h : SameOutput name ecu ecu')
    (h' : SameOutput name ecu' ecu'') : SameOutput name ecu ecu'' :=
  ⟨h'.values.trans h.values, h'.outputs.trans h.outputs⟩

omit [WheelArithmetic P] in
lemma SameOutput.agrees {name : String} {ecu ecu' : EcuIo P} (h : SameOutput name ecu ecu')
    {level : Bool} (hagrees : Agrees ecu name level) : Agrees ecu' name level := by
  refine ⟨h.values.trans hagrees.1, fun link hlink => ?_⟩
  have houtputs := h.outputs
  rw [hlink] at houtputs
  cases hembedded : ecu.embedded with
  | none =>
    rw [hembedded] at houtputs
    cases houtputs
  | some link₀ =>
    rw [hembedded] at houtputs
    exact (Option.some.inj houtputs).trans (hagrees.2 link₀ hembedded)

omit [WheelArithmetic P] in
lemma SameOutput.emits {name : String} {ecu ecu' : EcuIo P} (h : SameOutput name ecu ecu')
    (hclient : ecu'.client = ecu.client) (level : Bool) :
    ecu'.emits name level = ecu.emits name level := by
  have houtputs := h.outputs
  unfold EcuIo.emits EcuIo.changed
  rw [h.values, hclient]
  congr 1
  cases hembedded : ecu.embedded with
  | none =>
    cases hembedded' : ecu'.embedded with
    | none => rfl
    | some link' =>
      rw [hembedded, hembedded'] at houtputs
      cases houtputs
  | some link =>
    cases hembedded' : ecu'.embedded with
    | none =>
      rw [hembedded, hembedded'] at houtputs
      cases houtputs
    | some link' =>
      rw [hembedded, hembedded'] at houtputs
      have hsame : link'.outputs name = link.outputs name := Option.some.inj houtputs
      dsimp only
      rw [hsame]

@[simp] lemma client_report (w : World P) (r : String × Bool) :
    (report w r).ecuIo.client = w.ecuIo.client := by
  unfold report
  rw [EcuIo.reportOutput_frame]

/-- A report changes nothing about another output. -/
lemma sameOutput_report (w : World P) (r : String × Bool) {name : String} (hne : name ≠ r.1) :
    SameOutput name w.ecuIo (report w r).ecuIo := by
  unfold report
  constructor
  · rw [EcuIo.reportOutput_frame]
    exact Function.update_of_ne hne _ _
  · dsimp only
    rw [(reportOutput_emits w.ecuIo w.instructionCount r.1 r.2).2, Option.map_map]
    congr 1
    funext link
    dsimp only [Function.comp_apply]
    split_ifs
    · exact Function.update_of_ne hne _ _
    · rfl

/-- After a report the device and the host have its level, if the host had what the device had. -/
lemma agrees_report (w : World P) (r : String × Bool)
    (hhost : w.ecuIo.values r.1 = some (levelValue r.2) → Agrees w.ecuIo r.1 r.2) :
    Agrees (report w r).ecuIo r.1 r.2 := by
  unfold report
  constructor
  · rw [EcuIo.reportOutput_frame]
    exact Function.update_self _ _ _
  · intro link hlink
    dsimp only at hlink
    rw [(reportOutput_emits w.ecuIo w.instructionCount r.1 r.2).2, Option.map_eq_some_iff] at hlink
    obtain ⟨link₀, hlink₀, rfl⟩ := hlink
    split_ifs with hemits
    · exact Function.update_self _ _ _
    · -- the level is the last one, or the host has it
      unfold EcuIo.emits EcuIo.changed at hemits
      rw [hlink₀] at hemits
      by_cases hvalue : w.ecuIo.values r.1 = some (levelValue r.2)
      · exact (hhost hvalue).2 link₀ hlink₀
      · simpa [hvalue] using hemits

/-! ## A sequence of reports -/

/-- Reports of other outputs change nothing about an output. -/
lemma sameOutput_reports (w : World P) (reports : List (String × Bool)) {name : String}
    (hname : name ∉ reports.map Prod.fst) :
    SameOutput name w.ecuIo (reports.foldl report w).ecuIo := by
  induction reports generalizing w with
  | nil => exact ⟨rfl, rfl⟩
  | cons r reports ih =>
    rw [List.map_cons, List.mem_cons, not_or] at hname
    exact (sameOutput_report w r hname.1).trans (ih _ hname.2)

/-- **Reports of different outputs** are events independently of each other. -/
lemma emitted_eq_filter (w : World P) (reports : List (String × Bool))
    (hnodup : (reports.map Prod.fst).Nodup) :
    emitted w reports = reports.filter fun r => w.ecuIo.emits r.1 r.2 := by
  induction reports generalizing w with
  | nil => rfl
  | cons r reports ih =>
    rw [List.map_cons, List.nodup_cons] at hnodup
    have hothers : ∀ r' ∈ reports,
        (report w r).ecuIo.emits r'.1 r'.2 = w.ecuIo.emits r'.1 r'.2 := by
      intro r' hr'
      refine (sameOutput_report w r fun heq => hnodup.1 ?_).emits (client_report w r) r'.2
      rw [← heq]
      exact List.mem_map_of_mem hr'
    rw [emitted, ih _ hnodup.2, List.filter_congr hothers, List.filter_cons]
    split_ifs <;> rfl

/-- After reports of different outputs the device and the host have the levels of all of them. -/
lemma agrees_reports (w : World P) (reports : List (String × Bool))
    (hnodup : (reports.map Prod.fst).Nodup)
    (hhost : ∀ r ∈ reports, w.ecuIo.values r.1 = some (levelValue r.2) → Agrees w.ecuIo r.1 r.2)
    {r : String × Bool} (hr : r ∈ reports) : Agrees (reports.foldl report w).ecuIo r.1 r.2 := by
  induction reports generalizing w with
  | nil => cases hr
  | cons r₀ reports ih =>
    rw [List.map_cons, List.nodup_cons] at hnodup
    have hne : ∀ r' ∈ reports, r'.1 ≠ r₀.1 := by
      intro r' hr' heq
      apply hnodup.1
      rw [← heq]
      exact List.mem_map_of_mem hr'
    rcases List.mem_cons.mp hr with rfl | hr
    · exact (sameOutput_reports _ reports hnodup.1).agrees
        (agrees_report w r (hhost r List.mem_cons_self))
    · refine ih (report w r₀) hnodup.2 (fun r' hr' hvalue => ?_) hr
      have hsame := sameOutput_report w r₀ (hne r' hr')
      rw [hsame.values] at hvalue
      exact hsame.agrees (hhost r' (List.mem_cons_of_mem _ hr') hvalue)

end Stm32Emulator.Ecu
