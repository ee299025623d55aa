import Stm32Emulator.EcuIo.EdgeInterrupts
import Stm32Emulator.EcuIo.LineStream
import Stm32Emulator.EcuIo.OutputEvents

/-!
# From the clients to the firmware

What the clients send becomes the levels of the input pins and interrupts of their lines.  At every
visit of the device (the sockets, the wheel and the input pins, in this order) a pin has the level
that the complete lines of the stream give its signal, in whatever pieces they came, and the visit
pends exactly the lines whose pins have changed since the last one.
-/

namespace Stm32Emulator.Ecu

variable {P : Type} {U : Type}

/-! ## The machine -/

/-- The device, and what its edges reach. -/
structure InputBench (P U : Type) where
  ecu : EcuIo P
  lines : ExtiCore U

/-- What can happen: a visit of the device, an output pin that tells its level, and what firmware
does to the lines and the exceptions. -/
inductive InputAction (U : Type) where
  | visit (io : SocketScript) (now : ℕ)
  | output (instructionCount : ℕ) (name : String) (level : Bool)
  | firmware (action : ExtiAction U)

/-- The edge of a pin reaches its line. -/
def edgeToLine (s : Option (ExtiCore U)) (pin : Pin) (level : Bool) : Option (ExtiCore U) :=
  s.bind fun s => raiseEdge s pin level

section Machine

variable [WheelArithmetic P]

/-- A visit: the sockets, the wheel and the input pins. -/
def InputBench.visit (s : InputBench P U) (io : SocketScript) (now : ℕ) : Option (InputBench P U) :=
  let ecu := (s.ecu.poll io).1.advanceTriggerWheel now
  let (ecu, lines) := ecu.checkDigitalEdges edgeToLine (some s.lines)
  lines.map fun lines => ⟨ecu, lines⟩

def execInput [UnicornEngine U] (vectorTableAddr : U32) (s : InputBench P U) :
    InputAction U → Option (InputBench P U × Outcome)
  | .visit io now => (s.visit io now).map fun s => (s, .quiet)
  | .output instructionCount name level =>
    some ({ s with ecu := s.ecu.reportOutput instructionCount name level }, .quiet)
  | .firmware action =>
    (execExti vectorTableAddr s.lines action).map fun (lines, outcome) =>
      ({ s with lines := lines }, outcome)

end Machine

/-- The bytes that the clients have sent so far. -/
def sentAfter (sent : List U8) (s : InputBench P U) : InputAction U → List U8
  | .visit io _ => sent ++ receivedBytes (s.ecu.poll io).2.1
  | _ => sent

/-- The step relation of the machine, together with the stream of the clients. -/
def benchStep [WheelArithmetic P] [UnicornEngine U] (vectorTableAddr : U32)
    (p : InputBench P U × List U8) (label : InputAction U × Outcome)
    (q : InputBench P U × List U8) : Prop :=
  execInput vectorTableAddr p.1 label.1 = some (q.1, label.2) ∧ q.2 = sentAfter p.2 p.1 label.1

/-- Visits read well and have room for what they receive, and only the outputs tell levels.  Edges
come from visits alone. -/
def InOrder (config : EcuIoConfig) (p : InputBench P U × List U8) : InputAction U × Outcome → Prop
  | (.visit io _, _) => p.1.ecu.HasRoom io ∧ p.1.ecu.ReadsWell io
  | (.output _ name _, _) => name ∈ outputNames config
  | (.firmware action, _) => ∀ pin rising, action ≠ .edge pin rising

/-! ## Levels of the stream -/

/-- The signals that lines can set. -/
def knownSignals (config : EcuIoConfig) : List String :=
  config.pins.map (·.name) ++ config.adcChannels.map (·.name) ++
    config.triggerWheel.toList.map (·.signal)

/-- The level that the complete lines of the stream give a signal. -/
def clientLevel (config : EcuIoConfig) (sent : List U8) (name : String) : Bool :=
  ((handleStream (knownSignals config) (fun _ => none) sent).1 name).getD 0 != 0

/-- A signal that nothing but lines sets. -/
def ClientDriven (config : EcuIoConfig) (name : String) : Prop :=
  name ∉ outputNames config ∧ ∀ wheel ∈ config.triggerWheel, wheel.pinSignal ≠ name

instance (config : EcuIoConfig) (name : String) : Decidable (ClientDriven config name) :=
  inferInstanceAs (Decidable (_ ∧ _))

lemma assign_congr {values values' : String → Option ℤ} {name : String}
    (h : values name = values' name) (as : List (String × ℤ)) :
    assign values as name = assign values' as name := by
  induction as generalizing values values' with
  | nil => exact h
  | cons a as ih =>
    refine ih ?_
    beta_reduce
    by_cases hname : name = a.1
    · subst hname
      rw [Function.update_self, Function.update_self]
    · rw [Function.update_of_ne hname, Function.update_of_ne hname, h]

/-! ## The edges of a visit -/

/-- Edges pend the lines that they match, one after the other, and configure nothing. -/
lemma foldl_edgeToLine (edges : List (Pin × Bool)) (s : ExtiCore U) :
    ∃ s', edges.foldl (fun s edge => edgeToLine s edge.1 edge.2) (some s) = some s' ∧
      (∀ line, s'.exti.pr.getLsbD line = (s.exti.pr.getLsbD line || edges.any fun edge =>
        decide (s.exti.EdgeMatches edge.1.port edge.1.pin edge.2) &&
          decide (line = edge.1.pin.val))) ∧
      ∀ irq, s'.core.nvic.isPending irq = (s.core.nvic.isPending irq || edges.any fun edge =>
        decide (s.exti.EdgeMatches edge.1.port edge.1.pin edge.2) &&
          decide (irq = Exti.irqForLine edge.1.pin)) := by
  induction edges generalizing s with
  | nil => exact ⟨s, rfl, fun _ => (Bool.or_false _).symm, fun _ => (Bool.or_false _).symm⟩
  | cons edge edges ih =>
    obtain ⟨s₁, hraise, hset, hkeep⟩ := raiseEdge_spec s edge.1 edge.2
    have hpr := pr_raiseEdge hraise
    have hpending := isPending_raiseEdge hraise
    -- the configuration of the lines is that at the start
    have hsame : ∀ port pin rising, s₁.exti.EdgeMatches port pin rising ↔
        s.exti.EdgeMatches port pin rising := by
      intro port pin rising
      by_cases hmatch : s.exti.EdgeMatches edge.1.port edge.1.pin edge.2
      · rw [(hset hmatch).1]
        exact ⟨fun h => ⟨h.1, h.2, h.3⟩, fun h => ⟨h.1, h.2, h.3⟩⟩
      · rw [hkeep hmatch]
    obtain ⟨s', hfold, hlines, hirqs⟩ := ih s₁
    refine ⟨s', ?_, fun line => ?_, fun irq => ?_⟩
    · rw [List.foldl_cons]
      change List.foldl _ (raiseEdge s edge.1 edge.2) edges = some s'
      rw [hraise]
      exact hfold
    · rw [hlines, hpr, List.any_cons, Bool.or_assoc]
      simp only [hsame]
    · rw [hirqs, hpending, List.any_cons, Bool.or_assoc]
      simp only [hsame]

/-- Of pins and signals that belong together one to one, the edges are those of the signals that
have changed. -/
lemma mem_raised_iff {level last : String → Bool} {pins : List (Pin × String)} (h : OneToOne pins)
    {edge : Pin × Bool} :
    edge ∈ raised level last pins ↔ ∃ e ∈ pins, level e.2 ≠ last e.2 ∧ edge = (e.1, level e.2) := by
  have hfilter : ∀ e ∈ pins, ∀ edge : Pin × Bool, edge.1 = e.1 →
      (edge ∈ raised level last pins ↔ level e.2 ≠ last e.2 ∧ edge = (e.1, level e.2)) := by
    intro e he edge hpin
    have hmem : edge ∈ raised level last pins ↔
        edge ∈ (raised level last pins).filter fun edge => edge.1 = e.1 := by
      rw [List.mem_filter, decide_eq_true_eq, and_iff_left hpin]
    rw [hmem, raised_filter h he]
    split_ifs with hlevel
    · exact ⟨fun hnil => absurd hnil List.not_mem_nil, fun hne => absurd hlevel hne.1⟩
    · rw [List.mem_singleton]
      exact ⟨fun heq => ⟨hlevel, heq⟩, fun hne => hne.2⟩
  constructor
  · intro hedge
    obtain ⟨name, hmem⟩ := exists_of_mem_raised hedge
    exact ⟨_, hmem, (hfilter _ hmem edge rfl).mp hedge⟩
  · rintro ⟨e, he, hchanged, heq⟩
    exact (hfilter e he edge (congrArg Prod.fst heq)).mpr ⟨hchanged, heq⟩

/-! ## The device follows its clients -/

section Follows

variable [WheelArithmetic P] {config : EcuIoConfig}

/-- The buffer holds what is not complete, the signals of the clients have their last values, and
the last visit has seen them. -/
structure FollowsClients (config : EcuIoConfig) (p : InputBench P U × List U8) : Prop where
  listening : p.1.ecu.embedded = none
  known : p.1.ecu.knownNames = knownSignals config
  pins : p.1.ecu.digitalInputPins = pinsOf config.pins .input
  wheel : p.1.ecu.triggerWheel.map (·.config) = config.triggerWheel
  buffer : p.1.ecu.recvBuffer = (handleStream (knownSignals config) (fun _ => none) p.2).2
  value : ∀ name, ClientDriven config name →
    p.1.ecu.values name = (handleStream (knownSignals config) (fun _ => none) p.2).1 name
  last : ∀ e ∈ pinsOf config.pins .input, ClientDriven config e.2 →
    p.1.ecu.lastLevel e.2 = p.1.ecu.digitalLevel e.2

variable {s : InputBench P U} {sent : List U8}

lemma followsClients_new (config : EcuIoConfig) (lines : ExtiCore U) :
    FollowsClients config ((⟨EcuIo.new config none, lines⟩ : InputBench P U), []) where
  listening := rfl
  known := rfl
  pins := rfl
  wheel := by
    change (config.triggerWheel.map TriggerWheel.new).map _ = _
    rw [Option.map_map]
    exact Option.map_id'
  buffer := rfl
  value := fun _ _ => rfl
  last := fun _ _ _ => rfl

omit [WheelArithmetic P] in
lemma FollowsClients.digitalLevel (h : FollowsClients config (s, sent)) {name : String}
    (hname : ClientDriven config name) :
    s.ecu.digitalLevel name = clientLevel config sent name := by
  unfold EcuIo.digitalLevel EcuIo.valueOf clientLevel
  rw [h.value name hname]

/-- The device after the sockets and the wheel of a visit. -/
def EcuIo.served (ecu : EcuIo P) (io : SocketScript) (now : ℕ) : EcuIo P :=
  (ecu.poll io).1.advanceTriggerWheel now

/-- The sockets and the wheel leave the pins and the last levels as they are. -/
lemma served_frame (ecu : EcuIo P) (io : SocketScript) (now : ℕ)
    (hlistening : ecu.embedded = none) :
    (ecu.served io now).embedded = none ∧ (ecu.served io now).knownNames = ecu.knownNames ∧
      (ecu.served io now).digitalInputPins = ecu.digitalInputPins ∧
      (ecu.served io now).recvBuffer = (ecu.poll io).1.recvBuffer ∧
      (ecu.served io now).lastLevel = ecu.lastLevel := by
  have hpoll := EcuIo.poll_frame_of_listening ecu io hlistening
  have hwheel := EcuIo.advanceTriggerWheel_frame (ecu.poll io).1 now
  unfold EcuIo.served EcuIo.lastLevel
  rw [hwheel]
  dsimp only
  rw [hpoll]
  exact ⟨rfl, rfl, rfl, rfl, rfl⟩

/-- What the sockets and the wheel do to the signals of the clients. -/
lemma FollowsClients.served (h : FollowsClients config (s, sent)) {io : SocketScript}
    (hroom : s.ecu.HasRoom io) (hreads : s.ecu.ReadsWell io) (now : ℕ) :
    let after := handleStream (knownSignals config) (fun _ => none)
      (sent ++ receivedBytes (s.ecu.poll io).2.1)
    (s.ecu.served io now).triggerWheel.map (·.config) = config.triggerWheel ∧
      (s.ecu.served io now).recvBuffer = after.2 ∧
      ∀ name, ClientDriven config name → (s.ecu.served io now).values name = after.1 name := by
  intro after
  obtain ⟨hhandled, hsettled⟩ := EcuIo.handled_poll h.listening hroom
  have hpoll := EcuIo.poll_frame_of_listening s.ecu io h.listening
  have hknown : (s.ecu.poll io).1.knownNames = s.ecu.knownNames := by rw [hpoll]
  have hkept : (s.ecu.poll io).1.triggerWheel = s.ecu.triggerWheel := by rw [hpoll]
  -- the poll leaves what handling the buffer and the new bytes leaves
  have hpolled : ((s.ecu.poll io).1.values, (s.ecu.poll io).1.recvBuffer) =
      handleStream (knownSignals config) s.ecu.values
        (s.ecu.recvBuffer ++ receivedBytes (s.ecu.poll io).2.1) := by
    refine (handleStream_of_not_mem (hsettled hreads) _ _).symm.trans (hhandled.trans ?_)
    unfold EcuIo.handled
    dsimp only
    rw [h.known]
  obtain ⟨hvalues, hbuffer⟩ := Prod.mk.inj hpolled
  have hafter : after = handleStream (knownSignals config)
      (handleStream (knownSignals config) (fun _ => none) sent).1
      (s.ecu.recvBuffer ++ receivedBytes (s.ecu.poll io).2.1) := by
    rw [h.buffer]
    exact handleStream_append _ _ _ _
  have hconfig := EcuIo.config_advanceTriggerWheel (s.ecu.poll io).1 now
  obtain ⟨-, -, -, hserved, -⟩ := served_frame s.ecu io now h.listening
  refine ⟨?_, ?_, fun name hname => ?_⟩
  · exact hconfig.trans ((congrArg _ hkept).trans h.wheel)
  · rw [hserved, hbuffer, hafter]
    rfl
  · refine (EcuIo.values_advanceTriggerWheel (s.ecu.poll io).1 now fun wheel hwheel => ?_).trans ?_
    · refine hname.2 wheel.config ?_
      rw [← h.wheel, ← hkept, hwheel]
      rfl
    · rw [hvalues, hafter]
      exact assign_congr (h.value name hname) _

/-- A visit is the sockets and the wheel, and the edges of the signals that have changed. -/
lemma visit_spec (s : InputBench P U) (io : SocketScript) (now : ℕ) :
    ∃ s', s.visit io now = some s' ∧
      s'.ecu = { s.ecu.served io now with lastDigitalLevels := s'.ecu.lastDigitalLevels } ∧
      (∀ name ∈ (s.ecu.served io now).digitalInputPins.map Prod.snd,
        s'.ecu.lastLevel name = (s.ecu.served io now).digitalLevel name) ∧
      let edges := raised (s.ecu.served io now).digitalLevel (s.ecu.served io now).lastLevel
        (s.ecu.served io now).digitalInputPins
      (∀ line, s'.lines.exti.pr.getLsbD line =
        (s.lines.exti.pr.getLsbD line || edges.any fun edge =>
        decide (s.lines.exti.EdgeMatches edge.1.port edge.1.pin edge.2) &&
          decide (line = edge.1.pin.val))) ∧
      ∀ irq, s'.lines.core.nvic.isPending irq =
        (s.lines.core.nvic.isPending irq || edges.any fun edge =>
        decide (s.lines.exti.EdgeMatches edge.1.port edge.1.pin edge.2) &&
          decide (irq = Exti.irqForLine edge.1.pin)) := by
  have hedges := checkPin_foldl edgeToLine (s.ecu.served io now).digitalInputPins
    (s.ecu.served io now) (some s.lines)
  have hframe := EcuIo.checkPin_foldl_frame edgeToLine (s.ecu.served io now).digitalInputPins
    (s.ecu.served io now) (some s.lines)
  have hlast : ∀ name ∈ (s.ecu.served io now).digitalInputPins.map Prod.snd,
      ((s.ecu.served io now).checkDigitalEdges edgeToLine (some s.lines)).1.lastLevel name =
        (s.ecu.served io now).digitalLevel name :=
    fun name hname => lastLevel_checkPin_foldl edgeToLine _ _ _ (Or.inl hname)
  obtain ⟨lines, hlines, hpr, hpending⟩ :=
    foldl_edgeToLine (raised (s.ecu.served io now).digitalLevel (s.ecu.served io now).lastLevel
      (s.ecu.served io now).digitalInputPins) s.lines
  refine ⟨⟨((s.ecu.served io now).checkDigitalEdges edgeToLine (some s.lines)).1, lines⟩, ?_,
    hframe, hlast, hpr, hpending⟩
  change ((s.ecu.served io now).checkDigitalEdges edgeToLine (some s.lines)).2.map _ = _
  unfold EcuIo.checkDigitalEdges
  rw [hedges, hlines]
  rfl

/-- **One visit.** -/
lemma FollowsClients.visit (h : FollowsClients config (s, sent)) {io : SocketScript}
    (hroom : s.ecu.HasRoom io) (hreads : s.ecu.ReadsWell io) {now : ℕ} {s' : InputBench P U}
    (hvisit : s.visit io now = some s') :
    FollowsClients config (s', sent ++ receivedBytes (s.ecu.poll io).2.1) := by
  obtain ⟨hwheel, hbuffer, hvalue⟩ := h.served hroom hreads now
  obtain ⟨hlistening, hknown, hpins, -, -⟩ := served_frame s.ecu io now h.listening
  obtain ⟨s₁, hs₁, hframe, hlast, -⟩ := visit_spec s io now
  obtain rfl := Option.some.inj (hs₁.symm.trans hvisit)
  have hlevels : s₁.ecu.digitalLevel = (s.ecu.served io now).digitalLevel := by
    rw [hframe]
    rfl
  have hnext : ∀ {α : Type} (f : EcuIo P → α),
      (∀ ecu last, f { ecu with lastDigitalLevels := last } = f ecu) →
      f s₁.ecu = f (s.ecu.served io now) := by
    intro α f hf
    rw [hframe]
    exact hf _ _
  constructor
  · exact (hnext EcuIo.embedded fun _ _ => rfl).trans hlistening
  · exact (hnext EcuIo.knownNames fun _ _ => rfl).trans (hknown.trans h.known)
  · exact (hnext EcuIo.digitalInputPins fun _ _ => rfl).trans (hpins.trans h.pins)
  · exact (hnext (fun ecu => ecu.triggerWheel.map (·.config)) fun _ _ => rfl).trans hwheel
  · exact (hnext EcuIo.recvBuffer fun _ _ => rfl).trans hbuffer
  · exact fun name hname =>
      ((hnext (fun ecu => ecu.values name) fun _ _ => rfl).trans (hvalue name hname))
  · intro e he _
    change s₁.ecu.lastLevel e.2 = s₁.ecu.digitalLevel e.2
    rw [hlevels]
    refine hlast e.2 ?_
    rw [hpins, h.pins]
    exact List.mem_map_of_mem he

/-- An output that tells its level is no signal of the clients. -/
lemma FollowsClients.output (h : FollowsClients config (s, sent)) {name : String}
    (hname : name ∈ outputNames config) (instructionCount : ℕ) (level : Bool) :
    FollowsClients config
      ({ s with ecu := s.ecu.reportOutput instructionCount name level }, sent) := by
  have hframe := EcuIo.reportOutput_frame s.ecu instructionCount name level
  have hembedded : (s.ecu.reportOutput instructionCount name level).embedded = none := by
    unfold EcuIo.reportOutput
    dsimp only
    rw [h.listening]
    split
    · next hsome => cases hsome
    · split_ifs <;> rfl
    · rfl
  have hvalues : ∀ name', ClientDriven config name' →
      (s.ecu.reportOutput instructionCount name level).values name' = s.ecu.values name' := by
    intro name' hdriven
    rw [hframe]
    refine Function.update_of_ne ?_ _ _
    rintro rfl
    exact hdriven.1 hname
  refine ⟨hembedded, ?_, ?_, ?_, ?_, fun name' hdriven =>
    (hvalues name' hdriven).trans (h.value name' hdriven), fun e he hdriven => ?_⟩
  · exact (congrArg EcuIo.knownNames hframe).trans h.known
  · exact (congrArg EcuIo.digitalInputPins hframe).trans h.pins
  · exact (congrArg (fun ecu => ecu.triggerWheel.map (·.config)) hframe).trans h.wheel
  · exact (congrArg EcuIo.recvBuffer hframe).trans h.buffer
  · have hlast := h.last e he hdriven
    unfold EcuIo.digitalLevel EcuIo.valueOf at hlast ⊢
    rw [hvalues e.2 hdriven]
    exact (congrArg (fun ecu => EcuIo.lastLevel ecu e.2) hframe).trans hlast

/-- Pins of the clients that have changed with a visit. -/
def Flips (config : EcuIoConfig) (exti : Exti) (sent sent' : List U8) (e : Pin × String) : Prop :=
  clientLevel config sent e.2 ≠ clientLevel config sent' e.2 ∧
    exti.EdgeMatches e.1.port e.1.pin (clientLevel config sent' e.2)

/-- The edges of a visit that match a line, for lines of the clients only. -/
lemma FollowsClients.any_raised_iff (hconfig : OneToOne (pinsOf config.pins .input))
    (h : FollowsClients config (s, sent)) {io : SocketScript} (hroom : s.ecu.HasRoom io)
    (hreads : s.ecu.ReadsWell io) (now : ℕ) (onLine : Pin → Prop) [DecidablePred onLine]
    (hdriven : ∀ e ∈ pinsOf config.pins .input, onLine e.1 → ClientDriven config e.2) :
    ((raised (s.ecu.served io now).digitalLevel (s.ecu.served io now).lastLevel
        (s.ecu.served io now).digitalInputPins).any fun edge =>
          decide (s.lines.exti.EdgeMatches edge.1.port edge.1.pin edge.2) &&
            decide (onLine edge.1)) = true ↔
      ∃ e ∈ pinsOf config.pins .input, onLine e.1 ∧
        Flips config s.lines.exti sent (sent ++ receivedBytes (s.ecu.poll io).2.1) e := by
  obtain ⟨-, -, hpins, -, hlast⟩ := served_frame s.ecu io now h.listening
  obtain ⟨-, -, hvalue⟩ := h.served hroom hreads now
  rw [hpins, h.pins, List.any_eq_true]
  have hlevels : ∀ e ∈ pinsOf config.pins .input, ClientDriven config e.2 →
      (s.ecu.served io now).lastLevel e.2 = clientLevel config sent e.2 ∧
        (s.ecu.served io now).digitalLevel e.2 =
          clientLevel config (sent ++ receivedBytes (s.ecu.poll io).2.1) e.2 := by
    intro e he hclient
    refine ⟨?_, ?_⟩
    · rw [hlast, h.last e he hclient]
      exact h.digitalLevel hclient
    · unfold EcuIo.digitalLevel EcuIo.valueOf clientLevel
      rw [hvalue e.2 hclient]
  constructor
  · rintro ⟨edge, hedge, hmatch⟩
    obtain ⟨e, he, hchanged, rfl⟩ := (mem_raised_iff hconfig).mp hedge
    rw [Bool.and_eq_true, decide_eq_true_eq, decide_eq_true_eq] at hmatch
    obtain ⟨hbefore, hafter⟩ := hlevels e he (hdriven e he hmatch.2)
    rw [hbefore, hafter] at hchanged
    rw [hafter] at hmatch
    exact ⟨e, he, hmatch.2, hchanged.symm, hmatch.1⟩
  · rintro ⟨e, he, hon, hchanged, hmatch⟩
    obtain ⟨hbefore, hafter⟩ := hlevels e he (hdriven e he hon)
    refine ⟨_, (mem_raised_iff hconfig).mpr ⟨e, he, ?_, rfl⟩, ?_⟩
    · rw [hbefore, hafter]
      exact hchanged.symm
    · rw [hafter, Bool.and_eq_true, decide_eq_true_eq, decide_eq_true_eq]
      exact ⟨hmatch, hon⟩

variable [UnicornEngine U] {vectorTableAddr : U32}

/-- **One step.** -/
lemma FollowsClients.step {p q : InputBench P U × List U8} {label : InputAction U × Outcome}
    (h : FollowsClients config p) (horder : InOrder config p label)
    (hstep : benchStep vectorTableAddr p label q) :
    FollowsClients config q := by
  obtain ⟨s, sent⟩ := p
  obtain ⟨s', sent'⟩ := q
  obtain ⟨action, outcome⟩ := label
  obtain ⟨hexec, hsent⟩ := hstep
  dsimp only at hexec hsent
  subst hsent
  cases action with
  | visit io now =>
    obtain ⟨s₁, hvisit, heq⟩ := Option.map_eq_some_iff.mp hexec
    cases heq
    exact h.visit horder.1 horder.2 hvisit
  | output instructionCount name level =>
    cases hexec
    exact h.output horder instructionCount level
  | firmware action =>
    obtain ⟨r, -, heq⟩ := Option.map_eq_some_iff.mp hexec
    cases heq
    exact ⟨h.listening, h.known, h.pins, h.wheel, h.buffer, h.value, h.last⟩

/-- Firmware acknowledges a line. -/
def AcksLine (line : ℕ) : InputAction U → Prop
  | .firmware action => Acknowledges line action
  | _ => False

/-- A line stays pending until it is acknowledged, and its interrupt until it is dispatched. -/
lemma pending_of_benchStep {p q : InputBench P U × List U8} {label : InputAction U × Outcome}
    (hstep : benchStep vectorTableAddr p label q) :
    (∀ line, ¬ AcksLine line label.1 → p.1.lines.exti.pr.getLsbD line = true →
      q.1.lines.exti.pr.getLsbD line = true) ∧
    ∀ irq, label.2.dispatched ≠ some irq → p.1.lines.core.nvic.isPending irq = true →
      q.1.lines.core.nvic.isPending irq = true := by
  obtain ⟨s, sent⟩ := p
  obtain ⟨s', sent'⟩ := q
  obtain ⟨action, outcome⟩ := label
  obtain ⟨hexec, -⟩ := hstep
  dsimp only at hexec
  cases action with
  | visit io now =>
    obtain ⟨s₁, hvisit, heq⟩ := Option.map_eq_some_iff.mp hexec
    cases heq
    obtain ⟨s₂, hs₂, -, -, hpr, hpending⟩ := visit_spec s io now
    obtain rfl := Option.some.inj (hs₂.symm.trans hvisit)
    refine ⟨fun line _ hline => ?_, fun irq _ hirq => ?_⟩
    · dsimp only at hline ⊢
      rw [hpr, hline, Bool.true_or]
    · dsimp only at hirq ⊢
      rw [hpending, hirq, Bool.true_or]
  | output instructionCount name level =>
    cases hexec
    exact ⟨fun _ _ hline => hline, fun _ _ hirq => hirq⟩
  | firmware action =>
    obtain ⟨⟨lines, outcome'⟩, hlines, heq⟩ := Option.map_eq_some_iff.mp hexec
    cases heq
    have hexti : extiStep vectorTableAddr s.lines (action, outcome) lines := hlines
    exact ⟨fun line hack hline => pr_of_extiStep hexti hline hack,
      fun irq hdispatch hirq => isPending_of_extiStep hexti hirq hdispatch⟩

lemma pending_of_run {p q : InputBench P U × List U8} {labels : List (InputAction U × Outcome)}
    (hrun : Run (guardedStep (InOrder config) (benchStep vectorTableAddr)) p labels q) :
    (∀ line, (∀ label ∈ labels, ¬ AcksLine line label.1) → p.1.lines.exti.pr.getLsbD line = true →
      q.1.lines.exti.pr.getLsbD line = true) ∧
    ∀ irq, (∀ label ∈ labels, label.2.dispatched ≠ some irq) →
      p.1.lines.core.nvic.isPending irq = true →
      q.1.lines.core.nvic.isPending irq = true := by
  refine hrun.invariant (I := fun labels q =>
    (∀ line, (∀ label ∈ labels, ¬ AcksLine line label.1) → p.1.lines.exti.pr.getLsbD line = true →
      q.1.lines.exti.pr.getLsbD line = true) ∧
    ∀ irq, (∀ label ∈ labels, label.2.dispatched ≠ some irq) →
      p.1.lines.core.nvic.isPending irq = true →
      q.1.lines.core.nvic.isPending irq = true) ⟨fun _ _ h => h, fun _ _ h => h⟩ ?_
  rintro labels q q' label ⟨hlines, hirqs⟩ ⟨-, hstep⟩
  obtain ⟨hline, hirq⟩ := pending_of_benchStep hstep
  refine ⟨fun line hacks h => ?_, fun irq hdispatches h => ?_⟩
  · exact hline line (hacks label (List.mem_append_right _ (List.mem_singleton_self _)))
      (hlines line (fun l hl => hacks l (List.mem_append_left _ hl)) h)
  · exact hirq irq (hdispatches label (List.mem_append_right _ (List.mem_singleton_self _)))
      (hirqs irq (fun l hl => hdispatches l (List.mem_append_left _ hl)) h)

/-- **From the clients to the firmware.**  In every run an input pin reads the level that the stream
of the clients gives its signal.  The next visit pends exactly the lines and interrupts of the pins
whose level it changes, as the lines are configured then; and such a line stays pending until
firmware acknowledges it, and its interrupt until it is dispatched. -/
theorem client_inputs_reach_firmware (vectorTableAddr : U32) (config : EcuIoConfig)
    (hconfig : OneToOne (pinsOf config.pins .input)) (lines : ExtiCore U)
    {before : List (InputAction U × Outcome)} {s : InputBench P U} {sent : List U8}
    (hrun : Run (guardedStep (InOrder config) (benchStep vectorTableAddr))
      (⟨EcuIo.new config none, lines⟩, []) before (s, sent)) :
    (∀ e ∈ pinsOf config.pins .input, ClientDriven config e.2 →
      pinLevel config s.ecu e.1 = clientLevel config sent e.2) ∧
    ∀ io now, s.ecu.HasRoom io → s.ecu.ReadsWell io → ∃ s', s.visit io now = some s' ∧
      let sent' := sent ++ receivedBytes (s.ecu.poll io).2.1
      (∀ line : Fin 16, (∀ e ∈ pinsOf config.pins .input, e.1.pin = line →
        ClientDriven config e.2) →
        (s'.lines.exti.pr.getLsbD line = true ↔ s.lines.exti.pr.getLsbD line = true ∨
          ∃ e ∈ pinsOf config.pins .input, e.1.pin = line ∧
            Flips config s.lines.exti sent sent' e)) ∧
      (∀ irq, (∀ e ∈ pinsOf config.pins .input, Exti.irqForLine e.1.pin = irq →
        ClientDriven config e.2) →
        (s'.lines.core.nvic.isPending irq = true ↔ s.lines.core.nvic.isPending irq = true ∨
          ∃ e ∈ pinsOf config.pins .input, Exti.irqForLine e.1.pin = irq ∧
            Flips config s.lines.exti sent sent' e)) ∧
      ∀ e ∈ pinsOf config.pins .input, ClientDriven config e.2 →
        Flips config s.lines.exti sent sent' e →
        ∀ after q, Run (guardedStep (InOrder config) (benchStep vectorTableAddr))
          (s', sent') after q →
          ((∀ label ∈ after, ¬ AcksLine e.1.pin label.1) →
            q.1.lines.exti.pr.getLsbD e.1.pin = true) ∧
          ((∀ label ∈ after, label.2.dispatched ≠ some (Exti.irqForLine e.1.pin)) →
            q.1.lines.core.nvic.isPending (Exti.irqForLine e.1.pin) = true) := by
  have hfollows : FollowsClients config (s, sent) :=
    hrun.invariant_state (followsClients_new config lines) fun _ _ _ h hstep =>
      h.step hstep.1 hstep.2
  refine ⟨fun e he hclient => ?_, fun io now hroom hreads => ?_⟩
  · rw [pinLevel_of_oneToOne hconfig s.ecu he]
    exact hfollows.digitalLevel hclient
  obtain ⟨s', hvisit, -, -, hpr, hpending⟩ := visit_spec s io now
  refine ⟨s', hvisit, fun line hdriven => ?_, fun irq hdriven => ?_,
    fun e he hclient hflips after q hafter => ?_⟩
  · rw [hpr, Bool.or_eq_true,
      hfollows.any_raised_iff hconfig hroom hreads now (fun pin => line.val = pin.pin.val)
      fun e he hline => hdriven e he (Fin.ext hline.symm)]
    refine or_congr_right (exists_congr fun e => and_congr_right fun _ =>
      and_congr_left fun _ => ?_)
    exact ⟨fun hline => Fin.ext hline.symm, fun hline => congrArg Fin.val hline.symm⟩
  · rw [hpending, Bool.or_eq_true, hfollows.any_raised_iff hconfig hroom hreads now
      (fun pin => irq = Exti.irqForLine pin.pin) fun e he hirq => hdriven e he hirq.symm]
    exact or_congr_right (exists_congr fun e => and_congr_right fun _ =>
      and_congr_left fun _ => eq_comm)
  · -- the visit raises the edge of this pin
    have hany := (hfollows.any_raised_iff hconfig hroom hreads now (fun pin => pin = e.1) ?_).mpr
      ⟨e, he, rfl, hflips⟩
    · obtain ⟨edge, hedge, hmatch⟩ := List.any_eq_true.mp hany
      rw [Bool.and_eq_true, decide_eq_true_eq, decide_eq_true_eq] at hmatch
      obtain ⟨hmatch, hpin⟩ := hmatch
      obtain ⟨hkeptLines, hkeptIrqs⟩ := pending_of_run hafter
      refine ⟨fun hacks => hkeptLines _ hacks ?_, fun hdispatches => hkeptIrqs _ hdispatches ?_⟩
      · rw [hpr, Bool.or_eq_true]
        refine Or.inr (List.any_eq_true.mpr ⟨edge, hedge, ?_⟩)
        rw [decide_eq_true hmatch, Bool.true_and, hpin]
        exact decide_eq_true rfl
      · rw [hpending, Bool.or_eq_true]
        refine Or.inr (List.any_eq_true.mpr ⟨edge, hedge, ?_⟩)
        rw [decide_eq_true hmatch, Bool.true_and, hpin]
        exact decide_eq_true rfl
    · intro e' he' hpin
      rw [(hconfig e' he' e he).mp hpin]
      exact hclient

end Follows

/-! ## A signal in two pieces -/

/-- Line 6 of port C. -/
def crankConfig : EcuIoConfig := ⟨[⟨"n1", ⟨2, 6⟩, .input⟩], [], none⟩

/-- A client connects and begins a line. -/
def connecting : SocketScript := ⟨[.ok 0 0 true], [.ok [0x6e, 0x31, 0x3d]], []⟩

/-- The client ends the line, which sets the signal. -/
def finishing : SocketScript := ⟨[], [.ok [0x31, 0x0a]], []⟩

/-- The device before its first visit. -/
def crankBench : InputBench ℚ RegisterFile := ⟨EcuIo.new crankConfig none, sampleLines⟩

/-- The second visit pends line 6 and its interrupt. -/
theorem client_inputs_reach_firmware_sample : ∃ s s' : InputBench ℚ RegisterFile,
    Run (guardedStep (InOrder crankConfig) (benchStep 0)) (crankBench, [])
    [(.visit connecting 0, .quiet)] (s, [0x6e, 0x31, 0x3d]) ∧
      s.visit finishing 1 = some s' ∧ s'.lines.exti.pr.getLsbD 6 = true ∧
      s'.lines.core.nvic.isPending 23 = true := by
  have hexec : (crankBench.visit connecting 0).map (fun s => (decide (s.ecu.HasRoom finishing),
      (s.ecu.acceptClients finishing.accepts).2.2,
      ((s.ecu.acceptClients finishing.accepts).1.receiveFromClient finishing.reads).2.2,
      receivedBytes (s.ecu.poll finishing).2.1, decide (s.lines.exti.EdgeMatches 2 6 true))) =
        some (true, true, true, [0x31, 0x0a], true) := by
    decide +kernel
  obtain ⟨s, hvisit, hs⟩ := Option.map_eq_some_iff.mp hexec
  simp only [Prod.mk.injEq, decide_eq_true_eq] at hs
  obtain ⟨hroom, haccepts, hreads, hreceived, hmatch⟩ := hs
  have hstep : benchStep 0 (crankBench, []) (.visit connecting 0, .quiet)
      (s, [0x6e, 0x31, 0x3d]) := by
    refine ⟨?_, ?_⟩
    · unfold execInput
      dsimp only
      rw [hvisit]
      rfl
    · have hsent : sentAfter [] crankBench (.visit connecting 0) = [0x6e, 0x31, 0x3d] := by
        decide +kernel
      exact hsent.symm
  have hrun : Run (guardedStep (InOrder crankConfig) (benchStep 0)) (crankBench, [])
      [(.visit connecting 0, .quiet)] (s, [0x6e, 0x31, 0x3d]) :=
    Run.single ⟨⟨by decide +kernel, by decide +kernel, by decide +kernel⟩, hstep⟩
  obtain ⟨-, hnext⟩ := client_inputs_reach_firmware 0 crankConfig (by decide) sampleLines hrun
  obtain ⟨s', hvisit', -, -, hflips⟩ := hnext finishing 1 hroom ⟨haccepts, hreads⟩
  rw [hreceived] at hflips
  have hlevel : clientLevel crankConfig ([0x6e, 0x31, 0x3d] ++ [0x31, 0x0a]) "n1" = true := by
    decide +kernel
  have hflip : Flips crankConfig s.lines.exti [0x6e, 0x31, 0x3d]
      ([0x6e, 0x31, 0x3d] ++ [0x31, 0x0a]) (⟨2, 6⟩, "n1") := ⟨by decide +kernel, hlevel ▸ hmatch⟩
  obtain ⟨hpr, hpending⟩ := hflips (⟨2, 6⟩, "n1") (by decide) (by decide) hflip [] _ Run.nil
  exact ⟨s, s', hrun, hvisit', hpr (fun _ h => absurd h List.not_mem_nil),
    hpending (fun _ h => absurd h List.not_mem_nil)⟩

end Stm32Emulator.Ecu
