import Stm32Emulator.EcuIo.PollEffects
import Stm32Emulator.Foundation.Run

/-!
# Edges of the input pins

A pin reads the level of its signal, and an edge is raised for a pin whose signal has changed.  The
last level is kept for each signal and not for each pin.  Every edge of every pin is raised once, in
all runs, if and only if each signal has one pin and each pin one signal (`edges_once_iff`).
-/

namespace Stm32Emulator.Ecu

variable {P : Type} [WheelArithmetic P]

/-! ## The levels that pins read -/

/-- The ports with the pins of a configuration. -/
def registeredPorts (P : Type) [WheelArithmetic P] (config : EcuIoConfig) : GpioPorts (World P) :=
  config.pins.foldl World.registerPin GpioPorts.default

/-- The bit of a pin that `IDR` reads. -/
def pinLevel (config : EcuIoConfig) (ecu : EcuIo P) (pin : Pin) : Bool :=
  (((Gpio.new pin.port).read (registeredPorts P config) ⟨ecu, 0⟩ 0x0010).2).getLsbD pin.pin

/-- The callback of an input. -/
def inputCallback (entry : Pin × String) : Fin 16 × (World P → Bool × World P) :=
  (entry.1.pin, fun w => (w.ecuIo.digitalLevel entry.2, w))

lemma pinsOf_cons (p : EcuIoPinConfig) (pins : List EcuIoPinConfig)
    (direction : EcuIoPinDirection) :
    pinsOf (p :: pins) direction =
      (if p.direction = direction then [(p.pin, p.name)] else []) ++ pinsOf pins direction := by
  unfold pinsOf
  by_cases h : p.direction = direction <;> simp [h]

/-- The inputs are called back in their order. -/
lemma readCallbacks_foldl (pins : List EcuIoPinConfig) (gpio : GpioPorts (World P))
    (port : Fin 11) :
    (pins.foldl World.registerPin gpio).readCallbacks port =
      gpio.readCallbacks port ++
        ((pinsOf pins .input).filter fun entry => entry.1.port = port).map inputCallback := by
  induction pins generalizing gpio with
  | nil => simp [pinsOf]
  | cons p pins ih =>
    rw [List.foldl_cons, ih, pinsOf_cons, List.filter_append, List.map_append, ← List.append_assoc]
    congr 1
    unfold World.registerPin
    cases hdirection : p.direction with
    | output => simp [GpioPorts.addWriteCallback]
    | input =>
      by_cases hport : p.pin.port = port
      · subst hport
        simp [GpioPorts.addReadCallback, inputCallback]
      · simp [GpioPorts.addReadCallback, hport, Function.update_of_ne (Ne.symm hport)]

omit [WheelArithmetic P] in
/-- Asking the inputs of a port one after the other. -/
lemma getLsbD_foldl_inputs (entries : List (Pin × String)) (w : World P) (v : U16) (i : Fin 16) :
    (((entries.map inputCallback).foldl
      (fun (d, v) (pin, cb) => ((cb d).2, if (cb d).1 then v ||| (1#16 <<< pin.val) else v))
      (w, v)).2).getLsbD i =
    (v.getLsbD i || entries.any fun entry => entry.1.pin = i && w.ecuIo.digitalLevel entry.2) := by
  induction entries generalizing v with
  | nil => simp
  | cons entry entries ih =>
    rw [List.map_cons, List.foldl_cons, List.any_cons]
    by_cases hlevel : w.ecuIo.digitalLevel entry.2 = true
    · have hbit : (1#16 <<< entry.1.pin.val).getLsbD i = decide (entry.1.pin = i) := by
        rw [getLsbD_one_shiftLeft]
        simp [Fin.ext_iff, eq_comm]
      simp only [inputCallback, hlevel, if_true]
      rw [ih, BitVec.getLsbD_or, hbit, Bool.and_true, Bool.or_assoc]
    · simp only [inputCallback, hlevel]
      rw [ih]
      simp

/-- **A pin reads the levels of its signals.** -/
lemma pinLevel_eq (config : EcuIoConfig) (ecu : EcuIo P) (pin : Pin) :
    pinLevel config ecu pin =
      (pinsOf config.pins .input).any fun entry => entry.1 = pin && ecu.digitalLevel entry.2 := by
  unfold pinLevel Gpio.read registeredPorts
  rw [if_pos rfl]
  dsimp only
  rw [BitVec.getLsbD_setWidth]
  unfold GpioPorts.readPort
  rw [readCallbacks_foldl, GpioPorts.default, List.nil_append, Gpio.new, getLsbD_foldl_inputs,
    List.any_filter]
  have hlt : pin.pin.val < 32 := by omega
  have hpin : ∀ entry : Pin × String,
      decide (entry.1 = pin) =
        (decide (entry.1.port = pin.port) && decide (entry.1.pin = pin.pin)) := by
    rintro ⟨⟨port, number⟩, name⟩
    obtain ⟨port', number'⟩ := pin
    simp
  simp only [hpin, Bool.and_assoc, hlt, decide_true, Bool.true_and, BitVec.getLsbD_zero,
    Bool.false_or]

/-! ## The edges of one visit -/

/-- The edges that a visit raises: an edge is the last level of its signal for the pins that
follow. -/
def raised (level last : String → Bool) : List (Pin × String) → List (Pin × Bool)
  | [] => []
  | (pin, name) :: pins =>
    if level name = last name then raised level last pins
    else (pin, level name) :: raised level (Function.update last name (level name)) pins

omit [WheelArithmetic P] in
/-- Visiting one pin. -/
lemma checkPin_eq {S : Type} (raise : S → Pin → Bool → S) (ecu : EcuIo P) (s : S) (pin : Pin)
    (name : String) :
    EcuIo.checkPin raise (ecu, s) (pin, name) =
      if ecu.digitalLevel name = ecu.lastLevel name then (ecu, s)
      else (ecu.noteLevel name (ecu.digitalLevel name), raise s pin (ecu.digitalLevel name)) := by
  unfold EcuIo.checkPin
  by_cases h : ecu.digitalLevel name = ecu.lastLevel name <;> simp [h]

omit [WheelArithmetic P] in
/-- **A visit** raises these edges, one after the other. -/
lemma checkPin_foldl {S : Type} (raise : S → Pin → Bool → S) (pins : List (Pin × String))
    (ecu : EcuIo P) (s : S) :
    (pins.foldl (EcuIo.checkPin raise) (ecu, s)).2 =
      (raised ecu.digitalLevel ecu.lastLevel pins).foldl
        (fun s edge => raise s edge.1 edge.2) s := by
  induction pins generalizing ecu s with
  | nil => rfl
  | cons entry pins ih =>
    obtain ⟨pin, name⟩ := entry
    rw [List.foldl_cons, checkPin_eq, raised]
    split_ifs
    · exact ih ecu s
    · have hsame : (ecu.noteLevel name (ecu.digitalLevel name)).digitalLevel = ecu.digitalLevel :=
        rfl
      rw [ih, hsame, EcuIo.lastLevel_noteLevel]
      rfl

omit [WheelArithmetic P] in
/-- After a visit the last levels of its signals are their levels. -/
lemma lastLevel_checkPin_foldl {S : Type} (raise : S → Pin → Bool → S) (pins : List (Pin × String))
    (ecu : EcuIo P) (s : S) {name : String}
    (hname : name ∈ pins.map Prod.snd ∨ ecu.lastLevel name = ecu.digitalLevel name) :
    (pins.foldl (EcuIo.checkPin raise) (ecu, s)).1.lastLevel name = ecu.digitalLevel name := by
  induction pins generalizing ecu s with
  | nil => exact hname.resolve_left List.not_mem_nil
  | cons entry pins ih =>
    obtain ⟨pin, name'⟩ := entry
    rw [List.map_cons, List.mem_cons] at hname
    rw [List.foldl_cons, checkPin_eq]
    split_ifs with hlevel
    · refine ih ecu s ?_
      rcases hname with (rfl | hmem) | hsame
      · exact Or.inr hlevel.symm
      · exact Or.inl hmem
      · exact Or.inr hsame
    · refine ih (ecu.noteLevel name' (ecu.digitalLevel name')) _ ?_
      rw [EcuIo.lastLevel_noteLevel, EcuIo.digitalLevel_noteLevel]
      by_cases heq : name = name'
      · subst heq
        exact Or.inr (Function.update_self _ _ _)
      · rw [Function.update_of_ne heq]
        exact hname.imp_left fun h => h.resolve_left heq

/-- Edges are raised for pins whose signal has changed. -/
lemma exists_of_mem_raised {level last : String → Bool} {pins : List (Pin × String)}
    {edge : Pin × Bool} (h : edge ∈ raised level last pins) : ∃ name, (edge.1, name) ∈ pins := by
  induction pins generalizing last with
  | nil => cases h
  | cons entry pins ih =>
    obtain ⟨pin, name⟩ := entry
    unfold raised at h
    split_ifs at h
    · obtain ⟨name', hmem⟩ := ih h
      exact ⟨name', List.mem_cons_of_mem _ hmem⟩
    · rcases List.mem_cons.mp h with rfl | h
      · exact ⟨name, List.mem_cons_self⟩
      · obtain ⟨name', hmem⟩ := ih h
        exact ⟨name', List.mem_cons_of_mem _ hmem⟩

/-- No edge is raised for a pin that is not visited. -/
lemma raised_filter_of_not_mem {level last : String → Bool} {pins : List (Pin × String)} {pin : Pin}
    (h : ∀ name, (pin, name) ∉ pins) :
    (raised level last pins).filter (fun edge => edge.1 = pin) = [] := by
  rw [List.filter_eq_nil_iff]
  intro edge hedge
  obtain ⟨name, hmem⟩ := exists_of_mem_raised hedge
  simp only [decide_eq_true_eq]
  rintro rfl
  exact h name hmem

/-- Each signal has one pin, and each pin one signal. -/
def OneToOne (pins : List (Pin × String)) : Prop :=
  ∀ e ∈ pins, ∀ e' ∈ pins, e.1 = e'.1 ↔ e.2 = e'.2

instance (pins : List (Pin × String)) : Decidable (OneToOne pins) :=
  inferInstanceAs (Decidable (∀ e ∈ pins, ∀ e' ∈ pins, e.1 = e'.1 ↔ e.2 = e'.2))

/-- Then an edge is raised once for each pin whose signal has changed. -/
lemma raised_filter {level last : String → Bool} {pins : List (Pin × String)} (h : OneToOne pins)
    {entry : Pin × String} (hentry : entry ∈ pins) :
    (raised level last pins).filter (fun edge => edge.1 = entry.1) =
      if level entry.2 = last entry.2 then [] else [(entry.1, level entry.2)] := by
  induction pins generalizing last with
  | nil => cases hentry
  | cons head pins ih =>
    have hrest : OneToOne pins := fun e he e' he' =>
      h e (List.mem_cons_of_mem _ he) e' (List.mem_cons_of_mem _ he')
    obtain ⟨pin, name⟩ := head
    have hsame : pin = entry.1 ↔ name = entry.2 := h (pin, name) List.mem_cons_self entry hentry
    unfold raised
    by_cases hname : name = entry.2
    · -- the entry is visited now, and whenever it comes again its level has not changed
      have hpin := hsame.mpr hname
      subst hname hpin
      have hagain : ∀ last', level entry.2 = last' entry.2 →
          (raised level last' pins).filter (fun edge => edge.1 = entry.1) = [] := by
        intro last' hlast'
        by_cases hmem : entry ∈ pins
        · rw [ih hrest hmem, if_pos hlast']
        · apply raised_filter_of_not_mem
          intro name' hname'
          have hsecond := (h entry hentry _ (List.mem_cons_of_mem _ hname')).mp rfl
          obtain rfl : name' = entry.2 := hsecond.symm
          exact hmem hname'
      split_ifs with hlevel
      · exact hagain last hlevel
      · rw [List.filter_cons_of_pos (by simp), hagain _ (by rw [Function.update_self])]
    · -- another entry is visited, of another pin and another signal
      have hpin : pin ≠ entry.1 := fun heq => hname (hsame.mp heq)
      have hmem : entry ∈ pins := by
        rcases List.mem_cons.mp hentry with rfl | hmem
        · exact absurd rfl hname
        · exact hmem
      split_ifs with hlevel hlevel' hlevel'
      · rw [ih hrest hmem, if_pos hlevel']
      · rw [ih hrest hmem, if_neg hlevel']
      · rw [List.filter_cons_of_neg (by simpa using hpin), ih hrest hmem,
          Function.update_of_ne (Ne.symm hname), if_pos hlevel']
      · rw [List.filter_cons_of_neg (by simpa using hpin), ih hrest hmem,
          Function.update_of_ne (Ne.symm hname), if_neg hlevel']

lemma raised_eq_nil {level last : String → Bool} (h : ∀ name, level name = last name)
    (pins : List (Pin × String)) : raised level last pins = [] := by
  induction pins with
  | nil => rfl
  | cons entry pins ih => rw [raised, if_pos (h entry.2), ih]

/-- One signal that has changed raises at most one edge, whatever the number of its pins. -/
lemma eq_of_mem_raised {level last : String → Bool} {name : String}
    (h : ∀ name', name' ≠ name → level name' = last name') {pins : List (Pin × String)}
    {edge edge' : Pin × Bool} (hedge : edge ∈ raised level last pins)
    (hedge' : edge' ∈ raised level last pins) : edge = edge' := by
  induction pins with
  | nil => cases hedge
  | cons entry pins ih =>
    rw [raised] at hedge hedge'
    split_ifs at hedge hedge' with hlevel
    · exact ih hedge hedge'
    · have hname : entry.2 = name := by
        by_contra hne
        exact hlevel (h entry.2 hne)
      have hnil : raised level (Function.update last entry.2 (level entry.2)) pins = [] := by
        refine raised_eq_nil (fun name' => ?_) pins
        by_cases heq : name' = entry.2
        · subst heq
          rw [Function.update_self]
        · rw [Function.update_of_ne heq]
          exact h name' fun hn => heq (hn.trans hname.symm)
      rw [hnil, List.mem_singleton] at hedge hedge'
      exact hedge.trans hedge'.symm

/-- A signal of one pin that has changed raises the edge of this pin. -/
lemma mem_raised {level last : String → Bool} {pins : List (Pin × String)} {pin : Pin}
    {name : String} (hlevel : level name ≠ last name) (hmem : (pin, name) ∈ pins)
    (hpin : ∀ pin', (pin', name) ∈ pins → pin' = pin) :
    (pin, level name) ∈ raised level last pins := by
  induction pins generalizing last with
  | nil => cases hmem
  | cons entry pins ih =>
    obtain ⟨pin', name'⟩ := entry
    rw [raised]
    by_cases hname : name' = name
    · subst hname
      obtain rfl := hpin pin' List.mem_cons_self
      rw [if_neg hlevel]
      exact List.mem_cons_self
    · have hrest : (pin, name) ∈ pins := by
        rcases List.mem_cons.mp hmem with heq | hrest
        · exact absurd (congrArg Prod.snd heq).symm hname
        · exact hrest
      have hpin' := fun p hp => hpin p (List.mem_cons_of_mem _ hp)
      split_ifs
      · exact ih hlevel hrest hpin'
      · refine List.mem_cons_of_mem _ (ih ?_ hrest hpin')
        rwa [Function.update_of_ne (Ne.symm hname)]

/-! ## Every edge of every pin -/

/-- An operation on the device, together with the level of each pin at the last visit. -/
def observedRel (config : EcuIoConfig) (p : EcuIo P × (Pin → Bool)) (op : EcuOp)
    (q : EcuIo P × (Pin → Bool)) : Prop :=
  ((p.1.step op).1, if op = .checkDigitalEdges then pinLevel config p.1 else p.2) = q

/-- A visit raises one edge for each input pin whose level differs from that at the last visit, with
the level that the pin reads, and no others. -/
structure EdgesOnce (config : EcuIoConfig) (ecu : EcuIo P) (previous : Pin → Bool) : Prop where
  once : ∀ pin ∈ (pinsOf config.pins .input).map Prod.fst,
    (ecu.step .checkDigitalEdges).2.2.filter (fun edge => edge.1 = pin) =
      if pinLevel config ecu pin = previous pin then [] else [(pin, pinLevel config ecu pin)]
  only : ∀ edge ∈ (ecu.step .checkDigitalEdges).2.2, edge.1 ∈
    (pinsOf config.pins .input).map Prod.fst

/-- The edges of a visit. -/
lemma edges_step (ecu : EcuIo P) :
    (ecu.step .checkDigitalEdges).2.2 =
      raised ecu.digitalLevel ecu.lastLevel ecu.digitalInputPins := by
  have hlist : ∀ edges later : List (Pin × Bool),
      edges.foldl (fun s edge => s ++ [(edge.1, edge.2)]) later = later ++ edges := by
    intro edges
    induction edges with
    | nil => simp
    | cons edge edges ih => intro later; rw [List.foldl_cons, ih]; simp
  change (ecu.checkDigitalEdges _ []).2 = _
  unfold EcuIo.checkDigitalEdges
  rw [checkPin_foldl, hlist, List.nil_append]

/-- A visit changes the last levels only. -/
lemma visit_frame (ecu : EcuIo P) :
    (ecu.step .checkDigitalEdges).1 =
      { ecu with lastDigitalLevels := (ecu.step .checkDigitalEdges).1.lastDigitalLevels } :=
  EcuIo.checkPin_foldl_frame
    (fun edges pin level => edges ++ [(pin, level)]) ecu.digitalInputPins ecu []

/-- Only visits change the last levels, and nothing changes the pins. -/
lemma step_inputs (ecu : EcuIo P) (op : EcuOp) :
    (ecu.step op).1.digitalInputPins = ecu.digitalInputPins ∧
      (op ≠ .checkDigitalEdges → (ecu.step op).1.lastDigitalLevels = ecu.lastDigitalLevels) := by
  cases op with
  | poll io =>
    have hframe := EcuIo.poll_frame ecu io
    have hpins := congrArg EcuIo.digitalInputPins hframe
    have hlevels := congrArg EcuIo.lastDigitalLevels hframe
    exact ⟨hpins, fun _ => hlevels⟩
  | setValue name value =>
    have hframe := EcuIo.setValue_frame ecu name value
    have hpins := congrArg EcuIo.digitalInputPins hframe
    have hlevels := congrArg EcuIo.lastDigitalLevels hframe
    exact ⟨hpins, fun _ => hlevels⟩
  | reportOutput instructionCount name level =>
    have hframe := EcuIo.reportOutput_frame ecu instructionCount name level
    have hpins := congrArg EcuIo.digitalInputPins hframe
    have hlevels := congrArg EcuIo.lastDigitalLevels hframe
    exact ⟨hpins, fun _ => hlevels⟩
  | advanceTriggerWheel nowInstructions =>
    have hframe := EcuIo.advanceTriggerWheel_frame ecu nowInstructions
    have hpins := congrArg EcuIo.digitalInputPins hframe
    have hlevels := congrArg EcuIo.lastDigitalLevels hframe
    exact ⟨hpins, fun _ => hlevels⟩
  | checkDigitalEdges =>
    refine ⟨?_, fun h => absurd rfl h⟩
    rw [visit_frame]

/-- The last level of each signal is the level of its pin at the last visit. -/
structure Observed (config : EcuIoConfig) (p : EcuIo P × (Pin → Bool)) : Prop where
  pins : p.1.digitalInputPins = pinsOf config.pins .input
  last : ∀ e ∈ pinsOf config.pins .input, p.1.lastLevel e.2 = p.2 e.1

/-- Of pins and signals that belong together one to one, a pin reads the level of its signal. -/
lemma pinLevel_of_oneToOne {config : EcuIoConfig} (h : OneToOne (pinsOf config.pins .input))
    (ecu : EcuIo P) {e : Pin × String} (he : e ∈ pinsOf config.pins .input) :
    pinLevel config ecu e.1 = ecu.digitalLevel e.2 := by
  rw [pinLevel_eq, Bool.eq_iff_iff, List.any_eq_true]
  simp only [Bool.and_eq_true, decide_eq_true_eq]
  constructor
  · rintro ⟨e', he', hpin, hlevel⟩
    rwa [← (h e' he' e he).mp hpin]
  · exact fun hlevel => ⟨e, he, rfl, hlevel⟩

/-- **Step.**  The last levels stay those of the pins. -/
lemma Observed.step {config : EcuIoConfig} (hconfig : OneToOne (pinsOf config.pins .input))
    {p q : EcuIo P × (Pin → Bool)} (h : Observed config p) {op : EcuOp}
    (hstep : observedRel config p op q) : Observed config q := by
  subst hstep
  obtain ⟨hpins, hlevels⟩ := step_inputs p.1 op
  refine ⟨hpins.trans h.pins, fun e he => ?_⟩
  dsimp only
  by_cases hop : op = .checkDigitalEdges
  · subst hop
    rw [if_pos rfl, pinLevel_of_oneToOne hconfig p.1 he]
    refine lastLevel_checkPin_foldl _ p.1.digitalInputPins p.1 [] (Or.inl ?_)
    rw [h.pins]
    exact List.mem_map_of_mem he
  · rw [if_neg hop, ← h.last e he]
    unfold EcuIo.lastLevel
    rw [hlevels hop]

/-- Every edge is then raised once. -/
lemma Observed.edgesOnce {config : EcuIoConfig} (hconfig : OneToOne (pinsOf config.pins .input))
    {ecu : EcuIo P} {previous : Pin → Bool} (h : Observed config (ecu, previous)) :
    EdgesOnce config ecu previous := by
  have hpins : ecu.digitalInputPins = pinsOf config.pins .input := h.pins
  constructor
  · intro pin hpin
    obtain ⟨e, he, rfl⟩ := List.mem_map.mp hpin
    have hlast : ecu.lastLevel e.2 = previous e.1 := h.last e he
    rw [edges_step, hpins, raised_filter hconfig he, pinLevel_of_oneToOne hconfig ecu he, hlast]
  · intro edge hedge
    rw [edges_step, hpins] at hedge
    obtain ⟨name, hmem⟩ := exists_of_mem_raised hedge
    exact List.mem_map.mpr ⟨_, hmem, rfl⟩

/-! ## Pins and signals that do not belong together one to one -/

omit [WheelArithmetic P] in
lemma digitalLevel_setValue_one {ecu : EcuIo P} {name : String} (hname : name ∈ ecu.knownNames) :
    (ecu.setValue name 1).digitalLevel = Function.update ecu.digitalLevel name true := by
  funext name'
  unfold EcuIo.digitalLevel EcuIo.valueOf EcuIo.setValue
  rw [if_pos hname]
  by_cases heq : name' = name
  · subst heq
    simp
  · simp [heq]

omit [WheelArithmetic P] in
lemma lastLevel_setValue (ecu : EcuIo P) (name : String) (value : ℤ) :
    (ecu.setValue name value).lastLevel = ecu.lastLevel := by
  unfold EcuIo.lastLevel
  rw [EcuIo.setValue_frame]

/-- The signals of the pins are known. -/
lemma mem_knownNames {config : EcuIoConfig} {direction : EcuIoPinDirection} {e : Pin × String}
    (he : e ∈ pinsOf config.pins direction) (pending : Option EmbeddedEcuIoState) :
    e.2 ∈ (EcuIo.new config pending : EcuIo P).knownNames := by
  obtain ⟨p, hp, rfl⟩ := List.mem_map.mp he
  refine List.mem_append_left _ (List.mem_append_left _ ?_)
  exact List.mem_map_of_mem (List.mem_of_mem_filter hp)

/-- A pin is high if one of its signals is. -/
lemma pinLevel_of_mem {config : EcuIoConfig} {ecu : EcuIo P} {e : Pin × String}
    (he : e ∈ pinsOf config.pins .input) (hlevel : ecu.digitalLevel e.2 = true) :
    pinLevel config ecu e.1 = true := by
  rw [pinLevel_eq, List.any_eq_true]
  exact ⟨e, he, by simp [hlevel]⟩

section Necessary

variable {config : EcuIoConfig} {pending : Option EmbeddedEcuIoState}
  (honce : ∀ (ops : List EcuOp) (ecu : EcuIo P) (previous : Pin → Bool),
    Run (observedRel config) (EcuIo.new config pending, fun _ => false) ops (ecu, previous) →
      EdgesOnce config ecu previous)
  {e e' : Pin × String} (he : e ∈ pinsOf config.pins .input) (he' : e' ∈ pinsOf config.pins .input)

include honce he he'

/-- Two pins of one signal: when it changes, there is an edge for one of them at most. -/
lemma pin_eq_of_name_eq (hname : e.2 = e'.2) : e.1 = e'.1 := by
  by_contra hpin
  set start : EcuIo P := EcuIo.new config pending
  have hknown : e.2 ∈ start.knownNames := mem_knownNames he pending
  have hlevels := digitalLevel_setValue_one hknown
  have hhigh : (start.setValue e.2 1).digitalLevel e.2 = true := by
    rw [hlevels, Function.update_self]
  have hrun : Run (observedRel config) (start, fun _ => false) [.setValue e.2 1]
      (start.setValue e.2 1, fun _ => false) := Run.single rfl
  have hmem : ∀ entry ∈ pinsOf config.pins .input, entry.2 = e.2 →
      (entry.1, true) ∈ ((start.setValue e.2 1).step .checkDigitalEdges).2.2 := by
    intro entry hentry hsame
    have hpinLevel : pinLevel config (start.setValue e.2 1) entry.1 = true :=
      pinLevel_of_mem hentry (by rw [hsame, hhigh])
    have hfilter := (honce _ _ _ hrun).once entry.1 (List.mem_map_of_mem hentry)
    rw [hpinLevel, if_neg Bool.noConfusion] at hfilter
    have hedge : (entry.1, true) ∈ [(entry.1, true)] := List.mem_singleton_self _
    rw [← hfilter] at hedge
    exact List.mem_of_mem_filter hedge
  have hothers : ∀ name, name ≠ e.2 →
      (start.setValue e.2 1).digitalLevel name = (start.setValue e.2 1).lastLevel name := by
    intro name hne
    rw [hlevels, Function.update_of_ne hne, lastLevel_setValue]
    rfl
  have hedge := hmem e he rfl
  have hedge' := hmem e' he' hname.symm
  rw [edges_step] at hedge hedge'
  have hsame := eq_of_mem_raised hothers hedge hedge'
  exact hpin (Prod.mk.inj hsame).1

/-- Two signals of one pin: when the second goes high after the first, the pin does not change, and
there is an edge for it. -/
lemma name_eq_of_pin_eq (hpin : e.1 = e'.1) : e.2 = e'.2 := by
  by_contra hname
  set start : EcuIo P := EcuIo.new config pending
  have hlevels := digitalLevel_setValue_one (mem_knownNames he pending : e.2 ∈ start.knownNames)
  set visited : EcuIo P := ((start.setValue e.2 1).step .checkDigitalEdges).1
  have hframe : visited = { start.setValue e.2 1 with
      lastDigitalLevels := visited.lastDigitalLevels } :=
    visit_frame (start.setValue e.2 1)
  have hvisited : visited.digitalLevel = (start.setValue e.2 1).digitalLevel := by
    rw [hframe]
    rfl
  have hpins : visited.digitalInputPins = pinsOf config.pins .input := by
    rw [hframe]
    exact EcuIo.digitalInputPins_setValue start e.2 1
  have hknown : e'.2 ∈ visited.knownNames := by
    rw [hframe]
    change e'.2 ∈ (start.setValue e.2 1).knownNames
    rw [EcuIo.knownNames_setValue]
    exact mem_knownNames he' pending
  have hlevels' := digitalLevel_setValue_one hknown
  have hset : Run (observedRel config) (start, fun _ => false) [.setValue e.2 1]
      (start.setValue e.2 1, fun _ => false) := Run.single rfl
  have hvisit : Run (observedRel config) (start, fun _ => false)
      [.setValue e.2 1, .checkDigitalEdges]
      (visited, pinLevel config (start.setValue e.2 1)) := hset.snoc rfl
  have hrun : Run (observedRel config) (start, fun _ => false)
      [.setValue e.2 1, .checkDigitalEdges, .setValue e'.2 1]
      (visited.setValue e'.2 1, pinLevel config (start.setValue e.2 1)) := hvisit.snoc rfl
  have hfilter := (honce _ _ _ hrun).once e.1 (List.mem_map_of_mem he)
  rw [pinLevel_of_mem he (by rw [hlevels', Function.update_of_ne hname, hvisited, hlevels,
      Function.update_self]),
    pinLevel_of_mem he (by rw [hlevels, Function.update_self]), if_pos rfl] at hfilter
  have hlast : visited.lastLevel e'.2 = false := by
    have hmem : e'.2 ∈ (start.setValue e.2 1).digitalInputPins.map Prod.snd := by
      rw [EcuIo.digitalInputPins_setValue]
      exact List.mem_map_of_mem he'
    refine (lastLevel_checkPin_foldl _ _ _ _ (Or.inl hmem)).trans ?_
    rw [hlevels, Function.update_of_ne (Ne.symm hname)]
    rfl
  have hhigh : (visited.setValue e'.2 1).digitalLevel e'.2 = true := by
    rw [hlevels', Function.update_self]
  have hedge : (e'.1, (visited.setValue e'.2 1).digitalLevel e'.2) ∈
      ((visited.setValue e'.2 1).step .checkDigitalEdges).2.2 := by
    rw [edges_step, EcuIo.digitalInputPins_setValue, hpins]
    refine mem_raised ?_ he' fun pin hmem => pin_eq_of_name_eq honce hmem he' rfl
    rw [hhigh, lastLevel_setValue, hlast]
    exact Bool.noConfusion
  have hnil : (e'.1, (visited.setValue e'.2 1).digitalLevel e'.2) ∈ ([] : List (Pin × Bool)) := by
    rw [← hfilter, List.mem_filter]
    exact ⟨hedge, by simp [hpin]⟩
  exact List.not_mem_nil hnil

end Necessary

/-- **The edges of the input pins.**  In every run every visit raises one edge for each input pin
whose level, as `IDR` reads it, has changed since the last visit, with the new level, and no others,
if and only if each signal has one pin and each pin one signal. -/
theorem edges_once_iff (config : EcuIoConfig) (pending : Option EmbeddedEcuIoState) :
    (∀ (ops : List EcuOp) (ecu : EcuIo P) (previous : Pin → Bool),
      Run (observedRel config) (EcuIo.new config pending, fun _ => false) ops (ecu, previous) →
        EdgesOnce config ecu previous) ↔ OneToOne (pinsOf config.pins .input) := by
  constructor
  · intro honce e he e' he'
    exact ⟨name_eq_of_pin_eq honce he he', pin_eq_of_name_eq honce he he'⟩
  · intro hconfig ops ecu previous hrun
    have hobserved : Observed config (ecu, previous) :=
      hrun.invariant_state ⟨rfl, fun _ _ => rfl⟩ fun _ _ _ h hstep => h.step hconfig hstep
    exact hobserved.edgesOnce hconfig

/-! ## Two pins of one signal -/

/-- The crank signal is on two pins. -/
def sharedConfig : EcuIoConfig where
  pins := [⟨"crank", ⟨2, 6⟩, .input⟩, ⟨"crank", ⟨2, 7⟩, .input⟩]
  adcChannels := []
  triggerWheel := none

/-- The signal goes high and with it both pins.  One of them gets an edge. -/
theorem shared_signal_one_edge : ∃ ecu : EcuIo ℚ,
    Run (observedRel sharedConfig) (EcuIo.new sharedConfig none, fun _ => false)
    [.setValue "crank" 1] (ecu, fun _ => false) ∧
      pinLevel sharedConfig ecu ⟨2, 6⟩ = true ∧ pinLevel sharedConfig ecu ⟨2, 7⟩ = true ∧
      (ecu.step .checkDigitalEdges).2.2 = [(⟨2, 6⟩, true)] ∧
      ¬ EdgesOnce sharedConfig ecu (fun _ => false) := by
  set ecu : EcuIo ℚ := (EcuIo.new sharedConfig none).setValue "crank" 1
  have hlow : pinLevel sharedConfig ecu ⟨2, 7⟩ = true := by
    rw [pinLevel_eq]
    rfl
  have hedges : (ecu.step .checkDigitalEdges).2.2 = [(⟨2, 6⟩, true)] := by
    rw [edges_step]
    rfl
  refine ⟨ecu, Run.single rfl, by rw [pinLevel_eq]; rfl, hlow, hedges, fun h => ?_⟩
  have honce := h.once ⟨2, 7⟩ (by decide)
  rw [hedges, hlow] at honce
  exact absurd honce (by decide)

end Stm32Emulator.Ecu
