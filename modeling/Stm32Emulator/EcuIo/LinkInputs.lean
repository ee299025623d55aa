import Stm32Emulator.EcuIo.PollEffects

/-!
# Inputs of the host

The host sets inputs at any time, and a poll of the device takes all that wait.  The queue between
them holds 1024 inputs and drops the oldest one when it is full, whatever its signal.  So the last
value of a signal arrives with the next poll unless as many later inputs, of any signals, have
pushed it out of the queue (`EcuIo.inputs_converge`).
-/

namespace Stm32Emulator.Ecu

open EmbeddedEcuIoState

variable {P : Type}

/-! ## Setting inputs and polling -/

/-- The host sets an input, or the device is polled. -/
inductive InputOp where
  | setInput (name : String) (value : ℤ)
  | poll (io : SocketScript)

namespace InputOp

def isSetInput : InputOp → Bool
  | setInput _ _ => true
  | poll _ => false

/-- The inputs that are set before the next poll. -/
def untilPoll (ops : List InputOp) : List InputOp := ops.takeWhile isSetInput

end InputOp

namespace EcuIo

open InputOp

def inputStep (ecu : EcuIo P) : InputOp → EcuIo P
  | .setInput name value =>
    { ecu with embedded := ecu.embedded.map fun link => link.setInput name value }
  | .poll io => (ecu.poll io).1

lemma inputStep_setInput {ecu : EcuIo P} {link : EmbeddedEcuIoState} (h : ecu.embedded = some link)
    (name : String) (value : ℤ) :
    ecu.inputStep (.setInput name value) =
      { ecu with embedded := some (link.setInput name value) } := by
  unfold inputStep
  dsimp only
  rw [h, Option.map_some]

lemma inputStep_poll {ecu : EcuIo P} {link : EmbeddedEcuIoState} (h : ecu.embedded = some link)
    (io : SocketScript) : ecu.inputStep (.poll io) = ecu.takeLinkInputs link := by
  unfold inputStep poll
  rw [h]

/-! ## Taking inputs -/

lemma values_foldl_setValue_of_not_mem {inputs : List (String × ℤ)} {name : String}
    (h : ∀ v, (name, v) ∉ inputs) (ecu : EcuIo P) :
    (inputs.foldl (fun ecu (name, value) => ecu.setValue name value) ecu).values name =
      ecu.values name := by
  induction inputs generalizing ecu with
  | nil => rfl
  | cons input inputs ih =>
    have hne : name ≠ input.1 := by
      intro heq
      exact h input.2 (by rw [heq]; exact List.mem_cons_self)
    rw [List.foldl_cons, ih fun v hv => h v (List.mem_cons_of_mem _ hv)]
    exact values_setValue_of_ne ecu input.2 hne

lemma knownNames_foldl_setValue (inputs : List (String × ℤ)) (ecu : EcuIo P) :
    (inputs.foldl (fun ecu (name, value) => ecu.setValue name value) ecu).knownNames =
      ecu.knownNames := by
  induction inputs generalizing ecu with
  | nil => rfl
  | cons input inputs ih => rw [List.foldl_cons, ih, knownNames_setValue]

lemma values_setValue_self {ecu : EcuIo P} {name : String} (hknown : name ∈ ecu.knownNames)
    (value : ℤ) :
    (ecu.setValue name value).values name = some value := by
  unfold setValue
  rw [if_pos hknown]
  exact Function.update_self ..

/-- Of the inputs of a signal that are taken the last one counts. -/
lemma values_takeLinkInputs {ecu : EcuIo P} {link : EmbeddedEcuIoState} {name : String} {value : ℤ}
    {earlier later : List (String × ℤ)}
    (hpending : link.pendingInputs = earlier ++ (name, value) :: later)
    (hlater : ∀ v, (name, v) ∉ later) (hknown : name ∈ ecu.knownNames) :
    (ecu.takeLinkInputs link).values name = some value := by
  unfold takeLinkInputs takeInputs
  dsimp only
  rw [hpending, List.foldl_append, List.foldl_cons, values_foldl_setValue_of_not_mem hlater]
  apply values_setValue_self
  rw [knownNames_foldl_setValue]
  exact hknown

/-! ## An input on its way -/

/-- An input waits in the queue, before some inputs of other signals. -/
structure Waits (ecu : EcuIo P) (name : String) (value : ℤ) (later : List (String × ℤ)) : Prop where
  queued : ∃ link earlier, ecu.embedded = some link ∧
    link.pendingInputs = earlier ++ (name, value) :: later
  last : ∀ v, (name, v) ∉ later

/-- An input has arrived, and no other one of its signal waits. -/
structure Arrived (ecu : EcuIo P) (name : String) (value : ℤ) : Prop where
  values_eq : ecu.values name = some value
  queued : ∃ link, ecu.embedded = some link ∧ ∀ v, (name, v) ∉ link.pendingInputs

/-- An input that arrives stays until its signal is set again. -/
lemma Arrived.step {ecu : EcuIo P} {name : String} {value : ℤ} (h : ecu.Arrived name value)
    {op : InputOp} (hop : ∀ v, op ≠ .setInput name v) : (ecu.inputStep op).Arrived name value := by
  obtain ⟨link, hlink, hnone⟩ := h.queued
  cases op with
  | setInput name' value' =>
    rw [inputStep_setInput hlink]
    refine ⟨h.values_eq, _, rfl, fun v hv => ?_⟩
    unfold EmbeddedEcuIoState.setInput pushBounded at hv
    rcases List.mem_append.mp hv with hv | hv
    · split_ifs at hv
      · exact hnone v (List.mem_of_mem_tail hv)
      · exact hnone v hv
    · cases List.mem_singleton.mp hv
      exact hop value' rfl
  | poll io =>
    rw [inputStep_poll hlink]
    refine ⟨?_, link.takeInputs.1, ?_, fun _ hv => absurd hv List.not_mem_nil⟩
    · exact (values_foldl_setValue_of_not_mem hnone _).trans h.values_eq
    · rw [takeLinkInputs_frame]

/-- Another input joins the queue behind the one that waits, which is not the oldest in a full
queue. -/
lemma Waits.setInput {ecu : EcuIo P} {name name' : String} {value value' : ℤ}
    {later : List (String × ℤ)} (h : ecu.Waits name value later) (hne : name' ≠ name)
    (hlength : later.length + 1 < maxPendingInputs) :
    (ecu.inputStep (.setInput name' value')).Waits name value (later ++ [(name', value')]) := by
  obtain ⟨link, earlier, hlink, hpending⟩ := h.queued
  rw [inputStep_setInput hlink]
  refine ⟨?_, fun v hv => ?_⟩
  · refine ⟨_, if link.pendingInputs.length = maxPendingInputs then earlier.tail
      else earlier, rfl, ?_⟩
    unfold EmbeddedEcuIoState.setInput pushBounded
    dsimp only
    split_ifs with hfull
    · have hne : earlier ≠ [] := by
        rintro rfl
        rw [hpending, List.nil_append, List.length_cons] at hfull
        omega
      rw [hpending, List.tail_append_of_ne_nil hne]
      simp
    · rw [hpending]
      simp
  · rcases List.mem_append.mp hv with hv | hv
    · exact h.last v hv
    · cases List.mem_singleton.mp hv
      exact hne rfl

lemma Waits.poll {ecu : EcuIo P} {name : String} {value : ℤ} {later : List (String × ℤ)}
    (h : ecu.Waits name value later) (hknown : name ∈ ecu.knownNames) (io : SocketScript) :
    (ecu.inputStep (.poll io)).Arrived name value := by
  obtain ⟨link, earlier, hlink, hpending⟩ := h.queued
  rw [inputStep_poll hlink]
  refine ⟨values_takeLinkInputs hpending h.last hknown, link.takeInputs.1, ?_, ?_⟩
  · rw [takeLinkInputs_frame]
  · exact fun v hv => absurd hv List.not_mem_nil

lemma knownNames_inputStep (ecu : EcuIo P) (op : InputOp) :
    (ecu.inputStep op).knownNames = ecu.knownNames := by
  cases op with
  | setInput name value => rfl
  | poll io =>
    unfold inputStep
    dsimp only
    rw [poll_frame]

lemma knownNames_foldl_inputStep (ops : List InputOp) (ecu : EcuIo P) :
    (ops.foldl inputStep ecu).knownNames = ecu.knownNames := by
  induction ops generalizing ecu with
  | nil => rfl
  | cons op ops ih => rw [List.foldl_cons, ih, knownNames_inputStep]

lemma embedded_inputStep {ecu : EcuIo P} (h : ecu.embedded.isSome) (op : InputOp) :
    (ecu.inputStep op).embedded.isSome := by
  obtain ⟨link, hlink⟩ := Option.isSome_iff_exists.mp h
  cases op with
  | setInput name value =>
    rw [inputStep_setInput hlink]
    rfl
  | poll io =>
    rw [inputStep_poll hlink, takeLinkInputs_frame]
    rfl

lemma embedded_foldl_inputStep (ops : List InputOp) {ecu : EcuIo P} (h : ecu.embedded.isSome) :
    (ops.foldl inputStep ecu).embedded.isSome := by
  induction ops generalizing ecu with
  | nil => exact h
  | cons op ops ih => exact ih (embedded_inputStep h op)

lemma Arrived.foldl {ecu : EcuIo P} {name : String} {value : ℤ} (h : ecu.Arrived name value)
    {ops : List InputOp} (hops : ∀ v, .setInput name v ∉ ops) :
    (ops.foldl inputStep ecu).Arrived name value := by
  induction ops generalizing ecu with
  | nil => exact h
  | cons op ops ih =>
    rw [List.foldl_cons]
    refine ih (h.step fun v hop => ?_) fun v hv => hops v (List.mem_cons_of_mem _ hv)
    rw [hop] at hops
    exact hops v List.mem_cons_self

/-- An input that waits arrives with the next poll, unless too many others follow before it. -/
lemma Waits.arrives {ecu : EcuIo P} {name : String} {value : ℤ} {later : List (String × ℤ)}
    (h : ecu.Waits name value later) (hknown : name ∈ ecu.knownNames) {ops : List InputOp}
    (hops : ∀ v, .setInput name v ∉ ops)
    (hkept : later.length + (untilPoll ops).length < maxPendingInputs) (io : SocketScript) :
    ((ops.foldl inputStep ecu).inputStep (.poll io)).Arrived name value := by
  induction ops generalizing ecu later with
  | nil => exact h.poll hknown io
  | cons op ops ih =>
    have hrest : ∀ v, .setInput name v ∉ ops := fun v hv => hops v (List.mem_cons_of_mem _ hv)
    rw [List.foldl_cons]
    cases op with
    | setInput name' value' =>
      have hne : name' ≠ name := by
        rintro rfl
        exact hops value' List.mem_cons_self
      have hcount : (untilPoll (.setInput name' value' :: ops)).length =
          (untilPoll ops).length + 1 := rfl
      rw [hcount] at hkept
      refine ih (h.setInput hne (by omega)) ?_ hrest ?_
      · rw [knownNames_inputStep]
        exact hknown
      · rw [List.length_append, List.length_singleton]
        omega
    | poll io' =>
      have harrived := (h.poll hknown io').foldl hrest
      exact harrived.step fun v hop => by cases hop

/-- A device with one input pin. -/
def hostedConfig : EcuIoConfig := ⟨[⟨"rpm", ⟨0, 3⟩, .input⟩], [], none⟩

/-- **Inputs converge.**  After each poll a known signal has the value that was last set for it,
provided that fewer inputs than the queue holds were set between this one and the poll that followed
it. -/
theorem inputs_converge (config : EcuIoConfig) [WheelArithmetic P] (link : EmbeddedEcuIoState)
    {name : String} (hknown : name ∈ (EcuIo.new (P := P) config (some link)).knownNames)
    (before : List InputOp) (value : ℤ) {after : List InputOp}
    (hlast : ∀ v, .setInput name v ∉ after) (hkept : (untilPoll after).length < maxPendingInputs)
    (io : SocketScript) :
    ((((before ++ .setInput name value :: after).foldl inputStep
      (EcuIo.new (P := P) config (some link))).inputStep (.poll io)).values name) = some value := by
  rw [List.foldl_append, List.foldl_cons]
  have hnames := knownNames_foldl_inputStep before (EcuIo.new (P := P) config (some link))
  have hembedded := embedded_foldl_inputStep before
    (show (EcuIo.new (P := P) config (some link)).embedded.isSome from rfl)
  generalize before.foldl inputStep (EcuIo.new (P := P) config (some link)) =
    ecu at hnames hembedded ⊢
  rw [← hnames] at hknown
  have hwaits : (ecu.inputStep (.setInput name value)).Waits name value [] := by
    obtain ⟨link', hlink⟩ := Option.isSome_iff_exists.mp hembedded
    rw [inputStep_setInput hlink]
    exact ⟨⟨link'.setInput name value, _, rfl, rfl⟩, fun v hv => absurd hv List.not_mem_nil⟩
  rw [← knownNames_inputStep ecu (.setInput name value)] at hknown
  refine (hwaits.arrives hknown hlast ?_ io).values_eq
  rwa [List.length_nil, Nat.zero_add]

/-- Three inputs before a poll, of which the first is not the last of its signal. -/
theorem inputs_converge_of_rpm :
    ((([InputOp.setInput "rpm" 900] ++ InputOp.setInput "rpm" 1200 ::
      [InputOp.setInput "map" 5]).foldl
      inputStep (EcuIo.new (P := ℚ) hostedConfig (some .default))).inputStep
        (.poll ⟨[], [], []⟩)).values "rpm" = some 1200 :=
  inputs_converge hostedConfig .default (by decide) [.setInput "rpm" 900] 1200 (by simp) (by decide)
    ⟨[], [], []⟩

/-! ## An input that is pushed out -/

/-- Inputs that are set one after the other join a queue that keeps the last ones. -/
lemma foldl_inputStep_setInput {ecu : EcuIo P} {link : EmbeddedEcuIoState}
    (hlink : ecu.embedded = some link) (hlength : link.pendingInputs.length ≤ maxPendingInputs)
    (inputs : List (String × ℤ)) :
    ∃ link', (inputs.map fun input => InputOp.setInput input.1 input.2).foldl inputStep ecu =
        { ecu with embedded := some link' } ∧
      link'.pendingInputs = keepLast maxPendingInputs (link.pendingInputs ++ inputs) := by
  induction inputs generalizing ecu link with
  | nil =>
    refine ⟨link, ?_, ?_⟩
    · rw [← hlink]
      rfl
    · rw [List.append_nil, keepLast_of_length_le hlength]
  | cons input inputs ih =>
    have hpending : (link.setInput input.1 input.2).pendingInputs =
        keepLast maxPendingInputs (link.pendingInputs ++ [input]) :=
      pushBounded_eq_keepLast (by decide) hlength input
    rw [List.map_cons, List.foldl_cons, inputStep_setInput hlink]
    have hlength' : (link.setInput input.1 input.2).pendingInputs.length ≤ maxPendingInputs := by
      rw [hpending]
      exact length_keepLast_le _ _
    obtain ⟨link', hfold, hlast⟩ :=
      @ih { ecu with embedded := some (link.setInput input.1 input.2) } _ rfl hlength'
    refine ⟨link', hfold, ?_⟩
    rw [hlast, hpending, keepLast_append, List.append_assoc, List.singleton_append]

/-- Inputs behind which the whole queue is filled with those of other signals are lost. -/
lemma values_of_pushed_out {ecu : EcuIo P} {link : EmbeddedEcuIoState}
    (hlink : ecu.embedded = some link) (hlength : link.pendingInputs.length ≤ maxPendingInputs)
    {name : String} (inputs : List (String × ℤ)) {later : List (String × ℤ)}
    (hlater : ∀ v, (name, v) ∉ later) (hfull : maxPendingInputs ≤ later.length)
    (io : SocketScript) :
    ((((inputs ++ later).map fun input =>
      InputOp.setInput input.1 input.2).foldl inputStep ecu).inputStep
      (.poll io)).values name = ecu.values name := by
  obtain ⟨link', hfold, hpending⟩ := foldl_inputStep_setInput hlink hlength (inputs ++ later)
  rw [hfold, inputStep_poll rfl]
  refine values_foldl_setValue_of_not_mem (fun v hv => hlater v ?_) _
  have hkept : link'.pendingInputs = keepLast maxPendingInputs later := by
    rw [hpending, ← List.append_assoc, keepLast_append_of_le hfull]
  unfold takeInputs at hv
  dsimp only at hv
  rw [hkept] at hv
  exact List.mem_of_mem_drop hv

/-- A speed that the host has set is lost behind a full queue of other inputs. -/
lemma rpm_lost_behind {n : ℕ} (hfull : maxPendingInputs ≤ n) :
    ((((.setInput "rpm" 1200 :: List.replicate n (.setInput "map" 5)).foldl inputStep
      (EcuIo.new (P := ℚ) hostedConfig (some .default))).inputStep (.poll
        ⟨[], [], []⟩)).values "rpm") =
      none := by
  have hother : ∀ v : ℤ, ("rpm", v) ∉ List.replicate n ("map", (5 : ℤ)) := by
    intro v hv
    have hne : "rpm" ≠ "map" := by decide
    exact hne (congrArg Prod.fst (List.eq_of_mem_replicate hv))
  rw [← List.length_replicate (n := n) (a := ("map", (5 : ℤ)))] at hfull
  have hlost := values_of_pushed_out
    (rfl : (EcuIo.new (P := ℚ) hostedConfig (some .default)).embedded = _)
    (Nat.zero_le _) [("rpm", 1200)] hother hfull ⟨[], [], []⟩
  rw [List.singleton_append, List.map_cons, List.map_replicate] at hlost
  exact hlost

/-- 1024 other inputs suffice, although the speed is a known signal and is not set again. -/
theorem rpm_lost :
    "rpm" ∈ (EcuIo.new (P := ℚ) hostedConfig (some .default)).knownNames ∧
      (((.setInput "rpm" 1200 :: List.replicate 1024 (.setInput "map" 5)).foldl inputStep
        (EcuIo.new (P := ℚ) hostedConfig (some .default))).inputStep (.poll
          ⟨[], [], []⟩)).values "rpm" =
        none :=
  ⟨by decide, rpm_lost_behind (le_refl _)⟩

end EcuIo

end Stm32Emulator.Ecu
