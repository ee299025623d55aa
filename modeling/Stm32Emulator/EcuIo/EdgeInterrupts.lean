import Stm32Emulator.EcuIo.DigitalEdges
import Stm32Emulator.Exceptions.Pending
import Stm32Emulator.Peripherals.SystemControl

/-!
# Interrupts of the external lines

An edge of an input pin is kept in two places: as the pending bit of its line, which the firmware
clears, and as the pending interrupt of the line, which its dispatch clears.  Some lines share an
interrupt.  The exception machine is extended by the external lines, and `edge_not_stranded` shows
that an edge stays in each of the two places until it is cleared there.
-/

namespace Stm32Emulator

variable {U : Type} [UnicornEngine U]

/-! ## The machine -/

/-- The exception state and the external lines. -/
structure ExtiCore (U : Type) where
  exti : Exti
  core : Core U

/-- What can happen to the external lines: anything the exception machine does, edges of pins, and
writes of the firmware. -/
inductive ExtiAction (U : Type) where
  | exception (action : ExceptionAction U)
  | edge (pin : Pin) (rising : Bool)
  | writeExti (offset value : U32)
  | writeSyscfg (offset value : U32)

/-- A label of the machine: an action with its outcome. -/
abbrev ExtiLabel (U : Type) := ExtiAction U × Outcome

/-- An edge on a pin, whose interrupt is pended if its line is configured for it. -/
def raiseEdge (s : ExtiCore U) (pin : Pin) (rising : Bool) : Option (ExtiCore U) :=
  match s.exti.raiseLineIfConfigured pin.port pin.pin rising with
  | (exti, none) => some { s with exti := exti }
  | (exti, some irq) => do
    let nvic ← s.core.nvic.setIntrPending irq
    some { exti := exti, core := { s.core with nvic := nvic } }

/-- Carrying out an action. -/
def execExti (vectorTableAddr : U32) (s : ExtiCore U) :
    ExtiAction U → Option (ExtiCore U × Outcome)
  | .exception action => do
    let (core, outcome) ← execAction vectorTableAddr s.core action
    some ({ s with core := core }, outcome)
  | .edge pin rising => do
    let s ← raiseEdge s pin rising
    some (s, .quiet)
  | .writeExti offset value => some ({ s with exti := s.exti.writeExti offset value }, .quiet)
  | .writeSyscfg offset value => some ({ s with exti := s.exti.writeSyscfg offset value }, .quiet)

/-- The step relation of the machine. -/
def extiStep (vectorTableAddr : U32) (s : ExtiCore U) (label : ExtiLabel U)
    (s' : ExtiCore U) : Prop :=
  execExti vectorTableAddr s label.1 = some (s', label.2)

/-- The firmware writes a one to the pending bit of the line. -/
def Acknowledges (line : ℕ) : ExtiAction U → Prop
  | .writeExti offset value => offset = 0x14 ∧ value.getLsbD line = true
  | _ => False

instance (line : ℕ) (action : ExtiAction U) : Decidable (Acknowledges line action) := by
  unfold Acknowledges
  split <;> infer_instance

/-! ## Edges -/

omit [UnicornEngine U] in
/-- The interrupts of the lines can be pended. -/
lemma irqForLine_range (line : ℕ) : -15 ≤ Exti.irqForLine line ∧ Exti.irqForLine line ≤ 111 := by
  unfold Exti.irqForLine
  split_ifs <;> omega

omit [UnicornEngine U] in
/-- **An edge** that matches sets the pending bit of its line and pends its interrupt, and another
one does nothing. -/
lemma raiseEdge_spec (s : ExtiCore U) (pin : Pin) (rising : Bool) :
    ∃ s', raiseEdge s pin rising = some s' ∧
      (s.exti.EdgeMatches pin.port pin.pin rising →
        s'.exti = { s.exti with pr := s.exti.pr ||| (1#32 <<< pin.pin.val) } ∧
          s.core.nvic.setIntrPending (Exti.irqForLine pin.pin) = some s'.core.nvic) ∧
      (¬ s.exti.EdgeMatches pin.port pin.pin rising → s' = s) := by
  unfold raiseEdge
  rw [Exti.raiseLineIfConfigured_eq]
  by_cases hmatch : s.exti.EdgeMatches pin.port pin.pin rising
  · obtain ⟨nvic', hpend⟩ := Option.isSome_iff_exists.mp
      (Nvic.setIntrPending_isSome s.core.nvic (irqForLine_range pin.pin))
    rw [if_pos hmatch]
    refine ⟨⟨{ s.exti with pr := s.exti.pr ||| (1#32 <<< pin.pin.val) },
      { s.core with nvic := nvic' }⟩, ?_, fun _ => ⟨rfl, hpend⟩, fun h => absurd hmatch h⟩
    simp [hpend]
  · rw [if_neg hmatch]
    exact ⟨s, rfl, fun h => absurd h hmatch, fun _ => rfl⟩

omit [UnicornEngine U] in
/-- An edge sets no other line's pending bit. -/
lemma pr_raiseEdge {s s' : ExtiCore U} {pin : Pin} {rising : Bool}
    (h : raiseEdge s pin rising = some s') (line : ℕ) :
    s'.exti.pr.getLsbD line =
      (s.exti.pr.getLsbD line ||
        decide (s.exti.EdgeMatches pin.port pin.pin rising) && decide (line = pin.pin.val)) := by
  obtain ⟨s₁, hs₁, hset, hkeep⟩ := raiseEdge_spec s pin rising
  obtain rfl := Option.some.inj (h.symm.trans hs₁)
  by_cases hmatch : s.exti.EdgeMatches pin.port pin.pin rising
  · have hlt : pin.pin.val < 32 := by omega
    rw [(hset hmatch).1, BitVec.getLsbD_or, getLsbD_one_shiftLeft]
    simp [hmatch, hlt]
  · rw [hkeep hmatch]
    simp [hmatch]

omit [UnicornEngine U] in
/-- An edge pends the interrupt of its line and no other. -/
lemma isPending_raiseEdge {s s' : ExtiCore U} {pin : Pin} {rising : Bool}
    (h : raiseEdge s pin rising = some s') (irq : ℤ) :
    s'.core.nvic.isPending irq =
      (s.core.nvic.isPending irq ||
        decide (s.exti.EdgeMatches pin.port pin.pin rising) &&
          decide (irq = Exti.irqForLine pin.pin)) := by
  obtain ⟨s₁, hs₁, hset, hkeep⟩ := raiseEdge_spec s pin rising
  obtain rfl := Option.some.inj (h.symm.trans hs₁)
  by_cases hmatch : s.exti.EdgeMatches pin.port pin.pin rising
  · rw [Nvic.isPending_setIntrPending (hset hmatch).2]
    simp [hmatch]
  · rw [hkeep hmatch]
    simp [hmatch]

omit [UnicornEngine U] in
/-- Only writes to `PR` clear pending bits, those of the ones written. -/
lemma pr_writeExti (exti : Exti) (offset value : U32) (line : ℕ) :
    (exti.writeExti offset value).pr.getLsbD line =
      (exti.pr.getLsbD line && !(decide (offset = 0x14) && value.getLsbD line)) := by
  unfold Exti.writeExti
  by_cases hpr : offset = 0x14
  · subst hpr
    rw [if_neg (by decide), if_neg (by decide), if_neg (by decide), if_neg (by decide),
      if_neg (by decide), if_pos rfl, BitVec.getLsbD_and, BitVec.getLsbD_not]
    by_cases hlt : line < 32
    · simp [hlt]
    · rw [BitVec.getLsbD_of_ge exti.pr _ (by omega)]
      simp
  · rw [decide_eq_false hpr, Bool.false_and, Bool.not_false, Bool.and_true]
    split_ifs <;> rfl

omit [UnicornEngine U] in
/-- Routing changes no pending bit. -/
lemma pr_writeSyscfg (exti : Exti) (offset value : U32) :
    (exti.writeSyscfg offset value).pr = exti.pr := by
  unfold Exti.writeSyscfg
  split_ifs <;> rfl

/-! ## Visits of the input pins -/

/-- **A visit of the input pins** is a run of the edges that it raises. -/
theorem checkDigitalEdges_run {P : Type} (vectorTableAddr : U32) (ecu : Ecu.EcuIo P)
    (s : ExtiCore U) :
    ∃ s', (ecu.checkDigitalEdges
        (fun s pin level => s.bind fun s => raiseEdge s pin level) (some s)).2 = some s' ∧
      Run (extiStep vectorTableAddr) s
        ((Ecu.raised ecu.digitalLevel ecu.lastLevel ecu.digitalInputPins).map fun edge =>
          (.edge edge.1 edge.2, .quiet)) s' := by
  have hedges : ∀ (edges : List (Pin × Bool)) (s : ExtiCore U),
      ∃ s', edges.foldl (fun s edge => s.bind fun s => raiseEdge s edge.1 edge.2)
        (some s) = some s' ∧
        Run (extiStep vectorTableAddr) s
          (edges.map fun edge => (.edge edge.1 edge.2, .quiet)) s' := by
    intro edges
    induction edges with
    | nil => exact fun s => ⟨s, rfl, Run.nil⟩
    | cons edge edges ih =>
      intro s
      obtain ⟨s₁, hraise, -, -⟩ := raiseEdge_spec s edge.1 edge.2
      obtain ⟨s', hfold, hrun⟩ := ih s₁
      have hstep : extiStep vectorTableAddr s (.edge edge.1 edge.2, .quiet) s₁ := by
        simp [extiStep, execExti, hraise]
      refine ⟨s', ?_, (Run.single hstep).append hrun⟩
      rw [List.foldl_cons, Option.bind_some, hraise]
      exact hfold
  unfold Ecu.EcuIo.checkDigitalEdges
  rw [Ecu.checkPin_foldl]
  exact hedges _ s

/-! ## What a step can clear -/

variable {vectorTableAddr : U32} {s s' : ExtiCore U} {label : ExtiLabel U}

/-- A pending line stays pending in a step that does not acknowledge it. -/
lemma pr_of_extiStep (h : extiStep vectorTableAddr s label s') {line : ℕ}
    (hline : s.exti.pr.getLsbD line = true) (hack : ¬ Acknowledges line label.1) :
    s'.exti.pr.getLsbD line = true := by
  obtain ⟨action, outcome⟩ := label
  unfold extiStep at h
  cases action with
  | exception action =>
    obtain ⟨⟨core, outcome'⟩, hstep, h⟩ := Option.bind_eq_some_iff.mp h
    cases h
    exact hline
  | edge pin rising =>
    obtain ⟨s₁, hraise, h⟩ := Option.bind_eq_some_iff.mp h
    cases h
    rw [pr_raiseEdge hraise, hline, Bool.true_or]
  | writeExti offset value =>
    cases h
    rw [pr_writeExti, hline, Bool.true_and, Bool.not_eq_true', Bool.and_eq_false_iff]
    unfold Acknowledges at hack
    by_cases hoffset : offset = 0x14
    · exact Or.inr (Bool.eq_false_iff.mpr fun hvalue => hack ⟨hoffset, hvalue⟩)
    · exact Or.inl (decide_eq_false hoffset)
  | writeSyscfg offset value =>
    cases h
    rw [pr_writeSyscfg]
    exact hline

/-- A pending interrupt stays pending in a step that does not dispatch it. -/
lemma isPending_of_extiStep (h : extiStep vectorTableAddr s label s') {irq : ℤ}
    (hirq : s.core.nvic.isPending irq = true) (hdispatch : label.2.dispatched ≠ some irq) :
    s'.core.nvic.isPending irq = true := by
  obtain ⟨action, outcome⟩ := label
  unfold extiStep at h
  cases action with
  | exception action =>
    obtain ⟨⟨core, outcome'⟩, hstep, h⟩ := Option.bind_eq_some_iff.mp h
    cases h
    have hcore : coreStep vectorTableAddr s.core (action, outcome) core := hstep
    rw [isPending_coreStep hcore, hirq, Bool.true_or, Bool.true_and]
    exact decide_eq_true hdispatch
  | edge pin rising =>
    obtain ⟨s₁, hraise, h⟩ := Option.bind_eq_some_iff.mp h
    cases h
    rw [isPending_raiseEdge hraise, hirq, Bool.true_or]
  | writeExti offset value =>
    cases h
    exact hirq
  | writeSyscfg offset value =>
    cases h
    exact hirq

/-! ## Edges are not stranded -/

/-- **No edge is stranded.**  An edge of a pin can be taken in every state and changes the pending
bit of no other line.  If it matches the configuration then, whatever happens after it, the pending
bit of its line stays set until the firmware writes a one to it, and the interrupt of its line stays
pending until it is dispatched. -/
theorem edge_not_stranded (vectorTableAddr : U32) (s : ExtiCore U) (pin : Pin) (rising : Bool) :
    ∃ s₁, extiStep vectorTableAddr s (.edge pin rising, .quiet) s₁ ∧
      (∀ line, line ≠ pin.pin.val → s₁.exti.pr.getLsbD line = s.exti.pr.getLsbD line) ∧
      (s.exti.EdgeMatches pin.port pin.pin rising →
        ∀ (labels : List (ExtiLabel U)) (s' : ExtiCore U),
        Run (extiStep vectorTableAddr) s₁ labels s' →
          ((∀ label ∈ labels, ¬ Acknowledges pin.pin label.1) →
            s'.exti.pr.getLsbD pin.pin = true) ∧
          ((∀ label ∈ labels, label.2.dispatched ≠ some (Exti.irqForLine pin.pin)) →
            s'.core.nvic.isPending (Exti.irqForLine pin.pin) = true)) := by
  obtain ⟨s₁, hraise, -, -⟩ := raiseEdge_spec s pin rising
  refine ⟨s₁, by simp [extiStep, execExti, hraise], fun line hline => ?_,
    fun hmatch labels s' hrun => ?_⟩
  · rw [pr_raiseEdge hraise]
    simp [hline]
  · have hpr : s₁.exti.pr.getLsbD pin.pin = true := by
      rw [pr_raiseEdge hraise]
      simp [hmatch]
    have hpending : s₁.core.nvic.isPending (Exti.irqForLine pin.pin) = true := by
      rw [isPending_raiseEdge hraise]
      simp [hmatch]
    constructor
    · refine hrun.invariant (I := fun labels s' =>
        (∀ label ∈ labels, ¬ Acknowledges pin.pin label.1) →
        s'.exti.pr.getLsbD pin.pin = true) (fun _ => hpr) ?_
      intro labels s₂ s₃ label hkept hstep hlabels
      exact pr_of_extiStep hstep (hkept fun l hl => hlabels l (List.mem_append_left _ hl))
        (hlabels label (List.mem_append_right _ (List.mem_singleton_self _)))
    · refine hrun.invariant (I := fun labels s' =>
        (∀ label ∈ labels, label.2.dispatched ≠ some (Exti.irqForLine pin.pin)) →
          s'.core.nvic.isPending (Exti.irqForLine pin.pin) = true) (fun _ => hpending) ?_
      intro labels s₂ s₃ label hkept hstep hlabels
      exact isPending_of_extiStep hstep (hkept fun l hl => hlabels l (List.mem_append_left _ hl))
        (hlabels label (List.mem_append_right _ (List.mem_singleton_self _)))

/-! ## Line 6 -/

/-- Lines 6 and 7 are routed to port C, and rising edges are interrupts. -/
def sampleLines : ExtiCore RegisterFile where
  exti := { Exti.default with imr := 0xc0, rtsr := 0xc0, exticr2 := 0x2200 }
  core := sampleCore

/-- After an edge of line 6, the firmware acknowledges line 7, and line 6 and the interrupt that it
shares with line 7 stay pending. -/
theorem edge_not_stranded_sample : ∃ s', Run (extiStep 0) sampleLines
      [(.edge ⟨2, 6⟩ true, .quiet), (.writeExti 0x14 0x80, .quiet)] s' ∧
    s'.exti.pr.getLsbD 6 = true ∧ s'.core.nvic.isPending 23 = true := by
  obtain ⟨s₁, hedge, -, hstays⟩ := edge_not_stranded 0 sampleLines ⟨2, 6⟩ true
  have hack : extiStep 0 s₁ (.writeExti 0x14 0x80, .quiet)
      { s₁ with exti := s₁.exti.writeExti 0x14 0x80 } := rfl
  obtain ⟨hpr, hpending⟩ := hstays (by decide) _ _ (Run.single hack)
  refine ⟨_, (Run.single hedge).append (Run.single hack), hpr ?_, hpending ?_⟩
  · simp [Acknowledges]
  · simp [Outcome.quiet]

end Stm32Emulator
