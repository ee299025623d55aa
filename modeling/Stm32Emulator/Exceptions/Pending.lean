import Stm32Emulator.Exceptions.Machine

/-!
# Delivery of interrupts

What the interrupt controller owes is a function of the history.  For each interrupt the `Ledger`
says whether a pend is outstanding, whether the interrupt is enabled, how many groups of pends there
have been (a group is a maximal sequence of pends without a dispatch between them), and how many
dispatches.  `nvic_delivers` shows that the two shifted words of the controller represent the ledger
of every interrupt in every reachable state, that each group is dispatched once, and when attempts
dispatch which interrupt.
-/

namespace Stm32Emulator

variable {U : Type}

/-! ## The ledger -/

/-- What the history says about one interrupt. -/
structure Ledger where
  /-- It was pended and has not been dispatched since. -/
  owed : Bool
  /-- It was set in `ISER` and has not been cleared in `ICER` since. -/
  enabled : Bool
  /-- The number of maximal groups of pends without a dispatch in between. -/
  groups : ℕ
  /-- The number of dispatches. -/
  dispatches : ℕ
  deriving DecidableEq, Repr

namespace Ledger

/-- The ledger of an empty history. -/
def empty : Ledger := ⟨false, false, 0, 0⟩

/-- A pend opens a group unless one is open. -/
def pend (l : Ledger) : Ledger :=
  if l.owed then l else { l with owed := true, groups := l.groups + 1 }

/-- A dispatch closes the group. -/
def dispatch (l : Ledger) : Ledger :=
  { l with owed := false, dispatches := l.dispatches + 1 }

/-- The label pends `irq`, by an action or by the `SysTick` check of an attempt. -/
def pends (irq : ℤ) : ExceptionLabel U → Bool
  | (.setIntrPending irq', _) => decide (irq' = irq)
  | (_, outcome) => outcome.systick && decide (irq = Irq.systick)

/-- The enable bit after a label. -/
def enabledAfter (irq : ℤ) (enabled : Bool) : ExceptionAction U → Bool
  | .write offset value =>
    (enabled || Nvic.writesOne Nvic.iserOffset irq offset value) &&
      !Nvic.writesOne Nvic.icerOffset irq offset value
  | _ => enabled

/-- Adding a label to the ledger of `irq`: its pend comes before its dispatch. -/
def record (irq : ℤ) (l : Ledger) (label : ExceptionLabel U) : Ledger :=
  let l := { l with enabled := enabledAfter irq l.enabled label.1 }
  let l := if pends irq label then l.pend else l
  if label.2.dispatched = some irq then l.dispatch else l

/-- The ledger of an interrupt. -/
def of (irq : ℤ) (history : List (ExceptionLabel U)) : Ledger :=
  history.foldl (record irq) empty

/-- Every group but one that is still open has been dispatched, exactly once. -/
def Balanced (l : Ledger) : Prop := l.dispatches + l.owed.toNat = l.groups

lemma owed_record (irq : ℤ) (l : Ledger) (label : ExceptionLabel U) :
    (l.record irq label).owed =
      ((l.owed || pends irq label) && decide (label.2.dispatched ≠ some irq)) := by
  unfold record pend dispatch
  cases pends irq label <;> cases howed : l.owed <;>
    by_cases hd : label.2.dispatched = some irq <;> simp [hd]

lemma enabled_record (irq : ℤ) (l : Ledger) (label : ExceptionLabel U) :
    (l.record irq label).enabled = enabledAfter irq l.enabled label.1 := by
  unfold record pend dispatch
  cases pends irq label <;> cases howed : l.owed <;>
    by_cases hd : label.2.dispatched = some irq <;> simp [hd]

/-- A ledger stays balanced as long as only owed interrupts are dispatched. -/
lemma Balanced.record {irq : ℤ} {l : Ledger} {label : ExceptionLabel U} (h : l.Balanced)
    (howed : label.2.dispatched = some irq → (l.owed || pends irq label) = true) :
    (l.record irq label).Balanced := by
  unfold Balanced at *
  unfold Ledger.record pend dispatch
  by_cases hd : label.2.dispatched = some irq
  · have := howed hd
    cases hpends : pends irq label <;> cases hl : l.owed <;> simp_all
  · cases hpends : pends irq label <;> cases hl : l.owed <;> simp_all

end Ledger

/-! ## What attempts may deliver -/

/-- An interrupt that an attempt may dispatch: it is owed, or it is `SysTick` and the attempt itself
finds that `SysTick` is due; and an external interrupt must be enabled. -/
def Deliverable (history : List (ExceptionLabel U)) (systick : Bool) (irq : ℤ) : Prop :=
  ((Ledger.of irq history).owed = true ∨ systick = true ∧ irq = Irq.systick) ∧
    (0 ≤ irq → (Ledger.of irq history).enabled = true)

/-! ## The invariant -/

/-- The two words of the controller represent the ledgers, and the last `SysTick` trigger lies in
the past. -/
structure LedgerInvariant (history : List (ExceptionLabel U)) (s : Core U) : Prop where
  pending : ∀ irq, s.nvic.isPending irq = (Ledger.of irq history).owed
  enabled : ∀ irq, s.nvic.isEnabled irq = (Ledger.of irq history).enabled
  balanced : ∀ irq, (Ledger.of irq history).Balanced
  time : s.nvic.lastSystickTrigger ≤ s.numInstructions

lemma LedgerInvariant.reset {s : Core U} (h : s.nvic = Nvic.default) : LedgerInvariant [] s where
  pending irq := by
    rw [h]
    simp [Nvic.isPending, Nvic.default, Ledger.of, Ledger.empty]
  enabled irq := by
    rw [h]
    simp [Nvic.isEnabled, Nvic.default, Ledger.of, Ledger.empty]
  balanced irq := rfl
  time := by
    rw [h]
    exact Nat.zero_le _

/-- An update of the controller that a label announces keeps the invariant. -/
lemma LedgerInvariant.update {history : List (ExceptionLabel U)} {s s' : Core U}
    {label : ExceptionLabel U} (hinv : LedgerInvariant history s)
    (hpending : ∀ irq, s'.nvic.isPending irq =
      ((s.nvic.isPending irq || Ledger.pends irq label) && decide (label.2.dispatched ≠ some irq)))
    (henabled : ∀ irq, s'.nvic.isEnabled irq =
      Ledger.enabledAfter irq (s.nvic.isEnabled irq) label.1)
    (hdispatched : ∀ irq, label.2.dispatched = some irq →
      (s.nvic.isPending irq || Ledger.pends irq label) = true)
    (htime : s'.nvic.lastSystickTrigger ≤ s'.numInstructions) :
    LedgerInvariant (history ++ [label]) s' := by
  have hof : ∀ irq, Ledger.of irq (history ++ [label]) =
      (Ledger.of irq history).record irq label := by
    intro irq
    unfold Ledger.of
    rw [List.foldl_append]
    rfl
  refine ⟨?_, ?_, ?_, htime⟩
  · intro irq
    rw [hof, Ledger.owed_record, ← hinv.pending, hpending]
  · intro irq
    rw [hof, Ledger.enabled_record, ← hinv.enabled, henabled]
  · intro irq
    rw [hof]
    refine (hinv.balanced irq).record fun hd => ?_
    rw [← hinv.pending]
    exact hdispatched irq hd

/-- After the `SysTick` check, the dispatchable interrupts are the deliverable ones. -/
lemma LedgerInvariant.dispatchable_iff {history : List (ExceptionLabel U)} {s : Core U}
    {nvic₁ : Nvic} (hinv : LedgerInvariant history s)
    (hsystick : s.nvic.maybeSetSystickIntrPending s.numInstructions = some nvic₁) (irq : ℤ) :
    nvic₁.Dispatchable irq ↔ Deliverable history (s.nvic.systickDue s.numInstructions) irq := by
  have henabled : nvic₁.isEnabled irq = s.nvic.isEnabled irq := by
    rw [Nvic.maybeSetSystickIntrPending_frame hsystick]
    rfl
  unfold Nvic.Dispatchable Deliverable
  rw [Nvic.isPending_maybeSetSystickIntrPending hsystick, henabled, hinv.pending, hinv.enabled,
    Bool.or_eq_true, Bool.and_eq_true, decide_eq_true_eq]
  refine and_congr_right fun _ => ?_
  rw [← not_lt]
  tauto

/-! ## Delivery -/

variable [UnicornEngine U]

/-- No gate blocks an attempt: no handler runs, nothing is masked, and the CPU is not inside an IT
block. -/
structure GatesOpen (s : Core U) : Prop where
  running : s.nvic.inInterrupt = false
  primask : regRead s.uc .primask = 0#32
  basepri : regRead s.uc .basepri = 0#32
  itstate : regRead s.uc .xpsr &&& xpsrItstateMask = 0#32

lemma not_blocked_iff_gatesOpen {s : Core U} : ¬ Blocked s.nvic s.uc ↔ GatesOpen s := by
  unfold Blocked
  constructor
  · intro h
    push Not at h
    obtain ⟨hrunning, hprimask, hbasepri, hitstate⟩ := h
    exact ⟨by simpa using hrunning, hprimask, hbasepri, hitstate⟩
  · rintro ⟨hrunning, hprimask, hbasepri, hitstate⟩
    simp [hrunning, hprimask, hbasepri, hitstate]

/-- A step has entered the handler of an interrupt: the controller knows that a handler runs and
which exception is active, and `PC` has received the vector of the interrupt. -/
structure HandlerEntered (vectorTableAddr : U32) (irq : ℤ) (s s' : Core U) : Prop where
  running : s'.nvic.inInterrupt = true
  active : s'.nvic.activeExceptionNumber = BitVec.ofInt 32 (16 + irq)
  vector : ∃ uc : U, ∃ vector, readVectorAddr s.uc vectorTableAddr irq = some vector ∧
    s'.uc = emuStop (regWrite uc .pc vector)

/-- The controller, reached from reset by `history`, neither loses nor duplicates an interrupt. -/
structure Delivers (vectorTableAddr : U32) (history : List (ExceptionLabel U)) (s : Core U) :
    Prop where
  /-- Exactly the owed interrupts are pending, ... -/
  pending : ∀ irq, s.nvic.isPending irq = (Ledger.of irq history).owed
  /-- ... exactly the enabled ones have their enable bit set, ... -/
  enabled : ∀ irq, s.nvic.isEnabled irq = (Ledger.of irq history).enabled
  /-- ... and every group of pends that is not open has been dispatched once. -/
  balanced : ∀ irq, (Ledger.of irq history).Balanced
  /-- Every interrupt of the vector table up to number 111 can be pended. -/
  pend : ∀ irq, -15 ≤ irq → irq ≤ 111 →
    ∃ s', coreStep vectorTableAddr s (.setIntrPending irq, .quiet) s'
  /-- A step dispatches at most one interrupt; it is an attempt with all gates open, and the
  interrupt is the lowest deliverable one. -/
  sound : ∀ label s' irq, coreStep vectorTableAddr s label s' → label.2.dispatched = some irq →
    label = (.runPendingInterrupts, ⟨s.nvic.systickDue s.numInstructions, some irq⟩) ∧ GatesOpen s ∧
      Deliverable history (s.nvic.systickDue s.numInstructions) irq ∧
      ∀ irq', Deliverable history (s.nvic.systickDue s.numInstructions) irq' → irq ≤ irq'
  /-- It enters the handler of that interrupt. -/
  handler : ∀ label s' irq, coreStep vectorTableAddr s label s' → label.2.dispatched = some irq →
    HandlerEntered vectorTableAddr irq s s'
  /-- An attempt with all gates open that has something to deliver dispatches it. -/
  live : ∀ irq, GatesOpen s → Deliverable history (s.nvic.systickDue s.numInstructions) irq →
    (∀ irq', Deliverable history (s.nvic.systickDue s.numInstructions) irq' →
      EntryReady s.uc vectorTableAddr irq') →
    ∃ irq' s', coreStep vectorTableAddr s
      (.runPendingInterrupts, ⟨s.nvic.systickDue s.numInstructions, some irq'⟩) s'
  /-- An attempt that is blocked or has nothing to deliver leaves all but the `SysTick` check. -/
  quiet : ¬ GatesOpen s ∨ (∀ irq, ¬ Deliverable history (s.nvic.systickDue s.numInstructions) irq) →
    ∃ s', coreStep vectorTableAddr s
      (.runPendingInterrupts, ⟨s.nvic.systickDue s.numInstructions, none⟩) s' ∧ s'.uc = s.uc

/-- **What a step does to the pending interrupts**: the ones that it pends are added, and the one
that it dispatches is taken away. -/
lemma isPending_coreStep {vectorTableAddr : U32} {s s' : Core U} {label : ExceptionLabel U}
    (h : coreStep vectorTableAddr s label s') (irq : ℤ) :
    s'.nvic.isPending irq =
      ((s.nvic.isPending irq || Ledger.pends irq label) &&
        decide (label.2.dispatched ≠ some irq)) := by
  cases coreStep_effect h with
  | execute uc instructions => simp [Ledger.pends, Outcome.quiet]
  | @setIntrPending irq' nvic' hpend =>
    rw [Nvic.isPending_setIntrPending hpend]
    simp [Ledger.pends, Outcome.quiet, eq_comm]
  | @write offset value nvic' hwrite =>
    rw [Nvic.write_frame hwrite]
    simp [Ledger.pends, Outcome.quiet, Nvic.isPending]
  | setSystickPeriod period => simp [Ledger.pends, Outcome.quiet, Nvic.isPending]
  | @attempt nvic₁ nvic' uc' dispatched hsystick hattempt =>
    have hpend := Nvic.isPending_maybeSetSystickIntrPending hsystick
    cases hattempt with
    | idle _ =>
      rw [hpend]
      simp [Ledger.pends]
    | @dispatch irq' nvic₂ _ _ frame hopen hfind hentry =>
      obtain ⟨hd, -, rfl⟩ := Nvic.getAndClearNextDispatchable_eq_some_iff.mp hfind
      have hrange := Nvic.lt_of_isPending hd.1
      have hbit : (irqOffset + irq').toNat < 128 := by unfold irqOffset; omega
      have hback : (((irqOffset + irq').toNat : ℕ) : ℤ) - irqOffset = irq' := by
        unfold irqOffset at *
        omega
      rw [runInterrupt_nvic hentry]
      change { nvic₁ with
        pending := nvic₁.pending &&& ~~~(1#128 <<< (irqOffset + irq').toNat) }.isPending irq = _
      rw [Nvic.isPending_clear nvic₁ hbit, hpend, hback]
      simp [Ledger.pends, eq_comm]
  | enterSvcall => simp [Ledger.pends, Outcome.quiet, Nvic.isPending]
  | returnFromInterrupt => simp [Ledger.pends, Outcome.quiet, Nvic.isPending]

/-- **Step lemma.**  Every step keeps the invariant. -/
theorem LedgerInvariant.step {vectorTableAddr : U32} {history : List (ExceptionLabel U)}
    {s s' : Core U} {label : ExceptionLabel U} (hinv : LedgerInvariant history s)
    (h : coreStep vectorTableAddr s label s') : LedgerInvariant (history ++ [label]) s' := by
  have hpending := isPending_coreStep h
  cases coreStep_effect h with
  | execute uc instructions =>
    exact hinv.update hpending (fun _ => rfl) (fun irq hd => by cases hd)
      (hinv.time.trans (Nat.le_add_right _ _))
  | @setIntrPending irq nvic' hpend =>
    have hframe := Nvic.setIntrPending_frame hpend
    refine hinv.update hpending ?_ (fun irq hd => by cases hd) ?_
    · intro irq'
      rw [hframe]
      rfl
    · rw [hframe]
      exact hinv.time
  | @write offset value nvic' hwrite =>
    have hframe := Nvic.write_frame hwrite
    refine hinv.update hpending (Nvic.isEnabled_write hwrite) (fun irq hd => by cases hd) ?_
    rw [hframe]
    exact hinv.time
  | setSystickPeriod period =>
    exact hinv.update hpending (fun _ => rfl) (fun irq hd => by cases hd) hinv.time
  | @attempt nvic₁ nvic' uc' dispatched hsystick hattempt =>
    obtain ⟨nvic₂, hsystick₂, htime⟩ := Nvic.maybeSetSystickIntrPending_isSome hinv.time
    obtain rfl := Option.some.inj (hsystick.symm.trans hsystick₂)
    have hpend := Nvic.isPending_maybeSetSystickIntrPending hsystick
    have hframe := Nvic.maybeSetSystickIntrPending_frame hsystick
    cases hattempt with
    | idle _ =>
      refine hinv.update hpending ?_ (fun irq hd => by cases hd) htime
      intro irq
      rw [hframe]
      rfl
    | @dispatch irq nvic₂ _ _ frame hopen hfind hentry =>
      obtain ⟨hd, -, rfl⟩ := Nvic.getAndClearNextDispatchable_eq_some_iff.mp hfind
      have hnvic := runInterrupt_nvic hentry
      refine hinv.update hpending ?_ ?_ ?_
      · intro irq'
        rw [hnvic]
        change nvic₁.isEnabled irq' = _
        rw [hframe]
        rfl
      · intro irq' hirq'
        obtain rfl := Option.some.inj hirq'
        have := hd.1
        rw [hpend] at this
        exact this
      · rw [hnvic]
        exact htime
  | enterSvcall => exact hinv.update hpending (fun _ => rfl) (fun irq hd => by cases hd) hinv.time
  | returnFromInterrupt =>
    exact hinv.update hpending (fun _ => rfl) (fun irq hd => by cases hd) hinv.time

/-- Under the invariant, the gates after the `SysTick` check are those before it. -/
lemma not_blocked_after_systick {s : Core U} {nvic₁ : Nvic}
    (hsystick : s.nvic.maybeSetSystickIntrPending s.numInstructions = some nvic₁) :
    ¬ Blocked nvic₁ s.uc ↔ GatesOpen s := by
  rw [← not_blocked_iff_gatesOpen, Nvic.maybeSetSystickIntrPending_frame hsystick]
  rfl

/-- A step that dispatches an interrupt enters its handler. -/
lemma handlerEntered {vectorTableAddr : U32} {s s' : Core U} {label : ExceptionLabel U} {irq : ℤ}
    (h : coreStep vectorTableAddr s label s') (hdispatched : label.2.dispatched = some irq) :
    HandlerEntered vectorTableAddr irq s s' := by
  cases coreStep_effect h with
  | attempt hsystick hattempt =>
    cases hattempt with
    | idle _ => cases hdispatched
    | dispatch hopen hfind hentry =>
      obtain rfl := Option.some.inj hdispatched
      have hnvic := runInterrupt_nvic hentry
      exact ⟨by rw [hnvic], by rw [hnvic]; rfl, runInterrupt_pc hentry⟩
  | _ => cases hdispatched

/-- Under the invariant, the controller delivers. -/
theorem LedgerInvariant.delivers {vectorTableAddr : U32} {history : List (ExceptionLabel U)}
    {s : Core U} (hinv : LedgerInvariant history s) : Delivers vectorTableAddr history s := by
  obtain ⟨nvic₁, hsystick, -⟩ := Nvic.maybeSetSystickIntrPending_isSome hinv.time
  have hiff := hinv.dispatchable_iff hsystick
  have hgates := not_blocked_after_systick hsystick
  refine ⟨hinv.pending, hinv.enabled, hinv.balanced, ?_, ?_, fun _ _ _ => handlerEntered, ?_, ?_⟩
  · intro irq hlo hhi
    obtain ⟨nvic', hpend⟩ := Option.isSome_iff_exists.mp
      (Nvic.setIntrPending_isSome s.nvic ⟨hlo, hhi⟩)
    exact ⟨{ s with nvic := nvic' }, by simp [coreStep, execAction, hpend]⟩
  · intro label s' irq hstep hdispatched
    cases coreStep_effect hstep with
    | @attempt nvic₂ nvic' uc' dispatched hsystick₂ hattempt =>
      obtain rfl := Option.some.inj (hsystick.symm.trans hsystick₂)
      cases hattempt with
      | idle _ => cases hdispatched
      | @dispatch irq₁ nvic₂ _ _ frame hopen hfind hentry =>
        obtain rfl := Option.some.inj hdispatched
        obtain ⟨hd, hmin, -⟩ := Nvic.getAndClearNextDispatchable_eq_some_iff.mp hfind
        exact ⟨rfl, hgates.mp hopen, (hiff _).mp hd, fun irq' hd' =>
          hmin irq' ((hiff irq').mpr hd')⟩
    | _ => cases hdispatched
  · intro irq hopen hd hready
    cases hfind : nvic₁.getAndClearNextDispatchable with
    | none =>
      exact absurd ((hiff irq).mpr hd) (Nvic.getAndClearNextDispatchable_eq_none_iff.mp hfind irq)
    | some p =>
      obtain ⟨irq', nvic₂⟩ := p
      have hd' := (hiff irq').mp (Nvic.getAndClearNextDispatchable_eq_some_iff.mp hfind).1
      obtain ⟨uc', frame, hentry, -⟩ := runInterrupt_spec nvic₂ (hready irq' hd')
      have hattempt :
          s.nvic.runPendingInterrupts s.uc s.numInstructions vectorTableAddr = _ :=
        runPendingInterrupts_of_find hsystick (hgates.mpr hopen) hfind
      rw [hentry] at hattempt
      exact ⟨irq', _, coreStep_runPendingInterrupts hattempt⟩
  · intro h
    have hidle : Blocked nvic₁ s.uc ∨ ∀ irq, ¬ nvic₁.Dispatchable irq := by
      rcases h with hclosed | hnone
      · exact Or.inl (not_not.mp fun hopen => hclosed (hgates.mp hopen))
      · exact Or.inr fun irq hd => hnone irq ((hiff irq).mp hd)
    exact ⟨_, coreStep_runPendingInterrupts (runPendingInterrupts_idle hsystick hidle), rfl⟩

/-- **The interrupt controller neither loses, duplicates nor leaks an interrupt**, in any
interleaving of pends, register writes, exception returns, supervisor calls and attempts to
dispatch. -/
theorem nvic_delivers {vectorTableAddr : U32} {s s' : Core U} {history : List (ExceptionLabel U)}
    (hreset : s.nvic = Nvic.default) (hrun : Run (coreStep vectorTableAddr) s history s') :
    Delivers vectorTableAddr history s' := by
  have hinv : LedgerInvariant history s' :=
    hrun.invariant (LedgerInvariant.reset hreset) fun _ _ _ _ hinv hstep => hinv.step hstep
  exact hinv.delivers

/-- After interrupt 7 has been pended and dispatched, its one group is closed. -/
theorem nvic_delivers_sample :
    ∃ history s', Run (coreStep 0) sampleCore history s' ∧
      Ledger.of 7 history = ⟨false, true, 1, 1⟩ ∧ Delivers 0 history s' := by
  have hexec : (execAll 0 sampleCore sampleDispatch).map (fun r => Ledger.of 7 r.1)
      = some ⟨false, true, 1, 1⟩ := by
    decide +kernel
  obtain ⟨⟨history, s'⟩, hexec, hledger⟩ := Option.map_eq_some_iff.mp hexec
  have hrun : Run (coreStep 0) sampleCore history s' := run_of_execAll hexec
  exact ⟨history, s', hrun, hledger, nvic_delivers rfl hrun⟩

end Stm32Emulator
