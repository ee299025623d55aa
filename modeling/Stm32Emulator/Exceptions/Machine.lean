import Stm32Emulator.Foundation.Run
import Stm32Emulator.Exceptions.Entry

/-!
# The exception machine

Exceptions as a transition system.  The state is the interrupt controller, the CPU and the
instruction counter; the actions are what the rest of the emulator does to them, in any order:
translated code runs, peripherals pend interrupts, firmware writes the registers of the controller,
and the hooks dispatch, enter and return.

Each step is labelled by its action and its outcome.  `Effect` lists what every kind of step can do,
and invariants are proved by cases on it.  `intrHook_run` and `blockHook_run` show that the two
hooks of the program are runs of the machine.
-/

namespace Stm32Emulator

variable {U : Type} [UnicornEngine U]

/-- The part of the system that exceptions depend on. -/
structure Core (U : Type) where
  nvic : Nvic
  uc : U
  numInstructions : ℕ

/-- What can happen to the exception state. -/
inductive ExceptionAction (U : Type) where
  /-- Translated code runs: the CPU may come back in any state, and time passes. -/
  | execute (uc : U) (instructions : ℕ)
  /-- A peripheral, or `STIR` or `ICSR`, pends an interrupt. -/
  | setIntrPending (irq : ℤ)
  /-- Firmware writes a register of the controller. -/
  | write (offset value : U32)
  /-- Firmware programs `SysTick`. -/
  | setSystickPeriod (period : Option U32)
  /-- An attempt to dispatch a pending interrupt. -/
  | runPendingInterrupts
  /-- An `svc` instruction. -/
  | enterSvcall
  /-- An exception return. -/
  | returnFromInterrupt

/-- What an action let out: whether it pended `SysTick` by itself, and what it dispatched. -/
structure Outcome where
  systick : Bool
  dispatched : Option ℤ
  deriving DecidableEq, Repr

/-- The outcome of every action but an attempt. -/
def Outcome.quiet : Outcome := ⟨false, none⟩

/-- A label of the machine: an action with its outcome. -/
abbrev ExceptionLabel (U : Type) := ExceptionAction U × Outcome

/-- Carrying out an action. -/
def execAction (vectorTableAddr : U32) (s : Core U) :
    ExceptionAction U → Option (Core U × Outcome)
  | .execute uc instructions =>
    some ({ s with uc := uc, numInstructions := s.numInstructions + instructions }, .quiet)
  | .setIntrPending irq => do
    let nvic ← s.nvic.setIntrPending irq
    some ({ s with nvic := nvic }, .quiet)
  | .write offset value => do
    let nvic ← s.nvic.write offset value
    some ({ s with nvic := nvic }, .quiet)
  | .setSystickPeriod period =>
    some ({ s with nvic := { s.nvic with systickPeriod := period } }, .quiet)
  | .runPendingInterrupts => do
    let (nvic, uc, dispatched) ←
      s.nvic.runPendingInterrupts s.uc s.numInstructions vectorTableAddr
    some ({ s with nvic := nvic, uc := uc }, ⟨s.nvic.systickDue s.numInstructions, dispatched⟩)
  | .enterSvcall => do
    let (nvic, uc, _) ← s.nvic.enterSvcall s.uc vectorTableAddr
    some ({ s with nvic := nvic, uc := uc }, .quiet)
  | .returnFromInterrupt => do
    let (nvic, uc, _) ← s.nvic.returnFromInterrupt s.uc
    some ({ s with nvic := nvic, uc := uc }, .quiet)

/-- The step relation of the machine. -/
def coreStep (vectorTableAddr : U32) (s : Core U) (label : ExceptionLabel U) (s' : Core U) : Prop :=
  execAction vectorTableAddr s label.1 = some (s', label.2)

/-- Carrying out actions one after the other, with the history this makes. -/
def execAll (vectorTableAddr : U32) (s : Core U) :
    List (ExceptionAction U) → Option (List (ExceptionLabel U) × Core U)
  | [] => some ([], s)
  | action :: actions => do
    let (s, outcome) ← execAction vectorTableAddr s action
    let (history, s) ← execAll vectorTableAddr s actions
    some ((action, outcome) :: history, s)

/-- What a step does, for each kind of action. -/
inductive Effect (vectorTableAddr : U32) (s : Core U) : ExceptionLabel U → Core U → Prop
  | execute (uc : U) (instructions : ℕ) :
      Effect vectorTableAddr s (.execute uc instructions, .quiet)
        { s with uc := uc, numInstructions := s.numInstructions + instructions }
  | setIntrPending {irq : ℤ} {nvic' : Nvic} (h : s.nvic.setIntrPending irq = some nvic') :
      Effect vectorTableAddr s (.setIntrPending irq, .quiet) { s with nvic := nvic' }
  | write {offset value : U32} {nvic' : Nvic} (h : s.nvic.write offset value = some nvic') :
      Effect vectorTableAddr s (.write offset value, .quiet) { s with nvic := nvic' }
  | setSystickPeriod (period : Option U32) :
      Effect vectorTableAddr s (.setSystickPeriod period, .quiet)
        { s with nvic := { s.nvic with systickPeriod := period } }
  | attempt {nvic₁ nvic' : Nvic} {uc' : U} {dispatched : Option ℤ}
      (hsystick : s.nvic.maybeSetSystickIntrPending s.numInstructions = some nvic₁)
      (h : Attempt nvic₁ s.uc vectorTableAddr nvic' uc' dispatched) :
      Effect vectorTableAddr s
        (.runPendingInterrupts, ⟨s.nvic.systickDue s.numInstructions, dispatched⟩)
        { s with nvic := nvic', uc := uc' }
  | enterSvcall {uc' : U} :
      Effect vectorTableAddr s (.enterSvcall, .quiet)
        { s with
          nvic := { s.nvic with
            inInterrupt := true
            activeExceptionNumber := BitVec.ofInt 32 (irqOffset + Irq.svcall) }
          uc := uc' }
  | returnFromInterrupt {uc' : U} :
      Effect vectorTableAddr s (.returnFromInterrupt, .quiet)
        { s with
          nvic := { s.nvic with inInterrupt := false, activeExceptionNumber := 0#32 }
          uc := uc' }

/-- **Every step has one of the effects.** -/
theorem coreStep_effect {vectorTableAddr : U32} {s s' : Core U} {label : ExceptionLabel U}
    (h : coreStep vectorTableAddr s label s') : Effect vectorTableAddr s label s' := by
  obtain ⟨action, outcome⟩ := label
  unfold coreStep at h
  cases action with
  | execute uc instructions =>
    cases h
    exact .execute uc instructions
  | setIntrPending irq =>
    obtain ⟨nvic', hpend, h⟩ := Option.bind_eq_some_iff.mp h
    cases h
    exact .setIntrPending hpend
  | write offset value =>
    obtain ⟨nvic', hwrite, h⟩ := Option.bind_eq_some_iff.mp h
    cases h
    exact .write hwrite
  | setSystickPeriod period =>
    cases h
    exact .setSystickPeriod period
  | runPendingInterrupts =>
    obtain ⟨⟨nvic', uc', dispatched⟩, hattempt, h⟩ := Option.bind_eq_some_iff.mp h
    cases h
    obtain ⟨nvic₁, hsystick, hattempt⟩ := runPendingInterrupts_cases hattempt
    exact .attempt hsystick hattempt
  | enterSvcall =>
    obtain ⟨⟨nvic', uc', frame⟩, hentry, h⟩ := Option.bind_eq_some_iff.mp h
    cases h
    rw [runInterrupt_nvic hentry]
    exact .enterSvcall
  | returnFromInterrupt =>
    obtain ⟨⟨nvic', uc', frame⟩, hreturn, h⟩ := Option.bind_eq_some_iff.mp h
    cases h
    rw [returnFromInterrupt_nvic hreturn]
    exact .returnFromInterrupt

/-- Carrying out actions is a run, guarded by any condition that their labels meet. -/
lemma guardedRun_of_execAll {vectorTableAddr : U32} (ok : Core U → ExceptionLabel U → Prop)
    {s s' : Core U} {actions : List (ExceptionAction U)} {history : List (ExceptionLabel U)}
    (h : execAll vectorTableAddr s actions = some (history, s'))
    (hok : ∀ s label, label.1 ∈ actions → ok s label) :
    Run (guardedStep ok (coreStep vectorTableAddr)) s history s' := by
  induction actions generalizing s history with
  | nil =>
    cases h
    exact Run.nil
  | cons action actions ih =>
    obtain ⟨⟨s₁, outcome⟩, hstep, h⟩ := Option.bind_eq_some_iff.mp h
    obtain ⟨⟨history₁, s₂⟩, hexec, h⟩ := Option.bind_eq_some_iff.mp h
    cases h
    have hrun := ih hexec fun s label hlabel => hok s label (List.mem_cons_of_mem _ hlabel)
    exact (Run.single ⟨hok s (action, outcome) List.mem_cons_self, hstep⟩).append hrun

/-- Carrying out actions is a run. -/
lemma run_of_execAll {vectorTableAddr : U32} {s s' : Core U} {actions : List (ExceptionAction U)}
    {history : List (ExceptionLabel U)}
    (h : execAll vectorTableAddr s actions = some (history, s')) :
    Run (coreStep vectorTableAddr) s history s' :=
  (guardedRun_of_execAll (fun _ _ => True) h fun _ _ _ => trivial).mono fun _ _ _ hstep => hstep.2

/-! ## The hooks are runs of the machine -/

/-- Attempting to dispatch is a step. -/
lemma coreStep_runPendingInterrupts {vectorTableAddr : U32} {s : Core U} {nvic' : Nvic} {uc' : U}
    {dispatched : Option ℤ}
    (h : s.nvic.runPendingInterrupts s.uc s.numInstructions vectorTableAddr
      = some (nvic', uc', dispatched)) :
    coreStep vectorTableAddr s
      (.runPendingInterrupts, ⟨s.nvic.systickDue s.numInstructions, dispatched⟩)
      { s with nvic := nvic', uc := uc' } := by
  simp [coreStep, execAction, h]

/-- The actions of the interrupt hook. -/
def hookActions (pc : U32) (exception : ℕ) : List (ExceptionAction U) :=
  if exception = 8 ∨ exception = 3 ∧ isExceptionReturnPc pc = true then
    [.returnFromInterrupt, .runPendingInterrupts]
  else if exception = 2 then
    [.enterSvcall]
  else
    []

/-- The interrupt hook is a run of the machine: a return and an attempt, a supervisor call, or
nothing. -/
theorem intrHook_run {vectorTableAddr : U32} {s : Core U} {exception : ℕ} {nvic' : Nvic} {uc' : U}
    (h : intrHook s.nvic s.uc s.numInstructions vectorTableAddr exception = some (nvic', uc')) :
    ∃ labels : List (ExceptionLabel U),
      labels.map Prod.fst = hookActions (regRead s.uc .pc) exception ∧
        Run (coreStep vectorTableAddr) s labels { s with nvic := nvic', uc := uc' } := by
  have hreturn : ∀ {nvic' : Nvic} {uc' : U},
      (do
        let (nvic, uc, _) ← s.nvic.returnFromInterrupt s.uc
        let (nvic, uc, _) ← nvic.runPendingInterrupts uc s.numInstructions vectorTableAddr
        some (nvic, uc)) = some (nvic', uc') →
      ∃ labels : List (ExceptionLabel U),
        labels.map Prod.fst = [.returnFromInterrupt, .runPendingInterrupts] ∧
          Run (coreStep vectorTableAddr) s labels { s with nvic := nvic', uc := uc' } := by
    intro nvic' uc' h
    obtain ⟨⟨nvic₁, uc₁, frame⟩, hret, h⟩ := Option.bind_eq_some_iff.mp h
    obtain ⟨⟨nvic₂, uc₂, dispatched⟩, hattempt, h⟩ := Option.bind_eq_some_iff.mp h
    cases h
    have hstep : coreStep vectorTableAddr s (.returnFromInterrupt, .quiet)
        { s with nvic := nvic₁, uc := uc₁ } := by
      simp [coreStep, execAction, hret]
    exact ⟨_, rfl, (Run.single hstep).snoc (coreStep_runPendingInterrupts
      (s := { s with nvic := nvic₁, uc := uc₁ }) hattempt)⟩
  unfold intrHook at h
  unfold hookActions
  split at h
  · simpa using hreturn h
  · obtain ⟨⟨nvic₁, uc₁, frame⟩, hentry, h⟩ := Option.bind_eq_some_iff.mp h
    cases h
    have hstep : coreStep vectorTableAddr s (.enterSvcall, .quiet)
        { s with nvic := nvic', uc := uc' } := by
      simp [coreStep, execAction, hentry]
    exact ⟨[(.enterSvcall, .quiet)], rfl, Run.single hstep⟩
  · split at h
    · next hpc => simpa [hpc] using hreturn h
    · next hpc =>
      cases h
      exact ⟨[], by simp [hpc], Run.nil⟩
  · cases h

/-- The interrupt part of the block hook, which runs before a translated block of `size` bytes.  The
counter advances by the block's halfwords, and an attempt is made once `interruptPeriod` has passed
since the last one.  The second component is the time of the last attempt. -/
def blockHook (s : Core U) (lastInterruptCheck interruptPeriod size : ℕ) (vectorTableAddr : U32) :
    Option (Core U × ℕ) :=
  let n := s.numInstructions
  let s := { s with numInstructions := n + (size + 1) / 2 }
  if interruptPeriod ≤ n - lastInterruptCheck then do
    let (nvic, uc, _) ← s.nvic.runPendingInterrupts s.uc s.numInstructions vectorTableAddr
    some ({ s with nvic := nvic, uc := uc }, n)
  else
    some (s, lastInterruptCheck)

/-- The block hook is a run of the machine: time passes, and there may be an attempt. -/
theorem blockHook_run {vectorTableAddr : U32} {s s' : Core U}
    {lastInterruptCheck lastInterruptCheck' interruptPeriod size : ℕ}
    (h : blockHook s lastInterruptCheck interruptPeriod size vectorTableAddr
      = some (s', lastInterruptCheck')) :
    ∃ labels : List (ExceptionLabel U), Run (coreStep vectorTableAddr) s labels s' ∧
      ∀ label ∈ labels, label.1 = .execute s.uc ((size + 1) / 2) ∨
        label.1 = .runPendingInterrupts := by
  have htime : coreStep vectorTableAddr s (.execute s.uc ((size + 1) / 2), .quiet)
      { s with numInstructions := s.numInstructions + (size + 1) / 2 } := rfl
  unfold blockHook at h
  dsimp only at h
  split at h
  · obtain ⟨⟨nvic', uc', dispatched⟩, hattempt, h⟩ := Option.bind_eq_some_iff.mp h
    cases h
    refine ⟨_, (Run.single htime).snoc (coreStep_runPendingInterrupts
      (s := { s with numInstructions := s.numInstructions + (size + 1) / 2 }) hattempt), ?_⟩
    simp
  · cases h
    exact ⟨_, Run.single htime, by simp⟩

/-! ## A sample -/

/-- Interrupts 7 and 8 are enabled, and 7 is pended and dispatched. -/
def sampleDispatch : List (ExceptionAction RegisterFile) :=
  [.write 0x100 0x180, .setIntrPending 7, .runPendingInterrupts]

/-- The machine at reset, with a sample CPU. -/
def sampleCore : Core RegisterFile := ⟨Nvic.default, sampleCpu 0, 0⟩

end Stm32Emulator
