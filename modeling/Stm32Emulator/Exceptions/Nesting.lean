import Stm32Emulator.Exceptions.Machine
import Stm32Emulator.Peripherals.Scb

/-!
# Nesting

The controller keeps one cell for the active exception, so it can follow one exception at a time.
The ghost quantity of this file is the stack of exceptions that were entered and not yet returned
from, a function of the history (`activeExceptions`).  As long as no supervisor call is made from
inside a handler, this stack has at most one element and the cell is its top: `never_nests`.
-/

namespace Stm32Emulator

variable {U : Type} [UnicornEngine U]

/-- The exception number of an interrupt. -/
def exceptionNumber (irq : ℤ) : U32 := BitVec.ofInt 32 (irqOffset + irq)

/-- One label's effect on the stack of active exceptions. -/
def recordActive (active : List U32) : ExceptionLabel U → List U32
  | (.enterSvcall, _) => exceptionNumber Irq.svcall :: active
  | (.returnFromInterrupt, _) => active.tail
  | (.runPendingInterrupts, ⟨_, some irq⟩) => exceptionNumber irq :: active
  | _ => active

/-- The exceptions entered and not yet returned from, innermost first. -/
def activeExceptions (history : List (ExceptionLabel U)) : List U32 :=
  history.foldl recordActive []

/-- The controller and `ICSR` tell the truth about the stack of active exceptions. -/
structure TracksActive (active : List U32) (nvic : Nvic) : Prop where
  /-- The active exception is the innermost one, and zero iff there is none. -/
  number : nvic.activeExceptionNumber = active.headD 0#32
  eq_zero_iff : nvic.activeExceptionNumber = 0#32 ↔ active = []
  /-- So is `VECTACTIVE`, ... -/
  vectactive : Scb.vectactive (Scb.readIcsr nvic) = active.headD 0#32
  /-- ... and `RETTOBASE` is set exactly when no outer exception is active. -/
  rettobase : Scb.readIcsr nvic &&& Scb.icsrRettobase ≠ 0#32 ↔ active.length ≤ 1

/-- A supervisor call is only made while no handler runs. -/
def SvcFromThread (s : Core U) (label : ExceptionLabel U) : Prop :=
  label.1 = .enterSvcall → s.nvic.inInterrupt = false

/-! ## The invariant -/

/-- The invariant: at most one exception is active, and the two cells of the controller say which.
Bit zero of the pending word, which is no exception, stays clear. -/
structure NestingInvariant (active : List U32) (nvic : Nvic) : Prop where
  length_le : active.length ≤ 1
  running : nvic.inInterrupt = true ↔ active ≠ []
  number : nvic.activeExceptionNumber = active.headD 0#32
  /-- Exception numbers are not zero and fit `VECTACTIVE`. -/
  range : ∀ e ∈ active, e ≠ 0#32 ∧ e &&& ~~~0x1ff#32 = 0#32
  bit_zero : nvic.isPending (-16) = false

lemma NestingInvariant.reset : NestingInvariant [] Nvic.default where
  length_le := by simp
  running := by simp [Nvic.default]
  number := rfl
  range := by simp
  bit_zero := by decide

/-- The exception number of an interrupt that can be pending. -/
lemma exceptionNumber_range {irq : ℤ} (hlo : -16 < irq) (hhi : irq < 112) :
    exceptionNumber irq ≠ 0#32 ∧ exceptionNumber irq &&& ~~~0x1ff#32 = 0#32 := by
  have hnum : exceptionNumber irq = BitVec.ofNat 32 (irqOffset + irq).toNat := by
    unfold exceptionNumber irqOffset
    apply BitVec.eq_of_toNat_eq
    rw [BitVec.toNat_ofInt, BitVec.toNat_ofNat]
    omega
  have hall : ∀ n, n < 128 → 0 < n →
      BitVec.ofNat 32 n ≠ 0#32 ∧ BitVec.ofNat 32 n &&& ~~~0x1ff#32 = 0#32 := by decide
  rw [hnum]
  unfold irqOffset
  exact hall _ (by omega) (by omega)

/-- Updates of the pending word, of the enable word and of the times keep the invariant. -/
lemma NestingInvariant.congr {active : List U32} {nvic nvic' : Nvic}
    (h : NestingInvariant active nvic) (hrunning : nvic'.inInterrupt = nvic.inInterrupt)
    (hnumber : nvic'.activeExceptionNumber = nvic.activeExceptionNumber)
    (hbit : nvic'.isPending (-16) = nvic.isPending (-16)) : NestingInvariant active nvic' where
  length_le := h.length_le
  running := by rw [hrunning, h.running]
  number := by rw [hnumber, h.number]
  range := h.range
  bit_zero := by rw [hbit, h.bit_zero]

/-- The `SysTick` check keeps the invariant. -/
lemma NestingInvariant.maybeSetSystickIntrPending {active : List U32} {nvic nvic' : Nvic} {n : ℕ}
    (hinv : NestingInvariant active nvic) (h : nvic.maybeSetSystickIntrPending n = some nvic') :
    NestingInvariant active nvic' := by
  have hframe := Nvic.maybeSetSystickIntrPending_frame h
  refine hinv.congr (by rw [hframe]) (by rw [hframe]) ?_
  rw [Nvic.isPending_maybeSetSystickIntrPending h]
  simp [Irq.systick]

/-- Entering an exception while none is active keeps the invariant. -/
lemma NestingInvariant.enter {active : List U32} {nvic : Nvic} {irq : ℤ}
    (hinv : NestingInvariant active nvic) (hidle : nvic.inInterrupt = false) (hlo : -16 < irq)
    (hhi : irq < 112) :
    active = [] ∧ NestingInvariant (exceptionNumber irq :: active) { nvic with
      inInterrupt := true
      activeExceptionNumber := exceptionNumber irq } := by
  have hnil : active = [] := by
    by_contra hne
    rw [hinv.running.mpr hne] at hidle
    cases hidle
  subst hnil
  refine ⟨rfl, by simp, by simp, rfl, ?_, hinv.bit_zero⟩
  intro e he
  rw [List.mem_singleton] at he
  subst he
  exact exceptionNumber_range hlo hhi

/-- Returning keeps the invariant. -/
lemma NestingInvariant.leave {active : List U32} {nvic : Nvic}
    (hinv : NestingInvariant active nvic) :
    NestingInvariant active.tail
      { nvic with inInterrupt := false, activeExceptionNumber := 0#32 } := by
  have hnil : active.tail = [] := by
    apply List.eq_nil_of_length_eq_zero
    have := hinv.length_le
    rw [List.length_tail]
    omega
  rw [hnil]
  exact ⟨by simp, by simp, rfl, by simp, hinv.bit_zero⟩

/-- What an attempt that dispatches does: nothing was active, and the interrupt is entered. -/
lemma NestingInvariant.attempt {active : List U32} {nvic₁ nvic' : Nvic} {uc uc' : U}
    {vectorTableAddr : U32} {dispatched : Option ℤ} (hinv : NestingInvariant active nvic₁)
    (h : Attempt nvic₁ uc vectorTableAddr nvic' uc' dispatched) :
    (dispatched = none ∧ NestingInvariant active nvic') ∨
      ∃ irq, dispatched = some irq ∧ active = [] ∧
        NestingInvariant (exceptionNumber irq :: active) nvic' := by
  cases h with
  | idle _ => exact Or.inl ⟨rfl, hinv⟩
  | @dispatch irq nvic₂ _ _ frame hopen hfind hentry =>
    obtain ⟨hd, -, rfl⟩ := Nvic.getAndClearNextDispatchable_eq_some_iff.mp hfind
    obtain ⟨hlo, hhi⟩ := Nvic.lt_of_isPending hd.1
    have hne : irq ≠ -16 := by
      rintro rfl
      exact absurd hd.1 (by rw [hinv.bit_zero]; decide)
    have hidle : nvic₁.inInterrupt = false := by
      cases hrunning : nvic₁.inInterrupt
      · rfl
      · exact absurd (Or.inl hrunning) hopen
    have hcleared : NestingInvariant active { nvic₁ with
        pending := nvic₁.pending &&& ~~~(1#128 <<< (irqOffset + irq).toNat) } := by
      refine hinv.congr rfl rfl ?_
      have hbit : (irqOffset + irq).toNat < 128 := by unfold irqOffset; omega
      rw [Nvic.isPending_clear nvic₁ hbit, hinv.bit_zero]
      rfl
    obtain ⟨hnil, hentered⟩ := hcleared.enter hidle (by omega) hhi
    refine Or.inr ⟨irq, rfl, hnil, ?_⟩
    rw [runInterrupt_nvic hentry]
    exact hentered

/-- **Step lemma.**  A step that is no supervisor call from inside a handler keeps the invariant,
and if it dispatches an interrupt, no exception was active. -/
theorem NestingInvariant.step {vectorTableAddr : U32} {s s' : Core U} {label : ExceptionLabel U}
    {active : List U32} (hinv : NestingInvariant active s.nvic)
    (hsvc : SvcFromThread s label) (h : coreStep vectorTableAddr s label s') :
    NestingInvariant (recordActive active label) s'.nvic ∧
      (label.2.dispatched ≠ none → active = []) := by
  cases coreStep_effect h with
  | execute uc instructions => exact ⟨hinv, fun hd => absurd rfl hd⟩
  | setIntrPending hpend =>
    refine ⟨?_, fun hd => absurd rfl hd⟩
    have hframe := Nvic.setIntrPending_frame hpend
    have hrange := (Nvic.setIntrPending_eq_some_iff.mp hpend).1.1
    refine hinv.congr (by rw [hframe]) (by rw [hframe]) ?_
    rw [Nvic.isPending_setIntrPending hpend]
    unfold irqOffset at hrange
    rw [decide_eq_false (by omega), Bool.or_false]
  | write hwrite =>
    refine ⟨?_, fun hd => absurd rfl hd⟩
    have hframe := Nvic.write_frame hwrite
    exact hinv.congr (by rw [hframe]) (by rw [hframe]) (by rw [hframe]; rfl)
  | setSystickPeriod period =>
    exact ⟨hinv.congr rfl rfl rfl, fun hd => absurd rfl hd⟩
  | attempt hsystick hattempt =>
    rcases (hinv.maybeSetSystickIntrPending hsystick).attempt hattempt with
      ⟨rfl, hinv'⟩ | ⟨irq, rfl, hnil, hinv'⟩
    · exact ⟨hinv', fun hd => absurd rfl hd⟩
    · exact ⟨hinv', fun _ => hnil⟩
  | enterSvcall =>
    exact ⟨(hinv.enter (hsvc rfl) (by decide) (by decide)).2, fun hd => absurd rfl hd⟩
  | returnFromInterrupt => exact ⟨hinv.leave, fun hd => absurd rfl hd⟩

/-- Under the invariant the controller tells the truth. -/
lemma NestingInvariant.tracksActive {active : List U32} {nvic : Nvic}
    (hinv : NestingInvariant active nvic) : TracksActive active nvic := by
  have hbits : nvic.activeExceptionNumber &&& ~~~0x1ff#32 = 0#32 := by
    rw [hinv.number]
    cases active with
    | nil => decide
    | cons e active => exact (hinv.range e List.mem_cons_self).2
  refine ⟨hinv.number, ?_, ?_, ?_⟩
  · rw [hinv.number]
    cases active with
    | nil => simp
    | cons e active =>
      have := (hinv.range e List.mem_cons_self).1
      simpa using this
  · rw [Scb.vectactive_readIcsr hbits, hinv.number]
  · rw [Scb.readIcsr_rettobase]
    exact ⟨fun _ => hinv.length_le, fun _ => by decide⟩

/-- **No nesting.**  In every run from reset in which supervisor calls are only made while no
handler runs, the controller tells the truth about the active exceptions in every state reached, and
a step from there dispatches an interrupt only if no exception is active. -/
theorem never_nests {vectorTableAddr : U32} {s s' : Core U} {history : List (ExceptionLabel U)}
    (hreset : s.nvic = Nvic.default)
    (hrun : Run (guardedStep SvcFromThread (coreStep vectorTableAddr)) s history s') :
    TracksActive (activeExceptions history) s'.nvic ∧
      ∀ label s'', coreStep vectorTableAddr s' label s'' → label.2.dispatched ≠ none →
        activeExceptions history = [] := by
  have hinv : NestingInvariant (activeExceptions history) s'.nvic := by
    refine hrun.invariant (I := fun history s => NestingInvariant (activeExceptions history) s.nvic)
      ?_ ?_
    · rw [hreset]
      exact NestingInvariant.reset
    · rintro history s s' label hinv ⟨hsvc, hstep⟩
      unfold activeExceptions
      rw [List.foldl_append]
      exact (hinv.step hsvc hstep).1
  refine ⟨hinv.tracksActive, fun label s'' hstep hdispatched => ?_⟩
  by_cases hsvc : label.1 = .enterSvcall
  · cases coreStep_effect hstep <;> first | exact absurd rfl hdispatched | cases hsvc
  · exact (hinv.step (fun h => absurd h hsvc) hstep).2 hdispatched

/-- While the handler of interrupt 7 runs, exception 23 is active. -/
theorem never_nests_sample :
    ∃ history s', Run (guardedStep SvcFromThread (coreStep 0)) sampleCore history s' ∧
      activeExceptions history = [23#32] ∧ TracksActive (activeExceptions history) s'.nvic := by
  have hexec : (execAll 0 sampleCore sampleDispatch).map (fun r => activeExceptions r.1)
      = some [23#32] := by
    decide +kernel
  obtain ⟨⟨history, s'⟩, hexec, hactive⟩ := Option.map_eq_some_iff.mp hexec
  have hrun : Run (guardedStep SvcFromThread (coreStep 0)) sampleCore history s' :=
    guardedRun_of_execAll SvcFromThread hexec fun s label hlabel hsvc => by
      simp [sampleDispatch, hsvc] at hlabel
  exact ⟨history, s', hrun, hactive, (never_nests rfl hrun).1⟩

/-- The handler of interrupt 7 makes a supervisor call and returns from it.  Its exception is then
no longer known to be active, and interrupt 8 is dispatched on top of it. -/
theorem svc_in_handler_nests :
    ∃ history s', Run (coreStep 0) sampleCore history s' ∧
      activeExceptions history = [23#32] ∧ s'.nvic.activeExceptionNumber = 0#32 ∧
      ¬ TracksActive (activeExceptions history) s'.nvic ∧
      ∃ label s'', coreStep 0 s' label s'' ∧ label.2.dispatched = some 8 := by
  have hexec : (execAll 0 sampleCore (sampleDispatch ++
      [.enterSvcall, .returnFromInterrupt, .setIntrPending 8])).map
        (fun r => (activeExceptions r.1, r.2.nvic.activeExceptionNumber,
          (execAction 0 r.2 .runPendingInterrupts).map fun r => r.2.dispatched))
      = some ([23#32], 0#32, some (some 8)) := by
    decide +kernel
  obtain ⟨⟨history, s'⟩, hexec, hvalues⟩ := Option.map_eq_some_iff.mp hexec
  simp only [Prod.mk.injEq] at hvalues
  obtain ⟨hactive, hnumber, hattempt⟩ := hvalues
  obtain ⟨⟨s'', outcome⟩, hstep, hdispatched⟩ := Option.map_eq_some_iff.mp hattempt
  refine ⟨history, s', run_of_execAll hexec, hactive, hnumber, ?_, (.runPendingInterrupts, outcome),
    s'', hstep, hdispatched⟩
  intro htracks
  rw [hactive] at htracks
  have := htracks.eq_zero_iff.mp hnumber
  cases this

end Stm32Emulator
