import Stm32Emulator.Foundation.Multiples
import Stm32Emulator.Foundation.Run
import Stm32Emulator.Peripherals.Timers

/-!
# The update phase of TIM6

The updates of TIM6 should come at the whole multiples of its period after the timer was enabled,
and its counter should count from there, whenever the timer is polled.  A poll that finds an update
due takes its own time as the start of the next period: the phase is kept as long as these polls
come at whole multiples themselves, and is lost with the first that does not.
-/

namespace Stm32Emulator

/-! ## The timer and its clock -/

/-- The timer, the interrupt controller and the number of executed instructions. -/
structure Tim6State where
  tim : Tim6
  nvic : Nvic
  now : ℕ

/-- Polls, register accesses, the passing of time, and what others do to the interrupt
controller. -/
inductive Tim6Action where
  | poll
  | read (offset : U32)
  | write (offset value : U32)
  | advance (instructions : ℕ)
  | outside (nvic : Nvic)

def tim6Step (s : Tim6State) : Tim6Action → Option Tim6State
  | .poll => (s.tim.poll s.nvic s.now).map fun r => { s with tim := r.1, nvic := r.2 }
  | .read _ => some s
  | .write offset value => some { s with tim := s.tim.write s.now offset value }
  | .advance instructions => some { s with now := s.now + instructions }
  | .outside nvic => some { s with nvic := nvic }

/-- The ghost is the clock of the last poll, or that at the start. -/
def phaseStep : Tim6State × ℕ → Tim6Action → Option (Tim6State × ℕ) :=
  withGhost tim6Step fun lastPoll s a => match a with
    | .poll => s.now
    | _ => lastPoll

/-- Firmware leaves the setup of the timer alone. -/
def KeepsSetup : Tim6Action → Prop
  | .write offset _ => offset ∉ [0x00, 0x14, 0x24, 0x28, 0x2c]
  | _ => True

instance (a : Tim6Action) : Decidable (KeepsSetup a) := by
  cases a <;> unfold KeepsSetup <;> infer_instance

namespace Tim6

variable {tim tim' : Tim6} {nvic nvic' : Nvic} {now : ℕ}

/-- The instructions of one count, and those of one period. -/
def countInstructions (tim : Tim6) : ℕ := 2 * (tim.psc.toNat + 1)
def period (tim : Tim6) : ℕ := tim.countInstructions * (tim.arr.toNat + 1)

/-- A poll finds an update due. -/
def UpdateDue (tim : Tim6) (now : ℕ) : Prop :=
  tim.enabled = true ∧ periodInstructions tim.psc tim.arr ≤ now - tim.enabledAt

instance (tim : Tim6) (now : ℕ) : Decidable (tim.UpdateDue now) :=
  inferInstanceAs (Decidable (_ ∧ _))

def uif (tim : Tim6) : Bool := tim.sr &&& srUif != 0#32

/-- A poll sets the update flag, which firmware has cleared before. -/
def SetsUif (tim : Tim6) (nvic : Nvic) (now : ℕ) : Prop :=
  ∃ tim' nvic', (tim.write now 0x10 0).poll nvic now = some (tim', nvic') ∧ tim'.uif = true

end Tim6

/-- The counter and the updates from now on, in a timer that was enabled in `s₀`: the counter
divides the clock since then, and a poll sets the flag exactly when a multiple of the period has
passed since the last poll. -/
structure PhaseKept (s₀ : Tim6State) (p : Tim6State × ℕ) : Prop where
  counter_eq : ∀ t, p.1.now ≤ t → p.1.tim.counter t =
    BitVec.ofNat 32 ((t - s₀.now) / s₀.tim.countInstructions % (s₀.tim.arr.toNat + 1))
  update_iff : ∀ t, p.1.now ≤ t →
    (p.1.tim.SetsUif p.1.nvic t ↔
      ∃ k, p.2 < s₀.now + k * s₀.tim.period ∧ s₀.now + k * s₀.tim.period ≤ t)

/-- A poll that finds an update due comes at a whole multiple of the period. -/
def OnPhase (s₀ : Tim6State) (p : Tim6State × ℕ) : Tim6Action → Prop
  | .poll => p.1.tim.UpdateDue p.1.now → s₀.tim.period ∣ p.1.now - s₀.now
  | _ => True

instance (s₀ : Tim6State) (p : Tim6State × ℕ) (a : Tim6Action) : Decidable (OnPhase s₀ p a) := by
  cases a <;> unfold OnPhase <;> infer_instance

/-! ## What a poll does -/

namespace Tim6

variable {tim tim' : Tim6} {nvic nvic' : Nvic} {now t : ℕ}

lemma period_pos (tim : Tim6) : 0 < tim.period := by
  unfold period countInstructions
  positivity

/-- A prescaler of sixteen bits saturates nothing. -/
lemma periodInstructions_eq (tim : Tim6) : periodInstructions tim.psc tim.arr = tim.period := by
  have hpsc : tim.psc.toNat < 2 ^ 16 := by
    rw [← tim.psc_bits, BitVec.toNat_and]
    exact Nat.and_lt_two_pow _ (by decide)
  have harr : tim.arr.toNat + 1 ≤ 2 ^ 32 := tim.arr.isLt
  have hcount : 2 * (tim.psc.toNat + 1) ≤ 2 ^ 17 := by omega
  have hperiod : 2 * (tim.psc.toNat + 1) * (tim.arr.toNat + 1) ≤ 2 ^ 17 * 2 ^ 32 :=
    Nat.mul_le_mul hcount harr
  have hpos := tim.period_pos
  unfold period countInstructions at hpos ⊢
  have hinner : saturatingMul 2 (tim.psc.toNat + 1) = 2 * (tim.psc.toNat + 1) :=
    min_eq_left (by omega)
  unfold periodInstructions
  rw [hinner, saturatingMul, min_eq_left (by omega), max_eq_left (by omega)]

lemma updateDue_iff (henabled : tim.enabled = true) :
    tim.UpdateDue t ↔ tim.period ≤ t - tim.enabledAt := by
  unfold UpdateDue
  rw [periodInstructions_eq]
  exact and_iff_right henabled

/-- What a poll does to the timer. -/
lemma poll_eq_some (h : tim.poll nvic now = some (tim', nvic')) :
    tim' = if tim.UpdateDue now then { tim with sr := tim.sr ||| srUif, enabledAt := now }
    else tim := by
  obtain ⟨nvic'', -, heq⟩ := Option.map_eq_some_iff.mp h
  exact (Prod.mk.inj heq).1.symm

/-- A poll never fails. -/
lemma exists_poll (tim : Tim6) (nvic : Nvic) (now : ℕ) :
    ∃ tim' nvic', tim.poll nvic now = some (tim', nvic') := by
  have hirq : -15 ≤ tim6DacIrq ∧ tim6DacIrq ≤ 111 := by decide
  unfold poll
  exact ⟨_, nvic.exists_map_setIntrPending hirq _ _⟩

/-- With the flag clear a poll sets it exactly when an update is due. -/
lemma setsUif_iff (henabled : tim.enabled = true) (nvic : Nvic) (t : ℕ) :
    tim.SetsUif nvic t ↔ tim.period ≤ t - tim.enabledAt := by
  have hclear : tim.write t 0x10 0 = { tim with sr := tim.sr &&& 0 } := rfl
  have hdue : (tim.write t 0x10 0).UpdateDue t ↔ tim.period ≤ t - tim.enabledAt := by
    rw [hclear]
    exact updateDue_iff henabled
  rw [← hdue]
  unfold SetsUif
  constructor
  · rintro ⟨tim', nvic', hpoll, hset⟩
    by_contra hnot
    rw [poll_eq_some hpoll, if_neg hnot, hclear] at hset
    simp [uif] at hset
  · intro h
    obtain ⟨tim', nvic', hpoll⟩ := exists_poll (tim.write t 0x10 0) nvic t
    refine ⟨tim', nvic', hpoll, ?_⟩
    rw [poll_eq_some hpoll, if_pos h, hclear]
    simp [uif, srUif]

end Tim6

/-! ## The phase -/

/-- The timer is set up as in `s₀`, its period has started at the last multiple, and the last poll
was in this period. -/
structure InPhase (s₀ : Tim6State) (p : Tim6State × ℕ) : Prop where
  enabled : p.1.tim.enabled = true
  psc_eq : p.1.tim.psc = s₀.tim.psc
  arr_eq : p.1.tim.arr = s₀.tim.arr
  start : ∃ m, p.1.tim.enabledAt = s₀.now + m * s₀.tim.period
  start_le : p.1.tim.enabledAt ≤ p.2
  lt_next : p.2 < p.1.tim.enabledAt + s₀.tim.period
  poll_le : p.2 ≤ p.1.now

namespace InPhase

variable {s₀ : Tim6State} {p p' : Tim6State × ℕ} {a : Tim6Action}

lemma period_eq (h : InPhase s₀ p) : p.1.tim.period = s₀.tim.period := by
  unfold Tim6.period Tim6.countInstructions
  rw [h.psc_eq, h.arr_eq]

/-- In phase the counter and the updates are those of the clock. -/
lemma kept (h : InPhase s₀ p) : PhaseKept s₀ p := by
  obtain ⟨m, hm⟩ := h.start
  have hpos := s₀.tim.period_pos
  have hle := h.start_le.trans h.poll_le
  constructor
  · intro t ht
    have hsplit : t - s₀.now = (t - p.1.tim.enabledAt)
        + s₀.tim.countInstructions * ((s₀.tim.arr.toNat + 1) * m) := by
      rw [← Nat.mul_assoc, ← Tim6.period, Nat.mul_comm]
      omega
    unfold Tim6.counter
    rw [h.enabled, Bool.not_true, if_neg Bool.false_ne_true, h.psc_eq, h.arr_eq, hsplit,
      Nat.add_mul_div_left _ _ (by unfold Tim6.countInstructions; omega), Nat.add_mul_mod_self_left]
    rfl
  · intro t ht
    rw [Tim6.setsUif_iff h.enabled, h.period_eq]
    constructor
    · intro hdue
      have hlt := h.lt_next
      refine ⟨m + 1, ?_, ?_⟩
      · rw [Nat.add_mul, Nat.one_mul]
        omega
      · rw [Nat.add_mul, Nat.one_mul]
        omega
    · rintro ⟨k, hafter, hle'⟩
      have hk : m + 1 ≤ k := by
        have hlt : m * s₀.tim.period < k * s₀.tim.period := by
          have := h.start_le
          omega
        exact Nat.lt_of_mul_lt_mul_right hlt
      have hmul := Nat.mul_le_mul_right s₀.tim.period hk
      rw [Nat.add_mul, Nat.one_mul] at hmul
      omega

/-- A poll on phase restarts the period at a multiple. -/
lemma poll {s : Tim6State} {lastPoll : ℕ} (h : InPhase s₀ (s, lastPoll))
    (hon : OnPhase s₀ (s, lastPoll) .poll) {tim' : Tim6} {nvic' : Nvic}
    (hpoll : s.tim.poll s.nvic s.now = some (tim', nvic')) :
    InPhase s₀ ({ s with tim := tim', nvic := nvic' }, s.now) := by
  have hle := h.start_le.trans h.poll_le
  have hpos := s₀.tim.period_pos
  rw [Tim6.poll_eq_some hpoll]
  by_cases hdue : s.tim.UpdateDue s.now
  · rw [if_pos hdue]
    obtain ⟨m, hm⟩ := h.start
    obtain ⟨k, hk⟩ := hon hdue
    refine ⟨h.enabled, h.psc_eq, h.arr_eq, ⟨k, ?_⟩, le_refl _, ?_, le_refl _⟩
    · dsimp only at hk hm hle ⊢
      rw [Nat.mul_comm, ← hk]
      omega
    · dsimp only
      omega
  · rw [if_neg hdue]
    rw [Tim6.updateDue_iff h.enabled, h.period_eq] at hdue
    refine ⟨h.enabled, h.psc_eq, h.arr_eq, h.start, hle, ?_, le_refl _⟩
    dsimp only at hdue hle ⊢
    omega

/-- **One action** on phase keeps the phase. -/
lemma step (h : InPhase s₀ p) (hkeeps : KeepsSetup a) (hon : OnPhase s₀ p a)
    (hstep : phaseStep p a = some p') : InPhase s₀ p' := by
  rcases p with ⟨s, lastPoll⟩
  rcases p' with ⟨s', lastPoll'⟩
  obtain ⟨htim, rfl⟩ := withGhost_eq_some.mp hstep
  dsimp only at htim
  cases a with
  | poll =>
    obtain ⟨⟨tim', nvic'⟩, hpoll, rfl⟩ := Option.map_eq_some_iff.mp htim
    exact h.poll hon hpoll
  | read offset =>
    obtain rfl := Option.some.inj htim
    exact h
  | outside nvic =>
    obtain rfl := Option.some.inj htim
    exact { h with }
  | advance instructions =>
    obtain rfl := Option.some.inj htim
    exact { h with poll_le := h.poll_le.trans (Nat.le_add_right _ _) }
  | write offset value =>
    obtain rfl := Option.some.inj htim
    simp only [KeepsSetup, List.mem_cons, List.not_mem_nil, or_false, not_or] at hkeeps
    obtain ⟨hcr1, hegr, hcnt, hpsc, harr⟩ := hkeeps
    unfold Tim6.write
    rw [if_neg hcr1, if_neg hegr, if_neg hcnt, if_neg hpsc, if_neg harr]
    split
    · exact { h with }
    · split
      · exact { h with }
      · split
        · exact { h with }
        · exact h

/-- A poll off phase finds nothing due at the next multiple. -/
lemma onPhase_of_kept (h : InPhase s₀ p) (hstep : phaseStep p a = some p')
    (hkept : PhaseKept s₀ p') :
    OnPhase s₀ p a := by
  rcases p with ⟨s, lastPoll⟩
  rcases p' with ⟨s', lastPoll'⟩
  cases a with
  | poll =>
    intro hdue
    by_contra hoff
    obtain ⟨htim, rfl⟩ := withGhost_eq_some.mp hstep
    obtain ⟨⟨tim', nvic'⟩, hpoll, rfl⟩ := Option.map_eq_some_iff.mp htim
    have hafter := Tim6.poll_eq_some hpoll
    rw [if_pos hdue] at hafter
    have hle : s₀.now ≤ s.now := by
      obtain ⟨m, hm⟩ := h.start
      have := h.start_le.trans h.poll_le
      dsimp only at hm this
      omega
    obtain ⟨k, ahead, hnext, hpos, hlt⟩ := exists_multiple_ahead s₀.tim.period_pos hoff
    have hset := (hkept.update_iff (s.now + ahead) (by dsimp only; omega)).mpr
      ⟨k, by dsimp only at hnext ⊢; omega, by dsimp only at hnext; omega⟩
    dsimp only at hset
    have hperiod : tim'.period = s₀.tim.period := by
      rw [hafter, ← h.period_eq]
      rfl
    rw [Tim6.setsUif_iff (by rw [hafter]; exact h.enabled), hperiod, hafter] at hset
    dsimp only at hset
    omega
  | read offset => trivial
  | outside nvic => trivial
  | advance instructions => trivial
  | write offset value => trivial

end InPhase

/-- **The phase of TIM6.**  In every run from the time at which the timer was enabled in which every
poll that finds an update due comes at a whole multiple of the period, the counter and the updates
are those of the clock, whatever the schedule of the polls; and after the next action they are
exactly when this poll, if it is one, does. -/
theorem tim6_phase_kept (s₀ : Tim6State) (henabled : s₀.tim.enabled = true)
    (hstart : s₀.tim.enabledAt = s₀.now) (as : List Tim6Action) (p : Tim6State × ℕ)
    (hrun : Run (guardedStep (fun p a => KeepsSetup a ∧ OnPhase s₀ p a) (stepRel phaseStep))
      (s₀, s₀.now) as p) :
    PhaseKept s₀ p ∧ ∀ a p', KeepsSetup a → phaseStep p a = some p' →
    (PhaseKept s₀ p' ↔ OnPhase s₀ p a) := by
  have hphase : InPhase s₀ p := by
    refine hrun.invariant_state (I := InPhase s₀)
      ⟨henabled, rfl, rfl, ⟨0, by rw [hstart, Nat.zero_mul, Nat.add_zero]⟩, hstart.le,
        ?_, le_refl _⟩ ?_
    · have hpos := s₀.tim.period_pos
      dsimp only
      omega
    · rintro q q' a hq ⟨⟨hkeeps, hon⟩, hstep⟩
      exact hq.step hkeeps hon hstep
  refine ⟨hphase.kept, fun a p' hkeeps hstep => ⟨hphase.onPhase_of_kept hstep, fun hon => ?_⟩⟩
  exact (hphase.step hkeeps hon hstep).kept

/-- The timer of the fast ADC, with ten thousand updates a second, just enabled. -/
def sampleTim6 : Tim6State := ⟨⟨1, 0, 0, 0, 1079, 9, 0, rfl⟩, Nvic.default, 0⟩

/-- A poll in the first period, and one at its end. -/
theorem tim6_phase_kept_sample :
    ∃ p, Run (guardedStep (fun p a => KeepsSetup a ∧ OnPhase sampleTim6 p a)
      (stepRel phaseStep)) (sampleTim6, 0) [.advance 4320, .poll, .advance 17280, .poll] p ∧
    p.1.tim.uif = true ∧ PhaseKept sampleTim6 p := by
  have hexec :
      (execGuarded (fun p a => KeepsSetup a ∧ OnPhase sampleTim6 p a) phaseStep (sampleTim6, 0)
      [.advance 4320, .poll, .advance 17280, .poll]).map (fun p => p.1.tim.uif) = some true := by
    decide +kernel
  obtain ⟨p, hexec, huif⟩ := Option.map_eq_some_iff.mp hexec
  have hrun := Run.of_execGuarded hexec
  exact ⟨p, hrun, huif, (tim6_phase_kept sampleTim6 rfl rfl _ p hrun).1⟩

/-- A poll a hundred instructions behind the update.  Two periods after the start the counter is not
at zero, as it is with a poll in time, and the second update is not there. -/
theorem late_poll_shifts_phase : ∃ p q,
    Run (stepRel phaseStep) (sampleTim6, 0) [.advance 21700, .poll, .advance 21500] p ∧
    Run (stepRel phaseStep) (sampleTim6, 0) [.advance 21600, .poll, .advance 21600] q ∧
    p.1.now = 43200 ∧ q.1.now = 43200 ∧ p.1.tim.counter 43200 = 9 ∧ q.1.tim.counter 43200 = 0 ∧
    ¬ p.1.tim.SetsUif p.1.nvic 43200 ∧ ¬ PhaseKept sampleTim6 p := by
  have hlate : (execGuarded (fun _ _ => True) phaseStep (sampleTim6, 0)
      [.advance 21700, .poll, .advance 21500]).map (fun p =>
        (p.1.now, p.2, p.1.tim.enabled, p.1.tim.enabledAt, p.1.tim.period, p.1.tim.counter 43200)) =
        some (43200, 21700, true, 21700, 21600, 9) := by
    decide +kernel
  have htime : (execGuarded (fun _ _ => True) phaseStep (sampleTim6, 0)
      [.advance 21600, .poll, .advance 21600]).map (fun p => (p.1.now, p.1.tim.counter 43200))
        = some (43200, 0) := by
    decide +kernel
  obtain ⟨p, hp, hvalues⟩ := Option.map_eq_some_iff.mp hlate
  obtain ⟨q, hq, hvalues'⟩ := Option.map_eq_some_iff.mp htime
  simp only [Prod.mk.injEq] at hvalues hvalues'
  obtain ⟨hnow, hlast, henabled, hstart, hperiod, hcounter⟩ := hvalues
  have hnot : ¬ p.1.tim.SetsUif p.1.nvic 43200 := by
    rw [Tim6.setsUif_iff henabled, hperiod, hstart]
    decide
  refine ⟨p, q, (Run.of_execGuarded hp).mono fun _ _ _ h => h.2,
    (Run.of_execGuarded hq).mono fun _ _ _ h => h.2, hnow, hvalues'.1, hcounter, hvalues'.2, hnot,
    fun hkept => hnot ?_⟩
  rw [hkept.update_iff 43200 hnow.le, hlast]
  exact ⟨2, by decide, by decide⟩

end Stm32Emulator
