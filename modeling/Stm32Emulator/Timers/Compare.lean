import Stm32Emulator.Foundation.Run
import Stm32Emulator.Peripherals.Timers

/-!
# Compare matches of TIM5

A match of the counter with the compare value should be latched once.  Whether the counter has
passed the compare value is a question about their distance at the time of the poll, and the answer
stays the same for half a turn of the counter: a match whose flag firmware has cleared is latched
again by the next poll in this time.
-/

namespace Stm32Emulator

open Tim5

/-! ## The timer and its clock -/

/-- The timer, the interrupt controller and the number of executed instructions. -/
structure Tim5State where
  tim : Tim5
  nvic : Nvic
  now : ℕ

/-- Polls, register accesses, the passing of time, and what others do to the interrupt
controller. -/
inductive Tim5Action where
  | poll
  | read (offset : U32)
  | write (offset value : U32)
  | advance (instructions : ℕ)
  | outside (nvic : Nvic)

def tim5Step (s : Tim5State) : Tim5Action → Option Tim5State
  | .poll => (s.tim.poll s.nvic s.now).map fun r => { s with tim := r.1, nvic := r.2 }
  | .read _ => some s
  | .write offset value => some { s with tim := s.tim.write s.now offset value }
  | .advance instructions => some { s with now := s.now + instructions }
  | .outside nvic => some { s with nvic := nvic }

namespace Tim5

/-- The compare flag. -/
def cc1if (tim : Tim5) : Bool := tim.sr &&& srCc1if != 0#32

/-- The counter has at most half a turn left to the compare value. -/
def CompareAhead (tim : Tim5) (numInstructions : ℕ) : Prop :=
  2 ^ 31 ≤ (tim.cnt numInstructions - tim.ccr1).toNat

instance (tim : Tim5) (numInstructions : ℕ) : Decidable (tim.CompareAhead numInstructions) :=
  inferInstanceAs (Decidable (_ ≤ _))

/-- The counter arrives at the compare value within some instructions. -/
def ComesRound (tim : Tim5) (numInstructions instructions : ℕ) : Prop :=
  ∃ i < instructions, tim.cnt (numInstructions + i) ≠ tim.ccr1 ∧
    tim.cnt (numInstructions + i + 1) = tim.ccr1

instance (tim : Tim5) (numInstructions instructions : ℕ) :
    Decidable (tim.ComesRound numInstructions instructions) :=
  inferInstanceAs (Decidable (∃ i < instructions, _ ∧ _))

end Tim5

/-! ## Events and matches -/

/-- The ghost: the present match has been latched, and a poll has reported a match that had been
latched and cleared. -/
structure MatchRecord where
  served : Bool
  repeated : Bool
  deriving DecidableEq

/-- A poll latches the match.  A new match begins when firmware writes the compare value or the
counter, and when the counter comes round. -/
def MatchRecord.next (r : MatchRecord) (s : Tim5State) : Tim5Action → MatchRecord
  | .poll =>
    match s.tim.poll s.nvic s.now with
    | some (tim, nvic) =>
      { served := r.served || !s.tim.cc1if && tim.cc1if
        repeated := r.repeated || r.served && !s.tim.cc1if &&
          (tim.cc1if || nvic.isPending tim5Irq && !s.nvic.isPending tim5Irq) }
    | none => r
  | .write offset _ => if offset = 0x0024 ∨ offset = 0x0034 then { r with served := false } else r
  | .advance instructions =>
    if s.tim.ComesRound s.now instructions then { r with served := false } else r
  | _ => r

def compareStep : Tim5State × MatchRecord → Tim5Action → Option (Tim5State × MatchRecord) :=
  withGhost tim5Step MatchRecord.next

/-- After a match has been latched and cleared, polls come only when the compare value is ahead. -/
def PollsAhead (p : Tim5State × MatchRecord) : Tim5Action → Prop
  | .poll => p.2.served = true → p.1.tim.cc1if = false → p.1.tim.CompareAhead p.1.now
  | _ => True

instance (p : Tim5State × MatchRecord) (a : Tim5Action) : Decidable (PollsAhead p a) := by
  cases a <;> unfold PollsAhead <;> infer_instance

/-! ## What a poll does -/

namespace Tim5

variable {tim tim' : Tim5} {nvic nvic' : Nvic} {n : ℕ}

/-- A difference is not negative as a signed number exactly below half a turn. -/
lemma hasPassedCcr1_iff : tim.hasPassedCcr1 n = true ↔ ¬ tim.CompareAhead n := by
  unfold hasPassedCcr1 CompareAhead
  rw [decide_eq_true_iff, BitVec.toInt_eq_toNat_cond]
  have hlt := (tim.cnt n - tim.ccr1).isLt
  split <;> omega

lemma cc1if_or (sr : U32) : ((sr ||| srCc1if) &&& srCc1if != 0#32) = true := by
  rw [bne_iff_ne]
  unfold srCc1if
  rw [and_one_shiftLeft_ne_zero_iff]
  simp

/-- What a poll does to the flag and to the interrupt controller. -/
lemma poll_eq_some (h : tim.poll nvic n = some (tim', nvic')) :
    tim' = (if tim.ccr1Armed = true ∧ tim.cc1if = false ∧ ¬ tim.CompareAhead n then
      { tim with sr := tim.sr ||| srCc1if } else tim) ∧
    (tim'.cc1if = false → nvic' = nvic) := by
  obtain ⟨nvic'', hnvic, heq⟩ := Option.map_eq_some_iff.mp h
  obtain ⟨htim, rfl⟩ := Prod.mk.inj heq
  have hcond : (tim.ccr1Armed = true ∧ tim.sr &&& srCc1if = 0#32 ∧ tim.hasPassedCcr1 n = true) ↔
      tim.ccr1Armed = true ∧ tim.cc1if = false ∧ ¬ tim.CompareAhead n := by
    rw [hasPassedCcr1_iff, cc1if, bne_eq_false_iff_eq]
  rw [if_congr hcond rfl rfl] at hnvic htim
  refine ⟨htim.symm, fun hclear => ?_⟩
  rw [htim, if_neg] at hnvic
  · exact (Option.some.inj hnvic).symm
  · rintro ⟨hset, -⟩
    rw [cc1if, bne_eq_false_iff_eq] at hclear
    exact hset hclear

/-- A clear flag is latched exactly when the channel has been written and the compare value is not
ahead. -/
lemma cc1if_poll (h : tim.poll nvic n = some (tim', nvic')) (hclear : tim.cc1if = false) :
    tim'.cc1if = true ↔ tim.ccr1Armed = true ∧ ¬ tim.CompareAhead n := by
  obtain ⟨rfl, -⟩ := poll_eq_some h
  by_cases hlatch : tim.ccr1Armed = true ∧ ¬ tim.CompareAhead n
  · rw [if_pos ⟨hlatch.1, hclear, hlatch.2⟩]
    exact iff_of_true (cc1if_or tim.sr) hlatch
  · rw [if_neg fun hcond => hlatch ⟨hcond.1, hcond.2.2⟩]
    exact iff_of_false (by rw [hclear]; exact Bool.false_ne_true) hlatch

lemma ccr1Armed_poll (h : tim.poll nvic n = some (tim', nvic')) :
    tim'.ccr1Armed = tim.ccr1Armed := by
  obtain ⟨rfl, -⟩ := poll_eq_some h
  split <;> rfl

/-- A written channel stays written. -/
lemma ccr1Armed_write (n : ℕ) (offset value : U32) (h : tim.ccr1Armed = true) :
    (tim.write n offset value).ccr1Armed = true := by
  unfold write
  split_ifs
  · unfold writeCr1
    dsimp only
    split_ifs <;> exact h
  · exact h
  · exact h
  · unfold writeCnt
    split_ifs <;> exact h
  · rfl
  · exact h

end Tim5

/-! ## One event for each match -/

/-- A match has only been latched on a channel that has been written. -/
structure CompareInvariant (p : Tim5State × MatchRecord) : Prop where
  armed : p.2.served = true → p.1.tim.ccr1Armed = true
  once : p.2.repeated = false

namespace CompareInvariant

variable {p p' : Tim5State × MatchRecord} {a : Tim5Action}

/-- The channel stays written. -/
lemma armed_step (h : CompareInvariant p) (hstep : compareStep p a = some p') :
    p'.2.served = true → p'.1.tim.ccr1Armed = true := by
  rcases p with ⟨s, r⟩
  rcases p' with ⟨s', r'⟩
  obtain ⟨htim, rfl⟩ := withGhost_eq_some.mp hstep
  dsimp only at htim ⊢
  cases a with
  | poll =>
    obtain ⟨⟨tim, nvic⟩, hpoll, rfl⟩ := Option.map_eq_some_iff.mp htim
    simp only [MatchRecord.next, hpoll, Bool.or_eq_true, Bool.and_eq_true, Bool.not_eq_true']
    rintro (hserved | ⟨hclear, hset⟩)
    · rw [ccr1Armed_poll hpoll]
      exact h.armed hserved
    · rw [ccr1Armed_poll hpoll]
      exact ((cc1if_poll hpoll hclear).mp hset).1
  | read offset =>
    cases htim
    exact h.armed
  | outside nvic =>
    cases htim
    exact h.armed
  | write offset value =>
    cases htim
    simp only [MatchRecord.next]
    split
    · exact nofun
    · exact fun hserved => ccr1Armed_write s.now offset value (h.armed hserved)
  | advance instructions =>
    cases htim
    simp only [MatchRecord.next]
    split
    · exact nofun
    · exact h.armed

/-- **One action reports no match twice** exactly when it is no poll that comes too early. -/
lemma once_iff (h : CompareInvariant p) (hstep : compareStep p a = some p') :
    p'.2.repeated = false ↔ PollsAhead p a := by
  rcases p with ⟨s, r⟩
  rcases p' with ⟨s', r'⟩
  have honce : r.repeated = false := h.once
  obtain ⟨htim, rfl⟩ := withGhost_eq_some.mp hstep
  dsimp only at htim ⊢
  cases a with
  | poll =>
    obtain ⟨⟨tim, nvic⟩, hpoll, rfl⟩ := Option.map_eq_some_iff.mp htim
    simp only [MatchRecord.next, hpoll, honce, Bool.false_or, PollsAhead]
    constructor
    · intro hnone hserved hclear
      by_contra hahead
      have hset := (cc1if_poll hpoll hclear).mpr ⟨h.armed hserved, hahead⟩
      rw [hserved, hclear, hset] at hnone
      cases hnone
    · intro hahead
      by_cases hcase : r.served = true ∧ s.tim.cc1if = false
      · have hclear : tim.cc1if = false := by
          rw [← Bool.not_eq_true, cc1if_poll hpoll hcase.2]
          exact fun hset => hset.2 (hahead hcase.1 hcase.2)
        rw [(Tim5.poll_eq_some hpoll).2 hclear, hclear, Bool.and_not_self, Bool.or_self,
          Bool.and_false]
      · have hfalse : (r.served && !s.tim.cc1if) = false := by
          rw [← Bool.not_eq_true]
          simpa using hcase
        rw [hfalse, Bool.false_and]
  | read offset => exact iff_of_true honce trivial
  | outside nvic => exact iff_of_true honce trivial
  | write offset value =>
    simp only [MatchRecord.next]
    split <;> exact iff_of_true honce trivial
  | advance instructions =>
    simp only [MatchRecord.next]
    split <;> exact iff_of_true honce trivial

end CompareInvariant

/-- **Each compare match is one event.**  In every run from power-on in which, after a match has
been latched and its flag cleared, polls come only while the compare value is ahead of the counter,
no match is reported twice; and the next action reports none twice exactly when it is no poll that
comes earlier. -/
theorem tim5_one_event_per_match (nvic : Nvic) (now : ℕ) (as : List Tim5Action)
    (p : Tim5State × MatchRecord)
    (hrun : Run (guardedStep PollsAhead (stepRel compareStep))
      (⟨Tim5.default, nvic, now⟩, ⟨false, false⟩) as p) :
    p.2.repeated = false ∧ ∀ a p', compareStep p a = some p' →
    (p'.2.repeated = false ↔ PollsAhead p a) := by
  have hinv : CompareInvariant p := by
    refine hrun.invariant_state ⟨nofun, rfl⟩ ?_
    rintro p p' a h ⟨hahead, hstep⟩
    exact ⟨h.armed_step hstep, (h.once_iff hstep).mpr hahead⟩
  exact ⟨hinv.once, fun a p' hstep => hinv.once_iff hstep⟩

/-- The channel matches, firmware clears the flag and sets the next compare value, and the counter
comes round to it. -/
def sampleMatches : List Tim5Action :=
  [.write 0x00 1, .write 0x34 100, .write 0x24 200, .poll, .write 0x10 0, .write 0x34 201,
    .poll, .advance 54, .poll]

theorem tim5_one_event_per_match_sample :
    ∃ p, Run (guardedStep PollsAhead (stepRel compareStep))
      (⟨Tim5.default, Nvic.default, 0⟩, ⟨false, false⟩)
      sampleMatches p ∧ p.1.tim.cc1if = true ∧ p.2.served = true ∧ p.2.repeated = false := by
  have hexec : (execGuarded PollsAhead compareStep (⟨Tim5.default, Nvic.default, 0⟩, ⟨false, false⟩)
      sampleMatches).map (fun p => (p.1.tim.cc1if, p.2.served)) = some (true, true) := by
    decide +kernel
  obtain ⟨p, hexec, hvalues⟩ := Option.map_eq_some_iff.mp hexec
  obtain ⟨hset, hserved⟩ := Prod.mk.inj hvalues
  have hrun := Run.of_execGuarded hexec
  exact ⟨p, hrun, hset, hserved, (tim5_one_event_per_match _ _ _ _ hrun).1⟩

/-- Firmware clears the flag of a match, unmasks the interrupt, and sets no new compare value. -/
def sampleCleared : List Tim5Action :=
  [.write 0x00 1, .write 0x34 100, .write 0x24 200, .poll, .write 0x10 0, .write 0x0c 2, .poll]

/-- The next poll latches the match again, and pends the interrupt. -/
theorem cleared_match_latched_again :
    ∃ p, Run (stepRel compareStep)
      (⟨Tim5.default, Nvic.default, 0⟩, ⟨false, false⟩) sampleCleared p ∧
      p.1.tim.cc1if = true ∧ p.1.nvic.isPending tim5Irq = true ∧ p.2.repeated = true := by
  have hexec : (execGuarded (fun _ _ => True) compareStep
      (⟨Tim5.default, Nvic.default, 0⟩, ⟨false, false⟩) sampleCleared).map
      (fun p => (p.1.tim.cc1if, p.1.nvic.isPending tim5Irq, p.2.repeated)) =
        some (true, true, true) := by
    decide +kernel
  obtain ⟨p, hexec, hvalues⟩ := Option.map_eq_some_iff.mp hexec
  simp only [Prod.mk.injEq] at hvalues
  exact ⟨p, (Run.of_execGuarded hexec).mono fun _ _ _ h => h.2, hvalues⟩

end Stm32Emulator
