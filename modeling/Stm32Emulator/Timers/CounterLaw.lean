import Stm32Emulator.Foundation.Multiples
import Stm32Emulator.Timers.Compare

/-!
# The counter and the alarm of TIM5

The counter is an offset against the ticks of the clock, taken anew whenever firmware enables the
timer or writes the counter.  What firmware sees is a base and the ticks since (`CountRecord`), and
a compare value that is written ahead of the counter is an alarm: no poll latches it before the
counter is there, and the next poll does.
-/

namespace Stm32Emulator

open Tim5

/-! ## The counter -/

/-- The ghost: what the counter held when it was enabled or written last, and the tick boundaries
that have been crossed since while it was enabled. -/
structure CountRecord where
  base : U32
  ticks : ℕ
  deriving DecidableEq

def CountRecord.next (r : CountRecord) (s : Tim5State) : Tim5Action → CountRecord
  | .write offset value =>
    if offset = 0x0024 then ⟨value, 0⟩
    else if offset = 0x0000 ∧ s.tim.cen = false ∧ value &&& 1 ≠ 0 then ⟨s.tim.cnt s.now, 0⟩
    else r
  | .advance instructions =>
    if s.tim.cen then
      { r with
        ticks := r.ticks + (multiplesIn instructionsPerTick s.now (s.now + instructions)).card }
    else r
  | _ => r

def countStep : Tim5State × CountRecord → Tim5Action → Option (Tim5State × CountRecord) :=
  withGhost tim5Step CountRecord.next

/-- What the counter shows. -/
def CountRecord.value (r : CountRecord) : U32 := r.base + BitVec.ofNat 32 r.ticks

namespace Tim5

variable {tim tim' : Tim5} {nvic nvic' : Nvic} {n m : ℕ}

/-- A timer that is disabled stands still. -/
lemma cnt_of_disabled (h : tim.cen = false) (n m : ℕ) : tim.cnt n = tim.cnt m := by
  unfold cnt
  rw [if_neg (by simp [h]), if_neg (by simp [h])]

/-- Time adds the ticks that have passed. -/
lemma cnt_add (h : tim.cen = true) (n i : ℕ) :
    tim.cnt (n + i) = tim.cnt n + BitVec.ofNat 32
      (multiplesIn instructionsPerTick n (n + i)).card := by
  have hticks := div_add_card_multiplesIn (p := instructionsPerTick) (Nat.le_add_right n i)
  unfold cnt ticksFromInstructions
  rw [if_pos h, if_pos h, ← hticks, BitVec.ofNat_add, add_right_comm]

/-- A counter depends on the enable bit and its two registers alone. -/
lemma cnt_congr (hcen : tim'.cen = tim.cen) (hoffset : tim'.cntOffset = tim.cntOffset)
    (hheld : tim'.heldCnt = tim.heldCnt) (n : ℕ) : tim'.cnt n = tim.cnt n := by
  unfold cnt
  rw [hcen, hoffset, hheld]

lemma cnt_poll (h : tim.poll nvic n = some (tim', nvic')) (m : ℕ) : tim'.cnt m = tim.cnt m := by
  obtain ⟨rfl, -⟩ := poll_eq_some h
  split
  · exact cnt_congr rfl rfl rfl m
  · rfl

/-- A write of another register leaves the counter as it is. -/
lemma cnt_write (tim : Tim5) (n : ℕ) {offset : U32} (value : U32) (h : offset ≠ 0x0024) :
    (tim.write n offset value).cnt n = tim.cnt n := by
  unfold write
  rw [if_neg h]
  split_ifs
  · exact cnt_writeCr1 tim n value
  · exact cnt_congr rfl rfl rfl n
  · exact cnt_congr rfl rfl rfl n
  · exact cnt_congr rfl rfl rfl n
  · rfl

lemma write_cnt (tim : Tim5) (n : ℕ) (value : U32) :
    tim.write n 0x0024 value = tim.writeCnt n value := rfl

end Tim5

namespace CountRecord

variable {p p' : Tim5State × CountRecord} {a : Tim5Action}

lemma value_zero (base : U32) : (⟨base, 0⟩ : CountRecord).value = base := BitVec.add_zero base

/-- **One action** keeps the counter at the base and the ticks since. -/
lemma step (h : p.1.tim.cnt p.1.now = p.2.value) (hstep : countStep p a = some p') :
    p'.1.tim.cnt p'.1.now = p'.2.value := by
  rcases p with ⟨s, r⟩
  rcases p' with ⟨s', r'⟩
  obtain ⟨htim, rfl⟩ := withGhost_eq_some.mp hstep
  dsimp only at htim h ⊢
  cases a with
  | poll =>
    obtain ⟨⟨tim, nvic⟩, hpoll, rfl⟩ := Option.map_eq_some_iff.mp htim
    exact (cnt_poll hpoll s.now).trans h
  | read offset =>
    cases htim
    exact h
  | outside nvic =>
    cases htim
    exact h
  | write offset value =>
    cases htim
    simp only [next]
    by_cases hcnt : offset = 0x0024
    · rw [if_pos hcnt, value_zero, hcnt, write_cnt, cnt_writeCnt]
    · rw [if_neg hcnt, cnt_write s.tim s.now value hcnt]
      split
      · rw [value_zero]
      · exact h
  | advance instructions =>
    cases htim
    simp only [next]
    split
    · next hcen =>
      rw [cnt_add hcen, h, value, value, BitVec.ofNat_add, BitVec.add_assoc]
    · next hcen =>
      rw [← h]
      exact cnt_of_disabled (by simpa using hcen) _ _

end CountRecord

/-! ## The alarm -/

/-- No register that the alarm rests on is written, and polls come less than `d` ticks behind clock
`n`. -/
def BeforeAlarm (n d : ℕ) (s : Tim5State) : Tim5Action → Prop
  | .poll => (multiplesIn instructionsPerTick n s.now).card < d
  | .write offset _ => offset ∉ [0x0024, 0x0000, 0x0034, 0x0010]
  | _ => True

namespace Tim5

/-- How far the counter has come on its way to the compare value. -/
lemma compareAhead_iff {tim : Tim5} {n m d : ℕ} (hcen : tim.cen = true) (hnm : n ≤ m)
    (hahead : (tim.ccr1 - tim.cnt n).toNat = d) (hpos : 0 < d) (hlt : d < 2 ^ 31)
    (hlate : (multiplesIn instructionsPerTick n m).card < d + 2 ^ 31) :
    tim.CompareAhead m ↔ (multiplesIn instructionsPerTick n m).card < d := by
  obtain ⟨i, rfl⟩ := Nat.exists_eq_add_of_le hnm
  unfold CompareAhead
  rw [cnt_add hcen]
  generalize (multiplesIn instructionsPerTick n (n + i)).card = ticks at hlate ⊢
  generalize tim.cnt n = base at hahead ⊢
  bv_omega

/-- A poll never fails. -/
lemma exists_poll (tim : Tim5) (nvic : Nvic) (n : ℕ) :
    ∃ tim' nvic', tim.poll nvic n = some (tim', nvic') := by
  have hirq : -15 ≤ tim5Irq ∧ tim5Irq ≤ 111 := by decide
  unfold poll
  exact ⟨_, nvic.exists_map_setIntrPending hirq _ _⟩

end Tim5

/-- The alarm is set: since the compare value was written in `tim` at clock `n`, nothing but the
unrelated registers has changed. -/
structure AlarmSet (tim : Tim5) (n : ℕ) (s : Tim5State) : Prop where
  tim_eq : s.tim = { tim with sr := s.tim.sr, dier := s.tim.dier }
  clear : s.tim.cc1if = false
  start_le : n ≤ s.now

namespace AlarmSet

variable {tim : Tim5} {n d : ℕ} {s s' : Tim5State} {a : Tim5Action}

/-- A poll within half a turn behind the alarm latches it exactly when the counter has come
there. -/
lemma poll_iff (h : AlarmSet tim n s) (harmed : tim.ccr1Armed = true) (hcen : tim.cen = true)
    (hahead : (tim.ccr1 - tim.cnt n).toNat = d) (hpos : 0 < d) (hlt : d < 2 ^ 31)
    (hlate : (multiplesIn instructionsPerTick n s.now).card < d + 2 ^ 31) {tim' : Tim5}
    {nvic' : Nvic} (hpoll : s.tim.poll s.nvic s.now = some (tim', nvic')) :
    tim'.cc1if = true ↔ d ≤ (multiplesIn instructionsPerTick n s.now).card := by
  have hsame := h.tim_eq
  have hcen' : s.tim.cen = true := by
    rw [hsame]
    exact hcen
  have hahead' : (s.tim.ccr1 - s.tim.cnt n).toNat = d := by
    rw [hsame]
    exact hahead
  have harmed' : s.tim.ccr1Armed = true := by
    rw [hsame]
    exact harmed
  rw [cc1if_poll hpoll h.clear, compareAhead_iff hcen' h.start_le hahead' hpos hlt hlate, not_lt]
  exact and_iff_right harmed'

/-- Nothing latches the alarm before its time. -/
lemma step (h : AlarmSet tim n s) (harmed : tim.ccr1Armed = true) (hcen : tim.cen = true)
    (hahead : (tim.ccr1 - tim.cnt n).toNat = d) (hpos : 0 < d) (hlt : d < 2 ^ 31)
    (hbefore : BeforeAlarm n d s a) (hstep : tim5Step s a = some s') : AlarmSet tim n s' := by
  cases a with
  | poll =>
    obtain ⟨⟨tim', nvic'⟩, hpoll, rfl⟩ := Option.map_eq_some_iff.mp hstep
    have hearly : (multiplesIn instructionsPerTick n s.now).card < d := hbefore
    have hiff := h.poll_iff harmed hcen hahead hpos hlt (by omega) hpoll
    refine ⟨?_, ?_, h.start_le⟩
    · dsimp only
      rw [(poll_eq_some hpoll).1]
      split
      · dsimp only
        rw [h.tim_eq]
      · exact h.tim_eq
    · rw [← Bool.not_eq_true, hiff]
      omega
  | read offset =>
    obtain rfl := Option.some.inj hstep
    exact h
  | outside nvic =>
    obtain rfl := Option.some.inj hstep
    exact ⟨h.tim_eq, h.clear, h.start_le⟩
  | advance instructions =>
    obtain rfl := Option.some.inj hstep
    exact ⟨h.tim_eq, h.clear, h.start_le.trans (Nat.le_add_right _ _)⟩
  | write offset value =>
    obtain rfl := Option.some.inj hstep
    simp only [BeforeAlarm, List.mem_cons, List.not_mem_nil, or_false, not_or] at hbefore
    obtain ⟨hcnt, hcr1, hccr1, hsr⟩ := hbefore
    unfold write
    rw [if_neg hcr1, if_neg hsr, if_neg hcnt, if_neg hccr1]
    split
    · refine ⟨?_, h.clear, h.start_le⟩
      dsimp only
      rw [h.tim_eq]
    · exact h

end AlarmSet

/-- **The counter and the alarm.**  From any state on, the counter shows what it held when it was
enabled or written last and the tick boundaries since, while it was enabled, and it stands still
while disabled.  A compare value that is written `d` ticks ahead of the enabled counter while the
flag is clear, with `d` less than half a turn, and with no write to `CNT`, `CR1`, `CCR1` and `SR`
since, is not latched by the polls that come before `d` ticks; the next poll, if it comes less than
half a turn later than that, latches it exactly when `d` ticks have passed. -/
theorem tim5_counter_and_alarm (s : Tim5State) :
    (∀ as p, Run (stepRel countStep) (s, ⟨s.tim.cnt s.now, 0⟩) as p →
      p.1.tim.cnt p.1.now = p.2.value ∧ (p.1.tim.cen = false → ∀ n, p.1.tim.cnt n = p.2.value)) ∧
    ∀ value d as s', s.tim.cen = true → s.tim.cc1if = false →
      (value - s.tim.cnt s.now).toNat = d → 0 < d →
      d < 2 ^ 31 → Run (guardedStep (BeforeAlarm s.now d) (stepRel tim5Step))
        { s with tim := s.tim.write s.now 0x0034 value } as s' →
      ∃ tim nvic, s'.tim.poll s'.nvic s'.now = some (tim, nvic) ∧ s'.tim.cc1if = false ∧
        ((multiplesIn instructionsPerTick s.now s'.now).card < d + 2 ^ 31 →
          (tim.cc1if = true ↔ d ≤ (multiplesIn instructionsPerTick s.now s'.now).card)) := by
  constructor
  · intro as p hrun
    have hvalue : p.1.tim.cnt p.1.now = p.2.value :=
      hrun.invariant_state (I := fun p => p.1.tim.cnt p.1.now = p.2.value)
        (CountRecord.value_zero _).symm fun _ _ _ h hstep => CountRecord.step h hstep
    exact ⟨hvalue, fun hdisabled n => (cnt_of_disabled hdisabled n p.1.now).trans hvalue⟩
  · intro value d as s' hcen hclear hahead hpos hlt hrun
    have hwrite : s.tim.write s.now 0x0034 value =
        { s.tim with ccr1 := value, ccr1Armed := true } := rfl
    have hset : AlarmSet (s.tim.write s.now 0x0034 value) s.now s' := by
      refine hrun.invariant_state (I := AlarmSet (s.tim.write s.now 0x0034 value) s.now)
        ⟨rfl, hclear, le_refl _⟩ ?_
      rintro q q' a hq ⟨hbefore, hstep⟩
      exact hq.step rfl hcen hahead hpos hlt hbefore hstep
    obtain ⟨tim, nvic, hpoll⟩ := exists_poll s'.tim s'.nvic s'.now
    exact ⟨tim, nvic, hpoll, hset.clear, fun hlate =>
      hset.poll_iff rfl hcen hahead hpos hlt hlate hpoll⟩

/-- An alarm one tick ahead of the enabled counter, across the turn of the counter. -/
def sampleAlarm : Tim5State :=
  ⟨{ Tim5.default with cr1 := 1, cntOffset := 0xffffffff }, Nvic.default, 0⟩

/-- The alarm is not latched at once, and is latched by the first poll behind the next tick
boundary. -/
theorem tim5_counter_and_alarm_sample :
    sampleAlarm.tim.cnt 0 = 0xffffffff ∧ ∃ s' tim nvic, tim5Step
        { sampleAlarm with tim := sampleAlarm.tim.write 0 0x0034 0 } (.advance 60) = some s' ∧
      s'.tim.poll s'.nvic s'.now = some (tim, nvic) ∧ s'.tim.cc1if = false ∧ tim.cc1if = true := by
  refine ⟨by decide, ?_⟩
  have hstep : guardedStep (BeforeAlarm 0 1) (stepRel tim5Step)
      { sampleAlarm with tim := sampleAlarm.tim.write 0 0x0034 0 } (.advance 60)
      { sampleAlarm with tim := sampleAlarm.tim.write 0 0x0034 0, now := 60 } := ⟨trivial, rfl⟩
  obtain ⟨tim, nvic, hpoll, hclear, hiff⟩ :=
    (tim5_counter_and_alarm sampleAlarm).2 0 1 _ _ (by decide) (by decide) (by decide) (by decide)
      (by decide) (Run.single hstep)
  have hticks : (multiplesIn instructionsPerTick 0 60).card = 1 := by decide
  exact ⟨_, tim, nvic, hstep.2, hpoll, hclear, (hiff (hticks.trans_lt (by decide))).mpr hticks.ge⟩

end Stm32Emulator
