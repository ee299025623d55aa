import Stm32Emulator.Exceptions.Pending
import Mathlib.Data.Finset.Card
import Mathlib.Data.Finset.Image
import Mathlib.Data.Finset.Option

/-!
# How long an interrupt waits

Every attempt with all gates open dispatches the lowest interrupt that can be dispatched.  So an
interrupt that is pending and enabled waits for lower ones only: each attempt that passes it over
uses up one of them, and their number (`lowerPending`) is what bounds the wait.
-/

namespace Stm32Emulator

open Nvic

variable {U : Type}

/-- The pending interrupts below another one, from the lowest number on. -/
def lowerPending (nvic : Nvic) (irq : ℤ) : Finset ℤ :=
  ((Finset.range (irq + 16).toNat).image fun k : ℕ => (k : ℤ) - 16).filter fun j =>
    nvic.isPending j = true

lemma mem_lowerPending {nvic : Nvic} {irq j : ℤ} :
    j ∈ lowerPending nvic irq ↔ (-16 ≤ j ∧ j < irq) ∧ nvic.isPending j = true := by
  unfold lowerPending
  rw [Finset.mem_filter, Finset.mem_image]
  refine and_congr_left fun _ => ⟨?_, fun ⟨hlow, hlt⟩ => ⟨(j + 16).toNat, ?_, ?_⟩⟩
  · rintro ⟨k, hk, rfl⟩
    rw [Finset.mem_range] at hk
    omega
  · rw [Finset.mem_range]
    omega
  · omega

/-- The interrupt that a label pends. -/
def pended : ExceptionLabel U → Option ℤ
  | (.setIntrPending irq, _) => some irq
  | (_, outcome) => if outcome.systick then some Irq.systick else none

/-- The label pends an interrupt below another one. -/
def pendsBelow (irq : ℤ) (label : ExceptionLabel U) : Bool := (pended label).any (· < irq)

/-- The label is an attempt that has dispatched an interrupt. -/
def dispatches (label : ExceptionLabel U) : Bool := label.2.dispatched.isSome

/-- A step that leaves an interrupt waiting: it is not dispatched, and firmware does not disable
it. -/
def KeepsWaiting (irq : ℤ) (_ : Core U) (label : ExceptionLabel U) : Prop :=
  label.2.dispatched ≠ some irq ∧
    ∀ offset value, label.1 = .write offset value → writesOne icerOffset irq offset value = false

lemma pends_iff {irq : ℤ} {label : ExceptionLabel U} :
    Ledger.pends irq label = true ↔ pended label = some irq := by
  rcases label with ⟨action, outcome⟩
  cases action <;> cases hsystick : outcome.systick <;>
    simp [Ledger.pends, pended, hsystick, eq_comm]

variable [UnicornEngine U] {vectorTableAddr : U32} {s s' : Core U} {label : ExceptionLabel U}
    {irq : ℤ}

/-- An interrupt that is left waiting can still be dispatched. -/
lemma dispatchable_of_keepsWaiting (hd : s.nvic.Dispatchable irq)
    (hkeeps : KeepsWaiting irq s label) (hstep : coreStep vectorTableAddr s label s') :
    s'.nvic.Dispatchable irq := by
  refine ⟨?_, hd.2.imp_right fun henabled => ?_⟩
  · rw [isPending_coreStep hstep, hd.1, decide_eq_true hkeeps.1]
    rfl
  · cases coreStep_effect hstep with
    | @setIntrPending irq' nvic' hpend =>
      rw [setIntrPending_frame hpend]
      exact henabled
    | @write offset value nvic' hwrite =>
      rw [isEnabled_write hwrite, henabled, hkeeps.2 offset value rfl]
      rfl
    | @attempt nvic₁ nvic' uc' dispatched hsystick hattempt =>
      have hframe := maybeSetSystickIntrPending_frame hsystick
      cases hattempt with
      | idle _ =>
        rw [hframe]
        exact henabled
      | @dispatch irq' nvic₂ _ _ frame hopen hfind hentry =>
        obtain ⟨-, -, rfl⟩ := getAndClearNextDispatchable_eq_some_iff.mp hfind
        rw [runInterrupt_nvic hentry]
        change nvic₁.isEnabled irq = true
        rw [hframe]
        exact henabled
    | _ => exact henabled

/-- An attempt with all gates open dispatches, and nothing above an interrupt that can be
dispatched. -/
lemma dispatched_le (hd : s.nvic.Dispatchable irq) (hstep : coreStep vectorTableAddr s label s') :
    (∀ irq', label.2.dispatched = some irq' → irq' ≤ irq) ∧
      (label.1 = .runPendingInterrupts → GatesOpen s → label.2.dispatched ≠ none) := by
  cases coreStep_effect hstep with
  | @attempt nvic₁ nvic' uc' dispatched hsystick hattempt =>
    -- the check of `SysTick` leaves the interrupt as it is
    have hd₁ : nvic₁.Dispatchable irq := by
      refine ⟨?_, ?_⟩
      · rw [isPending_maybeSetSystickIntrPending hsystick, hd.1]
        rfl
      · rw [maybeSetSystickIntrPending_frame hsystick]
        exact hd.2
    cases hattempt with
    | idle hidle =>
      refine ⟨nofun, fun _ hopen => ?_⟩
      rcases hidle with hblocked | hnone
      · exact absurd hblocked ((not_blocked_after_systick hsystick).mpr hopen)
      · exact absurd hd₁ (hnone irq)
    | @dispatch irq₁ nvic₂ _ _ frame hopen hfind hentry =>
      obtain ⟨-, hmin, -⟩ := getAndClearNextDispatchable_eq_some_iff.mp hfind
      refine ⟨fun irq' hirq' => ?_, fun _ _ => Option.some_ne_none irq₁⟩
      obtain rfl := Option.some.inj hirq'
      exact hmin irq hd₁
  | _ => exact ⟨nofun, nofun⟩

/-- An interrupt that is dispatched was pending, or is pended by the attempt. -/
lemma dispatched_pending (hstep : coreStep vectorTableAddr s label s') {j : ℤ}
    (hj : label.2.dispatched = some j) :
    -16 ≤ j ∧ (s.nvic.isPending j = true ∨ pended label = some j) := by
  rw [← pends_iff]
  cases coreStep_effect hstep with
  | @attempt nvic₁ nvic' uc' dispatched hsystick hattempt =>
    cases hattempt with
    | idle _ => cases hj
    | @dispatch irq₁ nvic₂ _ _ frame hopen hfind hentry =>
      obtain rfl := Option.some.inj hj
      have hpend := (getAndClearNextDispatchable_eq_some_iff.mp hfind).1.1
      refine ⟨(lt_of_isPending hpend).1, ?_⟩
      rw [isPending_maybeSetSystickIntrPending hsystick, Bool.or_eq_true] at hpend
      exact hpend
  | _ => cases hj

/-- **One step.**  A dispatch uses up one of the lower interrupts. -/
lemma lowerPending_step (hd : s.nvic.Dispatchable irq) (hkeeps : KeepsWaiting irq s label)
    (hstep : coreStep vectorTableAddr s label s') :
    (dispatches label).toNat + (lowerPending s'.nvic irq).card
      ≤ (lowerPending s.nvic irq).card + (pendsBelow irq label).toNat := by
  have hpending := isPending_coreStep hstep
  -- what is pending before the dispatch
  let before := lowerPending s.nvic irq ∪ (pended label).toFinset.filter (· < irq)
  have hbefore : before.card ≤ (lowerPending s.nvic irq).card + (pendsBelow irq label).toNat := by
    refine (Finset.card_union_le _ _).trans (Nat.add_le_add_left ?_ _)
    unfold pendsBelow
    rcases pended label with _ | j
    · rfl
    · by_cases hj : j < irq <;> simp [Finset.filter_singleton, hj]
  have hafter : ∀ j ∈ lowerPending s'.nvic irq, j ∈ before ∧ label.2.dispatched ≠ some j := by
    intro j hj
    obtain ⟨hrange, hset⟩ := mem_lowerPending.mp hj
    rw [hpending, Bool.and_eq_true, Bool.or_eq_true, decide_eq_true_eq, pends_iff] at hset
    refine ⟨Finset.mem_union.mpr ?_, hset.2⟩
    rcases hset.1 with hold | hnew
    · exact Or.inl (mem_lowerPending.mpr ⟨hrange, hold⟩)
    · exact Or.inr (Finset.mem_filter.mpr ⟨by simp [hnew], hrange.2⟩)
  refine le_trans ?_ hbefore
  rcases hdispatched : label.2.dispatched with _ | j
  · rw [dispatches, hdispatched, Option.isSome_none, Bool.toNat_false, Nat.zero_add]
    exact Finset.card_le_card fun j hj => (hafter j hj).1
  · -- the dispatched interrupt was pending and is not any more
    have hj : j ∈ before := by
      obtain ⟨hlow, hpend⟩ := dispatched_pending hstep hdispatched
      have hle := (dispatched_le hd hstep).1 j hdispatched
      have hlt : j < irq := lt_of_le_of_ne hle fun heq => hkeeps.1 (heq ▸ hdispatched)
      refine Finset.mem_union.mpr (hpend.imp (fun hold => ?_) fun hnew => ?_)
      · exact mem_lowerPending.mpr ⟨⟨hlow, hlt⟩, hold⟩
      · exact Finset.mem_filter.mpr ⟨by simp [hnew], hlt⟩
    rw [dispatches, hdispatched, Option.isSome_some, Bool.toNat_true, Nat.add_comm,
      ← Finset.card_erase_add_one hj]
    refine Nat.add_le_add_right (Finset.card_le_card fun k hk => ?_) 1
    refine Finset.mem_erase.mpr ⟨?_, (hafter k hk).1⟩
    rintro rfl
    exact (hafter k hk).2 hdispatched

/-- The interrupt still waits after a history, which has used up no more lower interrupts than there
were. -/
structure Waits (irq : ℤ) (start : Finset ℤ) (history : List (ExceptionLabel U))
    (s : Core U) : Prop where
  dispatchable : s.nvic.Dispatchable irq
  count_le : history.countP dispatches + (lowerPending s.nvic irq).card
    ≤ start.card + history.countP (pendsBelow irq)

omit [UnicornEngine U] in
lemma countP_snoc (p : ExceptionLabel U → Bool) (history : List (ExceptionLabel U))
    (label : ExceptionLabel U) :
    (history ++ [label]).countP p = history.countP p + (p label).toNat := by
  rw [List.countP_append, List.countP_singleton]
  cases p label <;> rfl

lemma Waits.step {start : Finset ℤ} {history : List (ExceptionLabel U)}
    (h : Waits irq start history s) (hkeeps : KeepsWaiting irq s label)
    (hstep : coreStep vectorTableAddr s label s') :
    Waits irq start (history ++ [label]) s' := by
  refine ⟨dispatchable_of_keepsWaiting h.dispatchable hkeeps hstep, ?_⟩
  have hone := lowerPending_step h.dispatchable hkeeps hstep
  have hcount := h.count_le
  rw [countP_snoc, countP_snoc]
  omega

/-- **Bounded waiting.**  While an interrupt that can be dispatched is left waiting, there are at
most as many dispatches as lower interrupts were pending at first or have been pended since; and an
attempt with all gates open never passes without a dispatch, which is this interrupt or a lower
one. -/
theorem waiting_bounded {history : List (ExceptionLabel U)} (hd : s.nvic.Dispatchable irq)
    (hrun : Run (guardedStep (KeepsWaiting irq) (coreStep vectorTableAddr)) s history s') :
    history.countP dispatches + (lowerPending s'.nvic irq).card
        ≤ (lowerPending s.nvic irq).card + history.countP (pendsBelow irq) ∧
      ∀ label s'', coreStep vectorTableAddr s' label s'' → label.1 = .runPendingInterrupts →
        GatesOpen s' →
        ∃ irq' ≤ irq, label.2.dispatched = some irq' := by
  have hinit : Waits irq (lowerPending s.nvic irq) [] s := ⟨hd, by simp⟩
  have hwaits : Waits irq (lowerPending s.nvic irq) history s' :=
    hrun.invariant (I := Waits irq (lowerPending s.nvic irq)) hinit fun _ _ _ _ h hstep =>
      h.step hstep.1 hstep.2
  refine ⟨hwaits.count_le, fun label s'' hstep hattempt hopen => ?_⟩
  obtain ⟨hle, hsome⟩ := dispatched_le hwaits.dispatchable hstep
  obtain ⟨irq', hirq'⟩ := Option.ne_none_iff_exists'.mp (hsome hattempt hopen)
  exact ⟨irq', hle irq' hirq', hirq'⟩

/-- Interrupts 7 and 8 are enabled and pending. -/
def sampleWaiting : Core RegisterFile :=
  { sampleCore with nvic := { Nvic.default with pending := 0x1800000, enabled := 0x180 } }

/-- While interrupt 8 waits, interrupt 7 is dispatched. -/
theorem waiting_bounded_sample :
    ∃ history s', Run (guardedStep (KeepsWaiting 8) (coreStep 0)) sampleWaiting history s' ∧
      history.map (fun label => label.2.dispatched) = [some 7] ∧
      history.countP dispatches + (lowerPending s'.nvic 8).card
        ≤ (lowerPending sampleWaiting.nvic 8).card + history.countP (pendsBelow 8) := by
  have hexec : (execAction 0 sampleWaiting .runPendingInterrupts).map (fun r => r.2.dispatched)
      = some (some 7) := by
    decide +kernel
  obtain ⟨⟨s', outcome⟩, hstep, hdispatched⟩ := Option.map_eq_some_iff.mp hexec
  have hrun : Run (guardedStep (KeepsWaiting 8) (coreStep 0)) sampleWaiting
      [(.runPendingInterrupts, outcome)] s' := by
    refine Run.single ⟨⟨?_, nofun⟩, hstep⟩
    rw [hdispatched]
    decide
  exact ⟨_, s', hrun, congrArg (fun d => [d]) hdispatched,
    (waiting_bounded (by decide +kernel) hrun).1⟩

end Stm32Emulator
