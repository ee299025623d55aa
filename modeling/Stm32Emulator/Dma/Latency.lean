import Stm32Emulator.Dma.Completion
import Stm32Emulator.Exceptions.HookCadence

/-!
# How long transfers take

A controller sees the counter when it is polled, and so it reckons the deadline of a stream from the
last poll before the stream was enabled.  Polls come at the cadence of the block hook.  A transfer
therefore takes place some time around the delay after it was enabled: the window is as long as two
polls are apart.
-/

namespace Stm32Emulator

open HookClock

variable {W : Type}

/-- What firmware does: it enters a block, or accesses a register of the controller. -/
inductive FirmwareAction (W : Type) where
  | block (b : Block)
  | read (offset : U32)
  | write (offset value : U32)
  /-- What happens outside of the controller. -/
  | other (w : W)

/-- The clock of the hook, the controller, and the world. -/
abbrev Emulation (W : Type) := HookClock × Dma × W

/-- The hook polls the controller with the counter behind the block. -/
def emulate (bus : DmaBus W) (interruptPeriod : ℕ) (s : Emulation W) :
    FirmwareAction W → Option (Emulation W)
  | .block b =>
    let c := s.1.enter interruptPeriod b
    if s.1.Pumps then (Dma.step bus s.2 (.poll c.numInstructions)).map fun r => (c, r)
    else some (c, s.2)
  | .read offset => (Dma.step bus s.2 (.read offset)).map fun r => (s.1, r)
  | .write offset value => (Dma.step bus s.2 (.write offset value)).map fun r => (s.1, r)
  | .other w => (Dma.step bus s.2 (.other w)).map fun r => (s.1, r)

/-- The ghost: the counter when each stream was enabled last. -/
def enabledAt (last : Fin 8 → ℕ) (s : Emulation W) : FirmwareAction W → Fin 8 → ℕ
  | .write offset value => fun i =>
    if offset = DmaAction.crOffset i ∧ value &&& 1 ≠ 0 then s.1.numInstructions else last i
  | _ => last

/-- The blocks have at most so many half words. -/
def BlocksWithin (longest : ℕ) (_ : Emulation W × (Fin 8 → ℕ)) : FirmwareAction W → Prop
  | .block b => b.halfwords ≤ longest
  | _ => True

instance (longest : ℕ) (s : Emulation W × (Fin 8 → ℕ)) (a : FirmwareAction W) :
    Decidable (BlocksWithin longest s a) :=
  match a with
  | .block b => inferInstanceAs (Decidable (b.halfwords ≤ longest))
  | .read _ | .write _ _ | .other _ => inferInstanceAs (Decidable True)

/-- The clock of the controller lags by no more than two polls are apart, and the deadlines are
those of streams that were enabled in the meantime. -/
structure OnSchedule (longest : ℕ) (s : Emulation W) (enabled : Fin 8 → ℕ) : Prop where
  lastNow_le : s.2.1.lastNow ≤ s.1.numInstructions
  lastPump_le : s.1.lastPump ≤ s.2.1.lastNow
  count_le : s.1.numInstructions ≤ s.1.lastPump + 1023 + longest
  standing : ∀ i ≠ 0, ∀ deadline, s.2.1.completeAt i = some deadline → s.2.1.lastNow < deadline
  enabled_le : ∀ i ≠ 0, ∀ deadline, s.2.1.completeAt i = some deadline →
    enabled i + 10000 ≤ deadline + 1023 + longest
  le_enabled : ∀ i ≠ 0, ∀ deadline, s.2.1.completeAt i = some deadline →
    deadline ≤ enabled i + 10000

namespace OnSchedule

variable {bus : DmaBus W} {longest interruptPeriod : ℕ} {s s' : Emulation W} {enabled : Fin 8 → ℕ}
  {a : FirmwareAction W}

lemma new (name : String) (w : W) (longest : ℕ) :
    OnSchedule longest (HookClock.new, Dma.new name, w) fun _ => 0 :=
  ⟨le_rfl, le_rfl, Nat.zero_le _, nofun, nofun, nofun⟩

/-- An access that sets no deadline. -/
lemma of_completeAt (h : OnSchedule longest s enabled) {dma : Dma} {w : W}
    (hlast : dma.lastNow = s.2.1.lastNow) (hcomplete : dma.completeAt = s.2.1.completeAt) :
    OnSchedule longest (s.1, dma, w) enabled := by
  obtain ⟨hle, hpump, hcount, hstanding, henabled, hle'⟩ := h
  exact ⟨hlast ▸ hle, hlast ▸ hpump, hcount, hlast ▸ hcomplete ▸ hstanding, hcomplete ▸ henabled,
    hcomplete ▸ hle'⟩

/-- A block without a poll. -/
lemma enter (h : OnSchedule longest s enabled) {b : Block} (hb : b.halfwords ≤ longest)
    (hpump : ¬ s.1.Pumps) :
    OnSchedule longest (s.1.enter interruptPeriod b, s.2) enabled := by
  obtain ⟨hle, hlast, hcount, hstanding, henabled, hle'⟩ := h
  have hearly : s.1.numInstructions - s.1.lastPump < 1024 := not_le.mp hpump
  refine ⟨?_, ?_, ?_, hstanding, henabled, hle'⟩
  · exact hle.trans (Nat.le_add_right _ _)
  · change (if s.1.Pumps then _ else _) ≤ _
    rwa [if_neg hpump]
  · change _ + b.halfwords ≤ (if s.1.Pumps then _ else _) + 1023 + longest
    rw [if_neg hpump]
    omega

/-- A block with a poll, which takes the deadlines that have come. -/
lemma poll (h : OnSchedule longest s enabled) {b : Block} (hb : b.halfwords ≤ longest)
    (hpump : s.1.Pumps) {r : Dma × W}
    (hstep : Dma.step bus s.2 (.poll (s.1.enter interruptPeriod b).numInstructions) = some r) :
    OnSchedule longest (s.1.enter interruptPeriod b, r) enabled := by
  obtain ⟨hle, hlast, hcount, hstanding, henabled, hle'⟩ := h
  have hspec := Dma.step_spec hstep
  -- a deadline that is left has not come
  have hleft : ∀ i ≠ 0, ∀ deadline, r.1.completeAt i = some deadline →
      s.2.1.completeAt i = some deadline ∧
      (s.1.enter interruptPeriod b).numInstructions < deadline := by
    intro i _ deadline hdeadline
    rcases hspec.completeAt_eq i with ⟨⟨value, henables, -⟩, -⟩ | ⟨-, hcomplete⟩
    · cases henables
    · rw [hcomplete] at hdeadline
      split_ifs at hdeadline with hdone
      refine ⟨hdeadline, ?_⟩
      by_contra hcome
      exact hdone (Dma.mem_completing.mpr ⟨_, deadline, rfl, hdeadline, not_lt.mp hcome⟩)
  have hnow : r.1.lastNow = (s.1.enter interruptPeriod b).numInstructions := hspec.lastNow_eq
  have hlastPump : (s.1.enter interruptPeriod b).lastPump = s.1.numInstructions := if_pos hpump
  have hnext : (s.1.enter interruptPeriod b).numInstructions = s.1.numInstructions + b.halfwords :=
    rfl
  refine ⟨hnow.le, ?_, ?_, ?_, ?_, ?_⟩
  · dsimp only
    omega
  · dsimp only
    omega
  · intro i hi deadline hdeadline
    have hlt := (hleft i hi deadline hdeadline).2
    dsimp only
    omega
  · exact fun i hi deadline hdeadline => henabled i hi deadline (hleft i hi deadline hdeadline).1
  · exact fun i hi deadline hdeadline => hle' i hi deadline (hleft i hi deadline hdeadline).1

/-- A write may enable a stream, which sets a deadline. -/
lemma write (h : OnSchedule longest s enabled) {offset value : U32} {r : Dma × W}
    (hstep : Dma.step bus s.2 (.write offset value) = some r) :
    OnSchedule longest (s.1, r) (enabledAt enabled s (.write offset value)) := by
  obtain ⟨hle, hlast, hcount, hstanding, henabled, hle'⟩ := h
  have hspec := Dma.step_spec hstep
  have hnow : r.1.lastNow = s.2.1.lastNow := hspec.lastNow_eq
  -- a deadline is new, or is an old one of a stream that is not enabled again
  have hcases : ∀ i ≠ 0, ∀ deadline, r.1.completeAt i = some deadline →
      deadline = s.2.1.lastNow + 10000 ∧
      enabledAt enabled s (.write offset value) i = s.1.numInstructions ∨
      s.2.1.completeAt i = some deadline ∧
      enabledAt enabled s (.write offset value) i = enabled i := by
    intro i hi deadline hdeadline
    rcases hspec.completeAt_eq i with ⟨henables, -, hset⟩ | ⟨hno, hcomplete⟩
    · rw [hset] at hdeadline
      exact Or.inl ⟨(Option.some.inj hdeadline).symm,
        if_pos (DmaAction.enables_write_iff.mp henables)⟩
    · rw [hcomplete, if_neg (show i ∉ Dma.completing s.2 (.write offset value) from
        List.not_mem_nil)] at hdeadline
      exact Or.inr ⟨hdeadline, if_neg fun henables =>
        hi (hno (DmaAction.enables_write_iff.mpr henables))⟩
  refine ⟨hnow ▸ hle, hnow ▸ hlast, hcount, ?_, ?_, ?_⟩
  · intro i hi deadline hdeadline
    rcases hcases i hi deadline hdeadline with ⟨rfl, -⟩ | ⟨hold, -⟩
    · dsimp only
      omega
    · rw [hnow]
      exact hstanding i hi deadline hold
  · intro i hi deadline hdeadline
    rcases hcases i hi deadline hdeadline with ⟨rfl, heq⟩ | ⟨hold, heq⟩
    · rw [heq]
      omega
    · rw [heq]
      exact henabled i hi deadline hold
  · intro i hi deadline hdeadline
    rcases hcases i hi deadline hdeadline with ⟨rfl, heq⟩ | ⟨hold, heq⟩
    · rw [heq]
      omega
    · rw [heq]
      exact hle' i hi deadline hold

/-- Every step keeps the schedule. -/
lemma step (h : OnSchedule longest s enabled) (hwithin : BlocksWithin longest (s, enabled) a)
    (hstep : emulate bus interruptPeriod s a = some s') :
    OnSchedule longest s' (enabledAt enabled s a) := by
  cases a with
  | block b =>
    unfold emulate at hstep
    dsimp only at hstep
    split_ifs at hstep with hpump
    · obtain ⟨r, hr, rfl⟩ := Option.map_eq_some_iff.mp hstep
      exact h.poll hwithin hpump hr
    · obtain rfl := Option.some.inj hstep
      exact h.enter hwithin hpump
  | read offset =>
    obtain ⟨r, hr, rfl⟩ := Option.map_eq_some_iff.mp hstep
    obtain ⟨⟨dma, v⟩, hread, rfl⟩ := Option.map_eq_some_iff.mp hr
    obtain ⟨-, hcomplete, hnow, -, -⟩ := Dma.read_frame hread
    exact h.of_completeAt hnow hcomplete
  | write offset value =>
    obtain ⟨r, hr, rfl⟩ := Option.map_eq_some_iff.mp hstep
    exact h.write hr
  | other w =>
    obtain rfl := Option.some.inj hstep
    exact h.of_completeAt rfl rfl

end OnSchedule

/-- The runs of the emulation with blocks of at most so many half words. -/
abbrev EmulationRun (bus : DmaBus W) (interruptPeriod longest : ℕ) (start : Emulation W)
    (as : List (FirmwareAction W)) (s : Emulation W × (Fin 8 → ℕ)) : Prop :=
  Run (guardedStep (BlocksWithin longest)
    (stepRel (withGhost (emulate bus interruptPeriod) enabledAt))) (start, fun _ => 0) as s

/-- **How long transfers take.**  In every run, a stream that was enabled when the counter was `c`
and has not completed yet has been waiting for less than the delay and the interval of the polls.
When it completes, the counter is past `c` by the delay, up to the interval of the polls and a block
or two in either direction. -/
theorem transfer_latency (bus : DmaBus W) (name : String) (w : W) (interruptPeriod longest : ℕ)
    (as : List (FirmwareAction W)) (s : Emulation W) (enabled : Fin 8 → ℕ)
    (hrun : EmulationRun bus interruptPeriod longest
      (HookClock.new, Dma.new name, w) as (s, enabled))
    (i : Fin 8) (hi : i ≠ 0) (deadline : ℕ) (harmed : s.2.1.completeAt i = some deadline) :
    s.1.numInstructions ≤ enabled i + 10000 + 1022 + longest ∧
      ∀ b s', b.halfwords ≤ longest → emulate bus interruptPeriod s (.block b) = some s' →
        s'.2.1.completeAt i = none →
        enabled i + 10000 ≤ s'.1.numInstructions + 1023 + longest ∧
          s'.1.numInstructions ≤ enabled i + 10000 + 1022 + 2 * longest := by
  have h : OnSchedule longest s enabled :=
    hrun.invariant_state (I := fun s => OnSchedule longest s.1 s.2) (OnSchedule.new name w longest)
      fun p p' a hp hstep => by
        obtain ⟨hnext, hghost⟩ := withGhost_eq_some.mp hstep.2
        rw [← hghost]
        exact hp.step hstep.1 hnext
  obtain ⟨hle, hlast, hcount, hstanding, henabled, hle'⟩ := h
  have hdeadline := hstanding i hi deadline harmed
  have hlower := henabled i hi deadline harmed
  have hupper := hle' i hi deadline harmed
  refine ⟨by omega, fun b s' hb hstep hdone => ?_⟩
  unfold emulate at hstep
  dsimp only at hstep
  split_ifs at hstep with hpump
  · obtain ⟨r, hr, rfl⟩ := Option.map_eq_some_iff.mp hstep
    have hcome : deadline ≤ (s.1.enter interruptPeriod b).numInstructions := by
      by_contra hearly
      rcases (Dma.step_spec hr).completeAt_eq i with ⟨⟨value, henables, -⟩, -⟩ | ⟨-, hcomplete⟩
      · cases henables
      · rw [hcomplete, if_neg, harmed] at hdone
        · cases hdone
        · intro hmem
          obtain ⟨now, deadline', hnow, harmed', hdue⟩ := Dma.mem_completing.mp hmem
          obtain rfl : deadline' = deadline := Option.some.inj (harmed'.symm.trans harmed)
          cases hnow
          exact hearly hdue
    have hnext : (s.1.enter interruptPeriod b).numInstructions =
        s.1.numInstructions + b.halfwords := rfl
    dsimp only
    omega
  · obtain rfl := Option.some.inj hstep
    exact absurd (hdone.symm.trans harmed) (Option.some_ne_none deadline).symm

/-- Stream four of `DMA2` is enabled, and a block is entered. -/
def sampleLatency : List (FirmwareAction Nvic) :=
  [.write 0x70 0x11, .block ⟨[.narrow], 1, by decide, by decide⟩]

theorem transfer_latency_sample : ∃ s enabled,
    EmulationRun Dma.idleDmaBus 1 1 (HookClock.new, Dma.new "DMA2", Nvic.default) sampleLatency
      (s, enabled) ∧
      s.2.1.completeAt 4 = some 10000 ∧ s.1.numInstructions ≤ enabled 4 + 10000 + 1022 + 1 := by
  have hexec : (execGuarded (BlocksWithin 1) (withGhost (emulate Dma.idleDmaBus 1) enabledAt)
      ((HookClock.new, Dma.new "DMA2", Nvic.default), fun _ => 0) sampleLatency).map
        (fun s => s.1.2.1.completeAt 4) = some (some 10000) := by
    rfl
  obtain ⟨⟨s, enabled⟩, hexec, harmed⟩ := Option.map_eq_some_iff.mp hexec
  have hrun := Run.of_execGuarded hexec
  exact ⟨s, enabled, hrun, harmed,
    (transfer_latency Dma.idleDmaBus "DMA2" Nvic.default 1 1 _ s enabled hrun 4
      (by decide) 10000 harmed).1⟩

end Stm32Emulator
