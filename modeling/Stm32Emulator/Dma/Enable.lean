import Stm32Emulator.Dma.Completion

/-!
# Transfers of enabled streams

Writing a control register without the enable bit stops a stream but leaves its deadline, and so
does the value that a read of the control register moves on to.  As long as neither happens to an
armed stream, whatever transfers has been enabled since it was armed (`Dma.transfers_only_enabled`).
-/

namespace Stm32Emulator

open Function DmaAction

variable {W : Type}

namespace Dma

/-! ## The enable bit -/

section Access

variable {dma dma' : Dma} {offset value v : U32} {i : Fin 8}

lemma stream_write_cr (stream : DmaStream) (o : ℕ) (value : U32) :
    (stream.write o value).1.cr = if o = 0 then value else stream.cr := by
  unfold DmaStream.write
  by_cases ho : o = 0
  · simp [ho]
  · simp only [ho, if_false]
    split_ifs <;> rfl

/-- A write changes the control register that it addresses. -/
lemma write_cr (h : dma.write offset value = some dma') (i : Fin 8) :
    (dma'.streams i).cr = if i ≠ 0 ∧ offset = crOffset i then value else (dma.streams i).cr := by
  rw [if_congr fromOffset_eq_cr_iff.symm rfl rfl]
  rcases haccess : DmaAccess.fromOffset offset with o | ⟨j, o⟩
  · rw [write_of_reg haccess h, if_neg (nofun : DmaAccess.reg o ≠ .streamReg i.val 0)]
    split_ifs <;> rfl
  · obtain ⟨hj, rfl⟩ := write_of_streamReg haccess h
    dsimp only
    by_cases hi : DmaAccess.streamReg j o = .streamReg i.val 0
    · cases hi
      rw [if_pos rfl, update_self, stream_write_cr, if_pos rfl]
    · rw [if_neg hi]
      by_cases hij : i = ⟨j, hj⟩
      · subst hij
        rw [update_self, stream_write_cr, if_neg]
        rintro rfl
        exact hi rfl
      · rw [update_of_ne hij]

/-- Reading the control register moves on to the value announced, if there is one. -/
lemma readCr_cr (stream : DmaStream) : stream.readCr.1.cr = stream.nextCr.getD stream.cr := by
  unfold DmaStream.readCr
  cases stream.nextCr with
  | none =>
    dsimp only
    split_ifs <;> rfl
  | some next =>
    dsimp only
    split_ifs <;> rfl

/-- A read changes a control register at most to the value announced. -/
lemma read_cr (h : dma.read offset = some (dma', v)) (i : Fin 8) :
    (dma'.streams i).cr = (dma.streams i).cr ∨
      (offset = crOffset i ∧ (dma.streams i).nextCr = some (dma'.streams i).cr) := by
  unfold read at h
  rcases haccess : DmaAccess.fromOffset offset with o | ⟨j, o⟩
  · rw [haccess] at h
    obtain ⟨rfl, -⟩ := Prod.mk.inj (Option.some.inj h)
    exact Or.inl rfl
  · obtain ⟨-, hoffset⟩ := fromOffset_eq_streamReg haccess
    rw [haccess] at h
    dsimp only at h
    split_ifs at h with hj
    obtain ⟨rfl, -⟩ := Prod.mk.inj (Option.some.inj h)
    dsimp only
    by_cases hij : i = ⟨j, hj⟩
    · subst hij
      rw [update_self]
      unfold DmaStream.read
      by_cases ho : o = 0
      · subst ho
        rw [if_pos rfl, readCr_cr]
        cases hnext : (dma.streams ⟨j, hj⟩).nextCr with
        | none => exact Or.inl rfl
        | some next =>
          refine Or.inr ⟨?_, rfl⟩
          apply BitVec.eq_of_toNat_eq
          rw [toNat_crOffset]
          exact hoffset
      · rw [if_neg ho]
        exact Or.inl rfl
    · rw [update_of_ne hij]
      exact Or.inl rfl

end Access

/-! ## Runs that keep armed streams enabled -/

/-- The stream was armed by an action of the history, and has been enabled in every state from then
on. -/
def EnabledSinceArmed (bus : DmaBus W) (start : Dma × W) (as : List (DmaAction W))
    (i : Fin 8) : Prop :=
  ∃ before a after, as = before ++ a :: after ∧ a.Enables i ∧ (∀ b ∈ after, ¬ b.Enables i) ∧
    ∀ mid s, mid <+: after → Run (stepRel (Dma.step bus)) start (before ++ a :: mid) s →
      (s.1.streams i).En

/-- Nothing disables an armed stream: no write of its control register, and no read of it that moves
on to a value without the enable bit. -/
def KeepsArmedEnabled (s : Dma × W) (a : DmaAction W) : Prop :=
  ∀ i, s.1.completeAt i ≠ none →
    (∀ value, a = .write (crOffset i) value → value &&& 1 ≠ 0) ∧
      (a = .read (crOffset i) → ∀ next, (s.1.streams i).nextCr = some next → next &&& 1 ≠ 0)

variable {bus : DmaBus W} {s s' : Dma × W} {a : DmaAction W} {as : List (DmaAction W)}

/-- A poll changes no stream but those that complete. -/
lemma poll_streams_of_notMem {now : ℕ} (hstep : Dma.step bus s (.poll now) = some s') {i : Fin 8}
    (hdone : i ∉ s.1.dueStreams now) : s'.1.streams i = s.1.streams i := by
  have hpoll : s.1.advanceTo bus now s.2 = some s' := hstep
  rw [advanceTo_eq] at hpoll
  obtain ⟨w, -, rfl⟩ := Option.map_eq_some_iff.mp hpoll
  exact completeAll_streams_of_notMem hdone

/-- An armed stream that stays armed stays enabled. -/
lemma en_of_keeps (hkeeps : KeepsArmedEnabled s a) (hstep : Dma.step bus s a = some s') {i : Fin 8}
    (hen : (s.1.streams i).En) (harmed : s.1.completeAt i ≠ none) (hdone : i ∉ completing s a) :
    (s'.1.streams i).En := by
  obtain ⟨hwrite, hread⟩ := hkeeps i harmed
  cases a with
  | read offset =>
    obtain ⟨⟨dma, v⟩, hr, rfl⟩ := Option.map_eq_some_iff.mp hstep
    rcases read_cr hr i with hcr | ⟨rfl, hnext⟩
    · unfold DmaStream.En
      rwa [hcr]
    · exact hread rfl _ hnext
  | write offset value =>
    obtain ⟨dma, hw, rfl⟩ := Option.map_eq_some_iff.mp hstep
    unfold DmaStream.En
    rw [write_cr hw i]
    split_ifs with hi
    · obtain ⟨-, rfl⟩ := hi
      exact hwrite value rfl
    · exact hen
  | poll now =>
    have hsame : s'.1.streams i = s.1.streams i := poll_streams_of_notMem hstep hdone
    rwa [hsame]
  | other w =>
    obtain rfl := Option.some.inj hstep
    exact hen

/-- What is armed has been enabled since it was armed. -/
lemma EnabledSinceArmed.step {name : String} {w₀ : W}
    (hrun : Run (stepRel (Dma.step bus)) (Dma.new name, w₀) as s)
    (hkeeps : KeepsArmedEnabled s a) (hstep : Dma.step bus s a = some s')
    (ih : ∀ i, s.1.completeAt i ≠ none → EnabledSinceArmed bus (Dma.new name, w₀) as i) (i : Fin 8)
    (harmed : s'.1.completeAt i ≠ none) :
    EnabledSinceArmed bus (Dma.new name, w₀) (as ++ [a]) i := by
  have hrun' : Run (stepRel (Dma.step bus)) (Dma.new name, w₀) (as ++ [a]) s' := hrun.snoc hstep
  rcases (step_spec hstep).completeAt_eq i with ⟨hen, hne, -⟩ | ⟨hnot, hset⟩
  · refine ⟨as, a, [], rfl, hen, by simp, ?_⟩
    rintro mid s₁ hmid hs₁
    obtain rfl := List.prefix_nil.mp hmid
    obtain rfl := hrun'.deterministic hs₁
    obtain ⟨value, rfl, hvalue⟩ := hen
    obtain ⟨dma, hw, rfl⟩ := Option.map_eq_some_iff.mp hstep
    unfold DmaStream.En
    rwa [write_cr hw i, if_pos ⟨hne, rfl⟩]
  · rw [hset] at harmed
    have hdone : i ∉ completing s a := fun h => harmed (if_pos h)
    rw [if_neg hdone] at harmed
    have hno : ¬ a.Enables i := by
      intro hen
      obtain rfl := hnot hen
      exact harmed (run_tracks hrun).completeAt_zero
    obtain ⟨before, b, after, rfl, hb, hlater, hall⟩ := ih i harmed
    refine ⟨before, b, after ++ [a], by simp, hb, ?_, ?_⟩
    · intro c hc
      rcases List.mem_append.mp hc with hc | hc
      · exact hlater c hc
      · rwa [List.mem_singleton.mp hc]
    · intro mid s₁ hmid hs₁
      rcases List.prefix_concat_iff.mp hmid with rfl | hmid
      · have hwhole : Run (stepRel (Dma.step bus)) (Dma.new name, w₀)
            (before ++ b :: (after ++ [a])) s' := by
          simpa using hrun'
        obtain rfl := hwhole.deterministic hs₁
        exact en_of_keeps hkeeps hstep (hall after s List.prefix_rfl hrun) harmed hdone
      · exact hall mid s₁ hmid hs₁

/-- In a run that keeps armed streams enabled every armed stream has been enabled since it was
armed. -/
lemma run_enabledSinceArmed {name : String} {w₀ : W}
    (hrun : Run (guardedStep KeepsArmedEnabled (stepRel (Dma.step bus))) (Dma.new name, w₀) as s)
    (i : Fin 8) (harmed : s.1.completeAt i ≠ none) :
    EnabledSinceArmed bus (Dma.new name, w₀) as i := by
  have hboth : Run (stepRel (Dma.step bus)) (Dma.new name, w₀) as s ∧
      ∀ i, s.1.completeAt i ≠ none → EnabledSinceArmed bus (Dma.new name, w₀) as i := by
    refine hrun.invariant (I := fun as s => Run (stepRel (Dma.step bus)) (Dma.new name, w₀) as s ∧
      ∀ i, s.1.completeAt i ≠ none → EnabledSinceArmed bus (Dma.new name, w₀) as i) ?_ ?_
    · exact ⟨Run.nil, fun i h => absurd rfl h⟩
    · rintro as s s' a ⟨hrun, ih⟩ ⟨hkeeps, hstep⟩
      exact ⟨hrun.snoc hstep, EnabledSinceArmed.step hrun hkeeps hstep ih⟩
  exact hboth.2 i harmed

/-- The flags of different streams are different bits. -/
lemma tcif_injective (i j : Fin 8) (hhigh : 4 ≤ j.val ↔ decide (4 ≤ i.val) = true)
    (hbit : tcifPosition (i.val % 4) = tcifPosition (j.val % 4)) : i = j := by
  revert i j
  decide

/-- **Only enabled streams transfer**, in every run in which nothing disables an armed stream.  A
poll transfers for the streams `done`; a stream that is not enabled is not among them, and its
registers and its flag stay as they are. -/
theorem transfers_only_enabled (bus : DmaBus W) {name : String} {w₀ : W} {as : List (DmaAction W)}
    {s s' : Dma × W} {now : ℕ}
    (hrun : Run (guardedStep KeepsArmedEnabled (stepRel (Dma.step bus))) (Dma.new name, w₀) as s)
    (hpoll : Dma.step bus s (.poll now) = some s') :
    ∃ done : List (Fin 8),
      done.foldlM (fun w i => s.1.transfer bus i w) s.2 = some s'.2 ∧
      (∀ i ∈ done, EnabledSinceArmed bus (Dma.new name, w₀) as i) ∧
      (∀ i, ¬ (s.1.streams i).En → i ∉ done) ∧
      ∀ i, i ∉ done → s'.1.streams i = s.1.streams i ∧
        (s'.1.status (decide (4 ≤ i.val))).getLsbD (tcifPosition (i.val % 4)) =
          (s.1.status (decide (4 ≤ i.val))).getLsbD (tcifPosition (i.val % 4)) := by
  have hsince : ∀ i ∈ s.1.dueStreams now, EnabledSinceArmed bus (Dma.new name, w₀) as i := by
    intro i hi
    obtain ⟨deadline, hat, -⟩ := mem_dueStreams.mp hi
    apply run_enabledSinceArmed hrun
    rw [Option.mem_def.mp hat]
    exact Option.some_ne_none _
  refine ⟨s.1.dueStreams now, ?_, hsince, ?_, ?_⟩
  · have h : s.1.advanceTo bus now s.2 = some s' := hpoll
    rw [advanceTo_eq] at h
    obtain ⟨w, hw, rfl⟩ := Option.map_eq_some_iff.mp h
    exact hw
  · intro i hdisabled hi
    obtain ⟨before, a, after, rfl, -, -, hall⟩ := hsince i hi
    exact hdisabled (hall after s List.prefix_rfl (hrun.mono fun _ _ _ h => h.2))
  · intro i hi
    refine ⟨poll_streams_of_notMem hpoll hi, ?_⟩
    have hiff := (step_spec hpoll).status_iff (decide (4 ≤ i.val)) (tcifPosition (i.val % 4))
    have hclear := not_clears (a := DmaAction.poll (W := W) now) (by simp) (decide (4 ≤ i.val))
      (tcifPosition (i.val % 4))
    rw [Bool.eq_iff_iff, hiff]
    constructor
    · rintro (⟨j, hj, hhigh, hbit⟩ | ⟨hb, -⟩)
      · exact absurd (tcif_injective i j hhigh hbit ▸ hj) hi
      · exact hb
    · intro hb
      exact Or.inr ⟨hb, hclear⟩

/-- Stream four of `DMA2` is enabled and transfers. -/
theorem transfers_only_enabled_sample : ∃ s s' : Dma × Nvic,
    Dma.step idleDmaBus s (.poll 10000) = some s' ∧ ∃ done : List (Fin 8), 4 ∈ done ∧
      ∀ i ∈ done, EnabledSinceArmed idleDmaBus (Dma.new "DMA2", Nvic.default)
        [.write 0x70 0x11] i := by
  have hwrite : ∃ s, Dma.step idleDmaBus (Dma.new "DMA2", Nvic.default)
      (.write 0x70 0x11) = some s :=
    ⟨_, rfl⟩
  obtain ⟨s, hs⟩ := hwrite
  have hkeeps : KeepsArmedEnabled (Dma.new "DMA2", Nvic.default) (.write 0x70 0x11) :=
    fun i h => absurd rfl h
  have hpoll : ∃ s', Dma.step idleDmaBus s (.poll 10000) = some s' ∧
      (s'.1.streams 4).cr ≠ (s.1.streams 4).cr := by
    cases hs
    exact ⟨_, rfl, by decide⟩
  obtain ⟨s', hs', hchanged⟩ := hpoll
  obtain ⟨done, -, hsince, -, hkept⟩ :=
    transfers_only_enabled idleDmaBus (Run.single ⟨hkeeps, hs⟩) hs'
  refine ⟨s, s', hs', done, ?_, hsince⟩
  by_contra hnot
  exact hchanged (congrArg DmaStream.cr (hkept 4 hnot).1)

/-- A stream that is disabled before its deadline still transfers, sets its flag and pends its
interrupt. -/
theorem disabled_stream_transfers : ∃ s s' : Dma × Nvic,
    Run (stepRel (Dma.step idleDmaBus)) (Dma.new "DMA2", Nvic.default)
        [.write 0x70 0x11, .write 0x74 3, .write 0x70 0x10] s ∧
      Dma.step idleDmaBus s (.poll 10000) = some s' ∧
      ¬ (s.1.streams 4).En ∧ (s.1.streams 4).ndtr = 3 ∧ (s'.1.streams 4).ndtr = 0 ∧
      (s.1.status true).getLsbD 5 = false ∧ (s'.1.status true).getLsbD 5 = true ∧
      s'.2.isPending 60 = true := by
  have hexec : ∃ s, execGuarded (fun _ _ => True) (Dma.step idleDmaBus)
      (Dma.new "DMA2", Nvic.default) [.write 0x70 0x11, .write 0x74 3, .write 0x70 0x10] = some s :=
    ⟨_, rfl⟩
  obtain ⟨s, hs⟩ := hexec
  have hrun : Run (stepRel (Dma.step idleDmaBus)) (Dma.new "DMA2", Nvic.default)
      [.write 0x70 0x11, .write 0x74 3, .write 0x70 0x10] s :=
    (Run.of_execGuarded hs).mono fun _ _ _ h => h.2
  cases hs
  exact ⟨_, _, hrun, rfl, by decide, by decide, by decide, by decide, by decide, by decide⟩

end Dma

end Stm32Emulator
