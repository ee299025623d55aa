import Stm32Emulator.Dma.Enable

/-!
# The control register as a register

But for the enable bit, which completions clear and reads may toggle, a control register should hold
what firmware has written last.  A read announces a value for the next read to move on to.  When
firmware writes the register in between, the next read still moves on to the value announced, and
with it the stream falls back to what it was set up for before the write.
-/

namespace Stm32Emulator

open Function DmaAction

variable {W : Type}

/-- The enable bit, the only one that firmware does not own. -/
def enBit : U32 := 1

namespace DmaStream

/-- What a transfer depends on, and bits 31..1 of the control register, are the same. -/
structure SameSetup (stream stream' : DmaStream) : Prop where
  cr_agree : AgreeOutside enBit stream'.cr stream.cr
  dir_eq : stream'.dir = stream.dir
  wordSize_eq : stream'.wordSize = stream.wordSize
  dataSize_eq : stream'.dataSize = stream.dataSize
  channel_eq : stream'.channel = stream.channel
  tcie_iff : stream'.Tcie ↔ stream.Tcie
  dataAddr_eq : stream'.dataAddr = stream.dataAddr
  par_eq : stream'.par = stream.par

variable {stream stream' : DmaStream} {x y : U32}

/-- Agreement in bits 31..1 is equality of the upper bits. -/
lemma shiftRight_eq_of_agree (h : AgreeOutside enBit x y) {k : ℕ} (hk : 0 < k) :
    x >>> k = y >>> k := by
  apply BitVec.eq_of_getLsbD_eq
  intro i _
  rw [BitVec.getLsbD_ushiftRight, BitVec.getLsbD_ushiftRight]
  have hbit : enBit.getLsbD (k + i) = decide (k + i = 0) := by
    simp [enBit]
  refine agreeOutside_iff.mp h (k + i) ?_
  rw [hbit, decide_eq_false_iff_not]
  omega

lemma tcie_iff_getLsbD (stream : DmaStream) : stream.Tcie ↔ stream.cr.getLsbD 4 = true :=
  and_one_shiftLeft_ne_zero_iff stream.cr 4

/-- The setup of a stream is in bits 31..1 of its control register and in its other registers. -/
lemma sameSetup_of_agree (h : AgreeOutside enBit stream'.cr stream.cr)
    (hndtr : stream'.ndtr = stream.ndtr) (hpar : stream'.par = stream.par)
    (hm0ar : stream'.m0ar = stream.m0ar) (hm1ar : stream'.m1ar = stream.m1ar) :
    SameSetup stream stream' := by
  have hshift : ∀ {k}, 0 < k → stream'.cr >>> k = stream.cr >>> k :=
    fun hk => shiftRight_eq_of_agree h hk
  have hword : stream'.wordSize = stream.wordSize := by
    unfold wordSize
    rw [hshift (by omega)]
  refine ⟨h, ?_, hword, ?_, ?_, ?_, ?_, hpar⟩
  · unfold dir
    rw [hshift (by omega)]
  · unfold dataSize
    rw [hword, hndtr]
  · unfold channel
    rw [hshift (by omega)]
  · rw [tcie_iff_getLsbD, tcie_iff_getLsbD, agreeOutside_iff.mp h 4 (by decide)]
  · unfold dataAddr
    rw [hshift (by omega), hm0ar, hm1ar]

lemma SameSetup.refl (stream : DmaStream) : SameSetup stream stream :=
  sameSetup_of_agree (AgreeOutside.refl _ _) rfl rfl rfl rfl

/-- Reading the control register leaves the other registers alone. -/
lemma readCr_frame (stream : DmaStream) : stream.readCr.1.ndtr = stream.ndtr ∧
    stream.readCr.1.par = stream.par ∧ stream.readCr.1.m0ar = stream.m0ar ∧
    stream.readCr.1.m1ar = stream.m1ar := by
  unfold readCr
  rcases stream.nextCr with _ | next
  · dsimp only
    split_ifs <;> exact ⟨rfl, rfl, rfl, rfl⟩
  · dsimp only
    split_ifs <;> exact ⟨rfl, rfl, rfl, rfl⟩

lemma readCr_snd (stream : DmaStream) : stream.readCr.2 = stream.cr := by
  unfold readCr
  dsimp only
  split_ifs <;> rfl

/-- A read keeps the setup exactly when the value announced, if there is one, is the present one but
for the enable bit. -/
lemma sameSetup_readCr_iff (stream : DmaStream) : SameSetup stream stream.readCr.1 ↔
    ∀ next ∈ stream.nextCr, AgreeOutside enBit next stream.cr := by
  have hcr := Dma.readCr_cr stream
  constructor
  · intro h next hnext
    have hagree := h.cr_agree
    rwa [hcr, Option.mem_def.mp hnext, Option.getD_some] at hagree
  · intro h
    obtain ⟨hndtr, hpar, hm0ar, hm1ar⟩ := stream.readCr_frame
    refine sameSetup_of_agree ?_ hndtr hpar hm0ar hm1ar
    rw [hcr]
    rcases hnext : stream.nextCr with _ | next
    · exact AgreeOutside.refl _ _
    · exact h next hnext

/-- A completion clears the enable bit. -/
lemma agree_finishTransfer (stream : DmaStream) :
    AgreeOutside enBit stream.finishTransfer.cr stream.cr := by
  have hcr : stream.finishTransfer.cr = stream.cr &&& ~~~enBit := rfl
  unfold AgreeOutside
  rw [hcr, BitVec.and_assoc, BitVec.and_self]

end DmaStream

namespace Dma

/-! ## Runs -/

/-- What firmware has written last to a control register. -/
def lastCr (as : List (DmaAction W)) (i : Fin 8) : U32 :=
  as.foldl (fun last a => match a with
    | .write offset value => if offset = crOffset i then value else last
    | _ => last) 0

/-- A read of a control register finds no other value announced, but for the enable bit; and of
stream zero, whose registers nothing reaches, only the enable bit is written. -/
def CrCurrent (s : Dma × W) : DmaAction W → Prop
  | .read offset => ∀ i ≠ 0, offset = crOffset i →
    ∀ next ∈ (s.1.streams i).nextCr, AgreeOutside enBit next (s.1.streams i).cr
  | .write offset value => offset = crOffset 0 → AgreeOutside enBit value 0
  | _ => True

instance (mask a b : U32) : Decidable (AgreeOutside mask a b) := inferInstanceAs (Decidable (_ = _))

instance (s : Dma × W) (a : DmaAction W) : Decidable (CrCurrent s a) :=
  match a with
  | .read offset =>
    -- there is one value announced at most, so that not all words are tried
    letI (i : Fin 8) : Decidable
      (∀ next ∈ (s.1.streams i).nextCr, AgreeOutside enBit next (s.1.streams i).cr) :=
      Option.decidableForallMem _
    inferInstanceAs (Decidable (∀ i ≠ 0, offset = crOffset i →
      ∀ next ∈ (s.1.streams i).nextCr, AgreeOutside enBit next (s.1.streams i).cr))
  | .write offset value =>
    inferInstanceAs (Decidable (offset = crOffset 0 → AgreeOutside enBit value 0))
  | .poll _ => isTrue trivial
  | .other _ => isTrue trivial

lemma lastCr_snoc (as : List (DmaAction W)) (a : DmaAction W) (i : Fin 8) :
    lastCr (as ++ [a]) i = match a with
      | .write offset value => if offset = crOffset i then value else lastCr as i
      | _ => lastCr as i := by
  unfold lastCr
  rw [List.foldl_append]
  rfl

section Access

variable {dma dma' : Dma} {v : U32} {i : Fin 8} {s : Dma × W}

lemma crOffset_injective : Function.Injective crOffset := by
  intro i j h
  have hnat := congrArg BitVec.toNat h
  rw [toNat_crOffset, toNat_crOffset] at hnat
  exact Fin.ext (by omega)

/-- Reading a control register reads that of the stream, but for stream zero. -/
lemma read_crOffset (hi : i ≠ 0) : dma.read (crOffset i)
    = some ({ dma with streams := update dma.streams i (dma.streams i).readCr.1 },
      (dma.streams i).cr) := by
  unfold read
  rw [fromOffset_crOffset hi]
  dsimp only
  rw [dif_pos i.isLt, ← (dma.streams i).readCr_snd]
  rfl

lemma read_crOffset_zero : dma.read (crOffset 0) = some (dma, 0) := rfl

/-- Completions change of a control register the enable bit alone. -/
lemma agree_completeAll (done : List (Fin 8)) (dma : Dma) (i : Fin 8) :
    AgreeOutside enBit ((dma.completeAll done).streams i).cr (dma.streams i).cr := by
  induction done generalizing dma with
  | nil => exact AgreeOutside.refl _ _
  | cons j done ih =>
    rw [completeAll_cons]
    refine (ih (dma.complete j)).trans ?_
    rw [complete_streams]
    by_cases hij : i = j
    · rw [hij, update_self]
      exact (dma.streams j).agree_finishTransfer
    · rw [update_of_ne hij]

lemma crCurrent_read_iff (hi : i ≠ 0) : CrCurrent s (.read (crOffset i)) ↔
    ∀ next ∈ (s.1.streams i).nextCr, AgreeOutside enBit next (s.1.streams i).cr := by
  constructor
  · exact fun h => h i hi rfl
  · intro h j _ hoffset
    rw [← crOffset_injective hoffset]
    exact h

/-- A change of one stream keeps the setup of all exactly when it keeps that of the stream. -/
lemma forall_sameSetup_update_iff (streams : Fin 8 → DmaStream) (i : Fin 8) (stream : DmaStream) :
    (∀ j, (streams j).SameSetup (update streams i stream j)) ↔ (streams i).SameSetup stream := by
  constructor
  · intro h
    have hself := h i
    rwa [update_self] at hself
  · intro h j
    by_cases hij : j = i
    · rwa [hij, update_self]
    · rw [update_of_ne hij]
      exact DmaStream.SameSetup.refl _

end Access

/-- The control registers hold what has been written last. -/
structure CrInvariant (as : List (DmaAction W)) (dma : Dma) : Prop where
  agree : ∀ i, AgreeOutside enBit (dma.streams i).cr (lastCr as i)
  zero : AgreeOutside enBit (lastCr as 0) 0

variable {bus : DmaBus W} {s s' : Dma × W} {a : DmaAction W} {as : List (DmaAction W)}

/-- A change of enable bits alone, and none by firmware. -/
lemma CrInvariant.of_agree {as' : List (DmaAction W)} {dma dma' : Dma} (h : CrInvariant as dma)
    (hlast : ∀ i, lastCr as' i = lastCr as i)
    (hagree : ∀ i, AgreeOutside enBit (dma'.streams i).cr (dma.streams i).cr) :
    CrInvariant as' dma' := by
  constructor
  · intro i
    rw [hlast]
    exact (hagree i).trans (h.agree i)
  · rw [hlast]
    exact h.zero

/-- **One action** that finds nothing else announced. -/
lemma CrInvariant.step (h : CrInvariant as s.1) (hcurrent : CrCurrent s a)
    (hstep : Dma.step bus s a = some s') :
    CrInvariant (as ++ [a]) s'.1 := by
  cases a with
  | read offset =>
    obtain ⟨⟨dma, v⟩, hread, rfl⟩ := Option.map_eq_some_iff.mp hstep
    refine h.of_agree (lastCr_snoc as _) fun i => ?_
    rcases read_cr hread i with hsame | ⟨rfl, hnext⟩
    · exact congrArg (· &&& ~~~enBit) hsame
    · by_cases hi : i = 0
      · rw [hi, read_crOffset_zero] at hread
        rw [← (Prod.mk.inj (Option.some.inj hread)).1]
      · exact hcurrent i hi rfl _ hnext
  | write offset value =>
    obtain ⟨dma, hwrite, rfl⟩ := Option.map_eq_some_iff.mp hstep
    have hzero : AgreeOutside enBit (lastCr (as ++ [.write offset value]) 0) 0 := by
      rw [lastCr_snoc]
      dsimp only
      split
      · next hoffset => exact hcurrent hoffset
      · exact h.zero
    refine ⟨fun i => ?_, hzero⟩
    rw [write_cr hwrite i]
    by_cases hi : i = 0
    · rw [if_neg (by simp [hi]), hi]
      exact ((h.agree 0).trans h.zero).trans hzero.symm
    · rw [lastCr_snoc]
      dsimp only
      by_cases hoffset : offset = crOffset i
      · rw [if_pos ⟨hi, hoffset⟩, if_pos hoffset]
      · rw [if_neg fun hboth => hoffset hboth.2, if_neg hoffset]
        exact h.agree i
  | poll now =>
    have hpoll : s.1.advanceTo bus now s.2 = some s' := hstep
    rw [advanceTo_eq] at hpoll
    obtain ⟨w, -, rfl⟩ := Option.map_eq_some_iff.mp hpoll
    exact h.of_agree (lastCr_snoc as _) (agree_completeAll _ _)
  | other w =>
    obtain rfl := Option.some.inj hstep
    exact h.of_agree (lastCr_snoc as _) fun _ => AgreeOutside.refl _ _

/-- **The control registers are registers**, but for their enable bits, in every run in which each
read of one finds no other value announced and nothing but the enable bit of stream zero is written:
a read returns bits 31..1 as they were written last; and it keeps the setup of all streams exactly
when it finds no other value announced itself. -/
theorem cr_faithful (bus : DmaBus W) {name : String} {w₀ : W} {as : List (DmaAction W)}
    {s : Dma × W}
    (hrun : Run (guardedStep CrCurrent (stepRel (Dma.step bus))) (Dma.new name, w₀) as s)
    (i : Fin 8) :
    ∃ dma' v, s.1.read (crOffset i) = some (dma', v) ∧ AgreeOutside enBit v (lastCr as i) ∧
      ((∀ j, (s.1.streams j).SameSetup (dma'.streams j)) ↔ CrCurrent s (.read (crOffset i))) := by
  have hinv : CrInvariant as s.1 := by
    refine hrun.invariant (I := fun as s => CrInvariant as s.1)
      ⟨fun _ => AgreeOutside.refl _ _, AgreeOutside.refl _ _⟩ ?_
    rintro as s s' a h ⟨hcurrent, hstep⟩
    exact h.step hcurrent hstep
  by_cases hi : i = 0
  · subst hi
    refine ⟨s.1, 0, read_crOffset_zero, hinv.zero.symm,
      iff_of_true (fun j => DmaStream.SameSetup.refl _) ?_⟩
    intro j hj hoffset
    exact absurd (crOffset_injective hoffset).symm hj
  · refine ⟨_, _, read_crOffset hi, hinv.agree i, ?_⟩
    rw [crCurrent_read_iff hi, ← DmaStream.sameSetup_readCr_iff]
    exact forall_sameSetup_update_iff s.1.streams i _

/-- Stream four is set up for an empty write, and firmware waits for its enable bit to toggle. -/
def samplePolling : List (DmaAction Nvic) := [.write 0x70 0x40, .read 0x70, .read 0x70, .read 0x70]

theorem cr_faithful_sample : ∃ s : Dma × Nvic, ∃ dma' v,
    Run (guardedStep CrCurrent (stepRel (Dma.step idleDmaBus)))
    (Dma.new "DMA2", Nvic.default) samplePolling s ∧
      s.1.read 0x70 = some (dma', v) ∧ AgreeOutside enBit v 0x40 := by
  have hexec : (execGuarded CrCurrent (Dma.step idleDmaBus) (Dma.new "DMA2", Nvic.default)
      samplePolling).isSome := by decide +kernel
  obtain ⟨s, hs⟩ := Option.isSome_iff_exists.mp hexec
  have hrun := Run.of_execGuarded hs
  obtain ⟨dma', v, hread, hagree, -⟩ := cr_faithful idleDmaBus hrun 4
  exact ⟨s, dma', v, hrun, hread, hagree⟩

/-- Stream four is set up for an empty write and read once; then firmware sets it up for a read with
an interrupt, enables it, and reads `CR` while it waits. -/
def sampleReuse : List (DmaAction Nvic) :=
  [.write 0x70 0x40, .read 0x70, .write 0x70 0x411, .read 0x70]

/-- The stream is set up for the write again, and has lost its interrupt; and `CR` reads so. -/
theorem announced_cr_replaces_written : ∃ s : Dma × Nvic,
    Run (stepRel (Dma.step idleDmaBus)) (Dma.new "DMA2", Nvic.default) sampleReuse s ∧
      lastCr sampleReuse 4 = 0x411 ∧ (s.1.streams 4).dir = .write ∧ ¬ (s.1.streams 4).Tcie ∧
      (s.1.read 0x70).map Prod.snd = some 0x41 ∧ ¬ AgreeOutside enBit 0x41 0x411 := by
  have hexec : (execGuarded (fun _ _ => True) (Dma.step idleDmaBus) (Dma.new "DMA2", Nvic.default)
      sampleReuse).map (fun s => ((s.1.streams 4).dir, decide (s.1.streams 4).Tcie,
        (s.1.read 0x70).map Prod.snd)) = some (.write, false, some 0x41) := by decide +kernel
  obtain ⟨s, hs, hvalues⟩ := Option.map_eq_some_iff.mp hexec
  simp only [Prod.mk.injEq, decide_eq_false_iff_not] at hvalues
  exact ⟨s, (Run.of_execGuarded hs).mono fun _ _ _ h => h.2, by
    decide, hvalues.1, hvalues.2.1, hvalues.2.2, by decide⟩

end Dma

end Stm32Emulator
