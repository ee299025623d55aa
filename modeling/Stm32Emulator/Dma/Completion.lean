import Stm32Emulator.Dma.Transfer
import Stm32Emulator.Foundation.Deadline
import Stm32Emulator.Peripherals.Nvic

/-!
# When transfers complete

The runs of a controller are made of register accesses and polls; whatever else happens changes the
world.  A write that enables a stream sets a deadline, and the deadlines that the controller keeps
are those of the history (`Dma.run_tracks`).  The registers of stream zero lie among those of the
controller itself, and nothing enables it.
-/

namespace Stm32Emulator

open Function

variable {W : Type}

/-! ## Runs -/

inductive DmaAction (W : Type) where
  | read (offset : U32)
  | write (offset value : U32)
  | poll (now : ℕ)
  /-- What happens outside of the controller. -/
  | other (w : W)

namespace DmaAction

/-- The clock is read by polls. -/
def time : DmaAction W → Option ℕ
  | .poll now => some now
  | _ => none

/-- The address of the control register of a stream. -/
def crOffset (i : Fin 8) : U32 := BitVec.ofNat 32 (0x10 + 0x18 * i.val)

/-- A write of a control register with the enable bit. -/
def Enables (a : DmaAction W) (i : Fin 8) : Prop :=
  ∃ value, a = .write (crOffset i) value ∧ value &&& 1 ≠ 0

/-- A write that clears a bit of a status register. -/
def Clears (a : DmaAction W) (high : Bool) (b : ℕ) : Prop :=
  ∃ value, a = .write (if high then 0x0c else 0x08) value ∧ value.getLsbD b = true

/-- The deadline of a stream in a history. -/
def ArmedFor (as : List (DmaAction W)) (i : Fin 8) (deadline : ℕ) : Prop :=
  Deadline.ArmedFor time (·.Enables i) Dma.transferCompleteDelay as deadline

section Effects

variable {a : DmaAction W} {offset value : U32}

lemma time_eq_some_iff {now : ℕ} : a.time = some now ↔ a = .poll now := by
  cases a <;> simp [time]

lemma enables_write_iff {i : Fin 8} :
    (write (W := W) offset value).Enables i ↔ offset = crOffset i ∧ value &&& 1 ≠ 0 := by
  constructor
  · rintro ⟨value', ha, hset⟩
    cases ha
    exact ⟨rfl, hset⟩
  · rintro ⟨rfl, hset⟩
    exact ⟨value, rfl, hset⟩

lemma clears_write_iff {high : Bool} {b : ℕ} :
    (write (W := W) offset value).Clears high b ↔
      offset = (if high then 0x0c else 0x08) ∧ value.getLsbD b = true := by
  constructor
  · rintro ⟨value', ha, hb⟩
    cases ha
    exact ⟨rfl, hb⟩
  · rintro ⟨rfl, hb⟩
    exact ⟨value, rfl, hb⟩

/-- Only writes enable a stream. -/
lemma not_enables (ha : ∀ offset value, a ≠ .write offset value) (i : Fin 8) : ¬ a.Enables i := by
  rintro ⟨value, h, -⟩
  exact ha _ _ h

/-- Only writes clear a flag. -/
lemma not_clears (ha : ∀ offset value, a ≠ .write offset value) (high : Bool) (b : ℕ) :
    ¬ a.Clears high b := by
  rintro ⟨value, h, -⟩
  exact ha _ _ h

end Effects

end DmaAction

namespace Dma

open DmaAction

/-- One action on the controller and the world. -/
def step (bus : DmaBus W) (s : Dma × W) : DmaAction W → Option (Dma × W)
  | .read offset => (s.1.read offset).map fun (dma, _) => (dma, s.2)
  | .write offset value => (s.1.write offset value).map fun dma => (dma, s.2)
  | .poll now => s.1.advanceTo bus now s.2
  | .other w => some (s.1, w)

/-! ## Register accesses -/

lemma fromOffset_eq_streamReg {offset : U32} {i o : ℕ}
    (h : DmaAccess.fromOffset offset = .streamReg i o) :
    0 < i ∧ offset.toNat = 0x10 + 0x18 * i + o := by
  unfold DmaAccess.fromOffset at h
  split_ifs at h with hlt
  simp only [DmaAccess.streamReg.injEq] at h
  obtain ⟨rfl, rfl⟩ := h
  have hdiv := Nat.div_add_mod (offset.toNat - 0x10) 0x18
  exact ⟨by omega, by omega⟩

lemma fromOffset_eq_reg {offset o : U32} (h : DmaAccess.fromOffset offset = .reg o) :
    o = offset ∧ offset.toNat < 0x28 := by
  unfold DmaAccess.fromOffset at h
  split_ifs at h with hlt
  simp only [DmaAccess.reg.injEq] at h
  exact ⟨h.symm, hlt⟩

lemma toNat_crOffset (i : Fin 8) : (crOffset i).toNat = 0x10 + 0x18 * i.val := by
  have := i.isLt
  rw [crOffset, BitVec.toNat_ofNat, Nat.mod_eq_of_lt (by omega)]

lemma fromOffset_crOffset {i : Fin 8} (hi : i ≠ 0) :
    DmaAccess.fromOffset (crOffset i) = .streamReg i.val 0 := by
  have hpos : 0 < i.val := Nat.pos_of_ne_zero fun h => hi (Fin.ext h)
  have hnat := toNat_crOffset i
  unfold DmaAccess.fromOffset
  rw [if_neg (by omega)]
  simp only [DmaAccess.streamReg.injEq]
  omega

/-- The control register of a stream by its address, which the first stream has none of. -/
lemma fromOffset_eq_cr_iff {offset : U32} {i : Fin 8} :
    DmaAccess.fromOffset offset = .streamReg i.val 0 ↔ i ≠ 0 ∧ offset = crOffset i := by
  constructor
  · intro h
    obtain ⟨hpos, hoffset⟩ := fromOffset_eq_streamReg h
    refine ⟨fun h0 => ?_, BitVec.eq_of_toNat_eq ?_⟩
    · rw [h0] at hpos
      exact absurd hpos (Nat.lt_irrefl 0)
    · rw [toNat_crOffset, hoffset, Nat.add_zero]
  · rintro ⟨hi, rfl⟩
    exact fromOffset_crOffset hi

section Access

variable {dma dma' : Dma} {offset value v : U32}

/-- A read changes the stream it reads and nothing else. -/
lemma read_frame (h : dma.read offset = some (dma', v)) :
    dma'.name = dma.name ∧ dma'.completeAt = dma.completeAt ∧ dma'.lastNow = dma.lastNow ∧
      dma'.lisr = dma.lisr ∧ dma'.hisr = dma.hisr := by
  unfold read at h
  split at h
  · obtain ⟨rfl, -⟩ := Prod.mk.inj (Option.some.inj h)
    exact ⟨rfl, rfl, rfl, rfl, rfl⟩
  · split_ifs at h
    obtain ⟨rfl, -⟩ := Prod.mk.inj (Option.some.inj h)
    exact ⟨rfl, rfl, rfl, rfl, rfl⟩

/-- A write of a register of a stream arms it if it is the control register and has the enable
bit. -/
lemma stream_write_armed (stream : DmaStream) (o : ℕ) (value : U32) :
    (stream.write o value).2 = true ↔ o = 0 ∧ value &&& 1 ≠ 0 := by
  unfold DmaStream.write
  by_cases ho : o = 0
  · simp [ho]
  · simp only [ho, if_false, false_and, iff_false]
    split_ifs <;> simp

/-- A write of a register of the controller itself. -/
lemma write_of_reg {o : U32} (haccess : DmaAccess.fromOffset offset = .reg o)
    (h : dma.write offset value = some dma') :
    dma' = if o = 0x08 then { dma with lisr := dma.lisr &&& ~~~value }
      else if o = 0x0c then { dma with hisr := dma.hisr &&& ~~~value }
      else dma := by
  unfold write at h
  rw [haccess] at h
  exact (Option.some.inj h).symm

/-- A write of a register of a stream. -/
lemma write_of_streamReg {j o : ℕ} (haccess : DmaAccess.fromOffset offset = .streamReg j o)
    (h : dma.write offset value = some dma') :
    ∃ hj : j < 8, dma' =
      { dma with
        streams := update dma.streams ⟨j, hj⟩ ((dma.streams ⟨j, hj⟩).write o value).1
        completeAt := if o = 0 ∧ value &&& 1 ≠ 0 then
            update dma.completeAt ⟨j, hj⟩ (some (dma.lastNow + transferCompleteDelay))
          else dma.completeAt } := by
  unfold write at h
  rw [haccess] at h
  dsimp only at h
  by_cases hj : j < 8
  · refine ⟨hj, ?_⟩
    rw [dif_pos hj] at h
    have harmed := stream_write_armed (dma.streams ⟨j, hj⟩) o value
    rcases hw : (dma.streams ⟨j, hj⟩).write o value with ⟨stream, armed⟩
    rw [hw] at h harmed
    dsimp only at h harmed
    obtain rfl := Option.some.inj h
    by_cases hset : armed = true
    · rw [if_pos hset, if_pos (harmed.mp hset)]
    · rw [if_neg hset, if_neg fun hen => hset (harmed.mpr hen)]
  · rw [dif_neg hj] at h
    cases h

lemma write_frame (h : dma.write offset value = some dma') :
    dma'.name = dma.name ∧ dma'.lastNow = dma.lastNow := by
  rcases haccess : DmaAccess.fromOffset offset with o | ⟨j, o⟩
  · rw [write_of_reg haccess h]
    split_ifs <;> exact ⟨rfl, rfl⟩
  · obtain ⟨hj, rfl⟩ := write_of_streamReg haccess h
    exact ⟨rfl, rfl⟩

/-- Only enabling a stream sets a deadline, that of this stream. -/
lemma write_completeAt (h : dma.write offset value = some dma') (i : Fin 8) :
    dma'.completeAt i = if i ≠ 0 ∧ offset = crOffset i ∧ value &&& 1 ≠ 0 then
      some (dma.lastNow + transferCompleteDelay) else dma.completeAt i := by
  have hiff : (i ≠ 0 ∧ offset = crOffset i ∧ value &&& 1 ≠ 0) ↔
      DmaAccess.fromOffset offset = .streamReg i.val 0 ∧ value &&& 1 ≠ 0 := by
    rw [fromOffset_eq_cr_iff, and_assoc]
  rw [if_congr hiff rfl rfl]
  rcases haccess : DmaAccess.fromOffset offset with o | ⟨j, o⟩
  · rw [write_of_reg haccess h,
      if_neg (nofun : ¬ (DmaAccess.reg o = .streamReg i.val 0 ∧ value &&& 1 ≠ 0))]
    split_ifs <;> rfl
  · obtain ⟨hj, rfl⟩ := write_of_streamReg haccess h
    dsimp only
    by_cases hi : DmaAccess.streamReg j o = .streamReg i.val 0 ∧ value &&& 1 ≠ 0
    · obtain ⟨hreg, hen⟩ := hi
      cases hreg
      rw [if_pos ⟨rfl, hen⟩, if_pos ⟨rfl, hen⟩]
      exact update_self ..
    · rw [if_neg hi]
      split_ifs with harm
      · refine update_of_ne (fun hij => hi ?_) ..
        rw [hij, harm.1]
        exact ⟨rfl, harm.2⟩
      · rfl

/-- A write clears bits of a status register through the register of its own that clears it. -/
lemma write_status (h : dma.write offset value = some dma') (high : Bool) :
    dma'.status high =
      if offset = (if high then 0x0c else 0x08) then dma.status high &&& ~~~value
      else dma.status high := by
  rcases haccess : DmaAccess.fromOffset offset with o | ⟨j, o⟩
  · obtain ⟨rfl, -⟩ := fromOffset_eq_reg haccess
    rw [write_of_reg haccess h]
    by_cases h8 : o = 0x08
    · subst h8
      cases high <;> rfl
    · by_cases hc : o = 0x0c
      · subst hc
        cases high <;> rfl
      · rw [if_neg h8, if_neg hc]
        cases high
        · exact (if_neg h8).symm
        · exact (if_neg hc).symm
  · obtain ⟨hpos, hoffset⟩ := fromOffset_eq_streamReg haccess
    obtain ⟨hj, rfl⟩ := write_of_streamReg haccess h
    have hne : ¬ offset = (if high then 0x0c else 0x08) := by
      intro heq
      rw [heq] at hoffset
      cases high <;> simp at hoffset <;> omega
    rw [if_neg hne]
    rfl

/-- The bits that a write leaves in a status register. -/
lemma getLsbD_write_status (h : dma.write offset value = some dma') (high : Bool) (b : ℕ) :
    (dma'.status high).getLsbD b = true ↔ (dma.status high).getLsbD b = true ∧
      ¬ (offset = (if high then 0x0c else 0x08) ∧ value.getLsbD b = true) := by
  rw [write_status h high]
  by_cases hoffset : offset = (if high then 0x0c else 0x08)
  · rw [if_pos hoffset, BitVec.getLsbD_and, BitVec.getLsbD_not, Bool.and_eq_true]
    constructor
    · rintro ⟨hb, hnot⟩
      refine ⟨hb, ?_⟩
      rintro ⟨-, hset⟩
      rw [hset] at hnot
      simp at hnot
    · rintro ⟨hb, hnot⟩
      have hlt := BitVec.lt_of_getLsbD hb
      have hset : value.getLsbD b = false := by
        by_contra hset
        exact hnot ⟨hoffset, by simpa using hset⟩
      rw [hset]
      simp [hb, hlt]
  · rw [if_neg hoffset]
    constructor
    · intro hb
      exact ⟨hb, fun hclear => hoffset hclear.1⟩
    · rintro ⟨hb, -⟩
      exact hb

end Access

/-! ## The deadlines of a run -/

/-- The controller keeps the deadlines of the history. -/
structure Tracks (name : String) (as : List (DmaAction W)) (dma : Dma) : Prop where
  name_eq : dma.name = name
  lastNow_eq : dma.lastNow = Deadline.clock DmaAction.time as
  completeAt_iff : ∀ i ≠ 0, ∀ deadline, dma.completeAt i = some deadline ↔ ArmedFor as i deadline
  completeAt_zero : dma.completeAt 0 = none

lemma tracks_new (name : String) : Tracks (W := W) name [] (Dma.new name) where
  name_eq := rfl
  lastNow_eq := rfl
  completeAt_iff i _ deadline := by
    constructor
    · intro h
      cases h
    · intro h
      exact absurd h Deadline.not_armedFor_nil
  completeAt_zero := rfl

/-- The streams that complete in a step. -/
def completing (s : Dma × W) : DmaAction W → List (Fin 8)
  | .poll now => s.1.dueStreams now
  | _ => []

variable {bus : DmaBus W} {s s' : Dma × W} {a : DmaAction W}

lemma mem_completing {i : Fin 8} : i ∈ completing s a ↔
    ∃ now deadline, a = .poll now ∧ s.1.completeAt i = some deadline ∧ deadline ≤ now := by
  cases a <;> simp [completing, mem_dueStreams, IsDue]

/-- What one action does to the controller. -/
structure StepSpec (s s' : Dma × W) (a : DmaAction W) : Prop where
  name_eq : s'.1.name = s.1.name
  lastNow_eq : s'.1.lastNow = (a.time).getD s.1.lastNow
  /-- Enabling sets a deadline, and completing takes it. -/
  completeAt_eq : ∀ i, (a.Enables i ∧ i ≠ 0 ∧
      s'.1.completeAt i = some (s.1.lastNow + transferCompleteDelay)) ∨
    ((a.Enables i → i = 0) ∧
      s'.1.completeAt i = if i ∈ completing s a then none else s.1.completeAt i)
  status_iff : ∀ high b, (s'.1.status high).getLsbD b = true ↔
    (∃ i ∈ completing s a, (4 ≤ i.val ↔ high = true) ∧ b = tcifPosition (i.val % 4)) ∨
      ((s.1.status high).getLsbD b = true ∧ ¬ a.Clears high b)

/-- An action that is no write sets no deadline, and clears no flag. -/
lemma StepSpec.of_not_write (ha : ∀ offset value, a ≠ .write offset value)
    (hname : s'.1.name = s.1.name) (hnow : s'.1.lastNow = (a.time).getD s.1.lastNow)
    (hcomplete : ∀ i, s'.1.completeAt i = if i ∈ completing s a then none else s.1.completeAt i)
    (hstatus : ∀ high b, (s'.1.status high).getLsbD b = true ↔
      (∃ i ∈ completing s a, (4 ≤ i.val ↔ high = true) ∧ b = tcifPosition (i.val % 4)) ∨
        (s.1.status high).getLsbD b = true) : StepSpec s s' a where
  name_eq := hname
  lastNow_eq := hnow
  completeAt_eq i := Or.inr ⟨fun hen => absurd hen (not_enables ha i), hcomplete i⟩
  status_iff high b := by rw [hstatus, and_iff_left (not_clears ha high b)]

/-- A write completes nothing. -/
lemma StepSpec.of_write {offset value : U32} {dma : Dma} {w : W}
    (h : dma.write offset value = some s'.1) :
    StepSpec (dma, w) s' (.write offset value) where
  name_eq := (write_frame h).1
  lastNow_eq := (write_frame h).2
  completeAt_eq i := by
    have hcomplete := write_completeAt h i
    by_cases hen : (DmaAction.write (W := W) offset value).Enables i
    · have hset := enables_write_iff.mp hen
      by_cases hi : i = 0
      · refine Or.inr ⟨fun _ => hi, ?_⟩
        simpa [hi, completing] using hcomplete
      · refine Or.inl ⟨hen, hi, ?_⟩
        rwa [if_pos ⟨hi, hset⟩] at hcomplete
    · refine Or.inr ⟨fun h' => absurd h' hen, ?_⟩
      rw [if_neg fun hset => hen (enables_write_iff.mpr hset.2)] at hcomplete
      simpa [completing] using hcomplete
  status_iff high b := by
    rw [getLsbD_write_status h, clears_write_iff]
    simp [completing]

lemma step_spec (h : step bus s a = some s') : StepSpec s s' a := by
  cases a with
  | read offset =>
    obtain ⟨⟨dma, v⟩, hread, rfl⟩ := Option.map_eq_some_iff.mp h
    obtain ⟨hname, hcomplete, hnow, hlisr, hhisr⟩ := read_frame hread
    refine StepSpec.of_not_write (by simp) hname hnow (fun i => ?_) (fun high b => ?_)
    · simp [completing, hcomplete]
    · cases high <;> simp [completing, status, hlisr, hhisr]
  | write offset value =>
    obtain ⟨dma, hwrite, rfl⟩ := Option.map_eq_some_iff.mp h
    exact StepSpec.of_write hwrite
  | poll now =>
    have hpoll : s.1.advanceTo bus now s.2 = some s' := h
    rw [advanceTo_eq] at hpoll
    obtain ⟨w, -, rfl⟩ := Option.map_eq_some_iff.mp hpoll
    refine StepSpec.of_not_write (by simp) (by simp) (by simp [DmaAction.time])
      (fun _ => completeAll_completeAt) (fun high b => ?_)
    rw [getLsbD_completeAll_status]
    cases high <;> simp [completing, status]
  | other w =>
    obtain rfl := Option.some.inj h
    exact StepSpec.of_not_write (by simp) rfl rfl (fun _ => rfl)
      (fun high b => by simp [completing])

/-- The deadlines stay those of the history. -/
lemma Tracks.step {name : String} {as : List (DmaAction W)} (h : Tracks name as s.1)
    (hspec : StepSpec s s' a) : Tracks name (as ++ [a]) s'.1 := by
  obtain ⟨hname, hnow, hcomplete, -⟩ := hspec
  obtain ⟨ihname, ihnow, ih, ihzero⟩ := h
  refine ⟨by rw [hname, ihname], by rw [hnow, ihnow, Deadline.clock_snoc], ?_, ?_⟩
  · intro i hi deadline
    rw [ArmedFor, Deadline.armedFor_snoc_iff]
    rcases hcomplete i with ⟨hen, -, hset⟩ | ⟨hnot, hset⟩
    · rw [hset, ihnow]
      constructor
      · intro heq
        exact Or.inl ⟨hen, (Option.some.inj heq).symm⟩
      · rintro (⟨-, rfl⟩ | ⟨-, hno, -⟩)
        · rfl
        · exact absurd hen hno
    · have hno : ¬ a.Enables i := fun hen => hi (hnot hen)
      rw [hset]
      constructor
      · intro heq
        split_ifs at heq with hdone
        refine Or.inr ⟨(ih i hi deadline).mp heq, hno, ?_⟩
        intro now htime
        by_contra hle
        exact hdone (mem_completing.mpr ⟨now, deadline, time_eq_some_iff.mp htime, heq, by omega⟩)
      · rintro (⟨hen, -⟩ | ⟨harmed, -, hlt⟩)
        · exact absurd hen hno
        · have heq := (ih i hi deadline).mpr harmed
          rw [if_neg, heq]
          intro hdone
          obtain ⟨now, at_, ha, hat, hle⟩ := mem_completing.mp hdone
          rw [heq] at hat
          cases hat
          have := hlt now (time_eq_some_iff.mpr ha)
          omega
  · rcases hcomplete 0 with ⟨-, hne, -⟩ | ⟨-, hset⟩
    · exact absurd rfl hne
    · rw [hset, ihzero, ite_self]

/-- **Refinement of the deadlines.**  In every run the deadlines that the controller keeps are those
of the history. -/
theorem run_tracks {name : String} {w₀ : W} {as : List (DmaAction W)}
    (hrun : Run (stepRel (Dma.step bus)) (Dma.new name, w₀) as s) : Tracks name as s.1 :=
  hrun.invariant (I := fun as s => Tracks name as s.1) (tracks_new name)
    fun _ _ _ _ ih hstep => ih.step (step_spec hstep)

/-! ## Completion once and on time -/

/-- The transfers of a step, and what they leave behind.  The streams `done` complete. -/
structure CompletesOnTime (bus : DmaBus W) (as : List (DmaAction W)) (s s' : Dma × W)
    (a : DmaAction W) (done : List (Fin 8)) : Prop where
  /-- The streams that complete are those whose deadline the clock has reached. -/
  mem_iff : ∀ i, i ∈ done ↔
    ∃ now deadline, a = .poll now ∧ ArmedFor as i deadline ∧ deadline ≤ now
  /-- Each completes once, in the order of their numbers. -/
  sorted : done.Pairwise (· < ·)
  /-- The world sees one transfer for each, and an interrupt if the stream asks for one. -/
  world_eq : (∀ w, a ≠ .other w) → done.foldlM (fun w i => s.1.transfer bus i w) s.2 = some s'.2
  /-- Each stream has an interrupt, ... -/
  irq : ∀ i, (streamIrq s.1.name i).isSome = true
  /-- ... which a completion pends after its transfer, exactly if the stream asks for it. -/
  pends : ∀ i irq, streamIrq s.1.name i = some irq → ∀ w, s.1.transfer bus i w =
    ((s.1.streams i).doXfer bus w).bind fun w =>
      if (s.1.streams i).Tcie then bus.setIntrPending irq w else some w
  /-- A completion sets the flag of its stream, and only a write of a one clears a flag. -/
  status_iff : ∀ high b, (s'.1.status high).getLsbD b = true ↔
    (∃ i ∈ done, (4 ≤ i.val ↔ high = true) ∧ b = tcifPosition (i.val % 4)) ∨
      ((s.1.status high).getLsbD b = true ∧ ¬ a.Clears high b)

/-- Nothing enables stream zero. -/
def AvoidsStreamZero (_ : Dma × W) (a : DmaAction W) : Prop := ¬ a.Enables 0

/-- **Transfers complete exactly once and on time**, in every run that does not enable stream
zero. -/
theorem completes_once_on_time (bus : DmaBus W) {name : String}
    (hname : name = "DMA1" ∨ name = "DMA2") {w₀ : W} {as : List (DmaAction W)} {s s' : Dma × W}
    {a : DmaAction W}
    (hrun : Run (guardedStep AvoidsStreamZero (stepRel (Dma.step bus))) (Dma.new name, w₀) as s)
    (hstep : guardedStep AvoidsStreamZero (stepRel (Dma.step bus)) s a s') :
    ∃ done, CompletesOnTime bus as s s' a done := by
  have htracks : Tracks name as s.1 := run_tracks (hrun.mono fun _ _ _ h => h.2)
  have hspec := step_spec (h := hstep.2)
  have hzero : ∀ deadline, ¬ ArmedFor as 0 deadline := by
    have hno : ∀ b ∈ as, ¬ b.Enables 0 := by
      refine hrun.invariant (I := fun as _ => ∀ b ∈ as, ¬ b.Enables 0) (by simp) ?_
      intro as s s' b ih hb c hc
      rcases List.mem_append.mp hc with hc | hc
      · exact ih c hc
      · rw [List.mem_singleton.mp hc]
        exact hb.1
    rintro deadline ⟨before, b, after, rfl, hen, -⟩
    exact hno b (by simp) hen
  refine ⟨completing s a, ?_, ?_, ?_, ?_, fun _ _ => transfer_of_streamIrq, hspec.status_iff⟩
  · intro i
    constructor
    · intro hi
      obtain ⟨now, deadline, ha, hat, hle⟩ := mem_completing.mp hi
      have hne : i ≠ 0 := by
        rintro rfl
        rw [htracks.completeAt_zero] at hat
        cases hat
      exact ⟨now, deadline, ha, (htracks.completeAt_iff i hne deadline).mp hat, hle⟩
    · rintro ⟨now, deadline, ha, harmed, hle⟩
      have hne : i ≠ 0 := fun h => hzero deadline (h ▸ harmed)
      have hat := (htracks.completeAt_iff i hne deadline).mpr harmed
      exact mem_completing.mpr ⟨now, deadline, ha, hat, hle⟩
  · cases a with
    | poll now => exact dueStreams_sorted
    | _ => exact List.Pairwise.nil
  · intro hother
    cases a with
    | poll now =>
      have hpoll : s.1.advanceTo bus now s.2 = some s' := hstep.2
      rw [advanceTo_eq] at hpoll
      obtain ⟨w, hw, rfl⟩ := Option.map_eq_some_iff.mp hpoll
      exact hw
    | read offset =>
      obtain ⟨r, -, rfl⟩ := Option.map_eq_some_iff.mp hstep.2
      rfl
    | write offset value =>
      obtain ⟨dma, -, rfl⟩ := Option.map_eq_some_iff.mp hstep.2
      rfl
    | other w => exact absurd rfl (hother w)
  · intro i
    rw [htracks.name_eq]
    rcases hname with rfl | rfl <;> simp [streamIrq]

/-- A bus without peripherals and memory, with an interrupt controller. -/
def idleDmaBus : DmaBus Nvic where
  readDma _ _ nvic := some (none, nvic)
  writeDma _ _ nvic := some nvic
  memRead _ _ nvic := some (none, nvic)
  memWrite _ _ nvic := some nvic
  setIntrPending irq nvic := nvic.setIntrPending irq

/-- Stream four of `DMA2` is enabled and completes ten thousand instructions later. -/
theorem completes_once_on_time_sample : ∃ s s' : Dma × Nvic, ∃ done : List (Fin 8),
    Run (guardedStep AvoidsStreamZero (stepRel (Dma.step idleDmaBus)))
        (Dma.new "DMA2", Nvic.default) [.write 0x70 0x11] s ∧
      CompletesOnTime idleDmaBus [.write 0x70 0x11] s s' (.poll 10000) done ∧ 4 ∈ done ∧
      s'.2.isPending 60 = true := by
  have hwrite : ∃ s, Dma.step idleDmaBus (Dma.new "DMA2", Nvic.default)
      (.write 0x70 0x11) = some s :=
    ⟨_, rfl⟩
  obtain ⟨s, hs⟩ := hwrite
  have havoids : AvoidsStreamZero (W := Nvic) (Dma.new "DMA2", Nvic.default)
      (.write 0x70 0x11) := by
    rintro ⟨value, h, -⟩
    cases h
  have hpoll : ∃ s', Dma.step idleDmaBus s (.poll 10000) = some s' ∧ s'.2.isPending 60 = true := by
    cases hs
    exact ⟨_, rfl, by decide⟩
  obtain ⟨s', hs', hpending⟩ := hpoll
  have hpollAvoids : AvoidsStreamZero s (.poll 10000) := by
    rintro ⟨value, h, -⟩
    cases h
  obtain ⟨done, hdone⟩ := completes_once_on_time idleDmaBus (Or.inr rfl)
    (Run.single ⟨havoids, hs⟩) ⟨hpollAvoids, hs'⟩
  refine ⟨s, s', done, Run.single ⟨havoids, hs⟩, hdone,
    (hdone.mem_iff 4).mpr ⟨10000, 10000, rfl, ?_, le_rfl⟩, hpending⟩
  exact ⟨[], _, [], rfl, ⟨0x11, rfl, by decide⟩, rfl, by simp, by simp⟩

/-- Enabling stream zero does nothing. -/
theorem stream_zero_never_completes : ∃ s s' : Dma × Nvic,
    Run (stepRel (Dma.step idleDmaBus)) (Dma.new "DMA1", Nvic.default) [.write 0x10 1] s ∧
      Dma.step idleDmaBus s (.poll 10000) = some s' ∧
      ∀ done, ¬ CompletesOnTime idleDmaBus [.write 0x10 1] s s' (.poll 10000) done := by
  refine ⟨(Dma.new "DMA1", Nvic.default), ({ Dma.new "DMA1" with lastNow := 10000 }, Nvic.default),
    Run.single rfl, rfl, fun done h => ?_⟩
  have harmed : ArmedFor [DmaAction.write (W := Nvic) 0x10 1] 0 10000 :=
    ⟨[], _, [], rfl, ⟨1, rfl, by decide⟩, rfl, by simp, by simp⟩
  have hdone : (0 : Fin 8) ∈ done := (h.mem_iff 0).mpr ⟨10000, 10000, rfl, harmed, le_rfl⟩
  have hflag := (h.status_iff false 5).mpr (Or.inl ⟨0, hdone, by decide, rfl⟩)
  exact absurd hflag (by decide)

end Dma

end Stm32Emulator
