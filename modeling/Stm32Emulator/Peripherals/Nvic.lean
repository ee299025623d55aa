import Stm32Emulator.Foundation.Word
import Mathlib.Data.Int.Lemmas

/-!
# The interrupt controller's registers

`Nvic` holds what is pending, what is enabled and whether a handler runs.  Interrupts are numbered
as in the vector table after its sixteen architectural entries: an external interrupt is `0` or
more, an architectural exception is negative.  The pending word has the bit `irqOffset + irq`, the
enable word the bit `irq`.

The section on queries reads the two words as predicates on interrupt numbers, `isPending` and
`Dispatchable`.  `getAndClearNextDispatchable_eq_some_iff` is the specification of the search that
combines the two differently shifted words: it finds the lowest dispatchable interrupt.
-/

namespace Stm32Emulator

/-- The state of the interrupt controller. -/
structure Nvic where
  systickPeriod : Option U32
  lastSystickTrigger : ℕ
  /-- One bit per exception: bit `irqOffset + irq`. -/
  pending : U128
  /-- One bit per external interrupt: bit `irq`. -/
  enabled : U128
  inInterrupt : Bool
  /-- One priority byte per external interrupt. -/
  priorities : Fin 240 → U8
  /-- The exception number that `ICSR.VECTACTIVE` reports, `0` in thread mode. -/
  activeExceptionNumber : U32

/-- The number of architectural vector table entries. -/
def irqOffset : ℤ := 16

namespace Irq

/-- `PendSV`. -/
def pendsv : ℤ := -2

/-- `SysTick`. -/
def systick : ℤ := -1

/-- `SVCall` is exception number eleven. -/
def svcall : ℤ := -5

end Irq

namespace Nvic

/-- The controller after reset. -/
def default : Nvic where
  systickPeriod := none
  lastSystickTrigger := 0
  pending := 0
  enabled := 0
  inInterrupt := false
  priorities := fun _ => 0
  activeExceptionNumber := 0

def iprOffset : ℕ := 0x400
def iprCount : ℕ := 240
def iserOffset : ℕ := 0x100
def icerOffset : ℕ := 0x180
def enableWords : ℕ := 4

/-! ## Pending and enabled interrupts -/

/-- The first byte of the priority word at an offset, when there is one. -/
def iprWordBase (offset : U32) : Option ℕ :=
  if iprOffset ≤ offset.toNat ∧ offset.toNat < iprOffset + iprCount then
    some (offset.toNat - iprOffset)
  else
    none

/-- The index of the enable word at an offset from `base`, when there is one. -/
def enableWord (base : ℕ) (offset : U32) : Option ℕ :=
  if base ≤ offset.toNat then
    let relative := offset.toNat - base
    if relative < enableWords * 4 ∧ relative % 4 = 0 then some (relative / 4) else none
  else
    none

/-- Pending an interrupt.  The assertion on the bit number, and a shift past the word, are
`none`. -/
def setIntrPending (nvic : Nvic) (irq : ℤ) : Option Nvic :=
  let bit := irqOffset + irq
  if 0 < bit ∧ bit < 128 then
    some { nvic with pending := nvic.pending ||| (1#128 <<< bit.toNat) }
  else
    none

def isEnabled (nvic : Nvic) (irq : ℤ) : Bool :=
  decide (0 ≤ irq ∧ irq < 128) && (nvic.enabled &&& (1#128 <<< irq.toNat) != 0#128)

/-- Taking the lowest bit of a word of candidates out of the pending word. -/
def takeLowest (nvic : Nvic) (candidates : U128) : Option (ℤ × Nvic) :=
  if candidates = 0#128 then
    none
  else
    let bit := candidates.ctz.toNat
    some (bit - irqOffset, { nvic with pending := nvic.pending &&& ~~~(1#128 <<< bit) })

def getAndClearNextIntrPending (nvic : Nvic) : Option (ℤ × Nvic) :=
  nvic.takeLowest nvic.pending

/-- External interrupts stay pending until they are enabled; architectural exceptions need no
enable bit. -/
def getAndClearNextDispatchable (nvic : Nvic) : Option (ℤ × Nvic) :=
  let architecturalMask := (1#128 <<< irqOffset.toNat) - 1#128
  let enabledExternal := nvic.enabled <<< irqOffset.toNat
  nvic.takeLowest (nvic.pending &&& (architecturalMask ||| enabledExternal))

/-- Pends `SysTick` once more than a period has passed on the instruction counter.  A counter that
has run backwards is `none`. -/
def maybeSetSystickIntrPending (nvic : Nvic) (numInstructions : ℕ) : Option Nvic :=
  match nvic.systickPeriod with
  | none => some nvic
  | some systickPeriod =>
    if numInstructions < nvic.lastSystickTrigger then
      none
    else if systickPeriod.toNat < numInstructions - nvic.lastSystickTrigger then
      { nvic with lastSystickTrigger := numInstructions }.setIntrPending Irq.systick
    else
      some nvic

/-! ## Register access -/

/-- A priority byte; an index past the array is `none`. -/
def priority (nvic : Nvic) (i : ℕ) : Option U8 :=
  if h : i < 240 then some (nvic.priorities ⟨i, h⟩) else none

/-- Reading a register by its offset from `0xE000E000`. -/
def read (nvic : Nvic) (offset : U32) : Option U32 :=
  match enableWord iserOffset offset with
  | some word => some ((nvic.enabled >>> (word * 32)).setWidth 32)
  | none =>
  match enableWord icerOffset offset with
  | some word => some ((nvic.enabled >>> (word * 32)).setWidth 32)
  | none =>
  match iprWordBase offset with
  | some base => do
    let b₀ ← nvic.priority base
    let b₁ ← nvic.priority (base + 1)
    let b₂ ← nvic.priority (base + 2)
    let b₃ ← nvic.priority (base + 3)
    some (fromLeBytes b₀ b₁ b₂ b₃)
  | none => some 0#32

/-- Writing a register by its offset from `0xE000E000`. -/
def write (nvic : Nvic) (offset value : U32) : Option Nvic :=
  match enableWord iserOffset offset with
  | some word =>
    some { nvic with enabled := nvic.enabled ||| (value.setWidth 128 <<< (word * 32)) }
  | none =>
  match enableWord icerOffset offset with
  | some word =>
    some { nvic with enabled := nvic.enabled &&& ~~~(value.setWidth 128 <<< (word * 32)) }
  | none =>
  match iprWordBase offset with
  | some base =>
    if base + 4 ≤ iprCount then
      some { nvic with priorities := fun i =>
        if base ≤ i.val ∧ i.val < base + 4 then (toLeBytes value).getD (i.val - base) 0#8
        else nvic.priorities i }
    else
      none
  | none => some nvic

/-! ## Queries -/

/-- The pending bit of an interrupt. -/
def isPending (nvic : Nvic) (irq : ℤ) : Bool :=
  decide (0 ≤ irqOffset + irq) && nvic.pending.getLsbD (irqOffset + irq).toNat

/-- Pending, and enabled or architectural. -/
def Dispatchable (nvic : Nvic) (irq : ℤ) : Prop :=
  nvic.isPending irq = true ∧ (irq < 0 ∨ nvic.isEnabled irq = true)

instance (nvic : Nvic) (irq : ℤ) : Decidable (nvic.Dispatchable irq) :=
  inferInstanceAs (Decidable (_ ∧ _))

lemma isEnabled_eq_true_iff {nvic : Nvic} {irq : ℤ} :
    nvic.isEnabled irq = true ↔ 0 ≤ irq ∧ nvic.enabled.getLsbD irq.toNat = true := by
  unfold isEnabled
  rw [Bool.and_eq_true, decide_eq_true_eq, bne_iff_ne, and_one_shiftLeft_ne_zero_iff]
  constructor
  · rintro ⟨⟨h0, -⟩, hbit⟩
    exact ⟨h0, hbit⟩
  · rintro ⟨h0, hbit⟩
    have := BitVec.lt_of_getLsbD hbit
    exact ⟨⟨h0, by omega⟩, hbit⟩

lemma isPending_eq_true_iff {nvic : Nvic} {irq : ℤ} :
    nvic.isPending irq = true ↔
      0 ≤ irqOffset + irq ∧ nvic.pending.getLsbD (irqOffset + irq).toNat = true := by
  simp [isPending]

/-- A pending interrupt has its number below `112`. -/
lemma lt_of_isPending {nvic : Nvic} {irq : ℤ} (h : nvic.isPending irq = true) :
    -16 ≤ irq ∧ irq < 112 := by
  obtain ⟨h0, hbit⟩ := isPending_eq_true_iff.mp h
  have := BitVec.lt_of_getLsbD hbit
  unfold irqOffset at *
  omega

/-- What pending an interrupt does. -/
lemma setIntrPending_eq_some_iff {nvic nvic' : Nvic} {irq : ℤ} :
    nvic.setIntrPending irq = some nvic' ↔ (0 < irqOffset + irq ∧ irqOffset + irq < 128) ∧
      nvic' = { nvic with pending := nvic.pending ||| (1#128 <<< (irqOffset + irq).toNat) } := by
  unfold setIntrPending
  dsimp only
  split
  · next h => simp [h, eq_comm]
  · next h => simp [h]

/-- Pending one interrupt sets its bit and no other. -/
lemma isPending_setIntrPending {nvic nvic' : Nvic} {irq : ℤ}
    (h : nvic.setIntrPending irq = some nvic') (j : ℤ) :
    nvic'.isPending j = (nvic.isPending j || decide (j = irq)) := by
  obtain ⟨⟨hpos, hlt⟩, rfl⟩ := setIntrPending_eq_some_iff.mp h
  unfold isPending
  rw [BitVec.getLsbD_or, getLsbD_one_shiftLeft]
  by_cases hj : 0 ≤ irqOffset + j
  · have hiff : (irqOffset + j).toNat = (irqOffset + irq).toNat ↔ j = irq := by omega
    have hlt' : (irqOffset + irq).toNat < 128 := by omega
    simp only [hj, hlt', hiff, decide_true, Bool.and_true, Bool.true_and]
  · have hne : j ≠ irq := by omega
    simp [hj, hne]

/-- Pending an interrupt changes nothing but the pending word. -/
lemma setIntrPending_frame {nvic nvic' : Nvic} {irq : ℤ}
    (h : nvic.setIntrPending irq = some nvic') :
    nvic' = { nvic with pending := nvic'.pending } := by
  obtain ⟨-, rfl⟩ := setIntrPending_eq_some_iff.mp h
  rfl

/-- The interrupts that have a bit in the pending word can be pended. -/
lemma setIntrPending_isSome (nvic : Nvic) {irq : ℤ} (h : -15 ≤ irq ∧ irq ≤ 111) :
    (nvic.setIntrPending irq).isSome := by
  unfold setIntrPending irqOffset
  rw [if_pos (by omega)]
  rfl

/-- A peripheral that may pend its interrupt goes on. -/
lemma exists_map_setIntrPending {α : Type*} (nvic : Nvic) {irq : ℤ} (h : -15 ≤ irq ∧ irq ≤ 111)
    (c : Prop) [Decidable c] (x : α) :
    ∃ nvic', (if c then nvic.setIntrPending irq else some nvic).map
      (fun nvic => (x, nvic)) = some (x, nvic') := by
  by_cases hc : c
  · obtain ⟨nvic', hpend⟩ := Option.isSome_iff_exists.mp (setIntrPending_isSome nvic h)
    rw [if_pos hc, hpend]
    exact ⟨nvic', rfl⟩
  · rw [if_neg hc]
    exact ⟨nvic, rfl⟩

/-! ## Writes to the enable registers -/

lemma enableWord_eq_some_iff {base : ℕ} {offset : U32} {word : ℕ} :
    enableWord base offset = some word ↔ word < 4 ∧ offset.toNat = base + 4 * word := by
  unfold enableWord enableWords
  dsimp only
  split
  · split
    · simp only [Option.some.injEq]
      omega
    · simp only [reduceCtorEq, false_iff]
      omega
  · simp only [reduceCtorEq, false_iff]
    omega

/-- Writing `value` at `offset` writes a one to the bit of `irq` in the register bank at `base`. -/
def writesOne (base : ℕ) (irq : ℤ) (offset value : U32) : Bool :=
  decide (0 ≤ irq ∧ irq < 128 ∧ offset.toNat = base + 4 * (irq.toNat / 32)) &&
    value.getLsbD (irq.toNat % 32)

/-- The bits that a value written to an enable word names. -/
lemma getLsbD_enableMask {base word : ℕ} {offset value : U32} {irq : ℤ} (hirq : 0 ≤ irq)
    (h : enableWord base offset = some word) :
    (value.setWidth 128 <<< (word * 32)).getLsbD irq.toNat = writesOne base irq offset value := by
  obtain ⟨hword, hoffset⟩ := enableWord_eq_some_iff.mp h
  unfold writesOne
  rw [BitVec.getLsbD_shiftLeft, BitVec.getLsbD_setWidth]
  by_cases hlt : irq.toNat < 128
  · by_cases hin : irq.toNat / 32 = word
    · have hoff : offset.toNat = base + 4 * (irq.toNat / 32) := by rw [hin, hoffset]
      have hsub : irq.toNat - word * 32 = irq.toNat % 32 := by omega
      have hge : ¬ irq.toNat < word * 32 := by omega
      have hsmall : irq.toNat % 32 < 128 := by omega
      rw [hsub]
      simp [hlt, hge, hsmall, hirq, hoff, show irq < 128 by omega]
    · have hoff : ¬ offset.toNat = base + 4 * (irq.toNat / 32) := by omega
      have hnot : ¬ (0 ≤ irq ∧ irq < 128 ∧ offset.toNat = base + 4 * (irq.toNat / 32)) :=
        fun hand => hoff hand.2.2
      rw [decide_eq_false hnot, Bool.false_and]
      by_cases hge : irq.toNat < word * 32
      · simp [hge]
      · rw [BitVec.getLsbD_of_ge value _ (by omega)]
        simp
  · have hge : ¬ irq < 128 := by omega
    simp [hlt, hge]

/-- A write that is not to the bank at `base` writes no one to it. -/
lemma writesOne_eq_false {base : ℕ} {offset : U32} (h : enableWord base offset = none) (irq : ℤ)
    (value : U32) : writesOne base irq offset value = false := by
  unfold writesOne
  rw [decide_eq_false, Bool.false_and]
  rintro ⟨h0, hlt, hoffset⟩
  rw [enableWord_eq_some_iff.mpr ⟨by omega, hoffset⟩] at h
  cases h

/-- The words that set and those that clear are apart. -/
lemma enableWord_icer_eq_none {offset : U32} {word : ℕ}
    (h : enableWord iserOffset offset = some word) :
    enableWord icerOffset offset = none := by
  obtain ⟨hlt, hoffset⟩ := enableWord_eq_some_iff.mp h
  by_contra hother
  obtain ⟨word', hword'⟩ := Option.ne_none_iff_exists'.mp hother
  obtain ⟨hlt', hoffset'⟩ := enableWord_eq_some_iff.mp hword'
  unfold iserOffset icerOffset at *
  omega

/-- **What a write does to the enable bits**: the ones written to `ISER` are set and those written
to `ICER` are cleared. -/
lemma isEnabled_write {nvic nvic' : Nvic} {offset value : U32}
    (h : nvic.write offset value = some nvic') (irq : ℤ) :
    nvic'.isEnabled irq = ((nvic.isEnabled irq || writesOne iserOffset irq offset value) &&
      !writesOne icerOffset irq offset value) := by
  have hbit : ∀ n : Nvic, n.isEnabled irq = (decide (0 ≤ irq) && n.enabled.getLsbD irq.toNat) := by
    intro n
    rw [Bool.eq_iff_iff, isEnabled_eq_true_iff]
    simp
  rw [hbit, hbit]
  by_cases hirq : 0 ≤ irq
  · unfold write at h
    split at h
    · next word hword =>
      obtain rfl := Option.some.inj h
      rw [writesOne_eq_false (enableWord_icer_eq_none hword), BitVec.getLsbD_or,
        getLsbD_enableMask hirq hword]
      simp [hirq]
    · next hiser =>
      rw [writesOne_eq_false hiser]
      split at h
      · next word hword =>
        obtain rfl := Option.some.inj h
        rw [BitVec.getLsbD_and, BitVec.getLsbD_not, getLsbD_enableMask hirq hword]
        by_cases hlt : irq.toNat < 128
        · simp [hlt, Bool.and_assoc]
        · rw [BitVec.getLsbD_of_ge nvic.enabled _ (by omega)]
          simp
      · next hicer =>
        rw [writesOne_eq_false hicer]
        split at h
        · split at h
          · obtain rfl := Option.some.inj h
            simp
          · cases h
        · obtain rfl := Option.some.inj h
          simp
  · have hiser : writesOne iserOffset irq offset value = false := by
      unfold writesOne
      rw [decide_eq_false (by tauto), Bool.false_and]
    simp [hirq, hiser]

/-- Writing a register of the controller changes neither what is pending nor what is active. -/
lemma write_frame {nvic nvic' : Nvic} {offset value : U32}
    (h : nvic.write offset value = some nvic') :
    nvic' = { nvic with enabled := nvic'.enabled, priorities := nvic'.priorities } := by
  unfold write at h
  split at h
  · obtain rfl := Option.some.inj h
    rfl
  · split at h
    · obtain rfl := Option.some.inj h
      rfl
    · split at h
      · split at h
        · obtain rfl := Option.some.inj h
          rfl
        · cases h
      · obtain rfl := Option.some.inj h
        rfl

/-! ## The `SysTick` check -/

/-- More than a `SysTick` period has passed since `SysTick` was pended last. -/
def systickDue (nvic : Nvic) (numInstructions : ℕ) : Bool :=
  match nvic.systickPeriod with
  | none => false
  | some systickPeriod =>
    decide (systickPeriod.toNat < numInstructions - nvic.lastSystickTrigger)

/-- The `SysTick` check pends `SysTick` if it is due, and nothing else. -/
lemma isPending_maybeSetSystickIntrPending {nvic nvic' : Nvic} {numInstructions : ℕ}
    (h : nvic.maybeSetSystickIntrPending numInstructions = some nvic') (j : ℤ) :
    nvic'.isPending j =
      (nvic.isPending j || (nvic.systickDue numInstructions && decide (j = Irq.systick))) := by
  unfold maybeSetSystickIntrPending at h
  unfold systickDue
  cases hperiod : nvic.systickPeriod with
  | none =>
    rw [hperiod] at h
    obtain rfl := Option.some.inj h
    simp
  | some systickPeriod =>
    simp only [hperiod] at h
    split at h
    · cases h
    · split at h
      · next hdue =>
        rw [isPending_setIntrPending h]
        simp [hdue, isPending]
      · next hdue =>
        obtain rfl := Option.some.inj h
        simp [hdue]

/-- The `SysTick` check changes nothing but the pending word and the time of the last trigger. -/
lemma maybeSetSystickIntrPending_frame {nvic nvic' : Nvic} {numInstructions : ℕ}
    (h : nvic.maybeSetSystickIntrPending numInstructions = some nvic') :
    nvic' = { nvic with
      pending := nvic'.pending
      lastSystickTrigger := nvic'.lastSystickTrigger } := by
  unfold maybeSetSystickIntrPending at h
  split at h
  · obtain rfl := Option.some.inj h
    rfl
  · split at h
    · cases h
    · split at h
      · rw [setIntrPending_frame h]
      · obtain rfl := Option.some.inj h
        rfl

/-- The `SysTick` check succeeds as long as the instruction counter runs forward, and the last
trigger stays in the past. -/
lemma maybeSetSystickIntrPending_isSome {nvic : Nvic} {numInstructions : ℕ}
    (h : nvic.lastSystickTrigger ≤ numInstructions) :
    ∃ nvic', nvic.maybeSetSystickIntrPending numInstructions = some nvic' ∧
      nvic'.lastSystickTrigger ≤ numInstructions := by
  unfold maybeSetSystickIntrPending
  split
  · exact ⟨nvic, rfl, h⟩
  · rw [if_neg (by omega)]
    split
    · obtain ⟨nvic', hpend⟩ := Option.isSome_iff_exists.mp
        (setIntrPending_isSome { nvic with lastSystickTrigger := numInstructions }
          (by decide : -15 ≤ Irq.systick ∧ Irq.systick ≤ 111))
      refine ⟨nvic', hpend, ?_⟩
      rw [setIntrPending_frame hpend]
    · exact ⟨nvic, rfl, h⟩

/-! ## The search -/

/-- The candidates of `getAndClearNextDispatchable`, bit by bit. -/
lemma getLsbD_candidates (nvic : Nvic) (bit : ℕ) :
    (nvic.pending &&& (((1#128 <<< irqOffset.toNat) - 1#128) |||
        (nvic.enabled <<< irqOffset.toNat))).getLsbD bit = true ↔
      nvic.Dispatchable (bit - irqOffset) := by
  have harch : ∀ i, i < 128 →
      ((1#128 <<< irqOffset.toNat) - 1#128).getLsbD i = decide (i < 16) := by decide
  unfold Dispatchable
  rw [isPending_eq_true_iff, isEnabled_eq_true_iff]
  have hbit : irqOffset + ((bit : ℤ) - irqOffset) = bit := by omega
  rw [hbit, Int.toNat_natCast, BitVec.getLsbD_and, Bool.and_eq_true]
  by_cases hlt : bit < 128
  · rw [BitVec.getLsbD_or, harch bit hlt, BitVec.getLsbD_shiftLeft]
    have hoffset : irqOffset.toNat = 16 := rfl
    have hsub : ((bit : ℤ) - irqOffset).toNat = bit - 16 := by unfold irqOffset; omega
    have hneg : (bit : ℤ) - irqOffset < 0 ↔ bit < 16 := by unfold irqOffset; omega
    have hnonneg : 0 ≤ (bit : ℤ) - irqOffset ↔ ¬ bit < 16 := by unfold irqOffset; omega
    rw [hsub, hneg, hnonneg, hoffset]
    by_cases h16 : bit < 16 <;> simp [h16, hlt]
  · rw [BitVec.getLsbD_of_ge nvic.pending bit (by omega)]
    simp

/-- Clearing the bit of one interrupt leaves the others pending. -/
lemma isPending_clear (nvic : Nvic) {bit : ℕ} (hlt : bit < 128) (j : ℤ) :
    { nvic with pending := nvic.pending &&& ~~~(1#128 <<< bit) }.isPending j =
      (nvic.isPending j && decide (j ≠ bit - irqOffset)) := by
  unfold isPending
  by_cases hj : 0 ≤ irqOffset + j
  · have hiff : (irqOffset + j).toNat = bit ↔ j = bit - irqOffset := by omega
    rw [BitVec.getLsbD_and, BitVec.getLsbD_not, getLsbD_one_shiftLeft]
    by_cases hw : (irqOffset + j).toNat < 128
    · simp only [hj, hw, hlt, hiff, decide_true, Bool.true_and, Bool.and_true, decide_not]
    · rw [BitVec.getLsbD_of_ge nvic.pending _ (by omega)]
      simp
  · simp [hj]

/-- **The search finds the lowest dispatchable interrupt** and takes it out of the pending word. -/
theorem getAndClearNextDispatchable_eq_some_iff {nvic nvic' : Nvic} {irq : ℤ} :
    nvic.getAndClearNextDispatchable = some (irq, nvic') ↔
      nvic.Dispatchable irq ∧ (∀ j, nvic.Dispatchable j → irq ≤ j) ∧
        nvic' = { nvic with
          pending := nvic.pending &&& ~~~(1#128 <<< (irqOffset + irq).toNat) } := by
  unfold getAndClearNextDispatchable takeLowest
  dsimp only
  generalize hc : nvic.pending &&& (((1#128 <<< irqOffset.toNat) - 1#128) |||
        (nvic.enabled <<< irqOffset.toNat)) = candidates
  have hcand : ∀ bit, candidates.getLsbD bit = true ↔ nvic.Dispatchable (bit - irqOffset) := by
    intro bit
    rw [← hc, getLsbD_candidates]
  have hbitOf : ∀ j, nvic.Dispatchable j → candidates.getLsbD (irqOffset + j).toNat = true := by
    intro j hj
    have h0 := (isPending_eq_true_iff.mp hj.1).1
    rw [hcand, Int.toNat_of_nonneg h0]
    simpa using hj
  by_cases hzero : candidates = 0#128
  · rw [if_pos hzero]
    constructor
    · intro h
      cases h
    · rintro ⟨hd, -, -⟩
      have := hbitOf irq hd
      rw [hzero] at this
      simp at this
  · rw [if_neg hzero, Option.some.injEq, Prod.mk.injEq]
    have hset : candidates.getLsbD candidates.ctz.toNat = true :=
      BitVec.getLsbD_true_ctz_of_ne_zero hzero
    have hleast : ∀ j, nvic.Dispatchable j → (candidates.ctz.toNat : ℤ) - irqOffset ≤ j := by
      intro j hj
      by_contra hlt
      have h0 := (isPending_eq_true_iff.mp hj.1).1
      have hfalse : candidates.getLsbD (irqOffset + j).toNat = false :=
        BitVec.getLsbD_false_of_lt_ctz (by omega)
      rw [hbitOf j hj] at hfalse
      cases hfalse
    constructor
    · rintro ⟨rfl, rfl⟩
      refine ⟨(hcand _).mp hset, hleast, ?_⟩
      simp
    · rintro ⟨hd, hmin, rfl⟩
      have hle := hmin _ ((hcand _).mp hset)
      have hge := hleast irq hd
      have heq : (candidates.ctz.toNat : ℤ) - irqOffset = irq := le_antisymm hge hle
      refine ⟨heq, ?_⟩
      rw [← heq]
      simp

/-- The search fails exactly when nothing is dispatchable. -/
theorem getAndClearNextDispatchable_eq_none_iff {nvic : Nvic} :
    nvic.getAndClearNextDispatchable = none ↔ ∀ irq, ¬ nvic.Dispatchable irq := by
  constructor
  · intro h irq hd
    have hzero : nvic.pending &&& (((1#128 <<< irqOffset.toNat) - 1#128) |||
        (nvic.enabled <<< irqOffset.toNat)) = 0#128 := by
      unfold getAndClearNextDispatchable takeLowest at h
      by_contra hne
      simp [hne] at h
    have h0 := (isPending_eq_true_iff.mp hd.1).1
    have hbit := (getLsbD_candidates nvic (irqOffset + irq).toNat).mpr
      (by rw [Int.toNat_of_nonneg h0]; simpa using hd)
    rw [hzero] at hbit
    simp at hbit
  · intro h
    cases hres : nvic.getAndClearNextDispatchable with
    | none => rfl
    | some p =>
      obtain ⟨irq, nvic'⟩ := p
      exact absurd (getAndClearNextDispatchable_eq_some_iff.mp hres).1 (h irq)

end Nvic

end Stm32Emulator
