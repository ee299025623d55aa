import Stm32Emulator.Bus.Registers

/-!
# What registers make of unwritten lanes

A write of some of the bytes of a register writes the others back as they were read.  A register
that stores them, ignores them, or clears them where they read as zero keeps them (`LaneWise`).  The
registers that do not are those that a written one clears, those whose flags follow a request in
another byte, and those that are read for more than they hold.
-/

namespace Stm32Emulator

open Function

variable {U D : Type}

/-- A register that holds `old` and makes `f` of what is written keeps its unwritten lanes when its
own content is merged in. -/
def LaneWise (f : U32 → U32) (old : U32) : Prop :=
  ∀ value mask, IsLaneMask mask → AgreeOutside mask (f (mergeLanes old value mask)) old

lemma laneWise_const (old : U32) : LaneWise (fun _ => old) old :=
  fun _ mask _ => AgreeOutside.refl mask old

/-! ## Clocks, power and calendar -/

lemma getLsbD_followBit (r f : ℕ) (hf : f < 32) (value : U32) {i : ℕ} (hi : i < 32) :
    (followBit (1#32 <<< r) (1#32 <<< f) value).getLsbD i
      = if i = f then value.getLsbD r else value.getLsbD i := by
  unfold followBit
  by_cases hr : value.getLsbD r = true
  · rw [if_pos ((and_one_shiftLeft_ne_zero_iff value r).mpr hr), BitVec.getLsbD_or,
      getLsbD_one_shiftLeft]
    by_cases h : i = f <;> simp [h, hf, hr]
  · rw [if_neg ((and_one_shiftLeft_ne_zero_iff value r).not.mpr hr), BitVec.getLsbD_and,
      BitVec.getLsbD_not, getLsbD_one_shiftLeft]
    by_cases h : i = f <;> simp [h, hf, hi, hr]

/-- A flag that follows a request in its own byte. -/
lemma laneWise_followBit (r f : ℕ) (hr : r < 32) (hf : f < 32) (hbyte : r / 8 = f / 8) {old : U32}
    (hold : FollowsBit (1#32 <<< r) (1#32 <<< f) old) :
    LaneWise (followBit (1#32 <<< r) (1#32 <<< f)) old := by
  intro value mask hmask
  rw [agreeOutside_iff]
  intro i hi
  by_cases hlt : i < 32
  · rw [getLsbD_followBit r f hf _ hlt]
    by_cases h : i = f
    · subst h
      have hbit := congrArg (fun x : U32 => x.getLsbD i) hold
      rw [getLsbD_followBit r i hf old hlt, if_pos rfl] at hbit
      rw [if_pos rfl, getLsbD_mergeLanes_of_not (by rw [hmask r i hr hf hbyte, hi]), hbit]
    · rw [if_neg h, getLsbD_mergeLanes_of_not hi]
  · rw [BitVec.getLsbD_of_ge _ i (by omega), BitVec.getLsbD_of_ge _ i (by omega)]

lemma getLsbD_cfgrAfterWrite (value : U32) {i : ℕ} (hi : i < 32) :
    (Rcc.cfgrAfterWrite value).getLsbD i
      = if i = 2 then value.getLsbD 0 else if i = 3 then value.getLsbD 1 else value.getLsbD i := by
  unfold Rcc.cfgrAfterWrite
  interval_cases i <;> simp

/-- The clock status bits and the selection that they follow are in one byte. -/
lemma laneWise_cfgrAfterWrite {old : U32} (hold : Rcc.cfgrAfterWrite old = old) :
    LaneWise Rcc.cfgrAfterWrite old := by
  intro value mask hmask
  rw [agreeOutside_iff]
  intro i hi
  by_cases hlt : i < 32
  · have hbyte : ∀ j < 8, i < 8 → (mergeLanes old value mask).getLsbD j = old.getLsbD j := by
      intro j hj hi8
      apply getLsbD_mergeLanes_of_not
      rw [hmask j i (by omega) (by omega) (by omega), hi]
    have hbit := congrArg (fun x : U32 => x.getLsbD i) hold
    rw [getLsbD_cfgrAfterWrite old hlt] at hbit
    rw [getLsbD_cfgrAfterWrite _ hlt]
    split_ifs at hbit ⊢ with h2 h3
    · rw [hbyte 0 (by omega) (by omega), hbit]
    · rw [hbyte 1 (by omega) (by omega), hbit]
    · rw [getLsbD_mergeLanes_of_not hi]
  · rw [BitVec.getLsbD_of_ge _ i (by omega), BitVec.getLsbD_of_ge _ i (by omega)]

lemma Rcc.laneWise (rcc : Rcc) (offset : U32) :
    LaneWise (fun x => (rcc.write offset x).read offset) (rcc.read offset) := by
  by_cases hcfgr : offset = 0x0008
  · subst hcfgr
    exact laneWise_cfgrAfterWrite rcc.cfgr_stable
  · by_cases hcsr : offset = 0x0074
    · subst hcsr
      exact laneWise_followBit 0 1 (by omega) (by omega) rfl rcc.csr_stable
    · by_cases hbdcr : offset = 0x0070
      · subst hbdcr
        exact laneWise_followBit 0 1 (by omega) (by omega) rfl rcc.bdcr_stable
      · simp only [write, hcfgr, hcsr, hbdcr, if_false]
        exact laneWise_const _

lemma Rtc.laneWise (rtc : Rtc) (offset : U32) :
    LaneWise (fun x => (rtc.write offset x).read offset) (rtc.read offset) := by
  by_cases hisr : offset = 0x000c
  · subst hisr
    exact laneWise_followBit 7 6 (by omega) (by omega) rfl rtc.isr_stable
  · simp only [write, hisr, if_false]
    exact laneWise_const _

lemma getLsbD_csr1AfterCr1Write_eq_false (cr1 : U32) {i : ℕ} (hi : i < 14) :
    (Pwr.csr1AfterCr1Write cr1).getLsbD i = false := by
  unfold Pwr.csr1AfterCr1Write
  split_ifs <;> interval_cases i <;> simp

/-- The wake-up flag of `CSR1` is in the byte below its request. -/
lemma Pwr.agreeOutside_write_iff (pwr : Pwr) (offset value mask : U32) :
    AgreeOutside mask ((pwr.write offset (mergeLanes (pwr.read offset) value mask)).read offset)
        (pwr.read offset) ↔
      (offset = 0x0004 → mask.getLsbD 3 = true ∨ mask.getLsbD 9 = false ∨
        value.getLsbD 9 = pwr.csr1.getLsbD 3) := by
  by_cases hcsr1 : offset = 0x0004
  · subst hcsr1
    have hread : ∀ x : Pwr, x.read 0x0004 = csr1AfterCr1Write x.cr1 ||| x.csr1 := fun _ => rfl
    have hwrite : ∀ x, (pwr.write 0x0004 x).read 0x0004
        = csr1AfterCr1Write pwr.cr1 ||| followBit (1#32 <<< 9) (1#32 <<< 3) x := fun _ => rfl
    have hflag := congrArg (fun x : U32 => x.getLsbD 3) pwr.csr1_stable
    have hfollow := getLsbD_followBit 9 3 (by omega) pwr.csr1 (show 3 < 32 by omega)
    rw [if_pos rfl] at hfollow
    have hstable : pwr.csr1.getLsbD 3 = pwr.csr1.getLsbD 9 := hflag.symm.trans hfollow
    have h3 := getLsbD_csr1AfterCr1Write_eq_false pwr.cr1 (show 3 < 14 by omega)
    have h9 := getLsbD_csr1AfterCr1Write_eq_false pwr.cr1 (show 9 < 14 by omega)
    rw [hwrite, hread, agreeOutside_iff]
    constructor
    · intro h _
      by_cases hm3 : mask.getLsbD 3 = true
      · exact Or.inl hm3
      by_cases hm9 : mask.getLsbD 9 = true
      · have hbit := h 3 (by simpa using hm3)
        rw [BitVec.getLsbD_or, BitVec.getLsbD_or, h3, getLsbD_followBit 9 3 (by omega) _ (by omega),
          if_pos rfl, getLsbD_mergeLanes, if_pos hm9] at hbit
        exact Or.inr (Or.inr (by simpa using hbit))
      · exact Or.inr (Or.inl (by simpa using hm9))
    · intro h i hi
      by_cases hlt : i < 32
      · rw [BitVec.getLsbD_or, BitVec.getLsbD_or, getLsbD_followBit 9 3 (by omega) _ hlt]
        by_cases hi3 : i = 3
        · subst hi3
          rw [if_pos rfl, h3, Bool.false_or, Bool.false_or, getLsbD_mergeLanes]
          rcases h rfl with hm3 | hm9 | hvalue
          · rw [hi] at hm3
            cases hm3
          · rw [hm9, if_neg (by simp), BitVec.getLsbD_or, h9, Bool.false_or, hstable]
          · split_ifs
            · exact hvalue
            · rw [BitVec.getLsbD_or, h9, Bool.false_or, hstable]
        · rw [if_neg hi3, getLsbD_mergeLanes_of_not hi, BitVec.getLsbD_or,
            ← Bool.or_assoc, Bool.or_self]
      · rw [BitVec.getLsbD_of_ge _ i (by omega), BitVec.getLsbD_of_ge _ i (by omega)]
  · have hstored : pwr.write offset (mergeLanes (pwr.read offset) value mask) = pwr ∨
        (pwr.write offset (mergeLanes (pwr.read offset) value mask)).read offset
          = mergeLanes (pwr.read offset) value mask := by
      by_cases hcr1 : offset = 0x0000
      · subst hcr1
        exact Or.inr rfl
      · exact Or.inl (by simp only [write, hcr1, hcsr1, if_false])
    refine iff_of_true ?_ fun h => absurd h hcsr1
    rcases hstored with hsame | hstored
    · rw [hsame]
    · rw [hstored]
      exact agreeOutside_mergeLanes _ _ _

/-! ## The interrupt controller -/

section EnableWords

variable {enabled : U128} {word : ℕ}

lemma getLsbD_enableWord (enabled : U128) (word : ℕ) {i : ℕ} (hi : i < 32) :
    ((enabled >>> (word * 32)).setWidth 32).getLsbD i = enabled.getLsbD (word * 32 + i) := by
  rw [BitVec.getLsbD_setWidth, BitVec.getLsbD_ushiftRight]
  simp [hi]

lemma getLsbD_setWidth_shiftLeft (x : U32) (hword : word < 4) {i : ℕ} (hi : i < 32) :
    (x.setWidth 128 <<< (word * 32)).getLsbD (word * 32 + i) = x.getLsbD i := by
  rw [BitVec.getLsbD_shiftLeft, BitVec.getLsbD_setWidth, Nat.add_sub_cancel_left]
  have h1 : word * 32 + i < 128 := by omega
  have h2 : ¬ word * 32 + i < word * 32 := by omega
  have h3 : i < 128 := by omega
  simp [h1, h2, h3]

/-- Setting bits through one enable word. -/
lemma enableWord_or (x : U32) (hword : word < 4) :
    ((enabled ||| (x.setWidth 128 <<< (word * 32))) >>> (word * 32)).setWidth 32
      = (enabled >>> (word * 32)).setWidth 32 ||| x := by
  apply BitVec.eq_of_getLsbD_eq
  intro i hi
  rw [getLsbD_enableWord _ _ hi, BitVec.getLsbD_or, BitVec.getLsbD_or, getLsbD_enableWord _ _ hi,
    getLsbD_setWidth_shiftLeft x hword hi]

/-- Clearing bits through one enable word. -/
lemma enableWord_and_not (x : U32) (hword : word < 4) :
    ((enabled &&& ~~~(x.setWidth 128 <<< (word * 32))) >>> (word * 32)).setWidth 32
      = (enabled >>> (word * 32)).setWidth 32 &&& ~~~x := by
  apply BitVec.eq_of_getLsbD_eq
  intro i hi
  have hlt : word * 32 + i < 128 := by omega
  rw [getLsbD_enableWord _ _ hi, BitVec.getLsbD_and, BitVec.getLsbD_and, BitVec.getLsbD_not,
    BitVec.getLsbD_not, getLsbD_enableWord _ _ hi, getLsbD_setWidth_shiftLeft x hword hi]
  simp [hlt, hi]

end EnableWords

/-- The priority bytes read back as they were written. -/
lemma Nvic.read_write_priorities {nvic nvic' : Nvic} {offset value : U32} {base : ℕ}
    (hiser : enableWord iserOffset offset = none) (hicer : enableWord icerOffset offset = none)
    (hipr : iprWordBase offset = some base) (h : nvic.write offset value = some nvic') :
    nvic'.read offset = some value := by
  unfold write at h
  rw [hiser, hicer, hipr] at h
  dsimp only at h
  split_ifs at h with hfit
  have hnew := Option.some.inj h
  have hpriority : ∀ k, k < 4 →
      nvic'.priority (base + k) = some ((toLeBytes value).getD k 0#8) := by
    intro k hk
    have hlt : base + k < 240 := lt_of_lt_of_le (by omega) hfit
    unfold priority
    rw [dif_pos hlt, ← hnew]
    dsimp only
    rw [if_pos ⟨by omega, by omega⟩, Nat.add_sub_cancel_left]
  have hfirst := hpriority 0 (by omega)
  rw [Nat.add_zero] at hfirst
  unfold read
  rw [hiser, hicer, hipr]
  dsimp only
  rw [hfirst, hpriority 1 (by omega), hpriority 2 (by omega), hpriority 3 (by omega)]
  exact congrArg some (fromLeBytes_extract value)

/-- Of the registers of the interrupt controller only those that clear enable bits lose unwritten
lanes. -/
lemma Nvic.agreeOutside_write_iff {nvic nvic' : Nvic} {offset v value mask : U32}
    (hread : nvic.read offset = some v)
    (hwrite : nvic.write offset (mergeLanes v value mask) = some nvic') :
    AgreeOutside mask ((nvic'.read offset).getD 0) v ↔
      ∀ word, enableWord icerOffset offset = some word →
        (nvic.enabled >>> (word * 32)).setWidth 32 &&& ~~~mask = 0#32 := by
  cases hiser : enableWord iserOffset offset with
  | some word =>
    have hword := (enableWord_eq_some_iff.mp hiser).1
    simp only [read, hiser, Option.some.injEq] at hread
    simp only [write, hiser, Option.some.injEq] at hwrite
    subst hread hwrite
    have hread' : ∀ n : Nvic, n.read offset = some ((n.enabled >>> (word * 32)).setWidth 32) := by
      intro n
      simp only [read, hiser]
    rw [hread', Option.getD_some, enableWord_or _ hword]
    refine iff_of_true (agreeOutside_or_mergeLanes _ _ _) fun word' hicer => ?_
    obtain ⟨hlt, hoffset⟩ := enableWord_eq_some_iff.mp hiser
    obtain ⟨hlt', hoffset'⟩ := enableWord_eq_some_iff.mp hicer
    unfold iserOffset at hoffset
    unfold icerOffset at hoffset'
    omega
  | none =>
  cases hicer : enableWord icerOffset offset with
  | some word =>
    have hword := (enableWord_eq_some_iff.mp hicer).1
    simp only [read, hiser, hicer, Option.some.injEq] at hread
    simp only [write, hiser, hicer, Option.some.injEq] at hwrite
    subst hread hwrite
    have hread' : ∀ n : Nvic, n.read offset = some ((n.enabled >>> (word * 32)).setWidth 32) := by
      intro n
      simp only [read, hiser, hicer]
    rw [hread', Option.getD_some, enableWord_and_not _ hword,
      agreeOutside_and_not_mergeLanes_iff fun _ h => h]
    simp
  | none =>
    refine iff_of_true ?_ (by simp)
    cases hipr : iprWordBase offset with
    | some base =>
      rw [read_write_priorities hiser hicer hipr hwrite, Option.getD_some]
      exact agreeOutside_mergeLanes _ _ _
    | none =>
      simp only [read, hiser, hicer, hipr, Option.some.injEq] at hread
      simp only [read, hiser, hicer, hipr, Option.getD_some, hread]
      exact AgreeOutside.refl _ _

/-! ## Exceptions -/

/-- An interrupt that is pended or not. -/
lemma Nvic.isPending_of_ite {nvic nvic' : Nvic} {irq : ℤ} {c : Prop} [Decidable c] {b : Bool}
    (hb : c ↔ b = true) (h : (if c then nvic.setIntrPending irq else some nvic) = some nvic')
    (j : ℤ) :
    nvic'.isPending j = (nvic.isPending j || (b && decide (j = irq))) := by
  by_cases hc : c
  · rw [if_pos hc] at h
    rw [hb.mp hc, Bool.true_and, isPending_setIntrPending h]
  · rw [if_neg hc] at h
    obtain rfl := Option.some.inj h
    have hfalse : b = false := by simpa using hb.not.mp hc
    rw [hfalse, Bool.false_and, Bool.or_false]

/-- A write to `ICSR` pends one exception after the other. -/
lemma Scb.write_icsr (scb : Scb) (nvic : Nvic) (value : U32) : scb.write nvic 0x0004#32 value
    = ((if value &&& (1#32 <<< 26) ≠ 0#32 then nvic.setIntrPending Irq.systick else some nvic).bind
        fun nvic => (if value &&& (1#32 <<< 28) ≠ 0#32 then nvic.setIntrPending Irq.pendsv
          else some nvic).bind fun nvic => some (scb, nvic)) := by
  unfold write
  rw [if_pos rfl]
  split_ifs <;> rfl

/-- What a write to `ICSR` pends. -/
lemma Scb.isPending_write {scb scb' : Scb} {nvic nvic' : Nvic} {value : U32}
    (h : scb.write nvic 0x0004#32 value = some (scb', nvic')) :
    nvic'.isPending Irq.systick = (nvic.isPending Irq.systick || value.getLsbD 26) ∧
      nvic'.isPending Irq.pendsv = (nvic.isPending Irq.pendsv || value.getLsbD 28) := by
  rw [write_icsr] at h
  obtain ⟨nvic₁, h₁, hrest⟩ := Option.bind_eq_some_iff.mp h
  obtain ⟨nvic₂, h₂, heq⟩ := Option.bind_eq_some_iff.mp hrest
  obtain ⟨-, rfl⟩ := Prod.mk.inj (Option.some.inj heq)
  have hsystick := Nvic.isPending_of_ite (and_one_shiftLeft_ne_zero_iff value 26) h₁
  have hpendsv := Nvic.isPending_of_ite (and_one_shiftLeft_ne_zero_iff value 28) h₂
  constructor
  · rw [hpendsv, hsystick]
    simp [Irq.systick, Irq.pendsv]
  · rw [hpendsv, hsystick]
    simp [Irq.systick, Irq.pendsv]

lemma Scb.getLsbD_word (scb : Scb) (nvic : Nvic) {i : ℕ} (hi : i < 32) :
    (scb.word nvic 0x0004#32).getLsbD i
      = if i = 26 then nvic.isPending Irq.systick
        else if i = 28 then nvic.isPending Irq.pendsv else false := by
  have hword : scb.word nvic 0x0004#32 =
      (if nvic.isPending Irq.systick then 1#32 <<< 26 else 0#32) |||
      if nvic.isPending Irq.pendsv then 1#32 <<< 28 else 0#32 := rfl
  rw [hword, BitVec.getLsbD_or]
  rcases nvic.isPending Irq.systick <;> rcases nvic.isPending Irq.pendsv <;>
    interval_cases i <;> rfl

/-- The pending bits of `ICSR` read as bits of the active exception number. -/
lemma Scb.agreeOutside_write_iff {scb scb' : Scb} {nvic nvic' : Nvic} {value mask : U32}
    (h : scb.write nvic 0x0004#32 (mergeLanes (readIcsr nvic) value mask) = some (scb', nvic')) :
    AgreeOutside mask (scb'.word nvic' 0x0004#32) (scb.word nvic 0x0004#32) ↔
      (mask.getLsbD 26 = false → nvic.activeExceptionNumber.getLsbD 26 = true →
        nvic.isPending Irq.systick = true) ∧
      (mask.getLsbD 28 = false → nvic.activeExceptionNumber.getLsbD 28 = true →
        nvic.isPending Irq.pendsv = true) := by
  have hread : ∀ k, k ≠ 11 → (readIcsr nvic).getLsbD k = nvic.activeExceptionNumber.getLsbD k := by
    intro k hk
    rw [readIcsr, icsrRettobase, BitVec.getLsbD_or, getLsbD_one_shiftLeft]
    simp [hk]
  obtain ⟨hsystick, hpendsv⟩ := isPending_write h
  rw [agreeOutside_iff]
  constructor
  · intro hagree
    constructor
    · intro hm hactive
      have hbit := hagree 26 hm
      rw [getLsbD_word _ _ (by omega), getLsbD_word _ _ (by omega), if_pos rfl,
        if_pos rfl, hsystick, getLsbD_mergeLanes_of_not hm, hread 26 (by omega), hactive,
        Bool.or_true] at hbit
      exact hbit.symm
    · intro hm hactive
      have hbit := hagree 28 hm
      rw [getLsbD_word _ _ (by omega), getLsbD_word _ _ (by omega), if_neg (by omega), if_pos rfl,
        if_neg (by omega), if_pos rfl, hpendsv, getLsbD_mergeLanes_of_not hm,
        hread 28 (by omega), hactive, Bool.or_true] at hbit
      exact hbit.symm
  · rintro ⟨h26, h28⟩ i hi
    by_cases hlt : i < 32
    · rw [getLsbD_word _ _ hlt, getLsbD_word _ _ hlt]
      split_ifs with hi26 hi28
      · subst hi26
        rw [hsystick, getLsbD_mergeLanes_of_not hi, hread 26 (by omega)]
        cases hactive : nvic.activeExceptionNumber.getLsbD 26
        · rw [Bool.or_false]
        · rw [h26 hi hactive, Bool.true_or]
      · subst hi28
        rw [hpendsv, getLsbD_mergeLanes_of_not hi, hread 28 (by omega)]
        cases hactive : nvic.activeExceptionNumber.getLsbD 28
        · rw [Bool.or_false]
        · rw [h28 hi hactive, Bool.true_or]
      · rfl
    · rw [BitVec.getLsbD_of_ge _ i (by omega), BitVec.getLsbD_of_ge _ i (by omega)]

/-! ## Flash -/

section Flash

variable [UnicornEngine U]

/-- A write of the control register keeps what it holds or takes all but the start bit. -/
lemma Flash.cr_writeControl {flash flash' : Flash D} {uc uc' : U} {d d' : D} {value : U32}
    (h : flash.writeControl uc d value = some (flash', uc', d')) :
    flash'.cr = flash.cr ∨ flash'.cr = value &&& ~~~crStrt := by
  have hnote : ∀ (f : Flash D) success, (f.noteResult success).cr = f.cr := by
    intro f success
    unfold noteResult
    split_ifs <;> rfl
  unfold writeControl at h
  dsimp only at h
  split_ifs at h
  · cases h
    exact Or.inl rfl
  · obtain ⟨⟨erased, uc₁⟩, herase, heq⟩ := Option.map_eq_some_iff.mp h
    have herased : erased.cr = value &&& ~~~crStrt := by
      unfold eraseOnWrite at herase
      split_ifs at herase
      · obtain ⟨⟨success, uc₂⟩, -, heq⟩ := Option.map_eq_some_iff.mp herase
        cases heq
        exact hnote _ _
      · cases herase
        rfl
    have hpersist : (erased.persistOnWrite uc₁ d (flash.cr &&& crLock != 0#32) value).1.cr =
        erased.cr := by
      unfold persistOnWrite
      split_ifs
      · exact hnote _ _
      · rfl
    cases heq
    exact Or.inr (hpersist.trans herased)

/-- A one written to a flag of the status register clears it. -/
lemma Flash.agreeOutside_write_iff {flash flash' : Flash D} {uc uc' : U} {d d' : D}
    {offset value mask : U32}
    (h : flash.write uc d offset (mergeLanes (flash.read offset) value mask) =
      some (flash', uc', d')) :
    AgreeOutside mask (flash'.read offset) (flash.read offset) ↔
      (offset = 0x0c → flash.sr &&& ~~~mask = 0#32) := by
  by_cases hsr : offset = 0x0c
  · subst hsr
    obtain ⟨rfl, -⟩ := Prod.mk.inj (Option.some.inj h)
    have hagree : AgreeOutside mask (flash.sr &&& ~~~mergeLanes flash.sr value mask) flash.sr ↔ _ :=
      agreeOutside_and_not_mergeLanes_iff (fun _ h => h) value mask
    exact hagree.trans (by simp)
  refine iff_of_true ?_ fun h => absurd h hsr
  by_cases hcr : offset = 0x10
  · subst hcr
    have hwrite : flash.writeControl uc d (mergeLanes flash.cr value mask) =
        some (flash', uc', d') := h
    have hread : ∀ x : Flash D, x.read 0x10 = x.cr := fun _ => rfl
    rw [hread, hread]
    rcases cr_writeControl hwrite with hsame | hstored
    · rw [hsame]
    · rw [hstored]
      exact agreeOutside_mergeLanes_and (and_not_of_and_eq_zero flash.cr_strt) value mask
  by_cases hacr : offset = 0x00
  · subst hacr
    obtain ⟨rfl, -⟩ := Prod.mk.inj (Option.some.inj h)
    exact agreeOutside_mergeLanes _ _ _
  by_cases hkey : offset = 0x04
  · subst hkey
    exact AgreeOutside.refl _ _
  by_cases hoptcr : offset = 0x14 ∧ flash.optcr &&& optcrOptlock = 0#32
  · obtain ⟨rfl, hunlocked⟩ := hoptcr
    have hwrite : (if 0x14#32 = 0x14#32 ∧ flash.optcr &&& optcrOptlock = 0#32 then
        some ({ flash with optcr := mergeLanes flash.optcr value mask }, uc, d)
      else some (flash, uc, d)) = some (flash', uc', d') := h
    rw [if_pos ⟨rfl, hunlocked⟩] at hwrite
    obtain ⟨rfl, -⟩ := Prod.mk.inj (Option.some.inj hwrite)
    exact agreeOutside_mergeLanes _ _ _
  · simp only [write, hacr, hkey, hsr, hcr, hoptcr, if_false, Option.some.injEq, Prod.mk.injEq] at h
    rw [h.1]

end Flash

/-! ## Timers -/

/-- Setting the counter takes the value that is written. -/
lemma Dwt.agreeOutside_write (dwt : Dwt) (n : ℕ) (offset value mask : U32) :
    AgreeOutside mask
      ((dwt.write n offset (mergeLanes (dwt.read n offset) value mask)).read n offset)
      (dwt.read n offset) := by
  apply agreeOutside_of_stored value
  by_cases hctrl : offset = 0x0000
  · subst hctrl
    exact Or.inr rfl
  by_cases hcyccnt : offset = 0x0004
  · subst hcyccnt
    have hset : ∀ x, (dwt.setCyccnt n x).cyccnt n = x := by
      intro x
      unfold setCyccnt cyccnt
      bv_omega
    exact Or.inr (hset _)
  · refine Or.inl ?_
    simp only [write, hctrl, hcyccnt, if_false]

/-- A zero written to a flag clears it, and a flag that is set is written back as it is. -/
lemma Tim5.agreeOutside_write (tim : Tim5) (n : ℕ) (offset value mask : U32) :
    AgreeOutside mask
      ((tim.write n offset (mergeLanes (tim.read n offset) value mask)).read n offset)
      (tim.read n offset) := by
  by_cases hstoring : offset ∈ storing
  · apply agreeOutside_of_stored value
    rw [read_write hstoring, update_self]
    exact Or.inr rfl
  by_cases hsr : offset = 0x0010
  · subst hsr
    exact agreeOutside_and_mergeLanes _ _ _
  · simp only [storing, List.mem_cons, List.not_mem_nil, or_false, not_or] at hstoring
    obtain ⟨hcr1, hdier, hcnt, hccr1⟩ := hstoring
    simp only [write, hcr1, hdier, hsr, hcnt, hccr1, if_false, AgreeOutside.refl]

/-- The counter holds nothing, and a write to it restarts the period. -/
lemma Tim6.agreeOutside_write (tim : Tim6) (now : ℕ) (offset value mask : U32) :
    AgreeOutside mask
      ((tim.write now offset (mergeLanes (tim.read now offset) value mask)).word now offset)
      (tim.word now offset) := by
  have hword : ∀ t : Tim6, offset ≠ 0x24 → t.word now offset = t.read now offset := by
    intro t hcnt
    rw [word, if_neg hcnt]
  by_cases hcnt : offset = 0x24
  · subst hcnt
    exact AgreeOutside.refl _ _
  by_cases hstoring : offset ∈ storing
  · apply agreeOutside_of_stored value
    rw [word_write hstoring, update_self, hword tim hcnt]
    exact Or.inr rfl
  rw [hword _ hcnt, hword _ hcnt]
  by_cases hsr : offset = 0x10
  · subst hsr
    exact agreeOutside_and_mergeLanes _ _ _
  by_cases hpsc : offset = 0x28
  · subst hpsc
    exact agreeOutside_mergeLanes_and tim.psc_bits value mask
  simp only [storing, List.mem_cons, List.not_mem_nil, or_false, not_or] at hstoring
  obtain ⟨hcr1, hcr2, hdier, harr⟩ := hstoring
  by_cases hegr : offset = 0x14
  · subst hegr
    exact AgreeOutside.refl _ _
  · simp only [write, hcr1, hcr2, hdier, hsr, hegr, hcnt, hpsc, harr, if_false, AgreeOutside.refl]

/-- A one written to the capture flag clears it, unless the timer is set up to capture. -/
lemma Tim11.agreeOutside_write_iff (tim : Tim11) (offset value mask : U32) :
    AgreeOutside mask ((tim.write offset (mergeLanes (tim.read offset) value mask)).read offset)
        (tim.read offset) ↔
      (offset = 0x0010 → AgreeOutside mask (srAfterSetup tim.cr1 tim.ccmr1 tim.ccer) tim.sr) := by
  by_cases hsr : offset = 0x0010
  · subst hsr
    have hread : (tim.write 0x0010 (mergeLanes tim.sr value mask)).read 0x0010
        = (tim.sr &&& ~~~mergeLanes tim.sr value mask) |||
          srAfterSetup tim.cr1 tim.ccmr1 tim.ccer := rfl
    have hsr : tim.read 0x0010 = tim.sr := rfl
    have hbit : ∀ i, mask.getLsbD i = false →
        ((tim.sr &&& ~~~mergeLanes tim.sr value mask) |||
          srAfterSetup tim.cr1 tim.ccmr1 tim.ccer).getLsbD i
          = (srAfterSetup tim.cr1 tim.ccmr1 tim.ccer).getLsbD i := by
      intro i hi
      rw [BitVec.getLsbD_or, BitVec.getLsbD_and, BitVec.getLsbD_not, getLsbD_mergeLanes_of_not hi]
      cases tim.sr.getLsbD i <;> simp
    rw [hsr, hread, agreeOutside_iff, agreeOutside_iff]
    constructor
    · intro h _ i hi
      exact (hbit i hi).symm.trans (h i hi)
    · intro h i hi
      exact (hbit i hi).trans (h rfl i hi)
  refine iff_of_true ?_ fun h => absurd h hsr
  apply agreeOutside_of_stored value
  by_cases hcr1 : offset = 0x0000
  · subst hcr1
    exact Or.inr rfl
  by_cases hccmr1 : offset = 0x0018
  · subst hccmr1
    exact Or.inr rfl
  by_cases hccer : offset = 0x0020
  · subst hccer
    exact Or.inr rfl
  · refine Or.inl ?_
    simp only [write, hcr1, hsr, hccmr1, hccer, if_false]

/-! ## DMA -/

lemma DmaStream.read_snd (stream : DmaStream) (offset : ℕ) :
    (stream.read offset).2 = stream.register offset := by
  unfold read
  split_ifs with hcr
  · subst hcr
    unfold readCr
    dsimp only
    split_ifs <;> rfl
  · rfl

lemma DmaStream.agreeOutside_write (stream : DmaStream) (offset : ℕ) (value mask : U32) :
    AgreeOutside mask
      ((stream.write offset (mergeLanes (stream.register offset) value mask)).1.register offset)
      (stream.register offset) := by
  by_cases hstoring : offset ∈ storing
  · apply agreeOutside_of_stored value
    rw [register_write hstoring, update_self]
    exact Or.inr rfl
  by_cases hcr : offset = 0x0000
  · subst hcr
    exact agreeOutside_mergeLanes _ _ _
  by_cases hndtr : offset = 0x0004
  · subst hndtr
    exact agreeOutside_mergeLanes_and stream.ndtr_bits value mask
  · simp only [storing, List.mem_cons, List.not_mem_nil, or_false, not_or] at hstoring
    obtain ⟨hpar, hm0ar, hm1ar, hfcr⟩ := hstoring
    simp only [write, hcr, hndtr, hpar, hm0ar, hm1ar, hfcr, if_false, AgreeOutside.refl]

/-- The registers that clear flags read as zero. -/
lemma Dma.agreeOutside_write {dma dma' : Dma} {offset v value mask : U32}
    (hread : dma.read offset = some (dma, v))
    (hwrite : dma.write offset (mergeLanes v value mask) = some dma') :
    AgreeOutside mask (dma'.word offset) (dma.word offset) := by
  have hclear : ∀ flags : U32, AgreeOutside mask (flags &&& ~~~mergeLanes 0 value mask) flags := by
    intro flags
    rw [agreeOutside_iff]
    intro i hi
    by_cases hlt : i < 32
    · rw [BitVec.getLsbD_and, BitVec.getLsbD_not, getLsbD_mergeLanes_of_not hi]
      simp [hlt]
    · rw [BitVec.getLsbD_of_ge _ i (by omega), BitVec.getLsbD_of_ge _ i (by omega)]
  unfold read at hread
  unfold write at hwrite
  unfold word
  cases haccess : DmaAccess.fromOffset offset with
  | reg reg =>
    rw [haccess] at hread hwrite
    dsimp only at hread hwrite ⊢
    have hv := (Prod.mk.inj (Option.some.inj hread)).2
    have hdma := Option.some.inj hwrite
    by_cases hlifcr : reg = 0x08
    · subst hlifcr
      have hv : 0 = v := hv
      subst hv hdma
      exact hclear dma.lisr
    by_cases hhifcr : reg = 0x0c
    · subst hhifcr
      have hv : 0 = v := hv
      subst hv hdma
      exact hclear dma.hisr
    · rw [if_neg hlifcr, if_neg hhifcr] at hdma
      rw [hdma]
  | streamReg i reg =>
    rw [haccess] at hread hwrite
    dsimp only at hread hwrite ⊢
    by_cases hi : i < 8
    · rw [dif_pos hi] at hread hwrite
      have hv := (Prod.mk.inj (Option.some.inj hread)).2
      rw [DmaStream.read_snd] at hv
      subst hv
      have hstream : dma'.streams ⟨i, hi⟩ = ((dma.streams ⟨i, hi⟩).write reg
          (mergeLanes ((dma.streams ⟨i, hi⟩).register reg) value mask)).1 := by
        rw [← Option.some.inj hwrite]
        split_ifs <;> exact update_self ..
      rw [dif_pos hi, dif_pos hi, hstream]
      exact DmaStream.agreeOutside_write _ _ _ _
    · rw [dif_neg hi] at hread
      cases hread

end Stm32Emulator
