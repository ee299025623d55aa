import Mathlib.Data.BitVec
import Mathlib.Tactic.IntervalCases

/-!
# Machine words, byte lanes and little-endian bytes

Fixed-width words are bit vectors, written `U8`, `U32` and so on.  Two small theories about 32-bit
words are developed here.

* **Byte lanes.**  A *lane mask* is a word that is constant on each of its four bytes.
  `mergeLanes old value mask` takes the masked bits from `value` and all others from `old`, and
  `AgreeOutside mask a b` says that two words agree on every unmasked bit.
* **Little-endian bytes.**  `toLeBytes` splits a word into four bytes, least significant first,
  and `fromLeBytes` puts them together again.
-/

namespace Stm32Emulator

/-- An unsigned 8-bit word. -/
abbrev U8 := BitVec 8

/-- An unsigned 16-bit word. -/
abbrev U16 := BitVec 16

/-- An unsigned 32-bit word. -/
abbrev U32 := BitVec 32

/-- An unsigned 128-bit word. -/
abbrev U128 := BitVec 128

/-! ## Index types

Endpoints, streams, ports and pins are counted from zero.  Literals of these types take the proof
that the type has a zero from here.
-/

instance neZero_six : NeZero 6 := ⟨by decide⟩

instance neZero_eight : NeZero 8 := ⟨by decide⟩

instance neZero_eleven : NeZero 11 := ⟨by decide⟩

instance neZero_sixteen : NeZero 16 := ⟨by decide⟩

instance lawfulBEq_u32 : LawfulBEq U32 := inferInstance

/-- The sum, if it is not past the largest word. -/
def checkedAdd (x y : U32) : Option U32 := if x.toNat + y.toNat < 2 ^ 32 then some (x + y) else none

/-- The low half of a word keeps the low half. -/
lemma and_lowHalf_and_lowHalf (x : U32) : x &&& 0xffff#32 &&& 0xffff#32 = x &&& 0xffff#32 := by
  rw [BitVec.and_assoc, BitVec.and_self]

lemma zero_and_lowHalf : (0 : U32) &&& 0xffff#32 = 0 := rfl

/-! ## Bits of words -/

section Bits

variable {w : ℕ}

/-- Masking with the complement of `m` clears nothing outside `m`. -/
lemma and_not_eq_zero_iff (a m : BitVec w) :
    a &&& ~~~m = 0#w ↔ ∀ i, a.getLsbD i = true → m.getLsbD i = true := by
  constructor
  · intro h i hi
    have hbit := congrArg (fun x => x.getLsbD i) h
    have hlt : i < w := BitVec.lt_of_getLsbD hi
    simpa [hi, hlt] using hbit
  · intro h
    ext i hi
    have := h i
    simp only [BitVec.getLsbD_eq_getElem hi] at this
    simp
    tauto

/-- Clearing bits that are clear. -/
lemma and_not_of_and_eq_zero {a m : BitVec w} (h : a &&& m = 0#w) : a &&& ~~~m = a := by
  apply BitVec.eq_of_getLsbD_eq
  intro i hi
  have hbit := congrArg (fun x => x.getLsbD i) h
  rw [BitVec.getLsbD_and, BitVec.getLsbD_not]
  simp only [BitVec.getLsbD_and, BitVec.getLsbD_zero] at hbit
  cases ha : a.getLsbD i
  · rfl
  · rw [ha, Bool.true_and] at hbit
    rw [hbit]
    simp [hi]

/-- A one-bit mask selects the bit it is made of. -/
lemma getLsbD_one_shiftLeft (k i : ℕ) :
    ((1#w) <<< k).getLsbD i = (decide (i = k) && decide (k < w)) := by
  by_cases hi : i = k
  · subst hi
    by_cases hw : i < w
    · simp [hw]
    · simp [hw]
  · by_cases hw : i < w
    · by_cases hk : i < k
      · simp [hk, hi]
      · have : ¬ i - k = 0 := by omega
        simp [BitVec.getLsbD_one, hi, this]
    · simp [hw, hi]

/-- Testing a word against a one-bit mask reads that bit. -/
lemma and_one_shiftLeft_ne_zero_iff (x : BitVec w) (k : ℕ) :
    x &&& (1#w <<< k) ≠ 0#w ↔ x.getLsbD k = true := by
  constructor
  · intro h
    by_contra hk
    apply h
    apply BitVec.eq_of_getLsbD_eq
    intro i hi
    rw [BitVec.getLsbD_and, getLsbD_one_shiftLeft]
    by_cases hik : i = k
    · subst hik
      simp [hk]
    · simp [hik]
  · intro hk h
    have hbit := congrArg (fun y => y.getLsbD k) h
    have hlt : k < w := BitVec.lt_of_getLsbD hk
    simp only [BitVec.getLsbD_and, getLsbD_one_shiftLeft, hk, hlt] at hbit
    simp at hbit

/-- Masking with one leaves the lowest bit. -/
lemma and_one_eq (x : BitVec w) (hw : 0 < w) :
    x &&& 1#w = if x.getLsbD 0 then 1#w else 0#w := by
  apply BitVec.eq_of_getLsbD_eq
  intro i _
  have hone : (1#w).getLsbD i = decide (i = 0) := by
    rw [BitVec.getLsbD_one]
    simp [hw]
  rw [BitVec.getLsbD_and, hone]
  rcases Nat.eq_zero_or_pos i with rfl | hpos
  · cases h : x.getLsbD 0 <;> simp [hw]
  · split_ifs
    · rw [hone]
      simp [hpos.ne']
    · simp [hpos.ne']

end Bits

/-! ## Byte lanes -/

/-- `mask` is constant on each byte, as a mask made of whole byte lanes is. -/
def IsLaneMask (mask : U32) : Prop :=
  ∀ i j, i < 32 → j < 32 → i / 8 = j / 8 → mask.getLsbD i = mask.getLsbD j

/-- The mask of the `size` byte lanes that start at `byteOffset`. -/
def laneMask (size byteOffset : ℕ) : U32 :=
  ((1#32 <<< (8 * size)) - 1#32) <<< (8 * byteOffset)

/-- The masked bits of `value` over the other bits of `old`. -/
def mergeLanes (old value mask : U32) : U32 :=
  (old &&& ~~~mask) ||| (value &&& mask)

/-- `a` and `b` agree on every bit outside `mask`. -/
def AgreeOutside (mask a b : U32) : Prop :=
  a &&& ~~~mask = b &&& ~~~mask

/-- The bits of a lane mask: those of the bytes `byteOffset ≤ k < byteOffset + size`. -/
lemma getLsbD_laneMask {size byteOffset : ℕ} (h : byteOffset + size ≤ 4) {i : ℕ} (hi : i < 32) :
    (laneMask size byteOffset).getLsbD i
      = decide (8 * byteOffset ≤ i ∧ i < 8 * (byteOffset + size)) := by
  have hsize : size ≤ 4 := by omega
  have hoff : byteOffset ≤ 4 := by omega
  interval_cases size <;> interval_cases byteOffset <;> first
    | omega
    | (revert i; decide)

/-- The mask of a run of byte lanes is a lane mask. -/
lemma isLaneMask_laneMask {size byteOffset : ℕ} (h : byteOffset + size ≤ 4) :
    IsLaneMask (laneMask size byteOffset) := by
  intro i j hi hj hij
  rw [getLsbD_laneMask h hi, getLsbD_laneMask h hj, decide_eq_decide]
  omega

/-- Fewer than four byte lanes leave one out. -/
lemma exists_laneMask_clear {size byteOffset : ℕ} (h : byteOffset + size ≤ 4) (hsize : size < 4) :
    ∃ k < 4, (laneMask size byteOffset).getLsbD (8 * k) = false := by
  by_cases hoff : byteOffset = 0
  · refine ⟨3, by omega, ?_⟩
    rw [getLsbD_laneMask h (by omega), decide_eq_false (by omega)]
  · refine ⟨0, by omega, ?_⟩
    rw [getLsbD_laneMask h (by omega), decide_eq_false (by omega)]

lemma getLsbD_mergeLanes (old value mask : U32) (i : ℕ) :
    (mergeLanes old value mask).getLsbD i
      = if mask.getLsbD i then value.getLsbD i else old.getLsbD i := by
  unfold mergeLanes
  by_cases hi : i < 32
  · cases hm : mask.getLsbD i <;>
      simp only [BitVec.getLsbD_or, BitVec.getLsbD_and, BitVec.getLsbD_not, hm, hi] <;> simp
  · have hout : ∀ x : U32, x.getLsbD i = false := fun x => BitVec.getLsbD_of_ge x i (by omega)
    simp [hout]

lemma getLsbD_mergeLanes_of_not {mask : U32} {i : ℕ} (h : mask.getLsbD i = false)
    (old value : U32) :
    (mergeLanes old value mask).getLsbD i = old.getLsbD i := by
  rw [getLsbD_mergeLanes, h]
  rfl

/-- Two words agree outside a mask exactly when they agree on every unmasked bit. -/
lemma agreeOutside_iff {mask a b : U32} :
    AgreeOutside mask a b ↔ ∀ i, mask.getLsbD i = false → a.getLsbD i = b.getLsbD i := by
  unfold AgreeOutside
  constructor
  · intro h i hm
    by_cases hi : i < 32
    · have hbit := congrArg (fun x => x.getLsbD i) h
      simp only [BitVec.getLsbD_and, BitVec.getLsbD_not, hm, hi] at hbit
      simpa only [decide_true, Bool.not_false, Bool.and_true] using hbit
    · rw [BitVec.getLsbD_of_ge a i (by omega), BitVec.getLsbD_of_ge b i (by omega)]
  · intro h
    apply BitVec.eq_of_getLsbD_eq
    intro i hi
    rw [BitVec.getLsbD_and, BitVec.getLsbD_and, BitVec.getLsbD_not]
    cases hm : mask.getLsbD i
    · rw [h i hm]
    · simp

@[refl] lemma AgreeOutside.refl (mask a : U32) : AgreeOutside mask a a := rfl

/-- Merging changes nothing outside the mask. -/
@[simp] lemma agreeOutside_mergeLanes (old value mask : U32) :
    AgreeOutside mask (mergeLanes old value mask) old := by
  rw [agreeOutside_iff]
  intro i hm
  rw [getLsbD_mergeLanes, hm]
  rfl

/-- A register that is not written, or takes all that is written. -/
lemma agreeOutside_of_stored (value : U32) {old mask new : U32}
    (h : new = old ∨ new = mergeLanes old value mask) : AgreeOutside mask new old := by
  rcases h with rfl | rfl
  · exact AgreeOutside.refl _ _
  · exact agreeOutside_mergeLanes _ _ _

/-- A function of single bits, applied to both words, keeps agreement. -/
lemma AgreeOutside.and_right {mask a b : U32} (h : AgreeOutside mask a b) (c : U32) :
    AgreeOutside mask (a &&& c) (b &&& c) := by
  rw [agreeOutside_iff] at h ⊢
  intro i hm
  simp [h i hm]

/-- Setting the bits of `c` in both words keeps agreement. -/
lemma AgreeOutside.or_right {mask a b : U32} (h : AgreeOutside mask a b) (c : U32) :
    AgreeOutside mask (a ||| c) (b ||| c) := by
  rw [agreeOutside_iff] at h ⊢
  intro i hm
  simp [h i hm]

/-- A write-one-to-set register keeps its unwritten lanes when its own content is merged in. -/
lemma agreeOutside_or_mergeLanes (old value mask : U32) :
    AgreeOutside mask (old ||| mergeLanes old value mask) old := by
  rw [agreeOutside_iff]
  intro i hm
  simp [getLsbD_mergeLanes, hm]

/-- A write-zero-to-clear register keeps its unwritten lanes when its own content is merged in. -/
lemma agreeOutside_and_mergeLanes (old value mask : U32) :
    AgreeOutside mask (old &&& mergeLanes old value mask) old := by
  rw [agreeOutside_iff]
  intro i hm
  simp [getLsbD_mergeLanes, hm]

/-- A register that takes some of the bits written, and holds no others. -/
lemma agreeOutside_mergeLanes_and {old c : U32} (hold : old &&& c = old) (value mask : U32) :
    AgreeOutside mask (mergeLanes old value mask &&& c) old := by
  have hagree := (agreeOutside_mergeLanes old value mask).and_right c
  rwa [hold] at hagree

/-- A write-one-to-clear register that reads as `seen` loses exactly its set bits outside the
written lanes when that is merged in. -/
lemma agreeOutside_and_not_mergeLanes_iff {old seen : U32}
    (hseen : ∀ i, old.getLsbD i = true → seen.getLsbD i = true) (value mask : U32) :
    AgreeOutside mask (old &&& ~~~mergeLanes seen value mask) old ↔ old &&& ~~~mask = 0#32 := by
  rw [agreeOutside_iff, and_not_eq_zero_iff]
  constructor
  · intro h i hold
    by_contra hm
    rw [Bool.not_eq_true] at hm
    have hi : i < 32 := BitVec.lt_of_getLsbD hold
    have := h i hm
    simp [getLsbD_mergeLanes, hm, hold, hseen i hold] at this
  · intro h i hm
    cases hold : old.getLsbD i
    · simp [hold]
    · simp [h i hold] at hm

/-! ## Little-endian bytes -/

/-- The four bytes of a word, least significant first. -/
def toLeBytes (w : U32) : List U8 :=
  [w.extractLsb' 0 8, w.extractLsb' 8 8, w.extractLsb' 16 8, w.extractLsb' 24 8]

/-- The word made of four bytes, least significant first. -/
def fromLeBytes (b₀ b₁ b₂ b₃ : U8) : U32 :=
  b₃ ++ b₂ ++ b₁ ++ b₀

@[simp] lemma length_toLeBytes (w : U32) : (toLeBytes w).length = 4 := rfl

/-- Splitting a word that was put together from four bytes gives the bytes back. -/
@[simp] lemma toLeBytes_fromLeBytes (b₀ b₁ b₂ b₃ : U8) :
    toLeBytes (fromLeBytes b₀ b₁ b₂ b₃) = [b₀, b₁, b₂, b₃] := by
  have hbyte : ∀ k b, (∀ i, i < 8 → (fromLeBytes b₀ b₁ b₂ b₃).getLsbD (k + i) = b.getLsbD i) →
      (fromLeBytes b₀ b₁ b₂ b₃).extractLsb' k 8 = b := by
    intro k b h
    apply BitVec.eq_of_getLsbD_eq
    intro i hi
    rw [BitVec.getLsbD_extractLsb', h i hi]
    simp [hi]
  unfold toLeBytes
  rw [hbyte 0 b₀, hbyte 8 b₁, hbyte 16 b₂, hbyte 24 b₃] <;>
  · intro i hi
    simp only [fromLeBytes, BitVec.getLsbD_append]
    grind

/-- Putting the bytes of a word together gives the word back. -/
@[simp] lemma fromLeBytes_extract (w : U32) :
    fromLeBytes (w.extractLsb' 0 8) (w.extractLsb' 8 8) (w.extractLsb' 16 8)
      (w.extractLsb' 24 8) = w := by
  apply BitVec.eq_of_getLsbD_eq
  intro i hi
  simp only [fromLeBytes, BitVec.getLsbD_append, BitVec.getLsbD_extractLsb']
  grind

end Stm32Emulator
