import Mathlib.Data.List.Sort
import Stm32Emulator.Foundation.SetBits

/-!
# Fields of a word

A word cut into fields of `stride` bits.  A loop that handles the field of the lowest set bit and
clears it goes through the fields that are not zero (`setFields`): `setFields_of_clear` says which
comes next and what is left.
-/

namespace Stm32Emulator

variable {w : ℕ}

/-- The field with an index.  Bits past the end of the word are zero. -/
def bitField (x : BitVec w) (stride i : ℕ) : BitVec stride := x.extractLsb' (i * stride) stride

/-- The indexes of the fields that are not zero, the lowest first. -/
def setFields (x : BitVec w) (stride : ℕ) : List ℕ :=
  (List.range w).filter fun i => bitField x stride i ≠ 0#(stride)

lemma getLsbD_bitField (x : BitVec w) (stride i j : ℕ) :
    (bitField x stride i).getLsbD j = (decide (j < stride) && x.getLsbD (i * stride + j)) :=
  BitVec.getLsbD_extractLsb' _ _ _ _

/-- Fields differ where the difference is not zero. -/
lemma bitField_xor_ne_zero_iff {x y : BitVec w} {stride i : ℕ} :
    bitField (x ^^^ y) stride i ≠ 0#(stride) ↔ bitField x stride i ≠ bitField y stride i := by
  unfold bitField
  rw [BitVec.extractLsb'_xor, ne_eq, BitVec.xor_eq_zero_iff]

section Stride

variable {stride : ℕ} (hstride : 0 < stride)

include hstride

/-- A field is not zero if one of its bits is set. -/
lemma bitField_ne_zero_iff {x : BitVec w} {i : ℕ} :
    bitField x stride i ≠ 0#(stride) ↔ ∃ j ∈ setBits x, j / stride = i := by
  rw [ne_eq, ← setBits_eq_nil_iff, ← ne_eq, List.ne_nil_iff_exists_cons]
  constructor
  · rintro ⟨k, rest, hbits⟩
    have hk : (bitField x stride i).getLsbD k = true := by
      rw [← mem_setBits, hbits]
      exact List.mem_cons_self
    rw [getLsbD_bitField, Bool.and_eq_true, decide_eq_true_eq] at hk
    refine ⟨i * stride + k, mem_setBits.mpr hk.2, ?_⟩
    rw [Nat.mul_comm, Nat.mul_add_div hstride, Nat.div_eq_of_lt hk.1, Nat.add_zero]
  · rintro ⟨j, hj, rfl⟩
    have hmem : j % stride ∈ setBits (bitField x stride (j / stride)) := by
      rw [mem_setBits, getLsbD_bitField, Nat.div_add_mod', mem_setBits.mp hj,
        decide_eq_true (Nat.mod_lt j hstride), Bool.and_true]
    exact List.exists_cons_of_ne_nil (List.ne_nil_of_mem hmem)

lemma mem_setFields {x : BitVec w} {i : ℕ} :
    i ∈ setFields x stride ↔ ∃ j ∈ setBits x, j / stride = i := by
  unfold setFields
  rw [List.mem_filter, List.mem_range, decide_eq_true_eq, bitField_ne_zero_iff hstride]
  constructor
  · exact fun h => h.2
  · rintro ⟨j, hj, rfl⟩
    have hlt := BitVec.lt_of_getLsbD (mem_setBits.mp hj)
    exact ⟨(Nat.div_le_self j stride).trans_lt hlt, j, hj, rfl⟩

lemma setFields_eq_nil_iff {x : BitVec w} : setFields x stride = [] ↔ x = 0#w := by
  rw [← setBits_eq_nil_iff, List.eq_nil_iff_forall_not_mem, List.eq_nil_iff_forall_not_mem]
  constructor
  · intro h j hj
    exact h (j / stride) ((mem_setFields hstride).mpr ⟨j, hj, rfl⟩)
  · intro h i hi
    obtain ⟨j, hj, -⟩ := (mem_setFields hstride).mp hi
    exact h j hj

omit hstride in
lemma pairwise_setFields (x : BitVec w) : (setFields x stride).Pairwise (· < ·) :=
  List.pairwise_lt_range.filter _

/-- The field of the lowest set bit comes first, and clearing it, with the bits below, leaves the
others. -/
lemma setFields_of_clear {x y : BitVec w} {i : ℕ} {rest : List ℕ} (h : setBits x = i :: rest)
    (hy : ∀ j, y.getLsbD j = (x.getLsbD j && decide (i / stride < j / stride))) :
    setFields x stride = i / stride :: setFields y stride := by
  have hlowest : ∀ j ∈ setBits x, i ≤ j := by
    have hpairwise := pairwise_setBits x
    rw [h] at hpairwise ⊢
    intro j hj
    rcases List.mem_cons.mp hj with rfl | hrest
    · exact le_rfl
    · exact ((List.pairwise_cons.mp hpairwise).1 j hrest).le
  have hbits : ∀ {j}, j ∈ setBits y ↔ j ∈ setBits x ∧ i / stride < j / stride := by
    intro j
    rw [mem_setBits, mem_setBits, hy, Bool.and_eq_true, decide_eq_true_eq]
  have hlater : ∀ k ∈ setFields y stride, i / stride < k := by
    intro k hk
    obtain ⟨j, hj, rfl⟩ := (mem_setFields hstride).mp hk
    exact (hbits.mp hj).2
  refine (pairwise_setFields x).eq_of_mem_iff
    (List.pairwise_cons.mpr ⟨hlater, pairwise_setFields y⟩) ?_
  intro k
  rw [List.mem_cons, mem_setFields hstride, mem_setFields hstride]
  constructor
  · rintro ⟨j, hj, rfl⟩
    rcases (Nat.div_le_div_right (c := stride) (hlowest j hj)).eq_or_lt with heq | hlt
    · exact Or.inl heq.symm
    · exact Or.inr ⟨j, hbits.mpr ⟨hj, hlt⟩, rfl⟩
  · rintro (rfl | ⟨j, hj, rfl⟩)
    · exact ⟨i, h ▸ List.mem_cons_self, rfl⟩
    · exact ⟨j, (hbits.mp hj).1, rfl⟩

end Stride

/-- Fields of one bit are bits. -/
lemma bitField_one (x : BitVec w) (i : ℕ) : bitField x 1 i = BitVec.ofBool (x.getLsbD i) := by
  apply BitVec.eq_of_getLsbD_eq
  intro j hj
  obtain rfl : j = 0 := Nat.lt_one_iff.mp hj
  rw [getLsbD_bitField, BitVec.getLsbD_ofBool, Nat.mul_one, Nat.add_zero, decide_eq_true hj,
    decide_eq_true rfl]

lemma setFields_one (x : BitVec w) : setFields x 1 = setBits x := by
  refine List.filter_congr fun i _ => ?_
  have hbit : ∀ b : Bool, decide (BitVec.ofBool b ≠ 0#1) = b := by decide
  rw [bitField_one, hbit]

/-- There are at most as many fields that are not zero as there are bits. -/
lemma length_setFields_le (x : BitVec w) (stride : ℕ) : (setFields x stride).length ≤ w := by
  have h := List.length_filter_le (fun i => decide (bitField x stride i ≠ 0#(stride)))
    (List.range w)
  rwa [List.length_range] at h

end Stm32Emulator
