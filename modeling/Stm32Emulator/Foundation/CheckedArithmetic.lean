import Mathlib.Data.BitVec

/-!
# Checked arithmetic

Operations on words that have no result where the number they stand for is not a word.
-/

namespace Stm32Emulator

variable {w : ℕ} {x y : BitVec w}

/-- The product, if it is not past the largest word. -/
def checkedMul (x y : BitVec w) : Option (BitVec w) :=
  if x.toNat * y.toNat < 2 ^ w then some (x * y) else none

/-- The difference, if it is not negative. -/
def checkedSub (x y : BitVec w) : Option (BitVec w) :=
  if y.toNat ≤ x.toNat then some (x - y) else none

/-- The quotient, if the divisor is not zero. -/
def checkedDiv (x y : BitVec w) : Option (BitVec w) := if y = 0 then none else some (x / y)

/-- The next word, if there is one. -/
def checkedSucc (x : BitVec w) : Option (BitVec w) :=
  if x.toNat + 1 < 2 ^ w then some (x + 1) else none

lemma checkedMul_eq_some (h : x.toNat * y.toNat < 2 ^ w) :
    ∃ z, checkedMul x y = some z ∧ z.toNat = x.toNat * y.toNat := by
  refine ⟨x * y, if_pos h, ?_⟩
  rw [BitVec.toNat_mul, Nat.mod_eq_of_lt h]

lemma checkedMul_eq_none (h : 2 ^ w ≤ x.toNat * y.toNat) : checkedMul x y = none :=
  if_neg (not_lt.mpr h)

lemma checkedSub_eq_some (h : y.toNat ≤ x.toNat) :
    ∃ z, checkedSub x y = some z ∧ z.toNat = x.toNat - y.toNat := by
  refine ⟨x - y, if_pos h, ?_⟩
  have hx := x.isLt
  rw [BitVec.toNat_sub, show 2 ^ w - y.toNat + x.toNat = x.toNat - y.toNat + 2 ^ w by omega,
    Nat.add_mod_right, Nat.mod_eq_of_lt (by omega)]

lemma checkedSub_eq_none (h : x.toNat < y.toNat) : checkedSub x y = none := if_neg (not_le.mpr h)

lemma checkedDiv_eq_some (h : y ≠ 0) : ∃ z, checkedDiv x y = some z ∧ z.toNat = x.toNat / y.toNat :=
  ⟨x / y, if_neg h, BitVec.toNat_udiv⟩

lemma checkedDiv_eq_none (h : y = 0) : checkedDiv x y = none := if_pos h

lemma checkedSucc_eq_some (h : x.toNat + 1 ≠ 2 ^ w) :
    ∃ z, checkedSucc x = some z ∧ z.toNat = x.toNat + 1 := by
  have hx := x.isLt
  have hlt : x.toNat + 1 < 2 ^ w := by omega
  refine ⟨x + 1, if_pos hlt, ?_⟩
  have hone : (1 : BitVec w).toNat = 1 := by
    rw [BitVec.ofNat_eq_ofNat, BitVec.toNat_ofNat]
    exact Nat.mod_eq_of_lt ((Nat.le_add_left 1 x.toNat).trans_lt hlt)
  rw [BitVec.toNat_add, hone, Nat.mod_eq_of_lt hlt]

lemma checkedSucc_eq_none (h : x.toNat + 1 = 2 ^ w) : checkedSucc x = none := if_neg (by omega)

end Stm32Emulator
