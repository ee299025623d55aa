import Mathlib.Data.Nat.Factorization.Basic

/-!
# Multiples in an interval

How many multiples of a number lie behind `a` and not behind `b`: each raises the quotient by one.
-/

namespace Stm32Emulator

/-- The multiples of `p` behind `a`, up to `b`. -/
def multiplesIn (p a b : ℕ) : Finset ℕ := (Finset.Ioc a b).filter (p ∣ ·)

variable {p a b : ℕ}

lemma mem_multiplesIn {x : ℕ} : x ∈ multiplesIn p a b ↔ a < x ∧ x ≤ b ∧ p ∣ x := by
  unfold multiplesIn
  rw [Finset.mem_filter, Finset.mem_Ioc, and_assoc]

/-- The multiples are the steps of the quotient. -/
lemma div_add_card_multiplesIn (h : a ≤ b) : a / p + (multiplesIn p a b).card = b / p := by
  have hsplit : multiplesIn p 0 b = multiplesIn p 0 a ∪ multiplesIn p a b := by
    ext x
    rw [Finset.mem_union, mem_multiplesIn, mem_multiplesIn, mem_multiplesIn]
    have hinterval : 0 < x ∧ x ≤ b ↔ (0 < x ∧ x ≤ a) ∨ a < x ∧ x ≤ b := by omega
    rw [← and_assoc, ← and_assoc, ← and_assoc, hinterval, or_and_right]
  have hdisjoint : Disjoint (multiplesIn p 0 a) (multiplesIn p a b) := by
    rw [Finset.disjoint_left]
    intro x hx hx'
    exact absurd (mem_multiplesIn.mp hx).2.1 (not_le.mpr (mem_multiplesIn.mp hx').1)
  have hcard : ∀ n, (multiplesIn p 0 n).card = n / p := fun n => Nat.Ioc_filter_dvd_card_eq_div n p
  rw [← hcard a, ← hcard b, hsplit, Finset.card_union_of_disjoint hdisjoint]

/-- Between two multiples the next one is less than `p` ahead. -/
lemma exists_multiple_ahead (hp : 0 < p) (h : ¬ p ∣ a) :
    ∃ k ahead, k * p = a + ahead ∧ 0 < ahead ∧ ahead < p := by
  have hmod : 0 < a % p := Nat.pos_of_ne_zero fun h0 => h (Nat.dvd_of_mod_eq_zero h0)
  have hlt := Nat.mod_lt a hp
  have hdiv := Nat.div_add_mod a p
  refine ⟨a / p + 1, p - a % p, ?_, by omega, by omega⟩
  rw [Nat.add_mul, Nat.one_mul, Nat.mul_comm]
  omega

end Stm32Emulator
