import Mathlib.Algebra.Order.Group.Nat
import Mathlib.Data.List.Induction
import Mathlib.Data.Nat.ModEq

/-!
# Writing a stream into a buffer again and again

A stream is written into the first `n` cells of a buffer, one element after the other and from the
start again after the last cell.  In the end each cell holds the last element that was written to
it, and the number of that element is known without looking at the others.
-/

namespace Stm32Emulator

variable {α : Type*} {n k p : ℕ} {buffer xs : List α}

/-- The stream from its `k`-th element on. -/
def cyclicWrite (n : ℕ) (buffer : List α) (k : ℕ) : List α → List α
  | [] => buffer
  | x :: xs => cyclicWrite n (buffer.set (k % n) x) (k + 1) xs

/-- The last element of a stream of `length` that is written to a cell. -/
def lastWritten (n length p : ℕ) : ℕ := p + n * ((length - 1 - p) / n)

@[simp] lemma length_cyclicWrite (n : ℕ) (buffer : List α) (k : ℕ) (xs : List α) :
    (cyclicWrite n buffer k xs).length = buffer.length := by
  induction xs generalizing buffer k with
  | nil => rfl
  | cons x xs ih => rw [cyclicWrite, ih, List.length_set]

lemma cyclicWrite_snoc (n : ℕ) (buffer : List α) (k : ℕ) (xs : List α) (x : α) :
    cyclicWrite n buffer k (xs ++ [x]) =
      (cyclicWrite n buffer k xs).set ((k + xs.length) % n) x := by
  induction xs generalizing buffer k with
  | nil => rfl
  | cons y xs ih =>
    rw [List.cons_append, cyclicWrite, cyclicWrite, ih, List.length_cons]
    congr 2
    omega

/-- The number of the last element belongs to the cell, and to the stream. -/
lemma lastWritten_lt (hp : p < xs.length) : lastWritten n xs.length p < xs.length := by
  have := Nat.mul_div_le (xs.length - 1 - p) n
  unfold lastWritten
  omega

/-- Another element is the last one for its cell, and changes nothing for the others. -/
lemma lastWritten_succ {length : ℕ} (hn : 0 < n) (hp : p < n) (hle : p ≤ length) :
    lastWritten n (length + 1) p = if length % n = p then length else lastWritten n length p := by
  have hsplit := Nat.mod_add_div length n
  unfold lastWritten
  rw [Nat.add_sub_cancel]
  split_ifs with hmod
  · rw [show length - p = n * (length / n) by omega, Nat.mul_div_cancel_left _ hn]
    omega
  · -- a cell other than the next one
    have hlt : p < length := by
      refine lt_of_le_of_ne hle fun heq => hmod ?_
      rw [← heq, Nat.mod_eq_of_lt hp]
    have hdvd : ¬ n ∣ length - 1 - p + 1 := by
      rw [show length - 1 - p + 1 = length - p by omega]
      intro hdvd
      have hmodEq : p % n = length % n := (Nat.modEq_iff_dvd' hle).mpr hdvd
      exact hmod (hmodEq.symm.trans (Nat.mod_eq_of_lt hp))
    rw [show length - p = length - 1 - p + 1 by omega, Nat.succ_div, if_neg hdvd, Nat.add_zero]

/-- **What each cell holds.** -/
theorem getElem?_cyclicWrite (hn : 0 < n) (hlength : n ≤ buffer.length) (xs : List α) (p : ℕ) :
    (cyclicWrite n buffer 0 xs)[p]? = if p < n ∧
    p < xs.length then xs[lastWritten n xs.length p]? else buffer[p]? := by
  induction xs using List.reverseRecOn with
  | nil => simp [cyclicWrite]
  | append_singleton xs x ih =>
    rw [cyclicWrite_snoc, List.getElem?_set, ih, length_cyclicWrite, Nat.zero_add,
      List.length_append, List.length_singleton]
    have hcell := Nat.mod_lt xs.length hn
    by_cases hnext : xs.length % n = p
    · subst hnext
      have hle := Nat.mod_le xs.length n
      rw [if_pos rfl, if_pos (hcell.trans_le hlength), if_pos ⟨hcell, Nat.lt_succ_of_le hle⟩,
        lastWritten_succ hn hcell hle, if_pos rfl,
        List.getElem?_append_right (Nat.le_refl _), Nat.sub_self]
      rfl
    · rw [if_neg hnext]
      by_cases hp : p < n ∧ p < xs.length
      · rw [if_pos hp, if_pos ⟨hp.1, Nat.lt_succ_of_lt hp.2⟩,
          lastWritten_succ hn hp.1 hp.2.le, if_neg hnext,
          List.getElem?_append_left (lastWritten_lt hp.2)]
      · rw [if_neg hp, if_neg]
        rintro ⟨hpn, hlt⟩
        have heq : p = xs.length := by omega
        exact hnext (by rw [← heq, Nat.mod_eq_of_lt hpn])

end Stm32Emulator
