import Mathlib.Order.Monotone.Basic
import Mathlib.Order.Lattice.Nat
import Mathlib.Algebra.Order.Field.Rat
import Mathlib.Algebra.Order.Archimedean.Basic
import Mathlib.Data.Nat.Find
import Mathlib.Tactic.FieldSimp

/-!
# A period that is checked at given times

A periodic event is checked for at the times `t 0 = 0 < t 1 < t 2 < …`.  At each time it is raised
if a whole period `q` has passed since it was raised last, and the next period starts at that time,
not at the time at which the event was due.  What is lost in this way adds up: the number of events
by time `n` stays near `n / q` exactly if the times contain, from some point on, a progression of
step `q` (`bounded_iff_progression`).
-/

namespace Stm32Emulator.SampledPeriod

variable (t : ℕ → ℕ) (q : ℕ)

/-- The time at which the event was raised last, after `k` checks. -/
def last : ℕ → ℕ
  | 0 => 0
  | k + 1 => if last k + q ≤ t (k + 1) then t (k + 1) else last k

/-- How often it was raised in `k` checks. -/
def count : ℕ → ℕ
  | 0 => 0
  | k + 1 => if last t q k + q ≤ t (k + 1) then count k + 1 else count k

/-- What has been lost, in `k` checks. -/
def drift (k : ℕ) : ℕ := last t q k - count t q k * q

variable {t q}

/-- Each event is raised a period after the one before it, or later. -/
lemma count_mul_le_last (k : ℕ) : count t q k * q ≤ last t q k := by
  induction k with
  | zero => simp [count]
  | succ k ih =>
    rw [count, last]
    split
    · rw [Nat.add_mul, Nat.one_mul]
      omega
    · exact ih

lemma last_eq (k : ℕ) : last t q k = count t q k * q + drift t q k := by
  have := count_mul_le_last (t := t) (q := q) k
  unfold drift
  omega

lemma drift_mono : Monotone (drift t q) := by
  refine monotone_nat_of_le_succ fun k => ?_
  have h := last_eq (t := t) (q := q) k
  unfold drift at h ⊢
  rw [last, count]
  split
  · next hdue =>
    rw [Nat.add_mul, Nat.one_mul]
    omega
  · exact le_rfl

/-- After every check there is a next event. -/
lemma exists_next (ht : StrictMono t) (hq : 0 < q) (k : ℕ) :
    ∃ k', k ≤ k' ∧ last t q k' = last t q k ∧
    count t q k' = count t q k ∧ last t q k' + q ≤ t (k' + 1) := by
  by_contra hnone
  push Not at hnone
  have hsame : ∀ i, last t q (k + i) = last t q k ∧ count t q (k + i) = count t q k := by
    intro i
    induction i with
    | zero => exact ⟨rfl, rfl⟩
    | succ i ih =>
      have hnot := hnone (k + i) (by omega) ih.1 ih.2
      rw [← Nat.add_assoc, last, count, if_neg (by omega), if_neg (by omega)]
      exact ih
  have hlarge : last t q k + q ≤ t (k + (last t q k + q) + 1) :=
    le_trans (by rw [id]; omega) (ht.id_le _)
  have hnot := hnone (k + (last t q k + q)) (by omega) (hsame _).1 (hsame _).2
  rw [(hsame _).1] at hnot
  omega

section

variable (h0 : t 0 = 0) (hq : 0 < q)
include h0

/-- Every event is raised at a check, or is the start. -/
lemma exists_last (k : ℕ) : ∃ j ≤ k, last t q k = t j := by
  induction k with
  | zero => exact ⟨0, le_rfl, h0.symm⟩
  | succ k ih =>
    obtain ⟨j, hj, hlast⟩ := ih
    rw [last]
    split
    · exact ⟨k + 1, le_rfl, rfl⟩
    · exact ⟨j, Nat.le_succ_of_le hj, hlast⟩

/-- The last event is in the past. -/
lemma last_le (ht : StrictMono t) (k : ℕ) : last t q k ≤ t k := by
  obtain ⟨j, hj, hlast⟩ := exists_last h0 (q := q) k
  rw [hlast]
  exact ht.monotone hj

include hq

/-- At a check less than a period has passed since the last event. -/
lemma lt_last_add (k : ℕ) : t k < last t q k + q := by
  cases k with
  | zero =>
    rw [h0]
    omega
  | succ k =>
    rw [last]
    split <;> omega

variable (ht : StrictMono t)
include ht

/-- **A progression bounds the drift.**  If every `q`-th time from `m` on is a check, no more than
`m` is lost. -/
lemma drift_le_of_progression {m : ℕ} (hm : ∀ j, ∃ k, t k = m + j * q) (k : ℕ) :
    drift t q k ≤ m := by
  have hlast : last t q k ≤ m + count t q k * q := by
    induction k with
    | zero => simp [last]
    | succ k ih =>
      rw [last, count]
      split
      · next hdue =>
        -- the next member of the progression is a check, and none before it is late enough
        obtain ⟨j, hj⟩ := hm (count t q k + 1)
        rw [← hj]
        refine ht.monotone ?_
        by_contra hlt
        have hjk : t j ≤ t k := ht.monotone (by omega)
        have hnear := lt_last_add h0 hq k
        rw [hj, Nat.add_mul, Nat.one_mul] at hjk
        omega
      · exact ih
  unfold drift
  omega

/-- **Bounded drift gives a progression.**  A drift that is bounded grows no more after some time,
and from then on events come exactly a period apart. -/
lemma progression_of_drift_le {b : ℕ} (hb : ∀ k, drift t q k ≤ b) :
    ∃ m, ∀ j, ∃ k, t k = m + j * q := by
  obtain ⟨k₀, hmax⟩ : ∃ k₀, ∀ k, drift t q k ≤ drift t q k₀ := by
    have hmem := Nat.sSup_mem (Set.range_nonempty (drift t q)) ⟨b, by rintro _ ⟨k, rfl⟩; exact hb k⟩
    obtain ⟨k₀, hk₀⟩ := hmem
    refine ⟨k₀, fun k => ?_⟩
    rw [hk₀]
    exact le_csSup ⟨b, by rintro _ ⟨k, rfl⟩; exact hb k⟩ ⟨k, rfl⟩
  have hconst : ∀ k, k₀ ≤ k → drift t q k = drift t q k₀ :=
    fun k hk => le_antisymm (hmax k) (drift_mono hk)
  have hevents : ∀ j, ∃ k, k₀ ≤ k ∧ count t q k = count t q k₀ + j := by
    intro j
    induction j with
    | zero => exact ⟨k₀, le_rfl, rfl⟩
    | succ j ih =>
      obtain ⟨k, hk, hcount⟩ := ih
      obtain ⟨k', hk', -, hcount', hdue⟩ := exists_next ht hq k
      refine ⟨k' + 1, by omega, ?_⟩
      rw [count, if_pos hdue]
      omega
  refine ⟨last t q k₀, fun j => ?_⟩
  obtain ⟨k, hk, hcount⟩ := hevents j
  obtain ⟨i, -, hi⟩ := exists_last h0 (q := q) k
  refine ⟨i, ?_⟩
  rw [← hi, last_eq, last_eq, hconst k hk, hcount, Nat.add_mul]
  omega

end

/-! ## Events by a given time -/

variable (t q) in
/-- How often the event has been raised by time `n`. -/
def eventsBy (n : ℕ) : ℕ := count t q (Nat.findGreatest (fun k => t k ≤ n) n)

/-- The last check by time `n` comes by time `n`, and the next one later. -/
lemma findGreatest_spec (ht : StrictMono t) (h0 : t 0 = 0) (n : ℕ) :
    t (Nat.findGreatest (fun k => t k ≤ n) n) ≤ n ∧
    n < t (Nat.findGreatest (fun k => t k ≤ n) n + 1) := by
  constructor
  · exact Nat.findGreatest_spec (P := fun k => t k ≤ n) (Nat.zero_le n)
      (by rw [h0]; exact Nat.zero_le n)
  · by_contra hle
    have hle : t (Nat.findGreatest (fun k => t k ≤ n) n + 1) ≤ n := Nat.le_of_not_lt hle
    have hbound : Nat.findGreatest (fun k => t k ≤ n) n + 1 ≤ n := le_trans (ht.id_le _) hle
    exact Nat.findGreatest_is_greatest (Nat.lt_succ_self _) hbound hle

lemma eventsBy_check (ht : StrictMono t) (h0 : t 0 = 0) (k : ℕ) :
    eventsBy t q (t k) = count t q k := by
  obtain ⟨hle, hlt⟩ := findGreatest_spec ht h0 (t k)
  unfold eventsBy
  congr 1
  exact le_antisymm (ht.le_iff_le.mp hle) (Nat.lt_succ_iff.mp (ht.lt_iff_lt.mp hlt))

lemma count_succ_le (k : ℕ) : count t q (k + 1) ≤ count t q k + 1 := by
  rw [count]
  split <;> omega

/-- The events by time `n` are no more than the whole periods. -/
lemma eventsBy_mul_le (ht : StrictMono t) (h0 : t 0 = 0) (n : ℕ) : eventsBy t q n * q ≤ n :=
  calc eventsBy t q n * q ≤ last t q (Nat.findGreatest (fun k => t k ≤ n) n) := count_mul_le_last _
    _ ≤ t (Nat.findGreatest (fun k => t k ≤ n) n) := last_le h0 ht _
    _ ≤ n := (findGreatest_spec ht h0 n).1

/-- How far the events by time `n` are from the whole periods, without fractions. -/
lemma abs_eventsBy_sub_le_iff (ht : StrictMono t) (h0 : t 0 = 0) (hq : 0 < q) (n b : ℕ) :
    |(eventsBy t q n : ℚ) - n / q| ≤ b ↔ n ≤ (eventsBy t q n + b) * q := by
  have hq' : (0 : ℚ) < q := by exact_mod_cast hq
  have hle : (eventsBy t q n : ℚ) ≤ n / q := by
    rw [le_div_iff₀ hq']
    exact_mod_cast eventsBy_mul_le ht h0 n
  rw [abs_of_nonpos (sub_nonpos.mpr hle), neg_sub, sub_le_iff_le_add, div_le_iff₀ hq',
    add_comm (b : ℚ)]
  exact_mod_cast Iff.rfl

/-- **Events stay in proportion to time exactly over a progression of checks.** -/
theorem bounded_iff_progression (ht : StrictMono t) (h0 : t 0 = 0) (hq : 0 < q) :
    (∃ b : ℕ, ∀ n : ℕ, |(eventsBy t q n : ℚ) - n / q| ≤ b) ↔ ∃ m, ∀ j, ∃ k, t k = m + j * q := by
  simp only [abs_eventsBy_sub_le_iff ht h0 hq]
  constructor
  · rintro ⟨b, hb⟩
    refine progression_of_drift_le (b := b * q) h0 hq ht fun k => ?_
    have hk := hb (t k)
    have hlast := last_le h0 (q := q) ht k
    rw [eventsBy_check ht h0, Nat.add_mul] at hk
    unfold drift
    omega
  · rintro ⟨m, hm⟩
    refine ⟨m + 2, fun n => ?_⟩
    obtain ⟨-, hlt⟩ := findGreatest_spec ht h0 n
    unfold eventsBy
    generalize Nat.findGreatest (fun k => t k ≤ n) n = k at hlt ⊢
    have hnear := lt_last_add h0 hq (k + 1)
    have hdrift := drift_le_of_progression h0 hq ht hm (k + 1)
    rw [last_eq] at hnear
    calc n ≤ count t q (k + 1) * q + m + q := by omega
      _ ≤ (count t q k + 1) * q + m * q + q := by
        gcongr
        · exact count_succ_le k
        · exact Nat.le_mul_of_pos_right m hq
      _ = (count t q k + (m + 2)) * q := by ring

end Stm32Emulator.SampledPeriod
