import Mathlib.Algebra.Order.Ring.Nat

/-!
# Scanning a rectangle

A cursor goes through a rectangle row by row and starts again after the last row.  It makes one step
at a time (`Raster.next`) and is after `k` steps where division says (`Raster.place`), also in a
rectangle whose ends are in the wrong order, which is one of a single column or row.

If no coordinate can be past a limit and the cursor goes past a column before it turns back, it must
not complete a row that ends at the limit.  `Raster.Fits` says for how many steps it does not.
-/

namespace Stm32Emulator

/-- A rectangle, both ends included. -/
structure Raster where
  left : ℕ
  top : ℕ
  right : ℕ
  bottom : ℕ
  deriving DecidableEq, Repr

namespace Raster

variable {r : Raster} {k limit : ℕ}

/-- The number of columns, which is one if the ends are in the wrong order. -/
def columns (r : Raster) : ℕ := r.right - r.left + 1

/-- The number of rows, which is one if the ends are in the wrong order. -/
def rows (r : Raster) : ℕ := r.bottom - r.top + 1

/-- One step of the cursor. -/
def next (r : Raster) (p : ℕ × ℕ) : ℕ × ℕ :=
  if p.1 < r.right then (p.1 + 1, p.2)
  else if p.2 < r.bottom then (r.left, p.2 + 1)
  else (r.left, r.top)

/-- Where the cursor is after `k` steps. -/
def place (r : Raster) (k : ℕ) : ℕ × ℕ :=
  (r.left + k % r.columns, r.top + k / r.columns % r.rows)

/-- A step from here does not go past the limit. -/
def StepFits (r : Raster) (limit : ℕ) (p : ℕ × ℕ) : Prop :=
  p.1 ≠ limit ∧ (r.right ≤ p.1 → p.2 ≠ limit)

/-- The first `k` steps do not go past the limit. -/
def Fits (r : Raster) (limit k : ℕ) : Prop :=
  (max r.left r.right = limit → k < r.columns) ∧
  (max r.top r.bottom = limit → k < r.rows * r.columns)

instance : Decidable (r.StepFits limit p) := inferInstanceAs (Decidable (_ ∧ _))

instance : Decidable (r.Fits limit k) := inferInstanceAs (Decidable (_ ∧ _))

lemma columns_pos (r : Raster) : 0 < r.columns := Nat.succ_pos _

lemma rows_pos (r : Raster) : 0 < r.rows := Nat.succ_pos _

@[simp] lemma place_zero (r : Raster) : r.place 0 = (r.left, r.top) := by simp [place]

/-! ## The steps -/

/-- The successor stays in its row. -/
lemma succ_divMod_of_lt {n : ℕ} (h : k % n + 1 < n) :
    (k + 1) % n = k % n + 1 ∧ (k + 1) / n = k / n := by
  have hsplit : k + 1 = k % n + 1 + n * (k / n) := by
    have := Nat.mod_add_div k n
    omega
  constructor
  · conv_lhs => rw [hsplit, Nat.add_mul_mod_self_left, Nat.mod_eq_of_lt h]
  · conv_lhs => rw [hsplit, Nat.add_mul_div_left _ _ (by omega), Nat.div_eq_of_lt h, Nat.zero_add]

/-- The successor begins the next row. -/
lemma succ_divMod_of_eq {n : ℕ} (h : k % n + 1 = n) :
    (k + 1) % n = 0 ∧ (k + 1) / n = k / n + 1 := by
  have hpos : 0 < n := by omega
  have hsplit : k + 1 = n * (k / n + 1) := by
    have := Nat.mod_add_div k n
    rw [Nat.mul_add, Nat.mul_one]
    omega
  rw [hsplit]
  exact ⟨Nat.mul_mod_right _ _, Nat.mul_div_cancel_left _ hpos⟩

lemma mod_columns_cases (r : Raster) (k : ℕ) :
    k % r.columns + 1 < r.columns ∨ k % r.columns + 1 = r.columns := by
  have := Nat.mod_lt k r.columns_pos
  omega

lemma mod_rows_cases (r : Raster) (k : ℕ) : k % r.rows + 1 < r.rows ∨ k % r.rows + 1 = r.rows := by
  have := Nat.mod_lt k r.rows_pos
  omega

/-- The cursor is at the end of a row. -/
lemma place_fst_lt_iff : (r.place k).1 < r.right ↔ k % r.columns + 1 < r.columns := by
  unfold place columns
  dsimp only
  omega

lemma place_snd_lt_iff : (r.place k).2 < r.bottom ↔ k / r.columns % r.rows + 1 < r.rows := by
  unfold place rows
  dsimp only
  omega

/-- **The closed form of the scan.** -/
theorem next_place (r : Raster) (k : ℕ) : r.next (r.place k) = r.place (k + 1) := by
  unfold next
  rcases r.mod_columns_cases k with hcol | hcol
  · obtain ⟨hmod, hdiv⟩ := succ_divMod_of_lt hcol
    rw [if_pos (place_fst_lt_iff.mpr hcol)]
    simp only [place, hmod, hdiv, Nat.add_assoc]
  · obtain ⟨hmod, hdiv⟩ := succ_divMod_of_eq hcol
    rw [if_neg (place_fst_lt_iff.not.mpr (by omega))]
    rcases r.mod_rows_cases (k / r.columns) with hrow | hrow
    · rw [if_pos (place_snd_lt_iff.mpr hrow)]
      simp only [place, hmod, hdiv, (succ_divMod_of_lt hrow).1, Nat.add_zero, Nat.add_assoc]
    · rw [if_neg (place_snd_lt_iff.not.mpr (by omega))]
      simp only [place, hmod, hdiv, (succ_divMod_of_eq hrow).1, Nat.add_zero]

/-! ## The box -/

/-- The cursor never leaves the rectangle. -/
lemma place_mem (r : Raster) (k : ℕ) :
    (r.left ≤ (r.place k).1 ∧ (r.place k).1 ≤ max r.left r.right) ∧
      (r.top ≤ (r.place k).2 ∧ (r.place k).2 ≤ max r.top r.bottom) := by
  have hcol : k % r.columns < r.right - r.left + 1 := Nat.mod_lt k r.columns_pos
  have hrow : k / r.columns % r.rows < r.bottom - r.top + 1 := Nat.mod_lt _ r.rows_pos
  unfold place
  dsimp only
  omega

/-- With the ends in order, the cursor is between them. -/
lemma place_le (hx : r.left ≤ r.right) (hy : r.top ≤ r.bottom) (k : ℕ) :
    (r.place k).1 ≤ r.right ∧ (r.place k).2 ≤ r.bottom := by
  obtain ⟨⟨-, hcol⟩, -, hrow⟩ := r.place_mem k
  exact ⟨hcol.trans_eq (max_eq_right hx), hrow.trans_eq (max_eq_right hy)⟩

/-! ## The limit -/

/-- The last column is at the limit and the cursor is in it. -/
lemma place_fst_eq_limit_iff (hleft : r.left ≤ limit) (hright : r.right ≤ limit) :
    (r.place k).1 = limit ↔ max r.left r.right = limit ∧ k % r.columns + 1 = r.columns := by
  have hcol := Nat.mod_lt k r.columns_pos
  unfold columns at hcol ⊢
  unfold place columns
  dsimp only
  omega

lemma place_snd_eq_limit_iff (htop : r.top ≤ limit) (hbottom : r.bottom ≤ limit) :
    (r.place k).2 = limit ↔ max r.top r.bottom = limit ∧ k / r.columns % r.rows + 1 = r.rows := by
  have hrow := Nat.mod_lt (k / r.columns) r.rows_pos
  unfold rows at hrow ⊢
  unfold place rows
  dsimp only
  omega

/-- Where the ends of rows are that end the whole rectangle. -/
lemma mod_rows_mul_columns (hcol : k % r.columns + 1 = r.columns)
    (hrow : k / r.columns % r.rows + 1 = r.rows) :
    r.rows * r.columns ≤ k + 1 := by
  have hk := Nat.mod_add_div k r.columns
  have hle : r.rows ≤ k / r.columns + 1 := by
    have := Nat.mod_le (k / r.columns) r.rows
    omega
  calc r.rows * r.columns ≤ (k / r.columns + 1) * r.columns := Nat.mul_le_mul_right _ hle
    _ = k + 1 := by
      rw [Nat.add_mul, Nat.one_mul, Nat.mul_comm]
      omega

/-- The last place of the rectangle. -/
lemma last_place (r : Raster) :
    (r.rows * r.columns - 1) % r.columns + 1 = r.columns ∧
      (r.rows * r.columns - 1) / r.columns % r.rows + 1 = r.rows := by
  have hcols := r.columns_pos
  have hrows := r.rows_pos
  have hsplit : r.rows * r.columns - 1 = r.columns - 1 + r.columns * (r.rows - 1) := by
    obtain ⟨n, hn⟩ : ∃ n, r.rows = n + 1 := ⟨r.rows - 1, by omega⟩
    rw [hn, Nat.add_mul, Nat.one_mul, Nat.add_sub_cancel, Nat.mul_comm]
    omega
  have hmod : (r.rows * r.columns - 1) % r.columns = r.columns - 1 := by
    rw [hsplit, Nat.add_mul_mod_self_left, Nat.mod_eq_of_lt (by omega)]
  have hdiv : (r.rows * r.columns - 1) / r.columns = r.rows - 1 := by
    rw [hsplit, Nat.add_mul_div_left _ _ hcols, Nat.div_eq_of_lt (by omega), Nat.zero_add]
  rw [hmod, hdiv, Nat.mod_eq_of_lt (by omega)]
  omega

/-- **How far a scan goes below a limit.** -/
theorem fits_iff (hleft : r.left ≤ limit) (hright : r.right ≤ limit) (htop : r.top ≤ limit)
    (hbottom : r.bottom ≤ limit) : r.Fits limit k ↔ ∀ j < k, r.StepFits limit (r.place j) := by
  constructor
  · rintro ⟨hx, hy⟩ j hj
    refine ⟨fun hlimit => ?_, fun hend hlimit => ?_⟩
    · obtain ⟨hmax, hlast⟩ := (place_fst_eq_limit_iff hleft hright).mp hlimit
      have := hx hmax
      have := Nat.mod_le j r.columns
      omega
    · obtain ⟨hmax, hlast⟩ := (place_snd_eq_limit_iff htop hbottom).mp hlimit
      have hcol : j % r.columns + 1 = r.columns :=
        (r.mod_columns_cases j).resolve_left (place_fst_lt_iff.not.mp (by omega))
      have := mod_rows_mul_columns hcol hlast
      have := hy hmax
      omega
  · intro h
    refine ⟨fun hmax => ?_, fun hmax => ?_⟩
    · by_contra hge
      have hcols := r.columns_pos
      refine (h (r.columns - 1) (by omega)).1 ((place_fst_eq_limit_iff hleft hright).mpr ⟨hmax, ?_⟩)
      rw [Nat.mod_eq_of_lt (by omega)]
      omega
    · by_contra hge
      have hpos : 0 < r.rows * r.columns := Nat.mul_pos r.rows_pos r.columns_pos
      obtain ⟨hcol, hrow⟩ := r.last_place
      refine (h (r.rows * r.columns - 1) (by omega)).2 ?_
        ((place_snd_eq_limit_iff htop hbottom).mpr ⟨hmax, hrow⟩)
      exact not_lt.mp (place_fst_lt_iff.not.mpr (by omega))

lemma Fits.mono {j : ℕ} (h : r.Fits limit k) (hj : j ≤ k) : r.Fits limit j :=
  ⟨fun hmax => hj.trans_lt (h.1 hmax), fun hmax => hj.trans_lt (h.2 hmax)⟩

end Raster

end Stm32Emulator
