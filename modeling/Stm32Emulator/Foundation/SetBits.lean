import Mathlib.Data.BitVec
import Mathlib.Data.List.Nodup

/-!
# The set bits of a word

The positions of the set bits of a word, the lowest first.  A loop that handles the lowest set bit
goes on as long as there is one (`setBits_eq_nil_iff`), and `head?_setBits` says which one comes
next.
-/

namespace Stm32Emulator

variable {w : ℕ}

def setBits (x : BitVec w) : List ℕ := (List.range w).filter fun i => x.getLsbD i

lemma mem_setBits {x : BitVec w} {i : ℕ} : i ∈ setBits x ↔ x.getLsbD i = true := by
  unfold setBits
  rw [List.mem_filter, List.mem_range]
  exact ⟨fun h => h.2, fun h => ⟨BitVec.lt_of_getLsbD h, h⟩⟩

lemma setBits_eq_nil_iff {x : BitVec w} : setBits x = [] ↔ x = 0#w := by
  constructor
  · intro h
    apply BitVec.eq_of_getLsbD_eq
    intro i _
    rw [BitVec.getLsbD_zero, Bool.eq_false_iff]
    intro hi
    have hmem := mem_setBits.mpr hi
    rw [h] at hmem
    exact List.not_mem_nil hmem
  · rintro rfl
    simp [setBits]

/-- The lowest set bit is the first. -/
lemma head?_setBits (x : BitVec w) :
    (setBits x).head? = (List.range w).find? fun i => x.getLsbD i :=
  List.head?_filter

lemma pairwise_setBits (x : BitVec w) : (setBits x).Pairwise (· < ·) :=
  List.pairwise_lt_range.filter _

/-- The set bits below a bound, as numbers below it. -/
lemma setBits_filter_lt (x : BitVec w) {n : ℕ} (hn : n ≤ w) :
    (setBits x).filter (fun i => i < n) =
      ((List.finRange n).filter fun i : Fin n => x.getLsbD i).map Fin.val := by
  have hrange : (List.range w).filter (fun i => i < n) = List.range n := by
    obtain ⟨k, rfl⟩ := Nat.exists_eq_add_of_le hn
    rw [List.range_add, List.filter_append, List.filter_eq_self.mpr, List.filter_eq_nil_iff.mpr,
      List.append_nil]
    · intro i hi
      obtain ⟨j, -, rfl⟩ := List.mem_map.mp hi
      simp
    · intro i hi
      exact decide_eq_true (List.mem_range.mp hi)
  unfold setBits
  rw [List.filter_comm, hrange, ← List.map_coe_finRange_eq_range, List.filter_map]
  rfl

end Stm32Emulator
