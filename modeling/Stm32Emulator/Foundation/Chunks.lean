import Mathlib.Data.List.Basic
import Mathlib.Data.List.Flatten
import Mathlib.Algebra.Order.Ring.Nat
import Mathlib.Algebra.Ring.Nat

/-!
# Chunks of data in a queue that is read by words

A queue holds chunks of data one after the other, and its reader takes `k` elements at a time, a
last incomplete word being padded.  A word never mixes two chunks if only the last non-empty chunk
may have a length that is no multiple of `k` (`Chunked`).
-/

namespace Stm32Emulator

variable {α : Type*} {k : ℕ}

/-- Behind a chunk that does not fill its last word, only empty chunks follow. -/
def Chunked (k : ℕ) (chunks : List (List α)) : Prop :=
  chunks.Pairwise fun c c' => k ∣ c.length ∨ c' = []

instance [DecidableEq α] (chunks : List (List α)) : Decidable (Chunked k chunks) :=
  inferInstanceAs (Decidable (chunks.Pairwise _))

/-- The next word of a queue, padded with a default. -/
def nextWord (k : ℕ) (pad : α) (queue : List α) : List α := (queue ++ List.replicate k pad).take k

@[simp] lemma length_nextWord (pad : α) (queue : List α) : (nextWord k pad queue).length = k := by
  simp [nextWord]

/-- The part of the next word that belongs to the front chunk. -/
lemma take_nextWord {pad : α} {c rest : List α} :
    (nextWord k pad (c ++ rest)).take c.length = c.take k := by
  unfold nextWord
  rw [List.take_take, List.append_assoc, List.take_append_of_le_length (min_le_left _ _)]
  rcases le_total c.length k with h | h
  · rw [min_eq_left h, List.take_length, List.take_of_length_le h]
  · rw [min_eq_right h]

namespace Chunked

variable {c : List α} {cs cs' : List (List α)}

/-- In a queue of whole words every chunk is of whole words. -/
lemma dvd_of_dvd_length_flatten (h : Chunked k cs) (hdvd : k ∣ cs.flatten.length) :
    ∀ c ∈ cs, k ∣ c.length := by
  induction cs with
  | nil => simp
  | cons c cs ih =>
    obtain ⟨hc, hcs⟩ := List.pairwise_cons.mp h
    rw [List.flatten_cons, List.length_append] at hdvd
    have hfront : k ∣ c.length := by
      by_cases hempty : ∀ c' ∈ cs, c' = []
      · have hflat : cs.flatten = [] := List.flatten_eq_nil_iff.mpr hempty
        rwa [hflat, List.length_nil, Nat.add_zero] at hdvd
      · obtain ⟨c', hmem, hne⟩ : ∃ c' ∈ cs, c' ≠ [] := by simpa using hempty
        exact (hc c' hmem).resolve_right hne
    intro c' hmem
    rcases List.mem_cons.mp hmem with rfl | hmem
    · exact hfront
    · exact ih hcs ((Nat.dvd_add_right hfront).mp hdvd) c' hmem

/-- New chunks may be queued if they are empty or the queue holds whole words. -/
lemma append (h : Chunked k cs) (h' : Chunked k cs')
    (hqueue : (∃ c ∈ cs', c ≠ []) → k ∣ cs.flatten.length) : Chunked k (cs ++ cs') := by
  refine List.pairwise_append.mpr ⟨h, h', fun c hc c' hc' => ?_⟩
  by_cases hempty : c' = []
  · exact Or.inr hempty
  · exact Or.inl (h.dvd_of_dvd_length_flatten (hqueue ⟨c', hc', hempty⟩) c hc)

/-- Reading a word of the front chunk leaves the chunks behind it alone. -/
lemma drop_flatten (h : Chunked k (c :: cs)) (hc : c ≠ []) :
    ((c :: cs).flatten).drop k = c.drop k ++ cs.flatten := by
  rw [List.flatten_cons, List.drop_append]
  rcases le_or_gt k c.length with hle | hlt
  · rw [Nat.sub_eq_zero_of_le hle, List.drop_zero]
  · have hempty : cs.flatten = [] := by
      refine List.flatten_eq_nil_iff.mpr fun c' hmem => ?_
      refine ((List.pairwise_cons.mp h).1 c' hmem).resolve_left fun hdvd => ?_
      exact absurd (Nat.le_of_dvd (List.length_pos_of_ne_nil hc) hdvd) (by omega)
    rw [hempty, List.drop_nil]

/-- Reading a word of the front chunk keeps the queue chunked. -/
lemma drop (h : Chunked k (c :: cs)) : Chunked k (c.drop k :: cs) := by
  obtain ⟨hc, hcs⟩ := List.pairwise_cons.mp h
  refine List.pairwise_cons.mpr ⟨fun c' hmem => ?_, hcs⟩
  refine (hc c' hmem).imp_left fun hdvd => ?_
  rw [List.length_drop]
  exact Nat.dvd_sub hdvd dvd_rfl

/-- A finished chunk gives way to the one behind it. -/
lemma tail (h : Chunked k (c :: cs)) : Chunked k cs := (List.pairwise_cons.mp h).2

end Chunked

end Stm32Emulator
