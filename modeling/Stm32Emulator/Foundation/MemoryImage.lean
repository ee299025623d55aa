import Mathlib.Data.List.Basic
import Mathlib.Logic.Basic

/-!
# Images of a memory

An image gives each address a value or nothing.  A placement is a list of values at an address; an
image is built by overlaying placements, and a later one hides those before it (`overlayAll`).
-/

namespace Stm32Emulator.MemoryImage

variable {β : Type*}

/-- A list of values and the address of the first. -/
abbrev Placement (β : Type*) := ℕ × List β

/-- The placement has a value for the address. -/
def Covers (p : Placement β) (x : ℕ) : Prop := p.1 ≤ x ∧ x < p.1 + p.2.length

instance (p : Placement β) (x : ℕ) : Decidable (Covers p x) := inferInstanceAs (Decidable (_ ∧ _))

/-- The image with the values of a placement. -/
def overlay (m : ℕ → Option β) (p : Placement β) (x : ℕ) : Option β :=
  if Covers p x then p.2[x - p.1]? else m x

/-- The image with placements one after the other. -/
def overlayAll (m : ℕ → Option β) (ps : List (Placement β)) : ℕ → Option β := ps.foldl overlay m

variable {m m' : ℕ → Option β} {p : Placement β} {ps qs : List (Placement β)} {x y : ℕ}

lemma overlay_of_covers (h : Covers p x) : overlay m p x = p.2[x - p.1]? := if_pos h

lemma overlay_of_not_covers (h : ¬ Covers p x) : overlay m p x = m x := if_neg h

/-- What is covered has a value. -/
lemma isSome_overlay_of_covers (h : Covers p x) : (overlay m p x).isSome = true := by
  rw [overlay_of_covers h]
  obtain ⟨hle, hlt⟩ := h
  have hlen : x - p.1 < p.2.length := by omega
  rw [List.getElem?_eq_getElem hlen]
  rfl

lemma isSome_overlay (h : (m x).isSome = true) : (overlay m p x).isSome = true := by
  by_cases hcovers : Covers p x
  · exact isSome_overlay_of_covers hcovers
  · rwa [overlay_of_not_covers hcovers]

@[simp] lemma overlay_nil (a : ℕ) : overlay m (a, []) = m := by
  funext x
  rw [overlay_of_not_covers]
  rintro ⟨hle, hlt⟩
  simp only [List.length_nil, Nat.add_zero] at hle hlt
  omega

/-- A block of one value. -/
lemma overlay_replicate (a n : ℕ) (v : β) :
    overlay m (a, List.replicate n v) x = if a ≤ x ∧ x < a + n then some v else m x := by
  unfold overlay Covers
  simp only [List.length_replicate, List.getElem?_replicate]
  split_ifs <;> first | rfl | omega

/-- Two blocks of one value, one after the other, are one block. -/
lemma overlay_replicate_append (a n k : ℕ) (v : β) :
    overlay (overlay m (a, List.replicate n v)) (a + n, List.replicate k v) =
      overlay m (a, List.replicate (n + k) v) := by
  funext x
  rw [overlay_replicate, overlay_replicate, overlay_replicate]
  split_ifs <;> first | rfl | omega

@[simp] lemma overlayAll_nil : overlayAll m [] = m := rfl

@[simp] lemma overlayAll_cons : overlayAll m (p :: ps) = overlayAll (overlay m p) ps := rfl

lemma overlayAll_append : overlayAll m (ps ++ qs) = overlayAll (overlayAll m ps) qs := by
  simp [overlayAll]

/-- Addresses that no placement covers keep their value. -/
lemma overlayAll_of_not_covers (h : ∀ p ∈ ps, ¬ Covers p x) : overlayAll m ps x = m x := by
  induction ps generalizing m with
  | nil => rfl
  | cons p ps ih =>
    rw [overlayAll_cons, ih fun q hq => h q (List.mem_cons_of_mem p hq),
      overlay_of_not_covers (h p List.mem_cons_self)]

/-- The value at an address depends on its value before and on the placements. -/
lemma overlayAll_congr (h : m x = m' x) : overlayAll m ps x = overlayAll m' ps x := by
  induction ps generalizing m m' with
  | nil => exact h
  | cons p ps ih =>
    rw [overlayAll_cons, overlayAll_cons]
    apply ih
    unfold overlay
    rw [h]

/-- Blocks of one value, which may overlap. -/
lemma overlayAll_blocks (starts : List ℕ) (n : ℕ) (v : β) :
    overlayAll m (starts.map fun a => (a, List.replicate n v)) x =
      if ∃ a ∈ starts, a ≤ x ∧ x < a + n then some v else m x := by
  induction starts generalizing m with
  | nil => simp
  | cons a starts ih =>
    rw [List.map_cons, overlayAll_cons, ih, overlay_replicate]
    by_cases hlater : ∃ a ∈ starts, a ≤ x ∧ x < a + n
    · rw [if_pos hlater, if_pos ((List.exists_mem_cons_iff _ _ _).mpr (Or.inr hlater))]
    · rw [if_neg hlater]
      refine if_congr ?_ rfl rfl
      rw [List.exists_mem_cons_iff]
      exact (or_iff_left hlater).symm

/-- The addresses with a value are those that had one and those that are covered. -/
lemma isSome_overlayAll :
    (overlayAll m ps x).isSome = true ↔ (m x).isSome = true ∨ ∃ p ∈ ps, Covers p x := by
  induction ps generalizing m with
  | nil => simp
  | cons p ps ih =>
    rw [overlayAll_cons, ih, List.exists_mem_cons_iff]
    by_cases hx : Covers p x
    · simp [isSome_overlay_of_covers hx, hx]
    · rw [overlay_of_not_covers hx]
      simp [hx]

/-- The same values at several addresses: each of them that is equal to or apart from all others
reads the values back. -/
lemma overlayAll_copies {bs : List β} {starts : List ℕ} {start i : ℕ} (hstart : start ∈ starts)
    (hi : i < bs.length)
    (hapart : ∀ a ∈ starts, a = start ∨ a + bs.length ≤ start ∨ start + bs.length ≤ a) :
    overlayAll m (starts.map fun a => (a, bs)) (start + i) = bs[i]? := by
  induction starts generalizing m with
  | nil => cases hstart
  | cons a starts ih =>
    rw [List.map_cons, overlayAll_cons]
    by_cases hrest : start ∈ starts
    · exact ih hrest fun b hb => hapart b (List.mem_cons_of_mem a hb)
    · have ha : a = start := by
        rcases List.mem_cons.mp hstart with h | h
        · exact h.symm
        · exact absurd h hrest
      subst ha
      rw [overlayAll_of_not_covers]
      · have hcovers : Covers (a, bs) (a + i) := ⟨Nat.le_add_right a i, by simpa using hi⟩
        rw [overlay_of_covers hcovers, Nat.add_sub_cancel_left]
      · intro p hp hcovers
        obtain ⟨b, hb, rfl⟩ := List.mem_map.mp hp
        obtain ⟨hle, hlt⟩ := hcovers
        dsimp only at hle hlt
        rcases hapart b (List.mem_cons_of_mem a hb) with rfl | h | h
        · exact hrest hb
        · omega
        · omega

end Stm32Emulator.MemoryImage
