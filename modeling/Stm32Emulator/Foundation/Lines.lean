import Mathlib.Data.List.Basic
import Mathlib.Logic.Basic

/-!
# Streams of lines

A stream is divided into lines by a separator.  `complete` are the lines that the separator has
ended and `rest` is the line that it has not.  A stream that arrives in pieces has the lines of the
whole, if the rest of what came before is kept (`complete_append`).
-/

namespace Stm32Emulator.Lines

variable {α : Type*} [DecidableEq α] {sep : α} {line a b : List α}

/-- The lines of a stream of which the first has begun already. -/
def split (sep : α) (line : List α) : List α → List (List α) × List α
  | [] => ([], line)
  | x :: xs =>
    if x = sep then (line :: (split sep [] xs).1, (split sep [] xs).2)
    else split sep (line ++ [x]) xs

/-- The lines that are ended. -/
def complete (sep : α) (a : List α) : List (List α) := (split sep [] a).1

/-- The line that is not. -/
def rest (sep : α) (a : List α) : List α := (split sep [] a).2

lemma split_cons_self (line a : List α) :
    split sep line (sep :: a) = (line :: complete sep a, rest sep a) := if_pos rfl

lemma split_cons_of_ne {x : α} (hx : x ≠ sep) (line a : List α) :
    split sep line (x :: a) = split sep (line ++ [x]) a := if_neg hx

lemma split_append (line a b : List α) :
    split sep line (a ++ b) = ((split sep line a).1 ++ (split sep (split sep line a).2 b).1,
      (split sep (split sep line a).2 b).2) := by
  induction a generalizing line with
  | nil => rfl
  | cons x a ih =>
    by_cases hx : x = sep
    · subst hx
      rw [List.cons_append, split_cons_self, split_cons_self, complete, rest, ih]
      rfl
    · rw [List.cons_append, split_cons_of_ne hx, split_cons_of_ne hx, ih]

/-- A line that has begun is a stream without a separator. -/
lemma split_of_not_mem (h : sep ∉ a) (line : List α) : split sep line a = ([], line ++ a) := by
  induction a generalizing line with
  | nil => rw [List.append_nil]; rfl
  | cons x a ih =>
    have hx : x ≠ sep := fun hx => h (hx ▸ List.mem_cons_self)
    rw [split_cons_of_ne hx, ih fun hmem => h (List.mem_cons_of_mem x hmem), List.append_assoc]
    rfl

lemma split_eq (h : sep ∉ line) (b : List α) : split sep line b = split sep [] (line ++ b) := by
  rw [split_append, split_of_not_mem h, List.nil_append, List.nil_append]

omit [DecidableEq α] in
lemma not_mem_concat {x : α} (h : sep ∉ line) (hx : x ≠ sep) : sep ∉ line ++ [x] := by
  rw [List.mem_append, List.mem_singleton]
  rintro (hmem | rfl)
  · exact h hmem
  · exact hx rfl

/-- The rest has no separator. -/
lemma not_mem_split_snd (h : sep ∉ line) : sep ∉ (split sep line a).2 := by
  induction a generalizing line with
  | nil => exact h
  | cons x a ih =>
    by_cases hx : x = sep
    · subst hx
      rw [split_cons_self]
      exact ih List.not_mem_nil
    · rw [split_cons_of_ne hx]
      exact ih (not_mem_concat h hx)

lemma not_mem_rest : sep ∉ rest sep a := not_mem_split_snd List.not_mem_nil

lemma complete_of_not_mem (h : sep ∉ a) : complete sep a = [] := by
  unfold complete
  rw [split_of_not_mem h]

lemma rest_of_not_mem (h : sep ∉ a) : rest sep a = a := by
  unfold rest
  rw [split_of_not_mem h, List.nil_append]

/-- **A stream in pieces**: the rest of the first is the beginning of the second. -/
lemma complete_append : complete sep (a ++ b) =
    complete sep a ++ complete sep (rest sep a ++ b) := by
  unfold complete
  rw [split_append, split_eq (not_mem_split_snd List.not_mem_nil)]
  rfl

lemma rest_append : rest sep (a ++ b) = rest sep (rest sep a ++ b) := by
  unfold rest
  rw [split_append, split_eq (not_mem_split_snd List.not_mem_nil)]

/-- The first line of a stream. -/
lemma split_line (h : sep ∉ line) (b : List α) :
    split sep [] (line ++ sep :: b) = (line :: complete sep b, rest sep b) := by
  rw [← split_eq h, split_cons_self]

lemma complete_line (h : sep ∉ line) (b : List α) :
    complete sep (line ++ sep :: b) = line :: complete sep b := by
  unfold complete
  rw [split_line h]
  rfl

lemma rest_line (h : sep ∉ line) (b : List α) : rest sep (line ++ sep :: b) = rest sep b := by
  unfold rest
  rw [split_line h]
  rfl

/-- A stream is its complete lines and the rest. -/
lemma exists_whole_of_split (h : sep ∉ line) (a : List α) :
    ∃ whole, line ++ a = whole ++ (split sep line a).2 ∧ rest sep whole = [] ∧
      complete sep whole = (split sep line a).1 := by
  induction a generalizing line with
  | nil => exact ⟨[], by rw [List.append_nil]; rfl, rfl, rfl⟩
  | cons x a ih =>
    by_cases hx : x = sep
    · subst hx
      obtain ⟨whole, hwhole, hrest, hcomplete⟩ := ih List.not_mem_nil
      refine ⟨line ++ x :: whole, ?_, by rw [rest_line h, hrest], ?_⟩
      · rw [List.nil_append] at hwhole
        rw [split_cons_self, rest, List.append_assoc, List.cons_append, ← hwhole]
      · rw [complete_line h, hcomplete, split_cons_self, complete]
    · obtain ⟨whole, hwhole, hrest, hcomplete⟩ := ih (not_mem_concat h hx)
      rw [split_cons_of_ne hx]
      refine ⟨whole, ?_, hrest, hcomplete⟩
      rw [← hwhole, List.append_assoc, List.singleton_append]

lemma exists_whole (sep : α) (a : List α) :
    ∃ whole, a = whole ++ rest sep a ∧ rest sep whole = [] ∧ complete sep whole = complete sep a :=
  exists_whole_of_split List.not_mem_nil a

lemma not_mem_of_findIdx?_eq_none (h : a.findIdx? (fun x => decide (x = sep)) = none) :
    sep ∉ a := by
  intro hmem
  exact absurd (List.findIdx?_eq_none_iff.mp h sep hmem) (by simp)

/-- The first separator ends the first line. -/
lemma eq_line_of_findIdx? {pos : ℕ} (h : a.findIdx? (fun x => decide (x = sep)) = some pos) :
    a = a.take pos ++ sep :: a.drop (pos + 1) ∧ sep ∉ a.take pos := by
  obtain ⟨hlt, hsep, hbefore⟩ := List.findIdx?_eq_some_iff_getElem.mp h
  have hget : a[pos] = sep := of_decide_eq_true hsep
  constructor
  · rw [← hget, List.getElem_cons_drop, List.take_append_drop]
  · intro hmem
    obtain ⟨i, hi, hi'⟩ := List.mem_iff_getElem.mp hmem
    have hlt' : i < pos := by
      rw [List.length_take] at hi
      omega
    rw [List.getElem_take] at hi'
    exact hbefore i hlt' (decide_eq_true hi')

end Stm32Emulator.Lines
