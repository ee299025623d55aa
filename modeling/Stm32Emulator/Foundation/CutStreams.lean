import Mathlib.Data.List.Forall2
import Stm32Emulator.Foundation.Lines
import Stm32Emulator.Foundation.QueueLedger

/-!
# Streams of which runs are cut out

A run that is cut out of a stream takes whole lines with it, and joins the line in which it begins
to the one in which it ends.  So each cut changes at most one of the lines that are left
(`CutOut.exists_whole`).  If every cut begins where a line begins, then what is left of a line is
its end (`CutOut.tails`).
-/

namespace Stm32Emulator.Lines

variable {α : Type*}

/-- `kept` is `stream` without `n` runs.  Where a run begins, what is before it meets a
condition. -/
inductive CutOut (ok : List α → Prop) (stream : List α) : ℕ → List α → Prop
  | whole : CutOut ok stream 0 stream
  | cut {n : ℕ} {before after : List α} (run : List α) :
      ok before → CutOut ok stream n (before ++ (run ++ after)) →
      CutOut ok stream (n + 1) (before ++ after)

namespace CutOut

variable {ok : List α → Prop} {stream kept : List α} {n : ℕ}

/-- What is appended to both is not cut. -/
lemma append (h : CutOut ok stream n kept) (later : List α) :
    CutOut ok (stream ++ later) n (kept ++ later) := by
  induction h with
  | whole => exact whole
  | cut run hok _ ih =>
    rw [List.append_assoc]
    refine cut run hok ?_
    rwa [List.append_assoc, List.append_assoc] at ih

/-- The order stays. -/
lemma sublist (h : CutOut ok stream n kept) : kept.Sublist stream := by
  induction h with
  | whole => exact List.Sublist.refl _
  | cut _ _ _ ih =>
    exact ((List.sublist_append_right _ _).append_left _).trans ih

/-- A queue at the end that drops its oldest items when it is full. -/
lemma keepLast {before queue : List α} (h : CutOut ok stream n (before ++ queue)) (hok : ok before)
    (items : List α) (capacity : ℕ) :
    CutOut ok (stream ++ items) (n + if capacity < queue.length + items.length then 1 else 0)
      (before ++ Stm32Emulator.keepLast capacity (queue ++ items)) := by
  have happended := h.append items
  rw [List.append_assoc] at happended
  split_ifs with hfull
  · refine cut ((queue ++ items).take ((queue ++ items).length - capacity)) hok ?_
    unfold Stm32Emulator.keepLast
    rwa [List.take_append_drop]
  · rwa [keepLast_of_length_le (by rw [List.length_append]; omega)]

end CutOut

/-! ## The lines that are left -/

/-- Two sublists of a list have a common one, which misses no more than both do. -/
lemma exists_common_sublist {l l₁ l₂ : List α} (h₁ : l₁.Sublist l) (h₂ : l₂.Sublist l) :
    ∃ w : List α, w.Sublist l₁ ∧ w.Sublist l₂ ∧ l₁.length + l₂.length ≤ w.length + l.length := by
  induction h₁ generalizing l₂ with
  | slnil =>
    obtain rfl := List.sublist_nil.mp h₂
    exact ⟨[], List.nil_sublist _, List.nil_sublist _, Nat.le_refl _⟩
  | cons x _ ih =>
    cases h₂ with
    | cons _ h₂ =>
      obtain ⟨w, hw₁, hw₂, hlength⟩ := ih h₂
      refine ⟨w, hw₁, hw₂, ?_⟩
      rw [List.length_cons]
      omega
    | cons_cons _ h₂ =>
      obtain ⟨w, hw₁, hw₂, hlength⟩ := ih h₂
      refine ⟨w, hw₁, hw₂.cons x, ?_⟩
      rw [List.length_cons, List.length_cons]
      omega
  | cons_cons x _ ih =>
    cases h₂ with
    | cons _ h₂ =>
      obtain ⟨w, hw₁, hw₂, hlength⟩ := ih h₂
      refine ⟨w, hw₁.cons x, hw₂, ?_⟩
      rw [List.length_cons, List.length_cons]
      omega
    | cons_cons _ h₂ =>
      obtain ⟨w, hw₁, hw₂, hlength⟩ := ih h₂
      refine ⟨x :: w, hw₁.cons_cons x, hw₂.cons_cons x, ?_⟩
      rw [List.length_cons, List.length_cons, List.length_cons, List.length_cons]
      omega

variable [DecidableEq α] {sep : α} {line stream kept before run after : List α} {n : ℕ}

/-- A beginning without a separator belongs to the first line. -/
lemma complete_append_of_not_mem (h : sep ∉ line) (a : List α) :
    complete sep (line ++ a) = match complete sep a with
      | [] => []
      | first :: later => (line ++ first) :: later := by
  by_cases hsep : sep ∈ a
  · obtain ⟨first, later, rfl, hfirst⟩ := List.eq_append_cons_of_mem hsep
    have hline : sep ∉ line ++ first := by
      rw [List.mem_append, not_or]
      exact ⟨h, hfirst⟩
    rw [← List.append_assoc, complete_line hline, complete_line hfirst]
  · have hnot : sep ∉ line ++ a := by
      rw [List.mem_append, not_or]
      exact ⟨h, hsep⟩
    rw [complete_of_not_mem hnot, complete_of_not_mem hsep]

/-- Where a stream goes on after some part, the lines from the second one on do not depend on that
part. -/
lemma complete_append_tail (sep : α) (before after : List α) :
    (complete sep after).tail.Sublist (complete sep (rest sep before ++ after)) ∧
      (complete sep (rest sep before ++ after)).length ≤ (complete sep after).tail.length + 1 := by
  rw [complete_append_of_not_mem not_mem_rest]
  cases complete sep after with
  | nil => exact ⟨List.Sublist.refl _, Nat.zero_le _⟩
  | cons first later => exact ⟨List.sublist_cons_self _ _, Nat.le_refl _⟩

/-- **One cut** leaves all lines but one. -/
lemma exists_whole_of_cut (sep : α) (before run after : List α) :
    ∃ whole : List (List α), whole.Sublist (complete sep (before ++ after)) ∧
      whole.Sublist (complete sep (before ++ (run ++ after))) ∧
      (complete sep (before ++ after)).length ≤ whole.length + 1 := by
  obtain ⟨hsub, hlength⟩ := complete_append_tail sep before after
  obtain ⟨hsub', -⟩ := complete_append_tail sep (before ++ run) after
  refine ⟨complete sep before ++ (complete sep after).tail, ?_, ?_, ?_⟩
  · rw [complete_append]
    exact hsub.append_left _
  · rw [← List.append_assoc, complete_append (a := before ++ run),
      complete_append (a := before) (b := run), List.append_assoc]
    exact List.Sublist.append_left (hsub'.trans (List.sublist_append_right _ _)) _
  · rw [complete_append, List.length_append, List.length_append]
    omega

/-- **Each cut changes one line**: all lines but as many as there are cuts are lines of the stream,
in order. -/
theorem CutOut.exists_whole {ok : List α → Prop} (h : CutOut ok stream n kept) (sep : α) :
    ∃ whole : List (List α), whole.Sublist (complete sep kept) ∧
      whole.Sublist (complete sep stream) ∧
      (complete sep kept).length ≤ whole.length + n := by
  induction h with
  | whole => exact ⟨_, List.Sublist.refl _, List.Sublist.refl _, Nat.le_refl _⟩
  | @cut n before after run _ _ ih =>
    obtain ⟨whole, hkept, hstream, hlength⟩ := ih
    obtain ⟨whole', hkept', hstream', hlength'⟩ := exists_whole_of_cut sep before run after
    obtain ⟨common, hcommon, hcommon', hmissing⟩ := exists_common_sublist hkept hstream'
    refine ⟨common, hcommon'.trans hkept', hcommon.trans hstream, ?_⟩
    omega

/-! ## Ends of lines -/

omit [DecidableEq α] in
instance suffixRefl : Std.Refl fun a b : List α => a <:+ b := ⟨fun _ => List.suffix_rfl⟩

omit [DecidableEq α] in
instance suffixTrans : IsTrans (List α) fun a b => a <:+ b := ⟨fun _ _ _ => List.IsSuffix.trans⟩

/-- What a cut leaves that begins where a line begins are lines, the first of which is the end of
one. -/
lemma tails_of_cut (hbefore : rest sep before = []) (run after : List α) :
    List.SublistForall₂ (· <:+ ·) (complete sep (before ++ after))
    (complete sep (before ++ (run ++ after))) := by
  have hlater : List.SublistForall₂ (· <:+ ·) (complete sep after)
      (complete sep (run ++ after)) := by
    rw [complete_append (a := run), complete_append_of_not_mem not_mem_rest]
    refine List.sublistForall₂_iff.mpr ?_
    cases complete sep after with
    | nil => exact ⟨[], .nil, List.nil_sublist _⟩
    | cons first later =>
      exact ⟨_, .cons (List.suffix_append _ _) (List.forall₂_refl later),
        List.sublist_append_right _ _⟩
  rw [complete_append (a := before), complete_append (a := before), hbefore, List.nil_append,
    List.nil_append]
  obtain ⟨lines, htails, hlines⟩ := List.sublistForall₂_iff.mp hlater
  refine List.sublistForall₂_iff.mpr ⟨complete sep before ++ lines, ?_, hlines.append_left _⟩
  exact List.rel_append (List.forall₂_refl _) htails

/-- **Lines are kept from their ends on**, if every cut begins where a line begins. -/
theorem CutOut.tails (h : CutOut (fun before => rest sep before = []) stream n kept) :
    List.SublistForall₂ (· <:+ ·) (complete sep kept) (complete sep stream) := by
  induction h with
  | whole => exact Std.Refl.refl _
  | cut run hbefore _ ih => exact IsTrans.trans _ _ _ (tails_of_cut hbefore run _) ih

end Stm32Emulator.Lines
