import Mathlib.Data.List.Basic

/-!
# Accounting for a capped queue

A queue of bounded length is written at its end and read at its start; when it would overflow its
oldest items are dropped, and when its session ends all of them are.  A `QueueLedger` records what
was written, what was read, and in order what has left the queue and why.  `QueueLedger.Balanced` is
the account: what was written is what has left the queue followed by what is still in it, and an
overflow drops exactly the excess over the capacity.
-/

namespace Stm32Emulator

variable {α : Type*}

/-! ## The newest items of a list -/

/-- The last `n` items. -/
def keepLast (n : ℕ) (l : List α) : List α := l.drop (l.length - n)

lemma length_keepLast_le (n : ℕ) (l : List α) : (keepLast n l).length ≤ n := by
  unfold keepLast
  rw [List.length_drop]
  omega

lemma keepLast_of_length_le {n : ℕ} {l : List α} (h : l.length ≤ n) : keepLast n l = l := by
  unfold keepLast
  rw [Nat.sub_eq_zero_of_le h, List.drop_zero]

lemma keepLast_of_length_eq {n k : ℕ} {l : List α} (h : l.length = n + k) :
    keepLast n l = l.drop k := by
  unfold keepLast
  rw [h, Nat.add_sub_cancel_left]

/-- The items that are not kept are the oldest ones, as many as there are too many. -/
lemma take_append_keepLast (n : ℕ) (l : List α) :
    l.take (l.length - (keepLast n l).length) ++ keepLast n l = l := by
  have hlength : l.length - (keepLast n l).length = l.length - n := by
    unfold keepLast
    rw [List.length_drop]
    omega
  rw [hlength]
  exact List.take_append_drop _ _

lemma eq_nil_of_keepLast_eq_nil {n : ℕ} {l : List α} (hpos : 0 < n)
    (h : keepLast n l = []) : l = [] := by
  have hle := List.drop_eq_nil_iff.mp h
  apply List.eq_nil_of_length_eq_zero
  omega

/-- Only what is kept matters for what is kept later. -/
lemma keepLast_append (n : ℕ) (l l' : List α) :
    keepLast n (keepLast n l ++ l') = keepLast n (l ++ l') := by
  unfold keepLast
  rw [List.length_append, List.length_append, List.length_drop]
  rcases Nat.le_total l.length n with hle | hle
  · rw [Nat.sub_eq_zero_of_le hle, List.drop_zero, Nat.sub_zero]
  · have hkept : l.length - (l.length - n) + l'.length - n = l'.length := by omega
    have hall : l.length + l'.length - n = (l.length - n) + l'.length := by omega
    rw [hkept, hall, ← List.drop_drop, List.drop_append_of_le_length (Nat.sub_le _ _)]

/-- Enough newer items push out all older ones. -/
lemma keepLast_append_of_le {n : ℕ} {l' : List α} (h : n ≤ l'.length) (l : List α) :
    keepLast n (l ++ l') = keepLast n l' := by
  unfold keepLast
  rw [List.length_append, List.drop_append, List.drop_of_length_le (by omega), List.nil_append]
  congr 1
  omega

/-- Appending to a queue that drops its oldest element when it is full. -/
def pushBounded (capacity : ℕ) (queue : List α) (x : α) : List α :=
  (if queue.length = capacity then queue.tail else queue) ++ [x]

lemma pushBounded_eq_keepLast {capacity : ℕ} {queue : List α} (hpos : 0 < capacity)
    (hlength : queue.length ≤ capacity) (x : α) :
    pushBounded capacity queue x = keepLast capacity (queue ++ [x]) := by
  unfold pushBounded keepLast
  rw [List.length_append, List.length_singleton]
  split_ifs with hfull
  · rw [hfull, Nat.add_sub_cancel_left, List.drop_append_of_le_length (by omega), List.drop_one]
  · rw [Nat.sub_eq_zero_of_le (by omega), List.drop_zero]

/-- Pushes that keep the newest items of a queue keep those of all that is pushed. -/
lemma foldl_eq_keepLast {n : ℕ} {push : List α → List α → List α}
    (hpush : ∀ queue, queue.length ≤ n → ∀ items, push queue items = keepLast n (queue ++ items))
    {queue : List α} (hlength : queue.length ≤ n) (pieces : List (List α)) :
    pieces.foldl push queue = keepLast n (queue ++ pieces.flatten) := by
  induction pieces generalizing queue with
  | nil =>
    rw [List.flatten_nil, List.append_nil, keepLast_of_length_le hlength]
    rfl
  | cons items pieces ih =>
    rw [List.foldl_cons, hpush queue hlength, ih (length_keepLast_le _ _), keepLast_append,
      List.flatten_cons, List.append_assoc]

/-! ## The ledger -/

/-- A run of items that has left the queue. -/
inductive Departure (α : Type*) where
  /-- They were read. -/
  | taken (items : List α)
  /-- They were dropped from a queue that would have held `total` items. -/
  | overflow (total : ℕ) (items : List α)
  /-- They were dropped because the session was over. -/
  | ended (items : List α)
  deriving DecidableEq

namespace Departure

def items : Departure α → List α
  | taken items => items
  | overflow _ items => items
  | ended items => items

/-- What the reader got. -/
def read : Departure α → List α
  | taken items => items
  | _ => []

lemma read_sublist (departure : Departure α) : departure.read.Sublist departure.items := by
  cases departure <;> simp [read, items]

end Departure

structure QueueLedger (α : Type*) where
  written : List α
  read : List α
  left : List (Departure α)
  deriving DecidableEq

namespace QueueLedger

def empty : QueueLedger α := ⟨[], [], []⟩

/-- Items are written, and `queue` becomes `queue'`: what is missing was dropped. -/
def push (l : QueueLedger α) (items queue queue' : List α) (ended : Bool) : QueueLedger α :=
  let lost := (queue ++ items).take ((queue ++ items).length - queue'.length)
  { l with
    written := l.written ++ items
    left := l.left ++ [if ended then .ended lost else .overflow (queue ++ items).length lost] }

/-- Items are read. -/
def take (l : QueueLedger α) (items : List α) : QueueLedger α :=
  { l with read := l.read ++ items, left := l.left ++ [.taken items] }

/-- The account of a queue. -/
structure Balanced (capacity : ℕ) (l : QueueLedger α) (queue : List α) : Prop where
  /-- What was written has left the queue or is in it, in order. -/
  written : l.written = l.left.flatMap Departure.items ++ queue
  /-- What was read is what has left the queue to the reader, in order. -/
  read : l.read = l.left.flatMap Departure.read
  /-- An overflow drops no more than the excess. -/
  overflow : ∀ total items, Departure.overflow total items ∈ l.left →
    items.length = total - capacity
  length_le : queue.length ≤ capacity

variable {capacity n : ℕ} {l : QueueLedger α} {queue : List α}

lemma Balanced.empty : Balanced capacity (QueueLedger.empty : QueueLedger α) [] :=
  ⟨rfl, rfl, fun _ _ h => absurd h List.not_mem_nil, Nat.zero_le _⟩

/-- Writing to a capped queue. -/
lemma Balanced.push_keepLast (h : l.Balanced capacity queue) (items : List α) :
    (l.push items queue (keepLast capacity (queue ++ items)) false).Balanced capacity
      (keepLast capacity (queue ++ items)) where
  written := by
    have hsplit := take_append_keepLast capacity (queue ++ items)
    simp only [push, h.written, Bool.false_eq_true, if_false, List.flatMap_append,
      List.flatMap_cons, List.flatMap_nil, Departure.items, List.append_nil, List.append_assoc]
    rw [hsplit]
  read := by simp [push, h.read, Departure.read]
  overflow := by
    intro total lost hmem
    simp only [push, Bool.false_eq_true, if_false, List.mem_append, List.mem_singleton,
      Departure.overflow.injEq] at hmem
    rcases hmem with hmem | ⟨rfl, rfl⟩
    · exact h.overflow total lost hmem
    · unfold keepLast
      rw [List.length_take, List.length_drop]
      omega
  length_le := length_keepLast_le _ _

/-- The end of a session drops the queue and what would have been written. -/
lemma Balanced.push_ended (h : l.Balanced capacity queue) (items : List α) :
    (l.push items queue [] true).Balanced capacity [] where
  written := by
    simp only [push, h.written, if_true, List.flatMap_append, List.flatMap_cons, List.flatMap_nil,
      Departure.items, List.append_nil, List.append_assoc, List.length_nil, Nat.sub_zero,
      List.take_length]
  read := by simp [push, h.read, Departure.read]
  overflow := by
    intro total lost hmem
    simp only [push, if_true, List.mem_append, List.mem_singleton, reduceCtorEq, or_false] at hmem
    exact h.overflow total lost hmem
  length_le := Nat.zero_le _

/-- A write balances the account if it caps the queue, or clears it at the end of the session. -/
lemma Balanced.push {items queue' : List α} {ended : Bool} (h : l.Balanced capacity queue)
    (hcapped : ended = false → queue' = keepLast capacity (queue ++ items))
    (hended : ended = true → queue' = []) :
    (l.push items queue queue' ended).Balanced capacity queue' := by
  cases ended with
  | false =>
    rw [hcapped rfl]
    exact h.push_keepLast items
  | true =>
    rw [hended rfl]
    exact h.push_ended items

/-- Reading from the start of the queue. -/
lemma Balanced.take (h : l.Balanced capacity queue) (n : ℕ) :
    (l.take (queue.take n)).Balanced capacity (queue.drop n) where
  written := by
    simp only [QueueLedger.take, h.written, List.flatMap_append, List.flatMap_cons,
      List.flatMap_nil, Departure.items, List.append_nil, List.append_assoc, List.take_append_drop]
  read := by simp [QueueLedger.take, h.read, Departure.read]
  overflow := by
    intro total lost hmem
    simp only [QueueLedger.take, List.mem_append, List.mem_singleton, reduceCtorEq,
      or_false] at hmem
    exact h.overflow total lost hmem
  length_le := by
    have := h.length_le
    rw [List.length_drop]
    omega

/-- What was read, and what can still be, was written, in this order. -/
lemma Balanced.sublist (h : l.Balanced capacity queue) : (l.read ++ queue).Sublist l.written := by
  rw [h.written, h.read]
  refine List.Sublist.append ?_ (List.Sublist.refl _)
  induction l.left with
  | nil => exact List.Sublist.refl _
  | cons departure left ih =>
    rw [List.flatMap_cons, List.flatMap_cons]
    exact departure.read_sublist.append ih

/-- Nothing has been lost: what left the queue was read, or was dropped from a queue that had room
for it. -/
def Lossless (capacity : ℕ) (l : QueueLedger α) : Prop :=
  ∀ departure ∈ l.left, match departure with
    | .taken _ => True
    | .overflow total _ => total ≤ capacity
    | .ended _ => False

lemma lossless_empty : (QueueLedger.empty : QueueLedger α).Lossless capacity :=
  fun _ h => absurd h List.not_mem_nil

lemma Lossless.take (h : l.Lossless capacity) (items : List α) :
    (l.take items).Lossless capacity := by
  intro departure hmem
  simp only [QueueLedger.take, List.mem_append, List.mem_singleton] at hmem
  rcases hmem with hmem | rfl
  · exact h departure hmem
  · trivial

lemma Lossless.push (h : l.Lossless capacity) {items : List α}
    (hroom : (queue ++ items).length ≤ capacity) (queue' : List α) :
    (l.push items queue queue' false).Lossless capacity := by
  intro departure hmem
  simp only [QueueLedger.push, List.mem_append, List.mem_singleton] at hmem
  rcases hmem with hmem | rfl
  · exact h departure hmem
  · exact hroom

/-- Without a loss the reader gets everything that was written, in order. -/
lemma Balanced.eq_of_lossless (h : l.Balanced capacity queue) (hlossless : l.Lossless capacity) :
    l.written = l.read ++ queue := by
  rw [h.written, h.read]
  congr 1
  refine List.flatMap_congr fun departure hmem => ?_
  have hdeparture := hlossless departure hmem
  cases departure with
  | taken items => rfl
  | ended items => exact hdeparture.elim
  | overflow total items =>
    have hlength := h.overflow total items hmem
    have hfits : total ≤ capacity := hdeparture
    have hnil : items = [] := List.eq_nil_of_length_eq_zero (by omega)
    exact hnil

end QueueLedger

end Stm32Emulator
