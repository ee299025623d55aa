import Stm32Emulator.EcuIo.LineFragments
import Stm32Emulator.Cdc.LinkFifo

/-!
# The capped queues

There are four functions that append bytes to a queue of bounded length and drop the oldest ones:
byte by byte, with the excess dropped first, and with the excess dropped afterwards.  They compute
the same for every capacity but zero (`capped_queues_agree_iff`), which the bridge does not accept.
-/

namespace Stm32Emulator.Ecu

/-- The queue of the reports makes room byte by byte, as the one of the bridge does. -/
def pushCappedDeque (queue bytes : List U8) (capacity : ℕ) : List U8 :=
  UsbCdcTcp.pushCapped queue bytes capacity

/-- The capped queues. -/
inductive CappedQueue
  | usbCdcTcp
  | embeddedCdc
  | ecuIoVec
  | ecuIoDeque

namespace CappedQueue

/-- What a push makes of a queue. -/
def push (capacity : ℕ) (kind : CappedQueue) (queue bytes : List U8) : List U8 :=
  match kind with
  | .usbCdcTcp => UsbCdcTcp.pushCapped queue bytes capacity
  | .embeddedCdc => EmbeddedCdcState.pushCapped queue bytes capacity
  | .ecuIoVec => pushCappedVec queue bytes capacity
  | .ecuIoDeque => pushCappedDeque queue bytes capacity

variable {capacity : ℕ} {queue : List U8}

/-- A push keeps the newest bytes. -/
lemma push_eq_keepLast (hpos : 0 < capacity) (hlength : queue.length ≤ capacity)
    (kind : CappedQueue) (bytes : List U8) :
    kind.push capacity queue bytes = keepLast capacity (queue ++ bytes) := by
  cases kind with
  | usbCdcTcp => exact pushCapped_eq_keepLast hpos hlength bytes
  | embeddedCdc => exact EmbeddedCdcState.pushCapped_eq_keepLast queue bytes capacity
  | ecuIoVec => rfl
  | ecuIoDeque => exact pushCapped_eq_keepLast hpos hlength bytes

/-- With a capacity of zero the length is the capacity at most once, and nothing is ever dropped. -/
lemma pushCapped_zero (queue bytes : List U8) :
    UsbCdcTcp.pushCapped queue bytes 0 = queue ++ bytes := by
  unfold UsbCdcTcp.pushCapped
  induction bytes generalizing queue with
  | nil => exact (List.append_nil queue).symm
  | cons byte bytes ih =>
    have hfirst : (if queue.length = 0 then queue.tail else queue) = queue := by
      rcases queue with _ | ⟨oldest, queue⟩ <;> rfl
    rw [List.foldl_cons, hfirst, ih, List.append_assoc, List.singleton_append]

lemma foldl_pushCapped_zero (queue : List U8) (slices : List (List U8)) :
    slices.foldl (CappedQueue.usbCdcTcp.push 0) queue = queue ++ slices.flatten := by
  induction slices generalizing queue with
  | nil => exact (List.append_nil queue).symm
  | cons bytes slices ih =>
    rw [List.foldl_cons, ih, push, pushCapped_zero, List.flatten_cons, List.append_assoc]

/-- Where nothing is pushed, an empty queue stays empty. -/
lemma foldl_push_nil (kind : CappedQueue) {slices : List (List U8)} (hempty : slices.flatten = []) :
    slices.foldl (kind.push 0) [] = [] := by
  induction slices with
  | nil => rfl
  | cons bytes slices ih =>
    obtain ⟨rfl, hrest⟩ := List.append_eq_nil_iff.mp hempty
    have hnil : kind.push 0 [] [] = [] := by
      rcases kind with _ | _ | _ | _ <;> rfl
    rw [List.foldl_cons, hnil]
    exact ih hrest

/-- After any pushes each of the queues holds the newest bytes of all, as many as there are or as it
may hold. -/
structure Agree (capacity : ℕ) (queue : List U8) (slices : List (List U8)) : Prop where
  newest : ∀ kind : CappedQueue,
    slices.foldl (kind.push capacity) queue = keepLast capacity (queue ++ slices.flatten)
  length : ∀ kind : CappedQueue,
    (slices.foldl (kind.push capacity) queue).length =
      min capacity (queue.length + slices.flatten.length)

/-- A bridge has room for a byte at least. -/
lemma pos_of_new {maxBufferedBytes : ℕ} {pending : Option EmbeddedCdcState} {bridge : UsbCdcTcp}
    (h : UsbCdcTcp.new maxBufferedBytes pending = some bridge) : 0 < bridge.maxBufferedBytes := by
  unfold UsbCdcTcp.new at h
  split_ifs at h with hzero
  cases h
  exact Nat.pos_of_ne_zero hzero

/-- **The capped queues agree** if and only if the capacity is not zero, or nothing is pushed. -/
theorem capped_queues_agree_iff (hlength : queue.length ≤ capacity) (slices : List (List U8)) :
    Agree capacity queue slices ↔ 0 < capacity ∨ slices.flatten = [] := by
  constructor
  · intro h
    rcases Nat.eq_zero_or_pos capacity with rfl | hpos
    · have hnewest := h.length .usbCdcTcp
      rw [foldl_pushCapped_zero, List.length_append, Nat.zero_min] at hnewest
      exact Or.inr (List.eq_nil_of_length_eq_zero (by omega))
    · exact Or.inl hpos
  · intro h
    have hnewest : ∀ kind : CappedQueue,
        slices.foldl (kind.push capacity) queue = keepLast capacity (queue ++ slices.flatten) := by
      intro kind
      rcases Nat.eq_zero_or_pos capacity with rfl | hpos
      · obtain rfl := List.eq_nil_of_length_eq_zero (Nat.le_zero.mp hlength)
        have hempty := h.resolve_left (Nat.lt_irrefl 0)
        rw [foldl_push_nil kind hempty, hempty]
        rfl
      · exact foldl_eq_keepLast
          (fun queue hlength bytes => push_eq_keepLast hpos hlength kind bytes) hlength slices
    refine ⟨hnewest, fun kind => ?_⟩
    rw [hnewest, keepLast, List.length_drop, List.length_append]
    omega

/-- A piece that fits, and one that is longer than the queue. -/
theorem capped_queues_agree_sample : Agree 3 [1, 2] [[3], [4, 5, 6, 7]] :=
  (capped_queues_agree_iff (by decide) [[3], [4, 5, 6, 7]]).mpr (by decide)

/-- A queue without room holds the byte that is pushed. -/
theorem capped_queues_disagree : ¬ Agree 0 [] [[0x55]] ∧
    CappedQueue.usbCdcTcp.push 0 [] [0x55] = [0x55] ∧
    CappedQueue.embeddedCdc.push 0 [] [0x55] = [] := by
  refine ⟨fun h => ?_, rfl, rfl⟩
  have hlength := h.length .usbCdcTcp
  exact absurd hlength (by decide)

end CappedQueue

end Stm32Emulator.Ecu
