import Stm32Emulator.EcuIo.Link
import Mathlib.Data.List.Range

/-!
# The log of the outputs

The host sees the outputs of an embedded device in two ways: as the levels that hold now, and as
numbered events that it takes from a bounded queue.  Beside the link we keep the record of all that
was published (`OutputRecord`), whose log is unbounded and never forgotten.  The queue holds the
newest events of the log (`Follows`), and so what the host takes, over all its takes, is a
consistent log with gaps that a detach or an overflow explains (`outputs_consistent`).
-/

namespace Stm32Emulator.Ecu

open EmbeddedEcuIoState

/-! ## The operations of the link -/

/-- What the device and the host do with their link. -/
inductive EventOp where
  | publishOutput (instructionCount : ℕ) (name : String) (value : ℤ) (wheelAngleMdeg : Option ℤ)
  | takeOutputEvents
  | attachDevice
  | detachDevice
  | setInput (name : String) (value : ℤ)
  | takeInputs
  deriving DecidableEq, Repr

namespace EmbeddedEcuIoState

def eventStep (link : EmbeddedEcuIoState) : EventOp → EmbeddedEcuIoState
  | .publishOutput instructionCount name value wheelAngleMdeg =>
    link.publishOutput instructionCount name value wheelAngleMdeg
  | .takeOutputEvents => link.takeOutputEvents.1
  | .attachDevice => link.attachDevice
  | .detachDevice => link.detachDevice
  | .setInput name value => link.setInput name value
  | .takeInputs => link.takeInputs.1

/-- What one operation hands to the host. -/
def takenBy (link : EmbeddedEcuIoState) : EventOp → List (List EmbeddedOutputEvent)
  | .takeOutputEvents => [link.takeOutputEvents.2]
  | _ => []

/-- What the host takes, in the order of its takes. -/
def takes (link : EmbeddedEcuIoState) : List EventOp → List (List EmbeddedOutputEvent)
  | [] => []
  | op :: ops => link.takenBy op ++ takes (link.eventStep op) ops

lemma flatten_takenBy (link : EmbeddedEcuIoState) :
    (link.takenBy .takeOutputEvents).flatten = link.outputEvents := List.append_nil _

/-- The link after some operations. -/
def linkAfter (ops : List EventOp) : EmbeddedEcuIoState := ops.foldl eventStep .default

/-- A batch is what the queue held at a take. -/
lemma exists_of_mem_takes {link : EmbeddedEcuIoState} {ops : List EventOp}
    {batch : List EmbeddedOutputEvent} (h : batch ∈ link.takes ops) :
    ∃ before after, ops = before ++ .takeOutputEvents :: after ∧
      batch = (before.foldl eventStep link).outputEvents := by
  induction ops generalizing link with
  | nil => exact absurd h List.not_mem_nil
  | cons op ops ih =>
    rcases List.mem_append.mp h with h | h
    · cases op with
      | takeOutputEvents => exact ⟨[], ops, rfl, List.mem_singleton.mp h⟩
      | _ => exact absurd h List.not_mem_nil
    · obtain ⟨before, after, rfl, hbatch⟩ := ih h
      exact ⟨op :: before, after, rfl, hbatch⟩

end EmbeddedEcuIoState

/-! ## The record -/

/-- The levels that have been published since the last detach, and all changes ever. -/
structure OutputRecord where
  published : String → Option ℤ
  log : List EmbeddedOutputEvent

namespace OutputRecord

def empty : OutputRecord := ⟨fun _ => none, []⟩

/-- Publishing a level. -/
def publish (record : OutputRecord) (instructionCount : ℕ) (name : String) (value : ℤ)
    (wheelAngleMdeg : Option ℤ) : OutputRecord where
  published := Function.update record.published name (some value)
  log :=
    if record.published name = some value then record.log
    else
      record.log ++
        [⟨BitVec.ofNat 64 record.log.length, instructionCount, name, record.published name,
        value, wheelAngleMdeg⟩]

def next (record : OutputRecord) : EventOp → OutputRecord
  | .publishOutput instructionCount name value wheelAngleMdeg =>
    record.publish instructionCount name value wheelAngleMdeg
  | .detachDevice => { record with published := fun _ => none }
  | _ => record

/-- The record of some operations. -/
def of (ops : List EventOp) : OutputRecord := ops.foldl next empty

lemma of_concat (ops : List EventOp) (op : EventOp) : of (ops ++ [op]) = (of ops).next op := by
  unfold of
  rw [List.foldl_append, List.foldl_cons, List.foldl_nil]

/-- The log only grows. -/
lemma log_prefix_next (record : OutputRecord) (op : EventOp) :
    record.log <+: (record.next op).log := by
  cases op with
  | publishOutput instructionCount name value wheelAngleMdeg =>
    unfold next publish
    dsimp only
    split_ifs
    · exact List.prefix_refl _
    · exact List.prefix_append _ _
  | _ => exact List.prefix_refl _

lemma log_prefix_foldl (record : OutputRecord) (ops : List EventOp) :
    record.log <+: (ops.foldl next record).log := by
  induction ops generalizing record with
  | nil => exact List.prefix_refl _
  | cons op ops ih => exact (record.log_prefix_next op).trans (ih _)

/-- The events of the log are numbered in their order. -/
lemma sequence_log (ops : List EventOp) :
    (of ops).log.map (·.sequence) = (List.range (of ops).log.length).map (BitVec.ofNat 64) := by
  induction ops using List.reverseRecOn with
  | nil => rfl
  | append_singleton ops op ih =>
    rw [of_concat]
    cases op with
    | publishOutput instructionCount name value wheelAngleMdeg =>
      unfold next publish
      dsimp only
      split_ifs
      · exact ih
      · rw [List.map_append, ih, List.length_append, List.length_singleton, List.range_succ,
          List.map_append]
        rfl
    | _ => exact ih

/-- Fewer than 2^64 events have different numbers. -/
lemma toNat_sequence_log {ops : List EventOp} (hcount : (of ops).log.length < 2 ^ 64) :
    (of ops).log.map (·.sequence.toNat) = List.range (of ops).log.length := by
  have hmap : (of ops).log.map (·.sequence.toNat) =
      ((of ops).log.map (·.sequence)).map (·.toNat) := by
    rw [List.map_map]
    rfl
  rw [hmap, sequence_log, List.map_map]
  refine (List.map_congr_left fun i hi => ?_).trans (List.map_id _)
  rw [Function.comp_apply, BitVec.toNat_ofNat, id_eq]
  exact Nat.mod_eq_of_lt ((List.mem_range.mp hi).trans hcount)

/-- Every event of the log is the publication of a level that differs from the one published
before. -/
lemma exists_of_mem_log {ops : List EventOp} {e : EmbeddedOutputEvent} (h : e ∈ (of ops).log) :
    ∃ before after,
      ops = before ++ .publishOutput e.instructionCount e.name e.value e.wheelAngleMdeg :: after ∧
      e.previousValue = (of before).published e.name ∧ e.previousValue ≠ some e.value := by
  induction ops using List.reverseRecOn with
  | nil => exact absurd h List.not_mem_nil
  | append_singleton ops op ih =>
    have hold (hmem : e ∈ (of ops).log) : ∃ before after,
        ops ++ [op] =
          before ++ .publishOutput e.instructionCount e.name e.value e.wheelAngleMdeg :: after ∧
        e.previousValue = (of before).published e.name ∧ e.previousValue ≠ some e.value := by
      obtain ⟨before, after, rfl, hevent⟩ := ih hmem
      exact ⟨before, after ++ [op], by rw [List.append_assoc, List.cons_append], hevent⟩
    rw [of_concat] at h
    cases op with
    | publishOutput instructionCount name value wheelAngleMdeg =>
      unfold next publish at h
      dsimp only at h
      split_ifs at h with hsame
      · exact hold h
      · rcases List.mem_append.mp h with h | h
        · exact hold h
        · obtain rfl := List.mem_singleton.mp h
          exact ⟨ops, [], rfl, rfl, hsame⟩
    | _ => exact hold h

end OutputRecord

/-! ## The queue follows the record -/

/-- The link shows the record: the levels, the next number, and of the events from `start` on, which
the host has not taken, the newest. -/
structure Follows (link : EmbeddedEcuIoState) (record : OutputRecord) (start : ℕ) : Prop where
  outputs_eq : link.outputs = record.published
  next_eq : link.nextOutputSequence = BitVec.ofNat 64 record.log.length
  start_le : start ≤ record.log.length
  queue_eq : link.outputEvents = keepLast maxPendingOutputEvents (record.log.drop start)

namespace Follows

open OutputRecord

variable {link : EmbeddedEcuIoState} {record : OutputRecord} {start : ℕ}

lemma default : Follows .default .empty 0 := ⟨rfl, rfl, le_refl _, rfl⟩

/-- The queue is a suffix of the log. -/
lemma queue_suffix (h : Follows link record start) :
    link.outputEvents <:+ record.log.drop start := by
  rw [h.queue_eq]
  exact List.drop_suffix _ _

lemma publishOutput (h : Follows link record start) (instructionCount : ℕ) (name : String)
    (value : ℤ) (wheelAngleMdeg : Option ℤ) :
    Follows (link.publishOutput instructionCount name value wheelAngleMdeg)
      (record.publish instructionCount name value wheelAngleMdeg) start := by
  have hlevel : link.outputs name = record.published name := congrFun h.outputs_eq name
  unfold EmbeddedEcuIoState.publishOutput publish
  dsimp only
  rw [hlevel, h.outputs_eq]
  by_cases hsame : record.published name = some value
  · rw [if_pos hsame, if_pos hsame]
    exact ⟨rfl, h.next_eq, h.start_le, h.queue_eq⟩
  · rw [if_neg hsame, if_neg hsame]
    refine ⟨rfl, ?_, ?_, ?_⟩
    · dsimp only
      rw [h.next_eq, List.length_append, List.length_singleton, BitVec.ofNat_add]
      rfl
    · rw [List.length_append]
      exact h.start_le.trans (Nat.le_add_right _ _)
    · have hlength : link.outputEvents.length ≤ maxPendingOutputEvents := by
        rw [h.queue_eq]
        exact length_keepLast_le _ _
      dsimp only
      rw [pushBounded_eq_keepLast (by decide) hlength, h.queue_eq, keepLast_append, h.next_eq,
        List.drop_append_of_le_length h.start_le]

/-- Where the events that the host has not taken start after an operation. -/
def startAfter (record : OutputRecord) (start : ℕ) : EventOp → ℕ
  | .takeOutputEvents => record.log.length
  | .detachDevice => record.log.length
  | _ => start

lemma emptied (h : Follows link record start) {link' : EmbeddedEcuIoState} {record' : OutputRecord}
    (houtputs : link'.outputs = record'.published) (hlog : record'.log = record.log)
    (hnext : link'.nextOutputSequence = link.nextOutputSequence)
    (hempty : link'.outputEvents = []) :
    Follows link' record' record.log.length := by
  refine ⟨houtputs, ?_, ?_, ?_⟩
  · rw [hnext, hlog, h.next_eq]
  · rw [hlog]
  · rw [hempty, hlog, List.drop_length]
    rfl

lemma step (h : Follows link record start) (op : EventOp) :
    Follows (link.eventStep op) (record.next op) (startAfter record start op) := by
  cases op with
  | publishOutput instructionCount name value wheelAngleMdeg =>
    exact h.publishOutput instructionCount name value wheelAngleMdeg
  | takeOutputEvents => exact h.emptied h.outputs_eq rfl rfl rfl
  | detachDevice => exact h.emptied rfl rfl rfl rfl
  | _ => exact ⟨h.outputs_eq, h.next_eq, h.start_le, h.queue_eq⟩

lemma foldl (h : Follows link record start) (ops : List EventOp) :
    ∃ start', Follows (ops.foldl eventStep link) (ops.foldl next record) start' := by
  induction ops generalizing link record start with
  | nil => exact ⟨start, h⟩
  | cons op ops ih => exact ih (h.step op)

/-- What the host takes comes from the log, in order. -/
lemma takes_sublist (h : Follows link record start) (ops : List EventOp) :
    (link.takes ops).flatten.Sublist ((ops.foldl next record).log.drop start) := by
  induction ops generalizing link record start with
  | nil => exact List.nil_sublist _
  | cons op ops ih =>
    have hrest := ih (h.step op)
    unfold takes
    rw [List.flatten_append, List.foldl_cons]
    cases op with
    | takeOutputEvents =>
      obtain ⟨later, hlater⟩ := record.log_prefix_foldl ops
      change List.Sublist _ ((ops.foldl next record).log.drop record.log.length) at hrest
      change List.Sublist _ ((ops.foldl next record).log.drop start)
      rw [← hlater, List.drop_left] at hrest
      rw [← hlater, List.drop_append_of_le_length h.start_le, flatten_takenBy]
      exact h.queue_suffix.sublist.append hrest
    | detachDevice => exact hrest.trans (List.drop_sublist_drop_left _ h.start_le)
    | _ => exact hrest

/-- Takes that find nothing leave where the log is untaken. -/
lemma foldl_of_takes_eq_nil (h : Follows link record start) {ops : List EventOp}
    (hdetach : .detachDevice ∉ ops) (hnone : (link.takes ops).flatten = []) :
    Follows (ops.foldl eventStep link) (ops.foldl next record) start := by
  induction ops generalizing link record with
  | nil => exact h
  | cons op ops ih =>
    unfold takes at hnone
    rw [List.flatten_append, List.append_eq_nil_iff] at hnone
    have hstart : startAfter record start op = start := by
      cases op with
      | takeOutputEvents =>
        have hqueue := hnone.1
        rw [flatten_takenBy, h.queue_eq] at hqueue
        have hle := List.drop_eq_nil_iff.mp (eq_nil_of_keepLast_eq_nil (by decide) hqueue)
        exact le_antisymm hle h.start_le
      | detachDevice => exact absurd List.mem_cons_self hdetach
      | _ => rfl
    have hnext := h.step op
    rw [hstart] at hnext
    exact ih hnext (fun hmem => hdetach (List.mem_cons_of_mem _ hmem)) hnone.2

/-- The numbers in the queue are consecutive and end with the newest event. -/
lemma sequence_queue {ops : List EventOp} (h : Follows link (of ops) start)
    (hcount : (of ops).log.length < 2 ^ 64) :
    link.outputEvents.map (·.sequence.toNat) =
      List.range' ((of ops).log.length - link.outputEvents.length) link.outputEvents.length := by
  obtain ⟨older, hsuffix⟩ := h.queue_suffix.trans (List.drop_suffix _ _)
  have hlength : older.length + link.outputEvents.length = (of ops).log.length := by
    rw [← List.length_append, hsuffix]
  have hdrop : (of ops).log.drop older.length = link.outputEvents := by
    rw [← hsuffix, List.drop_left]
  have hmap := congrArg (List.drop older.length) (toNat_sequence_log hcount)
  rw [← List.map_drop, hdrop, List.range_eq_range', List.drop_range'] at hmap
  rw [hmap]
  congr 1 <;> omega

lemma sequence_getLast {ops : List EventOp} (h : Follows link (of ops) start)
    (hcount : (of ops).log.length < 2 ^ 64) {e : EmbeddedOutputEvent}
    (he : link.outputEvents.getLast? = some e) : e.sequence.toNat + 1 = (of ops).log.length := by
  have hlast : (link.outputEvents.map (·.sequence.toNat)).getLast? = some e.sequence.toNat := by
    rw [List.getLast?_map, he, Option.map_some]
  have hle := h.queue_suffix.length_le.trans (List.drop_suffix start (of ops).log).length_le
  rw [h.sequence_queue hcount, List.getLast?_range'] at hlast
  split_ifs at hlast with hempty
  have := Option.some.inj hlast
  omega

lemma sequence_head {ops : List EventOp} (h : Follows link (of ops) start)
    (hcount : (of ops).log.length < 2 ^ 64) {e : EmbeddedOutputEvent}
    (he : link.outputEvents.head? = some e) :
    e.sequence.toNat = (of ops).log.length - link.outputEvents.length := by
  have hhead : (link.outputEvents.map (·.sequence.toNat)).head? = some e.sequence.toNat := by
    rw [List.head?_map, he, Option.map_some]
  rw [h.sequence_queue hcount, List.head?_range'] at hhead
  split_ifs at hhead
  exact (Option.some.inj hhead).symm

end Follows

lemma linkAfter_follows (ops : List EventOp) :
    ∃ start, Follows (linkAfter ops) (OutputRecord.of ops) start :=
  Follows.default.foldl ops

/-! ## The consistent log -/

open OutputRecord in
/-- What the host learns of the outputs by its takes, and by looking at their levels. -/
structure ConsistentOutputs (ops : List EventOp) : Prop where
  /-- All numbers that are ever taken increase. -/
  increasing : ((takes .default ops).flatten.map (·.sequence.toNat)).Pairwise (· < ·)
  /-- The numbers of one take are consecutive. -/
  consecutive : ∀ batch ∈ takes .default ops,
    ∃ first, batch.map (·.sequence.toNat) = List.range' first batch.length
  /-- Between a take and the next one that finds something no number is missing, unless the device
  was detached or the queue has overflown. -/
  gaps : ∀ before between after,
    ops = before ++ .takeOutputEvents :: (between ++ .takeOutputEvents :: after) →
    ((linkAfter (before ++ [.takeOutputEvents])).takes between).flatten = [] →
    ∀ e ∈ (linkAfter before).outputEvents.getLast?,
    ∀ e' ∈ (linkAfter (before ++ .takeOutputEvents :: between)).outputEvents.head?,
    e'.sequence.toNat = e.sequence.toNat + 1 ∨ .detachDevice ∈ between ∨
      maxPendingOutputEvents <
        (of (before ++ .takeOutputEvents :: between)).log.length - (of before).log.length
  /-- An event is the publication of a level that differs from the one that its signal had. -/
  changes : ∀ batch ∈ takes .default ops, ∀ e ∈ batch, ∃ before after,
    ops = before ++ .publishOutput e.instructionCount e.name e.value e.wheelAngleMdeg :: after ∧
    e.previousValue = (of before).published e.name ∧ e.previousValue ≠ some e.value
  /-- The levels are those that were published last. -/
  levels : (linkAfter ops).outputs = (of ops).published

/-- The log of the operations so far is a part of the log of all. -/
lemma OutputRecord.length_log_of_append (ops later : List EventOp) :
    (OutputRecord.of ops).log.length ≤ (OutputRecord.of (ops ++ later)).log.length := by
  unfold OutputRecord.of
  rw [List.foldl_append]
  exact (log_prefix_foldl _ later).length_le

open OutputRecord in
/-- A number that is missing between two takes is explained. -/
lemma gap_explained {before between : List EventOp}
    (hcount : (of (before ++ .takeOutputEvents :: between)).log.length < 2 ^ 64)
    (hnone : ((linkAfter (before ++ [.takeOutputEvents])).takes between).flatten = [])
    {e e' : EmbeddedOutputEvent} (he : (linkAfter before).outputEvents.getLast? = some e)
    (he' : (linkAfter (before ++ .takeOutputEvents :: between)).outputEvents.head? = some e')
    (hdetach : .detachDevice ∉ between)
    (hqueued : (of (before ++ .takeOutputEvents :: between)).log.length - (of before).log.length ≤
      maxPendingOutputEvents) : e'.sequence.toNat = e.sequence.toNat + 1 := by
  obtain ⟨start, hbefore⟩ := linkAfter_follows before
  have hgrows := length_log_of_append before (.takeOutputEvents :: between)
  have htaken : Follows (linkAfter (before ++ [.takeOutputEvents])) (of before)
      (of before).log.length := by
    unfold linkAfter
    rw [List.foldl_append]
    exact hbefore.step .takeOutputEvents
  have hlater := htaken.foldl_of_takes_eq_nil hdetach hnone
  have hlink : between.foldl eventStep (linkAfter (before ++ [.takeOutputEvents])) =
      linkAfter (before ++ .takeOutputEvents :: between) := by
    unfold linkAfter
    rw [← List.foldl_append, List.append_assoc, List.singleton_append]
  have hrecord : between.foldl next (of before) = of (before ++ .takeOutputEvents :: between) := by
    unfold of
    rw [List.foldl_append]
    rfl
  rw [hlink, hrecord] at hlater
  have hlength : (linkAfter (before ++ .takeOutputEvents :: between)).outputEvents.length =
      (of (before ++ .takeOutputEvents :: between)).log.length - (of before).log.length := by
    rw [hlater.queue_eq, keepLast_of_length_le, List.length_drop]
    rwa [List.length_drop]
  rw [hlater.sequence_head hcount he', hlength,
    hbefore.sequence_getLast (hgrows.trans_lt hcount) he]
  omega

/-- **The outputs are a consistent log.**  Whatever the device and the host do, as long as there are
fewer than 2^64 events. -/
theorem outputs_consistent (ops : List EventOp)
    (hcount : (OutputRecord.of ops).log.length < 2 ^ 64) :
    ConsistentOutputs ops := by
  -- a batch is the queue at one of the takes, where the log was not longer
  have hbatch : ∀ batch ∈ takes .default ops, ∃ before after start,
      ops = before ++ .takeOutputEvents :: after ∧ batch = (linkAfter before).outputEvents ∧
      Follows (linkAfter before) (OutputRecord.of before) start ∧
      (OutputRecord.of before).log.length < 2 ^ 64 := by
    intro batch hmem
    obtain ⟨before, after, rfl, hbatch⟩ := exists_of_mem_takes hmem
    obtain ⟨start, hfollows⟩ := linkAfter_follows before
    exact ⟨before, after, start, rfl, hbatch, hfollows,
      (OutputRecord.length_log_of_append before _).trans_lt hcount⟩
  constructor
  case increasing =>
    have hsublist := (Follows.default.takes_sublist ops).map (·.sequence.toNat)
    have hlog := OutputRecord.toNat_sequence_log hcount
    rw [List.drop_zero] at hsublist
    change List.Sublist _ ((OutputRecord.of ops).log.map _) at hsublist
    rw [hlog] at hsublist
    exact List.pairwise_lt_range.sublist hsublist
  case consecutive =>
    intro batch hmem
    obtain ⟨before, after, start, -, rfl, hfollows, hbefore⟩ := hbatch batch hmem
    exact ⟨_, hfollows.sequence_queue hbefore⟩
  case gaps =>
    intro before between after hops hnone e he e' he'
    by_contra! hgap
    obtain ⟨hne, hdetach, hqueued⟩ := hgap
    have hle : (OutputRecord.of (before ++ .takeOutputEvents :: between)).log.length < 2 ^ 64 := by
      refine (OutputRecord.length_log_of_append _ (.takeOutputEvents :: after)).trans_lt ?_
      rwa [List.append_assoc, List.cons_append, ← hops]
    exact hne (gap_explained hle hnone he he' hdetach hqueued)
  case changes =>
    intro batch hmem e he
    obtain ⟨before, after, start, rfl, rfl, hfollows, -⟩ := hbatch batch hmem
    have hlog : e ∈ (OutputRecord.of before).log :=
      (hfollows.queue_suffix.trans (List.drop_suffix _ _)).subset he
    obtain ⟨earlier, later, hbefore, hevent⟩ := OutputRecord.exists_of_mem_log hlog
    refine ⟨earlier, later ++ .takeOutputEvents :: after, ?_, hevent⟩
    rw [hbefore, List.append_assoc, List.cons_append]
  case levels =>
    obtain ⟨start, hfollows⟩ := linkAfter_follows ops
    exact hfollows.outputs_eq

/-- An injector opens and closes, and after a detach opens again. -/
theorem outputs_consistent_sample :
    ConsistentOutputs [.attachDevice, .publishOutput 10 "inj" 1 none,
      .publishOutput 20 "inj" 1 none, .publishOutput 30 "inj" 0 none, .takeOutputEvents,
      .detachDevice, .publishOutput 40 "inj" 1 none, .takeOutputEvents] :=
  outputs_consistent _ (by decide)

end Stm32Emulator.Ecu
