import Stm32Emulator.Foundation.Run
import Stm32Emulator.Peripherals.Dma
import Mathlib.Data.List.FinRange

/-!
# Transfers

An armed stream transfers at the first poll that finds its deadline in the past.  What a transfer
reads and writes lies outside of the controller, in a world `W` that is reached through a `DmaBus`;
`none` is a panic.  `Dma.advanceTo_eq` splits a poll into what it does to the world and what it does
to the controller.
-/

namespace Stm32Emulator

open Function

/-- What a controller reaches: the peripherals, the memory of the engine and the interrupt
controller. -/
structure DmaBus (W : Type) where
  /-- `read_dma` of the peripheral at an address, and `none` inside where there is no peripheral. -/
  readDma : U32 → ℕ → W → Option (Option (List U8) × W)
  /-- `write_dma` of the peripheral at an address, if there is one. -/
  writeDma : U32 → List U8 → W → Option W
  /-- `mem_read`, and `none` inside when it fails. -/
  memRead : U32 → ℕ → W → Option (Option (List U8) × W)
  /-- `mem_write`; that it fails is only logged. -/
  memWrite : U32 → List U8 → W → Option W
  setIntrPending : ℤ → W → Option W

variable {W : Type}

namespace DmaStream

def dataAddr (stream : DmaStream) : U32 :=
  if (stream.cr >>> 19) &&& 1 ≠ 0 then stream.m1ar else stream.m0ar

/-- The bytes to transfer; a source that cannot be read is replaced by zeros. -/
def fetch (stream : DmaStream) (bus : DmaBus W) (w : W) : Option (List U8 × W) :=
  let size := stream.dataSize
  let buf := match stream.dir with
    | .read => bus.readDma stream.par size w
    | .write => bus.memRead stream.dataAddr size w
    | .memCopy => bus.memRead stream.par size w
    | .invalid => some (some [], w)
  buf.map fun (buf, w) => (buf.getD (List.replicate size 0), w)

def doXfer (stream : DmaStream) (bus : DmaBus W) (w : W) : Option W :=
  (stream.fetch bus w).bind fun (buf, w) =>
    match stream.dir with
    | .write => bus.writeDma stream.par buf w
    | .read | .memCopy => bus.memWrite stream.dataAddr buf w
    | .invalid => some w

def finishTransfer (stream : DmaStream) : DmaStream :=
  { stream with cr := stream.cr &&& ~~~1, ndtr := 0, nextCr := none, ndtr_bits := zero_and_lowHalf }

/-- The stream is enabled. -/
def En (stream : DmaStream) : Prop := stream.cr &&& 1 ≠ 0

/-- The stream asks for an interrupt when its transfer is complete. -/
def Tcie (stream : DmaStream) : Prop := stream.cr &&& (1 <<< 4) ≠ 0

instance (stream : DmaStream) : Decidable stream.En := inferInstanceAs (Decidable (_ ≠ _))
instance (stream : DmaStream) : Decidable stream.Tcie := inferInstanceAs (Decidable (_ ≠ _))

end DmaStream

namespace Dma

/-! ## The flags and the interrupt of a stream -/

/-- The groups of flags are not evenly spaced. -/
def tcifPosition (localIndex : ℕ) : ℕ :=
  (if localIndex < 2 then localIndex * 6 else 16 + (localIndex - 2) * 6) + 5

def tcifBit (localIndex : ℕ) : U32 := 1#32 <<< tcifPosition localIndex

def setTransferCompleteFlag (dma : Dma) (i : Fin 8) : Dma :=
  let bit := tcifBit (i.val % 4)
  if i.val < 4 then { dma with lisr := dma.lisr ||| bit } else { dma with hisr := dma.hisr ||| bit }

def streamIrq (dmaName : String) (i : Fin 8) : Option ℤ :=
  if dmaName = "DMA1" then some (if i.val ≤ 6 then 11 + i.val else 47)
  else if dmaName = "DMA2" then some (if i.val ≤ 4 then 56 + i.val else 63 + i.val)
  else none

/-! ## The poll -/

/-- The deadline of a stream has come. -/
def IsDue (dma : Dma) (now : ℕ) (i : Fin 8) : Prop := ∃ at_ ∈ dma.completeAt i, at_ ≤ now

instance (dma : Dma) (now : ℕ) (i : Fin 8) : Decidable (dma.IsDue now i) :=
  match h : dma.completeAt i with
  | none => isFalse (by rintro ⟨at_, hat, -⟩; rw [h] at hat; cases hat)
  | some at_ => decidable_of_iff (at_ ≤ now) (by
      constructor
      · intro hle
        exact ⟨at_, h, hle⟩
      · rintro ⟨at', hat, hle⟩
        rw [h] at hat
        cases hat
        exact hle)

/-- A completion as the world sees it: the transfer, and the interrupt if the stream asks for
one. -/
def transfer (dma : Dma) (bus : DmaBus W) (i : Fin 8) (w : W) : Option W :=
  ((dma.streams i).doXfer bus w).bind fun w =>
    if (dma.streams i).Tcie then
      match streamIrq dma.name i with
      | some irq => bus.setIntrPending irq w
      | none => some w
    else some w

/-- A completion pends the interrupt of its stream exactly if the stream asks for it. -/
lemma transfer_of_streamIrq {dma : Dma} {bus : DmaBus W} {i : Fin 8} {irq : ℤ}
    (h : streamIrq dma.name i = some irq) (w : W) :
    dma.transfer bus i w = ((dma.streams i).doXfer bus w).bind fun w =>
      if (dma.streams i).Tcie then bus.setIntrPending irq w else some w := by
  simp only [transfer, h]

/-- A completion as the controller sees it. -/
def complete (dma : Dma) (i : Fin 8) : Dma :=
  { dma with
    completeAt := update dma.completeAt i none
    streams := update dma.streams i (dma.streams i).finishTransfer }.setTransferCompleteFlag i

/-- One round of the loop of `advanceTo`. -/
def advanceStream (bus : DmaBus W) (now : ℕ) (s : Dma × W) (i : Fin 8) : Option (Dma × W) :=
  if s.1.IsDue now i then (s.1.transfer bus i s.2).map fun w => (s.1.complete i, w) else some s

def advanceTo (dma : Dma) (bus : DmaBus W) (now : ℕ) (w : W) : Option (Dma × W) :=
  (List.finRange 8).foldlM (advanceStream bus now) ({ dma with lastNow := now }, w)

/-- The streams that complete at a poll, in their order. -/
def dueStreams (dma : Dma) (now : ℕ) : List (Fin 8) := (List.finRange 8).filter (dma.IsDue now ·)

/-- `LISR` or `HISR`, as `high` says. -/
def status (dma : Dma) (high : Bool) : U32 := if high then dma.hisr else dma.lisr

/-! ## One completion -/

section Complete

variable {dma : Dma} {i j : Fin 8} {bus : DmaBus W} {now : ℕ}

@[simp] lemma complete_name : (dma.complete i).name = dma.name := by
  unfold complete setTransferCompleteFlag
  split_ifs <;> rfl

@[simp] lemma complete_lastNow : (dma.complete i).lastNow = dma.lastNow := by
  unfold complete setTransferCompleteFlag
  split_ifs <;> rfl

lemma complete_completeAt : (dma.complete i).completeAt = update dma.completeAt i none := by
  unfold complete setTransferCompleteFlag
  split_ifs <;> rfl

lemma complete_streams :
    (dma.complete i).streams = update dma.streams i (dma.streams i).finishTransfer := by
  unfold complete setTransferCompleteFlag
  split_ifs <;> rfl

lemma tcifPosition_lt (k : ℕ) (hk : k < 4) : tcifPosition k < 32 := by
  interval_cases k <;> decide

/-- A completion sets one bit of the status registers. -/
lemma getLsbD_complete_status (high : Bool) (b : ℕ) :
    ((dma.complete i).status high).getLsbD b = true ↔
      ((4 ≤ i.val ↔ high = true) ∧ b = tcifPosition (i.val % 4)) ∨
      (dma.status high).getLsbD b = true := by
  have hbit : (tcifBit (i.val % 4)).getLsbD b = true ↔ b = tcifPosition (i.val % 4) := by
    have hlt := tcifPosition_lt (i.val % 4) (Nat.mod_lt _ (by omega))
    rw [tcifBit, getLsbD_one_shiftLeft]
    simp [hlt]
  unfold complete setTransferCompleteFlag status
  by_cases hi : i.val < 4
  · have hnot : ¬ 4 ≤ i.val := by omega
    cases high
    · simp [hi, hnot, hbit, or_comm]
    · simp [hi, hnot]
  · have hle : 4 ≤ i.val := by omega
    cases high
    · simp [hi, hle]
    · simp [hi, hle, hbit, or_comm]

/-- A completion is of no concern to the other streams. -/
lemma isDue_complete_of_ne (h : j ≠ i) : (dma.complete i).IsDue now j ↔ dma.IsDue now j := by
  unfold IsDue
  rw [complete_completeAt, update_of_ne h]

lemma transfer_complete_of_ne (h : j ≠ i) (w : W) :
    (dma.complete i).transfer bus j w = dma.transfer bus j w := by
  unfold transfer
  rw [complete_streams, update_of_ne h, complete_name]

lemma foldlM_transfer_complete {l : List (Fin 8)} (h : ∀ j ∈ l, j ≠ i) (w : W) :
    l.foldlM (fun w j => (dma.complete i).transfer bus j w) w =
      l.foldlM (fun w j => dma.transfer bus j w) w := by
  induction l generalizing w with
  | nil => rfl
  | cons j l ih =>
    rw [List.foldlM_cons, List.foldlM_cons, transfer_complete_of_ne (h j List.mem_cons_self)]
    have hrest : ∀ k ∈ l, k ≠ i := fun k hk => h k (List.mem_cons_of_mem j hk)
    simp only [ih hrest]

end Complete

/-! ## The completions of a poll -/

section CompleteAll

variable {dma : Dma} {now : ℕ} {bus : DmaBus W}

/-- The controller after a list of completions. -/
def completeAll (dma : Dma) (done : List (Fin 8)) : Dma := done.foldl complete dma

lemma completeAll_cons (i : Fin 8) (done : List (Fin 8)) :
    dma.completeAll (i :: done) = (dma.complete i).completeAll done := rfl

/-- The rounds of the loop, split into the world and the controller. -/
lemma foldlM_advanceStream (l : List (Fin 8)) (hl : l.Nodup) (w : W) :
    l.foldlM (advanceStream bus now) (dma, w) =
      ((l.filter (dma.IsDue now ·)).foldlM (fun w i => dma.transfer bus i w) w).map fun w =>
        (dma.completeAll (l.filter (dma.IsDue now ·)), w) := by
  induction l generalizing dma w with
  | nil => rfl
  | cons i l ih =>
    have hnotin : i ∉ l := (List.nodup_cons.mp hl).1
    have hne : ∀ j ∈ l, j ≠ i := fun j hj hji => hnotin (hji ▸ hj)
    rw [List.foldlM_cons]
    by_cases hdue : dma.IsDue now i
    · have hfilter : l.filter ((dma.complete i).IsDue now ·) = l.filter (dma.IsDue now ·) := by
        refine List.filter_congr fun j hj => ?_
        rw [decide_eq_decide, isDue_complete_of_ne (hne j hj)]
      have hrest : ∀ w, l.foldlM (advanceStream bus now) (dma.complete i, w) =
          ((l.filter (dma.IsDue now ·)).foldlM (fun w i => dma.transfer bus i w) w).map fun w =>
            ((dma.complete i).completeAll (l.filter (dma.IsDue now ·)), w) := by
        intro w
        rw [ih (List.nodup_cons.mp hl).2, hfilter]
        rw [foldlM_transfer_complete fun j hj => hne j (List.mem_of_mem_filter hj)]
      have hround : advanceStream bus now (dma, w) i =
          (dma.transfer bus i w).map fun w => (dma.complete i, w) := if_pos hdue
      rw [hround, List.filter_cons_of_pos (by simpa using hdue), List.foldlM_cons, completeAll_cons]
      cases htransfer : dma.transfer bus i w with
      | none => simp
      | some w' => simpa using hrest w'
    · have hround : advanceStream bus now (dma, w) i = some (dma, w) := if_neg hdue
      rw [hround, List.filter_cons_of_neg (by simpa using hdue)]
      exact ih (List.nodup_cons.mp hl).2 w

/-- **A poll.**  The world sees the transfers of the streams that are due, one after the other; the
controller completes these streams. -/
theorem advanceTo_eq (dma : Dma) (w : W) :
    dma.advanceTo bus now w =
      ((dma.dueStreams now).foldlM (fun w i => dma.transfer bus i w) w).map fun w =>
        ({ dma with lastNow := now }.completeAll (dma.dueStreams now), w) :=
  @foldlM_advanceStream _ { dma with lastNow := now } now bus _ (List.nodup_finRange 8) w

variable {done : List (Fin 8)} {i : Fin 8}

@[simp] lemma completeAll_name : (dma.completeAll done).name = dma.name := by
  induction done generalizing dma with
  | nil => rfl
  | cons i done ih => rw [completeAll_cons, ih, complete_name]

@[simp] lemma completeAll_lastNow : (dma.completeAll done).lastNow = dma.lastNow := by
  induction done generalizing dma with
  | nil => rfl
  | cons i done ih => rw [completeAll_cons, ih, complete_lastNow]

lemma completeAll_completeAt :
    (dma.completeAll done).completeAt i = if i ∈ done then none else dma.completeAt i := by
  induction done generalizing dma with
  | nil => rfl
  | cons j done ih =>
    rw [completeAll_cons, ih, complete_completeAt]
    by_cases hij : i = j
    · subst hij
      simp
    · simp [hij]

lemma completeAll_streams_of_notMem (h : i ∉ done) :
    (dma.completeAll done).streams i = dma.streams i := by
  induction done generalizing dma with
  | nil => rfl
  | cons j done ih =>
    have hij : i ≠ j := List.ne_of_not_mem_cons h
    have hdone : i ∉ done := List.not_mem_of_not_mem_cons h
    rw [completeAll_cons, ih hdone, complete_streams, update_of_ne hij]

lemma getLsbD_completeAll_status (high : Bool) (b : ℕ) :
    ((dma.completeAll done).status high).getLsbD b = true ↔
      (∃ i ∈ done, (4 ≤ i.val ↔ high = true) ∧ b = tcifPosition (i.val % 4)) ∨
        (dma.status high).getLsbD b = true := by
  induction done generalizing dma with
  | nil => simp [completeAll]
  | cons i done ih =>
    rw [completeAll_cons, ih, getLsbD_complete_status, List.exists_mem_cons_iff,
      or_left_comm, or_assoc]

lemma mem_dueStreams : i ∈ dma.dueStreams now ↔ dma.IsDue now i := by
  simp [dueStreams]

lemma dueStreams_sorted : (dma.dueStreams now).Pairwise (· < ·) :=
  List.Pairwise.filter _ (List.pairwise_lt_finRange 8)

end CompleteAll

end Dma

end Stm32Emulator
