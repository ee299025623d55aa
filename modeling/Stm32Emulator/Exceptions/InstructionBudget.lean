import Stm32Emulator.Exceptions.Machine
import Mathlib.Algebra.BigOperators.Group.List.Basic

/-!
# The instruction budget

The main loop calls the engine again and again, with what is left of the budget as the number of
instructions that it may execute.  What is left is reckoned by the counter of the block hook, which
advances by the half words of a block before the block is executed.  So an instruction of four bytes
costs two, and one that is left unexecuted costs what it would have cost: the loop stops cleanly if
and only if the budget is enough for that (`budget_stops_iff`).
-/

namespace Stm32Emulator

/-! ## Blocks -/

/-- An instruction has two or four bytes. -/
inductive Width
  | narrow
  | wide
  deriving DecidableEq

def Width.bytes : Width → ℕ
  | .narrow => 2
  | .wide => 4

/-- A translated block that the engine enters, and the number of its instructions that are
executed. -/
structure Block where
  instructions : List Width
  executed : ℕ
  instructions_ne_nil : instructions ≠ []
  executed_le : executed ≤ instructions.length

namespace Block

variable (b : Block)

/-- The size in bytes, as the hook is told. -/
def size : ℕ := (b.instructions.map Width.bytes).sum

/-- What the counter advances by when the block is entered. -/
def halfwords : ℕ := (b.size + 1) / 2

/-- The instructions of four bytes. -/
def wide : ℕ := b.instructions.count .wide

/-- The instructions that are not executed. -/
def skipped : ℕ := b.instructions.length - b.executed

lemma sum_bytes (l : List Width) : (l.map Width.bytes).sum = 2 * (l.length + l.count .wide) := by
  induction l with
  | nil => rfl
  | cons w l ih =>
    rw [List.map_cons, List.sum_cons, ih, List.length_cons, List.count_cons]
    rcases w with _ | _ <;> simp [Width.bytes] <;> omega

/-- A block costs one for each instruction, and one more for each of four bytes. -/
lemma halfwords_eq : b.halfwords = b.executed + b.skipped + b.wide := by
  have hle := b.executed_le
  have hsize : b.size = 2 * (b.instructions.length + b.wide) := sum_bytes b.instructions
  unfold halfwords skipped
  omega

lemma halfwords_pos : 0 < b.halfwords := by
  have hlength := List.length_pos_iff.mpr b.instructions_ne_nil
  rw [halfwords_eq, skipped]
  omega

end Block

/-- The hook advances the counter by the half words of the block. -/
lemma blockHook_numInstructions {U : Type} [UnicornEngine U] {s s' : Core U} {vectorTableAddr : U32}
    {lastInterruptCheck lastInterruptCheck' interruptPeriod : ℕ} {b : Block}
    (h : blockHook s lastInterruptCheck interruptPeriod b.size vectorTableAddr =
      some (s', lastInterruptCheck')) :
    s'.numInstructions = s.numInstructions + b.halfwords := by
  unfold blockHook at h
  dsimp only at h
  split_ifs at h
  · obtain ⟨⟨nvic, uc, dispatched⟩, -, h⟩ := Option.bind_eq_some_iff.mp h
    cases h
    rfl
  · cases h
    rfl

/-! ## The main loop -/

/-- A call of the engine: the limit that it is given (zero for none), the blocks that it enters one
after the other, and how it returns.  The flags are those that the hooks have set in the
meantime. -/
structure EmuStart where
  count : ℕ
  blocks : List Block
  error : Bool
  pc : BitVec 64
  stopRequested : Bool
  continueExecution : Bool
  busyLoopReached : Bool

namespace EmuStart

variable (r : EmuStart)

def executed : ℕ := (r.blocks.map Block.executed).sum

def skipped : ℕ := (r.blocks.map Block.skipped).sum

def wide : ℕ := (r.blocks.map Block.wide).sum

/-- The engine keeps to its limit. -/
def Allowed : Prop := r.count = 0 ∨ r.executed ≤ r.count

instance : Decidable r.Allowed := inferInstanceAs (Decidable (_ ∨ _))

end EmuStart

/-- Why the loop ends after a call. -/
inductive RunEnd
  | stopRequested
  | failed
  | stopAddr
  | busyLoop
  deriving DecidableEq

/-- What is found at the head of the loop. -/
inductive LoopHead
  /-- The difference is negative. -/
  | underflow
  /-- The message that the target is reached. -/
  | done
  | start (count : ℕ)
  deriving DecidableEq

/-- The state of the main loop: where it goes on, the counter, the flags, and why it has ended. -/
structure MainLoop where
  pc : BitVec 64
  numInstructions : ℕ
  stopRequested : Bool
  continueExecution : Bool
  busyLoopReached : Bool
  ended : Option RunEnd
  deriving DecidableEq

def thumb (pc : BitVec 64) : BitVec 64 := pc ||| 1

namespace MainLoop

/-- The loop before its first round. -/
def fresh (reset : BitVec 64) : MainLoop := ⟨reset, 0, false, false, false, none⟩

/-- The head of the loop: what is left of the budget is the limit of the next call. -/
def head (maxInstructions : Option ℕ) (s : MainLoop) : LoopHead :=
  match maxInstructions with
  | none => .start 0
  | some c =>
    if c < s.numInstructions then .underflow
    else if c - s.numInstructions = 0 then .done
    else .start (c - s.numInstructions)

/-- A call has returned: the counter has advanced with every block, and the flags stay set. -/
def returned (s : MainLoop) (r : EmuStart) : MainLoop :=
  { s with
    pc := thumb r.pc
    numInstructions := r.blocks.foldl (fun n b => n + b.halfwords) s.numInstructions
    stopRequested := s.stopRequested || r.stopRequested
    continueExecution := s.continueExecution || r.continueExecution
    busyLoopReached := s.busyLoopReached || r.busyLoopReached }

/-- The rest of a round.  After a bad memory access that has been skipped the loop goes on. -/
def afterCall (stopAddr : Option U32) (s : MainLoop) (r : EmuStart) : MainLoop :=
  let s := s.returned r
  if s.stopRequested then
    { s with ended := some .stopRequested }
  else if r.error then
    if s.continueExecution then
      { s with continueExecution := false }
    else
      { s with ended := some .failed }
  else if stopAddr = some (r.pc.setWidth 32) then
    { s with ended := some .stopAddr }
  else if s.busyLoopReached then
    { s with ended := some .busyLoop }
  else
    s

/-- One round: a call with the limit of the head. -/
def round (maxInstructions : Option ℕ) (stopAddr : Option U32) (s : MainLoop) (r : EmuStart) :
    Option MainLoop :=
  if s.ended = none ∧ s.head maxInstructions = .start r.count then
    some (s.afterCall stopAddr r) else none

variable {c : ℕ} {stopAddr : Option U32} {s s' : MainLoop} {r : EmuStart} {rs : List EmuStart}

lemma head_eq_underflow_iff : s.head (some c) = .underflow ↔ c < s.numInstructions := by
  unfold head
  dsimp only
  split_ifs with hlt <;> simp [hlt]

lemma head_eq_done_iff : s.head (some c) = .done ↔ s.numInstructions = c := by
  unfold head
  dsimp only
  split_ifs with hlt <;> simp <;> omega

lemma head_eq_start_iff {count : ℕ} :
    s.head (some c) = .start count ↔ 0 < count ∧ s.numInstructions + count = c := by
  unfold head
  dsimp only
  split_ifs with hlt <;> simp <;> omega

lemma foldl_halfwords (blocks : List Block) (n : ℕ) :
    blocks.foldl (fun n b => n + b.halfwords) n = n + (blocks.map Block.halfwords).sum := by
  induction blocks generalizing n with
  | nil => rfl
  | cons b blocks ih => rw [List.foldl_cons, ih, List.map_cons, List.sum_cons, Nat.add_assoc]

/-- What a call costs. -/
lemma sum_halfwords (r : EmuStart) :
    (r.blocks.map Block.halfwords).sum = r.executed + r.skipped + r.wide := by
  unfold EmuStart.executed EmuStart.skipped EmuStart.wide
  rw [← List.sum_map_add, ← List.sum_map_add]
  exact congrArg List.sum (List.map_congr_left fun b _ => b.halfwords_eq)

lemma numInstructions_afterCall (stopAddr : Option U32) (s : MainLoop) (r : EmuStart) :
    (s.afterCall stopAddr r).numInstructions =
      s.numInstructions + (r.executed + r.skipped + r.wide) := by
  have hreturned : (s.returned r).numInstructions =
      s.numInstructions + (r.executed + r.skipped + r.wide) := by
    rw [returned, foldl_halfwords, sum_halfwords]
  unfold afterCall
  dsimp only
  split_ifs <;> exact hreturned

/-- What a round does: it was possible, and the counter has advanced. -/
lemma round_eq_some (h : s.round (some c) stopAddr r = some s') :
    s.ended = none ∧ (0 < r.count ∧ s.numInstructions + r.count = c) ∧
      s'.numInstructions = s.numInstructions + (r.executed + r.skipped + r.wide) := by
  unfold round at h
  split_ifs at h with hhead
  cases h
  exact ⟨hhead.1, head_eq_start_iff.mp hhead.2, numInstructions_afterCall stopAddr s r⟩

/-! ## Runs -/

/-- The instructions that are executed in some calls, those that are left, and those of four
bytes. -/
def executed (rs : List EmuStart) : ℕ := (rs.map EmuStart.executed).sum

def skipped (rs : List EmuStart) : ℕ := (rs.map EmuStart.skipped).sum

def wide (rs : List EmuStart) : ℕ := (rs.map EmuStart.wide).sum

/-- The calls that enter a block. -/
def entering (rs : List EmuStart) : ℕ := rs.countP fun r => !r.blocks.isEmpty

/-- The loop is at its head after some calls.  The difference there is not negative.  A limit for
the next call is not zero, and no more than is left after what has been executed.  Once the budget
has been executed, or the last call has used up its limit, the loop ends with the message.  The
calls that enter a block are no more than the budget. -/
structure StopsCleanly (c : ℕ) (rs : List EmuStart) (s : MainLoop) : Prop where
  at_head : s.ended = none
  not_underflow : s.head (some c) ≠ .underflow
  start : ∀ count, s.head (some c) = .start count → 0 < count ∧ executed rs + count ≤ c
  done_of_executed : c ≤ executed rs → s.head (some c) = .done
  done_of_last : ∀ r ∈ rs.getLast?, r.count ≤ r.executed → s.head (some c) = .done
  entering_le : entering rs ≤ c

/-- The rounds of the loop. -/
abbrev Rounds (c : ℕ) (stopAddr : Option U32) : MainLoop → List EmuStart → MainLoop → Prop :=
  Run (stepRel (round (some c) stopAddr))

/-- The counter holds what the blocks of all calls cost. -/
lemma numInstructions_of_rounds {reset : BitVec 64} (hrun : Rounds c stopAddr (fresh reset) rs s) :
    s.numInstructions = executed rs + skipped rs + wide rs := by
  refine hrun.invariant (I := fun rs s =>
    s.numInstructions = executed rs + skipped rs + wide rs) rfl ?_
  intro rs s s' r hs hround
  obtain ⟨-, -, hcount⟩ := round_eq_some hround
  rw [hcount, hs]
  simp only [executed, skipped, wide, List.map_append, List.sum_append, List.map_cons, List.map_nil,
    List.sum_cons, List.sum_nil]
  omega

/-- The cost of some calls, block by block. -/
lemma sum_cost (rs : List EmuStart) : (rs.map fun r => (r.blocks.map Block.halfwords).sum).sum
    = executed rs + skipped rs + wide rs := by
  unfold executed skipped wide
  rw [← List.sum_map_add, ← List.sum_map_add]
  exact congrArg List.sum (List.map_congr_left fun r _ => sum_halfwords r)

/-- A call that enters a block costs something. -/
lemma entering_le_cost (rs : List EmuStart) : entering rs ≤ executed rs + skipped rs + wide rs := by
  rw [← sum_cost]
  induction rs with
  | nil => exact Nat.le_refl 0
  | cons r rs ih =>
    have hfirst : (if (!r.blocks.isEmpty) = true then 1 else 0) ≤
        (r.blocks.map Block.halfwords).sum := by
      rcases r.blocks with _ | ⟨b, blocks⟩
      · simp
      · have hpos := b.halfwords_pos
        simp
        omega
    unfold entering at ih ⊢
    rw [List.countP_cons, List.map_cons, List.sum_cons]
    omega

/-- A budget that is not exceeded stops the run cleanly. -/
lemma stopsCleanly_of_le {reset : BitVec 64} (hrun : Rounds c stopAddr (fresh reset) rs s)
    (hhead : s.ended = none) (hle : executed rs + skipped rs + wide rs ≤ c) :
    StopsCleanly c rs s := by
  have hcount := numInstructions_of_rounds hrun
  have hentering := entering_le_cost rs
  refine ⟨hhead, fun hunder => ?_, fun count hstart => ?_, fun hexecuted => ?_,
    fun r hr hfull => ?_, by omega⟩
  · have hlt := head_eq_underflow_iff.mp hunder
    omega
  · have hlimit := head_eq_start_iff.mp hstart
    omega
  · rw [head_eq_done_iff]
    omega
  · rw [head_eq_done_iff]
    cases hrun with
    | nil => cases hr
    | @snoc rs s₀ _ last hrun hround =>
      obtain rfl : last = r := by simpa using hr
      -- the last call was given all that was left
      obtain ⟨-, ⟨-, hlimit⟩, hadvanced⟩ := round_eq_some hround
      omega

/-- An engine that keeps to its limit, in code without instructions of four bytes whose blocks are
always executed to their ends. -/
lemma stopsCleanly_of_narrow {reset : BitVec 64}
    (hrun : Run (guardedStep (fun _ r => r.Allowed ∧ r.skipped = 0 ∧ r.wide = 0)
      (stepRel (round (some c) stopAddr))) (fresh reset) rs s)
    (hhead : s.ended = none) : StopsCleanly c rs s := by
  have hrounds : Rounds c stopAddr (fresh reset) rs s := hrun.mono fun _ _ _ h => h.2
  refine stopsCleanly_of_le hrounds hhead ?_
  rw [← numInstructions_of_rounds hrounds]
  refine hrun.invariant_state (I := fun s => s.numInstructions ≤ c) (Nat.zero_le c) ?_
  rintro s s' r - ⟨⟨hallowed, hskipped, hwide⟩, hround⟩
  obtain ⟨-, ⟨hpos, hlimit⟩, hadvanced⟩ := round_eq_some hround
  have hexecuted : r.executed ≤ r.count := hallowed.resolve_left (Nat.ne_of_gt hpos)
  omega

/-- **The budget stops the run cleanly** if and only if it is enough for the instructions that were
executed, those of the blocks that were left, and once more for those of four bytes. -/
theorem budget_stops_iff {reset : BitVec 64} (hrun : Rounds c stopAddr (fresh reset) rs s)
    (hhead : s.ended = none) : StopsCleanly c rs s ↔ executed rs + skipped rs + wide rs ≤ c := by
  refine ⟨fun hclean => ?_, stopsCleanly_of_le hrun hhead⟩
  have hle := mt head_eq_underflow_iff.mpr hclean.not_underflow
  rw [← numInstructions_of_rounds hrun]
  omega

/-- A call that executes the one instruction of a block, or is redirected before it. -/
def sampleCall (count : ℕ) (w : Width) (redirected : Bool) : EmuStart where
  count := count
  blocks := [⟨[w], if redirected then 0 else 1, by simp, by split_ifs <;> simp⟩]
  error := false
  pc := 0x08000200
  stopRequested := false
  continueExecution := false
  busyLoopReached := false

/-- A budget of four: a call that is redirected, one of an instruction of two bytes and one of four
bytes. -/
theorem budget_stops_sample : ∃ s, Rounds 4 none (fresh 0x08000101)
      [sampleCall 4 .narrow true, sampleCall 3 .narrow false, sampleCall 2 .wide false] s ∧
    s.head (some 4) = .done ∧
    StopsCleanly 4 [sampleCall 4 .narrow true, sampleCall 3 .narrow false,
      sampleCall 2 .wide false] s := by
  have hfirst : round (some 4) none (fresh 0x08000101) (sampleCall 4 .narrow true)
      = some ⟨0x08000201, 1, false, false, false, none⟩ := rfl
  have hsecond : round (some 4) none ⟨0x08000201, 1, false, false, false, none⟩
      (sampleCall 3 .narrow false)
      = some ⟨0x08000201, 2, false, false, false, none⟩ := rfl
  have hthird : round (some 4) none ⟨0x08000201, 2, false, false, false, none⟩
      (sampleCall 2 .wide false)
      = some ⟨0x08000201, 4, false, false, false, none⟩ := rfl
  have hrun : Rounds 4 none (fresh 0x08000101)
      [sampleCall 4 .narrow true, sampleCall 3 .narrow false, sampleCall 2 .wide false]
      ⟨0x08000201, 4, false, false, false, none⟩ :=
    ((Run.single hfirst).snoc hsecond).snoc hthird
  exact ⟨_, hrun, rfl, (budget_stops_iff hrun rfl).mpr (by decide)⟩

/-- A budget of one: the engine executes one instruction, which has four bytes. -/
theorem budget_underflows :
    ∃ r s, r.Allowed ∧ Rounds 1 none (fresh 0x08000101) [r] s ∧ s.ended = none ∧
    s.head (some 1) = .underflow ∧ ¬ StopsCleanly 1 [r] s := by
  refine ⟨sampleCall 1 .wide false, ⟨0x08000201, 2, false, false, false, none⟩, by
    decide, Run.single rfl, rfl, rfl, fun hclean => hclean.not_underflow rfl⟩

end MainLoop

end Stm32Emulator
