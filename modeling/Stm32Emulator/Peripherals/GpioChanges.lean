import Stm32Emulator.Foundation.WordFields
import Stm32Emulator.Peripherals.Gpio

/-!
# Fields that change

A port has sixteen pins, and `iterPortRegChanges` visits those whose fields in a register change.
Each round clears the field that it visits and the bits below it, so the loop ends, and it has
visited the changed fields in ascending order, up to and including the one with the index 16.  Only
a register with one bit for each pin has a field with that index, and it belongs to no pin.
-/

namespace Stm32Emulator

namespace Gpio

/-! ## The loop -/

/-- What `f` is told about a field. -/
def fieldValue (newValue : U32) (stride pin : ℕ) : U8 :=
  (newValue >>> (pin * stride)).setWidth 8 &&& strideMask stride

/-- The visit of a round. -/
def visitField {S : Type} (newValue : U32) (stride : ℕ) (f : S → ℕ → U8 → S) (s : S)
    (pin : ℕ) : S :=
  if pin ≤ 16 then f s pin (fieldValue newValue stride pin) else s

/-- The changes that a round leaves. -/
def remainingChanges (stride pin : ℕ) (changes : U32) : U32 :=
  changes &&& (~~~((strideMask stride).setWidth 32) <<< (pin * stride))

/-- The loop without a bound on its rounds: from some changes and a state it ends, in another
state. -/
inductive ChangesLoop {S : Type} (newValue : U32) (stride : ℕ) (f : S → ℕ → U8 → S) :
    U32 → S → S → Prop
  | done (s : S) : ChangesLoop newValue stride f 0#32 s s
  | round {changes : U32} {s s' : S} (hne : changes ≠ 0#32)
      (h : ChangesLoop newValue stride f
        (remainingChanges stride (trailingZeros changes / stride) changes)
        (visitField newValue stride f s (trailingZeros changes / stride)) s') :
      ChangesLoop newValue stride f changes s s'

/-- The loop ends in one state only. -/
lemma ChangesLoop.unique {S : Type} {newValue : U32} {stride : ℕ} {f : S → ℕ → U8 → S}
    {changes : U32} {s s₁ s₂ : S} (h₁ : ChangesLoop newValue stride f changes s s₁)
    (h₂ : ChangesLoop newValue stride f changes s s₂) : s₁ = s₂ := by
  induction h₁ with
  | done s =>
    rcases h₂ with _ | ⟨hne, -⟩
    · rfl
    · exact absurd rfl hne
  | round hne _ ih =>
    rcases h₂ with _ | ⟨-, h⟩
    · exact absurd rfl hne
    · exact ih h

/-! ## A round -/

lemma trailingZeros_of_setBits {x : U32} {i : ℕ} {rest : List ℕ} (h : setBits x = i :: rest) :
    trailingZeros x = i := by
  unfold trailingZeros
  rw [← head?_setBits, h]
  rfl

section Stride

variable {stride : ℕ} (hstride : 0 < stride ∧ stride ≤ 8)

include hstride

lemma getLsbD_strideMask (j : ℕ) : (strideMask stride).getLsbD j = decide (j < stride) := by
  have hmask : strideMask stride = BitVec.ofNat 8 ((2 ^ 8 - 1) >>> (8 - stride)) := rfl
  have hlt : j < 8 ∧ 8 - stride + j < 8 ↔ j < stride := by omega
  rw [hmask, BitVec.getLsbD_ofNat, Nat.testBit_shiftRight, Nat.testBit_two_pow_sub_one,
    ← Bool.decide_and]
  exact decide_eq_decide.mpr hlt

/-- `f` is told the new value of the field. -/
lemma fieldValue_eq (newValue : U32) (pin : ℕ) :
    fieldValue newValue stride pin = (bitField newValue stride pin).setWidth 8 := by
  apply BitVec.eq_of_getLsbD_eq
  intro j hj
  unfold fieldValue
  rw [BitVec.getLsbD_and, BitVec.getLsbD_setWidth, BitVec.getLsbD_ushiftRight,
    getLsbD_strideMask hstride, BitVec.getLsbD_setWidth, getLsbD_bitField, decide_eq_true hj,
    Bool.true_and, Bool.true_and, Bool.and_comm]

/-- A round clears its field, and the bits below it. -/
lemma getLsbD_remainingChanges (pin : ℕ) (changes : U32) (j : ℕ) :
    (remainingChanges stride pin changes).getLsbD j =
      (changes.getLsbD j && decide (pin < j / stride)) := by
  have hlater : pin < j / stride ↔ ¬ j < pin * stride ∧ ¬ j - pin * stride < stride := by
    rw [← Nat.succ_le_iff, Nat.le_div_iff_mul_le hstride.1, Nat.succ_mul]
    omega
  unfold remainingChanges
  rw [BitVec.getLsbD_and]
  by_cases hj : j < 32
  · have hsub : j - pin * stride < 32 := by omega
    rw [BitVec.getLsbD_shiftLeft, BitVec.getLsbD_not, BitVec.getLsbD_setWidth,
      getLsbD_strideMask hstride, decide_eq_true hj, decide_eq_true hsub,
      decide_eq_decide.mpr hlater, Bool.decide_and]
    simp only [Bool.true_and, decide_not]
  · rw [BitVec.getLsbD_of_ge changes j (by omega), Bool.false_and, Bool.false_and]

/-! ## The whole loop -/

/-- The loop goes through the changed fields, for any fuel that is enough for them, and ends. -/
lemma iterPortRegChangesLoop_eq {S : Type} (newValue : U32) (f : S → ℕ → U8 → S) (fuel : ℕ)
    (changes : U32) (s : S) (hfuel : (setFields changes stride).length ≤ fuel) :
    iterPortRegChangesLoop newValue stride f fuel changes s =
        (setFields changes stride).foldl (visitField newValue stride f) s ∧
      ChangesLoop newValue stride f changes s
        (iterPortRegChangesLoop newValue stride f fuel changes s) := by
  induction fuel generalizing changes s with
  | zero =>
    have hnil := List.length_eq_zero_iff.mp (Nat.le_zero.mp hfuel)
    obtain rfl := (setFields_eq_nil_iff hstride.1).mp hnil
    rw [hnil]
    exact ⟨rfl, .done s⟩
  | succ fuel ih =>
    by_cases hne : changes = 0#32
    · subst hne
      have hnil := (setFields_eq_nil_iff (x := 0#32) hstride.1).mpr rfl
      rw [hnil]
      exact ⟨rfl, .done s⟩
    · obtain ⟨i, rest, hbits⟩ := List.exists_cons_of_ne_nil (setBits_eq_nil_iff.not.mpr hne)
      have hi := trailingZeros_of_setBits hbits
      have hfields := setFields_of_clear hstride.1 hbits
        (getLsbD_remainingChanges hstride (i / stride) changes)
      have hround : iterPortRegChangesLoop newValue stride f (fuel + 1) changes s =
          iterPortRegChangesLoop newValue stride f fuel
            (remainingChanges stride (i / stride) changes)
            (visitField newValue stride f s (i / stride)) := by
        rw [iterPortRegChangesLoop, if_neg hne, hi]
        rfl
      rw [hfields, List.length_cons, Nat.add_le_add_iff_right] at hfuel
      obtain ⟨hfold, hends⟩ := ih (remainingChanges stride (i / stride) changes)
        (visitField newValue stride f s (i / stride)) hfuel
      rw [hround, hfields, List.foldl_cons]
      refine ⟨hfold, .round hne ?_⟩
      rw [hi]
      exact hends

/-- **The loop ends** for all values. -/
lemma changesLoop_iterPortRegChanges {S : Type} (oldValue newValue : U32) (f : S → ℕ → U8 → S)
    (s : S) :
    ChangesLoop newValue stride f (oldValue ^^^ newValue) s
      (iterPortRegChanges oldValue newValue stride f s) :=
  (iterPortRegChangesLoop_eq hstride newValue f 32 _ s (length_setFields_le _ stride)).2

/-- The fields that are visited. -/
lemma iterPortRegChanges_eq {S : Type} (oldValue newValue : U32) (f : S → ℕ → U8 → S) (s : S) :
    iterPortRegChanges oldValue newValue stride f s =
      ((setFields (oldValue ^^^ newValue) stride).filter fun pin => pin ≤ 16).foldl
        (fun s pin => f s pin (fieldValue newValue stride pin)) s := by
  unfold iterPortRegChanges
  rw [(iterPortRegChangesLoop_eq hstride newValue f 32 _ s (length_setFields_le _ stride)).1,
    List.foldl_filter]
  simp only [decide_eq_true_eq]
  rfl

end Stride

/-! ## Which fields are visited -/

/-- The pins whose fields differ, in ascending order. -/
def changedFields (oldValue newValue : U32) (stride : ℕ) : List ℕ :=
  (List.range 16).filter fun pin => bitField oldValue stride pin ≠ bitField newValue stride pin

/-- The loop ends and has called `f` once for each pin whose field differs, in ascending order and
with the new value of the field, and for nothing else. -/
def VisitsChangedFields (oldValue newValue : U32) (stride : ℕ) : Prop :=
  ∀ (S : Type) (f : S → ℕ → U8 → S) (s : S),
    ChangesLoop newValue stride f (oldValue ^^^ newValue) s
      ((changedFields oldValue newValue stride).foldl
        (fun s pin => f s pin ((bitField newValue stride pin).setWidth 8)) s)

/-- The guard lets one more field through. -/
lemma filter_setFields (oldValue newValue : U32) (stride : ℕ) :
    ((setFields (oldValue ^^^ newValue) stride).filter fun pin => pin ≤ 16) =
      changedFields oldValue newValue stride ++
        if bitField oldValue stride 16 = bitField newValue stride 16 then [] else [16] := by
  have hrange : (List.range 32).filter (fun pin => pin ≤ 16) = List.range 16 ++ [16] := by decide
  have hdiffer : ∀ pin, decide (bitField (oldValue ^^^ newValue) stride pin ≠ 0#(stride)) =
      decide (bitField oldValue stride pin ≠ bitField newValue stride pin) :=
    fun _ => decide_eq_decide.mpr bitField_xor_ne_zero_iff
  unfold setFields changedFields
  rw [List.filter_comm, hrange, List.filter_append]
  simp only [hdiffer]
  congr 1
  by_cases h : bitField oldValue stride 16 = bitField newValue stride 16
  · rw [if_pos h]
    exact List.filter_cons_of_neg (by simpa using h)
  · rw [if_neg h]
    exact List.filter_cons_of_pos (by simpa using h)

/-- The visits are the right ones if the field past the last pin does not change. -/
lemma visitsChangedFields_iff {oldValue newValue : U32} {stride : ℕ}
    (hstride : 0 < stride ∧ stride ≤ 8) :
    VisitsChangedFields oldValue newValue stride ↔
      bitField oldValue stride 16 = bitField newValue stride 16 := by
  have hloop : ∀ {S : Type} (f : S → ℕ → U8 → S) (s : S),
      ChangesLoop newValue stride f (oldValue ^^^ newValue) s
        ((changedFields oldValue newValue stride ++
            if bitField oldValue stride 16 = bitField newValue stride 16 then [] else [16]).foldl
          (fun s pin => f s pin ((bitField newValue stride pin).setWidth 8)) s) := by
    intro S f s
    have h := changesLoop_iterPortRegChanges hstride oldValue newValue f s
    rw [iterPortRegChanges_eq hstride, filter_setFields] at h
    simpa only [fieldValue_eq hstride] using h
  constructor
  · -- a callback that counts its calls tells the lists apart
    intro h
    have hcount := (h ℕ (fun n _ _ => n + 1) 0).unique (hloop (fun n _ _ => n + 1) 0)
    rw [List.foldl_append] at hcount
    by_contra hne
    rw [if_neg hne, List.foldl_cons, List.foldl_nil] at hcount
    exact (Nat.lt_succ_self _).ne hcount
  · intro heq S f s
    have h := hloop f s
    rwa [if_pos heq, List.append_nil] at h

/-- Only fields of one bit go on past the last pin. -/
lemma bitField_sixteen_eq_iff {oldValue newValue : U32} {stride : ℕ}
    (hstride : stride ∈ [1, 2, 4]) :
    bitField oldValue stride 16 = bitField newValue stride 16 ↔
      ¬ (stride = 1 ∧ oldValue.getLsbD 16 ≠ newValue.getLsbD 16) := by
  have hbeyond : ∀ x : U32, 2 ≤ stride → bitField x stride 16 = 0#(stride) := by
    intro x hwide
    apply BitVec.eq_of_getLsbD_eq
    intro j _
    rw [getLsbD_bitField, BitVec.getLsbD_of_ge x _ (by omega), Bool.and_false, BitVec.getLsbD_zero]
  rcases Nat.lt_or_ge stride 2 with hone | hwide
  · have hbit : ∀ b c : Bool, BitVec.ofBool b = BitVec.ofBool c ↔ ¬ b ≠ c := by decide
    obtain rfl : stride = 1 := by
      rcases List.mem_cons.mp hstride with rfl | h
      · rfl
      · simp at h
        omega
    rw [bitField_one, bitField_one, hbit]
    exact ⟨fun h hnot => h hnot.2, fun h hnot => h ⟨rfl, hnot⟩⟩
  · rw [hbeyond _ hwide, hbeyond _ hwide]
    exact ⟨fun _ hnot => by omega, fun _ => rfl⟩

/-- **The loop always ends, and it visits exactly the pins whose fields change** unless the fields
are single bits and bit 16 changes. -/
theorem iterPortRegChanges_exact_iff (oldValue newValue : U32) {stride : ℕ}
    (hstride : stride ∈ [1, 2, 4]) :
    (∀ (S : Type) (f : S → ℕ → U8 → S) (s : S),
      ChangesLoop newValue stride f (oldValue ^^^ newValue) s
        (iterPortRegChanges oldValue newValue stride f s)) ∧
      (VisitsChangedFields oldValue newValue stride ↔
        ¬ (stride = 1 ∧ oldValue.getLsbD 16 ≠ newValue.getLsbD 16)) := by
  have hbounds : 0 < stride ∧ stride ≤ 8 := by
    simp at hstride
    omega
  refine ⟨fun _ f s => changesLoop_iterPortRegChanges hbounds oldValue newValue f s, ?_⟩
  rw [visitsChangedFields_iff hbounds, bitField_sixteen_eq_iff hstride]

/-- Alternate functions, from field 2 to fields 2 and 7: only the last field changes, and is
visited. -/
theorem iterPortRegChanges_exact_afrl :
    (4 ∈ [1, 2, 4] ∧ changedFields 0x00000500 0x90000500 4 = [7]) ∧
      VisitsChangedFields 0x00000500 0x90000500 4 :=
  ⟨⟨by decide, by decide⟩,
    (iterPortRegChanges_exact_iff 0x00000500 0x90000500 (by decide : 4 ∈ [1, 2, 4])).2.mpr
      (by decide)⟩

/-- A write of bit 16 to `ODR` is taken for a change of a pin 16. -/
theorem not_visitsChangedFields_odr : ¬ VisitsChangedFields 0x00000000 0x00010000 1 := by
  intro h
  have hlast : ChangesLoop 0x00010000 1 (fun (pins : List ℕ) pin _ => pins ++ [pin])
      (0x00000000 ^^^ 0x00010000) [] [16] :=
    changesLoop_iterPortRegChanges (by decide) 0x00000000 0x00010000 _ []
  have hnone : changedFields 0x00000000 0x00010000 1 = [] := by decide
  have hends := h (List ℕ) (fun pins pin _ => pins ++ [pin]) []
  rw [hnone] at hends
  exact absurd (hends.unique hlast) (by decide)

end Gpio

end Stm32Emulator
