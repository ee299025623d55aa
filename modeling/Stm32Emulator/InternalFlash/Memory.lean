import Stm32Emulator.Engine.Memory
import Stm32Emulator.Peripherals.Flash

/-!
# Filling and erasing memory

Filling mapped memory places one value everywhere in a range, and erasing a sector does so under
each address of the flash.  Neither maps or unmaps anything, also when it fails half-way.
-/

namespace Stm32Emulator

open MemoryImage

namespace Flash

/-! ## Filling -/

section Fill

variable {U : Type} [UnicornEngine U]

/-- A range that is mapped is filled to its end. -/
lemma fillLoop_spec {start size fuel offset : ℕ} {value : U8} {uc : U}
    (hfuel : size ≤ offset + fuel)
    (hmapped : ∀ x, start + offset ≤ x → x < start + size → (memByte uc x).isSome = true) :
    ∃ uc', fillLoop start size value fuel offset uc = (true, uc') ∧
      memByte uc' = overlay (memByte uc)
        (start + offset, List.replicate (size - offset) value) := by
  induction fuel generalizing offset uc with
  | zero =>
    have hzero : size - offset = 0 := by omega
    refine ⟨uc, rfl, ?_⟩
    rw [hzero, List.replicate_zero, overlay_nil]
  | succ fuel ih =>
    by_cases hoffset : offset < size
    · obtain ⟨count, hcount⟩ : ∃ count, count = min (min ioChunk size) (size - offset) := ⟨_, rfl⟩
      have hpos : 0 < count ∧ offset + count ≤ size := by
        have hchunk : 0 < ioChunk := by decide
        omega
      obtain ⟨uc₁, huc₁⟩ := Option.isSome_iff_exists.mp (UnicornEngine.memWrite_isSome uc
        (start + offset) (List.replicate count value) (by
          intro i hi
          rw [List.length_replicate] at hi
          exact hmapped _ (by omega) (by omega)))
      have hbytes := memByte_of_memWrite (p := (start + offset, List.replicate count value)) huc₁
      have hmapped₁ : ∀ x, start + (offset + count) ≤ x → x < start + size →
          (memByte uc₁ x).isSome = true := by
        intro x hx hlt
        rw [hbytes, overlay_of_not_covers]
        · exact hmapped x (by omega) hlt
        · rintro ⟨-, hcovered⟩
          simp only [List.length_replicate] at hcovered
          omega
      obtain ⟨uc', hloop, hbytes'⟩ := ih (by omega) hmapped₁
      refine ⟨uc', ?_, ?_⟩
      · unfold fillLoop
        rw [if_pos hoffset, ← hcount]
        simp only [huc₁]
        exact hloop
      · have hrest : count + (size - (offset + count)) = size - offset := by omega
        rw [hbytes', hbytes, ← Nat.add_assoc, overlay_replicate_append, hrest]
    · have hzero : size - offset = 0 := by omega
      refine ⟨uc, ?_, ?_⟩
      · unfold fillLoop
        rw [if_neg hoffset]
      · rw [hzero, List.replicate_zero, overlay_nil]

lemma fill_spec {start size : ℕ} (value : U8) {uc : U}
    (hmapped : ∀ x, start ≤ x → x < start + size → (memByte uc x).isSome = true) :
    ∃ uc', fill uc start size value = (true, uc') ∧
      memByte uc' = overlay (memByte uc) (start, List.replicate size value) :=
  @fillLoop_spec U _ start size _ 0 value uc (by omega) hmapped

/-! ## Erasing -/

/-- The addresses that are erased when a sector is. -/
def erasePlacements (offset size : ℕ) (starts : List U32) : List (Placement U8) :=
  starts.map fun start => (start.toNat + offset, List.replicate size erased)

/-- If the sector is mapped under each address, it is erased under each. -/
lemma fillAll_spec {offset size : ℕ} {starts : List U32} {uc uc' : U} {success : Bool}
    (hmapped : ∀ start ∈ starts, ∀ x, start.toNat + offset ≤ x → x < start.toNat + offset + size →
      (memByte uc x).isSome = true)
    (h : fillAll uc offset size starts = some (success, uc')) :
    success = true ∧
      memByte uc' = overlayAll (memByte uc) (erasePlacements offset size starts) := by
  induction starts generalizing uc with
  | nil =>
    obtain ⟨rfl, rfl⟩ := Prod.mk.inj (Option.some.inj h)
    exact ⟨rfl, rfl⟩
  | cons start starts ih =>
    obtain ⟨uc₁, hfill, hbytes⟩ := fill_spec erased (hmapped start List.mem_cons_self)
    have hmapped₁ : ∀ s ∈ starts, ∀ x, s.toNat + offset ≤ x → x < s.toNat + offset + size →
        (memByte uc₁ x).isSome = true := by
      intro s hs x hx hlt
      rw [hbytes]
      exact isSome_overlay (hmapped s (List.mem_cons_of_mem _ hs) x hx hlt)
    unfold fillAll at h
    split_ifs at h
    rw [hfill] at h
    obtain ⟨hsuccess, hbytes'⟩ := ih hmapped₁ h
    refine ⟨hsuccess, ?_⟩
    rw [hbytes', hbytes]
    rfl

end Fill

/-- A sector lies in the two banks. -/
lemma sectorRange_le {registerSector offset size : ℕ}
    (h : sectorRange registerSector = some (offset, size)) : offset + size ≤ 0x200000 := by
  unfold sectorRange at h
  dsimp only at h
  split_ifs at h <;> simp only [Option.some.injEq, Prod.mk.injEq] at h <;> omega

/-! ## What stays mapped -/

section Mapped

variable {U : Type} [MappableEngine U]

lemma isSome_fillLoop (start size fuel offset : ℕ) (value : U8) (uc : U) (x : ℕ) :
    (memByte (fillLoop start size value fuel offset uc).2 x).isSome = (memByte uc x).isSome := by
  induction fuel generalizing offset uc with
  | zero => rfl
  | succ fuel ih =>
    unfold fillLoop
    split_ifs with hoffset
    · dsimp only
      split
      next uc₁ hwrite =>
        rw [ih]
        exact isSome_memByte_of_memWrite (p := (_, _)) hwrite x
      · rfl
    · rfl

/-- Erasing maps and unmaps nothing, also when it fails half-way. -/
lemma isSome_fillAll {offset size : ℕ} {starts : List U32} {uc uc' : U} {success : Bool}
    (h : fillAll uc offset size starts = some (success, uc')) (x : ℕ) :
    (memByte uc' x).isSome = (memByte uc x).isSome := by
  induction starts generalizing uc with
  | nil =>
    obtain ⟨-, rfl⟩ := Prod.mk.inj (Option.some.inj h)
    rfl
  | cons start starts ih =>
    unfold fillAll at h
    split_ifs at h
    have hloop := isSome_fillLoop (start.toNat + offset) size size 0 erased uc x
    split at h
    next uc₁ hfill =>
      have hsame : (memByte uc₁ x).isSome = (memByte uc x).isSome := by
        unfold fill at hfill
        rwa [hfill] at hloop
      rw [ih h, hsame]
    next uc₁ hfill =>
      obtain ⟨-, rfl⟩ := Prod.mk.inj (Option.some.inj h)
      unfold fill at hfill
      rwa [hfill] at hloop

end Mapped

end Flash

end Stm32Emulator
