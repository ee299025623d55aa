import Stm32Emulator.Engine.RegisterFile
import Stm32Emulator.Foundation.MemoryImage

/-!
# Mapping and writing memory

The memory of an engine is an image (`MemoryImage`): mapping a region and writing bytes are
placements on it.  A write succeeds if and only if its range is mapped, and it maps nothing.
-/

namespace Stm32Emulator

open MemoryImage

/-- An engine in which memory can be mapped. -/
class MappableEngine (U : Type) extends UnicornEngine U where
  /-- `mem_map`, `none` when it fails. -/
  memMap : U → ℕ → ℕ → Option U
  /-- Memory is mapped as zeros. -/
  memByte_memMap : ∀ u u' a n b, memMap u a n = some u' →
    memByte u' b = if a ≤ b ∧ b < a + n then some 0 else memByte u b
  /-- A write to memory that is not mapped fails. -/
  mapped_of_memWrite : ∀ u u' a bs, memWrite u a bs = some u' →
    ∀ i < bs.length, (memByte u (a + i)).isSome

export MappableEngine (memMap)

/-- The register file maps memory wherever it is asked to. -/
instance : MappableEngine RegisterFile where
  memMap f a n := some { f with mem := fun b => if a ≤ b ∧ b < a + n then some 0 else f.mem b }
  memByte_memMap f f' a n b h := by
    obtain rfl := Option.some.inj h
    rfl
  mapped_of_memWrite f f' a bs h := by
    change RegisterFile.writeBytes f a bs = some f' at h
    unfold RegisterFile.writeBytes at h
    split at h
    · next hall =>
      intro i hi
      exact List.all_eq_true.mp hall i (List.mem_range.mpr hi)
    · cases h

/-- Writing one placement after the other. -/
def memWriteAll {U : Type} [UnicornEngine U] (uc : U) (ps : List (Placement U8)) : Option U :=
  ps.foldlM (fun uc p => memWrite uc p.1 p.2) uc

section Image

variable {U : Type} [UnicornEngine U] {uc uc' : U} {p : Placement U8} {ps : List (Placement U8)}

/-- A write is a placement. -/
lemma memByte_of_memWrite (h : memWrite uc p.1 p.2 = some uc') :
    memByte uc' = overlay (memByte uc) p := by
  funext x
  exact UnicornEngine.memByte_memWrite _ _ _ _ _ h

lemma memByte_of_memWriteAll (h : memWriteAll uc ps = some uc') :
    memByte uc' = overlayAll (memByte uc) ps := by
  induction ps generalizing uc with
  | nil =>
    obtain rfl := Option.some.inj h
    rfl
  | cons p ps ih =>
    obtain ⟨uc₁, hp, hps⟩ := Option.bind_eq_some_iff.mp h
    rw [overlayAll_cons, ← memByte_of_memWrite hp]
    exact ih hps

/-- Bytes are read if their range is mapped. -/
lemma memRead_eq_some {addr len : ℕ} (h : ∀ i < len, (memByte uc (addr + i)).isSome) :
    ∃ bs, memRead uc addr len = some bs := by
  unfold memRead
  induction len with
  | zero => exact ⟨[], rfl⟩
  | succ len ih =>
    obtain ⟨bs, hbs⟩ := ih fun i hi => h i (Nat.lt_succ_of_lt hi)
    obtain ⟨b, hb⟩ := Option.isSome_iff_exists.mp (h len (Nat.lt_succ_self len))
    refine ⟨bs ++ [b], ?_⟩
    rw [List.range_succ, List.mapM_append, hbs]
    simp [hb]

/-- What is read are the bytes of the range. -/
lemma memRead_spec {addr len : ℕ} {bs : List U8} (h : memRead uc addr len = some bs) :
    bs.length = len ∧ ∀ i < len, memByte uc (addr + i) = bs[i]? := by
  unfold memRead at h
  induction len generalizing bs with
  | zero =>
    obtain rfl := Option.some.inj h
    exact ⟨rfl, fun i hi => absurd hi (Nat.not_lt_zero i)⟩
  | succ len ih =>
    rw [List.range_succ, List.mapM_append] at h
    obtain ⟨front, hfront, h⟩ := Option.bind_eq_some_iff.mp h
    obtain ⟨last, hlast, h⟩ := Option.bind_eq_some_iff.mp h
    obtain rfl := Option.some.inj h
    obtain ⟨b, hb, rfl⟩ : ∃ b, memByte uc (addr + len) = some b ∧ last = [b] := by
      rw [List.mapM_cons] at hlast
      obtain ⟨b, hb, hlast⟩ := Option.bind_eq_some_iff.mp hlast
      exact ⟨b, hb, (Option.some.inj hlast).symm⟩
    obtain ⟨hlength, hbytes⟩ := ih hfront
    refine ⟨by simp [hlength], fun i hi => ?_⟩
    rcases Nat.lt_succ_iff_lt_or_eq.mp hi with hlt | rfl
    · rw [hbytes i hlt, List.getElem?_append_left (by omega)]
    · rw [hb, List.getElem?_append_right (by omega), hlength, Nat.sub_self]
      rfl

end Image

section Mapped

variable {U : Type} [MappableEngine U] {uc uc' : U} {p : Placement U8} {ps : List (Placement U8)}

/-- A write succeeds if and only if its range is mapped. -/
lemma memWrite_isSome_iff :
    (memWrite uc p.1 p.2).isSome = true ↔ ∀ x, Covers p x → (memByte uc x).isSome = true := by
  constructor
  · rintro h x ⟨hle, hlt⟩
    obtain ⟨uc', huc⟩ := Option.isSome_iff_exists.mp h
    have hmapped := MappableEngine.mapped_of_memWrite _ _ _ _ huc (x - p.1) (by omega)
    rwa [Nat.add_sub_cancel' hle] at hmapped
  · intro h
    refine UnicornEngine.memWrite_isSome _ _ _ fun i hi => h _ ?_
    exact ⟨Nat.le_add_right _ _, by omega⟩

/-- A write maps nothing. -/
lemma isSome_memByte_of_memWrite (h : memWrite uc p.1 p.2 = some uc') (x : ℕ) :
    (memByte uc' x).isSome = (memByte uc x).isSome := by
  rw [memByte_of_memWrite h]
  by_cases hx : Covers p x
  · rw [isSome_overlay_of_covers hx]
    exact (memWrite_isSome_iff.mp (by rw [h]; rfl) x hx).symm
  · rw [overlay_of_not_covers hx]

lemma isSome_memByte_of_memWriteAll (h : memWriteAll uc ps = some uc') (x : ℕ) :
    (memByte uc' x).isSome = (memByte uc x).isSome := by
  induction ps generalizing uc with
  | nil =>
    obtain rfl := Option.some.inj h
    rfl
  | cons p ps ih =>
    obtain ⟨uc₁, hp, hps⟩ := Option.bind_eq_some_iff.mp h
    rw [ih hps, isSome_memByte_of_memWrite hp]

/-- Writes succeed if and only if all their ranges are mapped. -/
lemma memWriteAll_isSome_iff :
    (memWriteAll uc ps).isSome = true ↔
      ∀ p ∈ ps, ∀ x, Covers p x → (memByte uc x).isSome = true := by
  induction ps generalizing uc with
  | nil => simp [memWriteAll]
  | cons p ps ih =>
    rw [List.forall_mem_cons, ← memWrite_isSome_iff]
    have hcons : memWriteAll uc (p :: ps) =
        (memWrite uc p.1 p.2).bind fun uc => memWriteAll uc ps := rfl
    rw [hcons]
    cases hp : memWrite uc p.1 p.2 with
    | none => simp
    | some uc₁ => simp [ih, isSome_memByte_of_memWrite hp]

end Mapped

end Stm32Emulator
