import Stm32Emulator.InternalFlash.Aliases

/-!
# The bytes of a sector

Each of the two banks has four sectors of 16 KiB, one of 64 KiB and seven of 128 KiB.  Erasing a
sector sets its bytes, under each address of the flash, and no others.  A write of the control
register that erases no sector leaves the memory as it is (`Flash.sector_erase`).
-/

namespace Stm32Emulator

open MemoryImage

variable {U D : Type} [UnicornEngine U]

/-! ## The layout -/

/-- The sizes of the sectors of a bank, in order. -/
def sectorSizes : List ℕ := List.replicate 4 0x4000 ++ [0x10000] ++ List.replicate 7 0x20000

def bankSize : ℕ := sectorSizes.sum

/-- The offset and the size of a sector; the numbers of the second bank start at sixteen. -/
def sectorAt (number : ℕ) : Option (ℕ × ℕ) :=
  if number < 32 then
    sectorSizes[number % 16]?.map fun size =>
      (number / 16 * bankSize + (sectorSizes.take (number % 16)).sum, size)
  else none

/-- All of the flash is mapped and inside of the address space, under each address. -/
structure FlashConfig.MappedInSpace (config : FlashConfig D) (m : ℕ → Option U8) : Prop where
  mapped : config.Mapped m
  fits : ∀ base ∈ config.bases, base.toNat + config.size.toNat ≤ 2 ^ 32

namespace Flash

/-- An address in one of the mappings of some bytes of the flash. -/
def InSector (config : FlashConfig D) (offset size x : ℕ) : Prop :=
  ∃ base ∈ config.bases, base.toNat + offset ≤ x ∧ x < base.toNat + offset + size

instance (config : FlashConfig D) (offset size x : ℕ) : Decidable (InSector config offset size x) :=
  inferInstanceAs (Decidable (∃ base ∈ config.bases, _))

/-- The ranges that the code computes are the sectors of the layout. -/
lemma sectorRange_eq (number : ℕ) (h : number < 32) : sectorRange number = sectorAt number := by
  revert number
  decide

lemma size_pos_of_sectorRange {number offset size : ℕ}
    (h : sectorRange number = some (offset, size)) :
    0 < size := by
  unfold sectorRange at h
  dsimp only at h
  split_ifs at h <;> simp only [Option.some.injEq, Prod.mk.injEq] at h <;> omega

lemma sectorNumber_lt (value : U32) : sectorNumber value < 32 := by
  have hmask : (value &&& crSnbMask).toNat ≤ crSnbMask.toNat := by
    rw [BitVec.toNat_and]
    exact Nat.and_le_right
  have hvalue : crSnbMask.toNat = 248 := rfl
  unfold sectorNumber
  rw [BitVec.toNat_ushiftRight, Nat.shiftRight_eq_div_pow]
  omega

/-! ## Erasing -/

/-- The sums of the starts and the offset are addresses, so that there is a result. -/
lemma exists_fillAll {offset : ℕ} (size : ℕ) {starts : List U32}
    (hfits : ∀ start ∈ starts, start.toNat + offset < 2 ^ 32)
    (uc : U) : ∃ result, fillAll uc offset size starts = some result := by
  induction starts generalizing uc with
  | nil => exact ⟨_, rfl⟩
  | cons start starts ih =>
    unfold fillAll
    rw [if_neg (not_le.mpr (hfits start List.mem_cons_self))]
    cases hfill : fill uc (start.toNat + offset) size erased with
    | mk success uc₁ =>
      cases success with
      | true => exact ih (fun s hs => hfits s (List.mem_cons_of_mem _ hs)) uc₁
      | false => exact ⟨_, rfl⟩

/-- **Erasing a sector** sets its bytes and no others. -/
lemma exists_eraseSector {config : FlashConfig D} {flash : Flash D} {uc : U}
    {number offset size : ℕ} (hsize : config.size = 0x200000)
    (hinternal : flash.internal = some config.toInternalFlashConfig)
    (hmapped : config.MappedInSpace (memByte uc))
    (hrange : sectorRange number = some (offset, size)) :
    ∃ uc', flash.eraseSector uc number = some (true, uc') ∧
      ∀ x, memByte uc' x = if InSector config offset size x then some erased else memByte uc x := by
  have hfit : offset + size ≤ config.size.toNat := by
    rw [hsize]
    exact sectorRange_le hrange
  have hpos := size_pos_of_sectorRange hrange
  have hstarts : ∀ base ∈ config.bases, base.toNat + offset < 2 ^ 32 := by
    intro base hbase
    have hfits := hmapped.fits base hbase
    omega
  obtain ⟨⟨success, uc'⟩, hfill⟩ := exists_fillAll size hstarts uc
  have hsector : ∀ base ∈ config.bases, ∀ x, base.toNat + offset ≤ x →
      x < base.toNat + offset + size →
      (memByte uc x).isSome = true := by
    intro base hbase x hx hlt
    have hx' := hmapped.mapped base hbase (x - base.toNat) (by omega)
    rwa [Nat.add_sub_cancel' (by omega)] at hx'
  obtain ⟨rfl, hbytes⟩ := fillAll_spec hsector hfill
  refine ⟨uc', ?_, fun x => ?_⟩
  · unfold eraseSector
    rw [hinternal, hrange]
    exact hfill
  · have hblocks : erasePlacements offset size config.bases =
        (config.bases.map fun base => base.toNat + offset).map fun a =>
          (a, List.replicate size erased) := by
      unfold erasePlacements
      rw [List.map_map]
      rfl
    rw [hbytes, hblocks, overlayAll_blocks]
    refine if_congr ⟨?_, ?_⟩ rfl rfl
    · rintro ⟨_, ha, hx⟩
      obtain ⟨base, hbase, rfl⟩ := List.mem_map.mp ha
      exact ⟨base, hbase, hx⟩
    · rintro ⟨base, hbase, hx⟩
      exact ⟨_, List.mem_map_of_mem hbase, hx⟩

/-! ## Writes of the control register -/

/-- The flag of an operation that failed. -/
def OperationError (flash : Flash D) : Prop := flash.sr &&& srOperr ≠ 0

lemma operationError_noteResult {flash : Flash D} {success : Bool}
    (h : success = false ∨ flash.OperationError) : (flash.noteResult success).OperationError := by
  unfold noteResult
  cases success with
  | true => exact h.resolve_left (by decide)
  | false =>
    have habsorb : (flash.sr ||| srOperr) &&& srOperr = srOperr := by
      ext i hi
      simpa using Or.inr
    unfold OperationError
    rw [if_neg (by decide), habsorb]
    decide

lemma operationError_persistOnWrite {flash : Flash D} (h : flash.OperationError) (uc : U) (d : D)
    (wasLocked : Bool) (value : U32) :
    (flash.persistOnWrite uc d wasLocked value).1.OperationError := by
  unfold persistOnWrite
  split_ifs
  · exact operationError_noteResult (Or.inr h)
  · exact h

/-- A write that starts to erase. -/
lemma exists_write_of_erase {flash : Flash D} {uc uc' : U} {value : U32} {success : Bool}
    (hopen : ¬ flash.Locked) (hstarts : StartsErase value)
    (herase : flash.eraseSector uc (sectorNumber value) = some (success, uc')) (d : D) :
    ∃ flash' d', flash.write uc d 0x10 value = some (flash', uc', d') ∧
      (success = false → flash'.OperationError) := by
  have hlocked : (flash.cr &&& crLock != 0#32) = false := by simpa [Locked] using hopen
  have hsame : (flash.storeCr value).eraseSector uc ((value &&& crSnbMask) >>> 3).toNat =
      some (success, uc') :=
    herase
  have honWrite : (flash.storeCr value).eraseOnWrite uc false value =
      some ((flash.storeCr value).noteResult success, uc') := by
    unfold eraseOnWrite
    rw [if_pos ⟨rfl, hstarts⟩]
    rw [hsame]
    rfl
  have hwrite : flash.write uc d 0x10 value =
      some ((((flash.storeCr value).noteResult success).persistOnWrite uc' d false value).1, uc',
        (((flash.storeCr value).noteResult success).persistOnWrite uc' d false value).2) := by
    change flash.writeControl uc d value = _
    unfold writeControl
    dsimp only
    rw [hlocked, if_neg (by rintro ⟨h, -⟩; cases h), honWrite]
    rfl
  refine ⟨_, _, hwrite, fun hfailed => ?_⟩
  exact operationError_persistOnWrite (operationError_noteResult (Or.inl hfailed)) uc' d false value

/-- A write that does not. -/
lemma exists_write_of_keep {flash : Flash D} {value : U32} (h : flash.Locked ∨ ¬ StartsErase value)
    (uc : U) (d : D) : ∃ flash' d', flash.write uc d 0x10 value = some (flash', uc, d') := by
  change ∃ flash' d', flash.writeControl uc d value = some (flash', uc, d')
  unfold writeControl
  dsimp only
  split_ifs with hrefused
  · exact ⟨_, _, rfl⟩
  · have honWrite : (flash.storeCr value).eraseOnWrite uc (flash.cr &&& crLock != 0#32) value =
        some (flash.storeCr value, uc) := by
      unfold eraseOnWrite
      refine if_neg ?_
      rintro ⟨hopen, hstarts⟩
      rcases h with hlocked | hno
      · rw [bne_iff_ne.mpr hlocked] at hopen
        cases hopen
      · exact hno hstarts
    rw [honWrite]
    exact ⟨_, _, rfl⟩

/-- There is no configuration, or the number is none of a sector. -/
lemma eraseSector_of_rejected {flash : Flash D} {number : ℕ}
    (h : flash.internal = none ∨ sectorRange number = none) (uc : U) :
    flash.eraseSector uc number = some (false, uc) := by
  unfold eraseSector
  rcases h with hnone | hnone
  · rw [hnone]
  · rw [hnone]
    cases flash.internal <;> rfl

/-- **Erasing touches its sector only.**  A write of the control register that starts to erase a
sector, while the register is unlocked and an accepted flash is mapped, succeeds and sets the bytes
of the sector under each address of the flash, and no others.  Any other write of the control
register leaves the memory as it is, and if it starts to erase what is no sector, or no
configuration is there, it sets the error flag. -/
theorem sector_erase (flash : Flash D) (uc : U) (d : D) (value : U32) :
    (∀ (config : FlashConfig D) (offset size : ℕ), validateConfig config = .ok () →
      flash.internal = some config.toInternalFlashConfig → config.MappedInSpace (memByte uc) →
      ¬ flash.Locked → StartsErase value → sectorAt (sectorNumber value) = some (offset, size) →
      ∃ flash' uc' d', flash.write uc d 0x10 value = some (flash', uc', d') ∧
        ∀ x, memByte uc' x = if InSector config offset size x then some 0xff else memByte uc x) ∧
    (flash.Locked ∨ ¬ StartsErase value ∨ sectorAt (sectorNumber value) = none ∨
      flash.internal = none →
      ∃ flash' d', flash.write uc d 0x10 value = some (flash', uc, d') ∧
        (¬ flash.Locked → StartsErase value → flash'.OperationError)) := by
  rw [← sectorRange_eq _ (sectorNumber_lt value)]
  refine ⟨fun config offset size haccepted hinternal hmapped hopen hstarts hrange =>
    ?_, fun h => ?_⟩
  · obtain ⟨uc', herase, hbytes⟩ :=
      exists_eraseSector (size_of_validateConfig haccepted) hinternal hmapped hrange
    obtain ⟨flash', d', hwrite, -⟩ := exists_write_of_erase hopen hstarts herase d
    exact ⟨flash', uc', d', hwrite, hbytes⟩
  · by_cases hkeep : flash.Locked ∨ ¬ StartsErase value
    · obtain ⟨flash', d', hwrite⟩ := exists_write_of_keep hkeep uc d
      refine ⟨flash', d', hwrite, fun hopen hstarts => ?_⟩
      exact absurd hkeep (not_or.mpr ⟨hopen, not_not.mpr hstarts⟩)
    · obtain ⟨hopen, hstarts⟩ := not_or.mp hkeep
      have hrejected : flash.internal = none ∨ sectorRange (sectorNumber value) = none := by tauto
      obtain ⟨flash', d', hwrite, herror⟩ :=
        exists_write_of_erase hopen (not_not.mp hstarts) (eraseSector_of_rejected hrejected uc) d
      exact ⟨flash', d', hwrite, fun _ _ => herror rfl⟩

/-- The first sector of the second bank of a flash with an alias: its bytes are erased under both
addresses. -/
theorem sector_erase_sample : ∃ (uc uc' : RegisterFile) (flash' : Flash Unit),
    ({ Flash.new (some sampleFlash.toInternalFlashConfig) with
      cr := 0, cr_strt := rfl } : Flash Unit).write uc () 0x10 0x10082 = some (flash', uc', ()) ∧
      memByte uc 0x08100000 = some 0x12 ∧ memByte uc' 0x08100000 = some 0xff ∧
      memByte uc' 0x00300000 = some 0xff ∧ memByte uc' 0x080fffff = some 0x12 := by
  have hsize : sampleFlash.size.toNat = 0x200000 := rfl
  let uc : RegisterFile := ⟨fun _ => 0, fun _ => some 0x12⟩
  have hmapped : sampleFlash.MappedInSpace (memByte uc) := by
    refine ⟨fun _ _ _ _ => rfl, fun base hbase => ?_⟩
    rw [hsize]
    rcases List.mem_cons.mp hbase with rfl | hbase
    · decide
    · rw [List.mem_singleton.mp hbase]
      decide
  have hopen :
      ¬ ({ Flash.new (some sampleFlash.toInternalFlashConfig) with cr := 0, cr_strt := rfl } :
      Flash Unit).Locked := fun h => h (by decide)
  obtain ⟨flash', uc', d', hwrite, hbytes⟩ :=
    (sector_erase _ uc () 0x10082).1 sampleFlash 0x100000 0x4000 sampleFlash_accepted rfl hmapped
      hopen ⟨by decide, by decide⟩ (by decide)
  refine ⟨uc, uc', flash', hwrite, rfl, ?_, ?_, ?_⟩
  · rw [hbytes, if_pos ⟨0x08000000, List.mem_cons_self, by decide⟩]
  · rw [hbytes, if_pos ⟨0x00200000, List.mem_cons_of_mem _ List.mem_cons_self, by decide⟩]
  · rw [hbytes, if_neg]
    · rfl
    · rintro ⟨base, hbase, hle, hlt⟩
      rcases List.mem_cons.mp hbase with rfl | hbase
      · exact absurd hle (by decide)
      · rw [List.mem_singleton.mp hbase] at hlt
        exact absurd hlt (by decide)

end Flash

end Stm32Emulator
