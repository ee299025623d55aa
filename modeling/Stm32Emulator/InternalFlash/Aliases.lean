import Stm32Emulator.InternalFlash.Boot
import Stm32Emulator.InternalFlash.LockProtocol

/-!
# The flash under its aliases

The flash and its aliases are separate memories.  Erasing a sector and restoring the backing file
treat them alike; a store of the guest goes to one of them only.  They agree as long as the start
placed the same bytes in all of them and no store changes a byte of one of several
(`Flash.aliases_coherent`).
-/

namespace Stm32Emulator

open MemoryImage

variable {U D : Type}

/-- What the guest does to the flash: a register write, or a store. -/
inductive ProgramAction where
  | write (offset value : U32)
  | store (addr : ℕ) (bytes : List U8)

namespace Flash

/-- One action of the guest on the interface, the memory and the outside world. -/
def programStep [UnicornEngine U] (s : Flash D × U × D) : ProgramAction → Option (Flash D × U × D)
  | .write offset value => s.1.write s.2.1 s.2.2 offset value
  | .store addr bytes => (memWrite s.2.1 addr bytes).map fun uc => (s.1, uc, s.2.2)

lemma programStep_store [UnicornEngine U] {uc uc' : U} {addr : ℕ} {bytes : List U8}
    (flash : Flash D) (d : D) (h : memWrite uc addr bytes = some uc') :
    programStep (flash, uc, d) (.store addr bytes) = some (flash, uc', d) := by
  change (memWrite uc addr bytes).map _ = _
  rw [h]
  rfl

end Flash

namespace FlashConfig

/-- The addresses at which the flash is found. -/
def bases (config : FlashConfig D) : List U32 := config.start :: config.aliases

/-- Two of these ranges are the same or lie apart. -/
def Apart (config : FlashConfig D) : Prop :=
  ∀ b ∈ config.bases, ∀ b' ∈ config.bases,
    b = b' ∨ b.toNat + config.size.toNat ≤ b'.toNat ∨ b'.toNat + config.size.toNat ≤ b.toNat

/-- An image holds the same bytes under each address of the flash. -/
def Coherent (config : FlashConfig D) (m : ℕ → Option U8) : Prop :=
  ∀ base ∈ config.aliases, ∀ k < config.size.toNat, m (base.toNat + k) = m (config.start.toNat + k)

/-- All of the flash is mapped, under each address. -/
def Mapped (config : FlashConfig D) (m : ℕ → Option U8) : Prop :=
  ∀ base ∈ config.bases, ∀ k < config.size.toNat, (m (base.toNat + k)).isSome = true

/-- The regions cover the flash, under each address. -/
def CoveredBy (config : FlashConfig D) (regions : List Region) : Prop :=
  ∀ base ∈ config.bases, ∀ k < config.size.toNat, ∃ region ∈ regions,
    region.start.toNat ≤ base.toNat + k ∧
      base.toNat + k < region.start.toNat + roundUp region.size.toNat 4096

lemma Coherent.bases {config : FlashConfig D} {m : ℕ → Option U8} (h : config.Coherent m)
    {base : U32} (hbase : base ∈ config.bases) {k : ℕ} (hk : k < config.size.toNat) :
    m (base.toNat + k) = m (config.start.toNat + k) := by
  rcases List.mem_cons.mp hbase with rfl | hbase
  · rfl
  · exact h base hbase k hk

end FlashConfig

namespace Flash

/-! ## What keeps the mappings alike -/

lemma size_of_validateConfig {config : FlashConfig D} (h : validateConfig config = .ok ()) :
    config.size = 0x200000 := by
  unfold validateConfig at h
  by_contra hsize
  rw [if_neg (by cases config.model; simp), if_pos hsize] at h
  cases h

/-- Erasing a sector under each address keeps the mappings alike. -/
lemma coherent_erase {config : FlashConfig D} {m : ℕ → Option U8} (hapart : config.Apart)
    (h : config.Coherent m) {offset size : ℕ} (hfit : offset + size ≤ config.size.toNat) :
    config.Coherent (overlayAll m (erasePlacements offset size config.bases)) := by
  have hread : ∀ base ∈ config.bases, ∀ k < config.size.toNat,
      overlayAll m (erasePlacements offset size config.bases) (base.toNat + k) =
        if offset ≤ k ∧ k < offset + size then some erased else m (base.toNat + k) := by
    intro base hbase k hk
    have hcopies : erasePlacements offset size config.bases =
        (config.bases.map fun b => b.toNat + offset).map fun a =>
          (a, List.replicate size erased) := by
      unfold erasePlacements
      rw [List.map_map]
      rfl
    split_ifs with hin
    · obtain ⟨i, rfl⟩ : ∃ i, k = offset + i := ⟨k - offset, by omega⟩
      rw [hcopies, ← Nat.add_assoc, overlayAll_copies (List.mem_map_of_mem hbase)]
      · rw [List.getElem?_replicate, if_pos (by omega)]
      · rw [List.length_replicate]
        omega
      · intro a ha
        obtain ⟨b, hb, rfl⟩ := List.mem_map.mp ha
        rw [List.length_replicate]
        rcases hapart b hb base hbase with rfl | hlt | hlt
        · exact Or.inl rfl
        · exact Or.inr (Or.inl (by omega))
        · exact Or.inr (Or.inr (by omega))
    · apply overlayAll_of_not_covers
      rintro p hp ⟨hle, hlt⟩
      obtain ⟨b, hb, rfl⟩ := List.mem_map.mp hp
      simp only [List.length_replicate] at hle hlt
      rcases hapart b hb base hbase with rfl | hfar | hfar
      · exact hin ⟨by omega, by omega⟩
      · omega
      · omega
  intro base hbase k hk
  rw [hread base (List.mem_cons_of_mem _ hbase) k hk, hread config.start List.mem_cons_self k hk,
    h base hbase k hk]

variable [MappableEngine U]

/-- An action keeps the configuration, and what is mapped. -/
lemma programStep_frame {s s' : Flash D × U × D} {a : ProgramAction}
    {config : InternalFlashConfig D} (hinternal : s.1.internal = some config)
    (h : programStep s a = some s') :
    s'.1.internal = some config ∧ ∀ x, (memByte s'.2.1 x).isSome = (memByte s.2.1 x).isSome := by
  cases a with
  | store addr bytes =>
    obtain ⟨uc, hwrite, rfl⟩ := Option.map_eq_some_iff.mp h
    exact ⟨hinternal, isSome_memByte_of_memWrite (p := (addr, bytes)) hwrite⟩
  | write offset value =>
    obtain ⟨flash, uc, d⟩ := s
    obtain ⟨flash', uc', d'⟩ := s'
    obtain ⟨hsame, hmemory⟩ := write_memory h
    refine ⟨hsame.trans hinternal, fun x => ?_⟩
    rcases hmemory with rfl | ⟨success, sector, herase⟩
    · rfl
    · rcases eraseSector_eq_some hinternal herase with rfl | ⟨offset, size, -, hfill⟩
      · rfl
      · exact isSome_fillAll hfill x

/-- A store leaves the bytes of the flash as they are, if the flash is found under several
addresses. -/
def StoresKeepFlash (config : FlashConfig D) (s : Flash D × U × D) (a : ProgramAction) : Prop :=
  ∀ addr bytes, a = .store addr bytes → (∀ base ∈ config.aliases, base = config.start) ∨
    ∀ base ∈ config.bases, ∀ k < config.size.toNat, ∀ i < bytes.length, addr + i = base.toNat + k →
      bytes[i]? = memByte s.2.1 (base.toNat + k)

/-- The mappings stay alike. -/
lemma coherent_step {config : FlashConfig D} {s s' : Flash D × U × D} {a : ProgramAction}
    (hsize : config.size = 0x200000) (hapart : config.Apart)
    (hinternal : s.1.internal = some config.toInternalFlashConfig)
    (hmapped : config.Mapped (memByte s.2.1)) (hkeep : StoresKeepFlash config s a)
    (h : config.Coherent (memByte s.2.1)) (hstep : programStep s a = some s') :
    config.Coherent (memByte s'.2.1) := by
  cases a with
  | store addr bytes =>
    obtain ⟨uc, hwrite, rfl⟩ := Option.map_eq_some_iff.mp hstep
    have hbytes := memByte_of_memWrite (p := (addr, bytes)) hwrite
    dsimp only
    rw [hbytes]
    rcases hkeep addr bytes rfl with hsame | hkept
    · intro base hbase k hk
      rw [hsame base hbase]
    · have hread : ∀ base ∈ config.bases, ∀ k < config.size.toNat,
          overlay (memByte s.2.1) (addr, bytes) (base.toNat + k) =
            memByte s.2.1 (base.toNat + k) := by
        intro base hbase k hk
        by_cases hcovers : Covers (addr, bytes) (base.toNat + k)
        · obtain ⟨hle, hlt⟩ := hcovers
          rw [overlay_of_covers ⟨hle, hlt⟩]
          exact hkept base hbase k hk _ (by dsimp only at hle hlt ⊢; omega)
            (by dsimp only at hle ⊢; omega)
        · exact overlay_of_not_covers hcovers
      intro base hbase k hk
      rw [hread base (List.mem_cons_of_mem _ hbase) k hk,
        hread config.start List.mem_cons_self k hk]
      exact h base hbase k hk
  | write offset value =>
    obtain ⟨flash, uc, d⟩ := s
    obtain ⟨flash', uc', d'⟩ := s'
    obtain ⟨-, rfl | ⟨success, sector, herase⟩⟩ := write_memory hstep
    · exact h
    · rcases eraseSector_eq_some hinternal herase with rfl | ⟨offset, size, hrange, hfill⟩
      · exact h
      · have hfit : offset + size ≤ config.size.toNat := by
          rw [hsize]
          exact sectorRange_le hrange
        have hsector : ∀ base ∈ config.bases, ∀ x, base.toNat + offset ≤ x →
            x < base.toNat + offset + size → (memByte uc x).isSome = true := by
          intro base hbase x hx hlt
          have hx' := hmapped base hbase (x - base.toNat) (by omega)
          rwa [Nat.add_sub_cancel' (by omega)] at hx'
        obtain ⟨-, hbytes⟩ := fillAll_spec hsector hfill
        dsimp only
        rw [hbytes]
        exact coherent_erase hapart h hfit

/-- What the regions cover is mapped at the start. -/
lemma mapped_of_coveredBy {files : String → Option (List U8)} {config : MemoryConfig D}
    {flash : FlashConfig D} {file : FileRead} {uc uc' : U}
    (hcovered : flash.CoveredBy config.regions)
    (hboot : loadMemoryRegions files config file uc = some uc') : flash.Mapped (memByte uc') := by
  intro base hbase k hk
  obtain ⟨region, hregion, hle, hlt⟩ := hcovered base hbase k hk
  rw [memByte_of_loadMemoryRegions hboot, isSome_overlayAll]
  obtain ⟨p, hp, hcovers⟩ := exists_placement_of_mem_regions files hregion hle hlt
  exact Or.inr ⟨p, List.mem_append_left _ hp, hcovers⟩

/-- **The aliases read alike.**  The configuration is accepted, its ranges are covered by the
regions and do not overlap in part, and what is placed at the start is the same under each address.
Then the bytes are the same under each address in every state of a run whose stores change no byte
of the flash. -/
theorem aliases_coherent {files : String → Option (List U8)} {config : MemoryConfig D}
    {flash : FlashConfig D} {file : FileRead} {uc₀ uc : U} {d : D} {as : List ProgramAction}
    {s : Flash D × U × D} (haccepted : validateConfig flash = .ok ())
    (hcovered : flash.CoveredBy config.regions) (hapart : flash.Apart)
    (hfresh : ∀ x, memByte uc₀ x = none)
    (himage : flash.Coherent (overlayAll (fun _ => none) (config.placements files file)))
    (hboot : loadMemoryRegions files config file uc₀ = some uc)
    (hrun : Run (guardedStep (StoresKeepFlash flash) (stepRel programStep))
      (Flash.new (some flash.toInternalFlashConfig), uc, d) as s) :
    flash.Coherent (memByte s.2.1) := by
  have hinvariant : s.1.internal = some flash.toInternalFlashConfig ∧ flash.Mapped (memByte s.2.1) ∧
      flash.Coherent (memByte s.2.1) := by
    refine hrun.invariant_state (I := fun s => s.1.internal = some flash.toInternalFlashConfig ∧
      flash.Mapped (memByte s.2.1) ∧ flash.Coherent (memByte s.2.1)) ?_ ?_
    · have hnone : memByte uc₀ = fun _ => none := funext hfresh
      refine ⟨rfl, mapped_of_coveredBy hcovered hboot, ?_⟩
      dsimp only
      rwa [memByte_of_loadMemoryRegions hboot, hnone]
    · rintro s s' a ⟨hinternal, hmapped, hcoherent⟩ ⟨hkeep, hstep⟩
      obtain ⟨hinternal', hsame⟩ := programStep_frame hinternal hstep
      refine ⟨hinternal', fun base hbase k hk => ?_, ?_⟩
      · rw [hsame]
        exact hmapped base hbase k hk
      · exact coherent_step (size_of_validateConfig haccepted) hapart hinternal hmapped
          hkeep hcoherent hstep
  exact hinvariant.2.2

/-! ## A flash with one alias -/

/-- Two mebibytes of flash, and an alias below it. -/
def sampleFlash : FlashConfig Unit where
  start := 0x08000000
  aliases := [0x00200000]
  persistent := none
  model := .stm32F7DualBank
  size := 0x200000

def sampleMemory : MemoryConfig Unit where
  regions := [⟨0x00200000, 0x200000, none⟩, ⟨0x08000000, 0x200000, none⟩]
  internalFlash := some sampleFlash
  patches := []

def sampleEngine : RegisterFile := ⟨fun _ => 0, fun _ => none⟩

lemma sampleMemory_placements : sampleMemory.placements (fun _ => none) .notFound =
    [(0x00200000, List.replicate 0x200000 0#8), (0x00200000, List.replicate 0x200000 erased),
      (0x08000000, List.replicate 0x200000 0#8), (0x08000000, List.replicate 0x200000 erased)] :=
      rfl

/-- All of the flash is erased at the start, under both addresses. -/
lemma sampleMemory_image {x : ℕ}
    (hx : 0x00200000 ≤ x ∧ x < 0x00400000 ∨ 0x08000000 ≤ x ∧ x < 0x08200000) :
    overlayAll (fun _ => none)
    (sampleMemory.placements (fun _ => none) .notFound) x = some erased := by
  rw [sampleMemory_placements]
  simp only [overlayAll_cons, overlayAll_nil, overlay_replicate]
  split_ifs <;> first | rfl | omega

lemma sampleFlash_accepted : validateConfig sampleFlash = .ok () := by
  unfold validateConfig
  rw [if_neg (by decide), if_neg (by decide)]
  rfl

lemma sampleMemory_boots :
    ∃ uc, loadMemoryRegions (fun _ => none) sampleMemory .notFound sampleEngine = some uc := by
  have hvalid : ∀ flash, sampleMemory.internalFlash = some flash →
      validateConfig flash = .ok () := by
    intro flash hflash
    cases hflash
    exact sampleFlash_accepted
  have hload : ∀ region ∈ sampleMemory.regions, region.load = none := by
    simp [sampleMemory]
  have hmap : ∀ (uc : RegisterFile), ∀ region ∈ sampleMemory.regions,
      ∃ uc', mapRegion uc region = some uc' := fun uc region _ => ⟨_, rfl⟩
  obtain ⟨uc, huc⟩ := loadRegions_isSome (fun _ => none) sampleEngine hmap hload hvalid
  have hrestore : restoreFlash sampleMemory .notFound uc = some uc := rfl
  have hpatches : memWriteAll uc (sampleMemory.patches.map Patch.placement) = some uc := rfl
  refine ⟨uc, ?_⟩
  unfold loadMemoryRegions
  rw [huc, Option.bind_some, hrestore, Option.bind_some, hpatches]

lemma sampleFlash_coherent :
    sampleFlash.Coherent
      (overlayAll (fun _ => none) (sampleMemory.placements (fun _ => none) .notFound)) := by
  intro base hbase k hk
  have hlt : k < 0x200000 := hk
  have halias : base.toNat = 0x00200000 := by
    rw [List.mem_singleton.mp hbase]
    rfl
  have hstart : sampleFlash.start.toNat = 0x08000000 := rfl
  rw [halias, hstart, sampleMemory_image (by omega), sampleMemory_image (by omega)]

/-- What is at the start under an address of the flash. -/
lemma memByte_sampleMemory {uc : RegisterFile}
    (hboot : loadMemoryRegions (fun _ => none) sampleMemory .notFound sampleEngine = some uc)
    {x : ℕ} (hx : 0x00200000 ≤ x ∧ x < 0x00400000 ∨ 0x08000000 ≤ x ∧ x < 0x08200000) :
    memByte uc x = some erased := by
  have hnone : memByte sampleEngine = fun _ => none := rfl
  rw [memByte_of_loadMemoryRegions hboot, hnone, sampleMemory_image hx]

/-- A store to the flash succeeds. -/
lemma sample_store {uc : RegisterFile}
    (hboot : loadMemoryRegions (fun _ => none) sampleMemory .notFound sampleEngine = some uc)
    (v : U8) :
    ∃ uc', memWrite uc 0x08000000 [v] = some uc' ∧ memByte uc' = overlay (memByte uc)
      (0x08000000, [v]) := by
  have hmapped : ∀ x, Covers (0x08000000, [v]) x → (memByte uc x).isSome = true := by
    rintro x ⟨hle, hlt⟩
    dsimp only at hle
    simp only [List.length_singleton] at hlt
    rw [memByte_sampleMemory hboot (by omega)]
    rfl
  obtain ⟨uc', huc'⟩ := Option.isSome_iff_exists.mp (memWrite_isSome_iff.mpr hmapped)
  exact ⟨uc', huc', memByte_of_memWrite (p := (0x08000000, [v])) huc'⟩

/-- The flash reads alike at the start, and still does after a store of the erased value. -/
theorem aliases_coherent_sample : ∃ (uc : RegisterFile) (s : Flash Unit × RegisterFile × Unit),
    programStep (Flash.new (some sampleFlash.toInternalFlashConfig), uc, ())
        (.store 0x08000000 [erased]) = some s ∧
      sampleFlash.Coherent (memByte s.2.1) := by
  obtain ⟨uc, hboot⟩ := sampleMemory_boots
  obtain ⟨uc', hstore, -⟩ := sample_store hboot erased
  have hstep := programStep_store (Flash.new (some sampleFlash.toInternalFlashConfig)) () hstore
  have hbases : ∀ base ∈ sampleFlash.bases, base.toNat = 0x08000000 ∨ base.toNat = 0x00200000 := by
    intro base hbase
    rcases List.mem_cons.mp hbase with rfl | hbase
    · exact Or.inl rfl
    · rw [List.mem_singleton.mp hbase]
      exact Or.inr rfl
  have hkeep : StoresKeepFlash sampleFlash
      (Flash.new (some sampleFlash.toInternalFlashConfig), uc, ())
        (.store 0x08000000 [erased]) := by
    rintro addr bytes h
    cases h
    refine Or.inr fun base hbase k hk i hi haddr => ?_
    have hlt : k < 0x200000 := hk
    have hzero : i = 0 := by simpa using hi
    have hread : memByte uc (base.toNat + k) = some erased :=
      memByte_sampleMemory hboot (by rcases hbases base hbase with h | h <;> omega)
    rw [hzero, hread]
    rfl
  have hcovered : sampleFlash.CoveredBy sampleMemory.regions := by
    intro base hbase k hk
    have hlt : k < 0x200000 := hk
    rcases hbases base hbase with h | h
    · refine ⟨⟨0x08000000, 0x200000, none⟩, by simp [sampleMemory], ?_⟩
      rw [h]
      change 0x08000000 ≤ 0x08000000 + k ∧ 0x08000000 + k < 0x08000000 + 0x200000
      omega
    · refine ⟨⟨0x00200000, 0x200000, none⟩, by simp [sampleMemory], ?_⟩
      rw [h]
      change 0x00200000 ≤ 0x00200000 + k ∧ 0x00200000 + k < 0x00200000 + 0x200000
      omega
  have hapart : sampleFlash.Apart := by
    intro b hb b' hb'
    have hsize : sampleFlash.size.toNat = 0x200000 := rfl
    rw [hsize]
    rcases hbases b hb with h | h <;> rcases hbases b' hb' with h' | h'
    · exact Or.inl (BitVec.eq_of_toNat_eq (h.trans h'.symm))
    · exact Or.inr (by omega)
    · exact Or.inr (by omega)
    · exact Or.inl (BitVec.eq_of_toNat_eq (h.trans h'.symm))
  refine ⟨uc, _, hstep, ?_⟩
  exact aliases_coherent sampleFlash_accepted hcovered hapart
    (fun _ => rfl) sampleFlash_coherent hboot (Run.single ⟨hkeep, hstep⟩)

/-- A store to the flash is not read under the alias. -/
theorem store_misses_alias : ∃ (uc : RegisterFile) (s : Flash Unit × RegisterFile × Unit),
    loadMemoryRegions (fun _ => none) sampleMemory .notFound sampleEngine = some uc ∧
      Run (stepRel programStep) (Flash.new (some sampleFlash.toInternalFlashConfig), uc, ())
        [.store 0x08000000 [0x45]] s ∧
      memByte s.2.1 0x08000000 = some 0x45 ∧ memByte s.2.1 0x00200000 = some 0xff ∧
      ¬ sampleFlash.Coherent (memByte s.2.1) := by
  obtain ⟨uc, hboot⟩ := sampleMemory_boots
  obtain ⟨uc', hstore, hbytes⟩ := sample_store hboot 0x45
  have hstep := programStep_store (Flash.new (some sampleFlash.toInternalFlashConfig)) () hstore
  have hstart : memByte uc' 0x08000000 = some 0x45 := by
    rw [hbytes]
    rfl
  have halias : memByte uc' 0x00200000 = some 0xff := by
    rw [hbytes, overlay_of_not_covers]
    · exact memByte_sampleMemory hboot (by omega)
    · rintro ⟨hle, -⟩
      dsimp only at hle
      omega
  refine ⟨uc, _, hboot, Run.single hstep, hstart, halias, fun hcoherent => ?_⟩
  have hsame : memByte uc' 0x00200000 = memByte uc' 0x08000000 :=
    hcoherent 0x00200000 (List.mem_singleton.mpr rfl) 0 (by decide)
  rw [hstart, halias] at hsame
  cases hsame

end Flash

end Stm32Emulator
