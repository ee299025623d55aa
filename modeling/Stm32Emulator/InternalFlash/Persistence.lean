import Stm32Emulator.InternalFlash.Aliases

/-!
# The backing file

Saving creates the backing file anew, which empties it, and then writes all bytes.  A failure or a
stop in between leaves a short file, which is refused at the next start
(`Flash.persist_atomic_iff`).  When nothing fails, a restart finds in the persistent range, under
each address of the flash, what the memory held when it was locked last, and the image of a fresh
start elsewhere (`Flash.persistence_round_trip`).
-/

namespace Stm32Emulator

open MemoryImage

/-! ## A file of the host -/

/-- What becomes of an operation on the file: it succeeds, or it fails, or the process stops in it,
when it has written some bytes. -/
inductive FileOutcome where
  | done
  | stopped (written : ℕ)
  deriving DecidableEq, Repr

/-- The content of the file, if there is one, and what becomes of the next operations.  After these
all succeed. -/
structure HostFile where
  content : Option (List U8)
  outcomes : List FileOutcome

namespace HostFile

/-- One operation, with its effect when it succeeds and when it stops. -/
def attempt (onSuccess : Option (List U8) → Option (List U8))
    (onStop : ℕ → Option (List U8) → Option (List U8)) (d : HostFile) : Bool × HostFile :=
  match d.outcomes with
  | [] => (true, ⟨onSuccess d.content, []⟩)
  | .done :: rest => (true, ⟨onSuccess d.content, rest⟩)
  | .stopped written :: rest => (false, ⟨onStop written d.content, rest⟩)

/-- Creating the file empties it, and its bytes are written in order. -/
def file : BackingFile HostFile where
  createDirAll := attempt id fun _ => id
  create := attempt (fun _ => some []) fun _ => id
  writeAll bytes := attempt (Option.map (· ++ bytes)) fun written =>
    Option.map (· ++ bytes.take written)
  syncAll := attempt id fun _ => id

def read (d : HostFile) : FileRead :=
  match d.content with
  | some content => .bytes content
  | none => .notFound

/-- The first or the second operation, which make the directory and the file, does not succeed. -/
def Untouched (d : HostFile) : Prop :=
  ∃ written rest, d.outcomes = .stopped written :: rest ∨
    d.outcomes = .done :: .stopped written :: rest

/-- The third operation, which writes the bytes, stops after some of them. -/
def CutAfter (d : HostFile) (written : ℕ) : Prop :=
  ∃ rest, d.outcomes = .done :: .done :: .stopped written :: rest

lemma CutAfter.unique {d : HostFile} {written written' : ℕ} (h : d.CutAfter written)
    (h' : d.CutAfter written') : written = written' := by
  obtain ⟨rest, hrest⟩ := h
  obtain ⟨rest', hrest'⟩ := h'
  rw [hrest] at hrest'
  cases hrest'
  rfl

end HostFile

variable {U : Type}

namespace Flash

section Save

variable [UnicornEngine U] {flash : Flash HostFile} {uc : U} {d : HostFile} {bytes : List U8}
  {persistent : FlashPersistence HostFile}

/-- What saving leaves in the file. -/
lemma content_persist (hpersistent : flash.internal.bind (·.persistent) = some persistent)
    (hfile : persistent.backingFile = some HostFile.file)
    (hread : memRead uc persistent.start.toNat persistent.size.toNat = some bytes) :
    (d.Untouched → (flash.persist uc d).2.content = d.content) ∧
      (∀ written, d.CutAfter written → (flash.persist uc d).2.content = some (bytes.take written)) ∧
      (¬ d.Untouched → (∀ written, ¬ d.CutAfter written) →
        (flash.persist uc d).2.content = some bytes) := by
  unfold persist
  simp only [hpersistent, hfile, hread]
  obtain ⟨content, outcomes⟩ := d
  unfold HostFile.Untouched HostFile.CutAfter
  -- one case for each operation that may be the first to stop
  rcases outcomes with _ | ⟨_ | written,
    _ | ⟨_ | written, _ | ⟨_ | written, _ | ⟨_ | written, rest⟩⟩⟩⟩ <;>
    simp [HostFile.file, HostFile.attempt, runAll]

end Save

end Flash

/-! ## The persistent range -/

namespace FlashConfig

variable {D : Type}

/-- The addresses at which the saved bytes are found. -/
def persistentBases (config : FlashConfig D) (persistent : FlashPersistence D) : List ℕ :=
  config.bases.map fun base => base.toNat + (persistent.start.toNat - config.start.toNat)

/-- The persistent range is mapped, under each address of the flash. -/
def PersistentMapped (config : FlashConfig D) (persistent : FlashPersistence D)
    (m : ℕ → Option U8) : Prop :=
  ∀ base ∈ config.persistentBases persistent, ∀ k < persistent.size.toNat,
    (m (base + k)).isSome = true

lemma restoredPlacements_eq {config : FlashConfig D} {persistent : FlashPersistence D}
    (hfits : Flash.RestoreFits config persistent) (bytes : List U8) :
    Flash.restoredPlacements config persistent bytes =
      (config.persistentBases persistent).map fun base => (base, bytes) := by
  have hstart : config.start.toNat + (persistent.start.toNat - config.start.toNat) =
      persistent.start.toNat := Nat.add_sub_cancel' hfits.1
  unfold Flash.restoredPlacements persistentBases bases
  rw [List.map_cons, List.map_cons, hstart, List.map_map]
  rfl

lemma start_mem_persistentBases {config : FlashConfig D} {persistent : FlashPersistence D}
    (hfits : Flash.RestoreFits config persistent) :
    persistent.start.toNat ∈ config.persistentBases persistent := by
  have hstart : config.start.toNat + (persistent.start.toNat - config.start.toNat) =
      persistent.start.toNat := Nat.add_sub_cancel' hfits.1
  exact List.mem_map.mpr ⟨config.start, List.mem_cons_self, hstart⟩

end FlashConfig

namespace Flash

section Load

variable {D : Type} [MappableEngine U] {config : FlashConfig D} {persistent : FlashPersistence D}
  {backing : BackingFile D} {uc : U} {bytes : List U8}

/-- A file of the right length is written to each address. -/
lemma loadPersistent_of_length_eq (hpersistent : config.persistent = some persistent)
    (hfile : persistent.backingFile = some backing) (hfits : RestoreFits config persistent)
    (hlength : bytes.length = persistent.size.toNat) :
    loadPersistent uc config (.bytes bytes) =
      memWriteAll uc (restoredPlacements config persistent bytes) := by
  unfold loadPersistent
  simp only [hpersistent, hfile]
  rw [if_neg (by simpa using hlength), if_pos hfits]

/-- A file of the right length is restored where the range is mapped. -/
lemma loadPersistent_bytes (hpersistent : config.persistent = some persistent)
    (hfile : persistent.backingFile = some backing) (hfits : RestoreFits config persistent)
    (hmapped : config.PersistentMapped persistent (memByte uc))
    (hlength : bytes.length = persistent.size.toNat) :
    ∃ uc', loadPersistent uc config (.bytes bytes) = some uc' ∧
      memByte uc' = overlayAll (memByte uc) (restoredPlacements config persistent bytes) := by
  have hwrite : (memWriteAll uc (restoredPlacements config persistent bytes)).isSome = true := by
    rw [memWriteAll_isSome_iff, FlashConfig.restoredPlacements_eq hfits]
    rintro p hp x ⟨hle, hlt⟩
    obtain ⟨base, hbase, rfl⟩ := List.mem_map.mp hp
    dsimp only at hle hlt
    have hx := hmapped base hbase (x - base) (by omega)
    rwa [Nat.add_sub_cancel' hle] at hx
  obtain ⟨uc', huc'⟩ := Option.isSome_iff_exists.mp hwrite
  refine ⟨uc', ?_, memByte_of_memWriteAll huc'⟩
  rw [loadPersistent_of_length_eq hpersistent hfile hfits hlength, huc']

/-- A file of another length is refused. -/
lemma loadPersistent_of_length_ne (hpersistent : config.persistent = some persistent)
    (hfile : persistent.backingFile = some backing)
    (hlength : bytes.length ≠ persistent.size.toNat) :
    loadPersistent uc config (.bytes bytes) = none := by
  unfold loadPersistent
  simp only [hpersistent, hfile]
  rw [if_pos hlength]

lemma loadPersistent_notFound (hpersistent : config.persistent = some persistent)
    (hfile : persistent.backingFile = some backing) :
    loadPersistent uc config .notFound = some uc := by
  unfold loadPersistent
  simp only [hpersistent, hfile]

/-- A file is read at start: its bytes are then found in memory, or nothing if there is no file. -/
def LoadsFile (config : FlashConfig D) (uc : U) (read : FileRead) : Prop :=
  ∃ uc', loadPersistent uc config read = some uc' ∧
    memByte uc' = overlayAll (memByte uc) (config.placements read)

lemma loadsFile_bytes_iff (hpersistent : config.persistent = some persistent)
    (hfile : persistent.backingFile = some backing) (hfits : RestoreFits config persistent)
    (hmapped : config.PersistentMapped persistent (memByte uc)) :
    LoadsFile config uc (.bytes bytes) ↔ bytes.length = persistent.size.toNat := by
  have hplacements : config.placements (.bytes bytes) =
      restoredPlacements config persistent bytes := by
    unfold FlashConfig.placements
    simp only [hpersistent, hfile]
    rfl
  unfold LoadsFile
  rw [hplacements]
  constructor
  · rintro ⟨uc', huc', -⟩
    by_contra hne
    rw [loadPersistent_of_length_ne hpersistent hfile hne] at huc'
    cases huc'
  · exact loadPersistent_bytes hpersistent hfile hfits hmapped

lemma loadsFile_notFound (hpersistent : config.persistent = some persistent)
    (hfile : persistent.backingFile = some backing) : LoadsFile config uc .notFound := by
  refine ⟨uc, loadPersistent_notFound hpersistent hfile, ?_⟩
  unfold FlashConfig.placements
  rw [hpersistent]
  rfl

end Load

/-- The next start reads the file if there is none, or one of the length of the range. -/
lemma loadsFile_read_iff [MappableEngine U] {config : FlashConfig HostFile}
    {persistent : FlashPersistence HostFile} {backing : BackingFile HostFile} {uc : U}
    {d : HostFile} (hpersistent : config.persistent = some persistent)
    (hfile : persistent.backingFile = some backing) (hfits : RestoreFits config persistent)
    (hmapped : config.PersistentMapped persistent (memByte uc)) :
    LoadsFile config uc d.read ↔
      ∀ content, d.content = some content → content.length = persistent.size.toNat := by
  unfold HostFile.read
  cases hcontent : d.content with
  | some content =>
    dsimp only
    rw [loadsFile_bytes_iff hpersistent hfile hfits hmapped]
    simp
  | none =>
    have hloads : LoadsFile config uc .notFound := loadsFile_notFound hpersistent hfile
    simpa using hloads

/-! ## Saving and failing -/

section Atomic

variable [MappableEngine U]

/-- **Saving is atomic** if and only if it leaves the file alone, and the file is one that can be
restored, or it writes all bytes.  A file that is restored is the one before or the new one. -/
theorem persist_atomic_iff {config : FlashConfig HostFile} {persistent : FlashPersistence HostFile}
    {flash : Flash HostFile} {uc next : U} {bytes : List U8} {d : HostFile}
    (hinternal : flash.internal = some config.toInternalFlashConfig)
    (hpersistent : config.persistent = some persistent)
    (hfile : persistent.backingFile = some HostFile.file)
    (hread : memRead uc persistent.start.toNat persistent.size.toNat = some bytes)
    (hfits : RestoreFits config persistent)
    (hmapped : config.PersistentMapped persistent (memByte next)) :
    (((flash.persist uc d).2.content = d.content ∨ (flash.persist uc d).2.content = some bytes) ∧
      ∃ next', loadPersistent next config (flash.persist uc d).2.read = some next' ∧
        memByte next' = overlayAll (memByte next) (config.placements (flash.persist uc d).2.read)) ↔
    (d.Untouched ∧ ∀ content, d.content = some content → content.length = persistent.size.toNat) ∨
      (¬ d.Untouched ∧ ∀ written, d.CutAfter written → persistent.size.toNat ≤ written) := by
  have hbind : flash.internal.bind (·.persistent) = some persistent := by
    rw [hinternal, Option.bind_some, hpersistent]
  obtain ⟨huntouched, hcut, hwhole⟩ := content_persist (d := d) hbind hfile hread
  have hlength : bytes.length = persistent.size.toNat := (memRead_spec hread).1
  generalize (flash.persist uc d).2 = d' at huntouched hcut hwhole ⊢
  change (_ ∧ LoadsFile config next d'.read) ↔ _
  rw [loadsFile_read_iff hpersistent hfile hfits hmapped]
  by_cases hfirst : d.Untouched
  · have hsame := huntouched hfirst
    rw [hsame]
    constructor
    · rintro ⟨-, hlengths⟩
      exact Or.inl ⟨hfirst, hlengths⟩
    · rintro (⟨-, hlengths⟩ | ⟨hnot, -⟩)
      · exact ⟨Or.inl rfl, hlengths⟩
      · exact absurd hfirst hnot
  · by_cases hstops : ∃ written, d.CutAfter written
    · obtain ⟨written, hwritten⟩ := hstops
      have hcontent := hcut written hwritten
      have htake : (bytes.take written).length = persistent.size.toNat ↔
          persistent.size.toNat ≤ written := by
        rw [List.length_take, hlength]
        omega
      constructor
      · rintro ⟨-, hlengths⟩
        refine Or.inr ⟨hfirst, fun written' hwritten' => ?_⟩
        rw [HostFile.CutAfter.unique hwritten' hwritten]
        exact htake.mp (hlengths _ hcontent)
      · rintro (⟨hyes, -⟩ | ⟨-, hall⟩)
        · exact absurd hyes hfirst
        · have hle := hall written hwritten
          have hwhole : d'.content = some bytes := by
            rw [hcontent, List.take_of_length_le (by omega)]
          exact ⟨Or.inr hwhole,
            fun content h => by rw [← hlength, Option.some.inj (h.symm.trans hwhole)]⟩
    · have hcontent := hwhole hfirst fun written h => hstops ⟨written, h⟩
      constructor
      · intro _
        exact Or.inr ⟨hfirst, fun written h => absurd ⟨written, h⟩ hstops⟩
      · intro _
        exact ⟨Or.inr hcontent,
          fun content h => by rw [← hlength, Option.some.inj (h.symm.trans hcontent)]⟩

/-- Two bytes of flash that are saved. -/
def savedFlash : FlashConfig HostFile where
  start := 0x08000000
  aliases := []
  persistent := some ⟨0x08000000, 2, some HostFile.file⟩
  model := .stm32F7DualBank
  size := 0x200000

def savedEngine : RegisterFile :=
  ⟨fun _ => 0, fun a => if 0x08000000 ≤ a ∧ a < 0x08000002 then some 7 else none⟩

lemma savedFlash_fits : RestoreFits savedFlash ⟨0x08000000, 2, some HostFile.file⟩ :=
  ⟨le_rfl, fun _ hbase => absurd hbase List.not_mem_nil⟩

lemma savedFlash_mapped : savedFlash.PersistentMapped ⟨0x08000000, 2, some HostFile.file⟩
    (memByte savedEngine) := by
  intro base hbase k hk
  have hzero : base = 0x08000000 := List.mem_singleton.mp hbase
  have hlt : k < 2 := hk
  have hread : memByte savedEngine (0x08000000 + k) = some 7 := if_pos (by omega)
  rw [hzero, hread]
  rfl

/-- When every operation succeeds, the new bytes are restored. -/
theorem persist_atomic_iff_sample : ∃ next : RegisterFile,
    loadPersistent savedEngine savedFlash
      ((Flash.new (some savedFlash.toInternalFlashConfig)).persist savedEngine
        ⟨some [1, 2], []⟩).2.read =
        some next := by
  have hread : memRead savedEngine 0x08000000 2 = some [7, 7] := rfl
  have hinternal : (Flash.new (some savedFlash.toInternalFlashConfig)).internal =
      some savedFlash.toInternalFlashConfig := rfl
  have hiff := persist_atomic_iff (d := ⟨some [1, 2], []⟩) hinternal rfl rfl hread savedFlash_fits
    savedFlash_mapped
  have hnot : ¬ HostFile.Untouched ⟨some [1, 2], []⟩ := by
    rintro ⟨written, rest, h | h⟩ <;> cases h
  have hnever : ∀ written, HostFile.CutAfter ⟨some [1, 2], []⟩ written → 2 ≤ written := by
    rintro written ⟨rest, h⟩
    cases h
  obtain ⟨-, next, hnext, -⟩ := hiff.mpr (Or.inr ⟨hnot, hnever⟩)
  exact ⟨next, hnext⟩

/-- A write that stops after the first byte leaves one byte in the file, and the next start
fails. -/
theorem persist_cut_short :
    let saved := (Flash.new (some savedFlash.toInternalFlashConfig)).persist savedEngine
      ⟨some [1, 2], [.done, .done, .stopped 1]⟩
    memRead savedEngine 0x08000000 2 = some [7, 7] ∧ saved.2.content = some [7] ∧
      loadPersistent savedEngine savedFlash saved.2.read = none := by
  exact ⟨rfl, rfl, rfl⟩

end Atomic

/-! ## Locking and starting again -/

section RoundTrip

variable [MappableEngine U]

/-- The persistent range and its copies are mapped, do not overlap in part, and are not patched. -/
structure PersistentPlaced (config : MemoryConfig HostFile) (flash : FlashConfig HostFile)
    (persistent : FlashPersistence HostFile) : Prop where
  fits : RestoreFits flash persistent
  covered : ∀ base ∈ flash.persistentBases persistent, ∀ k < persistent.size.toNat,
    ∃ region ∈ config.regions, region.start.toNat ≤ base + k ∧
      base + k < region.start.toNat + roundUp region.size.toNat 4096
  apart : ∀ b ∈ flash.persistentBases persistent, ∀ b' ∈ flash.persistentBases persistent,
    b = b' ∨ b + persistent.size.toNat ≤ b' ∨ b' + persistent.size.toNat ≤ b
  notPatched : ∀ patch ∈ config.patches, ∀ base ∈ flash.persistentBases persistent,
    ∀ k < persistent.size.toNat, ¬ Covers patch.placement (base + k)

/-- The first operations on the file, as many as saving makes, all succeed. -/
def SavesWell (d : HostFile) : Prop := ∀ written, .stopped written ∉ d.outcomes.take 4

/-- The memory is not saved in this step. -/
def NotSaved (s : Flash HostFile × U × HostFile) (a : ProgramAction) : Prop :=
  ∀ value, a = .write 0x10 value → s.1.Locked ∨ ¬ Locks value

lemma content_of_savesWell {flash : Flash HostFile} {uc : U} {d : HostFile} {bytes : List U8}
    {persistent : FlashPersistence HostFile}
    (hpersistent : flash.internal.bind (·.persistent) = some persistent)
    (hfile : persistent.backingFile = some HostFile.file)
    (hread : memRead uc persistent.start.toNat persistent.size.toNat = some bytes)
    (hsaves : SavesWell d) : (flash.persist uc d).2.content = some bytes := by
  refine (content_persist hpersistent hfile hread).2.2 ?_ ?_
  · rintro ⟨written, rest, h | h⟩ <;>
    · apply hsaves written
      rw [h]
      simp
  · rintro written ⟨rest, h⟩
    apply hsaves written
    rw [h]
    simp

/-- A step that does not save leaves the file alone. -/
lemma content_programStep {s s' : Flash HostFile × U × HostFile} {a : ProgramAction}
    (hnot : NotSaved s a) (hstep : programStep s a = some s') : s'.2.2 = s.2.2 := by
  obtain ⟨flash, uc, d⟩ := s
  obtain ⟨flash', uc', d'⟩ := s'
  cases a with
  | store addr bytes =>
    obtain ⟨uc₁, -, h⟩ := Option.map_eq_some_iff.mp hstep
    cases h
    rfl
  | write offset value =>
    have hwrite : flash.write uc d offset value = some (flash', uc', d') := hstep
    by_cases hkey : offset = 0x04
    · subst hkey
      exact (write_key hwrite).2.2
    · by_cases hcr : offset = 0x10
      · subst hcr
        rcases writeControl_cases hwrite with ⟨-, -, -, -, rfl⟩ | ⟨-, hstored⟩
        · rfl
        · exact hstored.keepsFile (hnot value rfl)
      · exact (write_other hwrite hkey hcr).2.2

/-- Restoring the backing file maps and unmaps nothing. -/
lemma isSome_loadPersistent {flash : FlashConfig HostFile} {file : FileRead} {uc uc' : U}
    (h : loadPersistent uc flash file = some uc') (x : ℕ) :
    (memByte uc' x).isSome = (memByte uc x).isSome := by
  unfold loadPersistent at h
  split at h
  · obtain rfl := Option.some.inj h
    rfl
  · split at h
    · obtain rfl := Option.some.inj h
      rfl
    · cases file with
      | notFound =>
        obtain rfl := Option.some.inj h
        rfl
      | failed => cases h
      | bytes bytes =>
        dsimp only at h
        split_ifs at h
        exact isSome_memByte_of_memWriteAll h x

/-- The start up to the backing file is the same with every file, and the patches that were written
once are written again. -/
lemma boots_with {files : String → Option (List U8)} {config : MemoryConfig HostFile}
    {flash : FlashConfig HostFile} {persistent : FlashPersistence HostFile} {file₀ : FileRead}
    {uc₀ uc : U} (hflash : config.internalFlash = some flash)
    (hboot : loadMemoryRegions files config file₀ uc₀ = some uc)
    (hplaced : PersistentPlaced config flash persistent) :
    ∃ mapped : U, flash.PersistentMapped persistent (memByte mapped) ∧
      ∀ (restored : U) (file : FileRead), loadPersistent mapped flash file = some restored →
        ∃ started, loadMemoryRegions files config file uc₀ = some started ∧
          memByte started = overlayAll (memByte restored) (config.patches.map Patch.placement) := by
  obtain ⟨mapped, hregions, h⟩ := Option.bind_eq_some_iff.mp hboot
  obtain ⟨restored₀, hrestore, hpatches⟩ := Option.bind_eq_some_iff.mp h
  refine ⟨mapped, fun base hbase k hk => ?_, fun restored file hload => ?_⟩
  · obtain ⟨region, hregion, hle, hlt⟩ := hplaced.covered base hbase k hk
    rw [memByte_of_regions hregions, isSome_overlayAll]
    exact Or.inr (exists_placement_of_mem_regions files hregion hle hlt)
  · have hload₀ : loadPersistent mapped flash file₀ = some restored₀ := by
      unfold restoreFlash at hrestore
      rwa [hflash] at hrestore
    have hsame : ∀ x, (memByte restored x).isSome = (memByte restored₀ x).isSome := fun x =>
      (isSome_loadPersistent hload x).trans (isSome_loadPersistent hload₀ x).symm
    have hwritten : (memWriteAll restored (config.patches.map Patch.placement)).isSome = true := by
      have hwritten₀ : (memWriteAll restored₀ (config.patches.map Patch.placement)).isSome =
          true := by
        rw [hpatches]
        rfl
      rw [memWriteAll_isSome_iff] at hwritten₀ ⊢
      intro p hp x hx
      rw [hsame]
      exact hwritten₀ p hp x hx
    obtain ⟨started, hstarted⟩ := Option.isSome_iff_exists.mp hwritten
    refine ⟨started, ?_, memByte_of_memWriteAll hstarted⟩
    unfold loadMemoryRegions restoreFlash
    rw [hregions, Option.bind_some, hflash]
    dsimp only
    rw [hload, Option.bind_some, hstarted]

/-- What a restored file gives: the saved bytes under each address, and elsewhere what a start
without a file gives. -/
lemma restart_image {files : String → Option (List U8)} {config : MemoryConfig HostFile}
    {flash : FlashConfig HostFile} {persistent : FlashPersistence HostFile} {file₀ : FileRead}
    {uc₀ uc : U} {bytes : List U8} (hflash : config.internalFlash = some flash)
    (hpersistent : flash.persistent = some persistent)
    (hfile : persistent.backingFile = some HostFile.file)
    (hplaced : PersistentPlaced config flash persistent)
    (hboot : loadMemoryRegions files config file₀ uc₀ = some uc)
    (hlength : bytes.length = persistent.size.toNat) :
    ∃ fresh restarted : U, loadMemoryRegions files config .notFound uc₀ = some fresh ∧
      loadMemoryRegions files config (.bytes bytes) uc₀ = some restarted ∧
      (∀ base ∈ flash.persistentBases persistent, ∀ k < persistent.size.toNat,
        memByte restarted (base + k) = bytes[k]?) ∧
      ∀ x, (∀ base ∈ flash.persistentBases persistent,
          x < base ∨ base + persistent.size.toNat ≤ x) →
        memByte restarted x = memByte fresh x := by
  obtain ⟨mapped, hmapped, hstart⟩ := boots_with hflash hboot hplaced
  obtain ⟨fresh, hfresh, hfreshBytes⟩ :=
    hstart mapped .notFound (loadPersistent_notFound hpersistent hfile)
  obtain ⟨restored, hload, hrestored⟩ :=
    loadPersistent_bytes hpersistent hfile hplaced.fits hmapped hlength
  obtain ⟨restarted, hrestarted, hbytes⟩ := hstart restored (.bytes bytes) hload
  rw [FlashConfig.restoredPlacements_eq hplaced.fits] at hrestored
  refine ⟨fresh, restarted, hfresh, hrestarted, fun base hbase k hk => ?_, fun x hx => ?_⟩
  · have hnotPatched : ∀ p ∈ config.patches.map Patch.placement, ¬ Covers p (base + k) := by
      intro p hp
      obtain ⟨patch, hpatch, rfl⟩ := List.mem_map.mp hp
      exact hplaced.notPatched patch hpatch base hbase k hk
    rw [hbytes, overlayAll_of_not_covers hnotPatched, hrestored]
    refine overlayAll_copies hbase (by omega) fun b hb => ?_
    rw [hlength]
    exact hplaced.apart b hb base hbase
  · rw [hbytes, hfreshBytes]
    apply overlayAll_congr
    rw [hrestored]
    apply overlayAll_of_not_covers
    rintro p hp ⟨hle, hlt⟩
    obtain ⟨base, hbase, rfl⟩ := List.mem_map.mp hp
    dsimp only at hle hlt
    rcases hx base hbase with h | h <;> omega

/-- The memory can be saved in every state of a run: it is mapped where it is read. -/
lemma readable_of_run {files : String → Option (List U8)} {config : MemoryConfig HostFile}
    {flash : FlashConfig HostFile} {persistent : FlashPersistence HostFile} {file₀ : FileRead}
    {uc₀ uc : U} {d₀ : HostFile} {as : List ProgramAction} {s : Flash HostFile × U × HostFile}
    (hplaced : PersistentPlaced config flash persistent)
    (hboot : loadMemoryRegions files config file₀ uc₀ = some uc)
    (hrun : Run (stepRel programStep) (Flash.new (some flash.toInternalFlashConfig), uc, d₀) as s) :
    s.1.internal = some flash.toInternalFlashConfig ∧
      ∃ bytes, memRead s.2.1 persistent.start.toNat persistent.size.toNat = some bytes := by
  obtain ⟨hinternal, hsame⟩ : s.1.internal = some flash.toInternalFlashConfig ∧
      ∀ x, (memByte s.2.1 x).isSome = (memByte uc x).isSome := by
    refine hrun.invariant_state (I := fun s => s.1.internal = some flash.toInternalFlashConfig ∧
      ∀ x, (memByte s.2.1 x).isSome = (memByte uc x).isSome) ⟨rfl, fun _ => rfl⟩ ?_
    rintro s s' a ⟨hinternal, hsame⟩ hstep
    obtain ⟨hinternal', hsame'⟩ := programStep_frame hinternal hstep
    exact ⟨hinternal', fun x => (hsame' x).trans (hsame x)⟩
  refine ⟨hinternal, memRead_eq_some fun k hk => ?_⟩
  have hstart := FlashConfig.start_mem_persistentBases hplaced.fits
  obtain ⟨region, hregion, hle, hlt⟩ := hplaced.covered persistent.start.toNat hstart k hk
  rw [hsame, memByte_of_loadMemoryRegions hboot, isSome_overlayAll]
  obtain ⟨p, hp, hcovers⟩ := exists_placement_of_mem_regions files hregion hle hlt
  exact Or.inr ⟨p, List.mem_append_left _ hp, hcovers⟩

/-- **What is saved is found again.**  Anything is done to the flash; a write of the control
register locks it, perhaps erasing a sector first; nothing is saved after that.  Then the next start
succeeds.  It gives under each address of the persistent range what the memory held after that
write, and elsewhere what a start without a backing file gives. -/
theorem persistence_round_trip {files : String → Option (List U8)} {config : MemoryConfig HostFile}
    {flash : FlashConfig HostFile} {persistent : FlashPersistence HostFile} {file₀ : FileRead}
    {uc₀ uc uc₁ uc₂ : U} {d₀ d₁ d₂ : HostFile} {flash₁ flash₂ : Flash HostFile}
    {as bs : List ProgramAction} {value : U32} {s : Flash HostFile × U × HostFile}
    (hflash : config.internalFlash = some flash) (hpersistent : flash.persistent = some persistent)
    (hfile : persistent.backingFile = some HostFile.file)
    (hplaced : PersistentPlaced config flash persistent)
    (hboot : loadMemoryRegions files config file₀ uc₀ = some uc)
    (hrun : Run (stepRel programStep) (Flash.new (some flash.toInternalFlashConfig), uc, d₀) as
      (flash₁, uc₁, d₁))
    (hopen : ¬ flash₁.Locked) (hlocks : Locks value) (hsaves : SavesWell d₁)
    (hlock : programStep (flash₁, uc₁, d₁) (.write 0x10 value) = some (flash₂, uc₂, d₂))
    (hafter : Run (guardedStep NotSaved (stepRel programStep)) (flash₂, uc₂, d₂) bs s) :
    ∃ fresh restarted : U, loadMemoryRegions files config .notFound uc₀ = some fresh ∧
      loadMemoryRegions files config s.2.2.read uc₀ = some restarted ∧
      (∀ base ∈ flash.persistentBases persistent, ∀ k < persistent.size.toNat,
        memByte restarted (base + k) = memByte uc₂ (persistent.start.toNat + k)) ∧
      ∀ x, (∀ base ∈ flash.persistentBases persistent,
          x < base ∨ base + persistent.size.toNat ≤ x) →
        memByte restarted x = memByte fresh x := by
  obtain ⟨hinternal, -⟩ := readable_of_run hplaced hboot hrun
  obtain ⟨-, bytes, hread⟩ := readable_of_run hplaced hboot (hrun.snoc hlock)
  obtain ⟨hlength, hbytes⟩ := memRead_spec hread
  have hbind : flash₁.internal.bind (·.persistent) = some persistent := by
    dsimp only at hinternal
    rw [hinternal, Option.bind_some, hpersistent]
  have hsaved : d₂ = (flash₁.persist uc₂ d₁).2 := by
    rcases writeControl_cases hlock with ⟨hlocked, -⟩ | ⟨-, hstored⟩
    · exact absurd hlocked hopen
    · exact hstored.saves hopen hlocks
  have hkept : s.2.2 = d₂ := by
    refine hafter.invariant_state (I := fun s => s.2.2 = d₂) rfl ?_
    rintro s s' a hs ⟨hnot, hstep⟩
    rw [content_programStep hnot hstep, hs]
  have hfound : s.2.2.read = .bytes bytes := by
    unfold HostFile.read
    rw [hkept, hsaved, content_of_savesWell hbind hfile hread hsaves]
  obtain ⟨fresh, restarted, hfresh, hrestarted, hin, hout⟩ :=
    restart_image hflash hpersistent hfile hplaced hboot hlength
  rw [hfound]
  refine ⟨fresh, restarted, hfresh, hrestarted, fun base hbase k hk => ?_, hout⟩
  rw [hin base hbase k hk]
  exact (hbytes k hk).symm

/-- A region around the two saved bytes, which is not inside the flash and so is not erased. -/
def savedMemory (flash : FlashConfig HostFile) : MemoryConfig HostFile where
  regions := [⟨0x07fff000, 0x2000, none⟩]
  internalFlash := some flash
  patches := []

lemma savedMemory_placed :
    PersistentPlaced (savedMemory savedFlash) savedFlash ⟨0x08000000, 2, some HostFile.file⟩ := by
  have hone : ∀ base ∈ savedFlash.persistentBases ⟨0x08000000, 2, some HostFile.file⟩,
      base = 0x08000000 := fun base hbase => List.mem_singleton.mp hbase
  refine ⟨savedFlash_fits, fun base hbase k hk => ?_, fun b hb b' hb' => ?_, fun patch hpatch => ?_⟩
  · have hlt : k < 2 := hk
    refine ⟨⟨0x07fff000, 0x2000, none⟩, List.mem_singleton.mpr rfl, ?_⟩
    rw [hone base hbase]
    change 0x07fff000 ≤ 0x08000000 + k ∧ 0x08000000 + k < 0x07fff000 + 0x2000
    omega
  · exact Or.inl ((hone b hb).trans (hone b' hb').symm)
  · exact absurd hpatch List.not_mem_nil

/-- Unlocking the flash and storing two bytes. -/
def storeTwo : List ProgramAction :=
  [.write 0x04 key1, .write 0x04 key2, .store 0x08000000 [1, 2]]

lemma run_storeTwo {s t : Flash HostFile × RegisterFile × HostFile}
    (h : execGuarded (fun _ _ => True) programStep s storeTwo = some t) :
    Run (stepRel programStep) s storeTwo t :=
  (Run.of_execGuarded h).mono fun _ _ _ hstep => hstep.2

/-- Two bytes are stored, saved and found again. -/
theorem persistence_round_trip_sample : ∃ (s : Flash HostFile × RegisterFile × HostFile)
    (restarted : RegisterFile),
    loadMemoryRegions (fun _ => none)
    (savedMemory savedFlash) s.2.2.read sampleEngine = some restarted ∧
      memByte s.2.1 0x08000001 = some 2 ∧ memByte restarted 0x08000001 = some 2 := by
  obtain ⟨uc, hboot, s, hstored, hopen, hfile, t, hlock, htwo⟩ : ∃ uc : RegisterFile,
      loadMemoryRegions (fun _ => none) (savedMemory savedFlash) .notFound sampleEngine = some uc ∧
      ∃ s, execGuarded (fun _ _ => True) programStep
        (Flash.new (some savedFlash.toInternalFlashConfig), uc, ⟨none, []⟩) storeTwo = some s ∧
      ¬ s.1.Locked ∧ s.2.2 = ⟨none, []⟩ ∧ ∃ t, programStep s (.write 0x10 crLock) = some t ∧
        memByte t.2.1 0x08000001 = some 2 :=
    ⟨_, rfl, _, rfl, fun h => h (by decide), rfl, _, rfl, rfl⟩
  obtain ⟨flash₁, uc₁, d₁⟩ := s
  obtain ⟨flash₂, uc₂, d₂⟩ := t
  have hsaves : SavesWell d₁ := by
    intro written hmem
    rw [show d₁ = ⟨none, []⟩ from hfile] at hmem
    cases hmem
  obtain ⟨-, restarted, -, hrestarted, hin, -⟩ :=
    persistence_round_trip rfl rfl rfl savedMemory_placed hboot (run_storeTwo hstored) hopen
      (fun h => absurd h (by decide)) hsaves hlock Run.nil
  refine ⟨(flash₂, uc₂, d₂), restarted, hrestarted, htwo, ?_⟩
  exact (hin 0x08000000 (List.mem_singleton.mpr rfl) 1 (by decide)).trans htwo

/-- An alias one byte after the flash. -/
def shiftedFlash : FlashConfig HostFile := { savedFlash with aliases := [0x08000001] }

/-- Two bytes are restored in two places. -/
lemma loadPersistent_shiftedFlash (uc : RegisterFile) :
    loadPersistent uc shiftedFlash (.bytes [1, 2]) =
      memWriteAll uc [(0x08000000, [1, 2]), (0x08000001, [1, 2])] := by
  have hfits : RestoreFits shiftedFlash ⟨0x08000000, 2, some HostFile.file⟩ := by
    refine ⟨le_rfl, fun base hbase => ?_⟩
    obtain rfl : base = 0x08000001 := List.mem_singleton.mp hbase
    exact Nat.lt_of_sub_ne_zero (by decide)
  have hplacements : restoredPlacements shiftedFlash ⟨0x08000000, 2, some HostFile.file⟩ [1, 2] =
      [(0x08000000, [1, 2]), (0x08000001, [1, 2])] := by
    simp [restoredPlacements, shiftedFlash, savedFlash]
  rw [loadPersistent_of_length_eq rfl rfl hfits rfl, hplacements]

/-- The copies that are restored overlap, and the second byte is lost. -/
theorem overlapping_alias_not_restored :
    ∃ (uc restarted : RegisterFile) (s t : Flash HostFile × RegisterFile × HostFile),
      loadMemoryRegions (fun _ => none)
        (savedMemory shiftedFlash) .notFound sampleEngine = some uc ∧
      Run (stepRel programStep)
        (Flash.new (some shiftedFlash.toInternalFlashConfig), uc, ⟨none, []⟩) storeTwo s ∧
      ¬ s.1.Locked ∧ programStep s (.write 0x10 crLock) = some t ∧
      loadMemoryRegions (fun _ => none) (savedMemory shiftedFlash) t.2.2.read sampleEngine =
        some restarted ∧
      memByte t.2.1 0x08000001 = some 2 ∧ memByte restarted 0x08000001 = some 1 := by
  obtain ⟨restarted, hrestarted, hlost⟩ : ∃ restarted : RegisterFile,
      loadMemoryRegions (fun _ => none) (savedMemory shiftedFlash) (.bytes [1, 2]) sampleEngine =
        some restarted ∧ memByte restarted 0x08000001 = some 1 := by
    obtain ⟨mapped, hmapped, restarted, hwrite, hlost⟩ : ∃ mapped : RegisterFile,
        (savedMemory shiftedFlash).regions.foldlM
          (loadRegion (fun _ => none) (savedMemory shiftedFlash)) sampleEngine = some mapped ∧
        ∃ restarted, memWriteAll mapped [(0x08000000, [1, 2]), (0x08000001, [1, 2])] =
          some restarted ∧
          memByte restarted 0x08000001 = some 1 := ⟨_, rfl, _, rfl, rfl⟩
    have hrestore : restoreFlash (savedMemory shiftedFlash) (.bytes [1, 2]) mapped =
        some restarted :=
      (loadPersistent_shiftedFlash mapped).trans hwrite
    refine ⟨restarted, ?_, hlost⟩
    unfold loadMemoryRegions
    rw [hmapped, Option.bind_some, hrestore]
    rfl
  obtain ⟨uc, hboot, s, hstored, hopen, t, hlock, hsaved, hfile⟩ : ∃ uc : RegisterFile,
      loadMemoryRegions (fun _ => none)
        (savedMemory shiftedFlash) .notFound sampleEngine = some uc ∧
      ∃ s, execGuarded (fun _ _ => True) programStep
        (Flash.new (some shiftedFlash.toInternalFlashConfig), uc, ⟨none, []⟩) storeTwo = some s ∧
      ¬ s.1.Locked ∧ ∃ t, programStep s (.write 0x10 crLock) = some t ∧
        memByte t.2.1 0x08000001 = some 2 ∧ t.2.2.read = .bytes [1, 2] :=
    ⟨_, rfl, _, rfl, fun h => h (by decide), _, rfl, rfl, rfl⟩
  rw [← hfile] at hrestarted
  exact ⟨uc, restarted, s, t, hboot, run_storeTwo hstored, hopen, hlock, hrestarted, hsaved, hlost⟩

end RoundTrip

end Flash

end Stm32Emulator
