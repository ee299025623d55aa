import Stm32Emulator.InternalFlash.Memory

/-!
# The memory at the start

The regions are mapped and loaded one after the other, the flash among them is filled as erased, the
backing file is restored under every address of the flash, and patches come last.  The memory is
then the image of a list of placements (`memByte_of_loadMemoryRegions`).
-/

namespace Stm32Emulator

open MemoryImage

/-! ## Configuration -/

inductive InternalFlashModel where
  | stm32F7DualBank
  deriving DecidableEq, Repr

/-- The configuration of the flash, before it is validated. -/
structure FlashConfig (D : Type) extends InternalFlashConfig D where
  model : InternalFlashModel
  size : U32

structure Region where
  start : U32
  size : U32
  load : Option String

structure Patch where
  start : U32
  data : List U8

/-- What reading the backing file gives. -/
inductive FileRead where
  | bytes (content : List U8)
  | notFound
  | failed

/-- What is wrong with a configuration. -/
inductive FlashConfigError where
  | unsupportedModel
  | wrongSize (size : U32)
  | rangeOverflows
  | persistentRangeOverflows
  | persistentOutside
  deriving DecidableEq, Repr

/-- The part of the configuration that describes memory. -/
structure MemoryConfig (D : Type) where
  regions : List Region
  internalFlash : Option (FlashConfig D)
  patches : List Patch

def saturatingAdd (a b : U32) : U32 := (checkedAdd a b).getD 0xffffffff

def roundUp (n boundary : ℕ) : ℕ := (n + boundary - 1) / boundary * boundary

variable {U D : Type}

namespace Flash

def validateConfig (config : FlashConfig D) : Except FlashConfigError Unit :=
  if config.model ≠ .stm32F7DualBank then .error .unsupportedModel
  else if config.size ≠ 0x200000 then .error (.wrongSize config.size)
  else
    match config.persistent with
    | none => .ok ()
    | some persistent =>
      match checkedAdd config.start config.size with
      | none => .error .rangeOverflows
      | some flashEnd =>
        match checkedAdd persistent.start persistent.size with
        | none => .error .persistentRangeOverflows
        | some persistentEnd =>
          if persistent.start < config.start ∨
            flashEnd < persistentEnd then .error .persistentOutside
          else .ok ()

/-- A region inside one of the ranges of the flash. -/
def isFlashMapping (config : FlashConfig D) (start size : U32) : Bool :=
  match checkedAdd start size with
  | none => false
  | some end_ => (config.start :: config.aliases).any fun base =>
      decide (base ≤ start) && decide (end_ ≤ saturatingAdd base config.size)

section Engine

variable [UnicornEngine U]

/-- One round of the loop of `initializeMemory`. -/
def initializeRegion (config : FlashConfig D) (uc : U) (region : Region) : Option U :=
  if isFlashMapping config region.start region.size then
    match fill uc region.start.toNat region.size.toNat erased with
    | (true, uc) => some uc
    | (false, _) => none
  else some uc

def initializeMemory (uc : U) (config : FlashConfig D) (regions : List Region) : Option U :=
  match validateConfig config with
  | .error _ => none
  | .ok () => regions.foldlM (initializeRegion config) uc

/-- Where the saved bytes are restored: in the flash, and at the same offset under each alias. -/
def restoredPlacements (config : FlashConfig D) (persistent : FlashPersistence D)
    (bytes : List U8) :
    List (Placement U8) :=
  let offset := persistent.start.toNat - config.start.toNat
  (persistent.start.toNat, bytes) :: config.aliases.map fun base => (base.toNat + offset, bytes)

/-- The addresses of the restored bytes are computed without an overflow. -/
def RestoreFits (config : FlashConfig D) (persistent : FlashPersistence D) : Prop :=
  config.start.toNat ≤ persistent.start.toNat ∧
    ∀ base ∈ config.aliases, base.toNat + (persistent.start.toNat - config.start.toNat) < 2 ^ 32

instance (config : FlashConfig D) (persistent : FlashPersistence D) :
    Decidable (RestoreFits config persistent) := inferInstanceAs (Decidable (_ ∧ _))

/-- Restoring the backing file.  A file of the wrong length is an error, a missing file is none. -/
def loadPersistent (uc : U) (config : FlashConfig D) (file : FileRead) : Option U :=
  match config.persistent with
  | none => some uc
  | some persistent =>
    match persistent.backingFile with
    | none => some uc
    | some _ =>
      match file with
      | .notFound => some uc
      | .failed => none
      | .bytes bytes =>
        if bytes.length ≠ persistent.size.toNat then none
        else if RestoreFits config persistent then
          memWriteAll uc (restoredPlacements config persistent bytes)
        else none

end Engine

end Flash

/-! ## The start -/

section Start

variable [MappableEngine U]

/-- Mapping a region. -/
def mapRegion (uc : U) (region : Region) : Option U :=
  memMap uc region.start.toNat (roundUp region.size.toNat 4096)

/-- Filling a region if it is flash. -/
def initializeFlash (config : MemoryConfig D) (uc : U) (region : Region) : Option U :=
  match config.internalFlash with
  | some internalFlash => Flash.initializeMemory uc internalFlash [region]
  | none => some uc

/-- Loading the file of a region, as much of it as the region holds. -/
def loadFile (files : String → Option (List U8)) (uc : U) (region : Region) : Option U :=
  match region.load with
  | none => some uc
  | some load => (files load).bind fun content =>
      memWrite uc region.start.toNat (content.take (roundUp region.size.toNat 4096))

/-- One round of the loop of `loadMemoryRegions`. -/
def loadRegion (files : String → Option (List U8)) (config : MemoryConfig D) (uc : U)
    (region : Region) :
    Option U :=
  (mapRegion uc region).bind fun uc =>
    (initializeFlash config uc region).bind fun uc => loadFile files uc region

def restoreFlash (config : MemoryConfig D) (file : FileRead) (uc : U) : Option U :=
  match config.internalFlash with
  | some internalFlash => Flash.loadPersistent uc internalFlash file
  | none => some uc

def Patch.placement (patch : Patch) : Placement U8 := (patch.start.toNat, patch.data)

/-- Mapping and loading everything: the regions, the backing file, the patches. -/
def loadMemoryRegions (files : String → Option (List U8)) (config : MemoryConfig D)
    (file : FileRead) (uc : U) : Option U :=
  (config.regions.foldlM (loadRegion files config) uc).bind fun uc =>
    (restoreFlash config file uc).bind fun uc => memWriteAll uc (config.patches.map Patch.placement)

end Start

/-! ## The image -/

/-- What a region places: zeros where it is mapped, the erased value if it is flash, and its
file. -/
def Region.placements (files : String → Option (List U8)) (config : MemoryConfig D)
    (region : Region) :
    List (Placement U8) :=
  let size := roundUp region.size.toNat 4096
  (region.start.toNat, List.replicate size 0#8) ::
    ((match config.internalFlash with
      | some flash => if Flash.isFlashMapping flash region.start region.size then
          [(region.start.toNat, List.replicate region.size.toNat Flash.erased)] else []
      | none => []) ++
    (match region.load.bind files with
      | some content => [(region.start.toNat, content.take size)]
      | none => []))

/-- What the backing file places. -/
def FlashConfig.placements (flash : FlashConfig D) (file : FileRead) : List (Placement U8) :=
  match flash.persistent, file with
  | some persistent, .bytes bytes =>
    if persistent.backingFile.isSome then Flash.restoredPlacements flash persistent bytes else []
  | _, _ => []

/-- The placements of the regions. -/
def MemoryConfig.regionPlacements (files : String → Option (List U8)) (config : MemoryConfig D) :
    List (Placement U8) :=
  config.regions.flatMap (Region.placements files config)

/-- Everything that is placed at the start, in this order. -/
def MemoryConfig.placements (files : String → Option (List U8)) (config : MemoryConfig D)
    (file : FileRead) : List (Placement U8) :=
  config.regionPlacements files ++
    ((match config.internalFlash with
      | some flash => flash.placements file
      | none => []) ++ config.patches.map Patch.placement)

/-- The mapping of a region is placed. -/
lemma exists_placement_of_mem_regions (files : String → Option (List U8)) {config : MemoryConfig D}
    {region : Region} (hregion : region ∈ config.regions) {x : ℕ} (hle : region.start.toNat ≤ x)
    (hlt : x < region.start.toNat + roundUp region.size.toNat 4096) :
    ∃ p ∈ config.regionPlacements files, Covers p x := by
  refine ⟨(region.start.toNat, List.replicate (roundUp region.size.toNat 4096) 0#8), ?_, hle, ?_⟩
  · exact List.mem_flatMap.mpr ⟨region, hregion, List.mem_cons_self⟩
  · rwa [List.length_replicate]

section Image

variable [MappableEngine U] {files : String → Option (List U8)} {config : MemoryConfig D}
    {uc uc' : U}
  {region : Region} {file : FileRead}

lemma memByte_of_mapRegion (h : mapRegion uc region = some uc') :
    memByte uc' = overlay (memByte uc)
      (region.start.toNat, List.replicate (roundUp region.size.toNat 4096) 0#8) := by
  funext x
  rw [MappableEngine.memByte_memMap _ _ _ _ _ h, overlay_replicate]
  rfl

/-- What is mapped by a region stays mapped, and its fill is a placement. -/
lemma memByte_of_initializeFlash
    (hmapped : ∀ x, region.start.toNat ≤ x → x < region.start.toNat + region.size.toNat →
      (memByte uc x).isSome = true)
    (h : initializeFlash config uc region = some uc') :
    memByte uc' = overlayAll (memByte uc)
      (match config.internalFlash with
        | some flash => if Flash.isFlashMapping flash region.start region.size then
            [(region.start.toNat, List.replicate region.size.toNat Flash.erased)] else []
        | none => []) := by
  unfold initializeFlash at h
  cases hflash : config.internalFlash with
  | none =>
    rw [hflash] at h
    obtain rfl := Option.some.inj h
    rfl
  | some flash =>
    rw [hflash] at h
    dsimp only at h ⊢
    unfold Flash.initializeMemory at h
    split at h
    · cases h
    · have hone : Flash.initializeRegion flash uc region = some uc' := by
        simpa using h
      unfold Flash.initializeRegion at hone
      split_ifs at hone ⊢
      · obtain ⟨uc₁, hfill, hbytes⟩ := Flash.fill_spec Flash.erased hmapped
        rw [hfill] at hone
        obtain rfl := Option.some.inj hone
        rw [hbytes]
        rfl
      · obtain rfl := Option.some.inj hone
        rfl

lemma memByte_of_loadFile (h : loadFile files uc region = some uc') :
    memByte uc' = overlayAll (memByte uc)
      (match region.load.bind files with
        | some content => [(region.start.toNat, content.take (roundUp region.size.toNat 4096))]
        | none => []) := by
  unfold loadFile at h
  cases hload : region.load with
  | none =>
    rw [hload] at h
    obtain rfl := Option.some.inj h
    rfl
  | some load =>
    rw [hload] at h
    obtain ⟨content, hcontent, hwrite⟩ := Option.bind_eq_some_iff.mp h
    rw [Option.bind_some, hcontent]
    exact memByte_of_memWrite (p := (_, _)) hwrite

lemma le_roundUp (n : ℕ) : n ≤ roundUp n 4096 := by
  unfold roundUp
  omega

/-- A region is mapped to its end. -/
lemma isSome_of_mapRegion (h : mapRegion uc region = some uc') {x : ℕ} (hx : region.start.toNat ≤ x)
    (hlt : x < region.start.toNat + region.size.toNat) : (memByte uc' x).isSome = true := by
  have hround := le_roundUp region.size.toNat
  rw [memByte_of_mapRegion h, overlay_replicate, if_pos ⟨hx, by omega⟩]
  rfl

/-- **A region** is what it places. -/
lemma memByte_of_loadRegion (h : loadRegion files config uc region = some uc') :
    memByte uc' = overlayAll (memByte uc) (region.placements files config) := by
  obtain ⟨uc₁, hmap, h⟩ := Option.bind_eq_some_iff.mp h
  obtain ⟨uc₂, hinit, hload⟩ := Option.bind_eq_some_iff.mp h
  have hmapped := fun x => isSome_of_mapRegion (x := x) hmap
  rw [memByte_of_loadFile hload, memByte_of_initializeFlash hmapped hinit,
    memByte_of_mapRegion hmap]
  unfold Region.placements
  rw [overlayAll_cons, overlayAll_append]

/-- A region without a file is loaded if it can be mapped. -/
lemma loadRegion_isSome (files : String → Option (List U8)) (hmap : mapRegion uc region = some uc')
    (hload : region.load = none)
    (hvalid : ∀ flash, config.internalFlash = some flash → Flash.validateConfig flash = .ok ()) :
    ∃ uc'', loadRegion files config uc region = some uc'' := by
  have hinit : ∃ uc'', initializeFlash config uc' region = some uc'' := by
    unfold initializeFlash
    cases hflash : config.internalFlash with
    | none => exact ⟨uc', rfl⟩
    | some flash =>
      dsimp only
      unfold Flash.initializeMemory
      rw [hvalid flash hflash]
      simp only [List.foldlM_cons, List.foldlM_nil]
      unfold Flash.initializeRegion
      split_ifs
      · obtain ⟨uc'', hfill, -⟩ :=
          Flash.fill_spec Flash.erased fun x => isSome_of_mapRegion (x := x) hmap
        rw [hfill]
        exact ⟨uc'', rfl⟩
      · exact ⟨uc', rfl⟩
  obtain ⟨uc'', hinit⟩ := hinit
  refine ⟨uc'', ?_⟩
  unfold loadRegion loadFile
  rw [hmap, Option.bind_some, hinit, Option.bind_some, hload]

/-- So are regions without files. -/
lemma loadRegions_isSome (files : String → Option (List U8)) {regions : List Region} (uc : U)
    (hmap : ∀ (uc : U), ∀ region ∈ regions, ∃ uc', mapRegion uc region = some uc')
    (hload : ∀ region ∈ regions, region.load = none)
    (hvalid : ∀ flash, config.internalFlash = some flash → Flash.validateConfig flash = .ok ()) :
    ∃ uc', regions.foldlM (loadRegion files config) uc = some uc' := by
  induction regions generalizing uc with
  | nil => exact ⟨uc, rfl⟩
  | cons region regions ih =>
    obtain ⟨uc₁, hmap₁⟩ := hmap uc region List.mem_cons_self
    obtain ⟨uc₂, hregion⟩ := loadRegion_isSome files hmap₁ (hload region List.mem_cons_self) hvalid
    have hrest : ∃ uc', regions.foldlM (loadRegion files config) uc₂ = some uc' :=
      ih uc₂ (fun uc r hr => hmap uc r (List.mem_cons_of_mem _ hr))
        fun r hr => hload r (List.mem_cons_of_mem _ hr)
    obtain ⟨uc', hrest⟩ := hrest
    refine ⟨uc', ?_⟩
    rw [List.foldlM_cons, hregion]
    exact hrest

lemma memByte_of_regions {regions : List Region}
    (h : regions.foldlM (loadRegion files config) uc = some uc') :
    memByte uc' = overlayAll (memByte uc) (regions.flatMap (Region.placements files config)) := by
  induction regions generalizing uc with
  | nil =>
    obtain rfl := Option.some.inj h
    rfl
  | cons region regions ih =>
    obtain ⟨uc₁, hregion, hrest⟩ := Option.bind_eq_some_iff.mp h
    rw [List.flatMap_cons, overlayAll_append, ← memByte_of_loadRegion hregion]
    exact ih hrest

lemma memByte_of_restoreFlash (h : restoreFlash config file uc = some uc') :
    memByte uc' = overlayAll (memByte uc)
      (match config.internalFlash with
        | some flash => flash.placements file
        | none => []) := by
  unfold restoreFlash at h
  cases hflash : config.internalFlash with
  | none =>
    rw [hflash] at h
    obtain rfl := Option.some.inj h
    rfl
  | some flash =>
    rw [hflash] at h
    dsimp only at h ⊢
    unfold Flash.loadPersistent at h
    unfold FlashConfig.placements
    split at h
    next hpersistent =>
      obtain rfl := Option.some.inj h
      rw [hpersistent]
      rfl
    next persistent hpersistent =>
      rw [hpersistent]
      split at h
      next hfile =>
        obtain rfl := Option.some.inj h
        cases file with
        | bytes bytes =>
          dsimp only
          rw [hfile]
          rfl
        | _ => rfl
      next backing hfile =>
        cases file with
        | notFound =>
          obtain rfl := Option.some.inj h
          rfl
        | failed => cases h
        | bytes bytes =>
          dsimp only at h ⊢
          split_ifs at h
          rw [hfile]
          exact memByte_of_memWriteAll h

/-- **The memory at the start** is the image of what is placed. -/
theorem memByte_of_loadMemoryRegions (h : loadMemoryRegions files config file uc = some uc') :
    memByte uc' = overlayAll (memByte uc) (config.placements files file) := by
  obtain ⟨uc₁, hregions, h⟩ := Option.bind_eq_some_iff.mp h
  obtain ⟨uc₂, hrestore, hpatches⟩ := Option.bind_eq_some_iff.mp h
  unfold MemoryConfig.placements MemoryConfig.regionPlacements
  rw [overlayAll_append, overlayAll_append, ← memByte_of_regions hregions,
    ← memByte_of_restoreFlash hrestore]
  exact memByte_of_memWriteAll hpatches

end Image

end Stm32Emulator
