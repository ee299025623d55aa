import Stm32Emulator.InternalFlash.SectorErase

/-!
# Sums of addresses

A sector and the saved bytes are addressed by the sum of an address of the flash and an offset,
which may be past the end of the address space.  The range of the flash is checked only if some of
it is saved, and those of its aliases never are.  No sum overflows in any run if and only if the
last sector fits under each address, and the saved bytes under each alias
(`Flash.no_address_overflow_iff`).
-/

namespace Stm32Emulator

open MemoryImage

variable {U D : Type}

/-- What restoring gives: the memory, a failure, or a sum past the end of the address space. -/
inductive Restored (U : Type) where
  | done (uc : U)
  | failed
  | overflows

namespace Flash

section Engine

variable [UnicornEngine U]

/-- The saved bytes at an offset under each alias, in order. -/
def restoreAliases (offset : ℕ) (bytes : List U8) (uc : U) : List U32 → Restored U
  | [] => .done uc
  | base :: aliases =>
    if 2 ^ 32 ≤ base.toNat + offset then .overflows
    else
      match memWrite uc (base.toNat + offset) bytes with
      | some uc => restoreAliases offset bytes uc aliases
      | none => .failed

/-- `loadPersistent`, with its sums. -/
def loadPersistentSums (uc : U) (config : FlashConfig D) (file : FileRead) : Restored U :=
  match config.persistent with
  | none => .done uc
  | some persistent =>
    match persistent.backingFile with
    | none => .done uc
    | some _ =>
      match file with
      | .notFound => .done uc
      | .failed => .failed
      | .bytes bytes =>
        if bytes.length ≠ persistent.size.toNat then .failed
        else if persistent.start.toNat < config.start.toNat then .overflows
        else
          match memWrite uc persistent.start.toNat bytes with
          | some uc =>
            restoreAliases (persistent.start.toNat - config.start.toNat) bytes uc config.aliases
          | none => .failed

end Engine

/-! ## Restoring -/

section Restoring

variable [UnicornEngine U]

lemma restoreAliases_eq_done_iff {offset : ℕ} {bytes : List U8} {aliases : List U32} {uc uc' : U} :
    restoreAliases offset bytes uc aliases = .done uc' ↔
      (∀ base ∈ aliases, base.toNat + offset < 2 ^ 32) ∧
      memWriteAll uc (aliases.map fun base => (base.toNat + offset, bytes)) = some uc' := by
  induction aliases generalizing uc with
  | nil =>
    constructor
    · rintro ⟨⟩
      exact ⟨nofun, rfl⟩
    · rintro ⟨-, h⟩
      exact congrArg _ (Option.some.inj h)
  | cons base aliases ih =>
    unfold restoreAliases
    rw [List.forall_mem_cons, List.map_cons]
    by_cases hover : 2 ^ 32 ≤ base.toNat + offset
    · rw [if_pos hover]
      constructor
      · rintro ⟨⟩
      · rintro ⟨⟨hfits, -⟩, -⟩
        exact absurd hover (not_le.mpr hfits)
    · rw [if_neg hover]
      have hall : ∀ later, memWriteAll uc ((base.toNat + offset, bytes) :: later) =
          (memWrite uc (base.toNat + offset) bytes).bind fun uc => memWriteAll uc later :=
            fun _ => rfl
      rw [hall]
      cases memWrite uc (base.toNat + offset) bytes with
      | none =>
        constructor
        · rintro ⟨⟩
        · rintro ⟨-, ⟨⟩⟩
      | some uc₁ =>
        rw [Option.bind_some]
        refine ih.trans ⟨?_, ?_⟩
        · rintro ⟨hfits, hwrite⟩
          exact ⟨⟨not_le.mp hover, hfits⟩, hwrite⟩
        · rintro ⟨⟨-, hfits⟩, hwrite⟩
          exact ⟨hfits, hwrite⟩

/-- An accepted flash starts before what is saved of it. -/
lemma start_le_of_validateConfig {config : FlashConfig D} (h : validateConfig config = .ok ())
    {persistent : FlashPersistence D} (hpersistent : config.persistent = some persistent) :
    config.start.toNat ≤ persistent.start.toNat := by
  have hsize := size_of_validateConfig h
  unfold validateConfig at h
  rw [hpersistent, if_neg (by cases config.model; simp), if_neg (not_not.mpr hsize)] at h
  dsimp only at h
  split at h
  · cases h
  · split at h
    · cases h
    · split_ifs at h with houtside
      exact BitVec.not_lt.mp (not_or.mp houtside).1

/-- Restoring succeeds with the same memory. -/
lemma loadPersistentSums_eq_done_iff {config : FlashConfig D} {file : FileRead} {uc uc' : U} :
    loadPersistentSums uc config file = .done uc' ↔ loadPersistent uc config file = some uc' := by
  have hdone : ∀ uc : U, Restored.done uc = .done uc' ↔ some uc = some uc' := by simp
  unfold loadPersistentSums loadPersistent
  cases hpersistent : config.persistent with
  | none => exact hdone uc
  | some persistent =>
    dsimp only
    cases persistent.backingFile with
    | none => exact hdone uc
    | some backingFile =>
      cases file with
      | notFound => exact hdone uc
      | failed => simp
      | bytes bytes =>
        dsimp only
        by_cases hlength : bytes.length = persistent.size.toNat
        · rw [if_neg (not_not.mpr hlength), if_neg (not_not.mpr hlength)]
          by_cases hbelow : persistent.start.toNat < config.start.toNat
          · rw [if_pos hbelow, if_neg fun hfits : RestoreFits config persistent =>
              absurd hfits.1 (not_le.mpr hbelow)]
            simp
          · have hall : memWriteAll uc (restoredPlacements config persistent bytes) =
                (memWrite uc persistent.start.toNat bytes).bind fun uc => memWriteAll uc
                  (config.aliases.map fun base =>
                    (base.toNat + (persistent.start.toNat - config.start.toNat), bytes)) := rfl
            rw [if_neg hbelow, hall]
            cases memWrite uc persistent.start.toNat bytes with
            | none => simp
            | some uc₁ =>
              dsimp only
              rw [restoreAliases_eq_done_iff, Option.bind_some]
              by_cases hfits : RestoreFits config persistent
              · rw [if_pos hfits]
                exact and_iff_right hfits.2
              · rw [if_neg hfits]
                constructor
                · rintro ⟨hsums, -⟩
                  exact absurd ⟨not_lt.mp hbelow, hsums⟩ hfits
                · rintro ⟨⟩
        · rw [if_pos hlength, if_pos hlength]
          simp

end Restoring

/-! ## What overflows -/

/-- The last sector fits under each address of the flash, and what is saved under each alias. -/
structure AddressesFit (config : FlashConfig D) : Prop where
  sectors : ∀ base ∈ config.bases, base.toNat + 0x1e0000 < 2 ^ 32
  saved : ∀ persistent, config.persistent = some persistent → persistent.backingFile.isSome = true →
    ∀ base ∈ config.aliases, base.toNat + (persistent.start.toNat - config.start.toNat) < 2 ^ 32

/-- No sum overflows: neither when the saved bytes are restored, whatever the file and the memory
are, nor in a register write after any others. -/
def NoAddressOverflow (config : FlashConfig D) (d : D) : Prop :=
  ∀ (U : Type) [UnicornEngine U] (uc : U),
    (∀ file, loadPersistentSums uc config file ≠ .overflows) ∧
    ∀ as s, Run (stepRel step) (Flash.new (some config.toInternalFlashConfig), uc, d) as s →
      ∀ offset value, s.1.write s.2.1 s.2.2 offset value ≠ none

section Fits

variable [UnicornEngine U] {config : FlashConfig D}

lemma restoreAliases_ne_overflows {offset : ℕ} {bytes : List U8} {aliases : List U32}
    (hfits : ∀ base ∈ aliases, base.toNat + offset < 2 ^ 32) (uc : U) :
    restoreAliases offset bytes uc aliases ≠ .overflows := by
  induction aliases generalizing uc with
  | nil => nofun
  | cons base aliases ih =>
    obtain ⟨hbase, hfits⟩ := List.forall_mem_cons.mp hfits
    unfold restoreAliases
    rw [if_neg (not_le.mpr hbase)]
    cases memWrite uc (base.toNat + offset) bytes with
    | none => nofun
    | some uc₁ => exact ih hfits uc₁

lemma loadPersistentSums_ne_overflows (haccepted : validateConfig config = .ok ())
    (hfits : AddressesFit config) (uc : U) (file : FileRead) :
    loadPersistentSums uc config file ≠ .overflows := by
  unfold loadPersistentSums
  cases hpersistent : config.persistent with
  | none => nofun
  | some persistent =>
    dsimp only
    cases hfile : persistent.backingFile with
    | none => nofun
    | some backingFile =>
      cases file with
      | notFound => nofun
      | failed => nofun
      | bytes bytes =>
        dsimp only
        rw [if_neg (not_lt.mpr (start_le_of_validateConfig haccepted hpersistent))]
        split_ifs
        · nofun
        · cases memWrite uc persistent.start.toNat bytes with
          | none => nofun
          | some uc₁ =>
            have hsaved := hfits.saved persistent hpersistent (Option.isSome_of_eq_some hfile)
            exact restoreAliases_ne_overflows hsaved uc₁

/-- No sector starts after the last. -/
lemma sectorRange_offset_le {number offset size : ℕ}
    (h : sectorRange number = some (offset, size)) :
    offset ≤ 0x1e0000 := by
  unfold sectorRange at h
  dsimp only at h
  split_ifs at h <;> simp only [Option.some.injEq, Prod.mk.injEq] at h <;> omega

/-- A register write has a result if the sector that it erases fits. -/
lemma write_ne_none {flash : Flash D}
    (hinternal : flash.internal = some config.toInternalFlashConfig) (hfits : AddressesFit config)
    (uc : U) (d : D) (offset value : U32) :
    flash.write uc d offset value ≠ none := by
  by_cases hcr : offset = 0x10
  · subst hcr
    by_cases hkeep : flash.Locked ∨ ¬ StartsErase value
    · obtain ⟨flash', d', hwrite⟩ := exists_write_of_keep hkeep uc d
      rw [hwrite]
      exact Option.some_ne_none _
    · obtain ⟨hopen, hstarts⟩ := not_or.mp hkeep
      have herase : ∃ result, flash.eraseSector uc (sectorNumber value) = some result := by
        cases hrange : sectorRange (sectorNumber value) with
        | none => exact ⟨_, eraseSector_of_rejected (Or.inr hrange) uc⟩
        | some range =>
          obtain ⟨offset, size⟩ := range
          have hoffset := sectorRange_offset_le hrange
          have hstarts : ∀ base ∈ config.bases, base.toNat + offset < 2 ^ 32 := by
            intro base hbase
            have hbase := hfits.sectors base hbase
            omega
          obtain ⟨result, hfill⟩ := exists_fillAll size hstarts uc
          refine ⟨result, ?_⟩
          unfold eraseSector
          rw [hinternal, hrange]
          exact hfill
      obtain ⟨⟨success, uc'⟩, herase⟩ := herase
      obtain ⟨flash', d', hwrite, -⟩ := exists_write_of_erase hopen (not_not.mp hstarts) herase d
      rw [hwrite]
      exact Option.some_ne_none _
  · unfold write
    split_ifs <;> exact Option.some_ne_none _

/-- The configuration stays. -/
lemma internal_step {s s' : Flash D × U × D} {a : FlashAction U D} (h : step s a = some s') :
    s'.1.internal = s.1.internal := by
  cases a with
  | write offset value => exact (write_memory h).1
  | other uc d =>
    obtain rfl := Option.some.inj h
    rfl

end Fits

/-! ## Reaching an overflow -/

section Reaching

variable [UnicornEngine U]

/-- If everything is mapped, an alias that is too high is reached. -/
lemma restoreAliases_eq_overflows {offset : ℕ} {bytes : List U8} {aliases : List U32} {uc : U}
    (hmapped : ∀ x, (memByte uc x).isSome = true) {base : U32} (hbase : base ∈ aliases)
    (hhigh : 2 ^ 32 ≤ base.toNat + offset) :
    restoreAliases offset bytes uc aliases = .overflows := by
  induction aliases generalizing uc with
  | nil => cases hbase
  | cons first aliases ih =>
    unfold restoreAliases
    by_cases hover : 2 ^ 32 ≤ first.toNat + offset
    · rw [if_pos hover]
    · obtain ⟨uc₁, hwrite⟩ := Option.isSome_iff_exists.mp (UnicornEngine.memWrite_isSome uc
        (first.toNat + offset) bytes fun i _ => hmapped _)
      have hmapped₁ : ∀ x, (memByte uc₁ x).isSome = true := by
        intro x
        rw [memByte_of_memWrite (p := (first.toNat + offset, bytes)) hwrite]
        exact isSome_overlay (hmapped x)
      have hlater : base ∈ aliases :=
        (List.mem_cons.mp hbase).resolve_left fun h => hover (h ▸ hhigh)
      rw [if_neg hover, hwrite]
      exact ih hmapped₁ hlater

lemma fillAll_eq_none {offset size : ℕ} {starts : List U32} {uc : U}
    (hmapped : ∀ x, (memByte uc x).isSome = true) {start : U32} (hstart : start ∈ starts)
    (hhigh : 2 ^ 32 ≤ start.toNat + offset) : fillAll uc offset size starts = none := by
  induction starts generalizing uc with
  | nil => cases hstart
  | cons first starts ih =>
    unfold fillAll
    by_cases hover : 2 ^ 32 ≤ first.toNat + offset
    · rw [if_pos hover]
    · obtain ⟨uc₁, hfill, hbytes⟩ := @fill_spec U _ (first.toNat + offset) size erased uc
        fun x _ _ => hmapped x
      have hmapped₁ : ∀ x, (memByte uc₁ x).isSome = true := by
        intro x
        rw [hbytes]
        exact isSome_overlay (hmapped x)
      have hlater : start ∈ starts :=
        (List.mem_cons.mp hstart).resolve_left fun h => hover (h ▸ hhigh)
      rw [if_neg hover, hfill]
      exact ih hmapped₁ hlater

/-- Erasing a sector that is too high has no result. -/
lemma write_eq_none {flash : Flash D} {uc : U} {value : U32} (hopen : ¬ flash.Locked)
    (hstarts : StartsErase value) (herase : flash.eraseSector uc (sectorNumber value) = none)
    (d : D) :
    flash.write uc d 0x10 value = none := by
  have hlocked : (flash.cr &&& crLock != 0#32) = false := by simpa [Locked] using hopen
  have hsame : (flash.storeCr value).eraseSector uc ((value &&& crSnbMask) >>> 3).toNat = none :=
    herase
  have honWrite : (flash.storeCr value).eraseOnWrite uc false value = none := by
    unfold eraseOnWrite
    rw [if_pos ⟨rfl, hstarts⟩, hsame]
    rfl
  change flash.writeControl uc d value = _
  unfold writeControl
  dsimp only
  rw [hlocked, if_neg (by rintro ⟨h, -⟩; cases h), honWrite]
  rfl

end Reaching

/-- An engine whose memory is mapped everywhere. -/
def fullEngine : RegisterFile := ⟨fun _ => 0, fun _ => some 0⟩

/-- The keys, after which any sector may be erased. -/
def unlocking : List (FlashAction U D) := [.write 0x04 key1, .write 0x04 key2]

lemma run_unlocking [UnicornEngine U] (internal : Option (InternalFlashConfig D)) (uc : U) (d : D) :
    ∃ flash : Flash D, Run (stepRel step) (Flash.new internal, uc, d) unlocking (flash, uc, d) ∧
      flash.internal = internal ∧ ¬ flash.Locked := by
  have hcr : (((Flash.new internal).writeKey key1).writeKey key2).cr = crLock &&& ~~~crLock := rfl
  refine ⟨((Flash.new internal).writeKey key1).writeKey key2, ?_, rfl, fun h => ?_⟩
  · have hfirst : step (Flash.new internal, uc, d) (.write 0x04 key1) =
        some ((Flash.new internal).writeKey key1, uc, d) := rfl
    have hsecond : step ((Flash.new internal).writeKey key1, uc, d) (.write 0x04 key2) =
        some (((Flash.new internal).writeKey key1).writeKey key2, uc, d) := rfl
    exact (Run.single hfirst).append (Run.single hsecond)
  · unfold Locked at h
    rw [hcr] at h
    exact h (by decide)

/-- The last sector is erased under an address that is too high. -/
lemma erase_last_overflows {config : FlashConfig D} {base : U32} (hbase : base ∈ config.bases)
    (hhigh : 2 ^ 32 ≤ base.toNat + 0x1e0000) (d : D) : ∃ s : Flash D × RegisterFile × D,
      Run (stepRel step) (Flash.new (some config.toInternalFlashConfig), fullEngine,
        d) unlocking s ∧
        s.1.write s.2.1 s.2.2 0x10 0x100da = none := by
  obtain ⟨flash, hrun, hinternal, hopen⟩ :=
    run_unlocking (some config.toInternalFlashConfig) fullEngine d
  have hrange : sectorRange (sectorNumber 0x100da) = some (0x1e0000, 0x20000) := by decide
  have herase : flash.eraseSector fullEngine (sectorNumber 0x100da) = none := by
    unfold eraseSector
    rw [hinternal, hrange]
    exact fillAll_eq_none (fun _ => rfl) hbase hhigh
  exact ⟨_, hrun, write_eq_none hopen ⟨by decide, by decide⟩ herase d⟩

/-- The saved bytes are restored under an alias that is too high. -/
lemma restore_overflows {config : FlashConfig D} {persistent : FlashPersistence D}
    (hpersistent : config.persistent = some persistent)
    (hfile : persistent.backingFile.isSome = true) {base : U32} (hbase : base ∈ config.aliases)
    (hhigh : 2 ^ 32 ≤ base.toNat + (persistent.start.toNat - config.start.toNat)) :
    loadPersistentSums fullEngine config (.bytes (List.replicate persistent.size.toNat 0)) =
      .overflows := by
  obtain ⟨backingFile, hfile⟩ := Option.isSome_iff_exists.mp hfile
  obtain ⟨uc, hwrite⟩ := Option.isSome_iff_exists.mp (UnicornEngine.memWrite_isSome fullEngine
    persistent.start.toNat (List.replicate persistent.size.toNat 0) fun _ _ => rfl)
  have hmapped : ∀ x, (memByte uc x).isSome = true := by
    intro x
    rw [memByte_of_memWrite
      (p := (persistent.start.toNat, List.replicate persistent.size.toNat 0)) hwrite]
    exact isSome_overlay rfl
  unfold loadPersistentSums
  rw [hpersistent]
  dsimp only
  rw [hfile]
  dsimp only
  rw [if_neg (not_not.mpr List.length_replicate)]
  split_ifs
  · rfl
  · rw [hwrite]
    exact restoreAliases_eq_overflows hmapped hbase hhigh

/-- **No sum overflows**, in any run of an accepted flash, if and only if its addresses fit. -/
theorem no_address_overflow_iff {config : FlashConfig D}
    (haccepted : validateConfig config = .ok ()) (d : D) :
    NoAddressOverflow config d ↔ AddressesFit config := by
  constructor
  · intro h
    obtain ⟨hrestore, hwrite⟩ := h RegisterFile fullEngine
    refine ⟨fun base hbase => ?_, fun persistent hpersistent hfile base hbase => ?_⟩
    · by_contra hhigh
      obtain ⟨s, hrun, hnone⟩ := erase_last_overflows hbase (not_lt.mp hhigh) d
      exact hwrite _ s hrun _ _ hnone
    · by_contra hhigh
      exact hrestore _ (restore_overflows hpersistent hfile hbase (not_lt.mp hhigh))
  · intro hfits U _ uc
    refine ⟨loadPersistentSums_ne_overflows haccepted hfits uc, fun as s hrun offset value => ?_⟩
    have hinternal : s.1.internal = some config.toInternalFlashConfig :=
      hrun.invariant_state (I := fun s => s.1.internal = some config.toInternalFlashConfig) rfl
        fun _ _ _ h hstep => (internal_step hstep).trans h
    exact write_ne_none hinternal hfits s.2.1 s.2.2 offset value

/-- A kibibyte in the middle of the flash, and a file that is always written. -/
def highSaved : FlashPersistence Unit :=
  ⟨0x08100000, 0x400, some ⟨fun d => (true, d), fun d => (true, d), fun _ d => (true, d),
    fun d => (true, d)⟩⟩

/-- A flash of which a kibibyte is saved, with an alias in the highest mebibyte. -/
def highFlash : FlashConfig Unit where
  start := 0x08000000
  aliases := [0xfff00000]
  persistent := some highSaved
  model := .stm32F7DualBank
  size := 0x200000

theorem no_address_overflow_iff_sample : NoAddressOverflow sampleFlash () := by
  refine (no_address_overflow_iff sampleFlash_accepted ()).mpr ⟨fun base hbase => ?_, nofun⟩
  rcases List.mem_cons.mp hbase with rfl | hbase
  · decide
  · rw [List.mem_singleton.mp hbase]
    decide

/-- The flash is accepted, but the addresses of its alias overflow, when the saved bytes are
restored and when the last sector is erased. -/
theorem high_alias_overflows : validateConfig highFlash = .ok () ∧
    loadPersistentSums fullEngine highFlash
      (.bytes (List.replicate highSaved.size.toNat 0)) = .overflows ∧
    ∃ s : Flash Unit × RegisterFile × Unit,
      Run (stepRel step) (Flash.new (some highFlash.toInternalFlashConfig), fullEngine,
        ()) unlocking s ∧
        s.1.write s.2.1 s.2.2 0x10 0x100da = none := by
  have halias : (0xfff00000 : U32) ∈ highFlash.aliases := List.mem_cons_self
  have hsaved : highFlash.persistent = some highSaved := rfl
  refine ⟨?_, restore_overflows hsaved rfl halias (by decide),
    erase_last_overflows (List.mem_cons_of_mem _ halias) (by decide) ()⟩
  unfold validateConfig
  rw [if_neg (by decide), if_neg (by decide)]
  rfl

end Flash

end Stm32Emulator
