import Stm32Emulator.Engine.RegisterFile
import Stm32Emulator.Foundation.Run
import Stm32Emulator.Peripherals.Flash

/-!
# The lock of the flash interface

The control register is locked at reset.  Only the two keys, one right after the other, unlock it;
only an unlocked control register erases; and the memory is saved when it is locked again
(`Flash.lock_protocol`). The key automaton is followed through the history: it waits for the second
key only after the first.
-/

namespace Stm32Emulator

variable {U D : Type}

/-- A register write, or anything that happens outside of the interface. -/
inductive FlashAction (U D : Type) where
  | write (offset value : U32)
  | other (uc : U) (d : D)

namespace Flash

def Locked (flash : Flash D) : Prop := flash.cr &&& crLock ≠ 0#32

instance (flash : Flash D) : Decidable flash.Locked := inferInstanceAs (Decidable (_ ≠ _))

/-- A value of the control register that locks it. -/
def Locks (value : U32) : Prop := value &&& crLock ≠ 0#32

/-- A value of the control register that starts to erase a sector. -/
def StartsErase (value : U32) : Prop := value &&& crStrt ≠ 0#32 ∧ value &&& crSer ≠ 0#32

/-- The sector that a value of the control register names. -/
def sectorNumber (value : U32) : ℕ := ((value &&& crSnbMask) >>> 3).toNat

/-! ## Histories -/

/-- The last write of the key register was of the first key. -/
def FirstKeyWritten (as : List (FlashAction U D)) : Prop :=
  ∃ before mid, as = before ++ .write 0x04 key1 :: mid ∧ ∀ value, FlashAction.write 0x04 value ∉ mid

lemma FirstKeyWritten.snoc {as : List (FlashAction U D)} {a : FlashAction U D}
    (h : FirstKeyWritten as) (ha : ∀ value, a ≠ .write 0x04 value) :
    FirstKeyWritten (as ++ [a]) := by
  obtain ⟨before, mid, rfl, hmid⟩ := h
  refine ⟨before, mid ++ [a], by simp, fun value hmem => ?_⟩
  rcases List.mem_append.mp hmem with hmem | hmem
  · exact hmid value hmem
  · exact ha value (List.mem_singleton.mp hmem).symm

variable [UnicornEngine U]

/-- One action on the interface, the memory and the outside world. -/
def step (s : Flash D × U × D) : FlashAction U D → Option (Flash D × U × D)
  | .write offset value => s.1.write s.2.1 s.2.2 offset value
  | .other uc d => some (s.1, uc, d)

/-! ## A write of the control register -/

/-- What a write of the control register does that is not refused. -/
structure ControlStored (flash : Flash D) (uc : U) (d : D) (value : U32) (flash' : Flash D)
    (uc' : U) (d' : D) : Prop where
  cr_eq : flash'.cr = value &&& ~~~crStrt
  keyStage_eq : flash'.keyStage = flash.keyStage
  internal_eq : flash'.internal = flash.internal
  erases : ¬ flash.Locked → StartsErase value →
    ∃ success, flash.eraseSector uc (sectorNumber value) = some (success, uc')
  keepsMemory : flash.Locked ∨ ¬ StartsErase value → uc' = uc
  saves : ¬ flash.Locked → Locks value → d' = (flash.persist uc' d).2
  keepsFile : flash.Locked ∨ ¬ Locks value → d' = d

lemma noteResult_eq (flash : Flash D) (success : Bool) :
    (flash.noteResult success).cr = flash.cr ∧
    (flash.noteResult success).keyStage = flash.keyStage ∧
      (flash.noteResult success).internal = flash.internal := by
  unfold noteResult
  split_ifs <;> exact ⟨rfl, rfl, rfl⟩

/-- Erasing on a write: what happens to the interface and to the memory. -/
lemma eraseOnWrite_eq_some {flash flash' : Flash D} {uc uc' : U} {wasLocked : Bool} {value : U32}
    (h : flash.eraseOnWrite uc wasLocked value = some (flash', uc')) :
    (flash'.cr = flash.cr ∧ flash'.keyStage = flash.keyStage ∧ flash'.internal = flash.internal) ∧
      (wasLocked = false → StartsErase value →
        ∃ success, flash.eraseSector uc (sectorNumber value) = some (success, uc')) ∧
      (wasLocked = true ∨ ¬ StartsErase value → uc' = uc) := by
  unfold eraseOnWrite at h
  split_ifs at h with herase
  · obtain ⟨⟨success, uc₁⟩, hsector, heq⟩ := Option.map_eq_some_iff.mp h
    obtain ⟨rfl, rfl⟩ := Prod.mk.inj heq
    have hopen : wasLocked = false := by simpa using herase.1
    refine ⟨noteResult_eq _ _, fun _ _ => ⟨success, hsector⟩, ?_⟩
    rintro (hlocked | hno)
    · rw [hopen] at hlocked
      cases hlocked
    · exact absurd herase.2 hno
  · obtain ⟨rfl, rfl⟩ := Prod.mk.inj (Option.some.inj h)
    refine ⟨⟨rfl, rfl, rfl⟩, fun hopen hstarts => ?_, fun _ => rfl⟩
    exact absurd ⟨by simp [hopen], hstarts⟩ herase

/-- Saving on a write. -/
lemma persistOnWrite_spec (flash : Flash D) (uc : U) (d : D) (wasLocked : Bool) (value : U32) :
    ((flash.persistOnWrite uc d wasLocked value).1.cr = flash.cr ∧
      (flash.persistOnWrite uc d wasLocked value).1.keyStage = flash.keyStage ∧
      (flash.persistOnWrite uc d wasLocked value).1.internal = flash.internal) ∧
    (wasLocked = false → Locks value →
      (flash.persistOnWrite uc d wasLocked value).2 = (flash.persist uc d).2) ∧
    (wasLocked = true ∨ ¬ Locks value → (flash.persistOnWrite uc d wasLocked value).2 = d) := by
  unfold persistOnWrite
  split_ifs with hsave
  · have hopen : wasLocked = false := by simpa using hsave.1
    refine ⟨noteResult_eq _ _, fun _ _ => rfl, ?_⟩
    rintro (hlocked | hno)
    · rw [hopen] at hlocked
      cases hlocked
    · exact absurd hsave.2 hno
  · refine ⟨⟨rfl, rfl, rfl⟩, fun hopen hlocks => ?_, fun _ => rfl⟩
    exact absurd ⟨by simp [hopen], hlocks⟩ hsave

/-- **A write of the control register** is refused, or it is stored. -/
lemma writeControl_cases {flash flash' : Flash D} {uc uc' : U} {d d' : D} {value : U32}
    (h : flash.writeControl uc d value = some (flash', uc', d')) :
    (flash.Locked ∧ ¬ Locks value ∧ flash' = flash ∧ uc' = uc ∧ d' = d) ∨
      ((flash.Locked → Locks value) ∧ ControlStored flash uc d value flash' uc' d') := by
  unfold writeControl at h
  dsimp only at h
  split_ifs at h with hrefused
  · obtain ⟨rfl, heq⟩ := Prod.mk.inj (Option.some.inj h)
    obtain ⟨rfl, rfl⟩ := Prod.mk.inj heq
    refine Or.inl ⟨by simpa [Locked] using hrefused.1, ?_, rfl, rfl, rfl⟩
    simpa [Locks] using hrefused.2
  · obtain ⟨⟨erased, uc₁⟩, herase, heq⟩ := Option.map_eq_some_iff.mp h
    obtain ⟨⟨hcr, hstage, hinternal⟩, herases, hkeeps⟩ := eraseOnWrite_eq_some herase
    obtain ⟨⟨hcr', hstage', hinternal'⟩, hsaves, hkeeps'⟩ :=
      persistOnWrite_spec erased uc₁ d (flash.cr &&& crLock != 0#32) value
    cases heq
    have hlocked : (flash.cr &&& crLock != 0#32) = true ↔ flash.Locked := by simp [Locked]
    have hopen : (flash.cr &&& crLock != 0#32) = false ↔ ¬ flash.Locked := by simp [Locked]
    refine Or.inr ⟨fun hl => ?_, ?_⟩
    · by_contra hno
      exact hrefused ⟨hlocked.mpr hl, by simpa [Locks] using hno⟩
    · refine ⟨hcr'.trans hcr, hstage'.trans hstage, hinternal'.trans hinternal, ?_, ?_, ?_, ?_⟩
      · exact fun hl hstarts => herases (hopen.mpr hl) hstarts
      · exact fun hor => hkeeps (hor.imp_left hlocked.mpr)
      · intro hl hlocks
        rw [hsaves (hopen.mpr hl) hlocks]
        exact congrArg Prod.snd (persist_congr hinternal uc₁ d)
      · exact fun hor => hkeeps' (hor.imp_left hlocked.mpr)

/-- What is stored is locked if and only if the value locks. -/
lemma ControlStored.locked_iff {flash flash' : Flash D} {uc uc' : U} {d d' : D} {value : U32}
    (h : ControlStored flash uc d value flash' uc' d') : flash'.Locked ↔ Locks value := by
  have hmask : ~~~crStrt &&& crLock = crLock := by decide
  unfold Locked Locks
  rw [h.cr_eq, BitVec.and_assoc, hmask]

/-! ## The other registers -/

lemma writeKey_spec (flash : Flash D) (value : U32) :
    ((flash.writeKey value).keyStage = 1 → flash.keyStage = 0 ∧ value = key1) ∧
      (flash.Locked → ¬ (flash.writeKey value).Locked → flash.keyStage = 1 ∧ value = key2) ∧
      (¬ flash.Locked → ¬ (flash.writeKey value).Locked) := by
  unfold writeKey
  split_ifs with hfirst hsecond
  · exact ⟨fun _ => hfirst, fun hl hno => absurd hl hno, fun hno => hno⟩
  · refine ⟨fun h => (by cases h), fun _ _ => hsecond, fun _ hl => hl ?_⟩
    dsimp only
    rw [BitVec.and_assoc, BitVec.and_comm (~~~_), BitVec.and_not_self]
    exact BitVec.and_zero
  · exact ⟨fun h => (by cases h), fun hl hno => absurd hl hno, fun hno => hno⟩

/-- A write that is neither of the key register nor of the control register. -/
lemma write_other {flash flash' : Flash D} {uc uc' : U} {d d' : D} {offset value : U32}
    (h : flash.write uc d offset value = some (flash', uc', d')) (hkey : offset ≠ 0x04)
    (hcr : offset ≠ 0x10) :
    (flash'.cr = flash.cr ∧ flash'.keyStage = flash.keyStage ∧ flash'.internal = flash.internal) ∧
      uc' = uc ∧ d' = d := by
  unfold write at h
  split_ifs at h <;>
  · obtain ⟨rfl, heq⟩ := Prod.mk.inj (Option.some.inj h)
    obtain ⟨rfl, rfl⟩ := Prod.mk.inj heq
    exact ⟨⟨rfl, rfl, rfl⟩, rfl, rfl⟩

lemma write_key {flash flash' : Flash D} {uc uc' : U} {d d' : D} {value : U32}
    (h : flash.write uc d 0x04 value = some (flash', uc', d')) :
    flash' = flash.writeKey value ∧ uc' = uc ∧ d' = d := by
  obtain ⟨rfl, heq⟩ := Prod.mk.inj (Option.some.inj h)
  obtain ⟨rfl, rfl⟩ := Prod.mk.inj heq
  exact ⟨rfl, rfl, rfl⟩

lemma internal_writeKey (flash : Flash D) (value : U32) :
    (flash.writeKey value).internal = flash.internal := by
  unfold writeKey
  split_ifs <;> rfl

/-- A register write leaves the memory as it is or erases a sector. -/
lemma write_memory {flash flash' : Flash D} {uc uc' : U} {d d' : D} {offset value : U32}
    (h : flash.write uc d offset value = some (flash', uc', d')) :
    flash'.internal = flash.internal ∧
      (uc' = uc ∨ ∃ success sector, flash.eraseSector uc sector = some (success, uc')) := by
  by_cases hkey : offset = 0x04
  · subst hkey
    obtain ⟨rfl, rfl, -⟩ := write_key h
    exact ⟨internal_writeKey flash value, Or.inl rfl⟩
  · by_cases hcr : offset = 0x10
    · subst hcr
      rcases writeControl_cases h with ⟨-, -, rfl, rfl, -⟩ | ⟨-, hstored⟩
      · exact ⟨rfl, Or.inl rfl⟩
      · refine ⟨hstored.internal_eq, ?_⟩
        by_cases herase : ¬ flash.Locked ∧ StartsErase value
        · obtain ⟨success, hsector⟩ := hstored.erases herase.1 herase.2
          exact Or.inr ⟨success, _, hsector⟩
        · refine Or.inl (hstored.keepsMemory ?_)
          by_contra hor
          push Not at hor
          exact herase hor
    · obtain ⟨⟨-, -, hinternal⟩, rfl, -⟩ := write_other h hkey hcr
      exact ⟨hinternal, Or.inl rfl⟩

/-- Erasing a sector fills it under each address of the flash. -/
lemma eraseSector_eq_some {flash : Flash D} {config : InternalFlashConfig D} {uc uc' : U}
    {sector : ℕ} {success : Bool} (hinternal : flash.internal = some config)
    (h : flash.eraseSector uc sector = some (success, uc')) :
    uc' = uc ∨ ∃ offset size, sectorRange sector = some (offset, size) ∧
      fillAll uc offset size (config.start :: config.aliases) = some (success, uc') := by
  unfold eraseSector at h
  rw [hinternal] at h
  cases hrange : sectorRange sector with
  | none =>
    rw [hrange] at h
    obtain ⟨-, rfl⟩ := Prod.mk.inj (Option.some.inj h)
    exact Or.inl rfl
  | some range =>
    rw [hrange] at h
    exact Or.inr ⟨range.1, range.2, rfl, h⟩

/-! ## Runs -/

/-- The second key is waited for only after the first. -/
lemma firstKeyWritten_step {as : List (FlashAction U D)} {s s' : Flash D × U × D}
    {a : FlashAction U D} (ih : s.1.keyStage = 1 → FirstKeyWritten as) (hstep : step s a = some s')
    (hstage : s'.1.keyStage = 1) : FirstKeyWritten (as ++ [a]) := by
  obtain ⟨flash, uc, d⟩ := s
  obtain ⟨flash', uc', d'⟩ := s'
  cases a with
  | other uc₁ d₁ =>
    obtain ⟨rfl, -⟩ := Prod.mk.inj (Option.some.inj hstep)
    exact (ih hstage).snoc fun value h => by cases h
  | write offset value =>
    have hwrite : flash.write uc d offset value = some (flash', uc', d') := hstep
    by_cases hkey : offset = 0x04
    · subst hkey
      obtain ⟨rfl, -, -⟩ := write_key hwrite
      obtain ⟨-, rfl⟩ := (writeKey_spec flash value).1 hstage
      exact ⟨as, [], rfl, by simp⟩
    · have hold : flash.keyStage = 1 := by
        by_cases hcr : offset = 0x10
        · subst hcr
          rcases writeControl_cases hwrite with ⟨-, -, rfl, -, -⟩ | ⟨-, hstored⟩
          · exact hstage
          · rwa [← hstored.keyStage_eq]
        · obtain ⟨⟨-, hsame, -⟩, -, -⟩ := write_other hwrite hkey hcr
          rwa [← hsame]
      exact (ih hold).snoc fun v h => hkey (by cases h; rfl)

/-- The lock protocol, for one step after a history. -/
structure KeepsLockProtocol (as : List (FlashAction U D)) (s : Flash D × U × D)
    (a : FlashAction U D) (s' : Flash D × U × D) : Prop where
  /-- Unlocking takes the second key right after the first. -/
  unlock : s.1.Locked → ¬ s'.1.Locked → a = .write 0x04 key2 ∧ FirstKeyWritten as
  /-- A write of the control register unlocks nothing. -/
  control : ∀ value, a = .write 0x10 value → s.1.Locked → s'.1.Locked
  /-- Only an unlocked control register erases. -/
  erase : ∀ offset value, a = .write offset value → s'.2.1 ≠ s.2.1 →
    offset = 0x10 ∧ ¬ s.1.Locked ∧ StartsErase value
  /-- Only the control register locks. -/
  lock : ¬ s.1.Locked → s'.1.Locked → ∃ value, a = .write 0x10 value
  /-- Locking saves the memory, ... -/
  save : ¬ s.1.Locked → s'.1.Locked → s'.2.2 = (s.1.persist s'.2.1 s.2.2).2
  /-- ... which writes the file if its directory and the memory are there, ... -/
  saved : ∀ persistent file d₁ bytes, ¬ s.1.Locked → s'.1.Locked →
    s.1.internal.bind (·.persistent) = some persistent → persistent.backingFile = some file →
    file.createDirAll s.2.2 = (true, d₁) →
    memRead s'.2.1 persistent.start.toNat persistent.size.toNat = some bytes →
    s'.2.2 = (runAll [file.create, file.writeAll bytes, file.syncAll] d₁).2
  /-- ... and no other register write touches the outside. -/
  keep : ∀ offset value, a = .write offset value → s.1.Locked ∨ ¬ s'.1.Locked → s'.2.2 = s.2.2

/-- Saving, when the directory and the memory are there. -/
lemma persist_eq {flash : Flash D} {uc : U} {d d₁ : D} {persistent : FlashPersistence D}
    {file : BackingFile D} {bytes : List U8}
    (hpersistent : flash.internal.bind (·.persistent) = some persistent)
    (hfile : persistent.backingFile = some file) (hdir : file.createDirAll d = (true, d₁))
    (hread : memRead uc persistent.start.toNat persistent.size.toNat = some bytes) :
    flash.persist uc d = runAll [file.create, file.writeAll bytes, file.syncAll] d₁ := by
  unfold persist
  simp only [hpersistent, hfile, hdir, hread]

namespace KeepsLockProtocol

variable {as : List (FlashAction U D)}

/-- A step that keeps the lock, and is no write or leaves memory and file alone. -/
lemma of_locked_iff {s s' : Flash D × U × D} {a : FlashAction U D}
    (hlocked : s'.1.Locked ↔ s.1.Locked)
    (hsame : ∀ offset value, a = .write offset value → s'.2 = s.2) :
    KeepsLockProtocol as s a s' where
  unlock hl hno := absurd (hlocked.mpr hl) hno
  control _ _ hl := hlocked.mpr hl
  erase offset value ha hne := absurd (congrArg Prod.fst (hsame offset value ha)) hne
  lock hno hl := absurd (hlocked.mp hl) hno
  save hno hl := absurd (hlocked.mp hl) hno
  saved _ _ _ _ hno hl := absurd (hlocked.mp hl) hno
  keep offset value ha _ := congrArg Prod.snd (hsame offset value ha)

/-- A write of the key register never locks, and unlocks with the second key only. -/
lemma of_writeKey {flash : Flash D} {uc : U} {d : D}
    (hkeys : flash.keyStage = 1 → FirstKeyWritten as) (value : U32) :
    KeepsLockProtocol as (flash, uc, d) (.write 0x04 value) (flash.writeKey value, uc, d) := by
  obtain ⟨-, hunlock, hopen⟩ := writeKey_spec flash value
  exact {
    unlock := fun hl hno => by
      obtain ⟨hstage, rfl⟩ := hunlock hl hno
      exact ⟨rfl, hkeys hstage⟩
    control := fun _ ha => by cases ha
    erase := fun _ _ _ hne => absurd rfl hne
    lock := fun hno hl => absurd hl (hopen hno)
    save := fun hno hl => absurd hl (hopen hno)
    saved := fun _ _ _ _ hno hl => absurd hl (hopen hno)
    keep := fun _ _ _ _ => rfl }

/-- A write of the control register that is not refused erases only if the register was unlocked,
and saves only if it is then locked. -/
lemma of_controlStored {flash flash' : Flash D} {uc uc' : U} {d d' : D} {value : U32}
    (hlocks : flash.Locked → Locks value) (hstored : ControlStored flash uc d value flash' uc' d') :
    KeepsLockProtocol as (flash, uc, d) (.write 0x10 value) (flash', uc', d') := by
  have hiff := hstored.locked_iff
  have hsave : ¬ flash.Locked → flash'.Locked → d' = (flash.persist uc' d).2 :=
    fun hno hl => hstored.saves hno (hiff.mp hl)
  exact {
    unlock := fun hl hno => absurd (hiff.mpr (hlocks hl)) hno
    control := fun _ _ hl => hiff.mpr (hlocks hl)
    erase := fun offset v ha hne => by
      cases ha
      refine ⟨rfl, fun hl => hne (hstored.keepsMemory (Or.inl hl)), ?_⟩
      by_contra hno
      exact hne (hstored.keepsMemory (Or.inr hno))
    lock := fun _ _ => ⟨value, rfl⟩
    save := hsave
    saved := fun persistent file d₁ bytes hno hl hpersistent hfile hdir hread =>
      (hsave hno hl).trans (congrArg Prod.snd (persist_eq hpersistent hfile hdir hread))
    keep := fun _ _ _ hor => hstored.keepsFile (hor.imp_right fun hno hl => hno (hiff.mpr hl)) }

end KeepsLockProtocol

/-- **The lock protocol** holds in every step of every run from reset. -/
theorem lock_protocol (internal : Option (InternalFlashConfig D)) {uc₀ : U} {d₀ : D}
    {as : List (FlashAction U D)} {s s' : Flash D × U × D} {a : FlashAction U D}
    (hrun : Run (stepRel step) (Flash.new internal, uc₀, d₀) as s) (hstep : step s a = some s') :
    KeepsLockProtocol as s a s' := by
  have hkeys : s.1.keyStage = 1 → FirstKeyWritten as := by
    refine hrun.invariant (I := fun as s => s.1.keyStage = 1 → FirstKeyWritten as) ?_ ?_
    · intro h
      cases h
    · intro as s s' a ih hs
      exact firstKeyWritten_step ih hs
  obtain ⟨flash, uc, d⟩ := s
  obtain ⟨flash', uc', d'⟩ := s'
  cases a with
  | other uc₁ d₁ =>
    obtain ⟨rfl, -⟩ := Prod.mk.inj (Option.some.inj hstep)
    exact .of_locked_iff Iff.rfl fun _ _ ha => by cases ha
  | write offset value =>
    have hwrite : flash.write uc d offset value = some (flash', uc', d') := hstep
    by_cases hkey : offset = 0x04
    · subst hkey
      obtain ⟨rfl, rfl, rfl⟩ := write_key hwrite
      exact .of_writeKey hkeys value
    · by_cases hcr : offset = 0x10
      · subst hcr
        rcases writeControl_cases hwrite with ⟨-, -, rfl, rfl, rfl⟩ | ⟨hlocks, hstored⟩
        · exact .of_locked_iff Iff.rfl fun _ _ _ => rfl
        · exact .of_controlStored hlocks hstored
      · obtain ⟨⟨hsame, -, -⟩, rfl, rfl⟩ := write_other hwrite hkey hcr
        have hlocked : flash'.Locked ↔ flash.Locked := by
          unfold Locked
          rw [hsame]
        exact .of_locked_iff hlocked fun _ _ _ => rfl

/-- A file that keeps what was last written to it. -/
def keptFile : BackingFile (List U8) where
  createDirAll d := (true, d)
  create _ := (true, [])
  writeAll bytes d := (true, d ++ bytes)
  syncAll d := (true, d)

/-- A flash whose first two bytes are saved, none of its sectors being erased. -/
def unerased : Flash (List U8) × RegisterFile × List U8 :=
  (Flash.new (some ⟨0x08000000, [], some ⟨0x08000000, 2, some keptFile⟩⟩),
    ⟨fun _ => 0, fun _ => some 0x12⟩, [])

/-- The two keys unlock, the first sector is erased, and locking again saves its first bytes. -/
theorem lock_protocol_sample : ∃ s₁ s₂ s₃ s₄ : Flash (List U8) × RegisterFile × List U8,
    (KeepsLockProtocol [.write 0x04 key1] s₁ (.write 0x04 key2) s₂ ∧ s₁.1.Locked ∧ ¬ s₂.1.Locked) ∧
    (KeepsLockProtocol [.write 0x04 key1, .write 0x04 key2] s₂ (.write 0x10 0x10002) s₃ ∧
      memByte s₂.2.1 0x08000000 = some 0x12 ∧ memByte s₃.2.1 0x08000000 = some erased) ∧
    (KeepsLockProtocol [.write 0x04 key1, .write 0x04 key2, .write 0x10 0x10002] s₃
        (.write 0x10 crLock) s₄ ∧
      s₄.1.Locked ∧ s₃.2.2 = [] ∧ s₄.2.2 = [erased, erased]) := by
  have hexec : (step unerased (.write 0x04 key1)).any (fun s₁ => decide s₁.1.Locked &&
      (step s₁ (.write 0x04 key2)).any fun s₂ =>
        decide (¬ s₂.1.Locked ∧ memByte s₂.2.1 0x08000000 = some 0x12) &&
        (step s₂ (.write 0x10 0x10002)).any fun s₃ =>
          decide (memByte s₃.2.1 0x08000000 = some erased ∧ s₃.2.2 = []) &&
          (step s₃ (.write 0x10 crLock)).any fun s₄ =>
            decide (s₄.1.Locked ∧ s₄.2.2 = [erased, erased])) = true := by
    decide +kernel
  simp only [Option.any_eq_true, Bool.and_eq_true, decide_eq_true_eq] at hexec
  obtain ⟨s₁, h₁, hlocked, s₂, h₂, ⟨hopen, hbefore⟩, s₃, h₃, ⟨herased, hnothing⟩, s₄, h₄, hlock,
    hsaved⟩ := hexec
  have hrun₁ : Run (stepRel step) unerased [.write 0x04 key1] s₁ := Run.single h₁
  have hrun₂ : Run (stepRel step) unerased [.write 0x04 key1, .write 0x04 key2] s₂ := hrun₁.snoc h₂
  have hrun₃ : Run (stepRel step) unerased
      [.write 0x04 key1, .write 0x04 key2, .write 0x10 0x10002] s₃ := hrun₂.snoc h₃
  exact ⟨s₁, s₂, s₃, s₄, ⟨lock_protocol _ hrun₁ h₂, hlocked, hopen⟩,
    ⟨lock_protocol _ hrun₂ h₃, hbefore, herased⟩, lock_protocol _ hrun₃ h₄, hlock, hnothing, hsaved⟩

end Flash

end Stm32Emulator
