import Stm32Emulator.Bus.Access

/-!
# Registering peripherals

The slots come from two sources: the peripherals that a device description declares, in the order of
their addresses, and the blocks of the core.  What a declared peripheral is called decides whether
it is modelled, and as what.  The registers that are declared for it decide how far its slot
reaches, but for three peripherals with ranges of their own.  Only the register blocks of the
description are checked for overlaps, and not the slots that are made of them.
-/

namespace Stm32Emulator

variable {U D : Type}

/-! ## Peripherals by name -/

/-- The devices that peripherals are connected to, by the name of the peripheral. -/
structure ExtDevices (D : Type) where
  findSerialDevice : String → Option (ExtDevice Unit U8 D)
  findMemDevice : String → Option (ExtDevice U32 U32 D)
  findUsbCdcTcp : String → Option (UsbBridge D)
  ecuIo : Option (EcuIo D)

/-- No devices. -/
def ExtDevices.default : ExtDevices D := ⟨fun _ => none, fun _ => none, fun _ => none, none⟩

/-- The index of the port with a letter; other letters are a panic. -/
def GpioPorts.portIndex (letter : Char) : Option (Fin 11) :=
  if h : 'A'.toNat ≤ letter.toNat ∧ letter.toNat ≤ 'K'.toNat then
    some ⟨letter.toNat - 'A'.toNat, by have := h.2; simp at this ⊢; omega⟩
  else
    none

/-- The port that the letter after `GPIO` names; a name without one is a panic. -/
def Gpio.ofName (name : String) : Option Gpio :=
  ((name.toList.drop 4).head?.bind GpioPorts.portIndex).map Gpio.new

/-- The device on each of the four banks. -/
def Fsmc.ofDevices (extDevices : ExtDevices D) : Fsmc D :=
  ⟨fun bank => extDevices.findMemDevice ("FSMC.BANK" ++ toString (bank.val + 1))⟩

namespace Peripheral

/-- The peripheral with a name, if it is modelled.  The first kind that accepts the name is taken.
The outer `none` is a panic. -/
def ofName (name : String) (extDevices : ExtDevices D)
    (internalFlash : Option (InternalFlashConfig D)) :
    Option (Option (Peripheral D)) :=
  if name = "NVIC" then some (some (.nvic 0))
  else if name = "STK" then some (some (.sysTick .default))
  else if name = "SCB" then some (some (.scb .default))
  else if name.startsWith "GPIO" then (Gpio.ofName name).map fun gpio => some (.gpio gpio)
  else if name.startsWith "USART" then some (some (.usart ⟨extDevices.findSerialDevice name⟩))
  else if name.startsWith "FSMC" then some (some (.fsmc (.ofDevices extDevices)))
  else if name = "RCC" then some (some (.rcc .new))
  else if name = "PWR" then some (some (.pwr .new))
  else if name = "OTG_FS_GLOBAL" then some (some (.otgFs (.new (extDevices.findUsbCdcTcp name))))
  else if name = "RTC" then some (some (.rtc .new))
  else if name = "FLASH" then some (some (.flash (.new internalFlash)))
  else if name = "TIM11" then some (some (.tim11 .default))
  else if name = "TIM5" then some (some (.tim5 .default))
  else if name = "TIM6" then some (some (.tim6 .default))
  else if name.startsWith "CAN" then some (some (.can .new))
  else if name.startsWith "I2C" then some (some (.i2c .default))
  else if name.startsWith "DMA" then some (some (.dma (.new name)))
  else if name.startsWith "SPI" then
    some (some (.spi ⟨0, 0, false, extDevices.findSerialDevice name⟩))
  else if name = "ADC1" ∨ name = "ADC2" then some (some (.adc (.new extDevices.ecuIo)))
  else if name = "EXTI" then some (some .exti)
  else if name = "SYSCFG" then some (some .syscfg)
  else some none

end Peripheral

/-! ## The device description -/

/-- What a device description declares about a peripheral.  One that is derived from another has the
registers of the other. -/
structure SvdPeripheral where
  name : String
  baseAddress : BitVec 64
  derivedFrom : Option String
  /-- The offsets of its registers, those of arrays and clusters one by one. -/
  registers : List U32
  deriving DecidableEq, Repr

/-- The register block of a declared peripheral. -/
structure DebugSlot where
  start : U32
  end_ : U32
  deriving DecidableEq, Repr

/-- The largest offset, or zero where there is none. -/
def lastOffset (registers : List U32) : U32 := registers.foldl (fun x y => if x ≤ y then y else x) 0

/-- The size of a block: up to the end of its last register. -/
def genericSize (registers : List U32) : Option U32 := checkedAdd (lastOffset registers) 4

/-- Nothing is past the largest offset, and it is that of a register unless there is none. -/
lemma lastOffset_spec (registers : List U32) :
    (∀ offset ∈ registers, offset ≤ lastOffset registers) ∧
      (lastOffset registers ∈ registers ∨ lastOffset registers = 0) := by
  have hfold : ∀ start last, last =
      registers.foldl (fun x y : U32 => if x ≤ y then y else x) start →
      start ≤ last ∧ (∀ offset ∈ registers, offset ≤ last) ∧ (last ∈ registers ∨ last = start) := by
    induction registers with
    | nil =>
      intro start last hlast
      obtain rfl : last = start := hlast
      exact ⟨BitVec.le_refl last, fun _ h => absurd h List.not_mem_nil, Or.inr rfl⟩
    | cons x registers ih =>
      intro start last hlast
      obtain ⟨hstart, hall, hmem⟩ := ih _ last hlast
      dsimp only at hstart hmem
      rw [List.forall_mem_cons, List.mem_cons]
      split_ifs at hstart hmem with hle
      · exact ⟨BitVec.le_trans hle hstart, ⟨hstart, hall⟩, Or.inl hmem.symm⟩
      · have hx : x ≤ start := BitVec.le_of_lt (BitVec.not_le.mp hle)
        exact ⟨hstart, ⟨BitVec.le_trans hx hstart, hall⟩, hmem.imp_left Or.inr⟩
  exact (hfold 0 _ rfl).2

/-- Only which offsets there are matters. -/
lemma lastOffset_congr {registers registers' : List U32}
    (h : ∀ offset, offset ∈ registers ↔ offset ∈ registers') :
    lastOffset registers = lastOffset registers' := by
  have hle : ∀ {l l' : List U32}, (∀ offset, offset ∈ l ↔ offset ∈ l') →
      lastOffset l ≤ lastOffset l' := by
    intro l l' hl
    rcases (lastOffset_spec l).2 with hmem | hzero
    · exact (lastOffset_spec l').1 _ ((hl _).mp hmem)
    · rw [hzero]
      exact BitVec.le_def.mpr (Nat.zero_le _)
  exact BitVec.le_antisymm (hle h) (hle fun offset => (h offset).symm)

namespace Peripherals

/-- The addresses of a modelled peripheral, both ends included. -/
def modeledRange (name : String) (base size : U32) : Option (U32 × U32) :=
  if name = "FSMC" then some (0x60000000, 0xa0001000)
  else if name = "OTG_FS_GLOBAL" then (checkedAdd base 0x7000).map fun last => (base, last)
  else if name = "SCB" then (checkedAdd base 0x008f).map fun last => (base, last)
  else (checkedAdd base size).map fun last => (base, last)

/-- What registering a peripheral adds: a register block, and a slot if the peripheral is
modelled. -/
def registerPeripheral (extDevices : ExtDevices D) (internalFlash : Option (InternalFlashConfig D))
    (name : String) (base : U32) (registers : List U32) :
    Option (DebugSlot × Option (PeripheralSlot D)) := do
  let size ← genericSize registers
  let last ← checkedAdd base size
  let (start, end_) ← modeledRange name base (last - base)
  let peripheral ← Peripheral.ofName name extDevices internalFlash
  some (⟨base, last⟩, peripheral.map fun peripheral => ⟨start, end_, peripheral⟩)

/-- The blocks of the core. -/
def corePeripherals : List (PeripheralSlot D) :=
  [⟨0xe0001000, 0xe0001008, .dwt .default⟩,
    ⟨0xe000e010, 0xe000e01c, .sysTick .default⟩,
    ⟨0xe000e100, 0xe000e4ef, .nvic 0x100⟩,
    ⟨0xe000ed00, 0xe000ed8f, .scb .default⟩,
    ⟨0xe000ef00, 0xe000ef04, .nvicStir⟩]

/-- Sorting by start address.  Register blocks that overlap are a failed assertion. -/
def finishRegistration (debugSlots : List DebugSlot) (slots : List (PeripheralSlot D)) :
    Option (List (PeripheralSlot D)) :=
  if adjacentAll (fun p₁ p₂ : DebugSlot => p₁.end_ < p₂.start)
      (sortByKey (fun p : DebugSlot => p.start.toNat) debugSlots) then
    some (sortByKey (fun p : PeripheralSlot D => p.start.toNat) slots)
  else
    none

/-- The registers of a declared peripheral.  Of several peripherals with one name the last one
counts, and a name that nothing is declared under is a panic. -/
def declaredRegisters (svdPeripherals : List SvdPeripheral) (p : SvdPeripheral) :
    Option (List U32) :=
  match p.derivedFrom with
  | some name => (svdPeripherals.reverse.find? fun q => q.name = name).map fun q => q.registers
  | none => some p.registers

/-- One round of the loop over the declared peripherals. -/
def registerDeclared (extDevices : ExtDevices D) (internalFlash : Option (InternalFlashConfig D))
    (svdPeripherals : List SvdPeripheral) (p : SvdPeripheral) :
    Option (DebugSlot × Option (PeripheralSlot D)) :=
  (declaredRegisters svdPeripherals p).bind
    (registerPeripheral extDevices internalFlash p.name (p.baseAddress.setWidth 32))

/-- The declared peripherals in the order of their addresses. -/
def inAddressOrder (svdPeripherals : List SvdPeripheral) : List SvdPeripheral :=
  sortByKey (fun p : SvdPeripheral => p.baseAddress.toNat) svdPeripherals

/-- The peripherals of a device description, over what they share. -/
def fromSvd (svdPeripherals : List SvdPeripheral) (sys : System U D) (extDevices : ExtDevices D)
    (internalFlash : Option (InternalFlashConfig D)) : Option (Peripherals U D) := do
  let svdPeripherals := inAddressOrder svdPeripherals
  let registered ← svdPeripherals.mapM (registerDeclared extDevices internalFlash svdPeripherals)
  let slots ← finishRegistration (registered.map fun r => r.1)
    ((registered.filterMap fun r => r.2) ++ corePeripherals)
  some ⟨slots, sys⟩

/-! ## What is registered -/

/-- The slot of a declared peripheral. -/
def declaredSlot (extDevices : ExtDevices D) (internalFlash : Option (InternalFlashConfig D))
    (svdPeripherals : List SvdPeripheral) (q : SvdPeripheral) : Option (PeripheralSlot D) :=
  (registerDeclared extDevices internalFlash svdPeripherals q).bind fun r => r.2

/-- The addresses of a modelled peripheral by what is declared: from its base to the end of its last
register, but for the three names with ranges of their own. -/
def declaredRange (svdPeripherals : List SvdPeripheral) (q : SvdPeripheral) : ℕ × ℕ :=
  let base := (q.baseAddress.setWidth 32).toNat
  if q.name = "FSMC" then (0x60000000, 0xa0001000)
  else if q.name = "OTG_FS_GLOBAL" then (base, base + 0x7000)
  else if q.name = "SCB" then (base, base + 0x8f)
  else (base, base + (lastOffset ((declaredRegisters svdPeripherals q).getD [])).toNat + 4)

lemma checkedAdd_eq_some_iff {x y z : U32} :
    checkedAdd x y = some z ↔ z.toNat = x.toNat + y.toNat := by
  unfold checkedAdd
  split_ifs with h
  · rw [Option.some.injEq]
    constructor
    · rintro rfl
      rw [BitVec.toNat_add, Nat.mod_eq_of_lt h]
    · intro hz
      apply BitVec.eq_of_toNat_eq
      rw [BitVec.toNat_add, Nat.mod_eq_of_lt h, hz]
  · have hz := z.isLt
    simp
    omega

/-- All rounds of a loop succeed. -/
lemma map_some_of_mapM {α β : Type*} {f : α → Option β} {l : List α} {r : List β}
    (h : l.mapM f = some r) : r.map some = l.map f := by
  induction l generalizing r with
  | nil =>
    obtain rfl : [] = r := by simpa using h
    rfl
  | cons x l ih =>
    rw [List.mapM_cons] at h
    obtain ⟨y, hy, h⟩ := Option.bind_eq_some_iff.mp h
    obtain ⟨ys, hys, h⟩ := Option.bind_eq_some_iff.mp h
    obtain rfl : y :: ys = r := by simpa using h
    rw [List.map_cons, List.map_cons, ih hys, hy]

section Registered

variable {extDevices : ExtDevices D} {internalFlash : Option (InternalFlashConfig D)}
  {svdPeripherals : List SvdPeripheral} {q : SvdPeripheral}

/-- What registering one declared peripheral adds. -/
lemma registerDeclared_spec {r : DebugSlot × Option (PeripheralSlot D)}
    (h : registerDeclared extDevices internalFlash svdPeripherals q = some r) :
    ∃ registers, declaredRegisters svdPeripherals q = some registers ∧
      r.1.start = q.baseAddress.setWidth 32 ∧
      r.1.end_.toNat = r.1.start.toNat + (lastOffset registers).toNat + 4 ∧
      ∃ peripheral, Peripheral.ofName q.name extDevices internalFlash = some peripheral ∧
        r.2.map (fun slot => slot.peripheral) = peripheral ∧
        ∀ slot, r.2 = some slot →
          (slot.start.toNat, slot.end_.toNat) = declaredRange svdPeripherals q := by
  obtain ⟨registers, hregisters, h⟩ := Option.bind_eq_some_iff.mp h
  obtain ⟨size, hsize, h⟩ := Option.bind_eq_some_iff.mp h
  obtain ⟨last, hlast, h⟩ := Option.bind_eq_some_iff.mp h
  obtain ⟨⟨start, end_⟩, hrange, h⟩ := Option.bind_eq_some_iff.mp h
  obtain ⟨peripheral, hname, h⟩ := Option.bind_eq_some_iff.mp h
  cases h
  have hsize := checkedAdd_eq_some_iff.mp hsize
  have hlast := checkedAdd_eq_some_iff.mp hlast
  have hfour : (4 : U32).toNat = 4 := rfl
  have hdiff : last - q.baseAddress.setWidth 32 = size := by
    apply BitVec.eq_of_toNat_eq
    rw [BitVec.toNat_sub_of_le (BitVec.le_def.mpr (by omega))]
    omega
  refine ⟨registers, hregisters, rfl, by dsimp only; omega, peripheral, hname, ?_, ?_⟩
  · cases peripheral <;> rfl
  · intro slot hslot
    obtain ⟨p, -, rfl⟩ := Option.map_eq_some_iff.mp hslot
    rw [hdiff] at hrange
    unfold modeledRange at hrange
    unfold declaredRange
    rw [hregisters, Option.getD_some]
    split_ifs at hrange ⊢
    · cases hrange
      rfl
    all_goals
      obtain ⟨end', hend, heq⟩ := Option.map_eq_some_iff.mp hrange
      cases heq
      have hend := checkedAdd_eq_some_iff.mp hend
      simp only [Prod.mk.injEq, true_and]
      simp at hend ⊢
      omega

lemma declaredSlot_eq_some {slot : PeripheralSlot D}
    (h : declaredSlot extDevices internalFlash svdPeripherals q = some slot) :
    (slot.start.toNat, slot.end_.toNat) = declaredRange svdPeripherals q ∧
      Peripheral.ofName q.name extDevices internalFlash = some (some slot.peripheral) := by
  obtain ⟨r, hr, hslot⟩ := Option.bind_eq_some_iff.mp h
  obtain ⟨-, -, -, -, peripheral, hname, hperipheral, hrange⟩ := registerDeclared_spec hr
  refine ⟨hrange slot hslot, ?_⟩
  rw [hname, ← hperipheral, hslot, Option.map_some]

/-- What a registration leaves: all declared peripherals are registered, no two register blocks
reach each other, and the slots are those of the description and of the core in order. -/
lemma fromSvd_eq_some {sys : System U D} {p : Peripherals U D}
    (h : fromSvd svdPeripherals sys extDevices internalFlash = some p) :
    (∀ q ∈ inAddressOrder svdPeripherals, ∃ r,
      registerDeclared extDevices internalFlash (inAddressOrder svdPeripherals) q = some r) ∧
    (inAddressOrder svdPeripherals).Pairwise (fun q q' => ∀ r r',
      registerDeclared extDevices internalFlash (inAddressOrder svdPeripherals) q = some r →
      registerDeclared extDevices internalFlash (inAddressOrder svdPeripherals) q' = some r' →
      Apart (fun d : DebugSlot => d.start.toNat) (fun d => d.end_.toNat) r.1 r'.1) ∧
    p.slots = sortByKey (fun slot => slot.start.toNat)
      ((inAddressOrder svdPeripherals).filterMap
        (declaredSlot extDevices internalFlash (inAddressOrder svdPeripherals)) ++
          corePeripherals) := by
  unfold fromSvd at h
  dsimp only at h
  generalize inAddressOrder svdPeripherals = sorted at h ⊢
  obtain ⟨registered, hregistered, h⟩ := Option.bind_eq_some_iff.mp h
  obtain ⟨slots, hfinish, h⟩ := Option.bind_eq_some_iff.mp h
  cases h
  have hmap := map_some_of_mapM hregistered
  unfold finishRegistration at hfinish
  split_ifs at hfinish with hadjacent
  cases hfinish
  have hall : ∀ q ∈ sorted, ∃ r, registerDeclared extDevices internalFlash sorted q = some r := by
    intro q hq
    have hmem := List.mem_map_of_mem (f := registerDeclared extDevices internalFlash sorted) hq
    rw [← hmap] at hmem
    obtain ⟨r, -, hr⟩ := List.mem_map.mp hmem
    exact ⟨r, hr.symm⟩
  -- what is declared by the loop over the description, in terms of the description
  have hslots : registered.filterMap (fun r => r.2)
      = sorted.filterMap (declaredSlot extDevices internalFlash sorted) := by
    have hbind : registered.filterMap (fun r => r.2)
        = (registered.map some).filterMap fun o => o.bind fun r => r.2 := by
      rw [List.filterMap_map]
      rfl
    rw [hbind, hmap, List.filterMap_map]
    rfl
  have hblocks : (registered.map fun r => r.1)
      = sorted.filterMap fun q =>
        (registerDeclared extDevices internalFlash sorted q).map fun r => r.1 := by
    have hbind : (registered.map fun r => r.1)
        = (registered.map some).filterMap fun o => o.map fun r => r.1 := by
      rw [List.filterMap_map, ← List.filterMap_eq_map]
      rfl
    rw [hbind, hmap, List.filterMap_map]
    rfl
  refine ⟨hall, ?_, by rw [hslots]⟩
  have hproper : ∀ d ∈ registered.map (fun r => r.1), d.start.toNat ≤ d.end_.toNat := by
    intro d hd
    rw [hblocks] at hd
    obtain ⟨q, -, hq⟩ := List.mem_filterMap.mp hd
    obtain ⟨r, hr, rfl⟩ := Option.map_eq_some_iff.mp hq
    obtain ⟨registers, -, -, hend, -⟩ := registerDeclared_spec hr
    omega
  have hordered := pairwise_of_adjacentAll (fun d d' d'' hd' h h' => by
    have hle := hproper d' (mem_sortByKey.mp hd')
    simp only [decide_eq_true_eq, BitVec.lt_def] at h h' ⊢
    omega) hadjacent
  have hapart := (pairwise_sortByKey_iff hproper).mp (hordered.imp fun h => by
    simpa only [decide_eq_true_eq, BitVec.lt_def] using h)
  rw [hblocks, List.pairwise_filterMap] at hapart
  refine hapart.imp fun h r r' hr hr' => h _ ?_ _ ?_
  · rw [hr, Option.map_some]
  · rw [hr', Option.map_some]

end Registered

end Peripherals

end Stm32Emulator
