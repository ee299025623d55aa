import Stm32Emulator.Bus.Layout
import Stm32Emulator.Bus.Registration
import Stm32Emulator.Engine.RegisterFile

/-!
# Routing to the blocks of the core

The slots of the core are added to those of the device description.  Routing is determined by the
address alone when no two slots reach each other, and of the slots that come from the description
this is known but for two kinds: those that reach a slot of the core, and those whose range is not
the declared one.
-/

namespace Stm32Emulator

variable {U D : Type}

/-! ## The description -/

/-- The names that are modelled, in the order in which the kinds are tried. -/
def acceptors : List (String → Bool) :=
  [(· = "NVIC"), (· = "STK"), (· = "SCB"), (·.startsWith "GPIO"), (·.startsWith "USART"),
    (·.startsWith "FSMC"), (· = "RCC"), (· = "PWR"), (· = "OTG_FS_GLOBAL"), (· = "RTC"),
    (· = "FLASH"), (· = "TIM11"), (· = "TIM5"), (· = "TIM6"), (·.startsWith "CAN"),
    (·.startsWith "I2C"), (·.startsWith "DMA"), (·.startsWith "SPI"), fun name => name = "ADC1" ∨
    name = "ADC2", (· = "EXTI"), (· = "SYSCFG")]

def isModelled (name : String) : Bool := acceptors.any fun accepts => accepts name

/-- One kind more that is tried first. -/
lemma accepted_iff {α : Type*} {c P : Prop} [Decidable c] {x rest : Option (Option α)}
    {r : Option α} (h : (if c then x else rest) = some r) (hrest : rest = some r → (P ↔ r.isSome))
    (hx : x = some r → r.isSome) : c ∨ P ↔ r.isSome := by
  split_ifs at h with hc
  · exact iff_of_true (Or.inl hc) (hx h)
  · rw [or_iff_right hc]
    exact hrest h

/-- A name has a peripheral exactly when it is modelled. -/
lemma isModelled_iff {name : String} {extDevices : ExtDevices D}
    {internalFlash : Option (InternalFlashConfig D)} {peripheral : Option (Peripheral D)}
    (h : Peripheral.ofName name extDevices internalFlash = some peripheral) :
    isModelled name = true ↔ peripheral.isSome := by
  unfold Peripheral.ofName at h
  simp only [isModelled, acceptors, List.any_cons, List.any_nil, Bool.or_eq_true, decide_eq_true_eq]
  repeat refine accepted_iff h (fun h => ?_) ?_
  · obtain rfl : none = peripheral := Option.some.inj h
    simp
  all_goals
    intro haccepts
    first
    | cases haccepts
      rfl
    | obtain ⟨gpio, -, rfl⟩ := Option.map_eq_some_iff.mp haccepts
      rfl

namespace Peripherals

/-- The names whose range is not the declared one. -/
def rangedNames : List String := ["FSMC", "OTG_FS_GLOBAL", "SCB"]

/-- The addresses of the blocks of the core, both ends included. -/
def coreRanges : List (ℕ × ℕ) :=
  [(0xe0001000, 0xe0001008), (0xe000e010, 0xe000e01c), (0xe000e100, 0xe000e4ef),
    (0xe000ed00, 0xe000ed8f), (0xe000ef00, 0xe000ef04)]

/-- Nothing that is declared and modelled reaches a block of the core, and no range other than the
declared one reaches anything else that is modelled. -/
structure Unobstructed (svdPeripherals : List SvdPeripheral) : Prop where
  core : ∀ q ∈ svdPeripherals, isModelled q.name → ∀ range ∈ coreRanges,
    Apart Prod.fst Prod.snd (declaredRange svdPeripherals q) range
  ranged : svdPeripherals.Pairwise fun q q' => isModelled q.name → isModelled q'.name →
    q.name ∈ rangedNames ∨ q'.name ∈ rangedNames →
      Apart Prod.fst Prod.snd (declaredRange svdPeripherals q) (declaredRange svdPeripherals q')

lemma declaredRange_le (svdPeripherals : List SvdPeripheral) (q : SvdPeripheral) :
    (declaredRange svdPeripherals q).1 ≤ (declaredRange svdPeripherals q).2 := by
  unfold declaredRange
  dsimp only
  split_ifs <;> dsimp only <;> omega

section Registered

variable {extDevices : ExtDevices D} {internalFlash : Option (InternalFlashConfig D)}
  {svdPeripherals : List SvdPeripheral} {q : SvdPeripheral} {sys : System U D}
    {p₀ : Peripherals U D}

/-- What is modelled has a slot. -/
lemma exists_declaredSlot {r : DebugSlot × Option (PeripheralSlot D)}
    (hr : registerDeclared extDevices internalFlash svdPeripherals q = some r) :
    isModelled q.name = true ↔
      ∃ slot, declaredSlot extDevices internalFlash svdPeripherals q = some slot := by
  obtain ⟨-, -, -, -, peripheral, hname, hslot, -⟩ := registerDeclared_spec hr
  rw [isModelled_iff hname, ← hslot, Option.isSome_map, Option.isSome_iff_exists, declaredSlot, hr]
  rfl

/-- Of a name without a range of its own the slot is the register block. -/
lemma declaredRange_eq {r : DebugSlot × Option (PeripheralSlot D)}
    (hr : registerDeclared extDevices internalFlash svdPeripherals q = some r)
    (hname : q.name ∉ rangedNames) :
    declaredRange svdPeripherals q = (r.1.start.toNat, r.1.end_.toNat) := by
  obtain ⟨registers, hregisters, hstart, hend, -⟩ := registerDeclared_spec hr
  simp only [rangedNames, List.mem_cons, List.not_mem_nil, or_false, not_or] at hname
  unfold declaredRange
  dsimp only
  rw [if_neg hname.1, if_neg hname.2.1, if_neg hname.2.2, hregisters,
    Option.getD_some, hend, hstart]

/-- No slot ends before it starts. -/
lemma slots_proper (h : fromSvd svdPeripherals sys extDevices internalFlash = some p₀) :
    ∀ slot ∈ p₀.slots, slot.start.toNat ≤ slot.end_.toNat := by
  intro slot hslot
  rw [(fromSvd_eq_some h).2.2, mem_sortByKey, List.mem_append] at hslot
  rcases hslot with hslot | hslot
  · obtain ⟨q, -, hq⟩ := List.mem_filterMap.mp hslot
    have hle := declaredRange_le (inAddressOrder svdPeripherals) q
    rwa [← (declaredSlot_eq_some hq).1] at hle
  · revert slot
    simp [corePeripherals]

/-- The slots are disjoint exactly when nothing is obstructed. -/
lemma disjoint_iff_unobstructed
    (h : fromSvd svdPeripherals sys extDevices internalFlash = some p₀) :
    p₀.slots.Pairwise (fun x y => x.end_.toNat < y.start.toNat) ↔
      Unobstructed (inAddressOrder svdPeripherals) := by
  obtain ⟨hall, hblocks, hslots⟩ := fromSvd_eq_some h
  generalize inAddressOrder svdPeripherals = sorted at hall hblocks hslots ⊢
  have hcore : coreRanges
      = (corePeripherals : List (PeripheralSlot D)).map fun c => (c.start.toNat, c.end_.toNat) :=
        rfl
  have hranges : ∀ {q : SvdPeripheral} {slot : PeripheralSlot D},
      declaredSlot extDevices internalFlash sorted q = some slot →
        declaredRange sorted q = (slot.start.toNat, slot.end_.toNat) :=
    fun hslot => (declaredSlot_eq_some hslot).1.symm
  have hproper :
      ∀ slot ∈ sorted.filterMap (declaredSlot extDevices internalFlash sorted) ++ corePeripherals,
      slot.start.toNat ≤ slot.end_.toNat := by
    intro slot hslot
    refine slots_proper h slot ?_
    rw [hslots]
    exact mem_sortByKey.mpr hslot
  rw [hslots, pairwise_sortByKey_iff hproper, List.pairwise_append, List.pairwise_filterMap]
  constructor
  · rintro ⟨hdeclared, -, hcross⟩
    refine ⟨fun q hq hmodelled range hrange => ?_, ?_⟩
    · obtain ⟨r, hr⟩ := hall q hq
      obtain ⟨slot, hslot⟩ := (exists_declaredSlot hr).mp hmodelled
      rw [hcore] at hrange
      obtain ⟨c, hc, rfl⟩ := List.mem_map.mp hrange
      rw [hranges hslot]
      exact hcross slot (List.mem_filterMap.mpr ⟨q, hq, hslot⟩) c hc
    · refine hdeclared.imp_of_mem fun {q q'} hq hq' hapart hmodelled hmodelled' _ => ?_
      obtain ⟨r, hr⟩ := hall q hq
      obtain ⟨r', hr'⟩ := hall q' hq'
      obtain ⟨slot, hslot⟩ := (exists_declaredSlot hr).mp hmodelled
      obtain ⟨slot', hslot'⟩ := (exists_declaredSlot hr').mp hmodelled'
      rw [hranges hslot, hranges hslot']
      exact hapart slot hslot slot' hslot'
  · intro hfree
    refine ⟨?_, ?_, ?_⟩
    · refine (hblocks.and hfree.ranged).imp_of_mem ?_
      rintro q q' hq hq' ⟨hblock, hranged⟩ slot hslot slot' hslot'
      obtain ⟨r, hr⟩ := hall q hq
      obtain ⟨r', hr'⟩ := hall q' hq'
      have hmodelled := (exists_declaredSlot hr).mpr ⟨slot, hslot⟩
      have hmodelled' := (exists_declaredSlot hr').mpr ⟨slot', hslot'⟩
      by_cases hnames : q.name ∈ rangedNames ∨ q'.name ∈ rangedNames
      · have hapart := hranged hmodelled hmodelled' hnames
        rwa [hranges hslot, hranges hslot'] at hapart
      · -- both slots are the register blocks, which have been checked
        rw [not_or] at hnames
        have hstart := (hranges hslot).symm.trans (declaredRange_eq hr hnames.1)
        have hstart' := (hranges hslot').symm.trans (declaredRange_eq hr' hnames.2)
        have hapart := hblock r r' hr hr'
        rw [Prod.mk.injEq] at hstart hstart'
        unfold Apart at hapart ⊢
        dsimp only at hapart ⊢
        rwa [hstart.1, hstart.2, hstart'.1, hstart'.2]
    · simp [corePeripherals, Apart]
    · intro slot hslot c hc
      obtain ⟨q, hq, hslot⟩ := List.mem_filterMap.mp hslot
      obtain ⟨r, hr⟩ := hall q hq
      have hmodelled := (exists_declaredSlot hr).mpr ⟨slot, hslot⟩
      have hapart := hfree.core q hq hmodelled (c.start.toNat, c.end_.toNat) (by
        rw [hcore]
        exact List.mem_map_of_mem hc)
      rwa [hranges hslot] at hapart

/-- The blocks of the core are registered. -/
lemma mem_slots_of_mem_core (h : fromSvd svdPeripherals sys extDevices internalFlash = some p₀)
    {c : PeripheralSlot D} (hc : c ∈ corePeripherals) : c ∈ p₀.slots := by
  rw [(fromSvd_eq_some h).2.2]
  exact mem_sortByKey.mpr (List.mem_append_right _ hc)

end Registered

/-! ## Routing -/

section Routing

variable {p p₀ : Peripherals U D} {extDevices : ExtDevices D}
    {internalFlash : Option (InternalFlashConfig D)}
  {svdPeripherals : List SvdPeripheral} {sys : System U D} {S : SlotSearch} {es : List BusEvent}

/-- Disjoint slots: of the slots around an address there is one, and every search finds it. -/
lemma getPeripheral_of_disjoint
    (hdisjoint : p.slots.Pairwise fun x y => x.end_.toNat < y.start.toNat)
    (hproper : ∀ slot ∈ p.slots, slot.start.toNat ≤ slot.end_.toNat) {i : ℕ}
    {slot : PeripheralSlot D} (hslot : p.slots[i]? = some slot) {addr : U32}
    (hstart : slot.start.toNat ≤ addr.toNat) (hend : addr.toNat ≤ slot.end_.toNat)
    (S : SlotSearch) :
    getPeripheral S p.slots addr = some (i, slot) := by
  rw [getPeripheral_eq_some_iff]
  exact ⟨(lookup_eq_some_iff_of_disjoint hproper hdisjoint hslot).mpr ⟨hstart, hend⟩, hslot⟩

variable [UnicornEngine U]

/-- Routing is determined by the address.  The interrupt controller is given the offset from the
start of its registers, wherever its slot starts. -/
structure RoutesUniquely (p : Peripherals U D) : Prop where
  disjoint : p.slots.Pairwise fun x y => x.end_.toNat < y.start.toNat
  determined : ∀ c ∈ (corePeripherals : List (PeripheralSlot D)), ∀ addr : U32,
    c.start.toNat ≤ addr.toNat → addr.toNat ≤ c.end_.toNat →
      ∃ i slot, (∀ S, getPeripheral S p.slots addr = some (i, slot)) ∧ slot.start = c.start ∧
        slot.peripheral.kind = c.peripheral.kind
  nvic : ∀ (S : SlotSearch) (addr : U32), 0xe000e100 ≤ addr.toNat → addr.toNat ≤ 0xe000e4ef →
    p.readPeripheral S addr = (p.sys.nvic.read (addr - 0xe000e000)).map (fun v => (p, v)) ∧
      ∀ value, p.writePeripheral S addr value = (p.sys.nvic.write (addr - 0xe000e000) value).map
        fun nvic => ⟨p.slots, { p.sys with nvic := nvic }⟩

/-- Where the slots are disjoint after a registration, routing is unique in every state of that
layout. -/
lemma routesUniquely_of_disjoint
    (hreg : fromSvd svdPeripherals sys extDevices internalFlash = some p₀)
    (hdisjoint : p₀.slots.Pairwise fun x y => x.end_.toNat < y.start.toNat)
    (hlayout : p.layout = p₀.layout) :
    RoutesUniquely p := by
  have hranges : ∀ q : Peripherals U D,
      (q.slots.map fun slot => (slot.start.toNat, slot.end_.toNat)).Pairwise
        (fun x y => x.2 < y.1) ↔
        q.slots.Pairwise fun x y => x.end_.toNat < y.start.toNat := fun q => List.pairwise_map
  have hdisjoint' : p.slots.Pairwise fun x y => x.end_.toNat < y.start.toNat := by
    rw [← hranges, map_eq_of_layout hlayout fun start end_ _ => (start.toNat, end_.toNat), hranges]
    exact hdisjoint
  have hproper : ∀ slot ∈ p.slots, slot.start.toNat ≤ slot.end_.toNat := by
    intro slot hslot
    obtain ⟨i, hi⟩ := List.mem_iff_getElem?.mp hslot
    obtain ⟨slot₀, hi₀, hstart, hend, -⟩ := exists_slot_of_layout hlayout hi
    rw [hstart, hend]
    exact slots_proper hreg slot₀ (List.mem_of_getElem? hi₀)
  -- the slot of a block of the core
  have hcore : ∀ c ∈ (corePeripherals : List (PeripheralSlot D)), ∀ addr : U32,
      c.start.toNat ≤ addr.toNat → addr.toNat ≤ c.end_.toNat →
        ∃ i slot, (∀ S, getPeripheral S p.slots addr = some (i, slot)) ∧ slot.start = c.start ∧
          slot.peripheral.kind = c.peripheral.kind := by
    intro c hc addr hle hge
    obtain ⟨i, hi⟩ := List.mem_iff_getElem?.mp (mem_slots_of_mem_core hreg hc)
    obtain ⟨slot, hslot, hstart, hend, hkind⟩ := exists_slot_of_layout hlayout.symm hi
    rw [hstart] at hle
    rw [hend] at hge
    exact ⟨i, slot, getPeripheral_of_disjoint hdisjoint' hproper hslot hle hge,
      hstart.symm, hkind.symm⟩
  refine ⟨hdisjoint', hcore, fun S addr hle hge => ?_⟩
  obtain ⟨i, slot, hget, hstart, hkind⟩ := hcore ⟨0xe000e100, 0xe000e4ef, .nvic 0x100⟩ (by
    simp [corePeripherals]) addr hle hge
  have hnvic := Peripheral.eq_nvic_of_kind hkind
  have hoffset : addr - slot.start + 0x100 = addr - 0xe000e000 := by
    rw [hstart]
    bv_omega
  have hset := set_of_getPeripheral (hget S) hnvic
  constructor
  · simp only [readPeripheral, hget S, hnvic, Peripheral.read, hoffset, Option.map_map,
      Function.comp_def, hset]
  · intro value
    simp only [writePeripheral, hget S, hnvic, Peripheral.write, hoffset, Option.map_map,
      Function.comp_def, hset]

/-- **Unobstructed descriptions are those with unique routing.**  After a registration, and in every
state that is reached from there, routing to the blocks of the core is determined by the address,
exactly when no range of the description reaches a block of the core and none of the ranges other
than declared reaches anything modelled. -/
theorem routes_uniquely_iff (hreg : fromSvd svdPeripherals sys extDevices internalFlash = some p₀)
    (S : SlotSearch) :
    (∀ es p, Run (EventStep S) p₀ es p → RoutesUniquely p) ↔
      Unobstructed (inAddressOrder svdPeripherals) := by
  rw [← disjoint_iff_unobstructed hreg]
  constructor
  · exact fun hall => (hall [] p₀ Run.nil).disjoint
  · exact fun hdisjoint es p hrun => routesUniquely_of_disjoint hreg hdisjoint (layout_of_run hrun)

end Routing

/-- A description that leaves the core out, as that of the STM32F767 does. -/
def sampleDevice : List SvdPeripheral := [⟨"RTC", 0x40002800, none, [0x00, 0x4c]⟩]

/-- One that declares the interrupt controller, as that of the STM32F407 does. -/
def sampleNvicDevice : List SvdPeripheral := [⟨"NVIC", 0xe000e100, none, [0x000, 0x350]⟩]

def sampleSystem : System RegisterFile Unit := ⟨.default, .default, .default, sampleCpu 0, (), 0⟩

lemma fromSvd_sampleDevice : fromSvd sampleDevice sampleSystem .default none
    = some ⟨⟨0x40002800, 0x40002850, .rtc .new⟩ :: corePeripherals, sampleSystem⟩ := by
  simp [fromSvd, sampleDevice, inAddressOrder, sortByKey, registerDeclared, declaredRegisters,
    registerPeripheral, Peripheral.ofName, genericSize, lastOffset, checkedAdd, modeledRange,
    finishRegistration, adjacentAll, corePeripherals]

/-- The block of the description comes before that of the core, and starts where it does. -/
lemma fromSvd_sampleNvicDevice : fromSvd sampleNvicDevice sampleSystem .default none
    = some ⟨corePeripherals.take 2 ++ ⟨0xe000e100, 0xe000e454, .nvic 0⟩ :: corePeripherals.drop 2,
        sampleSystem⟩ := by
  simp [fromSvd, sampleNvicDevice, inAddressOrder, sortByKey, registerDeclared, declaredRegisters,
    registerPeripheral, Peripheral.ofName, genericSize, lastOffset, checkedAdd, modeledRange,
    finishRegistration, adjacentAll, corePeripherals]

theorem routes_uniquely_iff_sample : ∃ p, fromSvd sampleDevice sampleSystem .default none = some p ∧
    RoutesUniquely p := by
  refine ⟨_, fromSvd_sampleDevice, ?_⟩
  have hfree : Unobstructed (inAddressOrder sampleDevice) :=
    ⟨by simp [sampleDevice, inAddressOrder, sortByKey, coreRanges, declaredRange, declaredRegisters,
      lastOffset, Apart], by simp [sampleDevice, inAddressOrder, sortByKey]⟩
  exact (routes_uniquely_iff fromSvd_sampleDevice BinarySearch.linear).mpr hfree [] _ Run.nil

/-- The first enable register goes to the block of the description, which takes its offset from its
own start. The next one goes to the block of the core. -/
theorem declared_nvic_swallows_iser0 :
    ∃ p, fromSvd sampleNvicDevice sampleSystem .default none = some p ∧ ¬ RoutesUniquely p ∧
      (p.writePeripheral BinarySearch.linear 0xe000e100 1).map
        (fun p => p.sys.nvic.enabled) = some 0 ∧
      (p.writePeripheral BinarySearch.linear 0xe000e104 1).map (fun p => p.sys.nvic.enabled)
        = some (1 <<< 32) := by
  refine ⟨_, fromSvd_sampleNvicDevice, fun h => ?_, by decide +kernel, by decide +kernel⟩
  have hdisjoint := h.disjoint
  revert hdisjoint
  simp [corePeripherals]

end Peripherals

end Stm32Emulator
