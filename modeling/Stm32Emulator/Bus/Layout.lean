import Stm32Emulator.Bus.Access
import Stm32Emulator.Foundation.Run

/-!
# The layout of the slots

What an access does to a peripheral it does to its state.  Where the slots stand and what kind of
peripheral each of them holds stays as it was registered (`layout`), whatever the guest accesses and
whatever else changes the peripherals.
-/

namespace Stm32Emulator

variable {U D : Type}

/-- What a peripheral is, whatever its state. -/
inductive PeripheralKind where
  | nvic (baseOffset : U32)
  | nvicStir
  | sysTick
  | dwt
  | scb
  | gpio
  | usart
  | fsmc
  | rcc
  | pwr
  | otgFs
  | rtc
  | flash
  | tim11
  | tim5
  | tim6
  | can
  | i2c
  | dma
  | spi
  | adc
  | exti
  | syscfg
  deriving DecidableEq, Repr

namespace Peripheral

def kind (p : Peripheral D) : PeripheralKind :=
  match p with
  | .nvic baseOffset => .nvic baseOffset
  | .nvicStir => .nvicStir
  | .sysTick _ => .sysTick
  | .dwt _ => .dwt
  | .scb _ => .scb
  | .gpio _ => .gpio
  | .usart _ => .usart
  | .fsmc _ => .fsmc
  | .rcc _ => .rcc
  | .pwr _ => .pwr
  | .otgFs _ => .otgFs
  | .rtc _ => .rtc
  | .flash _ => .flash
  | .tim11 _ => .tim11
  | .tim5 _ => .tim5
  | .tim6 _ => .tim6
  | .can _ => .can
  | .i2c _ => .i2c
  | .dma _ => .dma
  | .spi _ => .spi
  | .adc _ => .adc
  | .exti => .exti
  | .syscfg => .syscfg

lemma eq_nvic_of_kind {p : Peripheral D} {baseOffset : U32} (h : p.kind = .nvic baseOffset) :
    p = .nvic baseOffset := by
  cases p <;> simp_all [kind]

lemma exists_dma_of_kind {p : Peripheral D} (h : p.kind = .dma) : ∃ dma, p = .dma dma := by
  cases p <;> simp_all [kind]

variable {p p' : Peripheral D} {sys sys' : System U D} {offset value v : U32}

lemma kind_read (h : p.read sys offset = some (p', sys', v)) : p'.kind = p.kind := by
  cases p <;> simp only [read, Option.map_eq_some_iff, Option.some.injEq, Prod.mk.injEq,
    Prod.exists] at h
  all_goals grind [kind]

lemma kind_write [UnicornEngine U] (h : p.write sys offset value = some (p', sys')) :
    p'.kind = p.kind := by
  cases p <;> simp only [write, Option.map_eq_some_iff, Option.some.injEq, Prod.mk.injEq,
    Prod.exists] at h
  all_goals grind [kind]

end Peripheral

namespace Peripherals

/-- Where the slots stand, and what they hold. -/
def layout (p : Peripherals U D) : List (U32 × U32 × PeripheralKind) :=
  p.slots.map fun slot => (slot.start, slot.end_, slot.peripheral.kind)

variable {S : SlotSearch} {p p' : Peripherals U D} {addr value v : U32} {size i : ℕ}

/-- The slots of one layout, one by one. -/
lemma exists_slot_of_layout (h : p'.layout = p.layout) {slot' : PeripheralSlot D}
    (hslot : p'.slots[i]? = some slot') :
    ∃ slot, p.slots[i]? = some slot ∧ slot'.start = slot.start ∧ slot'.end_ = slot.end_ ∧
      slot'.peripheral.kind = slot.peripheral.kind := by
  have hget := congrArg (fun l => l[i]?) h
  simp only [layout, List.getElem?_map, hslot, Option.map_some] at hget
  obtain ⟨slot, hold, heq⟩ := Option.map_eq_some_iff.mp hget.symm
  simp only [Prod.mk.injEq] at heq
  exact ⟨slot, hold, heq.1.symm, heq.2.1.symm, heq.2.2.symm⟩

/-- What depends on the layout of the slots alone. -/
lemma map_eq_of_layout (h : p'.layout = p.layout) {β : Type*} (f : U32 → U32 → PeripheralKind → β) :
    (p'.slots.map fun slot => f slot.start slot.end_ slot.peripheral.kind)
      = p.slots.map fun slot => f slot.start slot.end_ slot.peripheral.kind := by
  have hmap := congrArg (List.map fun r : U32 × U32 × PeripheralKind => f r.1 r.2.1 r.2.2) h
  unfold layout at hmap
  rwa [List.map_map, List.map_map] at hmap

/-- Peripherals of one layout are looked up alike. -/
lemma getPeripheral_of_layout (h : p'.layout = p.layout) {slot' : PeripheralSlot D}
    (hget : getPeripheral S p'.slots addr = some (i, slot')) :
    ∃ slot, getPeripheral S p.slots addr = some (i, slot) ∧ slot'.start = slot.start ∧
      slot'.end_ = slot.end_ ∧ slot'.peripheral.kind = slot.peripheral.kind := by
  obtain ⟨hlookup, hslot⟩ := getPeripheral_eq_some_iff.mp hget
  obtain ⟨slot, hold, hsame⟩ := exists_slot_of_layout h hslot
  refine ⟨slot, getPeripheral_eq_some_iff.mpr ⟨?_, hold⟩, hsame⟩
  rw [← hlookup]
  apply lookup_congr
  · exact map_eq_of_layout h.symm fun start _ _ => start.toNat
  · exact map_eq_of_layout h.symm fun _ end_ _ => end_.toNat

/-- Replacing a peripheral by one of its kind leaves the layout as it was. -/
lemma layout_set {slot : PeripheralSlot D} (h : p.slots[i]? = some slot) {peripheral : Peripheral D}
    (hkind : peripheral.kind = slot.peripheral.kind) (sys : System U D) :
    layout (⟨p.slots.set i { slot with peripheral := peripheral }, sys⟩ : Peripherals U D) =
      p.layout := by
  have hsame : (slot.start, slot.end_, peripheral.kind) =
      (slot.start, slot.end_, slot.peripheral.kind) := by
    rw [hkind]
  exact map_set_eq h hsame

lemma layout_readPeripheral (h : p.readPeripheral S addr = some (p', v)) :
    p'.layout = p.layout := by
  unfold readPeripheral at h
  cases hget : getPeripheral S p.slots addr with
  | none =>
    obtain ⟨rfl, -⟩ : p = p' ∧ 0 = v := by simpa [hget] using h
    rfl
  | some r =>
    rcases r with ⟨i, slot⟩
    rw [hget] at h
    obtain ⟨⟨peripheral, sys, w⟩, hread, heq⟩ := Option.map_eq_some_iff.mp h
    cases heq
    exact layout_set (getPeripheral_eq_some_iff.mp hget).2 (Peripheral.kind_read hread) sys

lemma layout_readDirect (h : p.readDirect S addr size = some (p', v)) : p'.layout = p.layout := by
  unfold readDirect at h
  dsimp only at h
  split_ifs at h
  obtain ⟨⟨q, w⟩, hread, heq⟩ := Option.map_eq_some_iff.mp h
  cases heq
  exact layout_readPeripheral hread

lemma layout_read (h : p.read S addr size = some (p', v)) : p'.layout = p.layout := by
  unfold Peripherals.read at h
  split at h
  · obtain ⟨⟨q, w⟩, hread, heq⟩ := Option.map_eq_some_iff.mp h
    cases heq
    exact layout_readDirect hread
  · exact layout_readDirect h

variable [UnicornEngine U]

lemma layout_writePeripheral (h : p.writePeripheral S addr value = some p') :
    p'.layout = p.layout := by
  unfold writePeripheral at h
  cases hget : getPeripheral S p.slots addr with
  | none =>
    obtain rfl : p = p' := by simpa [hget] using h
    rfl
  | some r =>
    rcases r with ⟨i, slot⟩
    rw [hget] at h
    obtain ⟨⟨peripheral, sys⟩, hwrite, heq⟩ := Option.map_eq_some_iff.mp h
    cases heq
    exact layout_set (getPeripheral_eq_some_iff.mp hget).2 (Peripheral.kind_write hwrite) sys

lemma layout_writeDirect (h : p.writeDirect S addr size value = some p') :
    p'.layout = p.layout := by
  unfold writeDirect at h
  dsimp only at h
  split_ifs at h
  · obtain ⟨⟨q, w⟩, hread, hwrite⟩ := Option.bind_eq_some_iff.mp h
    exact (layout_writePeripheral hwrite).trans (layout_read hread)
  · exact layout_writePeripheral h

lemma layout_write (h : p.write S addr size value = some p') : p'.layout = p.layout := by
  unfold Peripherals.write at h
  split at h
  · obtain ⟨⟨q, w⟩, hread, hwrite⟩ := Option.bind_eq_some_iff.mp h
    exact (layout_writeDirect hwrite).trans (layout_readDirect hread)
  · exact layout_writeDirect h

/-! ## Runs -/

/-- What happens to the peripherals: the guest accesses them, or the rest of the emulator lets time
pass, delivers interrupts and polls the devices. -/
inductive BusEvent where
  | read (addr : U32) (size : ℕ)
  | write (addr : U32) (size : ℕ) (value : U32)
  | elsewhere
  deriving DecidableEq, Repr

/-- One event.  Nothing is said about what the rest of the emulator does, but that it registers
nothing. -/
inductive EventStep (S : SlotSearch) (p : Peripherals U D) : BusEvent → Peripherals U D → Prop
  | read {addr : U32} {size : ℕ} {p' : Peripherals U D} {v : U32} :
      p.read S addr size = some (p', v) → EventStep S p (.read addr size) p'
  | write {addr : U32} {size : ℕ} {value : U32} {p' : Peripherals U D} :
      p.write S addr size value = some p' → EventStep S p (.write addr size value) p'
  | elsewhere {p' : Peripherals U D} : p'.layout = p.layout → EventStep S p .elsewhere p'

lemma EventStep.layout_eq {e : BusEvent} (h : EventStep S p e p') : p'.layout = p.layout := by
  cases h with
  | read hread => exact layout_read hread
  | write hwrite => exact layout_write hwrite
  | elsewhere hlayout => exact hlayout

/-- The layout is that of the registration in every state that is reached. -/
theorem layout_of_run {es : List BusEvent} (h : Run (EventStep S) p es p') : p'.layout = p.layout :=
  h.invariant_state (I := fun q => q.layout = p.layout) rfl fun _ _ _ hq hstep =>
    hstep.layout_eq.trans hq

end Peripherals

end Stm32Emulator
