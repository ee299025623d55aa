import Stm32Emulator.Peripherals.AdcSequence
import Stm32Emulator.Bus.Reentry

/-!
# Transfers from the converter

A stream asks for its items as one number of bytes, and the converter takes two bytes of it for each
conversion. The two agree if and only if the items of the stream are half words
(`adc_transfer_iff`).
-/

namespace Stm32Emulator

namespace Peripherals

variable {U D : Type} [UnicornEngine U] {S : SlotSearch} {map : MemoryMap} {own i : ℕ}
    {p : Peripherals U D}
  {stream : DmaStream} {slot : PeripheralSlot D} {adc : Adc D}

/-- The conversions as items of a size, cut or filled up with zeros. -/
def items (size : ℕ) (conversions : List (ℕ × U32)) : List U8 :=
  conversions.flatMap fun c => leBytes c.2 size

/-- The peripherals with a converter in its slot. -/
def withAdc (p : Peripherals U D) (i : ℕ) (slot : PeripheralSlot D) (adc : Adc D) :
    Peripherals U D :=
  ⟨p.slots.set i { slot with peripheral := .adc adc }, p.sys⟩

/-- One conversion for each item of a transfer: no others are made, their values are the bytes that
the stream fetches, and these are what it writes to memory. -/
structure OnePerItem (S : SlotSearch) (map : MemoryMap) (own : ℕ) (p : Peripherals U D)
    (stream : DmaStream) (i : ℕ) (slot : PeripheralSlot D) (adc : Adc D) : Prop where
  conversions : (adc.convertTraced p.sys.d stream.dataSize).2.1 =
    (adc.conversions p.sys.d stream.ndtr.toNat).2
  fetched : stream.fetch (slotBus S map own) (.held p)
    = some (items stream.wordSize (adc.conversions p.sys.d stream.ndtr.toNat).2,
        .held (p.withAdc i slot (adc.conversions p.sys.d stream.ndtr.toNat).1))
  length_fetched : (items stream.wordSize (adc.conversions p.sys.d stream.ndtr.toNat).2).length
    = stream.wordSize * stream.ndtr.toNat
  written : stream.doXfer (slotBus S map own) (.held p)
    = (slotBus S map own).memWrite stream.dataAddr
        (items stream.wordSize (adc.conversions p.sys.d stream.ndtr.toNat).2)
        (.held (p.withAdc i slot (adc.conversions p.sys.d stream.ndtr.toNat).1))

lemma wordSize_cases (stream : DmaStream) :
    stream.wordSize = 1 ∨ stream.wordSize = 2 ∨ stream.wordSize = 4 := by
  unfold DmaStream.wordSize
  dsimp only
  split_ifs
  · exact Or.inr (Or.inl rfl)
  · exact Or.inr (Or.inr rfl)
  · exact Or.inl rfl

lemma length_items (size : ℕ) (conversions : List (ℕ × U32)) :
    (items size conversions).length = size * conversions.length := by
  induction conversions with
  | nil => rfl
  | cons c conversions ih =>
    rw [items, List.flatMap_cons, List.length_append, List.length_cons, Nat.mul_add,
      Nat.mul_one, Nat.add_comm]
    rw [items] at ih
    rw [ih, leBytes, List.length_map, List.length_range]

/-- Half words are what the converter gives. -/
lemma items_two (conversions : List (ℕ × U32)) :
    items 2 conversions = conversions.flatMap Adc.halfword := rfl

/-- What a stream fetches from the data register of the converter. -/
lemma fetch_adc (hdir : stream.dir = .read)
    (hget : getPeripheral S p.slots stream.par = some (i, slot)) (hown : i ≠ own)
    (hadc : slot.peripheral = .adc adc) (hdr : stream.par - slot.start = 0x4c) :
    stream.fetch (slotBus S map own) (.held p)
      = some ((adc.conversions p.sys.d (stream.dataSize / 2)).2.flatMap Adc.halfword,
          .held (p.withAdc i slot (adc.conversions p.sys.d (stream.dataSize / 2)).1)) := by
  have hbytes : adc.dmaReadBytes p.sys.d 0x4c stream.dataSize
      = ((adc.conversions p.sys.d (stream.dataSize / 2)).1,
          (adc.conversions p.sys.d (stream.dataSize / 2)).2.flatMap Adc.halfword) := by
    rw [Adc.dmaReadBytes, if_neg (not_not.mpr rfl), Adc.convertBytes_eq_traced,
      Adc.convertTraced_eq]
  have hread : (slotBus S map own).readDma stream.par stream.dataSize (.held p)
      = some (some ((adc.conversions p.sys.d (stream.dataSize / 2)).2.flatMap Adc.halfword),
          .held (p.withAdc i slot (adc.conversions p.sys.d (stream.dataSize / 2)).1)) := by
    dsimp only [slotBus]
    rw [hget]
    dsimp only
    rw [if_neg hown, hadc, hdr]
    dsimp only [Peripheral.readDma]
    rw [hbytes]
    rfl
  unfold DmaStream.fetch
  rw [hdir]
  dsimp only
  rw [hread]
  rfl

/-- What is fetched from a peripheral is written to memory. -/
lemma doXfer_read {buf : List U8} {w w' : Borrowed U D} (hdir : stream.dir = .read)
    (hfetch : stream.fetch (slotBus S map own) w = some (buf, w')) :
    stream.doXfer (slotBus S map own) w = (slotBus S map own).memWrite stream.dataAddr buf w' := by
  unfold DmaStream.doXfer
  rw [hfetch, Option.bind_some, hdir]

/-- **One conversion for each item**: when the items are half words, or there are none. -/
theorem adc_transfer_iff (hdir : stream.dir = .read)
    (hget : getPeripheral S p.slots stream.par = some (i, slot)) (hown : i ≠ own)
    (hadc : slot.peripheral = .adc adc) (hdr : stream.par - slot.start = 0x4c) :
    OnePerItem S map own p stream i slot adc ↔ stream.wordSize = 2 ∨ stream.ndtr.toNat = 0 := by
  constructor
  · rintro ⟨hconversions, -, -, -⟩
    have hlength := congrArg List.length hconversions
    rw [Adc.convertTraced_eq, Adc.length_conversions, Adc.length_conversions,
      DmaStream.dataSize] at hlength
    rcases wordSize_cases stream with hsize | hsize | hsize
    · rw [hsize] at hlength
      omega
    · exact Or.inl hsize
    · rw [hsize] at hlength
      omega
  · intro hsize
    have hcount : stream.dataSize / 2 = stream.ndtr.toNat := by
      unfold DmaStream.dataSize
      rcases hsize with hsize | hzero
      · rw [hsize, Nat.mul_div_cancel_left _ (by decide)]
      · rw [hzero, Nat.mul_zero, Nat.zero_div]
    have hitems : items stream.wordSize (adc.conversions p.sys.d stream.ndtr.toNat).2
        = (adc.conversions p.sys.d stream.ndtr.toNat).2.flatMap Adc.halfword := by
      rcases hsize with hsize | hzero
      · rw [hsize, items_two]
      · rw [hzero]
        rfl
    have hfetch : stream.fetch (slotBus S map own) (.held p) = _ :=
      fetch_adc hdir hget hown hadc hdr
    rw [hcount, ← hitems] at hfetch
    refine ⟨?_, hfetch, ?_, doXfer_read hdir hfetch⟩
    · rw [Adc.convertTraced_eq, hcount]
    · rw [length_items, Adc.length_conversions]

/-- A converter of one channel, beside a controller. -/
def adcSlots : Peripherals RegisterFile Unit :=
  ⟨[⟨0x40012000, 0x40012050, .adc (.new none)⟩, ⟨0x40026400, 0x400264d0, .dma (.new "DMA2")⟩],
    sampleSystem⟩

/-- A stream from its data register: two items, of one byte or as `CR` says. -/
def adcStream (cr : U32) : DmaStream := ⟨cr, none, 2, 0x4001204c, 0x20000000, 0, 0, rfl⟩

/-- Two half words are two conversions. -/
theorem adc_transfer_halfwords :
    OnePerItem BinarySearch.linear sampleMap 1 adcSlots (adcStream 0x801) 0
      ⟨0x40012000, 0x40012050, .adc (.new none)⟩ (.new none) :=
  (adc_transfer_iff rfl rfl (by decide) rfl rfl).mpr (Or.inl rfl)

/-- Two bytes are one conversion, and two words are four. -/
theorem adc_bytes_and_words_not_one_each :
    (¬ OnePerItem BinarySearch.linear sampleMap 1 adcSlots (adcStream 0x001) 0
      ⟨0x40012000, 0x40012050, .adc (.new none)⟩ (.new none)) ∧
    ¬ OnePerItem BinarySearch.linear sampleMap 1 adcSlots (adcStream 0x1001) 0
      ⟨0x40012000, 0x40012050, .adc (.new none)⟩ (.new none) := by
  constructor
  · intro h
    have hlength := congrArg List.length h.conversions
    revert hlength
    decide
  · intro h
    have hlength := congrArg List.length h.conversions
    revert hlength
    decide

end Peripherals

end Stm32Emulator
