import Stm32Emulator.Bus.Routing
import Stm32Emulator.Bus.SlotBus

/-!
# Transfers that reach the controller itself

The cell of a controller is borrowed while it is polled.  A transfer from or to its own slot, at the
peripheral address or behind an access of registers in its memory range, borrows the cell once more.
-/

namespace Stm32Emulator

open Peripherals

variable {U D : Type} {S : SlotSearch} {map : MemoryMap} {own : ℕ} {p₀ p q : Peripherals U D}

/-! ## What reaches the slot -/

/-- An access of registers that is routed to a slot. -/
def MemoryPart.Reaches (S : SlotSearch) (p : Peripherals U D) (own : ℕ) : MemoryPart → Prop
  | .ram _ _ => False
  | .mmio addr _ => RoutedTo S p own (target addr)

/-- A range of memory with such an access. -/
def MemoryMap.Reaches (map : MemoryMap) (S : SlotSearch) (p : Peripherals U D) (own : ℕ)
    (addr : U32) (size : ℕ) : Prop :=
  ∃ parts ∈ map.parts addr size, ∃ part ∈ parts, part.Reaches S p own

/-- How many bytes a transfer from a peripheral address has.  The converter leaves an odd byte
out. -/
def Peripherals.readLength (S : SlotSearch) (p : Peripherals U D) (addr : U32) (size : ℕ) : ℕ :=
  match getPeripheral S p.slots addr with
  | some (_, slot) =>
    if slot.peripheral.kind = .adc ∧ addr - slot.start = 0x4c then size / 2 * 2 else size
  | none => size

namespace DmaStream

/-- The transfer of a stream reaches a slot. -/
def Reaches (stream : DmaStream) (S : SlotSearch) (map : MemoryMap) (p : Peripherals U D)
    (own : ℕ) : Prop :=
  match stream.dir with
  | .read => RoutedTo S p own stream.par ∨
    map.Reaches S p own stream.dataAddr (p.readLength S stream.par stream.dataSize)
  | .write => map.Reaches S p own stream.dataAddr stream.dataSize ∨ RoutedTo S p own stream.par
  | .memCopy => map.Reaches S p own stream.par stream.dataSize ∨
    map.Reaches S p own stream.dataAddr stream.dataSize
  | .invalid => False

end DmaStream

/-- The slots stand as in `p₀`, and the panic has happened exactly if `c`. -/
def Ends (p₀ : Peripherals U D) (c : Prop) : Borrowed U D → Prop
  | .held p => p.layout = p₀.layout ∧ ¬ c
  | .doubleBorrow => c

/-- What comes first and what comes after. -/
lemma Ends.or {c c' : Prop} {w w' : Borrowed U D} (h : Ends p₀ c w)
    (hheld : ∀ p, w = .held p → p.layout = p₀.layout → Ends p₀ c' w')
    (hpanic : w = .doubleBorrow → w' = .doubleBorrow) : Ends p₀ (c ∨ c') w' := by
  cases w with
  | doubleBorrow =>
    rw [hpanic rfl]
    exact Or.inl h
  | held p =>
    have hlater := hheld p rfl h.1
    cases w' with
    | doubleBorrow => exact Or.inr hlater
    | held p' => exact ⟨hlater.1, fun hor => hor.elim h.2 hlater.2⟩

/-! ## Peripherals and memory -/

section Layout

lemma routedTo_of_layout (h : p.layout = q.layout) {addr : U32} (hrouted : RoutedTo S p own addr) :
    RoutedTo S q own addr := by
  obtain ⟨⟨i, slot⟩, hget, heq⟩ := Option.map_eq_some_iff.mp hrouted
  obtain ⟨slot', hget', -⟩ := getPeripheral_of_layout h hget
  unfold RoutedTo
  rw [hget', Option.map_some]
  exact congrArg some heq

/-- Routing is that of the layout. -/
lemma routedTo_congr (h : p.layout = q.layout) (addr : U32) :
    RoutedTo S p own addr ↔ RoutedTo S q own addr :=
  ⟨routedTo_of_layout h, routedTo_of_layout h.symm⟩

lemma readLength_congr (h : p.layout = q.layout) (addr : U32) (size : ℕ) :
    p.readLength S addr size = q.readLength S addr size := by
  unfold readLength
  cases hget : getPeripheral S p.slots addr with
  | none =>
    cases hget' : getPeripheral S q.slots addr with
    | none => rfl
    | some r =>
      rcases r with ⟨i, slot⟩
      obtain ⟨slot', hsome, -⟩ := getPeripheral_of_layout h.symm hget'
      rw [hget] at hsome
      cases hsome
  | some r =>
    rcases r with ⟨i, slot⟩
    obtain ⟨slot', hget', hstart, -, hkind⟩ := getPeripheral_of_layout h hget
    rw [hget']
    dsimp only
    rw [hstart, hkind]

end Layout

namespace Peripheral

variable {peripheral peripheral' : Peripheral D} {sys sys' : System U D} {offset : U32}

lemma readBytes_spec {size : ℕ} {bytes : List U8}
    (h : peripheral.readBytes sys offset size = some (peripheral', sys', bytes)) :
    peripheral'.kind = peripheral.kind ∧ bytes.length = size := by
  induction size generalizing peripheral sys bytes with
  | zero =>
    cases h
    exact ⟨rfl, rfl⟩
  | succ remaining ih =>
    obtain ⟨⟨next, sys₁, value⟩, hread, hrest⟩ := Option.bind_eq_some_iff.mp h
    obtain ⟨⟨last, sys₂, v⟩, hloop, heq⟩ := Option.map_eq_some_iff.mp hrest
    cases heq
    obtain ⟨hkind, hlength⟩ := ih hloop
    exact ⟨hkind.trans (kind_read hread), congrArg Nat.succ hlength⟩

lemma length_convertBytes (adc : Adc D) (d : D) (size : ℕ) :
    (adc.convertBytes d size).2.length = size / 2 * 2 := by
  induction size using Nat.twoStepInduction generalizing adc with
  | zero => rfl
  | one => rfl
  | more n ih _ =>
    rw [Adc.convertBytes]
    dsimp only
    rw [List.length_cons, List.length_cons, ih]
    omega

lemma length_registerBytes (adc : Adc D) (d : D) (size : ℕ) :
    (adc.registerBytes d offset size).2.length = size := by
  induction size generalizing adc with
  | zero => rfl
  | succ n ih =>
    rw [Adc.registerBytes]
    dsimp only
    rw [List.length_cons, ih]

lemma exists_adc_of_kind (h : peripheral.kind = .adc) : ∃ adc, peripheral = .adc adc := by
  cases peripheral <;> simp_all [kind]

/-- All but the converter read byte by byte. -/
lemma readDma_of_ne (h : peripheral.kind ≠ .adc) (sys : System U D) (offset : U32) (size : ℕ) :
    peripheral.readDma sys offset size = peripheral.readBytes sys offset size := by
  cases peripheral with
  | adc adc => exact absurd rfl h
  | _ => rfl

lemma readDma_spec {size : ℕ} {bytes : List U8}
    (h : peripheral.readDma sys offset size = some (peripheral', sys', bytes)) :
    peripheral'.kind = peripheral.kind ∧
      bytes.length = if peripheral.kind = .adc ∧ offset = 0x4c then size / 2 * 2 else size := by
  by_cases hkind : peripheral.kind = .adc
  · obtain ⟨adc, rfl⟩ := exists_adc_of_kind hkind
    have heq := Option.some.inj h
    simp only [Prod.mk.injEq] at heq
    obtain ⟨rfl, -, rfl⟩ := heq
    refine ⟨rfl, ?_⟩
    unfold Adc.dmaReadBytes
    by_cases hdr : offset = 0x4c
    · rw [if_neg (not_not.mpr hdr), if_pos ⟨hkind, hdr⟩, length_convertBytes]
    · rw [if_pos hdr, if_neg fun hboth => hdr hboth.2, length_registerBytes]
  · rw [readDma_of_ne hkind] at h
    rw [if_neg fun hboth => hkind hboth.1]
    exact readBytes_spec h

lemma kind_writeDma [UnicornEngine U] {bytes : List U8}
    (h : peripheral.writeDma sys offset bytes = some (peripheral', sys')) :
    peripheral'.kind = peripheral.kind := by
  unfold writeDma at h
  induction bytes generalizing peripheral sys with
  | nil =>
    cases h
    rfl
  | cons b bytes ih =>
    rw [List.foldlM_cons] at h
    obtain ⟨⟨next, sys₁⟩, hwrite, hrest⟩ := Option.bind_eq_some_iff.mp h
    exact (ih hrest).trans (kind_write hwrite)

end Peripheral

namespace Peripherals

section Parts

variable [UnicornEngine U] {part : MemoryPart} {parts : List MemoryPart} {bytes : List U8}
    {w : Borrowed U D}

lemma readPart_spec (hlayout : p.layout = p₀.layout) (h : readPart S own p part = some (bytes, w)) :
    Ends p₀ (part.Reaches S p₀ own) w ∧ (w ≠ .doubleBorrow → bytes.length = part.size) := by
  cases part with
  | ram addr size =>
    obtain ⟨rfl, rfl⟩ := Prod.mk.inj (Option.some.inj h)
    exact ⟨⟨hlayout, not_false⟩, fun _ => by simp [ramBytes, MemoryPart.size]⟩
  | mmio addr size =>
    unfold readPart at h
    dsimp only at h
    split_ifs at h with hfits hown
    · obtain ⟨-, rfl⟩ := Prod.mk.inj (Option.some.inj h)
      exact ⟨(routedTo_congr hlayout _).mp hown, fun hne => absurd rfl hne⟩
    · obtain ⟨⟨p', value⟩, hread, heq⟩ := Option.map_eq_some_iff.mp h
      obtain ⟨rfl, rfl⟩ := Prod.mk.inj heq
      exact ⟨⟨(layout_read hread).trans hlayout, fun hreach =>
        hown ((routedTo_congr hlayout _).mpr hreach)⟩, fun _ => by simp [leBytes, MemoryPart.size]⟩

lemma writePart_spec (hlayout : p.layout = p₀.layout) (h : writePart S own p bytes part = some w) :
    Ends p₀ (part.Reaches S p₀ own) w := by
  cases part with
  | ram addr size =>
    obtain rfl := Option.some.inj h
    exact ⟨hlayout, not_false⟩
  | mmio addr size =>
    unfold writePart at h
    dsimp only at h
    split_ifs at h with hfits hown
    · obtain rfl := Option.some.inj h
      exact (routedTo_congr hlayout _).mp hown
    · obtain ⟨p', hwrite, rfl⟩ := Option.map_eq_some_iff.mp h
      exact ⟨(layout_write hwrite).trans hlayout, fun hreach =>
        hown ((routedTo_congr hlayout _).mpr hreach)⟩

lemma readParts_doubleBorrow (h : readParts S own parts .doubleBorrow = some (bytes, w)) :
    w = .doubleBorrow := by
  cases parts with
  | nil => exact (Prod.mk.inj (Option.some.inj h)).2.symm
  | cons part parts => exact (Prod.mk.inj (Option.some.inj h)).2.symm

lemma writeParts_doubleBorrow (h : writeParts S own parts bytes .doubleBorrow = some w) :
    w = .doubleBorrow := by
  cases parts with
  | nil => exact (Option.some.inj h).symm
  | cons part parts => exact (Option.some.inj h).symm

lemma readParts_spec (hlayout : p.layout = p₀.layout)
    (h : readParts S own parts (.held p) = some (bytes, w)) :
    Ends p₀ (∃ part ∈ parts, part.Reaches S p₀ own) w ∧
      (w ≠ .doubleBorrow → bytes.length = (parts.map MemoryPart.size).sum) := by
  induction parts generalizing p bytes with
  | nil =>
    obtain ⟨rfl, rfl⟩ := Prod.mk.inj (Option.some.inj h)
    exact ⟨⟨hlayout, by simp⟩, fun _ => rfl⟩
  | cons part parts ih =>
    obtain ⟨⟨first, w₁⟩, hpart, hrest⟩ := Option.bind_eq_some_iff.mp h
    obtain ⟨⟨rest, w₂⟩, hparts, heq⟩ := Option.map_eq_some_iff.mp hrest
    obtain ⟨rfl, rfl⟩ := Prod.mk.inj heq
    obtain ⟨hends, hlength⟩ := readPart_spec hlayout hpart
    refine ⟨?_, fun hne => ?_⟩
    · rw [List.exists_mem_cons_iff]
      refine hends.or (fun q hq hlayout' => ?_) fun hq => ?_
      · rw [hq] at hparts
        exact (ih hlayout' hparts).1
      · rw [hq] at hparts
        exact readParts_doubleBorrow hparts
    · cases w₁ with
      | doubleBorrow => exact absurd (readParts_doubleBorrow hparts) hne
      | held q =>
        rw [List.length_append, hlength (Borrowed.held_ne q), (ih hends.1 hparts).2 hne,
          List.map_cons, List.sum_cons]

lemma writeParts_spec (hlayout : p.layout = p₀.layout)
    (h : writeParts S own parts bytes (.held p) = some w) :
    Ends p₀ (∃ part ∈ parts, part.Reaches S p₀ own) w := by
  induction parts generalizing p bytes with
  | nil =>
    obtain rfl := Option.some.inj h
    exact ⟨hlayout, by simp⟩
  | cons part parts ih =>
    obtain ⟨w₁, hpart, hparts⟩ := Option.bind_eq_some_iff.mp h
    rw [List.exists_mem_cons_iff]
    refine (writePart_spec hlayout hpart).or (fun q hq hlayout' => ?_) fun hq => ?_
    · rw [hq] at hparts
      exact ih hlayout' hparts
    · rw [hq] at hparts
      exact writeParts_doubleBorrow hparts

end Parts

section Bus

variable [UnicornEngine U] {addr : U32} {size : ℕ} {bytes : List U8} {buf : Option (List U8)}
  {w : Borrowed U D}

lemma readDma_ends (hlayout : p.layout = p₀.layout)
    (h : (slotBus S map own).readDma addr size (.held p) = some (buf, w)) :
    Ends p₀ (RoutedTo S p₀ own addr) w ∧
      (w ≠ .doubleBorrow → (buf.getD (List.replicate size 0)).length =
        p₀.readLength S addr size) := by
  rw [← readLength_congr hlayout, ← routedTo_congr hlayout]
  unfold slotBus at h
  dsimp only at h
  unfold RoutedTo readLength
  cases hget : getPeripheral S p.slots addr with
  | none =>
    rw [hget] at h
    obtain ⟨rfl, rfl⟩ := Prod.mk.inj (Option.some.inj h)
    exact ⟨⟨hlayout, nofun⟩, fun _ => List.length_replicate⟩
  | some r =>
    rcases r with ⟨i, slot⟩
    rw [hget] at h
    dsimp only at h
    split_ifs at h with hown
    · obtain ⟨-, rfl⟩ := Prod.mk.inj (Option.some.inj h)
      exact ⟨congrArg some hown, fun hne => absurd rfl hne⟩
    · obtain ⟨⟨peripheral, sys, v⟩, hread, heq⟩ := Option.map_eq_some_iff.mp h
      obtain ⟨rfl, rfl⟩ := Prod.mk.inj heq
      obtain ⟨hkind, hlength⟩ := Peripheral.readDma_spec hread
      refine ⟨⟨?_, fun hrouted => hown (Option.some.inj hrouted)⟩, fun _ => hlength⟩
      exact (layout_set (getPeripheral_eq_some_iff.mp hget).2 hkind sys).trans hlayout

lemma writeDma_ends (hlayout : p.layout = p₀.layout)
    (h : (slotBus S map own).writeDma addr bytes (.held p) = some w) :
    Ends p₀ (RoutedTo S p₀ own addr) w := by
  rw [← routedTo_congr hlayout]
  unfold slotBus at h
  dsimp only at h
  unfold RoutedTo
  cases hget : getPeripheral S p.slots addr with
  | none =>
    rw [hget] at h
    obtain rfl := Option.some.inj h
    exact ⟨hlayout, nofun⟩
  | some r =>
    rcases r with ⟨i, slot⟩
    rw [hget] at h
    dsimp only at h
    split_ifs at h with hown
    · obtain rfl := Option.some.inj h
      exact congrArg some hown
    · obtain ⟨⟨peripheral, sys⟩, hwrite, rfl⟩ := Option.map_eq_some_iff.mp h
      refine ⟨?_, fun hrouted => hown (Option.some.inj hrouted)⟩
      exact (layout_set (getPeripheral_eq_some_iff.mp hget).2
        (Peripheral.kind_writeDma hwrite) sys).trans hlayout

lemma memRead_ends (hlayout : p.layout = p₀.layout)
    (h : (slotBus S map own).memRead addr size (.held p) = some (buf, w)) :
    Ends p₀ (map.Reaches S p₀ own addr size) w ∧
      (w ≠ .doubleBorrow → (buf.getD (List.replicate size 0)).length = size) := by
  unfold slotBus at h
  dsimp only at h
  unfold MemoryMap.Reaches
  cases hparts : map.parts addr size with
  | none =>
    rw [hparts] at h
    obtain ⟨rfl, rfl⟩ := Prod.mk.inj (Option.some.inj h)
    exact ⟨⟨hlayout, by simp⟩, fun _ => List.length_replicate⟩
  | some parts =>
    rw [hparts] at h
    obtain ⟨⟨v, w'⟩, hread, heq⟩ := Option.map_eq_some_iff.mp h
    obtain ⟨rfl, rfl⟩ := Prod.mk.inj heq
    obtain ⟨hends, hlength⟩ := readParts_spec hlayout hread
    refine ⟨by simpa using hends, fun hne => (hlength hne).trans (map.total _ _ _ hparts)⟩

lemma memWrite_ends (hlayout : p.layout = p₀.layout)
    (h : (slotBus S map own).memWrite addr bytes (.held p) = some w) :
    Ends p₀ (map.Reaches S p₀ own addr bytes.length) w := by
  unfold slotBus at h
  dsimp only at h
  unfold MemoryMap.Reaches
  cases hparts : map.parts addr bytes.length with
  | none =>
    rw [hparts] at h
    obtain rfl := Option.some.inj h
    exact ⟨hlayout, by simp⟩
  | some parts =>
    rw [hparts] at h
    simpa using writeParts_spec hlayout h

/-! After the panic nothing happens. -/

lemma memRead_doubleBorrow
    (h : (slotBus S map own).memRead addr size (.doubleBorrow : Borrowed U D) = some (buf, w)) :
    w = .doubleBorrow := by
  unfold slotBus at h
  dsimp only at h
  split at h
  · exact (Prod.mk.inj (Option.some.inj h)).2.symm
  · obtain ⟨⟨v, w'⟩, hread, heq⟩ := Option.map_eq_some_iff.mp h
    rw [← (Prod.mk.inj heq).2]
    exact readParts_doubleBorrow hread

lemma memWrite_doubleBorrow
    (h : (slotBus S map own).memWrite addr bytes (.doubleBorrow : Borrowed U D) = some w) :
    w = .doubleBorrow := by
  unfold slotBus at h
  dsimp only at h
  split at h
  · exact (Option.some.inj h).symm
  · exact writeParts_doubleBorrow h

lemma readDma_doubleBorrow
    (h : (slotBus S map own).readDma addr size (.doubleBorrow : Borrowed U D) = some (buf, w)) :
    w = .doubleBorrow := (Prod.mk.inj (Option.some.inj h)).2.symm

lemma writeDma_doubleBorrow
    (h : (slotBus S map own).writeDma addr bytes (.doubleBorrow : Borrowed U D) = some w) :
    w = .doubleBorrow := (Option.some.inj h).symm

end Bus

end Peripherals

/-! ## Transfers -/

namespace DmaStream

variable [UnicornEngine U] {stream : DmaStream} {bytes : List U8} {w w' : Borrowed U D}

/-- The bytes of a transfer, and what fetching them reaches. -/
lemma fetch_eq_some (h : stream.fetch (slotBus S map own) w = some (bytes, w')) :
    ∃ buf, bytes = buf.getD (List.replicate stream.dataSize 0) ∧ match stream.dir with
      | .read => (slotBus S map own).readDma stream.par stream.dataSize w = some (buf, w')
      | .write => (slotBus S map own).memRead stream.dataAddr stream.dataSize w = some (buf, w')
      | .memCopy => (slotBus S map own).memRead stream.par stream.dataSize w = some (buf, w')
      | .invalid => w' = w := by
  unfold fetch at h
  obtain ⟨⟨buf, w₁⟩, hbuf, heq⟩ := Option.map_eq_some_iff.mp h
  obtain ⟨rfl, rfl⟩ := Prod.mk.inj heq
  refine ⟨buf, rfl, ?_⟩
  cases hdir : stream.dir with
  | read =>
    rw [hdir] at hbuf
    exact hbuf
  | write =>
    rw [hdir] at hbuf
    exact hbuf
  | memCopy =>
    rw [hdir] at hbuf
    exact hbuf
  | invalid =>
    rw [hdir] at hbuf
    exact (Prod.mk.inj (Option.some.inj hbuf)).2.symm

/-- After the panic a transfer does nothing. -/
lemma doXfer_doubleBorrow (h : stream.doXfer (slotBus S map own)
    (.doubleBorrow : Borrowed U D) = some w) :
    w = .doubleBorrow := by
  unfold doXfer at h
  obtain ⟨⟨bytes, w₁⟩, hfetch, hstore⟩ := Option.bind_eq_some_iff.mp h
  obtain ⟨buf, -, hbuf⟩ := fetch_eq_some hfetch
  cases hdir : stream.dir with
  | read =>
    rw [hdir] at hbuf hstore
    obtain rfl := readDma_doubleBorrow hbuf
    exact memWrite_doubleBorrow hstore
  | write =>
    rw [hdir] at hbuf hstore
    obtain rfl := memRead_doubleBorrow hbuf
    exact writeDma_doubleBorrow hstore
  | memCopy =>
    rw [hdir] at hbuf hstore
    obtain rfl := memRead_doubleBorrow hbuf
    exact memWrite_doubleBorrow hstore
  | invalid =>
    rw [hdir] at hbuf hstore
    exact (Option.some.inj hstore).symm.trans hbuf

/-- **A transfer** borrows the slot of its controller exactly when it reaches it. -/
lemma doXfer_ends (hlayout : p.layout = p₀.layout)
    (h : stream.doXfer (slotBus S map own) (.held p) = some w) :
    Ends p₀ (stream.Reaches S map p₀ own) w := by
  unfold doXfer at h
  obtain ⟨⟨bytes, w₁⟩, hfetch, hstore⟩ := Option.bind_eq_some_iff.mp h
  obtain ⟨buf, rfl, hbuf⟩ := fetch_eq_some hfetch
  unfold Reaches
  cases hdir : stream.dir with
  | read =>
    rw [hdir] at hbuf hstore
    obtain ⟨hends, hlength⟩ := readDma_ends hlayout hbuf
    refine hends.or (fun q hq hlayout' => ?_) fun hq => ?_
    · rw [← hlength (by rw [hq]; exact Borrowed.held_ne q)]
      rw [hq] at hstore
      exact memWrite_ends hlayout' hstore
    · rw [hq] at hstore
      exact memWrite_doubleBorrow hstore
  | write =>
    rw [hdir] at hbuf hstore
    refine (memRead_ends hlayout hbuf).1.or (fun q hq hlayout' => ?_) fun hq => ?_
    · rw [hq] at hstore
      exact writeDma_ends hlayout' hstore
    · rw [hq] at hstore
      exact writeDma_doubleBorrow hstore
  | memCopy =>
    rw [hdir] at hbuf hstore
    obtain ⟨hends, hlength⟩ := memRead_ends hlayout hbuf
    refine hends.or (fun q hq hlayout' => ?_) fun hq => ?_
    · rw [hq] at hstore
      have hwrite := memWrite_ends hlayout' hstore
      rwa [hlength (by rw [hq]; exact Borrowed.held_ne q)] at hwrite
    · rw [hq] at hstore
      exact memWrite_doubleBorrow hstore
  | invalid =>
    rw [hdir] at hbuf hstore
    obtain rfl := Option.some.inj hstore
    dsimp only at hbuf
    rw [hbuf]
    exact ⟨hlayout, not_false⟩

end DmaStream

namespace Dma

variable [UnicornEngine U] {dma : Dma} {w : Borrowed U D} {i : Fin 8} {done : List (Fin 8)}

lemma transfer_doubleBorrow
    (h : dma.transfer (slotBus S map own) i (.doubleBorrow : Borrowed U D) = some w) :
    w = .doubleBorrow := by
  obtain ⟨w₁, hxfer, hirq⟩ := Option.bind_eq_some_iff.mp h
  obtain rfl := DmaStream.doXfer_doubleBorrow hxfer
  split at hirq
  · split at hirq
    · exact (Option.some.inj hirq).symm
    · exact (Option.some.inj hirq).symm
  · exact (Option.some.inj hirq).symm

/-- The interrupt of a completion is none of the slots. -/
lemma transfer_ends (hlayout : p.layout = p₀.layout)
    (h : dma.transfer (slotBus S map own) i (.held p) = some w) :
    Ends p₀ ((dma.streams i).Reaches S map p₀ own) w := by
  obtain ⟨w₁, hxfer, hirq⟩ := Option.bind_eq_some_iff.mp h
  have hends := DmaStream.doXfer_ends hlayout hxfer
  split at hirq
  · split at hirq
    · cases w₁ with
      | doubleBorrow =>
        obtain rfl := Option.some.inj hirq
        exact hends
      | held q =>
        obtain ⟨nvic, -, rfl⟩ := Option.map_eq_some_iff.mp hirq
        exact hends
    · obtain rfl := Option.some.inj hirq
      exact hends
  · obtain rfl := Option.some.inj hirq
    exact hends

lemma transfers_doubleBorrow
    (h : done.foldlM (fun w i => dma.transfer (slotBus S map own) i w)
      (.doubleBorrow : Borrowed U D) = some w) :
    w = .doubleBorrow := by
  induction done with
  | nil => exact (Option.some.inj h).symm
  | cons i done ih =>
    rw [List.foldlM_cons] at h
    obtain ⟨w₁, hfirst, hrest⟩ := Option.bind_eq_some_iff.mp h
    rw [transfer_doubleBorrow hfirst] at hrest
    exact ih hrest

/-- **The transfers of a poll**, one after the other. -/
lemma transfers_ends (hlayout : p.layout = p₀.layout)
    (h : done.foldlM (fun w i => dma.transfer (slotBus S map own) i w) (.held p) = some w) :
    Ends p₀ (∃ i ∈ done, (dma.streams i).Reaches S map p₀ own) w := by
  induction done generalizing p with
  | nil =>
    obtain rfl := Option.some.inj h
    exact ⟨hlayout, by simp⟩
  | cons i done ih =>
    rw [List.foldlM_cons] at h
    obtain ⟨w₁, hfirst, hrest⟩ := Option.bind_eq_some_iff.mp h
    rw [List.exists_mem_cons_iff]
    refine (transfer_ends hlayout hfirst).or (fun q hq hlayout' => ?_) fun hq => ?_
    · rw [hq] at hrest
      exact ih hlayout' hrest
    · rw [hq] at hrest
      exact transfers_doubleBorrow hrest

end Dma

namespace Peripherals

/-- **When a completion borrows its controller again.**  The poll of a controller in its slot,
whatever its registers hold and whatever the other slots are, does not borrow the slot once more
exactly when no transfer that is due reaches the slot: not at the peripheral address, and not behind
an access of registers in its memory ranges. -/
theorem dma_reenters_iff [UnicornEngine U] (S : SlotSearch) (map : MemoryMap) (own : ℕ)
    (p : Peripherals U D) {start end_ : U32} {dma : Dma}
    (hslot : p.slots[own]? = some ⟨start, end_, .dma dma⟩) {w : Borrowed U D}
    (hpoll : pollDma S map own p = some w) :
    w ≠ .doubleBorrow ↔ ∀ i, dma.IsDue p.sys.numInstructions i →
    ¬ (dma.streams i).Reaches S map p own := by
  unfold pollDma at hpoll
  rw [hslot] at hpoll
  obtain ⟨⟨dma', w'⟩, hadvance, heq⟩ := Option.map_eq_some_iff.mp hpoll
  rw [Dma.advanceTo_eq] at hadvance
  obtain ⟨w₁, hfold, hpair⟩ := Option.map_eq_some_iff.mp hadvance
  obtain ⟨-, rfl⟩ := Prod.mk.inj hpair
  have hends := Dma.transfers_ends rfl hfold
  have hdue : (∀ i, dma.IsDue p.sys.numInstructions i → ¬ (dma.streams i).Reaches S map p own) ↔
      ¬ ∃ i ∈ dma.dueStreams p.sys.numInstructions, (dma.streams i).Reaches S map p own := by
    simp only [Dma.mem_dueStreams, not_exists, not_and]
  rw [hdue, ← heq]
  cases w₁ with
  | held q => exact iff_of_true (Borrowed.held_ne _) hends.2
  | doubleBorrow => exact iff_of_false (fun hne => hne rfl) (not_not.mpr hends)

/-- A memory map for single words of registers, and for memory below them. -/
def sampleMap : MemoryMap where
  parts addr size :=
    if addr.toNat + size ≤ 0x40000000 then some [.ram addr size]
    else if size = 4 then some [.mmio addr 4]
    else none
  consecutive addr size l h := by
    split_ifs at h
    · obtain rfl := Option.some.inj h
      exact ⟨rfl, trivial⟩
    · obtain rfl := Option.some.inj h
      exact ⟨rfl, trivial⟩
  total addr size l h := by
    split_ifs at h with hram hword
    · obtain rfl := Option.some.inj h
      simp [MemoryPart.size]
    · obtain rfl := Option.some.inj h
      simp [MemoryPart.size, hword]

/-- Firmware sets stream four up for four bytes and enables it. -/
def sampleProgram (cr par m0ar : U32) : Option Dma :=
  ((((Dma.new "DMA2").write 0x74 4).bind (·.write 0x78 par)).bind (·.write 0x7c m0ar)).bind
    (·.write 0x70 cr)

/-- The controller beside the calendar, when the transfer is due. -/
def sampleSlots (dma : Dma) : Peripherals RegisterFile Unit :=
  ⟨[⟨0x40002800, 0x40002850, .rtc .new⟩, ⟨0x40026400, 0x400264d0, .dma dma⟩],
    { sampleSystem with numInstructions := 10000 }⟩

/-- A transfer from the calendar to memory does not borrow the controller again. -/
theorem dma_reenters_iff_sample : ∃ dma w, sampleProgram 0x11 0x40002800 0x20000000 = some dma ∧
    pollDma BinarySearch.linear sampleMap 1 (sampleSlots dma) = some w ∧ w ≠ .doubleBorrow ∧
      ∀ i, dma.IsDue 10000 i → ¬ (dma.streams i).Reaches BinarySearch.linear sampleMap
        (sampleSlots dma) 1 := by
  have hprogram : ∃ dma, sampleProgram 0x11 0x40002800 0x20000000 = some dma := ⟨_, rfl⟩
  obtain ⟨dma, hdma⟩ := hprogram
  have hpoll : ∃ w, pollDma BinarySearch.linear sampleMap 1 (sampleSlots dma) = some w ∧
      w ≠ .doubleBorrow := by
    cases hdma
    exact ⟨_, rfl, nofun⟩
  obtain ⟨w, hw, hne⟩ := hpoll
  exact ⟨dma, w, hdma, hw, hne,
    (dma_reenters_iff BinarySearch.linear sampleMap 1 (sampleSlots dma) rfl hw).mp hne⟩

/-- A transfer from the controller's own registers, and one to a memory address that is mapped to
them. -/
theorem dma_reads_itself : (∃ dma, sampleProgram 0x11 0x40026400 0x20000000 = some dma ∧
      pollDma BinarySearch.linear sampleMap 1 (sampleSlots dma) = some .doubleBorrow) ∧
    ∃ dma, sampleProgram 0x11 0x40002800 0x40026408 = some dma ∧
      pollDma BinarySearch.linear sampleMap 1 (sampleSlots dma) = some .doubleBorrow :=
  ⟨⟨_, rfl, rfl⟩, ⟨_, rfl, rfl⟩⟩

end Peripherals

end Stm32Emulator
