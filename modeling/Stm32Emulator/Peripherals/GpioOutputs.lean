import Stm32Emulator.Peripherals.GpioChanges

/-!
# Pins that a port drives

What a write to a port tells its pins (`driven`), in order: the pins of `ODR` that change, or those
that `BSRR` sets and then those that it resets.  `write_drives` shows that the two loops do this.
If `BSRR` does not set and reset a pin at once, no pin is told twice and each is told its new bit of
`ODR`.
-/

namespace Stm32Emulator

variable {D : Type}

namespace Gpio

/-- The pins with their bit set, the lowest first. -/
def pinsIn (x : U32) : List (Fin 16) := (List.finRange 16).filter fun i : Fin 16 => x.getLsbD i

/-- The pins that a write drives, with the levels that they are told. -/
def driven (gpio : Gpio) (offset value : U32) : List (Fin 16 × Bool) :=
  if offset = 0x0014 then (pinsIn (gpio.od ^^^ value)).map fun i => (i, value.getLsbD i)
  else if offset = 0x0018 then
    (pinsIn (value &&& 0xffff#32)).map (·, true) ++ (pinsIn (value >>> 16)).map (·, false)
  else []

/-- No pin is both set and reset. -/
def BsrrDisjoint (value : U32) : Prop := (value &&& 0xffff#32) &&& (value >>> 16) = 0#32

instance (value : U32) : Decidable (BsrrDisjoint value) := inferInstanceAs (Decidable (_ = _))

/-! ## The loop over changes -/

/-- The value of a single bit. -/
lemma fieldValue_one (newValue : U32) (pin : ℕ) :
    fieldValue newValue 1 pin = if newValue.getLsbD pin then 1#8 else 0#8 := by
  have hbit : ∀ b : Bool, (BitVec.ofBool b).setWidth 8 = if b then 1#8 else 0#8 := by decide
  rw [fieldValue_eq (by decide), bitField_one, hbit]

/-- **Visiting changes of single bits** goes through the pins whose bits differ, as far as `f` does
anything for other numbers. -/
lemma iterPortRegChanges_one {S : Type} (oldValue newValue : U32) (f : S → ℕ → U8 → S)
    (hf : ∀ s v, ∀ pin, 16 ≤ pin → f s pin v = s) (s : S) :
    iterPortRegChanges oldValue newValue 1 f s =
      (pinsIn (oldValue ^^^ newValue)).foldl
        (fun s (i : Fin 16) => f s i (if newValue.getLsbD i then 1#8 else 0#8)) s := by
  have hvisit : (fun s pin =>
      if decide (pin ≤ 16) = true then f s pin (fieldValue newValue 1 pin) else s) =
      fun s pin => if decide (pin < 16) = true then
        f s pin (if newValue.getLsbD pin then 1#8 else 0#8) else s := by
    funext s pin
    rw [fieldValue_one]
    rcases Nat.lt_or_ge pin 16 with hlt | hge
    · rw [if_pos (decide_eq_true hlt.le), if_pos (decide_eq_true hlt)]
    · rw [hf s _ pin hge, ite_self, ite_self]
  rw [iterPortRegChanges_eq (by decide), setFields_one, List.foldl_filter, hvisit,
    ← List.foldl_filter, setBits_filter_lt _ (by decide), List.foldl_map]
  rfl

/-! ## The pins that a write drives -/

/-- No callback is connected past the last pin. -/
lemma writePort_of_ge (ports : GpioPorts D) (d : D) (port : Fin 11) (value : Bool) {pin : ℕ}
    (h : 16 ≤ pin) : ports.writePort d port pin value = d := by
  unfold GpioPorts.writePort
  induction ports.writeCallbacks port with
  | nil => rfl
  | cons entry entries ih =>
    have hne : ¬ entry.1.val = pin := by omega
    rw [List.foldl_cons]
    dsimp only
    rw [if_neg hne]
    exact ih

lemma write_odr (gpio : Gpio) (ports : GpioPorts D) (d : D) (value : U32) :
    gpio.write ports d 0x0014 value = gpio.writeOd ports d value := rfl

lemma write_bsrr (gpio : Gpio) (ports : GpioPorts D) (d : D) (value : U32) :
    gpio.write ports d 0x0018 value = gpio.writeBsr ports d value := rfl

/-- The other registers do not reach the outputs. -/
lemma write_other (gpio : Gpio) (ports : GpioPorts D) (d : D) {offset : U32} (value : U32)
    (hod : offset ≠ 0x0014) (hbsr : offset ≠ 0x0018) :
    (gpio.write ports d offset value).2 = d ∧ (gpio.write ports d offset value).1.od = gpio.od ∧
      (gpio.write ports d offset value).1.port = gpio.port := by
  have hkeep : ∀ {c : Prop} [Decidable c] {x y : Gpio × D},
      (x.2 = d ∧ x.1.od = gpio.od ∧ x.1.port = gpio.port) →
      (y.2 = d ∧ y.1.od = gpio.od ∧ y.1.port = gpio.port) →
      (if c then x else y).2 = d ∧ (if c then x else y).1.od = gpio.od ∧
      (if c then x else y).1.port = gpio.port := by
    intro c _ x y hx hy
    split
    · exact hx
    · exact hy
  have hsame : d = d ∧ gpio.od = gpio.od ∧ gpio.port = gpio.port := ⟨rfl, rfl, rfl⟩
  unfold write
  rw [if_neg hod, if_neg hbsr]
  exact hkeep hsame (hkeep hsame
    (hkeep hsame (hkeep hsame (hkeep hsame (hkeep hsame (hkeep hsame hsame))))))

/-- **A write tells the pins that it drives**, one after the other. -/
theorem write_drives (gpio : Gpio) (ports : GpioPorts D) (d : D) (offset value : U32) :
    (gpio.write ports d offset value).2 =
      (gpio.driven offset value).foldl (fun d p => ports.writePort d gpio.port p.1.val p.2) d := by
  have hbit : ∀ b : Bool, ((if b then 1#8 else 0#8) != 0) = b := by decide
  have hxor : ∀ x : U32, 0 ^^^ x = x := fun _ => BitVec.zero_xor
  unfold driven
  by_cases hod : offset = 0x0014
  · subst hod
    rw [write_odr, if_pos rfl, List.foldl_map]
    unfold writeOd
    rw [iterPortRegChanges_one _ _ _ fun d v pin hpin => writePort_of_ge ports d gpio.port _ hpin]
    simp only [hbit]
  · by_cases hbsr : offset = 0x0018
    · subst hbsr
      rw [write_bsrr, if_neg (by decide), if_pos rfl, List.foldl_append, List.foldl_map,
        List.foldl_map]
      unfold writeBsr
      dsimp only
      rw [iterPortRegChanges_one _ _ _ fun d v pin hpin => writePort_of_ge ports d gpio.port _ hpin,
        iterPortRegChanges_one _ _ _ fun d v pin hpin => writePort_of_ge ports d gpio.port _ hpin,
        hxor, hxor]
    · rw [if_neg hod, if_neg hbsr]
      exact (write_other gpio ports d value hod hbsr).1

/-! ## Levels and bits -/

lemma mem_pinsIn {x : U32} {i : Fin 16} : i ∈ pinsIn x ↔ x.getLsbD i = true := by
  simp [pinsIn]

lemma nodup_pinsIn (x : U32) : (pinsIn x).Nodup := (List.nodup_finRange 16).filter _

/-- A write does not rename the port. -/
@[simp] lemma port_write (gpio : Gpio) (ports : GpioPorts D) (d : D) (offset value : U32) :
    (gpio.write ports d offset value).1.port = gpio.port := by
  by_cases hod : offset = 0x0014
  · rw [hod, write_odr]
    rfl
  · by_cases hbsr : offset = 0x0018
    · rw [hbsr, write_bsrr]
      rfl
    · exact (write_other gpio ports d value hod hbsr).2.2

/-- `ODR` after a write. -/
lemma od_write (gpio : Gpio) (ports : GpioPorts D) (d : D) (offset value : U32) :
    (gpio.write ports d offset value).1.od =
      if offset = 0x0014 then value
      else if offset = 0x0018 then (gpio.od &&& ~~~(value >>> 16)) ||| (value &&& 0xffff#32)
      else gpio.od := by
  by_cases hod : offset = 0x0014
  · rw [hod, write_odr, if_pos rfl]
    rfl
  · by_cases hbsr : offset = 0x0018
    · rw [hbsr, write_bsrr, if_neg (by decide), if_pos rfl]
      rfl
    · rw [if_neg hod, if_neg hbsr]
      exact (write_other gpio ports d value hod hbsr).2.1

/-- The pins that `BSRR` sets and those that it resets are apart. -/
lemma BsrrDisjoint.not_mem {value : U32} (h : BsrrDisjoint value) {i : Fin 16}
    (hset : i ∈ pinsIn (value &&& 0xffff#32)) : i ∉ pinsIn (value >>> 16) := by
  rw [mem_pinsIn] at hset ⊢
  intro hreset
  have hbit := congrArg (fun x => x.getLsbD i.val) h
  simp only [BitVec.getLsbD_and (x := value &&& 0xffff#32), hset, hreset] at hbit
  simp at hbit

/-- A pin whose bit changes is driven. -/
lemma mem_driven_of_ne {gpio : Gpio} {offset value : U32} (ports : GpioPorts D) (d : D) {i : Fin 16}
    (hne : gpio.od.getLsbD i ≠ (gpio.write ports d offset value).1.od.getLsbD i) :
    i ∈ (gpio.driven offset value).map Prod.fst := by
  rw [od_write] at hne
  unfold driven
  split_ifs at hne ⊢ with hod hbsr
  · rw [List.map_map]
    refine List.mem_map.mpr ⟨i, mem_pinsIn.mpr ?_, rfl⟩
    rw [BitVec.getLsbD_xor]
    exact bne_iff_ne.mpr hne
  · rw [List.map_append, List.map_map, List.map_map, List.mem_append]
    have hlt : i.val < 32 := by omega
    rw [BitVec.getLsbD_or, BitVec.getLsbD_and, BitVec.getLsbD_not] at hne
    by_cases hset : (value &&& 0xffff#32).getLsbD i = true
    · exact Or.inl (List.mem_map.mpr ⟨i, mem_pinsIn.mpr hset, rfl⟩)
    · refine Or.inr (List.mem_map.mpr ⟨i, mem_pinsIn.mpr ?_, rfl⟩)
      by_contra hreset
      rw [Bool.not_eq_true] at hset hreset
      rw [hset, hreset] at hne
      simp [hlt] at hne
  · exact absurd rfl hne

/-- The level of a driven pin is its bit after the write, unless the pin is both set and reset. -/
lemma level_of_mem_driven_of_not_both {gpio : Gpio} {offset value : U32} (ports : GpioPorts D)
    (d : D) {p : Fin 16 × Bool}
    (hnot : offset = 0x0018 → p.1 ∈ pinsIn (value &&& 0xffff#32) → p.1 ∉ pinsIn (value >>> 16))
    (hp : p ∈ gpio.driven offset value) :
    p.2 = (gpio.write ports d offset value).1.od.getLsbD p.1 := by
  rw [od_write]
  unfold driven at hp
  split_ifs at hp ⊢ with hod hbsr
  · obtain ⟨i, -, rfl⟩ := List.mem_map.mp hp
    rfl
  · rw [BitVec.getLsbD_or, BitVec.getLsbD_and, BitVec.getLsbD_not]
    rcases List.mem_append.mp hp with hset | hreset
    · obtain ⟨i, hi, rfl⟩ := List.mem_map.mp hset
      rw [mem_pinsIn.mp hi, Bool.or_true]
    · obtain ⟨i, hi, rfl⟩ := List.mem_map.mp hreset
      have hset : i ∉ pinsIn (value &&& 0xffff#32) := fun h => hnot hbsr h hi
      rw [mem_pinsIn, Bool.not_eq_true] at hset
      rw [mem_pinsIn.mp hi, hset]
      simp
  · exact absurd hp List.not_mem_nil

section Disjoint

variable {gpio : Gpio} {offset value : U32} (hdisjoint : offset = 0x0018 → BsrrDisjoint value)

include hdisjoint

/-- No pin is driven twice. -/
lemma nodup_driven : ((gpio.driven offset value).map Prod.fst).Nodup := by
  unfold driven
  split_ifs with hod hbsr
  · rw [List.map_map]
    exact (nodup_pinsIn _).map Function.injective_id
  · rw [List.map_append, List.map_map, List.map_map]
    refine List.Nodup.append ((nodup_pinsIn _).map Function.injective_id)
      ((nodup_pinsIn _).map Function.injective_id) ?_
    intro i hset hreset
    simp only [List.mem_map, Function.comp_apply, exists_eq_right] at hset hreset
    exact (hdisjoint hbsr).not_mem hset hreset
  · exact List.nodup_nil

/-- The level of a driven pin is its bit after the write. -/
lemma level_of_mem_driven (ports : GpioPorts D) (d : D) {p : Fin 16 × Bool}
    (hp : p ∈ gpio.driven offset value) :
    p.2 = (gpio.write ports d offset value).1.od.getLsbD p.1 :=
  level_of_mem_driven_of_not_both ports d (fun hbsr => (hdisjoint hbsr).not_mem) hp

end Disjoint

end Gpio

end Stm32Emulator
