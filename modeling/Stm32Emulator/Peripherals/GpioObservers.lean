import Stm32Emulator.Peripherals.GpioOutputs

/-!
# What the callbacks of a pin are told

The ports and the world run together, and beside the world we note the last level that each write
callback was told (`recorded`).  The callbacks agree with `ODR` as long as no write to `BSRR` sets
and resets a pin that has a callback: then the callback is told to reset, and the bit of `ODR` is
set (`observers_agree_iff`).
-/

namespace Stm32Emulator

variable {D : Type}

/-! ## The board -/

/-- A write to a register of a port. -/
structure GpioWrite where
  port : Fin 11
  offset : U32
  value : U32
  deriving DecidableEq, Repr

/-- A write to `BSRR` that sets and resets a pin. -/
def GpioWrite.SetsAndResets (op : GpioWrite) (pin : Fin 16) : Prop :=
  op.offset = 0x0018 ∧ pin ∈ Gpio.pinsIn (op.value &&& 0xffff#32) ∧
  pin ∈ Gpio.pinsIn (op.value >>> 16)

/-- The registers of all ports, and the world that their pins act on. -/
structure GpioBoard (D : Type) where
  gpio : Fin 11 → Gpio
  world : D

namespace GpioBoard

def new (d : D) : GpioBoard D := ⟨Gpio.new, d⟩

/-- The bit of a pin in `ODR`. -/
def bit (s : GpioBoard D) (pin : Pin) : Bool := (s.gpio pin.port).od.getLsbD pin.pin

def write (ports : GpioPorts D) (s : GpioBoard D) (op : GpioWrite) : GpioBoard D :=
  let (gpio, world) := (s.gpio op.port).write ports s.world op.offset op.value
  ⟨Function.update s.gpio op.port gpio, world⟩

/-- The pins that a write drives. -/
def driven (s : GpioBoard D) (op : GpioWrite) : List (Fin 16 × Bool) :=
  (s.gpio op.port).driven op.offset op.value

/-- Only a pin that is set and reset is driven twice. -/
lemma pairwise_driven (s : GpioBoard D) (op : GpioWrite) :
    (s.driven op).Pairwise fun p p' => p.1 = p'.1 → op.SetsAndResets p.1 := by
  have hpins : ∀ (x : U32) (f : Fin 16 → Bool),
      ((Gpio.pinsIn x).map fun i => (i, f i)).Pairwise fun p p' => p.1 = p'.1 →
      op.SetsAndResets p.1 :=
    fun x f => List.pairwise_map.mpr ((Gpio.nodup_pinsIn x).imp fun hne heq => absurd heq hne)
  unfold driven Gpio.driven
  split_ifs with hod hbsr
  · exact hpins _ fun i => op.value.getLsbD i
  · refine List.pairwise_append.mpr ⟨hpins _ fun _ => true, hpins _ fun _ => false, ?_⟩
    intro p hp p' hp' heq
    obtain ⟨i, hi, rfl⟩ := List.mem_map.mp hp
    obtain ⟨i', hi', rfl⟩ := List.mem_map.mp hp'
    exact ⟨hbsr, hi, (show i = i' from heq) ▸ hi'⟩
  · exact List.Pairwise.nil

/-- Every port has its own number. -/
def Named (s : GpioBoard D) : Prop := ∀ port, (s.gpio port).port = port

lemma named_new (d : D) : (new d).Named := fun _ => rfl

lemma Named.write {s : GpioBoard D} (h : s.Named) (ports : GpioPorts D) (op : GpioWrite) :
    (s.write ports op).Named := by
  intro port
  unfold GpioBoard.write
  dsimp only
  by_cases hport : port = op.port
  · rw [hport, Function.update_self, Gpio.port_write]
    exact h op.port
  · rw [Function.update_of_ne hport]
    exact h port

/-- The world after a write. -/
lemma world_write {s : GpioBoard D} (h : s.Named) (ports : GpioPorts D) (op : GpioWrite) :
    (s.write ports op).world =
      (s.driven op).foldl (fun d p => ports.writePort d op.port p.1.val p.2) s.world := by
  unfold GpioBoard.write driven
  dsimp only
  rw [Gpio.write_drives, h op.port]

/-- A write changes the bits of the pins that it drives only. -/
lemma bit_write_of_not_mem (ports : GpioPorts D) (s : GpioBoard D) (op : GpioWrite) {pin : Pin}
    (h : pin.port = op.port → pin.pin ∉ (s.driven op).map Prod.fst) :
    (s.write ports op).bit pin = s.bit pin := by
  unfold GpioBoard.write bit
  dsimp only
  by_cases hport : pin.port = op.port
  · rw [hport, Function.update_self]
    by_contra hne
    exact h hport (Gpio.mem_driven_of_ne ports s.world (Ne.symm hne))
  · rw [Function.update_of_ne hport]

/-- A pin that is driven has its level afterwards, unless it is set and reset. -/
lemma bit_write_of_mem (ports : GpioPorts D) (s : GpioBoard D) {op : GpioWrite} {p : Fin 16 × Bool}
    (hp : p ∈ s.driven op) (hnot : ¬ op.SetsAndResets p.1) :
    (s.write ports op).bit ⟨op.port, p.1⟩ = p.2 := by
  unfold GpioBoard.write bit
  dsimp only
  rw [Function.update_self]
  exact (Gpio.level_of_mem_driven_of_not_both ports s.world
    (fun hbsr hset hreset => hnot ⟨hbsr, hset, hreset⟩) hp).symm

/-- A pin that is set and reset is set. -/
lemma bit_write_of_setsAndResets (ports : GpioPorts D) (s : GpioBoard D) {op : GpioWrite}
    {pin : Fin 16} (h : op.SetsAndResets pin) : (s.write ports op).bit ⟨op.port, pin⟩ = true := by
  obtain ⟨hbsr, hset, -⟩ := h
  unfold GpioBoard.write bit
  dsimp only
  rw [Function.update_self, Gpio.od_write, hbsr, if_neg (by decide), if_pos rfl, BitVec.getLsbD_or,
    Gpio.mem_pinsIn.mp hset, Bool.or_true]

/-- A pin that is set and reset is told to reset after it was told to set. -/
lemma last_driven_of_setsAndResets (s : GpioBoard D) {op : GpioWrite} {pin : Fin 16}
    (h : op.SetsAndResets pin) :
    ((s.driven op).filter (·.1 = pin)).getLast? = some (pin, false) := by
  obtain ⟨hbsr, -, hreset⟩ := h
  have hmem : (pin, false) ∈ ((Gpio.pinsIn (op.value >>> 16)).map (·, false)).filter (·.1 = pin) :=
    List.mem_filter.mpr ⟨List.mem_map.mpr ⟨pin, hreset, rfl⟩, by simp⟩
  unfold driven Gpio.driven
  rw [hbsr, if_neg (by decide), if_pos rfl, List.filter_append, List.getLast?_append]
  cases hlast : (((Gpio.pinsIn (op.value >>> 16)).map (·, false)).filter (·.1 = pin)).getLast? with
  | none =>
    rw [List.getLast?_eq_none_iff.mp hlast] at hmem
    exact absurd hmem List.not_mem_nil
  | some p =>
    obtain ⟨hp, hfst⟩ := List.mem_filter.mp (List.mem_of_getLast? hlast)
    obtain ⟨i, -, rfl⟩ := List.mem_map.mp hp
    rw [decide_eq_true_eq] at hfst
    rw [Option.some_or, ← hfst]

end GpioBoard

/-! ## The levels that are told -/

/-- The last level that each callback was told, by its port and its place in the list of the
port. -/
abbrev Told : Type := Fin 11 × ℕ → Option Bool

/-- A callback that notes what it is told. -/
def recordCallback (port : Fin 11) (entry : (Fin 16 × (Bool → D → D)) × ℕ) :
    Fin 16 × (Bool → D × Told → D × Told) :=
  (entry.1.1, fun level (d, told) =>
    (entry.1.2 level d, Function.update told (port, entry.2) (some level)))

/-- Ports whose write callbacks note what they are told. -/
def recorded (ports : GpioPorts D) : GpioPorts (D × Told) where
  readCallbacks port :=
    (ports.readCallbacks port).map fun (pin, cb) =>
      (pin, fun (d, told) => ((cb d).1, (cb d).2, told))
  writeCallbacks port := (ports.writeCallbacks port).zipIdx.map (recordCallback port)

/-- The pin of a callback. -/
def pinAt (ports : GpioPorts D) (callback : Fin 11 × ℕ) : Option (Fin 16) :=
  (ports.writeCallbacks callback.1)[callback.2]?.map Prod.fst

lemma told_foldl (port : Fin 11) (pin : Fin 16) (level : Bool)
    (entries : List (Fin 16 × (Bool → D → D))) (start : ℕ) (d : D) (told : Told)
    (callback : Fin 11 × ℕ) :
    (((entries.zipIdx start).map (recordCallback port)).foldl
      (fun d (pinCb, cb) => if pinCb.val = pin.val then cb level d else d) (d, told)).2 callback =
      if callback.1 = port ∧ start ≤ callback.2 ∧
        entries[callback.2 - start]?.map Prod.fst = some pin then some level
          else told callback := by
  induction entries generalizing start d told with
  | nil => simp
  | cons entry entries ih =>
    -- the first callback is told if it has the pin, and notes it at its own place
    have hfirst : ∀ told' : Told,
        (if entry.1.val = pin.val then (recordCallback port (entry, start)).2 level (d, told')
          else (d, told')).2 callback =
          if callback = (port, start) ∧ entry.1 = pin then some level else told' callback := by
      intro told'
      by_cases hpin : entry.1 = pin
      · rw [if_pos (congrArg Fin.val hpin)]
        simp only [recordCallback, Function.update_apply, hpin, and_true]
      · rw [if_neg fun h => hpin (Fin.ext h), if_neg fun h => hpin h.2]
    rw [List.zipIdx_cons, List.map_cons, List.foldl_cons]
    change ((((entries.zipIdx (start + 1)).map (recordCallback port)).foldl _
      (if entry.1.val = pin.val then (recordCallback port (entry, start)).2 level (d, told)
        else (d, told))).2 callback) = _
    rw [ih, hfirst]
    obtain ⟨port', place⟩ := callback
    dsimp only
    rcases Nat.lt_trichotomy place start with hlt | rfl | hgt
    · have hne : place ≠ start := hlt.ne
      have hle : ¬ start ≤ place := Nat.not_le.mpr hlt
      have hle' : ¬ start + 1 ≤ place := by omega
      simp [hne, hle, hle']
    · have hle : ¬ place + 1 ≤ place := by omega
      simp [hle]
    · have hne : place ≠ start := hgt.ne'
      have hplace : place - start = place - (start + 1) + 1 := by omega
      have hle : start + 1 ≤ place := hgt
      rw [hplace, List.getElem?_cons_succ]
      simp only [Prod.mk.injEq, hne, and_false, false_and, if_false, hle, hgt.le, true_and]

/-- A callback of the pin is told its level, and no other one is told anything. -/
lemma told_writePort (ports : GpioPorts D) (w : D × Told) (port : Fin 11) (pin : Fin 16)
    (level : Bool) (callback : Fin 11 × ℕ) :
    ((recorded ports).writePort w port pin.val level).2 callback =
      if callback.1 = port ∧ pinAt ports callback = some pin then some level else w.2 callback := by
  unfold GpioPorts.writePort recorded pinAt
  rw [told_foldl port pin level _ 0 w.1 w.2 callback]
  by_cases hport : callback.1 = port
  · subst hport
    exact if_congr (by simp) rfl rfl
  · simp [hport]

/-- After several pins have been driven a callback has been told the last level of its pin. -/
lemma told_drives (ports : GpioPorts D) (port : Fin 11) (driven : List (Fin 16 × Bool))
    (w : D × Told) {callback : Fin 11 × ℕ} {pin : Fin 16} (hpin : pinAt ports callback = some pin) :
    (driven.foldl (fun d p => (recorded ports).writePort d port p.1.val p.2) w).2 callback =
      if callback.1 = port then
        (((driven.filter (·.1 = pin)).getLast?.map Prod.snd).or (w.2 callback))
      else w.2 callback := by
  induction driven using List.reverseRecOn with
  | nil => simp
  | append_singleton driven p ih =>
    rw [List.foldl_append, List.foldl_cons, List.foldl_nil, told_writePort, ih, hpin,
      List.filter_append]
    by_cases hport : callback.1 = port
    · by_cases hsame : p.1 = pin
      · simp [hport, hsame]
      · simp [hport, hsame, Ne.symm hsame]
    · simp [hport]

/-! ## Agreement -/

/-- Every callback was last told the bit that `ODR` has, if it was told anything. -/
def ObserversAgree (ports : GpioPorts D) (s : GpioBoard (D × Told)) : Prop :=
  ∀ callback pin level, pinAt ports callback = some pin → s.world.2 callback = some level →
    level = s.bit ⟨callback.1, pin⟩

namespace ObserversAgree

variable {ports : GpioPorts D} {s : GpioBoard (D × Told)}

/-- A write that sets and resets no pin with a callback keeps the agreement. -/
lemma write (h : ObserversAgree ports s) (hnamed : s.Named) {op : GpioWrite}
    (hop : ∀ callback pin, callback.1 = op.port → pinAt ports callback = some pin →
      ¬ op.SetsAndResets pin) : ObserversAgree ports (s.write (recorded ports) op) := by
  intro callback pin level hpin htold
  rw [GpioBoard.world_write hnamed, told_drives ports op.port _ _ hpin] at htold
  by_cases hport : callback.1 = op.port
  · rw [if_pos hport] at htold
    cases hlast : ((s.driven op).filter (·.1 = pin)).getLast? with
    | some p =>
      obtain ⟨hmem, hp⟩ := List.mem_filter.mp (List.mem_of_getLast? hlast)
      rw [decide_eq_true_eq] at hp
      rw [hlast] at htold
      subst hp
      rw [hport, GpioBoard.bit_write_of_mem _ s hmem (hop callback p.1 hport hpin)]
      exact (Option.some.inj htold).symm
    | none =>
      rw [hlast] at htold
      rw [GpioBoard.bit_write_of_not_mem]
      · exact h callback pin level hpin htold
      · intro _ hmem
        obtain ⟨p, hp, hfst⟩ := List.mem_map.mp hmem
        have hnil := List.getLast?_eq_none_iff.mp hlast
        have : p ∈ (s.driven op).filter (·.1 = pin) := List.mem_filter.mpr ⟨hp, by simpa using hfst⟩
        rw [hnil] at this
        exact List.not_mem_nil this
  · rw [if_neg hport] at htold
    rw [GpioBoard.bit_write_of_not_mem _ s op fun heq => absurd heq hport]
    exact h callback pin level hpin htold

/-- A write that sets and resets a pin with a callback breaks it. -/
lemma not_write (hnamed : s.Named) {op : GpioWrite} {callback : Fin 11 × ℕ} {pin : Fin 16}
    (hport : callback.1 = op.port) (hpin : pinAt ports callback = some pin)
    (hboth : op.SetsAndResets pin) : ¬ ObserversAgree ports (s.write (recorded ports) op) := by
  intro hagree
  have hlast := GpioBoard.last_driven_of_setsAndResets s hboth
  have htold : (s.write (recorded ports) op).world.2 callback = some false := by
    rw [GpioBoard.world_write hnamed, told_drives ports op.port _ _ hpin, if_pos hport, hlast]
    rfl
  have hbit := hagree callback pin false hpin htold
  rw [hport, GpioBoard.bit_write_of_setsAndResets _ s hboth] at hbit
  cases hbit

end ObserversAgree

/-- The ports after some writes, with what their callbacks were told. -/
def boardAfter (ports : GpioPorts D) (d : D) (ops : List GpioWrite) : GpioBoard (D × Told) :=
  ops.foldl (GpioBoard.write (recorded ports)) (.new (d, fun _ => none))

lemma boardAfter_concat (ports : GpioPorts D) (d : D) (ops : List GpioWrite) (op : GpioWrite) :
    boardAfter ports d (ops ++ [op]) = (boardAfter ports d ops).write (recorded ports) op := by
  unfold boardAfter
  rw [List.foldl_append, List.foldl_cons, List.foldl_nil]

lemma named_boardAfter (ports : GpioPorts D) (d : D) (ops : List GpioWrite) :
    (boardAfter ports d ops).Named := by
  induction ops using List.reverseRecOn with
  | nil => exact GpioBoard.named_new _
  | append_singleton ops op ih =>
    rw [boardAfter_concat]
    exact ih.write (recorded ports) op

/-- **Observers and outputs agree** after all writes of a sequence exactly if none of them sets and
resets a pin that has a write callback. -/
theorem observers_agree_iff (ports : GpioPorts D) (d : D) (ops : List GpioWrite) :
    (∀ before, before <+: ops → ObserversAgree ports (boardAfter ports d before)) ↔
      ∀ op ∈ ops, ∀ callback pin, callback.1 = op.port → pinAt ports callback = some pin →
        ¬ op.SetsAndResets pin := by
  constructor
  · intro h op hop callback pin hport hpin hboth
    obtain ⟨before, after, rfl⟩ := List.append_of_mem hop
    have hagree := h (before ++ [op]) ⟨after, by rw [List.append_assoc, List.singleton_append]⟩
    rw [boardAfter_concat] at hagree
    exact ObserversAgree.not_write (named_boardAfter ports d before) hport hpin hboth hagree
  · intro h before hbefore
    induction before using List.reverseRecOn with
    | nil => exact fun callback pin level _ htold => by cases htold
    | append_singleton before op ih =>
      rw [boardAfter_concat]
      refine (ih ((List.prefix_append _ _).trans hbefore)).write
        (named_boardAfter ports d before) ?_
      exact h op (hbefore.subset (List.mem_append_right _ (List.mem_singleton.mpr rfl)))

/-- Pin 0 of port A is set and reset at once: its callback is told to reset and `ODR` says that it
is set. -/
theorem set_and_reset_disagree :
    let ports : GpioPorts Unit := GpioPorts.default.addWriteCallback ⟨0, 0⟩ fun _ d => d
    let s := boardAfter ports () [⟨0, 0x0018, 0x00010001⟩]
    s.world.2 (0, 0) = some false ∧ s.bit ⟨0, 0⟩ = true := by
  decide

end Stm32Emulator
