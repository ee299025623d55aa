import Stm32Emulator.Peripherals.Nvic

/-!
# Timers and counters

The system timer, the cycle counter and the timers `TIM5`, `TIM6` and `TIM11`.  Time is the number
of executed instructions.
-/

namespace Stm32Emulator

/-! ## SysTick -/

/-- The system timer.  `valToggle` stands in for the running counter. -/
structure SysTick where
  ctl : U32
  reload : U32
  valToggle : Bool
  deriving DecidableEq, Repr

namespace SysTick

def default : SysTick := ⟨0, 0, false⟩

def hasIntEnabled (stk : SysTick) : Bool := stk.ctl &&& 0b11 = 0b11

/-- The interrupt controller raises `SysTick` once per period. -/
def setNvicSystickPeriod (stk : SysTick) (nvic : Nvic) : Nvic :=
  { nvic with systickPeriod := if stk.hasIntEnabled then some stk.reload else none }

/-- Reading the control or the value register advances the stand-in. -/
def read (stk : SysTick) (offset : U32) : SysTick × U32 :=
  if offset = 0x0000 then
    ({ stk with valToggle := !stk.valToggle },
      stk.ctl ||| if !stk.valToggle then 0#32 else 1#32 <<< 16)
  else if offset = 0x0004 then (stk, stk.reload)
  else if offset = 0x0008 then
    ({ stk with valToggle := !stk.valToggle }, if !stk.valToggle then 0 else stk.reload / 2)
  else (stk, 0)

def write (stk : SysTick) (nvic : Nvic) (offset value : U32) : SysTick × Nvic :=
  if offset = 0x0000 then
    let stk := { stk with ctl := value }
    (stk, stk.setNvicSystickPeriod nvic)
  else if offset = 0x0004 then
    let stk := { stk with reload := value }
    (stk, stk.setNvicSystickPeriod nvic)
  else (stk, nvic)

end SysTick

/-! ## The cycle counter -/

/-- The cycle counter is the number of instructions plus an offset. -/
structure Dwt where
  ctrl : U32
  cyccntOffset : U32
  deriving DecidableEq, Repr

namespace Dwt

def default : Dwt := ⟨0, 0⟩

def cyccnt (dwt : Dwt) (numInstructions : ℕ) : U32 :=
  BitVec.ofNat 32 numInstructions + dwt.cyccntOffset

def setCyccnt (dwt : Dwt) (numInstructions : ℕ) (value : U32) : Dwt :=
  { dwt with cyccntOffset := value - BitVec.ofNat 32 numInstructions }

def read (dwt : Dwt) (numInstructions : ℕ) (offset : U32) : U32 :=
  if offset = 0x0000 then dwt.ctrl
  else if offset = 0x0004 then dwt.cyccnt numInstructions
  else 0

def write (dwt : Dwt) (numInstructions : ℕ) (offset value : U32) : Dwt :=
  if offset = 0x0000 then { dwt with ctrl := value }
  else if offset = 0x0004 then dwt.setCyccnt numInstructions value
  else dwt

end Dwt

/-! ## TIM5 -/

/-- A free-running counter with a compare channel. -/
structure Tim5 where
  cr1 : U32
  dier : U32
  sr : U32
  ccr1 : U32
  /-- The channel has been written once. -/
  ccr1Armed : Bool
  /-- While enabled the counter is the number of ticks plus this offset, ... -/
  cntOffset : U32
  /-- ... and while disabled it stands still. -/
  heldCnt : U32
  deriving DecidableEq, Repr

namespace Tim5

def default : Tim5 := ⟨0, 0, 0, 0, false, 0, 0⟩

def instructionsPerTick : ℕ := 54

def cen (tim : Tim5) : Bool := tim.cr1 &&& 1 != 0

def ticksFromInstructions (instructions : ℕ) : U32 :=
  BitVec.ofNat 32 (instructions / instructionsPerTick)

def cnt (tim : Tim5) (numInstructions : ℕ) : U32 :=
  if tim.cen then ticksFromInstructions numInstructions + tim.cntOffset else tim.heldCnt

def writeCr1 (tim : Tim5) (numInstructions : ℕ) (value : U32) : Tim5 :=
  let wasEnabled := tim.cen
  let nowEnabled := value &&& 1 != 0
  let tim :=
    if nowEnabled && !wasEnabled then
      { tim with cntOffset := tim.heldCnt - ticksFromInstructions numInstructions }
    else if !nowEnabled && wasEnabled then
      { tim with heldCnt := tim.cnt numInstructions }
    else tim
  { tim with cr1 := value }

def writeCnt (tim : Tim5) (numInstructions : ℕ) (value : U32) : Tim5 :=
  if tim.cen then { tim with cntOffset := value - ticksFromInstructions numInstructions }
  else { tim with heldCnt := value }

/-- A counter that has been written shows what was written. -/
lemma cnt_writeCnt (tim : Tim5) (n : ℕ) (value : U32) : (tim.writeCnt n value).cnt n = value := by
  unfold writeCnt
  split
  · next h =>
    have hcen : ({ tim with cntOffset := value - ticksFromInstructions n } : Tim5).cen = true := h
    unfold cnt
    rw [if_pos hcen]
    dsimp only
    rw [add_sub_cancel]
  · next h =>
    have hcen : ¬ ({ tim with heldCnt := value } : Tim5).cen = true := h
    unfold cnt
    rw [if_neg hcen]

lemma cen_writeCr1 (tim : Tim5) (n : ℕ) (value : U32) :
    (tim.writeCr1 n value).cen = (value &&& 1 != 0) := by
  unfold writeCr1 cen
  dsimp only

/-- Enabling and disabling keep what the counter shows. -/
lemma cnt_writeCr1 (tim : Tim5) (n : ℕ) (value : U32) :
    (tim.writeCr1 n value).cnt n = tim.cnt n := by
  have hcnt : (tim.writeCr1 n value).cnt n = if value &&& 1 != 0 then
      ticksFromInstructions n + (tim.writeCr1 n value).cntOffset
        else (tim.writeCr1 n value).heldCnt := by
    rw [cnt, cen_writeCr1]
  rw [hcnt]
  unfold writeCr1
  dsimp only
  generalize (value &&& 1 != 0) = now
  by_cases hwas : tim.cen = true
  · rcases now <;> simp [hwas, cnt]
  · rcases now <;> simp [hwas, cnt, add_sub_cancel]

def read (tim : Tim5) (numInstructions : ℕ) (offset : U32) : U32 :=
  if offset = 0x0000 then tim.cr1
  else if offset = 0x000c then tim.dier
  else if offset = 0x0010 then tim.sr
  else if offset = 0x0024 then tim.cnt numInstructions
  else if offset = 0x0034 then tim.ccr1
  else 0

def write (tim : Tim5) (numInstructions : ℕ) (offset value : U32) : Tim5 :=
  if offset = 0x0000 then tim.writeCr1 numInstructions value
  else if offset = 0x000c then { tim with dier := value }
  -- writing a zero clears a flag
  else if offset = 0x0010 then { tim with sr := tim.sr &&& value }
  else if offset = 0x0024 then tim.writeCnt numInstructions value
  else if offset = 0x0034 then { tim with ccr1 := value, ccr1Armed := true }
  else tim

abbrev tim5Irq : ℤ := 50
def dierCc1ie : U32 := 1#32 <<< 1
def srCc1if : U32 := 1#32 <<< 1

/-- The counter has reached or passed the compare value: their difference, as a signed number, is
not negative. -/
def hasPassedCcr1 (tim : Tim5) (numInstructions : ℕ) : Bool :=
  0 ≤ (tim.cnt numInstructions - tim.ccr1).toInt

/-- A match is latched, and while it stays latched its interrupt is pended at every poll. -/
def poll (tim : Tim5) (nvic : Nvic) (numInstructions : ℕ) : Option (Tim5 × Nvic) :=
  let tim :=
    if tim.ccr1Armed ∧ tim.sr &&& srCc1if = 0#32 ∧ tim.hasPassedCcr1 numInstructions then
      { tim with sr := tim.sr ||| srCc1if }
    else tim
  (if tim.sr &&& srCc1if ≠ 0#32 ∧ tim.dier &&& dierCc1ie ≠ 0#32 then nvic.setIntrPending tim5Irq
    else some nvic).map fun nvic => (tim, nvic)

end Tim5

/-! ## TIM6 -/

/-- A basic timer with an update event.  The prescaler has sixteen bits. -/
structure Tim6 where
  cr1 : U32
  cr2 : U32
  dier : U32
  sr : U32
  psc : U32
  arr : U32
  enabledAt : ℕ
  psc_bits : psc &&& 0xffff#32 = psc

lemma Tim6.eq_iff {tim tim' : Tim6} :
    tim = tim' ↔
      (tim.cr1 = tim'.cr1 ∧ tim.cr2 = tim'.cr2 ∧ tim.dier = tim'.dier ∧ tim.sr = tim'.sr) ∧
      tim.psc = tim'.psc ∧ tim.arr = tim'.arr ∧ tim.enabledAt = tim'.enabledAt := by
  constructor
  · rintro rfl
    simp
  · obtain ⟨cr1, cr2, dier, sr, psc, arr, enabledAt, hpsc⟩ := tim
    obtain ⟨cr1', cr2', dier', sr', psc', arr', enabledAt', hpsc'⟩ := tim'
    rintro ⟨⟨hcr1, hcr2, hdier, hsr⟩, hpsc, harr, henabledAt⟩
    dsimp only at hcr1 hcr2 hdier hsr hpsc harr henabledAt
    subst hcr1 hcr2 hdier hsr hpsc harr henabledAt
    rfl

instance : DecidableEq Tim6 := fun _ _ => decidable_of_iff' _ Tim6.eq_iff

namespace Tim6

def default : Tim6 := ⟨0, 0, 0, 0, 0, 0, 0, zero_and_lowHalf⟩

def cr1Cen : U32 := 1

def enabled (tim : Tim6) : Bool := tim.cr1 &&& cr1Cen != 0

/-- The counter, which the prescaler and the reload value divide out of the instructions since the
timer was enabled. -/
def counter (tim : Tim6) (now : ℕ) : U32 :=
  if !tim.enabled then
    0
  else
    let timerInstructions := 2 * (tim.psc.toNat + 1)
    BitVec.ofNat 32 ((now - tim.enabledAt) / timerInstructions % (tim.arr.toNat + 1))

def read (tim : Tim6) (now : ℕ) (offset : U32) : U32 :=
  if offset = 0x00 then tim.cr1
  else if offset = 0x04 then tim.cr2
  else if offset = 0x0c then tim.dier
  else if offset = 0x10 then tim.sr
  else if offset = 0x24 then tim.counter now
  else if offset = 0x28 then tim.psc
  else if offset = 0x2c then tim.arr
  else 0

def writeCr1 (tim : Tim6) (now : ℕ) (value : U32) : Tim6 :=
  let wasEnabled := tim.enabled
  let tim := { tim with cr1 := value }
  if tim.enabled && !wasEnabled then { tim with enabledAt := now } else tim

/-- The prescaler keeps sixteen bits of what is written. -/
def writePsc (tim : Tim6) (value : U32) : Tim6 :=
  { tim with
    psc := value &&& 0xffff#32
    psc_bits := and_lowHalf_and_lowHalf value }

def write (tim : Tim6) (now : ℕ) (offset value : U32) : Tim6 :=
  if offset = 0x00 then tim.writeCr1 now value
  else if offset = 0x04 then { tim with cr2 := value }
  else if offset = 0x0c then { tim with dier := value }
  -- writing a zero clears the flag
  else if offset = 0x10 then { tim with sr := tim.sr &&& value }
  -- an update restarts the period
  else if offset = 0x14 then if value &&& 1 ≠ 0 then { tim with enabledAt := now } else tim
  else if offset = 0x24 then { tim with enabledAt := now }
  else if offset = 0x28 then tim.writePsc value
  else if offset = 0x2c then { tim with arr := value }
  else tim

abbrev tim6DacIrq : ℤ := 54
def dierUie : U32 := 1
def srUif : U32 := 1

/-- A product of 64-bit numbers, which saturates. -/
def saturatingMul (a b : ℕ) : ℕ := min (a * b) (2 ^ 64 - 1)

def periodInstructions (psc arr : U32) : ℕ :=
  max (saturatingMul (saturatingMul 2 (psc.toNat + 1)) (arr.toNat + 1)) 1

/-- An update that is due restarts the period at the time of the poll, and while its flag stays set
its interrupt is pended at every poll. -/
def poll (tim : Tim6) (nvic : Nvic) (now : ℕ) : Option (Tim6 × Nvic) :=
  let tim :=
    if tim.enabled ∧ periodInstructions tim.psc tim.arr ≤ now - tim.enabledAt then
      { tim with sr := tim.sr ||| srUif, enabledAt := now }
    else tim
  (if tim.sr &&& srUif ≠ 0#32 ∧ tim.dier &&& dierUie ≠ 0#32 then nvic.setIntrPending tim6DacIrq
    else some nvic).map fun nvic => (tim, nvic)

end Tim6

/-! ## TIM11 -/

/-- A timer of which only the capture flag matters. -/
structure Tim11 where
  cr1 : U32
  ccmr1 : U32
  ccer : U32
  sr : U32
  deriving DecidableEq, Repr

namespace Tim11

def default : Tim11 := ⟨0, 0, 0, 0⟩

/-- The capture flag, once the timer is set up to capture. -/
def srAfterSetup (cr1 ccmr1 ccer : U32) : U32 :=
  if cr1 &&& 1 ≠ 0 ∧ ccmr1 &&& 3 = 1 ∧ ccer &&& 1 ≠ 0 then 1 <<< 1 else 0

def refreshCaptureStatus (tim : Tim11) : Tim11 :=
  { tim with sr := tim.sr ||| srAfterSetup tim.cr1 tim.ccmr1 tim.ccer }

def read (tim : Tim11) (offset : U32) : U32 :=
  if offset = 0x0000 then tim.cr1
  else if offset = 0x0010 then tim.sr
  else if offset = 0x0018 then tim.ccmr1
  else if offset = 0x0020 then tim.ccer
  else 0

def write (tim : Tim11) (offset value : U32) : Tim11 :=
  if offset = 0x0000 then { tim with cr1 := value }.refreshCaptureStatus
  else if offset = 0x0010 then { tim with sr := tim.sr &&& ~~~value }.refreshCaptureStatus
  else if offset = 0x0018 then { tim with ccmr1 := value }.refreshCaptureStatus
  else if offset = 0x0020 then { tim with ccer := value }.refreshCaptureStatus
  else tim

end Tim11

end Stm32Emulator
