import Stm32Emulator.Foundation.Word

/-!
# Clocks, power, calendar and external interrupts

`Rcc`, `Pwr` and `Rtc` keep a few registers in which a ready flag follows a request bit at once.
Each of these registers carries the fact that its flag has followed (`FollowsBit`).  `Exti` holds
the external interrupt lines and, under the offsets of the system configuration block, their
routing.
-/

namespace Stm32Emulator

/-! ## Flags that follow a request -/

/-- The word with the bits of `flag` set or cleared, as the bits of `request` are set or not. -/
def followBit (request flag value : U32) : U32 :=
  if value &&& request ≠ 0#32 then value ||| flag else value &&& ~~~flag

/-- The flag follows the request. -/
def FollowsBit (request flag value : U32) : Prop := followBit request flag value = value

instance (request flag value : U32) : Decidable (FollowsBit request flag value) :=
  inferInstanceAs (Decidable (_ = _))

/-! ## Clocks -/

/-- The clock status bits of `CFGR` follow its clock selection. -/
def Rcc.cfgrAfterWrite (value : U32) : U32 :=
  (value &&& ~~~0x0000000c#32) ||| ((value &&& 0x00000003#32) <<< 2)

def Rcc.csrAfterWrite (value : U32) : U32 := followBit 0x00000001 0x00000002 value

def Rcc.bdcrAfterWrite (value : U32) : U32 := followBit 0x00000001 0x00000002 value

structure Rcc where
  cfgr : U32
  csr : U32
  bdcr : U32
  cfgr_stable : Rcc.cfgrAfterWrite cfgr = cfgr
  csr_stable : FollowsBit 0x00000001 0x00000002 csr
  bdcr_stable : FollowsBit 0x00000001 0x00000002 bdcr

/-- A flag apart from its request has followed once it was made to. -/
lemma followsBit_followBit {request flag : U32} (h : request &&& flag = 0#32) (value : U32) :
    FollowsBit request flag (followBit request flag value) := by
  have hset : (value ||| flag) &&& request = value &&& request := by
    rw [BitVec.and_comm, BitVec.and_or_distrib_left, h, BitVec.or_zero, BitVec.and_comm]
  have hclear : (value &&& ~~~flag) &&& request = value &&& request := by
    have hrequest : ~~~flag &&& request = request := by
      apply BitVec.eq_of_getLsbD_eq
      intro i hi
      have hbit := congrArg (fun x => x.getLsbD i) h
      simp only [BitVec.getLsbD_and, BitVec.getLsbD_not, hi] at hbit ⊢
      cases hf : flag.getLsbD i <;> simp_all
    rw [BitVec.and_assoc, hrequest]
  by_cases hvalue : value &&& request = 0#32
  · have hfollow : followBit request flag value = value &&& ~~~flag :=
      if_neg (by simpa using hvalue)
    rw [FollowsBit, hfollow, followBit, hclear, if_neg (by simpa using hvalue), BitVec.and_assoc,
      BitVec.and_self]
  · have hfollow : followBit request flag value = value ||| flag := if_pos hvalue
    rw [FollowsBit, hfollow, followBit, hset, if_pos hvalue, BitVec.or_assoc, BitVec.or_self]

namespace Rcc

def new : Rcc := ⟨0, 0, 0, by decide, by decide, by decide⟩

/-- `CR` reads with every ready flag set. -/
def read (rcc : Rcc) (offset : U32) : U32 :=
  if offset = 0x0000 then 0xffffffff
  else if offset = 0x0008 then rcc.cfgr
  else if offset = 0x0074 then rcc.csr
  else if offset = 0x0070 then rcc.bdcr
  else 0

lemma cfgrAfterWrite_idem (value : U32) :
    cfgrAfterWrite (cfgrAfterWrite value) = cfgrAfterWrite value := by
  unfold cfgrAfterWrite
  apply BitVec.eq_of_getLsbD_eq
  intro i hi
  interval_cases i <;> simp

def write (rcc : Rcc) (offset value : U32) : Rcc :=
  if offset = 0x0008 then
    { rcc with cfgr := cfgrAfterWrite value, cfgr_stable := cfgrAfterWrite_idem value }
  else if offset = 0x0074 then
    { rcc with csr := csrAfterWrite value, csr_stable := followsBit_followBit (by decide) value }
  else if offset = 0x0070 then
    { rcc with bdcr := bdcrAfterWrite value, bdcr_stable := followsBit_followBit (by decide) value }
  else rcc

end Rcc

/-! ## Power -/

/-- The power controller.  The wake-up flag of `CSR1` follows its enable bit. -/
structure Pwr where
  cr1 : U32
  csr1 : U32
  csr1_stable : FollowsBit 0x00000200 0x00000008 csr1

namespace Pwr

def new : Pwr := ⟨0, 0, by decide⟩

/-- The flags of `CSR1` that mirror `CR1`. -/
def csr1AfterCr1Write (value : U32) : U32 :=
  (if value &&& 0x0000c000#32 ≠ 0#32 then 0x00004000#32 else 0#32) ||| (value &&& 0x00010000#32) |||
    (value &&& 0x00020000#32)

def csr1AfterCsr1Write (value : U32) : U32 := followBit 0x00000200 0x00000008 value

def read (pwr : Pwr) (offset : U32) : U32 :=
  if offset = 0x0000 then pwr.cr1
  else if offset = 0x0004 then csr1AfterCr1Write pwr.cr1 ||| pwr.csr1
  else 0

def write (pwr : Pwr) (offset value : U32) : Pwr :=
  if offset = 0x0000 then { pwr with cr1 := value }
  else if offset = 0x0004 then
    { pwr with
      csr1 := csr1AfterCsr1Write value
      csr1_stable := followsBit_followBit (by decide) value }
  else pwr

end Pwr

/-! ## The calendar -/

/-- The calendar, of which only the status register is kept.  `INITF` follows `INIT`. -/
structure Rtc where
  isr : U32
  isr_stable : FollowsBit 0x00000080 0x00000040 isr

namespace Rtc

def new : Rtc := ⟨0x00000007, by decide⟩

def isrAfterWrite (value : U32) : U32 := followBit 0x00000080 0x00000040 value

def read (rtc : Rtc) (offset : U32) : U32 := if offset = 0x000c then rtc.isr else 0

def write (rtc : Rtc) (offset value : U32) : Rtc :=
  if offset = 0x000c then
    { isr := isrAfterWrite value, isr_stable := followsBit_followBit (by decide) value }
  else rtc

end Rtc

/-! ## External interrupts -/

/-- The external interrupt lines, and the port that each is routed to. -/
structure Exti where
  imr : U32
  emr : U32
  rtsr : U32
  ftsr : U32
  swier : U32
  pr : U32
  exticr1 : U32
  exticr2 : U32
  exticr3 : U32
  exticr4 : U32
  deriving DecidableEq, Repr

namespace Exti

def default : Exti := ⟨0, 0, 0, 0, 0, 0, 0, 0, 0, 0⟩

def readExti (exti : Exti) (offset : U32) : U32 :=
  if offset = 0x00 then exti.imr
  else if offset = 0x04 then exti.emr
  else if offset = 0x08 then exti.rtsr
  else if offset = 0x0c then exti.ftsr
  else if offset = 0x10 then exti.swier
  else if offset = 0x14 then exti.pr
  else 0

/-- Writing a one to a pending bit clears it. -/
def writeExti (exti : Exti) (offset value : U32) : Exti :=
  if offset = 0x00 then { exti with imr := value }
  else if offset = 0x04 then { exti with emr := value }
  else if offset = 0x08 then { exti with rtsr := value }
  else if offset = 0x0c then { exti with ftsr := value }
  else if offset = 0x10 then { exti with swier := value }
  else if offset = 0x14 then { exti with pr := exti.pr &&& ~~~value }
  else exti

def readSyscfg (exti : Exti) (offset : U32) : U32 :=
  if offset = 0x08 then exti.exticr1
  else if offset = 0x0c then exti.exticr2
  else if offset = 0x10 then exti.exticr3
  else if offset = 0x14 then exti.exticr4
  else 0

def writeSyscfg (exti : Exti) (offset value : U32) : Exti :=
  if offset = 0x08 then { exti with exticr1 := value }
  else if offset = 0x0c then { exti with exticr2 := value }
  else if offset = 0x10 then { exti with exticr3 := value }
  else if offset = 0x14 then { exti with exticr4 := value }
  else exti

/-! ### Edges -/

/-- The port that a line is routed to. -/
def exticrPortForLine (exti : Exti) (line : ℕ) : ℕ :=
  let (reg, shift) :=
    if line ≤ 3 then (exti.exticr1, line * 4)
    else if line ≤ 7 then (exti.exticr2, (line - 4) * 4)
    else if line ≤ 11 then (exti.exticr3, (line - 8) * 4)
    else (exti.exticr4, (line - 12) * 4)
  ((reg >>> shift) &&& 0xf#32).toNat

/-- The lines from 5 on share two interrupts. -/
def irqForLine (line : ℕ) : ℤ :=
  if line ≤ 4 then 6 + line
  else if line ≤ 9 then 23
  else 40

/-- An edge on a pin makes its line pending if the line is routed to the port, is not masked and is
sensitive to the edge.  The interrupt to pend is returned. -/
def raiseLineIfConfigured (exti : Exti) (port pin : ℕ) (rising : Bool) : Exti × Option ℤ :=
  if 15 < pin then (exti, none)
  else if exti.exticrPortForLine pin ≠ port then (exti, none)
  else if exti.imr &&& (1#32 <<< pin) = 0#32 then (exti, none)
  else
    let edgeMatches := (rising && exti.rtsr &&& (1#32 <<< pin) != 0#32) ||
      (!rising && exti.ftsr &&& (1#32 <<< pin) != 0#32)
    if !edgeMatches then (exti, none)
    else ({ exti with pr := exti.pr ||| (1#32 <<< pin) }, some (irqForLine pin))

/-- The edge is one that the line is configured for. -/
structure EdgeMatches (exti : Exti) (port pin : ℕ) (rising : Bool) : Prop where
  routed : exti.exticrPortForLine pin = port
  unmasked : exti.imr.getLsbD pin = true
  sensitive : (if rising then exti.rtsr else exti.ftsr).getLsbD pin = true

lemma edgeMatches_iff {exti : Exti} {port pin : ℕ} {rising : Bool} :
    exti.EdgeMatches port pin rising ↔
      exti.exticrPortForLine pin = port ∧ exti.imr.getLsbD pin = true ∧
      (if rising then exti.rtsr else exti.ftsr).getLsbD pin = true :=
  ⟨fun h => ⟨h.1, h.2, h.3⟩, fun h => ⟨h.1, h.2.1, h.2.2⟩⟩

instance (exti : Exti) (port pin : ℕ) (rising : Bool) :
    Decidable (exti.EdgeMatches port pin rising) :=
  decidable_of_iff _ edgeMatches_iff.symm

/-- **Edges** that match set the pending bit of their line, and other edges do nothing. -/
lemma raiseLineIfConfigured_eq (exti : Exti) (port : ℕ) (pin : Fin 16) (rising : Bool) :
    exti.raiseLineIfConfigured port pin rising =
      if exti.EdgeMatches port pin rising then
        ({ exti with pr := exti.pr ||| (1#32 <<< pin.val) }, some (irqForLine pin))
      else (exti, none) := by
  have hsensitive : ((rising && exti.rtsr &&& (1#32 <<< pin.val) != 0#32) ||
      (!rising && exti.ftsr &&& (1#32 <<< pin.val) != 0#32)) = true ↔
        (if rising then exti.rtsr else exti.ftsr).getLsbD pin = true := by
    cases rising <;> simp [bne_iff_ne, and_one_shiftLeft_ne_zero_iff]
  have hmasked : exti.imr &&& (1#32 <<< pin.val) = 0#32 ↔ ¬ exti.imr.getLsbD pin = true := by
    rw [← and_one_shiftLeft_ne_zero_iff, not_not]
  have hpin : ¬ 15 < pin.val := by omega
  unfold raiseLineIfConfigured
  rw [if_neg hpin]
  simp only [edgeMatches_iff]
  by_cases hport : exti.exticrPortForLine pin = port
  · by_cases himr : exti.imr.getLsbD pin = true
    · rw [if_neg (not_not.mpr hport), if_neg (fun h => hmasked.mp h himr)]
      by_cases hedge : (if rising then exti.rtsr else exti.ftsr).getLsbD pin = true
      · simp only [hsensitive.mpr hedge, hport, himr, hedge]
        rfl
      · have hquiet := mt hsensitive.mp hedge
        rw [Bool.not_eq_true] at hquiet
        simp only [hquiet]
        exact (if_pos rfl).trans (if_neg fun h => hedge h.2.2).symm
    · rw [if_neg (not_not.mpr hport), if_pos (hmasked.mpr himr), if_neg (fun h => himr h.2.1)]
  · rw [if_pos hport, if_neg (fun h => hport h.1)]

end Exti

end Stm32Emulator
