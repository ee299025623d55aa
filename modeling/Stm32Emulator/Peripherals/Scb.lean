import Stm32Emulator.Peripherals.Nvic

/-!
# The system control block

The interrupt control and state register reports the active exception, which the interrupt
controller tracks, and always claims that the next return goes to thread mode.
-/

namespace Stm32Emulator

/-- The system control block: the coprocessor access register is its only storage. -/
structure Scb where
  cpacr : U32

namespace Scb

def default : Scb := ⟨0⟩

/-- `RETTOBASE`: no exception is active besides the current one. -/
def icsrRettobase : U32 := 1#32 <<< 11

/-- `ICSR`: `RETTOBASE` and, below it, `VECTACTIVE`. -/
def readIcsr (nvic : Nvic) : U32 := icsrRettobase ||| nvic.activeExceptionNumber

def read (scb : Scb) (nvic : Nvic) (offset : U32) : U32 :=
  if offset = 0x0004#32 then readIcsr nvic
  else if offset = 0x0088#32 then scb.cpacr
  else 0#32

/-- Writing `ICSR` pends `SysTick` by bit 26 and `PendSV` by bit 28. -/
def write (scb : Scb) (nvic : Nvic) (offset value : U32) : Option (Scb × Nvic) :=
  if offset = 0x0004#32 then do
    let nvic ← if value &&& (1#32 <<< 26) ≠ 0#32 then nvic.setIntrPending Irq.systick else some nvic
    let nvic ← if value &&& (1#32 <<< 28) ≠ 0#32 then nvic.setIntrPending Irq.pendsv else some nvic
    some (scb, nvic)
  else if offset = 0x0088#32 then some ({ scb with cpacr := value }, nvic)
  else some (scb, nvic)

/-- `VECTACTIVE`, the exception number field of a value of `ICSR`. -/
def vectactive (icsr : U32) : U32 := icsr &&& 0x1ff#32

/-- `RETTOBASE` does not reach into `VECTACTIVE`. -/
lemma vectactive_readIcsr {nvic : Nvic} (h : nvic.activeExceptionNumber &&& ~~~0x1ff#32 = 0#32) :
    vectactive (readIcsr nvic) = nvic.activeExceptionNumber := by
  rw [and_not_eq_zero_iff] at h
  unfold vectactive readIcsr
  apply BitVec.eq_of_getLsbD_eq
  intro i hi
  have hbase : ∀ j, j < 32 → (icsrRettobase.getLsbD j && (0x1ff#32).getLsbD j) = false := by decide
  have hbit := hbase i hi
  rw [BitVec.getLsbD_and, BitVec.getLsbD_or]
  cases hactive : nvic.activeExceptionNumber.getLsbD i
  · simpa using hbit
  · simp [h i hactive]

/-- `ICSR` always reads with `RETTOBASE` set. -/
lemma readIcsr_rettobase (nvic : Nvic) : readIcsr nvic &&& icsrRettobase = icsrRettobase := by
  unfold readIcsr
  apply BitVec.eq_of_getLsbD_eq
  intro i hi
  rw [BitVec.getLsbD_and, BitVec.getLsbD_or]
  cases icsrRettobase.getLsbD i <;> simp

end Scb

end Stm32Emulator
