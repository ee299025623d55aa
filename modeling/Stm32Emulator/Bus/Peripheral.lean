import Stm32Emulator.Peripherals.Adc
import Stm32Emulator.Peripherals.Dma
import Stm32Emulator.Peripherals.Flash
import Stm32Emulator.Peripherals.Fsmc
import Stm32Emulator.Peripherals.OtgFs
import Stm32Emulator.Peripherals.Scb
import Stm32Emulator.Peripherals.SystemControl
import Stm32Emulator.Peripherals.Timers

/-!
# Peripherals of every kind

A peripheral has a state of its own and shares the rest of the `System`: the interrupt controller,
the external interrupt lines, the pins, the engine and the outside world.  `Peripheral.read` and
`Peripheral.write` are one access at an offset; `none` is a panic.
-/

namespace Stm32Emulator

/-- What all peripherals share. -/
structure System (U D : Type) where
  nvic : Nvic
  exti : Exti
  gpio : GpioPorts D
  uc : U
  d : D
  numInstructions : ℕ

/-- The peripherals that are modelled.  The windows on the interrupt controller and on the external
interrupt lines have no state of their own. -/
inductive Peripheral (D : Type) where
  | nvic (baseOffset : U32)
  | nvicStir
  | sysTick (stk : SysTick)
  | dwt (dwt : Dwt)
  | scb (scb : Scb)
  | gpio (gpio : Gpio)
  | usart (usart : Usart D)
  | fsmc (fsmc : Fsmc D)
  | rcc (rcc : Rcc)
  | pwr (pwr : Pwr)
  | otgFs (otg : OtgFs D)
  | rtc (rtc : Rtc)
  | flash (flash : Flash D)
  | tim11 (tim : Tim11)
  | tim5 (tim : Tim5)
  | tim6 (tim : Tim6)
  | can (can : Can)
  | i2c (i2c : I2c)
  | dma (dma : Dma)
  | spi (spi : Spi D)
  | adc (adc : Adc D)
  | exti
  | syscfg

namespace Peripheral

variable {U D : Type} [UnicornEngine U]

def read (p : Peripheral D) (sys : System U D) (offset : U32) :
    Option (Peripheral D × System U D × U32) :=
  match p with
  | .nvic baseOffset => (sys.nvic.read (offset + baseOffset)).map fun v => (p, sys, v)
  | .nvicStir => some (p, sys, 0)
  | .sysTick state => some (.sysTick (state.read offset).1, sys, (state.read offset).2)
  | .dwt state => some (p, sys, state.read sys.numInstructions offset)
  | .scb state => some (p, sys, state.read sys.nvic offset)
  | .gpio state =>
    some (p, { sys with d := (state.read sys.gpio sys.d offset).1 },
      (state.read sys.gpio sys.d offset).2)
  | .usart state =>
    some (p, { sys with d := (state.read sys.d offset).1 }, (state.read sys.d offset).2)
  | .fsmc state => (state.read sys.d offset).map fun (d, v) => (p, { sys with d := d }, v)
  | .rcc state => some (p, sys, state.read offset)
  | .pwr state => some (p, sys, state.read offset)
  | .otgFs state => (state.registerRead offset).map fun (next, v) => (.otgFs next, sys, v)
  | .rtc state => some (p, sys, state.read offset)
  | .flash state => some (p, sys, state.read offset)
  | .tim11 state => some (p, sys, state.read offset)
  | .tim5 state => some (p, sys, state.read sys.numInstructions offset)
  | .tim6 state => some (p, sys, state.read sys.numInstructions offset)
  | .can state => some (p, sys, state.read offset)
  | .i2c state => some (.i2c (state.read offset).1, sys, (state.read offset).2)
  | .dma state => (state.read offset).map fun (next, v) => (.dma next, sys, v)
  | .spi state => some (.spi (state.read offset).1, sys, (state.read offset).2)
  | .adc state =>
    some (.adc (state.registerRead sys.d offset).1, sys, (state.registerRead sys.d offset).2)
  | .exti => some (p, sys, sys.exti.readExti offset)
  | .syscfg => some (p, sys, sys.exti.readSyscfg offset)

/-- The software trigger register pends the external interrupt that is written to it. -/
def stirWrite (nvic : Nvic) (offset value : U32) : Option Nvic :=
  if offset = 0 then nvic.setIntrPending (value &&& 0x1ff).toNat else some nvic

def write (p : Peripheral D) (sys : System U D) (offset value : U32) :
    Option (Peripheral D × System U D) :=
  match p with
  | .nvic baseOffset =>
    (sys.nvic.write (offset + baseOffset) value).map fun nvic => (p, { sys with nvic := nvic })
  | .nvicStir => (stirWrite sys.nvic offset value).map fun nvic => (p, { sys with nvic := nvic })
  | .sysTick state =>
    some (.sysTick (state.write sys.nvic offset value).1,
      { sys with nvic := (state.write sys.nvic offset value).2 })
  | .dwt state => some (.dwt (state.write sys.numInstructions offset value), sys)
  | .scb state =>
    (state.write sys.nvic offset value).map fun r => (.scb r.1, { sys with nvic := r.2 })
  | .gpio state =>
    some (.gpio (state.write sys.gpio sys.d offset value).1,
      { sys with d := (state.write sys.gpio sys.d offset value).2 })
  | .usart state => some (p, { sys with d := state.write sys.d offset value })
  | .fsmc state => (state.write sys.d offset value).map fun d => (p, { sys with d := d })
  | .rcc state => some (.rcc (state.write offset value), sys)
  | .pwr state => some (.pwr (state.write offset value), sys)
  | .otgFs state =>
    (state.registerWrite sys.d offset value).map fun (next, d) => (.otgFs next, { sys with d := d })
  | .rtc state => some (.rtc (state.write offset value), sys)
  | .flash state =>
    (state.write sys.uc sys.d offset value).map fun (next, uc, d) =>
      (.flash next, { sys with uc := uc, d := d })
  | .tim11 state => some (.tim11 (state.write offset value), sys)
  | .tim5 state => some (.tim5 (state.write sys.numInstructions offset value), sys)
  | .tim6 state => some (.tim6 (state.write sys.numInstructions offset value), sys)
  | .can state => some (.can (state.write offset value), sys)
  | .i2c _ => some (p, sys)
  | .dma state => (state.write offset value).map fun next => (.dma next, sys)
  | .spi state =>
    some (.spi (state.write sys.d offset value).1,
      { sys with d := (state.write sys.d offset value).2 })
  | .adc state => some (.adc (state.registerWrite offset value), sys)
  | .exti => some (p, { sys with exti := sys.exti.writeExti offset value })
  | .syscfg => some (p, { sys with exti := sys.exti.writeSyscfg offset value })

end Peripheral

end Stm32Emulator
