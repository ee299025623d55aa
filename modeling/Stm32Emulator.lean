import Stm32Emulator.Foundation.Word
import Stm32Emulator.Foundation.Run
import Stm32Emulator.Engine.Unicorn
import Stm32Emulator.Engine.RegisterFile
import Stm32Emulator.Peripherals.Nvic
import Stm32Emulator.Exceptions.Frame
import Stm32Emulator.Exceptions.Entry
import Stm32Emulator.Exceptions.Context
import Stm32Emulator.Exceptions.FrameShape
import Stm32Emulator.Peripherals.Scb
import Stm32Emulator.Exceptions.Machine
import Stm32Emulator.Exceptions.Nesting
import Stm32Emulator.Exceptions.Pending
import Stm32Emulator.Peripherals.OtgFs
import Stm32Emulator.Usb.Machine
import Stm32Emulator.Usb.BulkIn
import Stm32Emulator.Foundation.Chunks
import Stm32Emulator.Usb.RxFifo
import Stm32Emulator.Usb.VirtualHost
import Stm32Emulator.Usb.TxEmpty
import Stm32Emulator.Foundation.IntervalLookup
import Stm32Emulator.Peripherals.Timers
import Stm32Emulator.Peripherals.SystemControl
import Stm32Emulator.Peripherals.Serial
import Stm32Emulator.Peripherals.Gpio
import Stm32Emulator.Peripherals.Adc
import Stm32Emulator.Peripherals.Dma
import Stm32Emulator.Peripherals.Fsmc
import Stm32Emulator.Peripherals.Flash
import Stm32Emulator.Bus.Peripheral
import Stm32Emulator.Bus.Access
import Stm32Emulator.Bus.Registers
import Stm32Emulator.Bus.BitBand
import Stm32Emulator.Bus.SvdRegisters
import Stm32Emulator.Foundation.QueueLedger
import Stm32Emulator.Cdc.EmbeddedLink
import Stm32Emulator.Cdc.LinkFifo
import Stm32Emulator.Cdc.TcpBridge
import Stm32Emulator.Cdc.TcpSessions
import Stm32Emulator.Cdc.DeadClients
import Stm32Emulator.Timers.Compare
import Stm32Emulator.Foundation.SampledPeriod
import Stm32Emulator.Timers.Timebase
import Stm32Emulator.Usb.StageMirror
import Stm32Emulator.Usb.BulkOut
import Stm32Emulator.Usb.Enumeration
import Stm32Emulator.Usb.Sessions
import Stm32Emulator.Bus.DmaRange
import Stm32Emulator.Bus.Routing
import Stm32Emulator.Bus.Lanes
import Stm32Emulator.Bus.ReadEffects
import Stm32Emulator.Usb.LaneFlags
import Stm32Emulator.Bus.Flags
import Stm32Emulator.Bus.SubWord
import Stm32Emulator.Foundation.Deadline
import Stm32Emulator.Dma.Transfer
import Stm32Emulator.Dma.Completion
import Stm32Emulator.Dma.Enable
import Stm32Emulator.Foundation.MemoryImage
import Stm32Emulator.Engine.Memory
import Stm32Emulator.InternalFlash.Memory
import Stm32Emulator.InternalFlash.LockProtocol
import Stm32Emulator.InternalFlash.Boot
import Stm32Emulator.InternalFlash.Aliases
import Stm32Emulator.InternalFlash.Persistence
import Stm32Emulator.InternalFlash.SectorErase
import Stm32Emulator.InternalFlash.AddressArithmetic
import Stm32Emulator.Foundation.Lines
import Stm32Emulator.Foundation.CutStreams
import Stm32Emulator.EcuIo.SignalLine
import Stm32Emulator.EcuIo.Link
import Stm32Emulator.EcuIo.Device
import Stm32Emulator.EcuIo.Clients
import Stm32Emulator.EcuIo.ClientSessions
import Stm32Emulator.EcuIo.PollEffects
import Stm32Emulator.EcuIo.LineStream
import Stm32Emulator.EcuIo.LineFragments
import Stm32Emulator.EcuIo.DeadClients
import Stm32Emulator.EcuIo.DigitalEdges
import Stm32Emulator.EcuIo.EdgeInterrupts
import Stm32Emulator.Foundation.SetBits
import Stm32Emulator.Foundation.WordFields
import Stm32Emulator.Peripherals.GpioChanges
import Stm32Emulator.Peripherals.GpioOutputs
import Stm32Emulator.EcuIo.OutputReports
import Stm32Emulator.EcuIo.OutputEvents
import Stm32Emulator.EcuIo.OutputDelivery
import Stm32Emulator.EcuIo.LinkInputs
import Stm32Emulator.EcuIo.LinkOutputs
import Stm32Emulator.EcuIo.WheelTeeth
import Stm32Emulator.EcuIo.WheelPosition
import Stm32Emulator.Peripherals.GpioObservers
import Stm32Emulator.Peripherals.SoftwareSpi
import Stm32Emulator.Peripherals.SpiWaveform
import Stm32Emulator.Peripherals.SpiFlash
import Stm32Emulator.Peripherals.SpiFrames
import Stm32Emulator.Bus.PriorityBytes
import Stm32Emulator.Foundation.Multiples
import Stm32Emulator.Timers.CounterLaw
import Stm32Emulator.Timers.UpdatePhase
import Stm32Emulator.Dma.CrRegister
import Stm32Emulator.Bus.SlotBus
import Stm32Emulator.Bus.Reentry
import Stm32Emulator.Foundation.RasterScan
import Stm32Emulator.Foundation.CheckedArithmetic
import Stm32Emulator.Foundation.CheckedCollect
import Stm32Emulator.Displays.Framebuffer
import Stm32Emulator.Displays.ImageExport
import Stm32Emulator.Displays.PixelBounds
import Stm32Emulator.Displays.Display
import Stm32Emulator.Displays.WindowedDrawing
import Stm32Emulator.Displays.CursorLimits
import Stm32Emulator.Displays.Touchscreen
import Stm32Emulator.Peripherals.AdcSequence
import Stm32Emulator.Bus.AdcTransfer
import Stm32Emulator.Bus.SoftwareTrigger
import Stm32Emulator.Exceptions.InstructionBudget
import Stm32Emulator.EcuIo.CappedQueues
import Stm32Emulator.Foundation.Monitor
import Stm32Emulator.Embedded.RunEmbedded
import Stm32Emulator.Embedded.Sessions
import Stm32Emulator.Embedded.StopRequests
import Stm32Emulator.Foundation.PeriodicGate
import Stm32Emulator.Exceptions.HookCadence
import Stm32Emulator.Dma.Latency
import Stm32Emulator.Exceptions.Waiting
import Stm32Emulator.Foundation.CyclicWrite
import Stm32Emulator.Displays.LcdFrames
import Stm32Emulator.Usb.BridgeCalls
import Stm32Emulator.Usb.CdcStreams
import Stm32Emulator.Peripherals.FlashOverPins
import Stm32Emulator.EcuIo.ClientInputs
import Stm32Emulator.Foundation.Latch
import Stm32Emulator.Usb.FlagLatches
import Stm32Emulator.Usb.InterruptStatus
import Stm32Emulator.Launcher.Console
