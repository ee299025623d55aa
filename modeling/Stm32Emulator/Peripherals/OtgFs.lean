import Stm32Emulator.Peripherals.Nvic
import Mathlib.Logic.Function.Basic

/-!
# The USB controller

`OtgFs` is the device side of a USB link together with the virtual host that enumerates it and, once
the device is configured, carries bytes between its two bulk endpoints and a bridge.  The bridge is
an external device: its operations act on the state `D` of the outside world.

Host packets are queued for firmware in two queues, one of status words and one of bytes, which
firmware empties through `GRXSTSP` and the FIFO window.  Transfers to the host fill one FIFO for
each endpoint; `completeInTransfer` ends them.
-/

namespace Stm32Emulator

open Function

/-- The stages of a session that the host side of the bridge can see. -/
inductive EmbeddedCdcStage where
  | detached
  | devicePresent
  | usbStarted
  | awaitingDeviceDescriptor
  | awaitingSetAddressStatus
  | awaitingSetConfigurationStatus
  | awaitingSetLineCodingStatus
  | awaitingSetControlLineStateStatus
  | protocolReady
  deriving DecidableEq, Repr

/-- What the controller uses of the bridge, as operations on the state of the outside world. -/
structure UsbBridge (D : Type) where
  pushFromDevice : List U8 → D → D
  takeForDevice : ℕ → D → List U8 × D
  isClientConnected : D → Bool
  setProtocolStage : EmbeddedCdcStage → D → D
  /-- No more bytes are taken than were asked for. -/
  length_takeForDevice : ∀ maximum d, (takeForDevice maximum d).1.length ≤ maximum

structure EndpointRegs where
  ctl : U32
  int : U32
  tsiz : U32
  armedInBytesSent : ℕ
  deriving DecidableEq, Repr

def EndpointRegs.default : EndpointRegs := ⟨0, 0, 0, 0⟩

/-- How far the virtual host has enumerated the device. -/
inductive VirtualHostStep where
  | awaitingDeviceDescriptor
  | awaitingSetAddressStatus
  | awaitingSetConfigurationStatus
  | awaitingSetLineCodingStatus
  | awaitingSetControlLineStateStatus
  | configured
  deriving DecidableEq, Repr

/-- The stage that the bridge is told at each step. -/
def VirtualHostStep.stage : VirtualHostStep → EmbeddedCdcStage
  | awaitingDeviceDescriptor => .awaitingDeviceDescriptor
  | awaitingSetAddressStatus => .awaitingSetAddressStatus
  | awaitingSetConfigurationStatus => .awaitingSetConfigurationStatus
  | awaitingSetLineCodingStatus => .awaitingSetLineCodingStatus
  | awaitingSetControlLineStateStatus => .awaitingSetControlLineStateStatus
  | configured => .protocolReady

namespace OtgFs

/-! ## Registers and bits -/

abbrev numEndpoints : ℕ := 6

def usbReset : U32 := 1 <<< 12
abbrev gintsts : U32 := 0x0014
abbrev gintmsk : U32 := 0x0018
abbrev grstctl : U32 := 0x0010
def grstctlCsrst : U32 := 1 <<< 0
def grstctlRxfflsh : U32 := 1 <<< 4
def grstctlTxfflsh : U32 := 1 <<< 5
def grstctlSelfClearing : U32 := grstctlCsrst ||| grstctlRxfflsh ||| grstctlTxfflsh
abbrev grxstsr : U32 := 0x001c
abbrev grxstsp : U32 := 0x0020
abbrev dcfgOffset : U32 := 0x0800
abbrev dctlOffset : U32 := 0x0804
abbrev diepmsk : U32 := 0x0810
abbrev doepmsk : U32 := 0x0814
abbrev daintOffset : U32 := 0x0818
abbrev daintmsk : U32 := 0x081c
abbrev diepempmsk : U32 := 0x0834
abbrev diepBase : ℕ := 0x0900
abbrev doepBase : ℕ := 0x0b00
abbrev epStride : ℕ := 0x0020
abbrev epCtlOffset : ℕ := 0x00
abbrev epIntOffset : ℕ := 0x08
abbrev epTsizOffset : ℕ := 0x10
abbrev dtxfstsOffset : ℕ := 0x18
abbrev fifoBase : ℕ := 0x1000
abbrev fifoWindow : ℕ := 0x1000

def gintstsSof : U32 := 1 <<< 3
def gintstsRxflvl : U32 := 1 <<< 4
def gintstsIepint : U32 := 1 <<< 18
def gintstsOepint : U32 := 1 <<< 19
def diepctlEpena : U32 := 1 <<< 31
def doepctlUsbaep : U32 := 1 <<< 15
def diepintXfrc : U32 := 1 <<< 0
def diepintTxfe : U32 := 1 <<< 7
def dtxfstsAvailableWords : U32 := 16
def doepintXfrc : U32 := 1 <<< 0
def doepintStup : U32 := 1 <<< 3
def xfrsizMask : U32 := 0x7ffff
def rxstsPktstsMask : U32 := 0xf <<< 17
def rxstsSetupData : U32 := 6 <<< 17
def rxstsSetupComp : U32 := 4 <<< 17
def rxstsOutData : U32 := 2 <<< 17
def rxstsOutComp : U32 := 3 <<< 17
def virtualDeviceAddress : U8 := 5
def sofPeriodInstructions : ℕ := 1000

end OtgFs

/-- The state of the controller. -/
structure OtgFs (D : Type) where
  bridge : Option (UsbBridge D)
  /-- The registers without a meaning of their own; those never written read as zero. -/
  registers : U32 → U32
  globalInterruptStatus : U32
  globalInterruptMask : U32
  hostAttached : Bool
  dcfg : U32
  dctl : U32
  diepMask : U32
  doepMask : U32
  daintMask : U32
  diepEmptyMask : U32
  epIn : Fin OtgFs.numEndpoints → EndpointRegs
  epOut : Fin OtgFs.numEndpoints → EndpointRegs
  rxFifo : List U8
  rxStatus : List U32
  txFifo : Fin OtgFs.numEndpoints → List U8
  virtualHostStep : VirtualHostStep
  bulkInEndpoint : Option (Fin OtgFs.numEndpoints)
  bulkOutEndpoint : Option (Fin OtgFs.numEndpoints)
  pendingBridgeWrites : List U8
  lastSofInstruction : ℕ
  /-- The request bits of `GRSTCTL` are never stored. -/
  grstctl_selfClearing : registers OtgFs.grstctl &&& OtgFs.grstctlSelfClearing = 0#32

namespace OtgFs

variable {D : Type}

/-- The controller before any access, with the endpoints that the firmware uses for bulk data. -/
def new (bridge : Option (UsbBridge D)) : OtgFs D where
  bridge := bridge
  registers := fun _ => 0
  globalInterruptStatus := 0
  globalInterruptMask := 0
  hostAttached := false
  dcfg := 0
  dctl := 0
  diepMask := 0
  doepMask := 0
  daintMask := 0
  diepEmptyMask := 0
  epIn := fun _ => .default
  epOut := fun _ => .default
  rxFifo := []
  rxStatus := []
  txFifo := fun _ => []
  virtualHostStep := .awaitingDeviceDescriptor
  bulkInEndpoint := some 2
  bulkOutEndpoint := some 2
  pendingBridgeWrites := []
  lastSofInstruction := 0
  grstctl_selfClearing := by decide

/-- Storing a register; the request bits of `GRSTCTL` clear themselves. -/
def insertRegister (otg : OtgFs D) (offset value : U32) : OtgFs D :=
  { otg with
    registers := update otg.registers offset
      (if offset = grstctl then value &&& ~~~grstctlSelfClearing else value)
    grstctl_selfClearing := by
      by_cases h : offset = grstctl
      · subst h
        rw [update_self, if_pos rfl, BitVec.and_assoc, BitVec.and_comm (~~~_), BitVec.and_not_self]
        exact BitVec.and_zero
      · rw [update_of_ne (Ne.symm h)]
        exact otg.grstctl_selfClearing }

/-- The endpoint and the register within it, for an offset in a bank of endpoint registers. -/
def decodeEndpoint (base : ℕ) (offset : U32) : Option (Fin numEndpoints × ℕ) :=
  if offset.toNat < base then
    none
  else
    let rel := offset.toNat - base
    if h : rel / epStride < numEndpoints then some (⟨rel / epStride, h⟩, rel % epStride) else none

/-- The endpoint of a FIFO window. -/
def fifoEndpoint (offset : U32) : Option (Fin numEndpoints) :=
  if offset.toNat < fifoBase then
    none
  else
    let ep := (offset.toNat - fifoBase) / fifoWindow
    if h : ep < numEndpoints then some ⟨ep, h⟩ else none

/-! ## Interrupt status -/

/-- The endpoint interrupts, IN endpoints from bit 0 and OUT endpoints from bit 16 on. -/
def daint (otg : OtgFs D) : U32 :=
  (List.finRange numEndpoints).foldl
    (fun value ep =>
      let value := if (otg.epIn ep).int ≠ 0#32 then value ||| (1#32 <<< ep.val) else value
      if (otg.epOut ep).int ≠ 0#32 then value ||| (1#32 <<< (16 + ep.val)) else value) 0#32

/-- The interrupt status: `RXFLVL`, `IEPINT` and `OEPINT` are levels, computed afresh. -/
def effectiveGintsts (otg : OtgFs D) : U32 :=
  let daint := otg.daint &&& otg.daintMask
  let status := otg.globalInterruptStatus
  let status := if otg.rxStatus ≠ [] then status ||| gintstsRxflvl else status
  let status := if daint &&& 0x0000ffff#32 ≠ 0#32 then status ||| gintstsIepint else status
  if daint &&& 0xffff0000#32 ≠ 0#32 then status ||| gintstsOepint else status

def interruptPending (otg : OtgFs D) : Bool :=
  otg.effectiveGintsts &&& otg.globalInterruptMask != 0#32

def setGlobalInterruptStatus (otg : OtgFs D) (value : U32) : OtgFs D :=
  { otg with globalInterruptStatus := otg.globalInterruptStatus ||| value }

def modifyIn (otg : OtgFs D) (ep : Fin numEndpoints) (f : EndpointRegs → EndpointRegs) : OtgFs D :=
  { otg with epIn := update otg.epIn ep (f (otg.epIn ep)) }

def modifyOut (otg : OtgFs D) (ep : Fin numEndpoints) (f : EndpointRegs → EndpointRegs) : OtgFs D :=
  { otg with epOut := update otg.epOut ep (f (otg.epOut ep)) }

def raiseInEndpointInterrupt (otg : OtgFs D) (ep : Fin numEndpoints) (bits : U32) : OtgFs D :=
  otg.modifyIn ep fun regs => { regs with int := regs.int ||| bits }

def raiseOutEndpointInterrupt (otg : OtgFs D) (ep : Fin numEndpoints) (bits : U32) : OtgFs D :=
  otg.modifyOut ep fun regs => { regs with int := regs.int ||| bits }

/-! ## The virtual host -/

def isConfigured (otg : OtgFs D) : Bool := otg.virtualHostStep = .configured

/-- A bus reset: enumeration starts again, and the endpoints and all queues are cleared. -/
def virtualHostReset (otg : OtgFs D) (d : D) : OtgFs D × D :=
  let d := match otg.bridge with
    | some bridge => bridge.setProtocolStage .awaitingDeviceDescriptor d
    | none => d
  let otg := otg.setGlobalInterruptStatus usbReset
  ({ otg with
    virtualHostStep := .awaitingDeviceDescriptor
    epIn := fun _ => .default
    epOut := fun _ => .default
    rxFifo := []
    rxStatus := []
    txFifo := fun _ => [] }, d)

def rxStatusWord (pktsts : U32) (byteCount : ℕ) (endpoint : Fin numEndpoints) : U32 :=
  pktsts ||| (BitVec.ofNat 32 byteCount <<< 4) ||| BitVec.ofNat 32 endpoint.val

/-- Queueing a status word together with the bytes that it announces. -/
def queueRx (otg : OtgFs D) (status : U32) (bytes : List U8) : OtgFs D :=
  { otg with rxFifo := otg.rxFifo ++ bytes, rxStatus := otg.rxStatus ++ [status] }

/-- A SETUP packet of eight bytes. -/
def virtualHostSetup (otg : OtgFs D) (endpoint : Fin numEndpoints) (packet : List U8) : OtgFs D :=
  (otg.queueRx (rxStatusWord rxstsSetupData 8 endpoint) packet).queueRx
    (rxStatusWord rxstsSetupComp 0 endpoint) []

/-- A SETUP packet followed by a data packet. -/
def virtualHostControlOut (otg : OtgFs D) (endpoint : Fin numEndpoints) (packet data : List U8) :
    OtgFs D :=
  let otg := otg.virtualHostSetup endpoint packet
  if data = [] then
    otg
  else
    (otg.queueRx (rxStatusWord rxstsOutData data.length endpoint) data).queueRx
      (rxStatusWord rxstsOutComp 0 endpoint) []

/-- The empty status packet that ends a control transfer to the host. -/
def virtualHostControlInStatusAck (otg : OtgFs D) (endpoint : Fin numEndpoints) : OtgFs D :=
  (otg.queueRx (rxStatusWord rxstsOutData 0 endpoint) []).queueRx
    (rxStatusWord rxstsOutComp 0 endpoint) []

def getDeviceDescriptorPacket : List U8 := [0x80, 0x06, 0x00, 0x01, 0x00, 0x00, 0x12, 0x00]

def setAddressPacket (address : U8) : List U8 := [0x00, 0x05, address, 0x00, 0x00, 0x00, 0x00, 0x00]

def setConfigurationPacket (configuration : U8) : List U8 :=
  [0x00, 0x09, configuration, 0x00, 0x00, 0x00, 0x00, 0x00]

def setLineCodingPacket : List U8 × List U8 :=
  ([0x21, 0x20, 0x00, 0x00, 0x00, 0x00, 0x07, 0x00], [0x00, 0xc2, 0x01, 0x00, 0x00, 0x00, 0x08])

def setControlLineStatePacket : List U8 := [0x21, 0x22, 0x03, 0x00, 0x00, 0x00, 0x00, 0x00]

/-- The host's next move, once the status stage of the last one is over. -/
def advanceVirtualHost (otg : OtgFs D) (d : D) : OtgFs D × D :=
  let previousStep := otg.virtualHostStep
  let (queued, step) : OtgFs D × VirtualHostStep := match otg.virtualHostStep with
    | .awaitingDeviceDescriptor =>
      ((otg.virtualHostControlInStatusAck 0).virtualHostSetup 0
        (setAddressPacket virtualDeviceAddress), .awaitingSetAddressStatus)
    | .awaitingSetAddressStatus =>
      (otg.virtualHostSetup 0 (setConfigurationPacket 1), .awaitingSetConfigurationStatus)
    | .awaitingSetConfigurationStatus =>
      (otg.virtualHostControlOut 0 setLineCodingPacket.1 setLineCodingPacket.2,
        .awaitingSetLineCodingStatus)
    | .awaitingSetLineCodingStatus =>
      (otg.virtualHostSetup 0 setControlLineStatePacket, .awaitingSetControlLineStateStatus)
    | .awaitingSetControlLineStateStatus => (otg, .configured)
    | .configured => (otg, .configured)
  let d := match otg.bridge with
    | some bridge => if step ≠ previousStep then bridge.setProtocolStage step.stage d else d
    | none => d
  ({ queued with virtualHostStep := step }, d)

/-- A client is connected to the bridge. -/
def hostPresent (otg : OtgFs D) (d : D) : Bool :=
  match otg.bridge with
  | some bridge => bridge.isClientConnected d
  | none => false

def refreshVirtualHostAttachment (otg : OtgFs D) (d : D) (firmwareIrqEnabled : Bool) :
    OtgFs D × D :=
  let hostPresent := otg.hostPresent d
  let firmwareUsbReady := otg.globalInterruptMask != 0#32 && firmwareIrqEnabled
  if hostPresent && firmwareUsbReady && !otg.hostAttached then
    { otg with hostAttached := true }.virtualHostReset d
  else if !hostPresent then
    ({ otg with hostAttached := false }, d)
  else
    (otg, d)

/-- One packet from the bridge to the bulk-OUT endpoint, if firmware has armed it. -/
def forwardBulkOut (otg : OtgFs D) (d : D) : OtgFs D × D :=
  if otg.isConfigured = false then
    (otg, d)
  else
    match otg.bulkOutEndpoint, otg.bridge with
    | some outEp, some bridge =>
      if (otg.epOut outEp).ctl &&& diepctlEpena = 0#32 then
        (otg, d)
      else
        let requested := ((otg.epOut outEp).tsiz &&& xfrsizMask).toNat
        if requested = 0 then
          (otg, d)
        else
          let maximum := min 64 requested
          let (bytes, d) := bridge.takeForDevice maximum d
          if bytes = [] then
            (otg, d)
          else
            let remaining := requested - bytes.length
            let otg := otg.modifyOut outEp fun regs =>
              { regs with
                ctl := regs.ctl &&& ~~~diepctlEpena
                tsiz := (regs.tsiz &&& ~~~xfrsizMask) ||| BitVec.ofNat 32 remaining }
            ((otg.queueRx (rxStatusWord rxstsOutData bytes.length outEp) bytes).queueRx
              (rxStatusWord rxstsOutComp 0 outEp) [], d)
    | _, _ => (otg, d)

/-! ## Transfers to the host -/

/-- The end of a transfer to the host.  On endpoint zero the host moves on; on the bulk endpoint of
a configured device the FIFO goes to the bridge, cut to the transfer size. -/
def completeInTransfer (otg : OtgFs D) (d : D) (ep : Fin numEndpoints) : OtgFs D × D :=
  let otg := otg.raiseInEndpointInterrupt ep diepintXfrc
  if ep = 0 then
    { otg with txFifo := update otg.txFifo 0 [] }.advanceVirtualHost d
  else if otg.isConfigured ∧ some ep = otg.bulkInEndpoint then
    let xfrsiz := ((otg.epIn ep).tsiz &&& xfrsizMask).toNat
    let bytes := (otg.txFifo ep).take xfrsiz
    let otg := { otg with txFifo := update otg.txFifo ep [] }
    match otg.bridge with
    | some bridge => (otg, bridge.pushFromDevice bytes d)
    | none => ({ otg with pendingBridgeWrites := otg.pendingBridgeWrites ++ bytes }, d)
  else
    (otg, d)

/-- A word for the FIFO of an endpoint.  The transfer ends with the word that completes it.  An
overflow of the byte counter is `none`. -/
def pushTxFifoWord (otg : OtgFs D) (d : D) (ep : Fin numEndpoints) (value : U32) :
    Option (OtgFs D × D) :=
  let wasEnabled := (otg.epIn ep).ctl &&& diepctlEpena != 0#32
  let sent := (otg.epIn ep).armedInBytesSent + 4
  if 2 ^ 32 ≤ sent then
    none
  else
    let otg := { otg with txFifo := update otg.txFifo ep (otg.txFifo ep ++ toLeBytes value) }
    let otg := otg.modifyIn ep fun regs => { regs with armedInBytesSent := sent }
    let xfrsiz := ((otg.epIn ep).tsiz &&& xfrsizMask).toNat
    if wasEnabled ∧ xfrsiz ≤ sent then
      some ((otg.modifyIn ep fun regs =>
        { regs with ctl := regs.ctl &&& ~~~diepctlEpena }).completeInTransfer d ep)
    else
      some (otg, d)

/-! ## Register access -/

/-- The next word of the receive FIFO; an empty FIFO gives zero bytes. -/
def popRxFifoWord (otg : OtgFs D) : OtgFs D × U32 :=
  ({ otg with rxFifo := otg.rxFifo.drop 4 },
    fromLeBytes (otg.rxFifo.getD 0 0) (otg.rxFifo.getD 1 0) (otg.rxFifo.getD 2 0)
      (otg.rxFifo.getD 3 0))

/-- The next status word.  Popping a completion raises the interrupt of its endpoint; an endpoint
past the last one is `none`. -/
def popRxStatus (otg : OtgFs D) : Option (OtgFs D × U32) :=
  let word := otg.rxStatus.headD 0
  let otg := { otg with rxStatus := otg.rxStatus.tail }
  let ep := (word &&& 0xf#32).toNat
  let raise (bits : U32) : Option (OtgFs D × U32) :=
    if h : ep < numEndpoints then some (otg.raiseOutEndpointInterrupt ⟨ep, h⟩ bits, word) else none
  if word &&& rxstsPktstsMask = rxstsSetupComp then raise doepintStup
  else if word &&& rxstsPktstsMask = rxstsOutComp then raise doepintXfrc
  else some (otg, word)

def registerRead (otg : OtgFs D) (offset : U32) : Option (OtgFs D × U32) :=
  match fifoEndpoint offset with
  | some ep => if ep = 0 then some otg.popRxFifoWord else some (otg, 0#32)
  | none =>
  match decodeEndpoint diepBase offset with
  | some (ep, reg) => some (otg,
      if reg = epCtlOffset then (otg.epIn ep).ctl
      else if reg = epIntOffset then (otg.epIn ep).int
      else if reg = epTsizOffset then (otg.epIn ep).tsiz
      else if reg = dtxfstsOffset then dtxfstsAvailableWords
      else 0#32)
  | none =>
  match decodeEndpoint doepBase offset with
  | some (ep, reg) => some (otg,
      if reg = epCtlOffset then (otg.epOut ep).ctl
      else if reg = epIntOffset then (otg.epOut ep).int
      else if reg = epTsizOffset then (otg.epOut ep).tsiz
      else 0#32)
  | none =>
    if offset = grstctl then some (otg, otg.registers offset ||| 0x80000000#32)
    else if offset = gintsts then some (otg, otg.effectiveGintsts)
    else if offset = gintmsk then some (otg, otg.globalInterruptMask)
    else if offset = grxstsp then otg.popRxStatus
    else if offset = grxstsr then some (otg, otg.rxStatus.headD 0)
    else if offset = dcfgOffset then some (otg, otg.dcfg)
    else if offset = dctlOffset then some (otg, otg.dctl)
    else if offset = diepmsk then some (otg, otg.diepMask)
    else if offset = doepmsk then some (otg, otg.doepMask)
    else if offset = daintOffset then some (otg, otg.daint)
    else if offset = daintmsk then some (otg, otg.daintMask)
    else if offset = diepempmsk then some (otg, otg.diepEmptyMask)
    else some (otg, otg.registers offset)

/-- A write to `DIEPCTL`.  Enabling the endpoint arms a transfer, and an empty one ends at once. -/
def writeDiepctl (otg : OtgFs D) (d : D) (ep : Fin numEndpoints) (value : U32) : OtgFs D × D :=
  let wasEnabled := (otg.epIn ep).ctl &&& diepctlEpena != 0#32
  let otg := otg.modifyIn ep fun regs => { regs with ctl := value }
  let nowEnabled := value &&& diepctlEpena != 0#32
  if nowEnabled ∧ ¬ wasEnabled then
    let otg := otg.modifyIn ep fun regs => { regs with armedInBytesSent := 0 }
    if (otg.epIn ep).tsiz &&& xfrsizMask = 0#32 then
      (otg.modifyIn ep fun regs =>
        { regs with ctl := regs.ctl &&& ~~~diepctlEpena }).completeInTransfer d ep
    else if otg.diepEmptyMask &&& (1#32 <<< ep.val) ≠ 0#32 then
      (otg.raiseInEndpointInterrupt ep diepintTxfe, d)
    else
      (otg, d)
  else
    (otg, d)

/-- A write to `DOEPCTL`.  Activating endpoint zero makes the host ask for the device descriptor. -/
def writeDoepctl (otg : OtgFs D) (ep : Fin numEndpoints) (value : U32) : OtgFs D :=
  let wasActive := (otg.epOut ep).ctl &&& doepctlUsbaep != 0#32
  let otg := otg.modifyOut ep fun regs => { regs with ctl := value }
  let nowActive := value &&& doepctlUsbaep != 0#32
  if ep = 0 ∧ nowActive ∧ ¬ wasActive ∧ otg.virtualHostStep = .awaitingDeviceDescriptor then
    otg.virtualHostSetup 0 getDeviceDescriptorPacket
  else
    otg

/-- A write to `DIEPEMPMSK` raises `TXFE` on the armed endpoints that it unmasks. -/
def writeDiepempmsk (otg : OtgFs D) (value : U32) : OtgFs D :=
  let newlyUnmasked := value &&& ~~~otg.diepEmptyMask
  { otg with
    diepEmptyMask := value
    epIn := fun ep =>
      if newlyUnmasked &&& (1#32 <<< ep.val) ≠ 0#32 ∧ (otg.epIn ep).ctl &&& diepctlEpena ≠ 0#32 then
        { otg.epIn ep with int := (otg.epIn ep).int ||| diepintTxfe }
      else
        otg.epIn ep }

def registerWrite (otg : OtgFs D) (d : D) (offset value : U32) : Option (OtgFs D × D) :=
  match fifoEndpoint offset with
  | some ep => otg.pushTxFifoWord d ep value
  | none =>
  match decodeEndpoint diepBase offset with
  | some (ep, reg) => some (
      if reg = epCtlOffset then otg.writeDiepctl d ep value
      else if reg = epIntOffset then
        (otg.modifyIn ep fun regs => { regs with int := regs.int &&& ~~~value }, d)
      else if reg = epTsizOffset then
        (otg.modifyIn ep fun regs => { regs with tsiz := value }, d)
      else (otg, d))
  | none =>
  match decodeEndpoint doepBase offset with
  | some (ep, reg) => some (
      if reg = epCtlOffset then (otg.writeDoepctl ep value, d)
      else if reg = epIntOffset then
        (otg.modifyOut ep fun regs => { regs with int := regs.int &&& ~~~value }, d)
      else if reg = epTsizOffset then
        (otg.modifyOut ep fun regs => { regs with tsiz := value }, d)
      else (otg, d))
  | none =>
    if offset = gintsts then
      some ({ otg with globalInterruptStatus := otg.globalInterruptStatus &&& ~~~value }, d)
    else if offset = gintmsk then
      let d := match otg.bridge with
        | some bridge =>
          if otg.globalInterruptMask = 0#32 ∧ value ≠ 0#32 then
            bridge.setProtocolStage .usbStarted d
          else d
        | none => d
      some ({ otg with globalInterruptMask := value }, d)
    else if offset = grstctl then
      some (otg.insertRegister offset (value &&& ~~~grstctlSelfClearing), d)
    else if offset = dcfgOffset then some ({ otg with dcfg := value }, d)
    else if offset = dctlOffset then some ({ otg with dctl := value }, d)
    else if offset = diepmsk then some ({ otg with diepMask := value }, d)
    else if offset = doepmsk then some ({ otg with doepMask := value }, d)
    else if offset = daintmsk then some ({ otg with daintMask := value }, d)
    else if offset = diepempmsk then some (otg.writeDiepempmsk value, d)
    else some (otg.insertRegister offset value, d)

/-- The start of a frame, every so many instructions while a host is attached. -/
def startOfFrame (otg : OtgFs D) (numInstructions : ℕ) : OtgFs D :=
  if otg.hostAttached ∧ sofPeriodInstructions ≤ numInstructions - otg.lastSofInstruction then
    { otg with lastSofInstruction := numInstructions }.setGlobalInterruptStatus gintstsSof
  else
    otg

/-- The periodic work: the host attaches, frames start, a bulk packet arrives, and the interrupt of
the controller, number 67, is pended while it is pending. -/
def poll (otg : OtgFs D) (d : D) (nvic : Nvic) (numInstructions : ℕ) :
    Option (OtgFs D × D × Nvic) :=
  let firmwareIrqEnabled := nvic.isEnabled 67
  let (otg, d) := otg.refreshVirtualHostAttachment d firmwareIrqEnabled
  let (otg, d) := (otg.startOfFrame numInstructions).forwardBulkOut d
  (if otg.interruptPending then nvic.setIntrPending 67 else some nvic).map fun nvic =>
    (otg, d, nvic)

end OtgFs

end Stm32Emulator
