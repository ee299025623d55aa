import Stm32Emulator.Cdc.EmbeddedLink
import Stm32Emulator.EcuIo.Link
import Stm32Emulator.Exceptions.InstructionBudget
import Stm32Emulator.Foundation.Monitor

/-!
# The emulator inside of another program

Any thread of a host program may call `run_embedded`, at any time.  The call takes the flag that
allows one emulator, installs the links of its options in two registries, and runs the emulator: the
devices that this builds take the pending links and attach themselves to them.  In the end the
devices are dropped, the links leave the registries, and the flag is given back; a failure or a
panic on the way does the same.

A thread is at a point of the call (`RunPoint`), and each access to a static takes a step of its
own.  The host uses its links and asks for a stop in between.
-/

namespace Stm32Emulator

namespace Embedded

variable {L E : Type}

/-! ## The registries of links -/

/-- The link that waits for a device, and the one that the host finds. -/
structure LinkRegistry (L : Type) where
  pending : Option L
  active : Option L
  deriving DecidableEq, Repr

namespace LinkRegistry

def empty : LinkRegistry L := ⟨none, none⟩

/-- The first half of `install_embedded_link`, if there is a link to install. -/
def installPending (r : LinkRegistry L) : Option L → LinkRegistry L
  | none => r
  | some link => { r with pending := some link }

def installActive (r : LinkRegistry L) : Option L → LinkRegistry L
  | none => r
  | some link => { r with active := some link }

def takePendingDeviceLink (r : LinkRegistry L) : LinkRegistry L × Option L :=
  ({ r with pending := none }, r.pending)

/-- The first half of `clear_embedded_link`: another link stays. -/
def clearActive [DecidableEq L] (r : LinkRegistry L) : Option L → LinkRegistry L
  | none => r
  | some link => if r.active = some link then { r with active := none } else r

def clearPending [DecidableEq L] (r : LinkRegistry L) : Option L → LinkRegistry L
  | none => r
  | some link => if r.pending = some link then { r with pending := none } else r

end LinkRegistry

/-! ## The process -/

/-- The statics of the process, and the states of its links. -/
structure ProcessState (L E : Type) where
  embeddedRunning : Bool
  numInstructions : ℕ
  continueExecution : Bool
  busyLoopReached : Bool
  stopRequested : Bool
  cdcRegistry : LinkRegistry L
  ecuIoRegistry : LinkRegistry E
  cdcLinks : L → EmbeddedCdcState
  ecuIoLinks : E → Ecu.EmbeddedEcuIoState

def ProcessState.initial : ProcessState L E where
  embeddedRunning := false
  numInstructions := 0
  continueExecution := false
  busyLoopReached := false
  stopRequested := false
  cdcRegistry := .empty
  ecuIoRegistry := .empty
  cdcLinks := fun _ => .new
  ecuIoLinks := fun _ => .default

structure EmbeddedEmulatorOptions (L E : Type) where
  maxInstructions : Option ℕ
  stopAddr : Option U32
  cdcLink : Option L
  ecuIoLink : Option E
  deriving DecidableEq, Repr

/-- Where a thread is in its call. -/
inductive RunPoint where
  | outside
  | load
  | installCdcPending
  | installCdcActive
  | installEcuIoPending
  | installEcuIoActive
  | resetNumInstructions
  | resetContinueExecution
  | resetBusyLoopReached
  | resetStopRequested
  | newBridges
  | newEcuIos
  | mainLoop
  | dropDevices
  | clearEcuIoActive
  | clearEcuIoPending
  | clearCdcActive
  | clearCdcPending
  | release
  deriving DecidableEq, Repr

/-- A thread: its point, and its call with the devices that are there and how the main loop has
ended.  A device is given by its link, or by none if it listens on a socket. -/
structure RunState (L E : Type) where
  point : RunPoint
  options : EmbeddedEmulatorOptions L E
  bridges : List (Option L)
  ecuIos : List (Option E)
  pc : BitVec 64
  ended : Option RunEnd
  deriving DecidableEq

def RunState.outside : RunState L E := ⟨.outside, ⟨none, none, none, none⟩, [], [], 0, none⟩

/-- What a device does with the link that it holds.  The stages are those of the enumeration. -/
inductive DeviceLinkOp where
  | setProtocolStage (stage : EmbeddedCdcStage)
  | writeFromDevice (bytes : List U8)
  | readForDevice (maximum : ℕ)
  deriving DecidableEq, Repr

def DeviceLinkOp.op : DeviceLinkOp → LinkOp
  | setProtocolStage stage => .setProtocolStage stage
  | writeFromDevice bytes => .writeFromDevice bytes
  | readForDevice maximum => .readForDevice maximum

/-- What a thread does in its call, with what the outside world answers. -/
inductive RunAction (L E : Type) where
  | runEmbedded (options : EmbeddedEmulatorOptions L E)
  /-- The configuration and the description of the device are read, or there is an error in them. -/
  | load (ok : Bool)
  /-- A single access to a static, and on to the next point. -/
  | advance (point : RunPoint)
  /-- An error or a panic while the emulator is there. -/
  | fail
  | newBridge (maxBufferedBytes : ℕ) (bound : Bool)
  | bridgesDone
  | newEcuIo (bound pinsValid : Bool)
  /-- The memory, the devices and the hooks are ready. -/
  | start (pc : BitVec 64)
  | cdcDevice (link : L) (op : DeviceLinkOp)
  | takeInputs (link : E)
  | publishOutput (link : E) (name : String) (value : ℤ) (wheelAngleMdeg : Option ℤ)
  /-- A call of the engine, and what the main loop does afterwards. -/
  | round (r : EmuStart)
  /-- The budget of instructions is used up. -/
  | budgetReached
  | dropBridge
  | dropEcuIo
  | devicesDropped

/-- The accesses to statics in the order of the program, for the points that have nothing else to
do. -/
def advance [DecidableEq L] [DecidableEq E] (s : ProcessState L E)
    (options : EmbeddedEmulatorOptions L E) :
    RunPoint → Option (ProcessState L E × RunPoint)
  | .installCdcPending =>
    some ({ s with cdcRegistry := s.cdcRegistry.installPending options.cdcLink }, .installCdcActive)
  | .installCdcActive =>
    some ({ s with cdcRegistry := s.cdcRegistry.installActive options.cdcLink },
      .installEcuIoPending)
  | .installEcuIoPending =>
    some ({ s with ecuIoRegistry := s.ecuIoRegistry.installPending options.ecuIoLink },
      .installEcuIoActive)
  | .installEcuIoActive =>
    some ({ s with ecuIoRegistry := s.ecuIoRegistry.installActive options.ecuIoLink },
      .resetNumInstructions)
  | .resetNumInstructions => some ({ s with numInstructions := 0 }, .resetContinueExecution)
  | .resetContinueExecution => some ({ s with continueExecution := false }, .resetBusyLoopReached)
  | .resetBusyLoopReached => some ({ s with busyLoopReached := false }, .resetStopRequested)
  | .resetStopRequested => some ({ s with stopRequested := false }, .newBridges)
  | .clearEcuIoActive =>
    some ({ s with ecuIoRegistry := s.ecuIoRegistry.clearActive options.ecuIoLink },
      .clearEcuIoPending)
  | .clearEcuIoPending =>
    some ({ s with ecuIoRegistry := s.ecuIoRegistry.clearPending options.ecuIoLink },
      .clearCdcActive)
  | .clearCdcActive =>
    some ({ s with cdcRegistry := s.cdcRegistry.clearActive options.cdcLink }, .clearCdcPending)
  | .clearCdcPending =>
    some ({ s with cdcRegistry := s.cdcRegistry.clearPending options.cdcLink }, .release)
  | .release => some ({ s with embeddedRunning := false }, .outside)
  | _ => none

namespace ProcessState

variable [DecidableEq L] [DecidableEq E]

def modifyCdc (s : ProcessState L E) (link : L) (f : EmbeddedCdcState → EmbeddedCdcState) :
    ProcessState L E :=
  { s with cdcLinks := Function.update s.cdcLinks link (f (s.cdcLinks link)) }

def modifyEcuIo (s : ProcessState L E) (link : E)
    (f : Ecu.EmbeddedEcuIoState → Ecu.EmbeddedEcuIoState) : ProcessState L E :=
  { s with ecuIoLinks := Function.update s.ecuIoLinks link (f (s.ecuIoLinks link)) }

end ProcessState

/-- The main loop of a call, between two rounds. -/
def mainLoop (s : ProcessState L E) (t : RunState L E) : MainLoop :=
  ⟨t.pc, s.numInstructions, s.stopRequested, s.continueExecution, s.busyLoopReached, none⟩

section Step

variable [DecidableEq L] [DecidableEq E]

/-- A new bridge.  It takes the pending link only if its configuration is valid. -/
def newBridge (s : ProcessState L E) (t : RunState L E) (maxBufferedBytes : ℕ) (bound : Bool) :
    ProcessState L E × RunState L E :=
  if maxBufferedBytes = 0 then
    (s, { t with point := .dropDevices })
  else
    let (registry, pending) := s.cdcRegistry.takePendingDeviceLink
    let s := { s with cdcRegistry := registry }
    match pending with
    | some link => (s.modifyCdc link .attachDevice, { t with bridges := t.bridges ++ [some link] })
    | none =>
      if bound then (s, { t with bridges := t.bridges ++ [none] })
      else (s, { t with point := .dropDevices })

/-- A new ECU I/O device.  The link that it has taken is attached only if the names of all pins are
valid. -/
def newEcuIo (s : ProcessState L E) (t : RunState L E) (bound pinsValid : Bool) :
    ProcessState L E × RunState L E :=
  let (registry, pending) := s.ecuIoRegistry.takePendingDeviceLink
  let s := { s with ecuIoRegistry := registry }
  match pending with
  | some link =>
    if pinsValid then (s.modifyEcuIo link .attachDevice,
      { t with ecuIos := t.ecuIos ++ [some link] })
    else (s, { t with point := .dropDevices })
  | none =>
    if bound && pinsValid then (s, { t with ecuIos := t.ecuIos ++ [none] })
    else (s, { t with point := .dropDevices })

/-- A step of a thread.  A call while another one is in progress is an error. -/
def runStep (s : ProcessState L E) (t : RunState L E) :
    RunAction L E → Option (ProcessState L E × RunState L E)
  | .runEmbedded options =>
    if t.point ≠ .outside then none
    else if s.embeddedRunning then some (s, t)
    else some ({ s with embeddedRunning := true }, ⟨.load, options, [], [], 0, none⟩)
  | .load ok =>
    if t.point = .load then some
      (s, { t with point := if ok then .installCdcPending else .release })
    else none
  | .advance point =>
    if t.point = point then (advance s t.options point).map fun r => (r.1, { t with point := r.2 })
    else none
  | .fail =>
    if t.point ∈ [.newBridges, .newEcuIos, .mainLoop] then
      some (s, { t with point := .dropDevices }) else none
  | .newBridge maxBufferedBytes bound =>
    if t.point = .newBridges then some (newBridge s t maxBufferedBytes bound) else none
  | .bridgesDone => if t.point = .newBridges then some (s, { t with point := .newEcuIos }) else none
  | .newEcuIo bound pinsValid =>
    if t.point = .newEcuIos then some (newEcuIo s t bound pinsValid) else none
  | .start pc =>
    if t.point = .newEcuIos then some (s, { t with point := .mainLoop, pc := pc }) else none
  | .cdcDevice link op =>
    if t.point = .mainLoop ∧ some link ∈ t.bridges then
      some (s.modifyCdc link fun state => (linkStep state op.op).1, t)
    else none
  | .takeInputs link =>
    if t.point = .mainLoop ∧ some link ∈ t.ecuIos then
      some (s.modifyEcuIo link fun state => state.takeInputs.1, t)
    else none
  | .publishOutput link name value wheelAngleMdeg =>
    if t.point = .mainLoop ∧ some link ∈ t.ecuIos then
      some (s.modifyEcuIo link fun state =>
        state.publishOutput s.numInstructions name value wheelAngleMdeg, t)
    else none
  | .round r =>
    if t.point = .mainLoop then
      ((mainLoop s t).round t.options.maxInstructions t.options.stopAddr r).map fun loop =>
        ({ s with
            numInstructions := loop.numInstructions
            stopRequested := loop.stopRequested
            continueExecution := loop.continueExecution
            busyLoopReached := loop.busyLoopReached },
          { t with
            pc := loop.pc
            ended := loop.ended
            point := if loop.ended = none then .mainLoop else .dropDevices })
    else none
  | .budgetReached =>
    if t.point = .mainLoop ∧ (mainLoop s t).head t.options.maxInstructions = .done then
      some (s, { t with point := .dropDevices })
    else none
  | .dropBridge =>
    match t.point, t.bridges with
    | .dropDevices, some link :: bridges =>
      some (s.modifyCdc link .detachDevice, { t with bridges := bridges })
    | .dropDevices, none :: bridges => some (s, { t with bridges := bridges })
    | _, _ => none
  | .dropEcuIo =>
    match t.point, t.ecuIos with
    | .dropDevices, some link :: ecuIos =>
      some (s.modifyEcuIo link .detachDevice, { t with ecuIos := ecuIos })
    | .dropDevices, none :: ecuIos => some (s, { t with ecuIos := ecuIos })
    | _, _ => none
  | .devicesDropped =>
    if t.point = .dropDevices ∧ t.bridges = [] ∧ t.ecuIos = [] then
      some (s, { t with point := .clearEcuIoActive })
    else none

/-! ## The host -/

/-- What the host does with its end of a link. -/
inductive HostLinkOp where
  | connect
  | disconnect
  | writeFromHost (bytes : List U8)
  | readForHost (target : ℕ)
  deriving DecidableEq, Repr

def HostLinkOp.op : HostLinkOp → LinkOp
  | connect => .connect
  | disconnect => .disconnect
  | writeFromHost bytes => .writeFromHost bytes
  | readForHost target => .readForHost target

inductive HostAction (L E : Type) where
  | requestStop
  | cdc (link : L) (op : HostLinkOp)
  | setInput (link : E) (name : String) (value : ℤ)
  | takeOutputEvents (link : E)

def hostAct (s : ProcessState L E) : HostAction L E → ProcessState L E
  | .requestStop => { s with stopRequested := true }
  | .cdc link op => s.modifyCdc link fun state => (linkStep state op.op).1
  | .setInput link name value => s.modifyEcuIo link fun state => state.setInput name value
  | .takeOutputEvents link => s.modifyEcuIo link fun state => state.takeOutputEvents.1

variable {ι : Type} [DecidableEq ι]

/-- The statics and all threads of the process. -/
abbrev Process (ι L E : Type) := ProcessState L E × (ι → RunState L E)

abbrev ProcessAction (ι L E : Type) := ThreadAction ι (RunAction L E) (HostAction L E)

def Process.initial : Process ι L E := (.initial, fun _ => .outside)

/-- What the process does, in any order. -/
abbrev processStep (s : Process ι L E) (a : ProcessAction ι L E) : Option (Process ι L E) :=
  interleave runStep hostAct s a

end Step

end Embedded

end Stm32Emulator
