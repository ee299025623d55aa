import Stm32Emulator.Foundation.QueueLedger
import Stm32Emulator.Foundation.Run
import Stm32Emulator.Peripherals.OtgFs

/-!
# The embedded link

`EmbeddedCdcState` is what the host and the device share when both run in one process: two capped
queues, a flag that says whether the host is connected, and the stage that the device has reached.
Each operation runs under a lock, so that a run of the link is any interleaving of the operations of
both sides.

Every operation keeps the link in order (`LinkInvariant`) but one: attaching a device to a link
whose host is connected leaves the flag and the queues of the old session.
-/

namespace Stm32Emulator

/-! ## The link -/

structure EmbeddedCdcState where
  hostToDevice : List U8
  deviceToHost : List U8
  hostConnected : Bool
  stage : EmbeddedCdcStage
  maxBufferedBytes : ℕ
  deriving DecidableEq, Repr

namespace EmbeddedCdcState

def defaultMaxBufferedBytes : ℕ := 65536

def new : EmbeddedCdcState := ⟨[], [], false, .detached, defaultMaxBufferedBytes⟩

/-- Making room in a queue and appending what fits. -/
def pushCapped (queue bytes : List U8) (capacity : ℕ) : List U8 :=
  let overflow := queue.length + bytes.length - capacity
  let queue := queue.drop (min overflow queue.length)
  if capacity ≤ bytes.length then queue ++ bytes.drop (bytes.length - capacity) else queue ++ bytes

/-- The end of a session: nobody is connected, and nothing is queued. -/
def endSession (link : EmbeddedCdcState) : EmbeddedCdcState :=
  { link with hostConnected := false, hostToDevice := [], deviceToHost := [] }

/-- The host connects once the protocol is ready, and whether it did. -/
def connect (link : EmbeddedCdcState) : EmbeddedCdcState × Bool :=
  if link.stage ≠ .protocolReady then (link, false)
  else ({ link with hostConnected := true, hostToDevice := [], deviceToHost := [] }, true)

def disconnect (link : EmbeddedCdcState) : EmbeddedCdcState := link.endSession

def isConnected (link : EmbeddedCdcState) : Bool :=
  link.hostConnected && link.stage = .protocolReady

def devicePresent (link : EmbeddedCdcState) : Bool := link.stage ≠ .detached

def protocolReady (link : EmbeddedCdcState) : Bool := link.stage = .protocolReady

/-- Whether the bytes were taken. -/
def writeFromHost (link : EmbeddedCdcState) (bytes : List U8) : EmbeddedCdcState × Bool :=
  if !link.hostConnected || link.stage ≠ .protocolReady then (link, false)
  else ({ link with hostToDevice := pushCapped link.hostToDevice bytes link.maxBufferedBytes },
    true)

/-- The read itself, after any wait for something to read. -/
def readForHost (link : EmbeddedCdcState) (target : ℕ) : EmbeddedCdcState × List U8 :=
  let count := min target link.deviceToHost.length
  ({ link with deviceToHost := link.deviceToHost.drop count }, link.deviceToHost.take count)

def attachDevice (link : EmbeddedCdcState) : EmbeddedCdcState :=
  { link with stage := .devicePresent }

/-- A detached link stays detached; a stage in which the protocol is not ready ends the session. -/
def setProtocolStage (link : EmbeddedCdcState) (stage : EmbeddedCdcStage) : EmbeddedCdcState :=
  let link := { link with stage := if link.stage = .detached then .detached else stage }
  if link.stage ≠ .protocolReady then link.endSession else link

def detachDevice (link : EmbeddedCdcState) : EmbeddedCdcState :=
  { link with stage := .detached }.endSession

/-- Without a host the bytes are lost. -/
def writeFromDevice (link : EmbeddedCdcState) (bytes : List U8) : EmbeddedCdcState :=
  if !link.hostConnected then link
  else { link with deviceToHost := pushCapped link.deviceToHost bytes link.maxBufferedBytes }

def readForDevice (link : EmbeddedCdcState) (maximum : ℕ) : EmbeddedCdcState × List U8 :=
  let count := min maximum link.hostToDevice.length
  ({ link with hostToDevice := link.hostToDevice.drop count }, link.hostToDevice.take count)

end EmbeddedCdcState

/-! ## Operations in any order -/

/-- The operations of the host and of the device. -/
inductive LinkOp where
  | connect
  | disconnect
  | writeFromHost (bytes : List U8)
  | readForHost (target : ℕ)
  | attachDevice
  | setProtocolStage (stage : EmbeddedCdcStage)
  | detachDevice
  | writeFromDevice (bytes : List U8)
  | readForDevice (maximum : ℕ)
  deriving DecidableEq, Repr

/-- What an operation returns: whether it succeeded, and the bytes that it read. -/
structure LinkReply where
  ok : Bool
  bytes : List U8
  deriving DecidableEq, Repr

def linkStep (link : EmbeddedCdcState) : LinkOp → EmbeddedCdcState × LinkReply
  | .connect => (link.connect.1, ⟨link.connect.2, []⟩)
  | .disconnect => (link.disconnect, ⟨true, []⟩)
  | .writeFromHost bytes => ((link.writeFromHost bytes).1, ⟨(link.writeFromHost bytes).2, []⟩)
  | .readForHost target => ((link.readForHost target).1, ⟨true, (link.readForHost target).2⟩)
  | .attachDevice => (link.attachDevice, ⟨true, []⟩)
  | .setProtocolStage stage => (link.setProtocolStage stage, ⟨true, []⟩)
  | .detachDevice => (link.detachDevice, ⟨true, []⟩)
  | .writeFromDevice bytes => (link.writeFromDevice bytes, ⟨true, []⟩)
  | .readForDevice maximum =>
    ((link.readForDevice maximum).1, ⟨true, (link.readForDevice maximum).2⟩)

/-- The relation of the operations. -/
def linkRel (link : EmbeddedCdcState) (op : LinkOp) (link' : EmbeddedCdcState) : Prop :=
  (linkStep link op).1 = link'

/-! ## The state of the link -/

/-- Only a host of a ready protocol is connected, and without a host nothing is queued. -/
structure LinkInvariant (link : EmbeddedCdcState) : Prop where
  ready : link.hostConnected = true → link.stage = .protocolReady
  empty : link.hostConnected = false → link.hostToDevice = [] ∧ link.deviceToHost = []

namespace LinkInvariant

open EmbeddedCdcState

variable {link : EmbeddedCdcState}

lemma new : LinkInvariant EmbeddedCdcState.new := ⟨by decide, by decide⟩

lemma endSession (link : EmbeddedCdcState) : LinkInvariant link.endSession :=
  ⟨fun h => absurd h Bool.false_ne_true, fun _ => ⟨rfl, rfl⟩⟩

lemma setProtocolStage (h : LinkInvariant link) (stage : EmbeddedCdcStage) :
    LinkInvariant (link.setProtocolStage stage) := by
  unfold EmbeddedCdcState.setProtocolStage
  generalize (if link.stage = .detached then EmbeddedCdcStage.detached else stage) = next
  by_cases hready : next = .protocolReady
  · rw [if_neg (not_not.mpr hready)]
    exact ⟨fun _ => hready, h.empty⟩
  · rw [if_pos hready]
    exact endSession _

/-- Attaching a device keeps the link in order exactly when no host is connected. -/
lemma attachDevice_iff (h : LinkInvariant link) :
    LinkInvariant link.attachDevice ↔ link.hostConnected = false := by
  constructor
  · intro h'
    rw [← Bool.not_eq_true]
    intro hconnected
    have hready : EmbeddedCdcStage.devicePresent = .protocolReady := h'.ready hconnected
    cases hready
  · intro hdisconnected
    exact ⟨fun hconnected => absurd
      (hdisconnected.symm.trans hconnected) Bool.false_ne_true, h.empty⟩

/-- Every operation keeps the link in order, but for an attachment to a connected link. -/
lemma step_iff (h : LinkInvariant link) (op : LinkOp) :
    LinkInvariant (linkStep link op).1 ↔ (op = .attachDevice → link.hostConnected = false) := by
  -- an operation that moves queued bytes only, and only while a host is connected
  have hqueues : ∀ toDevice toHost, (link.hostConnected = false →
      toDevice = link.hostToDevice ∧ toHost = link.deviceToHost) →
      LinkInvariant { link with hostToDevice := toDevice, deviceToHost := toHost } := by
    intro toDevice toHost hsame
    refine ⟨h.ready, fun hdisconnected => ?_⟩
    obtain ⟨rfl, rfl⟩ := hsame hdisconnected
    exact h.empty hdisconnected
  cases op with
  | attachDevice => simpa [linkStep] using h.attachDevice_iff
  | connect =>
    refine iff_of_true ?_ nofun
    simp only [linkStep, connect]
    split
    · exact h
    · next hready =>
      rw [not_not] at hready
      exact ⟨fun _ => hready, fun _ => ⟨rfl, rfl⟩⟩
  | disconnect => exact iff_of_true (endSession _) nofun
  | setProtocolStage stage => exact iff_of_true (h.setProtocolStage stage) nofun
  | detachDevice => exact iff_of_true (endSession _) nofun
  | writeFromHost bytes =>
    refine iff_of_true ?_ nofun
    simp only [linkStep, writeFromHost]
    split
    · exact h
    · next hok =>
      refine hqueues _ _ fun hdisconnected => ?_
      simp [hdisconnected] at hok
  | writeFromDevice bytes =>
    refine iff_of_true ?_ nofun
    simp only [linkStep, writeFromDevice]
    split
    · exact h
    · next hok =>
      refine hqueues _ _ fun hdisconnected => ?_
      simp [hdisconnected] at hok
  | readForHost target =>
    refine iff_of_true (hqueues _ _ fun hdisconnected => ⟨rfl, ?_⟩) nofun
    rw [(h.empty hdisconnected).2, List.drop_nil]
  | readForDevice maximum =>
    refine iff_of_true (hqueues _ _ fun hdisconnected => ⟨?_, rfl⟩) nofun
    rw [(h.empty hdisconnected).1, List.drop_nil]

/-- Before the protocol is ready there is nothing for the device to read. -/
lemma readForDevice_eq_nil (h : LinkInvariant link) (hstage : link.stage ≠ .protocolReady)
    (maximum : ℕ) : (link.readForDevice maximum).2 = [] := by
  have hdisconnected : link.hostConnected = false := by
    rw [← Bool.not_eq_true]
    exact fun hconnected => hstage (h.ready hconnected)
  simp [readForDevice, (h.empty hdisconnected).1]

end LinkInvariant

/-- The device is only attached while no host is connected. -/
def AttachesIdle (link : EmbeddedCdcState) (op : LinkOp) : Prop :=
  op = .attachDevice → link.hostConnected = false

instance (link : EmbeddedCdcState) (op : LinkOp) : Decidable (AttachesIdle link op) :=
  inferInstanceAs (Decidable (_ → _))

/-- **The link stays in order.**  In every run without an attachment to a connected link the link is
in order throughout, and a device that has not enumerated reads nothing; and the next operation
keeps the link in order exactly when it is no such attachment either. -/
theorem link_in_order (ops : List LinkOp) (link : EmbeddedCdcState)
    (hrun : Run (guardedStep AttachesIdle linkRel) EmbeddedCdcState.new ops link) :
    LinkInvariant link ∧ (link.stage ≠ .protocolReady →
      ∀ maximum, (link.readForDevice maximum).2 = []) ∧
      ∀ op, LinkInvariant (linkStep link op).1 ↔ AttachesIdle link op := by
  have hinv : LinkInvariant link := by
    refine hrun.invariant_state LinkInvariant.new ?_
    rintro s s' op h ⟨hidle, rfl⟩
    exact (h.step_iff op).mpr hidle
  exact ⟨hinv, fun hstage => hinv.readForDevice_eq_nil hstage, hinv.step_iff⟩

/-- A host connects, writes a byte and leaves again; then the device is attached once more. -/
theorem link_in_order_sample :
    ∃ ops link, Run (guardedStep AttachesIdle linkRel) EmbeddedCdcState.new ops link ∧
      ops.count .attachDevice = 2 ∧ link.stage = .devicePresent ∧ LinkInvariant link ∧
      (link.readForDevice 64).2 = [] := by
  have hrun : Run (guardedStep AttachesIdle linkRel) EmbeddedCdcState.new [.attachDevice] _ :=
    Run.single ⟨by decide, rfl⟩
  have hrun := hrun.snoc (a := .setProtocolStage .protocolReady) ⟨by decide, rfl⟩
  have hrun := hrun.snoc (a := .connect) ⟨by decide, rfl⟩
  have hrun := hrun.snoc (a := .writeFromHost [1]) ⟨by decide, rfl⟩
  have hrun := hrun.snoc (a := .disconnect) ⟨by decide, rfl⟩
  have hrun := hrun.snoc (a := .attachDevice) ⟨by decide, rfl⟩
  obtain ⟨hinv, hread, -⟩ := link_in_order _ _ hrun
  exact ⟨_, _, hrun, by decide, by decide, hinv, hread (by decide) 64⟩

/-- The device is attached again while the host is connected, and reads a byte of the old
session. -/
theorem reattached_device_reads_old_byte :
    let link :=
      [LinkOp.attachDevice, .setProtocolStage .protocolReady, .connect, .writeFromHost [1],
        .attachDevice].foldl (fun link op => (linkStep link op).1) EmbeddedCdcState.new
    link.hostConnected = true ∧ link.stage = .devicePresent ∧ (link.readForDevice 64).2 = [1] ∧
      ¬ LinkInvariant link := by
  refine ⟨by decide, by decide, by decide, fun h => ?_⟩
  have := h.ready (by decide)
  revert this
  decide

end Stm32Emulator
