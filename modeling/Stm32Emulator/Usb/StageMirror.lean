import Stm32Emulator.Cdc.TcpBridge
import Stm32Emulator.Usb.VirtualHost

/-!
# The stage that the host sees

With an embedded link the stage of the link follows the enumeration of the device.  The controller
tells the link of resets, of steps of the virtual host, and of the first unmasking of its
interrupts.  The last of these does not look at the step, so that firmware that masks and unmasks
its interrupts leaves the link behind.
-/

namespace Stm32Emulator

open OtgFs Function

/-! ## The stage of the link -/

namespace UsbCdcTcp

def stage (bridge : UsbCdcTcp) : Option EmbeddedCdcStage :=
  bridge.embedded.map EmbeddedCdcState.stage

lemma stage_pushFromDevice (bytes : List U8) (bridge : UsbCdcTcp) :
    (bridge.pushFromDevice bytes).stage = bridge.stage := by
  unfold pushFromDevice stage
  cases bridge.embedded with
  | none => rfl
  | some link =>
    simp only [EmbeddedCdcState.writeFromDevice, Option.map_some]
    split <;> rfl

lemma stage_takeForDevice (maximum : ℕ) (bridge : UsbCdcTcp) :
    (bridge.takeForDevice maximum).2.stage = bridge.stage := by
  unfold takeForDevice stage
  cases bridge.embedded <;> rfl

/-- A detached link stays detached, and another one takes the stage it is told. -/
lemma stage_setProtocolStage (next : EmbeddedCdcStage) (bridge : UsbCdcTcp) :
    (bridge.setProtocolStage next).stage =
      bridge.stage.map fun stage => if stage = .detached then .detached else next := by
  unfold setProtocolStage stage
  cases bridge.embedded with
  | none => rfl
  | some link =>
    simp only [Option.map_some, EmbeddedCdcState.setProtocolStage]
    generalize (if link.stage = .detached then EmbeddedCdcStage.detached else next) = stage
    split <;> rfl

lemma stage_poll (bridge : UsbCdcTcp) (io : SocketScript) (h : bridge.embedded.isSome) :
    (bridge.poll io).1 = bridge := by
  unfold poll
  rw [if_pos h]

end UsbCdcTcp

/-- The host does not change the stage. -/
lemma stage_hostMove (move : HostMove) {bridge : UsbCdcTcp} (h : bridge.embedded.isSome) :
    (hostMove move bridge).stage = bridge.stage := by
  obtain ⟨link, hlink⟩ := Option.isSome_iff_exists.mp h
  cases move with
  | poll io => rw [hostMove, UsbCdcTcp.stage_poll bridge io h]
  | connect =>
    simp only [hostMove, UsbCdcTcp.stage, hlink, Option.map_some, EmbeddedCdcState.connect]
    split <;> rfl
  | disconnect => simp only [hostMove, UsbCdcTcp.stage, hlink, Option.map_some]; rfl
  | writeFromHost bytes =>
    simp only [hostMove, UsbCdcTcp.stage, hlink, Option.map_some, EmbeddedCdcState.writeFromHost]
    split <;> rfl
  | readForHost target => simp only [hostMove, UsbCdcTcp.stage, hlink, Option.map_some]; rfl

/-! ## The mirror -/

/-- The controller and its bridge, and whether the bus has been reset. -/
abbrev MirrorState := UsbState UsbCdcTcp × Bool

/-- The action resets the bus. -/
def resetsBus (s : UsbState UsbCdcTcp) : UsbAction HostMove → Bool
  | .busReset => true
  | .poll nvic _ => s.1.attaches s.2 (nvic.isEnabled 67)
  | _ => false

def mirrorStep : MirrorState → UsbAction HostMove → Option MirrorState :=
  withGhost (usbStep hostMove) fun wasReset s a => wasReset || resetsBus s a

/-- The link is ready exactly when the device is configured, and after a reset its stage is that of
the step of the virtual host. -/
def Mirrors (p : MirrorState) : Prop :=
  ∃ link, p.1.2.embedded = some link ∧
    (link.protocolReady = true ↔ p.1.1.isConfigured = true) ∧
    (p.2 = true → link.stage = p.1.1.virtualHostStep.stage)

/-- The interrupts are unmasked only before the first reset and while the device is not
configured. -/
def UnmasksEarly (p : MirrorState) : UsbAction HostMove → Prop
  | .write offset value =>
    offset = gintmsk → p.1.1.globalInterruptMask = 0#32 → value ≠ 0#32 →
      p.2 = false ∧ p.1.1.isConfigured = false
  | _ => True

instance (p : MirrorState) (a : UsbAction HostMove) : Decidable (UnmasksEarly p a) := by
  cases a <;> unfold UnmasksEarly <;> infer_instance

/-- The mirror in terms of the stage of a link that a device is attached to. -/
structure MirrorInvariant (otg : OtgFs UsbCdcTcp) (d : UsbCdcTcp) (wasReset : Bool) : Prop where
  bridge : otg.bridge = some UsbCdcTcp.usbBridge
  mirrored : ∃ stage, d.stage = some stage ∧ stage ≠ .detached ∧
    (stage = .protocolReady ↔ otg.isConfigured = true) ∧
    (wasReset = true → stage = otg.virtualHostStep.stage)

lemma isConfigured_iff (otg : OtgFs UsbCdcTcp) :
    otg.isConfigured = true ↔ otg.virtualHostStep = .configured := by
  simp [isConfigured]

lemma VirtualHostStep.stage_eq_protocolReady_iff (step : VirtualHostStep) :
    step.stage = .protocolReady ↔ step = .configured := by
  cases step <;> decide

lemma VirtualHostStep.stage_ne_detached (step : VirtualHostStep) : step.stage ≠ .detached := by
  cases step <;> decide

namespace MirrorInvariant

variable {otg otg' : OtgFs UsbCdcTcp} {d d' : UsbCdcTcp} {wasReset : Bool}

lemma embedded (h : MirrorInvariant otg d wasReset) : d.embedded.isSome := by
  obtain ⟨stage, hstage, -⟩ := h.mirrored
  obtain ⟨link, hlink, -⟩ := Option.map_eq_some_iff.mp hstage
  rw [hlink]
  rfl

/-- The mirror as the host and the device see it. -/
lemma mirrors (h : MirrorInvariant otg d wasReset) : Mirrors ((otg, d), wasReset) := by
  obtain ⟨stage, hstage, -, hready, hreset⟩ := h.mirrored
  obtain ⟨link, hlink, rfl⟩ := Option.map_eq_some_iff.mp hstage
  exact ⟨link, hlink, by simpa [EmbeddedCdcState.protocolReady] using hready, hreset⟩

/-- Neither the step nor the stage changes. -/
lemma same (h : MirrorInvariant otg d wasReset) (hbridge : otg'.bridge = otg.bridge)
    (hstep : otg'.virtualHostStep = otg.virtualHostStep) (hstage : d'.stage = d.stage) :
    MirrorInvariant otg' d' wasReset := by
  obtain ⟨stage, hstage', hattached, hready, hreset⟩ := h.mirrored
  refine ⟨hbridge.trans h.bridge, stage, hstage.trans hstage', hattached, ?_, ?_⟩
  · rwa [isConfigured_iff, hstep, ← isConfigured_iff]
  · rwa [hstep]

/-- The link is told the stage of the step that the controller takes. -/
lemma told (h : MirrorInvariant otg d wasReset) {step : VirtualHostStep} (wasReset' : Bool)
    (hbridge : otg'.bridge = otg.bridge) (hstep : otg'.virtualHostStep = step)
    (hd : d' = d.setProtocolStage step.stage) : MirrorInvariant otg' d' wasReset' := by
  obtain ⟨stage, hstage, hattached, -⟩ := h.mirrored
  refine ⟨hbridge.trans h.bridge, step.stage, ?_, step.stage_ne_detached, ?_, fun _ => ?_⟩
  · rw [hd, UsbCdcTcp.stage_setProtocolStage, hstage, Option.map_some, if_neg hattached]
  · rw [isConfigured_iff, hstep]
    exact step.stage_eq_protocolReady_iff
  · rw [hstep]

/-- The virtual host takes a step. -/
lemma advance (h : MirrorInvariant otg d wasReset) (hbridge : otg'.bridge = otg.bridge)
    (hstep : otg'.virtualHostStep = otg.virtualHostStep.next) (hd : d' = otg.stageAfterAdvance d) :
    MirrorInvariant otg' d' wasReset := by
  rw [stageAfterAdvance, h.bridge] at hd
  by_cases hnext : otg.virtualHostStep.next = otg.virtualHostStep
  · have hd : d' = d := by simpa [hnext] using hd
    exact h.same hbridge (hstep.trans hnext) (by rw [hd])
  · have hd : d' = d.setProtocolStage otg.virtualHostStep.next.stage := by
      simpa [hnext, UsbCdcTcp.usbBridge] using hd
    exact h.told wasReset hbridge hstep hd

lemma reset (h : MirrorInvariant otg d wasReset) (hbridge : otg'.bridge = otg.bridge) :
    MirrorInvariant (otg'.virtualHostReset d).1 (otg'.virtualHostReset d).2 true := by
  have hd : (otg'.virtualHostReset d).2 = d.setProtocolStage .awaitingDeviceDescriptor := by
    simp only [virtualHostReset, hbridge, h.bridge]
    rfl
  exact h.told true hbridge rfl hd

lemma completeInTransfer (h : MirrorInvariant otg d wasReset) (ep : Fin numEndpoints) :
    MirrorInvariant (otg.completeInTransfer d ep).1 (otg.completeInTransfer d ep).2 wasReset := by
  by_cases hep : ep = 0
  · subst hep
    obtain ⟨_, ⟨_, _, rfl⟩, heq⟩ := completeInTransfer_zero otg d
    rw [heq]
    exact h.advance rfl rfl rfl
  · obtain ⟨_, _, d', heq, hd⟩ := completeInTransfer_of_ne otg d hep
    rw [heq]
    refine h.same rfl rfl ?_
    rcases hd with rfl | ⟨-, -, bridge, bytes, hbridge, rfl⟩
    · rfl
    · rw [h.bridge] at hbridge
      cases hbridge
      exact UsbCdcTcp.stage_pushFromDevice bytes d

lemma forwardBulkOut (h : MirrorInvariant otg d wasReset) :
    MirrorInvariant (otg.forwardBulkOut d).1 (otg.forwardBulkOut d).2 wasReset := by
  by_cases hready : ∃ ep bridge, otg.ReadyOut ep bridge
  · obtain ⟨ep, bridge, hready⟩ := hready
    have hbridge := hready.bridge
    rw [h.bridge] at hbridge
    cases hbridge
    rw [forwardBulkOut_of_ready hready]
    refine h.same ?_ ?_ (UsbCdcTcp.stage_takeForDevice _ d)
    · split <;> rfl
    · split <;> rfl
  · rw [forwardBulkOut_of_not_ready fun ep bridge hr => hready ⟨ep, bridge, hr⟩]
    exact h

lemma poll (h : MirrorInvariant otg d wasReset) {nvic : Nvic} {n : ℕ}
    {r : OtgFs UsbCdcTcp × UsbCdcTcp × Nvic} (hpoll : otg.poll d nvic n = some r) :
    MirrorInvariant r.1 r.2.1 (wasReset || otg.attaches d (nvic.isEnabled 67)) := by
  rcases poll_cases hpoll with ⟨hattaches, status, last, hotg, hd⟩ | ⟨hnot, status, last, hotg, hd⟩
  · rw [hattaches, Bool.or_true, hotg, hd]
    have hreset : MirrorInvariant (otg.virtualHostReset d).1 (otg.virtualHostReset d).2 true :=
      h.reset rfl
    exact hreset.same rfl rfl rfl
  · rw [hnot, Bool.or_false, hotg, hd]
    exact forwardBulkOut (h.same rfl rfl rfl)

/-- The interrupts are unmasked: the mirror is kept exactly before the first reset of a device that
is not configured. -/
lemma unmask_iff (h : MirrorInvariant otg d wasReset) (hbridge : otg'.bridge = otg.bridge)
    (hstep : otg'.virtualHostStep = otg.virtualHostStep)
    (hd : d' = d.setProtocolStage .usbStarted) :
    MirrorInvariant otg' d' wasReset ↔ wasReset = false ∧ otg.isConfigured = false := by
  obtain ⟨stage, hstage, hattached, -⟩ := h.mirrored
  have hstage' : d'.stage = some .usbStarted := by
    rw [hd, UsbCdcTcp.stage_setProtocolStage, hstage, Option.map_some, if_neg hattached]
  constructor
  · rintro ⟨-, stage', heq, -, hready, hreset⟩
    cases hstage'.symm.trans heq
    constructor
    · rw [← Bool.not_eq_true]
      intro hwas
      have hmirror := hreset hwas
      cases hs : otg'.virtualHostStep <;> rw [hs] at hmirror <;> cases hmirror
    · rw [← Bool.not_eq_true, isConfigured_iff, ← hstep, ← isConfigured_iff, ← hready]
      decide
  · rintro ⟨rfl, hconfigured⟩
    refine ⟨hbridge.trans h.bridge, .usbStarted, hstage', by decide, ?_, nofun⟩
    rw [isConfigured_iff, hstep, ← isConfigured_iff, hconfigured]
    decide

/-- A register write keeps the mirror, unless it unmasks the interrupts too late. -/
lemma registerWrite_iff (h : MirrorInvariant otg d wasReset) {offset value : U32}
    {r : OtgFs UsbCdcTcp × UsbCdcTcp} (hwrite : otg.registerWrite d offset value = some r) :
    MirrorInvariant r.1 r.2 wasReset ↔ UnmasksEarly ((otg, d), wasReset) (.write offset value) := by
  have hwindow : fifoEndpoint gintmsk = none ∧ decodeEndpoint diepBase gintmsk = none ∧
      decodeEndpoint doepBase gintmsk = none := by decide
  cases registerWrite_cases hwrite with
  | @fifo ep _ hfifo hpush =>
    refine iff_of_true ?_ ?_
    · rw [pushTxFifoWord_eq_some hpush]
      have hpushed : MirrorInvariant (otg.pushed ep value) d wasReset := h.same rfl rfl rfl
      have hdisarmed : MirrorInvariant ((otg.pushed ep value).disarm ep) d wasReset :=
        hpushed.same rfl rfl rfl
      split
      · exact hdisarmed.completeInTransfer ep
      · exact hpushed
    · rintro rfl
      cases hwindow.1.symm.trans hfifo
  | @diepctl ep _ hdecode =>
    refine iff_of_true ?_ ?_
    · by_cases hempty : (value &&& diepctlEpena ≠ 0#32 ∧ ¬ otg.InArmed ep) ∧ otg.inXfrsiz ep = 0
      · have hdisarmed : MirrorInvariant ((otg.enabled ep value).disarm ep) d wasReset :=
          h.same rfl rfl rfl
        rw [writeDiepctl_of_empty hempty.1 hempty.2]
        exact hdisarmed.completeInTransfer ep
      · obtain ⟨f, heq, -⟩ := writeDiepctl_of_not_empty hempty d
        rw [heq]
        exact h.same rfl rfl rfl
    · rintro rfl
      cases hwindow.2.1.symm.trans hdecode
  | diep _ hdecode =>
    refine iff_of_true (h.same rfl rfl rfl) ?_
    rintro rfl
    cases hwindow.2.1.symm.trans hdecode
  | @doepctl ep _ _ hdecode =>
    refine iff_of_true ?_ ?_
    · obtain ⟨_, _, heq⟩ := queuesOnly_writeDoepctl otg ep value
      rw [heq]
      exact h.same rfl rfl rfl
    · rintro rfl
      cases hwindow.2.2.symm.trans hdecode
  | doep _ _ hdecode =>
    refine iff_of_true (h.same rfl rfl rfl) ?_
    rintro rfl
    cases hwindow.2.2.symm.trans hdecode
  | global hfifo hdiep hdoep hframe =>
    rcases registerWrite_global hwrite hfifo hdiep hdoep with
      ⟨rfl, heq⟩ | ⟨hne, -, heq⟩ | ⟨hne, -, hd, -, -, -, -⟩
    · cases heq
      by_cases hunmasks : otg.globalInterruptMask = 0#32 ∧ value ≠ 0#32
      · have hd : otg.stageAfterGintmsk d value = d.setProtocolStage .usbStarted := by
          simp only [stageAfterGintmsk, h.bridge, if_pos hunmasks]
          rfl
        refine (h.unmask_iff ?_ ?_ hd).trans ?_
        · rfl
        · rfl
        · exact ⟨fun hearly _ _ _ => hearly, fun hearly => hearly rfl hunmasks.1 hunmasks.2⟩
      · have hd : otg.stageAfterGintmsk d value = d := by
          simp only [stageAfterGintmsk, h.bridge, if_neg hunmasks]
        exact iff_of_true (h.same rfl rfl (by rw [hd]))
          fun _ hmask hvalue => absurd ⟨hmask, hvalue⟩ hunmasks
    · cases heq
      exact iff_of_true (h.same rfl rfl rfl) fun heq => absurd heq hne
    · exact iff_of_true (h.same hframe.bridge hframe.virtualHostStep (by rw [hd]))
        fun heq => absurd heq hne

/-- **One action keeps the mirror** exactly when it does not unmask the interrupts too late. -/
lemma step_iff {p p' : MirrorState} {a : UsbAction HostMove} (h : MirrorInvariant p.1.1 p.1.2 p.2)
    (hstep : mirrorStep p a = some p') :
    MirrorInvariant p'.1.1 p'.1.2 p'.2 ↔ UnmasksEarly p a := by
  rcases p with ⟨⟨otg, d⟩, wasReset⟩
  rcases p' with ⟨⟨otg', d'⟩, wasReset'⟩
  obtain ⟨hstep, rfl⟩ := withGhost_eq_some.mp hstep
  dsimp only at h hstep ⊢
  cases a with
  | write offset value =>
    simp only [resetsBus, Bool.or_false]
    exact h.registerWrite_iff hstep
  | read offset =>
    obtain ⟨r, hread, heq⟩ := Option.map_eq_some_iff.mp hstep
    cases heq
    simp only [resetsBus, Bool.or_false]
    refine iff_of_true ?_ trivial
    rcases registerRead_cases hread with ⟨-, rfl⟩ | ⟨-, -, hpop⟩ | ⟨-, -, hsame⟩
    · exact h.same rfl rfl rfl
    · obtain ⟨-, epOut, heq⟩ := popRxStatus_eq_some hpop
      rw [heq]
      exact h.same rfl rfl rfl
    · rw [hsame]
      exact h
  | poll nvic n =>
    obtain ⟨r, hpoll, heq⟩ := Option.map_eq_some_iff.mp hstep
    cases heq
    exact iff_of_true (h.poll hpoll) trivial
  | busReset =>
    cases hstep
    simp only [resetsBus, Bool.or_true]
    exact iff_of_true (h.reset rfl) trivial
  | setup ep packet =>
    cases hstep
    simp only [resetsBus, Bool.or_false]
    exact iff_of_true (h.same rfl rfl rfl) trivial
  | controlOut ep packet data =>
    cases hstep
    obtain ⟨_, _, heq⟩ := queuesOnly_virtualHostControlOut otg ep packet.1 data.1
    simp only [resetsBus, Bool.or_false, heq]
    exact iff_of_true (h.same rfl rfl rfl) trivial
  | outside move =>
    cases hstep
    simp only [resetsBus, Bool.or_false]
    exact iff_of_true (h.same rfl rfl (stage_hostMove move h.embedded)) trivial

end MirrorInvariant

/-- A controller on a bridge that has been created on a pending link. -/
def mirrorPowerOn (bridge : UsbCdcTcp) : MirrorState :=
  ((OtgFs.new (some UsbCdcTcp.usbBridge), bridge), false)

/-- **The link mirrors the device.**  In every run, from a bridge on any pending link, that does not
unmask the interrupts after a reset or of a configured device, the link is ready exactly when the
device is configured, and after a reset its stage is that of the step of the virtual host; and the
next action keeps the mirror exactly when it is no such write either. -/
theorem link_mirrors_device (maxBufferedBytes : ℕ) (link : EmbeddedCdcState) (bridge : UsbCdcTcp)
    (hnew : UsbCdcTcp.new maxBufferedBytes (some link) = some bridge)
    (as : List (UsbAction HostMove)) (p : MirrorState)
    (hrun : Run (guardedStep UnmasksEarly (stepRel mirrorStep)) (mirrorPowerOn bridge) as p) :
    Mirrors p ∧ ∀ a p', mirrorStep p a = some p' →
      (MirrorInvariant p'.1.1 p'.1.2 p'.2 ↔ UnmasksEarly p a) := by
  have hinit : MirrorInvariant (OtgFs.new (some UsbCdcTcp.usbBridge)) bridge false := by
    unfold UsbCdcTcp.new at hnew
    split at hnew
    · cases hnew
    · cases hnew
      exact ⟨rfl, .devicePresent, rfl, by decide, by decide, nofun⟩
  have hinv : MirrorInvariant p.1.1 p.1.2 p.2 := by
    refine hrun.invariant_state (I := fun p => MirrorInvariant p.1.1 p.1.2 p.2) hinit ?_
    rintro p p' a h ⟨hearly, hstep⟩
    exact (h.step_iff hstep).mpr hearly
  exact ⟨hinv.mirrors, fun a p' hstep => hinv.step_iff hstep⟩

/-- A bridge on a new link. -/
def linkedBridge : UsbCdcTcp :=
  ⟨65536, some EmbeddedCdcState.new.attachDevice, none, none,
    UsbCdcTcp.defaultStaleClientGracePeriod, [], []⟩

/-- Firmware unmasks its interrupts, the bus is reset, and firmware ends the five requests. -/
def sampleEnumeration : List (UsbAction HostMove) :=
  [.write 0x18 0x10, .busReset] ++ List.replicate 5 (.write 0x900 0x80000000)

/-- The link is ready, and the device is configured. -/
theorem link_mirrors_device_sample :
    ∃ p, Run (guardedStep UnmasksEarly (stepRel mirrorStep))
      (mirrorPowerOn linkedBridge) sampleEnumeration p ∧
      p.1.1.isConfigured = true ∧ Mirrors p := by
  have hexec : (execGuarded UnmasksEarly mirrorStep (mirrorPowerOn linkedBridge)
      sampleEnumeration).map (fun p => p.1.1.isConfigured) = some true := by
    decide +kernel
  obtain ⟨p, hexec, hconfigured⟩ := Option.map_eq_some_iff.mp hexec
  have hrun := Run.of_execGuarded hexec
  have hmirrors := link_mirrors_device 65536 EmbeddedCdcState.new _ (by decide) _ _ hrun
  exact ⟨p, hrun, hconfigured, hmirrors.1⟩

/-- Firmware masks and unmasks the interrupts of a configured device. -/
def sampleRemask : List (UsbAction HostMove) :=
  sampleEnumeration ++ [.write 0x18 0, .write 0x18 0x10]

/-- The link is not ready although the device is configured. -/
theorem remasked_link_not_ready :
    ∃ p link, Run (stepRel mirrorStep) (mirrorPowerOn linkedBridge) sampleRemask p ∧
      p.1.2.embedded = some link ∧ p.1.1.isConfigured = true ∧ link.stage = .usbStarted ∧
      ¬ Mirrors p := by
  have hexec : (execGuarded (fun _ _ => True) mirrorStep (mirrorPowerOn linkedBridge)
      sampleRemask).map (fun p => (p.1.1.isConfigured, p.1.2.embedded.map (·.stage)))
        = some (true, some .usbStarted) := by
    decide +kernel
  obtain ⟨p, hexec, hvalues⟩ := Option.map_eq_some_iff.mp hexec
  obtain ⟨hconfigured, hstage⟩ := Prod.mk.inj hvalues
  obtain ⟨link, hlink, hstage⟩ := Option.map_eq_some_iff.mp hstage
  refine ⟨p, link, (Run.of_execGuarded hexec).mono fun _ _ _ h => h.2, hlink,
    hconfigured, hstage, ?_⟩
  rintro ⟨link', hlink', hready, -⟩
  cases hlink.symm.trans hlink'
  have hready := hready.mpr hconfigured
  rw [EmbeddedCdcState.protocolReady, hstage] at hready
  cases hready

end Stm32Emulator
