import Mathlib.Data.List.ReduceOption
import Stm32Emulator.Embedded.RunEmbedded

/-!
# Sessions of the embedded emulator

However the threads of the host interleave, there is one emulator at a time, and the statics and
links are its own: what the registries hold is the link of the call in progress, the devices on
links hold no other, and without a call the registries are empty and all links are detached.  A
device is therefore only ever attached to a link that nobody is connected to, so that every link
stays in order.
-/

namespace Stm32Emulator

namespace Embedded

variable {L E ι : Type}

/-! ## One registry -/

/-- What the registry of a call holds: at most the link of the call, as far as its point allows.
Once a device has the link, it is no longer pending. -/
structure Registered (r : LinkRegistry L) (own : Option L) (devices : List (Option L))
    (pends finds : Bool) : Prop where
  pending : r.pending = none ∨ pends = true ∧ r.pending = own
  active : r.active = none ∨ finds = true ∧ r.active = own
  attached : devices.reduceOption = [] ∨ r.pending = none ∧ devices.reduceOption = own.toList

namespace Registered

variable {r : LinkRegistry L} {own : Option L} {devices : List (Option L)} {pends finds : Bool}

lemma empty (own : Option L) (pends finds : Bool) : Registered .empty own [] pends finds :=
  ⟨Or.inl rfl, Or.inl rfl, Or.inl rfl⟩

lemma mono {pends' finds' : Bool} (h : Registered r own devices pends finds)
    (hpends : pends = true → pends' = true) (hfinds : finds = true → finds' = true) :
    Registered r own devices pends' finds' :=
  ⟨h.pending.imp_right fun hp => ⟨hpends hp.1, hp.2⟩, h.active.imp_right fun hf =>
    ⟨hfinds hf.1, hf.2⟩, h.attached⟩

/-- A registry in which nothing may be is empty. -/
lemma eq_empty (h : Registered r own devices false false) : r = .empty := by
  have hpending : r.pending = none :=
    h.pending.resolve_right fun hp => absurd hp.1 Bool.false_ne_true
  have hactive : r.active = none := h.active.resolve_right fun hf => absurd hf.1 Bool.false_ne_true
  rcases r with ⟨pending, active⟩
  obtain rfl : pending = none := hpending
  obtain rfl : active = none := hactive
  rfl

lemma installPending (h : Registered r own [] pends finds) :
    Registered (r.installPending own) own [] true finds := by
  rcases own with _ | link
  · exact h.mono (fun _ => rfl) id
  · exact ⟨Or.inr ⟨rfl, rfl⟩, h.active, Or.inl rfl⟩

lemma installActive (h : Registered r own devices pends finds) :
    Registered (r.installActive own) own devices pends true := by
  rcases own with _ | link
  · exact h.mono id fun _ => rfl
  · exact ⟨h.pending, Or.inr ⟨rfl, rfl⟩, h.attached⟩

/-- A taken link is the own one, and a device on it is the first. -/
lemma taken (h : Registered r own devices pends finds) {link : L}
    (hpending : r.pending = some link) :
    own = some link ∧ devices.reduceOption = [] ∧
      Registered r.takePendingDeviceLink.1 own (devices ++ [some link]) pends finds := by
  have hown : own = some link := by
    rcases h.pending with hnone | ⟨-, hsome⟩
    · exact absurd (hnone.symm.trans hpending) (Option.some_ne_none link).symm
    · exact hsome.symm.trans hpending
  have hnone : devices.reduceOption = [] := by
    rcases h.attached with hnone | ⟨hpending', -⟩
    · exact hnone
    · exact absurd (hpending'.symm.trans hpending) (Option.some_ne_none link).symm
  refine ⟨hown, hnone, Or.inl rfl, h.active, Or.inr ⟨rfl, ?_⟩⟩
  rw [List.reduceOption_append, hnone, hown]
  rfl

/-- A device on a socket is of no concern. -/
lemma onSocket (h : Registered r own devices pends finds) :
    Registered r.takePendingDeviceLink.1 own (devices ++ [none]) pends finds := by
  refine ⟨Or.inl rfl, h.active, ?_⟩
  have hdevices : (devices ++ [none]).reduceOption = devices.reduceOption := by
    rw [List.reduceOption_append]
    exact List.append_nil _
  rw [hdevices]
  exact h.attached.imp_right fun hattached => ⟨rfl, hattached.2⟩

/-- A link that was taken and is let go again. -/
lemma letGo (h : Registered r own devices pends finds) :
    Registered r.takePendingDeviceLink.1 own devices pends finds :=
  ⟨Or.inl rfl, h.active, h.attached.imp_right fun hattached => ⟨rfl, hattached.2⟩⟩

/-- Whatever the registry holds is the own link. -/
lemma holdsOwn (h : Registered r own devices pends finds) (link : L)
    (hlink : r.pending = some link ∨ r.active = some link) : own = some link := by
  rcases hlink with hpending | hactive
  · rcases h.pending with hnone | ⟨-, hown⟩
    · exact absurd (hnone.symm.trans hpending) (Option.some_ne_none link).symm
    · exact hown.symm.trans hpending
  · rcases h.active with hnone | ⟨-, hown⟩
    · exact absurd (hnone.symm.trans hactive) (Option.some_ne_none link).symm
    · exact hown.symm.trans hactive

/-- A pending link has no device yet. -/
lemma not_attached (h : Registered r own devices pends finds) {link : L}
    (hpending : r.pending = some link) :
    some link ∉ devices := by
  intro hmem
  rcases h.attached with hnone | ⟨hpending', -⟩
  · exact List.not_mem_nil (hnone ▸ List.reduceOption_mem_iff.mpr hmem)
  · exact absurd (hpending'.symm.trans hpending) (Option.some_ne_none link).symm

lemma dropped {device : Option L} (h : Registered r own (device :: devices) pends finds) :
    Registered r own devices pends finds := by
  refine ⟨h.pending, h.active, ?_⟩
  rcases device with _ | link
  · exact h.attached
  · rcases h.attached with hnone | ⟨-, hown⟩
    · cases hnone
    · -- the dropped device was the one on the link
      rcases own with _ | link'
      · cases hown
      · exact Or.inl (List.cons.inj hown).2

variable [DecidableEq L]

lemma clearActive (h : Registered r own devices pends finds) :
    Registered (r.clearActive own) own devices pends false := by
  rcases own with _ | link
  · exact ⟨h.pending, Or.inl (h.active.elim id And.right), h.attached⟩
  · unfold LinkRegistry.clearActive
    dsimp only
    split_ifs with hactive
    · exact ⟨h.pending, Or.inl rfl, h.attached⟩
    · exact ⟨h.pending, Or.inl (h.active.resolve_right fun hf => hactive hf.2), h.attached⟩

lemma clearPending (h : Registered r own devices pends finds) :
    Registered (r.clearPending own) own devices false finds := by
  rcases own with _ | link
  · exact ⟨Or.inl (h.pending.elim id And.right), h.active, h.attached⟩
  · unfold LinkRegistry.clearPending
    dsimp only
    split_ifs with hpending
    · exact ⟨Or.inl rfl, h.active, h.attached.imp_right fun hattached => ⟨rfl, hattached.2⟩⟩
    · exact ⟨Or.inl (h.pending.resolve_right fun hp => hpending hp.2), h.active, h.attached⟩

end Registered

/-! ## The links -/

/-- What a link of the ECU I/O device is without a device. -/
structure IdleLink (link : Ecu.EmbeddedEcuIoState) : Prop where
  absent : link.devicePresent = false
  outputs : link.outputs = fun _ => none
  outputEvents : link.outputEvents = []

/-- The links of the process, of which devices hold some. -/
structure LinksHeld (s : ProcessState L E) (cdcHeld : List L) (ecuIoHeld : List E) : Prop where
  inOrder : ∀ link, LinkInvariant (s.cdcLinks link)
  detached : ∀ link ∉ cdcHeld, (s.cdcLinks link).stage = .detached
  idle : ∀ link ∉ ecuIoHeld, IdleLink (s.ecuIoLinks link)

/-- Nobody is connected to a link that is detached. -/
lemma hostConnected_of_detached {link : EmbeddedCdcState} (h : LinkInvariant link)
    (hdetached : link.stage = .detached) : link.hostConnected = false := by
  rw [← Bool.not_eq_true]
  intro hconnected
  cases hdetached.symm.trans (h.ready hconnected)

/-- The host does not change the stage. -/
lemma stage_hostOp (link : EmbeddedCdcState) (op : HostLinkOp) :
    (linkStep link op.op).1.stage = link.stage := by
  cases op with
  | connect =>
    simp only [HostLinkOp.op, linkStep, EmbeddedCdcState.connect]
    split <;> rfl
  | disconnect => rfl
  | writeFromHost bytes =>
    simp only [HostLinkOp.op, linkStep, EmbeddedCdcState.writeFromHost]
    split <;> rfl
  | readForHost target => rfl

namespace LinksHeld

variable {s : ProcessState L E} {cdcHeld : List L} {ecuIoHeld : List E}

lemma modifyCdc [DecidableEq L] (h : LinksHeld s cdcHeld ecuIoHeld) {cdcHeld' : List L} (link : L)
    {f : EmbeddedCdcState → EmbeddedCdcState} (hinv : LinkInvariant (f (s.cdcLinks link)))
    (hstage : link ∉ cdcHeld' → (f (s.cdcLinks link)).stage = .detached)
    (hothers : ∀ other, other ≠ link → other ∈ cdcHeld → other ∈ cdcHeld') :
    LinksHeld (s.modifyCdc link f) cdcHeld' ecuIoHeld := by
  refine ⟨fun other => ?_, fun other hother => ?_, h.idle⟩
  · change LinkInvariant (Function.update s.cdcLinks link (f (s.cdcLinks link)) other)
    rcases eq_or_ne other link with rfl | hne
    · rwa [Function.update_self]
    · rw [Function.update_of_ne hne]
      exact h.inOrder other
  · change (Function.update s.cdcLinks link (f (s.cdcLinks link)) other).stage = _
    rcases eq_or_ne other link with rfl | hne
    · rw [Function.update_self]
      exact hstage hother
    · rw [Function.update_of_ne hne]
      exact h.detached other fun hheld => hother (hothers other hne hheld)

lemma modifyEcuIo [DecidableEq E] (h : LinksHeld s cdcHeld ecuIoHeld) {ecuIoHeld' : List E}
    (link : E) {f : Ecu.EmbeddedEcuIoState → Ecu.EmbeddedEcuIoState}
    (hidle : link ∉ ecuIoHeld' → IdleLink (f (s.ecuIoLinks link)))
    (hothers : ∀ other, other ≠ link → other ∈ ecuIoHeld → other ∈ ecuIoHeld') :
    LinksHeld (s.modifyEcuIo link f) cdcHeld ecuIoHeld' := by
  refine ⟨h.inOrder, h.detached, fun other hother => ?_⟩
  change IdleLink (Function.update s.ecuIoLinks link (f (s.ecuIoLinks link)) other)
  rcases eq_or_ne other link with rfl | hne
  · rw [Function.update_self]
    exact hidle hother
  · rw [Function.update_of_ne hne]
    exact h.idle other fun hheld => hother (hothers other hne hheld)

/-- An operation on a link that does not attach a device. -/
lemma linkStep [DecidableEq L] (h : LinksHeld s cdcHeld ecuIoHeld) (link : L) {op : LinkOp}
    (hop : op ≠ .attachDevice) (hstage : link ∉ cdcHeld →
      (Stm32Emulator.linkStep (s.cdcLinks link) op).1.stage = (s.cdcLinks link).stage) :
    LinksHeld (s.modifyCdc link fun state =>
      (Stm32Emulator.linkStep state op).1) cdcHeld ecuIoHeld := by
  refine h.modifyCdc link ?_ ?_ fun _ _ hheld => hheld
  · exact ((h.inOrder link).step_iff op).mpr fun hattach => absurd hattach hop
  · intro hlink
    exact (hstage hlink).trans (h.detached link hlink)

/-- A device is attached to a link that no other device holds. -/
lemma attachCdc [DecidableEq L] (h : LinksHeld s [] ecuIoHeld) (link : L) :
    LinksHeld (s.modifyCdc link .attachDevice) [link] ecuIoHeld := by
  have hdetached := h.detached link List.not_mem_nil
  refine h.modifyCdc link ?_ ?_ fun _ _ hheld => absurd hheld List.not_mem_nil
  · exact (h.inOrder link).attachDevice_iff.mpr
      (hostConnected_of_detached (h.inOrder link) hdetached)
  · exact fun hlink => absurd List.mem_cons_self hlink

lemma detachCdc [DecidableEq L] {link : L} (h : LinksHeld s (link :: cdcHeld) ecuIoHeld) :
    LinksHeld (s.modifyCdc link .detachDevice) cdcHeld ecuIoHeld :=
  h.modifyCdc link (LinkInvariant.endSession _) (fun _ => rfl) fun _ hne hheld =>
    (List.mem_cons.mp hheld).resolve_left hne

lemma attachEcuIo [DecidableEq E] (h : LinksHeld s cdcHeld []) (link : E) :
    LinksHeld (s.modifyEcuIo link .attachDevice) cdcHeld [link] :=
  h.modifyEcuIo link (fun hlink => absurd List.mem_cons_self hlink) fun _ _ hheld =>
    absurd hheld List.not_mem_nil

lemma detachEcuIo [DecidableEq E] {link : E} (h : LinksHeld s cdcHeld (link :: ecuIoHeld)) :
    LinksHeld (s.modifyEcuIo link .detachDevice) cdcHeld ecuIoHeld :=
  h.modifyEcuIo link (fun _ => ⟨rfl, rfl, rfl⟩) fun _ hne hheld =>
    (List.mem_cons.mp hheld).resolve_left hne

end LinksHeld

/-! ## The section of a call -/

/-- The thread is in its call, past the flag. -/
def InCall (t : RunState L E) : Prop := t.point ≠ .outside

instance (t : RunState L E) : Decidable (InCall t) := inferInstanceAs (Decidable (_ ≠ _))

namespace RunPoint

/-- The points at which the link of the call may be pending, or be found by the host. -/
def cdcPends (point : RunPoint) : Bool := point ∉ [.outside, .load, .installCdcPending, .release]

def cdcFinds (point : RunPoint) : Bool :=
  point ∉ [.outside, .load, .installCdcPending, .installCdcActive, .clearCdcPending, .release]

def ecuIoPends (point : RunPoint) : Bool :=
  point ∉ [.outside, .load, .installCdcPending, .installCdcActive, .installEcuIoPending,
    .clearCdcActive, .clearCdcPending, .release]

def ecuIoFinds (point : RunPoint) : Bool :=
  point ∉ [.outside, .load, .installCdcPending, .installCdcActive, .installEcuIoPending,
    .installEcuIoActive, .clearEcuIoPending, .clearCdcActive, .clearCdcPending, .release]

def hasDevices (point : RunPoint) : Bool :=
  point ∈ [.newBridges, .newEcuIos, .mainLoop, .dropDevices]

end RunPoint

/-- The process without a call. -/
structure NoCall (s : ProcessState L E) : Prop where
  flag : s.embeddedRunning = false
  cdcRegistry : s.cdcRegistry = .empty
  ecuIoRegistry : s.ecuIoRegistry = .empty
  links : LinksHeld s [] []

/-- The process during a call. -/
structure CallOwns (s : ProcessState L E) (t : RunState L E) : Prop where
  flag : s.embeddedRunning = true
  cdcRegistry : Registered s.cdcRegistry t.options.cdcLink t.bridges t.point.cdcPends
    t.point.cdcFinds
  ecuIoRegistry : Registered s.ecuIoRegistry t.options.ecuIoLink t.ecuIos t.point.ecuIoPends
    t.point.ecuIoFinds
  links : LinksHeld s t.bridges.reduceOption t.ecuIos.reduceOption
  noDevices : t.point.hasDevices = false → t.bridges = [] ∧ t.ecuIos = []

lemma NoCall.initial : NoCall (ProcessState.initial : ProcessState L E) :=
  ⟨rfl, rfl, rfl, fun _ => LinkInvariant.new, fun _ _ => rfl, fun _ _ => ⟨rfl, rfl, rfl⟩⟩

section Step

variable [DecidableEq L] [DecidableEq E] {s : ProcessState L E} {t u : RunState L E}
    {a : RunAction L E}
  {old : RunPoint} {r : ProcessState L E × RunState L E}

/-! ### A thread outside of a call -/

/-- A thread outside can only call, which is an error while the flag is taken. -/
lemma runStep_outside (hout : ¬ InCall t) (hstep : runStep s t a = some r) :
    ∃ options, a = .runEmbedded options ∧
      (s.embeddedRunning = true ∧ r = (s, t) ∨
        s.embeddedRunning = false ∧
        r = ({ s with embeddedRunning := true }, ⟨.load, options, [], [], 0, none⟩)) := by
  have hpoint : t.point = .outside := not_not.mp hout
  cases a with
  | runEmbedded options =>
    refine ⟨options, rfl, ?_⟩
    simp only [runStep, hpoint, ne_eq, not_true_eq_false, if_false] at hstep
    split at hstep
    · next hrunning => exact Or.inl ⟨hrunning, (Option.some.inj hstep).symm⟩
    · next hrunning => exact Or.inr ⟨Bool.eq_false_iff.mpr hrunning, (Option.some.inj hstep).symm⟩
  | advance point =>
    simp only [runStep, hpoint] at hstep
    split at hstep
    · next hout =>
      subst hout
      cases hstep
    · cases hstep
  | dropBridge => simp [runStep, hpoint] at hstep
  | dropEcuIo => simp [runStep, hpoint] at hstep
  | _ => simp [runStep, hpoint] at hstep

/-! ### The thread in its call -/

omit [DecidableEq L] [DecidableEq E] in
lemma CallOwns.of {options : EmbeddedEmulatorOptions L E} {bridges : List (Option L)}
    {ecuIos : List (Option E)} {pc : BitVec 64} {ended : Option RunEnd} {point : RunPoint}
    (hflag : s.embeddedRunning = true)
    (hcdc : Registered s.cdcRegistry options.cdcLink bridges point.cdcPends point.cdcFinds)
    (hecuIo : Registered s.ecuIoRegistry options.ecuIoLink ecuIos point.ecuIoPends point.ecuIoFinds)
    (hlinks : LinksHeld s bridges.reduceOption ecuIos.reduceOption)
    (hdevices : point.hasDevices = false → bridges = [] ∧ ecuIos = []) :
    CallOwns s ⟨point, options, bridges, ecuIos, pc, ended⟩ :=
  ⟨hflag, hcdc, hecuIo, hlinks, hdevices⟩

/-- A single access to a static. -/
lemma CallOwns.advance (h : CallOwns s t) {s' : ProcessState L E} {point : RunPoint}
    (hadvance : Embedded.advance s t.options t.point = some (s', point)) :
    Settled InCall NoCall CallOwns s' { t with point := point } := by
  rcases t with ⟨old, options, bridges, ecuIos, pc, ended⟩
  obtain ⟨hflag, hcdc, hecuIo, hlinks, hdevices⟩ := h
  dsimp only at hadvance hcdc hecuIo hlinks hdevices ⊢
  -- none of these points has devices
  have hnone : bridges = [] ∧ ecuIos = [] := by
    cases old <;> first | exact hdevices rfl | cases hadvance
  obtain ⟨rfl, rfl⟩ := hnone
  cases old <;> cases hadvance
  case installCdcPending =>
    exact Or.inr ⟨RunPoint.noConfusion, .of hflag (hcdc.installPending.mono (by decide) (by decide))
      (hecuIo.mono (by decide) (by decide)) ⟨hlinks.1, hlinks.2, hlinks.3⟩ fun _ => ⟨rfl, rfl⟩⟩
  case installCdcActive =>
    exact Or.inr ⟨RunPoint.noConfusion, .of hflag (hcdc.installActive.mono (by decide) (by decide))
      (hecuIo.mono (by decide) (by decide)) ⟨hlinks.1, hlinks.2, hlinks.3⟩ fun _ => ⟨rfl, rfl⟩⟩
  case installEcuIoPending =>
    exact Or.inr ⟨RunPoint.noConfusion, .of hflag (hcdc.mono (by decide) (by decide))
      (hecuIo.installPending.mono (by decide) (by decide))
        ⟨hlinks.1, hlinks.2, hlinks.3⟩ fun _ => ⟨rfl, rfl⟩⟩
  case installEcuIoActive =>
    exact Or.inr ⟨RunPoint.noConfusion, .of hflag (hcdc.mono (by decide) (by decide))
      (hecuIo.installActive.mono (by decide) (by decide))
        ⟨hlinks.1, hlinks.2, hlinks.3⟩ fun _ => ⟨rfl, rfl⟩⟩
  case clearEcuIoActive =>
    exact Or.inr ⟨RunPoint.noConfusion, .of hflag (hcdc.mono (by decide) (by decide))
      (hecuIo.clearActive.mono (by decide) (by decide))
        ⟨hlinks.1, hlinks.2, hlinks.3⟩ fun _ => ⟨rfl, rfl⟩⟩
  case clearEcuIoPending =>
    exact Or.inr ⟨RunPoint.noConfusion, .of hflag (hcdc.mono (by decide) (by decide))
      (hecuIo.clearPending.mono (by decide) (by decide))
        ⟨hlinks.1, hlinks.2, hlinks.3⟩ fun _ => ⟨rfl, rfl⟩⟩
  case clearCdcActive =>
    exact Or.inr ⟨RunPoint.noConfusion, .of hflag (hcdc.clearActive.mono (by decide) (by decide))
      (hecuIo.mono (by decide) (by decide)) ⟨hlinks.1, hlinks.2, hlinks.3⟩ fun _ => ⟨rfl, rfl⟩⟩
  case clearCdcPending =>
    exact Or.inr ⟨RunPoint.noConfusion, .of hflag (hcdc.clearPending.mono (by decide) (by decide))
      (hecuIo.mono (by decide) (by decide)) ⟨hlinks.1, hlinks.2, hlinks.3⟩ fun _ => ⟨rfl, rfl⟩⟩
  case release =>
    exact Or.inl ⟨fun hin => hin rfl, rfl, hcdc.eq_empty, hecuIo.eq_empty,
      ⟨hlinks.1, hlinks.2, hlinks.3⟩⟩
  -- the counters and flags of the main loop are in neither registry
  all_goals
    exact Or.inr ⟨RunPoint.noConfusion, .of hflag (hcdc.mono (by decide) (by decide))
      (hecuIo.mono (by decide) (by decide)) ⟨hlinks.1, hlinks.2, hlinks.3⟩ fun _ => ⟨rfl, rfl⟩⟩

omit [DecidableEq L] [DecidableEq E] in
/-- On to a point at which no less is allowed. -/
lemma CallOwns.goto (h : CallOwns s t) (hpoint : t.point = old) (point : RunPoint)
    (hallowed : (old.cdcPends → point.cdcPends) ∧ (old.cdcFinds → point.cdcFinds) ∧
      (old.ecuIoPends → point.ecuIoPends) ∧ (old.ecuIoFinds → point.ecuIoFinds))
    (hdevices : point.hasDevices = false → t.bridges = [] ∧ t.ecuIos = []) {pc : BitVec 64}
    {ended : Option RunEnd} : CallOwns s { t with point := point, pc := pc, ended := ended } := by
  subst hpoint
  exact .of h.flag (h.cdcRegistry.mono hallowed.1 hallowed.2.1)
    (h.ecuIoRegistry.mono hallowed.2.2.1 hallowed.2.2.2) h.links hdevices

omit [DecidableEq E] in
lemma CallOwns.newBridge (h : CallOwns s t) (hpoint : t.point = .newBridges) (maxBufferedBytes : ℕ)
    (bound : Bool) :
    Settled InCall NoCall CallOwns (Embedded.newBridge s t maxBufferedBytes bound).1
      (Embedded.newBridge s t maxBufferedBytes bound).2 := by
  rcases t with ⟨old, options, bridges, ecuIos, pc, ended⟩
  obtain rfl : old = .newBridges := hpoint
  obtain ⟨hflag, hcdc, hecuIo, hlinks, -⟩ := h
  dsimp only at hcdc hecuIo hlinks
  refine Or.inr ?_
  unfold Embedded.newBridge
  by_cases hzero : maxBufferedBytes = 0
  · rw [if_pos hzero]
    exact ⟨RunPoint.noConfusion, .of hflag (hcdc.mono (by decide) (by decide))
      (hecuIo.mono (by decide) (by decide)) hlinks nofun⟩
  rw [if_neg hzero]
  rcases hpending : s.cdcRegistry.pending with _ | link
  · simp only [LinkRegistry.takePendingDeviceLink, hpending]
    cases bound with
    | true =>
      refine ⟨RunPoint.noConfusion, .of hflag hcdc.onSocket hecuIo ?_ nofun⟩
      rw [List.reduceOption_append]
      exact ⟨hlinks.1, fun link hlink => hlinks.2 link fun hheld =>
        hlink (List.mem_append_left _ hheld), hlinks.3⟩
    | false =>
      exact ⟨RunPoint.noConfusion, .of hflag (hcdc.letGo.mono (by decide) (by decide))
        (hecuIo.mono (by decide) (by decide)) ⟨hlinks.1, hlinks.2, hlinks.3⟩ nofun⟩
  · obtain ⟨-, hnone, htaken⟩ := hcdc.taken hpending
    simp only [LinkRegistry.takePendingDeviceLink, hpending]
    refine ⟨RunPoint.noConfusion, .of hflag htaken hecuIo ?_ nofun⟩
    rw [List.reduceOption_append, hnone]
    rw [hnone] at hlinks
    refine LinksHeld.attachCdc ?_ link
    exact ⟨hlinks.1, hlinks.2, hlinks.3⟩

omit [DecidableEq L] in
lemma CallOwns.newEcuIo (h : CallOwns s t) (hpoint : t.point = .newEcuIos)
    (bound pinsValid : Bool) :
    Settled InCall NoCall CallOwns (Embedded.newEcuIo s t bound pinsValid).1
      (Embedded.newEcuIo s t bound pinsValid).2 := by
  rcases t with ⟨old, options, bridges, ecuIos, pc, ended⟩
  obtain rfl : old = .newEcuIos := hpoint
  obtain ⟨hflag, hcdc, hecuIo, hlinks, -⟩ := h
  dsimp only at hcdc hecuIo hlinks
  refine Or.inr ?_
  -- without the new device
  have hfail : InCall ⟨.dropDevices, options, bridges, ecuIos, pc, ended⟩ ∧
      CallOwns { s with ecuIoRegistry := s.ecuIoRegistry.takePendingDeviceLink.1 }
        ⟨.dropDevices, options, bridges, ecuIos, pc, ended⟩ :=
    ⟨RunPoint.noConfusion, .of hflag (hcdc.mono (by decide) (by decide))
      (hecuIo.letGo.mono (by decide) (by decide)) ⟨hlinks.1, hlinks.2, hlinks.3⟩ nofun⟩
  unfold Embedded.newEcuIo
  rcases hpending : s.ecuIoRegistry.pending with _ | link
  · simp only [LinkRegistry.takePendingDeviceLink, hpending]
    by_cases hready : (bound && pinsValid) = true
    · rw [if_pos hready]
      refine ⟨RunPoint.noConfusion, .of hflag hcdc hecuIo.onSocket ?_ nofun⟩
      rw [List.reduceOption_append]
      exact ⟨hlinks.1, hlinks.2, fun link hlink => hlinks.3 link fun hheld =>
        hlink (List.mem_append_left _ hheld)⟩
    · rw [if_neg hready]
      exact hfail
  · simp only [LinkRegistry.takePendingDeviceLink, hpending]
    cases pinsValid with
    | false => exact hfail
    | true =>
      obtain ⟨-, hnone, htaken⟩ := hecuIo.taken hpending
      refine ⟨RunPoint.noConfusion, .of hflag hcdc htaken ?_ nofun⟩
      rw [List.reduceOption_append, hnone]
      rw [hnone] at hlinks
      refine LinksHeld.attachEcuIo ?_ link
      exact ⟨hlinks.1, hlinks.2, hlinks.3⟩

omit [DecidableEq E] in
/-- The device of the call uses its own link. -/
lemma CallOwns.cdcDevice (h : CallOwns s t) {link : L} (hlink : some link ∈ t.bridges)
    (op : DeviceLinkOp) :
    CallOwns (s.modifyCdc link fun state => (linkStep state op.op).1) t := by
  refine ⟨h.flag, h.cdcRegistry, h.ecuIoRegistry, h.links.linkStep link ?_ ?_, h.noDevices⟩
  · cases op <;> exact LinkOp.noConfusion
  · exact fun hheld => absurd (List.reduceOption_mem_iff.mpr hlink) hheld

omit [DecidableEq L] in
lemma CallOwns.ecuIoDevice (h : CallOwns s t) {link : E} (hlink : some link ∈ t.ecuIos)
    (f : Ecu.EmbeddedEcuIoState → Ecu.EmbeddedEcuIoState) : CallOwns (s.modifyEcuIo link f) t := by
  refine ⟨h.flag, h.cdcRegistry, h.ecuIoRegistry, h.links.modifyEcuIo link ?_ ?_, h.noDevices⟩
  · exact fun hheld => absurd (List.reduceOption_mem_iff.mpr hlink) hheld
  · exact fun _ _ hheld => hheld

/-- Every step of the thread in its call. -/
lemma CallOwns.stay (hin : InCall t) (h : CallOwns s t) (hstep : runStep s t a = some r) :
    Settled InCall NoCall CallOwns r.1 r.2 := by
  cases a with
  | runEmbedded options =>
    rw [runStep, if_pos (show t.point ≠ .outside from hin)] at hstep
    cases hstep
  | load ok =>
    simp only [runStep, Option.ite_none_right_eq_some, Option.some.injEq] at hstep
    obtain ⟨hpoint, rfl⟩ := hstep
    have hnone : t.bridges = [] ∧ t.ecuIos = [] := h.noDevices (hpoint ▸ rfl)
    cases ok
    · exact Or.inr ⟨RunPoint.noConfusion, h.goto hpoint .release (by decide) fun _ => hnone⟩
    · exact Or.inr ⟨RunPoint.noConfusion,
        h.goto hpoint .installCdcPending (by decide) fun _ => hnone⟩
  | advance point =>
    simp only [runStep, Option.ite_none_right_eq_some, Option.map_eq_some_iff] at hstep
    obtain ⟨hpoint, ⟨s', point'⟩, hadvance, rfl⟩ := hstep
    subst hpoint
    exact h.advance hadvance
  | fail =>
    simp only [runStep, Option.ite_none_right_eq_some, Option.some.injEq] at hstep
    obtain ⟨hpoint, rfl⟩ := hstep
    simp only [List.mem_cons, List.not_mem_nil, or_false] at hpoint
    rcases hpoint with hpoint | hpoint | hpoint <;>
      exact Or.inr ⟨RunPoint.noConfusion, h.goto hpoint .dropDevices (by decide) nofun⟩
  | newBridge maxBufferedBytes bound =>
    simp only [runStep, Option.ite_none_right_eq_some, Option.some.injEq] at hstep
    obtain ⟨hpoint, rfl⟩ := hstep
    exact h.newBridge hpoint maxBufferedBytes bound
  | bridgesDone =>
    simp only [runStep, Option.ite_none_right_eq_some, Option.some.injEq] at hstep
    obtain ⟨hpoint, rfl⟩ := hstep
    exact Or.inr ⟨RunPoint.noConfusion, h.goto hpoint .newEcuIos (by decide) nofun⟩
  | newEcuIo bound pinsValid =>
    simp only [runStep, Option.ite_none_right_eq_some, Option.some.injEq] at hstep
    obtain ⟨hpoint, rfl⟩ := hstep
    exact h.newEcuIo hpoint bound pinsValid
  | start pc =>
    simp only [runStep, Option.ite_none_right_eq_some, Option.some.injEq] at hstep
    obtain ⟨hpoint, rfl⟩ := hstep
    exact Or.inr ⟨RunPoint.noConfusion, h.goto hpoint .mainLoop (by decide) nofun⟩
  | cdcDevice link op =>
    simp only [runStep, Option.ite_none_right_eq_some, Option.some.injEq] at hstep
    obtain ⟨⟨-, hlink⟩, rfl⟩ := hstep
    exact Or.inr ⟨hin, h.cdcDevice hlink op⟩
  | takeInputs link =>
    simp only [runStep, Option.ite_none_right_eq_some, Option.some.injEq] at hstep
    obtain ⟨⟨-, hlink⟩, rfl⟩ := hstep
    exact Or.inr ⟨hin, h.ecuIoDevice hlink fun state => state.takeInputs.1⟩
  | publishOutput link name value wheelAngleMdeg =>
    simp only [runStep, Option.ite_none_right_eq_some, Option.some.injEq] at hstep
    obtain ⟨⟨-, hlink⟩, rfl⟩ := hstep
    exact Or.inr ⟨hin, h.ecuIoDevice hlink fun state =>
      state.publishOutput s.numInstructions name value wheelAngleMdeg⟩
  | round start =>
    simp only [runStep, Option.ite_none_right_eq_some, Option.map_eq_some_iff] at hstep
    obtain ⟨hpoint, loop, -, rfl⟩ := hstep
    -- the counters and flags change, but neither the registries nor the links
    have hround : CallOwns
        { s with
          numInstructions := loop.numInstructions
          stopRequested := loop.stopRequested
          continueExecution := loop.continueExecution
          busyLoopReached := loop.busyLoopReached } t :=
      ⟨h.flag, h.cdcRegistry, h.ecuIoRegistry, ⟨h.links.1, h.links.2, h.links.3⟩, h.noDevices⟩
    by_cases hended : loop.ended = none
    · rw [if_pos hended]
      exact Or.inr ⟨RunPoint.noConfusion, hround.goto hpoint .mainLoop (by decide) nofun⟩
    · rw [if_neg hended]
      exact Or.inr ⟨RunPoint.noConfusion, hround.goto hpoint .dropDevices (by decide) nofun⟩
  | budgetReached =>
    simp only [runStep, Option.ite_none_right_eq_some, Option.some.injEq] at hstep
    obtain ⟨⟨hpoint, -⟩, rfl⟩ := hstep
    exact Or.inr ⟨RunPoint.noConfusion, h.goto hpoint .dropDevices (by decide) nofun⟩
  | dropBridge =>
    simp only [runStep] at hstep
    split at hstep
    · next link bridges hpoint hbridges =>
      obtain rfl := Option.some.inj hstep
      rcases t with ⟨point, options, bridges', ecuIos, pc, ended⟩
      obtain rfl : point = .dropDevices := hpoint
      obtain rfl : bridges' = some link :: bridges := hbridges
      exact Or.inr ⟨RunPoint.noConfusion,
        .of h.flag h.cdcRegistry.dropped h.ecuIoRegistry (LinksHeld.detachCdc h.links) nofun⟩
    · next bridges hpoint hbridges =>
      obtain rfl := Option.some.inj hstep
      rcases t with ⟨point, options, bridges', ecuIos, pc, ended⟩
      obtain rfl : point = .dropDevices := hpoint
      obtain rfl : bridges' = none :: bridges := hbridges
      exact Or.inr ⟨RunPoint.noConfusion,
        .of h.flag h.cdcRegistry.dropped h.ecuIoRegistry h.links nofun⟩
    · cases hstep
  | dropEcuIo =>
    simp only [runStep] at hstep
    split at hstep
    · next link ecuIos hpoint hecuIos =>
      obtain rfl := Option.some.inj hstep
      rcases t with ⟨point, options, bridges, ecuIos', pc, ended⟩
      obtain rfl : point = .dropDevices := hpoint
      obtain rfl : ecuIos' = some link :: ecuIos := hecuIos
      exact Or.inr ⟨RunPoint.noConfusion,
        .of h.flag h.cdcRegistry h.ecuIoRegistry.dropped (LinksHeld.detachEcuIo h.links) nofun⟩
    · next ecuIos hpoint hecuIos =>
      obtain rfl := Option.some.inj hstep
      rcases t with ⟨point, options, bridges, ecuIos', pc, ended⟩
      obtain rfl : point = .dropDevices := hpoint
      obtain rfl : ecuIos' = none :: ecuIos := hecuIos
      exact Or.inr ⟨RunPoint.noConfusion,
        .of h.flag h.cdcRegistry h.ecuIoRegistry.dropped h.links nofun⟩
    · cases hstep
  | devicesDropped =>
    simp only [runStep, Option.ite_none_right_eq_some, Option.some.injEq] at hstep
    obtain ⟨⟨hpoint, hnone⟩, rfl⟩ := hstep
    exact Or.inr ⟨RunPoint.noConfusion, h.goto hpoint .clearEcuIoActive (by decide) fun _ => hnone⟩

/-! ### The host -/

/-- Whatever the host does, links without a device stay idle and all links stay in order. -/
lemma LinksHeld.hostAct {cdcHeld : List L} {ecuIoHeld : List E} (h : LinksHeld s cdcHeld ecuIoHeld)
    (b : HostAction L E) : LinksHeld (Embedded.hostAct s b) cdcHeld ecuIoHeld := by
  cases b with
  | requestStop => exact ⟨h.1, h.2, h.3⟩
  | cdc link op =>
    refine h.linkStep link ?_ fun _ => stage_hostOp (s.cdcLinks link) op
    cases op <;> exact LinkOp.noConfusion
  | setInput link name value =>
    refine h.modifyEcuIo (f := fun state => state.setInput name value) link
      (fun hlink => ?_) fun _ _ hheld => hheld
    exact ⟨(h.idle link hlink).absent, (h.idle link hlink).outputs,
      (h.idle link hlink).outputEvents⟩
  | takeOutputEvents link =>
    refine h.modifyEcuIo (f := fun state => state.takeOutputEvents.1) link
      (fun hlink => ?_) fun _ _ hheld => hheld
    exact ⟨(h.idle link hlink).absent, (h.idle link hlink).outputs, rfl⟩

lemma hostAct_statics (s : ProcessState L E) (b : HostAction L E) :
    (hostAct s b).embeddedRunning = s.embeddedRunning ∧ (hostAct s b).cdcRegistry = s.cdcRegistry ∧
      (hostAct s b).ecuIoRegistry = s.ecuIoRegistry := by
  cases b <;> exact ⟨rfl, rfl, rfl⟩

lemma NoCall.hostAct (h : NoCall s) (b : HostAction L E) : NoCall (Embedded.hostAct s b) := by
  obtain ⟨hflag, hcdc, hecuIo⟩ := hostAct_statics s b
  exact ⟨hflag.trans h.flag, hcdc.trans h.cdcRegistry, hecuIo.trans h.ecuIoRegistry,
    h.links.hostAct b⟩

lemma CallOwns.hostAct (h : CallOwns s t) (b : HostAction L E) :
    CallOwns (Embedded.hostAct s b) t := by
  obtain ⟨hflag, hcdc, hecuIo⟩ := hostAct_statics s b
  refine ⟨hflag.trans h.flag, ?_, ?_, h.links.hostAct b, h.noDevices⟩
  · rw [hcdc]
    exact h.cdcRegistry
  · rw [hecuIo]
    exact h.ecuIoRegistry

/-- The call is a section that one thread at a time is inside of. -/
theorem callMonitor : Monitor (runStep (L := L) (E := E)) hostAct InCall NoCall CallOwns where
  enter hout hfree hstep := by
    obtain ⟨options, -, ⟨hrunning, -⟩ | ⟨-, rfl⟩⟩ := runStep_outside hout hstep
    · exact absurd hrunning (Bool.eq_false_iff.mp hfree.flag)
    · refine Or.inr ⟨RunPoint.noConfusion,
        .of rfl ?_ ?_ ⟨hfree.links.1, hfree.links.2, hfree.links.3⟩
        fun _ => ⟨rfl, rfl⟩⟩
      · rw [hfree.cdcRegistry]
        exact Registered.empty _ _ _
      · rw [hfree.ecuIoRegistry]
        exact Registered.empty _ _ _
  stay hin hheld hstep := hheld.stay hin hstep
  refuse hout _ hheld hstep := by
    obtain ⟨options, -, ⟨-, rfl⟩ | ⟨hrunning, -⟩⟩ := runStep_outside hout hstep
    · exact ⟨hout, hheld⟩
    · exact absurd hheld.flag (Bool.eq_false_iff.mp hrunning)
  move_free b hfree := hfree.hostAct b
  move_held b _ hheld := hheld.hostAct b

/-! ## Runs -/

variable {ι : Type} [DecidableEq ι]

/-- The process in any order of steps. -/
abbrev ProcessRun (as : List (ProcessAction ι L E)) (s : Process ι L E) : Prop :=
  Run (stepRel processStep) Process.initial as s

lemma exclusive_of_run {as : List (ProcessAction ι L E)} {s : Process ι L E}
    (hrun : ProcessRun as s) :
    Exclusive InCall NoCall CallOwns s :=
  callMonitor.run (Or.inl ⟨fun _ hin => hin rfl, NoCall.initial⟩) hrun

/-- What the statics and the devices of a call hold: the link of the call, if any. -/
structure HoldsOwnLinks (s : ProcessState L E) (t : RunState L E) : Prop where
  cdcRegistry : ∀ link, s.cdcRegistry.pending = some link ∨ s.cdcRegistry.active = some link →
    t.options.cdcLink = some link
  ecuIoRegistry : ∀ link, s.ecuIoRegistry.pending = some link ∨ s.ecuIoRegistry.active = some link →
    t.options.ecuIoLink = some link
  bridges : t.bridges.reduceOption = [] ∨
    s.cdcRegistry.pending = none ∧ t.bridges.reduceOption = t.options.cdcLink.toList
  ecuIos : t.ecuIos.reduceOption = [] ∨
    s.ecuIoRegistry.pending = none ∧ t.ecuIos.reduceOption = t.options.ecuIoLink.toList

omit [DecidableEq L] [DecidableEq E] in
lemma CallOwns.holdsOwnLinks (h : CallOwns s t) : HoldsOwnLinks s t :=
  ⟨h.cdcRegistry.holdsOwn, h.ecuIoRegistry.holdsOwn, h.cdcRegistry.attached,
    h.ecuIoRegistry.attached⟩

/-- **One call at a time.**  In every interleaving at most one thread is in its call, and the flag
tells whether one is.  Without a call both registries are empty.  During a call the registries and
the devices hold no link but that of its options, and no two devices hold it. -/
theorem one_call_at_a_time (as : List (ProcessAction ι L E)) (s : Process ι L E)
    (hrun : ProcessRun as s) :
    (∀ i j, InCall (s.2 i) → InCall (s.2 j) → i = j) ∧
      (s.1.embeddedRunning = true ↔ ∃ i, InCall (s.2 i)) ∧
      (s.1.embeddedRunning = false → s.1.cdcRegistry = .empty ∧ s.1.ecuIoRegistry = .empty) ∧
      ∀ i, InCall (s.2 i) → HoldsOwnLinks s.1 (s.2 i) := by
  have hexclusive := exclusive_of_run hrun
  have hfree : (¬ ∃ i, InCall (s.2 i)) → NoCall s.1 := fun hnone =>
    hexclusive.free_of_forall fun i hi => hnone ⟨i, hi⟩
  have hflag : s.1.embeddedRunning = true ↔ ∃ i, InCall (s.2 i) := by
    constructor
    · intro hrunning
      by_contra hnone
      exact absurd hrunning (Bool.eq_false_iff.mp (hfree hnone).flag)
    · rintro ⟨i, hi⟩
      exact (hexclusive.held_of_inside hi).flag
  refine ⟨fun i j hi hj => hexclusive.unique hi hj, hflag, fun hidle => ?_, fun i hi => ?_⟩
  · have hnocall := hfree fun hsome => absurd (hflag.mpr hsome) (Bool.eq_false_iff.mp hidle)
    exact ⟨hnocall.cdcRegistry, hnocall.ecuIoRegistry⟩
  · exact (hexclusive.held_of_inside hi).holdsOwnLinks

/-- The first thread is in its call, and the second one has tried. -/
def sampleCalls : List (ProcessAction Bool Unit Unit) :=
  [.thread true (.runEmbedded ⟨none, none, some (), none⟩), .thread true (.load true),
    .thread false (.runEmbedded ⟨none, none, some (), none⟩),
    .thread true (.advance .installCdcPending), .outside (.cdc () .connect),
    .thread true (.advance .installCdcActive)]

theorem one_call_at_a_time_sample :
    ∃ s, ProcessRun sampleCalls s ∧
      ((s.2 true).point, s.1.cdcRegistry) = (.installEcuIoPending, ⟨some (), some ()⟩) ∧
      ¬ InCall (s.2 false) ∧ HoldsOwnLinks s.1 (s.2 true) := by
  have hexec : (sampleCalls.foldlM processStep .initial).map
      (fun s => ((s.2 true).point, s.1.cdcRegistry))
      = some (.installEcuIoPending, ⟨some (), some ()⟩) := by
    decide
  obtain ⟨s, hexec, hstate⟩ := Option.map_eq_some_iff.mp hexec
  have hrun : ProcessRun sampleCalls s := Run.of_foldlM hexec
  have hin : InCall (s.2 true) := by
    rw [InCall, (Prod.mk.inj hstate).1]
    decide
  obtain ⟨hunique, -, -, hlinks⟩ := one_call_at_a_time sampleCalls s hrun
  exact ⟨s, hrun, hstate, fun hfalse => Bool.false_ne_true (hunique _ _ hfalse hin),
    hlinks true hin⟩

/-- **The links of the process.**  In every interleaving all links are in order.  A link that no
device holds is detached, nobody is connected to it and nothing is queued in it; on the ECU side it
has no device and no outputs.  A link that waits for a device is such a link. -/
theorem links_in_order (as : List (ProcessAction ι L E)) (s : Process ι L E)
    (hrun : ProcessRun as s) :
    (∀ link, LinkInvariant (s.1.cdcLinks link)) ∧
      (∀ link, (∀ i, InCall (s.2 i) → some link ∉ (s.2 i).bridges) →
        (s.1.cdcLinks link).stage = .detached ∧ (s.1.cdcLinks link).hostConnected = false ∧
          (s.1.cdcLinks link).hostToDevice = [] ∧ (s.1.cdcLinks link).deviceToHost = []) ∧
      (∀ link, (∀ i, InCall (s.2 i) → some link ∉ (s.2 i).ecuIos) →
        IdleLink (s.1.ecuIoLinks link)) ∧
      (∀ link i, s.1.cdcRegistry.pending = some link → InCall (s.2 i) →
        some link ∉ (s.2 i).bridges) ∧
      ∀ link i, s.1.ecuIoRegistry.pending = some link → InCall (s.2 i) →
        some link ∉ (s.2 i).ecuIos := by
  have hexclusive := exclusive_of_run hrun
  have horder : ∀ link, LinkInvariant (s.1.cdcLinks link) :=
    hexclusive.shared (P := fun s => ∀ link, LinkInvariant (s.cdcLinks link))
      (fun _ h => h.links.inOrder)
      fun _ _ _ h => h.links.inOrder
  refine ⟨horder, fun link hlink => ?_, fun link hlink => ?_, fun link i hpending hi hheld => ?_,
    fun link i hpending hi hheld => ?_⟩
  · have hdetached : (s.1.cdcLinks link).stage = .detached := by
      rcases hexclusive with ⟨-, hfree⟩ | ⟨i, hi, -, hheld⟩
      · exact hfree.links.detached link List.not_mem_nil
      · exact hheld.links.detached link fun hmem => hlink i hi (List.reduceOption_mem_iff.mp hmem)
    have hdisconnected := hostConnected_of_detached (horder link) hdetached
    exact ⟨hdetached, hdisconnected, (horder link).empty hdisconnected⟩
  · rcases hexclusive with ⟨-, hfree⟩ | ⟨i, hi, -, hheld⟩
    · exact hfree.links.idle link List.not_mem_nil
    · exact hheld.links.idle link fun hmem => hlink i hi (List.reduceOption_mem_iff.mp hmem)
  · exact (hexclusive.held_of_inside hi).cdcRegistry.not_attached hpending hheld
  · exact (hexclusive.held_of_inside hi).ecuIoRegistry.not_attached hpending hheld

/-- A call of which the device takes the link; the host has put in an input too early. -/
def sampleSession : List (ProcessAction Unit Bool Unit) :=
  [.outside (.setInput () "pedal" 1), .thread () (.runEmbedded ⟨none, none, some true, none⟩),
    .thread () (.load true), .thread () (.advance .installCdcPending),
    .thread () (.advance .installCdcActive), .thread () (.advance .installEcuIoPending),
    .thread () (.advance .installEcuIoActive), .thread () (.advance .resetNumInstructions),
    .thread () (.advance .resetContinueExecution), .thread () (.advance .resetBusyLoopReached),
    .thread () (.advance .resetStopRequested), .thread () (.newBridge 1 true)]

theorem links_in_order_sample :
    ∃ s, ProcessRun sampleSession s ∧ (s.1.cdcLinks true).stage = .devicePresent ∧
      LinkInvariant (s.1.cdcLinks true) ∧ (s.1.cdcLinks false).stage = .detached ∧
      IdleLink (s.1.ecuIoLinks ()) := by
  have hexec : (sampleSession.foldlM processStep .initial).map (fun s =>
        ((s.1.cdcLinks true).stage, (s.2 ()).bridges, (s.2 ()).ecuIos))
      = some (.devicePresent, [some true], []) := by
    decide
  obtain ⟨s, hexec, hstate⟩ := Option.map_eq_some_iff.mp hexec
  obtain ⟨hstage, hdevices⟩ := Prod.mk.inj hstate
  obtain ⟨hbridges, hecuIos⟩ := Prod.mk.inj hdevices
  have hrun : ProcessRun sampleSession s := Run.of_foldlM hexec
  obtain ⟨horder, hdetached, hidle, -, -⟩ := links_in_order sampleSession s hrun
  refine ⟨s, hrun, hstage, horder true, (hdetached false fun i _ => ?_).1, hidle () fun i _ => ?_⟩
  · rw [show i = () from rfl, hbridges]
    decide
  · rw [show i = () from rfl, hecuIos]
    decide

end Step

end Embedded

end Stm32Emulator
