import Stm32Emulator.Usb.VirtualHost

/-!
# The FIFO-empty event

An armed IN endpoint that still lacks words of its transfer, and whose FIFO-empty interrupt is
unmasked, should show `DIEPINT.TXFE`, for otherwise firmware never pushes the rest (`TxfeHeld`).
The controller raises the bit when the endpoint is armed and when the interrupt is unmasked.  It is
lost in two ways: by acknowledging it while words are lacking, and by making an armed transfer
longer after the bit has been acknowledged.
-/

namespace Stm32Emulator

open OtgFs Function

variable {D W : Type}

namespace OtgFs

/-- The FIFO-empty interrupt of the endpoint is unmasked. -/
abbrev Unmasked (otg : OtgFs D) (ep : Fin numEndpoints) : Prop :=
  otg.diepEmptyMask &&& (1#32 <<< ep.val) ≠ 0#32

/-- The endpoint is armed, lacks words of its transfer and is unmasked. -/
structure WantsWords (otg : OtgFs D) (ep : Fin numEndpoints) : Prop where
  armed : otg.InArmed ep
  lacks : (otg.epIn ep).armedInBytesSent < otg.inXfrsiz ep
  unmasked : otg.Unmasked ep

lemma wantsWords_iff {otg : OtgFs D} {ep : Fin numEndpoints} :
    otg.WantsWords ep ↔ otg.InArmed ep ∧ (otg.epIn ep).armedInBytesSent < otg.inXfrsiz ep ∧
      otg.Unmasked ep :=
  ⟨fun h => ⟨h.armed, h.lacks, h.unmasked⟩, fun h => ⟨h.1, h.2.1, h.2.2⟩⟩

instance (otg : OtgFs D) (ep : Fin numEndpoints) : Decidable (otg.WantsWords ep) :=
  decidable_of_iff _ wantsWords_iff.symm

/-- The address of `DIEPINT` of an endpoint. -/
def diepintOffset (ep : Fin numEndpoints) : U32 :=
  BitVec.ofNat 32 (diepBase + ep.val * epStride + epIntOffset)

/-- Every endpoint that wants words reads as showing `TXFE`. -/
def TxfeHeld (otg : OtgFs D) : Prop :=
  ∀ ep, otg.WantsWords ep →
    ∃ value, otg.registerRead (diepintOffset ep) = some (otg, value) ∧ value &&& diepintTxfe ≠ 0#32

/-- No endpoint that wants words has `TXFE` acknowledged, and none is made to want words by a new
transfer size while it is armed and does not show it. -/
def KeepsTxfe (s : UsbState D) : UsbAction W → Prop
  | .write offset value => ∀ ep,
    (decodeEndpoint diepBase offset = some (ep, epIntOffset) → value &&& diepintTxfe ≠ 0#32 →
      ¬ s.1.WantsWords ep) ∧
    (decodeEndpoint diepBase offset = some (ep, epTsizOffset) → s.1.InArmed ep → s.1.Unmasked ep →
      (s.1.epIn ep).armedInBytesSent < (value &&& xfrsizMask).toNat →
      (s.1.epIn ep).int &&& diepintTxfe ≠ 0#32)
  | _ => True

instance (s : UsbState D) (a : UsbAction W) : Decidable (KeepsTxfe s a) :=
  match a with
  | .write _ _ => inferInstanceAs (Decidable (∀ _, _ ∧ _))
  | .read _ | .poll _ _ | .busReset | .setup _ _ | .controlOut _ _ _ | .outside _ =>
    inferInstanceAs (Decidable True)

lemma registerRead_diepint (otg : OtgFs D) (ep : Fin numEndpoints) :
    otg.registerRead (diepintOffset ep) = some (otg, (otg.epIn ep).int) := by
  have hdecode : decodeEndpoint diepBase (diepintOffset ep) = some (ep, epIntOffset) := by
    revert ep
    decide
  unfold registerRead
  rw [fifoEndpoint_eq_none_of_decodeEndpoint (by decide) hdecode, hdecode]
  rfl

lemma txfeHeld_iff {otg : OtgFs D} :
    otg.TxfeHeld ↔ ∀ ep, otg.WantsWords ep → (otg.epIn ep).int &&& diepintTxfe ≠ 0#32 := by
  simp only [TxfeHeld, registerRead_diepint, Option.some.injEq, Prod.mk.injEq, true_and,
    exists_eq_left']

/-! ## Operations that leave the IN endpoints alone -/

/-- All that decides whether the event is held. -/
def txView (otg : OtgFs D) : (Fin numEndpoints → EndpointRegs) × U32 :=
  (otg.epIn, otg.diepEmptyMask)

lemma txfeHeld_congr {otg otg' : OtgFs D} (h : otg'.txView = otg.txView) :
    otg'.TxfeHeld ↔ otg.TxfeHeld := by
  obtain ⟨hepIn, hmask⟩ := Prod.mk.inj h
  have hwants : ∀ ep, otg'.WantsWords ep ↔ otg.WantsWords ep := by
    intro ep
    constructor
    · rintro ⟨harmed, hlacks, hunmasked⟩
      rw [InArmed, hepIn] at harmed
      rw [inXfrsiz, hepIn] at hlacks
      rw [Unmasked, hmask] at hunmasked
      exact ⟨harmed, hlacks, hunmasked⟩
    · rintro ⟨harmed, hlacks, hunmasked⟩
      rw [InArmed, ← hepIn] at harmed
      rw [inXfrsiz, ← hepIn] at hlacks
      rw [Unmasked, ← hmask] at hunmasked
      exact ⟨harmed, hlacks, hunmasked⟩
  simp only [txfeHeld_iff, hwants, hepIn]

lemma TxfeHeld.congr {otg otg' : OtgFs D} (h : otg.TxfeHeld) (hview : otg'.txView = otg.txView) :
    otg'.TxfeHeld := (txfeHeld_congr hview).mpr h

/-- At power-on no endpoint is armed. -/
lemma txfeHeld_new (bridge : Option (UsbBridge D)) : (OtgFs.new bridge).TxfeHeld := by
  rw [txfeHeld_iff]
  rintro ep ⟨harmed, -, -⟩
  exact absurd BitVec.zero_and harmed

/-- After a bus reset no endpoint is armed. -/
lemma txfeHeld_virtualHostReset (otg : OtgFs D) (d : D) : (otg.virtualHostReset d).1.TxfeHeld := by
  rw [txfeHeld_iff]
  rintro ep ⟨harmed, -, -⟩
  exact absurd (BitVec.zero_and) harmed

/-- The end of a transfer raises `XFRC` and otherwise leaves the endpoints alone. -/
lemma txView_completeInTransfer (otg : OtgFs D) (d : D) (ep : Fin numEndpoints) :
    (otg.completeInTransfer d ep).1.txView =
      (otg.raiseInEndpointInterrupt ep diepintXfrc).txView := by
  by_cases hep : ep = 0
  · subst hep
    obtain ⟨_, ⟨_, _, rfl⟩, heq⟩ := completeInTransfer_zero otg d
    rw [heq]
    rfl
  · obtain ⟨_, _, _, heq, -⟩ := completeInTransfer_of_ne otg d hep
    rw [heq]
    rfl

lemma txView_forwardBulkOut (otg : OtgFs D) (d : D) :
    (otg.forwardBulkOut d).1.txView = otg.txView := by
  obtain ⟨_, _, _, heq⟩ := forwardBulkOut_eq otg d
  rw [heq]
  rfl

lemma txView_registerRead {otg : OtgFs D} {offset : U32} {r : OtgFs D × U32}
    (h : otg.registerRead offset = some r) : r.1.txView = otg.txView := by
  rcases registerRead_cases h with ⟨-, rfl⟩ | ⟨-, -, hpop⟩ | ⟨-, -, hsame⟩
  · rfl
  · obtain ⟨-, epOut, heq⟩ := popRxStatus_eq_some hpop
    rw [heq]
    rfl
  · rw [hsame]

lemma TxfeHeld.poll {otg : OtgFs D} {d : D} {nvic : Nvic} {n : ℕ} {r : OtgFs D × D × Nvic}
    (h : otg.TxfeHeld) (hpoll : otg.poll d nvic n = some r) : r.1.TxfeHeld := by
  rcases poll_cases hpoll with ⟨-, status, last, hotg, -⟩ | ⟨-, status, last, hotg, -⟩
  · rw [hotg]
    exact (txfeHeld_virtualHostReset otg d).congr rfl
  · rw [hotg, txfeHeld_congr (txView_forwardBulkOut _ _)]
    exact h.congr rfl

/-! ## Register writes -/

lemma or_txfe_ne_zero (int : U32) : (int ||| diepintTxfe) &&& diepintTxfe ≠ 0#32 := by
  have hbit : (diepintTxfe : U32) = 1#32 <<< 7 := by decide
  rw [hbit, and_one_shiftLeft_ne_zero_iff]
  simp

lemma and_not_txfe_ne_zero_iff (int value : U32) :
    (int &&& ~~~value) &&& diepintTxfe ≠ 0#32 ↔
      int &&& diepintTxfe ≠ 0#32 ∧ ¬ value &&& diepintTxfe ≠ 0#32 := by
  have hbit : (diepintTxfe : U32) = 1#32 <<< 7 := by decide
  rw [hbit, and_one_shiftLeft_ne_zero_iff, and_one_shiftLeft_ne_zero_iff,
    and_one_shiftLeft_ne_zero_iff, BitVec.getLsbD_and, BitVec.getLsbD_not]
  simp

/-- A write that changes one endpoint only needs to be looked at there. -/
lemma TxfeHeld.of_endpoint {otg otg' : OtgFs D} (h : otg.TxfeHeld) (ep : Fin numEndpoints)
    (hmask : otg'.diepEmptyMask = otg.diepEmptyMask)
    (hother : ∀ other, other ≠ ep → otg'.epIn other = otg.epIn other) :
    otg'.TxfeHeld ↔ (otg'.WantsWords ep → (otg'.epIn ep).int &&& diepintTxfe ≠ 0#32) := by
  rw [txfeHeld_iff] at h ⊢
  refine ⟨fun h' => h' ep, fun hep other hwants => ?_⟩
  by_cases heq : other = ep
  · subst heq
    exact hep hwants
  · obtain ⟨harmed, hlacks, hunmasked⟩ := hwants
    rw [InArmed, hother other heq] at harmed
    rw [inXfrsiz, hother other heq] at hlacks
    rw [Unmasked, hmask] at hunmasked
    rw [hother other heq]
    exact h other ⟨harmed, hlacks, hunmasked⟩

/-- An endpoint of which an update keeps the event, provided that it still wants words. -/
lemma TxfeHeld.modifyIn_iff {otg : OtgFs D} (h : otg.TxfeHeld) (ep : Fin numEndpoints)
    (f : EndpointRegs → EndpointRegs) :
    (otg.modifyIn ep f).TxfeHeld ↔
      ((otg.modifyIn ep f).WantsWords ep → (f (otg.epIn ep)).int &&& diepintTxfe ≠ 0#32) := by
  have hlocal : (otg.modifyIn ep f).TxfeHeld ↔ _ :=
    h.of_endpoint ep rfl fun other hother => update_of_ne hother _ _
  rwa [epIn_modifyIn] at hlocal

lemma wantsWords_modifyIn (otg : OtgFs D) (ep : Fin numEndpoints)
    (f : EndpointRegs → EndpointRegs) :
    (otg.modifyIn ep f).WantsWords ep ↔ (f (otg.epIn ep)).ctl &&& diepctlEpena ≠ 0#32 ∧
      (f (otg.epIn ep)).armedInBytesSent < ((f (otg.epIn ep)).tsiz &&& xfrsizMask).toNat ∧
      otg.Unmasked ep := by
  rw [wantsWords_iff, InArmed, inXfrsiz, epIn_modifyIn]
  rfl

/-- An endpoint that has been disarmed and completed wants nothing. -/
lemma TxfeHeld.complete {otg otg' : OtgFs D} (h : otg.TxfeHeld) (d : D) {ep : Fin numEndpoints}
    (hmask : otg'.diepEmptyMask = otg.diepEmptyMask)
    (hother : ∀ other, other ≠ ep → otg'.epIn other = otg.epIn other) :
    ((otg'.disarm ep).completeInTransfer d ep).1.TxfeHeld := by
  rw [txfeHeld_congr (txView_completeInTransfer _ d ep)]
  refine (h.of_endpoint ep ?_ ?_).mpr ?_
  · exact hmask
  · intro other hne
    rw [← hother other hne]
    exact (update_of_ne hne _ _).trans (update_of_ne hne _ _)
  · rintro ⟨harmed, -, -⟩
    rw [raiseInEndpointInterrupt, InArmed, epIn_modifyIn] at harmed
    exact absurd harmed (not_inArmed_disarm otg' ep)

/-- A word for the FIFO either ends the transfer or leaves the event as it is. -/
lemma TxfeHeld.pushTxFifoWord {otg : OtgFs D} {d : D} {ep : Fin numEndpoints} {value : U32}
    {r : OtgFs D × D} (h : otg.TxfeHeld) (hpush : otg.pushTxFifoWord d ep value = some r) :
    r.1.TxfeHeld := by
  have hother : ∀ other, other ≠ ep → (otg.pushed ep value).epIn other = otg.epIn other :=
    fun other hne => update_of_ne hne _ _
  rw [pushTxFifoWord_eq_some hpush]
  split
  · exact h.complete d rfl hother
  · refine (h.of_endpoint ep ?_ hother).mpr ?_
    · rfl
    rintro ⟨harmed, hlacks, hunmasked⟩
    rw [pushed, InArmed, epIn_modifyIn] at harmed
    rw [inXfrsiz, pushed, epIn_modifyIn] at hlacks
    rw [pushed, epIn_modifyIn]
    exact txfeHeld_iff.mp h ep ⟨harmed, Nat.lt_of_le_of_lt (Nat.le_add_right _ 4) hlacks, hunmasked⟩

/-- Enabling an endpoint raises the event, if it wants words. -/
lemma TxfeHeld.writeDiepctl {otg : OtgFs D} (h : otg.TxfeHeld) (d : D) (ep : Fin numEndpoints)
    (value : U32) : (otg.writeDiepctl d ep value).1.TxfeHeld := by
  have hother {f g : EndpointRegs → EndpointRegs} : ∀ other, other ≠ ep →
      ((otg.modifyIn ep f).modifyIn ep g).epIn other = otg.epIn other :=
    fun other hne => (update_of_ne hne _ _).trans (update_of_ne hne _ _)
  unfold OtgFs.writeDiepctl
  dsimp only
  split
  · split
    · exact h.complete d rfl hother
    split
    · refine (h.of_endpoint ep ?_ fun other hne => ?_).mpr fun _ => ?_
      · rfl
      · exact (update_of_ne hne _ _).trans (hother other hne)
      · rw [raiseInEndpointInterrupt, epIn_modifyIn]
        exact or_txfe_ne_zero _
    · next hmasked =>
      refine (h.of_endpoint ep ?_ ?_).mpr ?_
      · rfl
      · exact fun other hne => (update_of_ne hne _ _).trans (update_of_ne hne _ _)
      rintro ⟨-, -, hunmasked⟩
      exact absurd hunmasked hmasked
  · next hedge =>
    -- the endpoint was enabled before, or is not enabled now
    rw [h.modifyIn_iff]
    rintro ⟨harmed, hlacks, hunmasked⟩
    rw [InArmed, epIn_modifyIn] at harmed
    rw [inXfrsiz, epIn_modifyIn] at hlacks
    have hwas : otg.InArmed ep := by
      by_contra hwas
      exact hedge ⟨by simpa using harmed, by simpa using hwas⟩
    exact txfeHeld_iff.mp h ep ⟨hwas, hlacks, hunmasked⟩

/-- Unmasking raises the event on every armed endpoint that it unmasks. -/
lemma TxfeHeld.writeDiepempmsk {otg : OtgFs D} (h : otg.TxfeHeld) (value : U32) :
    (otg.writeDiepempmsk value).TxfeHeld := by
  rw [txfeHeld_iff] at h ⊢
  intro ep hwants
  have hepIn : (otg.writeDiepempmsk value).epIn ep =
      if value &&& ~~~otg.diepEmptyMask &&& (1#32 <<< ep.val) ≠ 0#32 ∧ otg.InArmed ep then
        { otg.epIn ep with int := (otg.epIn ep).int ||| diepintTxfe }
      else otg.epIn ep := rfl
  obtain ⟨harmed, hlacks, hunmasked⟩ := hwants
  rw [InArmed, hepIn] at harmed
  rw [inXfrsiz, hepIn] at hlacks
  rw [hepIn]
  split
  · exact or_txfe_ne_zero _
  · next hnew =>
    rw [if_neg hnew] at harmed hlacks
    refine h ep ⟨harmed, hlacks, ?_⟩
    -- the interrupt was unmasked before, since it is not newly unmasked
    intro hmasked
    refine hnew ⟨?_, harmed⟩
    have hunmasked : value &&& (1#32 <<< ep.val) ≠ 0#32 := hunmasked
    rw [and_one_shiftLeft_ne_zero_iff] at hunmasked ⊢
    rw [← not_ne_iff, and_one_shiftLeft_ne_zero_iff] at hmasked
    rw [BitVec.getLsbD_and, BitVec.getLsbD_not, hunmasked, Bool.not_eq_true _ |>.mp hmasked]
    simpa using BitVec.lt_of_getLsbD hunmasked

/-- A register write keeps the event exactly when it neither acknowledges it nor makes it due
anew. -/
lemma TxfeHeld.registerWrite_iff {otg : OtgFs D} {d : D} {offset value : U32} {r : OtgFs D × D}
    (h : otg.TxfeHeld) (hwrite : otg.registerWrite d offset value = some r) :
    r.1.TxfeHeld ↔ KeepsTxfe (otg, d) (.write offset value : UsbAction W) := by
  rcases hdiep : decodeEndpoint diepBase offset with _ | ⟨ep, reg⟩
  · have hkeeps : KeepsTxfe (otg, d) (.write offset value : UsbAction W) := by
      intro ep
      rw [hdiep]
      exact ⟨nofun, nofun⟩
    refine iff_of_true ?_ hkeeps
    cases registerWrite_cases hwrite with
    | fifo _ hpush => exact h.pushTxFifoWord hpush
    | diepctl _ hdecode => cases hdiep.symm.trans hdecode
    | diep _ hdecode => cases hdiep.symm.trans hdecode
    | @doepctl ep =>
      obtain ⟨_, _, heq⟩ := queuesOnly_writeDoepctl otg ep value
      refine h.congr ?_
      rw [heq]
      rfl
    | doep => exact h.congr rfl
    | global hfifo _ hdoep =>
      rcases registerWrite_global hwrite hfifo hdiep hdoep with
        ⟨-, heq⟩ | ⟨-, -, heq⟩ | ⟨-, -, -, -, hepIn, hmask, -⟩
      · cases heq
        exact h.congr rfl
      · cases heq
        exact h.writeDiepempmsk value
      · exact h.congr (Prod.ext hepIn hmask)
  · have hkeeps : KeepsTxfe (otg, d) (.write offset value : UsbAction W) ↔
        (reg = epIntOffset → value &&& diepintTxfe ≠ 0#32 → ¬ otg.WantsWords ep) ∧
        (reg = epTsizOffset → otg.InArmed ep → otg.Unmasked ep →
          (otg.epIn ep).armedInBytesSent < (value &&& xfrsizMask).toNat →
          (otg.epIn ep).int &&& diepintTxfe ≠ 0#32) := by
      constructor
      · intro hkeeps
        exact ⟨fun hreg => (hkeeps ep).1 (by rw [hdiep, hreg]),
          fun hreg => (hkeeps ep).2 (by rw [hdiep, hreg])⟩
      · rintro ⟨hint, htsiz⟩ other
        constructor
        · intro hdecode
          cases hdiep.symm.trans hdecode
          exact hint rfl
        · intro hdecode
          cases hdiep.symm.trans hdecode
          exact htsiz rfl
    rw [registerWrite_diep hdiep] at hwrite
    cases hwrite
    rw [hkeeps]
    split_ifs with hctl hint htsiz
    · exact iff_of_true (h.writeDiepctl d ep value) (by subst hctl; exact ⟨nofun, nofun⟩)
    · -- the interrupts of an endpoint are acknowledged
      subst hint
      rw [h.modifyIn_iff]
      have hsame : (otg.modifyIn ep fun regs =>
          { regs with int := regs.int &&& ~~~value }).WantsWords ep ↔
          otg.WantsWords ep := (wantsWords_modifyIn otg ep _).trans wantsWords_iff.symm
      have hheld := txfeHeld_iff.mp h ep
      rw [hsame, and_not_txfe_ne_zero_iff]
      constructor
      · intro hkept
        exact ⟨fun _ hacked hwants => (hkept hwants).2 hacked, nofun⟩
      · rintro ⟨hkept, -⟩ hwants
        exact ⟨hheld hwants, fun hacked => hkept rfl hacked hwants⟩
    · -- the transfer gets a new size
      subst htsiz
      rw [h.modifyIn_iff, wantsWords_modifyIn]
      constructor
      · intro hkept
        exact ⟨nofun, fun _ harmed hunmasked hlacks => hkept ⟨harmed, hlacks, hunmasked⟩⟩
      · rintro ⟨-, hkept⟩ ⟨harmed, hlacks, hunmasked⟩
        exact hkept rfl harmed hunmasked hlacks
    · exact iff_of_true h ⟨fun h => absurd h hint, fun h => absurd h htsiz⟩

/-- **One action keeps the event** exactly when it meets the condition. -/
lemma TxfeHeld.step_iff {move : W → D → D} {s s' : UsbState D} {a : UsbAction W} (h : s.1.TxfeHeld)
    (hstep : usbStep move s a = some s') : s'.1.TxfeHeld ↔ KeepsTxfe s a := by
  cases a with
  | write offset value => exact h.registerWrite_iff hstep
  | read offset =>
    obtain ⟨r, hread, rfl⟩ := Option.map_eq_some_iff.mp hstep
    exact iff_of_true (h.congr (txView_registerRead hread)) trivial
  | poll nvic n =>
    obtain ⟨r, hpoll, rfl⟩ := Option.map_eq_some_iff.mp hstep
    exact iff_of_true (h.poll hpoll) trivial
  | busReset =>
    cases hstep
    exact iff_of_true (txfeHeld_virtualHostReset _ _) trivial
  | setup ep packet =>
    cases hstep
    exact iff_of_true (h.congr rfl) trivial
  | controlOut ep packet data =>
    cases hstep
    obtain ⟨_, _, heq⟩ := queuesOnly_virtualHostControlOut s.1 ep packet.1 data.1
    rw [heq]
    exact iff_of_true (h.congr rfl) trivial
  | outside w =>
    cases hstep
    exact iff_of_true h trivial

end OtgFs

/-- **The FIFO-empty event is a level.**  In every run from power-on that neither acknowledges the
event of an endpoint that wants words, nor makes an armed endpoint want words anew while it does not
show the event, the event is never lost; and the next action keeps it exactly when it does
neither. -/
theorem txfe_held (move : W → D → D) (bridge : Option (UsbBridge D)) (d : D)
    {as : List (UsbAction W)} {s : UsbState D}
    (hrun : Run (guardedStep KeepsTxfe (stepRel (usbStep move))) (OtgFs.new bridge, d) as s) :
    s.1.TxfeHeld ∧ ∀ a s', usbStep move s a = some s' → (s'.1.TxfeHeld ↔ KeepsTxfe s a) := by
  have hheld : s.1.TxfeHeld := by
    refine hrun.invariant_state (I := fun s => s.1.TxfeHeld) (txfeHeld_new bridge) ?_
    rintro s s' a h ⟨hkeeps, hstep⟩
    exact (h.step_iff hstep).mpr hkeeps
  exact ⟨hheld, fun a s' hstep => hheld.step_iff hstep⟩

/-- Firmware unmasks the event of endpoint 2, arms a transfer of eight bytes and pushes four of
them. -/
theorem txfe_held_sample :
    ∃ (as : List (UsbAction Unit)) (s : UsbState Unit),
      Run (guardedStep KeepsTxfe (stepRel (usbStep fun _ d => d))) (OtgFs.new none, ()) as s ∧
      s.1.WantsWords 2 ∧ s.1.TxfeHeld := by
  have hexec : (execGuarded KeepsTxfe (usbStep fun (_ : Unit) d => d) (OtgFs.new none, ())
      [.write 0x834 4, .write 0x950 8, .write 0x940 0x80000000, .write 0x3000 0x44434241]).map
      (fun s => decide (s.1.WantsWords 2)) = some true := by
    decide +kernel
  obtain ⟨s, hexec, hwants⟩ := Option.map_eq_some_iff.mp hexec
  have hrun := Run.of_execGuarded hexec
  exact ⟨_, s, hrun, of_decide_eq_true hwants, (txfe_held _ _ _ hrun).1⟩

/-- Firmware arms a transfer of eight bytes and acknowledges the event. -/
def sampleAcknowledge : List (UsbAction Unit) :=
  [.write 0x834 4, .write 0x950 8, .write 0x940 0x80000000, .write 0x948 0x80]

/-- The event is lost, and the transfer is stuck. -/
theorem acknowledged_event_lost :
    ∃ s : UsbState Unit, Run (stepRel (usbStep fun _ d => d))
      (OtgFs.new none, ()) sampleAcknowledge s ∧
      s.1.WantsWords 2 ∧ (s.1.registerRead 0x948).map Prod.snd = some 0#32 ∧ ¬ s.1.TxfeHeld := by
  have hexec : (execGuarded (fun _ _ => True) (usbStep fun _ d => d) (OtgFs.new none, ())
      sampleAcknowledge).map
      (fun s => (decide (s.1.WantsWords 2), (s.1.registerRead 0x948).map Prod.snd,
        (s.1.epIn 2).int))
        = some (true, some 0#32, 0#32) := by
    decide +kernel
  obtain ⟨s, hexec, hvalues⟩ := Option.map_eq_some_iff.mp hexec
  simp only [Prod.mk.injEq, decide_eq_true_eq] at hvalues
  obtain ⟨hwants, hread, hint⟩ := hvalues
  refine ⟨s, (Run.of_execGuarded hexec).mono fun _ _ _ h => h.2, hwants, hread, fun hheld => ?_⟩
  have htxfe := txfeHeld_iff.mp hheld 2 hwants
  rw [hint] at htxfe
  exact htxfe BitVec.zero_and

end Stm32Emulator
