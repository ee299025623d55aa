import Stm32Emulator.Bus.Registers
import Stm32Emulator.Usb.TxEmpty

/-!
# Unwritten lanes of the USB registers

The registers of the controller as `Bus.Lanes` has those of the other peripherals: of the interrupt
registers a write of some of the bytes clears what is set in the others, and all other registers
keep the others as they are.  A read changes nothing unless it takes something out of a queue.
-/

namespace Stm32Emulator

open Function

namespace OtgFs

variable {D : Type}

/-! ## Reads -/

lemma popRxFifoWord_eq_self_iff (otg : OtgFs D) : otg.popRxFifoWord.1 = otg ↔ otg.rxFifo = [] := by
  constructor
  · intro h
    have hlength := congrArg (fun x : OtgFs D => x.rxFifo.length) h
    simp only [popRxFifoWord, List.length_drop] at hlength
    exact List.length_eq_zero_iff.mp (by omega)
  · intro h
    simp only [popRxFifoWord, h, List.drop_nil]
    rw [← h]

lemma popRxStatus_eq_self_iff {otg : OtgFs D} {r : OtgFs D × U32} (h : otg.popRxStatus = some r) :
    r.1 = otg ↔ otg.rxStatus = [] := by
  constructor
  · intro hsame
    obtain ⟨-, epOut, heq⟩ := popRxStatus_eq_some h
    have hlength := congrArg (fun x : OtgFs D => x.rxStatus.length) (heq.symm.trans hsame)
    simp only [List.length_tail] at hlength
    exact List.length_eq_zero_iff.mp (by omega)
  · intro hempty
    simp only [popRxStatus, hempty, List.headD_nil, List.tail_nil] at h
    rw [if_neg (by decide), if_neg (by decide)] at h
    obtain rfl := Option.some.inj h
    dsimp only
    rw [← hempty]

/-- A read of the controller takes something out of a queue or changes nothing. -/
lemma registerRead_eq_self_iff {otg : OtgFs D} {offset : U32} {r : OtgFs D × U32}
    (h : otg.registerRead offset = some r) :
    r.1 = otg ↔ (fifoEndpoint offset = some 0 → otg.rxFifo = []) ∧
    (offset = grxstsp → otg.rxStatus = []) := by
  have hne : fifoEndpoint grxstsp = none := by decide
  rcases registerRead_cases h with ⟨hfifo, rfl⟩ | ⟨hfifo, rfl, hpop⟩ | ⟨hfifo, hpop, hsame⟩
  · rw [popRxFifoWord_eq_self_iff]
    constructor
    · intro hempty
      refine ⟨fun _ => hempty, ?_⟩
      rintro rfl
      rw [hne] at hfifo
      cases hfifo
    · intro hempty
      exact hempty.1 hfifo
  · rw [popRxStatus_eq_self_iff hpop]
    exact ⟨fun hempty => ⟨fun h => absurd h hfifo, fun _ => hempty⟩, fun hempty => hempty.2 rfl⟩
  · exact iff_of_true hsame ⟨fun h => absurd h hfifo, fun h => absurd h hpop⟩

/-! ## Writes -/

/-- The words of the registers that hold what a read gives. -/
lemma word_of_registerRead {otg otg' : OtgFs D} {offset v : U32}
    (hfifo : fifoEndpoint offset = none) (hpop : offset ≠ grxstsp) (hstatus : offset ≠ gintsts)
    (h : otg.registerRead offset = some (otg', v)) :
    otg.word offset = v := by
  have hwindow : ¬ ((fifoEndpoint offset).isSome ∨ offset = grxstsp) := by
    rw [hfifo]
    exact not_or.mpr ⟨Bool.false_ne_true, hpop⟩
  rw [word, if_neg hwindow, if_neg hstatus, h]
  rfl

/-- A stored flag is seen in the interrupt status. -/
lemma getLsbD_effectiveGintsts {otg : OtgFs D} {i : ℕ}
    (h : otg.globalInterruptStatus.getLsbD i = true) :
    otg.effectiveGintsts.getLsbD i = true := by
  unfold effectiveGintsts
  dsimp only
  split_ifs <;> simp [h]

/-- Of a control register a write keeps what it does not replace: it disarms the endpoint only when
it has armed it. -/
lemma agreeOutside_ctl_writeDiepctl (otg : OtgFs D) (d : D) (ep : Fin numEndpoints)
    (value mask : U32) :
    AgreeOutside mask
      ((otg.writeDiepctl d ep (mergeLanes (otg.epIn ep).ctl value mask)).1.epIn ep).ctl
      (otg.epIn ep).ctl := by
  by_cases hempty : (mergeLanes (otg.epIn ep).ctl value mask &&& diepctlEpena ≠ 0#32 ∧
    ¬ otg.InArmed ep) ∧
      otg.inXfrsiz ep = 0
  · obtain ⟨harms, hxfrsiz⟩ := hempty
    rw [writeDiepctl_of_empty harms hxfrsiz]
    have hepIn := congrArg Prod.fst
      (txView_completeInTransfer
        ((otg.enabled ep (mergeLanes (otg.epIn ep).ctl value mask)).disarm ep) d ep)
    have hepIn :
        (((otg.enabled ep (mergeLanes (otg.epIn ep).ctl value mask)).disarm ep).completeInTransfer
        d ep).1.epIn = _ := hepIn
    rw [hepIn]
    simp only [txView, raiseInEndpointInterrupt, disarm, enabled, epIn_modifyIn]
    have hbit : (diepctlEpena : U32) = 1#32 <<< 31 := by decide
    rw [hbit] at harms ⊢
    have hnew := (and_one_shiftLeft_ne_zero_iff _ 31).mp harms.1
    have hold := (and_one_shiftLeft_ne_zero_iff _ 31).not.mp harms.2
    rw [agreeOutside_iff]
    intro i hi
    have hne : i ≠ 31 := by
      rintro rfl
      rw [getLsbD_mergeLanes_of_not hi] at hnew
      exact hold hnew
    rw [BitVec.getLsbD_and, BitVec.getLsbD_not, getLsbD_one_shiftLeft, getLsbD_mergeLanes_of_not hi]
    by_cases hlt : i < 32
    · simp [hne, hlt]
    · rw [BitVec.getLsbD_of_ge _ i (by omega), Bool.false_and]
  · obtain ⟨f, heq, hctl⟩ := writeDiepctl_of_not_empty hempty d
    rw [heq, epIn_modifyIn, hctl]
    exact agreeOutside_mergeLanes _ _ _

lemma registerRead_diep (otg : OtgFs D) {offset : U32} {ep : Fin numEndpoints} {reg : ℕ}
    (hdecode : decodeEndpoint diepBase offset = some (ep, reg)) :
    otg.registerRead offset = some (otg,
      if reg = epCtlOffset then (otg.epIn ep).ctl
      else if reg = epIntOffset then (otg.epIn ep).int
      else if reg = epTsizOffset then (otg.epIn ep).tsiz
      else if reg = dtxfstsOffset then dtxfstsAvailableWords
      else 0#32) := by
  unfold registerRead
  rw [fifoEndpoint_eq_none_of_decodeEndpoint (by decide) hdecode, hdecode]

lemma registerRead_doep (otg : OtgFs D) {offset : U32} {ep : Fin numEndpoints} {reg : ℕ}
    (hdiep : decodeEndpoint diepBase offset = none)
    (hdecode : decodeEndpoint doepBase offset = some (ep, reg)) :
    otg.registerRead offset = some (otg,
      if reg = epCtlOffset then (otg.epOut ep).ctl
      else if reg = epIntOffset then (otg.epOut ep).int
      else if reg = epTsizOffset then (otg.epOut ep).tsiz
      else 0#32) := by
  unfold registerRead
  rw [fifoEndpoint_eq_none_of_decodeEndpoint (by decide) hdecode, hdiep, hdecode]

/-- Where the address is that of an interrupt register, all that is set in it is in the lanes of the
mask. -/
structure FlagsWithin (otg : OtgFs D) (offset mask : U32) : Prop where
  status : offset = gintsts → otg.globalInterruptStatus &&& ~~~mask = 0#32
  epIn : ∀ ep, decodeEndpoint diepBase offset = some (ep, epIntOffset) →
    (otg.epIn ep).int &&& ~~~mask = 0#32
  epOut : ∀ ep, decodeEndpoint doepBase offset = some (ep, epIntOffset) →
    (otg.epOut ep).int &&& ~~~mask = 0#32

section Writes

variable {otg otg' : OtgFs D} {d d' : D} {offset v value mask : U32}

/-- The registers of the endpoints are neither the FIFO windows nor the ones that a read or a write
of them changes otherwise. -/
lemma plain_of_decodeEndpoint {base : ℕ} {ep : Fin numEndpoints} {reg : ℕ}
    (hbase : diepBase ≤ base ∧ base ≤ doepBase)
    (hdecode : decodeEndpoint base offset = some (ep, reg)) :
    fifoEndpoint offset = none ∧ offset ≠ grxstsp ∧ offset ≠ gintsts := by
  have hlow : ∀ {o : U32}, o.toNat < diepBase → decodeEndpoint base o = none := fun ho =>
    if_pos (ho.trans_le hbase.1)
  refine ⟨fifoEndpoint_eq_none_of_decodeEndpoint hbase.2 hdecode, ?_, ?_⟩
  · rintro rfl
    rw [hlow (by decide)] at hdecode
    cases hdecode
  · rintro rfl
    rw [hlow (by decide)] at hdecode
    cases hdecode

/-- A register of an IN endpoint. -/
lemma agreeOutside_registerWrite_diep_iff {ep : Fin numEndpoints} {reg : ℕ}
    (hdecode : decodeEndpoint diepBase offset = some (ep, reg))
    (hread : otg.registerRead offset = some (otg, v))
    (hwrite : otg.registerWrite d offset (mergeLanes v value mask) = some (otg', d')) :
    AgreeOutside mask (otg'.word offset) (otg.word offset) ↔
      (reg = epIntOffset → (otg.epIn ep).int &&& ~~~mask = 0#32) := by
  obtain ⟨hfifo, hpop, hstatus⟩ := plain_of_decodeEndpoint (by decide) hdecode
  rw [word_of_registerRead hfifo hpop hstatus (otg'.registerRead_diep hdecode),
    word_of_registerRead hfifo hpop hstatus (otg.registerRead_diep hdecode)]
  rw [registerRead_diep otg hdecode] at hread
  rw [registerWrite_diep hdecode] at hwrite
  have hv := (Prod.mk.inj (Option.some.inj hread)).2
  have hotg := congrArg Prod.fst (Option.some.inj hwrite)
  dsimp only at hotg
  subst hv hotg
  by_cases hctl : reg = epCtlOffset
  · subst hctl
    exact iff_of_true (agreeOutside_ctl_writeDiepctl otg d ep value mask) nofun
  by_cases hint : reg = epIntOffset
  · subst hint
    simp only [if_neg hctl, if_true, epIn_modifyIn, forall_const]
    exact agreeOutside_and_not_mergeLanes_iff (fun _ h => h) value mask
  refine iff_of_true ?_ fun h => absurd h hint
  by_cases htsiz : reg = epTsizOffset
  · subst htsiz
    simp only [if_neg hctl, if_neg hint, if_true, epIn_modifyIn]
    exact agreeOutside_mergeLanes _ _ _
  · simp only [if_neg hctl, if_neg hint, if_neg htsiz]
    exact AgreeOutside.refl _ _

/-- A register of an OUT endpoint. -/
lemma agreeOutside_registerWrite_doep_iff {ep : Fin numEndpoints} {reg : ℕ}
    (hdiep : decodeEndpoint diepBase offset = none)
    (hdecode : decodeEndpoint doepBase offset = some (ep, reg))
    (hread : otg.registerRead offset = some (otg, v))
    (hwrite : otg.registerWrite d offset (mergeLanes v value mask) = some (otg', d')) :
    AgreeOutside mask (otg'.word offset) (otg.word offset) ↔
      (reg = epIntOffset → (otg.epOut ep).int &&& ~~~mask = 0#32) := by
  obtain ⟨hfifo, hpop, hstatus⟩ := plain_of_decodeEndpoint (by decide) hdecode
  rw [word_of_registerRead hfifo hpop hstatus (otg'.registerRead_doep hdiep hdecode),
    word_of_registerRead hfifo hpop hstatus (otg.registerRead_doep hdiep hdecode)]
  rw [registerRead_doep otg hdiep hdecode] at hread
  rw [registerWrite_doep hdiep hdecode] at hwrite
  have hv := (Prod.mk.inj (Option.some.inj hread)).2
  have hotg := congrArg Prod.fst (Option.some.inj hwrite)
  dsimp only at hotg
  have hmodify : ∀ f, (otg.modifyOut ep f).epOut ep = f (otg.epOut ep) := fun f => update_self ..
  subst hv hotg
  by_cases hctl : reg = epCtlOffset
  · subst hctl
    have hctl : ∀ x, ((otg.writeDoepctl ep x).epOut ep).ctl = x := by
      intro x
      obtain ⟨_, _, hqueues⟩ := queuesOnly_writeDoepctl otg ep x
      rw [hqueues]
      dsimp only
      rw [hmodify]
    simp only [if_true, hctl]
    exact iff_of_true (agreeOutside_mergeLanes _ _ _) nofun
  by_cases hint : reg = epIntOffset
  · subst hint
    simp only [if_neg hctl, if_true, hmodify, forall_const]
    exact agreeOutside_and_not_mergeLanes_iff (fun _ h => h) value mask
  refine iff_of_true ?_ fun h => absurd h hint
  by_cases htsiz : reg = epTsizOffset
  · subst htsiz
    simp only [if_neg hctl, if_neg hint, if_true, hmodify]
    exact agreeOutside_mergeLanes _ _ _
  · simp only [if_neg hctl, if_neg hint, if_neg htsiz]
    exact AgreeOutside.refl _ _

/-- The reset register reads with a ready flag that it does not hold, and does not hold its
requests. -/
lemma agreeOutside_insertRegister_grstctl (otg : OtgFs D) (value mask : U32) :
    AgreeOutside mask
      ((otg.insertRegister grstctl
        (mergeLanes (otg.registers grstctl ||| 0x80000000#32) value mask &&&
          ~~~grstctlSelfClearing)).registers grstctl ||| 0x80000000#32)
      (otg.registers grstctl ||| 0x80000000#32) := by
  have hkeep : (otg.registers grstctl ||| 0x80000000#32) &&& ~~~grstctlSelfClearing
      = otg.registers grstctl ||| 0x80000000#32 := by
    apply and_not_of_and_eq_zero
    have hready : (0x80000000#32 : U32) &&& grstctlSelfClearing = 0#32 := by decide
    rw [BitVec.and_comm, BitVec.and_or_distrib_left, BitVec.and_comm, otg.grstctl_selfClearing,
      BitVec.and_comm, hready, BitVec.or_zero]
  have hagree := (agreeOutside_mergeLanes_and hkeep value mask).or_right 0x80000000#32
  simp only [insertRegister, update_self, if_true, BitVec.and_assoc, BitVec.and_self]
  rwa [BitVec.or_assoc, BitVec.or_self] at hagree

/-- A register past the endpoint banks. -/
lemma agreeOutside_registerWrite_global_iff (hfifo : fifoEndpoint offset = none)
    (hdiep : decodeEndpoint diepBase offset = none) (hdoep : decodeEndpoint doepBase offset = none)
    (hread : otg.registerRead offset = some (otg, v))
    (hwrite : otg.registerWrite d offset (mergeLanes v value mask) = some (otg', d')) :
    AgreeOutside mask (otg'.word offset) (otg.word offset) ↔
      (offset = gintsts → otg.globalInterruptStatus &&& ~~~mask = 0#32) := by
  by_cases hstatus : offset = gintsts
  · subst hstatus
    obtain ⟨-, rfl⟩ := Prod.mk.inj (Option.some.inj hread)
    obtain ⟨rfl, -⟩ := Prod.mk.inj (Option.some.inj hwrite)
    have hagree : AgreeOutside mask
        (otg.globalInterruptStatus &&& ~~~mergeLanes otg.effectiveGintsts value mask)
        otg.globalInterruptStatus ↔ _ :=
      agreeOutside_and_not_mergeLanes_iff (fun _ h => getLsbD_effectiveGintsts h) value mask
    exact hagree.trans (by simp)
  refine iff_of_true ?_ fun h => absurd h hstatus
  by_cases hpop : offset = grxstsp
  · subst hpop
    exact AgreeOutside.refl _ _
  have hstored {v' : U32} (hread' : otg'.registerRead offset = some (otg', v'))
      (h : v' = v ∨ v' = mergeLanes v value mask) :
        AgreeOutside mask (otg'.word offset) (otg.word offset) := by
    rw [word_of_registerRead hfifo hpop hstatus hread',
      word_of_registerRead hfifo hpop hstatus hread]
    exact agreeOutside_of_stored value h
  by_cases hstores : offset ∈
    [gintmsk, dcfgOffset, dctlOffset, diepmsk, doepmsk, daintmsk, diepempmsk]
  · simp only [List.mem_cons, List.not_mem_nil, or_false] at hstores
    rcases hstores with rfl | rfl | rfl | rfl | rfl | rfl | rfl <;>
    · obtain ⟨rfl, -⟩ := Prod.mk.inj (Option.some.inj hwrite)
      exact hstored rfl (Or.inr rfl)
  by_cases hcomputed : offset ∈ [grxstsr, daintOffset]
  · simp only [List.mem_cons, List.not_mem_nil, or_false] at hcomputed
    rcases hcomputed with rfl | rfl <;>
    · obtain ⟨-, rfl⟩ := Prod.mk.inj (Option.some.inj hread)
      obtain ⟨rfl, -⟩ := Prod.mk.inj (Option.some.inj hwrite)
      exact hstored rfl (Or.inl rfl)
  by_cases hgrstctl : offset = grstctl
  · subst hgrstctl
    obtain ⟨-, rfl⟩ := Prod.mk.inj (Option.some.inj hread)
    obtain ⟨rfl, -⟩ := Prod.mk.inj (Option.some.inj hwrite)
    exact agreeOutside_insertRegister_grstctl otg value mask
  simp only [List.mem_cons, List.not_mem_nil, or_false, not_or] at hstores hcomputed
  obtain ⟨hgintmsk, hdcfg, hdctl, hdiepmsk, hdoepmsk, hdaintmsk, hdiepempmsk⟩ := hstores
  have hregister : ∀ x : OtgFs D, x.registerRead offset = some (x, x.registers offset) := by
    intro x
    unfold registerRead
    rw [hfifo, hdiep, hdoep]
    simp only [hgrstctl, hstatus, hgintmsk, hpop, hcomputed.1, hdcfg, hdctl, hdiepmsk,
      hdoepmsk, hcomputed.2, hdaintmsk, hdiepempmsk, if_false]
  unfold registerWrite at hwrite
  rw [hfifo, hdiep, hdoep] at hwrite
  simp only [hgrstctl, hstatus, hgintmsk, hdcfg, hdctl, hdiepmsk, hdoepmsk, hdaintmsk,
    hdiepempmsk, if_false] at hwrite
  obtain ⟨rfl, -⟩ := Prod.mk.inj (Option.some.inj hwrite)
  refine hstored (hregister _) (Or.inr ?_)
  simp only [insertRegister, update_self, if_neg hgrstctl]

/-- A write keeps the lanes that it does not write exactly when no flag is set in them that it
clears. -/
lemma agreeOutside_registerWrite_iff (hread : otg.registerRead offset = some (otg, v))
    (hwrite : otg.registerWrite d offset (mergeLanes v value mask) = some (otg', d')) :
    AgreeOutside mask (otg'.word offset) (otg.word offset) ↔ otg.FlagsWithin offset mask := by
  have hnotStatus : ∀ {base ep reg}, diepBase ≤ base → decodeEndpoint base offset = some (ep, reg) →
      offset ≠ gintsts := by
    intro base ep reg hbase hdecode
    rintro rfl
    rw [decodeEndpoint, if_pos (lt_of_lt_of_le (by decide) hbase)] at hdecode
    cases hdecode
  cases hfifo : fifoEndpoint offset with
  | some ep =>
    have hwindow : ∀ x : OtgFs D, x.word offset = 0 := by
      intro x
      rw [word, hfifo]
      rfl
    rw [hwindow, hwindow]
    refine iff_of_true (AgreeOutside.refl _ _) ⟨?_, ?_, ?_⟩
    · rintro rfl
      cases hfifo
    · intro ep hdecode
      cases hfifo.symm.trans (fifoEndpoint_eq_none_of_decodeEndpoint (by decide) hdecode)
    · intro ep hdecode
      cases hfifo.symm.trans (fifoEndpoint_eq_none_of_decodeEndpoint (by decide) hdecode)
  | none =>
  cases hdiep : decodeEndpoint diepBase offset with
  | some r =>
    obtain ⟨ep, reg⟩ := r
    rw [agreeOutside_registerWrite_diep_iff hdiep hread hwrite]
    constructor
    · intro h
      refine ⟨fun hstatus => absurd hstatus (hnotStatus (by decide) hdiep), ?_, ?_⟩
      · intro ep' hdecode
        obtain ⟨rfl, rfl⟩ := Prod.mk.inj (Option.some.inj (hdiep.symm.trans hdecode))
        exact h rfl
      · intro ep' hdecode
        cases hdecode.symm.trans (decodeEndpoint_doepBase_of_diepBase hdiep)
    · rintro h rfl
      exact h.epIn ep hdiep
  | none =>
  cases hdoep : decodeEndpoint doepBase offset with
  | some r =>
    obtain ⟨ep, reg⟩ := r
    rw [agreeOutside_registerWrite_doep_iff hdiep hdoep hread hwrite]
    constructor
    · intro h
      refine ⟨fun hstatus => absurd hstatus (hnotStatus (by decide) hdoep), ?_, ?_⟩
      · intro ep' hdecode
        cases hdecode.symm.trans hdiep
      · intro ep' hdecode
        obtain ⟨rfl, rfl⟩ := Prod.mk.inj (Option.some.inj (hdoep.symm.trans hdecode))
        exact h rfl
    · rintro h rfl
      exact h.epOut ep hdoep
  | none =>
    rw [agreeOutside_registerWrite_global_iff hfifo hdiep hdoep hread hwrite]
    constructor
    · intro h
      refine ⟨h, ?_, ?_⟩
      · intro ep hdecode
        cases hdecode.symm.trans hdiep
      · intro ep hdecode
        cases hdecode.symm.trans hdoep
    · intro h
      exact h.status

end Writes

end OtgFs

end Stm32Emulator
