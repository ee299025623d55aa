import Stm32Emulator.Embedded.Sessions

/-!
# Requests to stop

A host may ask for a stop at any time, and the flag of the request is a static that every call
resets on its way to the main loop.  A request is honoured by the first round of the main loop that
returns after it, if the call had reset the flag by then; an earlier request is lost.
-/

namespace Stm32Emulator

namespace Embedded

variable {L E ι : Type} [DecidableEq ι] {s : ProcessState L E} {t : RunState L E}
    {a : RunAction L E}
  {r : ProcessState L E × RunState L E}

/-- The flag after a step of a thread.  The hooks of a round may ask for a stop as well. -/
def stopRequestedBy (requested : Bool) : RunAction L E → Bool
  | .advance .resetStopRequested => false
  | .round start => requested || start.stopRequested
  | _ => requested

/-- Whether there is a request after another step, for a thread that looks at its own steps and the
host. -/
def stopRequestedStep (i : ι) (requested : Bool) : ProcessAction ι L E → Bool
  | .outside .requestStop => true
  | .outside _ => requested
  | .thread j a => if j = i then stopRequestedBy requested a else requested

/-- Whether a stop was asked for since a thread has reset the flag. -/
def stopRequestedSince (i : ι) (as : List (ProcessAction ι L E)) : Bool :=
  as.foldl (stopRequestedStep i) false

/-- The points from the reset of the flag to the end of the main loop. -/
def RunPoint.listens (point : RunPoint) : Prop := point ∈ [.newBridges, .newEcuIos, .mainLoop]

instance (point : RunPoint) : Decidable point.listens := inferInstanceAs (Decidable (_ ∈ _))

lemma RunPoint.listens.inCall (h : t.point.listens) : InCall t := by
  intro hout
  rw [hout] at h
  revert h
  decide

/-- A call adds its requests to the earlier ones. -/
lemma afterCall_stopRequested (stopAddr : Option U32) (loop : MainLoop) (start : EmuStart) :
    (loop.afterCall stopAddr start).stopRequested =
      (loop.stopRequested || start.stopRequested) := by
  unfold MainLoop.afterCall MainLoop.returned
  dsimp only
  split_ifs <;> rfl

/-- The loop ends with a request exactly when there is one. -/
lemma afterCall_ended_iff {stopAddr : Option U32} {loop : MainLoop} {start : EmuStart}
    (hended : loop.ended = none) :
    (loop.afterCall stopAddr start).ended = some .stopRequested ↔
      (loop.stopRequested || start.stopRequested) = true := by
  unfold MainLoop.afterCall MainLoop.returned
  dsimp only
  split_ifs with hstop <;> simp [hstop, hended]

lemma round_eq_afterCall {maxInstructions : Option ℕ} {stopAddr : Option U32}
    {loop loop' : MainLoop} {start : EmuStart}
    (h : loop.round maxInstructions stopAddr start = some loop') :
    loop.ended = none ∧ loop' = loop.afterCall stopAddr start := by
  unfold MainLoop.round at h
  split_ifs at h with hhead
  exact ⟨hhead.1, (Option.some.inj h).symm⟩

section Step

variable [DecidableEq L] [DecidableEq E]

omit [DecidableEq E] in
lemma newBridge_stopRequested (s : ProcessState L E) (t : RunState L E) (maxBufferedBytes : ℕ)
    (bound : Bool) :
    (newBridge s t maxBufferedBytes bound).1.stopRequested = s.stopRequested := by
  unfold newBridge
  by_cases hzero : maxBufferedBytes = 0
  · rw [if_pos hzero]
  · rw [if_neg hzero]
    dsimp only
    split
    · rfl
    · split <;> rfl

omit [DecidableEq L] in
lemma newEcuIo_stopRequested (s : ProcessState L E) (t : RunState L E) (bound pinsValid : Bool) :
    (newEcuIo s t bound pinsValid).1.stopRequested = s.stopRequested := by
  unfold newEcuIo
  dsimp only
  split <;> split <;> rfl

/-- Whatever a thread does, the flag of the requests changes in two places. -/
lemma runStep_stopRequested (hstep : runStep s t a = some r) :
    r.1.stopRequested = stopRequestedBy s.stopRequested a := by
  cases a with
  | runEmbedded options =>
    simp only [runStep, Option.ite_none_left_eq_some] at hstep
    obtain ⟨-, hstep⟩ := hstep
    split at hstep <;> cases hstep <;> rfl
  | advance point =>
    simp only [runStep, Option.ite_none_right_eq_some, Option.map_eq_some_iff] at hstep
    obtain ⟨-, ⟨s', point'⟩, hadvance, rfl⟩ := hstep
    cases point <;> cases hadvance <;> rfl
  | newBridge maxBufferedBytes bound =>
    simp only [runStep, Option.ite_none_right_eq_some, Option.some.injEq] at hstep
    obtain ⟨-, rfl⟩ := hstep
    exact newBridge_stopRequested s t maxBufferedBytes bound
  | newEcuIo bound pinsValid =>
    simp only [runStep, Option.ite_none_right_eq_some, Option.some.injEq] at hstep
    obtain ⟨-, rfl⟩ := hstep
    exact newEcuIo_stopRequested s t bound pinsValid
  | round start =>
    simp only [runStep, Option.ite_none_right_eq_some, Option.map_eq_some_iff] at hstep
    obtain ⟨-, loop, hround, rfl⟩ := hstep
    obtain ⟨-, rfl⟩ := round_eq_afterCall hround
    exact afterCall_stopRequested _ _ _
  | dropBridge =>
    simp only [runStep] at hstep
    split at hstep <;> cases hstep <;> rfl
  | dropEcuIo =>
    simp only [runStep] at hstep
    split at hstep <;> cases hstep <;> rfl
  | _ =>
    simp only [runStep, Option.ite_none_right_eq_some, Option.some.injEq] at hstep
    obtain ⟨-, rfl⟩ := hstep
    rfl

/-- A thread comes to listen by resetting the flag, and listens on in its call. -/
lemma runStep_listens (hstep : runStep s t a = some r) (hlistens : r.2.point.listens) :
    a = .advance .resetStopRequested ∨ t.point.listens := by
  -- the points at which the devices are built and the loop runs
  have hold : ∀ {point : RunPoint}, point.listens → t.point = point → t.point.listens := by
    intro point hpoint hold
    rwa [hold]
  cases a with
  | runEmbedded options =>
    simp only [runStep, Option.ite_none_left_eq_some] at hstep
    obtain ⟨-, hstep⟩ := hstep
    split at hstep
    · obtain rfl := Option.some.inj hstep
      exact Or.inr hlistens
    · obtain rfl := Option.some.inj hstep
      simp [RunPoint.listens] at hlistens
  | load ok =>
    simp only [runStep, Option.ite_none_right_eq_some, Option.some.injEq] at hstep
    obtain ⟨-, rfl⟩ := hstep
    cases ok <;> simp [RunPoint.listens] at hlistens
  | advance point =>
    simp only [runStep, Option.ite_none_right_eq_some, Option.map_eq_some_iff] at hstep
    obtain ⟨-, ⟨s', point'⟩, hadvance, rfl⟩ := hstep
    cases point <;> cases hadvance <;>
      first | exact Or.inl rfl | simp [RunPoint.listens] at hlistens
  | newBridge maxBufferedBytes bound =>
    exact Or.inr (hold (by decide) (Option.ite_none_right_eq_some.mp hstep).1)
  | newEcuIo bound pinsValid =>
    exact Or.inr (hold (by decide) (Option.ite_none_right_eq_some.mp hstep).1)
  | bridgesDone => exact Or.inr (hold (by decide) (Option.ite_none_right_eq_some.mp hstep).1)
  | start pc => exact Or.inr (hold (by decide) (Option.ite_none_right_eq_some.mp hstep).1)
  | cdcDevice link op =>
    exact Or.inr (hold (by decide) (Option.ite_none_right_eq_some.mp hstep).1.1)
  | takeInputs link => exact Or.inr (hold (by decide) (Option.ite_none_right_eq_some.mp hstep).1.1)
  | publishOutput link name value wheelAngleMdeg =>
    exact Or.inr (hold (by decide) (Option.ite_none_right_eq_some.mp hstep).1.1)
  | round start => exact Or.inr (hold (by decide) (Option.ite_none_right_eq_some.mp hstep).1)
  | dropBridge =>
    simp only [runStep] at hstep
    split at hstep
    · obtain rfl := Option.some.inj hstep
      exact Or.inr hlistens
    · obtain rfl := Option.some.inj hstep
      exact Or.inr hlistens
    · cases hstep
  | dropEcuIo =>
    simp only [runStep] at hstep
    split at hstep
    · obtain rfl := Option.some.inj hstep
      exact Or.inr hlistens
    · obtain rfl := Option.some.inj hstep
      exact Or.inr hlistens
    · cases hstep
  | _ =>
    -- on to a point after the main loop
    obtain ⟨-, hr⟩ := Option.ite_none_right_eq_some.mp hstep
    obtain rfl := Option.some.inj hr
    simp [RunPoint.listens] at hlistens

/-- A thread that listens knows of all requests since its reset. -/
def KnowsRequests (as : List (ProcessAction ι L E)) (s : Process ι L E) : Prop :=
  ∀ i, (s.2 i).point.listens → s.1.stopRequested = stopRequestedSince i as

lemma KnowsRequests.step {as : List (ProcessAction ι L E)} {s s' : Process ι L E}
    {a : ProcessAction ι L E} (hexclusive : Exclusive InCall NoCall CallOwns s)
    (h : KnowsRequests as s) (hstep : processStep s a = some s') :
    KnowsRequests (as ++ [a]) s' := by
  intro i hlistens
  rw [stopRequestedSince, List.foldl_append, List.foldl_cons, List.foldl_nil, ← stopRequestedSince]
  cases a with
  | outside b =>
    obtain rfl := Option.some.inj hstep
    have hbefore := h i hlistens
    cases b with
    | requestStop => rfl
    | _ => exact hbefore
  | thread j a =>
    obtain ⟨r, hr, rfl⟩ := Option.map_eq_some_iff.mp hstep
    rcases eq_or_ne j i with rfl | hne
    · dsimp only at hlistens ⊢
      rw [Function.update_self] at hlistens
      rw [stopRequestedStep, if_pos rfl, runStep_stopRequested hr]
      rcases runStep_listens hr hlistens with rfl | hbefore
      · rfl
      · rw [h j hbefore]
    · -- the thread that listens is in its call, so that the other one is outside
      dsimp only at hlistens ⊢
      rw [Function.update_of_ne hne.symm] at hlistens
      have hout : ¬ InCall (s.2 j) := fun hin => hne (hexclusive.unique hin hlistens.inCall)
      rw [stopRequestedStep, if_neg hne, runStep_stopRequested hr, ← h i hlistens]
      obtain ⟨options, rfl, -⟩ := runStep_outside hout hr
      rfl

/-- **Requests to stop.**  In every interleaving, the next round of a thread ends its run as stopped
if and only if a stop was asked for since that thread has reset the flag, or its hooks ask for one
in this round; such a thread leaves its main loop. -/
theorem stop_requests_honoured (as : List (ProcessAction ι L E)) (s : Process ι L E)
    (hrun : ProcessRun as s) (i : ι) (start : EmuStart) (s' : Process ι L E)
    (hstep : processStep s (.thread i (.round start)) = some s') :
    ((s'.2 i).ended = some .stopRequested ↔
      (stopRequestedSince i as || start.stopRequested) = true) ∧
      ((stopRequestedSince i as || start.stopRequested) = true →
        (s'.2 i).point = .dropDevices) := by
  have hknows : KnowsRequests as s := by
    have hboth := hrun.invariant
      (I := fun as s => Exclusive InCall NoCall CallOwns s ∧ KnowsRequests as s)
      ⟨Or.inl ⟨fun _ hin => hin rfl, NoCall.initial⟩, fun _ hlistens => absurd rfl hlistens.inCall⟩
      fun as s s' a hs hstep => ⟨callMonitor.exclusive_step hs.1 hstep, hs.2.step hs.1 hstep⟩
    exact hboth.2
  obtain ⟨r, hr, rfl⟩ := Option.map_eq_some_iff.mp hstep
  simp only [runStep, Option.ite_none_right_eq_some, Option.map_eq_some_iff] at hr
  obtain ⟨hpoint, loop, hround, rfl⟩ := hr
  obtain ⟨hended, rfl⟩ := round_eq_afterCall hround
  have hflag : s.1.stopRequested = stopRequestedSince i as := hknows i (by rw [hpoint]; decide)
  have hiff := @afterCall_ended_iff (s.2 i).options.stopAddr _ start hended
  rw [← hflag]
  dsimp only
  rw [Function.update_self]
  refine ⟨hiff, fun hrequested => ?_⟩
  rw [hiff.mpr hrequested]
  rfl

/-- A stop is asked for before the reset, and is lost; another one is asked for after it. -/
def sampleRequests : List (ProcessAction Unit Unit Unit) :=
  [.thread () (.runEmbedded ⟨none, none, none, none⟩), .thread () (.load true),
    .outside .requestStop, .thread () (.advance .installCdcPending),
    .thread () (.advance .installCdcActive), .thread () (.advance .installEcuIoPending),
    .thread () (.advance .installEcuIoActive), .thread () (.advance .resetNumInstructions),
    .thread () (.advance .resetContinueExecution), .thread () (.advance .resetBusyLoopReached),
    .thread () (.advance .resetStopRequested), .thread () .bridgesDone, .thread () (.start 0),
    .thread () (.round ⟨0, [], false, 0, false, false, false⟩), .outside .requestStop]

theorem stop_requests_honoured_sample :
    ∃ s s' : Process Unit Unit Unit, ProcessRun sampleRequests s ∧
      processStep s (.thread () (.round ⟨0, [], false, 0, false, false, false⟩)) = some s' ∧
      (s'.2 ()).ended = some .stopRequested ∧ (s'.2 ()).point = .dropDevices := by
  have hexec : ((sampleRequests.foldlM processStep .initial).bind fun s =>
      (processStep s (.thread () (.round ⟨0, [], false, 0, false, false, false⟩)))).isSome =
      true := by
    decide
  obtain ⟨s', hexec⟩ := Option.isSome_iff_exists.mp hexec
  obtain ⟨s, hbefore, hround⟩ := Option.bind_eq_some_iff.mp hexec
  have hrun : ProcessRun sampleRequests s := Run.of_foldlM hbefore
  obtain ⟨hended, hleaves⟩ := stop_requests_honoured sampleRequests s hrun () _ s' hround
  exact ⟨s, s', hrun, hround, hended.mpr (by decide), hleaves (by decide)⟩

end Step

end Embedded

end Stm32Emulator
