import Stm32Emulator.Displays.WindowedDrawing

/-!
# Regions at the end of the address space

The guest may set any region, on the panel or not, its ends in any order.  The cursor goes one past
a column before it is compared with the end of the region, so it cannot leave the last column or row
of all: a region that ends there takes fewer pixels than it has (`cursor_safe_iff`).
-/

namespace Stm32Emulator

namespace Display

variable {display display' start d d' : Display} {region : Rect} {k : ℕ} {c : U16}
    {config : DisplayConfig}
  {accesses mid : List DisplayAccess}

/-- The cursor is in the region, whose ends may be in the wrong order. -/
def CursorInside (display : Display) : Prop :=
  (display.drawRegion.left.toNat ≤ display.currentPosition.x.toNat ∧
    display.currentPosition.x.toNat ≤
      max display.drawRegion.left.toNat display.drawRegion.right.toNat) ∧
  (display.drawRegion.top.toNat ≤ display.currentPosition.y.toNat ∧
    display.currentPosition.y.toNat ≤
      max display.drawRegion.top.toNat display.drawRegion.bottom.toNat)

/-- The display gets through a run, and its cursor is in the region whenever it draws. -/
def CursorSafe (start : Display) (ops : List DisplayAccess) : Prop :=
  ∀ history, history <+: ops → ∃ d, start.exec history = some d ∧
    (d.drawing = true → d.CursorInside)

/-- Every drawing of a run ends before the cursor would go past the largest word. -/
def DrawingsFit (start : Display) (config : DisplayConfig) (ops : List DisplayAccess) : Prop :=
  ∀ history draw mid d, history ++ draw :: mid <+: ops → command? config draw = some 0x2c →
    NoCommand config mid → start.exec history = some d →
    (raster d.drawRegion).Fits 65535 (dataWords config mid).length

/-! ## One drawing -/

lemma Drawing.cursorInside (h : Drawing region k display) : display.CursorInside := by
  have hmem := (raster region).place_mem k
  rw [← h.position, ← h.drawRegion] at hmem
  exact hmem

/-- A cursor that cannot make its step stops the program. -/
lemma writeData_eq_none (h : Drawing region k display) (hsized : display.Sized)
    (hfits : ¬ (raster region).StepFits 65535 ((raster region).place k)) (c : U16) :
    display.writeData c = none := by
  rw [← h.position, ← h.drawRegion] at hfits
  have hindex :=
    framebufferPixelIndex_eq hsized.width_pos hsized.height_pos display.currentPosition.x
      display.currentPosition.y
  unfold writeData
  rw [if_pos h.drawing]
  unfold drawPixel getFramebufferPixelIndex
  rw [hindex, advance_eq_none hfits]
  simp

/-- A drawing that is short enough goes on. -/
lemma exec_drawing (h : Drawing region 0 display) (hsized : display.Sized)
    (hconfig : display.config = config) (hmid : NoCommand config mid)
    (hfits : (raster region).Fits 65535 (dataWords config mid).length) :
    ∃ display', display.exec mid = some display' ∧ SamePanel display display' ∧
      Drawing region (dataWords config mid).length display' := by
  obtain ⟨hleft, hright, htop, hbottom⟩ := raster_le region
  let P : List U16 → Display → Prop := fun ws d => SamePanel display d ∧ Drawing region ws.length d
  have hinit : P [] display := ⟨SamePanel.refl display, h⟩
  refine exec_data (P := P) hinit hmid (fun ws d h => h.1.config.trans hconfig)
    (fun ws d reply h => ⟨⟨h.1.config, h.1.width, h.1.height, h.1.pixels⟩,
      ⟨h.2.drawRegion, h.2.cmd, h.2.drawing, h.2.position⟩⟩) fun ws d c hpre h => ?_
  obtain ⟨hsame, hdrawing⟩ := h
  have hlt : ws.length < (dataWords config mid).length := by
    have := hpre.length_le
    rw [List.length_append, List.length_singleton, List.nil_append] at this
    omega
  have hstep := (Raster.fits_iff hleft hright htop hbottom).mp hfits ws.length hlt
  obtain ⟨d', hd', hdrawing', hsame', -⟩ :=
    drawing_data hdrawing (hsized.of_samePanel hsame) hstep c
  refine ⟨d', hd', hsame.trans hsame', ?_⟩
  rw [List.length_append]
  exact hdrawing'

/-- A drawing that goes on is short enough. -/
lemma fits_of_exec (h : Drawing region 0 display) (hsized : display.Sized)
    (hconfig : display.config = config) (hmid : NoCommand config mid)
    (hexec : display.exec mid = some display') :
    (raster region).Fits 65535 (dataWords config mid).length := by
  obtain ⟨hleft, hright, htop, hbottom⟩ := raster_le region
  induction mid using List.reverseRecOn generalizing display' with
  | nil =>
    exact (Raster.fits_iff hleft hright htop hbottom).mpr fun j hj => absurd hj (Nat.not_lt_zero j)
  | append_singleton mid a ih =>
    have hmid' : NoCommand config mid := fun b hb => hmid b (List.mem_append_left _ hb)
    rw [exec_append] at hexec
    obtain ⟨d, hd, hlast⟩ := Option.bind_eq_some_iff.mp hexec
    have hfits := ih hmid' hd
    obtain ⟨d', hd', hsame, hdrawing⟩ := exec_drawing h hsized hconfig hmid' hfits
    obtain rfl : d = d' := Option.some.inj (hd.symm.trans hd')
    have hdconfig : d.config = config := hsame.config.trans hconfig
    have hcommand : command? d.config a = none := by
      rw [hdconfig]
      exact hmid a (by simp)
    have hsingle : d.exec [a] = d.step a := by
      rw [exec_cons]
      exact Option.bind_fun_some _
    rw [hsingle] at hlast
    rcases step_of_no_command hcommand with ⟨c, hword, hstep⟩ | ⟨reply, hword, -⟩
    · rw [hdconfig] at hword
      have hwords : dataWords config (mid ++ [a]) = dataWords config mid ++ [c] := by
        rw [dataWords, List.filterMap_append, List.filterMap_cons_some hword]
        rfl
      rw [hwords, List.length_append, List.length_singleton]
      rw [Raster.fits_iff hleft hright htop hbottom] at hfits ⊢
      intro j hj
      rcases Nat.lt_succ_iff_lt_or_eq.mp hj with hj | rfl
      · exact hfits j hj
      · by_contra hstop
        rw [hstep, writeData_eq_none hdrawing (hsized.of_samePanel hsame) hstop c] at hlast
        cases hlast
    · rw [hdconfig] at hword
      have hwords : dataWords config (mid ++ [a]) = dataWords config mid := by
        rw [dataWords, List.filterMap_append, List.filterMap_cons_none hword]
        exact List.append_nil _
      rwa [hwords]

/-! ## Whole runs -/

/-- Only the command that starts the drawing starts it. -/
lemma drawing_of_handleCmd {code : U8}
    (h : (handleCmd { display with drawing := false, cmd := some (code, []) }).drawing = true) :
    code = 0x2c := by
  unfold handleCmd at h
  dsimp only at h
  unfold Command.tryFrom at h
  split_ifs at h with hhori hvert hdraw
  · rw [Option.bind_some, runCmd_eq_none (by decide) (by decide)] at h
    dsimp only at h
    split at h <;> cases h
  · rw [Option.bind_some, runCmd_eq_none (by decide) (by decide)] at h
    dsimp only at h
    split at h <;> cases h
  · exact hdraw
  · rw [Option.bind_none] at h
    dsimp only at h
    split at h <;> cases h

/-- Words of data do not start the drawing. -/
lemma writeData_of_not_drawing (h : display.drawing = false) (c : U16) :
    ∃ d', (display.writeData c).map handleCmd = some d' ∧ d'.drawing = false := by
  unfold writeData
  rw [h]
  rcases hcmd : display.cmd with - | ⟨code, args⟩
  · exact ⟨display, congrArg some (handleCmd_idle hcmd), h⟩
  · refine ⟨_, rfl, ?_⟩
    unfold handleCmd
    dsimp only
    split
    · next d' hrun =>
      obtain ⟨cmd, -, hrun⟩ := Option.bind_eq_some_iff.mp hrun
      unfold runCmd at hrun
      rcases cmd with - | - | -
      · dsimp only at hrun
        split_ifs at hrun
        cases hrun
        rfl
      · dsimp only at hrun
        split_ifs at hrun
        cases hrun
        rfl
      · -- with the word the command has an argument, and it takes none
        dsimp only at hrun
        rw [if_neg (by simp)] at hrun
        cases hrun
    · split <;> rfl

/-- A history of a drawing display: how it came to draw. -/
def DrawsSince (start : Display) (config : DisplayConfig) (history : List DisplayAccess)
    (d : Display) : Prop :=
  ∃ before draw mid d₀, history = before ++ draw :: mid ∧ command? config draw = some 0x2c ∧
    NoCommand config mid ∧
    start.exec before = some d₀ ∧ Drawing d₀.drawRegion (dataWords config mid).length d

/-- One step of a run in which all drawings fit. -/
lemma step_safe {history : List DisplayAccess} {a : DisplayAccess} (hsized : d.Sized)
    (hconfig : d.config = config) (hexec : start.exec history = some d)
    (hsince : d.drawing = true → DrawsSince start config history d)
    (hfit : DrawingsFit start config (history ++ [a])) :
    ∃ d', d.step a = some d' ∧
      (d'.drawing = true → DrawsSince start config (history ++ [a]) d') := by
  subst hconfig
  rcases hcommand : command? d.config a with - | code
  · rcases step_of_no_command hcommand with ⟨c, hword, hstep⟩ | ⟨reply, hword, hstep⟩
    · rcases hdrawing : d.drawing with - | -
      · obtain ⟨d', hd', hstill⟩ := writeData_of_not_drawing hdrawing c
        exact ⟨d', hstep.trans hd', fun h => absurd (hstill.symm.trans h) (by decide)⟩
      · obtain ⟨before, draw, mid, d₀, rfl, hdraw, hmid, hbefore, hdraws⟩ := hsince hdrawing
        have hmid' : NoCommand d.config (mid ++ [a]) := by
          intro b hb
          rcases List.mem_append.mp hb with hb | hb
          · exact hmid b hb
          · rwa [List.mem_singleton.mp hb]
        have hwords : dataWords d.config (mid ++ [a]) = dataWords d.config mid ++ [c] := by
          rw [dataWords, List.filterMap_append, List.filterMap_cons_some hword]
          rfl
        have hsplit : before ++ draw :: mid ++ [a] = before ++ draw :: (mid ++ [a]) := by simp
        have hfits := hfit before draw (mid ++ [a]) d₀ (by rw [hsplit]) hdraw hmid' hbefore
        rw [hwords, List.length_append, List.length_singleton] at hfits
        obtain ⟨hleft, hright, htop, hbottom⟩ := raster_le d₀.drawRegion
        obtain ⟨d', hd', hdraws', -, -⟩ := drawing_data hdraws hsized
          ((Raster.fits_iff hleft hright htop hbottom).mp hfits _ (Nat.lt_succ_self _)) c
        refine ⟨d', hstep.trans hd', fun _ =>
          ⟨before, draw, mid ++ [a], d₀, hsplit, hdraw, hmid', hbefore, ?_⟩⟩
        rw [hwords, List.length_append]
        exact hdraws'
    · refine ⟨_, hstep, fun hdrawing => ?_⟩
      obtain ⟨before, draw, mid, d₀, rfl, hdraw, hmid, hbefore, hdraws⟩ := hsince hdrawing
      refine ⟨before, draw, mid ++ [a], d₀, by simp, hdraw, ?_, hbefore, ?_⟩
      · intro b hb
        rcases List.mem_append.mp hb with hb | hb
        · exact hmid b hb
        · rwa [List.mem_singleton.mp hb]
      · have hwords : dataWords d.config (mid ++ [a]) = dataWords d.config mid := by
          rw [dataWords, List.filterMap_append, List.filterMap_cons_none hword]
          exact List.append_nil _
        rw [hwords]
        exact ⟨hdraws.drawRegion, hdraws.cmd, hdraws.drawing, hdraws.position⟩
  · rw [step_command hcommand]
    refine ⟨_, rfl, fun hdrawing => ?_⟩
    obtain rfl := drawing_of_handleCmd hdrawing
    exact ⟨history, a, [], d, rfl, hcommand, fun _ hmem => absurd hmem List.not_mem_nil, hexec,
      ⟨rfl, rfl, rfl, ((raster d.drawRegion).place_zero).symm⟩⟩

/-- A run in which all drawings fit gets to its end. -/
lemma exec_safe {ops : List DisplayAccess} (hsized : start.Sized) (hconfig : start.config = config)
    (hidle : start.drawing = false) (hfit : DrawingsFit start config ops) :
    ∃ d, start.exec ops = some d ∧ (d.drawing = true → DrawsSince start config ops d) := by
  induction ops using List.reverseRecOn with
  | nil => exact ⟨start, rfl, fun h => absurd (hidle.symm.trans h) (by decide)⟩
  | append_singleton ops a ih =>
    obtain ⟨d, hexec, hsince⟩ := ih fun history draw mid d hpre =>
      hfit history draw mid d (hpre.trans (List.prefix_append ops [a]))
    have hsame := exec_samePanel hexec
    obtain ⟨d', hstep, hsince'⟩ :=
      step_safe (hsized.of_samePanel hsame) (hsame.config.trans hconfig) hexec hsince hfit
    refine ⟨d', ?_, hsince'⟩
    rw [exec_append, hexec, Option.bind_some, exec_cons, hstep]
    rfl

/-- **When the cursor is safe.**  In every run the display never stops and its cursor never leaves
the region, if and only if every drawing fits: in a region that ends with the last column of all it
has fewer pixels than the region has columns, and in one that ends with the last row of all fewer
than the region has pixels. -/
theorem cursor_safe_iff {newSurface : ℕ → ℕ → PixelFormat → Surface}
    {configs : List FramebufferConfig} {fbs : Framebuffers} (hsurface : SurfaceSpec newSurface)
    (hfbs : Framebuffers.fromConfig newSurface configs = some fbs)
    (hnew : Display.new config fbs = some start) (ops : List DisplayAccess) :
    CursorSafe start ops ↔ DrawingsFit start config ops := by
  obtain ⟨hsized, hidle⟩ := sized_new hsurface hfbs hnew
  have hconfig : start.config = config := config_new hnew
  constructor
  · intro hsafe history draw mid d hpre hdraw hmid hhistory
    obtain ⟨d', hexec, -⟩ := hsafe _ hpre
    have hsame := exec_samePanel hhistory
    rw [exec_append, hhistory, Option.bind_some, exec_cons] at hexec
    have hdconfig : d.config = config := hsame.config.trans hconfig
    obtain ⟨d₁, hstep, hdraws, hconfig₁, hwidth₁, hheight₁, hfb₁⟩ :=
      step_draw (hdconfig.symm ▸ hdraw)
    rw [hstep, Option.bind_some] at hexec
    have hsized₁ := (hsized.of_samePanel hsame).of_samePanel
      (⟨hconfig₁, hwidth₁, hheight₁, congrArg (·.pixels.length) hfb₁⟩ : SamePanel d d₁)
    exact fits_of_exec hdraws hsized₁ (hconfig₁.trans hdconfig) hmid hexec
  · intro hfit history hpre
    obtain ⟨d, hexec, hsince⟩ := exec_safe hsized hconfig hidle fun before draw mid d hpre' =>
      hfit before draw mid d (hpre'.trans hpre)
    refine ⟨d, hexec, fun hdrawing => ?_⟩
    obtain ⟨before, draw, mid, d₀, -, -, -, -, hdraws⟩ := hsince hdrawing
    exact hdraws.cursorInside

/-- One pixel in the first column of the default region. -/
theorem cursor_safe_small : CursorSafe smallDisplay [.write 0 0x2c, .write 4 7] := by
  have hfbs : Framebuffers.fromConfig paddedSurface [smallPanel] =
      some ⟨[Image.new smallPanel], []⟩ := rfl
  have hnew : Display.new smallDisplay.config ⟨[Image.new smallPanel], []⟩ = some smallDisplay :=
    rfl
  refine (cursor_safe_iff surfaceSpec_padded hfbs hnew _).mpr
    fun history draw mid d hpre hdraw _ hexec => ?_
  -- the drawing can only begin with the first access
  rcases history with _ | ⟨a, history⟩
  · cases hexec
    exact ⟨fun h => absurd h (by decide), fun h => absurd h (by decide)⟩
  · have hmem : draw ∈ [DisplayAccess.write 4 7] :=
      (List.cons_prefix_cons.mp hpre).2.subset (by simp)
    rw [List.mem_singleton.mp hmem] at hdraw
    exact absurd hdraw (by decide)

/-- A region of the last column alone takes no pixel. -/
theorem last_column_not_safe :
    Display.new smallDisplay.config ⟨[Image.new smallPanel], []⟩ = some smallDisplay ∧
      ¬ CursorSafe smallDisplay
        [.write 0 0x2a, .write 4 0xff, .write 4 0xff, .write 4 0xff, .write 4 0xff,
        .write 0 0x2c, .write 4 7] := by
  refine ⟨rfl, fun hsafe => ?_⟩
  obtain ⟨d, hexec, -⟩ := hsafe _ List.prefix_rfl
  have hnone : smallDisplay.exec
      [.write 0 0x2a, .write 4 0xff, .write 4 0xff, .write 4 0xff, .write 4 0xff,
      .write 0 0x2c, .write 4 7] = none := rfl
  rw [hnone] at hexec
  cases hexec

end Display

end Stm32Emulator
