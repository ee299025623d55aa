import Stm32Emulator.Displays.PixelBounds
import Stm32Emulator.Foundation.CyclicWrite
import Stm32Emulator.Foundation.RasterScan

/-!
# What the display with shades of grey shows

The first command that the display receives decides.  If it starts the drawing, then all bytes
behind it are pixels, two a byte, which go over the panel row by row and again from its first pixel
on; any other command waits for arguments for ever, and nothing is drawn.
-/

namespace Stm32Emulator

namespace Lcd

/-! ## The drawing -/

/-- The shades in a byte. -/
def nibbles (v : U8) : List U8 := [v >>> 4, v &&& 0x0f]

/-- The shades that are drawn for some bytes, in their order. -/
def drawn (bytes : List U8) : List U8 :=
  match bytes.dropWhile fun v => (Command.tryFrom v).isNone with
  | [] => []
  | v :: rest => if Command.tryFrom v = some .startDrawing then rest.flatMap nibbles else []

/-- The panel as a rectangle. -/
def panel (lcd : Lcd) : Raster := ⟨0, 0, lcd.width.toNat - 1, lcd.height.toNat - 1⟩

/-- The number of pixels of the panel. -/
def area (lcd : Lcd) : ℕ := lcd.width.toNat * lcd.height.toNat

/-- The display draws, and has drawn `k` pixels to what was there. -/
structure DrawsAt (lcd₀ lcd : Lcd) (shades : List U8) : Prop where
  drawing : lcd.drawing = true
  width : lcd.width = lcd₀.width
  height : lcd.height = lcd₀.height
  position : (lcd.currentPosition.x.toNat, lcd.currentPosition.y.toNat) =
    lcd₀.panel.place shades.length
  config : lcd.framebuffer.config = lcd₀.framebuffer.config
  pixels : lcd.framebuffer.pixels =
    cyclicWrite lcd₀.area lcd₀.framebuffer.pixels 0 (shades.map shade)

variable {lcd₀ lcd : Lcd}

/-- Row by row, the pixels of the panel have the numbers of the steps. -/
lemma index_place (hw : 0 < lcd₀.width.toNat) (hh : 0 < lcd₀.height.toNat) (k : ℕ) :
    (lcd₀.panel.place k).1 + (lcd₀.panel.place k).2 * lcd₀.width.toNat = k % lcd₀.area := by
  have hcolumns : lcd₀.panel.columns = lcd₀.width.toNat := by
    unfold Raster.columns panel
    dsimp only
    omega
  have hrows : lcd₀.panel.rows = lcd₀.height.toNat := by
    unfold Raster.rows panel
    dsimp only
    omega
  rw [Raster.place, hcolumns, hrows, area, Nat.mod_mul]
  change 0 + k % lcd₀.width.toNat + (0 + k / lcd₀.width.toNat % lcd₀.height.toNat) *
    lcd₀.width.toNat = _
  rw [Nat.zero_add, Nat.zero_add, Nat.mul_comm lcd₀.width.toNat]

/-- The position moves on as the cursor of the panel does. -/
lemma advance_place (hw : 0 < lcd.width.toNat) (hh : 0 < lcd.height.toNat) {k : ℕ}
    (hposition : (lcd.currentPosition.x.toNat, lcd.currentPosition.y.toNat) = lcd.panel.place k) :
    ∃ p, lcd.advance = some p ∧ (p.x.toNat, p.y.toNat) = lcd.panel.place (k + 1) := by
  rw [← Raster.next_place, ← hposition]
  have hmem := lcd.panel.place_le (Nat.zero_le _) (Nat.zero_le _) k
  rw [← hposition] at hmem
  have hx : lcd.currentPosition.x.toNat ≤ lcd.width.toNat - 1 := hmem.1
  have hy : lcd.currentPosition.y.toNat ≤ lcd.height.toNat - 1 := hmem.2
  have hwidth : lcd.width.toNat < 65536 := lcd.width.isLt
  have hheight : lcd.height.toNat < 65536 := lcd.height.isLt
  obtain ⟨x, hxeq, hxval⟩ := checkedSucc_eq_some (x := lcd.currentPosition.x) (by omega)
  obtain ⟨y, hyeq, hyval⟩ := checkedSucc_eq_some (x := lcd.currentPosition.y) (by omega)
  unfold advance Raster.next
  rw [hxeq, hyeq]
  simp only [Option.bind_eq_bind, Option.bind_some]
  by_cases hright : lcd.width ≤ x
  · have hxle : lcd.width.toNat ≤ x.toNat := hright
    rw [if_pos hright, if_neg (show ¬ lcd.currentPosition.x.toNat < lcd.panel.right by
      unfold panel
      dsimp only
      omega)]
    by_cases hbottom : lcd.height ≤ y
    · have hyle : lcd.height.toNat ≤ y.toNat := hbottom
      rw [if_pos hbottom, if_neg (show ¬ lcd.currentPosition.y.toNat < lcd.panel.bottom by
        unfold panel
        dsimp only
        omega)]
      exact ⟨_, rfl, rfl⟩
    · have hylt : y.toNat < lcd.height.toNat := not_le.mp hbottom
      rw [if_neg hbottom, if_pos (show lcd.currentPosition.y.toNat < lcd.panel.bottom by
        unfold panel
        dsimp only
        omega)]
      exact ⟨_, rfl, Prod.ext rfl hyval⟩
  · have hxlt : x.toNat < lcd.width.toNat := not_le.mp hright
    rw [if_neg hright, if_pos (show lcd.currentPosition.x.toNat < lcd.panel.right by
      unfold panel
      dsimp only
      omega)]
    exact ⟨_, rfl, Prod.ext hxval rfl⟩

/-- Another pixel. -/
lemma DrawsAt.drawPixel {shades : List U8} (h : DrawsAt lcd₀ lcd shades) (hw : 0 < lcd₀.width.toNat)
    (hh : 0 < lcd₀.height.toNat) (henough : lcd₀.area ≤ lcd₀.framebuffer.pixels.length) (c : U8) :
    ∃ lcd', lcd.drawPixel c = some lcd' ∧ DrawsAt lcd₀ lcd' (shades ++ [c]) := by
  obtain ⟨hdrawing, hwidth, hheight, hposition, hconfig, hpixels⟩ := h
  have hpanel : lcd.panel = lcd₀.panel := by rw [panel, panel, hwidth, hheight]
  have hplace : (lcd.currentPosition.x.toNat, lcd.currentPosition.y.toNat) =
      lcd.panel.place shades.length := by
    rw [hpanel]
    exact hposition
  obtain ⟨p, hp, hnext⟩ := advance_place (by rwa [hwidth]) (by rwa [hheight]) hplace
  have hcolumn : (lcd₀.panel.place shades.length).1 ≤ lcd₀.width.toNat - 1 :=
    (lcd₀.panel.place_le (Nat.zero_le _) (Nat.zero_le _) shades.length).1
  have hrow : (lcd₀.panel.place shades.length).2 ≤ lcd₀.height.toNat - 1 :=
    (lcd₀.panel.place_le (Nat.zero_le _) (Nat.zero_le _) shades.length).2
  obtain ⟨hx, hy⟩ := Prod.ext_iff.mp hposition
  dsimp only at hx hy
  have hindex : lcd.getFramebufferPixelIndex lcd.currentPosition.x lcd.currentPosition.y
      = some (shades.length % lcd₀.area) := by
    rw [getFramebufferPixelIndex, hwidth, hheight, framebufferPixelIndex_eq hw hh, hx, hy,
      min_eq_left hcolumn, min_eq_left hrow, index_place hw hh]
  have hlt : shades.length % lcd₀.area < lcd.framebuffer.pixels.length := by
    rw [hpixels, length_cyclicWrite]
    exact (Nat.mod_lt _ (Nat.mul_pos hw hh)).trans_le henough
  have hset := Framebuffer.setPixel_eq_some hlt (shade c)
  refine ⟨{ lcd with
    framebuffer := { lcd.framebuffer with
      pixels := lcd.framebuffer.pixels.set (shades.length % lcd₀.area) (shade c) }
    currentPosition := p }, ?_, hdrawing, hwidth, hheight, ?_, hconfig, ?_⟩
  · unfold Lcd.drawPixel
    rw [hindex]
    simp only [Option.bind_eq_bind, Option.bind_some, hset, hp]
    rfl
  · rw [List.length_append, List.length_singleton, ← hpanel]
    exact hnext
  · dsimp only
    rw [hpixels, List.map_append, List.map_singleton, cyclicWrite_snoc,
      List.length_map, Nat.zero_add]

/-- While the display draws, all bytes are pixels. -/
lemma DrawsAt.writes {shades : List U8} (h : DrawsAt lcd₀ lcd shades) (hw : 0 < lcd₀.width.toNat)
    (hh : 0 < lcd₀.height.toNat) (henough : lcd₀.area ≤ lcd₀.framebuffer.pixels.length)
    (bytes : List U8) :
    ∃ lcd', bytes.foldlM write lcd = some lcd' ∧
      DrawsAt lcd₀ lcd' (shades ++ bytes.flatMap nibbles) := by
  induction bytes generalizing lcd shades with
  | nil => exact ⟨lcd, rfl, by rwa [List.flatMap_nil, List.append_nil]⟩
  | cons v bytes ih =>
    obtain ⟨lcd₁, hfirst, h₁⟩ := h.drawPixel hw hh henough (v >>> 4)
    obtain ⟨lcd₂, hsecond, h₂⟩ := h₁.drawPixel hw hh henough (v &&& 0x0f)
    obtain ⟨lcd', hrest, h'⟩ := ih h₂
    have hwrite : lcd.write v = some lcd₂ := by
      rw [write, if_pos h.drawing, hfirst, Option.bind_some, hsecond]
    refine ⟨lcd', ?_, ?_⟩
    · rw [List.foldlM_cons, hwrite]
      exact hrest
    · rw [List.append_assoc, List.append_assoc] at h'
      exact h'

/-! ## Commands -/

/-- A command that waits for arguments waits for ever. -/
lemma writes_of_waiting {cmd : Command} {args : List U8} (hdrawing : lcd.drawing = false)
    (hcmd : lcd.cmd = some (cmd, args)) (bytes : List U8) :
    ∃ lcd', bytes.foldlM write lcd = some lcd' ∧ lcd'.framebuffer = lcd.framebuffer := by
  induction bytes generalizing lcd args with
  | nil => exact ⟨lcd, rfl, rfl⟩
  | cons v bytes ih =>
    -- the byte is another argument
    have hprocess : tryProcessCommand { lcd with cmd := none } cmd (args ++ [v]) = none := by
      unfold tryProcessCommand
      split
      · next hnil =>
          exact absurd hnil (List.append_ne_nil_of_right_ne_nil _ (List.cons_ne_nil v []))
      · rfl
    have hwrite : lcd.write v = some { lcd with cmd := some (cmd, args ++ [v]) } := by
      unfold write
      rw [hdrawing, hcmd, if_neg Bool.false_ne_true]
      dsimp only
      rw [collect, hprocess, hdrawing]
    obtain ⟨lcd', hrest, hsame⟩ :=
      @ih { lcd with cmd := some (cmd, args ++ [v]) } (args ++ [v]) hdrawing rfl
    refine ⟨lcd', ?_, hsame⟩
    rw [List.foldlM_cons, hwrite]
    exact hrest

/-- The bytes that a display without a command receives. -/
lemma writes_of_idle (hdrawing : lcd.drawing = false) (hcmd : lcd.cmd = none)
    (hw : 0 < lcd.width.toNat) (hh : 0 < lcd.height.toNat)
    (henough : lcd.area ≤ lcd.framebuffer.pixels.length) (bytes : List U8) :
    ∃ lcd', bytes.foldlM write lcd = some lcd' ∧
      lcd'.framebuffer.pixels =
        cyclicWrite lcd.area lcd.framebuffer.pixels 0 ((drawn bytes).map shade) := by
  induction bytes with
  | nil => exact ⟨lcd, rfl, rfl⟩
  | cons v bytes ih =>
    rcases hv : Command.tryFrom v with _ | cmd
    · -- no command at all
      have hwrite : lcd.write v = some lcd := by
        unfold write
        simp [hdrawing, hcmd, hv]
      have hdrawn : drawn (v :: bytes) = drawn bytes := by
        unfold drawn
        rw [List.dropWhile_cons_of_pos (by rw [hv]; rfl)]
      obtain ⟨lcd', hrest, hpixels⟩ := ih
      refine ⟨lcd', ?_, by rw [hdrawn, hpixels]⟩
      rw [List.foldlM_cons, hwrite]
      exact hrest
    · have hdrawn : drawn (v :: bytes) = if cmd = .startDrawing then
          bytes.flatMap nibbles else [] := by
        unfold drawn
        rw [List.dropWhile_cons_of_neg (by rw [hv]; exact Bool.false_ne_true)]
        simp only [hv, Option.some.injEq]
      have hwrite : lcd.write v = some (lcd.collect cmd []) := by
        unfold write
        simp [hdrawing, hcmd, hv]
      rw [hdrawn, List.foldlM_cons, hwrite]
      by_cases hstart : cmd = .startDrawing
      · subst hstart
        have hdraws : DrawsAt lcd (lcd.collect .startDrawing []) [] :=
          ⟨rfl, rfl, rfl, lcd.panel.place_zero.symm, rfl, rfl⟩
        obtain ⟨lcd', hrest, h'⟩ := hdraws.writes hw hh henough bytes
        exact ⟨lcd', hrest, by rw [if_pos rfl, h'.pixels, List.nil_append]⟩
      · have hcollect : lcd.collect cmd [] = { lcd with cmd := some (cmd, []) } := by
          unfold collect tryProcessCommand
          cases cmd <;> first | rfl | exact absurd rfl hstart
        have hwaits : (lcd.collect cmd []).drawing = false ∧
            (lcd.collect cmd []).cmd = some (cmd, []) := by
          rw [hcollect]
          exact ⟨hdrawing, rfl⟩
        obtain ⟨lcd', hrest, hsame⟩ := writes_of_waiting hwaits.1 hwaits.2 bytes
        refine ⟨lcd', hrest, ?_⟩
        rw [hsame, hcollect, if_neg hstart]
        rfl

/-- **What the display shows** after any bytes.  A pixel of the panel has the shade that was drawn
there last, where the shades go over the panel again and again, and the other pixels are those of
the framebuffer. -/
theorem frame_law {config : LcdConfig} {fbs : Framebuffers} (hnew : Lcd.new config fbs = some lcd)
    (hw : 0 < lcd.width.toNat) (hh : 0 < lcd.height.toNat) (henough : lcd.framebuffer.InRange)
    (bytes : List U8) :
    ∃ lcd', bytes.foldlM write lcd = some lcd' ∧
      ∀ p, lcd'.framebuffer.pixels[p]? =
        if p < lcd.area ∧ p < (drawn bytes).length then
          ((drawn bytes)[lastWritten lcd.area (drawn bytes).length p]?).map shade
        else lcd.framebuffer.pixels[p]? := by
  obtain ⟨fb, -, hlcd⟩ := Option.bind_eq_some_iff.mp hnew
  cases hlcd
  have hlength : area ⟨⟨0, 0⟩, fb.config.width, fb.config.height, fb, none, false⟩ ≤
      fb.pixels.length := henough.enough
  obtain ⟨lcd', hrest, hpixels⟩ := writes_of_idle rfl rfl hw hh hlength bytes
  refine ⟨lcd', hrest, fun p => ?_⟩
  have harea : 0 < area ⟨⟨0, 0⟩, fb.config.width, fb.config.height, fb, none, false⟩ :=
    Nat.mul_pos hw hh
  rw [hpixels, getElem?_cyclicWrite harea hlength, List.length_map, List.getElem?_map]

/-- Three bytes on a panel of two pixels: the last of them is what is left. -/
theorem frame_law_sample :
    ∃ fbs lcd, Framebuffers.fromConfig paddedSurface
      [⟨"lcd", 2, 1, "gray8", none, some true, none⟩] = some fbs ∧
      Lcd.new ⟨"lcd"⟩ fbs = some lcd ∧
      ∃ lcd', [0x00, 0xfb, 0x12, 0x34].foldlM write lcd = some lcd' ∧
        lcd'.framebuffer.pixels[0]? = some (shade 3) := by
  refine ⟨_, _, rfl, rfl, ?_⟩
  obtain ⟨lcd', hwrites, hpixels⟩ := @frame_law _ ⟨"lcd"⟩
    ((Framebuffers.fromConfig paddedSurface
      [⟨"lcd", 2, 1, "gray8", none, some true, none⟩]).get rfl) rfl
    (by decide) (by decide) (Framebuffer.inRange_of_enough (by decide) (by decide) (by decide))
    [0x00, 0xfb, 0x12, 0x34]
  exact ⟨lcd', hwrites, by rw [hpixels]; decide⟩

end Lcd

end Stm32Emulator
