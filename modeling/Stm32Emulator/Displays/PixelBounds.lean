import Stm32Emulator.Foundation.CheckedArithmetic
import Stm32Emulator.Displays.Framebuffer

/-!
# Pixels inside the framebuffer

A device computes the index of a pixel from the configured size and uses it in the slice that the
framebuffer gives it for its own type of pixels.  The slice has an element for each pixel if and
only if the memory was made for pixels of that size (`pixels_in_range_iff`).

`Lcd` is the display that draws in full colours, one byte for two pixels in shades of grey.
-/

namespace Stm32Emulator

/-! ## Indices -/

/-- The index of a pixel.  A position outside the panel is moved to its edge. -/
def framebufferPixelIndex (width height x y : U16) : Option ℕ := do
  let right ← checkedSub width 1
  let bottom ← checkedSub height 1
  return min x.toNat right.toNat + min y.toNat bottom.toNat * width.toNat

/-- A write through the slice, whose bounds are checked. -/
def Framebuffer.setPixel {Color : Type} (fb : Framebuffer Color) (i : ℕ) (c : Color) :
    Option (Framebuffer Color) :=
  if i < fb.pixels.length then some { fb with pixels := fb.pixels.set i c } else none

/-- The slice has an element for each pixel, and every index is one of an element. -/
structure Framebuffer.InRange {Color : Type} (fb : Framebuffer Color) : Prop where
  enough : fb.config.area ≤ fb.pixels.length
  indexed : ∀ x y, ∃ i, framebufferPixelIndex fb.config.width fb.config.height x y = some i ∧
    i < fb.pixels.length

variable {width height x y : U16}

/-- The index of a pixel of a panel that is not empty. -/
lemma framebufferPixelIndex_eq (hw : 0 < width.toNat) (hh : 0 < height.toNat) (x y : U16) :
    framebufferPixelIndex width height x y
      = some (min x.toNat (width.toNat - 1) + min y.toNat (height.toNat - 1) * width.toNat) := by
  have hone : (1 : U16).toNat = 1 := rfl
  obtain ⟨right, hright, hwval⟩ := checkedSub_eq_some (x := width) (y := 1) (by omega)
  obtain ⟨bottom, hbottom, hhval⟩ := checkedSub_eq_some (x := height) (y := 1) (by omega)
  unfold framebufferPixelIndex
  rw [hright, hbottom, ← hone, ← hwval, ← hhval]
  rfl

/-- A column and a row of a panel are an index below its area. -/
lemma column_add_row_lt {w h x y : ℕ} (hx : x < w) (hy : y < h) : x + y * w < w * h := by
  calc x + y * w < w + y * w := Nat.add_lt_add_right hx _
    _ = (y + 1) * w := by rw [Nat.add_mul, Nat.one_mul, Nat.add_comm]
    _ ≤ h * w := Nat.mul_le_mul_right w hy
    _ = w * h := Nat.mul_comm h w

/-- No position has an index past the last pixel. -/
lemma framebufferPixelIndex_lt (hw : 0 < width.toNat) (hh : 0 < height.toNat) (x y : U16) :
    ∃ i, framebufferPixelIndex width height x y = some i ∧ i < width.toNat * height.toNat :=
  ⟨_, framebufferPixelIndex_eq hw hh x y, column_add_row_lt (by omega) (by omega)⟩

lemma Framebuffer.inRange_of_enough {Color : Type} {fb : Framebuffer Color}
    (hw : 0 < fb.config.width.toNat) (hh : 0 < fb.config.height.toNat)
    (h : fb.config.area ≤ fb.pixels.length) : fb.InRange where
  enough := h
  indexed x y := by
    obtain ⟨i, hi, hlt⟩ := framebufferPixelIndex_lt hw hh x y
    exact ⟨i, hi, hlt.trans_le h⟩

lemma Framebuffer.setPixel_eq_some {Color : Type} {fb : Framebuffer Color} {i : ℕ}
    (h : i < fb.pixels.length) (c : Color) :
    fb.setPixel i c = some { fb with pixels := fb.pixels.set i c } := if_pos h

/-! ## Backends and pixel types -/

/-- What the window library documents: a surface has the rows that are asked for, and a row the
pixels. -/
structure SurfaceSpec (newSurface : ℕ → ℕ → PixelFormat → Surface) : Prop where
  rows : ∀ w h format, (newSurface w h format).rows = h
  pitch : ∀ w h format, w * format.bytesPerPixel ≤ (newSurface w h format).pitch

/-- The memory of a framebuffer was made for pixels of this size: two bytes for each in an image,
those of the mode in a window, where a row may be longer. -/
def PixelFits (newSurface : ℕ → ℕ → PixelFormat → Surface) (size : ℕ)
    (config : FramebufferConfig) : Prop :=
  (config.image.isSome = true → size ≤ 2) ∧
    ∀ format, config.sdl = some true → PixelFormat.ofMode config.mode = some format →
      size ≤ format.bytesPerPixel ∨
        config.width.toNat * size ≤ (newSurface config.width.toNat config.height.toNat format).pitch

section Backends

variable {newSurface : ℕ → ℕ → PixelFormat → Surface} {Color : Type} [PixelType Color]
    {fb : Framebuffer Color}

lemma image_enough_iff (image : Image) (hw : 0 < image.config.width.toNat)
    (hh : 0 < image.config.height.toNat) :
    image.config.area ≤ (image.getPixels Color).length ↔ PixelType.size Color ≤ 2 := by
  have harea : 0 < image.config.area := Nat.mul_pos hw hh
  rw [image.length_getPixels, Nat.le_div_iff_mul_le PixelType.size_pos]
  exact Nat.mul_le_mul_left_iff harea

lemma sdl_enough_iff (hsurface : SurfaceSpec newSurface) {sdl : Sdl} {format : PixelFormat}
    (hh : 0 < sdl.config.height.toNat)
    (hfb : sdl.framebuffer = newSurface sdl.config.width.toNat sdl.config.height.toNat format) :
    sdl.config.area ≤ (sdl.getPixels Color).2.length ↔
      PixelType.size Color ≤ format.bytesPerPixel ∨
        sdl.config.width.toNat * PixelType.size Color
          ≤ (newSurface sdl.config.width.toNat sdl.config.height.toNat format).pitch := by
  have hpitch := hsurface.pitch sdl.config.width.toNat sdl.config.height.toNat format
  rw [sdl.length_getPixels, hfb, hsurface.rows, Nat.le_div_iff_mul_le PixelType.size_pos,
    FramebufferConfig.area, Nat.mul_right_comm, Nat.mul_le_mul_right_iff hh]
  constructor
  · exact Or.inr
  · rintro (hsize | hrow)
    · exact (Nat.mul_le_mul_left _ hsize).trans hpitch
    · exact hrow

/-- The slice is large enough for the pixels that the memory was made for. -/
lemma enough_iff (hsurface : SurfaceSpec newSurface)
    (hfb : Framebuffers.IsBackend newSurface Color fb) (hw : 0 < fb.config.width.toNat)
    (hh : 0 < fb.config.height.toNat) :
    fb.config.area ≤ fb.pixels.length ↔ PixelFits newSurface (PixelType.size Color) fb.config := by
  cases hfb with
  | image image himage hsdl =>
    refine (image_enough_iff image hw hh).trans
      ⟨fun h => ⟨fun _ => h, fun _ hsdl' => absurd hsdl' hsdl⟩, ?_⟩
    exact fun h => h.1 himage
  | sdl sdl format himage hsdl hmode hsurface' =>
    refine (sdl_enough_iff hsurface hh hsurface').trans
      ⟨fun h => ⟨fun himage' => ?_, fun format' _ hmode' => ?_⟩,
      fun h => h.2 format hsdl hmode⟩
    · exact absurd himage' (by simp [Sdl.asFramebuffer, himage])
    · obtain rfl : format = format' := Option.some.inj (hmode.symm.trans hmode')
      exact h

/-- **When the pixels of a device are in its framebuffer.** -/
theorem pixels_in_range_iff {configs : List FramebufferConfig} {fbs : Framebuffers} {name : String}
    (hsurface : SurfaceSpec newSurface)
    (hfbs : Framebuffers.fromConfig newSurface configs = some fbs)
    (hget : fbs.get Color name = some fb) (hw : 0 < fb.config.width.toNat)
    (hh : 0 < fb.config.height.toNat) :
    fb.InRange ↔ PixelFits newSurface (PixelType.size Color) fb.config := by
  obtain ⟨hbackend, -⟩ := Framebuffers.get_eq_some hfbs hget
  rw [← enough_iff hsurface hbackend hw hh]
  exact ⟨Framebuffer.InRange.enough, Framebuffer.inRange_of_enough hw hh⟩

/-- Pixels of two bytes fit everywhere. -/
lemma pixelFits_of_size_le_two {size : ℕ} (h : size ≤ 2) (config : FramebufferConfig) :
    PixelFits newSurface size config := by
  refine ⟨fun _ => h, fun format _ _ => Or.inl (h.trans ?_)⟩
  cases format <;> decide

end Backends

/-- A surface whose rows are padded to whole words. -/
def paddedSurface (w h : ℕ) (format : PixelFormat) : Surface where
  pitch := (w * format.bytesPerPixel + 3) / 4 * 4
  rows := h
  bytes := List.replicate ((w * format.bytesPerPixel + 3) / 4 * 4 * h) 0
  length_bytes := List.length_replicate

lemma surfaceSpec_padded : SurfaceSpec paddedSurface where
  rows _ _ _ := rfl
  pitch w _ format := by
    change w * format.bytesPerPixel ≤ (w * format.bytesPerPixel + 3) / 4 * 4
    omega

/-- A grey window of two pixels takes full colours. -/
theorem grey_window_in_range :
    ∃ fbs fb, Framebuffers.fromConfig paddedSurface
      [⟨"lcd", 2, 1, "gray8", none, some true, none⟩] = some fbs ∧
      fbs.get RGB888 "lcd" = some fb ∧ fb.InRange := by
  refine ⟨_, _, rfl, rfl, ?_⟩
  have hiff := @pixels_in_range_iff paddedSurface RGB888 _ _
    [⟨"lcd", 2, 1, "gray8", none, some true, none⟩] _ "lcd" surfaceSpec_padded rfl rfl
      (by decide) (by decide)
  refine hiff.mpr ⟨fun himage => absurd himage (by decide), fun format _ hmode => Or.inl ?_⟩
  obtain rfl := Option.some.inj hmode
  decide

/-! ## The display with shades of grey -/

structure LcdConfig where
  framebuffer : String

structure Point where
  x : U16
  y : U16
  deriving DecidableEq, Repr

namespace Lcd

inductive Command where
  | getVersion
  | startDrawing
  | setPalette
  | getPalette
  deriving DecidableEq, Repr

def Command.tryFrom (v : U8) : Option Command :=
  if v = 0xf0 then some .getVersion
  else if v = 0xfb then some .startDrawing
  else if v = 0xf1 then some .setPalette
  else if v = 0xf2 then some .getPalette
  else none

end Lcd

structure Lcd where
  currentPosition : Point
  width : U16
  height : U16
  framebuffer : Framebuffer RGB888
  cmd : Option (Lcd.Command × List U8)
  drawing : Bool

namespace Lcd

def new (config : LcdConfig) (fbs : Framebuffers) : Option Lcd := do
  let framebuffer ← fbs.get RGB888 config.framebuffer
  return ⟨⟨0, 0⟩, framebuffer.config.width, framebuffer.config.height, framebuffer, none, false⟩

def getFramebufferPixelIndex (lcd : Lcd) (x y : U16) : Option ℕ :=
  framebufferPixelIndex lcd.width lcd.height x y

/-- A shade of four bits, in each of the three components twice. -/
def shade (c : U8) : RGB888 :=
  let c := (c.setWidth 32 <<< 4) ||| c.setWidth 32
  (c <<< 16) ||| (c <<< 8) ||| c

/-- The position after this one, row by row. -/
def advance (lcd : Lcd) : Option Point := do
  let x ← checkedSucc lcd.currentPosition.x
  if lcd.width ≤ x then
    let y ← checkedSucc lcd.currentPosition.y
    if lcd.height ≤ y then some ⟨0, 0⟩ else some ⟨0, y⟩
  else some ⟨x, lcd.currentPosition.y⟩

def drawPixel (lcd : Lcd) (c : U8) : Option Lcd := do
  let i ← lcd.getFramebufferPixelIndex lcd.currentPosition.x lcd.currentPosition.y
  let framebuffer ← lcd.framebuffer.setPixel i (shade c)
  let position ← lcd.advance
  return { lcd with framebuffer := framebuffer, currentPosition := position }

/-- Only the start of the drawing is ever processed. -/
def tryProcessCommand (lcd : Lcd) : Command → List U8 → Option Lcd
  | .startDrawing, [] => some { lcd with currentPosition := ⟨0, 0⟩, drawing := true }
  | _, _ => none

/-- A command with its arguments so far. -/
def collect (lcd : Lcd) (cmd : Command) (args : List U8) : Lcd :=
  match tryProcessCommand { lcd with cmd := none } cmd args with
  | some lcd => lcd
  | none => { lcd with cmd := some (cmd, args) }

def write (lcd : Lcd) (v : U8) : Option Lcd :=
  if lcd.drawing then
    (lcd.drawPixel (v >>> 4)).bind (·.drawPixel (v &&& 0x0f))
  else
    match lcd.cmd with
    | some (cmd, args) => some (lcd.collect cmd (args ++ [v]))
    | none =>
      match Command.tryFrom v with
      | some cmd => some (lcd.collect cmd [])
      | none => some lcd

/-- The cursor is on the panel, and the panel in the framebuffer. -/
structure Valid (lcd : Lcd) : Prop where
  column_lt : lcd.currentPosition.x.toNat < lcd.width.toNat
  row_lt : lcd.currentPosition.y.toNat < lcd.height.toNat
  enough : lcd.width.toNat * lcd.height.toNat ≤ lcd.framebuffer.pixels.length

variable {lcd : Lcd}

/-- The cursor stays on the panel. -/
lemma advance_eq_some (hx : lcd.currentPosition.x.toNat < lcd.width.toNat)
    (hy : lcd.currentPosition.y.toNat < lcd.height.toNat) :
    ∃ p, lcd.advance = some p ∧ p.x.toNat < lcd.width.toNat ∧ p.y.toNat < lcd.height.toNat := by
  have hw : lcd.width.toNat < 65536 := lcd.width.isLt
  have hh : lcd.height.toNat < 65536 := lcd.height.isLt
  obtain ⟨x, hxeq, hxval⟩ := checkedSucc_eq_some (x := lcd.currentPosition.x) (by omega)
  obtain ⟨y, hyeq, hyval⟩ := checkedSucc_eq_some (x := lcd.currentPosition.y) (by omega)
  have hzero : (0 : U16).toNat = 0 := rfl
  unfold advance
  rw [hxeq, hyeq]
  simp only [Option.bind_eq_bind, Option.bind_some]
  split
  · split
    · exact ⟨_, rfl, by dsimp only; omega, by dsimp only; omega⟩
    · next hlt => exact ⟨_, rfl, by dsimp only; omega, not_le.mp hlt⟩
  · next hlt => exact ⟨_, rfl, not_le.mp hlt, hy⟩

lemma drawPixel_total (h : lcd.Valid) (c : U8) :
    ∃ lcd', lcd.drawPixel c = some lcd' ∧ lcd'.Valid := by
  have hw := Nat.zero_lt_of_lt h.column_lt
  have hh := Nat.zero_lt_of_lt h.row_lt
  obtain ⟨i, hi, hlt⟩ := framebufferPixelIndex_lt hw hh lcd.currentPosition.x lcd.currentPosition.y
  obtain ⟨p, hp, hx, hy⟩ := advance_eq_some h.column_lt h.row_lt
  have hset := Framebuffer.setPixel_eq_some (hlt.trans_le h.enough) (shade c)
  refine ⟨{ lcd with
    framebuffer := { lcd.framebuffer with pixels := lcd.framebuffer.pixels.set i (shade c) }
    currentPosition := p }, ?_, hx, hy, ?_⟩
  · unfold drawPixel getFramebufferPixelIndex
    rw [hi]
    simp only [Option.bind_eq_bind, Option.bind_some, hset, hp]
    rfl
  · dsimp only
    rw [List.length_set]
    exact h.enough

lemma collect_valid (h : lcd.Valid) (cmd : Command) (args : List U8) :
    (lcd.collect cmd args).Valid := by
  unfold collect
  split
  · next lcd' hprocess =>
    unfold tryProcessCommand at hprocess
    split at hprocess
    · cases hprocess
      exact ⟨Nat.zero_lt_of_lt h.column_lt, Nat.zero_lt_of_lt h.row_lt, h.enough⟩
    · cases hprocess
  · exact ⟨h.column_lt, h.row_lt, h.enough⟩

lemma write_total (h : lcd.Valid) (v : U8) : ∃ lcd', lcd.write v = some lcd' ∧ lcd'.Valid := by
  unfold write
  split
  · obtain ⟨lcd₁, h₁, hvalid₁⟩ := drawPixel_total h (v >>> 4)
    obtain ⟨lcd₂, h₂, hvalid₂⟩ := drawPixel_total hvalid₁ (v &&& 0x0f)
    exact ⟨lcd₂, by rw [h₁, Option.bind_some, h₂], hvalid₂⟩
  · split
    · next cmd args _ => exact ⟨_, rfl, collect_valid h cmd (args ++ [v])⟩
    · split
      · next cmd _ => exact ⟨_, rfl, collect_valid h cmd []⟩
      · exact ⟨_, rfl, h⟩

/-- **The display with shades of grey takes every byte** if its pixels are in the framebuffer. -/
theorem writes_total {config : LcdConfig} {fbs : Framebuffers}
    (hnew : Lcd.new config fbs = some lcd) (hw : 0 < lcd.width.toNat) (hh : 0 < lcd.height.toNat)
    (henough : lcd.framebuffer.InRange) (bytes : List U8) :
    ∃ lcd', bytes.foldlM write lcd = some lcd' ∧ lcd'.Valid := by
  have hvalid : lcd.Valid := by
    obtain ⟨fb, -, hlcd⟩ := Option.bind_eq_some_iff.mp hnew
    cases hlcd
    exact ⟨hw, hh, henough.enough⟩
  clear hnew hw hh henough
  induction bytes generalizing lcd with
  | nil => exact ⟨lcd, rfl, hvalid⟩
  | cons v bytes ih =>
    obtain ⟨lcd₁, h₁, hvalid₁⟩ := write_total hvalid v
    obtain ⟨lcd', h', hvalid'⟩ := ih hvalid₁
    exact ⟨lcd', by rw [List.foldlM_cons, h₁]; exact h', hvalid'⟩

/-- An image of two pixels is too small for two pixels of full colours: the second one is not
drawn. -/
theorem image_too_small :
    ∃ fbs fb lcd, Framebuffers.fromConfig paddedSurface
        [⟨"lcd", 2, 1, "gray8", some ⟨"lcd.png"⟩, none, none⟩] = some fbs ∧
      fbs.get RGB888 "lcd" = some fb ∧ ¬ fb.InRange ∧
      Lcd.new ⟨"lcd"⟩ fbs = some lcd ∧ [0xfb, 0x12].foldlM write lcd = none := by
  refine ⟨_, _, _, rfl, rfl, fun h => ?_, rfl, by decide⟩
  exact absurd h.enough (by decide)

end Lcd

end Stm32Emulator
