import Stm32Emulator.Foundation.CheckedArithmetic
import Stm32Emulator.Displays.Framebuffer

/-!
# The export of an image

The pixels of an image are written to its file with eight bits for each component.  The arithmetic
is that of sixteen bits, and a product that does not fit into them stops the program.  Those of the
colours fit; the number of bytes, which is computed in advance, fits for small panels only
(`export_exact_iff`).
-/

namespace Stm32Emulator

namespace Image

/-- The bytes of one pixel. -/
def rgb (c : RGB565) : Option (List U8) := do
  let r ← checkedMul (c >>> 11) 0xFF
  let g ← checkedMul ((c >>> 5) &&& 0b111111) 0xFF
  let b ← checkedMul (c &&& 0b11111) 0xFF
  return [(r / 0b11111).setWidth 8, (g / 0b111111).setWidth 8, (b / 0b11111).setWidth 8]

def rgbBytes : List RGB565 → Option (List U8)
  | [] => some []
  | c :: framebuffer => do
    let pixel ← rgb c
    let v ← rgbBytes framebuffer
    return pixel ++ v

/-- The capacity of the buffer is computed before the first pixel is converted. -/
def getFramebufferAsRgb (image : Image) : Option (List U8) := do
  let pixels ← checkedMul image.config.width image.config.height
  let _capacity ← checkedMul pixels 3
  rgbBytes image.framebuffer

/-! ## The components of a colour -/

def red (c : RGB565) : ℕ := (c >>> 11).toNat

def green (c : RGB565) : ℕ := ((c >>> 5) &&& 0b111111).toNat

def blue (c : RGB565) : ℕ := (c &&& 0b11111).toNat

/-- A component on the scale of eight bits, rounded down. -/
def scaled (full v : ℕ) : U8 := BitVec.ofNat 8 (v * 255 / full)

/-- What is expected of a scale: the floor of the quotient, from end to end and in order. -/
structure Scales (full : ℕ) : Prop where
  floor : ∀ v ≤ full, (scaled full v).toNat = v * 255 / full
  zero : (scaled full 0).toNat = 0
  top : (scaled full full).toNat = 255
  mono : ∀ v w, v ≤ w → w ≤ full → (scaled full v).toNat ≤ (scaled full w).toNat

/-- The export returns three bytes for each pixel, its components on the scale of eight bits. -/
structure ExportExact (image : Image) : Prop where
  exact : ∃ v, image.getFramebufferAsRgb = some v ∧ v.length = 3 * image.config.area ∧
    ∀ i c, image.framebuffer[i]? = some c →
      (v.drop (3 * i)).take 3 = [scaled 31 (red c), scaled 63 (green c), scaled 31 (blue c)]
  scales : Scales 31 ∧ Scales 63

/-- The floor of a scaled component fits into a byte. -/
lemma scaled_le {full v : ℕ} (h : v ≤ full) : v * 255 / full ≤ 255 :=
  Nat.div_le_of_le_mul (Nat.mul_le_mul_right 255 h)

lemma scales_of_pos {full : ℕ} (hfull : 0 < full) : Scales full := by
  have hfloor : ∀ v ≤ full, (scaled full v).toNat = v * 255 / full := by
    intro v h
    have := scaled_le h
    rw [scaled, BitVec.toNat_ofNat, Nat.mod_eq_of_lt (by omega)]
  refine ⟨hfloor, ?_, ?_, fun v w hle hw => ?_⟩
  · rw [hfloor 0 (Nat.zero_le _), Nat.zero_mul, Nat.zero_div]
  · rw [hfloor full le_rfl, Nat.mul_div_cancel_left _ hfull]
  · rw [hfloor v (hle.trans hw), hfloor w hw]
    exact Nat.div_le_div_right (Nat.mul_le_mul_right 255 hle)

/-- A component is multiplied and divided without loss. -/
lemma component_eq {x full : U16} (h63 : full.toNat ≤ 63) (h : x.toNat ≤ full.toNat) :
    ∃ z, checkedMul x 0xFF = some z ∧ (z / full).setWidth 8 = scaled full.toNat x.toNat := by
  have hmul : x.toNat * (0xFF : U16).toNat < 2 ^ 16 := by
    have hbound : x.toNat * 255 ≤ 63 * 255 := Nat.mul_le_mul_right 255 (h.trans h63)
    change x.toNat * 255 < 2 ^ 16
    omega
  obtain ⟨z, hz, hval⟩ := checkedMul_eq_some hmul
  refine ⟨z, hz, BitVec.eq_of_toNat_eq ?_⟩
  rw [BitVec.toNat_setWidth, BitVec.toNat_udiv, hval, scaled, BitVec.toNat_ofNat]
  rfl

lemma red_le (c : RGB565) : red c ≤ 31 := by
  have h : c.toNat < 65536 := c.isLt
  rw [red, BitVec.toNat_ushiftRight, Nat.shiftRight_eq_div_pow]
  omega

lemma green_le (c : RGB565) : green c ≤ 63 := by
  rw [green, BitVec.toNat_and]
  exact Nat.and_le_right

lemma blue_le (c : RGB565) : blue c ≤ 31 := by
  rw [blue, BitVec.toNat_and]
  exact Nat.and_le_right

/-- The colour arithmetic fits into sixteen bits for every pixel. -/
lemma rgb_eq (c : RGB565) :
    rgb c = some [scaled 31 (red c), scaled 63 (green c), scaled 31 (blue c)] := by
  obtain ⟨r, hr, hred⟩ := @component_eq (c >>> 11) 31 (by decide) (red_le c)
  obtain ⟨g, hg, hgreen⟩ :=
    @component_eq ((c >>> 5) &&& 0b111111) 63 (by decide) (green_le c)
  obtain ⟨b, hb, hblue⟩ := @component_eq (c &&& 0b11111) 31 (by decide) (blue_le c)
  unfold rgb
  rw [hr, hg, hb]
  exact congrArg some (congrArg₂ List.cons hred
    (congrArg₂ List.cons hgreen (congrArg₂ List.cons hblue rfl)))

/-! ## The bytes of the pixels -/

/-- Every pixel becomes three bytes, in its place. -/
lemma rgbBytes_eq (framebuffer : List RGB565) :
    ∃ v, rgbBytes framebuffer = some v ∧ v.length = 3 * framebuffer.length ∧
      ∀ i c, framebuffer[i]? = some c →
        (v.drop (3 * i)).take 3 = [scaled 31 (red c), scaled 63 (green c), scaled 31 (blue c)] := by
  induction framebuffer with
  | nil => exact ⟨[], rfl, rfl, nofun⟩
  | cons c framebuffer ih =>
    obtain ⟨v, hv, hlength, hpixels⟩ := ih
    refine ⟨[scaled 31 (red c), scaled 63 (green c), scaled 31 (blue c)] ++ v, ?_, ?_,
      fun i c' hget => ?_⟩
    · rw [rgbBytes, rgb_eq, hv]
      rfl
    · rw [List.length_append, hlength, List.length_cons]
      simp only [List.length_cons, List.length_nil]
      omega
    · rcases i with - | i
      · cases hget
        rfl
      · rw [Nat.mul_add, Nat.add_comm, ← List.drop_drop]
        exact hpixels i c' hget

/-- The capacity is what the export may fail at. -/
lemma getFramebufferAsRgb_eq (image : Image) :
    image.getFramebufferAsRgb = if 3 * image.config.area < 2 ^ 16 then rgbBytes image.framebuffer
    else none := by
  unfold getFramebufferAsRgb FramebufferConfig.area
  by_cases hpixels : image.config.width.toNat * image.config.height.toNat < 2 ^ 16
  · obtain ⟨pixels, hmul, hval⟩ := checkedMul_eq_some hpixels
    have hthree : pixels.toNat * (3 : U16).toNat =
        3 * (image.config.width.toNat * image.config.height.toNat) := by
      rw [hval, Nat.mul_comm]
      rfl
    rw [hmul]
    split
    · next hlt =>
      obtain ⟨capacity, hmul', -⟩ := checkedMul_eq_some (hthree.trans_lt hlt)
      change (checkedMul pixels 3).bind _ = _
      rw [hmul']
      rfl
    · next hge =>
      change (checkedMul pixels 3).bind _ = _
      rw [checkedMul_eq_none (hthree.symm ▸ not_lt.mp hge)]
      rfl
  · rw [checkedMul_eq_none (not_lt.mp hpixels), if_neg (by omega)]
    rfl

/-- **When an image is exported.**  The bytes of all pixels must fit into a count of sixteen
bits. -/
theorem export_exact_iff (image : Image) : image.ExportExact ↔ 3 * image.config.area < 2 ^ 16 := by
  constructor
  · rintro ⟨⟨v, hv, -, -⟩, -⟩
    rw [getFramebufferAsRgb_eq] at hv
    by_contra hge
    rw [if_neg hge] at hv
    cases hv
  · intro hlt
    obtain ⟨v, hv, hlength, hpixels⟩ := rgbBytes_eq image.framebuffer
    refine ⟨⟨v, ?_, ?_, hpixels⟩, scales_of_pos (by decide), scales_of_pos (by decide)⟩
    · rw [getFramebufferAsRgb_eq, if_pos hlt, hv]
    · rw [hlength, image.length_framebuffer]

/-- A panel of 240 columns and 320 rows is not exported. -/
theorem panel_not_exported :
    ¬ (Image.new ⟨"tft", 240, 320, "rgb565", some ⟨"tft.png"⟩, none, none⟩).ExportExact := by
  rintro ⟨⟨v, hv, -, -⟩, -⟩
  rw [getFramebufferAsRgb_eq, if_neg (by decide)] at hv
  cases hv

end Image

end Stm32Emulator
