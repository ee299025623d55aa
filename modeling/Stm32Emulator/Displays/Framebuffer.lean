import Stm32Emulator.Foundation.Word

/-!
# Framebuffers

The memory that the displays draw to.  It belongs to an image file (`Image`) or to a window (`Sdl`),
and a device sees it as a slice of pixels of its own type: `getPixels` divides the bytes that there
are by the size of such a pixel, whatever the memory was made for.

What the window library allocates for a surface is a parameter of the model.
-/

namespace Stm32Emulator

abbrev RGB565 := U16

abbrev RGB888 := U32

/-- A type of pixels, as they lie in memory. -/
class PixelType (Color : Type) where
  size : ℕ
  size_pos : 0 < size
  ofBytes : List U8 → Color

instance : PixelType RGB565 where
  size := 2
  size_pos := by decide
  ofBytes
    | [b₀, b₁] => b₁ ++ b₀
    | _ => 0

instance : PixelType RGB888 where
  size := 4
  size_pos := by decide
  ofBytes
    | [b₀, b₁, b₂, b₃] => fromLeBytes b₀ b₁ b₂ b₃
    | _ => 0

@[simp] lemma size_rgb565 : PixelType.size RGB565 = 2 := rfl

@[simp] lemma size_rgb888 : PixelType.size RGB888 = 4 := rfl

/-- A memory as a slice of `len` pixels. -/
def sliceFromRawParts (Color : Type) [PixelType Color] (bytes : List U8) (len : ℕ) : List Color :=
  (List.range len).map fun i =>
    PixelType.ofBytes ((bytes.drop (i * PixelType.size Color)).take (PixelType.size Color))

@[simp] lemma length_sliceFromRawParts (Color : Type) [PixelType Color] (bytes : List U8)
    (len : ℕ) :
    (sliceFromRawParts Color bytes len).length = len := by
  rw [sliceFromRawParts, List.length_map, List.length_range]

/-! ## Configuration -/

structure ImageBackendConfig where
  file : String
  deriving DecidableEq, Repr

structure FramebufferConfig where
  name : String
  width : U16
  height : U16
  mode : String
  image : Option ImageBackendConfig
  sdl : Option Bool
  downscale : Option U32
  deriving DecidableEq, Repr

/-- The number of pixels. -/
def FramebufferConfig.area (config : FramebufferConfig) : ℕ :=
  config.width.toNat * config.height.toNat

/-- A framebuffer as a device sees it. -/
structure Framebuffer (Color : Type) where
  config : FramebufferConfig
  pixels : List Color
  touchPosition : Option (U16 × U16)

/-! ## Images -/

/-- The pixels of an image are never more or fewer than those of its configuration. -/
structure Image where
  config : FramebufferConfig
  framebuffer : List RGB565
  length_framebuffer : framebuffer.length = config.area

namespace Image

def new (config : FramebufferConfig) : Image where
  config := config
  framebuffer := List.replicate config.area 0
  length_framebuffer := List.length_replicate

/-- The two bytes of a pixel in memory. -/
def pixelBytes (c : RGB565) : List U8 := [c.extractLsb' 0 8, c.extractLsb' 8 8]

def getPixels (image : Image) (Color : Type) [PixelType Color] : List Color :=
  sliceFromRawParts Color (image.framebuffer.flatMap pixelBytes)
    (image.framebuffer.length * PixelType.size RGB565 / PixelType.size Color)

def asFramebuffer (image : Image) (Color : Type) [PixelType Color] : Framebuffer Color :=
  ⟨image.config, image.getPixels Color, none⟩

lemma length_getPixels (image : Image) (Color : Type) [PixelType Color] :
    (image.getPixels Color).length = image.config.area * 2 / PixelType.size Color := by
  rw [getPixels, length_sliceFromRawParts, image.length_framebuffer, size_rgb565]

end Image

/-! ## Windows -/

inductive PixelFormat where
  | rgb565
  | rgb888
  deriving DecidableEq, Repr

def PixelFormat.bytesPerPixel : PixelFormat → ℕ
  | .rgb565 => 2
  | .rgb888 => 4

/-- The mode for grey levels uses full colours. -/
def PixelFormat.ofMode (mode : String) : Option PixelFormat :=
  if mode = "rgb565" then some .rgb565 else if mode = "gray8" then some .rgb888 else none

/-- A surface of the window library: rows of `pitch` bytes. -/
structure Surface where
  pitch : ℕ
  rows : ℕ
  bytes : List U8
  length_bytes : bytes.length = pitch * rows

structure Sdl where
  config : FramebufferConfig
  framebuffer : Surface
  needRedraw : Bool
  touchPosition : Option (U16 × U16)

/-- What the window system reports.  A position outside the window may be negative. -/
inductive Event where
  | mouseMotion (x y : ℤ)
  | mouseButtonDown (x y : ℤ)
  | mouseButtonUp
  | other
  deriving DecidableEq, Repr

namespace Sdl

/-- The mode must be known, and the size of the window is divided by the configured number. -/
def new (newSurface : ℕ → ℕ → PixelFormat → Surface) (config : FramebufferConfig) : Option Sdl := do
  let format ← PixelFormat.ofMode config.mode
  if config.downscale = some 0 then none
  else some ⟨config, newSurface config.width.toNat config.height.toNat format, false, none⟩

/-- The motion of the mouse matters while its button is down. -/
def processEvent (sdl : Sdl) : Event → Sdl
  | .mouseMotion x y =>
    if sdl.touchPosition.isSome then
      { sdl with touchPosition := some (BitVec.ofInt 16 x, BitVec.ofInt 16 y) }
    else sdl
  | .mouseButtonDown x y =>
    { sdl with touchPosition := some (BitVec.ofInt 16 x, BitVec.ofInt 16 y) }
  | .mouseButtonUp => { sdl with touchPosition := none }
  | .other => sdl

/-- The window is drawn again after its pixels may have changed. -/
def getPixels (sdl : Sdl) (Color : Type) [PixelType Color] : Sdl × List Color :=
  ({ sdl with needRedraw := true },
    sliceFromRawParts Color sdl.framebuffer.bytes
      (sdl.framebuffer.bytes.length / PixelType.size Color))

def asFramebuffer (sdl : Sdl) (Color : Type) [PixelType Color] : Framebuffer Color :=
  ⟨sdl.config, (sdl.getPixels Color).2, sdl.touchPosition⟩

lemma length_getPixels (sdl : Sdl) (Color : Type) [PixelType Color] :
    (sdl.getPixels Color).2.length
      = sdl.framebuffer.pitch * sdl.framebuffer.rows / PixelType.size Color := by
  unfold getPixels
  rw [length_sliceFromRawParts, sdl.framebuffer.length_bytes]

end Sdl

/-! ## All framebuffers -/

structure Framebuffers where
  images : List Image
  sdls : List Sdl

namespace Framebuffers

/-- Every framebuffer has exactly one backend. -/
def fromConfig (newSurface : ℕ → ℕ → PixelFormat → Surface) :
    List FramebufferConfig → Option Framebuffers
  | [] => some ⟨[], []⟩
  | c :: config =>
    match c.image.isSome, c.sdl == some true with
    | true, false =>
      (fromConfig newSurface config).map fun fbs => { fbs with images := Image.new c :: fbs.images }
    | false, true => do
      let sdl ← Sdl.new newSurface c
      let fbs ← fromConfig newSurface config
      return { fbs with sdls := sdl :: fbs.sdls }
    | _, _ => none

/-- The first framebuffer of a name, images before windows. -/
def get (fbs : Framebuffers) (Color : Type) [PixelType Color] (name : String) :
    Option (Framebuffer Color) :=
  (fbs.images.map (·.asFramebuffer Color) ++ fbs.sdls.map (·.asFramebuffer Color)).find?
    (·.config.name = name)

/-- What a framebuffer is, as its configuration says. -/
inductive IsBackend (newSurface : ℕ → ℕ → PixelFormat → Surface) (Color : Type) [PixelType Color] :
    Framebuffer Color → Prop
  | image (image : Image) (himage : image.config.image.isSome = true)
      (hsdl : image.config.sdl ≠ some true) :
      IsBackend newSurface Color (image.asFramebuffer Color)
  | sdl (sdl : Sdl) (format : PixelFormat) (himage : sdl.config.image = none)
      (hsdl : sdl.config.sdl = some true) (hmode : PixelFormat.ofMode sdl.config.mode = some format)
      (hsurface : sdl.framebuffer =
        newSurface sdl.config.width.toNat sdl.config.height.toNat format) :
      IsBackend newSurface Color (sdl.asFramebuffer Color)

variable {newSurface : ℕ → ℕ → PixelFormat → Surface} {config : List FramebufferConfig}
    {fbs : Framebuffers}
  {Color : Type} [PixelType Color]

lemma sdl_new {c : FramebufferConfig} {sdl : Sdl} (h : Sdl.new newSurface c = some sdl) :
    sdl.config = c ∧ ∃ format, PixelFormat.ofMode c.mode = some format ∧
      sdl.framebuffer = newSurface c.width.toNat c.height.toNat format := by
  obtain ⟨format, hformat, h⟩ := Option.bind_eq_some_iff.mp h
  split_ifs at h
  cases h
  exact ⟨rfl, format, hformat, rfl⟩

/-- The configuration decides what is made. -/
lemma fromConfig_backends (h : fromConfig newSurface config = some fbs) :
    (∀ image ∈ fbs.images, IsBackend newSurface Color (image.asFramebuffer Color)) ∧
      ∀ sdl ∈ fbs.sdls, IsBackend newSurface Color (sdl.asFramebuffer Color) := by
  induction config generalizing fbs with
  | nil =>
    cases h
    simp
  | cons c config ih =>
    unfold fromConfig at h
    split at h
    · next himage hsdl =>
      obtain ⟨rest, hrest, rfl⟩ := Option.map_eq_some_iff.mp h
      obtain ⟨himages, hsdls⟩ := ih hrest
      refine ⟨fun image hmem => ?_, hsdls⟩
      rcases List.mem_cons.mp hmem with rfl | hmem
      · exact .image (Image.new c) himage (ne_of_beq_false hsdl)
      · exact himages image hmem
    · next himage hsdl =>
      obtain ⟨sdl, hnew, h⟩ := Option.bind_eq_some_iff.mp h
      obtain ⟨rest, hrest, h⟩ := Option.bind_eq_some_iff.mp h
      cases h
      obtain ⟨himages, hsdls⟩ := ih hrest
      refine ⟨himages, fun sdl' hmem => ?_⟩
      rcases List.mem_cons.mp hmem with rfl | hmem
      · obtain ⟨rfl, format, hmode, hsurface⟩ := sdl_new hnew
        exact .sdl sdl' format (Option.isNone_iff_eq_none.mp (by simpa using himage))
          (eq_of_beq hsdl) hmode hsurface
      · exact hsdls sdl' hmem
    · cases h

/-- What a device gets is a backend of the name it asks for. -/
lemma get_eq_some {name : String} {fb : Framebuffer Color}
    (h : fromConfig newSurface config = some fbs) (hget : fbs.get Color name = some fb) :
    IsBackend newSurface Color fb ∧ fb.config.name = name := by
  obtain ⟨himages, hsdls⟩ :
      (∀ image ∈ fbs.images, IsBackend newSurface Color (image.asFramebuffer Color)) ∧
      ∀ sdl ∈ fbs.sdls, IsBackend newSurface Color (sdl.asFramebuffer Color) :=
        fromConfig_backends h
  refine ⟨?_, by simpa using List.find?_some hget⟩
  rcases List.mem_append.mp (List.mem_of_find?_eq_some hget) with hmem | hmem
  · obtain ⟨image, himage, rfl⟩ := List.mem_map.mp hmem
    exact himages image himage
  · obtain ⟨sdl, hsdl, rfl⟩ := List.mem_map.mp hmem
    exact hsdls sdl hsdl

end Framebuffers

end Stm32Emulator
