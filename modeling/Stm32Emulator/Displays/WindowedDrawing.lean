import Stm32Emulator.Displays.Display

/-!
# Drawing in a region of the panel

The `k`-th word after the start of the drawing is the pixel in column `k` modulo the width of the
region and in row `k` divided by it, again modulo its height.  Nothing else is drawn.
-/

namespace Stm32Emulator

namespace Display

variable {display display' before : Display} {region : Rect} {words : List U16} {c : U16}

/-- A pixel more is drawn. -/
lemma Drawn.snoc {place : ℕ → ℕ × ℕ} (h : Drawn before display place words)
    (hwidth : display.width = before.width) (hwidth' : display'.width = display.width)
    (hcolumns : ∀ k, (place k).1 < before.width.toNat)
    (hlt : (place words.length).1 + (place words.length).2 * display.width.toNat <
      display.framebuffer.pixels.length)
    (hpixels : display'.framebuffer.pixels = display.framebuffer.pixels.set
      ((place words.length).1 + (place words.length).2 * display.width.toNat)
        (before.storedColor c)) :
    Drawn before display' place (words ++ [c]) := by
  have hnew : display'.pixelAt (place words.length) = some (before.storedColor c) := by
    rw [pixelAt, hwidth', hpixels, List.getElem?_set_self hlt]
  have hother : ∀ p : ℕ × ℕ, p.1 < before.width.toNat → place words.length ≠ p →
      display'.pixelAt p = display.pixelAt p := by
    intro p hp hne
    rw [pixelAt, hwidth', hpixels, List.getElem?_set_ne, pixelAt]
    intro hindex
    rw [hwidth] at hindex
    exact hne (eq_of_index_eq (hcolumns words.length) hp hindex)
  have hlength : (words ++ [c]).length = words.length + 1 := List.length_append
  constructor
  · intro k c' hget hlast
    rcases Nat.lt_trichotomy k words.length with hk | rfl | hk
    · rw [List.getElem?_append_left hk] at hget
      rw [hother _ (hcolumns k) (hlast words.length hk (by omega))]
      exact h.stored k c' hget fun j hj hjlt => hlast j hj (by omega)
    · rw [List.getElem?_concat_length] at hget
      cases hget
      exact hnew
    · rw [List.getElem?_eq_none (by omega)] at hget
      cases hget
  · intro x y hx hfree
    rw [hother (x, y) hx (hfree words.length (by omega))]
    exact h.unchanged x y hx fun k hk => hfree k (by omega)

/-- The configuration of a panel of three columns and two rows. -/
def smallPanel : FramebufferConfig := ⟨"tft", 3, 2, "rgb565", some ⟨"tft.png"⟩, none, none⟩

/-- A display on it that swaps the bytes of its pixels, after a word that was no command. -/
def smallDisplay : Display where
  config := ⟨4, some true, none, "tft"⟩
  drawRegion := ⟨0, 0, 2, 1⟩
  cmd := none
  reply := []
  drawing := false
  currentPosition := ⟨0, 0⟩
  width := 3
  height := 2
  framebuffer := (Image.new smallPanel).asFramebuffer RGB565

end Display

end Stm32Emulator
