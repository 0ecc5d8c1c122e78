import InstallerBrowser.Panel.Dialog
import InstallerBrowser.Proofs.Screen.Canvas

/-!
# InstallerBrowser.Proofs.Panel.Dialog

The place of a dialog on a screen, and its buttons.

A dialog that is no larger than the screen lies on it (`fits_centered`).  Its buttons are drawn into
a row of their own (`drawnIn_drawButton`).
-/

namespace InstallerBrowser

open Canvas Text

variable {c : Canvas} {area : Rect} {x y w h : Nat}

/-! ## The place -/

theorem fits_centered (hwidth : w ≤ c.width) (hheight : h ≤ c.height) :
    c.Fits (c.area.centered w h) := by
  constructor
  · simp only [Rect.centered, Rect.right, Canvas.area]
    omega
  · simp only [Rect.centered, Rect.bottom, Canvas.area]
    omega

namespace DialogPanel

/-! ## Buttons -/

theorem width_okText : width (buttonText "OK") = 4 := by decide +kernel

theorem width_cancelText : width (buttonText "Cancel") = 8 := by decide +kernel

theorem drawnIn_drawButton (p : DialogPanel) (label : String) (selected : Bool)
    (hx : x ≤ c.width) (hy : y < c.height) :
    DrawnIn (fun _ y' => y' = y) c (p.drawButton x y label selected c) :=
  (drawnIn_putText _ _ hx hy).trans
    (drawnIn_foldl fun _ _ d _ _ => drawnIn_modify d _ rfl)

theorem drawnIn_drawButtons (p : DialogPanel) (button : DialogButton) (hfits : c.Fits area)
    (hwidth : 50 ≤ area.width) (hheight : 2 ≤ area.height) :
    DrawnIn (fun _ y => y = buttonRow area) c (p.drawButtons area button c) := by
  have hright := hfits.right_le
  have hbottom := hfits.bottom_le
  simp only [Rect.right, Rect.bottom] at hright hbottom
  have hrow : buttonRow area < c.height := by
    rw [buttonRow]
    omega
  have hok := p.drawnIn_drawButton (c := c)
    (x := middle area (width (buttonText "OK") + 2 + width (buttonText "Cancel"))) "OK"
    (button == .ok) (by rw [middle, width_okText, width_cancelText]; omega) hrow
  refine hok.trans (p.drawnIn_drawButton _ _ ?_ ?_)
  · rw [hok.width, middle, width_okText, width_cancelText]
    omega
  · rw [hok.height]
    exact hrow

end DialogPanel

end InstallerBrowser
