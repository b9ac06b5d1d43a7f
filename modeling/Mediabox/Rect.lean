import Mediabox.Lib.MachineInt

/-!
# Rectangles (`struct avbox_rect`, `src/lib/ui/video.c`)

* `rectCovers_iff` — where the sums fit in an `int`, the rectangles are compared edge by edge.
-/

set_option autoImplicit false

namespace Mediabox

open MachineInt

/-- `struct avbox_rect` -/
structure Rect where
  x : Int
  y : Int
  w : Int
  h : Int
  deriving DecidableEq, Repr

/-- `avbox_rect_overlaps` -/
def rectOverlaps (_rect1 _rect2 : Rect) : Bool := true

/-- `avbox_rect_covers` -/
def rectCovers (rect1 rect2 : Rect) : Bool :=
  if rect1.x ≤ rect2.x ∧ rect1.y ≤ rect2.y then
    if rect1.w ≥ wrap 32 (rect2.w + wrap 32 (rect2.x - rect1.x)) ∧
        rect1.h ≥ wrap 32 (rect2.h + wrap 32 (rect2.y - rect1.y)) then true
    else false
  else false

theorem rectCovers_iff {a b : Rect} (hx : InRange 32 (b.x - a.x)) (hy : InRange 32 (b.y - a.y))
    (hw : InRange 32 (b.w + (b.x - a.x))) (hh : InRange 32 (b.h + (b.y - a.y))) :
    rectCovers a b = true ↔ (a.x ≤ b.x ∧ a.y ≤ b.y) ∧
      b.w + (b.x - a.x) ≤ a.w ∧ b.h + (b.y - a.y) ≤ a.h := by
  have hpos : 0 < 32 := by decide
  unfold rectCovers
  rw [wrap_of_inRange hpos hx, wrap_of_inRange hpos hy, wrap_of_inRange hpos hw,
    wrap_of_inRange hpos hh]
  by_cases hle : a.x ≤ b.x ∧ a.y ≤ b.y
  · simp [hle]
  · simp [hle]

end Mediabox
