import Mathlib.Tactic.Linarith
import Mathlib.Tactic.Ring
import Mediabox.Lib.MachineInt
import Mediabox.Lib.Outcome

/-!
# Scaling to the display (`avbox_player_scale2display` in `src/lib/ui/player.c`)

The two blocks that scale a video to the width and to the height of the screen and correct for the
aspect ratio, and the jumps between them.  The arithmetic is a parameter `int`, what the type makes
of a result: `.ok` for exact integers, and `arith 32 .overflow` for the `int` of the code.

* `widthAdjust`, `heightAdjust` — the two corrections in percent.  They have opposite signs, and
  together they never enlarge (`adjust_le`).
* `not_both` — so that a video that is too high when it fills the width is not too wide when it
  fills the height.

Main results: `scale_terminates` — with exact integers there is at most one jump and the result
fits; `scale_fits_iff` — when all of it fits an `int`.
-/

set_option autoImplicit false

namespace Mediabox.Scale

open MachineInt Outcome

/-- `struct avbox_size` -/
structure Size where
  w : Int
  h : Int
  deriving DecidableEq, Repr

/-- `SCALE` -/
def SCALE : Int := 10000

/-- `inst->aspect_ratio.num`, as `avbox_player_new` sets it -/
def aspectNum : Int := 16

/-- `inst->aspect_ratio.den` -/
def aspectDen : Int := 9

/-! ## The code -/

section Code

variable (fits : Int → Prop) [DecidablePred fits]

/-- The result of an operation on integers. -/
def int (x : Int) : Except Fault Int := if fits x then .ok x else .error .overflow

def divide (x y : Int) : Except Fault Int := if y = 0 then .error .divisor else int fits (x.tdiv y)

/-- `bw:` up to its test. -/
def bwBlock (screen video : Size) : Except Fault Size := do
  -- first scale to fit to resolution
  let outW ← int fits (screen.w * SCALE)
  let inH ← int fits (video.h * SCALE)
  let outW100 ← int fits (outW * 100)
  let inW ← int fits (video.w * SCALE)
  let percent ← divide fits outW100 inW
  let scaled ← int fits (inH * percent)
  let outH ← divide fits scaled 100
  -- and then adjust to aspect ratio
  let screenH ← int fits (screen.h * SCALE)
  let screenW ← int fits (screen.w * SCALE)
  let screenWDen ← int fits (screenW * aspectDen)
  let wide ← divide fits screenWDen aspectNum
  let diff ← int fits (screenH - wide)
  let diff100 ← int fits (diff * 100)
  let adjust ← divide fits diff100 screenH
  let product ← int fits (outH * adjust)
  let more ← divide fits product 100
  let outH ← int fits (outH + more)
  .ok ⟨outW, outH⟩

/-- `bh:` up to its test. -/
def bhBlock (screen video : Size) : Except Fault Size := do
  -- first scale to fit to resolution
  let outH ← int fits (screen.h * SCALE)
  let inW ← int fits (video.w * SCALE)
  let outH100 ← int fits (outH * 100)
  let inH ← int fits (video.h * SCALE)
  let percent ← divide fits outH100 inH
  let scaled ← int fits (inW * percent)
  let outW ← divide fits scaled 100
  -- and then adjust to aspect ratio
  let screenW ← int fits (screen.w * SCALE)
  let screenH ← int fits (screen.h * SCALE)
  let screenHNum ← int fits (screenH * aspectNum)
  let wide ← divide fits screenHNum aspectDen
  let diff ← int fits (screenW - wide)
  let diff100 ← int fits (diff * 100)
  let adjust ← divide fits diff100 screenW
  let product ← int fits (outW * adjust)
  let more ← divide fits product 100
  let outW ← int fits (outW + more)
  .ok ⟨if outW < screenW then screenW else outW, outH⟩

inductive Label where
  | bw
  | bh
  deriving DecidableEq, Repr

/-- The end: `out` in pixels. -/
def pixels (out : Size) : Except Fault (Option Size) := do
  let w ← divide fits out.w SCALE
  let h ← divide fits out.h SCALE
  .ok (some ⟨w, h⟩)

/-- From a label on; `none` after that many blocks. -/
def blocks (screen video : Size) : Nat → Label → Except Fault (Option Size)
  | 0, _ => .ok none
  | fuel + 1, .bw => do
    let out ← bwBlock fits screen video
    let h ← divide fits out.h SCALE
    if h > screen.h then blocks screen video fuel .bh else pixels fits out
  | fuel + 1, .bh => do
    let out ← bhBlock fits screen video
    let w ← divide fits out.w SCALE
    if w > screen.w then blocks screen video fuel .bw else pixels fits out

/-- `avbox_player_scale2display`, for a screen that is not higher than wide. -/
def scale2display (screen video : Size) (fuel : Nat) : Except Fault (Option Size) :=
  blocks fits screen video fuel (if video.w > video.h then .bw else .bh)

end Code

/-! ## What the blocks compute -/

/-- `out->h` when the width is filled. -/
def filledHeight (screen video : Size) : Int := 100 * video.h * (100 * screen.w / video.w)

/-- `out->w` when the height is filled. -/
def filledWidth (screen video : Size) : Int := 100 * video.w * (100 * screen.h / video.h)

/-- The correction of the height in percent. -/
def heightAdjust (screen : Size) : Int :=
  (100 * (16 * screen.h - 9 * screen.w)).tdiv (16 * screen.h)

/-- The correction of the width in percent. -/
def widthAdjust (screen : Size) : Int :=
  (100 * (10000 * screen.w - 160000 * screen.h / 9)).tdiv (10000 * screen.w)

def adjusted (x percent : Int) : Int := x + (x * percent).tdiv 100

/-- `out->h` after the block at `bw`. -/
def grownHeight (screen video : Size) : Int :=
  adjusted (filledHeight screen video) (heightAdjust screen)

/-- `out->w` after the block at `bh`. -/
def grownWidth (screen video : Size) : Int :=
  if adjusted (filledWidth screen video) (widthAdjust screen) < screen.w * 10000 then
    screen.w * 10000
  else adjusted (filledWidth screen video) (widthAdjust screen)

variable {fits : Int → Prop} [DecidablePred fits] {Q : Size → Prop} {screen video : Size}

theorem ensures_int {R : Int → Prop} {x : Int} :
    Ensures (int fits x) R (fun _ => False) ↔ fits x ∧ R x := by
  unfold int
  split <;> simp [*]

theorem ensures_divide {R : Int → Prop} {x y : Int} :
    Ensures (divide fits x y) R (fun _ => False) ↔ y ≠ 0 ∧ fits (x.tdiv y) ∧ R (x.tdiv y) := by
  unfold divide
  split
  · rename_i hzero
    simp [hzero]
  · rename_i hne
    simp [hne, ensures_int]

/-- The sizes of a screen and a video. -/
structure Positive (screen video : Size) : Prop where
  screenH : 0 < screen.h
  wide : screen.h ≤ screen.w
  videoW : 0 < video.w
  videoH : 0 < video.h

/-- The results of the block at `bw` have their type. -/
structure BwFits (fits : Int → Prop) (screen video : Size) : Prop where
  outW : fits (screen.w * 10000)
  inH : fits (video.h * 10000)
  outW100 : fits (screen.w * 10000 * 100)
  inW : fits (video.w * 10000)
  percent : fits (100 * screen.w / video.w)
  scaled : fits (video.h * 10000 * (100 * screen.w / video.w))
  filled : fits (filledHeight screen video)
  screenH : fits (screen.h * 10000)
  screenWDen : fits (screen.w * 10000 * 9)
  wide : fits (5625 * screen.w)
  diff : fits (screen.h * 10000 - 5625 * screen.w)
  diff100 : fits ((screen.h * 10000 - 5625 * screen.w) * 100)
  adjust : fits (heightAdjust screen)
  product : fits (filledHeight screen video * heightAdjust screen)
  more : fits ((filledHeight screen video * heightAdjust screen).tdiv 100)
  outH : fits (adjusted (filledHeight screen video) (heightAdjust screen))

/-- The results of the block at `bh` have their type. -/
structure BhFits (fits : Int → Prop) (screen video : Size) : Prop where
  outH : fits (screen.h * 10000)
  inW : fits (video.w * 10000)
  outH100 : fits (screen.h * 10000 * 100)
  inH : fits (video.h * 10000)
  percent : fits (100 * screen.h / video.h)
  scaled : fits (video.w * 10000 * (100 * screen.h / video.h))
  filled : fits (filledWidth screen video)
  screenW : fits (screen.w * 10000)
  screenHNum : fits (screen.h * 10000 * 16)
  wide : fits (160000 * screen.h / 9)
  diff : fits (screen.w * 10000 - 160000 * screen.h / 9)
  diff100 : fits ((screen.w * 10000 - 160000 * screen.h / 9) * 100)
  adjust : fits (widthAdjust screen)
  product : fits (filledWidth screen video * widthAdjust screen)
  more : fits ((filledWidth screen video * widthAdjust screen).tdiv 100)
  outW : fits (adjusted (filledWidth screen video) (widthAdjust screen))

/-! ### The divisions -/

theorem percent_eq {a : Int} (ha : 0 ≤ a) (b : Int) :
    (a * 10000 * 100).tdiv (b * 10000) = 100 * a / b := by
  rw [Int.tdiv_eq_ediv_of_nonneg (by omega), show a * 10000 * 100 = 100 * a * 10000 by ring]
  exact Int.mul_ediv_mul_of_pos_left _ _ (by decide)

theorem filled_eq (a q : Int) : (a * 10000 * q).tdiv 100 = 100 * a * q := by
  rw [show a * 10000 * q = 100 * a * q * 100 by ring]
  exact Int.mul_tdiv_cancel _ (by decide)

theorem wide_eq (a : Int) : (a * 10000 * 9).tdiv 16 = 5625 * a := by
  rw [show a * 10000 * 9 = 5625 * a * 16 by ring]
  exact Int.mul_tdiv_cancel _ (by decide)

theorem heightAdjust_eq (screen : Size) :
    ((screen.h * 10000 - 5625 * screen.w) * 100).tdiv (screen.h * 10000) = heightAdjust screen := by
  rw [show (screen.h * 10000 - 5625 * screen.w) * 100 =
      625 * (100 * (16 * screen.h - 9 * screen.w)) by ring,
    show screen.h * 10000 = 625 * (16 * screen.h) by ring]
  exact Int.mul_tdiv_mul_of_pos _ _ (by decide)

theorem high_eq {a : Int} (ha : 0 ≤ a) : (a * 10000 * 16).tdiv 9 = 160000 * a / 9 := by
  rw [Int.tdiv_eq_ediv_of_nonneg (by omega), show a * 10000 * 16 = 160000 * a by ring]

theorem widthAdjust_eq (screen : Size) :
    ((screen.w * 10000 - 160000 * screen.h / 9) * 100).tdiv (screen.w * 10000) =
      widthAdjust screen := by
  rw [widthAdjust, Int.mul_comm _ 100, Int.mul_comm screen.w]

/-! ### The blocks -/

theorem bwBlock_ensures (h : Positive screen video) :
    Ensures (bwBlock fits screen video) Q (fun _ => False) ↔
      BwFits fits screen video ∧ Q ⟨screen.w * 10000, grownHeight screen video⟩ := by
  obtain ⟨hsh, hwide, hvw, hvh⟩ := h
  have hvw' : video.w * 10000 ≠ 0 := by omega
  have hsh' : screen.h * 10000 ≠ 0 := by omega
  simp only [bwBlock, SCALE, aspectNum, aspectDen, ensures_bind, ensures_int, ensures_divide,
    ensures_ok, percent_eq (by omega : 0 ≤ screen.w), filled_eq, wide_eq, heightAdjust_eq,
    ne_eq, hvw', hsh', not_false_eq_true, true_and, OfNat.ofNat_ne_zero]
  constructor
  · rintro ⟨h1, h2, h3, h4, h5, h6, h7, h8, -, h9, h10, h11, h12, h13, h14, h15, h16, hQ⟩
    exact ⟨⟨h1, h2, h3, h4, h5, h6, h7, h8, h9, h10, h11, h12, h13, h14, h15, h16⟩, hQ⟩
  · rintro ⟨⟨h1, h2, h3, h4, h5, h6, h7, h8, h9, h10, h11, h12, h13, h14, h15, h16⟩, hQ⟩
    exact ⟨h1, h2, h3, h4, h5, h6, h7, h8, h1, h9, h10, h11, h12, h13, h14, h15, h16, hQ⟩

theorem bhBlock_ensures (h : Positive screen video) :
    Ensures (bhBlock fits screen video) Q (fun _ => False) ↔
      BhFits fits screen video ∧ Q ⟨grownWidth screen video, screen.h * 10000⟩ := by
  obtain ⟨hsh, hwide, hvw, hvh⟩ := h
  have hvh' : video.h * 10000 ≠ 0 := by omega
  have hsw' : screen.w * 10000 ≠ 0 := by omega
  simp only [bhBlock, SCALE, aspectNum, aspectDen, ensures_bind, ensures_int, ensures_divide,
    ensures_ok, percent_eq (by omega : 0 ≤ screen.h), filled_eq,
    high_eq (by omega : 0 ≤ screen.h), widthAdjust_eq, ne_eq, hvh', hsw', not_false_eq_true,
    true_and, OfNat.ofNat_ne_zero]
  constructor
  · rintro ⟨h1, h2, h3, h4, h5, h6, h7, h8, -, h9, h10, h11, h12, h13, h14, h15, h16, hQ⟩
    exact ⟨⟨h1, h2, h3, h4, h5, h6, h7, h8, h9, h10, h11, h12, h13, h14, h15, h16⟩, hQ⟩
  · rintro ⟨⟨h1, h2, h3, h4, h5, h6, h7, h8, h9, h10, h11, h12, h13, h14, h15, h16⟩, hQ⟩
    exact ⟨h1, h2, h3, h4, h5, h6, h7, h8, h1, h9, h10, h11, h12, h13, h14, h15, h16, hQ⟩

/-! ## The corrections -/

theorem tdiv_of_nonpos {a : Int} (ha : a ≤ 0) (b : Int) : a.tdiv b = -(-a / b) := by
  rw [← Int.tdiv_eq_ediv_of_nonneg (by omega), Int.neg_tdiv, Int.neg_neg]

/-- On a screen that is wider than 16:9 the height shrinks and the width grows, by no more. -/
theorem adjust_wide (hsh : 0 < screen.h) (h : 16 * screen.h ≤ 9 * screen.w) :
    heightAdjust screen ≤ 0 ∧ 0 ≤ widthAdjust screen ∧
      heightAdjust screen + widthAdjust screen ≤ 0 := by
  have hneg : heightAdjust screen =
      -(100 * (9 * screen.w - 16 * screen.h) / (16 * screen.h)) := by
    rw [heightAdjust, tdiv_of_nonpos (by omega)]
    congr 2
    omega
  have hpos : widthAdjust screen =
      100 * (10000 * screen.w - 160000 * screen.h / 9) / (10000 * screen.w) :=
    Int.tdiv_eq_ediv_of_nonneg (by omega)
  have hn := Int.ediv_nonneg (a := 100 * (9 * screen.w - 16 * screen.h)) (b := 16 * screen.h)
    (by omega) (by omega)
  have hm := Int.ediv_nonneg (a := 100 * (10000 * screen.w - 160000 * screen.h / 9))
    (b := 10000 * screen.w) (by omega) (by omega)
  have hnlt := Int.lt_ediv_add_one_mul_self (100 * (9 * screen.w - 16 * screen.h))
    (by omega : 0 < 16 * screen.h)
  have hmle := Int.ediv_mul_le (100 * (10000 * screen.w - 160000 * screen.h / 9))
    (by omega : 10000 * screen.w ≠ 0)
  have hfloor : 160000 * screen.h - 8 ≤ 9 * (160000 * screen.h / 9) := by omega
  rw [hneg, hpos]
  generalize 100 * (9 * screen.w - 16 * screen.h) / (16 * screen.h) = n at *
  generalize 100 * (10000 * screen.w - 160000 * screen.h / 9) / (10000 * screen.w) = m at *
  refine ⟨by omega, hm, ?_⟩
  by_contra hgt
  have hmn : n + 1 ≤ m := by omega
  have hscreen : (n + 1) * (16 * screen.h) ≤ m * (16 * screen.h) :=
    mul_le_mul_of_nonneg_right hmn (by omega)
  have hdiff : 0 ≤ m * (9 * screen.w - 16 * screen.h) := mul_nonneg hm (by omega)
  nlinarith

/-- On one that is narrower, the other way round. -/
theorem adjust_narrow (hsh : 0 < screen.h) (hsw : 0 < screen.w)
    (h : 9 * screen.w < 16 * screen.h) :
    0 ≤ heightAdjust screen ∧ widthAdjust screen ≤ 0 ∧
      heightAdjust screen + widthAdjust screen ≤ 0 := by
  have hpos : heightAdjust screen =
      100 * (16 * screen.h - 9 * screen.w) / (16 * screen.h) :=
    Int.tdiv_eq_ediv_of_nonneg (by omega)
  have hneg : widthAdjust screen =
      -(100 * (160000 * screen.h / 9 - 10000 * screen.w) / (10000 * screen.w)) := by
    rw [widthAdjust, tdiv_of_nonpos (by omega)]
    congr 2
    omega
  have hp := Int.ediv_nonneg (a := 100 * (16 * screen.h - 9 * screen.w)) (b := 16 * screen.h)
    (by omega) (by omega)
  have hn := Int.ediv_nonneg (a := 100 * (160000 * screen.h / 9 - 10000 * screen.w))
    (b := 10000 * screen.w) (by omega) (by omega)
  have hple := Int.ediv_mul_le (100 * (16 * screen.h - 9 * screen.w))
    (by omega : 16 * screen.h ≠ 0)
  have hnlt := Int.lt_ediv_add_one_mul_self (100 * (160000 * screen.h / 9 - 10000 * screen.w))
    (by omega : 0 < 10000 * screen.w)
  have hfloor : 160000 * screen.h - 8 ≤ 9 * (160000 * screen.h / 9) := by omega
  rw [hpos, hneg]
  generalize 100 * (16 * screen.h - 9 * screen.w) / (16 * screen.h) = p at *
  generalize 100 * (160000 * screen.h / 9 - 10000 * screen.w) / (10000 * screen.w) = n at *
  refine ⟨hp, by omega, ?_⟩
  by_contra hgt
  have hnp : n + 1 ≤ p := by omega
  have hscreen : (n + 1) * (10000 * screen.w) ≤ p * (10000 * screen.w) :=
    mul_le_mul_of_nonneg_right hnp (by omega)
  have hdiff : 1 * (16 * screen.h - 9 * screen.w) ≤ p * (16 * screen.h - 9 * screen.w) :=
    mul_le_mul_of_nonneg_right (by omega) (by omega)
  nlinarith

/-- **Together the corrections never enlarge.** -/
theorem adjust_le (h : Positive screen video) :
    (100 + heightAdjust screen) * (100 + widthAdjust screen) ≤ 100 * 100 := by
  obtain ⟨hsh, hwide, -, -⟩ := h
  rcases Int.lt_or_le (9 * screen.w) (16 * screen.h) with hlt | hle
  · obtain ⟨hheight, hwidth, hsum⟩ := adjust_narrow hsh (by omega) hlt
    nlinarith [mul_nonneg hheight (neg_nonneg.mpr hwidth)]
  · obtain ⟨hheight, hwidth, hsum⟩ := adjust_wide hsh hle
    nlinarith [mul_nonneg (neg_nonneg.mpr hheight) hwidth]

/-! ## The jumps -/

/-- The test at the end of `bw`. -/
def TooHigh (screen video : Size) : Prop := screen.h < (grownHeight screen video).tdiv 10000

/-- The test at the end of `bh`. -/
def TooWide (screen video : Size) : Prop := screen.w < (grownWidth screen video).tdiv 10000

instance (screen video : Size) : Decidable (TooHigh screen video) :=
  inferInstanceAs (Decidable (_ < _))

instance (screen video : Size) : Decidable (TooWide screen video) :=
  inferInstanceAs (Decidable (_ < _))

theorem filledHeight_nonneg (h : Positive screen video) : 0 ≤ filledHeight screen video := by
  obtain ⟨hsh, hwide, hvw, hvh⟩ := h
  exact mul_nonneg (by omega) (Int.ediv_nonneg (by omega) (by omega))

theorem filledWidth_nonneg (h : Positive screen video) : 0 ≤ filledWidth screen video := by
  obtain ⟨hsh, hwide, hvw, hvh⟩ := h
  exact mul_nonneg (by omega) (Int.ediv_nonneg (by omega) (by omega))

/-- Filling one side and filling the other, what the one gains the other loses. -/
theorem filled_mul_le (h : Positive screen video) :
    filledHeight screen video * filledWidth screen video ≤
      10000 * screen.h * (10000 * screen.w) := by
  obtain ⟨hsh, hwide, hvw, hvh⟩ := h
  have hw := Int.ediv_mul_le (100 * screen.w) (by omega : video.w ≠ 0)
  have hh := Int.ediv_mul_le (100 * screen.h) (by omega : video.h ≠ 0)
  have hw0 := mul_nonneg (Int.ediv_nonneg (by omega : 0 ≤ 100 * screen.w) (by omega : 0 ≤ video.w))
    (by omega : 0 ≤ video.w)
  calc filledHeight screen video * filledWidth screen video
      = 10000 * ((100 * screen.w / video.w * video.w) * (100 * screen.h / video.h * video.h)) := by
        unfold filledHeight filledWidth
        ring
    _ ≤ 10000 * ((100 * screen.w) * (100 * screen.h)) := by
        have hprod := mul_le_mul hw hh (mul_nonneg (Int.ediv_nonneg (by omega) (by omega))
          (by omega)) (by omega)
        omega
    _ = 10000 * screen.h * (10000 * screen.w) := by ring

/-- A correction rounds up by less than one. -/
theorem adjusted_le (x percent : Int) : 100 * adjusted x percent ≤ x * (100 + percent) + 99 := by
  unfold adjusted
  rw [Int.mul_add, Int.mul_add, Int.mul_comm x 100]
  rcases Int.le_total 0 (x * percent) with hpos | hneg
  · rw [Int.tdiv_eq_ediv_of_nonneg hpos]
    omega
  · rw [tdiv_of_nonpos hneg]
    omega

theorem lt_tdiv {n y : Int} (hn : 0 ≤ n) (h : n < y.tdiv 10000) : (n + 1) * 10000 ≤ y := by
  rcases Int.le_total 0 y with hpos | hneg
  · rw [Int.tdiv_eq_ediv_of_nonneg hpos] at h
    omega
  · rw [tdiv_of_nonpos hneg] at h
    omega

/-- **A video is not both too high and too wide.** -/
theorem not_both (h : Positive screen video) : ¬(TooHigh screen video ∧ TooWide screen video) := by
  rintro ⟨hhigh, hwide⟩
  have hsh := h.screenH
  have hsw := h.wide
  have hheight := lt_tdiv (by omega) hhigh
  have hwidth := lt_tdiv (by omega) hwide
  have hgrown : grownWidth screen video =
      adjusted (filledWidth screen video) (widthAdjust screen) := by
    unfold grownWidth at hwidth ⊢
    split
    · rename_i hlt
      rw [if_pos hlt] at hwidth
      omega
    · rfl
  rw [hgrown] at hwidth
  unfold grownHeight at hheight
  have hleh := adjusted_le (filledHeight screen video) (heightAdjust screen)
  have hlew := adjusted_le (filledWidth screen video) (widthAdjust screen)
  have hfilled := filled_mul_le h
  have hadjust := adjust_le h
  have hh0 := filledHeight_nonneg h
  have hw0 := filledWidth_nonneg h
  -- both sides come out larger than the screen, before the rounding
  have hbig : 100 * (10000 * screen.h) <
      filledHeight screen video * (100 + heightAdjust screen) := by omega
  have wbig : 100 * (10000 * screen.w) <
      filledWidth screen video * (100 + widthAdjust screen) := by omega
  have hprod := mul_lt_mul'' hbig wbig (by omega) (by omega)
  have hle : filledHeight screen video * filledWidth screen video *
      ((100 + heightAdjust screen) * (100 + widthAdjust screen)) ≤
        filledHeight screen video * filledWidth screen video * (100 * 100) :=
    mul_le_mul_of_nonneg_left hadjust (mul_nonneg hh0 hw0)
  nlinarith

/-! ## The runs -/

/-- The type keeps what it divides by `SCALE`. -/
def Divides (fits : Int → Prop) : Prop := ∀ x, fits x → fits (x.tdiv 10000)

theorem divide_scale (hdiv : Divides fits) {x : Int} (h : fits x) :
    divide fits x SCALE = .ok (x.tdiv 10000) := by
  rw [divide, if_neg (by decide), int, SCALE, if_pos (hdiv x h)]

theorem pixels_eq (hdiv : Divides fits) {w h : Int} (hw : fits w) (hh : fits h) :
    pixels fits ⟨w, h⟩ = .ok (some ⟨w.tdiv 10000, h.tdiv 10000⟩) := by
  rw [pixels, divide_scale hdiv hw, divide_scale hdiv hh]
  rfl

theorem mul_tdiv_scale (x : Int) : (x * 10000).tdiv 10000 = x := Int.mul_tdiv_cancel x (by decide)

/-- The run of the block at `bw`. -/
theorem blocks_bw (h : Positive screen video) (hdiv : Divides fits)
    (hfits : BwFits fits screen video) (fuel : Nat) :
    blocks fits screen video (fuel + 1) .bw =
      if TooHigh screen video then blocks fits screen video fuel .bh
      else .ok (some ⟨screen.w, (grownHeight screen video).tdiv 10000⟩) := by
  have hout : fits (grownHeight screen video) := hfits.outH
  have hblock := ensures_eq_iff.mp ((bwBlock_ensures h).mpr ⟨hfits, rfl⟩)
  have hpixels := pixels_eq hdiv hfits.outW hout
  rw [mul_tdiv_scale] at hpixels
  rw [blocks, hblock]
  simp only [bind, Except.bind, divide_scale hdiv hout, hpixels]
  rfl

theorem blocks_bh (h : Positive screen video) (hdiv : Divides fits)
    (hfits : BhFits fits screen video) (fuel : Nat) :
    blocks fits screen video (fuel + 1) .bh =
      if TooWide screen video then blocks fits screen video fuel .bw
      else .ok (some ⟨(grownWidth screen video).tdiv 10000, screen.h⟩) := by
  have hout : fits (grownWidth screen video) := by
    unfold grownWidth
    split
    · exact hfits.screenW
    · exact hfits.outW
  have hblock := ensures_eq_iff.mp ((bhBlock_ensures h).mpr ⟨hfits, rfl⟩)
  have hpixels := pixels_eq hdiv hout hfits.outH
  rw [mul_tdiv_scale] at hpixels
  rw [blocks, hblock]
  simp only [bind, Except.bind, divide_scale hdiv hout, hpixels]
  rfl

/-- Exact integers have every result. -/
def exact (_ : Int) : Prop := True

instance : DecidablePred exact := fun _ => inferInstanceAs (Decidable True)

/-- From either block, the run ends within two. -/
theorem blocks_end (h : Positive screen video) (label : Label) :
    ∃ out, (∀ fuel, blocks exact screen video (fuel + 2) label = .ok (some out)) ∧
      out.w ≤ screen.w ∧ out.h ≤ screen.h := by
  have hdiv : Divides exact := fun _ _ => trivial
  have hbw := blocks_bw h hdiv (by constructor <;> trivial)
  have hbh := blocks_bh h hdiv (by constructor <;> trivial)
  cases label with
  | bw =>
    by_cases hhigh : TooHigh screen video
    · have hwide : ¬TooWide screen video := fun hwide => not_both h ⟨hhigh, hwide⟩
      refine ⟨⟨(grownWidth screen video).tdiv 10000, screen.h⟩, fun fuel => ?_,
        Int.not_lt.mp hwide, Int.le_refl _⟩
      rw [hbw, if_pos hhigh, hbh, if_neg hwide]
    · refine ⟨⟨screen.w, (grownHeight screen video).tdiv 10000⟩, fun fuel => ?_,
        Int.le_refl _, Int.not_lt.mp hhigh⟩
      rw [hbw, if_neg hhigh]
  | bh =>
    by_cases hwide : TooWide screen video
    · have hhigh : ¬TooHigh screen video := fun hhigh => not_both h ⟨hhigh, hwide⟩
      refine ⟨⟨screen.w, (grownHeight screen video).tdiv 10000⟩, fun fuel => ?_,
        Int.le_refl _, Int.not_lt.mp hhigh⟩
      rw [hbh, if_pos hwide, hbw, if_neg hhigh]
    · refine ⟨⟨(grownWidth screen video).tdiv 10000, screen.h⟩, fun fuel => ?_,
        Int.not_lt.mp hwide, Int.le_refl _⟩
      rw [hbh, if_neg hwide]

/-- **Scaling ends inside the screen.** -/
theorem scale_terminates (h : Positive screen video) :
    ∃ out, (∀ fuel, 2 ≤ fuel → scale2display exact screen video fuel = .ok (some out)) ∧
      out.w ≤ screen.w ∧ out.h ≤ screen.h := by
  obtain ⟨out, hrun, hfit⟩ := blocks_end h (if video.w > video.h then .bw else .bh)
  refine ⟨out, fun fuel hfuel => ?_, hfit⟩
  obtain ⟨fuel, rfl⟩ := Nat.exists_eq_add_of_le' hfuel
  exact hrun fuel

/-- A video in 16:9 on a screen in 16:10. -/
theorem scale_terminates_wxga :
    ∃ out, (∀ fuel, 2 ≤ fuel → scale2display exact ⟨1280, 800⟩ ⟨1920, 1080⟩ fuel = .ok (some out)) ∧
      out.w ≤ 1280 ∧ out.h ≤ 800 :=
  scale_terminates ⟨by decide, by decide, by decide, by decide⟩

/-! ## With 32 bits -/

/-- The sizes that players and screens have. -/
structure Bounded (screen video : Size) : Prop extends Positive screen video where
  screenMax : screen.w ≤ 3840
  videoWMax : video.w ≤ 8192
  videoHMax : video.h ≤ 8192

theorem tdiv_hundred {x : Int} (h : InRange 32 x) :
    -21474836 ≤ x.tdiv 100 ∧ x.tdiv 100 ≤ 21474836 := by
  rw [inRange_32] at h
  rcases Int.le_total 0 x with hpos | hneg
  · rw [Int.tdiv_eq_ediv_of_nonneg hpos]
    omega
  · rw [tdiv_of_nonpos hneg]
    omega

theorem divides_32 : Divides (InRange 32) := by
  intro x h
  rw [inRange_32] at h ⊢
  rcases Int.le_total 0 x with hpos | hneg
  · rw [Int.tdiv_eq_ediv_of_nonneg hpos]
    omega
  · rw [tdiv_of_nonpos hneg]
    omega

theorem heightAdjust_range (h : Bounded screen video) :
    -4000000 ≤ heightAdjust screen ∧ heightAdjust screen ≤ 43 := by
  have hsh := h.screenH
  have hwide := h.wide
  have hmax := h.screenMax
  rcases Int.lt_or_le (9 * screen.w) (16 * screen.h) with hlt | hle
  · have hpos : heightAdjust screen = 100 * (16 * screen.h - 9 * screen.w) / (16 * screen.h) :=
      Int.tdiv_eq_ediv_of_nonneg (by omega)
    have h0 := (adjust_narrow hsh (by omega) hlt).1
    have hlt44 : 100 * (16 * screen.h - 9 * screen.w) / (16 * screen.h) < 44 :=
      Int.ediv_lt_of_lt_mul (by omega) (by omega)
    omega
  · have h0 := (adjust_wide hsh hle).1
    have hneg : heightAdjust screen = -(-(100 * (16 * screen.h - 9 * screen.w)) / (16 * screen.h)) :=
      tdiv_of_nonpos (by omega) _
    have hself := Int.ediv_le_self (a := -(100 * (16 * screen.h - 9 * screen.w)))
      (16 * screen.h) (by omega)
    omega

theorem widthAdjust_range (h : Positive screen video) :
    -78 ≤ widthAdjust screen ∧ widthAdjust screen ≤ 99 := by
  have hsh := h.screenH
  have hwide := h.wide
  rcases Int.lt_or_le (10000 * screen.w) (160000 * screen.h / 9) with hlt | hle
  · have hneg : widthAdjust screen =
        -(-(100 * (10000 * screen.w - 160000 * screen.h / 9)) / (10000 * screen.w)) :=
      tdiv_of_nonpos (by omega) _
    have hlow : -(100 * (10000 * screen.w - 160000 * screen.h / 9)) / (10000 * screen.w) < 79 :=
      Int.ediv_lt_of_lt_mul (by omega) (by omega)
    have hnonneg : 0 ≤ -(100 * (10000 * screen.w - 160000 * screen.h / 9)) / (10000 * screen.w) :=
      Int.ediv_nonneg (by omega) (by omega)
    omega
  · have hpos : widthAdjust screen =
        100 * (10000 * screen.w - 160000 * screen.h / 9) / (10000 * screen.w) :=
      Int.tdiv_eq_ediv_of_nonneg (by omega)
    have hhigh : 100 * (10000 * screen.w - 160000 * screen.h / 9) / (10000 * screen.w) < 100 :=
      Int.ediv_lt_of_lt_mul (by omega) (by omega)
    have hnonneg : 0 ≤ 100 * (10000 * screen.w - 160000 * screen.h / 9) / (10000 * screen.w) :=
      Int.ediv_nonneg (by omega) (by omega)
    omega

theorem mul_ediv_le {a b c : Int} (hb : 0 < b) (hc : 0 ≤ c) (hab : a ≤ b) : a * (c / b) ≤ c :=
  calc a * (c / b) ≤ b * (c / b) :=
        mul_le_mul_of_nonneg_right hab (Int.ediv_nonneg hc (Int.le_of_lt hb))
    _ = c / b * b := Int.mul_comm _ _
    _ ≤ c := Int.ediv_mul_le _ (by omega)

/-- The block at `bw` stays in range for a screen that is not too wide and whose correction is not
too large. -/
theorem bwFits_iff (h : Bounded screen video) (hlandscape : video.h < video.w) :
    BwFits (InRange 32) screen video ↔
      screen.w ≤ 2147 ∧ -2147483648 ≤ filledHeight screen video * heightAdjust screen := by
  have hsh := h.screenH
  have hwide := h.wide
  have hvw := h.videoW
  have hvh := h.videoH
  have hvwmax := h.videoWMax
  have hvhmax := h.videoHMax
  obtain ⟨hlow, hhigh⟩ := heightAdjust_range h
  constructor
  · intro hfits
    have hw := inRange_32.mp hfits.outW100
    have hproduct := inRange_32.mp hfits.product
    exact ⟨by omega, hproduct.1⟩
  · rintro ⟨hsw, hproduct⟩
    have hq0 : 0 ≤ 100 * screen.w / video.w := Int.ediv_nonneg (by omega) (by omega)
    have hqself := Int.ediv_le_self (a := 100 * screen.w) video.w (by omega)
    have hfilled : video.h * (100 * screen.w / video.w) ≤ 100 * screen.w :=
      mul_ediv_le hvw (by omega) (by omega)
    have hfilled0 : 0 ≤ video.h * (100 * screen.w / video.w) := mul_nonneg (by omega) hq0
    have hheight : filledHeight screen video = 100 * (video.h * (100 * screen.w / video.w)) := by
      rw [filledHeight, Int.mul_assoc]
    have hscaled : video.h * 10000 * (100 * screen.w / video.w) =
        10000 * (video.h * (100 * screen.w / video.w)) := by ring
    have hmax : filledHeight screen video * heightAdjust screen ≤ filledHeight screen video * 43 :=
      mul_le_mul_of_nonneg_left hhigh (by omega)
    have hin : InRange 32 (filledHeight screen video * heightAdjust screen) := by
      rw [inRange_32]
      omega
    obtain ⟨hmore, hmore'⟩ := tdiv_hundred hin
    refine ⟨?_, ?_, ?_, ?_, ?_, ?_, ?_, ?_, ?_, ?_, ?_, ?_, ?_, hin, ?_, ?_⟩
    all_goals rw [inRange_32]
    all_goals try unfold adjusted
    all_goals omega

theorem bhFits_iff (h : Bounded screen video) :
    BhFits (InRange 32) screen video ↔
      screen.h ≤ 2147 ∧ video.w * 10000 * (100 * screen.h / video.h) < 2147483648 ∧
        (screen.w * 10000 - 160000 * screen.h / 9) * 100 < 2147483648 := by
  have hsh := h.screenH
  have hwide := h.wide
  have hvw := h.videoW
  have hvh := h.videoH
  have hvwmax := h.videoWMax
  have hvhmax := h.videoHMax
  have hswmax := h.screenMax
  obtain ⟨hlow, hhigh⟩ := widthAdjust_range h.toPositive
  constructor
  · intro hfits
    have hw := inRange_32.mp hfits.outH100
    have hscaled := inRange_32.mp hfits.scaled
    have hdiff := inRange_32.mp hfits.diff100
    exact ⟨by omega, hscaled.2, hdiff.2⟩
  · rintro ⟨hshmax, hscaled, hdiff⟩
    have hq0 : 0 ≤ 100 * screen.h / video.h := Int.ediv_nonneg (by omega) (by omega)
    have hqself := Int.ediv_le_self (a := 100 * screen.h) video.h (by omega)
    have hfilled0 : 0 ≤ video.w * (100 * screen.h / video.h) := mul_nonneg (by omega) hq0
    have hwidth : filledWidth screen video = 100 * (video.w * (100 * screen.h / video.h)) := by
      rw [filledWidth, Int.mul_assoc]
    have hmul : video.w * 10000 * (100 * screen.h / video.h) =
        10000 * (video.w * (100 * screen.h / video.h)) := by ring
    have hmax : filledWidth screen video * widthAdjust screen ≤ filledWidth screen video * 99 :=
      mul_le_mul_of_nonneg_left hhigh (by omega)
    have hmin : filledWidth screen video * -78 ≤ filledWidth screen video * widthAdjust screen :=
      mul_le_mul_of_nonneg_left hlow (by omega)
    have hin : InRange 32 (filledWidth screen video * widthAdjust screen) := by
      rw [inRange_32]
      omega
    obtain ⟨hmore, hmore'⟩ := tdiv_hundred hin
    refine ⟨?_, ?_, ?_, ?_, ?_, ?_, ?_, ?_, ?_, ?_, ?_, ?_, ?_, hin, ?_, ?_⟩
    all_goals rw [inRange_32]
    all_goals try unfold adjusted
    all_goals omega

/-- A video that is not wider than high fills the height of every screen. -/
theorem not_tooWide (h : Positive screen video) (hportrait : video.w ≤ video.h) :
    ¬TooWide screen video := by
  intro hover
  have hsh := h.screenH
  have hwide := h.wide
  have hvw := h.videoW
  have hvh := h.videoH
  have hbig := lt_tdiv (by omega) hover
  have hfilled : video.w * (100 * screen.h / video.h) ≤ 100 * screen.h :=
    mul_ediv_le hvh (by omega) hportrait
  have hwidth : filledWidth screen video = 100 * (video.w * (100 * screen.h / video.h)) := by
    rw [filledWidth, Int.mul_assoc]
  have hadjust := adjusted_le (filledWidth screen video) (widthAdjust screen)
  have hlow := (widthAdjust_range h).1
  have hscreen : filledWidth screen video * (100 + widthAdjust screen) ≤
      10000 * screen.h * (100 + widthAdjust screen) :=
    mul_le_mul_of_nonneg_right (by omega) (by omega)
  -- the screen is no narrower than its height after the correction
  have hcorrected : screen.h * (100 + widthAdjust screen) ≤ 100 * screen.w := by
    rcases Int.lt_or_le (9 * screen.w) (16 * screen.h) with hlt | hle
    · have hneg := (adjust_narrow hsh (by omega) hlt).2.1
      nlinarith
    · have hpos : widthAdjust screen =
          100 * (10000 * screen.w - 160000 * screen.h / 9) / (10000 * screen.w) :=
        Int.tdiv_eq_ediv_of_nonneg (by omega)
      have hle := Int.ediv_mul_le (100 * (10000 * screen.w - 160000 * screen.h / 9))
        (by omega : 10000 * screen.w ≠ 0)
      rw [← hpos] at hle
      have hfloor : 160000 * screen.h - 8 ≤ 9 * (160000 * screen.h / 9) := by omega
      by_contra hgt
      have hshare := mul_le_mul_of_nonneg_left hle (Int.le_of_lt hsh)
      have hbelow := mul_le_mul_of_nonneg_left hfloor (Int.le_of_lt hsh)
      have habove := mul_le_mul_of_nonneg_left (Int.not_le.mp hgt) (by omega : 0 ≤ 10000 * screen.w)
      nlinarith [sq_nonneg (screen.w - screen.h), mul_pos hsh hsh]
  unfold grownWidth at hbig
  split at hbig
  · omega
  · nlinarith

/-- Where all of it fits an `int`. -/
def Fits32 (screen video : Size) : Prop :=
  if video.h < video.w then
    screen.w ≤ 2147 ∧ -2147483648 ≤ filledHeight screen video * heightAdjust screen ∧
      (TooHigh screen video → video.w * 10000 * (100 * screen.h / video.h) < 2147483648)
  else screen.h ≤ 2147 ∧ (screen.w * 10000 - 160000 * screen.h / 9) * 100 < 2147483648

theorem blocks_bw_error (h : Positive screen video) (hfits : ¬BwFits fits screen video)
    (fuel : Nat) : ∃ e, blocks fits screen video (fuel + 1) .bw = .error e := by
  obtain ⟨e, he⟩ := exists_error fun hok => hfits ((bwBlock_ensures h).mp hok).1
  exact ⟨e, by rw [blocks, he]; rfl⟩

theorem blocks_bh_error (h : Positive screen video) (hfits : ¬BhFits fits screen video)
    (fuel : Nat) : ∃ e, blocks fits screen video (fuel + 1) .bh = .error e := by
  obtain ⟨e, he⟩ := exists_error fun hok => hfits ((bhBlock_ensures h).mp hok).1
  exact ⟨e, by rw [blocks, he]; rfl⟩

/-- No operation of a run leaves the range, and no divisor is zero. -/
def Faultless (screen video : Size) : Prop :=
  ∀ fuel e, scale2display (InRange 32) screen video fuel ≠ .error e

/-- **The arithmetic of scaling.** -/
theorem scale_fits_iff (h : Bounded screen video) :
    Faultless screen video ↔ Fits32 screen video := by
  have hpositive := h.toPositive
  have hsh := h.screenH
  have hwide := h.wide
  unfold Faultless Fits32 scale2display
  by_cases hlandscape : video.h < video.w
  · rw [if_pos hlandscape, if_pos hlandscape, ← and_assoc, ← bwFits_iff h hlandscape]
    constructor
    · intro hnone
      have hbw : BwFits (InRange 32) screen video := by
        by_contra hfits
        obtain ⟨e, he⟩ := blocks_bw_error hpositive hfits 0
        exact hnone 1 e he
      refine ⟨hbw, fun hhigh => ?_⟩
      have hbh : BhFits (InRange 32) screen video := by
        by_contra hfits
        obtain ⟨e, he⟩ := blocks_bh_error hpositive hfits 0
        exact hnone 2 e (by rw [blocks_bw hpositive divides_32 hbw, if_pos hhigh, he])
      exact ((bhFits_iff h).mp hbh).2.1
    · rintro ⟨hbw, hjump⟩ fuel e
      cases fuel with
      | zero => simp [blocks]
      | succ fuel =>
        rw [blocks_bw hpositive divides_32 hbw]
        split
        · rename_i hhigh
          have hscreen := ((bwFits_iff h hlandscape).mp hbw).1
          have hbh := (bhFits_iff h).mpr ⟨by omega, hjump hhigh, by omega⟩
          cases fuel with
          | zero => simp [blocks]
          | succ fuel =>
            have hover : ¬TooWide screen video := fun hover => not_both hpositive ⟨hhigh, hover⟩
            rw [blocks_bh hpositive divides_32 hbh, if_neg hover]
            simp
        · simp
  · have hportrait := Int.not_lt.mp hlandscape
    have hfit := not_tooWide hpositive hportrait
    have hfilled : video.w * (100 * screen.h / video.h) ≤ 100 * screen.h :=
      mul_ediv_le h.videoH (by omega) hportrait
    have hmul : video.w * 10000 * (100 * screen.h / video.h) =
        10000 * (video.w * (100 * screen.h / video.h)) := by ring
    have hbhiff : BhFits (InRange 32) screen video ↔ screen.h ≤ 2147 ∧
        (screen.w * 10000 - 160000 * screen.h / 9) * 100 < 2147483648 := by
      rw [bhFits_iff h]
      omega
    rw [if_neg (by omega), if_neg hlandscape, ← hbhiff]
    constructor
    · intro hnone
      by_contra hfits
      obtain ⟨e, he⟩ := blocks_bh_error hpositive hfits 0
      exact hnone 1 e he
    · intro hbh fuel e
      cases fuel with
      | zero => simp [blocks]
      | succ fuel =>
        rw [blocks_bh hpositive divides_32 hbh, if_neg hfit]
        simp

/-- A video in high definition on a screen of 720 lines. -/
theorem scale_fits_iff_720 :
    Faultless ⟨1280, 720⟩ ⟨1920, 1080⟩ ↔ Fits32 ⟨1280, 720⟩ ⟨1920, 1080⟩ :=
  scale_fits_iff ⟨⟨by decide, by decide, by decide, by decide⟩, by decide, by decide, by decide⟩

/-- On a screen of 2160 lines, `out->w * 100` is no `int`. -/
theorem scale_overflows :
    ¬∀ screen video, Bounded screen video → Faultless screen video := by
  intro hclaim
  have hbounded : Bounded ⟨3840, 2160⟩ ⟨1920, 1080⟩ :=
    ⟨⟨by decide, by decide, by decide, by decide⟩, by decide, by decide, by decide⟩
  exact hclaim _ _ hbounded 1 .overflow rfl

end Mediabox.Scale
