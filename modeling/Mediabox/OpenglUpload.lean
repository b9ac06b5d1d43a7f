import Mathlib.Tactic.Ring
import Mediabox.OpenglSurface

/-!
# Uploads to textures (`src/lib/ui/video-opengl.c`)

The rows of a texture go up and those of a buffer go down.  A block of pixels comes to the texture
of a surface through its buffer, which `surface_unlock` uploads as a whole, or by `surface_blitbuf`.

* `glTexSubImage2D` copies one row, and what it copies are four bytes a pixel.
* Only `AVBOX_PIXFMT_BGRA` is here: the other formats are drawn by shaders.

Main result: `uploads_agree_iff`.
-/

set_option autoImplicit false

namespace Mediabox.OpenglUpload

open Nesting Transition
open OpenglSurface

abbrev Memory := Int → UInt8

abbrev Texel := Fin 4 → UInt8

/-- The texels of a texture by column and row. -/
abbrev Texture := Int → Int → Texel

/-! ## The code -/

def texel (mem : Memory) (p : Int) : Texel := fun k => mem (p + k)

/-- `glTexSubImage2D` with a height of one -/
def glTexSubImage2D (mem : Memory) (tex : Texture) (x y : Int) (w : Nat) (data : Int) : Texture :=
  fun col row =>
    if row = y ∧ x ≤ col ∧ col < x + w then texel mem (data + 4 * (col - x)) else tex col row

/-- The loop of `avbox_glTexSubImage2D`, with the rows that are left. -/
def uploadRows (mem : Memory) (x : Int) (w : Nat) (pitch : Int) :
    Nat → Int → Int → Texture → Texture
  | 0, _, _, tex => tex
  | n + 1, yy, pdata, tex =>
    uploadRows mem x w pitch n (yy + 1) (pdata - pitch) (glTexSubImage2D mem tex x yy w pdata)

/-- `avbox_glTexSubImage2D` -/
def avboxGlTexSubImage2D (mem : Memory) (tex : Texture) (x y : Int) (w h : Nat)
    (data pitch : Int) : Texture :=
  uploadRows mem x w pitch h y (data + (h - 1) * pitch) tex

/-- What `surface_lock` returns, and its `pitch`. -/
def lock (inst : Surface) : Nat × Nat := (inst.buf, inst.pitch)

/-- `surface_unlock` after a lock to write; there is no result when the surface that
    `inst->real` points to was destroyed. -/
def unlock (s : State) (inst : Surface) (mem : Memory) (tex : Texture) : Option Texture :=
  (s.live inst.real).map fun real =>
    let y : Int := real.h - (inst.realy + inst.h)
    avboxGlTexSubImage2D mem tex inst.realx y inst.w inst.h inst.buf inst.pitch

/-- A block of pixels in memory, whose rows do not overlap. -/
structure Block where
  w : Nat
  h : Nat
  data : Int
  pitch : Int
  rows : 4 * w ≤ pitch

/-- `surface_blitbuf` of an `AVBOX_PIXFMT_BGRA` buffer -/
def blitbuf (inst : Surface) (mem : Memory) (b : Block) (x y : Nat) (tex : Texture) : Texture :=
  avboxGlTexSubImage2D mem tex (inst.realx + x : Nat) (inst.realy + y : Nat) b.w b.h b.data b.pitch

/-! ## What they are for -/

def Block.pixel (b : Block) (mem : Memory) (i j : Nat) : Texel :=
  texel mem (b.data + j * b.pitch + 4 * i)

/-- The block is in what `surface_lock` returned, with its corner at a position. -/
def Drawn (inst : Surface) (b : Block) (x y : Nat) (mem drawn : Memory) : Prop :=
  ∀ i < b.w, ∀ j < b.h,
    texel drawn ((lock inst).1 + (y + j : Nat) * (lock inst).2 + 4 * (x + i : Nat)) =
      b.pixel mem i j

/-- The block is in a texture for a root of a height, with its corner at a position of the root. -/
def Stored (b : Block) (mem : Memory) (height X Y : Nat) (tex : Texture) : Prop :=
  ∀ i < b.w, ∀ j < b.h, tex (X + i : Nat) (height - 1 - (Y + j : Nat)) = b.pixel mem i j

/-- Both ways store the block where it belongs, whatever the pixels are. -/
def Agree (s : State) (inst : Surface) (b : Block) (x y height X Y : Nat) : Prop :=
  ∀ mem tex, Stored b mem height (X + x) (Y + y) (blitbuf inst mem b x y tex) ∧
    ∀ drawn, Drawn inst b x y mem drawn →
      ∃ t ∈ unlock s inst drawn tex, Stored b mem height (X + x) (Y + y) t

variable {s : State} {tr : List (Event × Deleted)} {f root : Surface} {inst r X Y : Nat}
  {mem : Memory} {tex : Texture}

/-! ## Rows -/

/-- **The loop** has stored the rows from the last to the first, and nothing else. -/
theorem uploadRows_apply (x : Int) (w : Nat) (pitch : Int) (n : Nat) (yy pdata col row : Int) :
    uploadRows mem x w pitch n yy pdata tex col row =
      if (yy ≤ row ∧ row < yy + n) ∧ x ≤ col ∧ col < x + w then
        texel mem (pdata - (row - yy) * pitch + 4 * (col - x))
      else tex col row := by
  induction n generalizing yy pdata tex with
  | zero =>
    rw [uploadRows, if_neg]
    rintro ⟨⟨hlow, hhigh⟩, -⟩
    rw [Nat.cast_zero, add_zero] at hhigh
    exact absurd hlow (not_le.mpr hhigh)
  | succ n ih =>
    rw [uploadRows, ih]
    by_cases hcol : x ≤ col ∧ col < x + w
    · rcases lt_trichotomy row yy with hlt | rfl | hgt
      · rw [if_neg (by omega), if_neg (by omega), glTexSubImage2D, if_neg (by omega)]
      · rw [if_neg (by omega), if_pos (by omega), glTexSubImage2D, if_pos ⟨rfl, hcol⟩, sub_self,
          zero_mul, sub_zero]
      · have hp : pdata - pitch - (row - (yy + 1)) * pitch = pdata - (row - yy) * pitch := by ring
        by_cases hrow : row < yy + (n + 1)
        · rw [if_pos (by omega), if_pos (by omega), hp]
        · rw [if_neg (by omega), if_neg (by omega), glTexSubImage2D, if_neg (by omega)]
    · rw [if_neg (by simp [hcol]), if_neg (by simp [hcol]), glTexSubImage2D,
        if_neg (by simp [hcol])]

/-- The last row comes first. -/
theorem avboxGlTexSubImage2D_apply (x y : Int) (w h : Nat) (data pitch col row : Int) :
    avboxGlTexSubImage2D mem tex x y w h data pitch col row =
      if (y ≤ row ∧ row < y + h) ∧ x ≤ col ∧ col < x + w then
        texel mem (data + (y + h - 1 - row) * pitch + 4 * (col - x))
      else tex col row := by
  have hp : data + (h - 1) * pitch - (row - y) * pitch = data + (y + h - 1 - row) * pitch := by ring
  rw [avboxGlTexSubImage2D, uploadRows_apply, hp]

/-! ## Blocks -/

theorem Block.pitch_pos (b : Block) (hw : b.w ≠ 0) : 0 < b.pitch := by
  have := b.rows
  omega

/-- **Through the buffer**: the block is stored where it belongs. -/
theorem unlock_stored {b : Block} {x y : Nat} {drawn : Memory} (hroot : s.live f.real = some root)
    (hx : x + b.w ≤ f.w) (hy : y + b.h ≤ f.h) (hdrawn : Drawn f b x y mem drawn) :
    ∃ t ∈ unlock s f drawn tex, Stored b mem root.h (f.realx + x) (f.realy + y) t := by
  refine ⟨_, Option.map_eq_some_iff.mpr ⟨root, hroot, rfl⟩, fun i hi j hj => ?_⟩
  have hrow : (root.h : Int) - (f.realy + f.h) + f.h - 1 - (root.h - 1 - (f.realy + y + j : Nat)) =
      (y + j : Nat) := by omega
  have hcol : ((f.realx + x + i : Nat) : Int) - f.realx = (x + i : Nat) := by omega
  rw [avboxGlTexSubImage2D_apply, if_pos (by omega), hrow, hcol]
  exact hdrawn i hi j hj

/-- **A blit** stores the row of the block that is `j` from its end where row `j` belongs. -/
theorem blitbuf_stored_iff {b : Block} {x y height : Nat} :
    (∀ mem tex, Stored b mem height (f.realx + x) (f.realy + y) (blitbuf f mem b x y tex)) ↔
      b.w = 0 ∨ b.h = 0 ∨ 2 * (f.realy + y) + b.h = height := by
  constructor
  · intro hstored
    by_contra! hne
    obtain ⟨hw, hh, hmiddle⟩ := hne
    -- only the first byte of the block is set
    let first : Memory := fun p => if p = b.data then 1 else 0
    have hcorner := congrFun (hstored first (fun _ _ _ => 0) 0 (Nat.pos_of_ne_zero hw) 0
      (Nat.pos_of_ne_zero hh)) 0
    rw [blitbuf, avboxGlTexSubImage2D_apply] at hcorner
    split at hcorner
    · have hp := b.pitch_pos hw
      have hrow : (f.realy + y : Nat) + b.h - 1 - ((height : Int) - 1 - (f.realy + y + 0 : Nat)) ≠ 0
        := by omega
      simp [Block.pixel, texel, first, hp.ne'] at hcorner hrow
      exact hrow hcorner
    · simp [Block.pixel, texel, first] at hcorner
  · intro hwhen mem tex i hi j hj
    have hmiddle : 2 * (f.realy + y) + b.h = height := by omega
    have hrow : ((f.realy + y : Nat) : Int) + b.h - 1 - (height - 1 - (f.realy + y + j : Nat)) = j :=
      by omega
    have hcol : ((f.realx + x + i : Nat) : Int) - (f.realx + x : Nat) = i := by omega
    rw [blitbuf, avboxGlTexSubImage2D_apply, if_pos (by omega), hrow, hcol]
    rfl

theorem agree_iff {b : Block} {x y : Nat} (hroot : s.live f.real = some root)
    (hx : x + b.w ≤ f.w) (hy : y + b.h ≤ f.h) :
    Agree s f b x y root.h f.realx f.realy ↔
      b.w = 0 ∨ b.h = 0 ∨ 2 * (f.realy + y) + b.h = root.h := by
  rw [← blitbuf_stored_iff (f := f) (x := x)]
  constructor
  · exact fun h mem tex => (h mem tex).1
  · exact fun h mem tex => ⟨h mem tex, fun drawn hdrawn => unlock_stored hroot hx hy hdrawn⟩

/-! ## Surfaces -/

/-- Where a surface lies in its root. -/
structure Placed (f : Surface) (r : Nat) (root : Surface) (X Y : Nat) : Prop where
  real : f.real = r
  realx : f.realx = X
  realy : f.realy = Y
  pitch : f.pitch = root.pitch
  right : X + f.w ≤ root.w

/-- **The offsets** along the path to its root are where a surface lies. -/
theorem exists_placed (hrun : Run (Step step) init tr s)
    (hpath : Path Surface.frame s.surfaces inst r X Y) :
    ∃ f root, s.surfaces[inst]? = some f ∧ s.surfaces[r]? = some root ∧
      4 * root.w ≤ root.pitch ∧ Placed f r root X Y := by
  have hgrown : Grown Surface.frame Top Linked s.surfaces :=
    Run.invariant (P := fun t => Grown Surface.frame Top Linked t.surfaces) Grown.nil
      (fun _ _ _ ht hs => step_grown ht hs) hrun
  obtain ⟨f, root, hf, hroot, -, htop, hplaced⟩ := hgrown.along (P := Placed) hpath
    (fun r f htop => ⟨htop.real, htop.realx, htop.realy, rfl, by omega⟩)
    (fun f pf r root x y hlink hP => ⟨hlink.real.trans hP.real, by rw [hlink.realx, hP.realx]; rfl,
      by rw [hlink.realy, hP.realy]; rfl, hlink.pitch.trans hP.pitch, by
        have hinside := hlink.inside.1
        have hright := hP.right
        change x + f.x + f.w ≤ root.w
        omega⟩)
  exact ⟨f, root, hf, hroot, htop.pitch, hplaced⟩

/-- The memory when the rows of a block were copied to what `surface_lock` returned. -/
def draw (inst : Surface) (b : Block) (x y : Nat) (mem : Memory) : Memory := fun p =>
  let q := p - ((lock inst).1 + y * (lock inst).2 + 4 * x)
  let row := q / (lock inst).2
  let column := q % (lock inst).2
  if 0 ≤ q ∧ row < b.h ∧ column < 4 * b.w then mem (b.data + row * b.pitch + column) else mem p

/-- **Rows do not overlap**: in every run, a block inside of a surface can be written to its
    buffer. -/
theorem draw_drawn (hrun : Run (Step step) init tr s)
    (hpath : Path Surface.frame s.surfaces inst r X Y) (hinst : s.surfaces[inst]? = some f)
    (b : Block) {x : Nat} (y : Nat) (hx : x + b.w ≤ f.w) :
    Drawn f b x y mem (draw f b x y mem) := by
  obtain ⟨f', root, hf', -, hpitch, hplaced⟩ := exists_placed hrun hpath
  obtain rfl := Option.some.inj (hf'.symm.trans hinst)
  have hrow : 4 * (x + b.w) ≤ f'.pitch := by
    have hright := hplaced.right
    rw [hplaced.pitch]
    omega
  intro i hi j hj
  funext k
  have hk : (k : Int) < 4 := by omega
  have hq : (f'.buf + (y + j : Nat) * f'.pitch + 4 * (x + i : Nat) + k : Int) -
      (f'.buf + y * f'.pitch + 4 * x) = (4 * i + k) + f'.pitch * j := by
    push_cast
    ring
  have hcolumn : (4 * i + k : Int) < f'.pitch := by omega
  have hdiv : ((4 * i + k) + f'.pitch * j : Int) / f'.pitch = j := by
    rw [Int.add_mul_ediv_left _ _ (by omega), Int.ediv_eq_zero_of_lt (by omega) hcolumn, zero_add]
  have hmod : ((4 * i + k) + f'.pitch * j : Int) % f'.pitch = 4 * i + k := by
    rw [Int.add_mul_emod_self_left, Int.emod_eq_of_lt (by omega) hcolumn]
  have hpos : (0 : Int) ≤ (4 * i + k) + f'.pitch * j := by
    have := Int.mul_nonneg (Int.natCast_nonneg f'.pitch) (Int.natCast_nonneg j)
    omega
  simp only [texel, draw, lock, Block.pixel, hq, hdiv, hmod]
  rw [if_pos ⟨hpos, by omega, by omega⟩, add_assoc, add_assoc, add_assoc]

/-- **Uploads agree** when the block is in the middle between the top and the bottom of the root,
    or is empty, and only then. -/
theorem uploads_agree_iff (hrun : Run (Step step) init tr s) (hinst : s.live inst = some f)
    (hpath : Path Surface.frame s.surfaces inst r X Y) (hroot : s.live r = some root)
    (b : Block) {x y : Nat} (hx : x + b.w ≤ f.w) (hy : y + b.h ≤ f.h) :
    Agree s f b x y root.h X Y ↔ b.w = 0 ∨ b.h = 0 ∨ 2 * (Y + y) + b.h = root.h := by
  obtain ⟨f', _, hf', -, -, hplaced⟩ := exists_placed hrun hpath
  obtain rfl := Option.some.inj (hf'.symm.trans (live_eq_some hinst).2)
  obtain rfl := hplaced.real
  obtain rfl := hplaced.realx
  obtain rfl := hplaced.realy
  exact agree_iff hroot hx hy

/-! ## A window with a sub-surface in a sub-surface -/

def window : Surface := ⟨none, 0, 1, 8192, 256, 0, 0, 0, 0, 64, 32, 4096⟩

def outer : Surface := ⟨some 0, 0, 1, 0, 256, 8, 8, 8, 8, 16, 16, 6176⟩

def inner : Surface := ⟨some 1, 0, 1, 0, 256, 12, 12, 4, 4, 8, 8, 7216⟩

theorem exists_nested :
    ∃ tr s, Run (Step step) init tr s ∧ s.live 2 = some inner ∧ s.live 0 = some window ∧
      Path Surface.frame s.surfaces 2 0 12 12 := by
  obtain ⟨tr, s, hrun, hinner, hwindow, hsurfaces⟩ := exists_run_of_exec step init
    (fun _ s => s.live 2 = some inner ∧ s.live 0 = some window ∧
      s.surfaces = [window, outer, inner])
    [.newTop 0 0 64 32 1 4096, .newSub 0 8 8 16 16, .newSub 1 4 4 8 8] (by decide +kernel)
  refine ⟨tr, s, hrun, hinner, hwindow, ?_⟩
  rw [hsurfaces]
  exact Path.sub (x := 8) (y := 8) (f := inner) rfl rfl
    (Path.sub (x := 0) (y := 0) (f := outer) rfl rfl (Path.root (f := window) rfl rfl))

/-- Four lines two lines below the top of the inner sub-surface are in the middle of the window. -/
theorem uploads_agree_centred :
    ∃ tr s f, Run (Step step) init tr s ∧ s.live 2 = some f ∧
      Agree s f ⟨8, 4, 0, 32, by decide⟩ 0 2 32 12 12 := by
  obtain ⟨tr, s, hrun, hinner, hwindow, hpath⟩ := exists_nested
  exact ⟨tr, s, inner, hrun, hinner, (uploads_agree_iff hrun hinner hpath hwindow
    ⟨8, 4, 0, 32, by decide⟩ (by decide) (by decide)).mpr (by decide)⟩

/-- The same lines at the top of the inner sub-surface are blitted to where others belong. -/
theorem uploads_disagree :
    ∃ tr s f root, Run (Step step) init tr s ∧ s.live 2 = some f ∧ s.live 0 = some root ∧
      Path Surface.frame s.surfaces 2 0 12 12 ∧
      ¬Agree s f ⟨8, 4, 0, 32, by decide⟩ 0 0 root.h 12 12 := by
  obtain ⟨tr, s, hrun, hinner, hwindow, hpath⟩ := exists_nested
  refine ⟨tr, s, inner, window, hrun, hinner, hwindow, hpath, fun hagree => ?_⟩
  exact absurd ((agree_iff (f := inner) hwindow (by decide) (by decide)).mp hagree) (by decide)

end Mediabox.OpenglUpload
