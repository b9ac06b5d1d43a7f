import Mathlib.Tactic.Ring
import Mediabox.Lib.MachineInt
import Mediabox.Lib.Nesting
import Mediabox.Lib.Transition

/-!
# The surfaces of the software renderer (`src/lib/ui/video-software.c`)

A sub-surface has a pointer of its own into the buffer of its root, made from the pointer of its
parent when it was created.  The surface of the screen changes its buffer with every update.

* A pointer is a block and an offset in bytes.  A surface is named by its index, that of the screen
  is 0.
* The buffer of a new surface is what `posix_memalign` leaves in `pixels`; its result is never -1.
* Surfaces are not destroyed here.  An update of another surface copies pixels and changes no
  surface.

Main result: `pixels_addressed`.
-/

set_option autoImplicit false

namespace Mediabox.SoftwareSurface

open MachineInt Nesting Transition

/-! ## The code -/

structure Pointer where
  block : Nat
  offset : Nat
  deriving DecidableEq, Repr

def Pointer.add (p : Pointer) (bytes : Nat) : Pointer := { p with offset := p.offset + bytes }

/-- `struct mbv_surface` -/
structure Surface where
  real : Nat
  parent : Option Nat
  pixels : Pointer
  pitch : Nat
  w : Nat
  h : Nat
  x : Nat
  y : Nat
  realx : Nat
  realy : Nat
  deriving DecidableEq, Repr

structure State where
  surfaces : List Surface
  /-- `display_surface->pixels` -/
  display : Pointer
  deriving DecidableEq, Repr

/-- `avbox_video_softinit`; without a back buffer of the driver it allocates one. -/
def softinit (front : Pointer) (back : Option Pointer) (w h pitch : Nat) (malloc : Pointer) :
    State :=
  match back with
  | none => ⟨[⟨0, none, malloc, w * 4, w, h, 0, 0, 0, 0⟩], front⟩
  | some back => ⟨[⟨0, none, back, pitch, w, h, 0, 0, 0, 0⟩], front⟩

/-- A result of type `uint32_t`. -/
def uint32 (n : Nat) : Nat := n % 2 ^ 32

/-- `((w * 4) + 15) & ~15` -/
def alignedPitch (w : Nat) : Nat := (w * 4 + 15) / 16 * 16

/-- The sizes for which the products of `surface_new` are `int`s. -/
def Sized (w h : Nat) : Prop :=
  InRange 32 (w * 4 + 15 : Nat) ∧ InRange 32 (alignedPitch w * h : Nat)

instance (w h : Nat) : Decidable (Sized w h) := inferInstanceAs (Decidable (_ ∧ _))

/-- `surface_new` without a parent -/
def newTop (s : State) (x y w h : Nat) (pixels : Pointer) : State :=
  { s with surfaces := s.surfaces ++
      [⟨s.surfaces.length, none, pixels, alignedPitch w, w, h, x, y, 0, 0⟩] }

/-- `surface_new` with a parent -/
def newSub (s : State) (parent : Nat) (p : Surface) (x y w h : Nat) : State :=
  { s with surfaces := s.surfaces ++
      [⟨p.real, some parent, (p.pixels.add (uint32 (p.pitch * y))).add x, p.pitch, w, h, x, y,
        uint32 (p.realx + x), uint32 (p.realy + y)⟩] }

/-- What `surface_lock` returns, and its `pitch`. -/
structure Locked where
  pixels : Pointer
  pitch : Nat
  deriving DecidableEq, Repr

/-- `surface_lock` -/
def lock (s : State) (inst : Nat) : Option Locked := do
  let f ← s.surfaces[inst]?
  let real ← s.surfaces[f.real]?
  some ⟨f.pixels, real.pitch⟩

/-- `surface_update` of the screen -/
def swap (s : State) : Option State := do
  let root ← s.surfaces.head?
  some { s with
    surfaces := s.surfaces.set 0 { root with pixels := s.display }
    display := root.pixels }

inductive Event where
  /-- with what is left in `pixels` -/
  | newTop (x y w h : Nat) (pixels : Pointer)
  | newSub (parent x y w h : Nat)
  | update (inst : Nat)
  deriving DecidableEq, Repr

def next (s : State) : Event → Option State
  | .newTop x y w h pixels => if Sized w h then some (newTop s x y w h pixels) else none
  | .newSub parent x y w h => do
    let p ← s.surfaces[parent]?
    if x + w ≤ p.w ∧ y + h ≤ p.h then some (newSub s parent p x y w h) else none
  | .update inst => if inst = 0 then swap s else s.surfaces[inst]?.map fun _ => s

/-- One step; the offset and the size of a sub-surface are inside of its parent. -/
def step (s : State) (e : Event) : Option (State × Unit) := (next s e).map (·, ())

/-! ## What it is for -/

/-- The first byte of a pixel. -/
def Locked.pixel (l : Locked) (i j : Nat) : Pointer := l.pixels.add (j * l.pitch + 4 * i)

def Surface.frame (f : Surface) : Frame := ⟨f.parent, f.x, f.y⟩

/-- Every surface has its pixels where its root has them. -/
def Addressed (s : State) : Prop :=
  ∀ inst r X Y f, s.surfaces[inst]? = some f → Path Surface.frame s.surfaces inst r X Y →
    ∃ l root, lock s inst = some l ∧ lock s r = some root ∧
      ∀ i j, i < f.w → j < f.h → l.pixel i j = root.pixel (X + i) (Y + j)

/-- The steps that do so: a sub-surface begins at the left of its parent, in a line whose first byte
    is a `uint32_t` from the beginning, and the screen is updated without sub-surfaces. -/
def Aligned (s : State) : Event → Prop
  | .newTop _ _ _ _ _ => True
  | .newSub parent x y _ _ => x = 0 ∧ ∀ p ∈ s.surfaces[parent]?, p.pitch * y < 2 ^ 32
  | .update inst => inst = 0 → ∀ f ∈ s.surfaces, f.parent ≠ some 0

instance (s : State) (e : Event) : Decidable (Aligned s e) :=
  match e with
  | .newTop _ _ _ _ _ => inferInstanceAs (Decidable True)
  | .newSub _ _ _ _ _ => inferInstanceAs (Decidable (_ ∧ _))
  | .update _ => inferInstanceAs (Decidable (_ → _))

variable {s t : State} {inst r X Y : Nat} {f : Surface} {tr : List (Event × Unit)}

/-! ## The invariant -/

/-- The surface is where its parent has it. -/
structure Linked (f pf : Surface) : Prop where
  real : f.real = pf.real
  pitch : f.pitch = pf.pitch
  x : f.x = 0
  pixels : f.pixels = pf.pixels.add (pf.pitch * f.y)

structure Inv (s : State) : Prop where
  screen : ∃ root, s.surfaces[0]? = some root ∧ root.parent = none
  grown : Grown Surface.frame (fun r f => f.real = r) Linked s.surfaces

theorem Inv.softinit (front : Pointer) (back : Option Pointer) (w h pitch : Nat)
    (malloc : Pointer) : Inv (softinit front back w h pitch malloc) := by
  have hone (root : Surface) (hparent : root.parent = none) (hreal : root.real = 0) :
      Inv ⟨[root], front⟩ := by
    refine ⟨⟨root, rfl, hparent⟩, Grown.nil.append (fun _ => hreal) fun p hp => ?_⟩
    rw [Surface.frame, hparent] at hp
    cases hp
  cases back with
  | none | some back => exact hone _ rfl rfl

/-- **Along the path** the offsets add up to the distance from the root. -/
theorem Inv.path (h : Inv s) (hpath : Path Surface.frame s.surfaces inst r X Y) :
    ∃ f root, s.surfaces[inst]? = some f ∧ s.surfaces[r]? = some root ∧
      root.parent = none ∧ root.real = r ∧ f.real = r ∧ f.pitch = root.pitch ∧ X = 0 ∧
      f.pixels = root.pixels.add (root.pitch * Y) := by
  refine h.grown.along (P := fun f r root X Y => f.real = r ∧ f.pitch = root.pitch ∧ X = 0 ∧
    f.pixels = root.pixels.add (root.pitch * Y)) hpath (fun r f hreal => ⟨hreal, rfl, rfl, rfl⟩) ?_
  intro f pf r root X Y hlink ⟨hreal, hpitch, hX, hpixels⟩
  refine ⟨hlink.real.trans hreal, hlink.pitch.trans hpitch, ?_, ?_⟩
  · exact Nat.add_eq_zero_iff.mpr ⟨hX, hlink.x⟩
  · rw [hlink.pixels, hpixels, hpitch]
    simp only [Pointer.add, Surface.frame, Pointer.mk.injEq, true_and]
    ring

theorem Inv.addressed (h : Inv s) : Addressed s := by
  intro inst r X Y f hf hpath
  obtain ⟨f', root, hf', hroot, -, hself, hreal, hpitch, rfl, hpixels⟩ := h.path hpath
  obtain rfl := Option.some.inj (hf.symm.trans hf')
  refine ⟨⟨f.pixels, root.pitch⟩, ⟨root.pixels, root.pitch⟩, ?_, ?_, fun i j _ _ => ?_⟩
  · simp [lock, hf, hreal, hroot]
  · simp [lock, hroot, hself]
  · simp only [Locked.pixel, hpixels, Pointer.add, Pointer.mk.injEq, true_and]
    ring

/-- **A new surface** that is a root, or linked to its parent. -/
theorem Inv.append (h : Inv s) (htop : f.parent = none → f.real = s.surfaces.length)
    (hsub : ∀ p, f.parent = some p → ∃ pf, s.surfaces[p]? = some pf ∧ Linked f pf) :
    Inv { s with surfaces := s.surfaces ++ [f] } := by
  obtain ⟨root, hroot, hparent⟩ := h.screen
  exact ⟨⟨root, getElem?_append_of hroot, hparent⟩, h.grown.append htop hsub⟩

/-- **A swap** without sub-surfaces of the screen: no surface was made from its pointer. -/
theorem Inv.swap (h : Inv s) (hs : swap s = some t) (hnone : ∀ f ∈ s.surfaces, f.parent ≠ some 0) :
    Inv t := by
  obtain ⟨root, hroot, hparent⟩ := h.screen
  simp only [SoftwareSurface.swap, List.head?_eq_getElem?, hroot] at hs
  cases hs
  have hlen : 0 < s.surfaces.length := (List.getElem?_eq_some_iff.mp hroot).1
  have hzero : (s.surfaces.set 0 { root with pixels := s.display })[0]? =
      some { root with pixels := s.display } := List.getElem?_set_self hlen
  have hother {i : Nat} (hi : i ≠ 0) : (s.surfaces.set 0 { root with pixels := s.display })[i]? =
      s.surfaces[i]? := List.getElem?_set_ne (Ne.symm hi)
  refine ⟨⟨_, hzero, hparent⟩, fun i g hg hp => ?_, fun i g p hg hp => ?_⟩
  · rcases eq_or_ne i 0 with rfl | hi
    · obtain rfl := Option.some.inj (hzero.symm.trans hg)
      exact h.grown.top 0 root hroot hparent
    · exact h.grown.top i g ((hother hi).symm.trans hg) hp
  · rcases eq_or_ne i 0 with rfl | hi
    · obtain rfl := Option.some.inj (hzero.symm.trans hg)
      exact absurd (hparent.symm.trans hp) nofun
    · have hg' := (hother hi).symm.trans hg
      obtain ⟨pf, hpf, hlink⟩ := h.grown.sub i g p hg' hp
      have hp0 : p ≠ 0 := by
        rintro rfl
        exact hnone g (List.mem_of_getElem? hg') hp
      exact ⟨pf, (hother hp0).trans hpf, hlink⟩

/-- **A step** that is aligned keeps the surfaces linked. -/
theorem Inv.step {a : Event × Unit} (h : Inv s) (hs : Guarded step Aligned s a t) : Inv t := by
  obtain ⟨e, out⟩ := a
  obtain ⟨hok, hs⟩ := hs
  obtain ⟨t', hs, ht⟩ := Option.map_eq_some_iff.mp hs
  cases ht
  cases e with
  | newTop x y w h' pixels =>
    simp only [next] at hs
    split at hs
    · cases hs
      exact h.append (fun _ => rfl) nofun
    · cases hs
  | newSub parent x y w h' =>
    obtain ⟨p, hp, hs⟩ := Option.bind_eq_some_iff.mp hs
    obtain ⟨-, ⟨⟩⟩ := Option.ite_none_right_eq_some.mp hs
    obtain ⟨rfl, hline⟩ := hok
    refine h.append nofun fun q hq => ?_
    cases hq
    refine ⟨p, hp, rfl, rfl, rfl, ?_⟩
    rw [uint32, Nat.mod_eq_of_lt (hline p hp)]
    rfl
  | update inst =>
    simp only [next] at hs
    split at hs
    · rename_i hzero
      exact h.swap hs (hok hzero)
    · obtain ⟨-, -, rfl⟩ := Option.map_eq_some_iff.mp hs
      exact h

/-! ## Runs -/

/-- **Sub-surfaces have the pixels of their root**: in every run whose sub-surfaces begin at the left
    of their parents, and in which the screen is updated without sub-surfaces, a pixel of a surface
    is at the byte of its root's current buffer that the offsets say. -/
theorem pixels_addressed {front : Pointer} {back : Option Pointer} {w h pitch : Nat}
    {malloc : Pointer}
    (hrun : Run (Guarded step Aligned) (softinit front back w h pitch malloc) tr s) :
    Addressed s :=
  (hrun.invariant (Inv.softinit front back w h pitch malloc) fun _ _ _ ht hs => ht.step hs).addressed

/-- A screen of 64 x 32 pixels with two buffers. -/
def screen : State := softinit ⟨1, 0⟩ (some ⟨2, 0⟩) 64 32 256 ⟨0, 0⟩

/-- A window with a sub-surface in a sub-surface, one line below the other, after an update. -/
theorem pixels_addressed_nested :
    ∃ tr s, Run (Guarded step Aligned) screen tr s ∧ s.surfaces.length = 4 ∧ Addressed s := by
  obtain ⟨tr, s, hrun, hlength⟩ := exists_run_of_guarded_exec step Aligned screen
    (fun _ s => s.surfaces.length = 4)
    [.newTop 10 10 20 10 ⟨3, 0⟩, .newSub 1 0 1 10 8, .newSub 2 0 1 5 4, .update 0]
    (by decide +kernel)
  exact ⟨tr, s, hrun, hlength, pixels_addressed hrun⟩

/-- A window of 20 x 10 pixels, and its sub-surface one pixel to the right. -/
def shifted : State :=
  newSub (newTop screen 0 0 20 10 ⟨3, 0⟩) 1 ⟨1, none, ⟨3, 0⟩, 80, 20, 10, 0, 0, 0, 0⟩ 1 0 4 4

theorem shifted_not_addressed : ¬Addressed shifted := by
  intro haddressed
  have hsub : shifted.surfaces[2]? = some ⟨1, some 1, ⟨3, 1⟩, 80, 4, 4, 1, 0, 1, 0⟩ := rfl
  have hpath : Path Surface.frame shifted.surfaces 2 1 (0 + 1) (0 + 0) :=
    Path.sub hsub rfl (Path.root rfl rfl)
  obtain ⟨l, root, hl, hroot, hpixel⟩ := haddressed 2 1 _ _ _ hsub hpath
  cases hl
  cases hroot
  exact absurd (hpixel 0 0 (by decide) (by decide)) (by decide)

/-- A sub-surface of the screen, which was updated. -/
def swapped : State :=
  ⟨[⟨0, none, ⟨1, 0⟩, 256, 64, 32, 0, 0, 0, 0⟩, ⟨0, some 0, ⟨2, 0⟩, 256, 64, 32, 0, 0, 0, 0⟩],
    ⟨2, 0⟩⟩

theorem swapped_not_addressed : ¬Addressed swapped := by
  intro haddressed
  have hsub : swapped.surfaces[1]? = some ⟨0, some 0, ⟨2, 0⟩, 256, 64, 32, 0, 0, 0, 0⟩ := rfl
  have hpath : Path Surface.frame swapped.surfaces 1 0 (0 + 0) (0 + 0) :=
    Path.sub hsub rfl (Path.root rfl rfl)
  obtain ⟨l, root, hl, hroot, hpixel⟩ := haddressed 1 0 _ _ _ hsub hpath
  cases hl
  cases hroot
  exact absurd (hpixel 0 0 (by decide) (by decide)) (by decide)

/-- **Pixels are misplaced**: one pixel to the right one byte is added, so that a sub-surface begins
    in the first pixel of its parent; and an update of the screen leaves its sub-surfaces in the
    buffer that is shown. -/
theorem pixels_misplaced :
    (∃ tr, Run (Step step) screen tr shifted ∧ ¬Addressed shifted) ∧
      ∃ tr, Run (Step step) screen tr swapped ∧ ¬Addressed swapped := by
  constructor
  · obtain ⟨tr, s, hrun, rfl⟩ := exists_run_of_exec step screen (fun _ s => s = shifted)
      [.newTop 0 0 20 10 ⟨3, 0⟩, .newSub 1 1 0 4 4] (by decide +kernel)
    exact ⟨tr, hrun, shifted_not_addressed⟩
  · obtain ⟨tr, s, hrun, rfl⟩ := exists_run_of_exec step screen (fun _ s => s = swapped)
      [.newSub 0 0 0 64 32, .update 0] (by decide +kernel)
    exact ⟨tr, hrun, swapped_not_addressed⟩

end Mediabox.SoftwareSurface
