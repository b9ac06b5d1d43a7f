import Mediabox.Lib.Layers
import Mediabox.Lib.Transition
import Mediabox.SoftwareSurface
import Mediabox.WindowPaint

/-!
# What is on the screen (`src/lib/ui/video.c`, `src/lib/ui/video-software.c`)

The windows are shown, hidden, brought to the front and updated; each time `avbox_window_paint` goes
over the root window, and `surface_update` copies the buffer of each top-level window, byte by byte,
into the back buffer of the screen, which is then swapped with the front one.

* The bytes are in blocks of memory.  A copy that leaves its blocks, or overlaps, is a fault.
* The windows lie on the screen, the buffers are apart, and both buffers of the screen have lines of
  the same length (`Video`, `Allocated`).  Subwindows have their pixels in the buffer of their window.
* A paint handler that is called again in the same pass draws the same; what the one of the root
  window leaves in the back buffer comes with the event.
* The calls are made on windows that are in the stack or not, as the calls ask for.

Main result: `screen_shows_windows`.
-/

set_option autoImplicit false

namespace Mediabox.SoftwareScreen

open Transition WindowPaint
open SoftwareSurface (Pointer alignedPitch)

/-! ## Copying -/

/-- Blocks of memory: their sizes, and their bytes. -/
structure Memory where
  size : Nat → Nat
  byte : Nat → Nat → UInt8

/-- `memcpy` -/
def memcpy (m : Memory) (dst src : Pointer) (n : Nat) : Option Memory :=
  if dst.block ≠ src.block ∧ dst.offset + n ≤ m.size dst.block ∧
      src.offset + n ≤ m.size src.block then
    some { m with
      byte := fun block o =>
        if block = dst.block ∧ dst.offset ≤ o ∧ o < dst.offset + n then
          m.byte src.block (src.offset + (o - dst.offset))
        else m.byte block o }
  else none

/-- The loop of `surface_blitbuf`, up to `end`. -/
def copyLines (stride dstPitch pitch : Nat) : Nat → Memory → Pointer → Pointer → Nat → Option Memory
  | 0, _, _, _, _ => none
  | fuel + 1, m, dst, src, stop =>
    if src.offset < stop then do
      let m ← memcpy m dst src stride
      copyLines stride dstPitch pitch fuel m (dst.add dstPitch) (src.add pitch) stop
    else some m

/-- `surface_blitbuf` in `AVBOX_PIXFMT_BGRA` -/
def blitbuf (m : Memory) (dst : Pointer) (dstPitch : Nat) (buf : Pointer) (pitch w h x y : Nat) :
    Option Memory :=
  copyLines (w * 4) dstPitch pitch (h + 1) m ((dst.add (y * dstPitch)).add (x * 4)) buf
    (buf.offset + pitch * h)

/-- What the lines of a copy hold, and that nothing else is changed. -/
structure Copied (m m' : Memory) (dst src : Pointer) (stride dstPitch pitch lines : Nat) : Prop where
  size : m'.size = m.size
  inside : ∀ r k, r < lines → k < stride → m'.byte dst.block (dst.offset + r * dstPitch + k) =
    m.byte src.block (src.offset + r * pitch + k)
  outside : ∀ block o, (block = dst.block → ∀ r k, r < lines → k < stride →
    o ≠ dst.offset + r * dstPitch + k) → m'.byte block o = m.byte block o

section Copying

variable {m m' : Memory} {dst src : Pointer} {stride dstPitch pitch lines n : Nat}

theorem memcpy_eq (hblock : dst.block ≠ src.block) (hdst : dst.offset + n ≤ m.size dst.block)
    (hsrc : src.offset + n ≤ m.size src.block) :
    ∃ m', memcpy m dst src n = some m' ∧ m'.size = m.size ∧
      (∀ k, k < n → m'.byte dst.block (dst.offset + k) = m.byte src.block (src.offset + k)) ∧
      ∀ block o, (block = dst.block → ∀ k, k < n → o ≠ dst.offset + k) →
        m'.byte block o = m.byte block o := by
  refine ⟨_, if_pos ⟨hblock, hdst, hsrc⟩, rfl, fun k hk => ?_, fun block o hout => ?_⟩
  · dsimp only
    rw [if_pos ⟨rfl, by omega, by omega⟩, Nat.add_sub_cancel_left]
  · refine if_neg ?_
    rintro ⟨hb, hlo, hhi⟩
    exact hout hb (o - dst.offset) (by omega) (by omega)

/-- **The loop copies the lines**, each to its place, and ends inside the buffers. -/
theorem copyLines_eq (hblock : dst.block ≠ src.block) (hpitch : 0 < pitch) (hsp : stride ≤ pitch)
    (hdp : stride ≤ dstPitch) (fuel : Nat) (hfuel : lines < fuel)
    (hdst : dst.offset + lines * dstPitch ≤ m.size dst.block + (dstPitch - stride))
    (hsrc : src.offset + lines * pitch ≤ m.size src.block) :
    ∃ m', copyLines stride dstPitch pitch fuel m dst src (src.offset + lines * pitch) = some m' ∧
      Copied m m' dst src stride dstPitch pitch lines := by
  induction lines generalizing m dst src fuel with
  | zero =>
    obtain ⟨fuel, rfl⟩ := Nat.exists_eq_succ_of_ne_zero (Nat.ne_of_gt hfuel)
    refine ⟨m, if_neg (by omega), rfl, ?_, fun _ _ _ => rfl⟩
    intro r k hr
    exact absurd hr (Nat.not_lt_zero r)
  | succ lines ih =>
    obtain ⟨fuel, rfl⟩ := Nat.exists_eq_succ_of_ne_zero (Nat.ne_of_gt (Nat.zero_lt_of_lt hfuel))
    rw [Nat.succ_mul] at hdst hsrc
    obtain ⟨m₁, hcpy, hsize, hin, hout⟩ := memcpy_eq (n := stride) (m := m) hblock (by omega)
      (by omega)
    have hdst' : (dst.add dstPitch).offset + lines * dstPitch ≤
        m₁.size (dst.add dstPitch).block + (dstPitch - stride) := by
      rw [hsize]
      dsimp only [Pointer.add]
      omega
    have hsrc' : (src.add pitch).offset + lines * pitch ≤ m₁.size (src.add pitch).block := by
      rw [hsize]
      dsimp only [Pointer.add]
      omega
    have hblock' : (dst.add dstPitch).block ≠ (src.add pitch).block := hblock
    obtain ⟨m', hloop, hrest⟩ := ih hblock' fuel (by omega) hdst' hsrc'
    have hstop : (src.add pitch).offset + lines * pitch = src.offset + (lines + 1) * pitch := by
      rw [Nat.succ_mul]
      dsimp only [Pointer.add]
      omega
    refine ⟨m', ?_, hrest.size.trans hsize, fun r k hr hk => ?_, fun block o hfree => ?_⟩
    · rw [copyLines, if_pos (by rw [Nat.succ_mul]; omega), hcpy, ← hstop]
      exact hloop
    · cases r with
      | zero =>
        rw [hrest.outside dst.block _ fun _ r' k' _ hk' heq => ?_, Nat.zero_mul, Nat.zero_mul]
        · exact hin k hk
        · dsimp only [Pointer.add] at heq
          omega
      | succ r =>
        have hline := hrest.inside r k (by omega) hk
        dsimp only [Pointer.add] at hline
        rw [Nat.succ_mul, Nat.succ_mul, show dst.offset + (r * dstPitch + dstPitch) + k =
          dst.offset + dstPitch + r * dstPitch + k by omega, hline,
          hout src.block _ fun heq => absurd heq.symm hblock]
        congr 1
        omega
    · rw [hrest.outside block o fun hb r k hr hk heq => ?_, hout block o fun hb k hk heq => ?_]
      · exact hfree hb 0 k (by omega) hk (by omega)
      · refine hfree hb (r + 1) k (by omega) hk ?_
        dsimp only [Pointer.add] at heq
        rw [Nat.succ_mul]
        omega

end Copying

/-! ## The windows -/

/-- A top-level window: its rectangle, and the buffer of its surface. -/
structure Place where
  x : Nat
  y : Nat
  w : Nat
  h : Nat
  pixels : Pointer
  deriving DecidableEq, Repr

/-- `surface_new` without a parent -/
def Place.pitch (p : Place) : Nat := alignedPitch p.w

/-- `window->rect` -/
def Place.rect (p : Place) : Rect := ⟨p.x, p.y, p.w, p.h⟩

/-- The screen and the top-level windows, which are the children of the root window. -/
structure Video (ω : Type) where
  w : Nat
  h : Nat
  /-- the bytes of a line of both buffers of the screen -/
  pitch : Nat
  children : List ω
  place : ω → Place
  /-- the surfaces that the paint handlers update -/
  drawn : ω → List Nat
  rootDrawn : List Nat
  subwindows : ω → List Subwindow
  lines : 4 * w ≤ pitch
  small : w < 2 ^ 30 ∧ h < 2 ^ 30
  listed : ∀ u, u ∈ children
  on_screen : ∀ u, (place u).x + (place u).w ≤ w ∧ (place u).y + (place u).h ≤ h

/-- `window_stack` above its root entry, from the bottom -/
def Stack (ω : Type) : Type := { windows : List ω // windows.Nodup }

variable {ω : Type} [DecidableEq ω]

theorem Stack.nodup_remove (s : Stack ω) (u : ω) : (s.1.erase u).Nodup := s.2.erase u

theorem Stack.nodup_append (s : Stack ω) (u : ω) : (s.1.erase u ++ [u]).Nodup := by
  rw [List.nodup_append]
  refine ⟨s.2.erase u, List.pairwise_singleton _ u, fun a ha b hb heq => ?_⟩
  rw [heq, List.mem_singleton.mp hb] at ha
  exact s.2.not_mem_erase ha

/-- `LIST_REMOVE` of a window that is in the stack -/
def Stack.remove (s : Stack ω) (u : ω) : Stack ω := ⟨s.1.erase u, s.nodup_remove u⟩

/-- `LIST_APPEND`, after `LIST_REMOVE` if the window was in the stack -/
def Stack.append (s : Stack ω) (u : ω) : Stack ω := ⟨s.1.erase u ++ [u], s.nodup_append u⟩

/-- The stack, and `root_surface->pixels` and `display_surface->pixels`. -/
structure State (ω : Type) where
  stack : Stack ω
  memory : Memory
  root : Pointer
  display : Pointer

namespace Video

variable (v : Video ω)

theorem shown (stack : Stack ω) (u : ω) (_ : u ∈ v.children) :
    decide (u ∈ stack.1) = true ↔ u ∈ stack.1 := decide_eq_true_iff

omit [DecidableEq ω] in
theorem listed_of (stack : Stack ω) (u : ω) (_ : u ∈ stack.1) : u ∈ v.children := v.listed u

/-- The windows as `avbox_window_paint` finds them: those in the stack are visible. -/
def screen (stack : Stack ω) : Screen ω where
  window u := ⟨(v.place u).rect, u ∈ stack.1, v.drawn u, v.subwindows u⟩
  stack := stack.1
  children := v.children
  drawn := v.rootDrawn
  nodup := stack.2
  shown := v.shown stack
  listed := v.listed_of stack

/-- `surface_update` of a pass over the root window -/
def surfaceUpdate (s : State ω) : Surface ω → Option (State ω)
  | .sub _ => some s
  | .top u => (blitbuf s.memory s.root v.pitch (v.place u).pixels (v.place u).pitch (v.place u).w
      (v.place u).h (v.place u).x (v.place u).y).map fun m => { s with memory := m }
  | .root => some { s with root := s.display, display := s.root }

/-- What the paint handler of the root window leaves in the back buffer. -/
def draw (s : State ω) (back : Nat → UInt8) : State ω :=
  { s with memory := { s.memory with
      byte := fun block o =>
        if block = s.root.block ∧ s.root.offset ≤ o ∧ o < s.root.offset + v.pitch * v.h then
          back (o - s.root.offset)
        else s.memory.byte block o } }

/-- `avbox_window_paint(&root_window, 0)` -/
def paint (s : State ω) (back : Nat → UInt8) : Option (State ω) := do
  let blits ← (v.screen s.stack).rootPaint (v.screen s.stack).enough
  blits.foldlM v.surfaceUpdate (v.draw s back)

/-- The loop of `avbox_window_hide` over the stack, from its root entry: each entry is repainted with
    the whole screen, until one covers the window. -/
def repair (u : ω) (back : Nat → UInt8) : List Rect → State ω → Option (State ω)
  | [], s => some s
  | damaged :: rest, s => do
    let s ← v.paint s back
    if rectCovers damaged (v.place u).rect then return s else repair u back rest s

end Video

inductive Event (ω : Type) where
  /-- `avbox_window_show` -/
  | show (u : ω) (back : Nat → UInt8)
  /-- `avbox_window_hide` -/
  | hide (u : ω) (back : Nat → UInt8)
  /-- `avbox_window_tofront` -/
  | tofront (u : ω) (back : Nat → UInt8)
  /-- `avbox_window_update` -/
  | update (u : Option ω) (back : Nat → UInt8)
  /-- a window is drawn -/
  | draw (u : ω) (bytes : Nat → UInt8)

inductive Result where
  | painted
  | unchanged
  | fault
  deriving DecidableEq, Repr

/-- The end of a call that paints. -/
def finish (s : State ω) : Option (State ω) → State ω × Result
  | some t => (t, .painted)
  | none => (s, .fault)

namespace Video

variable (v : Video ω)

/-- The rectangles of the stack and its root entry. -/
def rects (stack : Stack ω) : List Rect :=
  ⟨0, 0, v.w, v.h⟩ :: stack.1.map fun u => (v.place u).rect

def step (s : State ω) : Event ω → Option (State ω × Result)
  | .show u back =>
    if u ∈ s.stack.1 then none
    else some (finish s (v.paint { s with stack := s.stack.append u } back))
  | .hide u back =>
    if u ∈ s.stack.1 then
      some (finish s (v.repair u back (v.rects (s.stack.remove u))
        { s with stack := s.stack.remove u }))
    else none
  | .tofront u back =>
    if u ∈ s.stack.1 then some (finish s (v.paint { s with stack := s.stack.append u } back))
    else none
  | .update none back => some (finish s (v.paint s back))
  | .update (some u) back =>
    if u ∈ s.stack.1 then some (finish s (v.paint s back)) else some (s, .unchanged)
  | .draw u bytes => some ({ s with memory := { s.memory with
      byte := fun block o =>
        if block = (v.place u).pixels.block then bytes o else s.memory.byte block o } }, .unchanged)

/-! ## What it is for -/

/-- The four bytes of a pixel. -/
def pixel (m : Memory) (p : Pointer) (pitch i j : Nat) : Fin 4 → UInt8 :=
  fun b => m.byte p.block (p.offset + j * pitch + 4 * i + b)

/-- A pixel of the front buffer. -/
def onScreen (s : State ω) (i j : Nat) : Fin 4 → UInt8 := pixel s.memory s.display v.pitch i j

/-- The window has this pixel of the screen. -/
def Covers (u : ω) (p : Nat × Nat) : Prop :=
  (v.place u).x ≤ p.1 ∧ p.1 < (v.place u).x + (v.place u).w ∧
    (v.place u).y ≤ p.2 ∧ p.2 < (v.place u).y + (v.place u).h

instance decidableCovers (u : ω) (p : Nat × Nat) : Decidable (v.Covers u p) :=
  inferInstanceAs (Decidable (_ ∧ _ ∧ _ ∧ _))

/-- What a window has at a pixel of the screen. -/
def windowPixel (m : Memory) (u : ω) (p : Nat × Nat) : Fin 4 → UInt8 :=
  pixel m (v.place u).pixels (v.place u).pitch (p.1 - (v.place u).x) (p.2 - (v.place u).y)

/-- The picture that the stack is meant to make: at each pixel the topmost window that has it, and
    what the root window has drawn where there is none. -/
def picture (s : State ω) (back : Nat → UInt8) (i j : Nat) : Fin 4 → UInt8 :=
  match Layers.topmost v.Covers s.stack.1 (i, j) with
  | some u => v.windowPixel s.memory u (i, j)
  | none => fun b => back (j * v.pitch + 4 * i + b)

/-- The buffers are as long as they have to be, and apart. -/
structure Allocated (s : State ω) : Prop where
  root : s.root.offset + v.pitch * v.h ≤ s.memory.size s.root.block
  display : s.display.offset + v.pitch * v.h ≤ s.memory.size s.display.block
  windows : ∀ u, (v.place u).pixels.offset + (v.place u).pitch * (v.place u).h ≤
    s.memory.size (v.place u).pixels.block
  apart : s.root.block ≠ s.display.block
  root_apart : ∀ u, (v.place u).pixels.block ≠ s.root.block
  display_apart : ∀ u, (v.place u).pixels.block ≠ s.display.block

end Video

/-- What the paint handler of the root window leaves, in a call that may paint. -/
def Event.back : Event ω → Nat → UInt8
  | .show _ back | .hide _ back | .tofront _ back | .update _ back => back
  | .draw _ _ => fun _ => 0

/-! ## One blit -/

theorem Place.lt_pitch (p : Place) : p.w * 4 ≤ p.pitch := by
  unfold Place.pitch alignedPitch
  omega

/-- A byte of a buffer is in one line of it, at one place. -/
theorem line_unique {pitch j j' c c' : Nat} (hc : c < pitch) (hc' : c' < pitch)
    (h : j * pitch + c = j' * pitch + c') : j = j' ∧ c = c' := by
  have hpos : 0 < pitch := Nat.zero_lt_of_lt hc
  have hj := congrArg (· / pitch) h
  simp only [Nat.mul_comm _ pitch, Nat.mul_add_div hpos, Nat.div_eq_of_lt hc,
    Nat.div_eq_of_lt hc', Nat.add_zero] at hj
  subst hj
  exact ⟨rfl, by omega⟩

namespace Video

variable {v : Video ω} {s t : State ω} {u : ω} {i j : Nat} {back : Nat → UInt8}

omit [DecidableEq ω] in
/-- **A blit** puts the pixels of a window at its place, and changes nothing else. -/
theorem blitbuf_eq (h : v.Allocated s) (u : ω) :
    ∃ m, blitbuf s.memory s.root v.pitch (v.place u).pixels (v.place u).pitch (v.place u).w
        (v.place u).h (v.place u).x (v.place u).y = some m ∧ m.size = s.memory.size ∧
      (∀ block, block ≠ s.root.block → m.byte block = s.memory.byte block) ∧
      ∀ i j, i < v.w → pixel m s.root v.pitch i j =
        if v.Covers u (i, j) then v.windowPixel s.memory u (i, j)
        else pixel s.memory s.root v.pitch i j := by
  obtain ⟨hx, hy⟩ := v.on_screen u
  have hlines := v.lines
  rcases Nat.eq_zero_or_pos (v.place u).w with hw | hw
  · -- a window without columns has no bytes
    refine ⟨s.memory, ?_, rfl, fun _ _ => rfl, fun i j _ => (if_neg fun hcovers => ?_).symm⟩
    · simp [blitbuf, copyLines, Place.pitch, alignedPitch, hw]
    · have hi := hcovers.1
      have hi' := hcovers.2.1
      omega
  have hbelow := Nat.mul_le_mul_left v.pitch hy
  rw [Nat.mul_add, Nat.mul_comm v.pitch, Nat.mul_comm v.pitch (v.place u).h] at hbelow
  have hsrc := h.windows u
  rw [Nat.mul_comm] at hsrc
  have hdst : ((s.root.add ((v.place u).y * v.pitch)).add ((v.place u).x * 4)).offset +
      (v.place u).h * v.pitch ≤
      s.memory.size ((s.root.add ((v.place u).y * v.pitch)).add ((v.place u).x * 4)).block +
        (v.pitch - (v.place u).w * 4) := by
    have := h.root
    dsimp only [Pointer.add]
    omega
  have hblock : ((s.root.add ((v.place u).y * v.pitch)).add ((v.place u).x * 4)).block ≠
      (v.place u).pixels.block := Ne.symm (h.root_apart u)
  have hpitch := (v.place u).lt_pitch
  have hstride : (v.place u).w * 4 ≤ v.pitch := by omega
  obtain ⟨m, hm, hcopied⟩ := copyLines_eq hblock (by omega) hpitch hstride
    ((v.place u).h + 1) (Nat.lt_succ_self _) hdst hsrc
  refine ⟨m, ?_, hcopied.size, fun block hblock => ?_, fun i j hi => ?_⟩
  · rw [← hm, blitbuf, Nat.mul_comm (v.place u).pitch]
  · funext o
    exact hcopied.outside block o fun hb => absurd hb hblock
  · funext b
    have hb := b.isLt
    by_cases hcovers : v.Covers u (i, j)
    · obtain ⟨hi₁, hi₂, hj₁, hj₂⟩ := hcovers
      dsimp only at hi₁ hi₂ hj₁ hj₂
      have hline := hcopied.inside (j - (v.place u).y) (4 * (i - (v.place u).x) + b) (by omega)
        (by omega)
      have hsum : (v.place u).y * v.pitch + (j - (v.place u).y) * v.pitch = j * v.pitch := by
        rw [← Nat.add_mul, Nat.add_sub_cancel' hj₁]
      rw [if_pos ⟨hi₁, hi₂, hj₁, hj₂⟩]
      dsimp only [pixel, windowPixel, Pointer.add] at hline ⊢
      rw [show s.root.offset + j * v.pitch + 4 * i + b = s.root.offset + (v.place u).y * v.pitch +
        (v.place u).x * 4 + (j - (v.place u).y) * v.pitch + (4 * (i - (v.place u).x) + b) by omega,
        hline, Nat.add_assoc _ (4 * _)]
    · rw [if_neg hcovers]
      refine hcopied.outside s.root.block _ fun _ r k hr hk heq => hcovers ?_
      dsimp only [Pointer.add] at heq
      have hpos : j * v.pitch + (4 * i + b) =
          ((v.place u).y + r) * v.pitch + ((v.place u).x * 4 + k) := by
        rw [Nat.add_mul]
        omega
      obtain ⟨hj, hi'⟩ := line_unique (by omega) (by omega) hpos
      exact ⟨by dsimp only; omega, by dsimp only; omega, by dsimp only; omega,
        by dsimp only; omega⟩

/-! ## One pass -/

omit [DecidableEq ω] in
theorem windowPixel_congr {m m' : Memory} (h : m'.byte (v.place u).pixels.block =
    m.byte (v.place u).pixels.block) : v.windowPixel m' u = v.windowPixel m u := by
  funext p b
  exact congrFun h _

/-- A surface that a pass updates, as a layer of the picture. -/
def SurfaceCovers (v : Video ω) : Surface ω → Nat × Nat → Prop
  | .top u, p => v.Covers u p
  | _, _ => False

instance decidableSurfaceCovers (v : Video ω) : (x : Surface ω) → (p : Nat × Nat) →
    Decidable (v.SurfaceCovers x p)
  | .top u, p => v.decidableCovers u p
  | .root, _ => isFalse id
  | .sub _, _ => isFalse id

def surfacePixel (v : Video ω) (m : Memory) : Surface ω → Nat × Nat → Fin 4 → UInt8
  | .top u, p => v.windowPixel m u p
  | _, _ => fun _ => 0

/-- What the blits of a pass leave alone. -/
structure Kept (s t : State ω) : Prop where
  stack : t.stack = s.stack
  root : t.root = s.root
  display : t.display = s.display
  size : t.memory.size = s.memory.size
  byte : ∀ block, block ≠ s.root.block → t.memory.byte block = s.memory.byte block

omit [DecidableEq ω] in
theorem Kept.allocated (hk : Kept s t) (h : v.Allocated s) : v.Allocated t := by
  obtain ⟨hroot, hdisplay, hwindows, hapart, hr, hd⟩ := h
  rw [← hk.root, ← hk.size] at hroot
  rw [← hk.display, ← hk.size] at hdisplay
  rw [← hk.size] at hwindows
  rw [← hk.root, ← hk.display] at hapart
  rw [← hk.root] at hr
  rw [← hk.display] at hd
  exact ⟨hroot, hdisplay, hwindows, hapart, hr, hd⟩

omit [DecidableEq ω] in
theorem Kept.trans {t' : State ω} (h : Kept s t) (h' : Kept t t') : Kept s t' where
  stack := h'.stack.trans h.stack
  root := h'.root.trans h.root
  display := h'.display.trans h.display
  size := h'.size.trans h.size
  byte block hb := (h'.byte block (h.root ▸ hb)).trans (h.byte block hb)

omit [DecidableEq ω] in
/-- **The blits of a pass** paint the windows on the back buffer as layers. -/
theorem foldlM_surfaceUpdate (h : v.Allocated s) (m₀ : Memory)
    (hwin : ∀ u, v.windowPixel s.memory u = v.windowPixel m₀ u) (l : List (Surface ω))
    (hl : Surface.root ∉ l) :
    ∃ t, l.foldlM v.surfaceUpdate s = some t ∧ Kept s t ∧ ∀ i j, i < v.w →
      pixel t.memory t.root v.pitch i j = Layers.paintAll v.SurfaceCovers (v.surfacePixel m₀) l
        (fun p => pixel s.memory s.root v.pitch p.1 p.2) (i, j) := by
  induction l generalizing s with
  | nil => exact ⟨s, rfl, ⟨rfl, rfl, rfl, rfl, fun _ _ => rfl⟩, fun _ _ _ => rfl⟩
  | cons x l ih =>
    have hx : x ≠ .root := fun heq => hl (heq ▸ List.mem_cons_self)
    have hl' : Surface.root ∉ l := fun hmem => hl (List.mem_cons_of_mem x hmem)
    obtain ⟨s₁, hupdate, hkept, hpixels⟩ : ∃ s₁, v.surfaceUpdate s x = some s₁ ∧ Kept s s₁ ∧
        ∀ i j, i < v.w → pixel s₁.memory s₁.root v.pitch i j =
          Layers.paint v.SurfaceCovers (v.surfacePixel m₀) x
            (fun p => pixel s.memory s.root v.pitch p.1 p.2) (i, j) := by
      cases x with
      | root => exact absurd rfl hx
      | sub id => exact ⟨s, rfl, ⟨rfl, rfl, rfl, rfl, fun _ _ => rfl⟩, fun _ _ _ => rfl⟩
      | top u =>
        obtain ⟨m, hm, hsize, hbyte, hpixels⟩ := blitbuf_eq h u
        refine ⟨{ s with memory := m }, ?_, ⟨rfl, rfl, rfl, hsize, hbyte⟩, fun i j hi => ?_⟩
        · rw [surfaceUpdate, hm]
          rfl
        · rw [hpixels i j hi, hwin u]
          rfl
    have hwin' (u : ω) : v.windowPixel s₁.memory u = v.windowPixel m₀ u :=
      (windowPixel_congr (hkept.byte _ (h.root_apart u))).trans (hwin u)
    obtain ⟨t, hfold, hkept', hrest⟩ := ih (hkept.allocated h) hwin' hl'
    refine ⟨t, ?_, hkept.trans hkept', fun i j hi => ?_⟩
    · rw [List.foldlM_cons, hupdate]
      exact hfold
    · rw [hrest i j hi, Layers.paintAll_cons]
      exact Layers.paintAll_congr (hpixels i j hi)

/-! ## The order of the windows -/

omit [DecidableEq ω] in
theorem covers_of_rectCovers {c : ω} {p : Nat × Nat}
    (h : rectCovers (v.place c).rect (v.place u).rect = true) (hp : v.Covers u p) :
    v.Covers c p := by
  obtain ⟨hx, hy⟩ := v.on_screen u
  obtain ⟨hx', hy'⟩ := v.on_screen c
  obtain ⟨hw, hh⟩ := v.small
  obtain ⟨hi₁, hi₂, hj₁, hj₂⟩ := hp
  rw [rectCovers_iff] at h
  all_goals simp only [Place.rect, MachineInt.inRange_32] at *
  · exact ⟨by omega, by omega, by omega, by omega⟩
  all_goals exact ⟨by omega, by omega⟩

section Order

variable {stack : Stack ω} {p : Nat × Nat}

theorem mem_of_updates (h : Surface.top u ∈ (v.screen stack).updates .root) : u ∈ stack.1 := by
  simp only [Screen.updates, List.mem_append, List.mem_map, reduceCtorEq, and_false, exists_const,
    List.mem_flatMap, List.mem_singleton, false_or, or_false] at h
  obtain ⟨w, -, hmem⟩ := h
  unfold Screen.paintedChild at hmem
  split at hmem
  · rename_i hw
    have hsuffix := (Screen.suffix_of_painted hw hmem).1.trans (Screen.exists_suffix hw)
    exact hsuffix.subset List.mem_cons_self
  · cases hmem

theorem sub_of_mem_paintSubwindows {α : Type} {x : Surface α} :
    ∀ children : List Subwindow, x ∈ (paintSubwindows children : List (Surface α)) →
      ∃ id, x = .sub id
  | [], h => by cases h
  | .mk surface visible drawn children :: rest, h => by
    unfold paintSubwindows at h
    rcases List.mem_append.mp h with hchild | hrest
    · unfold Subwindow.paint at hchild
      split at hchild
      · simp only [List.mem_append, List.mem_map, List.mem_singleton] at hchild
        rcases hchild with (⟨id, -, rfl⟩ | hchild) | rfl
        · exact ⟨id, rfl⟩
        · exact sub_of_mem_paintSubwindows children hchild
        · exact ⟨surface, rfl⟩
      · cases hchild
    · exact sub_of_mem_paintSubwindows rest hrest

theorem root_not_mem_repairs {α : Type} {sc : Screen α} (windows : List α) :
    Surface.root ∉ sc.repairs windows := by
  induction windows with
  | nil => simp [Screen.repairs]
  | cons w windows ih =>
    unfold Screen.repairs Screen.painted Screen.inside
    intro h
    rcases List.mem_append.mp h with hpainted | hrest
    · split at hpainted
      · cases hpainted
      · rcases List.mem_append.mp hpainted with hinside | htop
        · rcases List.mem_append.mp hinside with hdrawn | hsub
          · simp at hdrawn
          · obtain ⟨id, hid⟩ := sub_of_mem_paintSubwindows _ hsub
            cases hid
        · rcases List.mem_cons.mp htop with heq | hmem
          · cases heq
          · exact ih hmem
    · exact ih hrest

/-- The screen is swapped at the end of the pass only. -/
theorem root_not_mem (sc : Screen ω) :
    Surface.root ∉ sc.drawn.map Surface.sub ++ sc.children.flatMap sc.paintedChild := by
  intro h
  rcases List.mem_append.mp h with hdrawn | hchild
  · simp at hdrawn
  · obtain ⟨w, -, hmem⟩ := List.mem_flatMap.mp hchild
    unfold Screen.paintedChild at hmem
    split at hmem
    · exact root_not_mem_repairs (w :: sc.above w) (List.mem_append_left _ hmem)
    · cases hmem

/-- The topmost window at a pixel is not covered, and is above the other ones there. -/
theorem topmost_free (h : Layers.topmost v.Covers stack.1 p = some u) :
    u ∈ stack.1 ∧ (v.screen stack).reallyvisible u = true ∧
      ∀ b ∈ stack.1, v.Covers b p → b ≠ u → u ∈ (v.screen stack).above b := by
  obtain ⟨hu, pre, post, hstack, hpost⟩ := Layers.topmost_eq_some h
  have hmem : u ∈ stack.1 := by simp [hstack]
  have hsuffix : u :: post <:+ (v.screen stack).stack := ⟨pre, hstack.symm⟩
  refine ⟨hmem, ?_, fun b hb hcovers hne => ?_⟩
  · rw [Screen.reallyvisible_iff (Screen.exists_suffix hmem), Screen.above_eq hsuffix]
    refine List.any_eq_false.mpr fun c hc hrect => ?_
    exact hpost c hc (covers_of_rectCovers hrect hu)
  · rw [hstack] at hb
    rcases List.mem_append.mp hb with hpre | htail
    · obtain ⟨front, between, rfl⟩ := List.append_of_mem hpre
      have hbsuffix : b :: (between ++ u :: post) <:+ (v.screen stack).stack :=
        ⟨front, by simp [screen, hstack]⟩
      rw [Screen.above_eq hbsuffix]
      simp
    · rcases List.mem_cons.mp htail with heq | hafter
      · exact absurd heq hne
      · exact absurd hcovers (hpost b hafter)

/-- **The picture of a pass**: the window seen at a pixel is the topmost one there. -/
theorem paintAll_updates (m : Memory) (base : Nat × Nat → Fin 4 → UInt8) :
    Layers.paintAll v.SurfaceCovers (v.surfacePixel m) ((v.screen stack).updates .root) base p =
      match Layers.topmost v.Covers stack.1 p with
      | some u => v.windowPixel m u p
      | none => base p := by
  cases htop : Layers.topmost v.Covers stack.1 p with
  | none =>
    refine Layers.paintAll_of_not_covers fun x hx hcovers => ?_
    cases x with
    | top b => exact Layers.topmost_eq_none.mp htop b (mem_of_updates hx) hcovers
    | root | sub id => exact hcovers
  | some u =>
    obtain ⟨hu, hfree, habove⟩ := topmost_free htop
    have hmem : Surface.top u ∈ (v.screen stack).updates .root := by
      have hchild := Screen.top_mem_paintedChild (s := v.screen stack) hu hfree
      simp only [Screen.updates, List.mem_append, List.mem_flatMap]
      exact .inl (.inr ⟨u, v.listed u, hchild⟩)
    have hcovers : v.SurfaceCovers (.top u) p := (Layers.topmost_eq_some htop).1
    refine Layers.paintAll_eq (i := Surface.top u) hmem hcovers fun x hx hne pre post hl => ?_
    cases x with
    | top b =>
      have hbmem : Surface.top b ∈ (v.screen stack).updates .root := by
        rw [hl]
        simp
      have hb := mem_of_updates hbmem
      have hbu := habove b hb hx fun heq => hne (heq ▸ rfl)
      exact Screen.updates_followed (s := v.screen stack) hb hbu hfree .root pre post hl
    | root => exact absurd hx id
    | sub id => exact absurd hx fun h => h

end Order

/-! ## The calls -/

omit [DecidableEq ω] in
theorem draw_allocated (h : v.Allocated s) (back : Nat → UInt8) : v.Allocated (v.draw s back) :=
  ⟨h.root, h.display, h.windows, h.apart, h.root_apart, h.display_apart⟩

omit [DecidableEq ω] in
theorem draw_byte (back : Nat → UInt8) {block : Nat} (hblock : block ≠ s.root.block) :
    (v.draw s back).memory.byte block = s.memory.byte block := by
  funext o
  exact if_neg fun h => hblock h.1

omit [DecidableEq ω] in
theorem draw_pixel (back : Nat → UInt8) (hi : i < v.w) (hj : j < v.h) (b : Fin 4) :
    pixel (v.draw s back).memory s.root v.pitch i j b = back (j * v.pitch + 4 * i + b) := by
  have hlines := v.lines
  have hlast := Nat.mul_le_mul_left v.pitch (show j + 1 ≤ v.h from hj)
  rw [Nat.mul_add, Nat.mul_comm v.pitch j, Nat.mul_one] at hlast
  have hb := b.isLt
  unfold pixel draw
  dsimp only
  rw [if_pos ⟨rfl, by omega, by omega⟩]
  congr 1
  omega

/-- What a pass over the root window leaves. -/
structure Painted (v : Video ω) (s t : State ω) (back : Nat → UInt8) : Prop where
  stack : t.stack = s.stack
  windows : ∀ u, t.memory.byte (v.place u).pixels.block = s.memory.byte (v.place u).pixels.block
  picture : ∀ i j, i < v.w → j < v.h → v.onScreen t i j = v.picture t back i j

/-- **A pass over the root window** ends, and the front buffer has the picture of the stack. -/
theorem paint_eq (h : v.Allocated s) (back : Nat → UInt8) :
    ∃ t, v.paint s back = some t ∧ v.Allocated t ∧ v.Painted s t back := by
  obtain ⟨t, hfold, hkept, hpixels⟩ := foldlM_surfaceUpdate (draw_allocated h back)
    (v.draw s back).memory (fun _ => rfl) _ (root_not_mem (v.screen s.stack))
  have hpaint : (v.screen s.stack).rootPaint (v.screen s.stack).enough =
      some ((v.screen s.stack).updates .root) :=
    Screen.paint_eq (s := v.screen s.stack) .root (Nat.le_refl _)
  have hbytes (u : ω) :
      t.memory.byte (v.place u).pixels.block = s.memory.byte (v.place u).pixels.block :=
    (hkept.byte _ (h.root_apart u)).trans (draw_byte back (h.root_apart u))
  have hall := hkept.allocated (draw_allocated h back)
  refine ⟨{ t with root := t.display, display := t.root }, ?_, ?_, hkept.stack, hbytes,
    fun i j hi hj => ?_⟩
  · rw [paint, hpaint]
    exact (List.foldlM_append ..).trans (by rw [hfold]; rfl)
  · exact ⟨hall.display, hall.root, hall.windows, hall.apart.symm, hall.display_apart,
      hall.root_apart⟩
  · have hswap : Layers.paintAll v.SurfaceCovers (v.surfacePixel (v.draw s back).memory)
        ((v.screen s.stack).updates .root)
        (fun p => pixel (v.draw s back).memory s.root v.pitch p.1 p.2) (i, j) =
        v.onScreen { t with root := t.display, display := t.root } i j := by
      refine (congrFun Layers.paintAll_append _).trans ?_
      rw [Layers.paintAll_of_not_covers fun x hx => List.mem_singleton.mp hx ▸ id]
      exact (hpixels i j hi).symm
    have hstack : t.stack = s.stack := hkept.stack
    rw [← hswap, paintAll_updates, picture, hstack]
    cases Layers.topmost v.Covers s.stack.1 (i, j) with
    | none =>
      funext b
      exact draw_pixel back hi hj b
    | some u =>
      have hwindow := windowPixel_congr (hkept.byte _ (h.root_apart u))
      exact congrFun hwindow.symm (i, j)

/-- The window that is hidden lies on the screen: its root entry covers it. -/
theorem repair_eq (u : ω) (stack : Stack ω) (back : Nat → UInt8) :
    v.repair u back (v.rects stack) s = v.paint s back := by
  have hcovers : rectCovers ⟨0, 0, v.w, v.h⟩ (v.place u).rect = true := by
    obtain ⟨hx, hy⟩ := v.on_screen u
    obtain ⟨hw, hh⟩ := v.small
    rw [rectCovers_iff]
    all_goals simp only [Place.rect, MachineInt.inRange_32]
    · exact ⟨⟨by omega, by omega⟩, by omega, by omega⟩
    all_goals exact ⟨by omega, by omega⟩
  rw [rects, repair]
  cases v.paint s back with
  | none => rfl
  | some t => simp [hcovers]

end Video

/-! ## Runs -/

namespace Video

variable {v : Video ω} {s t : State ω} {e : Event ω} {r : Result}

/-- What a step leaves: buffers as they have to be, and after a pass the picture of the stack. -/
structure Stepped (v : Video ω) (t : State ω) (e : Event ω) (r : Result) : Prop where
  allocated : v.Allocated t
  result : r ≠ .fault
  picture : r = .painted → ∀ i j, i < v.w → j < v.h → v.onScreen t i j = v.picture t e.back i j

theorem finish_paint (h : v.Allocated s) {s' : State ω}
    (hstep : finish s' (v.paint s e.back) = (t, r)) : v.Stepped t e r := by
  obtain ⟨t', hpaint, hall, hpainted⟩ := paint_eq h e.back
  rw [hpaint] at hstep
  cases hstep
  exact ⟨hall, by simp, fun _ => hpainted.picture⟩

omit [DecidableEq ω] in
/-- The stack says nothing about the buffers. -/
theorem Allocated.restack (h : v.Allocated s) (stack : Stack ω) :
    v.Allocated { s with stack := stack } :=
  ⟨h.root, h.display, h.windows, h.apart, h.root_apart, h.display_apart⟩

theorem step_spec (h : v.Allocated s) (hstep : v.step s e = some (t, r)) : v.Stepped t e r := by
  cases e with
  | «show» u back =>
    obtain ⟨-, hstep⟩ := Option.ite_none_left_eq_some.mp hstep
    exact finish_paint (e := .show u back) (h.restack _) (Option.some.inj hstep)
  | hide u back =>
    obtain ⟨-, hstep⟩ := Option.ite_none_right_eq_some.mp hstep
    rw [repair_eq] at hstep
    exact finish_paint (e := .hide u back) (h.restack _) (Option.some.inj hstep)
  | tofront u back =>
    obtain ⟨-, hstep⟩ := Option.ite_none_right_eq_some.mp hstep
    exact finish_paint (e := .tofront u back) (h.restack _) (Option.some.inj hstep)
  | update window back =>
    cases window with
    | none => exact finish_paint (e := .update none back) h (Option.some.inj hstep)
    | some u =>
      simp only [step] at hstep
      split at hstep
      · exact finish_paint (e := .update (some u) back) h (Option.some.inj hstep)
      · cases hstep
        exact ⟨h, by simp, by simp⟩
  | draw u bytes =>
    cases hstep
    exact ⟨⟨h.root, h.display, h.windows, h.apart, h.root_apart, h.display_apart⟩, by simp,
      by simp⟩

/-- **The screen shows the windows**: after every run of shown, hidden, raised, updated and drawn
    windows no copy has left its buffers, and a call that paints leaves, at each pixel of the front
    buffer, the topmost window of the stack that has this pixel as its handler has drawn it, and
    where there is none what the root window has drawn. -/
theorem screen_shows_windows {s₀ : State ω} {tr : List (Event ω × Result)} (h₀ : v.Allocated s₀)
    (h : Run (Step v.step) s₀ tr s) (hstep : v.step s e = some (t, r)) :
    r ≠ .fault ∧ (r = .painted → ∀ i j, i < v.w → j < v.h →
      v.onScreen t i j = v.picture t e.back i j) := by
  have hall : v.Allocated s := Run.invariant h₀ (fun _ _ _ hs hr => (step_spec hs hr).allocated) h
  have hstepped := step_spec hall hstep
  exact ⟨hstepped.result, hstepped.picture⟩

/-- Two windows on a screen of two pixels, the second one over the left one. -/
def desk : Video Bool where
  w := 2
  h := 1
  pitch := 8
  children := [true, false]
  place u := if u then ⟨0, 0, 1, 1, ⟨3, 0⟩⟩ else ⟨0, 0, 2, 1, ⟨2, 0⟩⟩
  drawn _ := []
  rootDrawn := []
  subwindows _ := []
  lines := by decide
  small := by decide
  listed := by decide
  on_screen := by decide

/-- The blocks 0 and 1 are the buffers of the screen; each window has its block in its pixels. -/
def deskState : State Bool :=
  ⟨⟨[false], List.pairwise_singleton _ _⟩, ⟨fun _ => 16, fun block _ => block.toUInt8⟩, ⟨0, 0⟩,
    ⟨1, 0⟩⟩

theorem screen_shows_windows_desk : ∃ t : State Bool,
    desk.step deskState (.show true fun _ => 0) = some (t, .painted) ∧
      t.stack.1 = [false, true] ∧ desk.onScreen t 0 0 0 = 3 ∧ desk.onScreen t 1 0 0 = 2 := by
  have hall : desk.Allocated deskState :=
    ⟨by decide, by decide, by decide, by decide, by decide, by decide⟩
  obtain ⟨⟨t, r⟩, hstep, hpainted, hstack, hleft, hright⟩ :
      ∃ x ∈ desk.step deskState (.show true fun _ => 0), x.2 = .painted ∧
        x.1.stack.1 = [false, true] ∧ desk.picture x.1 (fun _ => 0) 0 0 0 = 3 ∧
        desk.picture x.1 (fun _ => 0) 1 0 0 = 2 := by decide +kernel
  have hscreen := (screen_shows_windows hall Run.nil hstep).2 hpainted
  cases hpainted
  refine ⟨t, hstep, hstack, ?_, ?_⟩
  · rw [hscreen 0 0 (by decide) (by decide)]
    exact hleft
  · rw [hscreen 1 0 (by decide) (by decide)]
    exact hright

end Video

end Mediabox.SoftwareScreen
