import Mathlib.Tactic.Common
import Mediabox.Lib.Loop
import Mediabox.Lib.Outcome

/-!
# Clearing a window (`src/lib/ui/video.c`)

`__window_clear` fills the rows of a window with a color.  Where pointers have 64 bits it writes two
pixels at once to a row that is aligned to eight bytes.

* Memory is the byte at each address.  What the locks of the surface return is given.
* `Order` is the byte order of the machine.
* A failed `ASSERT` is a fault.  The title, which is drawn first, is left out.

Main result: `windowClear_exact`.
-/

set_option autoImplicit false

namespace Mediabox.WindowClear

open Loop Outcome

/-! ## Memory -/

abbrev Memory := Int → BitVec 8

inductive Order where
  | little
  | big
  deriving DecidableEq, Repr

/-- Byte `i` in memory of a number of `bytes` bytes. -/
def byteAt {n : Nat} (order : Order) (bytes : Nat) (v : BitVec n) (i : Nat) : BitVec 8 :=
  match order with
  | .little => v.extractLsb' (8 * i) 8
  | .big => v.extractLsb' (8 * (bytes - 1 - i)) 8

/-- `*addr = v`, for a number of `bytes` bytes -/
def store {n : Nat} (order : Order) (bytes : Nat) (addr : Int) (v : BitVec n) (m : Memory) :
    Memory := fun a =>
  if addr ≤ a ∧ a < addr + bytes then byteAt order bytes v (a - addr).toNat else m a

/-! ## The code -/

inductive Fault where
  | assert
  /-- the loop over the pixels does not end -/
  | endless
  deriving DecidableEq, Repr

/-- `ALIGNED(addr, bytes)` -/
def Aligned (addr bytes : Int) : Prop := addr % bytes = 0

instance (addr bytes : Int) : Decidable (Aligned addr bytes) := inferInstanceAs (Decidable (_ = _))

/-- `(uint64_t) color << 32 | color` -/
def color64 (color : BitVec 32) : BitVec 64 := color.setWidth 64 <<< 32 ||| color.setWidth 64

/-- `pix`, the pointer to the pixels, and the memory. -/
structure Cursor where
  pix : Int
  pixel : Int
  memory : Memory

/-- The loop that writes two pixels at once. -/
def clearPairs (order : Order) (w : Int) (color : BitVec 32) : Nat → Cursor → Except Fault Cursor
  | 0, c => if c.pix < w - 1 then .error .endless else .ok c
  | fuel + 1, c =>
    if c.pix < w - 1 then
      clearPairs order w color fuel
        ⟨c.pix + 2, c.pixel + 8, store order 8 c.pixel (color64 color) c.memory⟩
    else .ok c

/-- A row that is aligned to eight bytes. -/
def clearRow64 (order : Order) (w : Int) (color : BitVec 32) (buf : Int) (m : Memory) :
    Except Fault Memory := do
  let c ← clearPairs order w color w.toNat ⟨0, buf, m⟩
  .ok (if c.pix < w then store order 4 c.pixel color c.memory else c.memory)

/-- `*pixel++ = color` -/
def clearPixel (order : Order) (color : BitVec 32) (_ : Int) (c : Int × Memory) :
    Except Fault (Int × Memory) := .ok (c.1 + 4, store order 4 c.1 color c.2)

/-- Any other row. -/
def clearRow32 (order : Order) (w : Int) (color : BitVec 32) (buf : Int) (m : Memory) :
    Except Fault Memory :=
  if Aligned buf 4 then do
    let c ← forUp (clearPixel order color) 0 w (buf, m)
    .ok c.2
  else .error .assert

/-- A row; `wide` tells whether `UINTPTR_MAX` is that of 64 bits. -/
def clearRow (wide : Bool) (order : Order) (w : Int) (color : BitVec 32) (buf : Int) (m : Memory) :
    Except Fault Memory :=
  if wide ∧ Aligned buf 8 then clearRow64 order w color buf m
  else clearRow32 order w color buf m

/-- What `avbox_window_lock` returns. -/
structure Mapping where
  buf : Int
  pitch : Int
  deriving DecidableEq, Repr

/-- A turn of the loop over the rows. -/
def clearStride (wide : Bool) (order : Order) (w pitch : Int) (color : BitVec 32) (_ : Int)
    (c : Int × Memory) : Except Fault (Int × Memory) := do
  let m ← clearRow wide order w color c.1 c.2
  .ok (c.1 + pitch, m)

/-- The rows of a surface, if it could be locked. -/
def clearSurface (wide : Bool) (order : Order) (w h : Int) (color : BitVec 32) :
    Option Mapping → Memory → Except Fault Memory
  | none, m => .ok m
  | some s, m => do
    let c ← forUp (clearStride wide order w s.pitch color) 0 h (s.buf, m)
    .ok c.2

/-- The surface of the content window: its locks without and with `MBV_LOCKFLAGS_FRONT`. -/
structure Surface where
  back : Option Mapping
  front : Option Mapping
  doubleBuffered : Bool
  deriving DecidableEq, Repr

/-- `__window_clear`, for a content window of this width and height -/
def windowClear (wide : Bool) (order : Order) (surface : Surface) (w h : Int) (color : BitVec 32)
    (m : Memory) : Except Fault Memory := do
  let m ← clearSurface wide order w h color surface.back m
  if surface.doubleBuffered then clearSurface wide order w h color surface.front m else .ok m

/-! ## What it is for -/

/-- What is cleared. -/
def mappings (surface : Surface) : List Mapping :=
  surface.back.toList ++ if surface.doubleBuffered then surface.front.toList else []

/-- The address of a pixel. -/
def address (s : Mapping) (row x : Int) : Int := s.buf + row * s.pitch + 4 * x

/-- The pixels have the color, and all other bytes are as before. -/
structure Exact (order : Order) (surface : Surface) (w h : Int) (color : BitVec 32)
    (m m' : Memory) : Prop where
  pixels : ∀ s ∈ mappings surface, ∀ row x, 0 ≤ row → row < h → 0 ≤ x → x < w →
    ∀ i : Nat, i < 4 → m' (address s row x + i) = byteAt order 4 color i
  others : ∀ a, (∀ s ∈ mappings surface, ∀ row x, 0 ≤ row → row < h → 0 ≤ x → x < w →
    a < address s row x ∨ address s row x + 4 ≤ a) → m' a = m a

/-! ## Filling -/

variable {order : Order} {color : BitVec 32} {m m₁ m₂ : Memory} {S T : Int → Prop} {w buf : Int}

/-- The bytes at the addresses in `S` are those of the color, which repeat every four bytes, and
    all others are as before. -/
def Fills (order : Order) (color : BitVec 32) (S : Int → Prop) (m m' : Memory) : Prop :=
  ∀ a, (S a → m' a = byteAt order 4 color (a % 4).toNat) ∧ (¬S a → m' a = m a)

theorem Fills.unique (h : Fills order color S m m₁) (h' : Fills order color S m m₂) : m₁ = m₂ := by
  funext a
  by_cases ha : S a
  · rw [(h a).1 ha, (h' a).1 ha]
  · rw [(h a).2 ha, (h' a).2 ha]

/-- One after the other. -/
theorem Fills.trans (h : Fills order color S m m₁) (h' : Fills order color T m₁ m₂) {U : Int → Prop}
    (hU : ∀ a, U a ↔ S a ∨ T a) : Fills order color U m m₂ := by
  intro a
  rw [hU]
  by_cases ha : T a
  · exact ⟨fun _ => (h' a).1 ha, fun hnot => absurd (.inr ha) hnot⟩
  · rw [(h' a).2 ha]
    exact ⟨fun hor => (h a).1 (hor.resolve_right ha), fun hnot => (h a).2 (mt .inl hnot)⟩

/-- The addresses of some bytes in a row. -/
def Span (first last a : Int) : Prop := first ≤ a ∧ a < last

/-- Two pixels of the color in one number. -/
theorem byteAt_color64 (order : Order) (color : BitVec 32) {i : Nat} (hi : i < 8) :
    byteAt order 8 (color64 color) i = byteAt order 4 color (i % 4) := by
  have hhalf (p : Nat) (hp : p < 8) :
      (color64 color).extractLsb' (8 * p) 8 = color.extractLsb' (8 * (p % 4)) 8 := by
    ext j hj
    simp only [color64, BitVec.getElem_extractLsb', BitVec.getLsbD_or, BitVec.getLsbD_shiftLeft,
      BitVec.getLsbD_setWidth]
    by_cases hlow : p < 4
    · have hmod : p % 4 = p := Nat.mod_eq_of_lt hlow
      simp [hmod, show 8 * p + j < 32 by omega, show 8 * p + j < 64 by omega]
    · have hmod : 8 * p + j - 32 = 8 * (p % 4) + j := by omega
      rw [hmod, BitVec.getLsbD_of_ge color (8 * p + j) (by omega)]
      simp [show ¬8 * p + j < 32 by omega, show 8 * p + j < 64 by omega,
        show 8 * (p % 4) + j < 64 by omega]
  cases order with
  | little => exact hhalf i hi
  | big =>
    have hflip : (8 - 1 - i) % 4 = 4 - 1 - i % 4 := by omega
    have hbyte := hhalf (8 - 1 - i) (by omega)
    rw [hflip] at hbyte
    exact hbyte

theorem fills_store (haligned : buf % 4 = 0) :
    Fills order color (Span buf (buf + 4)) m (store order 4 buf color m) := by
  refine fun a => ⟨fun ha => ?_, fun ha => if_neg ha⟩
  obtain ⟨hfirst, hlast⟩ := ha
  rw [store, if_pos ⟨hfirst, hlast⟩]
  congr 1
  omega

theorem fills_store64 (haligned : buf % 4 = 0) :
    Fills order color (Span buf (buf + 8)) m (store order 8 buf (color64 color) m) := by
  refine fun a => ⟨fun ha => ?_, fun ha => if_neg ha⟩
  obtain ⟨hfirst, hlast⟩ := ha
  rw [store, if_pos ⟨hfirst, hlast⟩]
  rw [byteAt_color64 order color (by omega)]
  congr 1
  omega

/-! ## One row -/

theorem fills_none (order : Order) (color : BitVec 32) (buf : Int) (m : Memory) :
    Fills order color (Span buf buf) m m :=
  fun _ => ⟨fun ha => absurd (Int.lt_of_le_of_lt ha.1 ha.2) (Int.lt_irrefl _), fun _ => rfl⟩

theorem Fills.extend {mid last : Int} (h : Fills order color (Span buf mid) m m₁)
    (h' : Fills order color (Span mid last) m₁ m₂) (hmid : buf ≤ mid) (hlast : mid ≤ last) :
    Fills order color (Span buf last) m m₂ := by
  refine h.trans h' fun a => ?_
  unfold Span
  omega

/-- **Single pixels** fill a row. -/
theorem clearRow32_fills (hw : 0 ≤ w) (haligned : buf % 4 = 0) (m : Memory) :
    ∃ m', clearRow32 order w color buf m = .ok m' ∧
      Fills order color (Span buf (buf + 4 * w)) m m' := by
  have hstart : (buf, m).1 = buf + 4 * 0 ∧ Fills order color (Span buf (buf, m).1) m (buf, m).2 :=
    ⟨by simp, fills_none order color buf m⟩
  have hturn (x : Int) (c : Int × Memory) (hx : 0 ≤ x) (_ : x < w)
      (h : c.1 = buf + 4 * x ∧ Fills order color (Span buf c.1) m c.2) :
      ∃ c', clearPixel order color x c = .ok c' ∧
        c'.1 = buf + 4 * (x + 1) ∧ Fills order color (Span buf c'.1) m c'.2 := by
    obtain ⟨hpixel, hfills⟩ := h
    refine ⟨_, rfl, by dsimp only; omega, ?_⟩
    exact hfills.extend (fills_store (by omega)) (by omega) (by omega)
  obtain ⟨⟨pixel, m'⟩, hloop, rfl, hfills⟩ := forUp_ok
    (fun x (c : Int × Memory) => c.1 = buf + 4 * x ∧ Fills order color (Span buf c.1) m c.2) hw
    hstart hturn
  refine ⟨m', ?_, hfills⟩
  have haligned' : Aligned buf 4 := haligned
  rw [clearRow32, if_pos haligned', hloop]
  rfl

/-- **Pairs of pixels** fill a row up to its last pixel, or all of it. -/
theorem clearPairs_fills (haligned : buf % 4 = 0) (m : Memory) :
    ∀ (fuel : Nat) (c : Cursor), c.pixel = buf + 4 * c.pix → 0 ≤ c.pix → c.pix ≤ w →
      w ≤ c.pix + fuel → Fills order color (Span buf c.pixel) m c.memory →
      ∃ c', clearPairs order w color fuel c = .ok c' ∧ c'.pixel = buf + 4 * c'.pix ∧
        0 ≤ c'.pix ∧ w - 1 ≤ c'.pix ∧ c'.pix ≤ w ∧
        Fills order color (Span buf c'.pixel) m c'.memory := by
  intro fuel
  induction fuel with
  | zero =>
    intro c hpixel hpos hle hfuel hfills
    exact ⟨c, if_neg (by omega), hpixel, hpos, by omega, hle, hfills⟩
  | succ fuel ih =>
    intro c hpixel hpos hle hfuel hfills
    rw [clearPairs]
    by_cases hmore : c.pix < w - 1
    · rw [if_pos hmore]
      apply ih
      · dsimp only
        omega
      · dsimp only
        omega
      · dsimp only
        omega
      · dsimp only
        omega
      · exact hfills.extend (fills_store64 (by omega)) (by omega) (by dsimp only; omega)
    · rw [if_neg hmore]
      exact ⟨c, rfl, hpixel, hpos, by omega, hle, hfills⟩

theorem clearRow64_fills (hw : 0 ≤ w) (haligned : buf % 4 = 0) (m : Memory) :
    ∃ m', clearRow64 order w color buf m = .ok m' ∧
      Fills order color (Span buf (buf + 4 * w)) m m' := by
  obtain ⟨c, hpairs, hpixel, hpos, hge, hle, hfills⟩ :=
    clearPairs_fills haligned m w.toNat ⟨0, buf, m⟩ (by simp) (Int.le_refl _) hw
      (by dsimp only; omega) (fills_none order color buf m)
  refine ⟨_, by rw [clearRow64, hpairs]; rfl, ?_⟩
  by_cases hlast : c.pix < w
  · rw [if_pos hlast]
    have hend : buf + 4 * w = c.pixel + 4 := by omega
    rw [hend]
    exact hfills.extend (fills_store (by omega)) (by omega) (by omega)
  · rw [if_neg hlast]
    have hend : buf + 4 * w = c.pixel := by omega
    rwa [hend]

/-- **Both ways** of filling a row do the same. -/
theorem clearRow_fills (wide : Bool) (hw : 0 ≤ w) (haligned : buf % 4 = 0) (m : Memory) :
    ∃ m', clearRow wide order w color buf m = .ok m' ∧
      Fills order color (Span buf (buf + 4 * w)) m m' := by
  unfold clearRow
  split
  · exact clearRow64_fills hw haligned m
  · exact clearRow32_fills hw haligned m

/-! ## A surface -/

variable {s : Mapping}

/-- The pixels of the rows before `last`. -/
def Rows (s : Mapping) (w last a : Int) : Prop :=
  ∃ row, 0 ≤ row ∧ row < last ∧ Span (s.buf + row * s.pitch) (s.buf + row * s.pitch + 4 * w) a

theorem rows_succ {row : Int} (hrow : 0 ≤ row) (a : Int) : Rows s w (row + 1) a ↔
    Rows s w row a ∨ Span (s.buf + row * s.pitch) (s.buf + row * s.pitch + 4 * w) a := by
  constructor
  · rintro ⟨i, hi, hlast, hspan⟩
    rcases Int.lt_or_eq_of_le (Int.le_of_lt_add_one hlast) with hlt | rfl
    · exact .inl ⟨i, hi, hlt, hspan⟩
    · exact .inr hspan
  · rintro (⟨i, hi, hlast, hspan⟩ | hspan)
    · exact ⟨i, hi, by omega, hspan⟩
    · exact ⟨row, hrow, by omega, hspan⟩

/-- **All rows**, whichever way each of them is filled. -/
theorem clearSurface_fills (wide : Bool) (hw : 0 ≤ w) (hpitch : s.pitch % 4 = 0)
    (hbuf : s.buf % 4 = 0) (h : Int) (m : Memory) :
    ∃ m', clearSurface wide order w h color (some s) m = .ok m' ∧
      Fills order color (Rows s w h) m m' := by
  have hnone (a : Int) (last : Int) (hlast : last ≤ 0) : ¬Rows s w last a := by
    rintro ⟨row, hrow, hlt, -⟩
    omega
  rcases Int.le_total 0 h with hh | hh
  · have hstart : (s.buf, m).1 = s.buf + 0 * s.pitch ∧ (s.buf, m).1 % 4 = 0 ∧
        Fills order color (Rows s w 0) m (s.buf, m).2 :=
      ⟨by simp, hbuf, fun a => ⟨fun ha => absurd ha (hnone a 0 (Int.le_refl _)), fun _ => rfl⟩⟩
    have hturn (row : Int) (c : Int × Memory) (hrow : 0 ≤ row) (_ : row < h)
        (hc : c.1 = s.buf + row * s.pitch ∧ c.1 % 4 = 0 ∧ Fills order color (Rows s w row) m c.2) :
        ∃ c', clearStride wide order w s.pitch color row c = .ok c' ∧
          c'.1 = s.buf + (row + 1) * s.pitch ∧ c'.1 % 4 = 0 ∧
          Fills order color (Rows s w (row + 1)) m c'.2 := by
      obtain ⟨hbuf', haligned, hfills⟩ := hc
      obtain ⟨m', hclear, hrowFills⟩ := clearRow_fills wide hw haligned c.2
      refine ⟨(c.1 + s.pitch, m'), by rw [clearStride, hclear]; rfl, ?_, ?_, ?_⟩
      · rw [hbuf', Int.add_mul, Int.one_mul, Int.add_assoc]
      · dsimp only
        omega
      · exact hfills.trans hrowFills fun a => hbuf' ▸ rows_succ hrow a
    obtain ⟨⟨buf, m'⟩, hloop, -, -, hfills⟩ := forUp_ok
      (fun row (c : Int × Memory) => c.1 = s.buf + row * s.pitch ∧ c.1 % 4 = 0 ∧
        Fills order color (Rows s w row) m c.2) hh hstart hturn
    refine ⟨m', ?_, hfills⟩
    rw [clearSurface, hloop]
    rfl
  · refine ⟨m, ?_, fun a => ⟨fun ha => absurd ha (hnone a h hh), fun _ => rfl⟩⟩
    rw [clearSurface, forUp_empty hh]
    rfl

/-! ## Main theorem -/

/-- The pixels of all these surfaces. -/
def Pixels (l : List Mapping) (w h a : Int) : Prop := ∃ s ∈ l, Rows s w h a

theorem clearOption_fills (wide : Bool) (hw : 0 ≤ w) {o : Option Mapping}
    (haligned : ∀ s ∈ o.toList, s.buf % 4 = 0 ∧ s.pitch % 4 = 0) (h : Int) (m : Memory) :
    ∃ m', clearSurface wide order w h color o m = .ok m' ∧
      Fills order color (Pixels o.toList w h) m m' := by
  cases o with
  | none =>
    refine ⟨m, rfl, fun a => ⟨?_, fun _ => rfl⟩⟩
    rintro ⟨s, hs, -⟩
    cases hs
  | some s =>
    obtain ⟨hbuf, hpitch⟩ := haligned s List.mem_cons_self
    obtain ⟨m', hclear, hfills⟩ := clearSurface_fills wide hw hpitch hbuf h m
    have hpixels (a : Int) : Pixels (some s).toList w h a ↔ Rows s w h a := by
      simp [Pixels]
    exact ⟨m', hclear, fun a => by rw [hpixels]; exact hfills a⟩

theorem windowClear_fills (wide : Bool) (hw : 0 ≤ w) {surface : Surface}
    (haligned : ∀ s ∈ mappings surface, s.buf % 4 = 0 ∧ s.pitch % 4 = 0) (h : Int) (m : Memory) :
    ∃ m', windowClear wide order surface w h color m = .ok m' ∧
      Fills order color (Pixels (mappings surface) w h) m m' := by
  obtain ⟨back, front, doubleBuffered⟩ := surface
  obtain ⟨m₁, hback, hfills⟩ := clearOption_fills wide hw
    (fun s hs => haligned s (List.mem_append_left _ hs)) h m
  cases doubleBuffered with
  | false =>
    refine ⟨m₁, by rw [windowClear, hback]; rfl, ?_⟩
    have hmappings : mappings ⟨back, front, false⟩ = back.toList := List.append_nil _
    rwa [hmappings]
  | true =>
    obtain ⟨m₂, hfront, hfills'⟩ := clearOption_fills wide hw
      (fun s hs => haligned s (List.mem_append_right _ hs)) h m₁
    refine ⟨m₂, by rw [windowClear, hback]; exact hfront, hfills.trans hfills' fun a => ?_⟩
    simp [Pixels, mappings, or_and_right, exists_or]

/-- What is filled is that the pixels have the color. -/
theorem exact_of_fills {surface : Surface} {h : Int}
    (haligned : ∀ s ∈ mappings surface, s.buf % 4 = 0 ∧ s.pitch % 4 = 0)
    (hfills : Fills order color (Pixels (mappings surface) w h) m m₁) :
    Exact order surface w h color m m₁ := by
  constructor
  · intro s hs row x hrow hrow' hx hx' i hi
    obtain ⟨hbuf, hpitch⟩ := haligned s hs
    have hproduct : row * s.pitch % 4 = 0 := by rw [Int.mul_emod, hpitch, Int.mul_zero]; rfl
    have hspan : Span (s.buf + row * s.pitch) (s.buf + row * s.pitch + 4 * w)
        (address s row x + i) := by
      unfold Span address
      omega
    rw [(hfills _).1 ⟨s, hs, row, hrow, hrow', hspan⟩]
    congr 1
    unfold address
    omega
  · intro a ha
    refine (hfills a).2 ?_
    rintro ⟨s, hs, row, hrow, hrow', hfirst, hlast⟩
    -- the pixel in which the address would be
    have hout := ha s hs row ((a - (s.buf + row * s.pitch)) / 4) hrow hrow' (by omega) (by omega)
    unfold address at hout
    omega

/-- **The fast clear is the slow clear**: for every width that is not negative, every height and any
    buffers whose rows are aligned to four bytes, both leave the same memory, where the pixels have
    the color and all other bytes are as before. -/
theorem windowClear_exact (order : Order) (surface : Surface) (w h : Int) (color : BitVec 32)
    (m : Memory) (hw : 0 ≤ w)
    (haligned : ∀ s ∈ mappings surface, s.buf % 4 = 0 ∧ s.pitch % 4 = 0) :
    ∃ m', windowClear true order surface w h color m = .ok m' ∧
      windowClear false order surface w h color m = .ok m' ∧
      Exact order surface w h color m m' := by
  obtain ⟨m₁, hwide, hfills⟩ := windowClear_fills true hw haligned h m
  obtain ⟨m₂, hnarrow, hfills'⟩ := windowClear_fills false hw haligned h m
  obtain rfl := hfills.unique hfills'
  exact ⟨m₁, hwide, hnarrow, exact_of_fills haligned hfills⟩

/-- Rows of three pixels, the second of which is not aligned to eight bytes. -/
theorem windowClear_odd : ∃ m',
    windowClear true .little ⟨some ⟨8, 12⟩, none, false⟩ 3 2 0x11223344#32 (fun _ => 0) = .ok m' ∧
    m' 31 = 0x11#8 ∧ m' 32 = 0 := by
  obtain ⟨m', hclear, -, hexact⟩ := windowClear_exact .little ⟨some ⟨8, 12⟩, none, false⟩ 3 2
    0x11223344#32 (fun _ => 0) (by decide) (by decide)
  refine ⟨m', hclear, ?_, ?_⟩
  · exact hexact.pixels ⟨8, 12⟩ (by decide) 1 2 (by decide) (by decide) (by decide) (by decide) 3
      (by decide)
  · refine hexact.others 32 ?_
    intro s hs row x hrow hrow' hx hx'
    obtain rfl := List.mem_singleton.mp hs
    unfold address
    dsimp only
    omega

end Mediabox.WindowClear
