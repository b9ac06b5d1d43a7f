import Mathlib.Data.List.Basic
import Mathlib.Data.List.Infix

/-!
# Ring buffers whose end may move

A ring of `size` cells at the start of a memory `Nat → α`, with a reader at index `read`.

* `Holds mem size read xs` — the cells from `read` on, around the end, hold `xs`.
* `Holds.load`, `Holds.drop`, `Holds.append` — reading a block, moving the reader, writing a block
  behind the last cell in use.
* `Holds.grow` — the ring gets more cells while its last cell in use is the last one of all.
* `Traffic` — the counters of a ring with one writer and one reader, each of which moves its index
  first and changes the shared count later; one lemma for each move.
-/

set_option autoImplicit false

namespace Ring

section Prefix

variable {α : Type*} {xs ys zs : List α} {n : Nat}

/-- Two blocks of one sequence, one behind the other. -/
theorem prefix_append_drop (hxs : xs <+: zs) (hys : ys <+: zs.drop xs.length) :
    xs ++ ys <+: zs := by
  obtain ⟨t, rfl⟩ := hxs
  rw [List.drop_left] at hys
  exact (List.prefix_append_right_inj xs).mpr hys

/-- What is left of a block once its first `n` elements are gone. -/
theorem drop_prefix_drop (hxs : xs <+: zs) (hn : n ≤ xs.length) : xs.drop n <+: zs.drop n := by
  obtain ⟨t, rfl⟩ := hxs
  rw [List.drop_append_of_le_length hn]
  exact List.prefix_append _ _

end Prefix

section Memory

variable {α : Type*}

/-- Write a block from index `p` on. -/
def store (mem : Nat → α) (p : Nat) (xs : List α) : Nat → α :=
  fun i => if p ≤ i then (xs[i - p]?).getD (mem i) else mem i

/-- Read `n` cells from index `p` on. -/
def load (mem : Nat → α) (p n : Nat) : List α :=
  (List.range n).map fun i => mem (p + i)

@[simp]
theorem length_load (mem : Nat → α) (p n : Nat) : (load mem p n).length = n := by
  simp [load]

theorem store_inside (mem : Nat → α) {p i : Nat} {xs : List α} {x : α} (hx : xs[i]? = some x) :
    store mem p xs (p + i) = x := by
  simp [store, hx]

theorem store_outside (mem : Nat → α) {p i : Nat} {xs : List α} (hi : i < p ∨ p + xs.length ≤ i) :
    store mem p xs i = mem i := by
  unfold store
  split
  · rw [List.getElem?_eq_none (by omega), Option.getD_none]
  · rfl

end Memory

section Index

/-- The cell `i` of a ring, for indices that pass the end at most once. -/
def wrap (size i : Nat) : Nat :=
  if i < size then i else i - size

variable {size read i n : Nat}

theorem wrap_of_lt (h : i < size) : wrap size i = i := if_pos h

theorem wrap_lt (h : i < 2 * size) : wrap size i < size := by
  unfold wrap
  split <;> omega

/-- Going `n` cells and then `i` more is going `n + i` cells. -/
theorem wrap_wrap (hread : read < size) (h : n + i ≤ size) :
    wrap size (wrap size (read + n) + i) = wrap size (read + (n + i)) := by
  unfold wrap
  split_ifs <;> omega

end Index

variable {α : Type*} {mem : Nat → α} {size read n : Nat} {xs ys : List α}

/-- The cells from `read` on, around the end, hold `xs`. -/
structure Holds (mem : Nat → α) (size read : Nat) (xs : List α) : Prop where
  fits : xs.length ≤ size
  cell : ∀ i x, xs[i]? = some x → mem (wrap size (read + i)) = x

theorem Holds.nil : Holds mem size read [] :=
  ⟨Nat.zero_le _, fun i x h => by simp at h⟩

/-- A block that does not pass the end is read in one piece. -/
theorem Holds.load (h : Holds mem size read xs) (hend : read + n ≤ size) (hn : n ≤ xs.length) :
    load mem read n = xs.take n := by
  apply List.ext_getElem?
  intro i
  by_cases hi : i < n
  · have hlt : i < xs.length := by omega
    have hcell := h.cell i xs[i] (List.getElem?_eq_getElem hlt)
    rw [wrap_of_lt (by omega)] at hcell
    simp [Ring.load, hi, hcell, List.getElem?_take_of_lt, List.getElem?_eq_getElem hlt]
  · rw [List.getElem?_eq_none (by rw [length_load]; omega),
      List.getElem?_eq_none (by rw [List.length_take]; omega)]

theorem Holds.drop (h : Holds mem size read xs) (hread : read < size) (hn : n ≤ xs.length) :
    Holds mem size (wrap size (read + n)) (xs.drop n) := by
  have hfits := h.fits
  refine ⟨?_, fun i x hx => ?_⟩
  · rw [List.length_drop]
    omega
  · rw [List.getElem?_drop] at hx
    obtain ⟨hi, -⟩ := List.getElem?_eq_some_iff.mp hx
    rw [wrap_wrap hread (by omega)]
    exact h.cell (n + i) x hx

theorem Holds.append (h : Holds mem size read xs)
    (hend : wrap size (read + xs.length) + ys.length ≤ size)
    (hfits : xs.length + ys.length ≤ size) :
    Holds (store mem (wrap size (read + xs.length)) ys) size read (xs ++ ys) := by
  refine ⟨by rw [List.length_append]; exact hfits, fun i x hx => ?_⟩
  by_cases hi : i < xs.length
  · rw [List.getElem?_append_left hi] at hx
    rw [store_outside]
    · exact h.cell i x hx
    · unfold wrap at hend ⊢
      split_ifs at hend ⊢ <;> omega
  · rw [List.getElem?_append_right (by omega)] at hx
    obtain ⟨hlt, -⟩ := List.getElem?_eq_some_iff.mp hx
    have hcell : wrap size (read + i) = wrap size (read + xs.length) + (i - xs.length) := by
      unfold wrap at hend ⊢
      split_ifs at hend ⊢ <;> omega
    rw [hcell]
    exact store_inside mem hx

theorem Holds.grow (h : Holds mem size read xs) (hend : read + xs.length = size) (more : Nat) :
    Holds mem (size + more) read xs := by
  refine ⟨h.fits.trans (Nat.le_add_right _ _), fun i x hx => ?_⟩
  obtain ⟨hi, -⟩ := List.getElem?_eq_some_iff.mp hx
  have hcell := h.cell i x hx
  rw [wrap_of_lt (by omega)] at hcell ⊢
  exact hcell

section Traffic

/-- The counters between one writer and one reader: `count` cells are announced, of which the
    reader has taken `taken` already; the writer has written `written` cells behind them and
    announced them not yet.  The reader is about to read `chunk` cells, and the writer at `write`
    is about to write up to `room` cells. -/
structure Traffic (size read count taken written chunk room : Nat) (write : Option Nat) :
    Prop where
  fits : count + written ≤ size
  owed : taken ≤ count
  block : chunk ≤ count ∧ read + chunk ≤ size
  space : count + room ≤ size
  tail : ∀ w ∈ write, w + room ≤ size ∧ w = wrap size (read + (count - taken + written))

variable {size read count taken written chunk room w m n : Nat} {write : Option Nat}

theorem Traffic.start (hsize : 0 < size) : Traffic size 0 0 0 0 0 0 (some 0) := by
  refine ⟨Nat.zero_le _, Nat.le_refl _, ⟨Nat.le_refl _, Nat.zero_le _⟩, Nat.zero_le _, ?_⟩
  rintro w ⟨⟩
  exact ⟨Nat.zero_le _, (wrap_of_lt hsize).symm⟩

/-- The writer goes away. -/
theorem Traffic.stop (h : Traffic size read count taken written chunk room write) :
    Traffic size read count taken written chunk room none :=
  ⟨h.fits, h.owed, h.block, h.space, fun _ hw => nomatch hw⟩

/-- The reader picks a block. -/
theorem Traffic.pick (h : Traffic size read count 0 written 0 room write) (hcount : n ≤ count)
    (hend : read + n ≤ size) : Traffic size read count 0 written n room write :=
  ⟨h.fits, h.owed, ⟨hcount, hend⟩, h.space, h.tail⟩

/-- The reader moves over the block that it has read. -/
theorem Traffic.copy (h : Traffic size read count 0 written n room write) (hread : read < size) :
    Traffic size (wrap size (read + n)) count n written 0 room write := by
  obtain ⟨hfits, -, ⟨hcount, hend⟩, hspace, htail⟩ := h
  refine ⟨hfits, hcount, ⟨Nat.zero_le _, (wrap_lt (by omega)).le⟩, hspace, fun w hw => ?_⟩
  obtain ⟨hroom, hwrap⟩ := htail w hw
  refine ⟨hroom, ?_⟩
  rw [wrap_wrap hread (by omega), hwrap]
  congr 2
  omega

/-- The reader takes the block off the count. -/
theorem Traffic.consume (h : Traffic size read count n written 0 room write) :
    Traffic size read (count - n) 0 written 0 room write := by
  obtain ⟨hfits, howed, ⟨-, hend⟩, hspace, htail⟩ := h
  exact ⟨by omega, Nat.zero_le _, ⟨Nat.zero_le _, hend⟩, by omega, htail⟩

/-- The writer picks a block. -/
theorem Traffic.reserve (h : Traffic size read count taken 0 chunk 0 (some w))
    (hcount : count + n ≤ size) (hend : w + n ≤ size) :
    Traffic size read count taken 0 chunk n (some w) := by
  refine ⟨h.fits, h.owed, h.block, hcount, ?_⟩
  rintro _ ⟨⟩
  exact ⟨hend, (h.tail w rfl).2⟩

/-- The writer gives its block up. -/
theorem Traffic.release (h : Traffic size read count taken 0 chunk n (some w)) :
    Traffic size read count taken 0 chunk 0 (some w) := by
  refine ⟨h.fits, h.owed, h.block, h.fits, ?_⟩
  rintro _ ⟨⟩
  obtain ⟨hend, hwrap⟩ := h.tail w rfl
  exact ⟨by omega, hwrap⟩

/-- The writer moves over the cells that it has written. -/
theorem Traffic.advance (h : Traffic size read count taken 0 chunk n (some w)) (hread : read < size)
    (hm : m ≤ n) :
    Traffic size read count taken m chunk 0 (some (wrap size (w + m))) := by
  obtain ⟨hfits, howed, hblock, hspace, htail⟩ := h
  obtain ⟨hroom, hwrap⟩ := htail w rfl
  refine ⟨by omega, howed, hblock, by omega, ?_⟩
  rintro _ ⟨⟩
  refine ⟨(wrap_lt (by omega)).le, ?_⟩
  unfold wrap at hwrap ⊢
  split_ifs at hwrap ⊢ <;> omega

/-- The cells in use end at the end of the ring when the writer arrives there. -/
theorem Traffic.contiguous (h : Traffic size read count taken 0 chunk n (some w))
    (hread : read < size) (hm : m ≤ n) (hend : w + m = size) :
    read + (count - taken + m) = size := by
  have hspace := h.space
  obtain ⟨hroom, hwrap⟩ := h.tail w rfl
  unfold wrap at hwrap
  split_ifs at hwrap <;> omega

/-- The writer moves the end of the ring when it arrives there. -/
theorem Traffic.grow (h : Traffic size read count taken 0 chunk n (some w)) (hread : read < size)
    (hm : m ≤ n) (hend : w + m = size) {more : Nat} (hmore : 0 < more) :
    Traffic (size + more) read count taken m chunk 0 (some (w + m)) := by
  have hcont := h.contiguous hread hm hend
  obtain ⟨hfits, howed, hblock, hspace, -⟩ := h
  refine ⟨by omega, howed, ⟨hblock.1, by omega⟩, by omega, ?_⟩
  rintro _ ⟨⟩
  exact ⟨by omega, by rw [wrap_of_lt] <;> omega⟩

/-- The writer adds its cells to the count. -/
theorem Traffic.publish (h : Traffic size read count taken n chunk 0 write) :
    Traffic size read (count + n) taken 0 chunk 0 write := by
  obtain ⟨hfits, howed, hblock, -, htail⟩ := h
  refine ⟨hfits, by omega, ⟨by omega, hblock.2⟩, hfits, fun w hw => ?_⟩
  obtain ⟨hroom, hwrap⟩ := htail w hw
  refine ⟨hroom, ?_⟩
  rw [hwrap]
  congr 2
  omega

/-- Both are at rest, and the reader drops `n` cells. -/
theorem Traffic.skip (h : Traffic size read count 0 0 0 0 write) (hread : read < size)
    (hn : n ≤ count) :
    Traffic size (wrap size (read + n)) (count - n) 0 0 0 0 write := by
  obtain ⟨hfits, -, -, -, htail⟩ := h
  refine ⟨by omega, Nat.zero_le _, ⟨Nat.zero_le _, (wrap_lt (by omega)).le⟩, by omega,
    fun w hw => ?_⟩
  obtain ⟨hroom, hwrap⟩ := htail w hw
  refine ⟨hroom, ?_⟩
  rw [wrap_wrap hread (by omega), hwrap]
  congr 2
  omega

end Traffic

end Ring
