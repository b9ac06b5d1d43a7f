import Mathlib.Data.List.Induction
import Mathlib.Tactic.Common

/-!
# Lines that are read into a buffer

A list is cut after each separator; with a bound, also where the elements since the last cut fill a
buffer.

* `chunks sep bound l` — what was cut off, each piece with its last element apart, and what is left
  at the end; without a bound (0) the pieces are the lines.
* `Fits` — every line, and what is left, is shorter than the bound.
* `chunks_eq_or_lt` — a bound changes nothing when all lines fit, and otherwise there are more
  pieces than lines.
-/

set_option autoImplicit false

namespace Chunks

variable {α : Type*} (sep : α → Prop) [DecidablePred sep] (bound : Nat)

/-- The next element. -/
def feed (p : List (List α × α) × List α) (a : α) : List (List α × α) × List α :=
  if sep a ∨ p.2.length + 1 = bound then (p.1 ++ [(p.2, a)], []) else (p.1, p.2 ++ [a])

def chunks (l : List α) : List (List α × α) × List α := l.foldl (feed sep bound) ([], [])

structure Fits (l : List α) : Prop where
  line : ∀ c ∈ (chunks sep 0 l).1, c.1.length < bound
  rest : (chunks sep 0 l).2.length < bound

variable {sep bound} {l : List α} {a : α}

theorem chunks_append_singleton :
    chunks sep bound (l ++ [a]) = feed sep bound (chunks sep bound l) a := by
  rw [chunks, List.foldl_append]
  rfl

theorem chunks_cut (h : sep a ∨ (chunks sep bound l).2.length + 1 = bound) :
    chunks sep bound (l ++ [a]) =
      ((chunks sep bound l).1 ++ [((chunks sep bound l).2, a)], []) := by
  rw [chunks_append_singleton, feed, if_pos h]

theorem chunks_keep (ha : ¬sep a) (h : (chunks sep bound l).2.length + 1 ≠ bound) :
    chunks sep bound (l ++ [a]) = ((chunks sep bound l).1, (chunks sep bound l).2 ++ [a]) := by
  rw [chunks_append_singleton, feed, if_neg (not_or.mpr ⟨ha, h⟩)]

theorem lines_keep (ha : ¬sep a) :
    chunks sep 0 (l ++ [a]) = ((chunks sep 0 l).1, (chunks sep 0 l).2 ++ [a]) :=
  chunks_keep ha (Nat.succ_ne_zero _)

/-- Lines end with a separator. -/
theorem sep_of_mem_lines : ∀ c ∈ (chunks sep 0 l).1, sep c.2 := by
  induction l using List.reverseRecOn with
  | nil => exact nofun
  | append_singleton l a ih =>
    by_cases ha : sep a
    · rw [chunks_cut (.inl ha), List.forall_mem_append, List.forall_mem_singleton]
      exact ⟨ih, ha⟩
    · rw [lines_keep ha]
      exact ih

theorem fits_cut (hbound : 0 < bound) (ha : sep a) :
    Fits sep bound (l ++ [a]) ↔ Fits sep bound l := by
  have hlines : chunks sep 0 (l ++ [a]) = ((chunks sep 0 l).1 ++ [((chunks sep 0 l).2, a)], []) :=
    chunks_cut (.inl ha)
  constructor
  · rintro ⟨hline, -⟩
    rw [hlines, List.forall_mem_append, List.forall_mem_singleton] at hline
    exact ⟨hline.1, hline.2⟩
  · rintro ⟨hline, hrest⟩
    refine ⟨?_, by rw [hlines]; exact hbound⟩
    rw [hlines, List.forall_mem_append, List.forall_mem_singleton]
    exact ⟨hline, hrest⟩

theorem fits_keep (ha : ¬sep a) :
    Fits sep bound (l ++ [a]) ↔
      Fits sep bound l ∧ (chunks sep 0 l).2.length + 1 ≠ bound := by
  have hlines := lines_keep (l := l) ha
  have hlen : (chunks sep 0 (l ++ [a])).2.length = (chunks sep 0 l).2.length + 1 := by
    rw [hlines, List.length_append, List.length_singleton]
  constructor
  · rintro ⟨hline, hrest⟩
    rw [hlen] at hrest
    rw [hlines] at hline
    exact ⟨⟨hline, by omega⟩, by omega⟩
  · rintro ⟨⟨hline, hrest⟩, hne⟩
    refine ⟨by rw [hlines]; exact hline, ?_⟩
    rw [hlen]
    omega

theorem length_chunks_le :
    (chunks sep bound l).1.length ≤ (chunks sep bound (l ++ [a])).1.length := by
  rw [chunks_append_singleton, feed]
  split <;> simp

variable (sep) in
/-- **The bound** changes nothing when everything fits; otherwise there are more pieces. -/
theorem chunks_eq_or_lt (hbound : 0 < bound) (l : List α) :
    (chunks sep bound l = chunks sep 0 l ∧ Fits sep bound l) ∨
      ((chunks sep 0 l).1.length < (chunks sep bound l).1.length ∧ ¬Fits sep bound l) := by
  induction l using List.reverseRecOn with
  | nil => exact .inl ⟨rfl, nofun, hbound⟩
  | append_singleton l a ih =>
    by_cases ha : sep a
    · rw [chunks_cut (.inl ha), chunks_cut (.inl ha), fits_cut hbound ha]
      rcases ih with ⟨heq, hfits⟩ | ⟨hlt, hfits⟩
      · exact .inl ⟨by rw [heq], hfits⟩
      · exact .inr ⟨by simpa using hlt, hfits⟩
    · rw [lines_keep ha, fits_keep ha]
      rcases ih with ⟨heq, hfits⟩ | ⟨hlt, hfits⟩
      · by_cases hfull : (chunks sep 0 l).2.length + 1 = bound
        · rw [chunks_cut (.inr (heq.symm ▸ hfull)), heq]
          exact .inr ⟨by simp, fun h => h.2 hfull⟩
        · rw [chunks_keep ha (heq.symm ▸ hfull), heq]
          exact .inl ⟨rfl, hfits, hfull⟩
      · exact .inr ⟨Nat.lt_of_lt_of_le hlt length_chunks_le, fun h => hfits h.1⟩

end Chunks
