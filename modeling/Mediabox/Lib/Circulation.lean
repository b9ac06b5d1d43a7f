import Mathlib.Data.List.Nodup
import Mathlib.Data.List.Perm.Basic

/-!
# Cells that circulate between a pool and their users

A cell is in the pool or in use; what leaves the pool comes back, is lost, or is still in use.  Each
time a cell is taken it gets the next number, so that the uses of one cell can be told apart.

* `Accounted` — the places of the cells, and what became of each use.
* The rules: `Accounted.perm` (cells move between their users), `Accounted.take`,
  `Accounted.release` and `Accounted.lose`.
* `conserved_iff` — between two moments when nothing is in use, every use has ended in one release
  exactly if no cell was lost.
-/

set_option autoImplicit false

namespace Circulation

universe u

variable {α : Type u}

/-- Every cell is at one place; the first `uses` uses are those that were released, those whose cell
    was lost, and those of the cells in use, each once. -/
structure Accounted (pool live allocated : List α) (serial : α → Nat) (uses : Nat)
    (released lost : List Nat) : Prop where
  nodup : (pool ++ live).Nodup
  allocated : ∀ x ∈ pool ++ live, x ∈ allocated
  once : ∀ i, released.count i + lost.count i + (live.map serial).count i =
    if i < uses then 1 else 0

/-- Where a cell comes from: the tail of the pool, or it is new. -/
def Taken (pool allocated : List α) (x : α) (pool' allocated' : List α) : Prop :=
  pool = pool' ++ [x] ∧ allocated' = allocated ∨
    pool' = pool ∧ x ∉ allocated ∧ allocated' = x :: allocated

variable {pool pool' live live' allocated allocated' : List α} {serial serial' : α → Nat}
  {uses : Nat} {released lost : List Nat} {x : α}

theorem accounted_nil : Accounted [] [] [] serial 0 [] [] where
  nodup := List.nodup_nil
  allocated _ hx := nomatch hx
  once i := by simp

theorem Accounted.perm (h : Accounted pool live allocated serial uses released lost)
    (hlive : live'.Perm live) : Accounted pool live' allocated serial uses released lost := by
  have hperm : (pool ++ live').Perm (pool ++ live) := hlive.append_left pool
  constructor
  · exact hperm.nodup_iff.mpr h.nodup
  · exact fun y hy => h.allocated y (hperm.mem_iff.mp hy)
  · intro i
    rw [(hlive.map serial).count_eq]
    exact h.once i

/-- A cell that is taken is in no use. -/
theorem Accounted.not_live (h : Accounted pool live allocated serial uses released lost)
    (hfrom : Taken pool allocated x pool' allocated') : x ∉ live := by
  rcases hfrom with ⟨hpool, -⟩ | ⟨-, hfresh, -⟩
  · have hdisj := (List.nodup_append.mp h.nodup).2.2
    exact fun hm => hdisj x (by rw [hpool]; simp) x hm rfl
  · exact fun hm => hfresh (h.allocated x (List.mem_append_right _ hm))

theorem Accounted.take (h : Accounted pool live allocated serial uses released lost)
    (hfrom : Taken pool allocated x pool' allocated') (hlive : live'.Perm (x :: live))
    (hnew : serial' x = uses) (hold : ∀ y, y ≠ x → serial' y = serial y) :
    Accounted pool' live' allocated' serial' (uses + 1) released lost := by
  have hnot := h.not_live hfrom
  suffices Accounted pool' (x :: live) allocated' serial' (uses + 1) released lost from
    this.perm hlive
  constructor
  · rcases hfrom with ⟨hpool, -⟩ | ⟨rfl, hfresh, -⟩
    · have hnodup := h.nodup
      rw [hpool, List.append_assoc] at hnodup
      exact hnodup
    · refine (List.perm_middle.nodup_iff).mpr (List.nodup_cons.mpr ⟨fun hm => ?_, h.nodup⟩)
      exact hfresh (h.allocated x hm)
  · intro y hy
    rcases hfrom with ⟨hpool, rfl⟩ | ⟨rfl, -, rfl⟩
    · refine h.allocated y ?_
      rw [hpool, List.append_assoc]
      exact hy
    · rcases List.mem_cons.mp (List.perm_middle.mem_iff.mp hy) with rfl | hm
      · exact List.mem_cons_self
      · exact List.mem_cons_of_mem _ (h.allocated y hm)
  · intro i
    have hsame : live.map serial' = live.map serial :=
      List.map_congr_left fun y hy => hold y fun heq => hnot (heq ▸ hy)
    have honce := h.once i
    rw [List.map_cons, hnew, hsame, List.count_cons]
    simp only [beq_iff_eq]
    split_ifs at honce ⊢ <;> omega

theorem Accounted.release (h : Accounted pool live allocated serial uses released lost)
    (hlive : live.Perm (x :: live')) :
    Accounted (x :: pool) live' allocated serial uses (released ++ [serial x]) lost := by
  have hperm : (x :: pool ++ live').Perm (pool ++ live) :=
    List.perm_middle.symm.trans (hlive.symm.append_left pool)
  constructor
  · exact hperm.nodup_iff.mpr h.nodup
  · exact fun y hy => h.allocated y (hperm.mem_iff.mp hy)
  · intro i
    have honce := h.once i
    rw [(hlive.map serial).count_eq, List.map_cons, List.count_cons] at honce
    rw [List.count_append, List.count_singleton, ← honce]
    omega

theorem Accounted.lose (h : Accounted pool live allocated serial uses released lost)
    (hlive : live.Perm (x :: live')) :
    Accounted pool live' allocated serial uses released (lost ++ [serial x]) := by
  have hperm : (x :: (pool ++ live')).Perm (pool ++ live) :=
    List.perm_middle.symm.trans (hlive.symm.append_left pool)
  constructor
  · exact (List.nodup_cons.mp (hperm.nodup_iff.mpr h.nodup)).2
  · exact fun y hy => h.allocated y (hperm.mem_iff.mp (List.mem_cons_of_mem _ hy))
  · intro i
    have honce := h.once i
    rw [(hlive.map serial).count_eq, List.map_cons, List.count_cons] at honce
    rw [List.count_append, List.count_singleton, ← honce]
    omega

/-- **Conservation**: from one moment when nothing is in use to another one, every use that began
    was released once exactly if nothing was lost. -/
theorem conserved_iff {pool₀ allocated₀ : List α} {serial₀ : α → Nat} {uses₀ : Nat}
    {released₀ lost₀ : List Nat}
    (h₀ : Accounted pool₀ [] allocated₀ serial₀ uses₀ released₀ lost₀)
    (h : Accounted pool [] allocated serial uses (released₀ ++ released) (lost₀ ++ lost)) :
    (∀ i, uses₀ ≤ i → i < uses → released.count i = 1) ↔ lost = [] := by
  have hfirst : ∀ i, released₀.count i + lost₀.count i = if i < uses₀ then 1 else 0 := fun i =>
    h₀.once i
  have hboth : ∀ i, released₀.count i + released.count i + (lost₀.count i + lost.count i) =
      if i < uses then 1 else 0 := by
    intro i
    have honce := h.once i
    rw [List.count_append, List.count_append] at honce
    exact honce
  constructor
  · intro hall
    -- a use whose cell was lost has begun since, and would not have been released
    refine List.eq_nil_iff_forall_not_mem.mpr fun i hi => ?_
    have hpos := List.count_pos_iff.mpr hi
    have h1 := hfirst i
    have h2 := hboth i
    by_cases hlt : i < uses₀
    · rw [if_pos hlt] at h1
      split_ifs at h2 <;> omega
    · by_cases hnow : i < uses
      · have := hall i (Nat.le_of_not_lt hlt) hnow
        rw [if_pos hnow] at h2
        omega
      · rw [if_neg hnow] at h2
        omega
  · rintro rfl i hge hlt
    have h1 := hfirst i
    have h2 := hboth i
    rw [if_neg (Nat.not_lt.mpr hge)] at h1
    rw [if_pos hlt, List.count_nil] at h2
    omega

end Circulation
