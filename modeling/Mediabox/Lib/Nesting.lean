import Mathlib.Tactic.Common

/-!
# Rectangles inside of rectangles

Frames that lie at an offset inside of a parent, or are a root, kept in a list that grows at its
end; a frame is named by its index.

* `Path l i r x y` — `r` is the root of `i`, and `x` and `y` are the sums of the offsets along the
  path to it.
* `Grown top link l` — every root meets `top`, and every other frame is linked to its parent.
* `Grown.append` — a new frame; `Grown.along` — what holds of roots and passes from every frame to
  its children holds along paths.
-/

set_option autoImplicit false

namespace Nesting

/-- The frame of a record: its parent and the offset in it. -/
structure Frame where
  parent : Option Nat
  x : Nat
  y : Nat

variable {σ : Type*}

inductive Path (frame : σ → Frame) (l : List σ) : Nat → Nat → Nat → Nat → Prop
  | root {r : Nat} {f : σ} : l[r]? = some f → (frame f).parent = none → Path frame l r r 0 0
  | sub {i p r x y : Nat} {f : σ} : l[i]? = some f → (frame f).parent = some p →
      Path frame l p r x y → Path frame l i r (x + (frame f).x) (y + (frame f).y)

structure Grown (frame : σ → Frame) (top : Nat → σ → Prop) (link : σ → σ → Prop) (l : List σ) :
    Prop where
  top : ∀ (i : Nat) (f : σ), l[i]? = some f → (frame f).parent = none → top i f
  sub : ∀ (i : Nat) (f : σ) (p : Nat), l[i]? = some f → (frame f).parent = some p →
    ∃ pf, l[p]? = some pf ∧ link f pf

variable {frame : σ → Frame} {top : Nat → σ → Prop} {link : σ → σ → Prop} {l : List σ} {f : σ}
  {i r x y : Nat}

theorem Grown.nil : Grown frame top link [] := ⟨nofun, nofun⟩

theorem getElem?_of_append {g : σ} (h : (l ++ [f])[i]? = some g) :
    l[i]? = some g ∨ i = l.length ∧ g = f := by
  rcases Nat.lt_trichotomy i l.length with hlt | rfl | hgt
  · exact .inl ((List.getElem?_append_left hlt).symm.trans h)
  · rw [List.getElem?_concat_length] at h
    exact .inr ⟨rfl, (Option.some.inj h).symm⟩
  · rw [List.getElem?_eq_none (by simpa using Nat.succ_le_of_lt hgt)] at h
    cases h

theorem getElem?_append_of {g : σ} (h : l[i]? = some g) : (l ++ [f])[i]? = some g :=
  (List.getElem?_append_left (List.getElem?_eq_some_iff.mp h).1).trans h

/-- **A new frame** that is a root, or is linked to its parent. -/
theorem Grown.append (h : Grown frame top link l)
    (htop : (frame f).parent = none → top l.length f)
    (hsub : ∀ p, (frame f).parent = some p → ∃ pf, l[p]? = some pf ∧ link f pf) :
    Grown frame top link (l ++ [f]) := by
  refine ⟨fun i g hg hparent => ?_, fun i g p hg hparent => ?_⟩
  · rcases getElem?_of_append hg with hg | ⟨rfl, rfl⟩
    · exact h.top i g hg hparent
    · exact htop hparent
  · rcases getElem?_of_append hg with hg | ⟨rfl, rfl⟩
    · obtain ⟨pf, hpf, hlink⟩ := h.sub i g p hg hparent
      exact ⟨pf, getElem?_append_of hpf, hlink⟩
    · obtain ⟨pf, hpf, hlink⟩ := hsub p hparent
      exact ⟨pf, getElem?_append_of hpf, hlink⟩

/-- **Along a path**: what holds of roots and passes from parents to children. -/
theorem Grown.along (h : Grown frame top link l) {P : σ → Nat → σ → Nat → Nat → Prop}
    (hpath : Path frame l i r x y) (hroot : ∀ r f, top r f → P f r f 0 0)
    (hsub : ∀ f pf r root x y, link f pf → P pf r root x y →
      P f r root (x + (frame f).x) (y + (frame f).y)) :
    ∃ f root, l[i]? = some f ∧ l[r]? = some root ∧ (frame root).parent = none ∧ top r root ∧
      P f r root x y := by
  induction hpath with
  | root hf hp => exact ⟨_, _, hf, hf, hp, h.top _ _ hf hp, hroot _ _ (h.top _ _ hf hp)⟩
  | sub hf hp _ ih =>
    obtain ⟨pf, root, hpf, hr, hparent, htop, hP⟩ := ih
    obtain ⟨pf', hpf', hlink⟩ := h.sub _ _ _ hf hp
    obtain rfl := Option.some.inj (hpf.symm.trans hpf')
    exact ⟨_, root, hf, hr, hparent, htop, hsub _ pf _ root _ _ hlink hP⟩

end Nesting
