import Mathlib.Data.List.Infix

/-!
# Layers on a picture

Layers are painted on a picture one after the other, perhaps several times each.  A layer covers some
points, and has a value at each of them.

* `paint`, `paintAll` — one layer, and a list of them.
* `paintAll_of_not_covers`, `paintAll_eq` — a point that no layer covers keeps its value; a layer with
  a turn after every turn of the other ones at a point is seen there.
* `topmost` — the last of a list, in the order from the bottom, that covers a point.
-/

set_option autoImplicit false

namespace Layers

variable {ι π ν : Type*} (covers : ι → π → Prop) [∀ i p, Decidable (covers i p)] (value : ι → π → ν)

/-- A layer is painted. -/
def paint (i : ι) (picture : π → ν) : π → ν :=
  fun p => if covers i p then value i p else picture p

/-- Layers are painted, in this order. -/
def paintAll (l : List ι) (picture : π → ν) : π → ν :=
  l.foldl (fun picture i => paint covers value i picture) picture

variable {covers value} {l pre post : List ι} {i : ι} {p : π} {picture : π → ν}

@[simp] theorem paintAll_nil : paintAll covers value [] picture = picture := rfl

@[simp] theorem paintAll_cons : paintAll covers value (i :: l) picture =
    paintAll covers value l (paint covers value i picture) := rfl

theorem paintAll_append {l' : List ι} : paintAll covers value (l ++ l') picture =
    paintAll covers value l' (paintAll covers value l picture) := List.foldl_append

/-- A point of the picture comes from the same point below the layers. -/
theorem paintAll_congr {picture' : π → ν} (h : picture p = picture' p) :
    paintAll covers value l picture p = paintAll covers value l picture' p := by
  induction l generalizing picture picture' with
  | nil => exact h
  | cons i l ih =>
    rw [paintAll_cons, paintAll_cons]
    refine ih ?_
    unfold paint
    rw [h]

theorem paintAll_of_not_covers (h : ∀ i ∈ l, ¬covers i p) :
    paintAll covers value l picture p = picture p := by
  induction l generalizing picture with
  | nil => rfl
  | cons i l ih =>
    rw [paintAll_cons, ih fun j hj => h j (List.mem_cons_of_mem i hj)]
    exact if_neg (h i List.mem_cons_self)

theorem paintAll_of_last (hi : covers i p) (hpost : ∀ j ∈ post, ¬covers j p) :
    paintAll covers value (pre ++ i :: post) picture p = value i p := by
  rw [paintAll_append, paintAll_cons, paintAll_of_not_covers hpost]
  exact if_pos hi

theorem exists_last (h : ∃ i ∈ l, covers i p) :
    ∃ i pre post, l = pre ++ i :: post ∧ covers i p ∧ ∀ j ∈ post, ¬covers j p := by
  induction l with
  | nil => simp at h
  | cons i l ih =>
    by_cases hl : ∃ j ∈ l, covers j p
    · obtain ⟨j, pre, post, rfl, hj, hpost⟩ := ih hl
      exact ⟨j, i :: pre, post, rfl, hj, hpost⟩
    · refine ⟨i, [], l, rfl, ?_, fun j hj hcovers => hl ⟨j, hj, hcovers⟩⟩
      obtain ⟨j, hj, hcovers⟩ := h
      rcases List.mem_cons.mp hj with rfl | hj
      · exact hcovers
      · exact absurd ⟨j, hj, hcovers⟩ hl

/-- **The layer in front**: one that is painted again after every turn of each other layer at a point
    is seen there. -/
theorem paintAll_eq (hmem : i ∈ l) (hi : covers i p)
    (hafter : ∀ j, covers j p → j ≠ i → ∀ pre post, l = pre ++ j :: post → i ∈ post) :
    paintAll covers value l picture p = value i p := by
  obtain ⟨j, pre, post, hl, hj, hpost⟩ := exists_last ⟨i, hmem, hi⟩
  by_cases hne : j = i
  · subst hne
    rw [hl]
    exact paintAll_of_last hj hpost
  · exact absurd hi (hpost i (hafter j hj hne pre post hl))

variable (covers) in
/-- The topmost layer at a point. -/
def topmost (l : List ι) (p : π) : Option ι := l.reverse.find? fun i => covers i p

theorem topmost_eq_none : topmost covers l p = none ↔ ∀ i ∈ l, ¬covers i p := by
  simp [topmost]

/-- No layer above the topmost one is at the point. -/
theorem topmost_eq_some (h : topmost covers l p = some i) :
    covers i p ∧ ∃ pre post, l = pre ++ i :: post ∧ ∀ j ∈ post, ¬covers j p := by
  obtain ⟨hi, pre, post, hl, hpre⟩ := List.find?_eq_some_iff_append.mp h
  refine ⟨of_decide_eq_true hi, post.reverse, pre.reverse, ?_, fun j hj => ?_⟩
  · rw [← List.reverse_reverse l, hl]
    simp
  · simpa using hpre j (List.mem_reverse.mp hj)

end Layers
