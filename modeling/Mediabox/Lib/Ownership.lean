import Mathlib.Data.List.Nodup
import Mathlib.Logic.Function.Basic

/-!
# Ownership of recycled cells

Cells are allocated once and then move for ever between shared lists and the hands of agents.
`Owned listed allocated hands` says that the cells of the shared lists (concatenated in
`listed`) and those in the hands of the agents are exactly the allocated ones, each at one
place.  The rules are the moves that keep it:

* `Owned.perm` — cells move from one shared list to another;
* `Owned.take` / `Owned.give` — an agent with empty hands takes a listed cell, or gives back its
  own;
* `Owned.fresh` — an agent with empty hands obtains a cell that was not allocated before.
-/

set_option autoImplicit false

namespace Ownership

variable {ν ι : Type*} [DecidableEq ι]

/-- Every allocated cell is at exactly one place. -/
structure Owned (listed allocated : List ν) (hands : ι → Option ν) : Prop where
  nodup : listed.Nodup
  listed_mem : ∀ x ∈ listed, x ∈ allocated
  hand_mem : ∀ i x, hands i = some x → x ∈ allocated ∧ x ∉ listed
  hand_inj : ∀ i j x, hands i = some x → hands j = some x → i = j
  cover : ∀ x ∈ allocated, x ∈ listed ∨ ∃ i, hands i = some x

variable {listed listed' allocated : List ν} {hands : ι → Option ν} {i : ι} {x : ν}

omit [DecidableEq ι] in
theorem Owned.perm (h : Owned listed allocated hands) (hp : listed'.Perm listed) :
    Owned listed' allocated hands :=
  ⟨hp.nodup_iff.mpr h.nodup, fun x hx => h.listed_mem x (hp.mem_iff.mp hx),
    fun i x hi => ⟨(h.hand_mem i x hi).1, fun hx => (h.hand_mem i x hi).2 (hp.mem_iff.mp hx)⟩,
    h.hand_inj, fun x hx => (h.cover x hx).imp_left hp.mem_iff.mpr⟩

/-- Agent `i` takes the listed cell `x`. -/
theorem Owned.take (h : Owned listed allocated hands) (hp : listed.Perm (x :: listed'))
    (hi : hands i = none) : Owned listed' allocated (Function.update hands i (some x)) := by
  have hx := h.perm hp.symm
  have hnd := List.nodup_cons.mp hx.nodup
  refine ⟨hnd.2, fun y hy => hx.listed_mem y (List.mem_cons_of_mem _ hy), ?_, ?_, ?_⟩
  · intro j y hj
    by_cases hji : j = i
    · subst hji
      simp only [Function.update_self, Option.some.injEq] at hj
      subst hj
      exact ⟨hx.listed_mem _ List.mem_cons_self, hnd.1⟩
    · rw [Function.update_of_ne hji] at hj
      have := hx.hand_mem j y hj
      exact ⟨this.1, fun hy => this.2 (List.mem_cons_of_mem _ hy)⟩
  · -- another agent cannot hold `x`: it is listed
    have hfree : ∀ k, hands k ≠ some x := fun k hk => (hx.hand_mem k x hk).2 List.mem_cons_self
    intro j k y hj hk
    by_cases hji : j = i <;> by_cases hki : k = i
    · rw [hji, hki]
    · subst hji
      simp only [Function.update_self, Option.some.injEq] at hj
      rw [Function.update_of_ne hki, ← hj] at hk
      exact absurd hk (hfree k)
    · subst hki
      simp only [Function.update_self, Option.some.injEq] at hk
      rw [Function.update_of_ne hji, ← hk] at hj
      exact absurd hj (hfree j)
    · rw [Function.update_of_ne hji] at hj
      rw [Function.update_of_ne hki] at hk
      exact h.hand_inj j k y hj hk
  · intro y hy
    rcases hx.cover y hy with hl | ⟨j, hj⟩
    · rcases List.mem_cons.mp hl with rfl | hl
      · exact Or.inr ⟨i, Function.update_self ..⟩
      · exact Or.inl hl
    · have hji : j ≠ i := fun hji => by rw [hji, hi] at hj; cases hj
      exact Or.inr ⟨j, by rw [Function.update_of_ne hji]; exact hj⟩

/-- Agent `i` gives its cell `x` to a shared list. -/
theorem Owned.give (h : Owned listed allocated hands) (hp : listed'.Perm (x :: listed))
    (hi : hands i = some x) : Owned listed' allocated (Function.update hands i none) := by
  suffices Owned (x :: listed) allocated (Function.update hands i none) from this.perm hp
  have hother : ∀ j y, Function.update hands i none j = some y → j ≠ i ∧ hands j = some y := by
    intro j y hj
    by_cases hji : j = i
    · subst hji; simp at hj
    · rw [Function.update_of_ne hji] at hj; exact ⟨hji, hj⟩
  refine ⟨List.nodup_cons.mpr ⟨(h.hand_mem i x hi).2, h.nodup⟩, ?_, ?_, ?_, ?_⟩
  · intro y hy
    rcases List.mem_cons.mp hy with rfl | hy
    · exact (h.hand_mem i y hi).1
    · exact h.listed_mem y hy
  · intro j y hj
    obtain ⟨hji, hj⟩ := hother j y hj
    refine ⟨(h.hand_mem j y hj).1, fun hy => ?_⟩
    rcases List.mem_cons.mp hy with rfl | hy
    · exact hji (h.hand_inj j i y hj hi)
    · exact (h.hand_mem j y hj).2 hy
  · intro j k y hj hk
    exact h.hand_inj j k y (hother j y hj).2 (hother k y hk).2
  · intro y hy
    rcases h.cover y hy with hl | ⟨j, hj⟩
    · exact Or.inl (List.mem_cons_of_mem _ hl)
    · by_cases hji : j = i
      · subst hji
        rw [hi] at hj; cases hj
        exact Or.inl List.mem_cons_self
      · exact Or.inr ⟨j, by rw [Function.update_of_ne hji]; exact hj⟩

/-- Agent `i` obtains the new cell `x`. -/
theorem Owned.fresh (h : Owned listed allocated hands) (hx : x ∉ allocated)
    (hi : hands i = none) : Owned listed (x :: allocated) (Function.update hands i (some x)) := by
  have hlist : x ∉ listed := fun hm => hx (h.listed_mem x hm)
  -- first allocate the cell into the shared part, then take it
  have hgrown : Owned (x :: listed) (x :: allocated) hands := by
    refine ⟨List.nodup_cons.mpr ⟨hlist, h.nodup⟩, ?_, ?_, h.hand_inj, ?_⟩
    · intro y hy
      rcases List.mem_cons.mp hy with rfl | hy
      · exact List.mem_cons_self
      · exact List.mem_cons_of_mem _ (h.listed_mem y hy)
    · intro j y hj
      obtain ⟨ha, hn⟩ := h.hand_mem j y hj
      refine ⟨List.mem_cons_of_mem _ ha, fun hy => ?_⟩
      rcases List.mem_cons.mp hy with rfl | hy
      · exact hx ha
      · exact hn hy
    · intro y hy
      rcases List.mem_cons.mp hy with rfl | hy
      · exact Or.inl List.mem_cons_self
      · exact (h.cover y hy).imp_left (List.mem_cons_of_mem _)
  exact hgrown.take (List.Perm.refl _) hi

end Ownership
