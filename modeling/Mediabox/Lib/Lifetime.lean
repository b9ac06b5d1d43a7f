import Mathlib.Data.List.Nodup
import Mathlib.Logic.Function.Basic

/-!
# What is acquired and released

The memory blocks or descriptors of a piece of code, each of which is acquired at most once: a
second release, like a release of what was never acquired, is a fault.

* `acquire`, `release`, `releaseAll`, `access` — the operations.
* `Held` — the live cells, each listed once; what is listed can be released (`Held.releaseAll`).
-/

set_option autoImplicit false

namespace Lifetime

universe u v

inductive Life where
  | fresh
  | live
  | gone
  deriving DecidableEq, Repr

variable {ι : Type u} {ε : Type v} [DecidableEq ι]

def acquire (c : ι → Life) (i : ι) : ι → Life := Function.update c i .live

def access (e : ε) (c : ι → Life) (i : ι) : Except ε Unit :=
  if c i = .live then .ok () else .error e

def release (e : ε) (c : ι → Life) (i : ι) : Except ε (ι → Life) :=
  if c i = .live then .ok (Function.update c i .gone) else .error e

def releaseAll (e : ε) : (ι → Life) → List ι → Except ε (ι → Life)
  | c, [] => .ok c
  | c, i :: l => do
    let c ← release e c i
    releaseAll e c l

variable {e : ε} {c : ι → Life} {i j : ι} {l l' : List ι}

@[simp] theorem acquire_self : acquire c i i = .live := Function.update_self _ _ _

theorem acquire_of_ne (h : j ≠ i) : acquire c i j = c j := Function.update_of_ne h _ _

omit [DecidableEq ι] in
theorem access_ok (h : c i = .live) : access e c i = .ok () := if_pos h

omit [DecidableEq ι] in
theorem access_error (h : c i ≠ .live) : access e c i = .error e := if_neg h

/-- What is live is what the list has, each once. -/
structure Held (c : ι → Life) (l : List ι) : Prop where
  nodup : l.Nodup
  live : ∀ i, c i = .live ↔ i ∈ l

omit [DecidableEq ι] in
theorem Held.perm (h : Held c l) (hp : l.Perm l') : Held c l' :=
  ⟨hp.nodup_iff.mp h.nodup, fun i => (h.live i).trans hp.mem_iff⟩

theorem Held.acquire (h : Held c l) (hi : i ∉ l) : Held (acquire c i) (i :: l) := by
  refine ⟨List.nodup_cons.mpr ⟨hi, h.nodup⟩, fun j => ?_⟩
  by_cases hj : j = i
  · subst hj
    simp
  · rw [acquire_of_ne hj, h.live, List.mem_cons]
    exact (or_iff_right hj).symm

theorem Held.release (h : Held c (i :: l)) :
    Lifetime.release e c i = .ok (Function.update c i .gone) ∧
      Held (Function.update c i .gone) l := by
  obtain ⟨hnot, hl⟩ := List.nodup_cons.mp h.nodup
  refine ⟨if_pos ((h.live i).mpr List.mem_cons_self), hl, fun j => ?_⟩
  by_cases hj : j = i
  · subst hj
    rw [Function.update_self]
    exact iff_of_false nofun hnot
  · rw [Function.update_of_ne hj, h.live, List.mem_cons]
    exact or_iff_right hj

/-- **Releasing** a part of what is held leaves the rest. -/
theorem Held.releaseAll (h : Held c (l ++ l')) :
    ∃ c', Lifetime.releaseAll e c l = .ok c' ∧ Held c' l' := by
  induction l generalizing c with
  | nil => exact ⟨c, rfl, h⟩
  | cons i l ih =>
    obtain ⟨hi, hrest⟩ := h.release (e := e)
    obtain ⟨c', hall, hheld⟩ := ih hrest
    refine ⟨c', ?_, hheld⟩
    rw [Lifetime.releaseAll, hi]
    exact hall

end Lifetime
