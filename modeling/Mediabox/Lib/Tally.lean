import Mathlib.Algebra.BigOperators.Group.Finset.Piecewise
import Mathlib.Algebra.Order.BigOperators.Group.Finset
import Mathlib.Data.Fintype.BigOperators

/-!
# Counting over the components of a state

A state with one component per thread (or party) often has a total: what the components hold
together.  A step changes one component, and the total changes by what that component gained
or lost.
-/

set_option autoImplicit false

namespace Tally

variable {ι κ : Type*} [Fintype ι]

/-- **One component changes**: the old total and the new weight make up the new total and the old
    weight. -/
theorem sum_update [DecidableEq ι] (w : κ → Nat) (f : ι → κ) (i : ι) (a : κ) :
    (∑ j, w (Function.update f i a j)) + w (f i) = (∑ j, w (f j)) + w a := by
  have hcomp : (fun j => w (Function.update f i a j)) =
      Function.update (fun j => w (f j)) i (w a) := by
    funext j
    by_cases hj : j = i
    · subst hj; simp
    · simp [Function.update_of_ne hj]
  have hold : w (f i) + ∑ j ∈ Finset.univ \ {i}, w (f j) = ∑ j, w (f j) := by
    rw [Finset.sdiff_singleton_eq_erase]
    exact Finset.add_sum_erase Finset.univ (fun j => w (f j)) (Finset.mem_univ i)
  rw [hcomp, Finset.sum_update_of_mem (Finset.mem_univ i)]
  omega

theorem le_sum (w : κ → Nat) (f : ι → κ) (i : ι) : w (f i) ≤ ∑ j, w (f j) :=
  Finset.single_le_sum (f := fun j => w (f j)) (fun _ _ => Nat.zero_le _) (Finset.mem_univ i)

end Tally
