import Mathlib.Logic.Function.Basic
import Mathlib.Tactic.Common

/-!
# A mutex among owners

A mutex records who holds it, and each owner stands at a point of its code where it holds the mutex
or not.  `Locked lock holds` says that the two agree; at most one owner then holds the mutex.
The rules are the ways in which a step of one owner keeps it:

* `Locked.acquire` / `Locked.release` — the owner takes the free mutex, or gives it back;
* `Locked.keep` — nothing changes for the mutex.
-/

set_option autoImplicit false

namespace Mutex

variable {ω : Type*} {lock : Option ω} {holds holds' : ω → Bool} {o o' : ω}

/-- The mutex is held by the owner who stands where it is held. -/
def Locked (lock : Option ω) (holds : ω → Bool) : Prop := ∀ o, lock = some o ↔ holds o = true

/-- Two owners are not both inside. -/
theorem Locked.unique (h : Locked lock holds) (ho : holds o = true) (ho' : holds o' = true) :
    o = o' := by
  have hlock := (h o).mpr ho
  have hlock' := (h o').mpr ho'
  rw [hlock] at hlock'
  exact Option.some.inj hlock'

theorem Locked.free (h : Locked lock holds) (hfree : lock = none) (o : ω) : holds o = false := by
  cases ho : holds o with
  | false => rfl
  | true =>
    have hlock := (h o).mpr ho
    rw [hfree] at hlock
    cases hlock

theorem Locked.keep (h : Locked lock holds) (hsame : ∀ o, holds' o = holds o) :
    Locked lock holds' := by
  intro o
  rw [hsame o]
  exact h o

theorem Locked.acquire (h : Locked lock holds) (hfree : lock = none) (hnew : holds' o = true)
    (hother : ∀ o', o' ≠ o → holds' o' = holds o') : Locked (some o) holds' := by
  intro o'
  by_cases heq : o' = o
  · subst heq
    exact ⟨fun _ => hnew, fun _ => rfl⟩
  · rw [hother o' heq, h.free hfree o']
    exact ⟨fun hsome => absurd (Option.some.inj hsome).symm heq, nofun⟩

theorem Locked.release (h : Locked lock holds) (hheld : holds o = true) (hnew : holds' o = false)
    (hother : ∀ o', o' ≠ o → holds' o' = holds o') : Locked none holds' := by
  intro o'
  by_cases heq : o' = o
  · subst heq
    rw [hnew]
    exact ⟨nofun, nofun⟩
  · rw [hother o' heq]
    exact ⟨nofun, fun hin => absurd (h.unique hin hheld) heq⟩

end Mutex
