import Mathlib.Logic.Function.Basic
import Mathlib.Tactic.Common

/-!
# Names that are given out and taken back

A table says who has a name that is in use.  A name is given to one owner at a time, and again after
it was taken back.

* `Names table owns` — the table has exactly the names that are owned.
* `Names.give`, `Names.take` — a free name is given out; the only name of an owner is taken back.
-/

set_option autoImplicit false

namespace NameTable

variable {κ ι : Type*}

def Names (table : κ → Option ι) (owns : ι → κ → Prop) : Prop :=
  ∀ name i, table name = some i ↔ owns i name

variable {table : κ → Option ι} {owns owns' : ι → κ → Prop} {name : κ} {i : ι}

theorem Names.congr (h : Names table owns) (howns : ∀ i name, owns i name ↔ owns' i name) :
    Names table owns' :=
  fun name i => (h name i).trans (howns i name)

variable [DecidableEq κ]

theorem Names.give (h : Names table owns) (hfree : table name = none) (i : ι) :
    Names (Function.update table name (some i))
      fun j other => owns j other ∨ j = i ∧ other = name := by
  intro other j
  rcases eq_or_ne other name with rfl | hne
  · rw [Function.update_self, Option.some.injEq]
    have hnot : ¬owns j other := fun hj => by
      rw [(h other j).mpr hj] at hfree
      cases hfree
    exact ⟨fun hij => .inr ⟨hij.symm, rfl⟩, fun hj => ((hj.resolve_left hnot).1).symm⟩
  · rw [Function.update_of_ne hne, h other j]
    exact (or_iff_left fun hc => hne hc.2).symm

theorem Names.take (h : Names table owns) (hname : owns i name)
    (honly : ∀ other, owns i other → other = name) :
    Names (Function.update table name none) fun j other => owns j other ∧ j ≠ i := by
  intro other j
  rcases eq_or_ne other name with rfl | hne
  · rw [Function.update_self]
    refine iff_of_false nofun fun ⟨hj, hji⟩ => hji ?_
    exact Option.some.inj (((h other j).mpr hj).symm.trans ((h other i).mpr hname))
  · rw [Function.update_of_ne hne, h other j]
    refine (and_iff_left_of_imp fun hj => ?_).symm
    rintro rfl
    exact hne (honly other hj)

end NameTable
