import Mathlib.Data.List.Nodup
import Mathlib.Logic.Function.Basic
import Mathlib.Tactic.Common

/-!
# Lists in the order of their last use

A list whose elements were each used at some time, the most recent first.

* `Recent last l` — `l` has what `last` gives a time, in this order; no element is there twice.
* `Recent.touch`, `Recent.remove` — moving an element to the front, and taking one out.
-/

set_option autoImplicit false

namespace Recency

variable {α : Type*}

/-- The list has what was used, the most recent first. -/
structure Recent (last : α → Option Nat) (l : List α) : Prop where
  mem_iff : ∀ a, a ∈ l ↔ ∃ m, last a = some m
  order : l.Pairwise fun a b => ∀ m n, last a = some m → last b = some n → n < m

variable {last : α → Option Nat} {l l' : List α} {a : α} {now : Nat}

theorem Recent.nil : Recent (fun _ : α => none) [] := ⟨by simp, .nil⟩

theorem Recent.nodup (h : Recent last l) : l.Nodup := by
  refine List.Pairwise.imp_of_mem (fun {a b} ha _ hlt heq => ?_) h.order
  obtain ⟨m, hm⟩ := (h.mem_iff a).mp ha
  exact Nat.lt_irrefl m (hlt m m hm (heq ▸ hm))

variable [DecidableEq α]

/-- **Taking out**: the others stay in their order. -/
theorem Recent.remove (h : Recent last l) (a : α) :
    Recent (Function.update last a none) (l.erase a) := by
  refine ⟨fun b => ?_, ?_⟩
  · rw [h.nodup.mem_erase_iff, h.mem_iff]
    rcases eq_or_ne b a with rfl | hb
    · simp
    · rw [Function.update_of_ne hb]
      exact and_iff_right hb
  · refine (h.order.sublist List.erase_sublist).imp_of_mem fun {b c} hb hc hlt => ?_
    rw [Function.update_of_ne (h.nodup.mem_erase_iff.mp hb).1,
      Function.update_of_ne (h.nodup.mem_erase_iff.mp hc).1]
    exact hlt

/-- **A first use** comes before all others. -/
theorem Recent.push (h : Recent last l) (ha : a ∉ l)
    (hnow : ∀ b m, last b = some m → m < now) :
    Recent (Function.update last a (some now)) (a :: l) := by
  have hne {b : α} (hb : b ∈ l) : b ≠ a := fun heq => ha (heq ▸ hb)
  refine ⟨fun b => ?_, List.pairwise_cons.mpr ⟨fun b hb m n hm hn => ?_, ?_⟩⟩
  · rcases eq_or_ne b a with rfl | hb
    · simp
    · rw [Function.update_of_ne hb, ← h.mem_iff, List.mem_cons]
      exact or_iff_right hb
  · rw [Function.update_self, Option.some.injEq] at hm
    rw [Function.update_of_ne (hne hb)] at hn
    exact hm ▸ hnow b n hn
  · refine h.order.imp_of_mem fun {b c} hb hc hlt => ?_
    rw [Function.update_of_ne (hne hb), Function.update_of_ne (hne hc)]
    exact hlt

/-- **A use**: the element moves to the front. -/
theorem Recent.touch (h : Recent last l) (a : α) (hnow : ∀ b m, last b = some m → m < now) :
    Recent (Function.update last a (some now)) (a :: l.erase a) := by
  have hpush := (h.remove a).push h.nodup.not_mem_erase
    (fun b m hb => ?_ : ∀ b m, Function.update last a none b = some m → m < now)
  · rwa [Function.update_idem] at hpush
  · rcases eq_or_ne b a with rfl | hne
    · rw [Function.update_self] at hb
      cases hb
    · exact hnow b m (by rwa [Function.update_of_ne hne] at hb)

end Recency
