import Mathlib.Tactic.Common

/-!
# Postconditions of fallible code

Code that may stop at a failed assertion returns `Except ε α`.  `Ensures x Q E` says what its two
ends promise: a result meets `Q`, and a failure is one that `E` allows.

* `ensures_bind`, `ensures_map`, `ensures_ite` — the rules for sequencing, for what is made of a
  result and for branching; each is an equivalence, so that rewriting with them computes the
  weakest precondition.
* `Ensures.mono`, `Ensures.imp` — weakening of both postconditions, or of the one on results.
* `Ensures.and` — the conjunction of two; `Ensures.settle` — the end of what may fail.
* `ensures_eq_iff` — code that succeeds with a result; `exists_error` — code that cannot succeed.
-/

set_option autoImplicit false

namespace Outcome

universe u v

variable {ε : Type u} {α β : Type v}

/-- Results of `x` meet `Q`, failures of `x` meet `E`. -/
def Ensures (x : Except ε α) (Q : α → Prop) (E : ε → Prop) : Prop :=
  match x with
  | .ok a => Q a
  | .error e => E e

variable {x y : Except ε α} {Q Q' : α → Prop} {R : β → Prop} {E E' : ε → Prop}

@[simp] theorem ensures_ok {a : α} : Ensures (.ok a : Except ε α) Q E ↔ Q a := Iff.rfl

@[simp] theorem ensures_error {e : ε} : Ensures (.error e : Except ε α) Q E ↔ E e := Iff.rfl

/-- **Sequencing**: the first part leaves a result from which the second ends well. -/
@[simp] theorem ensures_bind {f : α → Except ε β} :
    Ensures (x >>= f) R E ↔ Ensures x (fun a => Ensures (f a) R E) E := by
  cases x <;> rfl

/-- **Results passed on**: what a result is made into meets the postcondition. -/
theorem ensures_map {f : α → β} : Ensures (x.map f) R E ↔ Ensures x (fun a => R (f a)) E := by
  cases x <;> rfl

/-- **Branching**: each branch ends well under its condition. -/
theorem ensures_ite {c : Prop} [Decidable c] :
    Ensures (if c then x else y) Q E ↔ (c → Ensures x Q E) ∧ (¬c → Ensures y Q E) := by
  split <;> rename_i hc <;> simp [hc]

theorem Ensures.mono (h : Ensures x Q E) (hQ : ∀ a, Q a → Q' a) (hE : ∀ e, E e → E' e) :
    Ensures x Q' E' := by
  cases x with
  | ok a => exact hQ a h
  | error e => exact hE e h

theorem Ensures.imp (h : Ensures x Q E) (hQ : ∀ a, Q a → Q' a) : Ensures x Q' E :=
  h.mono hQ fun _ he => he

/-- A failure made into a result. -/
def settle (stopped : ε → α) : Except ε α → α
  | .ok a => a
  | .error e => stopped e

/-- **The end**: a result, or what is made of a failure. -/
theorem Ensures.settle (h : Ensures x Q E) (stopped : ε → α) :
    Q (settle stopped x) ∨ ∃ e, E e ∧ settle stopped x = stopped e := by
  cases x with
  | ok a => exact .inl h
  | error e => exact .inr ⟨e, h, rfl⟩

/-- **Conjunction**: two things that are ensured hold together. -/
theorem Ensures.and (h : Ensures x Q E) (h' : Ensures x Q' E') :
    Ensures x (fun a => Q a ∧ Q' a) fun e => E e ∧ E' e := by
  cases x with
  | ok a | error e => exact ⟨h, h'⟩

/-- **Success**: the code ends with this result. -/
theorem ensures_eq_iff {a : α} : Ensures x (· = a) (fun _ => False) ↔ x = .ok a := by
  cases x <;> simp

/-- **Result**: code that must not fail ends with one that meets the postcondition. -/
theorem Ensures.exists_ok (h : Ensures x Q fun _ => False) : ∃ a, x = .ok a ∧ Q a := by
  cases x with
  | ok a => exact ⟨a, rfl, h⟩
  | error e => exact h.elim

/-- **Failure**: code that does not always succeed fails. -/
theorem exists_error (h : ¬Ensures x (fun _ => True) fun _ => False) : ∃ e, x = .error e := by
  cases x with
  | ok a => exact absurd trivial h
  | error e => exact ⟨e, rfl⟩

end Outcome
