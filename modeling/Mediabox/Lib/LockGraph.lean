import Mediabox.Lib.Transition
import Mathlib.Logic.Function.Basic

/-!
# Threads as flow graphs with locks

One thread is a graph: at every point stands an instruction that takes a mutex, releases one, or
computes on the shared data with an answer of the environment and goes on at another point.  Other
threads take and release the same mutexes and change the data in between.

* `Instr` / `State` / `step` — the graph, and its runs among the other threads.  Taking a mutex is
  possible when it is free: a thread that stands at a mutex it holds already stays there.
* `Annotated code holds ok` — `holds p` are the mutexes held at the point `p`, as every edge of the
  graph leaves them; the edges whose answers do not meet `ok` are not looked at.
* `step_agrees` — as long as the answers meet `ok`, the thread holds exactly what the annotation
  says; `Agrees.no_relock` is the lock discipline that follows.
-/

set_option autoImplicit false

namespace LockGraph

open Transition

/-- One point of the graph: the instruction and where it leads.  `π` are the points, `κ` the
    mutexes, `δ` the data and `α` the answers. -/
inductive Instr (π κ δ α : Type*) where
  | lock (l : κ) (next : π)
  | unlock (l : κ) (next : π)
  | run (f : δ → α → Option (δ × π))
  | halt

/-- Who holds a mutex. -/
inductive Owner where
  | self
  | other (i : Nat)
deriving DecidableEq, Repr

structure State (π κ δ : Type*) where
  pc : π
  owner : κ → Option Owner
  data : δ

/-- `move` and `answer` are steps of the thread, the rest are those of the other threads. -/
inductive Event (κ α ε : Type*) where
  | move
  | answer (a : α)
  | take (i : Nat) (l : κ)
  | give (i : Nat) (l : κ)
  | act (i : Nat) (e : ε)
deriving Repr

/-- A step of the thread itself. -/
def Event.isOwn {κ α ε : Type*} : Event κ α ε → Bool
  | .move | .answer _ => true
  | _ => false

variable {π κ δ α ε : Type*} [DecidableEq κ]

/-- One step.  `act held d e` is what a thread that holds the mutexes `held` may do to the data. -/
def step (code : π → Instr π κ δ α) (act : (κ → Bool) → δ → ε → Option δ) (s : State π κ δ) :
    Event κ α ε → Option (State π κ δ × Unit)
  | .move =>
    match code s.pc with
    | .lock l next =>
      if s.owner l = none then
        some ({ s with pc := next, owner := Function.update s.owner l (some .self) }, ())
      else none
    | .unlock l next => some ({ s with pc := next, owner := Function.update s.owner l none }, ())
    | _ => none
  | .answer a =>
    match code s.pc with
    | .run f => (f s.data a).map fun r => ({ s with pc := r.2, data := r.1 }, ())
    | _ => none
  | .take i l =>
    if s.owner l = none then
      some ({ s with owner := Function.update s.owner l (some (.other i)) }, ())
    else none
  | .give i l =>
    if s.owner l = some (.other i) then
      some ({ s with owner := Function.update s.owner l none }, ())
    else none
  | .act i e =>
    (act (fun l => s.owner l = some (.other i)) s.data e).map fun d => ({ s with data := d }, ())

/-- The answers that are looked at. -/
def Meets (ok : π → δ → α → Prop) (s : State π κ δ) : Event κ α ε → Prop
  | .answer a => ok s.pc s.data a
  | _ => True

instance {ok : π → δ → α → Prop} [∀ p d a, Decidable (ok p d a)] (s : State π κ δ)
    (e : Event κ α ε) : Decidable (Meets ok s e) :=
  match e with
  | .answer a => inferInstanceAs (Decidable (ok s.pc s.data a))
  | .move | .take _ _ | .give _ _ | .act _ _ => .isTrue trivial

/-- `holds p` are the mutexes held at `p`, on every edge whose answer meets `ok`. -/
structure Annotated (code : π → Instr π κ δ α) (holds : π → κ → Bool) (ok : π → δ → α → Prop) :
    Prop where
  lock : ∀ p l q, code p = .lock l q →
    holds p l = false ∧ holds q = Function.update (holds p) l true
  unlock : ∀ p l q, code p = .unlock l q →
    holds p l = true ∧ holds q = Function.update (holds p) l false
  run : ∀ p f d a r, code p = .run f → ok p d a → f d a = some r → holds r.2 = holds p

/-- The thread holds what the annotation says. -/
def Agrees (holds : π → κ → Bool) (s : State π κ δ) : Prop :=
  ∀ l, s.owner l = some .self ↔ holds s.pc l = true

section Discipline

variable {code : π → Instr π κ δ α} {act : (κ → Bool) → δ → ε → Option δ} {holds : π → κ → Bool}
  {ok : π → δ → α → Prop} {s t : State π κ δ} {l : κ} {o : Option Owner} {b : Bool} {q : π}

theorem Agrees.update (h : Agrees holds s) (ho : o = some .self ↔ b = true)
    (hq : holds q = Function.update (holds s.pc) l b) :
    Agrees holds { s with pc := q, owner := Function.update s.owner l o } := by
  intro k
  by_cases hk : k = l
  · subst hk
    simp only [hq, Function.update_self]
    exact ho
  · simp only [hq, Function.update_of_ne hk]
    exact h k

/-- Another thread takes or releases a mutex that this one does not hold. -/
theorem Agrees.foreign (h : Agrees holds s) (hl : s.owner l ≠ some .self) (ho : o ≠ some .self) :
    Agrees holds { s with owner := Function.update s.owner l o } := by
  intro k
  by_cases hk : k = l
  · subst hk
    simp only [Function.update_self]
    exact ⟨fun heq => absurd heq ho, fun hh => absurd ((h k).mpr hh) hl⟩
  · simp only [Function.update_of_ne hk]
    exact h k

/-- **Annotations**: a step of which the answer meets `ok` keeps what the graph says is held. -/
theorem step_agrees (hann : Annotated code holds ok) {e : Event κ α ε} {u : Unit}
    (h : Agrees holds s) (hok : Meets ok s e) (hstep : step code act s e = some (t, u)) :
    Agrees holds t := by
  cases e with
  | move =>
    simp only [step] at hstep
    split at hstep
    · rename_i l next hcode
      obtain ⟨_, heq⟩ := Option.ite_none_right_eq_some.mp hstep
      cases heq
      exact h.update ⟨fun _ => rfl, fun _ => rfl⟩ (hann.lock _ _ _ hcode).2
    · rename_i l next hcode
      cases hstep
      exact h.update (b := false) ⟨nofun, nofun⟩ (hann.unlock _ _ _ hcode).2
    · cases hstep
  | answer a =>
    simp only [step] at hstep
    split at hstep
    · rename_i f hcode
      obtain ⟨r, hf, heq⟩ := Option.map_eq_some_iff.mp hstep
      cases heq
      intro l
      rw [hann.run _ _ _ _ _ hcode hok hf]
      exact h l
    · cases hstep
  | take i l =>
    obtain ⟨hfree, heq⟩ := Option.ite_none_right_eq_some.mp hstep
    cases heq
    exact h.foreign (by rw [hfree]; exact nofun) nofun
  | give i l =>
    obtain ⟨hheld, heq⟩ := Option.ite_none_right_eq_some.mp hstep
    cases heq
    exact h.foreign (by rw [hheld]; exact nofun) nofun
  | act i e =>
    obtain ⟨d, _, heq⟩ := Option.map_eq_some_iff.mp hstep
    cases heq
    exact h

theorem Agrees.no_relock (hann : Annotated code holds ok) (h : Agrees holds s)
    (hcode : code s.pc = .lock l q) : s.owner l ≠ some .self := by
  intro hself
  have hheld := (h l).mp hself
  rw [(hann.lock _ _ _ hcode).1] at hheld
  cases hheld

omit [DecidableEq κ] in
theorem free_or_other (hl : s.owner l ≠ some .self) :
    s.owner l = none ∨ ∃ i, s.owner l = some (.other i) := by
  cases ho : s.owner l with
  | none => exact .inl rfl
  | some w =>
    cases w with
    | self => exact absurd ho hl
    | other i => exact .inr ⟨i, rfl⟩

end Discipline

end LockGraph
