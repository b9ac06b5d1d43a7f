import Mathlib.Data.List.Basic

/-!
# Runs of labelled transition systems

The state machines of this development are step functions `σ → ε → Option (σ × ω)`: an event
(which thread moves, what the environment answers) either is not possible in the state or
leads to one next state with one output.  This module is the general part of the argument:

* `Run R s tr t` — the labels `tr`, in order, lead from `s` to `t`; the last step is the outermost
  one, so that facts about a whole history are proved by adding one step at the end.
* `Run.history` / `Run.invariant` — the two induction rules: what every step preserves holds
  along every run, about the labels taken so far and the state, or about the state alone.
* `Step f` and `exec f` — the step relation of a step function, and its executable runs;
  `Guarded f ok` keeps the steps that meet the condition `ok`.
* `observed f note` — a step function with an observer, for what is said of a state and of how it
  was reached.
-/

set_option autoImplicit false

namespace Transition

section Relation

variable {σ ℓ : Type*}

/-- `Run R s tr t`: starting in `s`, steps labelled `tr` lead to `t`. -/
inductive Run (R : σ → ℓ → σ → Prop) (s : σ) : List ℓ → σ → Prop
  | nil : Run R s [] s
  | snoc {tr : List ℓ} {t u : σ} {a : ℓ} : Run R s tr t → R t a u → Run R s (tr ++ [a]) u

variable {R : σ → ℓ → σ → Prop} {s t u : σ} {tr : List ℓ} {a : ℓ}

/-- **Invariants of histories**: a property of the labels taken so far and of the state reached
    holds along every run when it holds at the start and every step adds its label to it. -/
theorem Run.history {P : List ℓ → σ → Prop} (h0 : P [] s)
    (hstep : ∀ tr t a u, P tr t → R t a u → P (tr ++ [a]) u) (h : Run R s tr t) : P tr t := by
  induction h with
  | nil => exact h0
  | snoc _ hr ih => exact hstep _ _ _ _ ih hr

/-- **Invariants of states**: what holds at the start and is preserved by every step holds in every
    state reached. -/
theorem Run.invariant {P : σ → Prop} (h0 : P s) (hstep : ∀ t a u, P t → R t a u → P u)
    (h : Run R s tr t) : P t :=
  Run.history (P := fun _ t => P t) h0 (fun _ t a u ht hr => hstep t a u ht hr) h

theorem Run.last (h : Run R s (tr ++ [a]) u) : ∃ t, Run R s tr t ∧ R t a u := by
  generalize hl : tr ++ [a] = l at h
  cases h with
  | nil => exact absurd hl (by simp)
  | snoc hrun hr =>
    obtain ⟨rfl, hlast⟩ := List.append_inj' hl rfl
    cases hlast
    exact ⟨_, hrun, hr⟩

theorem Run.cons (hr : R s a t) (h : Run R t tr u) : Run R s (a :: tr) u := by
  induction h with
  | nil => exact Run.nil.snoc hr
  | snoc _ hr' ih => exact ih.snoc hr'

theorem Run.append {tr' : List ℓ} (h : Run R s tr t) (h' : Run R t tr' u) :
    Run R s (tr ++ tr') u := by
  induction h' with
  | nil =>
    rw [List.append_nil]
    exact h
  | snoc _ hr ih =>
    rw [← List.append_assoc]
    exact ih.snoc hr

/-- A run over more steps than another: every step of the first is one of the second. -/
theorem Run.mono {R' : σ → ℓ → σ → Prop} (hsub : ∀ t a u, R t a u → R' t a u)
    (h : Run R s tr t) : Run R' s tr t := by
  induction h with
  | nil => exact Run.nil
  | snoc _ hr ih => exact ih.snoc (hsub _ _ _ hr)

end Relation

section Function

variable {σ ε ω : Type*}

/-- The step relation of a step function, labelled by event and output. -/
def Step (f : σ → ε → Option (σ × ω)) (s : σ) (a : ε × ω) (t : σ) : Prop :=
  f s a.1 = some (t, a.2)

/-- The steps of a step function taken in a state and on an event that meet the condition `ok`. -/
def Guarded (f : σ → ε → Option (σ × ω)) (ok : σ → ε → Prop) (s : σ) (a : ε × ω) (t : σ) : Prop :=
  ok s a.1 ∧ Step f s a t

theorem Run.of_guarded {f : σ → ε → Option (σ × ω)} {ok : σ → ε → Prop} {s t : σ}
    {tr : List (ε × ω)} (h : Run (Guarded f ok) s tr t) : Run (Step f) s tr t :=
  h.mono fun _ _ _ hg => hg.2

/-- **Guards that the labels show**: when in every reachable state a step meets the condition
    exactly if its label is good, the runs with good labels are the guarded runs. -/
theorem Run.guarded_iff {f : σ → ε → Option (σ × ω)} {ok : σ → ε → Prop} {good : ε × ω → Prop}
    {s t : σ} {tr : List (ε × ω)}
    (hiff : ∀ tr t a u, Run (Step f) s tr t → Step f t a u → (ok t a.1 ↔ good a))
    (h : Run (Step f) s tr t) : (∀ a ∈ tr, good a) ↔ Run (Guarded f ok) s tr t := by
  constructor
  · intro hgood
    induction h with
    | nil => exact Run.nil
    | snoc hrun hstep ih =>
      have hlast := hgood _ (List.mem_append_right _ (List.mem_singleton_self _))
      exact (ih fun a ha => hgood a (List.mem_append_left _ ha)).snoc
        ⟨(hiff _ _ _ _ hrun hstep).mpr hlast, hstep⟩
  · intro hguarded
    induction hguarded with
    | nil => exact fun a ha => nomatch ha
    | snoc hrun hstep ih =>
      intro a ha
      rcases List.mem_append.mp ha with hpast | hlast
      · exact ih hrun.of_guarded a hpast
      · rw [List.mem_singleton.mp hlast]
        exact (hiff _ _ _ _ hrun.of_guarded hstep.2).mp hstep.1

/-- Take a list of events; the result is the state reached and the labels of the run. -/
def exec (f : σ → ε → Option (σ × ω)) : σ → List ε → Option (σ × List (ε × ω))
  | s, [] => some (s, [])
  | s, e :: es =>
    match f s e with
    | none => none
    | some (t, o) => (exec f t es).map (fun r => (r.1, (e, o) :: r.2))

/-- An executed list of events is a run. -/
theorem run_of_exec {f : σ → ε → Option (σ × ω)} :
    ∀ (es : List ε) {s : σ} {r : σ × List (ε × ω)}, exec f s es = some r → Run (Step f) s r.2 r.1
  | [], s, r, h => by
    simp only [exec, Option.some.injEq] at h
    subst h
    exact Run.nil
  | e :: es, s, r, h => by
    simp only [exec] at h
    split at h
    · cases h
    · rename_i t o hf
      obtain ⟨r', hr', rfl⟩ := Option.map_eq_some_iff.mp h
      exact Run.cons (show Step f s (e, o) t from hf) (run_of_exec es hr')

theorem exec_events {f : σ → ε → Option (σ × ω)} :
    ∀ (es : List ε) {s : σ} {r : σ × List (ε × ω)}, exec f s es = some r → r.2.map Prod.fst = es
  | [], s, r, h => by
    simp only [exec, Option.some.injEq] at h
    subst h
    rfl
  | e :: es, s, r, h => by
    simp only [exec] at h
    split at h
    · cases h
    · obtain ⟨r', hr', rfl⟩ := Option.map_eq_some_iff.mp h
      exact congrArg (e :: ·) (exec_events es hr')

/-- An executed list of events that meet a condition in every state is a guarded run. -/
theorem guarded_run_of_exec {f : σ → ε → Option (σ × ω)} {ok : σ → ε → Prop} :
    ∀ (es : List ε) {s : σ} {r : σ × List (ε × ω)}, (∀ t, ∀ e ∈ es, ok t e) →
      exec f s es = some r → Run (Guarded f ok) s r.2 r.1
  | [], s, r, _, h => by
    simp only [exec, Option.some.injEq] at h
    subst h
    exact Run.nil
  | e :: es, s, r, hok, h => by
    simp only [exec] at h
    split at h
    · cases h
    · rename_i t o hf
      obtain ⟨r', hr', rfl⟩ := Option.map_eq_some_iff.mp h
      have hrest := guarded_run_of_exec es (fun t e he => hok t e (List.mem_cons_of_mem _ he)) hr'
      exact Run.cons ⟨hok s e List.mem_cons_self, hf⟩ hrest

/-- An executed list of events whose steps all meet a decidable condition is a guarded run. -/
theorem run_of_guarded_exec {f : σ → ε → Option (σ × ω)} {ok : σ → ε → Prop}
    [∀ s e, Decidable (ok s e)] (es : List ε) {s : σ} {r : σ × List (ε × ω)}
    (h : exec (fun s e => if ok s e then f s e else none) s es = some r) :
    Run (Guarded f ok) s r.2 r.1 := by
  refine (run_of_exec es h).mono fun t a u hstep => ?_
  by_cases hok : ok t a.1
  · exact ⟨hok, (if_pos hok).symm.trans hstep⟩
  · exact nomatch (if_neg hok).symm.trans hstep

/-- A step function with an observer, who takes notes of every step. -/
def observed {ν : Type*} (f : σ → ε → Option (σ × ω)) (note : ν → σ → ε → ω → σ → ν) (x : σ × ν)
    (e : ε) : Option ((σ × ν) × ω) :=
  (f x.1 e).map fun r => ((r.1, note x.2 x.1 e r.2 r.1), r.2)

/-- An observer does not interfere. -/
theorem step_observed {ν : Type*} {f : σ → ε → Option (σ × ω)} {note : ν → σ → ε → ω → σ → ν}
    {x y : σ × ν} {a : ε × ω} : Step (observed f note) x a y ↔
      Step f x.1 a y.1 ∧ y.2 = note x.2 x.1 a.1 a.2 y.1 := by
  obtain ⟨t, n⟩ := y
  obtain ⟨e, o⟩ := a
  unfold Step observed
  constructor
  · intro h
    obtain ⟨r, hr, heq⟩ := Option.map_eq_some_iff.mp h
    cases heq
    exact ⟨hr, rfl⟩
  · rintro ⟨hstep, hnote⟩
    dsimp only at hstep hnote
    subst hnote
    exact Option.map_eq_some_iff.mpr ⟨_, hstep, rfl⟩

variable (f : σ → ε → Option (σ × ω)) (ok : σ → ε → Prop) (s : σ)

/-- What holds at the end of an executed list of events holds at the end of a run. -/
theorem exists_run_of_exec (P : List (ε × ω) → σ → Prop) (es : List ε)
    (h : ∃ r ∈ exec f s es, P r.2 r.1) : ∃ tr t, Run (Step f) s tr t ∧ P tr t := by
  obtain ⟨r, hr, hP⟩ := h
  exact ⟨r.2, r.1, run_of_exec es hr, hP⟩

/-- The same of a list of events whose steps all meet a decidable condition. -/
theorem exists_run_of_guarded_exec [∀ s e, Decidable (ok s e)] (P : List (ε × ω) → σ → Prop)
    (es : List ε) (h : ∃ r ∈ exec (fun s e => if ok s e then f s e else none) s es, P r.2 r.1) :
    ∃ tr t, Run (Guarded f ok) s tr t ∧ P tr t := by
  obtain ⟨r, hr, hP⟩ := h
  exact ⟨r.2, r.1, run_of_guarded_exec es hr, hP⟩

omit s f ok in
/-- A list around one of its places. -/
theorem take_append_cons_drop {α : Type*} {l : List α} {n : Nat} {a : α} (h : l[n]? = some a) :
    l.take n ++ a :: l.drop (n + 1) = l := by
  obtain ⟨hn, rfl⟩ := List.getElem?_eq_some_iff.mp h
  rw [← List.drop_eq_getElem_cons hn, List.take_append_drop]

end Function

end Transition
