import Mathlib.Tactic.Common

/-!
# Counting loops of fallible code

`for (i = first; i < last; i++) s = body(i, s)`, where the body may fail.

* `forUp_succ`, `forUp_empty` — the first turn of a loop, and no turn.
* `forUp_ok` — the invariant rule: when every turn succeeds and keeps the invariant, the loop
  succeeds and the invariant holds at its end.
* `forUp_total` — a loop whose turns all succeed.
* `forUp_error` — a turn that fails from every state, after turns that succeed, is the failure of
  the loop.
* `forUp_map` — the simulation rule: a loop whose state is computed from that of another loop.
-/

set_option autoImplicit false

namespace Loop

universe u v w

variable {ε : Type u} {σ : Type v} {τ : Type w}

/-- `n` turns from `i` on. -/
def turns (body : Int → σ → Except ε σ) : Nat → Int → σ → Except ε σ
  | 0, _, s => .ok s
  | n + 1, i, s =>
    match body i s with
    | .ok s => turns body n (i + 1) s
    | .error e => .error e

/-- `for (i = first; i < last; i++) s = body(i, s)` -/
def forUp (body : Int → σ → Except ε σ) (first last : Int) (s : σ) : Except ε σ :=
  turns body (last - first).toNat first s

variable {body : Int → σ → Except ε σ} {first last : Int} {s : σ}

theorem forUp_empty (h : last ≤ first) : forUp body first last s = .ok s := by
  unfold forUp
  rw [Int.toNat_of_nonpos (by omega)]
  rfl

theorem forUp_succ (h : first < last) :
    forUp body first last s =
      match body first s with
      | .ok s => forUp body (first + 1) last s
      | .error e => .error e := by
  have hn : (last - first).toNat = (last - (first + 1)).toNat + 1 := by omega
  unfold forUp
  rw [hn]
  rfl

/-- **The invariant rule**: `P i s` holds of the state before turn `i`. -/
theorem forUp_ok (P : Int → σ → Prop) (hle : first ≤ last) (h : P first s)
    (hturn : ∀ i s, first ≤ i → i < last → P i s → ∃ s', body i s = .ok s' ∧ P (i + 1) s') :
    ∃ s', forUp body first last s = .ok s' ∧ P last s' := by
  obtain ⟨n, hn⟩ : ∃ n : Nat, last = first + n := ⟨(last - first).toNat, by omega⟩
  induction n generalizing first s with
  | zero =>
    have heq : first = last := by omega
    subst heq
    exact ⟨s, forUp_empty (Int.le_refl _), h⟩
  | succ n ih =>
    obtain ⟨s₁, hbody, h₁⟩ := hturn first s (Int.le_refl _) (by omega) h
    have hrest : ∀ i s, first + 1 ≤ i → i < last → P i s →
        ∃ s', body i s = .ok s' ∧ P (i + 1) s' := fun i s hi => hturn i s (by omega)
    obtain ⟨s', hloop, h'⟩ := ih (by omega) h₁ hrest (by omega)
    refine ⟨s', ?_, h'⟩
    rw [forUp_succ (by omega), hbody]
    exact hloop

theorem forUp_total (hturn : ∀ i s, first ≤ i → i < last → ∃ s', body i s = .ok s') :
    ∃ s', forUp body first last s = .ok s' := by
  rcases Int.le_total first last with hle | hge
  · obtain ⟨s', hloop, -⟩ := forUp_ok (s := s) (fun _ _ => True) hle trivial
      fun i s hi hlt _ => (hturn i s hi hlt).imp fun _ h => ⟨h, trivial⟩
    exact ⟨s', hloop⟩
  · exact ⟨s, forUp_empty hge⟩

/-- **A turn that fails** is reached when those before it succeed. -/
theorem forUp_error {m : Int} {e : ε} (hm : first ≤ m) (hlast : m < last)
    (hturn : ∀ i s, first ≤ i → i < m → ∃ s', body i s = .ok s')
    (hfail : ∀ s, body m s = .error e) : forUp body first last s = .error e := by
  obtain ⟨n, hn⟩ : ∃ n : Nat, m = first + n := ⟨(m - first).toNat, by omega⟩
  induction n generalizing first s with
  | zero =>
    have heq : first = m := by omega
    subst heq
    rw [forUp_succ hlast, hfail]
  | succ n ih =>
    obtain ⟨s₁, hbody⟩ := hturn first s (Int.le_refl _) (by omega)
    rw [forUp_succ (by omega), hbody]
    exact ih (by omega) (fun i s hi => hturn i s (by omega)) (by omega)

/-- **The simulation rule**: turns that agree under `f` make loops that agree under `f`. -/
theorem forUp_map {body' : Int → τ → Except ε τ} {f : σ → τ}
    (hturn : ∀ i s, body' i (f s) = (body i s).map f) (first last : Int) (s : σ) :
    forUp body' first last (f s) = (forUp body first last s).map f := by
  unfold forUp
  generalize (last - first).toNat = n
  induction n generalizing first s with
  | zero => rfl
  | succ n ih =>
    unfold turns
    rw [hturn]
    cases body first s with
    | error e => rfl
    | ok s₁ => exact ih (first + 1) s₁

end Loop
