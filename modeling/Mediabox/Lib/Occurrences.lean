import Mathlib.Data.List.Infix
import Mathlib.Tactic.Common

/-!
# Occurrences of a list in another one

* `cut what l` — what is before and behind the first occurrence of `what` in `l`.
* `Splits what l ps` — `l` is cut at the leftmost occurrences of `what` that do not overlap into
  the pieces `ps`: each occurrence is the first one behind the one before, and there is none in the
  last piece.
* `pieces what l` — these pieces (`splits_pieces`), of which there is one list only
  (`Splits.unique`).
* `Splits.length_intercalate` — what another list between the pieces does to the length.
-/

set_option autoImplicit false

namespace Occurrences

variable {α : Type*}

/-- A list is cut at an occurrence of `what` that no other one starts before. -/
def First (what before rest : List α) : Prop :=
  ∀ b r, before ++ what ++ rest = b ++ what ++ r → before.length ≤ b.length

inductive Splits (what : List α) : List α → List (List α) → Prop
  | last (l : List α) (h : ¬what <:+: l) : Splits what l [l]
  | cut (before rest : List α) (ps : List (List α)) (hfirst : First what before rest)
      (hrest : Splits what rest ps) : Splits what (before ++ what ++ rest) (before :: ps)

variable {what l before rest b r : List α} {ps qs : List (List α)}

theorem First.unique (h : First what before rest) (h' : First what b r)
    (heq : before ++ what ++ rest = b ++ what ++ r) : before = b ∧ rest = r := by
  have hlen : before.length = b.length := Nat.le_antisymm (h b r heq) (h' before rest heq.symm)
  rw [List.append_assoc, List.append_assoc] at heq
  obtain ⟨hbefore, htail⟩ := List.append_inj heq hlen
  exact ⟨hbefore, List.append_cancel_left htail⟩

theorem Splits.unique (h : Splits what l ps) (h' : Splits what l qs) : ps = qs := by
  induction h generalizing qs with
  | last l h =>
    cases h' with
    | last => rfl
    | cut before rest ps => exact absurd ⟨before, rest, rfl⟩ h
  | cut before rest ps hfirst hrest ih =>
    generalize hl : before ++ what ++ rest = l at h'
    cases h' with
    | last _ h => exact absurd ⟨before, rest, hl⟩ h
    | cut b r qs hfirst' hrest' =>
      obtain ⟨rfl, rfl⟩ := hfirst.unique hfirst' hl
      rw [ih hrest']

theorem Splits.ne_nil (h : Splits what l ps) : ps ≠ [] := by
  cases h <;> exact List.cons_ne_nil _ _

/-- There is one piece if and only if nothing occurs. -/
theorem Splits.length_eq_one_iff (h : Splits what l ps) : ps.length = 1 ↔ ¬what <:+: l := by
  cases h with
  | last _ h => exact iff_of_true rfl h
  | cut before rest ps hfirst hrest =>
    refine iff_of_false (fun hlen => hrest.ne_nil ?_) fun h => h ⟨before, rest, rfl⟩
    exact List.length_eq_zero_iff.mp (Nat.succ.inj hlen)

theorem intercalate_singleton (sep l : List α) : sep.intercalate [l] = l := by
  simp [List.intercalate]

theorem intercalate_cons (sep l : List α) (h : ps ≠ []) :
    sep.intercalate (l :: ps) = l ++ sep ++ sep.intercalate ps := by
  obtain ⟨p, ps, rfl⟩ := List.exists_cons_of_ne_nil h
  simp [List.intercalate]

/-- **Replacing** changes the length by the difference for every occurrence. -/
theorem Splits.length_intercalate (h : Splits what l ps) (sep : List α) :
    (sep.intercalate ps).length + (ps.length - 1) * what.length =
      l.length + (ps.length - 1) * sep.length := by
  induction h with
  | last l => rw [intercalate_singleton, List.length_singleton, Nat.sub_self, Nat.zero_mul,
      Nat.zero_mul]
  | cut before rest ps _ hrest ih =>
    obtain ⟨c, hc⟩ := Nat.exists_eq_succ_of_ne_zero
      (mt List.length_eq_zero_iff.mp hrest.ne_nil)
    rw [hc, Nat.succ_sub_one] at ih
    rw [intercalate_cons sep before hrest.ne_nil]
    simp only [List.length_append, List.length_cons, hc, Nat.succ_eq_add_one,
      Nat.add_sub_cancel, Nat.add_mul, Nat.one_mul] at ih ⊢
    omega

section Search

variable [DecidableEq α]

/-- The first occurrence, as what is before and behind it. -/
def cut (what : List α) : List α → Option (List α × List α)
  | [] => if what = [] then some ([], []) else none
  | a :: l =>
    if what.isPrefixOf (a :: l) then some ([], (a :: l).drop what.length)
    else (cut what l).map fun p => (a :: p.1, p.2)

/-- The pieces, for a list of at most `n` elements. -/
def piecesFrom (what : List α) : Nat → List α → List (List α)
  | 0, l => [l]
  | n + 1, l =>
    match cut what l with
    | none => [l]
    | some (before, rest) => before :: piecesFrom what n rest

def pieces (what l : List α) : List (List α) := piecesFrom what l.length l

theorem cut_eq_none : cut what l = none ↔ ¬what <:+: l := by
  induction l with
  | nil =>
    rw [cut, List.infix_nil]
    split <;> simp [*]
  | cons a l ih =>
    rw [cut, List.infix_cons_iff, not_or, ← ih, ← List.isPrefixOf_iff_prefix]
    split <;> simp [*]

theorem cut_eq_some (h : cut what l = some (before, rest)) :
    l = before ++ what ++ rest ∧ First what before rest := by
  induction l generalizing before with
  | nil =>
    obtain ⟨rfl, ⟨⟩⟩ := Option.ite_none_right_eq_some.mp h
    exact ⟨rfl, fun _ _ _ => Nat.zero_le _⟩
  | cons a l ih =>
    rw [cut] at h
    split at h
    · rename_i hpre
      cases h
      refine ⟨?_, fun _ _ _ => Nat.zero_le _⟩
      rw [List.nil_append]
      exact (List.prefix_iff_eq_append.mp (List.isPrefixOf_iff_prefix.mp hpre)).symm
    · rename_i hpre
      obtain ⟨⟨before, rest⟩, hcut, ⟨⟩⟩ := Option.map_eq_some_iff.mp h
      obtain ⟨rfl, hfirst⟩ := ih hcut
      refine ⟨rfl, fun b r heq => ?_⟩
      cases b with
      | nil =>
        refine absurd (List.isPrefixOf_iff_prefix.mpr ⟨r, ?_⟩) hpre
        exact heq.symm
      | cons _ b =>
        rw [List.cons_append, List.cons_append, List.cons_append, List.cons_append,
          List.cons.injEq] at heq
        exact Nat.succ_le_succ (hfirst b r heq.2)

theorem cut_of_first (h : First what before rest) :
    cut what (before ++ what ++ rest) = some (before, rest) := by
  cases hcut : cut what (before ++ what ++ rest) with
  | none => exact absurd ⟨before, rest, rfl⟩ (cut_eq_none.mp hcut)
  | some p =>
    obtain ⟨heq, hfirst⟩ := cut_eq_some hcut
    obtain ⟨rfl, rfl⟩ := h.unique hfirst heq
    rfl

/-- **The pieces** are those of the leftmost occurrences, if there is something to search for. -/
theorem splits_pieces (hwhat : what ≠ []) (l : List α) : Splits what l (pieces what l) := by
  have hfrom (n : Nat) (l : List α) (hn : l.length ≤ n) : Splits what l (piecesFrom what n l) := by
    induction n generalizing l with
    | zero =>
      obtain rfl := List.length_eq_zero_iff.mp (Nat.le_zero.mp hn)
      exact .last [] (mt List.infix_nil.mp hwhat)
    | succ n ih =>
      rw [piecesFrom]
      split
      · rename_i hcut
        exact .last l (cut_eq_none.mp hcut)
      · rename_i before rest hcut
        obtain ⟨rfl, hfirst⟩ := cut_eq_some hcut
        refine .cut before rest _ hfirst (ih rest ?_)
        have hpos := List.length_pos_iff.mpr hwhat
        rw [List.length_append, List.length_append] at hn
        omega
  exact hfrom l.length l (Nat.le_refl _)

end Search

end Occurrences
