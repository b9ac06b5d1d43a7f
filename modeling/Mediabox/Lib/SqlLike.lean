import Mathlib.Data.List.Infix

/-!
# The operator `LIKE` of SQL

Patterns without an escape character: `%` stands for any string, `_` for any character, and a letter
of ASCII for itself in either case.

* `like` — the operator, executable; `Matches` — what it decides (`like_iff`).
* `Matches.refl` — a string matches itself as a pattern.
* `matches_concat_percent` — a pattern with `%` at its end is matched by the beginnings of strings.
-/

set_option autoImplicit false

namespace SqlLike

/-- `s LIKE p` -/
def like : List Char → List Char → Bool
  | [], s => s.isEmpty
  | c :: p, s =>
    if c = '%' then s.tails.any (like p)
    else
      match s with
      | [] => false
      | d :: s => (c = '_' || c.toLower = d.toLower) && like p s

/-- The string `s` is an instance of the pattern `p`. -/
inductive Matches : List Char → List Char → Prop
  | nil : Matches [] []
  | percent {p s : List Char} (u : List Char) : Matches p s → Matches ('%' :: p) (u ++ s)
  | underscore {p s : List Char} (d : Char) : Matches p s → Matches ('_' :: p) (d :: s)
  | char {p s : List Char} {c d : Char} (h : c.toLower = d.toLower) :
      Matches p s → Matches (c :: p) (d :: s)

variable {p p' s s' : List Char}

theorem like_percent : like ('%' :: p) s = s.tails.any (like p) := by
  rw [like.eq_def]
  exact if_pos rfl

theorem like_end {c : Char} (hc : c ≠ '%') : like (c :: p) [] = false := by
  rw [like.eq_def]
  exact if_neg hc

theorem like_char {c d : Char} (hc : c ≠ '%') :
    like (c :: p) (d :: s) = ((c = '_' || c.toLower = d.toLower) && like p s) := by
  rw [like.eq_def]
  exact if_neg hc

theorem matches_of_like (h : like p s = true) : Matches p s := by
  induction p generalizing s with
  | nil =>
    rw [List.isEmpty_iff.mp h]
    exact .nil
  | cons c p ih =>
    by_cases hc : c = '%'
    · rw [hc, like_percent] at h
      obtain ⟨v, hv, hlike⟩ := List.any_eq_true.mp h
      obtain ⟨u, rfl⟩ := (List.mem_tails v s).mp hv
      rw [hc]
      exact .percent u (ih hlike)
    · cases s with
      | nil =>
        rw [like_end hc] at h
        cases h
      | cons d s =>
        rw [like_char hc] at h
        obtain ⟨hchar, hrest⟩ := Bool.and_eq_true_iff.mp h
        rcases Bool.or_eq_true_iff.mp hchar with hany | hsame
        · rw [of_decide_eq_true hany]
          exact .underscore d (ih hrest)
        · exact .char (of_decide_eq_true hsame) (ih hrest)

theorem like_of_matches (h : Matches p s) : like p s = true := by
  induction h with
  | nil => rfl
  | @percent p s u _ ih =>
    rw [like_percent]
    exact List.any_eq_true.mpr ⟨s, (List.mem_tails s (u ++ s)).mpr (List.suffix_append u s), ih⟩
  | underscore d _ ih =>
    rw [like_char (by decide), ih]
    rfl
  | @char p s c d hsame _ ih =>
    by_cases hc : c = '%'
    · rw [hc, like_percent]
      exact List.any_eq_true.mpr
        ⟨s, (List.mem_tails s (d :: s)).mpr (List.suffix_cons d s), ih⟩
    · rw [like_char hc, ih, decide_eq_true hsame, Bool.or_true, Bool.and_true]

/-- **The operator decides what is an instance.** -/
theorem like_iff : like p s = true ↔ Matches p s := ⟨matches_of_like, like_of_matches⟩

theorem Matches.refl : ∀ p : List Char, Matches p p
  | [] => .nil
  | _ :: p => .char rfl (Matches.refl p)

theorem Matches.append (h : Matches p s) (h' : Matches p' s') : Matches (p ++ p') (s ++ s') := by
  induction h with
  | nil => exact h'
  | percent u _ ih =>
    rw [List.append_assoc]
    exact .percent u ih
  | underscore d _ ih => exact .underscore d ih
  | char hsame _ ih => exact .char hsame ih

theorem matches_percent (s : List Char) : Matches ['%'] s := by
  have h := Matches.percent s .nil
  rwa [List.append_nil] at h

theorem matches_append (h : Matches (p ++ p') s) :
    ∃ u v, s = u ++ v ∧ Matches p u ∧ Matches p' v := by
  induction p generalizing s with
  | nil => exact ⟨[], s, rfl, .nil, h⟩
  | cons c p ih =>
    cases h with
    | percent w hrest =>
      obtain ⟨u, v, rfl, hu, hv⟩ := ih hrest
      exact ⟨w ++ u, v, (List.append_assoc w u v).symm, .percent w hu, hv⟩
    | underscore d hrest =>
      obtain ⟨u, v, rfl, hu, hv⟩ := ih hrest
      exact ⟨d :: u, v, rfl, .underscore d hu, hv⟩
    | char hsame hrest =>
      obtain ⟨u, v, rfl, hu, hv⟩ := ih hrest
      exact ⟨_ :: u, v, rfl, .char hsame hu, hv⟩

/-- **A `%` at the end**: some beginning of the string is an instance of the rest. -/
theorem matches_concat_percent : Matches (p ++ ['%']) s ↔ ∃ u, u <+: s ∧ Matches p u := by
  constructor
  · intro h
    obtain ⟨u, v, rfl, hu, -⟩ := matches_append h
    exact ⟨u, List.prefix_append u v, hu⟩
  · rintro ⟨u, ⟨v, rfl⟩, hu⟩
    exact hu.append (matches_percent v)

end SqlLike
