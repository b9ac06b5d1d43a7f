import Mathlib.Data.List.Basic

/-!
# The longest keyword

A table of keywords, each with a value, that is searched for the first keyword with which a text
starts.

* `Longest table text e` — `e` is an entry of a longest keyword.
* `longest_of_first` — the first match is a longest one, if no keyword with which the text starts
  comes after a beginning of its own; `first_ne_of_shadowed` — after its own beginning a keyword is
  never found.
* `find?_flatMap` — a search in two steps, when the first one can only be wrong where nothing else
  would be found.
-/

set_option autoImplicit false

namespace LongestPrefix

variable {α β γ δ : Type*}

structure Longest (table : List (List α × β)) (text : List α) (e : List α × β) : Prop where
  mem : e ∈ table
  isPrefix : e.1 <+: text
  longest : ∀ e' ∈ table, e'.1 <+: text → e'.1.length ≤ e.1.length

variable [DecidableEq α]

/-- The first keyword with which a text starts. -/
def first (table : List (List α × β)) (text : List α) : Option (List α × β) :=
  table.find? fun e => e.1 <+: text

variable {table as bs : List (List α × β)} {text : List α} {e e' : List α × β}

theorem first_eq_none_iff : first table text = none ↔ ∀ e ∈ table, ¬e.1 <+: text := by
  simp [first]

theorem mem_of_first (h : first table text = some e) : e ∈ table ∧ e.1 <+: text :=
  ⟨List.mem_of_find?_eq_some h, by simpa using List.find?_some h⟩

omit [DecidableEq α] in
/-- Of the keywords with which a text starts, the shorter one is the beginning of the other. -/
theorem Longest.isPrefix_of_isPrefix (h : Longest table text e) (he : e' ∈ table)
    (hstart : e'.1 <+: text) : e'.1 <+: e.1 :=
  List.prefix_of_prefix_length_le hstart h.isPrefix (h.longest e' he hstart)

/-- **The first keyword is a longest one**, unless the text starts with a later one that it
    begins. -/
theorem longest_of_first (h : table.Pairwise fun a b => a.1 <+: b.1 → ¬b.1 <+: text)
    (hfirst : first table text = some e) : Longest table text e := by
  obtain ⟨he, hstart⟩ := mem_of_first hfirst
  obtain ⟨-, before, after, rfl, hbefore⟩ := List.find?_eq_some_iff_append.mp hfirst
  refine ⟨he, hstart, fun e' he' hstart' => ?_⟩
  rcases List.mem_append.mp he' with hmem | hmem
  · exact absurd hstart' (by simpa using hbefore e' hmem)
  · rcases List.mem_cons.mp hmem with rfl | hmem
    · exact Nat.le_refl _
    · have hnot := List.rel_of_pairwise_cons (List.pairwise_append.mp h).2.1 hmem
      rcases List.prefix_or_prefix_of_prefix hstart hstart' with hle | hle
      · exact absurd hstart' (hnot hle)
      · exact hle.length_le

/-- **A keyword is shadowed** by its own beginning. -/
theorem first_ne_of_shadowed (htable : table = as ++ e' :: bs) (hstart : e'.1 <+: e.1)
    (hne : e ≠ e') (has : e ∉ as) : first table text ≠ some e := by
  intro hfirst
  have htext := (mem_of_first hfirst).2
  rw [first, htable, List.find?_append] at hfirst
  cases hbefore : as.find? fun e => e.1 <+: text with
  | some x =>
    rw [hbefore] at hfirst
    cases hfirst
    exact has (List.mem_of_find?_eq_some hbefore)
  | none =>
    rw [hbefore, List.find?_cons_of_pos (by simpa using hstart.trans htext)] at hfirst
    exact hne (Option.some.inj hfirst).symm

omit [DecidableEq α] in
/-- **Two steps**: the entries of a table are groups, and a group that is chosen without a match in
    it is followed by no match. -/
theorem find?_flatMap {cs : List γ} {group : γ → List δ} {p : γ → Bool} {q : δ → Bool}
    {choose : γ → Option δ}
    (hgroup : ∀ c ∈ cs, (group c).find? q = if p c then choose c else none)
    (hchosen : cs.Pairwise fun c c' => p c → choose c = none → ∀ e ∈ group c', ¬q e) :
    (cs.flatMap group).find? q = (cs.find? p).bind choose := by
  induction cs with
  | nil => rfl
  | cons c cs ih =>
    rw [List.forall_mem_cons] at hgroup
    rw [List.pairwise_cons] at hchosen
    rw [List.flatMap_cons, List.find?_append, hgroup.1, ih hgroup.2 hchosen.2]
    by_cases hp : p c
    · rw [if_pos hp, List.find?_cons_of_pos hp, Option.bind_some]
      cases hnone : choose c with
      | some d => rfl
      | none =>
        rw [Option.none_or, ← ih hgroup.2 hchosen.2, List.find?_eq_none]
        intro e he
        obtain ⟨c', hc', he⟩ := List.mem_flatMap.mp he
        exact hchosen.1 c' hc' hp hnone e he
    · rw [if_neg hp, List.find?_cons_of_neg hp, Option.none_or]

end LongestPrefix
