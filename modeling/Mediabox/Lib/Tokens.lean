import Mathlib.Data.List.TakeWhile
import Mathlib.Tactic.Common

/-!
# Tokens

A text is cut at its separators, of which there may be several in a row, also at its ends.

* `tokens sep l` — the longest pieces without separators.
* `tokensInduction` — the induction rule: a text is empty, begins with a separator, is one token, or
  begins with a token and a separator.
* `trailing sep l` — how many separators the text ends with.
-/

set_option autoImplicit false

namespace Tokens

variable {α : Type*} {sep : α → Bool}

def tokens (sep : α → Bool) (l : List α) : List (List α) :=
  (l.splitOnP sep).filter fun t => !t.isEmpty

/-- A piece without separators. -/
def IsToken (sep : α → Bool) (t : List α) : Prop := t ≠ [] ∧ ∀ a ∈ t, sep a = false

def trailing (sep : α → Bool) (l : List α) : Nat := (l.reverse.takeWhile sep).length

variable {a d : α} {t l : List α}

theorem tokens_sep (ha : sep a = true) (l : List α) : tokens sep (a :: l) = tokens sep l := by
  rw [tokens, List.splitOnP_cons_eq_if_modifyHead, if_pos ha]
  rfl

theorem IsToken.isEmpty (h : IsToken sep t) : (!t.isEmpty) = true := by
  rw [List.isEmpty_eq_false_iff.mpr h.1]
  rfl

theorem tokens_token (h : IsToken sep t) (hd : sep d = true) (l : List α) :
    tokens sep (t ++ d :: l) = t :: tokens sep l := by
  rw [tokens, List.splitOnP_append_cons_of_forall_mem h.2 d hd, List.filter_cons, if_pos h.isEmpty]
  rfl

/-- A separator at the end adds no token. -/
theorem tokens_concat (hd : sep d = true) (l : List α) : tokens sep (l ++ [d]) = tokens sep l := by
  rw [tokens, List.splitOnP_append_cons l [] hd, List.filter_append]
  exact List.append_nil _

/-- **Induction on a text**, token by token. -/
theorem tokensInduction {motive : List α → Prop} (nil : motive [])
    (separator : ∀ a l, sep a = true → motive l → motive (a :: l))
    (last : ∀ t, IsToken sep t → motive t)
    (token : ∀ t d l, IsToken sep t → sep d = true → motive l → motive (t ++ d :: l)) :
    ∀ l, motive l
  | [] => nil
  | a :: l => by
    by_cases ha : sep a = true
    · exact separator a l ha (tokensInduction nil separator last token l)
    · have hsplit : (a :: l).takeWhile (fun b => !sep b) ++ (a :: l).dropWhile (fun b => !sep b) =
          a :: l := List.takeWhile_append_dropWhile
      have htoken : IsToken sep ((a :: l).takeWhile fun b => !sep b) := by
        refine ⟨by simp [ha], fun b hb => ?_⟩
        simpa using List.mem_takeWhile_imp hb
      have hlen := congrArg List.length hsplit
      cases hrest : (a :: l).dropWhile (fun b => !sep b) with
      | nil =>
        rw [hrest, List.append_nil] at hsplit
        exact hsplit ▸ last _ htoken
      | cons d rest =>
        have hd : sep d = true := by
          have hhead := List.head?_dropWhile_not (fun b => !sep b) (a :: l)
          simpa [hrest] using hhead
        rw [hrest] at hsplit hlen
        rw [List.length_append, List.length_cons, List.length_cons] at hlen
        have hshort : rest.length < l.length + 1 := by omega
        exact hsplit ▸ token _ d rest htoken hd (tokensInduction nil separator last token rest)
termination_by l => l.length

end Tokens
