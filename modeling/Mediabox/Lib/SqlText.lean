import Mathlib.Data.List.Basic
import Mathlib.Tactic.Common

/-!
# SQL text with quoted strings

The lexical part of SQL that matters for statements built by pasting strings into a text: words,
punctuation, and string literals in which a quote is written twice.

* `tokenize` — the tokens of a text, or nothing if it ends inside a literal; `lexFrom` is the
  automaton behind it, so that a text that was cut off is lexed like its uncut beginning.
* `escape` — double the quotes.
* `lexFrom_escape` — an escaped string between two quotes is the literal of that string.
* `lexFrom_cut` — an escaped string that is cut off ends inside the literal, unless the cut falls
  between the two halves of a doubled quote: then the literal ends there.
-/

set_option autoImplicit false

namespace SqlText

abbrev Text := List Char

inductive Token where
  | word (w : Text)
  | str (s : Text)
  | sym (c : Char)
  deriving DecidableEq, Repr

/-- Where the lexer stands. -/
inductive Mode where
  /-- outside of literals, after this much of a word -/
  | plain (w : Text)
  /-- inside a literal -/
  | quoted (s : Text)
  /-- after a quote inside a literal: its end, or the first half of a doubled quote -/
  | quote (s : Text)
  deriving DecidableEq, Repr

structure Lex where
  tokens : List Token
  mode : Mode
  deriving DecidableEq, Repr

def wordChar (c : Char) : Bool := c.isAlphanum || c = '_'

/-- The end of a word. -/
def flush (tokens : List Token) (w : Text) : List Token :=
  if w = [] then tokens else tokens ++ [Token.word w]

def lexPlain (tokens : List Token) (w : Text) (c : Char) : Lex :=
  if c = '\'' then ⟨flush tokens w, .quoted []⟩
  else if wordChar c then ⟨tokens, .plain (w ++ [c])⟩
  else if c.isWhitespace then ⟨flush tokens w, .plain []⟩
  else ⟨flush tokens w ++ [Token.sym c], .plain []⟩

def lexChar (l : Lex) (c : Char) : Lex :=
  match l.mode with
  | .plain w => lexPlain l.tokens w c
  | .quoted s => if c = '\'' then ⟨l.tokens, .quote s⟩ else ⟨l.tokens, .quoted (s ++ [c])⟩
  | .quote s =>
    if c = '\'' then ⟨l.tokens, .quoted (s ++ ['\''])⟩ else lexPlain (l.tokens ++ [Token.str s]) [] c

def lexFrom (l : Lex) (text : Text) : Lex := text.foldl lexChar l

def start : Lex := ⟨[], .plain []⟩

def Lex.finish (l : Lex) : Option (List Token) :=
  match l.mode with
  | .plain w => some (flush l.tokens w)
  | .quoted _ => none
  | .quote s => some (l.tokens ++ [Token.str s])

def tokenize (text : Text) : Option (List Token) := (lexFrom start text).finish

/-- Write every quote twice. -/
def escape (s : Text) : Text := s.flatMap fun c => if c = '\'' then ['\'', '\''] else [c]

theorem escape_cons (c : Char) (s : Text) :
    escape (c :: s) = (if c = '\'' then ['\'', '\''] else [c]) ++ escape s := rfl

theorem escape_append (s t : Text) : escape (s ++ t) = escape s ++ escape t :=
  List.flatMap_append

theorem escape_of_no_quote {s : Text} (h : '\'' ∉ s) : escape s = s := by
  induction s with
  | nil => rfl
  | cons c s ih =>
    rw [List.mem_cons, not_or] at h
    rw [escape_cons, if_neg (Ne.symm h.1), ih h.2, List.singleton_append]

theorem lexFrom_append (l : Lex) (s t : Text) : lexFrom l (s ++ t) = lexFrom (lexFrom l s) t :=
  List.foldl_append

/-- **Escaped text is read back**: inside a literal it adds the string it came from. -/
theorem lexFrom_escape (tokens : List Token) (a s : Text) :
    lexFrom ⟨tokens, .quoted a⟩ (escape s) = ⟨tokens, .quoted (a ++ s)⟩ := by
  induction s generalizing a with
  | nil => simp [escape, lexFrom]
  | cons c s ih =>
    have hnext : lexFrom ⟨tokens, .quoted (a ++ [c])⟩ (escape s) =
        ⟨tokens, .quoted (a ++ c :: s)⟩ := by
      rw [ih, List.append_assoc, List.singleton_append]
    rw [escape_cons, lexFrom_append]
    by_cases hc : c = '\''
    · rw [if_pos hc]
      simpa [lexFrom, lexChar, hc] using hnext
    · rw [if_neg hc]
      simpa [lexFrom, lexChar, hc] using hnext

/-- The first `n` chars of the escaped string end with the first half of a doubled quote; `p` comes
    before it. -/
def CutsQuote (s : Text) (n : Nat) (p : Text) : Prop :=
  ∃ rest, s = p ++ '\'' :: rest ∧ (escape p).length + 1 = n

theorem CutsQuote.ne {s p : Text} {n : Nat} (h : CutsQuote s n p) : p ≠ s := by
  obtain ⟨rest, hs, _⟩ := h
  intro heq
  have hlen := congrArg List.length hs
  rw [← heq, List.length_append, List.length_cons] at hlen
  omega

theorem CutsQuote.lt {s p : Text} {n : Nat} (h : CutsQuote s n p) : n < (escape s).length := by
  obtain ⟨rest, rfl, hn⟩ := h
  rw [escape_append, List.length_append, escape_cons, List.length_append]
  simp only [↓reduceIte, List.length_cons, List.length_nil]
  omega

theorem CutsQuote.cons {c : Char} {s p : Text} {n : Nat} (h : CutsQuote s n p) :
    CutsQuote (c :: s) (n + if c = '\'' then 2 else 1) (c :: p) := by
  obtain ⟨rest, rfl, hn⟩ := h
  refine ⟨rest, rfl, ?_⟩
  rw [escape_cons, List.length_append]
  split <;> simp <;> omega

/-- A cut that does not fall into the first character falls into the rest. -/
theorem CutsQuote.of_cons {c : Char} {s p : Text} {n : Nat}
    (h : CutsQuote (c :: s) (n + if c = '\'' then 2 else 1) p) : ∃ q, CutsQuote s n q := by
  obtain ⟨rest, heq, hn⟩ := h
  cases p with
  | nil =>
    obtain ⟨rfl, rfl⟩ := List.cons.inj heq
    simp [escape] at hn
  | cons d p =>
    obtain ⟨rfl, hs⟩ := List.cons.inj heq
    refine ⟨p, rest, hs, ?_⟩
    rw [escape_cons, List.length_append] at hn
    split at hn <;> simp_all <;> omega

/-- **A cut ends inside the literal or between the halves of a doubled quote.** -/
theorem lexFrom_cut (tokens : List Token) (a s : Text) (n : Nat) (hn : n ≤ (escape s).length) :
    (∃ p, CutsQuote s n p ∧
      lexFrom ⟨tokens, .quoted a⟩ ((escape s).take n) = ⟨tokens, .quote (a ++ p)⟩) ∨
    ((∀ p, ¬CutsQuote s n p) ∧
      ∃ b, lexFrom ⟨tokens, .quoted a⟩ ((escape s).take n) = ⟨tokens, .quoted b⟩) := by
  induction s generalizing a n with
  | nil =>
    refine Or.inr ⟨?_, a, by simp [escape, lexFrom]⟩
    rintro p ⟨rest, heq, _⟩
    exact absurd heq (by simp)
  | cons c s ih =>
    -- past the first character the rest of the string is cut
    have hpast (m : Nat) (hm : n = m + if c = '\'' then 2 else 1)
        (htake : lexFrom ⟨tokens, .quoted a⟩ ((escape (c :: s)).take n) =
          lexFrom ⟨tokens, .quoted (a ++ [c])⟩ ((escape s).take m)) (hle : m ≤ (escape s).length) :
        (∃ p, CutsQuote (c :: s) n p ∧
          lexFrom ⟨tokens, .quoted a⟩ ((escape (c :: s)).take n) = ⟨tokens, .quote (a ++ p)⟩) ∨
        ((∀ p, ¬CutsQuote (c :: s) n p) ∧
          ∃ b, lexFrom ⟨tokens, .quoted a⟩ ((escape (c :: s)).take n) = ⟨tokens, .quoted b⟩) := by
      rw [htake]
      subst hm
      rcases ih (a ++ [c]) m hle with ⟨p, hp, hlex⟩ | ⟨hno, b, hlex⟩
      · exact Or.inl ⟨c :: p, hp.cons, by rw [hlex, List.append_assoc, List.singleton_append]⟩
      · refine Or.inr ⟨fun p hp => ?_, b, hlex⟩
        obtain ⟨q, hq⟩ := hp.of_cons
        exact hno q hq
    rw [escape_cons, List.length_append] at hn
    by_cases hc : c = '\''
    · subst hc
      simp only [↓reduceIte, List.length_cons, List.length_nil] at hn hpast
      match n, hn, hpast with
      | 0, _, _ =>
        refine Or.inr ⟨?_, a, rfl⟩
        rintro p ⟨rest, _, hp⟩
        omega
      | 1, _, _ => exact Or.inl ⟨[], ⟨s, rfl, rfl⟩, by simp [escape, lexFrom, lexChar]⟩
      | m + 2, hn, hpast =>
        refine hpast m rfl ?_ (by omega)
        simp [escape_cons, lexFrom, lexChar]
    · simp only [hc, ↓reduceIte, List.length_cons, List.length_nil] at hn hpast
      match n, hn, hpast with
      | 0, _, _ =>
        refine Or.inr ⟨?_, a, rfl⟩
        rintro p ⟨rest, _, hp⟩
        omega
      | m + 1, hn, hpast =>
        refine hpast m rfl ?_ (by omega)
        simp [escape_cons, lexFrom, lexChar, hc]

end SqlText
