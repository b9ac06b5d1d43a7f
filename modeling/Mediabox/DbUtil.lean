import Mediabox.Lib.Outcome
import Mediabox.SettingsMap

/-!
# Escaping for SQL (`src/lib/db_util.c`)

`avbox_dbutil_escapesql` counts in one pass and writes in another.  A string is its characters and
the terminator, a pointer into it what is left from there on, and the buffer knows its size, so that
a read or a write past the end shows.

Main result: `escapesql_escaped`.
-/

set_option autoImplicit false

namespace Mediabox.DbUtil

open Outcome SqlText

/-! ## The code -/

inductive Fault where
  /-- a character behind the string is read -/
  | past
  /-- a character behind the buffer is written -/
  | full
  deriving DecidableEq, Repr

/-- What `malloc` returned, and what was written to it. -/
structure Buffer where
  size : Nat
  text : Text
  deriving DecidableEq, Repr

/-- `*psafesql++ = c` -/
def Buffer.write (b : Buffer) (c : Char) : Except Fault Buffer :=
  if b.text.length < b.size then .ok { b with text := b.text ++ [c] } else .error .full

/-- The first loop, with `safesql_len`. -/
def countLoop : Text → Nat → Except Fault Nat
  | [], _ => .error .past
  | c :: psql, len =>
    if c = '\x00' then .ok len
    else countLoop psql (if c = '\'' then len + 2 else len + 1)

/-- The second loop, and the terminator. -/
def copyLoop : Text → Buffer → Except Fault Buffer
  | [], _ => .error .past
  | c :: psql, b =>
    if c = '\x00' then b.write '\x00'
    else do
      let b ← if c = '\'' then b.write '\'' else .ok b
      let b ← b.write c
      copyLoop psql b

/-- `avbox_dbutil_escapesql`: `none` is NULL. -/
def escapesql (malloc : Bool) (sql : Text) : Except Fault (Option Buffer) := do
  let len ← countLoop sql 0
  if !malloc then .ok none
  else
    let b ← copyLoop sql ⟨len + 1, []⟩
    .ok (some b)

/-! ## What it is for -/

/-- The lengths of the maximal runs of quotes, after `n` quotes. -/
def quoteRunsFrom (n : Nat) : Text → List Nat
  | [] => if n = 0 then [] else [n]
  | c :: s =>
    if c = '\'' then quoteRunsFrom (n + 1) s
    else (if n = 0 then [] else [n]) ++ quoteRunsFrom 0 s

/-- The lengths of the maximal runs of quotes. -/
def quoteRuns (s : Text) : List Nat := quoteRunsFrom 0 s

example : quoteRuns "it''s '".toList = [2, 1] := by decide

/-- A buffer that holds an escaped string. -/
structure Escaped (s : Text) (b : Buffer) (t : Text) : Prop where
  /-- the allocation is what is written -/
  size : b.size = b.text.length
  text : b.text = t ++ ['\x00']
  terminator : '\x00' ∉ t
  runs : quoteRuns t = (quoteRuns s).map (2 * ·)
  /-- inside a literal it is read as the string, and the literal goes on -/
  literal : ∀ tokens, lexFrom ⟨tokens, .quoted []⟩ t = ⟨tokens, .quoted s⟩
  /-- it is what the settings are stored with -/
  settings : t = Settings.escapesql s

variable {s : Text} {malloc : Bool}

/-! ## The two passes -/

theorem countLoop_eq (hs : '\x00' ∉ s) (len : Nat) :
    countLoop (s ++ ['\x00']) len = .ok (len + (escape s).length) := by
  induction s generalizing len with
  | nil => rfl
  | cons c s ih =>
    rw [List.mem_cons, not_or] at hs
    rw [List.cons_append, countLoop, if_neg (Ne.symm hs.1), ih hs.2, escape_cons,
      List.length_append]
    split
    · rw [List.length_cons, List.length_singleton, Nat.add_assoc]
    · rw [List.length_singleton, Nat.add_assoc]

theorem write_eq {b : Buffer} (c : Char) (h : b.text.length < b.size) :
    b.write c = .ok { b with text := b.text ++ [c] } := if_pos h

/-- **The second pass** writes the escaped string, if there is room for it. -/
theorem copyLoop_eq (hs : '\x00' ∉ s) {b : Buffer}
    (hroom : b.text.length + (escape s).length < b.size) :
    copyLoop (s ++ ['\x00']) b = .ok { b with text := b.text ++ escape s ++ ['\x00'] } := by
  induction s generalizing b with
  | nil =>
    rw [List.nil_append, copyLoop, if_pos rfl, write_eq _ hroom]
    simp [escape]
  | cons c s ih =>
    rw [List.mem_cons, not_or] at hs
    rw [escape_cons, List.length_append] at hroom
    rw [List.cons_append, copyLoop, if_neg (Ne.symm hs.1), escape_cons]
    by_cases hc : c = '\''
    · rw [if_pos hc, List.length_cons, List.length_singleton] at hroom
      rw [if_pos hc, if_pos hc, write_eq _ (by omega)]
      simp only [bind, Except.bind]
      rw [write_eq _ (by simp only [List.length_append, List.length_singleton]; omega)]
      dsimp only
      rw [ih hs.2 (by simp only [List.length_append, List.length_singleton]; omega)]
      simp [hc]
    · rw [if_neg hc, List.length_singleton] at hroom
      rw [if_neg hc, if_neg hc]
      simp only [bind, Except.bind]
      rw [write_eq _ (by omega)]
      dsimp only
      rw [ih hs.2 (by simp only [List.length_append, List.length_singleton]; omega)]
      simp

/-! ## Runs of quotes -/

/-- **Every run is doubled**, also the one that the text continues. -/
theorem quoteRunsFrom_escape (n : Nat) (s : Text) :
    quoteRunsFrom (2 * n) (escape s) = (quoteRunsFrom n s).map (2 * ·) := by
  induction s generalizing n with
  | nil =>
    by_cases hn : n = 0
    · simp [escape, quoteRunsFrom, hn]
    · simp [escape, quoteRunsFrom, hn]
  | cons c s ih =>
    rw [escape_cons]
    by_cases hc : c = '\''
    · have hnext : quoteRunsFrom (2 * n + 1 + 1) (escape s) =
          (quoteRunsFrom (n + 1) s).map (2 * ·) := ih (n + 1)
      simpa [quoteRunsFrom, hc] using hnext
    · have hnext : quoteRunsFrom 0 (escape s) = (quoteRunsFrom 0 s).map (2 * ·) := ih 0
      by_cases hn : n = 0
      · simpa [quoteRunsFrom, hc, hn] using hnext
      · simpa [quoteRunsFrom, hc, hn] using hnext

theorem mem_of_mem_escape {c : Char} (h : c ∈ escape s) : c ∈ s := by
  obtain ⟨d, hd, hc⟩ := List.mem_flatMap.mp h
  split at hc
  · rename_i hquote
    have : c = d := by simpa [hquote] using hc
    exact this ▸ hd
  · exact List.mem_singleton.mp hc ▸ hd

/-- **Escaping**: the buffer is as long as what is written to it, its runs of quotes are twice as
    long, and an SQL literal with it is the literal of the string. -/
theorem escapesql_escaped (hs : '\x00' ∉ s) :
    Ensures (escapesql malloc (s ++ ['\x00']))
      (fun r => if malloc then ∃ b t, r = some b ∧ Escaped s b t else r = none)
      fun _ => False := by
  rw [escapesql, ensures_bind, countLoop_eq hs, ensures_ok, Nat.zero_add]
  cases malloc with
  | false => exact rfl
  | true =>
    have hroom : ([] : Text).length + (escape s).length < (escape s).length + 1 := by
      rw [List.length_nil, Nat.zero_add]
      exact Nat.lt_succ_self _
    rw [Bool.not_true, if_neg Bool.false_ne_true, ensures_bind,
      copyLoop_eq (b := ⟨(escape s).length + 1, []⟩) hs hroom]
    refine ⟨_, escape s, rfl, ⟨?_, rfl, fun h => hs (mem_of_mem_escape h),
      quoteRunsFrom_escape 0 s, fun tokens => lexFrom_escape tokens [] s,
      (Settings.escapesql_eq s).symm⟩⟩
    rw [List.nil_append, List.length_append, List.length_singleton]

/-- A name with two quotes. -/
theorem escapesql_escaped_quotes :
    Ensures (escapesql true ("don''t".toList ++ ['\x00']))
      (fun r => if true then ∃ b t, r = some b ∧ Escaped "don''t".toList b t else r = none)
      fun _ => False :=
  escapesql_escaped (by decide)

end Mediabox.DbUtil
