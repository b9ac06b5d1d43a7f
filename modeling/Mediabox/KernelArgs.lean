import Mathlib.Data.List.Basic
import Mediabox.Lib.Outcome
import Mediabox.Lib.Tokens

/-!
# The kernel's command line (`src/lib/application.c`)

`parse_kernel_args` makes an argument of every token `mediabox.…` of `/proc/cmdline`.

* The buffer is what the loop has passed and what is before it; the loop writes a NUL for each
  blank, so that a token is the string at its first character.
* `malloc` number `i` succeeds if `alloc i` does: number 0 is for `argv`, number `i + 1` for
  `argv[i]`.  Blocks that are not freed are known by these numbers.

Main result: `parse_parsed_iff`.
-/

set_option autoImplicit false

namespace Mediabox.KernelArgs

open Outcome Tokens

abbrev CString := List Char

/-! ## The code -/

/-- `CMDLINE_MAX` -/
def cmdlineMax : Nat := 1024

/-- `ARGS_MAX` -/
def argsMax : Nat := 10

inductive Errno where
  | e2big
  | enomem
  /-- that of a system call -/
  | other
  deriving DecidableEq, Repr

inductive Stop where
  /-- NULL is returned; these blocks were not freed -/
  | null (errno : Errno) (live : List Nat)
  /-- the command line does not end with a newline, or the string is as long as its buffer -/
  | assert
  /-- `sprintf` writes more than the buffer holds -/
  | overflow
  deriving DecidableEq, Repr

/-- `argv`, whose length is `*argc`, and the blocks that are allocated. -/
structure Args where
  argv : List CString
  live : List Nat
  deriving DecidableEq, Repr

/-- At the label `err`. -/
def freeArgs (a : Args) : List Nat :=
  a.live.filter fun b => !(b == 0 || (b ≤ argsMax && b ≤ a.argv.length))

/-- `strncmp("mediabox.", arg, 9)` -/
def own (arg : CString) : Bool := "mediabox.".toList.isPrefixOf arg

/-- `"--%s"` -/
def option (arg : CString) : CString := "--".toList ++ arg.drop 9

/-- A token of `n` characters. -/
def handle (alloc : Nat → Bool) (n : Nat) (arg : CString) (a : Args) : Except Stop Args :=
  let argc := a.argv.length
  if argc < argsMax && own arg then
    if !alloc (argc + 1) then .error (.null .enomem (freeArgs a))
    else if (n : Int) - 6 < (option arg).length + 1 then .error .overflow
    else if ¬(n : Int) - 6 > (option arg).length then .error .assert
    else .ok ⟨a.argv ++ [option arg], a.live ++ [argc + 1]⟩
  else if argc ≥ argsMax then .error (.null .e2big (freeArgs a))
  else .ok a

/-- What the loop has passed, the place of the token, and its length so far. -/
structure Scan where
  left : CString
  arg : Nat
  n : Nat
  deriving DecidableEq, Repr

/-- The string at `&buf[i]`. -/
def stringAt (buf : CString) (i : Nat) : CString := (buf.drop i).takeWhile (· != '\x00')

def blank (c : Char) : Bool := c == ' ' || c == '\n'

/-- The loop, with what is before it. -/
def scan (alloc : Nat → Bool) : CString → Scan → Args → Except Stop Args
  | [], _, a => .ok a
  | c :: right, s, a =>
    if !blank c then
      scan alloc right
        ⟨s.left ++ [c], if s.n = 0 then s.left.length else s.arg, s.n + 1⟩ a
    else
      let left := s.left ++ ['\x00']
      if s.n > 0 then do
        let a ← handle alloc s.n (stringAt (left ++ right) s.arg) a
        scan alloc right ⟨left, s.arg, 0⟩ a
      else scan alloc right ⟨left, s.arg, s.n⟩ a

/-- What the function finds outside. -/
structure Env where
  mount : Bool
  opened : Bool
  /-- `/proc/cmdline` -/
  cmdline : CString
  alloc : Nat → Bool

/-- `parse_kernel_args` -/
def parse (env : Env) (prog : CString) : Except Stop Args :=
  if !env.mount then .error (.null .other [])
  else if !env.opened then .error (.null .other [])
  else
    let buf := env.cmdline.take (cmdlineMax - 2)
    if buf.length = cmdlineMax - 2 then .error (.null .e2big [])
    else if buf.getLast? ≠ some '\n' then .error .assert
    else if !env.alloc 0 then .error (.null .enomem [])
    else if !env.alloc 1 then .error (.null .enomem [0])
    else scan env.alloc (buf.dropLast ++ [' ']) ⟨[], 0, 0⟩ ⟨[prog], [0, 1]⟩

/-! ## What it is for -/

/-- The program's own tokens. -/
def ownTokens (cmdline : CString) : List CString := (tokens blank cmdline).filter own

/-- The arguments are returned, or there are too many and everything is freed. -/
def Parsed (cmdline prog : CString) (r : Except Stop Args) : Prop :=
  if (ownTokens cmdline).length ≤ 9 then
    Ensures r (fun a => a.argv = prog :: (ownTokens cmdline).map option) fun _ => False
  else r = .error (.null .e2big [])

/-- What is allocated is there, and after nine arguments of its own no other token follows. -/
structure Granted (env : Env) : Prop where
  alloc : ∀ i ≤ min 9 (ownTokens env.cmdline).length + 1, env.alloc i = true
  last : (ownTokens env.cmdline).length = 9 →
    ∀ t, (tokens blank env.cmdline).getLast? = some t → own t = true

variable {alloc : Nat → Bool} {t l left prog : CString} {a : Args} {s : Scan} {ts : List CString}

/-! ## One token -/

/-- What the loop does to a token. -/
def accept (alloc : Nat → Bool) (a : Args) (t : CString) : Except Stop Args :=
  handle alloc t.length t a

theorem own_length (h : own t = true) : 9 ≤ t.length := by
  have hpre := List.isPrefixOf_iff_prefix.mp h
  exact hpre.length_le

/-- The rest of a token is passed. -/
theorem scan_rest (ht : ∀ c ∈ t, blank c = false) (right : CString) {left : CString} {arg n : Nat}
    (hn : n ≠ 0) :
    scan alloc (t ++ right) ⟨left, arg, n⟩ a =
      scan alloc right ⟨left ++ t, arg, n + t.length⟩ a := by
  induction t generalizing left n with
  | nil => rw [List.nil_append, List.append_nil, List.length_nil, Nat.add_zero]
  | cons c t ih =>
    rw [List.forall_mem_cons] at ht
    rw [List.cons_append, scan, ht.1, Bool.not_false, if_pos rfl]
    have hlen : n + 1 + t.length = n + (c :: t).length := by
      rw [List.length_cons]
      omega
    dsimp only
    rw [if_neg hn, ih ht.2 (n := n + 1) (Nat.succ_ne_zero n), hlen, List.append_assoc,
      List.singleton_append]

/-- **A token** is passed, and the place where it begins is known. -/
theorem scan_token (ht : IsToken blank t) (right left : CString) (arg : Nat) :
    scan alloc (t ++ right) ⟨left, arg, 0⟩ a =
      scan alloc right ⟨left ++ t, left.length, t.length⟩ a := by
  obtain ⟨hne, hblank⟩ := ht
  cases t with
  | nil => exact absurd rfl hne
  | cons c t =>
    rw [List.forall_mem_cons] at hblank
    rw [List.cons_append, scan, hblank.1, Bool.not_false, if_pos rfl]
    have hlen : 0 + 1 + t.length = (c :: t).length := by
      rw [List.length_cons]
      omega
    dsimp only
    rw [if_pos rfl, scan_rest hblank.2 right (n := 0 + 1) (Nat.succ_ne_zero 0), hlen,
      List.append_assoc, List.singleton_append]

/-- The blank behind a token is a NUL by now. -/
theorem stringAt_token (hnul : '\x00' ∉ t) (left right : CString) :
    stringAt (left ++ t ++ ['\x00'] ++ right) left.length = t := by
  have htoken : ∀ c ∈ t, (c != '\x00') = true := fun c hc =>
    bne_iff_ne.mpr fun heq => hnul (heq ▸ hc)
  rw [stringAt, List.append_assoc, List.append_assoc, List.drop_left,
    List.takeWhile_append_of_pos htoken]
  exact List.append_nil _

/-- **The loop** takes token after token, if a blank comes last. -/
theorem scan_eq (hend : ∀ c, l.getLast? = some c → blank c = true) (hnul : '\x00' ∉ l)
    (left : CString) (arg : Nat) (a : Args) :
    scan alloc l ⟨left, arg, 0⟩ a = (tokens blank l).foldlM (accept alloc) a := by
  induction l using @tokensInduction _ blank generalizing left arg a with
  | nil => rfl
  | separator c l hc ih =>
    rw [List.mem_cons, not_or] at hnul
    have hrest : ∀ d, l.getLast? = some d → blank d = true := fun d hd =>
      hend d (by rw [List.getLast?_cons, hd]; rfl)
    rw [scan, hc, Bool.not_true, if_neg Bool.false_ne_true, tokens_sep hc]
    dsimp only
    rw [if_neg (Nat.lt_irrefl 0)]
    exact ih hrest hnul.2 _ arg a
  | last t ht =>
    have hlast : blank (t.getLast ht.1) = true := hend _ (List.getLast?_eq_some_getLast ht.1)
    exact nomatch hlast.symm.trans (ht.2 _ (List.getLast_mem ht.1))
  | token t d l ht hd ih =>
    rw [List.mem_append, List.mem_cons, not_or, not_or] at hnul
    have hrest : ∀ c, l.getLast? = some c → blank c = true := fun c hc =>
      hend c (by rw [List.getLast?_append, List.getLast?_cons, hc]; rfl)
    rw [scan_token ht, scan, hd, Bool.not_true, if_neg Bool.false_ne_true, tokens_token ht hd,
      List.foldlM_cons]
    dsimp only
    rw [if_pos (List.length_pos_iff.mpr ht.1), stringAt_token hnul.1]
    refine bind_congr fun a => ih hrest hnul.2.2 _ _ a

/-! ## All tokens -/

/-- Everything that is allocated is known. -/
structure Known (a : Args) : Prop where
  live : a.live = List.range (a.argv.length + 1)
  length : a.argv.length ≤ argsMax

theorem Known.freeArgs (h : Known a) : freeArgs a = [] := by
  rw [KernelArgs.freeArgs, List.filter_eq_nil_iff, h.live]
  intro b hb
  have hlen := h.length
  have hlt : b < a.argv.length + 1 := List.mem_range.mp hb
  have hfreed : b ≤ argsMax ∧ b ≤ a.argv.length := by omega
  simp [hfreed]

theorem Known.concat (h : Known a) (hlt : a.argv.length < argsMax) (arg : CString) :
    Known ⟨a.argv ++ [arg], a.live ++ [a.argv.length + 1]⟩ := by
  refine ⟨?_, ?_⟩
  · dsimp only
    rw [h.live, List.length_append, List.length_singleton, ← List.range_succ]
  · rw [List.length_append, List.length_singleton]
    exact hlt

/-- **An argument** fits in its buffer. -/
theorem accept_own (hlt : a.argv.length < argsMax) (ht : own t = true) (h : Known a) :
    accept alloc a t =
      if alloc (a.argv.length + 1) then
        .ok ⟨a.argv ++ [option t], a.live ++ [a.argv.length + 1]⟩
      else .error (.null .enomem []) := by
  have hlen : (option t).length = t.length - 7 := by
    have h9 := own_length ht
    rw [option, List.length_append, List.length_drop]
    change 2 + _ = _
    omega
  have h9 := own_length ht
  rw [accept, handle, decide_eq_true hlt, ht, Bool.and_self, if_pos rfl]
  cases alloc (a.argv.length + 1) with
  | false =>
    rw [Bool.not_false, if_pos rfl, h.freeArgs]
    rfl
  | true =>
    rw [Bool.not_true, if_neg Bool.false_ne_true, if_neg (by omega), if_neg (by omega), if_pos rfl]

theorem accept_other (hlt : a.argv.length < argsMax) (ht : own t = false) :
    accept alloc a t = .ok a := by
  rw [accept, handle, ht, Bool.and_false, if_neg Bool.false_ne_true, if_neg (Nat.not_le.mpr hlt)]

theorem accept_full (hfull : a.argv.length = argsMax) (h : Known a) :
    accept alloc a t = .error (.null .e2big []) := by
  have hnot : decide (a.argv.length < argsMax) = false := by
    rw [hfull]
    rfl
  rw [accept, handle, hnot, Bool.false_and, if_neg Bool.false_ne_true,
    if_pos (Nat.le_of_eq hfull.symm), h.freeArgs]

/-- The memory for these tokens, behind `k` arguments. -/
def Needs (alloc : Nat → Bool) (k : Nat) (ts : List CString) : Prop :=
  ∀ i, k ≤ i → i < k + (ts.filter own).length → i < argsMax → alloc (i + 1) = true

/-- A token comes too late. -/
def Late (k : Nat) (ts : List CString) : Prop :=
  argsMax < k + (ts.filter own).length ∨
    k + (ts.filter own).length = argsMax ∧ ∃ t, ts.getLast? = some t ∧ own t = false

/-- What becomes of the tokens. -/
structure Folded (alloc : Nat → Bool) (a : Args) (ts : List CString) (r : Except Stop Args) :
    Prop where
  enough : Needs alloc a.argv.length ts → ¬Late a.argv.length ts →
    Ensures r (fun a' => a'.argv = a.argv ++ (ts.filter own).map option) fun _ => False
  late : Needs alloc a.argv.length ts → Late a.argv.length ts → r = .error (.null .e2big [])
  enomem : ¬Needs alloc a.argv.length ts → r = .error (.null .enomem [])

theorem filter_own_cons (ht : own t = true) : (t :: ts).filter own = t :: ts.filter own :=
  List.filter_cons_of_pos ht

theorem filter_other_cons (ht : own t = false) : (t :: ts).filter own = ts.filter own :=
  List.filter_cons_of_neg (by simp [ht])

theorem late_full : Late argsMax (t :: ts) := by
  cases hq : (t :: ts).filter own with
  | nil =>
    refine .inr ⟨congrArg (argsMax + ·) (congrArg List.length hq), (t :: ts).getLast nofun,
      List.getLast?_eq_some_getLast _, ?_⟩
    have hnone := List.filter_eq_nil_iff.mp hq _ (List.getLast_mem (List.cons_ne_nil t ts))
    simpa using hnone
  | cons u us =>
    refine .inl ?_
    rw [hq, List.length_cons]
    omega

theorem not_late_nil {k : Nat} (hk : k ≤ argsMax) : ¬Late k [] := by
  rintro (hlt | ⟨-, t, ht, -⟩)
  · exact absurd hlt (Nat.not_lt.mpr hk)
  · exact nomatch ht

theorem late_own {k : Nat} (ht : own t = true) : Late k (t :: ts) ↔ Late (k + 1) ts := by
  have hlen : k + ((t :: ts).filter own).length = k + 1 + (ts.filter own).length := by
    rw [filter_own_cons ht, List.length_cons]
    omega
  rw [Late, Late, hlen, List.getLast?_cons]
  refine or_congr_right (and_congr_right fun _ => ?_)
  cases ts.getLast? with
  | none => simp [ht]
  | some u => simp

theorem late_other {k : Nat} (ht : own t = false) (hk : k < argsMax) :
    Late k (t :: ts) ↔ Late k ts := by
  rw [Late, Late, filter_other_cons ht, List.getLast?_cons]
  refine or_congr_right (and_congr_right fun hlen => ?_)
  cases ts with
  | nil => exact absurd hlen (Nat.ne_of_lt hk)
  | cons u ts =>
    obtain ⟨v, hv⟩ : ∃ v, (u :: ts).getLast? = some v :=
      ⟨_, List.getLast?_eq_some_getLast (List.cons_ne_nil u ts)⟩
    simp [hv]

theorem needs_own {k : Nat} (ht : own t = true) (hk : k < argsMax) :
    Needs alloc k (t :: ts) ↔ alloc (k + 1) = true ∧ Needs alloc (k + 1) ts := by
  rw [Needs, Needs, filter_own_cons ht, List.length_cons]
  constructor
  · intro h
    exact ⟨h k (Nat.le_refl k) (by omega) hk, fun i h1 h2 => h i (by omega) (by omega)⟩
  · rintro ⟨hfirst, hrest⟩ i h1 h2 h3
    by_cases hi : i = k
    · exact hi ▸ hfirst
    · exact hrest i (by omega) (by omega) h3

theorem needs_full : Needs alloc argsMax ts := fun _ h1 _ h3 => absurd h1 (Nat.not_le.mpr h3)

/-- **All tokens**, by induction: the arguments are collected until there is no memory or a token
    comes too late. -/
theorem foldlM_accept (h : Known a) : Folded alloc a ts (ts.foldlM (accept alloc) a) := by
  induction ts generalizing a with
  | nil =>
    refine ⟨fun _ _ => ?_, fun _ hlate => absurd hlate (not_late_nil h.length), fun hneeds => ?_⟩
    · exact (List.append_nil _).symm
    · exact absurd (fun i h1 h2 => absurd h1 (Nat.not_le.mpr h2)) hneeds
  | cons t ts ih =>
    rw [List.foldlM_cons]
    by_cases hlt : a.argv.length < argsMax
    · cases ht : own t with
      | true =>
        rw [accept_own hlt ht h]
        cases halloc : alloc (a.argv.length + 1) with
        | true =>
          have hnext : Folded alloc ⟨a.argv ++ [option t], a.live ++ [a.argv.length + 1]⟩ ts _ :=
            ih (h.concat hlt (option t))
          have hlen : (a.argv ++ [option t]).length = a.argv.length + 1 := by
            rw [List.length_append, List.length_singleton]
          obtain ⟨henough, hlate, henomem⟩ := hnext
          dsimp only at henough hlate henomem
          rw [hlen] at henough hlate henomem
          refine ⟨fun hneeds hnot => ?_, fun hneeds hl => ?_, fun hneeds => ?_⟩
          · refine (henough ((needs_own ht hlt).mp hneeds).2 (mt (late_own ht).mpr hnot)).imp ?_
            intro a' ha'
            rw [ha', filter_own_cons ht, List.map_cons, List.append_assoc, List.singleton_append]
          · exact hlate ((needs_own ht hlt).mp hneeds).2 ((late_own ht).mp hl)
          · exact henomem fun hrest => hneeds ((needs_own ht hlt).mpr ⟨halloc, hrest⟩)
        | false =>
          have hnot : ¬Needs alloc a.argv.length (t :: ts) := fun hneeds =>
            nomatch halloc.symm.trans ((needs_own ht hlt).mp hneeds).1
          exact ⟨fun hneeds => absurd hneeds hnot, fun hneeds => absurd hneeds hnot, fun _ => rfl⟩
      | false =>
        rw [accept_other hlt ht]
        obtain ⟨henough, hlate, henomem⟩ := ih h
        have hneeds : Needs alloc a.argv.length (t :: ts) ↔ Needs alloc a.argv.length ts := by
          rw [Needs, Needs, filter_other_cons ht]
        refine ⟨fun hn hnot => ?_, fun hn hl => ?_, fun hn => ?_⟩
        · rw [filter_other_cons ht]
          exact henough (hneeds.mp hn) (mt (late_other ht hlt).mpr hnot)
        · exact hlate (hneeds.mp hn) ((late_other ht hlt).mp hl)
        · exact henomem (mt hneeds.mpr hn)
    · have hfull : a.argv.length = argsMax := Nat.le_antisymm h.length (Nat.le_of_not_lt hlt)
      rw [accept_full hfull h]
      refine ⟨fun _ hnot => absurd (hfull ▸ late_full) hnot, fun _ _ => rfl, fun hneeds => ?_⟩
      exact absurd (hfull ▸ needs_full) hneeds

/-! ## The whole command line -/

/-- A line that the function reads: it ends with a newline and is shorter than the buffer. -/
structure Line (env : Env) : Prop where
  mount : env.mount = true
  opened : env.opened = true
  short : env.cmdline.length < cmdlineMax - 2
  newline : env.cmdline.getLast? = some '\n'
  nul : '\x00' ∉ env.cmdline

/-- What is read: the tokens of the line, with a blank for the newline. -/
theorem parse_eq {env : Env} (h : Line env) :
    parse env prog =
      if !env.alloc 0 then .error (.null .enomem [])
      else if !env.alloc 1 then .error (.null .enomem [0])
      else (tokens blank env.cmdline).foldlM (accept env.alloc) ⟨[prog], [0, 1]⟩ := by
  obtain ⟨body, hbody⟩ : ∃ body, env.cmdline = body ++ ['\n'] :=
    List.getLast?_eq_some_iff.mp h.newline
  have hnul := h.nul
  rw [hbody, List.mem_append, not_or] at hnul
  have hscan (alloc : Nat → Bool) (a : Args) :
      scan alloc (body ++ [' ']) ⟨[], 0, 0⟩ a =
        (tokens blank env.cmdline).foldlM (accept alloc) a := by
    rw [scan_eq, tokens_concat rfl, hbody, tokens_concat rfl]
    · intro c hc
      rw [List.getLast?_concat] at hc
      cases hc
      rfl
    · rw [List.mem_append, not_or]
      exact ⟨hnul.1, by decide⟩
  have hlen : ¬env.cmdline.length = cmdlineMax - 2 := Nat.ne_of_lt h.short
  rw [parse, h.mount, h.opened, List.take_of_length_le (Nat.le_of_lt h.short)]
  dsimp only
  rw [if_neg hlen, if_neg (not_not.mpr h.newline), hbody, List.dropLast_concat, ← hbody, hscan]
  rfl

theorem needs_iff {env : Env} (h0 : env.alloc 0 = true) (h1 : env.alloc 1 = true) :
    Needs env.alloc 1 (tokens blank env.cmdline) ↔
      ∀ i ≤ min 9 (ownTokens env.cmdline).length + 1, env.alloc i = true := by
  unfold Needs argsMax
  change (∀ i, 1 ≤ i → i < 1 + (ownTokens env.cmdline).length → i < 10 → _) ↔ _
  constructor
  · intro hneeds i hi
    match i with
    | 0 => exact h0
    | 1 => exact h1
    | i + 2 => exact hneeds (i + 1) (by omega) (by omega) (by omega)
  · intro hall i hi1 hi2 hi3
    exact hall (i + 1) (by omega)

/-- A token comes too late: there are more than nine, or another one follows the ninth. -/
theorem late_iff (cmdline : CString) :
    Late 1 (tokens blank cmdline) ↔ 9 < (ownTokens cmdline).length ∨
      (ownTokens cmdline).length = 9 ∧
        ∃ t, (tokens blank cmdline).getLast? = some t ∧ own t = false := by
  unfold Late argsMax
  change (10 < 1 + (ownTokens cmdline).length ∨ 1 + (ownTokens cmdline).length = 10 ∧ _) ↔ _
  exact or_congr (by omega) (and_congr_left fun _ => by omega)

theorem not_parsed_null {cmdline : CString} {live : List Nat} :
    ¬Parsed cmdline prog (.error (.null .enomem live)) := by
  intro h
  unfold Parsed at h
  split at h
  · exact h
  · exact nomatch h

theorem parsed_iff {env : Env} (h0 : env.alloc 0 = true) (h1 : env.alloc 1 = true)
    {r : Except Stop Args} (h : Folded env.alloc ⟨[prog], [0, 1]⟩ (tokens blank env.cmdline) r) :
    (r ≠ .error .overflow ∧ r ≠ .error .assert) ∧ (Parsed env.cmdline prog r ↔ Granted env) := by
  obtain ⟨henough, hlate, henomem⟩ := h
  dsimp only [List.length_singleton] at henough hlate henomem
  rw [needs_iff h0 h1, late_iff] at henough hlate
  rw [needs_iff h0 h1] at henomem
  by_cases hneeds : ∀ i ≤ min 9 (ownTokens env.cmdline).length + 1, env.alloc i = true
  · by_cases hmany : 9 < (ownTokens env.cmdline).length
    · rw [hlate hneeds (.inl hmany)]
      refine ⟨⟨nofun, nofun⟩, iff_of_true ?_ ⟨hneeds, fun hq => absurd hq (Nat.ne_of_gt hmany)⟩⟩
      rw [Parsed, if_neg (Nat.not_le.mpr hmany)]
    · by_cases hlast : (ownTokens env.cmdline).length = 9 ∧
          ∃ t, (tokens blank env.cmdline).getLast? = some t ∧ own t = false
      · rw [hlate hneeds (.inr hlast)]
        obtain ⟨hq, t, ht, hother⟩ := hlast
        refine ⟨⟨nofun, nofun⟩, iff_of_false ?_ fun hg => ?_⟩
        · rw [Parsed, if_pos (Nat.le_of_eq hq)]
          exact id
        · exact nomatch hother.symm.trans (hg.last hq t ht)
      · have hok := henough hneeds (not_or.mpr ⟨hmany, hlast⟩)
        refine ⟨⟨?_, ?_⟩, iff_of_true ?_ ⟨hneeds, fun hq t ht => ?_⟩⟩
        · rintro rfl
          exact hok
        · rintro rfl
          exact hok
        · rw [Parsed, if_pos (Nat.le_of_not_lt hmany)]
          exact hok
        · by_contra hother
          exact hlast ⟨hq, t, ht, Bool.not_eq_true _ ▸ hother⟩
  · rw [henomem hneeds]
    exact ⟨⟨nofun, nofun⟩, iff_of_false not_parsed_null fun hg => hneeds hg.alloc⟩

/-- **The command line**: no string is longer than its buffer, and the arguments are those of the
    line if and only if there is memory for them and no other token comes after the ninth. -/
theorem parse_parsed_iff {env : Env} (h : Line env) (prog : CString) :
    (parse env prog ≠ .error .overflow ∧ parse env prog ≠ .error .assert) ∧
      (Parsed env.cmdline prog (parse env prog) ↔ Granted env) := by
  rw [parse_eq h]
  cases h0 : env.alloc 0 with
  | false =>
    exact ⟨⟨nofun, nofun⟩, iff_of_false not_parsed_null fun hg =>
      nomatch h0.symm.trans (hg.alloc 0 (Nat.zero_le _))⟩
  | true =>
    cases h1 : env.alloc 1 with
    | false =>
      exact ⟨⟨nofun, nofun⟩, iff_of_false not_parsed_null fun hg =>
        nomatch h1.symm.trans (hg.alloc 1 (Nat.le_add_left ..))⟩
    | true =>
      have hknown : Known ⟨[prog], [0, 1]⟩ := ⟨rfl, Nat.le_add_left 1 9⟩
      exact parsed_iff h0 h1 (foldlM_accept hknown)

/-- Two arguments among others. -/
theorem parse_parsed_iff_two :
    (parse ⟨true, true, "quiet mediabox.a=1 mediabox.b ro\n".toList, fun _ => true⟩
        "mediabox".toList ≠ .error .overflow ∧
      parse ⟨true, true, "quiet mediabox.a=1 mediabox.b ro\n".toList, fun _ => true⟩
        "mediabox".toList ≠ .error .assert) ∧
      (Parsed "quiet mediabox.a=1 mediabox.b ro\n".toList "mediabox".toList
        (parse ⟨true, true, "quiet mediabox.a=1 mediabox.b ro\n".toList, fun _ => true⟩
          "mediabox".toList) ↔
        Granted ⟨true, true, "quiet mediabox.a=1 mediabox.b ro\n".toList, fun _ => true⟩) :=
  parse_parsed_iff ⟨rfl, rfl, by decide, by decide, by decide⟩ "mediabox".toList

/-- Nine arguments, and a word of the kernel. -/
def nineArgs : CString := (List.replicate 9 "mediabox.x ".toList).flatten ++ "ro\n".toList

/-- The nine arguments are refused. -/
theorem nine_refused :
    (ownTokens nineArgs).length = 9 ∧
      parse ⟨true, true, nineArgs, fun _ => true⟩ "mediabox".toList = .error (.null .e2big []) ∧
      ¬Parsed nineArgs "mediabox".toList
        (parse ⟨true, true, nineArgs, fun _ => true⟩ "mediabox".toList) := by
  have hlen : (ownTokens nineArgs).length = 9 := by decide +kernel
  have hparse : parse ⟨true, true, nineArgs, fun _ => true⟩ "mediabox".toList =
      .error (.null .e2big []) := by
    decide +kernel
  refine ⟨hlen, hparse, ?_⟩
  rw [hparse, Parsed, if_pos (Nat.le_of_eq hlen)]
  exact id

end Mediabox.KernelArgs
