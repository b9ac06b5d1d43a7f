import Mediabox.Lib.Occurrences
import Mediabox.LibraryNames
import Mediabox.Lib.MachineInt

/-!
# Replacing in a string (`src/lib/string_util.c`)

`strreplace` counts the occurrences to get the length of the new string, and copies what is between
them to a buffer of that length.

* A string is a list of its characters without the NUL.  A pointer into `str` is an index.
* The lengths are of type `int`.  A result that does not fit is a fault, as are a pointer outside
  the string and a write outside the buffer.
* A loop that takes more steps than the string has characters goes on for ever.

Main result: `strreplace_iff`.
-/

set_option autoImplicit false

namespace Mediabox.StrReplace

open Library (CString)
open MachineInt Occurrences Outcome

/-! ## The code -/

inductive Fault where
  /-- an `int` overflows -/
  | overflow
  /-- a pointer leaves the string -/
  | outside
  /-- a write behind the end of the buffer -/
  | full
  /-- a loop does not end -/
  | endless
  deriving DecidableEq, Repr

/-- A buffer from `malloc`, and the string in it. -/
structure Buffer where
  size : Nat
  text : CString
  deriving DecidableEq, Repr

inductive Result where
  /-- `str` itself -/
  | same (str : CString)
  /-- NULL, after `str` was freed -/
  | null
  /-- a new buffer, and the length that was computed for it -/
  | fresh (len : Int) (ret : Buffer)
  deriving DecidableEq, Repr

/-- `strstr(str + ins, what)` -/
def strstr (str what : CString) (ins : Nat) : Option Nat :=
  (cut what (str.drop ins)).map fun p => ins + p.1.length

/-- `ins + n`, where the string is read next. -/
def move (str : CString) (ins : Nat) (n : Int) : Except Fault Nat :=
  if 0 ≤ ins + n ∧ ins + n ≤ str.length then .ok (ins + n).toNat else .error .outside

/-- `strcat(ret, s)`; there has to be room for the NUL too. -/
def strcat (ret : Buffer) (s : CString) : Except Fault Buffer :=
  if ret.text.length + s.length < ret.size then .ok { ret with text := ret.text ++ s }
  else .error .full

/-- `strncat(ret, s, n)` -/
def strncat (ret : Buffer) (s : CString) (n : Nat) : Except Fault Buffer := strcat ret (s.take n)

/-- The loop that computes the length. -/
def countLoop (str what : CString) (whatLen diff : Int) :
    Nat → Option Nat → Int → Except Fault Int
  | _, none, len => .ok len
  | 0, some _, _ => .error .endless
  | fuel + 1, some ins, len => do
    let len ← arith 32 .overflow (len + diff)
    let ins ← move str ins whatLen
    countLoop str what whatLen diff fuel (strstr str what ins) len

/-- The loop that copies. -/
def copyLoop (str what replacement : CString) (whatLen : Int) :
    Nat → Nat → Buffer → Except Fault Buffer
  | 0, _, _ => .error .endless
  | fuel + 1, ins, ret =>
    match strstr str what ins with
    | none => strcat ret (str.drop ins)
    | some next => do
      let sublen := wrap 32 (next - ins)
      let ret ← strncat ret (str.drop ins) (size sublen)
      let ret ← strcat ret replacement
      let step ← arith 32 .overflow (sublen + whatLen)
      let ins ← move str ins step
      copyLoop str what replacement whatLen fuel ins ret

/-- `strreplace`; `malloc` tells for which sizes there is memory. -/
def strreplace (malloc : Nat → Bool) (str what replacement : CString) : Except Fault Result :=
  let whatLen := wrap 32 what.length
  let withLen := wrap 32 replacement.length
  if strstr str what 0 = none then .ok (.same str)
  else do
    let diff ← arith 32 .overflow (withLen - whatLen)
    let len ← countLoop str what whatLen diff (str.length + 1) (strstr str what 0)
      (wrap 32 str.length)
    let room ← arith 32 .overflow (len + 1)
    if malloc (size room) then do
      let ret ← strcat ⟨size room, []⟩ []
      let ret ← copyLoop str what replacement whatLen (str.length + 1) 0 ret
      .ok (.fresh len ret)
    else .ok .null

/-! ## What it is for -/

/-- The text is returned, and a new buffer has the computed length and is filled exactly. -/
def Right (text : CString) : Result → Prop
  | .same str => str = text
  | .null => False
  | .fresh len ret => ret.text = text ∧ len = text.length ∧ ret.size = text.length + 1

/-- When it is: nothing occurs, or the string and the text that replaces it have a length of type
    `int`, with the NUL, and there is memory. -/
def Granted (malloc : Nat → Bool) (str what text : CString) : Prop :=
  ¬what <:+: str ∨
    (malloc (text.length + 1) = true ∧ str.length < 2 ^ 31 ∧ text.length + 1 < 2 ^ 31)

/-! ## Searching -/

variable {str what replacement before rest : CString} {ps : List CString} {ins fuel : Nat}

theorem strstr_eq_none : strstr str what ins = none ↔ ¬what <:+: str.drop ins := by
  rw [strstr, Option.map_eq_none_iff, cut_eq_none]

/-- An occurrence is found where it is, and the search goes on behind it. -/
theorem strstr_of_first (hwhat : what ≠ []) (hdrop : str.drop ins = before ++ what ++ rest)
    (hfirst : First what before rest) :
    strstr str what ins = some (ins + before.length) ∧
      ins + before.length + what.length ≤ str.length ∧
      str.drop (ins + before.length + what.length) = rest := by
  have hlen := congrArg List.length hdrop
  rw [List.length_drop, List.length_append, List.length_append] at hlen
  have hpos := List.length_pos_iff.mpr hwhat
  refine ⟨by rw [strstr, hdrop, cut_of_first hfirst, Option.map_some], by omega, ?_⟩
  rw [Nat.add_assoc, ← List.drop_drop, hdrop, ← List.length_append, List.drop_left]

theorem move_ok {n : Nat} (h : ins + n ≤ str.length) : move str ins n = .ok (ins + n) := by
  rw [move, if_pos (by omega)]
  rfl

theorem strcat_ok {ret : Buffer} {s : CString} (h : ret.text.length + s.length < ret.size) :
    strcat ret s = .ok { ret with text := ret.text ++ s } := if_pos h

/-- `*ret = '\0'` -/
theorem strcat_nil (n : Nat) : strcat ⟨n + 1, []⟩ [] = .ok ⟨n + 1, []⟩ := strcat_ok (Nat.succ_pos n)

/-! ## The length -/

/-- **The first loop** adds the difference for every occurrence, if every sum fits. -/
theorem ensures_countLoop (hwhat : what ≠ []) {diff : Int}
    (h : Splits what (str.drop ins) ps) (hfuel : ps.length ≤ fuel + 1) (len : Int) :
    Ensures (countLoop str what what.length diff fuel (strstr str what ins) len)
      (fun n => n = len + (ps.length - 1 : Nat) * diff)
      fun _ => ∃ k < ps.length, ¬InRange 32 (len + k * diff) := by
  generalize hl : str.drop ins = l at h
  induction h generalizing ins fuel len with
  | last l h =>
    rw [strstr_eq_none.mpr (hl ▸ h), countLoop]
    simp
  | cut before rest ps hfirst hrest ih =>
    obtain ⟨hfound, hle, hdrop⟩ := strstr_of_first hwhat hl hfirst
    have hpos := List.length_pos_iff.mpr hrest.ne_nil
    rw [List.length_cons] at hfuel
    obtain ⟨fuel, rfl⟩ := Nat.exists_eq_succ_of_ne_zero (n := fuel) (by omega)
    rw [hfound, countLoop]
    by_cases hrange : InRange 32 (len + diff)
    · rw [arith_ok hrange]
      change Ensures (move str _ _ >>= _) _ _
      rw [move_ok hle]
      refine (ih (by omega) (len + diff) hdrop).mono (fun n hn => ?_) ?_
      · obtain ⟨c, hc⟩ := Nat.exists_eq_succ_of_ne_zero (Nat.ne_of_gt hpos)
        rw [hn, List.length_cons, hc, Nat.succ_eq_add_one, Nat.add_sub_cancel, Nat.add_sub_cancel,
          Int.natCast_add, Int.add_mul]
        omega
      · rintro _ ⟨k, hk, hsum⟩
        refine ⟨k + 1, by simpa using hk, ?_⟩
        rwa [Int.natCast_add, Int.add_mul, Int.natCast_one, Int.one_mul, Int.add_comm (k * diff),
          ← Int.add_assoc]
    · rw [arith_error hrange]
      exact ⟨1, by simpa using hpos, by simpa using hrange⟩

/-! ## Copying -/

/-- **The second loop** adds the text with the replacements, if it fits. -/
theorem copyLoop_ok (hwhat : what ≠ []) (hstr : str.length < 2 ^ 31)
    (h : Splits what (str.drop ins) ps) (hfuel : ps.length ≤ fuel) {ret : Buffer}
    (hroom : ret.text.length + (replacement.intercalate ps).length < ret.size) :
    copyLoop str what replacement what.length fuel ins ret =
      .ok { ret with text := ret.text ++ replacement.intercalate ps } := by
  generalize hl : str.drop ins = l at h
  induction h generalizing ins fuel ret with
  | last l h =>
    obtain ⟨fuel, rfl⟩ := Nat.exists_eq_succ_of_ne_zero (n := fuel) (Nat.ne_of_gt hfuel)
    rw [intercalate_singleton] at hroom ⊢
    rw [copyLoop, strstr_eq_none.mpr (hl ▸ h)]
    dsimp only
    rw [hl, strcat_ok hroom]
  | cut before rest ps hfirst hrest ih =>
    obtain ⟨hfound, hle, hdrop⟩ := strstr_of_first hwhat hl hfirst
    obtain ⟨fuel, rfl⟩ := Nat.exists_eq_succ_of_ne_zero (n := fuel) (by simp at hfuel; omega)
    rw [intercalate_cons replacement before hrest.ne_nil] at hroom ⊢
    rw [List.length_append, List.length_append] at hroom
    have hsublen : wrap 32 ((ins + before.length : Nat) - ins : Int) = before.length := by
      rw [show ((ins + before.length : Nat) - ins : Int) = before.length by omega,
        wrap_natCast_32 (by omega)]
    have hstep : arith 32 Fault.overflow ((before.length : Int) + what.length) =
        .ok (before.length + what.length : Nat) := arith_ok ⟨by omega, by omega⟩
    rw [copyLoop, hfound, ← ensures_eq_iff]
    dsimp only
    rw [ensures_bind, hsublen, size_natCast (by omega), hl, strncat, List.append_assoc,
      List.take_left, strcat_ok (by omega), ensures_ok, ensures_bind,
      strcat_ok (by dsimp only; rw [List.length_append]; omega), ensures_ok, ensures_bind, hstep,
      ensures_ok, ensures_bind, move_ok (by omega), ensures_ok, ensures_eq_iff, ← Nat.add_assoc,
      ih (by simpa using hfuel) (by simp only [List.length_append]; omega) hdrop]
    simp only [List.append_assoc]

theorem strstr_le (hwhat : what ≠ []) {next : Nat} (h : strstr str what ins = some next) :
    ins ≤ next ∧ next + what.length ≤ str.length := by
  obtain ⟨⟨before, rest⟩, hcut, rfl⟩ := Option.map_eq_some_iff.mp h
  obtain ⟨hdrop, hfirst⟩ := cut_eq_some hcut
  obtain ⟨_, hle, _⟩ := strstr_of_first hwhat hdrop hfirst
  exact ⟨Nat.le_add_right _ _, hle⟩

theorem ensures_strcat (ret : Buffer) (s : CString) :
    Ensures (strcat ret s) (fun r => r.size = ret.size) fun _ => True := by
  rw [strcat, ensures_ite]
  exact ⟨fun _ => rfl, fun _ => trivial⟩

theorem ensures_move (str : CString) (ins : Nat) (n : Int) :
    Ensures (move str ins n) (fun i => (i : Int) = ins + n) fun _ => True := by
  rw [move, ensures_ite]
  exact ⟨fun h => Int.toNat_of_nonneg h.1, fun _ => trivial⟩

/-- **The second loop** never ends well after an occurrence whose length does not fit: it goes on
    so far before the end of the string that the rest is too long. -/
theorem copyLoop_full (hwhat : 2 ^ 31 ≤ what.length) {ret : Buffer} (hsize : ret.size ≤ 2 ^ 32)
    (h : what <:+: str.drop ins ∨ ins + 2 ^ 32 ≤ str.length) :
    Ensures (copyLoop str what replacement (wrap 32 what.length) fuel ins ret) (fun _ => False)
      fun _ => True := by
  induction fuel generalizing ins ret with
  | zero => exact trivial
  | succ fuel ih =>
    rw [copyLoop]
    split
    · rename_i hnone
      have hlong := h.resolve_left (strstr_eq_none.mp hnone)
      rw [strcat, if_neg (by rw [List.length_drop]; omega)]
      exact trivial
    · rename_i next hnext
      obtain ⟨hge, hle⟩ := strstr_le (List.length_pos_iff.mp (by omega)) hnext
      have hsub : wrap 32 ((next : Int) - ins) ≤ next - ins := wrap_le (by decide) (by omega)
      have hlen : wrap 32 what.length + 2 ^ 32 ≤ what.length := wrap_add_le (by decide) (by omega)
      rw [ensures_bind]
      refine (ensures_strcat ret _).mono (fun ret₁ h₁ => ?_) fun _ _ => trivial
      rw [ensures_bind]
      refine (ensures_strcat ret₁ _).mono (fun ret₂ h₂ => ?_) fun _ _ => trivial
      rw [ensures_bind, arith, ensures_ite]
      refine ⟨fun _ => ?_, fun _ => trivial⟩
      rw [ensures_ok, ensures_bind]
      refine (ensures_move str ins _).mono (fun i hi => ?_) fun _ _ => trivial
      exact ih (by omega) (.inr (by omega))

/-! ## Main theorem -/

theorem lengths_of_splits (replacement : CString) (h : Splits what str ps)
    (hocc : what <:+: str) :
    ∃ c, ps.length = c + 1 ∧ 0 < c ∧ c * what.length ≤ str.length ∧
      (replacement.intercalate ps).length + c * what.length =
        str.length + c * replacement.length := by
  obtain ⟨c, hc⟩ := Nat.exists_eq_succ_of_ne_zero (mt List.length_eq_zero_iff.mp h.ne_nil)
  have hempty := h.length_intercalate []
  have htext := h.length_intercalate replacement
  rw [hc, Nat.succ_sub_one] at hempty htext
  refine ⟨c, hc, ?_, by simp at hempty; omega, htext⟩
  rw [Nat.pos_iff_ne_zero]
  rintro rfl
  exact h.length_eq_one_iff.mp hc hocc

variable {malloc : Nat → Bool}

/-- The sums of the first loop lie between the length of the string and that of the result. -/
theorem inRange_sum {len diff text : Int} {c k : Nat} (hlen : 0 ≤ len) (hlen' : len < 2 ^ 31)
    (htext : 0 ≤ text) (htext' : text < 2 ^ 31) (hsum : text = len + c * diff) (hk : k ≤ c) :
    InRange 32 (len + k * diff) := by
  have hkc : (k : Int) ≤ c := Int.ofNat_le.mpr hk
  rcases Int.le_total 0 diff with hdiff | hdiff
  · have hpos : 0 ≤ k * diff := Int.mul_nonneg (Int.natCast_nonneg k) hdiff
    have hle : k * diff ≤ c * diff := Int.mul_le_mul_of_nonneg_right hkc hdiff
    exact ⟨by omega, by omega⟩
  · have hneg : k * diff ≤ 0 := Int.mul_nonpos_of_nonneg_of_nonpos (Int.natCast_nonneg k) hdiff
    have hle : c * diff ≤ k * diff := Int.mul_le_mul_of_nonpos_right hkc hdiff
    exact ⟨by omega, by omega⟩

theorem right_of_fits (h : Splits what str ps) (hwhat : what ≠ []) (hocc : what <:+: str)
    (hmalloc : malloc ((replacement.intercalate ps).length + 1) = true)
    (hstr : str.length < 2 ^ 31) (htext : (replacement.intercalate ps).length + 1 < 2 ^ 31) :
    Ensures (strreplace malloc str what replacement) (Right (replacement.intercalate ps))
      fun _ => False := by
  obtain ⟨c, hps, hc, hle, hlen⟩ := lengths_of_splits replacement h hocc
  have hwhatLe := Nat.le_mul_of_pos_left what.length hc
  have hwithLe := Nat.le_mul_of_pos_left replacement.length hc
  have hcLe := Nat.le_mul_of_pos_right c (List.length_pos_iff.mpr hwhat)
  have hsome : strstr str what 0 ≠ none := fun hnone => strstr_eq_none.mp hnone hocc
  have hsum : ((replacement.intercalate ps).length : Int) =
      str.length + c * ((replacement.length : Int) - what.length) := by
    have hcast := congrArg (Nat.cast : Nat → Int) hlen
    push_cast at hcast
    rw [Int.mul_sub]
    omega
  have hdrop : Splits what (str.drop 0) ps := h
  have hcopy : copyLoop str what replacement what.length (str.length + 1) 0
      ⟨(replacement.intercalate ps).length + 1, []⟩ =
      .ok ⟨(replacement.intercalate ps).length + 1, [] ++ replacement.intercalate ps⟩ :=
    copyLoop_ok hwhat hstr hdrop (by omega) (by simp)
  unfold strreplace
  dsimp only
  rw [wrap_natCast_32 (by omega), wrap_natCast_32 (by omega), wrap_natCast_32 hstr, if_neg hsome,
    ensures_bind, ensures_arith]
  refine ⟨⟨by omega, by omega⟩, ?_⟩
  rw [ensures_bind]
  refine (ensures_countLoop hwhat hdrop (by omega) _).mono (fun len hn => ?_) ?_
  · rw [hps, Nat.add_sub_cancel, ← hsum] at hn
    rw [ensures_bind, ensures_arith, hn, ← Int.natCast_succ, size_natCast (by omega)]
    refine ⟨⟨by omega, by omega⟩, ?_⟩
    rw [if_pos hmalloc, strcat_nil, ensures_bind, ensures_ok, ensures_bind, hcopy]
    exact ⟨rfl, rfl, rfl⟩
  · rintro _ ⟨k, hk, hrange⟩
    exact hrange (inRange_sum (Int.natCast_nonneg _) (by omega) (Int.natCast_nonneg _) (by omega)
      hsum (by omega))

/-- What the code has computed when it returned a new buffer. -/
theorem strreplace_fresh (hocc : what <:+: str) {text : CString}
    (h : Ensures (strreplace malloc str what replacement) (Right text) fun _ => False) :
    ∃ ret, countLoop str what (wrap 32 what.length)
        (wrap 32 replacement.length - wrap 32 what.length) (str.length + 1) (strstr str what 0)
        (wrap 32 str.length) = .ok (text.length : Int) ∧
      malloc (text.length + 1) = true ∧ text.length + 1 < 2 ^ 31 ∧
      copyLoop str what replacement (wrap 32 what.length) (str.length + 1) 0
        ⟨text.length + 1, []⟩ = .ok ret := by
  have hsome : strstr str what 0 ≠ none := fun hnone => strstr_eq_none.mp hnone hocc
  unfold strreplace at h
  dsimp only at h
  rw [if_neg hsome, ensures_bind, ensures_arith, ensures_bind] at h
  obtain ⟨len, hcount, h⟩ := h.2.exists_ok
  rw [ensures_bind, ensures_arith, ensures_ite] at h
  obtain ⟨hrange, hmalloc, hnull⟩ := h
  have hgranted : malloc (size (len + 1)) = true := by
    by_contra hfailed
    exact hnull hfailed
  have h := hmalloc hgranted
  rw [ensures_bind] at h
  obtain ⟨ret, hret, h⟩ := h.exists_ok
  rw [ensures_bind] at h
  obtain ⟨ret', hcopy, htext, rfl, hsize⟩ := h.exists_ok
  rw [inRange_32] at hrange
  rw [← Int.natCast_succ, size_natCast (by omega)] at hgranted hret
  rw [strcat_nil] at hret
  cases hret
  exact ⟨ret', hcount, hgranted, by omega, hcopy⟩

/-- A length that does not fit is not computed right, or the text does not fit in the buffer. -/
theorem fits_of_right (h : Splits what str ps) (hwhat : what ≠ []) (hocc : what <:+: str)
    (hright : Ensures (strreplace malloc str what replacement)
      (Right (replacement.intercalate ps)) fun _ => False) :
    malloc ((replacement.intercalate ps).length + 1) = true ∧ str.length < 2 ^ 31 ∧
      (replacement.intercalate ps).length + 1 < 2 ^ 31 := by
  obtain ⟨ret, hcount, hmalloc, htext, hcopy⟩ := strreplace_fresh hocc hright
  obtain ⟨c, hps, hc, hle, hlen⟩ := lengths_of_splits replacement h hocc
  have hwithLe := Nat.le_mul_of_pos_left replacement.length hc
  have hwhatLen : what.length < 2 ^ 31 := by
    by_contra hlong
    have hfull : Ensures (copyLoop str what replacement (wrap 32 what.length) (str.length + 1) 0
        ⟨(replacement.intercalate ps).length + 1, []⟩) (fun _ => False) fun _ => True :=
      copyLoop_full (by omega) (by dsimp only; omega) (.inl hocc)
    rw [hcopy] at hfull
    exact hfull
  rw [wrap_natCast_32 hwhatLen, wrap_natCast_32 (by omega)] at hcount
  have hdrop : Splits what (str.drop 0) ps := h
  have hcLe := Nat.le_mul_of_pos_right c (List.length_pos_iff.mpr hwhat)
  have hsum : Ensures (countLoop str what what.length (replacement.length - what.length)
      (str.length + 1) (strstr str what 0) (wrap 32 str.length)) _ _ :=
    ensures_countLoop hwhat hdrop (by omega) _
  rw [hcount, ensures_ok, hps, Nat.add_sub_cancel, Int.mul_sub] at hsum
  have hcast := congrArg (Nat.cast : Nat → Int) hlen
  push_cast at hcast
  have hself : wrap 32 str.length = str.length := by omega
  have hrange := (wrap_eq_self_iff (by decide)).mp hself
  exact ⟨hmalloc, by rw [inRange_32] at hrange; omega, htext⟩

/-- **Replacing is right if and only if the lengths fit**: the string is returned with the leftmost
    occurrences that do not overlap replaced, and a new buffer is filled exactly, unless there is no
    memory or a length with the NUL is not one of type `int`. -/
theorem strreplace_iff (malloc : Nat → Bool) (str what replacement : CString) (hwhat : what ≠ []) :
    Splits what str (pieces what str) ∧
    (Ensures (strreplace malloc str what replacement)
        (Right (replacement.intercalate (pieces what str))) (fun _ => False) ↔
      Granted malloc str what (replacement.intercalate (pieces what str))) := by
  have h := splits_pieces hwhat str
  refine ⟨h, ?_⟩
  by_cases hocc : what <:+: str
  · refine ⟨fun hright => .inr (fits_of_right h hwhat hocc hright), ?_⟩
    rintro (hnone | ⟨hmalloc, hstr, htext⟩)
    · exact absurd hocc hnone
    · exact right_of_fits h hwhat hocc hmalloc hstr htext
  · have hpieces := h.unique (.last str hocc)
    have hsame : strreplace malloc str what replacement = .ok (.same str) :=
      if_pos (strstr_eq_none.mpr hocc)
    rw [hsame, ensures_ok, hpieces, intercalate_singleton]
    exact iff_of_true rfl (.inl hocc)

/-- Occurrences that overlap. -/
theorem strreplace_overlap :
    Ensures (strreplace (fun _ => true) ['a', 'a', 'a'] ['a', 'a'] ['b']) (Right ['b', 'a'])
      fun _ => False := by
  have h := (strreplace_iff (fun _ => true) ['a', 'a', 'a'] ['a', 'a'] ['b'] (by decide)).2
  exact h.mpr (.inr ⟨rfl, by decide, by decide⟩)

theorem splits_replicate (a : Char) (n : Nat) :
    Splits [a] (List.replicate n a) (List.replicate (n + 1) []) := by
  induction n with
  | zero => exact .last [] (by simp)
  | succ n ih => exact .cut [] (List.replicate n a) _ (fun _ _ _ => Nat.zero_le _) ih

theorem not_right_replicate {n m : Nat} (hn : 0 < n) (h : 2 ^ 31 ≤ n * m + 1) :
    ¬Ensures (strreplace malloc (List.replicate n 'a') ['a'] (List.replicate m 'b'))
      (Right ((List.replicate m 'b').intercalate (pieces ['a'] (List.replicate n 'a'))))
      fun _ => False := by
  have hwhat : ['a'] ≠ [] := List.cons_ne_nil _ _
  have hocc : ['a'] <:+: List.replicate n 'a' := by
    obtain ⟨n, rfl⟩ := Nat.exists_eq_succ_of_ne_zero (Nat.ne_of_gt hn)
    exact ⟨[], List.replicate n 'a', rfl⟩
  intro hright
  rw [(splits_pieces hwhat _).unique (splits_replicate 'a' n)] at hright
  obtain ⟨-, -, htext⟩ := fits_of_right (splits_replicate 'a' n) hwhat hocc hright
  have hlen := (splits_replicate 'a' n).length_intercalate (List.replicate m 'b')
  simp only [List.length_replicate, List.length_singleton, Nat.add_sub_cancel, Nat.mul_one] at hlen
  omega

/-- The result would have 2^31 characters. -/
theorem not_right_long :
    ¬Ensures (strreplace (fun _ => true) (List.replicate 65536 'a') ['a'] (List.replicate 32768 'b'))
      (Right ((List.replicate 32768 'b').intercalate (pieces ['a'] (List.replicate 65536 'a'))))
      fun _ => False := not_right_replicate (by decide) (by decide)

end Mediabox.StrReplace
