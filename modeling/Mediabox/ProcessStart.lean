import Mathlib.Algebra.Order.Ring.Int
import Mediabox.Lib.Lifetime
import Mediabox.Lib.Outcome
import Mediabox.LibraryNames
import Mediabox.LinkedList

/-!
# Starting a process (`avbox_process_start` and `avbox_process_fork` in `src/lib/process.c`)

One call from its checks to its return, with every failure that it can meet: the manager is one
critical section for it, since the list is locked from `LIST_ADD` on.

* The memory that a call allocates and the descriptors that it opens are known by the place in the
  code: each is acquired at most once.
* `Env` — what `malloc`, `strdup`, `pthread_cond_init`, `pipe`, `open` and `fork` answer.
* Left out: the child after `fork`, and the line that is printed for debugging.
* `checkflagsoneof_iff` — the check for two flags of a group.

Main result: `start_whole_iff` — a call adds an entry with a live child or leaves nothing behind if
and only if it does not come to a failure of `pthread_cond_init`, or of the descriptors or `fork`.
-/

set_option autoImplicit false

namespace Mediabox.ProcessStart

open Lifetime Outcome Library

/-! ## The code -/

/-- The memory of a call. -/
inductive Block where
  | proc
  | name
  | binary
  | args
  /-- the copy of an argument -/
  | arg (i : Nat)
  | cbstate
  deriving DecidableEq, Repr

/-- The ends of the pipes; `/dev/null` takes the place of the writing end. -/
inductive Fd where
  | in0
  | in1
  | out0
  | out1
  | err0
  | err1
  deriving DecidableEq, Repr

/-- `struct avbox_process`; `none` is the -1 of `pid`, of the descriptors and of the timer, and the
    null pointer. -/
structure Proc where
  id : Nat
  pid : Option Nat
  stdin : Option Fd
  stdout : Option Fd
  stderr : Option Fd
  exitStatus : Int
  exitted : Bool
  stopping : Bool
  flags : Nat
  forceKillDelay : Nat
  forceKillTimer : Option Nat
  autorestartDelay : Nat
  name : Option CString
  binary : Option CString
  args : Option (List CString)
  exitCallback : Bool
  cbstate : Bool
  deriving DecidableEq, Repr

/-- The process list, the children that live, the timers, and `nextid`, an `int`. -/
structure Manager where
  list : List Nat
  children : List Nat
  timers : List Nat
  nextid : Nat
  nextid_le : nextid ≤ 2147483647

/-- The manager, and what a call has. -/
structure State where
  list : List Nat
  children : List Nat
  timers : List Nat
  nextid : Nat
  memory : Block → Life
  fds : Fd → Life
  proc : Proc

inductive Fault where
  /-- memory that is not allocated is used or freed -/
  | freed
  /-- a descriptor that is not open is closed -/
  | closed
  /-- `nextid` overflows -/
  | overflow
  deriving DecidableEq, Repr

/-- What the system answers in a call. -/
structure Env where
  malloc : Bool
  /-- what the memory of the structure has in it -/
  garbage : Proc
  argsMalloc : Bool
  argStrdup : Nat → Bool
  nameStrdup : Bool
  binaryStrdup : Bool
  condInit : Bool
  /-- `pipe(out)`, or the `open` in its place -/
  out : Bool
  err : Bool
  pipeIn : Bool
  fork : Option Nat

def ionice : Nat := 0x70

def stdoutFlags : Nat := 0x180

def stderrFlags : Nat := 0x600

/-- The loop of `avbox_process_checkflagsoneof`; `false` is its -1. -/
def oneofLoop : Nat → Nat → Bool
  | 0, _ => true
  | i + 1, flags =>
    if flags &&& 1 ≠ 0 ∧ flags ≠ 1 then false else oneofLoop i (flags >>> 1)

/-- `avbox_process_checkflagsoneof` -/
def checkflagsoneof (procFlags flags : Nat) : Bool :=
  if procFlags &&& flags ≠ 0 then oneofLoop 32 (procFlags &&& flags) else true

def State.malloc (s : State) (b : Block) : State := { s with memory := acquire s.memory b }

def State.openFd (s : State) (fd : Fd) : State := { s with fds := acquire s.fds fd }

def closeAll (s : State) (fds : List Fd) : Except Fault State := do
  let fds ← releaseAll .closed s.fds fds
  .ok { s with fds := fds }

def freeAll (s : State) (blocks : List Block) : Except Fault State := do
  let memory ← releaseAll .freed s.memory blocks
  .ok { s with memory := memory }

/-- The loop of `avbox_process_clone_args` from argument `i` on. -/
def cloneLoop (env : Env) : Nat → List CString → State → Except Fault (State × Bool)
  | _, [], s => .ok (s, true)
  | i, _ :: argv, s =>
    if env.argStrdup i then cloneLoop env (i + 1) argv (s.malloc (.arg i))
    else do
      let s ← freeAll s ((List.range i).map Block.arg ++ [.args])
      .ok (s, false)

/-- `avbox_process_clone_args` -/
def cloneArgs (s : State) (env : Env) (argv : List CString) :
    Except Fault (State × Option (List CString)) :=
  if env.argsMalloc then do
    let (s, ok) ← cloneLoop env 0 argv (s.malloc .args)
    .ok (s, if ok then some argv else none)
  else .ok (s, none)

/-- `strdup` into a field -/
def strdup (s : State) (b : Block) (ok : Bool) (str : CString) : State × Option CString :=
  if ok then (s.malloc b, some str) else (s, none)

/-- The memory that `avbox_process_free` frees, in its order. -/
def Proc.blocks (p : Proc) : List Block :=
  (if p.name.isSome then [.name] else []) ++
  (if p.binary.isSome then [.binary] else []) ++
  (match p.args with
    | some args => (List.range args.length).map Block.arg ++ [.args]
    | none => []) ++
  (if p.cbstate then [.cbstate] else []) ++ [.proc]

/-- `avbox_process_free` -/
def processFree (s : State) : Except Fault State := do
  access .freed s.memory .proc
  freeAll { s with timers := s.timers.filter fun timer => s.proc.forceKillTimer ≠ some timer }
    s.proc.blocks

/-- `in`, `out` and `err` of `avbox_process_fork`, without the -1: what is open. -/
abbrev Pipes := List Fd

/-- The label `end:` of `avbox_process_fork`. -/
def forkEnd (s : State) (pipes : Pipes) : Except Fault (State × Option Nat) := do
  let s ← closeAll s pipes
  .ok (s, none)

/-- The descriptors for the output of the child. -/
def State.openOut (s : State) : State :=
  if s.proc.flags &&& stdoutFlags ≠ 0 then (s.openFd .out0).openFd .out1 else s.openFd .out1

def Proc.outFds (p : Proc) : Pipes :=
  if p.flags &&& stdoutFlags ≠ 0 then [.out0, .out1] else [.out1]

def State.openErr (s : State) : State :=
  if s.proc.flags &&& stderrFlags ≠ 0 then (s.openFd .err0).openFd .err1 else s.openFd .err1

def Proc.errFds (p : Proc) : Pipes :=
  if p.flags &&& stderrFlags ≠ 0 then [.err0, .err1] else [.err1]

/-- `fork()` and what the parent does after it. -/
def forked (s : State) (env : Env) : Except Fault (State × Option Nat) :=
  match env.fork with
  | none =>
    forkEnd { s with proc := { s.proc with pid := none } }
      ([.in0, .in1] ++ s.proc.outFds ++ s.proc.errFds)
  | some pid => do
    let s := { s with children := pid :: s.children, proc := { s.proc with pid := some pid } }
    let s ← closeAll s [.in0, .out1, .err1]
    .ok ({ s with proc := { s.proc with
      stdin := some .in1
      stdout := if s.proc.flags &&& stdoutFlags ≠ 0 then some .out0 else none
      stderr := if s.proc.flags &&& stderrFlags ≠ 0 then some .err0 else none } }, some pid)

/-- `avbox_process_fork` -/
def fork (s : State) (env : Env) : Except Fault (State × Option Nat) :=
  if !env.out then forkEnd s []
  else if !env.err then forkEnd s.openOut s.proc.outFds
  else if !env.pipeIn then forkEnd s.openOut.openErr (s.proc.outFds ++ s.proc.errFds)
  else forked ((s.openOut.openErr.openFd .in0).openFd .in1) env

/-- `avbox_process_get_next_id` -/
def getNextId (s : State) : Except Fault (State × Nat) :=
  if s.nextid = 2147483647 then .error .overflow
  else .ok ({ s with nextid := s.nextid + 1 }, s.nextid)

/-- `pthread_cond_init`, and what is done when it fails. -/
def condInit (s : State) (env : Env) : Except Fault State :=
  if env.condInit then .ok s else processFree s

/-- From `LIST_ADD` to the return. -/
def launch (s : State) (env : Env) : Except Fault (State × Int) := do
  let (s, pid) ← fork { s with list := listAdd s.list s.proc.id } env
  let s := { s with proc := { s.proc with pid := pid } }
  .ok (if pid = none then { s with list := listRemove s.list s.proc.id } else s, s.proc.id)

/-- The check that the memory allocations succeeded, and what follows. -/
def check (s : State) (env : Env) : Except Fault (State × Int) := do
  access .freed s.memory .proc
  if s.proc.binary = none ∨ s.proc.args = none ∨ s.proc.name = none then do
    let s ← processFree s
    .ok (s, -1)
  else launch s env

def enter (m : Manager) (env : Env) : State :=
  ⟨m.list, m.children, m.timers, m.nextid, fun _ => .fresh, fun _ => .fresh, env.garbage⟩

/-- `avbox_process_start` -/
def start (m : Manager) (env : Env) (binary : CString) (argv : List CString) (flags : Nat)
    (name : CString) (exitCallback : Bool) : Except Fault (State × Int) :=
  let s := enter m env
  if !checkflagsoneof flags ionice then .ok (s, -1)
  else if !checkflagsoneof flags stdoutFlags then .ok (s, -1)
  else if !checkflagsoneof flags stderrFlags then .ok (s, -1)
  else if !env.malloc then .ok (s, -1)
  else do
    let (s, id) ← getNextId (s.malloc .proc)
    let (s, args) ← cloneArgs s env argv
    let (s, name) := strdup s .name env.nameStrdup name
    let (s, binary) := strdup s .binary env.binaryStrdup binary
    let s ← condInit { s with proc := { s.proc with
      id := id
      stdin := none
      stdout := none
      stderr := none
      exitStatus := -1
      exitted := false
      stopping := false
      flags := flags
      forceKillDelay := 30
      forceKillTimer := none
      autorestartDelay := 5
      args := args
      name := name
      binary := binary
      exitCallback := exitCallback
      cbstate := false } } env
    check s env

/-! ## What it is for -/

/-- An entry with this id and a live child was added to the list. -/
structure Added (m : Manager) (s : State) (ret : Int) : Prop where
  list : ∃ id : Nat, ret = id ∧ s.list = listAdd m.list id ∧ s.proc.id = id
  memory : s.memory .proc = .live
  child : ∃ pid ∈ s.children, s.proc.pid = some pid

/-- **All or nothing**: an id is returned for an entry that was added; and with -1 the list is what
    it was, every descriptor that was opened is closed, and all memory is freed. -/
structure Whole (m : Manager) (s : State) (ret : Int) : Prop where
  all : 0 ≤ ret ↔ Added m s ret
  nothing : ret = -1 → s.list = m.list ∧ Held s.fds [] ∧ Held s.memory []

/-- Everything is copied. -/
def Copied (env : Env) (argv : List CString) : Prop :=
  env.argsMalloc = true ∧ (∀ i < argv.length, env.argStrdup i = true) ∧ env.nameStrdup = true ∧
    env.binaryStrdup = true

/-- The child is forked. -/
def Forks (env : Env) : Prop :=
  env.out = true ∧ env.err = true ∧ env.pipeIn = true ∧ env.fork.isSome = true

/-- The calls that end before the structure is initialized, or whose condition variable is, and
    which then fail in a copy or not at all. -/
def Clean (m : Manager) (env : Env) (argv : List CString) (flags : Nat) : Prop :=
  (∃ group ∈ [ionice, stdoutFlags, stderrFlags], checkflagsoneof flags group = false) ∨
    env.malloc = false ∨
    m.nextid ≠ 2147483647 ∧ env.condInit = true ∧ (Copied env argv → Forks env)

/-! ## Flags -/

theorem oneofLoop_iff {n flags : Nat} (h : flags < 2 ^ n) :
    oneofLoop n flags = false ↔
      ∃ i j, i < j ∧ flags.testBit i = true ∧ flags.testBit j = true := by
  induction n generalizing flags with
  | zero =>
    have hzero : flags = 0 := by omega
    subst hzero
    simp [oneofLoop]
  | succ n ih =>
    have hhalf : flags >>> 1 < 2 ^ n := by
      rw [Nat.shiftRight_eq_div_pow]
      omega
    rw [oneofLoop]
    split
    · rename_i hboth
      obtain ⟨hodd, hne⟩ := hboth
      rw [Nat.and_one_is_mod] at hodd
      refine iff_of_true rfl ?_
      obtain ⟨j, hj⟩ := Nat.exists_testBit_of_ne_zero (show flags / 2 ≠ 0 by omega)
      refine ⟨0, j + 1, Nat.succ_pos j, ?_, ?_⟩
      · rw [Nat.testBit_zero]
        exact decide_eq_true (by omega)
      · rw [Nat.testBit_succ]
        exact hj
    · rename_i hnot
      rw [ih hhalf]
      constructor
      · rintro ⟨i, j, hij, hi, hj⟩
        rw [Nat.testBit_shiftRight] at hi hj
        exact ⟨1 + i, 1 + j, by omega, hi, hj⟩
      · rintro ⟨i, j, hij, hi, hj⟩
        cases i with
        | zero =>
          -- the lowest flag is set, and no other
          rw [Nat.testBit_zero, decide_eq_true_eq] at hi
          have hone : flags = 1 := by
            by_contra hne
            exact hnot ⟨by rw [Nat.and_one_is_mod]; omega, hne⟩
          rw [hone, Nat.testBit_one_eq_true_iff_self_eq_zero] at hj
          omega
        | succ i =>
          refine ⟨i, j - 1, by omega, ?_, ?_⟩
          · rw [Nat.testBit_shiftRight, Nat.add_comm]
            exact hi
          · rw [Nat.testBit_shiftRight, Nat.add_sub_cancel' (by omega)]
            exact hj

/-- **Two flags of a group** are what the check refuses. -/
theorem checkflagsoneof_iff {procFlags flags : Nat} (h : flags < 2 ^ 32) :
    checkflagsoneof procFlags flags = false ↔
      ∃ i j, i < j ∧ (procFlags &&& flags).testBit i = true ∧
        (procFlags &&& flags).testBit j = true := by
  have hlt : procFlags &&& flags < 2 ^ 32 := Nat.lt_of_le_of_lt Nat.and_le_right h
  rw [checkflagsoneof]
  split
  · exact oneofLoop_iff hlt
  · rename_i hzero
    rw [ne_eq, not_not] at hzero
    rw [hzero]
    simp

/-! ## Memory -/

section Memory

variable {s : State} {env : Env} {l : List Block} {argv : List CString}

/-- The copies of so many arguments. -/
def argBlocks (n : Nat) : List Block := (List.range n).map Block.arg ++ [.args]

/-- The copies of the arguments, if there are any. -/
def argsBlocks : Option (List CString) → List Block
  | some args => argBlocks args.length
  | none => []

theorem mem_argsBlocks {args : Option (List CString)} {b : Block} (h : b ∈ argsBlocks args) :
    b = .args ∨ ∃ i, b = .arg i := by
  cases args with
  | none => cases h
  | some args =>
    rcases List.mem_append.mp h with harg | hargs
    · obtain ⟨i, -, rfl⟩ := List.mem_map.mp harg
      exact Or.inr ⟨i, rfl⟩
    · exact Or.inl (List.mem_singleton.mp hargs)

theorem argBlocks_succ (n : Nat) :
    (.arg n :: argBlocks n).Perm (argBlocks (n + 1)) := by
  unfold argBlocks
  rw [List.range_succ, List.map_append, List.append_assoc]
  exact List.perm_middle.symm

theorem arg_notMem (n : Nat) : Block.arg n ∉ argBlocks n := by
  simp [argBlocks]

/-- A copy is made of what is not held, or none is. -/
theorem strdup_held {s' : State} {b : Block} {ok : Bool} {str : CString} {r : Option CString}
    (h : Held s.memory l) (hb : b ∉ l) (hdup : strdup s b ok str = (s', r)) :
    s' = { s with memory := s'.memory } ∧ (r ≠ none ↔ ok = true) ∧
      Held s'.memory ((if r.isSome then [b] else []) ++ l) := by
  cases ok with
  | true =>
    cases hdup
    exact ⟨rfl, by simp, h.acquire hb⟩
  | false =>
    cases hdup
    exact ⟨rfl, by simp, h⟩

theorem freeAll_ensures {l' : List Block} (h : Held s.memory (l ++ l')) :
    Ensures (freeAll s l) (fun s' => s' = { s with memory := s'.memory } ∧ Held s'.memory l')
      fun _ => False := by
  obtain ⟨memory, hall, hheld⟩ := h.releaseAll (e := Fault.freed)
  rw [freeAll, hall]
  exact ⟨rfl, hheld⟩

/-- The copies are made, or those that were made are freed. -/
theorem cloneLoop_ensures {i : Nat} (h : Held s.memory (argBlocks i ++ l))
    (hl : ∀ j, Block.arg j ∉ l) :
    Ensures (cloneLoop env i argv s) (fun r => r.1 = { s with memory := r.1.memory } ∧
      (r.2 = true ↔ ∀ j < argv.length, env.argStrdup (i + j) = true) ∧
      Held r.1.memory ((if r.2 then argBlocks (i + argv.length) else []) ++ l)) fun _ => False := by
  induction argv generalizing i s with
  | nil => exact ⟨rfl, by simp, h⟩
  | cons arg argv ih =>
    rw [cloneLoop, ensures_ite]
    refine ⟨fun hdup => ?_, fun hdup => ?_⟩
    · have hnot : Block.arg i ∉ argBlocks i ++ l := by
        rw [List.mem_append, not_or]
        exact ⟨arg_notMem i, hl i⟩
      have hnew : Held (s.malloc (.arg i)).memory (argBlocks (i + 1) ++ l) :=
        (h.acquire hnot).perm ((argBlocks_succ i).append_right l)
      refine (ih hnew).imp fun r ⟨hsame, hiff, hheld⟩ => ⟨hsame, ?_, ?_⟩
      · rw [hiff]
        constructor
        · intro hall j hj
          cases j with
          | zero => exact hdup
          | succ j =>
            have hstep := hall j (by simpa using hj)
            rwa [show i + 1 + j = i + (j + 1) by omega] at hstep
        · intro hall j hj
          have hstep := hall (j + 1) (by simpa using hj)
          rwa [show i + (j + 1) = i + 1 + j by omega] at hstep
      · rw [List.length_cons, show i + (argv.length + 1) = i + 1 + argv.length by omega]
        exact hheld
    · rw [ensures_bind]
      refine (freeAll_ensures h).imp fun s' ⟨hsame, hheld⟩ => ⟨hsame, ?_, hheld⟩
      refine iff_of_false nofun fun hall => hdup ?_
      exact hall 0 (Nat.succ_pos _)

theorem cloneArgs_ensures (h : Held s.memory l) (hl : ∀ j, Block.arg j ∉ l) (hargs : .args ∉ l) :
    Ensures (cloneArgs s env argv) (fun r => r.1 = { s with memory := r.1.memory } ∧
      (r.2 = some argv ∧ env.argsMalloc = true ∧
          (∀ j < argv.length, env.argStrdup j = true) ∨
        r.2 = none ∧ ¬(env.argsMalloc = true ∧ ∀ j < argv.length, env.argStrdup j = true)) ∧
      Held r.1.memory (argsBlocks r.2 ++ l)) fun _ => False := by
  rw [cloneArgs, ensures_ite]
  refine ⟨fun hmalloc => ?_, fun hmalloc => ?_⟩
  · rw [ensures_bind]
    have hnew : Held (s.malloc .args).memory (argBlocks 0 ++ l) := h.acquire hargs
    refine (cloneLoop_ensures hnew hl).imp fun ⟨s', ok⟩ ⟨hsame, hiff, hheld⟩ => ⟨hsame, ?_, ?_⟩
    · simp only [Nat.zero_add] at hiff
      cases ok with
      | true => exact Or.inl ⟨rfl, hmalloc, hiff.mp rfl⟩
      | false => exact Or.inr ⟨rfl, fun hboth => nomatch hiff.mpr hboth.2⟩
    · rw [Nat.zero_add] at hheld
      cases ok with
      | true | false => exact hheld
  · exact ⟨rfl, Or.inr ⟨rfl, fun hboth => hmalloc hboth.1⟩, h⟩

theorem processFree_ensures (h : Held s.memory l) (hp : l.Perm s.proc.blocks) :
    Ensures (processFree s) (fun s' => Held s'.memory [] ∧ s'.list = s.list ∧ s'.fds = s.fds)
      fun _ => False := by
  have hproc : s.memory .proc = .live :=
    (h.live _).mpr (hp.mem_iff.mpr (by simp [Proc.blocks]))
  rw [processFree, ensures_bind, access_ok hproc, ensures_ok]
  have hheld : Held s.memory (s.proc.blocks ++ []) := by
    rw [List.append_nil]
    exact h.perm hp
  generalize s.timers.filter _ = timers
  refine (freeAll_ensures (s := { s with timers := timers }) hheld).imp fun s' ⟨hsame, hnone⟩ =>
    ⟨hnone, ?_, ?_⟩
  · rw [hsame]
  · rw [hsame]

end Memory

/-! ## Descriptors -/

section Descriptors

variable {s : State} {env : Env}

theorem closeAll_ensures {l l' : List Fd} (h : Held s.fds (l ++ l')) :
    Ensures (closeAll s l) (fun s' => s' = { s with fds := s'.fds } ∧ Held s'.fds l')
      fun _ => False := by
  obtain ⟨fds, hall, hheld⟩ := h.releaseAll (e := Fault.closed)
  rw [closeAll, hall]
  exact ⟨rfl, hheld⟩

theorem forkEnd_ensures {pipes : Pipes} (h : Held s.fds pipes) :
    Ensures (forkEnd s pipes) (fun r => r.2 = none ∧ r.1 = { s with fds := r.1.fds } ∧
      Held r.1.fds []) fun _ => False := by
  rw [forkEnd, ensures_bind]
  have hheld : Held s.fds (pipes ++ []) := by
    rw [List.append_nil]
    exact h
  exact (closeAll_ensures hheld).imp fun s' ⟨hsame, hnone⟩ => ⟨rfl, hsame, hnone⟩

theorem openOut_held (h : Held s.fds []) : Held s.openOut.fds s.proc.outFds := by
  unfold State.openOut Proc.outFds
  split
  · exact ((h.acquire (by simp)).acquire (by simp)).perm (List.Perm.swap _ _ _)
  · exact h.acquire (by simp)

theorem openErr_held (h : Held s.fds s.proc.outFds) :
    Held s.openErr.fds (s.proc.outFds ++ s.proc.errFds) := by
  have hnot : Fd.err0 ∉ s.proc.outFds ∧ Fd.err1 ∉ s.proc.outFds := by
    unfold Proc.outFds
    split <;> decide
  unfold State.openErr Proc.errFds
  split
  · have hheld := (h.acquire hnot.1).acquire (i := .err1) (by simp [hnot.2])
    exact hheld.perm ((List.Perm.swap _ _ _).trans (@List.perm_append_comm Fd [.err0, .err1] _))
  · exact (h.acquire hnot.2).perm (@List.perm_append_comm Fd [.err1] _)

theorem openOut_same (s : State) :
    s.openOut.proc = s.proc ∧ s.openOut.list = s.list ∧ s.openOut.memory = s.memory := by
  unfold State.openOut
  split <;> exact ⟨rfl, rfl, rfl⟩

theorem openErr_same (s : State) :
    s.openErr.proc = s.proc ∧ s.openErr.list = s.list ∧ s.openErr.memory = s.memory := by
  unfold State.openErr
  split <;> exact ⟨rfl, rfl, rfl⟩

/-- The ends that the parent closes after `fork` are open, whatever was opened. -/
theorem childFds_perm (p : Proc) : ∃ rest,
    ([Fd.in0, .in1] ++ p.outFds ++ p.errFds).Perm ([Fd.in0, .out1, .err1] ++ rest) := by
  unfold Proc.outFds Proc.errFds
  split <;> split
  · exact ⟨[.in1, .out0, .err0], by decide⟩
  · exact ⟨[.in1, .out0], by decide⟩
  · exact ⟨[.in1, .err0], by decide⟩
  · exact ⟨[.in1], by decide⟩

/-- What `avbox_process_fork` leaves alone, and whether there is a child. -/
structure ForkedTo (s : State) (env : Env) (r : State × Option Nat) : Prop where
  list : r.1.list = s.list
  memory : r.1.memory = s.memory
  id : r.1.proc.id = s.proc.id
  child : ∀ pid, r.2 = some pid → pid ∈ r.1.children
  forks : r.2.isSome = true ↔ Forks env
  fds : r.2 = none → Held r.1.fds []

theorem ForkedTo.of_end {s' : State} {pipes : Pipes} (h : Held s'.fds pipes)
    (hlist : s'.list = s.list) (hmemory : s'.memory = s.memory) (hid : s'.proc.id = s.proc.id)
    (hforks : ¬Forks env) : Ensures (forkEnd s' pipes) (ForkedTo s env) fun _ => False := by
  refine (forkEnd_ensures h).imp fun r ⟨hnone, hsame, hheld⟩ => ?_
  refine ⟨?_, ?_, ?_, ?_, ?_, fun _ => hheld⟩
  · rw [hsame]
    exact hlist
  · rw [hsame]
    exact hmemory
  · rw [hsame]
    exact hid
  · rw [hnone]
    exact nofun
  · rw [hnone]
    exact iff_of_false nofun hforks

theorem forked_ensures (h : Held s.fds ([Fd.in0, .in1] ++ s.proc.outFds ++ s.proc.errFds))
    (hforks : Forks env ↔ env.fork.isSome = true) :
    Ensures (forked s env) (ForkedTo s env) fun _ => False := by
  unfold forked
  cases hpid : env.fork with
  | none =>
    have hno : ¬Forks env := by
      rw [hforks, hpid]
      rintro ⟨⟩
    have hheld : Held { s with proc := { s.proc with pid := none } }.fds
        ([Fd.in0, .in1] ++ s.proc.outFds ++ s.proc.errFds) := h
    exact ForkedTo.of_end hheld rfl rfl rfl hno
  | some pid =>
    obtain ⟨rest, hperm⟩ := childFds_perm s.proc
    simp only [ensures_bind]
    refine (closeAll_ensures (s := { s with
      children := pid :: s.children, proc := { s.proc with pid := some pid } })
      (h.perm hperm)).imp ?_
    rintro s' ⟨hsame, -⟩
    refine ⟨?_, ?_, ?_, ?_, ?_, by rintro ⟨⟩⟩
    · rw [hsame]
    · rw [hsame]
    · rw [hsame]
    · rintro q ⟨⟩
      rw [hsame]
      exact List.mem_cons_self
    · rw [hforks, hpid]

/-- **`avbox_process_fork`** makes a child if nothing fails, and closes what it opened otherwise. -/
theorem fork_ensures (h : Held s.fds []) :
    Ensures (fork s env) (ForkedTo s env) fun _ => False := by
  have hout := openOut_held h
  obtain ⟨hproc, hlist, hmemory⟩ := openOut_same s
  obtain ⟨hproc', hlist', hmemory'⟩ := openErr_same s.openOut
  rw [hproc] at hproc'
  have herr : Held s.openOut.openErr.fds (s.proc.outFds ++ s.proc.errFds) := by
    rw [← hproc] at hout ⊢
    exact openErr_held hout
  unfold fork
  rw [ensures_ite, ensures_ite, ensures_ite]
  simp only [Bool.not_eq_true', Bool.not_eq_false]
  refine ⟨fun hno => ?_, fun ho => ⟨fun hno => ?_, fun he => ⟨fun hno => ?_, fun hi => ?_⟩⟩⟩
  · exact ForkedTo.of_end h rfl rfl rfl fun hforks => by simp [Forks, hno] at hforks
  · exact ForkedTo.of_end hout hlist hmemory (by rw [hproc]) fun hforks => by
      simp [Forks, hno] at hforks
  · exact ForkedTo.of_end herr (hlist'.trans hlist) (hmemory'.trans hmemory) (by rw [hproc'])
      fun hforks => by simp [Forks, hno] at hforks
  · have hnot : Fd.in0 ∉ s.proc.outFds ++ s.proc.errFds ∧
        Fd.in1 ∉ s.proc.outFds ++ s.proc.errFds := by
      unfold Proc.outFds Proc.errFds
      split <;> split <;> decide
    have hin : Held ((s.openOut.openErr.openFd .in0).openFd .in1).fds
        (Fd.in1 :: .in0 :: (s.proc.outFds ++ s.proc.errFds)) :=
      (herr.acquire hnot.1).acquire (by simp [hnot.2])
    have hopen := hin.perm (List.Perm.swap Fd.in0 .in1 _)
    rw [← hproc'] at hopen
    have hforks : Forks env ↔ env.fork.isSome = true :=
      ⟨fun hall => hall.2.2.2, fun hfork => ⟨ho, he, hi, hfork⟩⟩
    have hforked : Ensures (forked ((s.openOut.openErr.openFd .in0).openFd .in1) env)
        (ForkedTo ((s.openOut.openErr.openFd .in0).openFd .in1) env) fun _ => False :=
      forked_ensures hopen hforks
    refine hforked.imp fun r hr => ?_
    exact ⟨hr.list.trans (hlist'.trans hlist), hr.memory.trans (hmemory'.trans hmemory),
      hr.id.trans (congrArg Proc.id hproc'), hr.child, hr.forks, hr.fds⟩

end Descriptors

/-! ## The call -/

section Call

variable {m : Manager} {env : Env} {s : State} {argv : List CString}

/-- The call before it is known whether everything was copied. -/
structure Ready (m : Manager) (s : State) : Prop where
  list : s.list = m.list
  fds : Held s.fds []
  memory : Held s.memory s.proc.blocks

/-- **The launch** adds an entry, or returns the id of one that it has taken off the list. -/
theorem launch_ensures (h : Ready m s) :
    Ensures (launch s env) (fun r => Whole m r.1 r.2 ↔ Forks env) fun _ => False := by
  rw [launch, ensures_bind]
  refine (fork_ensures (s := { s with list := listAdd s.list s.proc.id }) h.fds).imp ?_
  rintro ⟨s', pid⟩ hr
  have hlist : s'.list = listAdd m.list s.proc.id := by
    rw [← h.list]
    exact hr.list
  have hid : s'.proc.id = s.proc.id := hr.id
  cases pid with
  | none =>
    have hno : ¬Forks env := by
      rw [← hr.forks]
      exact nofun
    refine iff_of_false (fun hwhole => ?_) hno
    obtain ⟨id, -, hadded, -⟩ := (hwhole.all.mp (Int.natCast_nonneg _)).list
    have hlen := congrArg List.length hadded
    simp only [if_pos, hlist, hid, listRemove, listAdd, List.erase_cons_head,
      List.length_cons] at hlen
    omega
  | some pid =>
    have hforks : Forks env := hr.forks.mp rfl
    refine iff_of_true ⟨iff_of_true (Int.natCast_nonneg _) ?_, fun hneg => ?_⟩ hforks
    · refine ⟨⟨s.proc.id, congrArg Nat.cast hid, hlist, hid⟩, ?_, pid, hr.child pid rfl, rfl⟩
      rw [if_neg nofun]
      show s'.memory .proc = .live
      rw [hr.memory]
      exact (h.memory.live _).mpr (by simp [Proc.blocks])
    · dsimp only at hneg
      omega

/-- A call that returns -1 and has nothing. -/
theorem Whole.of_nothing (hlist : s.list = m.list) (hfds : Held s.fds [])
    (hmemory : Held s.memory []) : Whole m s (-1) where
  all := by
    refine iff_of_false (by decide) fun hadded => ?_
    obtain ⟨id, hid, -⟩ := hadded.list
    omega
  nothing _ := ⟨hlist, hfds, hmemory⟩

theorem check_ensures (h : Ready m s) :
    Ensures (check s env) (fun r => Whole m r.1 r.2 ↔
      (s.proc.binary ≠ none ∧ s.proc.args ≠ none ∧ s.proc.name ≠ none → Forks env))
      fun _ => False := by
  have hproc : s.memory .proc = .live := (h.memory.live _).mpr (by simp [Proc.blocks])
  rw [check, ensures_bind, access_ok hproc, ensures_ok, ensures_ite]
  refine ⟨fun hmissing => ?_, fun hall => ?_⟩
  · rw [ensures_bind]
    refine (processFree_ensures h.memory (List.Perm.refl _)).imp fun s' ⟨hnone, hlist, hfds⟩ => ?_
    refine iff_of_true (Whole.of_nothing (hlist.trans h.list) (hfds ▸ h.fds) hnone) ?_
    rintro ⟨hbinary, hargs, hname⟩
    rcases hmissing with hno | hno | hno
    · exact absurd hno hbinary
    · exact absurd hno hargs
    · exact absurd hno hname
  · refine (launch_ensures h).imp fun r hr => hr.trans ?_
    rw [not_or, not_or] at hall
    exact ⟨fun hforks _ => hforks, fun hforks => hforks hall⟩

/-- After a failure of `pthread_cond_init` the structure is used, and it is freed. -/
theorem condInit_ensures (h : Ready m s) :
    Ensures (condInit s env >>= fun s => check s env)
      (fun r => env.condInit = true ∧ (Whole m r.1 r.2 ↔
        (s.proc.binary ≠ none ∧ s.proc.args ≠ none ∧ s.proc.name ≠ none → Forks env)))
      fun _ => env.condInit = false := by
  rw [ensures_bind, condInit, ensures_ite]
  refine ⟨fun hcond => ?_, fun hcond => ?_⟩
  · exact (check_ensures h).mono (fun r hr => ⟨hcond, hr⟩) nofun
  · rw [Bool.not_eq_true] at hcond
    refine (processFree_ensures h.memory (List.Perm.refl _)).mono (fun s' ⟨hnone, _, _⟩ => ?_) nofun
    have hgone : s'.memory .proc ≠ .live := fun hlive => nomatch (hnone.live _).mp hlive
    rw [check, access_error hgone]
    exact hcond

end Call

theorem start_ensures (m : Manager) (env : Env) (binary : CString) (argv : List CString)
    (flags : Nat) (name : CString) (exitCallback : Bool) :
    Ensures (start m env binary argv flags name exitCallback)
      (fun r => Whole m r.1 r.2 ↔ Clean m env argv flags) fun _ => ¬Clean m env argv flags := by
  have hnone : Whole m (enter m env) (-1) :=
    Whole.of_nothing rfl ⟨List.nodup_nil, fun _ => by simp [enter]⟩
      ⟨List.nodup_nil, fun _ => by simp [enter]⟩
  unfold start
  simp only [ensures_ite, Bool.not_eq_true', Bool.not_eq_false]
  refine ⟨fun hno => ?_, fun hionice => ⟨fun hno => ?_, fun hout => ⟨fun hno => ?_, fun herr =>
    ⟨fun hno => ?_, fun hmalloc => ?_⟩⟩⟩⟩
  · exact iff_of_true hnone (Or.inl ⟨ionice, by simp, hno⟩)
  · exact iff_of_true hnone (Or.inl ⟨stdoutFlags, by simp, hno⟩)
  · exact iff_of_true hnone (Or.inl ⟨stderrFlags, by simp, hno⟩)
  · exact iff_of_true hnone (Or.inr (Or.inl hno))
  have hclean : Clean m env argv flags ↔
      m.nextid ≠ 2147483647 ∧ env.condInit = true ∧ (Copied env argv → Forks env) := by
    refine ⟨?_, fun hlate => Or.inr (Or.inr hlate)⟩
    rintro (⟨group, hgroup, hno⟩ | hno | hlate)
    · simp only [List.mem_cons, List.not_mem_nil, or_false] at hgroup
      rcases hgroup with rfl | rfl | rfl
      · cases hionice.symm.trans hno
      · cases hout.symm.trans hno
      · cases herr.symm.trans hno
    · cases hmalloc.symm.trans hno
    · exact hlate
  rw [hclean]
  have hproc : Held ((enter m env).malloc .proc).memory [.proc] :=
    Held.acquire ⟨List.nodup_nil, fun _ => by simp [enter]⟩ (List.not_mem_nil)
  rw [ensures_bind, getNextId, ensures_ite]
  refine ⟨fun hlast hlate => hlate.1 hlast, fun hid => ?_⟩
  simp only [ensures_ok]
  rw [ensures_bind]
  refine (cloneArgs_ensures (s := { (enter m env).malloc .proc with nextid := m.nextid + 1 }) hproc
    (by simp) (by simp)).mono ?_ (by rintro _ ⟨⟩)
  rintro ⟨s₁, args⟩ ⟨hsame₁, hargs, hheld₁⟩
  dsimp only
  generalize hname : strdup s₁ .name env.nameStrdup name = r₂
  obtain ⟨s₂, name'⟩ := r₂
  have hnot : Block.name ∉ argsBlocks args ++ [Block.proc] := fun hmem => by
    rcases List.mem_append.mp hmem with hmem | hmem
    · rcases mem_argsBlocks hmem with heq | ⟨i, heq⟩ <;> cases heq
    · cases List.mem_singleton.mp hmem
  obtain ⟨hsame₂, hname', hheld₂⟩ := strdup_held hheld₁ hnot hname
  generalize hbinary : strdup s₂ .binary env.binaryStrdup binary = r₃
  obtain ⟨s₃, binary'⟩ := r₃
  have hnot : Block.binary ∉
      (if name'.isSome then [Block.name] else []) ++ (argsBlocks args ++ [Block.proc]) := fun hmem => by
    rcases List.mem_append.mp hmem with hmem | hmem
    · split at hmem
      · cases List.mem_singleton.mp hmem
      · cases hmem
    · rcases List.mem_append.mp hmem with hmem | hmem
      · rcases mem_argsBlocks hmem with heq | ⟨i, heq⟩ <;> cases heq
      · cases List.mem_singleton.mp hmem
  obtain ⟨hsame₃, hbinary', hheld₃⟩ := strdup_held hheld₂ hnot hbinary
  have hcopied : Copied env argv ↔ binary' ≠ none ∧ args ≠ none ∧ name' ≠ none := by
    rw [hname', hbinary']
    unfold Copied
    rcases hargs with ⟨rfl, hmalloc, hall⟩ | ⟨rfl, hmissing⟩
    · exact ⟨fun h => ⟨h.2.2.2, by rintro ⟨⟩, h.2.2.1⟩, fun h => ⟨hmalloc, hall, h.2.2, h.1⟩⟩
    · exact iff_of_false (fun h => hmissing ⟨h.1, h.2.1⟩) fun h => h.2.1 rfl
  refine (condInit_ensures (m := m) ⟨?_, ?_, ?_⟩).mono ?_
    fun _ hcond hlate => by cases hcond.symm.trans hlate.2.1
  · rw [hsame₃, hsame₂, hsame₁]
    rfl
  · rw [hsame₃, hsame₂, hsame₁]
    exact ⟨List.nodup_nil, fun _ => by simp [State.malloc, enter]⟩
  · refine hheld₃.perm ((List.perm_append_comm_assoc _ _ _).trans ?_)
    cases args <;> simp [Proc.blocks, argsBlocks, argBlocks]
  · rintro r ⟨hcond, hr⟩
    rw [hr, hcopied]
    exact ⟨fun hforks => ⟨hid, hcond, hforks⟩, fun hlate => hlate.2.2⟩

/-- **Starting a process**: a call returns an id for an entry that it has added, or -1 and leaves
    nothing behind, if and only if it ends at its checks or at the first allocation, or an id is
    left, the condition variable is initialized, and a copy fails or the child is forked. -/
theorem start_whole_iff (m : Manager) (env : Env) (binary : CString) (argv : List CString)
    (flags : Nat) (name : CString) (exitCallback : Bool) :
    (∃ s ret, start m env binary argv flags name exitCallback = .ok (s, ret) ∧ Whole m s ret) ↔
      Clean m env argv flags := by
  have hstart := start_ensures m env binary argv flags name exitCallback
  cases hresult : start m env binary argv flags name exitCallback with
  | ok r =>
    rw [hresult] at hstart
    refine ⟨?_, fun hclean => ⟨r.1, r.2, rfl, hstart.mpr hclean⟩⟩
    rintro ⟨s, ret, hr, hwhole⟩
    cases hr
    exact hstart.mp hwhole
  | error fault =>
    rw [hresult] at hstart
    refine iff_of_false ?_ hstart
    rintro ⟨s, ret, hr, -⟩
    cases hr

/-- A list with nothing in it. -/
def empty : Manager := ⟨[], [], [], 1, by decide⟩

/-- Everything succeeds, except for `fork` as given. -/
def answers (fork : Option Nat) : Env where
  malloc := true
  garbage := ⟨0, none, none, none, none, 0, false, false, 0, 0, none, 0, none, none, none, false,
    false⟩
  argsMalloc := true
  argStrdup := fun _ => true
  nameStrdup := true
  binaryStrdup := true
  condInit := true
  out := true
  err := true
  pipeIn := true
  fork := fork

/-- **A child that is not forked**: the caller gets the id 1, and the list is empty. -/
theorem not_forked_id :
    ∃ s, start empty (answers none) ['a'] [] 0 ['a'] false = .ok (s, 1) ∧ s.list = [] ∧
      ¬Whole empty s 1 := by
  have hrun : ∃ r ∈ (start empty (answers none) ['a'] [] 0 ['a'] false).toOption,
      r.2 = 1 ∧ r.1.list = [] := by decide +kernel
  obtain ⟨⟨s, ret⟩, hr, hret, hlist⟩ := hrun
  dsimp only at hret hlist
  subst hret
  refine ⟨s, ?_, hlist, fun hwhole => ?_⟩
  · cases hstart : start empty (answers none) ['a'] [] 0 ['a'] false with
    | ok r =>
      rw [hstart] at hr
      cases hr
      rfl
    | error fault =>
      rw [hstart] at hr
      cases hr
  · obtain ⟨id, -, hadded, -⟩ := (hwhole.all.mp (by decide)).list
    rw [hlist] at hadded
    cases hadded

end Mediabox.ProcessStart
