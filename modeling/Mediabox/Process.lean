import Mathlib.Logic.Function.Basic
import Mediabox.Lib.Transition
import Mediabox.LinkedList

/-!
# The process manager (`src/lib/process.c`)

The process list, the children in the kernel, and the threads that work on them: the monitor
(`avbox_process_monitor_thread`), the timers thread with the callbacks of this module, and any
number of callers of `avbox_process_start`, `avbox_process_wait` and `avbox_process_stop`.

* A step ends where another thread can get in: at a lock that is not free, before a field is read or
  written without `process_list_lock`, and after every entry of the monitor's scan.  What is done
  under a lock that is taken and released in one go is one step.
* `avbox_process_autorestart` stores the pid twice, inside `avbox_process_fork` and after it, with
  `return proc->pid` between; the timers thread does all this without `process_list_lock`.
* The event brings what the code cannot decide: which zombie `waitpid` finds, the answers of `fork`
  and `malloc`, whether `kill` on a process that is no child succeeds, which timers have elapsed.
* A process structure is known by its id, which is never given twice.  Using one that was freed is
  no step.  An entry leaves the list and is freed in one step: from `LIST_REMOVE` to `free` the list
  stays locked.
* The owner of a child is bookkeeping: the entry it was forked for, or none for a child of other
  code.
* Left out: the standard streams, the I/O thread (which takes `process_list_lock` alone and changes
  no field used here), the clock behind the timers, and the timers of other modules.
-/

set_option autoImplicit false

namespace Mediabox.Process

open Transition

/-- The `AVBOX_PROCESS_*` flags that decide something here. -/
structure Flags where
  wait : Bool
  sigkill : Bool
  autorestart : Bool
  autorestartAlways : Bool
  deriving DecidableEq, Repr

/-- `struct callback_state`: the worker runs the exit callback, or it returned. -/
inductive Callback where
  | running
  | finished (result : Int)
  deriving DecidableEq, Repr

/-- `struct avbox_process`; `none` is the -1 of `pid` and of `force_kill_timer`, and the null
    pointer in `cbstate`. -/
structure Proc where
  pid : Option Nat
  exitStatus : Int
  exitted : Bool
  stopping : Bool
  forceKillTimer : Option Nat
  autorestartDelay : Nat
  flags : Flags
  exitCallback : Bool
  cbstate : Option Callback
  deriving DecidableEq, Repr

/-- A child that was not reaped yet; once it has died, with its wait status. -/
structure Child where
  owner : Option Nat
  status : Option Nat
  deriving DecidableEq, Repr

/-- The callbacks of this module, with the entry they get. -/
inductive TimerCallback where
  /-- `avbox_process_autorestart` -/
  | autorestart (id : Nat)
  /-- `avbox_process_force_kill` -/
  | forceKill (id : Nat)
  deriving DecidableEq, Repr

/-- A registered timer. -/
structure Timer where
  id : Nat
  callback : TimerCallback
  deriving DecidableEq, Repr

inductive Tid (τ : Type*) where
  | monitor
  | timers
  | caller (t : τ)
  deriving DecidableEq, Repr

/-- What `waitpid` gave: the pid and the wait status; `none` is the pid -2. -/
abbrev Target := Option (Nat × Nat)

/-- Where the scan stands: before the next entry, or at an entry that it handles. -/
inductive Stage where
  | next
  /-- before the test for a restart, with `cbresult` -/
  | deciding (id : Nat) (cbresult : Int)
  /-- the test said restart -/
  | restarting (id : Nat)
  /-- in `avbox_timer_register`, before `timers_lock` -/
  | registering (id : Nat)
  /-- in the `avbox_timer_cancel` of `avbox_process_free`, before `timers_lock` -/
  | cancelling (id timer : Nat)
  deriving DecidableEq, Repr

/-- The monitor thread. -/
inductive MonitorPc where
  | poll
  /-- `waitpid` returned; the list is to be locked -/
  | reaped (target : Target)
  /-- in the loop over the list, with the entries still to come -/
  | scan (target : Target) (todo : List Nat) (stage : Stage)
  | exited
  deriving DecidableEq, Repr

/-- The timers thread; `todo` are the elapsed timers that the pass has not come to. -/
inductive TimersPc where
  | asleep
  | pass (todo : List Nat)
  /-- in `avbox_process_force_kill`, before `process_list_lock` -/
  | forceKill (timer id : Nat) (todo : List Nat)
  /-- in `avbox_process_autorestart`, after `fork()` and before its result is stored -/
  | forked (id pid : Nat) (todo : List Nat)
  /-- the pid is stored; `avbox_process_fork` is to return `proc->pid` -/
  | stored (id pid : Nat) (todo : List Nat)
  /-- this was returned, and is to be stored again -/
  | returned (id : Nat) (pid : Option Nat) (todo : List Nat)
  deriving DecidableEq, Repr

/-- A caller of the interface. -/
inductive CallerPc where
  | idle
  /-- `avbox_process_wait`, in `pthread_cond_wait` -/
  | waiting (id : Nat)
  /-- `avbox_process_wait`, in the `avbox_timer_cancel` of `avbox_process_free`, before
      `timers_lock` -/
  | cancelling (id timer : Nat)
  /-- `avbox_process_stop`, with the entry that it found -/
  | found (id : Nat)
  /-- `avbox_process_stop`, before `stopping` is set -/
  | marking (id pid : Nat)
  /-- `avbox_process_stop`, before `kill` -/
  | killing (id pid : Nat)
  /-- `avbox_process_stop`, in `avbox_timer_register`, before `timers_lock` -/
  | registering (id : Nat)
  /-- `avbox_process_stop`, before `force_kill_timer` is stored -/
  | storing (id timer : Nat)
  deriving DecidableEq, Repr

structure State (τ : Type*) where
  procs : Nat → Option Proc
  list : List Nat
  nextId : Nat
  children : Nat → Option Child
  timers : List Timer
  nextTimer : Nat
  listLock : Option (Tid τ)
  timersLock : Option (Tid τ)
  monitor : MonitorPc
  timersPc : TimersPc
  callers : τ → CallerPc
  quit : Bool

def init {τ : Type*} : State τ :=
  ⟨fun _ => none, [], 1, fun _ => none, [], 1, none, none, .poll, .asleep, fun _ => .idle, false⟩

inductive MonitorEvent where
  /-- `waitpid`, with the zombie it reaps -/
  | waitpid (pid : Option Nat)
  | lock
  /-- the next entry; `delegated` is the answer of `avbox_workqueue_delegate`, where it is called -/
  | visit (delegated : Bool)
  | decide
  /-- `avbox_process_autorestart` without delay, with the answer of `fork` -/
  | fork (pid : Option Nat)
  /-- `avbox_timer_register` up to the lock: whether `acquire_timer` got a timer -/
  | acquire (ok : Bool)
  | register
  | cancel
  | unlock
  | exit
  deriving DecidableEq, Repr

inductive TimersEvent where
  /-- a pass begins; these timers have elapsed -/
  | wake (elapsed : List Nat)
  /-- the callback of the next timer, with the answer of `fork` -/
  | call (pid : Option Nat)
  | kill
  | store
  | load
  | restore
  | sleep
  deriving DecidableEq, Repr

inductive CallerEvent where
  /-- `avbox_process_start`, with the answer of `fork`.  The code sets the delay to 5 and nothing
      changes it; here any delay is covered. -/
  | start (flags : Flags) (delay : Nat) (exitCallback : Bool) (pid : Option Nat)
  | wait (id : Nat)
  /-- `pthread_cond_wait` returns -/
  | wakeup
  | cancel
  | stop (id : Nat)
  | read
  | mark
  /-- `kill`, and then whether `acquire_timer` got a timer -/
  | kill (ok acquired : Bool)
  | register
  | store
  deriving DecidableEq, Repr

inductive Event (τ : Type*) where
  | monitor (e : MonitorEvent)
  | timers (e : TimersEvent)
  | caller (t : τ) (e : CallerEvent)
  /-- a child dies -/
  | die (pid status : Nat)
  /-- other code forks -/
  | spawn (pid : Nat)
  /-- the exit callback of an entry returns in its worker -/
  | callback (id : Nat) (result : Int)
  /-- `avbox_process_shutdown` sets `quit`; the calls of `avbox_process_stop` are a caller's -/
  | shutdown
  deriving DecidableEq, Repr

/-- What a step shows. -/
inductive Outcome where
  | done
  /-- `waitpid` reaped this child, forked for this entry -/
  | reaped (pid : Nat) (owner : Option Nat)
  /-- the scan found the reaped pid in this entry -/
  | found (id pid : Nat)
  /-- `fork` was called for this entry -/
  | forked (id : Nat) (pid : Option Nat)
  /-- the restart timer of this entry could not be registered -/
  | noTimer (id : Nat)
  /-- `avbox_process_wait` returned 0 and this exit status -/
  | waited (id : Nat) (status : Int)
  /-- `avbox_process_wait` returned -1 -/
  | failed (id : Nat)
  /-- `avbox_process_stop` returned -/
  | stopped (id : Nat) (ret : Int)
  deriving DecidableEq, Repr

variable {τ : Type*}

/-! ## The parts of a step -/

/-- `WEXITSTATUS`. -/
def wexitstatus (status : Nat) : Int := (status / 256 % 256 : Nat)

def State.setProc (s : State τ) (id : Nat) (p : Proc) : State τ :=
  { s with procs := Function.update s.procs id (some p) }

/-- `LIST_REMOVE`, and the end of `avbox_process_free`. -/
def State.free (s : State τ) (id : Nat) : State τ :=
  { s with procs := Function.update s.procs id none, list := listRemove s.list id }

/-- The kernel makes a child; its pid was not in use. -/
def State.fork (s : State τ) (owner : Option Nat) (pid : Nat) : Option (State τ) :=
  if s.children pid = none then
    some { s with children := Function.update s.children pid (some ⟨owner, none⟩) }
  else none

/-- The end of `avbox_timer_register`, under `timers_lock`. -/
def State.addTimer (s : State τ) (callback : TimerCallback) : State τ :=
  { s with timers := listAdd s.timers ⟨s.nextTimer, callback⟩, nextTimer := s.nextTimer + 1 }

/-- A timer leaves the list of timers. -/
def State.dropTimer (s : State τ) (timer : Nat) : State τ :=
  { s with timers := s.timers.eraseP fun t => t.id = timer }

/-- The condition for a restart, after the exit callback returned `cbresult`. -/
def restarts (p : Proc) (cbresult : Int) : Bool :=
  cbresult = 0 && (p.flags.autorestartAlways || (p.exitStatus ≠ 0 && p.flags.autorestart)) &&
    !p.stopping

/-! ## The monitor thread -/

/-- The body of the loop, up to the test for a restart. -/
def visit (s : State τ) (target : Target) (todo : List Nat) (id : Nat) (p : Proc)
    (delegated : Bool) : State τ × Outcome :=
  let next (stage : Stage) : State τ := { s with monitor := .scan target todo stage }
  match target.filter fun t => p.pid = some t.1, p.cbstate with
  | some (pid, status), _ =>
    let p := { p with pid := none, exitStatus := wexitstatus status }
    if p.exitCallback then
      if delegated then ((next .next).setProc id { p with cbstate := some .running }, .found id pid)
      else ((next (.deciding id 0)).setProc id { p with cbstate := none }, .found id pid)
    else ((next (.deciding id 0)).setProc id p, .found id pid)
  | none, some (.finished result) =>
    ((next (.deciding id result)).setProc id { p with cbstate := none }, .done)
  | none, _ => (next .next, .done)

/-- The test for a restart, and what follows when there is none. -/
def conclude (s : State τ) (target : Target) (todo : List Nat) (id : Nat) (p : Proc)
    (cbresult : Int) : State τ :=
  let next (stage : Stage) : State τ := { s with monitor := .scan target todo stage }
  if restarts p cbresult then next (.restarting id)
  else if p.flags.wait then (next .next).setProc id { p with exitted := true }
  else
    match p.forceKillTimer with
    | some timer => next (.cancelling id timer)
    | none => (next .next).free id

/-- One step of `avbox_process_monitor_thread`. -/
def stepMonitor (s : State τ) (e : MonitorEvent) : Option (State τ × Outcome) :=
  match s.monitor, e with
  | .poll, .waitpid none =>
    if s.quit = false ∨ s.list ≠ [] then some ({ s with monitor := .reaped none }, .done) else none
  | .poll, .waitpid (some pid) =>
    if s.quit = false ∨ s.list ≠ [] then
      match s.children pid with
      | some ⟨owner, some status⟩ =>
        some ({ s with
          monitor := .reaped (some (pid, status))
          children := Function.update s.children pid none }, .reaped pid owner)
      | _ => none
    else none
  | .poll, .exit =>
    if s.quit = true ∧ s.list = [] then some ({ s with monitor := .exited }, .done) else none
  | .reaped target, .lock =>
    if s.listLock = none then
      some ({ s with monitor := .scan target s.list .next, listLock := some .monitor }, .done)
    else none
  | .scan target (id :: todo) .next, .visit delegated =>
    (s.procs id).map fun p => visit s target todo id p delegated
  | .scan target todo (.deciding id cbresult), .decide =>
    (s.procs id).map fun p => (conclude s target todo id p cbresult, .done)
  | .scan target todo (.restarting id), .fork pid =>
    (s.procs id).bind fun p =>
      if p.autorestartDelay = 0 then
        let s := { s with monitor := .scan target todo .next }
        match pid with
        | none => some (s.setProc id { p with pid := none }, .forked id none)
        | some pid =>
          (s.fork (some id) pid).map fun s =>
            (s.setProc id { p with pid := some pid }, .forked id (some pid))
      else none
  | .scan target todo (.restarting id), .acquire ok =>
    (s.procs id).bind fun p =>
      if p.autorestartDelay = 0 then none
      else if ok then some ({ s with monitor := .scan target todo (.registering id) }, .done)
      else some ({ s with monitor := .scan target todo .next }, .noTimer id)
  | .scan target todo (.registering id), .register =>
    if s.timersLock = none then
      some ({ s with monitor := .scan target todo .next }.addTimer (.autorestart id), .done)
    else none
  | .scan target todo (.cancelling id timer), .cancel =>
    if s.timersLock = none then
      some (({ s with monitor := .scan target todo .next }.dropTimer timer).free id, .done)
    else none
  | .scan _ [] .next, .unlock => some ({ s with monitor := .poll, listLock := none }, .done)
  | _, _ => none

/-! ## The timers thread -/

/-- One step of `avbox_timers_thread`, as far as the timers of this module go. -/
def stepTimers (s : State τ) (e : TimersEvent) : Option (State τ × Outcome) :=
  match s.timersPc, e with
  | .asleep, .wake elapsed =>
    if s.timersLock = none then
      let todo := (s.timers.map Timer.id).filter fun timer => timer ∈ elapsed
      some ({ s with timersPc := .pass todo, timersLock := some .timers }, .done)
    else none
  | .pass (timer :: todo), .call pid =>
    match s.timers.find? fun t => t.id = timer with
    | none => some ({ s with timersPc := .pass todo }, .done)
    | some ⟨_, .forceKill id⟩ =>
      (s.procs id).map fun _ => ({ s with timersPc := .forceKill timer id todo }, .done)
    | some ⟨_, .autorestart id⟩ =>
      (s.procs id).bind fun p =>
        -- the callback will return STOP, and the lock is held till then
        let s := s.dropTimer timer
        match pid with
        | none =>
          some ({ s with timersPc := .pass todo }.setProc id { p with pid := none },
            .forked id none)
        | some pid =>
          (s.fork (some id) pid).map fun s =>
            ({ s with timersPc := .forked id pid todo }, .forked id (some pid))
  | .forceKill timer id todo, .kill =>
    if s.listLock = none then
      if id ∈ s.list then some ({ s with timersPc := .pass todo }, .done)
      else some ({ s with timersPc := .pass todo }.dropTimer timer, .done)
    else none
  | .forked id pid todo, .store =>
    (s.procs id).map fun p =>
      ({ s with timersPc := .stored id pid todo }.setProc id { p with pid := some pid }, .done)
  | .stored id _ todo, .load =>
    (s.procs id).map fun p => ({ s with timersPc := .returned id p.pid todo }, .done)
  | .returned id pid todo, .restore =>
    (s.procs id).map fun p =>
      ({ s with timersPc := .pass todo }.setProc id { p with pid := pid }, .done)
  | .pass [], .sleep => some ({ s with timersPc := .asleep, timersLock := none }, .done)
  | _, _ => none

/-! ## The callers -/

variable [DecidableEq τ]

def State.setCaller (s : State τ) (t : τ) (pc : CallerPc) : State τ :=
  { s with callers := Function.update s.callers t pc }

/-- The end of `avbox_process_wait`. -/
def endWait (s : State τ) (t : τ) (id : Nat) (p : Proc) : State τ × Outcome :=
  match p.forceKillTimer with
  | some timer =>
    ({ s with listLock := some (.caller t) }.setCaller t (.cancelling id timer), .done)
  | none => ((s.free id).setCaller t .idle, .waited id p.exitStatus)

/-- One step of a caller. -/
def stepCaller (s : State τ) (t : τ) (e : CallerEvent) : Option (State τ × Outcome) :=
  match s.callers t, e with
  | .idle, .start flags delay exitCallback pid =>
    if s.listLock = none then
      let id := s.nextId
      let s := { s with nextId := s.nextId + 1 }
      match pid with
      | none => some (s, .forked id none)
      | some pid =>
        let p : Proc := ⟨some pid, -1, false, false, none, delay, flags, exitCallback, none⟩
        (s.fork (some id) pid).map fun s =>
          ({ s with list := listAdd s.list id }.setProc id p, .forked id (some pid))
    else none
  | .idle, .wait id =>
    if s.listLock = none then
      match s.procs id with
      | none => some (s, .failed id)
      | some p =>
        if p.flags.wait = false then some (s, .failed id)
        else if p.exitted then some (endWait s t id p)
        else some (s.setCaller t (.waiting id), .done)
    else none
  | .waiting id, .wakeup =>
    if s.listLock = none then (s.procs id).map fun p => endWait s t id p else none
  | .cancelling id timer, .cancel =>
    if s.timersLock = none then
      (s.procs id).map fun p =>
        ((({ s with listLock := none }.dropTimer timer).free id).setCaller t .idle,
          .waited id p.exitStatus)
    else none
  | .idle, .stop id =>
    if s.listLock = none then
      match s.procs id with
      | none => some (s, .stopped id (-1))
      | some _ => some (s.setCaller t (.found id), .done)
    else none
  | .found id, .read =>
    (s.procs id).map fun p =>
      match p.pid with
      | none => (s.setCaller t .idle, .stopped id 0)
      | some pid => (s.setCaller t (.marking id pid), .done)
  | .marking id pid, .mark =>
    (s.procs id).map fun p =>
      ((s.setCaller t (.killing id pid)).setProc id { p with stopping := true }, .done)
  | .killing id pid, .kill ok acquired =>
    (s.procs id).bind fun p =>
      if ok = false then
        -- a child that was not reaped can be signalled
        if s.children pid = none then some (s.setCaller t .idle, .stopped id (-1)) else none
      else if p.flags.sigkill then some (s.setCaller t .idle, .stopped id 0)
      else if acquired then some (s.setCaller t (.registering id), .done)
      else
        some ((s.setCaller t .idle).setProc id { p with forceKillTimer := none }, .stopped id (-1))
  | .registering id, .register =>
    if s.timersLock = none then
      some ((s.setCaller t (.storing id s.nextTimer)).addTimer (.forceKill id), .done)
    else none
  | .storing id timer, .store =>
    (s.procs id).map fun p =>
      ((s.setCaller t .idle).setProc id { p with forceKillTimer := some timer }, .stopped id 0)
  | _, _ => none

/-- One step. -/
def step (s : State τ) : Event τ → Option (State τ × Outcome)
  | .monitor e => stepMonitor s e
  | .timers e => stepTimers s e
  | .caller t e => stepCaller s t e
  | .die pid status =>
    match s.children pid with
    | some ⟨owner, none⟩ =>
      let c : Child := ⟨owner, some status⟩
      some ({ s with children := Function.update s.children pid (some c) }, .done)
    | _ => none
  | .spawn pid => (s.fork none pid).map fun s => (s, .done)
  | .callback id result =>
    match s.procs id with
    | some p =>
      if p.cbstate = some .running then
        some (s.setProc id { p with cbstate := some (.finished result) }, .done)
      else none
    | none => none
  | .shutdown => some ({ s with quit := true }, .done)

end Mediabox.Process
