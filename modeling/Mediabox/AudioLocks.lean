import Mediabox.Audio
import Mediabox.Lib.LockGraph

/-!
# The locks of the output thread of `src/lib/audio.c`

`avbox_audiostream_output` as a flow graph, from the set-up of the device to its `return`.  It
takes `io_lock` at seven places, `queue_lock` at one and, in `release_packet`, `pool_lock`; what
decides its way are the answers of ALSA, of the packet queue and of the memory it shares with the
threads that write, pause, drop and destroy.  All answers are possible at all times.

* `code` — the graph: each `goto end`, `continue` and `pthread_cond_wait` is an edge.
* `Pc.held` — the lock that belongs to each point.
* `RecoversAfterTimeout` — after a `avbox_queue_timedpeek` that timed out, `snd_pcm_recover` mends
  the error of `snd_pcm_avail`.
* `Disciplined` — what is asked of the thread: no lock is taken twice, the way from `end` is
  completed, and nothing is held at `return`.

Main result: `output_disciplined`.  `io_lock_taken_twice` is a device that disappears while the
thread looks for the reason of a timeout.
-/

set_option autoImplicit false

namespace Mediabox.AudioLocks

open Transition LockGraph Audio

/-! ## The graph -/

inductive Lock where
  | io
  | queue
  | pool
deriving DecidableEq, Repr

/-- `errno` after a peek that returned `NULL`. -/
inductive Errno where
  | eagain
  | eshutdown
  | other
deriving DecidableEq, Repr

/-- `snd_pcm_state_t`. -/
inductive PcmState where
  | opened
  | setup
  | prepared
  | running
  | xrun
  | draining
  | paused
  | suspended
  | disconnected
deriving DecidableEq, Repr

/-- What the environment answers to the call, or the read of shared memory, at a point. -/
inductive Answer where
  | ready (period bufferSize : Nat)
  | noDevice
  | badDevice
  | avail (n : Int)
  | recover (err : Int)
  | peeked (packet : Except Errno PacketType)
  | state (st : PcmState)
  | nFrames (n : Nat)
  | ret (err : Int)
  | offset (differs : Bool)
  | same (b : Bool)
  | written (frames : Int)
  | none
deriving Repr

/-- The fields of the stream, and the locals of the thread, that decide its way. -/
structure Data where
  underrun : Bool
  running : Bool
  quit : Bool
  paused : Bool
  pcmHandle : Bool
  frames : Int
  period : Nat
  bufferSize : Nat
deriving DecidableEq, Repr

/-- The points of `avbox_audiostream_output`. -/
inductive Pc where
  /- set-up of the device -/
  | setup
  | started
  | startLock
  | startUnlock
  /- `while (1)`, and the wait for a packet while the device plays -/
  | loop
  | availLock
  | avail
  | availFailed (err : Int)
  | availRecover (err : Int)
  | availUnlock
  | timedpeek
  | timeoutLock
  | timeoutAvail
  | timeoutRecover (err : Int)
  | timeoutState
  | timeoutUnlock (st : PcmState)
  | timeoutTest (st : PcmState)
  /- the wait after an underrun -/
  | peek
  /- a control packet -/
  | clockLock
  | clockDrain
  | clockSet
  | clockUnlock
  | clockGet
  /- room for a fragment -/
  | size
  | availMin (n : Nat)
  | offset (n : Nat)
  | room (n : Nat)
  | roomWait (n : Nat)
  | roomRecover (err : Int)
  /- the fragment -/
  | writeLock (n : Nat)
  | writeTest (n : Nat)
  | quitUnlock
  | pausedSleep
  | pausedWake
  | pausedUnlock
  | writePeek (n : Nat)
  | changedUnlock
  | writei (n : Nat)
  | retryUnlock
  | writeRecover (err : Int)
  | writeFailed
  | written (frames : Int)
  | writeUnlock
  | queueLock
  | queueUnlock
  | sizeLeft
  | get
  | releaseLock
  | releaseUnlock
  | aborted
  /- `end:` -/
  | endLock
  | endClose
  | endRunning
  | endUnlock
  | returned
deriving DecidableEq, Repr

/-- `#define NONBLOCK (0)`. -/
def nonblock : Bool := false

/-- `-EAGAIN` and `-EBUSY`. -/
def busy (err : Int) : Bool := err = -11 ∨ err = -16

/-- `avbox_audiostream_recover`: the answer is what `snd_pcm_recover` returns; `yes` is the way on
    when it is not negative. -/
def recover (yes no : Pc) (d : Data) : Answer → Option (Data × Pc)
  | .recover err => some (d, if err < 0 then no else yes)
  | _ => Option.none

/-- The device is set up; each error goes to `end`, with or without a device to close. -/
def setup (d : Data) : Answer → Option (Data × Pc)
  | .ready period bufferSize =>
    some ({ d with pcmHandle := true, period := period, bufferSize := bufferSize }, .started)
  | .noDevice => some (d, .endLock)
  | .badDevice => some ({ d with pcmHandle := true }, .endLock)
  | _ => Option.none

/-- `snd_pcm_avail`, with a way for each of its results. -/
def availTo (next : Int → Pc) (d : Data) : Answer → Option (Data × Pc)
  | .avail n => some (d, next n)
  | _ => Option.none

/-- `packet->type` decides between the two kinds of packets. -/
def dispatch : PacketType → Pc
  | .clockSet => .clockLock
  | .dataPacket => .size

def timedpeek (d : Data) : Answer → Option (Data × Pc)
  | .peeked (.ok type) => some (d, dispatch type)
  | .peeked (.error .eagain) => some (d, .timeoutLock)
  | .peeked (.error _) => some (d, .endLock)
  | _ => Option.none

def peek (d : Data) : Answer → Option (Data × Pc)
  | .peeked (.ok type) => some ({ d with underrun := false }, dispatch type)
  | .peeked (.error .eagain) => some (d, .loop)
  | .peeked (.error _) => some (d, .endLock)
  | _ => Option.none

/-- A step without a call of the environment. -/
def plain (f : Data → Data × Pc) (d : Data) : Answer → Option (Data × Pc)
  | .none => some (f d)
  | _ => Option.none

/-- A test of a value that the environment gives. -/
def same (yes no : Pc) (d : Data) : Answer → Option (Data × Pc)
  | .same b => some (d, if b then yes else no)
  | _ => Option.none

/-- The size of the packet, which other threads may have changed. -/
def nFrames (next : Nat → Pc) (d : Data) : Answer → Option (Data × Pc)
  | .nFrames n => some (d, next n)
  | _ => Option.none

def ret (next : Int → Pc) (d : Data) : Answer → Option (Data × Pc)
  | .ret err => some (d, next err)
  | _ => Option.none

/-- Is this still playing, or not started at all: then it is not an underrun. -/
def stillWaiting (d : Data) (st : PcmState) : Bool :=
  d.frames = 0 ∨ st = .running ∨ st = .paused ∨ st = .suspended


/-- `avbox_audiostream_output`. -/
def code : Pc → Instr Pc Lock Data Answer
  | .setup => .run setup
  | .started => .run (plain fun d => ({ d with running := true }, .startLock))
  | .startLock => .lock .io .startUnlock
  | .startUnlock => .unlock .io .loop
  | .loop => .run (plain fun d => (d, if d.underrun then .peek else .availLock))
  | .availLock => .lock .io .avail
  | .avail => .run (availTo fun n => if n < 0 then .availFailed n else .availUnlock)
  | .availFailed err => .unlock .io (.availRecover err)
  | .availRecover _ => .run (recover .loop .endLock)
  | .availUnlock => .unlock .io .timedpeek
  | .timedpeek => .run timedpeek
  | .timeoutLock => .lock .io .timeoutAvail
  | .timeoutAvail => .run (availTo fun n => if n < 0 then .timeoutRecover n else .timeoutState)
  -- `goto end` with the lock held
  | .timeoutRecover _ => .run (recover .timeoutState .endLock)
  | .timeoutState => .run fun d a =>
      match a with
      | .state st => some (d, .timeoutUnlock st)
      | _ => none
  | .timeoutUnlock st => .unlock .io (.timeoutTest st)
  | .timeoutTest st => .run (plain fun d =>
      (if stillWaiting d st then d else { d with underrun := true }, .loop))
  | .peek => .run peek
  | .clockLock => .lock .io .clockDrain
  -- `avbox_audiostream_pcm_drain` waits until the device is empty
  | .clockDrain => .run fun d a =>
      availTo (fun n => if 0 < n ∧ n < d.bufferSize then .clockDrain else .clockSet) d a
  | .clockSet => .run (plain fun d => ({ d with frames := 0 }, .clockUnlock))
  | .clockUnlock => .unlock .io .clockGet
  | .clockGet => .run (same .releaseLock .aborted)
  | .size => .run fun d a => nFrames (fun n => .availMin (min d.period n)) d a
  | .availMin n => .run (ret fun err => if err < 0 then .endLock else .offset n)
  | .offset n => .run fun d a =>
      match a with
      | .offset differs => some (d, if differs then .room n else .writeLock n)
      | _ => none
  | .room n => .run (availTo fun avail =>
      if 0 < avail ∧ avail < n then .roomWait n
      else if avail < 0 then .roomRecover avail
      else .writeLock n)
  | .roomWait n => .run (ret fun err => if err = 0 then .loop else .writeLock n)
  | .roomRecover _ => .run (recover .loop .endLock)
  | .writeLock n => .lock .io (.writeTest n)
  | .writeTest n => .run (plain fun d =>
      (d, if d.quit then .quitUnlock else if d.paused then .pausedSleep else .writePeek n))
  | .quitUnlock => .unlock .io .endLock
  -- `pthread_cond_wait` releases the lock and takes it again
  | .pausedSleep => .unlock .io .pausedWake
  | .pausedWake => .lock .io .pausedUnlock
  | .pausedUnlock => .unlock .io .loop
  | .writePeek n => .run (same (.writei n) .changedUnlock)
  | .changedUnlock => .unlock .io .loop
  | .writei _ => .run fun d a =>
      match a with
      | .written frames =>
        some (d, if frames < 0 then
            if nonblock && busy frames then .retryUnlock else .writeRecover frames
          else .written frames)
      | _ => none
  | .retryUnlock => .unlock .io .loop
  | .writeRecover err => .run (recover (.written err) .writeFailed)
  | .writeFailed => .unlock .io .endLock
  | .written frames => .run (plain fun d => ({ d with frames := d.frames + frames }, .writeUnlock))
  | .writeUnlock => .unlock .io .queueLock
  | .queueLock => .lock .queue .queueUnlock
  | .queueUnlock => .unlock .queue .sizeLeft
  | .sizeLeft => .run (nFrames fun n => if n = 0 then .get else .loop)
  | .get => .run (same .releaseLock .aborted)
  | .releaseLock => .lock .pool .releaseUnlock
  | .releaseUnlock => .unlock .pool .loop
  | .aborted => .halt
  | .endLock => .lock .io .endClose
  | .endClose => .run (plain fun d => ({ d with pcmHandle := false }, .endRunning))
  | .endRunning => .run (plain fun d => ({ d with running := false }, .endUnlock))
  | .endUnlock => .unlock .io .returned
  | .returned => .halt

/-! ## The other threads -/

/-- What the other threads do to the fields: `avbox_audiostream_pause` and
    `avbox_audiostream_resume`, and the shutdown by `avbox_audiostream_destroy`. -/
inductive Act where
  | pause
  | resume
  | quit
deriving DecidableEq, Repr

/-- All of it is done under `io_lock`, except a pause while there is no device. -/
def act (held : Lock → Bool) (d : Data) : Act → Option Data
  | .pause => if held .io = true ∨ d.pcmHandle = false then some { d with paused := true } else none
  | .resume => if held .io = true then some { d with paused := false } else none
  | .quit => if held .io = true ∧ d.running = true then some { d with quit := true } else none

abbrev Thread := LockGraph.State Pc Lock Data

/-- A step of the output thread or of another one. -/
def step : Thread → Event Lock Answer Act → Option (Thread × Unit) := LockGraph.step code act

/-- The thread as `avbox_audiostream_start` creates it, with `io_lock` held until that call waits
    for the thread. -/
def init : Thread where
  pc := .setup
  owner := fun l => if l = .io then some (.other 0) else none
  data := ⟨true, false, false, false, false, 0, 0, 0⟩

/-! ## What is asked of the thread -/

/-- The points from the label `end` on. -/
def Pc.ending : Pc → Bool
  | .endLock | .endClose | .endRunning | .endUnlock | .returned => true
  | _ => false

/-- How many steps are left from a point after `end` to the return. -/
def Pc.left : Pc → Nat
  | .endLock => 4
  | .endClose => 3
  | .endRunning => 2
  | .endUnlock => 1
  | _ => 0

/-- The steps of the output thread among the steps of all. -/
def ownSteps (tr : List (Event Lock Answer Act × Unit)) : Nat := tr.countP fun a => a.1.isOwn

/-- The output thread can take a step, or another thread has the lock it is to take. -/
def Moves (s : Thread) : Prop :=
  (∃ e t, e.isOwn = true ∧ step s e = some (t, ())) ∨ ∃ i, s.owner .io = some (.other i)

/-- From `s` on, whatever the other threads do, the output thread is never stuck, and the final
    unlock is reached after four of its steps with `running` cleared. -/
def Completes (s : Thread) : Prop :=
  ∀ tr t, Run (Step step) s tr t →
    (t.pc = .endUnlock → t.data.running = false ∧ t.owner .io = some .self) ∧
      (ownSteps tr < 4 → Moves t) ∧ (ownSteps tr = 4 → t.pc = .returned)

/-- The lock discipline of the output thread. -/
structure Disciplined (s : Thread) : Prop where
  no_relock : ∀ l next, code s.pc = .lock l next → s.owner l ≠ some .self
  completes : s.pc = .endLock → Completes s
  returned : s.pc = .returned → s.data.running = false ∧ ∀ l, s.owner l ≠ some .self

/-- The call of `avbox_audiostream_recover` after a peek that timed out. -/
def Pc.afterTimeout : Pc → Bool
  | .timeoutRecover _ => true
  | _ => false

/-- `snd_pcm_recover` succeeds, if this is its answer. -/
def Answer.recovers : Answer → Bool
  | .recover err => 0 ≤ err
  | _ => true

/-- After a timeout, the error of `snd_pcm_avail` is mended. -/
def RecoversAfterTimeout (p : Pc) (_ : Data) (a : Answer) : Prop :=
  p.afterTimeout = true → a.recovers = true

instance (p : Pc) (d : Data) (a : Answer) : Decidable (RecoversAfterTimeout p d a) :=
  inferInstanceAs (Decidable (_ → _))

/-! ## The annotation -/

/-- The lock that belongs to a point: the thread never holds two. -/
def Pc.held : Pc → Option Lock
  | .startUnlock | .avail | .availFailed _ | .availUnlock | .timeoutAvail | .timeoutRecover _
  | .timeoutState | .timeoutUnlock _ | .clockDrain | .clockSet | .clockUnlock | .writeTest _
  | .quitUnlock | .pausedSleep | .pausedUnlock | .writePeek _ | .changedUnlock | .writei _
  | .retryUnlock | .writeRecover _ | .writeFailed | .written _ | .writeUnlock | .endClose
  | .endRunning | .endUnlock => some .io
  | .queueUnlock => some .queue
  | .releaseUnlock => some .pool
  | _ => none

def Pc.holds (p : Pc) (l : Lock) : Bool := p.held = some l

/-- The points after `running = 0`. -/
def Pc.cleared : Pc → Bool
  | .endUnlock | .returned => true
  | _ => false

/-- What an answer leaves as it is. -/
def Pc.mark (p : Pc) : Option Lock × Bool := (p.held, p.cleared)

theorem holds_lock (p : Pc) (l : Lock) (q : Pc) (h : code p = .lock l q) :
    p.holds l = false ∧ q.holds = Function.update p.holds l true := by
  cases p with
  | startLock | availLock | timeoutLock | clockLock | writeLock | pausedWake | queueLock
  | releaseLock | endLock =>
    cases h
    refine ⟨rfl, ?_⟩
    funext k
    cases k <;> rfl
  | _ => cases h

theorem holds_unlock (p : Pc) (l : Lock) (q : Pc) (h : code p = .unlock l q) :
    p.holds l = true ∧ q.holds = Function.update p.holds l false := by
  cases p with
  | startUnlock | availFailed | availUnlock | timeoutUnlock | clockUnlock | quitUnlock
  | pausedSleep | pausedUnlock | changedUnlock | retryUnlock | writeFailed | writeUnlock
  | queueUnlock | releaseUnlock | endUnlock =>
    cases h
    refine ⟨rfl, ?_⟩
    funext k
    cases k <;> rfl
  | _ => cases h


section Answers

variable {d : Data} {a : Answer} {r : Data × Pc} {yes no : Pc}

theorem recover_to (h : recover yes no d a = some r) :
    r.2 = yes ∨ r.2 = no ∧ a.recovers = false := by
  cases a with
  | recover err =>
    cases h
    by_cases herr : err < 0
    · exact .inr ⟨if_pos herr, decide_eq_false (by omega)⟩
    · exact .inl (if_neg herr)
  | _ => cases h

theorem plain_to {f : Data → Data × Pc} (h : plain f d a = some r) : r = f d := by
  cases a with
  | none =>
    cases h
    rfl
  | _ => cases h

theorem availTo_to {next : Int → Pc} (h : availTo next d a = some r) : ∃ n, r = (d, next n) := by
  cases a with
  | avail n =>
    cases h
    exact ⟨n, rfl⟩
  | _ => cases h

theorem same_to (h : same yes no d a = some r) : r.2 = yes ∨ r.2 = no := by
  cases a with
  | same b =>
    cases h
    cases b
    · exact .inr rfl
    · exact .inl rfl
  | _ => cases h

theorem nFrames_to {next : Nat → Pc} (h : nFrames next d a = some r) : ∃ n, r = (d, next n) := by
  cases a with
  | nFrames n =>
    cases h
    exact ⟨n, rfl⟩
  | _ => cases h

theorem ret_to {next : Int → Pc} (h : ret next d a = some r) : ∃ err, r = (d, next err) := by
  cases a with
  | ret err =>
    cases h
    exact ⟨err, rfl⟩
  | _ => cases h

theorem setup_to (h : setup d a = some r) : r.2 = .started ∨ r.2 = .endLock := by
  cases a with
  | ready =>
    cases h
    exact .inl rfl
  | noDevice | badDevice =>
    cases h
    exact .inr rfl
  | _ => cases h

/-- Every way from a peek is taken without a lock. -/
theorem timedpeek_to (h : timedpeek d a = some r) : r.2.mark = Pc.timedpeek.mark := by
  cases a with
  | peeked packet =>
    cases packet with
    | error e => cases e <;> cases h <;> rfl
    | ok type =>
      cases h
      cases type <;> rfl
  | _ => cases h

theorem peek_to (h : peek d a = some r) : r.2.mark = Pc.peek.mark := by
  cases a with
  | peeked packet =>
    cases packet with
    | error e => cases e <;> cases h <;> rfl
    | ok type =>
      cases h
      cases type <;> rfl
  | _ => cases h

end Answers

theorem mark_of_ite {c : Prop} [Decidable c] {p q r : Pc} (hp : p.mark = r.mark)
    (hq : q.mark = r.mark) : (if c then p else q).mark = r.mark := by
  split
  · exact hp
  · exact hq

theorem mark_of_or {p q r t : Pc} (h : p = q ∨ p = r) (hq : q.mark = t.mark)
    (hr : r.mark = t.mark) : p.mark = t.mark := by
  rcases h with rfl | rfl
  · exact hq
  · exact hr

/-- **Answers**: apart from a failure to recover after a timeout, no answer changes what is held,
    and `running` is cleared before the points that are marked so. -/
theorem mark_run {p : Pc} {f : Data → Answer → Option (Data × Pc)} {d : Data} {a : Answer}
    {r : Data × Pc} (hcode : code p = .run f) (hok : RecoversAfterTimeout p d a)
    (h : f d a = some r) :
    r.2.mark = p.mark ∨ p = .endRunning ∧ r = ({ d with running := false }, .endUnlock) := by
  cases p with
  | endRunning =>
    cases hcode
    exact .inr ⟨rfl, plain_to h⟩
  | setup =>
    cases hcode
    exact .inl (mark_of_or (setup_to h) rfl rfl)
  | started | clockSet | written | endClose | timeoutTest =>
    cases hcode
    rw [plain_to h]
    exact .inl rfl
  | loop =>
    cases hcode
    rw [plain_to h]
    exact .inl (mark_of_ite rfl rfl)
  | writeTest n =>
    cases hcode
    rw [plain_to h]
    exact .inl (mark_of_ite rfl (mark_of_ite rfl rfl))
  | avail | timeoutAvail | clockDrain =>
    cases hcode
    obtain ⟨n, rfl⟩ := availTo_to h
    exact .inl (mark_of_ite rfl rfl)
  | room n =>
    cases hcode
    obtain ⟨n, rfl⟩ := availTo_to h
    exact .inl (mark_of_ite rfl (mark_of_ite rfl rfl))
  | timeoutRecover err =>
    cases hcode
    rcases recover_to h with hyes | ⟨_, hfailed⟩
    · rw [hyes]
      exact .inl rfl
    · rw [hok rfl] at hfailed
      cases hfailed
  | availRecover | roomRecover | writeRecover =>
    cases hcode
    exact .inl (mark_of_or ((recover_to h).imp_right And.left) rfl rfl)
  | timedpeek =>
    cases hcode
    exact .inl (timedpeek_to h)
  | peek =>
    cases hcode
    exact .inl (peek_to h)
  | timeoutState =>
    cases hcode
    cases a with
    | state st =>
      cases h
      exact .inl rfl
    | _ => cases h
  | clockGet | get | writePeek =>
    cases hcode
    exact .inl (mark_of_or (same_to h) rfl rfl)
  | size =>
    cases hcode
    obtain ⟨n, rfl⟩ := nFrames_to h
    exact .inl rfl
  | sizeLeft =>
    cases hcode
    obtain ⟨n, rfl⟩ := nFrames_to h
    exact .inl (mark_of_ite rfl rfl)
  | availMin | roomWait =>
    cases hcode
    obtain ⟨err, rfl⟩ := ret_to h
    exact .inl (mark_of_ite rfl rfl)
  | offset n =>
    cases hcode
    cases a with
    | offset differs =>
      cases h
      exact .inl (mark_of_ite rfl rfl)
    | _ => cases h
  | writei n =>
    cases hcode
    cases a with
    | written frames =>
      cases h
      exact .inl (mark_of_ite (mark_of_ite rfl rfl) rfl)
    | _ => cases h
  | _ => cases hcode

theorem holds_run (p : Pc) (f : Data → Answer → Option (Data × Pc)) (d : Data) (a : Answer)
    (r : Data × Pc) (hcode : code p = .run f) (hok : RecoversAfterTimeout p d a)
    (h : f d a = some r) : r.2.holds = p.holds := by
  rcases mark_run hcode hok h with hmark | ⟨rfl, rfl⟩
  · funext l
    rw [Pc.holds, Pc.holds, (Prod.mk.inj hmark).1]
  · rfl

theorem code_annotated : Annotated code Pc.holds RecoversAfterTimeout :=
  ⟨holds_lock, holds_unlock, holds_run⟩


/-! ## Runs -/

/-- What holds in every state: the thread holds the lock of its point, and `running` is cleared
    where it is marked so. -/
structure Inv (s : Thread) : Prop where
  agrees : Agrees Pc.holds s
  cleared : s.pc.cleared = true → s.data.running = false

theorem init_inv : Inv init := by
  refine ⟨fun l => ?_, nofun⟩
  cases l <;> exact ⟨nofun, nofun⟩

/-- Taking a lock does not lead past `running = 0`, and releasing one does so after it only. -/
theorem cleared_lock {p q : Pc} {l : Lock} (h : code p = .lock l q) : q.cleared = false := by
  cases p with
  | startLock | availLock | timeoutLock | clockLock | writeLock | pausedWake | queueLock
  | releaseLock | endLock =>
    cases h
    rfl
  | _ => cases h

theorem cleared_unlock {p q : Pc} {l : Lock} (h : code p = .unlock l q) (hq : q.cleared = true) :
    p.cleared = true := by
  cases p with
  | endUnlock => rfl
  | startUnlock | availFailed | availUnlock | timeoutUnlock | clockUnlock | quitUnlock
  | pausedSleep | pausedUnlock | changedUnlock | retryUnlock | writeFailed | writeUnlock
  | queueUnlock | releaseUnlock =>
    cases h
    cases hq
  | _ => cases h

theorem cleared_run {p : Pc} {f : Data → Answer → Option (Data × Pc)} (h : code p = .run f) :
    p.cleared = false := by
  cases p with
  | endUnlock | returned => cases h
  | _ => rfl

theorem act_running {held : Lock → Bool} {d d' : Data} {e : Act} (h : act held d e = some d') :
    d'.running = d.running := by
  cases e with
  | pause | resume | quit =>
    obtain ⟨_, heq⟩ := Option.ite_none_right_eq_some.mp h
    cases heq
    rfl

section Steps

variable {s t : Thread} {e : Event Lock Answer Act}

theorem step_cleared (h : s.pc.cleared = true → s.data.running = false)
    (hok : Meets RecoversAfterTimeout s e) (hstep : step s e = some (t, ())) :
    t.pc.cleared = true → t.data.running = false := by
  cases e with
  | move =>
    simp only [step, LockGraph.step] at hstep
    split at hstep
    · rename_i l next hcode
      obtain ⟨_, heq⟩ := Option.ite_none_right_eq_some.mp hstep
      cases heq
      intro hq
      rw [cleared_lock hcode] at hq
      cases hq
    · rename_i l next hcode
      cases hstep
      exact fun hq => h (cleared_unlock hcode hq)
    · cases hstep
  | answer a =>
    simp only [step, LockGraph.step] at hstep
    split at hstep
    · rename_i f hcode
      obtain ⟨r, hf, heq⟩ := Option.map_eq_some_iff.mp hstep
      cases heq
      rcases mark_run hcode hok hf with hmark | ⟨_, rfl⟩
      · intro hq
        rw [(Prod.mk.inj hmark).2, cleared_run hcode] at hq
        cases hq
      · exact fun _ => rfl
    · cases hstep
  | take | give =>
    obtain ⟨_, heq⟩ := Option.ite_none_right_eq_some.mp hstep
    cases heq
    exact h
  | act i e =>
    obtain ⟨d, hact, heq⟩ := Option.map_eq_some_iff.mp hstep
    cases heq
    intro hc
    exact (act_running hact).trans (h hc)

theorem step_inv (h : Inv s) (hok : Meets RecoversAfterTimeout s e)
    (hstep : step s e = some (t, ())) : Inv t :=
  ⟨step_agrees code_annotated h.agrees hok hstep, step_cleared h.cleared hok hstep⟩

theorem meets_ending (h : s.pc.ending = true) : Meets RecoversAfterTimeout s e := by
  cases e with
  | answer a =>
    intro hp
    cases hpc : s.pc with
    | timeoutRecover err =>
      rw [hpc] at h
      cases h
    | _ =>
      rw [hpc] at hp
      cases hp
  | _ => trivial

theorem step_ending (h : s.pc.ending = true) (hstep : step s e = some (t, ())) :
    t.pc.ending = true ∧ s.pc.left = t.pc.left + if e.isOwn then 1 else 0 := by
  cases e with
  | move =>
    obtain ⟨pc, owner, data⟩ := s
    cases pc with
    | endLock =>
      obtain ⟨_, heq⟩ := Option.ite_none_right_eq_some.mp hstep
      cases heq
      exact ⟨rfl, rfl⟩
    | endUnlock =>
      cases hstep
      exact ⟨rfl, rfl⟩
    | endClose | endRunning | returned => cases hstep
    | _ => cases h
  | answer a =>
    obtain ⟨pc, owner, data⟩ := s
    cases pc with
    | endClose | endRunning =>
      obtain ⟨r, hf, heq⟩ := Option.map_eq_some_iff.mp hstep
      cases heq
      rw [plain_to hf]
      exact ⟨rfl, rfl⟩
    | endLock | endUnlock | returned => cases hstep
    | _ => cases h
  | take | give =>
    obtain ⟨_, heq⟩ := Option.ite_none_right_eq_some.mp hstep
    cases heq
    exact ⟨h, rfl⟩
  | act =>
    obtain ⟨_, _, heq⟩ := Option.map_eq_some_iff.mp hstep
    cases heq
    exact ⟨h, rfl⟩

/-- After `end` and before the return, the thread moves or waits for another one. -/
theorem Inv.moves (h : Inv s) (hend : s.pc.ending = true) (hleft : 0 < s.pc.left) : Moves s := by
  have hagrees := h.agrees
  obtain ⟨pc, owner, data⟩ := s
  cases pc with
  | endLock =>
    rcases free_or_other (hagrees.no_relock code_annotated rfl) with hfree | hother
    · exact .inl ⟨.move, _, rfl, if_pos hfree⟩
    · exact .inr hother
  | endClose | endRunning => exact .inl ⟨.answer .none, _, rfl, rfl⟩
  | endUnlock => exact .inl ⟨.move, _, rfl, rfl⟩
  | returned => cases hleft
  | _ => cases hend

theorem Inv.completes (h : Inv s) (hend : s.pc = .endLock) : Completes s := by
  intro tr t hrun
  -- along the run, the steps left and the steps taken add up to four
  have hkeep : Inv t ∧ t.pc.ending = true ∧ t.pc.left + ownSteps tr = 4 := by
    refine Run.history (P := fun tr t => Inv t ∧ t.pc.ending = true ∧ t.pc.left + ownSteps tr = 4)
      ⟨h, by rw [hend]; rfl, by rw [hend]; rfl⟩ ?_ hrun
    rintro tr t a u ⟨hinv, hending, hcount⟩ hstep
    obtain ⟨hending', hleft⟩ := step_ending hending hstep
    refine ⟨step_inv hinv (meets_ending hending) hstep, hending', ?_⟩
    rw [ownSteps, List.countP_append, List.countP_singleton, ← ownSteps]
    omega
  obtain ⟨hinv, hending, hcount⟩ := hkeep
  refine ⟨fun hpc => ⟨hinv.cleared (by rw [hpc]; rfl), ?_⟩, ?_, ?_⟩
  · exact (hinv.agrees .io).mpr (by rw [hpc]; rfl)
  · exact fun hfew => hinv.moves hending (by omega)
  · intro hfour
    have hleft : t.pc.left = 0 := by omega
    cases hpc : t.pc with
    | returned => rfl
    | endLock | endClose | endRunning | endUnlock =>
      rw [hpc] at hleft
      cases hleft
    | _ =>
      rw [hpc] at hending
      cases hending

theorem Inv.disciplined (h : Inv s) : Disciplined s := by
  refine ⟨fun l next hcode => h.agrees.no_relock code_annotated hcode, h.completes, ?_⟩
  intro hpc
  refine ⟨h.cleared (by rw [hpc]; rfl), fun l hself => ?_⟩
  have hheld := (h.agrees l).mp hself
  rw [hpc] at hheld
  cases hheld

end Steps

/-- **The output thread**: whatever ALSA, the queue and the other threads do, the thread never takes
    a lock it holds, every way through `end` comes to the final unlock with `running` cleared, and
    nothing is held at the return, if after each peek that timed out `snd_pcm_recover` mends the
    error of `snd_pcm_avail`. -/
theorem output_disciplined {tr : List (Event Lock Answer Act × Unit)} {s : Thread}
    (hrun : Run (Guarded step (Meets RecoversAfterTimeout)) init tr s) : Disciplined s :=
  have hinv : Inv s := Run.invariant init_inv (fun _ _ _ h hs => step_inv h hs.1 hs.2) hrun
  hinv.disciplined

/-- The way to a peek that times out: the device is opened, one clock packet is handled, and the
    device says that it plays. -/
def toTimeout : List (Event Lock Answer Act) :=
  [.give 0 .io, .answer (.ready 1024 4096), .answer .none, .move, .move, .answer .none,
    .answer (.peeked (.ok .clockSet)), .move, .answer (.avail 4096), .answer .none, .move,
    .answer (.same true), .move, .move, .answer .none, .move, .answer (.avail 0), .move,
    .answer (.peeked (.error .eagain)), .move]

/-- From there: the device recovers, and is gone when the next wait begins. -/
def recoverOnce : List (Event Lock Answer Act) :=
  [.answer (.avail (-32)), .answer (.recover 0), .answer (.state .prepared), .move, .answer .none,
    .answer .none, .move, .answer (.avail (-19)), .move, .answer (.recover (-19)), .move,
    .answer .none, .answer .none, .move]

/-- The device recovers after a timeout, and is gone when the next wait begins. -/
theorem output_disciplined_recovered : ∃ tr s,
    Run (Guarded step (Meets RecoversAfterTimeout)) init tr s ∧ s.pc = .returned ∧
      Disciplined s := by
  obtain ⟨tr, s, hrun, hpc⟩ := exists_run_of_guarded_exec step (Meets RecoversAfterTimeout) init
    (fun _ s => s.pc = .returned)
    (toTimeout ++ recoverOnce) (by decide +kernel)
  exact ⟨tr, s, hrun, hpc, output_disciplined hrun⟩

/-- From there: the device is gone. -/
def goneAfterTimeout : List (Event Lock Answer Act) :=
  [.answer (.avail (-19)), .answer (.recover (-19))]

/-- The device is gone when the thread looks for the reason of the timeout: it goes to `end` with
    `io_lock` held, and stops there for ever. -/
theorem io_lock_taken_twice :
    ¬ ∀ (tr : List (Event Lock Answer Act × Unit)) (s : Thread),
      Run (Step step) init tr s → Disciplined s := by
  intro hall
  have hrun := run_of_exec (f := step) (s := init)
    (toTimeout ++ goneAfterTimeout) rfl
  exact (hall _ _ hrun).no_relock .io .endClose rfl rfl

end Mediabox.AudioLocks
