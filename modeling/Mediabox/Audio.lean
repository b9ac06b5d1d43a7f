import Mathlib.Algebra.Order.Ring.Int
import Mathlib.Logic.Function.Basic
import Mediabox.Lib.Transition
import Mediabox.LinkedList

/-!
# The audio stream of `src/lib/audio.c`

An audio stream is a queue of packets, a pool of free packets and two counters.  Any number of
threads write to it, the output thread hands the packets to the PCM device in fragments, and any
thread may drop what is queued.  One event is one critical section, or one access made outside of
every lock:

* `avbox_audiostream_write` / `avbox_audiostream_setclock` — the section under `queue_lock` that
  counts the frames and takes a packet (`write`), or taking the packet alone (`setclock`), and
  later `avbox_queue_put`; between the two the packet is in the hands of the call (`writing`,
  `setting`);
* `avbox_audiostream_output` — peek, read the type, read the size, the section under `io_lock`
  that writes a fragment, the section under `queue_lock` that subtracts it, the test of what is
  left, `avbox_queue_get`, `release_packet`;
* `avbox_audiostream_drop` — holds `io_lock` from `lock` to `check`; it takes the packets one by
  one and subtracts their frames without `queue_lock`, so that the subtraction is a load and a
  store.

The queue itself is a FIFO whose operations are atomic.  A packet is an address: the pool hands
out the same addresses again and again, and the output thread compares addresses only.
-/

set_option autoImplicit false

namespace Mediabox.Audio

/-- The address of a packet. -/
abbrev Addr := Nat

/-- Conversion to the C type `int`. -/
def int32 (x : Int) : Int := (x + 2 ^ 31) % 2 ^ 32 - 2 ^ 31

/-- `n -= k` for `n` of type `size_t`. -/
def sizeSub (n : Nat) (k : Int) : Nat := (((n : Int) - k) % 2 ^ 64).toNat

/-- Reading 64 bits as the C type `int64_t`. -/
def int64 (w : Nat) : Int := ((w : Int) + 2 ^ 63) % 2 ^ 64 - 2 ^ 63

/-- `packet->type`. -/
inductive PacketType where
  | dataPacket
  | clockSet
deriving DecidableEq, Repr

/-- The arguments of the write call that filled a data packet. -/
structure Buffer where
  data : Int
  nFrames : Nat
deriving DecidableEq, Repr

/-- `struct avbox_audio_packet`.  `word` is the first field of its union, `data_packet.n_frames` or
    `clock_set.value`.  `serial` and `buffer` are not in the source: they tell apart the calls that
    filled the same packet, and remember where a data packet started. -/
structure Packet where
  serial : Nat
  type : PacketType
  word : Nat
  data : Int
  buffer : Buffer
deriving DecidableEq, Repr

/-- `packet->data_packet.n_frames`. -/
def Packet.nFrames (k : Packet) : Nat := k.word

/-- `packet->clock_set.value`. -/
def Packet.value (k : Packet) : Int := int64 k.word

/-- `avbox_audiostream_frames2size`: 16-bit stereo. -/
def frames2size (frames : Int) : Int := frames * 4

/-- Take frames off the front of a data packet. -/
def Packet.advance (k : Packet) (frames : Int) : Packet :=
  { k with word := sizeSub k.word frames, data := k.data + frames2size frames }

/-- Where the output thread is in its loop. -/
inductive Output where
  | idle
  | peeked (p : Addr)
  | clock (p : Addr)
  | clockSet (p : Addr)
  | data (p : Addr)
  | sized (p : Addr) (n : Nat)
  | wrote (p : Addr) (frames : Int)
  | counted (p : Addr)
  | spent (p : Addr)
  | taken (p : Addr)
  | aborted (p : Addr)
  | ended
deriving DecidableEq, Repr

/-- Where the thread inside `avbox_audiostream_drop` is; it holds `io_lock` unless `idle`. -/
inductive Drop where
  | idle
  | counting
  | taking
  | took (p : Addr)
  | loaded (p : Addr) (queuedFrames : Int)
  | releasing (p : Addr)
  | checking
  | failed
deriving DecidableEq, Repr

/-- The stream, with the packets in the hands of the calls that have not put them yet. -/
structure State where
  mem : Addr → Packet
  allocated : List Addr
  pool : List Addr
  queue : List Addr
  writing : List Addr
  setting : List Addr
  queuedFrames : Int
  maxFrames : Int
  frames : Int
  clockStart : Int
  period : Nat
  output : Output
  drop : Drop
  calls : Nat

/-- `avbox_audiostream_new`, with the period the device agreed to. -/
def init (maxFrames : Int) (period : Nat) : State where
  mem := fun _ => ⟨0, .clockSet, 0, 0, ⟨0, 0⟩⟩
  allocated := []
  pool := []
  queue := []
  writing := []
  setting := []
  queuedFrames := 0
  maxFrames := maxFrames
  frames := 0
  clockStart := 0
  period := period
  output := .idle
  drop := .idle
  calls := 0

inductive WriterEvent where
  | write (data : Int) (nFrames : UInt64) (malloc : Option Addr)
  | setclock (value : Int) (malloc : Option Addr)
  | put (p : Addr) (accepted : Bool)
deriving DecidableEq, Repr

inductive OutputEvent where
  | peek
  | readType
  | resetClock
  | readSize
  | retry
  | writei (result : Int) (recovered : Bool)
  | account
  | readLeft
  | get
  | release
  | exit
deriving DecidableEq, Repr

inductive DropEvent where
  | lock
  | count
  | take
  | load
  | store
  | release
  | check
deriving DecidableEq, Repr

inductive Event where
  | writer (e : WriterEvent)
  | output (e : OutputEvent)
  | drop (e : DropEvent)
deriving DecidableEq, Repr

/-- What a step shows: the result of a call, a packet that entered the queue, what the device
    received from where, a clock that was set, a packet that went back to the pool. -/
inductive Outcome where
  | silent
  | returned (result : Int)
  | eagain
  | enomem
  | queued (packet : Packet)
  | played (serial : Nat) (data : Int) (frames : Int)
  | clockSet (serial : Nat) (value : Int)
  | released (serial : Nat)
deriving DecidableEq, Repr

/-! ## The packet pool -/

/-- `malloc` returns no address that is in use. -/
def State.mayMalloc (s : State) (malloc : Option Addr) : Bool :=
  malloc.all fun p => decide (p ∉ s.allocated)

/-- `alloc_packet`: the tail of the pool, else new memory, else `NULL`. -/
def allocPacket (s : State) (malloc : Option Addr) : Option Addr × State :=
  match listTail s.pool with
  | some p => (some p, { s with pool := listRemove s.pool p })
  | none =>
    match malloc with
    | some p => (some p, { s with allocated := p :: s.allocated })
    | none => (none, s)

/-- `release_packet`, which also gives the caller's buffer back. -/
def releasePacket (s : State) (p : Addr) : State := { s with pool := listAdd s.pool p }

/-- A call of `avbox_audiostream_write` fills in its packet. -/
def State.fillData (s : State) (p : Addr) (data : Int) (n : Nat) : State :=
  { s with
    mem := Function.update s.mem p ⟨s.calls, .dataPacket, n, data, ⟨data, n⟩⟩
    calls := s.calls + 1 }

/-- A call of `avbox_audiostream_setclock` fills in its packet. -/
def State.fillClock (s : State) (p : Addr) (value : Int) : State :=
  { s with
    mem := Function.update s.mem p
      { s.mem p with serial := s.calls, type := .clockSet, word := (value % 2 ^ 64).toNat }
    calls := s.calls + 1 }

/-! ## The three parties -/

/-- `avbox_audiostream_write` and `avbox_audiostream_setclock`.  A write that finds the queue full
    waits once; `write` is the test that decides, before or after that wait. -/
def stepWriter (s : State) : WriterEvent → Option (State × Outcome)
  | .write data nFrames malloc =>
    if !s.mayMalloc malloc then none
    else if nFrames.toNat = 0 then some (s, .returned 0)
    else if s.maxFrames < s.queuedFrames then some (s, .eagain)
    else
      match allocPacket s malloc with
      | (none, s) => some (s, .enomem)
      | (some p, s) =>
        some ({ s.fillData p data nFrames.toNat with
          queuedFrames := int32 (s.queuedFrames + nFrames.toNat)
          writing := p :: s.writing }, .silent)
  | .setclock value malloc =>
    if !s.mayMalloc malloc then none
    else
      match allocPacket s malloc with
      | (none, s) => some (s, .enomem)
      | (some p, s) =>
        some ({ s.fillClock p value with setting := p :: s.setting }, .silent)
  | .put p accepted =>
    if p ∈ s.writing then
      let s' := { s with writing := s.writing.erase p }
      if accepted then some ({ s' with queue := s.queue ++ [p] }, .queued (s.mem p))
      else some (releasePacket s' p, .released (s.mem p).serial)
    else if p ∈ s.setting then
      let s' := { s with setting := s.setting.erase p }
      if accepted then some ({ s' with queue := s.queue ++ [p] }, .queued (s.mem p))
      else some (releasePacket s' p, .released (s.mem p).serial)
    else none

/-- One section of the loop of `avbox_audiostream_output`.  `retry` is every `continue` before
    `io_lock` and the paused stream; the sections under `io_lock` need the drop to be outside. -/
def stepOutput (s : State) (e : OutputEvent) : Option (State × Outcome) :=
  match e, s.output with
  | .peek, .idle =>
    match s.queue with
    | [] => none
    | p :: _ => some ({ s with output := .peeked p }, .silent)
  | .readType, .peeked p =>
    some ({ s with output := if (s.mem p).type = .dataPacket then .data p else .clock p }, .silent)
  | .resetClock, .clock p =>
    if s.drop = .idle then
      some ({ s with output := .clockSet p, clockStart := (s.mem p).value, frames := 0 },
        .clockSet (s.mem p).serial (s.mem p).value)
    else none
  | .readSize, .data p =>
    some ({ s with output := .sized p (min s.period (s.mem p).nFrames) }, .silent)
  | .retry, .sized _ _ => some ({ s with output := .idle }, .silent)
  | .writei result recovered, .sized p n =>
    if s.drop ≠ .idle then none
    else if s.queue.head? ≠ some p then some ({ s with output := .idle }, .silent)
    else if (n : Int) < result then none
    else if result < 0 && !recovered then some ({ s with output := .ended }, .silent)
    else
      -- a repaired error falls through with its negative code still in `frames`
      some ({ s with
        output := .wrote p result
        frames := s.frames + result
        mem := Function.update s.mem p ((s.mem p).advance result) },
        .played (s.mem p).serial (s.mem p).data result)
  | .account, .wrote p frames =>
    some ({ s with output := .counted p, queuedFrames := int32 (s.queuedFrames - frames) }, .silent)
  | .readLeft, .counted p =>
    some ({ s with output := if (s.mem p).nFrames = 0 then .spent p else .idle }, .silent)
  | .get, .clockSet p | .get, .spent p =>
    match s.queue with
    | [] => none
    | q :: rest =>
      some ({ s with queue := rest, output := if q = p then .taken p else .aborted q }, .silent)
  | .release, .taken p =>
    some ({ releasePacket s p with output := .idle }, .released (s.mem p).serial)
  | .exit, .idle | .exit, .sized _ _ => some ({ s with output := .ended }, .silent)
  | _, _ => none

/-- One step of `avbox_audiostream_drop`; `count` is the test of its loop. -/
def stepDrop (s : State) (e : DropEvent) : Option (State × Outcome) :=
  match e, s.drop with
  | .lock, .idle => some ({ s with drop := .counting }, .silent)
  | .count, .counting =>
    some ({ s with drop := if s.queue = [] then .checking else .taking }, .silent)
  | .take, .taking =>
    match s.queue with
    | [] => none
    | p :: rest => some ({ s with queue := rest, drop := .took p }, .silent)
  | .load, .took p =>
    let next := if (s.mem p).type = .dataPacket then .loaded p s.queuedFrames else .releasing p
    some ({ s with drop := next }, .silent)
  | .store, .loaded p v =>
    some ({ s with drop := .releasing p, queuedFrames := int32 (v - (s.mem p).nFrames) }, .silent)
  | .release, .releasing p =>
    some ({ releasePacket s p with drop := .counting }, .released (s.mem p).serial)
  | .check, .checking =>
    some ({ s with drop := if s.queuedFrames = 0 then .idle else .failed }, .silent)
  | _, _ => none

/-- One step of the stream. -/
def step (s : State) : Event → Option (State × Outcome)
  | .writer e => stepWriter s e
  | .output e => stepOutput s e
  | .drop e => stepDrop s e

end Mediabox.Audio
