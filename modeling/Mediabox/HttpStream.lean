import Mathlib.Algebra.Order.Ring.Int
import Mediabox.Lib.Ring
import Mediabox.Lib.Transition

/-!
# The HTTP stream (`src/lib/stream.c`)

One handle, one thread that calls `avbox_httpstream_read` and `avbox_httpstream_seek`, and the
readahead thread `avbox_httpstream_worker`.

* The remote file is `content`.  cURL hands it over in consecutive pieces of any size; how many
  pieces one `curl_multi_perform` delivers, and when the transfer ends, are inputs (`Poll`).
* The memory of the readahead buffer is `Nat → UInt8`, and the pointers into it are indices.
* A step is a locked section or what a thread does between two of them.  Waiting on `ra_signal`
  may end at any moment, so a waiting thread is one that looks again.
* Assertions are compiled out.  `mmap`, `realloc` and `pthread_create` succeed, offsets are not
  negative, and the wait for a new readahead thread ends with that thread's signal.
-/

set_option autoImplicit false

namespace Mediabox.HttpStream

open Ring Transition

def BUFSZ_START : Nat := 64 * 1024
def BUFSZ_STEP : Nat := 2 * (1024 * 1024)
def BUFSZ_MAX : Nat := 10 * (1024 * 1024) + BUFSZ_START
def CHUNK_SIZE : Nat := 8 * 1024
def TRESHOLD : Nat := 5
def FSEEK_MAX : Nat := 64 * 1024
def RETRIES_MAX : Nat := 3

/-- `CURLcode`, as far as the code tells them apart. -/
inductive Result where
  | ok
  | couldntConnect
  | other
deriving DecidableEq, Repr

/-- What the multi handle knows of the transfer; `pos` is the offset of the next byte. -/
inductive Transfer where
  /-- added and not started: it will start at `CURLOPT_RESUME_FROM` -/
  | fresh
  | active (pos : Nat)
  /-- over; it delivers nothing until the handle is added again -/
  | done (pos : Nat)
  /-- `file->handle == NULL` -/
  | gone
deriving DecidableEq, Repr

/-- `struct avbox_httpstream` (locks, thread and list links apart). -/
structure File where
  transfer : Transfer
  /-- `CURLOPT_RESUME_FROM` -/
  resume : Nat
  result : Result
  connected : Bool
  eof : Bool
  /-- the `bufsz` bytes at `buf` -/
  buf : List UInt8
  ptr : Nat
  bufcnt : Nat
  offset : Nat
  retries : Nat
  /-- the memory at `ra_buf`, and whether it is mapped -/
  raBuf : Nat → UInt8
  raMapped : Bool
  raPtr : Nat
  raAvail : Nat
  raWants : Nat
  /-- `none` is -1 -/
  raSeekto : Option Nat
  raOffset : Nat
  raRunning : Bool
  raReads : Nat
  raAbort : Bool
  raGrowbuf : Bool
  raBufend : Nat

/-! ## Filling a buffer -/

/-- `struct avbox_httpstream_cbdata`; `avail` is the number of bytes taken so far. -/
structure Cbdata where
  out : List UInt8
  rem : Nat
deriving DecidableEq, Repr

/-- `avbox_httpstream_writecb` -/
def writecb (f : File) (cb : Cbdata) (data : List UInt8) : File × Cbdata :=
  let n := min data.length cb.rem
  let rest := data.drop n
  ({ f with
      buf := f.buf.take f.bufcnt ++ rest ++ f.buf.drop (f.bufcnt + rest.length)
      bufcnt := f.bufcnt + rest.length },
    ⟨cb.out ++ data.take n, cb.rem - n⟩)

/-- What one `curl_multi_perform` does: the sizes of its write callbacks, and the result when the
    transfer ended in this call.  A write that `writecb` cuts short is the shorter write, and the
    transfer ends with it. -/
structure Perform where
  writes : List Nat
  finish : Option Result
deriving DecidableEq, Repr

/-- One turn of the loop of `avbox_httpstream_fillbuf`. -/
inductive Poll where
  /-- `curl_multi_fdset` failed -/
  | fdset
  /-- `select` or `curl_multi_perform` failed: `still_running` keeps its value -/
  | failed
  | perform (p : Perform)
deriving DecidableEq, Repr

/-- The offset from which a call of `curl_multi_perform` goes on. -/
def File.start (f : File) : Option Nat :=
  match f.transfer with
  | .fresh => some f.resume
  | .active pos => some pos
  | .done _ => none
  | .gone => none

/-- The write callbacks of one call. -/
def deliver (content : List UInt8) : List Nat → File → Cbdata → Nat → File × Cbdata × Nat
  | [], f, cb, pos => (f, cb, pos)
  | size :: sizes, f, cb, pos =>
    let data := (content.drop pos).take size
    deliver content sizes (writecb f cb data).1 (writecb f cb data).2 (pos + data.length)

/-- What a call of `curl_multi_perform` leaves: `still_running`, and the message that
    `curl_multi_info_read` finds. -/
structure Performed where
  file : File
  cb : Cbdata
  still : Bool
  message : Option Result

/-- `curl_multi_perform` -/
def multiPerform (content : List UInt8) (f : File) (cb : Cbdata) (p : Perform) : Performed :=
  match f.start with
  | none => ⟨f, cb, false, none⟩
  | some start =>
    let r := deliver content p.writes f cb start
    match p.finish with
    | none => ⟨{ r.1 with transfer := .active r.2.2 }, r.2.1, true, none⟩
    | some result => ⟨{ r.1 with transfer := .done r.2.2 }, r.2.1, false, some result⟩

/-- The handle after the messages were read. -/
def Performed.readInfo (r : Performed) : File :=
  { r.file with result := r.message.getD r.file.result }

/-- The loop of `avbox_httpstream_fillbuf`: the bytes taken, and whether the call returns their
    number rather than -1.  `none` when the polls end before the call does. -/
def pollLoop (content : List UInt8) : List Poll → File → Cbdata → Bool →
    Option (File × List UInt8 × Bool)
  | [], _, _, _ => none
  | .fdset :: _, f, cb, _ => some (f, cb.out, false)
  | .failed :: polls, f, cb, still =>
    if still = true ∧ 0 < cb.rem then pollLoop content polls f cb still
    else some (f, cb.out, !cb.out.isEmpty)
  | .perform p :: polls, f, cb, _ =>
    let r := multiPerform content f cb p
    if r.still = true ∧ 0 < r.cb.rem then pollLoop content polls r.readInfo r.cb r.still
    else some (r.readInfo, r.cb.out, !r.cb.out.isEmpty)

/-- The part of `avbox_httpstream_fillbuf` after its first call of `curl_multi_perform`. -/
def connected (content : List UInt8) (polls : List Poll) (f : File) (cb : Cbdata) (still : Bool) :
    Option (File × List UInt8 × Bool) :=
  if still = false then
    if cb.out = [] then
      some ({ f with connected := false, transfer := .gone, result := .couldntConnect }, [], false)
    else some ({ f with connected := false }, cb.out, true)
  else if cb.rem = 0 then some ({ f with connected := true }, cb.out, true)
  else pollLoop content polls { f with connected := true } cb true

/-- `CURLOPT_RESUME_FROM` is set to `ra_offset`. -/
def File.setResume (f : File) : File :=
  { f with resume := f.raOffset }

/-- The part of `avbox_httpstream_fillbuf` that establishes the connection. -/
def connect (content : List UInt8) (f : File) (cb : Cbdata) :
    List Poll → Option (File × List UInt8 × Bool)
  | .perform p :: polls =>
    let r := multiPerform content f.setResume cb p
    connected content polls r.file r.cb r.still
  | .failed :: polls => connected content polls f.setResume cb false
  | _ => none

/-- The bytes left over that a call for `size` bytes takes first. -/
def File.takeLeft (f : File) (size : Nat) : Cbdata :=
  ⟨(f.buf.drop f.ptr).take (min f.bufcnt size), size - min f.bufcnt size⟩

/-- The handle without them. -/
def File.dropLeft (f : File) (size : Nat) : File :=
  { f with bufcnt := f.bufcnt - min f.bufcnt size, ptr := f.ptr + min f.bufcnt size }

/-- The handle without them, when they were not enough. -/
def File.emptied (f : File) (size : Nat) : File :=
  { f.dropLeft size with ptr := 0 }

/-- `avbox_httpstream_fillbuf` -/
def fillbuf (content : List UInt8) (f : File) (size : Nat) (polls : List Poll) :
    Option (File × List UInt8 × Bool) :=
  if 0 < min f.bufcnt size ∧ (f.takeLeft size).rem = 0 then
    some (f.dropLeft size, (f.takeLeft size).out, true)
  else if f.connected then
    pollLoop content polls (f.emptied size) (f.takeLeft size) false
  else connect content (f.emptied size) (f.takeLeft size) polls

/-- `avbox_httpstream_doseek` -/
def doseek (f : File) (offset : Nat) : File :=
  { f with
    transfer := if f.transfer = .gone then .gone else .fresh
    resume := offset
    bufcnt := 0
    ptr := 0
    connected := false
    eof := false
    offset := offset
    raOffset := offset }

/-! ## The two threads -/

/-- Where the thread that reads and seeks is. -/
inductive Reader where
  | idle
  /-- in `avbox_httpstream_read`, after `ra_wants` was set -/
  | wanting (size : Nat)
  /-- waiting for the readahead thread it created -/
  | starting (size : Nat)
  /-- at the top of the loop, with the bytes read so far -/
  | reading (size : Nat) (got : List UInt8)
  /-- waiting for the buffer to be full -/
  | full (size : Nat) (got : List UInt8)
  /-- before the `memcpy` of `chunksz` bytes -/
  | copying (size : Nat) (got : List UInt8) (chunksz : Nat)
  /-- before the section that takes these bytes off `ra_avail` -/
  | copied (size : Nat) (got : List UInt8) (chunksz : Nat)
  /-- in `avbox_httpstream_seek`, waiting for the readahead thread -/
  | seeking
deriving DecidableEq, Repr

/-- Where the readahead thread is; `ptr` is its own write pointer. -/
inductive Worker where
  | none
  /-- created, before `READAHEAD_INIT` -/
  | starting
  /-- at the top of its loop -/
  | top (ptr : Nat)
  /-- before `avbox_httpstream_fillbuf` -/
  | filling (ptr : Nat) (chunksz : Nat)
  /-- before the section that adds the bytes to `ra_avail` -/
  | filled (ptr : Nat) (bytesRead : Nat)
  /-- at `THREAD_EXIT` -/
  | exiting (ptr : Nat)
deriving DecidableEq, Repr

structure State where
  file : File
  reader : Reader
  worker : Worker

/-- A zero-initialised handle after `avbox_httpstream_open`. -/
def File.zero : File where
  transfer := .fresh
  resume := 0
  result := .ok
  connected := false
  eof := false
  buf := []
  ptr := 0
  bufcnt := 0
  offset := 0
  retries := 0
  raBuf := fun _ => 0
  raMapped := false
  raPtr := 0
  raAvail := 0
  raWants := 0
  raSeekto := some 0
  raOffset := 0
  raRunning := false
  raReads := 0
  raAbort := false
  raGrowbuf := false
  raBufend := 0

def init : State := ⟨File.zero, .idle, .none⟩

inductive Event where
  /-- `avbox_httpstream_read` is called -/
  | read (size : Nat)
  /-- the test for a readahead thread -/
  | begin
  /-- the readahead thread has signalled -/
  | started
  /-- `CALC_CHUNKSZ` without the lock -/
  | chunk
  /-- `CALC_CHUNKSZ` under the lock, and what follows -/
  | check
  | recheck
  | copy
  | consume
  /-- the loop of `avbox_httpstream_read` is over -/
  | finish
  /-- `avbox_httpstream_seek` is called -/
  | seek (offset : Nat)
  | seeked
  | workerInit
  | workerAbort
  | workerChunk
  | workerFill (polls : List Poll)
  | workerPublish
  /-- the section at `THREAD_EXIT`; the polls are those of a short seek -/
  | workerExit (polls : List Poll)
deriving DecidableEq, Repr

/-- What the caller of `avbox_httpstream_read` sees of a step. -/
inductive Output where
  | quiet
  | returned (bytes : List UInt8)
  /-- -1 -/
  | failed
deriving DecidableEq, Repr

/-- Subtraction on `size_t`, which wraps around. -/
def sub64 (a b : Nat) : Nat :=
  if b ≤ a then a - b else a + 2 ^ 64 - b

theorem sub64_of_le {a b : Nat} (hle : b ≤ a) : sub64 a b = a - b := if_pos hle

/-! ## The reader's steps -/

/-- `CALC_CHUNKSZ` of `avbox_httpstream_read` -/
def File.readChunk (f : File) (size : Nat) (got : List UInt8) : Nat :=
  min (f.raBufend - f.raPtr) (min (size - got.length) f.raAvail)

/-- `avbox_httpstream_read` up to its loop. -/
def callRead (s : State) (size : Nat) : State × Output :=
  if size = 0 then (s, .returned [])
  else
    let size := min size (2 ^ 63 - 1)
    ({ s with file := { s.file with raWants := size }, reader := .wanting size }, .quiet)

/-- The section under `ra_lock` that found no byte to copy, or found some after all. -/
def checkRead (s : State) (size : Nat) (got : List UInt8) : State × Output :=
  let c := s.file.readChunk size got
  if 0 < c then ({ s with reader := .copying size got c }, .quiet)
  else if s.file.raRunning = false then
    if got = [] then
      if s.file.result = .ok ∧ s.file.eof = false then
        ({ s with file := { s.file with eof := true }, reader := .idle }, .returned [])
      else ({ s with reader := .idle }, .failed)
    else
      ({ s with
          file := { s.file with offset := s.file.offset + got.length }
          reader := .idle }, .returned got)
  else if TRESHOLD < s.file.raReads then
    ({ s with file := { s.file with raGrowbuf := true }, reader := .full size got }, .quiet)
  else (s, .quiet)

/-- The `memcpy`, and the read pointer after it. -/
def copyRead (s : State) (size : Nat) (got : List UInt8) (c : Nat) : State :=
  let raPtr := s.file.raPtr + c
  { s with
    file := { s.file with raPtr := if raPtr = s.file.raBufend then 0 else raPtr }
    reader := .copied size (got ++ load s.file.raBuf s.file.raPtr c) c }

/-- The section that takes the copied bytes off `ra_avail`. -/
def consumeRead (s : State) (size : Nat) (got : List UInt8) (c : Nat) : State :=
  { s with
    file := { s.file with raAvail := sub64 s.file.raAvail c, raWants := sub64 s.file.raWants c }
    reader := .reading size got }

/-- The end of `avbox_httpstream_read`; `ra_reads` is an `unsigned int`. -/
def finishRead (s : State) (got : List UInt8) : State :=
  { s with
    file := { s.file with
      offset := s.file.offset + got.length
      raReads := (s.file.raReads + 1) % 2 ^ 32 }
    reader := .idle }

/-- `avbox_httpstream_seek` -/
def callSeek (s : State) (offset : Nat) : State :=
  if s.file.raRunning then
    { s with
      file := { s.file with raAbort := true, raSeekto := some offset }
      reader := .seeking }
  else { s with file := doseek s.file offset }

/-! ## The worker's steps -/

/-- `READAHEAD_INIT`, for the write pointer at `ra_buf` -/
def readaheadInit (f : File) : File :=
  { f with
    raRunning := true
    raPtr := 0
    raAvail := 0
    raSeekto := none
    raGrowbuf := false
    raAbort := false
    raReads := 0 }

/-- The start of `avbox_httpstream_worker`. -/
def File.map (f : File) : File :=
  if f.raMapped then f
  else { f with raMapped := true, raBufend := BUFSZ_START, result := .ok }

/-- `CALC_CHUNKSZ` of `avbox_httpstream_worker` -/
def File.fillChunk (f : File) (ptr : Nat) : Nat :=
  let chunksz := min CHUNK_SIZE (min (f.raBufend - ptr) (f.raBufend - f.raAvail))
  if f.raReads < TRESHOLD then min f.raWants chunksz else chunksz

/-- The worker after `avbox_httpstream_fillbuf` returned -1. -/
def fillFailed (f : File) (ptr : Nat) : File × Worker :=
  if f.result = .ok then (f, .exiting ptr)
  else
    ({ f with connected := false, retries := f.retries + 1 },
      if f.retries ≤ RETRIES_MAX then .top ptr else .exiting ptr)

/-- The worker after `avbox_httpstream_fillbuf` returned `n` bytes, up to the locked section: the
    write pointer wraps around, or the end of the buffer moves. -/
def advance (f : File) (ptr n : Nat) : File × Worker :=
  if n = 0 then (f, .top ptr)
  else
    let f' := { f with raOffset := f.raOffset + n, retries := 0 }
    if ptr + n = f.raBufend then
      if f.raBufend < BUFSZ_MAX ∧ f.raGrowbuf then
        ({ f' with raBufend := f.raBufend + BUFSZ_STEP, raGrowbuf := false }, .filled (ptr + n) n)
      else (f', .filled 0 n)
    else (f', .filled (ptr + n) n)

/-- The call of `avbox_httpstream_fillbuf` and what follows it. -/
def workerFill (content : List UInt8) (s : State) (ptr chunksz : Nat) (polls : List Poll) :
    Option State :=
  match fillbuf content s.file chunksz polls with
  | none => none
  | some (f, out, ok) =>
    let f := { f with raBuf := store f.raBuf ptr out }
    let (f, worker) := if ok then advance f ptr out.length else fillFailed f ptr
    some { s with file := f, worker := worker }

/-- An in-buffer seek. -/
def inBufferSeek (f : File) (target : Nat) : File :=
  let skip := target - f.offset
  let raPtr := f.raPtr + skip
  { f with
    raPtr := if f.raBufend ≤ raPtr then raPtr - f.raBufend else raPtr
    raAvail := sub64 f.raAvail skip
    offset := target
    raSeekto := none
    raAbort := false }

/-- A short seek up to the bytes it skips. -/
def shortSeek (f : File) (target : Nat) : File :=
  { f with raPtr := 0, raAvail := 0, offset := target, raSeekto := none, raAbort := false }

/-- The section at `THREAD_EXIT`. -/
def workerExit (content : List UInt8) (s : State) (ptr : Nat) (polls : List Poll) : Option State :=
  match s.file.raSeekto with
  | none =>
    some { s with
      file := { s.file with raAbort := false, raRunning := false, raReads := 0 }
      worker := .none }
  | some target =>
    if s.file.offset < target ∧ target ≤ s.file.raOffset then
      some { s with file := inBufferSeek s.file target, worker := .top ptr }
    else if s.file.offset < target ∧ target - s.file.raOffset < FSEEK_MAX then
      match fillbuf content (shortSeek s.file target) (target - s.file.raOffset) polls with
      | none => none
      | some (f, out, ok) =>
        if ok then
          some { s with
            file := { f with raOffset := f.raOffset + out.length }
            worker := .top 0 }
        else some { s with file := f, worker := .exiting 0 }
    else
      some { s with file := readaheadInit (doseek s.file target), worker := .top 0 }

/-- One step of one of the threads. -/
def step (content : List UInt8) (s : State) : Event → Option (State × Output)
  | .read size => match s.reader with
    | .idle => some (callRead s size)
    | _ => none
  | .begin => match s.reader with
    | .wanting size =>
      if s.file.raRunning = false ∧ s.file.raAvail = 0 then
        some ({ s with reader := .starting size, worker := .starting }, .quiet)
      else some ({ s with reader := .reading size [] }, .quiet)
    | _ => none
  | .started => match s.reader with
    | .starting size =>
      if s.worker = .starting then none
      else some ({ s with reader := .reading size [] }, .quiet)
    | _ => none
  | .chunk => match s.reader with
    | .reading size got =>
      let c := s.file.readChunk size got
      if got.length < size ∧ 0 < c then some ({ s with reader := .copying size got c }, .quiet)
      else none
    | _ => none
  | .check => match s.reader with
    | .reading size got => if got.length < size then some (checkRead s size got) else none
    | _ => none
  | .recheck => match s.reader with
    | .full size got =>
      if s.file.raRunning ∧ s.file.raAvail < s.file.raBufend then none
      else some ({ s with reader := .reading size got }, .quiet)
    | _ => none
  | .copy => match s.reader with
    | .copying size got c => some (copyRead s size got c, .quiet)
    | _ => none
  | .consume => match s.reader with
    | .copied size got c => some (consumeRead s size got c, .quiet)
    | _ => none
  | .finish => match s.reader with
    | .reading size got =>
      if got.length < size then none else some (finishRead s got, .returned got)
    | _ => none
  | .seek offset => match s.reader with
    | .idle => some (callSeek s offset, .quiet)
    | _ => none
  | .seeked => match s.reader with
    | .seeking =>
      if s.file.raSeekto = none then some ({ s with reader := .idle }, .quiet) else none
    | _ => none
  | .workerInit => match s.worker with
    | .starting => some ({ s with file := readaheadInit s.file.map, worker := .top 0 }, .quiet)
    | _ => none
  | .workerAbort => match s.worker with
    | .top ptr => if s.file.raAbort then some ({ s with worker := .exiting ptr }, .quiet) else none
    | _ => none
  | .workerChunk => match s.worker with
    | .top ptr =>
      let chunksz := s.file.fillChunk ptr
      if s.file.raAbort = false ∧ 0 < chunksz then
        some ({ s with worker := .filling ptr chunksz }, .quiet)
      else none
    | _ => none
  | .workerFill polls => match s.worker with
    | .filling ptr chunksz => (workerFill content s ptr chunksz polls).map fun t => (t, .quiet)
    | _ => none
  | .workerPublish => match s.worker with
    | .filled ptr n =>
      some ({ s with
        file := { s.file with raAvail := s.file.raAvail + n }, worker := .top ptr }, .quiet)
    | _ => none
  | .workerExit polls => match s.worker with
    | .exiting ptr => (workerExit content s ptr polls).map fun t => (t, .quiet)
    | _ => none

end Mediabox.HttpStream
