import Mathlib.Algebra.Order.Ring.Int
import Mediabox.TorrentReadahead

/-!
# Waking the reader of a torrent (`src/lib/torrent_stream.cpp`)

One reader, the read-ahead thread, the piece alerts, seeks and `avbox_torrent_bufferstate` calls
over the same stream, with the two condition variables and the arrival of the metadata.

* The sections under `lock` are those of `TorrentStream`; a thread that waits is either asleep or
  woken (`readerWoken`, `readaheadWoken`), and `pthread_cond_signal` wakes the one thread that can
  wait on the condition.  A wait may also end without a signal.
* `avbox_torrent_bufferstate` looks at the pieces and at the position without the lock, so what it
  finds comes with the event; it can set `warmed` at any moment, also between the two looks of one
  read at the flag (`readWarming`).  The read-ahead thread asks `warmed` under the lock, with no
  counters to fill: the comparison `*avail < *total` at the end of `__warmed` then goes through null
  pointers (`crash`).
* An alert is the moment at which a piece becomes ready; the other alerts change no flag and signal
  nobody.  The stores of `metadata_received` before it takes the lock are a step of their own.
* The signals of `avbox_torrent_close` are wakes without a signal here.

Main result: `reader_not_asleep` — a complete file never leaves both threads asleep, in every run in
which

* no read starts to wait before the warm-up is over while every piece is there and the read-ahead
  thread sleeps with nothing left to do,
* the read-ahead thread does not go to sleep with nothing left to do and the reader asleep, other
  than with a full window, or with a piece missing before the warm-up is over, and
* `avbox_torrent_bufferstate` does not find the warm-up over while both sleep with nothing left to
  do, nor between the two looks of a read at the flag while the read-ahead thread sleeps so, even
  with a piece missing.
-/

set_option autoImplicit false

namespace Mediabox.TorrentWake

open Transition TorrentStream

variable {α : Type*}

/-- `READAHEAD_MIN` -/
def readaheadMin : Int := 1024 * 1024 * 15

/-- `READAHEAD_TAIL` -/
def readaheadTail : Int := 1024 * 1024 * 5

/-- How far `metadata_received` got. -/
inductive Metadata where
  | missing
  /-- `filesize` and the sizes are stored, `have_metadata` is not set yet -/
  | stored
  /-- `have_metadata` is set -/
  | received
  deriving DecidableEq, Repr

/-- The stream with the pieces that are there and the signals on their way. -/
structure State (α : Type*) where
  stream : TorrentStream.State Unit α
  metadata : Metadata
  /-- `piece_status::ready` -/
  ready : Int → Bool
  readerWoken : Bool
  readaheadWoken : Bool

/-- A stream that was just opened. -/
def init : State α where
  stream := TorrentStream.init readaheadMin
  metadata := .missing
  ready := fun _ => false
  readerWoken := false
  readaheadWoken := false

inductive Event where
  /-- `avbox_torrent_read` up to its wait, or to its end -/
  | read (sz : Nat)
  /-- the same, with `warmed` set by another thread after the read looked at it first -/
  | readWarming (sz : Nat)
  /-- the wait on `user_cond` ends without a signal -/
  | wakeReader
  /-- `avbox_torrent_read` after its wait -/
  | readWake
  /-- `avbox_torrent_seek` -/
  | seek (pos : Int)
  /-- `avbox_torrent_bufferstate`, and whether `__warmed` finds that the warm-up is over -/
  | bufferstate (isOver : Bool)
  /-- `metadata_received` up to its locked section -/
  | store
  /-- its locked section, with the pieces that were complete before -/
  | metadata (complete : Int → Bool)
  /-- `check_and_signal_piece_ready` finds the piece complete -/
  | alert (index : Int)
  /-- `avbox_torrent_close` sets `closed` -/
  | close
  /-- first section of a round of `readahead` -/
  | pick
  /-- the wait on `readahead_cond` ends without a signal -/
  | wakeReadahead
  /-- the read-ahead thread returns from its wait -/
  | readaheadWake
  /-- `pread` fails (`none`) or returns this number of bytes -/
  | pread (result : Option Nat)
  /-- last section of a round of `readahead` -/
  | push

inductive Out (α : Type*) where
  | ok (outcome : Outcome α)
  /-- The event is none of a call. -/
  | silent
  /-- A null pointer was read. -/
  | crash

/-! ## The two conditions -/

/-- The reader waits on `user_cond` and nothing woke it. -/
def State.readerAsleep (s : State α) : Bool := (s.stream.readers ()).isSome && !s.readerWoken

/-- The read-ahead thread waits on `readahead_cond` and nothing woke it. -/
def State.readaheadAsleep (s : State α) : Bool :=
  match s.stream.readahead with
  | .waiting => !s.readaheadWoken
  | _ => false

/-- `pthread_cond_signal(&inst->user_cond)`; without a reader that waits the flag means nothing. -/
def signalUser (s : State α) : State α := { s with readerWoken := true }

/-- `pthread_cond_signal(&inst->readahead_cond)` -/
def signalReadahead (s : State α) : State α := { s with readaheadWoken := true }

section Code

variable (g : Geometry) (file : Int → α)

/-! ## The warm-up -/

/-- The loop of `get_torrent_pos`, for at most `fuel` pieces. -/
def torrentPosFrom (ready : Int → Bool) : Nat → Int → Int → Int
  | 0, _, pos => pos
  | fuel + 1, index, pos =>
    if index < g.nPieces ∧ ready index = true then
      torrentPosFrom ready fuel (index + 1) (pos + g.pieceSizeOf index)
    else pos

/-- `get_torrent_pos` -/
def torrentPos (s : State α) : Int :=
  let index := g.offsetToPieceIndex s.stream.pos
  torrentPosFrom g s.ready (g.nPieces - index).toNat index s.stream.pos

/-- The first of the pieces at the end of the file that the warm-up wants. -/
def firstTailPiece : Int :=
  max 0 (g.lastIndex + 1 - (readaheadTail + g.pieceSize - 1).tdiv g.pieceSize - 1)

/-- The first loop of `__warmed` without counters. -/
def tailReady (s : State α) : Bool :=
  (List.range (g.lastIndex + 1 - firstTailPiece g).toNat).all fun k =>
    s.ready (firstTailPiece g + k)

/-- `__warmed` without counters passes both its tests. -/
def warmupOver (s : State α) : Bool :=
  tailReady g s && decide (torrentPos g s - s.stream.pos ≥ s.stream.readaheadMin * 2)

/-! ## The threads -/

/-- The reader waits from now on. -/
def startWaiting (s : State α) (sz : Nat) : State α :=
  { s with
    stream := { s.stream with
      userWaiting := s.stream.userWaiting + 1
      readers := Function.update s.stream.readers () (some sz) }
    readerWoken := false }

/-- `avbox_torrent_read` up to its wait.  Before the metadata there is no end of the file, and the
    read waits because nothing set `warmed`. -/
def read (s : State α) (sz : Nat) : State α × Out α :=
  if s.metadata = .received then
    let r := TorrentStream.read g s.stream () sz
    match r.2 with
    | .copied _ _ _ => (signalReadahead { s with stream := r.1 }, .ok r.2)
    | .pending => ({ s with stream := r.1, readerWoken := false }, .ok r.2)
    | _ => ({ s with stream := r.1 }, .ok r.2)
  else if s.stream.closed then (s, .ok .failed)
  else (startWaiting s sz, .ok .pending)

/-- A read that found `warmed` not set, and set at its second look. -/
def readWarming (s : State α) (sz : Nat) : State α :=
  startWaiting
    { s with
      stream := { s.stream with
        warmed := true
        underrun := s.stream.underrun || decide (s.stream.raPos - s.stream.pos = 0) } } sz

/-- `avbox_torrent_read` after its wait. -/
def readWoken (s : State α) (sz : Nat) : State α × Out α :=
  let r := TorrentStream.readWoken g s.stream () sz
  match r.2 with
  | .copied _ _ _ => (signalReadahead { s with stream := r.1 }, .ok r.2)
  | _ => ({ s with stream := r.1 }, .ok r.2)

/-- `avbox_torrent_seek`; `filesize` is 0 until it is stored. -/
def seek (s : State α) (pos : Int) : State α × Out α :=
  if s.metadata = .missing ∧ pos > 0 then (s, .ok .failed)
  else
    let r := TorrentStream.seek g s.stream pos
    match r.2 with
    | .done => (signalReadahead { s with stream := r.1 }, .ok r.2)
    | _ => ({ s with stream := r.1 }, .ok r.2)

/-- `check_and_signal_piece_ready` for a complete piece. -/
def alert (s : State α) (index : Int) : State α :=
  let s' := { s with ready := Function.update s.ready index true }
  if s.stream.warmed = false ∨ s.stream.nextPiece = index then signalReadahead s' else s'

/-- The window of the read-ahead thread is full. -/
def State.windowFull (s : State α) : Bool :=
  decide (s.stream.raPos - s.stream.pos > s.stream.readaheadMin)

/-- First section of a round of `readahead`. -/
def pick (s : State α) : State α × Out α :=
  if s.metadata ≠ .received then
    ({ s with
        stream := { s.stream with readahead := if s.stream.closed then .exited else .waiting }
        readaheadWoken := false }, .silent)
  else
    let next := { s with
      stream := readaheadPick g s.stream (s.ready (g.offsetToPieceIndex s.stream.raPos))
      readaheadWoken := false }
    if s.stream.closed = false ∧ s.windowFull = true ∧ s.stream.userWaiting ≠ 0 then
      if s.stream.warmed then (signalUser next, .silent)
      else if warmupOver g s then (s, .crash)
      else (next, .silent)
    else (next, .silent)

/-- Last section of a round of `readahead`. -/
def push (s : State α) (oldRaPos realSz bytesRead : Int) (buffer : Int → Option α) :
    State α × Out α :=
  let r := readaheadPush g s.stream oldRaPos realSz bytesRead buffer
  match r.2 with
  | .queued _ =>
    let s' := { s with stream := r.1 }
    if s.stream.userWaiting ≠ 0 ∧ s.stream.warmed = true then (signalUser s', .ok r.2)
    else (s', .ok r.2)
  | _ => ({ s with stream := r.1 }, .ok r.2)

/-- One step. -/
def step (s : State α) : Event → Option (State α × Out α)
  | .read sz => if s.stream.readers () = none then some (read g s sz) else none
  | .readWarming sz =>
    if s.stream.readers () = none ∧ s.metadata = .received ∧ s.stream.warmed = false ∧
        s.stream.closed = false ∧ s.stream.pos < g.filesize then
      some (readWarming s sz, .ok .pending)
    else none
  | .wakeReader => some (signalUser s, .silent)
  | .readWake =>
    if s.readerWoken then (s.stream.readers ()).map fun sz => readWoken g s sz else none
  | .seek pos => if 0 ≤ pos then some (seek g s pos) else none
  | .bufferstate isOver =>
    if s.metadata = .received ∧ isOver = true then
      some ({ s with stream := { s.stream with warmed := true } }, .silent)
    else some (s, .silent)
  | .store =>
    if s.metadata = .missing then some ({ s with metadata := .stored }, .silent) else none
  | .metadata complete =>
    if s.metadata = .stored then
      some (signalReadahead { s with metadata := .received, ready := complete }, .silent)
    else none
  | .alert index =>
    if s.metadata = .received ∧ s.ready index = false then some (alert s index, .silent) else none
  | .close => some ({ s with stream := { s.stream with closed := true } }, .silent)
  | .pick =>
    match s.stream.readahead with
    | .top => some (pick g s)
    | _ => none
  | .wakeReadahead => some (signalReadahead s, .silent)
  | .readaheadWake =>
    match s.stream.readahead with
    | .waiting =>
      if s.readaheadWoken then
        some ({ s with stream := { s.stream with readahead := .top } }, .silent)
      else none
    | _ => none
  | .pread result =>
    match s.stream.readahead, result with
    | .pread _ _ _ _, none =>
      some ({ s with stream := { s.stream with readahead := .top } }, .silent)
    | .pread oldRaPos realSz sz bufferOffset, some bytes =>
      if (bytes : Int) ≤ sz then
        some ({ s with
          stream := readaheadRead g file s.stream oldRaPos realSz sz bufferOffset bytes }, .silent)
      else none
    | _, _ => none
  | .push =>
    match s.stream.readahead with
    | .push oldRaPos realSz bytesRead buffer _ =>
      some (push g s oldRaPos realSz bytesRead buffer)
    | _ => none

end Code


/-! ## What keeps the threads awake -/

section Facts

variable {g : Geometry} {s t : State α}

/-- The read-ahead thread has nothing left to do: its window is full, or it read the whole file. -/
def State.idle (g : Geometry) (s : State α) : Bool :=
  decide (s.metadata = .received) && (s.windowFull || decide (g.filesize ≤ s.stream.raPos))

def State.allReady (g : Geometry) (s : State α) : Bool :=
  (List.range g.nPieces.toNat).all fun i : Nat => s.ready i

theorem allReady_iff : s.allReady g = true ↔ ∀ i, 0 ≤ i → i < g.nPieces → s.ready i = true := by
  rw [State.allReady, List.all_eq_true]
  constructor
  · intro h i h0 hlt
    have := h i.toNat (List.mem_range.mpr (by omega))
    rwa [Int.toNat_of_nonneg h0] at this
  · intro h i hi
    have := List.mem_range.mp hi
    exact h i (by omega) (by omega)

theorem idle_early (hmeta : s.metadata ≠ .received) : s.idle g = false := by
  unfold State.idle
  rw [decide_eq_false hmeta, Bool.false_and]

/-- The piece of a position of the file is one of the torrent. -/
theorem index_range {p : Int} (h0 : 0 ≤ p) (hlt : p < g.filesize) :
    0 ≤ g.offsetToPieceIndex p ∧ g.offsetToPieceIndex p < g.nPieces := by
  have hle := g.index_le_lastIndex h0 hlt
  have hlast := g.lastIndex_lt
  have hoff := g.fileOffset_nonneg
  refine ⟨?_, by omega⟩
  exact Int.tdiv_nonneg (by omega) (Int.le_of_lt g.pieceSize_pos)

/-- The positions and the threads, apart from who sleeps. -/
structure Base (g : Geometry) (s : State α) : Prop where
  raPos_nonneg : 0 ≤ s.stream.raPos
  min_eq : s.stream.readaheadMin = readaheadMin
  waiting : s.stream.readers () ≠ none → s.stream.userWaiting ≠ 0
  reading : ∀ oldRaPos realSz sz bufferOffset,
    s.stream.readahead = .pread oldRaPos realSz sz bufferOffset → s.stream.raPos ≤ g.filesize
  pushing : ∀ oldRaPos realSz bytesRead buffer readAt,
    s.stream.readahead = .push oldRaPos realSz bytesRead buffer readAt → 0 ≤ bytesRead
  early : s.metadata ≠ .received → ∀ i, s.ready i = false

/-- The read-ahead thread waits for the piece it needs next. -/
def State.piecePending (g : Geometry) (s : State α) : Prop :=
  s.stream.raPos < g.filesize ∧ s.stream.nextPiece = g.offsetToPieceIndex s.stream.raPos ∧
    s.ready s.stream.nextPiece = false

structure Inv (g : Geometry) (s : State α) : Prop extends Base g s where
  /-- Why the read-ahead thread sleeps. -/
  reason : s.readaheadAsleep = true → s.metadata = .received →
    s.idle g = true ∨ s.piecePending g
  /-- When both sleep for good, the warm-up goes on and an alert to come ends it. -/
  apart : s.readerAsleep = true → s.readaheadAsleep = true → s.idle g = true →
    s.stream.warmed = false ∧ s.allReady g = false

theorem init_inv : Inv g (init : State α) where
  raPos_nonneg := Int.le_refl 0
  min_eq := rfl
  waiting := fun h => absurd rfl h
  reading := nofun
  pushing := nofun
  early := fun _ _ => rfl
  reason := nofun
  apart := nofun

/-- With every piece there, the two threads do not both sleep. -/
theorem Inv.not_both (h : Inv g s) (hready : s.allReady g = true) :
    ¬(s.readerAsleep = true ∧ s.readaheadAsleep = true) := by
  rintro ⟨hreader, hreadahead⟩
  have hall := allReady_iff.mp hready
  by_cases hmeta : s.metadata = .received
  · rcases h.reason hreadahead hmeta with hidle | ⟨hlt, hnext, hmissing⟩
    · rw [(h.apart hreader hreadahead hidle).2] at hready
      exact Bool.noConfusion hready
    · obtain ⟨h0, hn⟩ := index_range h.raPos_nonneg hlt
      rw [hnext, hall _ h0 hn] at hmissing
      exact Bool.noConfusion hmissing
  · obtain ⟨h0, hn⟩ := index_range (g := g) (p := 0) (Int.le_refl 0) g.filesize_pos
    have hnone := h.early hmeta (g.offsetToPieceIndex 0)
    rw [hall _ h0 hn] at hnone
    exact Bool.noConfusion hnone

theorem Base.inv_of_awake (h : Base g s) (hawake : s.readaheadAsleep = false) : Inv g s :=
  { h with
    reason := fun hsleep => absurd (hawake.symm.trans hsleep) Bool.noConfusion
    apart := fun _ hsleep => absurd (hawake.symm.trans hsleep) Bool.noConfusion }

/-- The read-ahead thread, the window and the pieces did not change. -/
structure SameWindow (s t : State α) : Prop where
  readahead : t.stream.readahead = s.stream.readahead
  woken : t.readaheadWoken = s.readaheadWoken
  pos : t.stream.pos = s.stream.pos
  raPos : t.stream.raPos = s.stream.raPos
  nextPiece : t.stream.nextPiece = s.stream.nextPiece
  min : t.stream.readaheadMin = s.stream.readaheadMin
  metadata : t.metadata = s.metadata
  ready : t.ready = s.ready

theorem SameWindow.asleep (h : SameWindow s t) : t.readaheadAsleep = s.readaheadAsleep := by
  unfold State.readaheadAsleep
  rw [h.readahead, h.woken]

theorem SameWindow.idle (h : SameWindow s t) : t.idle g = s.idle g := by
  unfold State.idle State.windowFull
  rw [h.metadata, h.raPos, h.pos, h.min]

theorem SameWindow.allReady (h : SameWindow s t) : t.allReady g = s.allReady g := by
  unfold State.allReady
  rw [h.ready]

/-- A step that leaves the window alone keeps the invariant when the reader starts no sleep that
    nothing ends. -/
theorem Inv.of_sameWindow (h : Inv g s) (hsame : SameWindow s t)
    (hwaiting : t.stream.readers () ≠ none → t.stream.userWaiting ≠ 0)
    (hnew : t.readerAsleep = true → s.readaheadAsleep = true → s.idle g = true →
      t.stream.warmed = false ∧ s.allReady g = false) : Inv g t where
  raPos_nonneg := by
    rw [hsame.raPos]
    exact h.raPos_nonneg
  min_eq := by
    rw [hsame.min]
    exact h.min_eq
  waiting := hwaiting
  reading := by
    rw [hsame.readahead, hsame.raPos]
    exact h.reading
  pushing := by
    rw [hsame.readahead]
    exact h.pushing
  early := by
    rw [hsame.metadata, hsame.ready]
    exact h.early
  reason := by
    rw [hsame.asleep, hsame.metadata, hsame.idle, State.piecePending, hsame.raPos, hsame.nextPiece,
      hsame.ready]
    exact h.reason
  apart := by
    rw [hsame.asleep, hsame.idle, hsame.allReady]
    exact hnew

end Facts

/-! ## Reads -/

section Reads

variable {g : Geometry} {s : State α}

/-- What is left of a read changes the position and the queue, the position only when it copies. -/
theorem copyOut_cases (x : TorrentStream.State Unit α) (sz : Nat) :
    (∃ pos pieces p o bs,
      copyOut g x sz = ({ x with pos := pos, readaheadPieces := pieces }, .copied p o bs)) ∨
    (∃ pieces, copyOut g x sz = ({ x with readaheadPieces := pieces }, .abort)) ∨
    copyOut g x sz = (x, .eof) := by
  have hfront : ∀ (y : TorrentStream.State Unit α) (front : Piece α),
      (∃ pos pieces p o bs,
        copyFront g y front sz = ({ y with pos := pos, readaheadPieces := pieces }, .copied p o bs)) ∨
      (∃ pieces, copyFront g y front sz = ({ y with readaheadPieces := pieces }, .abort)) := by
    intro y front
    unfold copyFront
    dsimp only
    split
    · exact .inl ⟨_, y.readaheadPieces, _, _, _, rfl⟩
    · exact .inr ⟨y.readaheadPieces, rfl⟩
  unfold copyOut
  split
  · exact .inr (.inr rfl)
  · cases hpieces : x.readaheadPieces with
    | nil => exact .inr (.inl ⟨x.readaheadPieces, rfl⟩)
    | cons front rest =>
      dsimp only
      split
      · cases rest with
        | nil => exact .inr (.inl ⟨x.readaheadPieces, rfl⟩)
        | cons second others =>
          dsimp only
          split
          · rcases hfront { x with readaheadPieces := second :: others } second with
              ⟨pos, pieces, p, o, bs, hcopy⟩ | ⟨pieces, hcopy⟩
            · exact .inl ⟨pos, pieces, p, o, bs, hcopy⟩
            · exact .inr (.inl ⟨pieces, hcopy⟩)
          · exact .inr (.inl ⟨x.readaheadPieces, rfl⟩)
      · rcases hfront x front with ⟨pos, pieces, p, o, bs, hcopy⟩ | ⟨pieces, hcopy⟩
        · exact .inl ⟨pos, pieces, p, o, bs, hcopy⟩
        · exact .inr (.inl ⟨pieces, hcopy⟩)

/-- After the warm-up a read finds its bytes when the read-ahead thread has nothing left to do. -/
theorem idle_not_blocked (hmin : s.stream.readaheadMin = readaheadMin)
    (hpos : s.stream.pos < g.filesize) (hidle : s.idle g = true)
    (hwarmed : s.stream.warmed = true) : blocked g s.stream = false := by
  have hmin0 : (0 : Int) ≤ readaheadMin := by decide
  simp only [State.idle, State.windowFull, Bool.and_eq_true, Bool.or_eq_true,
    decide_eq_true_eq] at hidle
  have hfar : ¬ s.stream.raPos - s.stream.pos < min (g.filesize - s.stream.pos)
      s.stream.readaheadMin := by omega
  have hsome : ¬ s.stream.raPos - s.stream.pos = 0 := by omega
  simp only [blocked, hwarmed, hfar, hsome, Bool.not_true, decide_false, Bool.and_false,
    Bool.or_false]

end Reads


section ReadSteps

variable {g : Geometry} {s : State α}

/-- A read that neither copies nor waits. -/
def Returns (r : TorrentStream.State Unit α × Outcome α) (x : TorrentStream.State Unit α) : Prop :=
  ∃ pieces o, r = ({ x with readaheadPieces := pieces }, o) ∧
    (o = .failed ∨ o = .eof ∨ o = .again ∨ o = .abort)

theorem copyOut_returns (x : TorrentStream.State Unit α) (sz : Nat) :
    (∃ pos pieces p o bs,
      copyOut g x sz = ({ x with pos := pos, readaheadPieces := pieces }, .copied p o bs)) ∨
    Returns (copyOut g x sz) x := by
  rcases copyOut_cases (g := g) x sz with hcopy | ⟨pieces, hcopy⟩ | hcopy
  · exact .inl hcopy
  · exact .inr ⟨pieces, _, hcopy, .inr (.inr (.inr rfl))⟩
  · exact .inr ⟨x.readaheadPieces, _, hcopy, .inr (.inl rfl)⟩

theorem streamRead_cases (x : TorrentStream.State Unit α) (sz : Nat) :
    (∃ pos pieces p o bs, TorrentStream.read g x () sz =
      ({ x with pos := pos, readaheadPieces := pieces }, .copied p o bs)) ∨
    (x.pos < g.filesize ∧ blocked g x = true ∧ ∃ underrun, TorrentStream.read g x () sz =
      ({ x with
          underrun := underrun
          userWaiting := x.userWaiting + 1
          readers := Function.update x.readers () (some sz) }, .pending)) ∨
    Returns (TorrentStream.read g x () sz) x := by
  unfold TorrentStream.read
  by_cases hclosed : x.closed = true
  · rw [if_pos hclosed]
    exact .inr (.inr ⟨x.readaheadPieces, _, rfl, .inl rfl⟩)
  rw [if_neg hclosed]
  by_cases hpos : x.pos ≥ g.filesize
  · rw [if_pos hpos]
    exact .inr (.inr ⟨x.readaheadPieces, _, rfl, .inr (.inl rfl)⟩)
  rw [if_neg hpos]
  by_cases hblocked : blocked g x = true
  · rw [if_pos hblocked]
    exact .inr (.inl ⟨by omega, hblocked, _, rfl⟩)
  · rw [if_neg hblocked]
    exact (copyOut_returns x sz).imp id .inr

theorem signalReadahead_awake : (signalReadahead s).readaheadAsleep = false := by
  unfold State.readaheadAsleep signalReadahead
  dsimp only
  split <;> rfl

/-- A copy moves the position and wakes the read-ahead thread. -/
theorem Inv.copied (h : Inv g s) (pos : Int) (pieces : List (Piece α)) :
    Inv g (signalReadahead
      { s with stream := { s.stream with pos := pos, readaheadPieces := pieces } }) :=
  Base.inv_of_awake ⟨h.raPos_nonneg, h.min_eq, h.waiting, h.reading, h.pushing, h.early⟩
    signalReadahead_awake

theorem Inv.popped (h : Inv g s) (pieces : List (Piece α)) :
    Inv g { s with stream := { s.stream with readaheadPieces := pieces } } :=
  h.of_sameWindow ⟨rfl, rfl, rfl, rfl, rfl, rfl, rfl, rfl⟩ h.waiting h.apart

theorem Inv.reader_waits (h : Inv g s) (underrun : Bool) (sz : Nat)
    (hnew : s.readaheadAsleep = true → s.idle g = true →
      s.stream.warmed = false ∧ s.allReady g = false) :
    Inv g (startWaiting { s with stream := { s.stream with underrun := underrun } } sz) :=
  h.of_sameWindow ⟨rfl, rfl, rfl, rfl, rfl, rfl, rfl, rfl⟩ (fun _ => Nat.succ_ne_zero _)
    (fun _ => hnew)

/-- A read keeps the invariant when it does not start to wait during the warm-up with every piece
    there and an idle read-ahead thread asleep. -/
theorem read_inv (h : Inv g s) (sz : Nat)
    (hheard : s.stream.pos < g.filesize → s.readaheadAsleep = true → s.idle g = true →
      s.allReady g = true → s.stream.warmed = true) : Inv g (read g s sz).1 := by
  unfold read
  by_cases hmeta : s.metadata = .received
  · rw [if_pos hmeta]
    dsimp only
    rcases streamRead_cases (g := g) s.stream sz with
      ⟨pos, pieces, p, o, bs, hread⟩ | ⟨hpos, hblocked, underrun, hread⟩ | ⟨pieces, o, hread, ho⟩
    · rw [hread]
      exact h.copied pos pieces
    · rw [hread]
      refine h.reader_waits underrun sz fun hsleep hidle => ?_
      have hcold : s.stream.warmed = false := by
        rw [← Bool.not_eq_true]
        intro hwarmed
        rw [idle_not_blocked h.min_eq hpos hidle hwarmed] at hblocked
        exact Bool.noConfusion hblocked
      refine ⟨hcold, ?_⟩
      rw [← Bool.not_eq_true]
      intro hall
      rw [hheard hpos hsleep hidle hall] at hcold
      exact Bool.noConfusion hcold
    · rw [hread]
      rcases ho with rfl | rfl | rfl | rfl
      all_goals exact h.popped pieces
  · rw [if_neg hmeta]
    split
    · exact h
    · exact h.reader_waits s.stream.underrun sz fun _ hidle =>
        absurd ((idle_early hmeta).symm.trans hidle) nofun

theorem readWarming_inv (h : Inv g s) (sz : Nat)
    (hheard : s.readaheadAsleep = true → s.idle g = false) : Inv g (readWarming s sz) :=
  h.of_sameWindow ⟨rfl, rfl, rfl, rfl, rfl, rfl, rfl, rfl⟩ (fun _ => Nat.succ_ne_zero _)
    fun _ hsleep hidle => absurd ((hheard hsleep).symm.trans hidle) nofun

/-- The reader leaves its wait. -/
def leaveWait (x : TorrentStream.State Unit α) (underrun : Bool) : TorrentStream.State Unit α :=
  { x with
    underrun := underrun
    userWaiting := x.userWaiting - 1
    readers := Function.update x.readers () none }

theorem streamReadWoken_cases (x : TorrentStream.State Unit α) (sz : Nat) :
    ∃ underrun,
      (∃ pos pieces p o bs, TorrentStream.readWoken g x () sz =
        ({ leaveWait x underrun with pos := pos, readaheadPieces := pieces }, .copied p o bs)) ∨
      Returns (TorrentStream.readWoken g x () sz) (leaveWait x underrun) := by
  unfold TorrentStream.readWoken
  dsimp only
  split
  · exact ⟨x.underrun, .inr ⟨x.readaheadPieces, _, rfl, .inr (.inr (.inl rfl))⟩⟩
  · exact ⟨false, copyOut_returns (leaveWait x false) sz⟩

theorem readWoken_inv (h : Inv g s) (sz : Nat) : Inv g (readWoken g s sz).1 := by
  have hleft : ∀ underrun, Inv g { s with stream := leaveWait s.stream underrun } := by
    intro underrun
    exact h.of_sameWindow ⟨rfl, rfl, rfl, rfl, rfl, rfl, rfl, rfl⟩ (fun hne => absurd rfl hne) nofun
  unfold readWoken
  dsimp only
  obtain ⟨underrun, ⟨pos, pieces, p, o, bs, hread⟩ | ⟨pieces, o, hread, ho⟩⟩ :=
    streamReadWoken_cases (g := g) s.stream sz
  · rw [hread]
    exact (hleft underrun).copied pos pieces
  · rw [hread]
    rcases ho with rfl | rfl | rfl | rfl
    all_goals exact (hleft underrun).popped pieces

end ReadSteps


/-! ## Seeks, alerts and the read-ahead thread -/

section OtherSteps

variable {g : Geometry} {file : Int → α} {s : State α}

theorem seek_inv (h : Inv g s) {pos : Int} (h0 : 0 ≤ pos) : Inv g (seek g s pos).1 := by
  unfold seek
  split
  · exact h
  · dsimp only
    by_cases hfar : pos > g.filesize
    · have hseek : TorrentStream.seek g s.stream pos = (s.stream, .failed) := if_pos hfar
      rw [hseek]
      exact h
    by_cases hclosed : s.stream.closed = true
    · have hseek : TorrentStream.seek g s.stream pos = (s.stream, .failed) :=
        (if_neg hfar).trans (if_pos hclosed)
      rw [hseek]
      exact h
    · have hseek : TorrentStream.seek g s.stream pos =
          ({ s.stream with readaheadPieces := [], pos := pos, raPos := pos }, .done) :=
        (if_neg hfar).trans (if_neg hclosed)
      rw [hseek]
      exact Base.inv_of_awake
        ⟨h0, h.min_eq, h.waiting, fun _ _ _ _ _ => Int.not_lt.mp hfar, h.pushing, h.early⟩
        signalReadahead_awake

/-- Before the end of the warm-up an alert wakes the read-ahead thread; after it, one for the piece
    the thread waits for. -/
theorem alert_inv (h : Inv g s) (hmeta : s.metadata = .received) (index : Int) :
    Inv g (alert s index) := by
  have hearly : s.metadata ≠ .received → ∀ i, Function.update s.ready index true i = false :=
    fun hne => absurd hmeta hne
  unfold alert
  dsimp only
  split
  · exact Base.inv_of_awake
      ⟨h.raPos_nonneg, h.min_eq, h.waiting, h.reading, h.pushing, hearly⟩ signalReadahead_awake
  · rename_i hquiet
    rw [not_or, Bool.not_eq_false] at hquiet
    obtain ⟨hwarmed, hother⟩ := hquiet
    refine ⟨⟨h.raPos_nonneg, h.min_eq, h.waiting, h.reading, h.pushing, hearly⟩, ?_, ?_⟩
    · intro hsleep _
      rcases h.reason hsleep hmeta with hidle | ⟨hlt, hnext, hmissing⟩
      · exact .inl hidle
      · refine .inr ⟨hlt, hnext, ?_⟩
        exact (Function.update_of_ne hother _ _).trans hmissing
    · intro hreader hsleep hidle
      have hcold := (h.apart hreader hsleep hidle).1
      rw [hwarmed] at hcold
      exact Bool.noConfusion hcold

/-- The warm-up is found to be over by a thread that signals nobody. -/
theorem bufferstate_inv (h : Inv g s)
    (hheard : s.readerAsleep = true → s.readaheadAsleep = true → s.idle g = false) :
    Inv g { s with stream := { s.stream with warmed := true } } :=
  h.of_sameWindow ⟨rfl, rfl, rfl, rfl, rfl, rfl, rfl, rfl⟩ h.waiting
    fun hreader hsleep hidle => absurd ((hheard hreader hsleep).symm.trans hidle) nofun

/-- The read-ahead thread goes to sleep, or on to a piece that is there. -/
theorem readaheadPick_cases (x : TorrentStream.State Unit α) (hopen : x.closed = false)
    (ready : Int → Bool) :
    ((x.raPos - x.pos > x.readaheadMin ∨ g.filesize ≤ x.raPos) ∧
      readaheadPick g x (ready (g.offsetToPieceIndex x.raPos)) = { x with readahead := .waiting }) ∨
    (x.raPos < g.filesize ∧ x.raPos - x.pos ≤ x.readaheadMin ∧
      ready (g.offsetToPieceIndex x.raPos) = false ∧
      readaheadPick g x (ready (g.offsetToPieceIndex x.raPos)) =
        { x with nextPiece := g.offsetToPieceIndex x.raPos, readahead := .waiting }) ∨
    (x.raPos < g.filesize ∧ x.raPos - x.pos ≤ x.readaheadMin ∧ ∃ realSz sz bufferOffset,
      readaheadPick g x (ready (g.offsetToPieceIndex x.raPos)) =
        { x with
          nextPiece := g.offsetToPieceIndex x.raPos
          readahead := .pread x.raPos realSz sz bufferOffset }) := by
  unfold readaheadPick
  rw [if_neg (by simp [hopen])]
  by_cases hfull : x.raPos - x.pos > x.readaheadMin
  · exact .inl ⟨.inl hfull, if_pos hfull⟩
  rw [if_neg hfull]
  by_cases hlt : x.raPos < g.filesize
  · rw [if_pos hlt]
    dsimp only
    cases hready : ready (g.offsetToPieceIndex x.raPos) with
    | false => exact .inr (.inl ⟨hlt, by omega, rfl, rfl⟩)
    | true =>
      refine .inr (.inr ⟨hlt, by omega, ?_⟩)
      split
      · split
        all_goals exact ⟨_, _, _, rfl⟩
      · contradiction
  · rw [if_neg hlt]
    exact .inl ⟨.inr (by omega), rfl⟩

theorem signalUser_awake : (signalUser s).readerAsleep = false := Bool.and_false _

theorem Inv.signalled (h : Inv g s) : Inv g (signalUser s) :=
  h.of_sameWindow ⟨rfl, rfl, rfl, rfl, rfl, rfl, rfl, rfl⟩ h.waiting
    fun hreader => absurd (signalUser_awake.symm.trans hreader) nofun

theorem Base.falls_asleep (h : Base g s) (nextPiece : Int)
    (hreason : s.metadata = .received → s.idle g = true ∨
      State.piecePending g { s with stream := { s.stream with nextPiece := nextPiece } })
    (hapart : s.readerAsleep = true → s.idle g = true →
      s.stream.warmed = false ∧ s.allReady g = false) :
    Inv g { s with
      stream := { s.stream with nextPiece := nextPiece, readahead := .waiting }
      readaheadWoken := false } where
  raPos_nonneg := h.raPos_nonneg
  min_eq := h.min_eq
  waiting := h.waiting
  reading := nofun
  pushing := nofun
  early := h.early
  reason := fun _ => hreason
  apart := fun hreader _ => hapart hreader

theorem next_inv (h : Inv g s) (hmeta : s.metadata = .received) (hopen : s.stream.closed = false)
    (hapart : s.readerAsleep = true → s.idle g = true →
      s.stream.warmed = false ∧ s.allReady g = false) :
    Inv g { s with
      stream := readaheadPick g s.stream (s.ready (g.offsetToPieceIndex s.stream.raPos))
      readaheadWoken := false } := by
  rcases readaheadPick_cases (g := g) s.stream hopen s.ready with
    ⟨hdone, hpick⟩ | ⟨hlt, -, hmissing, hpick⟩ | ⟨hlt, -, realSz, sz, bufferOffset, hpick⟩
  · rw [hpick]
    refine h.toBase.falls_asleep s.stream.nextPiece (fun _ => .inl ?_) hapart
    simp only [State.idle, State.windowFull, Bool.and_eq_true, Bool.or_eq_true, decide_eq_true_eq]
    exact ⟨hmeta, hdone⟩
  · rw [hpick]
    exact h.toBase.falls_asleep _ (fun _ => .inr ⟨hlt, rfl, hmissing⟩) hapart
  · rw [hpick]
    exact Base.inv_of_awake
      ⟨h.raPos_nonneg, h.min_eq, h.waiting, fun _ _ _ _ _ => Int.le_of_lt hlt, nofun, h.early⟩ rfl

theorem readerAsleep_waiting (h : Base g s) (hreader : s.readerAsleep = true) :
    s.stream.userWaiting ≠ 0 := by
  apply h.waiting
  intro hnone
  simp only [State.readerAsleep, hnone] at hreader
  exact Bool.noConfusion hreader

/-- The read-ahead thread keeps the invariant when it does not go to sleep for good on a reader that
    sleeps, other than with a full window or with a piece missing during the warm-up. -/
theorem pick_inv (h : Inv g s)
    (hheard : s.stream.closed = false → s.readerAsleep = true → s.idle g = true →
      (s.windowFull = true ∧ s.stream.warmed = true) ∨
        (s.stream.warmed = false ∧ s.allReady g = false)) : Inv g (pick g s).1 := by
  unfold pick
  by_cases hmeta : s.metadata = .received
  · rw [if_neg (not_not_intro hmeta)]
    dsimp only
    by_cases hopen : s.stream.closed = false
    · by_cases hlook : s.windowFull = true ∧ s.stream.userWaiting ≠ 0
      · rw [if_pos ⟨hopen, hlook⟩]
        split
        · -- the reader is signalled
          exact next_inv (s := signalUser s) h.signalled hmeta hopen
            fun hreader => absurd (signalUser_awake.symm.trans hreader) nofun
        · rename_i hcold
          split
          · exact h
          · refine next_inv h hmeta hopen fun hreader hidle => ?_
            rcases hheard hopen hreader hidle with ⟨-, hwarmed⟩ | hwarming
            · exact absurd hwarmed hcold
            · exact hwarming
      · rw [if_neg fun hc => hlook hc.2]
        refine next_inv h hmeta hopen fun hreader hidle => ?_
        rcases hheard hopen hreader hidle with ⟨hfull, -⟩ | hwarming
        · exact absurd ⟨hfull, readerAsleep_waiting h.toBase hreader⟩ hlook
        · exact hwarming
    · rw [if_neg fun hc => hopen hc.1]
      have hclosed : s.stream.closed = true := by simpa using hopen
      have hpick : readaheadPick g s.stream (s.ready (g.offsetToPieceIndex s.stream.raPos)) =
          { s.stream with readahead := .exited } := if_pos hclosed
      rw [hpick]
      exact Base.inv_of_awake
        ⟨h.raPos_nonneg, h.min_eq, h.waiting, nofun, nofun, h.early⟩ rfl
  · rw [if_pos hmeta]
    cases s.stream.closed with
    | false =>
      exact h.toBase.falls_asleep s.stream.nextPiece (fun hreceived => absurd hreceived hmeta)
        fun _ hidle => absurd ((idle_early hmeta).symm.trans hidle) nofun
    | true =>
      exact Base.inv_of_awake
        ⟨h.raPos_nonneg, h.min_eq, h.waiting, nofun, nofun, h.early⟩ rfl

end OtherSteps


section Rounds

variable {g : Geometry} {file : Int → α} {s : State α}

theorem top_inv (h : Base g s) :
    Inv g { s with stream := { s.stream with readahead := .top } } :=
  Base.inv_of_awake ⟨h.raPos_nonneg, h.min_eq, h.waiting, nofun, nofun, h.early⟩ rfl

theorem readaheadRead_inv (h : Inv g s) {oldRaPos realSz sz bufferOffset : Int} (bytes : Nat)
    (hpc : s.stream.readahead = .pread oldRaPos realSz sz bufferOffset) :
    Inv g { s with
      stream := readaheadRead g file s.stream oldRaPos realSz sz bufferOffset bytes } := by
  have hle := h.reading _ _ _ _ hpc
  have hpush : ∀ (n : Int) (buffer : Int → Option α), 0 ≤ n →
      Inv g { s with stream := { s.stream with
        readahead := .push oldRaPos realSz n buffer s.stream.raPos } } := by
    intro n buffer hn
    refine Base.inv_of_awake ⟨h.raPos_nonneg, h.min_eq, h.waiting, nofun, ?_, h.early⟩ rfl
    intro _ _ _ _ _ heq
    cases heq
    exact hn
  unfold readaheadRead
  dsimp only
  split
  · split
    · exact hpush _ _ (by omega)
    · exact top_inv h.toBase
  · exact hpush _ _ (Int.natCast_nonneg bytes)

theorem push_inv (h : Inv g s) {oldRaPos realSz bytesRead readAt : Int} {buffer : Int → Option α}
    (hpc : s.stream.readahead = .push oldRaPos realSz bytesRead buffer readAt) :
    Inv g (push g s oldRaPos realSz bytesRead buffer).1 := by
  have hn := h.pushing _ _ _ _ _ hpc
  have h0 := h.raPos_nonneg
  unfold push readaheadPush
  dsimp only
  by_cases hmoved : s.stream.raPos ≠ oldRaPos
  · rw [if_pos hmoved]
    cases s.stream.readaheadPieces with
    | nil => exact top_inv (h.popped []).toBase
    | cons front rest => exact h
  · rw [if_neg hmoved]
    have hqueued : ∀ pieces : List (Piece α), Inv g { s with stream := { s.stream with
        readaheadPieces := pieces
        raPos := s.stream.raPos + bytesRead
        readahead := .top } } := by
      intro pieces
      exact Base.inv_of_awake
        ⟨Int.add_nonneg h0 hn, h.min_eq, h.waiting, nofun, nofun, h.early⟩ rfl
    dsimp only
    split
    · exact (hqueued _).signalled
    · exact hqueued _

end Rounds

/-! ## Every run -/

section Runs

variable {g : Geometry} {file : Int → α}

/-- The reader sleeps on a complete file, and so does the thread that could wake it. -/
structure Stuck (g : Geometry) (s : State α) : Prop where
  opened : s.stream.closed = false
  complete : s.allReady g = true
  reader : s.readerAsleep = true
  readahead : s.readaheadAsleep = true

/-- No step of these kinds: a wait of a reader that nobody is told about, the end of the warm-up
    between the two looks of a read while the read-ahead thread sleeps with nothing left to do, the
    end of the warm-up unheard by both, and a sleep of the read-ahead thread that leaves the reader
    asleep. -/
def Heard (g : Geometry) (s : State α) : Event → Prop
  | .read _ => s.stream.pos < g.filesize → s.readaheadAsleep = true → s.idle g = true →
      s.allReady g = true → s.stream.warmed = true
  | .readWarming _ => s.readaheadAsleep = true → s.idle g = false
  | .bufferstate isOver => isOver = true →
      s.readerAsleep = true → s.readaheadAsleep = true → s.idle g = false
  | .pick => s.stream.closed = false → s.readerAsleep = true → s.idle g = true →
      (s.windowFull = true ∧ s.stream.warmed = true) ∨
        (s.stream.warmed = false ∧ s.allReady g = false)
  | _ => True

instance (g : Geometry) (s : State α) : ∀ e, Decidable (Heard g s e)
  | .read _ => inferInstanceAs (Decidable (_ → _ → _ → _ → _))
  | .readWarming _ => inferInstanceAs (Decidable (_ → _))
  | .bufferstate _ => inferInstanceAs (Decidable (_ → _ → _ → _))
  | .pick => inferInstanceAs (Decidable (_ → _ → _ → _ ∨ _))
  | .wakeReader | .readWake | .seek _ | .store | .metadata _ | .alert _ | .close | .wakeReadahead
  | .readaheadWake | .pread _ | .push => .isTrue trivial

theorem fst_of_some {β γ : Type*} {r : β × γ} {b : β} {c : γ} (h : some r = some (b, c)) :
    r.1 = b :=
  congrArg Prod.fst (Option.some.inj h)

theorem step_inv {s t : State α} {e : Event} {out : Out α} (h : Inv g s) (hheard : Heard g s e)
    (hstep : step g file s e = some (t, out)) : Inv g t := by
  cases e with
  | read sz =>
    obtain ⟨-, hr⟩ := Option.ite_none_right_eq_some.mp hstep
    exact fst_of_some hr ▸ read_inv h sz hheard
  | readWarming sz =>
    obtain ⟨-, hr⟩ := Option.ite_none_right_eq_some.mp hstep
    cases hr
    exact readWarming_inv h sz hheard
  | wakeReader =>
    cases hstep
    exact h.signalled
  | readWake =>
    obtain ⟨-, hr⟩ := Option.ite_none_right_eq_some.mp hstep
    obtain ⟨sz, -, hr⟩ := Option.map_eq_some_iff.mp hr
    exact fst_of_some (congrArg some hr) ▸ readWoken_inv h sz
  | seek pos =>
    obtain ⟨h0, hr⟩ := Option.ite_none_right_eq_some.mp hstep
    exact fst_of_some hr ▸ seek_inv h h0
  | bufferstate isOver =>
    unfold step at hstep
    dsimp only at hstep
    split at hstep
    · rename_i hover
      cases hstep
      exact bufferstate_inv h (hheard hover.2)
    · cases hstep
      exact h
  | store =>
    obtain ⟨hmissing, hr⟩ := Option.ite_none_right_eq_some.mp hstep
    cases hr
    have hearly : s.metadata ≠ .received := by simp [hmissing]
    exact ⟨⟨h.raPos_nonneg, h.min_eq, h.waiting, h.reading, h.pushing, fun _ => h.early hearly⟩,
      fun _ hreceived => Metadata.noConfusion hreceived,
      fun _ _ hidle => absurd ((idle_early (by simp)).symm.trans hidle) nofun⟩
  | metadata complete =>
    obtain ⟨-, hr⟩ := Option.ite_none_right_eq_some.mp hstep
    cases hr
    exact Base.inv_of_awake ⟨h.raPos_nonneg, h.min_eq, h.waiting, h.reading, h.pushing,
      fun hne => absurd rfl hne⟩ signalReadahead_awake
  | alert index =>
    obtain ⟨⟨hmeta, -⟩, hr⟩ := Option.ite_none_right_eq_some.mp hstep
    cases hr
    exact alert_inv h hmeta index
  | close =>
    cases hstep
    exact h.of_sameWindow ⟨rfl, rfl, rfl, rfl, rfl, rfl, rfl, rfl⟩ h.waiting h.apart
  | pick =>
    unfold step at hstep
    dsimp only at hstep
    split at hstep
    · exact fst_of_some hstep ▸ pick_inv h hheard
    · cases hstep
  | wakeReadahead =>
    cases hstep
    exact Base.inv_of_awake
      ⟨h.raPos_nonneg, h.min_eq, h.waiting, h.reading, h.pushing, h.early⟩ signalReadahead_awake
  | readaheadWake =>
    unfold step at hstep
    dsimp only at hstep
    split at hstep
    · obtain ⟨-, hr⟩ := Option.ite_none_right_eq_some.mp hstep
      cases hr
      exact top_inv h.toBase
    · cases hstep
  | pread result =>
    unfold step at hstep
    dsimp only at hstep
    split at hstep
    · cases hstep
      exact top_inv h.toBase
    · rename_i hpc
      obtain ⟨-, hr⟩ := Option.ite_none_right_eq_some.mp hstep
      cases hr
      exact readaheadRead_inv h _ hpc
    · cases hstep
  | push =>
    unfold step at hstep
    dsimp only at hstep
    split at hstep
    · rename_i hpc
      exact fst_of_some hstep ▸ push_inv h hpc
    · cases hstep

/-- **No reader sleeps on complete data**, in every run of reads, seeks, alerts, buffer state
    calls and read-ahead rounds in which every wait is heard of. -/
theorem reader_not_asleep {tr : List (Event × Out α)} {s : State α}
    (hrun : Run (Guarded (step g file) (Heard g)) init tr s) : ¬Stuck g s := by
  have hinv : Inv g s :=
    hrun.invariant init_inv fun t a u ht hstep => step_inv ht hstep.1 hstep.2
  intro hstuck
  exact hinv.not_both hstuck.complete ⟨hstuck.reader, hstuck.readahead⟩

end Runs


/-! ## Runs on a file of four pieces -/

/-- Four pieces of 16 MiB, one file. -/
def fourPieces : Geometry where
  __ := smallGeometry
  filesize := 67108864
  pieceSize := 16777216
  nPieces := 4
  lastPieceSize := 16777216
  filesize_pos := by decide
  pieceSize_pos := by decide
  lastPieceSize_pos := by decide
  lastPieceSize_le := by decide
  inside := by decide

/-- The reader waits for the first piece, the other pieces come before it. -/
theorem reader_not_asleep_last_piece :
    ∃ (tr : List (Event × Out Int)) (s : State Int),
      Run (Guarded (step fourPieces id) (Heard fourPieces)) init tr s ∧
      s.allReady fourPieces = true ∧ s.readerAsleep = true ∧ ¬Stuck fourPieces s :=
  have hrun := run_of_guarded_exec
    [.pick, .read 4096, .store, .metadata fun _ => false, .readaheadWake, .pick,
      .alert 1, .readaheadWake, .pick, .alert 2, .readaheadWake, .pick, .alert 3, .readaheadWake,
      .pick, .alert 0] rfl
  ⟨_, _, hrun, rfl, rfl, reader_not_asleep hrun⟩

/-- Every piece is there; the first one is read ahead and fills the window before the first read. 
    The read then waits for the end of the warm-up, which wakes nobody. -/
theorem reader_asleep_behind_full_window :
    ¬∀ (g : Geometry) (file : Int → Int) (tr : List (Event × Out Int)) (s : State Int),
      Run (Step (step g file)) init tr s → ¬Stuck g s := by
  intro hclaim
  refine hclaim fourPieces id _ _ (run_of_exec [.store, .metadata fun _ => false,
    .alert 0, .alert 1, .alert 2, .alert 3, .pick, .pread (some 16777216), .push, .pick,
    .read 4096, .bufferstate true] rfl) ?_
  exact ⟨rfl, rfl, rfl, rfl⟩

end Mediabox.TorrentWake
