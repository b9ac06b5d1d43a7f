import Mathlib.Logic.Function.Basic
import Mediabox.Lib.Transition

/-!
# Streaming a file of a torrent (`src/lib/torrent_stream.cpp`)

`avbox_torrent_read` and `avbox_torrent_seek` by any threads, and the read-ahead thread, for a
stream whose metadata is known.

* A step is one section under `lock`.  A read that waits on `user_cond` is two sections; the
  waiting reader may wake up at any moment.
* One round of the read-ahead loop is three steps: the locked section that picks the piece, the
  unlocked `pread`, which takes the shared `ra_pos` as it is by then, and the locked section that
  queues the piece or drops it.
* What the code does not decide comes with the event: whether a piece is there (`have_piece`), what
  `pread` returns, and when the warm-up is over.  A failed `stat` or `open` is a failed `pread`.
* A buffer is a partial map from offsets to bytes, so that bytes nobody wrote show.
* A failed assertion is the outcome `abort`, with the state left as it was.  The one at the end of
  a round, `ra_pos <= filesize`, is reported and stops nothing.
-/

set_option autoImplicit false

namespace Mediabox.TorrentStream

open Transition

/-- The place of a file in its torrent: the file starts at `fileOffset` of the concatenation of all
    files, which is cut into pieces of `pieceSize` bytes, the last one shorter. -/
structure Geometry where
  fileOffset : Int
  filesize : Int
  pieceSize : Int
  nPieces : Int
  lastPieceSize : Int
  fileOffset_nonneg : 0 ≤ fileOffset
  filesize_pos : 0 < filesize
  pieceSize_pos : 0 < pieceSize
  lastPieceSize_pos : 0 < lastPieceSize
  lastPieceSize_le : lastPieceSize ≤ pieceSize
  inside : fileOffset + filesize ≤ (nPieces - 1) * pieceSize + lastPieceSize

namespace Geometry

variable (g : Geometry)

/-- `offset_to_piece_index`; C division rounds toward zero. -/
def offsetToPieceIndex (offset : Int) : Int := (offset + g.fileOffset).tdiv g.pieceSize

/-- `piece_size`. -/
def pieceSizeOf (index : Int) : Int :=
  if index < g.nPieces - 1 then g.pieceSize else g.lastPieceSize

end Geometry

variable {τ α : Type*}

/-- `struct piece_header`. -/
structure Piece (α : Type*) where
  index : Int
  size : Int
  buffer : Int → Option α

/-- Where the read-ahead thread stands. -/
inductive ReadaheadPc (α : Type*) where
  /-- at the top of its loop -/
  | top
  /-- waiting on `readahead_cond` -/
  | waiting
  /-- about to call `pread` for `sz` bytes of a piece of size `realSz` -/
  | pread (oldRaPos realSz sz bufferOffset : Int)
  /-- about to take the lock again; `readAt` is the offset `pread` was given -/
  | push (oldRaPos realSz bytesRead : Int) (buffer : Int → Option α) (readAt : Int)
  | exited

/-- The part of `struct avbox_torrent` that reading uses, and the threads. -/
structure State (τ α : Type*) where
  pos : Int
  raPos : Int
  nextPiece : Int
  readaheadPieces : List (Piece α)
  readaheadMin : Int
  warmed : Bool
  underrun : Bool
  userWaiting : Nat
  closed : Bool
  /-- the size a waiting reader asked for -/
  readers : τ → Option Nat
  readahead : ReadaheadPc α

/-- A stream that was just opened. -/
def init (readaheadMin : Int) : State τ α where
  pos := 0
  raPos := 0
  nextPiece := 0
  readaheadPieces := []
  readaheadMin := readaheadMin
  warmed := false
  underrun := false
  userWaiting := 0
  closed := false
  readers := fun _ => none
  readahead := .top

inductive Event (τ : Type*) where
  /-- `avbox_torrent_read` up to its wait, or to its end -/
  | read (t : τ) (sz : Nat)
  /-- `avbox_torrent_read` after its wait -/
  | readWake (t : τ)
  /-- `avbox_torrent_seek` -/
  | seek (pos : Int)
  /-- `avbox_torrent_close` sets `closed` -/
  | close
  /-- `__warmed` finds that the warm-up is over -/
  | warm
  /-- first section of a round of `readahead` -/
  | readahead (havePiece : Bool)
  /-- the read-ahead thread wakes up -/
  | readaheadWake
  /-- `pread` fails (`none`) or returns this number of bytes -/
  | pread (result : Option Nat)
  /-- last section of a round of `readahead` -/
  | push
  deriving DecidableEq, Repr

inductive Outcome (α : Type*) where
  | done
  /-- The read waits. -/
  | pending
  /-- The read returned 0. -/
  | eof
  /-- The read returned -1 with EAGAIN. -/
  | again
  /-- The call returned -1. -/
  | failed
  /-- The read copied these bytes for stream position `pos` from `offset` of the buffer on. -/
  | copied (pos offset : Int) (bytes : List (Option α))
  /-- A piece was queued; whether `ra_pos <= filesize` held then. -/
  | queued (inRange : Bool)
  /-- An assertion failed. -/
  | abort

/-! ## Reading -/

section Code

variable (g : Geometry) (file : Int → α)

/-- The condition of `avbox_torrent_read` to wait, or to give up after having waited. -/
def blocked (s : State τ α) : Bool :=
  let raMin := min (g.filesize - s.pos) s.readaheadMin
  let raAvail := s.raPos - s.pos
  !s.warmed || (s.underrun && decide (raAvail < raMin)) || decide (raAvail = 0)

/-- `offset`: where the stream position lies in the buffer of its piece. -/
def bufferOffset (s : State τ α) : Int :=
  (s.pos + g.fileOffset) - g.offsetToPieceIndex s.pos * g.pieceSize

/-- `bytes_to_read`, with `front` at the head of the queue. -/
def bytesToRead (s : State τ α) (front : Piece α) (sz : Nat) : Int :=
  if g.offsetToPieceIndex s.pos = g.offsetToPieceIndex (g.filesize - 1) then
    min (sz : Int) (g.filesize - s.pos)
  else min (sz : Int) (front.size - bufferOffset g s)

/-- The end of `avbox_torrent_read`, with `front` at the head of the queue. -/
def copyFront (s : State τ α) (front : Piece α) (sz : Nat) : State τ α × Outcome α :=
  let n := bytesToRead g s front sz
  if s.pos + n ≤ g.filesize then
    ({ s with pos := s.pos + n },
      .copied s.pos (bufferOffset g s)
        ((List.range n.toNat).map fun i : Nat => front.buffer (bufferOffset g s + i)))
  else (s, .abort)

/-- `avbox_torrent_read` after its checks of what is available. -/
def copyOut (s : State τ α) (sz : Nat) : State τ α × Outcome α :=
  if s.pos ≥ g.filesize then (s, .eof)
  else
    match s.readaheadPieces with
    | [] => (s, .abort)
    | front :: rest =>
      if front.index ≠ g.offsetToPieceIndex s.pos then
        -- done with the front piece: it is popped
        match rest with
        | [] => (s, .abort)
        | second :: _ =>
          if second.index = g.offsetToPieceIndex s.pos then
            copyFront g { s with readaheadPieces := rest } second sz
          else (s, .abort)
      else copyFront g s front sz

variable [DecidableEq τ]

/-- `avbox_torrent_read` up to its wait. -/
def read (s : State τ α) (t : τ) (sz : Nat) : State τ α × Outcome α :=
  if s.closed then (s, .failed)
  else if s.pos ≥ g.filesize then (s, .eof)
  else if blocked g s then
    ({ s with
        underrun := s.underrun || (s.warmed && decide (s.raPos - s.pos = 0))
        userWaiting := s.userWaiting + 1
        readers := Function.update s.readers t (some sz) }, .pending)
  else copyOut g s sz

/-- `avbox_torrent_read` after its wait. -/
def readWoken (s : State τ α) (t : τ) (sz : Nat) : State τ α × Outcome α :=
  let s' := { s with
    userWaiting := s.userWaiting - 1
    readers := Function.update s.readers t none }
  if blocked g s' then (s', .again)
  else copyOut g { s' with underrun := false } sz

/-! ## Seeking and reading ahead -/

/-- `avbox_torrent_seek`. -/
def seek (s : State τ α) (pos : Int) : State τ α × Outcome α :=
  if pos > g.filesize then (s, .failed)
  else if s.closed then (s, .failed)
  else ({ s with readaheadPieces := [], pos := pos, raPos := pos }, .done)

/-- First section of a round of `readahead`. -/
def readaheadPick (s : State τ α) (havePiece : Bool) : State τ α :=
  if s.closed then { s with readahead := .exited }
  else if s.raPos - s.pos > s.readaheadMin then { s with readahead := .waiting }
  else if s.raPos < g.filesize then
    let nextPiece := g.offsetToPieceIndex s.raPos
    if havePiece then
      let realSz := g.pieceSizeOf nextPiece
      let diff := s.raPos + g.fileOffset - nextPiece * g.pieceSize
      { s with
        nextPiece := nextPiece
        readahead := if diff > 0 then .pread s.raPos realSz (realSz - diff) diff
          else .pread s.raPos realSz realSz 0 }
    else { s with nextPiece := nextPiece, readahead := .waiting }
  else { s with readahead := .waiting }

/-- `pread(fd, &buffer[buffer_offset], sz, inst->ra_pos)` with `bytes` bytes read. -/
def fill (raPos bufferOffset : Int) (bytes : Nat) : Int → Option α :=
  fun j =>
    if bufferOffset ≤ j ∧ j < bufferOffset + bytes then some (file (raPos + (j - bufferOffset)))
    else none

/-- The unlocked part of a round of `readahead`, when `pread` read `bytes` bytes. -/
def readaheadRead (s : State τ α) (oldRaPos realSz sz bufferOffset : Int) (bytes : Nat) :
    State τ α :=
  let buffer := fill file s.raPos bufferOffset bytes
  if (bytes : Int) < sz then
    if s.nextPiece = g.offsetToPieceIndex (g.filesize - 1) ∧ (bytes : Int) ≥ g.filesize - s.raPos then
      { s with readahead := .push oldRaPos realSz (g.filesize - s.raPos) buffer s.raPos }
    else { s with readahead := .top }
  else { s with readahead := .push oldRaPos realSz bytes buffer s.raPos }

/-- Last section of a round of `readahead`. -/
def readaheadPush (s : State τ α) (oldRaPos realSz bytesRead : Int) (buffer : Int → Option α) :
    State τ α × Outcome α :=
  if s.raPos ≠ oldRaPos then
    -- a seek happened: the piece is dropped
    match s.readaheadPieces with
    | [] => ({ s with readahead := .top }, .done)
    | _ :: _ => (s, .abort)
  else
    let piece : Piece α := ⟨s.nextPiece, realSz, buffer⟩
    ({ s with
        readaheadPieces := s.readaheadPieces ++ [piece]
        raPos := s.raPos + bytesRead
        readahead := .top }, .queued (decide (s.raPos + bytesRead ≤ g.filesize)))

/-- One step. -/
def step (s : State τ α) : Event τ → Option (State τ α × Outcome α)
  | .read t sz => if s.readers t = none then some (read g s t sz) else none
  | .readWake t => (s.readers t).map fun sz => readWoken g s t sz
  | .seek pos => some (seek g s pos)
  | .close => some ({ s with closed := true }, .done)
  | .warm => some ({ s with warmed := true }, .done)
  | .readahead havePiece =>
    match s.readahead with
    | .top => some (readaheadPick g s havePiece, .done)
    | _ => none
  | .readaheadWake =>
    match s.readahead with
    | .waiting => some ({ s with readahead := .top }, .done)
    | _ => none
  | .pread result =>
    match s.readahead, result with
    | .pread _ _ _ _, none => some ({ s with readahead := .top }, .done)
    | .pread oldRaPos realSz sz bufferOffset, some bytes =>
      if (bytes : Int) ≤ sz then
        some (readaheadRead g file s oldRaPos realSz sz bufferOffset bytes, .done)
      else none
    | _, _ => none
  | .push =>
    match s.readahead with
    | .push oldRaPos realSz bytesRead buffer _ =>
      some (readaheadPush g s oldRaPos realSz bytesRead buffer)
    | _ => none

end Code

end Mediabox.TorrentStream
