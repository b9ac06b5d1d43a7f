import Mediabox.AudioPackets

/-!
# The frames that the audio decoder writes (`src/lib/ui/player.c`, `src/lib/audio.c`)

`avbox_player_audio_decode` hands each filtered frame to `avbox_audiostream_write` as the
`callback_handle` of a packet.  The frame goes back to the player's pool through
`AVBOX_AUDIOSTREAM_PACKET_RELEASED`, or by the decoder itself when the call failed.

* The stream is the one of `Mediabox.Audio`, with the `callback_handle` of each packet.
* A frame is named by the turn in which it was acquired; the pool hands out the same memory again.
* The player's decoder is the only thread that writes data.  Its calls of
  `avbox_audiostream_setclock`, the output thread and the drops are the steps of the stream.
* `own` is what the call under way has done to `queued_frames` so far.  It is not in the source.
-/

set_option autoImplicit false

namespace Mediabox.AudioDecode

open Audio (Addr State)

/-- Why `avbox_queue_put` failed. -/
inductive Errno where
  | eagain
  | enomem
  | eshutdown
deriving DecidableEq, Repr

/-- A frame that was pulled from the filter graph: `data[0]` and `nb_samples`. -/
structure Frame where
  turn : Nat
  data : Int
  nbSamples : Nat
deriving DecidableEq, Repr

/-- Where the decoder is in the loop that pulls and writes frames. -/
inductive Decoder where
  | idle
  /-- before a call of `avbox_audiostream_write` -/
  | holding (frame : Frame)
  /-- inside the call, before `avbox_queue_put` -/
  | putting (packet : Addr) (frame : Frame) (own : Int)
deriving DecidableEq, Repr

structure Player where
  stream : State
  /-- `packet->data_packet.callback_handle` -/
  handle : Addr → Option Nat
  decoder : Decoder
  turns : Nat

def init (maxFrames : Int) (period : Nat) : Player :=
  ⟨Audio.init maxFrames period, fun _ => none, .idle, 0⟩

inductive Event where
  /-- `av_buffersink_get_frame` filled a frame -/
  | pull (data : Int) (nbSamples : Nat)
  /-- the section of `avbox_audiostream_write` under `queue_lock` -/
  | write (malloc : Option Addr)
  | put (result : Except Errno Unit)
  | stream (e : Audio.Event)
deriving DecidableEq, Repr

/-- What a step shows of a frame. -/
inductive Note where
  /-- `AVBOX_AUDIOSTREAM_PACKET_RELEASED` -/
  | callback (turn : Nat)
  /-- `release_av_frame` in the decoder -/
  | freed (turn : Nat)
  /-- the call returned 0 because there was nothing to write -/
  | empty (turn : Nat)
  /-- `avbox_queue_put` failed -/
  | refused (turn : Nat)
  /-- the call returned -1 -/
  | failed (turn : Nat) (own : Int)
deriving DecidableEq, Repr

/-- The handle that `release_packet` gives to the callback. -/
def Player.carries (m : Player) (p : Addr) : Option Nat :=
  if (m.stream.mem p).type = .dataPacket then m.handle p else none

/-- `release_packet` up to the pool: the callback, and the handle it clears. -/
def releasePacket (m : Player) (p : Addr) : Player × List Note :=
  match m.carries p with
  | some turn => ({ m with handle := Function.update m.handle p none }, [.callback turn])
  | none => (m, [])

/-- The packet that a step of the stream passes to `release_packet`. -/
def releases (s : State) : Audio.Event → Option Addr
  | .writer (.put p accepted) => if accepted then none else some p
  | .output .release => match s.output with | .taken p => some p | _ => none
  | .drop .release => match s.drop with | .releasing p => some p | _ => none
  | _ => none

/-- The steps of the stream that are not the decoder's own. -/
def foreign (s : State) : Audio.Event → Bool
  | .writer (.write _ _ _) => false
  | .writer (.put p _) => p ∉ s.writing
  | _ => true

/-- A step of the stream, with the callback of the packet it releases. -/
def stream (m : Player) (e : Audio.Event) : Option (Player × List Note) :=
  match Audio.step m.stream e with
  | none => none
  | some (s, _) =>
    let (m', notes) := match releases m.stream e with
      | some p => releasePacket m p
      | none => (m, [])
    some ({ m' with stream := s }, notes)

/-- The section of `avbox_audiostream_write` under `queue_lock`, and the error path of the decoder
    when the call ends there. -/
def write (m : Player) (frame : Frame) (malloc : Option Addr) : Option (Player × List Note) :=
  match Audio.stepWriter m.stream (.write frame.data (UInt64.ofNat frame.nbSamples) malloc) with
  | none => none
  | some (s, o) =>
    let own := s.queuedFrames - m.stream.queuedFrames
    match o with
    | .returned _ => some ({ m with stream := s, decoder := .idle }, [.empty frame.turn])
    | .eagain => some ({ m with stream := s }, [.failed frame.turn own])
    | .enomem =>
      some ({ m with stream := s, decoder := .idle }, [.failed frame.turn own, .freed frame.turn])
    | _ =>
      match s.writing with
      | [] => none
      | p :: _ =>
        some ({ m with
          stream := s
          handle := Function.update m.handle p (some frame.turn)
          decoder := .putting p frame own }, [])

/-- `avbox_queue_put` at the end of the call.  When it fails the packet is released and the call
    returns -1: the decoder calls again after `EAGAIN`, and releases the frame after anything
    else. -/
def put (m : Player) (p : Addr) (frame : Frame) (own : Int) :
    Except Errno Unit → Option (Player × List Note)
  | .ok () =>
    (stream m (.writer (.put p true))).map fun r => ({ r.1 with decoder := .idle }, r.2)
  | .error errno =>
    (stream m (.writer (.put p false))).map fun r =>
      let own := own + (r.1.stream.queuedFrames - m.stream.queuedFrames)
      let notes := .refused frame.turn :: r.2 ++ [Note.failed frame.turn own]
      if errno = .eagain then ({ r.1 with decoder := .holding frame }, notes)
      else ({ r.1 with decoder := .idle }, notes ++ [Note.freed frame.turn])

/-- One step.  `nb_samples` is a non-negative `int`. -/
def step (m : Player) : Event → Option (Player × List Note)
  | .pull data nbSamples =>
    if m.decoder = .idle ∧ nbSamples < 2 ^ 31 then
      some ({ m with decoder := .holding ⟨m.turns, data, nbSamples⟩, turns := m.turns + 1 }, [])
    else none
  | .write malloc =>
    match m.decoder with
    | .holding frame => write m frame malloc
    | _ => none
  | .put result =>
    match m.decoder with
    | .putting p frame own => put m p frame own result
    | _ => none
  | .stream e => if foreign m.stream e then stream m e else none

end Mediabox.AudioDecode
