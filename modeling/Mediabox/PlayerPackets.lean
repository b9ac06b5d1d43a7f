import Mathlib.Logic.Function.Basic
import Mediabox.LinkedList
import Mediabox.Player

/-!
# The packets of the player (`src/lib/ui/player.c`)

An `avbox_av_packet` goes from the pool to the stream parser, through one of two queues to a decoder
or to `avbox_player_drop`, and back to the pool.  `Mediabox.Player` takes a message and a stretch of
the parser in one step and has no packets; here the threads are cut where they touch one.

* Threads: `avbox_player_stream_parse`, the decoders of both sides, and the control thread in
  `avbox_player_drop`, `avbox_player_flush` and the handling of `STREAM_EXIT`.
* What does not depend on packets comes with the event: when a message is handled, what libav
  answers, when a queue is full or closed, and whether a decoder was flushed.
* A wait on the checkpoint of the parser may end at once, as it does for a provider that blocks.  A
  decoder that leaves its checkpoint is seen as halted for a moment; `Mediabox.Checkpoint` has the
  rest.
* The decoder of `mmaldecode.c`, which is another build, is left out.
* A use of a packet is numbered when it is acquired.  The numbers are not in the source.
-/

set_option autoImplicit false

namespace Mediabox.PlayerPackets

open Transition
open Player (PlayState AVStream videoRuns)

/-! ## Data -/

abbrev Addr := Nat

inductive Side where
  | video
  | audio
  deriving DecidableEq, Repr

/-- Where `avbox_player_video_decode` or `avbox_player_audio_decode` stands. -/
inductive DecoderPc where
  /-- there is no worker -/
  | idle
  /-- before `avbox_checkpoint_enable` -/
  | starting
  /-- before `avbox_checkpoint_here` -/
  | loop
  /-- halted in it -/
  | checkpoint
  /-- it has read the count as 0, and `AVBOX_CHECKPOINT_HALTED` is still set -/
  | leaving
  /-- before `avbox_queue_peek` -/
  | peeking
  /-- with this `av_packet`, up to `avbox_queue_get` -/
  | decoding (packet : Option Addr)
  /-- the packet was dequeued -/
  | dequeued (packet : Addr)
  | returned
  deriving DecidableEq, Repr

/-- `video_packets_q` or `audio_packets_q`, the oldest packet last, the halts of the decoder's
    checkpoint, and the decoder.  The queue is `none` when it is `NULL`. -/
structure Pipe where
  queue : Option (List Addr)
  checkpoint : Nat
  decoder : DecoderPc
  deriving DecidableEq, Repr

/-- Where `avbox_player_stream_parse` stands. -/
inductive ParserPc where
  /-- `stream_input_worker == NULL` -/
  | idle
  /-- before its loop -/
  | opening
  /-- at `while (!inst->stream_quit)` -/
  | loop
  /-- in `avbox_checkpoint_here` -/
  | checkpoint
  /-- before `acquire_av_packet` -/
  | acquiring
  /-- before `av_read_frame` -/
  | reading (packet : Addr)
  /-- before `avbox_queue_put` -/
  | putting (side : Side) (packet : Addr)
  /-- before `release_av_packet`, and whether it goes to `decoder_exit` then -/
  | releasing (packet : Addr) (exit : Bool)
  /-- at `decoder_exit` -/
  | exiting
  | returned
  deriving DecidableEq, Repr

/-- Who has called `avbox_player_drop`. -/
inductive Caller where
  | seek
  | streamExit
  deriving DecidableEq, Repr

/-- Where the control thread stands. -/
inductive ControlPc where
  | idle
  /-- in the loop of `avbox_player_halt` over the checkpoint of a decoder -/
  | halting (caller : Caller) (side : Side)
  /-- in `avbox_player_drop`, at the test of the loop over a packets queue -/
  | dropping (caller : Caller) (side : Side)
  /-- it has dequeued a packet there -/
  | dequeued (caller : Caller) (side : Side) (packet : Addr)
  /-- at the test of the loop over `video_frames_q` -/
  | frames (caller : Caller)
  /-- it has let the decoder go on -/
  | yielding (caller : Caller) (side : Side)
  /-- it has halted the audio decoder again, and loops over its checkpoint -/
  | redoing (caller : Caller)
  /-- in `avbox_player_flush`, and whether for `STREAM_EXIT` -/
  | flushing (exit : Bool)
  /-- at the end of `STREAM_EXIT`, with the pipeline dropped or flushed -/
  | joining
  deriving DecidableEq, Repr

structure State where
  /-- `av_packet_pool` -/
  pool : List Addr
  /-- what was allocated for it -/
  allocated : List Addr
  /-- the number of the last use of a packet -/
  turn : Addr → Nat
  turns : Nat
  playState : PlayState
  stopping : Bool
  streamQuit : Bool
  flushing : Bool
  streams : List AVStream
  audioStreamId : Int
  audioStreamIndex : Int
  videoStreamIndex : Int
  /-- the halts of `stream_parser_checkpoint` -/
  checkpoint : Nat
  parser : ParserPc
  pipe : Side → Pipe
  control : ControlPc

def init : State where
  pool := []
  allocated := []
  turn := fun _ => 0
  turns := 0
  playState := .ready
  stopping := false
  streamQuit := false
  flushing := false
  streams := []
  audioStreamId := 0
  audioStreamIndex := -1
  videoStreamIndex := -1
  checkpoint := 0
  parser := .idle
  pipe := fun _ => ⟨none, 0, .idle⟩
  control := .idle

/-- What `av_read_frame` gives. -/
inductive Read where
  /-- a packet of this stream -/
  | packet (stream : Nat)
  | eof
  | error
  deriving DecidableEq, Repr

/-- What `avbox_queue_put` gives. -/
inductive Put where
  | ok
  | eagain
  /-- `ESHUTDOWN`, or another error -/
  | refused
  deriving DecidableEq, Repr

inductive ParserEvent where
  /-- a call before `avbox_queue_new` fails -/
  | openFails
  /-- what `av_find_best_stream` returns, and whether the queues could be created -/
  | opens (streams : List AVStream) (audio video : Int)
      (audioPacketsQ videoPacketsQ videoFramesQ : Bool)
  /-- the test of the loop, or the end of the wait at the checkpoint -/
  | next
  /-- `malloc` gives this structure, where the pool is empty -/
  | acquire (malloc : Option Addr)
  | read (result : Read)
  | put (result : Put)
  | release
  | exit
  deriving DecidableEq, Repr

/-- What a decoder does with the answer of `avbox_queue_peek`. -/
inductive Peek where
  /-- there is no packet: `continue` -/
  | again
  /-- it goes on with `av_packet` -/
  | packet
  /-- it goes on without one: it flushes the codec, or the codec takes no packet now -/
  | noPacket
  /-- it goes to the end -/
  | fails
  deriving DecidableEq, Repr

inductive DecoderEvent where
  /-- `avbox_checkpoint_enable` -/
  | ready
  /-- a test of the count -/
  | next
  | peek (result : Peek)
  /-- an error in the loop over the frames, or before the first turn -/
  | fails
  /-- `avbox_queue_get`, if there is a packet -/
  | get
  | release
  deriving DecidableEq, Repr

inductive ControlEvent where
  /-- a session starts -/
  | play
  /-- the next of `STREAM_READY`, .., `VIDEOOUT_READY`; whether `avbox_thread_delegate` gives a
      delegate -/
  | stage (worker : Bool)
  /-- `stopping` is set -/
  | stop
  /-- `stream_quit` is set -/
  | quit
  /-- `CHANGE_AUDIO_TRACK` -/
  | track (index id : Int)
  /-- `avbox_player_flush` is called for `FLUSH` or `STILL_FRAME` -/
  | flush
  /-- a seek comes to `avbox_player_drop` -/
  | seek
  | streamExit
  /-- `avbox_checkpoint_wait` on a decoder's checkpoint returns 1 -/
  | halted
  /-- a packet is dequeued -/
  | take
  | release
  /-- a loop ends -/
  | next
  /-- `avbox_checkpoint_continue` on a decoder's checkpoint -/
  | letGo
  /-- `avbox_checkpoint_halt` after it -/
  | haltAgain
  /-- `avbox_player_flush` returns 1 -/
  | flushed
  /-- `avbox_player_flush` returns 0, and `STREAM_EXIT` comes later again -/
  | delay
  | join
  deriving DecidableEq, Repr

inductive Event where
  | parser (e : ParserEvent)
  | decoder (side : Side) (e : DecoderEvent)
  | control (e : ControlEvent)
  deriving DecidableEq, Repr

/-- What a step shows; a use is given by its number. -/
inductive Outcome where
  | done
  | acquired (turn : Nat)
  | released (turn : Nat)
  /-- `av_read_frame` failed with this packet -/
  | lost (turn : Nat)
  deriving DecidableEq, Repr

/-! ## The pool and the pipes -/

/-- `acquire_av_packet`, for which running out of memory is an `ABORT`. -/
def acquireAvPacket (s : State) (malloc : Option Addr) : Option (State × Addr) :=
  let use (s : State) (packet : Addr) : State :=
    { s with turn := Function.update s.turn packet s.turns, turns := s.turns + 1 }
  match listTail s.pool, malloc with
  | some packet, _ => some (use { s with pool := listRemove s.pool packet } packet, packet)
  | none, some packet =>
    if packet ∈ s.allocated then none
    else some (use { s with allocated := packet :: s.allocated } packet, packet)
  | none, none => none

/-- `release_av_packet`. -/
def releaseAvPacket (s : State) (packet : Addr) : State :=
  { s with pool := listAdd s.pool packet }

def State.setPipe (s : State) (side : Side) (p : Pipe) : State :=
  { s with pipe := Function.update s.pipe side p }

def State.setQueue (s : State) (side : Side) (queue : Option (List Addr)) : State :=
  s.setPipe side { s.pipe side with queue := queue }

def State.setDecoder (s : State) (side : Side) (decoder : DecoderPc) : State :=
  s.setPipe side { s.pipe side with decoder := decoder }

@[simp] theorem setPipe_self (s : State) (side : Side) (p : Pipe) :
    (s.setPipe side p).pipe side = p := Function.update_self _ _ _

theorem setPipe_of_ne (s : State) {side i : Side} (p : Pipe) (h : i ≠ side) :
    (s.setPipe side p).pipe i = s.pipe i := Function.update_of_ne h _ _

@[simp] theorem setQueue_self (s : State) (side : Side) (queue : Option (List Addr)) :
    (s.setQueue side queue).pipe side = { s.pipe side with queue := queue } := setPipe_self _ _ _

@[simp] theorem setDecoder_self (s : State) (side : Side) (decoder : DecoderPc) :
    (s.setDecoder side decoder).pipe side = { s.pipe side with decoder := decoder } :=
  setPipe_self _ _ _

/-- The decoder of this side takes part in a halt. -/
def State.runs (s : State) : Side → Prop
  | .audio => .audioDec ≤ s.playState
  | .video => videoRuns s.playState s.videoStreamIndex

instance (s : State) : ∀ side, Decidable (s.runs side)
  | .audio => inferInstanceAs (Decidable (_ ≤ s.playState))
  | .video => inferInstanceAs (Decidable (videoRuns _ _))

/-! ## The stream parser -/

/-- `goto decoder_exit`. -/
def decoderExit (s : State) : State := { s with parser := .exiting }

/-- The file is open, and the parser halts itself. -/
def streamOpened (s : State) : State :=
  if s.audioStreamIndex = -1 ∧ s.videoStreamIndex = -1 then decoderExit s
  else { s with checkpoint := s.checkpoint + 1, parser := .loop }

/-- The queues for a video stream are created. -/
def opensVideo (s : State) (videoPacketsQ videoFramesQ : Bool) : State :=
  if s.videoStreamIndex < 0 then streamOpened s
  else if !videoPacketsQ then decoderExit s
  else if !videoFramesQ then decoderExit (s.setQueue .video (some []))
  else streamOpened (s.setQueue .video (some []))

/-- `avbox_player_stream_parse` from `avbox_queue_new` to its loop. -/
def opens (s : State) (streams : List AVStream) (audio video : Int)
    (audioPacketsQ videoPacketsQ videoFramesQ : Bool) : State :=
  if !audioPacketsQ then decoderExit { s with streams := streams }
  else
    opensVideo
      { s.setQueue .audio (some []) with
        streams := streams
        audioStreamIndex := if 0 ≤ audio then audio else -1
        videoStreamIndex := video }
      videoPacketsQ videoFramesQ

/-- The audio stream that was asked for by its id has come. -/
def selectAudio (s : State) (stream : Nat) (st : AVStream) : State :=
  if s.audioStreamIndex = -2 then
    if s.audioStreamId ≠ -1 then
      if st.id = s.audioStreamId then { s with audioStreamIndex := stream } else s
    else { s with audioStreamIndex := -1 }
  else s

/-- Where a packet of this stream goes. -/
def route (s : State) (packet : Addr) (stream : Nat) (st : AVStream) : State :=
  if stream = s.videoStreamIndex then { s with parser := .putting .video packet }
  else if st.audio then
    let s := selectAudio s stream st
    if stream = s.audioStreamIndex then { s with parser := .putting .audio packet }
    else { s with parser := .releasing packet false }
  else { s with parser := .releasing packet false }

/-- One step of `avbox_player_stream_parse`. -/
def stepParser (s : State) (e : ParserEvent) : Option (State × Outcome) :=
  match s.parser, e with
  | .opening, .openFails => some ({ s with parser := .exiting }, .done)
  | .opening, .opens streams audio video audioPacketsQ videoPacketsQ videoFramesQ =>
    some (opens s streams audio video audioPacketsQ videoPacketsQ videoFramesQ, .done)
  | .loop, .next =>
    if s.streamQuit then some ({ s with parser := .exiting }, .done)
    else some ({ s with parser := if s.checkpoint = 0 then .acquiring else .checkpoint }, .done)
  | .checkpoint, .next =>
    if s.checkpoint = 0 then some ({ s with parser := .acquiring }, .done) else none
  | .acquiring, .acquire malloc =>
    (acquireAvPacket s malloc).map fun r =>
      ({ r.1 with parser := .reading r.2 }, .acquired (r.1.turn r.2))
  | .reading packet, .read (.packet stream) =>
    s.streams[stream]?.map fun st => (route s packet stream st, .done)
  | .reading packet, .read _ => some ({ s with parser := .exiting }, .lost (s.turn packet))
  | .putting side packet, .put .ok =>
    (s.pipe side).queue.map fun l =>
      ({ s.setQueue side (some (listAdd l packet)) with parser := .loop }, .done)
  | .putting _ _, .put .eagain => some (s, .done)
  | .putting _ packet, .put .refused => some ({ s with parser := .releasing packet true }, .done)
  | .releasing packet exit, .release =>
    some ({ releaseAvPacket s packet with parser := if exit then .exiting else .loop },
      .released (s.turn packet))
  | .exiting, .exit =>
    -- `avbox_queue_close` on the video queue, and the end
    if s.videoStreamIndex ≠ -1 ∧ (s.pipe .video).queue = none then none
    else some ({ s with parser := .returned, streamQuit := true }, .done)
  | _, _ => none

/-! ## The decoders -/

/-- One step of a decoder, as far as its packets go. -/
def stepDecoder (s : State) (side : Side) (e : DecoderEvent) : Option (State × Outcome) :=
  let p := s.pipe side
  let goto (decoder : DecoderPc) : Option (State × Outcome) :=
    some (s.setDecoder side decoder, .done)
  match p.decoder, e with
  | .starting, .ready => goto .loop
  | .starting, .fails => goto .returned
  | .loop, .next => if p.checkpoint = 0 then goto .peeking else goto .checkpoint
  | .checkpoint, .next => if p.checkpoint = 0 then goto .leaving else none
  | .leaving, .next => goto .peeking
  | .peeking, .peek result =>
    p.queue.bind fun l =>
      match listTail l, result with
      | none, .again => goto .loop
      | some packet, .packet => goto (.decoding (some packet))
      | _, .noPacket => goto (.decoding none)
      | _, .fails => goto .returned
      | _, _ => none
  | .decoding _, .fails => goto .returned
  | .decoding none, .get => goto .loop
  | .decoding (some packet), .get =>
    p.queue.bind fun l =>
      match listTail l with
      | none => goto .returned
      | some q =>
        some (s.setPipe side { p with
          queue := some l.dropLast
          decoder := if q = packet then .dequeued packet else .returned }, .done)
  | .dequeued packet, .release =>
    some ((releaseAvPacket s packet).setDecoder side .loop, .released (s.turn packet))
  | _, _ => none

/-! ## The control thread -/

def haltDecoder (s : State) (side : Side) : State :=
  s.setPipe side { s.pipe side with checkpoint := (s.pipe side).checkpoint + 1 }

/-- `avbox_checkpoint_continue`, with its `ASSERT`. -/
def continueDecoder (s : State) (side : Side) : Option State :=
  if (s.pipe side).checkpoint = 0 then none
  else some (s.setPipe side { s.pipe side with checkpoint := (s.pipe side).checkpoint - 1 })

def continueParser (s : State) : Option State :=
  if s.checkpoint = 0 then none else some { s with checkpoint := s.checkpoint - 1 }

/-- `avbox_checkpoint_wait` returns 1: the checkpoint is not enabled, or the decoder is halted. -/
def DecoderPc.halted : DecoderPc → Bool
  | .idle | .starting | .returned | .checkpoint | .leaving => true
  | .loop | .peeking | .decoding _ | .dequeued _ => false

/-- The first loop of `avbox_player_drop`. -/
def dropQueues (s : State) (caller : Caller) : State :=
  { s with control := .dropping caller (if s.videoStreamIndex ≠ -1 then .video else .audio) }

/-- The last part of `avbox_player_halt`. -/
def haltAudio (s : State) (caller : Caller) : State :=
  if s.runs .audio then { haltDecoder s .audio with control := .halting caller .audio }
  else dropQueues s caller

/-- `avbox_player_drop` up to the first wait for a decoder. -/
def drop (s : State) (caller : Caller) : State :=
  let s := { s with flushing := true, checkpoint := s.checkpoint + 1 }
  if s.runs .video then { haltDecoder s .video with control := .halting caller .video }
  else haltAudio s caller

/-- `avbox_player_continue`. -/
def continueAll (s : State) : Option State :=
  (continueParser s).bind fun s =>
    (if s.runs .audio then continueDecoder s .audio else some s).bind fun s =>
      if s.runs .video then continueDecoder s .video else some s

/-- The end of `avbox_player_drop`, and what its caller does with the checkpoint. -/
def endDrop (s : State) (caller : Caller) : Option State :=
  (continueAll { s with flushing := false }).bind fun s =>
    match caller with
    | .seek => (continueParser s).map fun s => { s with control := .idle }
    | .streamExit => some { s with control := .joining }

/-- The beginning of `avbox_player_flush` while playing. -/
def beginFlush (s : State) (exit : Bool) : State :=
  { s with
    checkpoint := if s.flushing then s.checkpoint else s.checkpoint + 1
    flushing := true
    control := .flushing exit }

/-- `STREAM_READY` and the messages after it, up to `VIDEOOUT_READY`. -/
def stage (s : State) (worker : Bool) : Option State :=
  match s.playState with
  | .ready => none
  | .stream =>
    if s.parser = .idle ∨ s.parser = .opening then none
    else
      let s := { s with playState := .audioDec }
      if s.audioStreamIndex = -1 then some s
      else if worker then some (s.setDecoder .audio .starting)
      else none
  | .audioDec =>
    let s := { s with playState := .videoDec }
    some (if s.videoStreamIndex ≠ -1 ∧ worker then s.setDecoder .video .starting else s)
  | .videoDec => some { s with playState := .audioOut }
  | .audioOut => some { s with playState := .videoOut }
  | .videoOut => continueParser { s with playState := .playing }
  | .playing => none

/-- `STREAM_EXIT`, up to the first wait. -/
def streamExit (s : State) : Option State :=
  if s.parser = .returned ∧ s.playState ≠ .ready then
    if s.stopping then some (drop s .streamExit)
    else if s.playState = .playing then some (beginFlush s true)
    else if s.playState = .stream then some { s with control := .joining }
    else none
  else none

/-- The packets queues are empty, when `avbox_player_flush` returns 1 for both sides. -/
def State.flushed (s : State) : Prop :=
  (s.pipe .audio).queue.getD [] = [] ∧
    (s.videoStreamIndex ≠ -1 → (s.pipe .video).queue = some [])

instance (s : State) : Decidable s.flushed := inferInstanceAs (Decidable (_ ∧ (_ → _)))

/-- The workers that are joined have returned. -/
def State.joins (s : State) : Prop :=
  s.parser = .returned ∧ (s.runs .video → (s.pipe .video).decoder = .returned) ∧
    (s.runs .audio → (s.pipe .audio).decoder = .idle ∨ (s.pipe .audio).decoder = .returned)

instance (s : State) : Decidable s.joins := inferInstanceAs (Decidable (_ ∧ (_ → _) ∧ (_ → _)))

/-- The end of `STREAM_EXIT`. -/
def join (s : State) : State :=
  let joined (side : Side) : DecoderPc := if s.runs side then .idle else (s.pipe side).decoder
  { s with
    pipe
      | .video =>
        if s.videoStreamIndex ≠ -1 then ⟨none, (s.pipe .video).checkpoint, joined .video⟩
        else s.pipe .video
      | .audio => ⟨none, (s.pipe .audio).checkpoint, joined .audio⟩
    parser := .idle
    audioStreamIndex := -1
    videoStreamIndex := -1
    playState := .ready
    control := .idle }

/-- One step of `avbox_player_control`. -/
def stepControl (s : State) (e : ControlEvent) : Option (State × Outcome) :=
  let done (s : State) : State × Outcome := (s, .done)
  match s.control, e with
  | .idle, .play =>
    if s.playState = .ready then
      some (done { s with playState := .stream, parser := .opening, streamQuit := false })
    else none
  | .idle, .stage worker => (stage s worker).map done
  | .idle, .stop => some (done { s with stopping := true })
  | .idle, .quit => some (done { s with streamQuit := true })
  | .idle, .track index id => some (done { s with audioStreamIndex := index, audioStreamId := id })
  | .idle, .flush => if s.playState = .playing then some (done (beginFlush s false)) else none
  | .idle, .seek =>
    if s.playState = .ready then none
    else some (done (drop { s with checkpoint := s.checkpoint + 1 } .seek))
  | .idle, .streamExit => (streamExit s).map done
  | .halting caller .video, .halted =>
    if (s.pipe .video).decoder.halted then some (done (haltAudio s caller)) else none
  | .halting caller .audio, .halted =>
    if (s.pipe .audio).decoder.halted then some (done (dropQueues s caller)) else none
  | .dropping caller side, .take =>
    (s.pipe side).queue.bind fun l =>
      (listTail l).map fun packet =>
        done { s.setQueue side (some l.dropLast) with control := .dequeued caller side packet }
  | .dequeued caller side packet, .release =>
    some ({ releaseAvPacket s packet with control := .dropping caller side },
      .released (s.turn packet))
  | .dropping caller .video, .next =>
    if (s.pipe .video).queue = some [] then some (done { s with control := .frames caller })
    else none
  | .frames caller, .letGo =>
    (continueDecoder s .video).map fun s => done { s with control := .yielding caller .video }
  | .yielding caller .video, .haltAgain =>
    some (done { haltDecoder s .video with control := .frames caller })
  | .frames caller, .next => some (done { s with control := .dropping caller .audio })
  | .dropping caller .audio, .letGo =>
    if (s.pipe .audio).queue = some [] then
      (continueDecoder s .audio).map fun s => done { s with control := .yielding caller .audio }
    else none
  | .yielding caller .audio, .haltAgain =>
    some (done { haltDecoder s .audio with control := .redoing caller })
  | .redoing caller, .halted =>
    if (s.pipe .audio).decoder.halted then some (done { s with control := .dropping caller .audio })
    else none
  | .dropping caller .audio, .next =>
    if (s.pipe .audio).queue.getD [] = [] then (endDrop s caller).map done else none
  | .flushing exit, .flushed =>
    if exit → s.flushed then
      (continueParser { s with flushing := false }).map fun s =>
        done { s with control := if exit then .joining else .idle }
    else none
  | .flushing true, .delay => some (done { s with control := .idle })
  | .joining, .join => if s.joins then some (done (join s)) else none
  | _, _ => none

/-- One step. -/
def step (s : State) : Event → Option (State × Outcome)
  | .parser e => stepParser s e
  | .decoder side e => stepDecoder s side e
  | .control e => stepControl s e

end Mediabox.PlayerPackets
