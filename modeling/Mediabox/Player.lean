import Mathlib.Data.List.Basic
import Mediabox.LinkedList
import Mediabox.Lib.Outcome
import Mediabox.Lib.Transition

/-!
# The player's control thread (`src/lib/ui/player.c`)

`avbox_player_control` handles the messages of one mailbox, in order, one at a time; the stream
parser and the other workers post to it, and so do the application and the timers.

* A step is the handling of one message from its first to its last line, one stretch of the stream
  parser between two tests of its loop, or one report of another worker.
* A loop in a handler that waits for a worker (`avbox_checkpoint_wait`, `avbox_delegate_wait`)
  is taken to end.  The loop of `avbox_player_doresume` ends when a look of it finds a video frame, or
  an audio decoder that is blocked; where none ever does the step ends in `hang` (`resumeWaits`).
* Of a checkpoint only `count` is here; `Mediabox.Checkpoint` has the rest of it.
* What the player does not decide comes with the event: how full the buffers are, whether a timer
  could be registered, what a stream provider answers, where a chapter seek leads.
* A failed `ASSERT`, an `abort`, a `NULL` that is followed and a loop that does not end are faults:
  the step ends in `fault` and leaves the state as it was.
-/

set_option autoImplicit false

namespace Mediabox.Player

open Transition Outcome

/-! ## Data -/

/-- `enum avbox_player_status`. -/
inductive Status where
  | ready
  | buffering
  | playing
  | paused
  deriving DecidableEq, Repr

/-- `AVBOX_PLAYER_PLAYSTATE_*`. -/
inductive PlayState where
  | ready
  | stream
  | audioDec
  | videoDec
  | audioOut
  | videoOut
  | playing
  deriving DecidableEq, Repr

/-- The number of a play state. -/
def PlayState.toNat : PlayState → Nat
  | .ready => 0
  | .stream => 1
  | .audioDec => 2
  | .videoDec => 3
  | .audioOut => 4
  | .videoOut => 5
  | .playing => 6

instance : LE PlayState := ⟨fun p q => p.toNat ≤ q.toNat⟩

instance (p q : PlayState) : Decidable (p ≤ q) := inferInstanceAs (Decidable (p.toNat ≤ q.toNat))

abbrev Path := List Char

/-- `AVBOX_PLAYER_FLUSH_*`. -/
def flushAudio : Nat := 0x1
def flushSubpx : Nat := 0x2
def flushVideo : Nat := 0x4
def flushAll : Nat := flushVideo ||| flushAudio ||| flushSubpx

/-- `AVBOX_PLAYER_SEEK_*`. -/
def seekAbsolute : Nat := 0x1
def seekChapter : Nat := 0x2
def seekRelative : Nat := 0x4

/-- The optional members of `struct avbox_player_stream`. -/
structure Provider where
  hasSeek : Bool
  hasBufferState : Bool
  deriving DecidableEq, Repr

/-- An `AVStream`: whether `codec_type` is `AVMEDIA_TYPE_AUDIO`, and its `id`. -/
structure AVStream where
  audio : Bool
  id : Int
  deriving DecidableEq, Repr

/-- The function `getmastertime` points to. -/
inductive MasterTime where
  | systemTime
  | audioTime
  deriving DecidableEq, Repr

/-- Where the thread that runs `avbox_player_stream_parse` stands. -/
inductive ParserPc where
  /-- `stream_input_worker == NULL` -/
  | idle
  /-- delegated, not started yet -/
  | delegated
  /-- opening the file -/
  | opening
  /-- at `while (!inst->stream_quit)` -/
  | loop
  /-- in `avbox_checkpoint_here` -/
  | checkpoint
  /-- past the checkpoint, in `av_read_frame` -/
  | reading
  /-- at `decoder_exit`, after the checkpoint was disabled -/
  | exiting
  /-- returned; the delegate was not joined yet -/
  | returned
  deriving DecidableEq, Repr

/-- A decoder or the video output. -/
inductive WorkerPc where
  | idle
  | starting
  | running
  | returned
  deriving DecidableEq, Repr

/-- `AVBOX_PLAYERCTL_*`, and the timer message. -/
inductive Msg where
  | play (path : Option Path)
  | pause
  | stop
  | seek (flags : Nat) (incr : Int)
  | threadExit
  | streamReady
  | audioDecReady
  | videoDecReady
  | audioOutReady
  | videoOutReady
  | streamExit
  | bufferUnderrun
  | audioStreamUnderrun
  /-- without argument, or with the stream id it points to -/
  | changeAudioTrack (streamId : Option Int)
  | flush
  | stillFrame (length : Nat)
  /-- `SET_TITLE`, `SET_DURATION`, `SET_POSITION`, `BUFFER_UPDATE` and `UPDATE`, which only change
      what is displayed -/
  | info
  | timer (id : Nat)
  deriving DecidableEq, Repr

/-- Messages with a step of their own: the ones that start a file, and those the workers and the
    control thread itself send at fixed places. -/
def Msg.internal : Msg → Bool
  | .play _ | .streamReady | .audioDecReady | .videoDecReady | .audioOutReady | .videoOutReady
  | .streamExit => true
  | _ => false

/-- `struct avbox_player`, as far as the control thread uses it, the workers, and the mailbox of the
    control thread.  An id or a pointer that may be -1 or `NULL` is an option. -/
structure State where
  status : Status
  playState : PlayState
  underrunTimerId : Option Nat
  streamExitTimerId : Option Nat
  stillFrameTimerId : Option Nat
  stillFrame : Bool
  audioStreamId : Int
  audioStreamIndex : Int
  videoStreamIndex : Int
  streamQuit : Bool
  streamExiting : Bool
  videoDecoderFlushed : Bool
  audioDecoderFlushed : Bool
  flushing : Nat
  underrun : Bool
  stopping : Bool
  paused : Nat
  nextFile : Option Path
  getmastertime : MasterTime
  fmtCtx : Option (List AVStream)
  stream : Option Provider
  /-- the nodes of `playlist` from its head on -/
  playlist : List Path
  /-- position in `playlist`; its length stands for the list head -/
  playlistItem : Option Nat
  /-- `avbox_stopwatch_running(video_time)` -/
  videoTimeRunning : Bool
  /-- `avbox_audiostream_ispaused(audio_stream)` -/
  audioPaused : Bool
  streamParserCheckpoint : Nat
  audioDecoderCheckpoint : Nat
  videoDecoderCheckpoint : Nat
  videoOutputCheckpoint : Nat
  streamInputWorker : ParserPc
  audioDecoderWorker : WorkerPc
  videoDecoderWorker : WorkerPc
  videoOutputWorker : WorkerPc
  mailbox : List Msg

/-- `avbox_player_new`. -/
def new : State where
  status := .ready
  playState := .ready
  underrunTimerId := none
  streamExitTimerId := none
  stillFrameTimerId := none
  stillFrame := false
  audioStreamId := 0
  audioStreamIndex := -1
  videoStreamIndex := -1
  streamQuit := false
  streamExiting := false
  videoDecoderFlushed := false
  audioDecoderFlushed := false
  flushing := 0
  underrun := false
  stopping := false
  paused := 0
  nextFile := none
  getmastertime := .systemTime
  fmtCtx := none
  stream := none
  playlist := []
  playlistItem := none
  videoTimeRunning := false
  audioPaused := false
  streamParserCheckpoint := 0
  audioDecoderCheckpoint := 0
  videoDecoderCheckpoint := 0
  videoOutputCheckpoint := 0
  streamInputWorker := .idle
  audioDecoderWorker := .idle
  videoDecoderWorker := .idle
  videoOutputWorker := .idle
  mailbox := []

/-- How full the pipeline is when a handler looks. -/
structure Buffers where
  /-- `avbox_queue_count(video_packets_q)` -/
  videoPackets : Nat
  /-- `avbox_queue_count(video_frames_q)` -/
  videoFrames : Nat
  /-- `avbox_queue_count(audio_packets_q)` -/
  audioPackets : Nat
  /-- `avbox_audiostream_count` -/
  audioCount : Nat
  /-- `avbox_audiostream_size` -/
  audioSize : Nat
  /-- what the provider's `buffer_state` says -/
  count : Int
  capacity : Int
  /-- `AVBOX_BUFFER_VIDEO` -/
  bufferVideo : Nat
  /-- `AVBOX_BUFFER_AUDIO` -/
  bufferAudio : Nat
  deriving DecidableEq, Repr

/-- Where a chapter seek leads. -/
inductive SeekTarget where
  | refused
  | nextItem
  | prevItem
  | pos (seekTo : Int)
  deriving DecidableEq, Repr

/-- What the handling of one message finds outside of the player. -/
structure Env where
  buffers : Buffers
  /-- `avbox_timer_register`; `none` is -1 -/
  timer : Option Nat
  /-- `avbox_application_delegate` gives a delegate -/
  applicationDelegate : Bool
  /-- `avbox_thread_delegate` gives a delegate -/
  threadDelegate : Bool
  /-- what `avbox_dvdio_open` or `avbox_torrentin_open` fills in -/
  provider : Option Provider
  canPause : Bool
  underrunExpected : Bool
  masterTime : Int
  chapter : SeekTarget
  /-- `av_seek_frame` does not fail -/
  seeks : Bool
  /-- times a loop over the video pipeline lets its worker go on -/
  videoRounds : Nat
  /-- times a loop over the audio pipeline lets its worker go on -/
  audioRounds : Nat
  /-- a look of the loop in `avbox_player_doresume` finds a frame in `video_frames_q` -/
  videoFrame : Bool
  /-- a look of that loop finds `avbox_audiostream_blocking` -/
  audioBlocking : Bool
  deriving DecidableEq, Repr

/-- The same with an empty pipeline. -/
def Env.drained (env : Env) : Env :=
  { env with
    buffers :=
      { env.buffers with videoPackets := 0, videoFrames := 0, audioPackets := 0, audioCount := 0 }
    videoFrame := false }

inductive Fault where
  /-- an `ASSERT` -/
  | assert
  /-- the `ASSERT` of `avbox_checkpoint_continue` -/
  | checkpoint
  | abort
  /-- a `NULL` that is followed -/
  | null
  /-- a loop that does not end -/
  | hang
  deriving DecidableEq, Repr

/-- `ASSERT`. -/
def assert (c : Prop) [Decidable c] : Except Fault Unit :=
  if c then .ok () else .error .assert

/-- `avbox_player_sendctl`. -/
def sendctl (s : State) (m : Msg) : State := { s with mailbox := s.mailbox ++ [m] }

/-- There is video and no audio: the case in which a pause halts the video output. -/
def videoOnly (videoStreamIndex audioStreamIndex : Int) : Prop :=
  videoStreamIndex ≠ -1 ∧ audioStreamIndex = -1

instance (video audio : Int) : Decidable (videoOnly video audio) :=
  inferInstanceAs (Decidable (_ ∧ _))

/-! ## Checkpoints -/

/-- `avbox_checkpoint_continue` on a halt count. -/
def checkpointContinue (count : Nat) : Except Fault Nat :=
  if count > 0 then .ok (count - 1) else .error .checkpoint

/-- A loop that lets a halted worker go on and halts it again. -/
def checkpointRounds : Nat → Nat → Except Fault Nat
  | 0, count => .ok count
  | n + 1, count => do
    let count ← checkpointContinue count
    checkpointRounds n (count + 1)

/-- The video pipeline takes part in a halt. -/
def videoRuns (playState : PlayState) (videoStreamIndex : Int) : Prop :=
  .videoDec ≤ playState ∧ videoStreamIndex ≠ -1

instance (p : PlayState) (video : Int) : Decidable (videoRuns p video) :=
  inferInstanceAs (Decidable (_ ∧ _))

/-- `avbox_player_halt`. -/
def halt (s : State) : Except Fault State := do
  assert (s.status ≠ .paused)
  .ok { s with
    streamParserCheckpoint := s.streamParserCheckpoint + 1
    videoDecoderCheckpoint :=
      if videoRuns s.playState s.videoStreamIndex then s.videoDecoderCheckpoint + 1
      else s.videoDecoderCheckpoint
    videoOutputCheckpoint :=
      if videoRuns s.playState s.videoStreamIndex then s.videoOutputCheckpoint + 1
      else s.videoOutputCheckpoint
    audioDecoderCheckpoint :=
      if .audioDec ≤ s.playState then s.audioDecoderCheckpoint + 1 else s.audioDecoderCheckpoint
    audioPaused := if .audioDec ≤ s.playState then true else s.audioPaused }

def continueAudio (s : State) : Except Fault State :=
  if .audioDec ≤ s.playState then do
    let count ← checkpointContinue s.audioDecoderCheckpoint
    .ok { s with audioDecoderCheckpoint := count, audioPaused := false }
  else .ok s

def continueVideo (s : State) : Except Fault State :=
  if videoRuns s.playState s.videoStreamIndex then do
    let output ← checkpointContinue s.videoOutputCheckpoint
    let decoder ← checkpointContinue s.videoDecoderCheckpoint
    .ok { s with videoOutputCheckpoint := output, videoDecoderCheckpoint := decoder }
  else .ok s

/-- `avbox_player_continue`. -/
def continueAll (s : State) : Except Fault State := do
  let count ← checkpointContinue s.streamParserCheckpoint
  let s ← continueAudio { s with streamParserCheckpoint := count }
  continueVideo s

/-! ## Pausing and underruns -/

/-- `avbox_player_dopause`. -/
def dopause (s : State) : State :=
  if s.paused = 0 then
    { s with
      paused := 1
      videoOutputCheckpoint :=
        if videoOnly s.videoStreamIndex s.audioStreamIndex then s.videoOutputCheckpoint + 1
        else s.videoOutputCheckpoint
      videoTimeRunning := false
      audioPaused := true }
  else { s with paused := s.paused + 1 }

/-- The loop of `avbox_player_doresume` does not end: the audio waits for a video frame that does not
    come, and its decoder is not blocked. -/
def resumeWaits (s : State) (env : Env) : Prop :=
  s.audioPaused = true ∧ (s.audioStreamIndex ≠ -1 ∧ s.videoStreamIndex ≠ -1) ∧
    env.videoFrame = false ∧ env.audioBlocking = false ∧ s.stopping = false

instance (s : State) (env : Env) : Decidable (resumeWaits s env) :=
  inferInstanceAs (Decidable (_ ∧ _ ∧ _ ∧ _ ∧ _))

/-- `avbox_player_doresume`. -/
def doresume (s : State) (env : Env) : Except Fault State :=
  if s.paused = 0 then .ok s
  else if s.paused = 1 then do
    let count ←
      if videoOnly s.videoStreamIndex s.audioStreamIndex then
        checkpointContinue s.videoOutputCheckpoint
      else .ok s.videoOutputCheckpoint
    -- `avbox_stopwatch_start` wants a stopwatch that is not running
    assert (s.videoTimeRunning = false)
    if resumeWaits s env then .error .hang
    else .ok { s with
      paused := 0
      status := .playing
      videoOutputCheckpoint := count
      videoTimeRunning := true
      audioPaused := false }
  else .ok { s with paused := s.paused - 1 }

def resumeIfPaused (s : State) (env : Env) : Except Fault State :=
  if s.status = .paused then doresume s env else .ok s

/-- `avbox_player_dostop`; closing the stream of a provider changes nothing here. -/
def dostop (s : State) (env : Env) : Except Fault State :=
  if s.stream.isSome then .ok s else resumeIfPaused { s with streamQuit := true } env

/-- The part of `avbox_player_isunderrun` that asks the provider. -/
def providerUnderrun (s : State) (env : Env) : Bool :=
  match s.stream with
  | none => false
  | some p =>
    !env.underrunExpected && p.hasBufferState &&
      (if s.underrun then env.buffers.count < env.buffers.capacity else env.buffers.count = 0)

/-- The part of `avbox_player_isunderrun` that looks at the decoded frames. -/
def decodedUnderrun (s : State) (b : Buffers) : Bool :=
  if s.underrun then
    if s.audioStreamIndex ≠ -1 then
      b.audioSize < b.bufferAudio ||
        (s.videoStreamIndex ≠ -1 && b.videoFrames < b.bufferVideo / 2)
    else b.videoFrames < b.bufferVideo
  else
    s.videoStreamIndex ≠ -1 &&
      (if s.audioStreamIndex = -1 then b.videoFrames < 1 else b.audioCount < 1)

/-- `avbox_player_isunderrun`. -/
def isunderrun (s : State) (env : Env) : State × Bool :=
  if s.playState ≠ .playing then ({ s with underrun := true }, true)
  else
    (s, !s.streamQuit && !s.streamExiting &&
      (providerUnderrun s env || decodedUnderrun s env.buffers))

/-- `avbox_player_handle_underrun`. -/
def handleUnderrun (s : State) (env : Env) : Except Fault State :=
  let s := { s with status := .buffering, underrunTimerId := env.timer }
  if env.timer = none then do
    let s ← doresume s env
    .ok { s with status := .playing }
  else .ok s

/-! ## Dropping and flushing -/

/-- `avbox_player_clear_still_frame`. -/
def clearStillFrame (s : State) : State :=
  { s with
    stillFrame := false
    stillFrameTimerId := if s.stillFrame then none else s.stillFrameTimerId }

/-- The loop of `avbox_player_drop` that empties one decoder: as long as the decoder was not
    flushed it is let go on. -/
def dropRounds (flushed : Bool) (rounds count : Nat) : Except Fault Nat :=
  if flushed then .ok count else checkpointRounds rounds count

def dropVideo (s : State) (env : Env) : Except Fault State :=
  if s.videoStreamIndex ≠ -1 then do
    let count ← dropRounds s.videoDecoderFlushed env.videoRounds s.videoDecoderCheckpoint
    .ok { s with videoDecoderFlushed := true, videoDecoderCheckpoint := count }
  else .ok s

def dropAudio (s : State) (env : Env) : Except Fault State := do
  let count ← dropRounds s.audioDecoderFlushed env.audioRounds s.audioDecoderCheckpoint
  .ok { s with audioDecoderFlushed := true, audioDecoderCheckpoint := count }

/-- `avbox_player_drop`. -/
def drop (s : State) (env : Env) : Except Fault State := do
  let s ← halt { s with flushing := flushAll }
  let s ← dropVideo s env
  let s ← dropAudio s env
  continueAll { clearStillFrame s with flushing := 0 }

/-- Nothing is left in the audio pipeline. -/
def audioFlushed (audioDecoderFlushed : Bool) (b : Buffers) : Prop :=
  audioDecoderFlushed ∧ b.audioCount = 0 ∧ b.audioPackets = 0

instance (flushed : Bool) (b : Buffers) : Decidable (audioFlushed flushed b) :=
  inferInstanceAs (Decidable (_ ∧ _ ∧ _))

/-- Nothing is left in the video pipeline. -/
def videoFlushed (videoDecoderFlushed : Bool) (b : Buffers) : Prop :=
  b.videoPackets = 0 ∧ b.videoFrames = 0 ∧ videoDecoderFlushed

instance (flushed : Bool) (b : Buffers) : Decidable (videoFlushed flushed b) :=
  inferInstanceAs (Decidable (_ ∧ _ ∧ _))

/-- The first call of a flush halts the stream parser. -/
def beginFlush (s : State) (flags : Nat) : State :=
  { s with
    streamParserCheckpoint :=
      if s.flushing = 0 then s.streamParserCheckpoint + 1 else s.streamParserCheckpoint
    flushing := if s.flushing = 0 then flags else s.flushing }

/-- Frames that the audio clock will never reach are forced out, one halt of the video output for
    each look at the queue. -/
def forceFrames (s : State) (env : Env) : Except Fault State := do
  assert (s.audioStreamIndex ≠ -1)
  let count ← checkpointRounds env.videoRounds (s.videoOutputCheckpoint + 1)
  let count ← checkpointContinue count
  .ok { s with audioPaused := false, videoDecoderFlushed := true, videoOutputCheckpoint := count }

/-- The end of a flush. -/
def endFlush (s : State) : Except Fault (State × Bool) := do
  let count ← checkpointContinue s.streamParserCheckpoint
  .ok ({ s with flushing := 0, streamParserCheckpoint := count }, true)

/-- `avbox_player_flush` while playing, after the stream parser was halted. -/
def flushPipeline (s : State) (flags : Nat) (env : Env) : Except Fault (State × Bool) :=
  if flags &&& flushAudio ≠ 0 ∧ ¬audioFlushed s.audioDecoderFlushed env.buffers then .ok (s, false)
  else if flags &&& flushVideo ≠ 0 ∧ s.videoStreamIndex ≠ -1 then
    if s.getmastertime = .systemTime then
      if videoFlushed s.videoDecoderFlushed env.buffers then
        endFlush { s with audioPaused := false }
      else .ok (s, false)
    else if videoFlushed s.videoDecoderFlushed env.buffers then endFlush s
    else do
      let s ← forceFrames s env
      endFlush s
  else endFlush s

/-- `avbox_player_flush`. -/
def flush (s : State) (flags : Nat) (env : Env) : Except Fault (State × Bool) :=
  if s.playState = .playing then flushPipeline (beginFlush s flags) flags env
  else if s.playState = .stream then .ok (s, true)
  else .error .abort

/-- `while (!avbox_player_flush(inst, flags))`: calls that return 0 again change nothing, and the
    last one finds the pipeline empty. -/
def flushLoop (s : State) (flags : Nat) (env : Env) : Except Fault State := do
  let r ← flush s flags env
  if r.2 then .ok r.1
  else do
    let r ← flush
      { r.1 with
        audioDecoderFlushed := r.1.audioDecoderFlushed || flags &&& flushAudio ≠ 0
        videoDecoderFlushed := r.1.videoDecoderFlushed || flags &&& flushVideo ≠ 0 }
      flags env.drained
    .ok r.1

/-! ## Starting, stopping and seeking -/

/-- `avbox_player_play`: the local playlist is freed. -/
def play (s : State) (path : Option Path) : State :=
  sendctl
    { s with
      playlist := []
      playlistItem := if s.playlist = [] then s.playlistItem else none }
    (.play path)

/-- `avbox_player_playlist`: the copy is in the opposite order, because of `LIST_ADD`. -/
def startPlaylist (s : State) (items : List Path) (selected : Nat) : Option State :=
  match items[selected]? with
  | none => none
  | some path =>
    some (sendctl
      { s with
        playlist := items.foldl listAdd []
        playlistItem := some (items.length - 1 - selected) }
      (.play (some path)))

/-- The node after position `i`; after the list head comes the first node. -/
def listNext (s : State) (i : Nat) : Nat := if i < s.playlist.length then i + 1 else 0

/-- The node before position `i`; before the first node comes the list head. -/
def listPrev (s : State) (i : Nat) : Nat := if 0 < i then i - 1 else s.playlist.length

/-- The paths `avbox_player_openstream` opens with a provider. -/
def providerPath (path : Path) : Bool :=
  ['d', 'v', 'd', ':'].isPrefixOf path || ['m', 'a', 'g', 'n', 'e', 't', ':'].isPrefixOf path ||
    ['h', 't', 't', 'p'].isPrefixOf path

/-- `avbox_player_doplay`. -/
def doplay (s : State) (path : Option Path) (env : Env) : Except Fault State :=
  if s.playState ≠ .ready ∧ s.playState ≠ .playing then .ok s
  else
    match path with
    | none => if s.status = .paused then doresume s env else .ok s
    | some path =>
      if s.status ≠ .ready then dostop { s with nextFile := some path } env
      else
        let s := { s with playState := .stream, status := .buffering }
        if ¬env.applicationDelegate then .ok s
        else if providerPath path ∧ env.provider = none then
          .ok { s with status := .ready, playState := .ready }
        else do
          let s := { s with
            stream := if providerPath path then env.provider else s.stream
            streamQuit := false }
          assert (s.streamInputWorker = .idle)
          if env.threadDelegate then .ok { s with streamInputWorker := .delegated }
          else .ok { s with playState := .ready, status := .ready }

/-- Play another item of the playlist, unless there is none. -/
def playItem (s : State) (i : Nat) : State :=
  match s.playlist[i]? with
  | none => s
  | some path => play { s with playlistItem := some i } (some path)

/-- `av_seek_frame`, and the drop after it. -/
def seekFrame (s : State) (env : Env) : Except Fault State :=
  if env.seeks then drop s env else .ok s

/-- `avbox_player_doseek` from where it knows the target on. -/
def seekTo (s : State) (pos : Int) (env : Env) : Except Fault State :=
  if s.underrun then .ok s
  else do
    let s ← resumeIfPaused s env
    if pos = -1 then .ok s
    else do
      let s ← seekFrame { s with streamParserCheckpoint := s.streamParserCheckpoint + 1 } env
      let s ← handleUnderrun (dopause { s with underrun := true }) env
      let count ← checkpointContinue s.streamParserCheckpoint
      .ok { s with streamParserCheckpoint := count }

/-- `avbox_player_doseek`. -/
def doseek (s : State) (flags : Nat) (incr : Int) (env : Env) : Except Fault State :=
  if s.status ≠ .playing ∧ s.status ≠ .paused then .ok s
  else do
    assert (s.fmtCtx ≠ none)
    if s.stream.any (·.hasSeek) then .ok s
    else if flags &&& seekChapter ≠ 0 then
      match env.chapter with
      | .refused => .ok s
      | .nextItem => .ok (s.playlistItem.elim s fun i => playItem s (listNext s i))
      | .prevItem => .ok (s.playlistItem.elim s fun i => playItem s (listPrev s i))
      | .pos pos => seekTo s pos env
    else if flags &&& seekAbsolute ≠ 0 then seekTo s incr env
    else if flags &&& seekRelative ≠ 0 then seekTo s (env.masterTime + incr) env
    else .ok s

/-- `avbox_player_delay_stream_exit`. -/
def delayStreamExit (s : State) (env : Env) : Except Fault State := do
  assert (s.streamExitTimerId = none)
  if env.timer = none then .ok (sendctl s .streamExit)
  else .ok { s with streamExitTimerId := env.timer }

/-- The next file after the end of a session. -/
def playNext (s : State) : State :=
  match s.nextFile with
  | some path => { play s (some path) with nextFile := none }
  | none =>
    match s.playlistItem with
    | none => s
    | some i =>
      let i := listNext s i
      match s.playlist[i]? with
      | none => { s with playlistItem := some i }
      | some path => play { s with playlistItem := some i } (some path)

/-- The workers are joined and what belonged to the stream is freed. -/
def cleanup (s : State) : State :=
  { s with
    videoOutputWorker :=
      if s.videoStreamIndex ≠ -1 ∧ .videoOut ≤ s.playState then .idle else s.videoOutputWorker
    videoDecoderWorker :=
      if s.videoStreamIndex ≠ -1 ∧ .videoDec ≤ s.playState then .idle else s.videoDecoderWorker
    audioDecoderWorker :=
      if .audioDec ≤ s.playState then .idle else s.audioDecoderWorker
    streamInputWorker := .idle
    videoStreamIndex := -1
    audioStreamIndex := -1
    fmtCtx := none
    stream := none
    status := .ready }

/-- The end of the `STREAM_EXIT` handler, once the pipeline is empty. -/
def endSession (s : State) : State :=
  let s := cleanup s
  { (if s.stopping then s else playNext s) with playState := .ready }

/-! ## `avbox_player_control` -/

/-- The buffering ends with the stream. -/
def cancelUnderrun (s : State) (env : Env) : Except Fault State :=
  if s.underrunTimerId.isSome then doresume { s with underrunTimerId := none } env else .ok s

/-- `AVBOX_PLAYERCTL_STREAM_EXIT`. -/
def streamExit (s : State) (env : Env) : Except Fault State := do
  let s ← cancelUnderrun s env
  if s.stopping then do
    let s ← drop s env
    .ok (endSession s)
  else do
    let r ← flush s flushAll env
    if r.2 then .ok (endSession r.1) else delayStreamExit r.1 env

/-- `AVBOX_PLAYERCTL_STREAM_READY`. -/
def streamReady (s : State) (env : Env) : Except Fault State := do
  assert (s.playState = .stream)
  let s := { s with playState := .audioDec }
  if s.audioStreamIndex = -1 then .ok (sendctl s .audioDecReady)
  else do
    assert (s.audioDecoderWorker = .idle)
    if env.threadDelegate then .ok { s with audioDecoderWorker := .starting } else .error .abort

/-- `AVBOX_PLAYERCTL_AUDIODEC_READY`. -/
def audioDecReady (s : State) (env : Env) : Except Fault State := do
  assert (s.playState = .audioDec)
  let s := { s with playState := .videoDec }
  if s.videoStreamIndex = -1 then .ok (sendctl s .videoDecReady)
  else do
    assert (s.videoDecoderWorker = .idle)
    if env.threadDelegate then .ok { s with videoDecoderWorker := .starting }
    else .ok (sendctl s .threadExit)

/-- `AVBOX_PLAYERCTL_VIDEODEC_READY`. -/
def videoDecReady (s : State) : Except Fault State := do
  assert (s.playState = .videoDec)
  .ok (sendctl { s with playState := .audioOut } .audioOutReady)

/-- `AVBOX_PLAYERCTL_AUDIOOUT_READY`. -/
def audioOutReady (s : State) (env : Env) : Except Fault State := do
  assert (s.playState = .audioOut)
  let s := { s with playState := .videoOut }
  if s.videoStreamIndex = -1 then .ok (sendctl s .videoOutReady)
  else do
    assert (s.videoOutputWorker = .idle)
    if env.threadDelegate then .ok { s with videoOutputWorker := .starting }
    else .ok (sendctl s .threadExit)

/-- `AVBOX_PLAYERCTL_VIDEOOUT_READY`. -/
def videoOutReady (s : State) (env : Env) : Except Fault State := do
  assert (s.playState = .videoOut)
  let s ← handleUnderrun (dopause { s with playState := .playing, underrun := true }) env
  let count ← checkpointContinue s.streamParserCheckpoint
  .ok { s with streamParserCheckpoint := count, status := .playing }

/-- `AVBOX_PLAYERCTL_PAUSE`. -/
def pause (s : State) (env : Env) : State :=
  if s.status ≠ .playing then s
  else if s.stream.isSome ∧ ¬env.canPause then s
  else { dopause s with status := .paused }

/-- `AVBOX_PLAYERCTL_STOP`. -/
def stop (s : State) (env : Env) : Except Fault State :=
  if s.playState = .ready then .ok s else dostop { s with stopping := true } env

/-- `AVBOX_PLAYERCTL_THREADEXIT`. -/
def threadExit (s : State) (env : Env) : Except Fault State :=
  if s.playState ≠ .ready ∧ ¬s.stopping then dostop { s with stopping := true } env else .ok s

/-- The first audio stream after the active one, in the streams from index `i` on. -/
def trackAfter (active : Int) : List AVStream → Int → Bool → Option Int
  | [], _, _ => none
  | stream :: streams, i, foundActive =>
    if ¬stream.audio then trackAfter active streams (i + 1) foundActive
    else if i = active then trackAfter active streams (i + 1) true
    else if foundActive then some i
    else trackAfter active streams (i + 1) foundActive

/-- The first audio stream, in the streams from index `i` on. -/
def firstTrack : List AVStream → Int → Option Int
  | [], _ => none
  | stream :: streams, i => if stream.audio then some i else firstTrack streams (i + 1)

/-- `AVBOX_PLAYERCTL_CHANGE_AUDIO_TRACK`.  With a stream id the stream is never taken from the ones
    there are (`found_active` stays 0): the parser picks it when a packet of it comes. -/
def changeAudioTrack (s : State) (streamId : Option Int) : Except Fault State :=
  match streamId with
  | none =>
    match s.fmtCtx with
    | none => .error .null
    | some streams =>
      match (trackAfter s.audioStreamIndex streams 0 false).or (firstTrack streams 0) with
      | none => .ok s
      | some next => .ok { s with audioStreamIndex := next }
  | some id =>
    if id ≠ -1 then
      match s.fmtCtx with
      | none => .error .null
      | some _ => .ok { s with audioStreamId := id, audioStreamIndex := -2 }
    else .ok { s with getmastertime := .systemTime, audioStreamIndex := -1 }

/-- `AVBOX_PLAYERCTL_BUFFER_UNDERRUN`. -/
def bufferUnderrun (s : State) (env : Env) : Except Fault State :=
  if s.underrun then .ok s
  else if s.flushing ≠ 0 ∨ s.stillFrame ∨ s.stopping ∨ (s.stream.isSome ∧ env.underrunExpected) then
    .ok s
  else
    let (s, underrun) := isunderrun s env
    if underrun then
      let s := { s with underrun := true }
      handleUnderrun (if .playing ≤ s.playState then dopause s else s) env
    else .ok s

/-- `AVBOX_PLAYERCTL_FLUSH`. -/
def flushMsg (s : State) (env : Env) : Except Fault State := do
  assert (.playing ≤ s.playState)
  let s ← flushLoop s flushAll env
  .ok (clearStillFrame s)

/-- `AVBOX_PLAYERCTL_STILL_FRAME`. -/
def stillFrame (s : State) (length : Nat) (env : Env) : Except Fault State :=
  if length % 256 ≠ 0xff then do
    assert (s.stillFrame = false)
    assert (s.stillFrameTimerId = none)
    let s ← flushLoop s flushVideo env
    .ok { s with stillFrame := true, stillFrameTimerId := env.timer }
  else if s.stillFrame then .ok s
  else do
    let s ← flushLoop s flushVideo env
    .ok { s with stillFrame := true }

/-- `AVBOX_MESSAGETYPE_TIMER`. -/
def timer (s : State) (id : Nat) (env : Env) : Except Fault State :=
  if s.underrunTimerId = some id then
    let (s, underrun) := isunderrun s env
    if underrun then handleUnderrun s env
    else do
      let s ← doresume { s with underrun := false, underrunTimerId := none } env
      .ok { s with status := .playing }
  else if s.streamExitTimerId = some id then
    .ok { sendctl s .streamExit with streamExitTimerId := none }
  else if s.stillFrameTimerId = some id then
    .ok { s with stillFrame := false, stillFrameTimerId := none }
  else .ok s

/-- `avbox_player_control`. -/
def control (s : State) (m : Msg) (env : Env) : Except Fault State :=
  match m with
  | .play path => doplay s path env
  | .pause => .ok (pause s env)
  | .stop => stop s env
  | .seek flags incr => doseek s flags incr env
  | .threadExit => threadExit s env
  | .streamReady => streamReady s env
  | .audioDecReady => audioDecReady s env
  | .videoDecReady => videoDecReady s
  | .audioOutReady => audioOutReady s env
  | .videoOutReady => videoOutReady s env
  | .streamExit => streamExit s env
  | .bufferUnderrun => bufferUnderrun s env
  | .audioStreamUnderrun => .ok s
  | .changeAudioTrack streamId => changeAudioTrack s streamId
  | .flush => flushMsg s env
  | .stillFrame length => stillFrame s length env
  | .info => .ok s
  | .timer id => timer s id env

/-! ## The workers -/

inductive ParserInput where
  /-- the worker starts; whether `avformat_alloc_context` succeeds -/
  | start (alloc : Bool)
  /-- one of the calls before `av_find_best_stream` fails; whether it is `avformat_open_input` -/
  | openFails (input : Bool)
  /-- the streams, what `av_find_best_stream` returns for audio and for video, and whether the two
      video queues could be created -/
  | opens (streams : List AVStream) (audio video : Int) (queues : Bool)
  /-- the test of the loop, or the end of the wait at the checkpoint -/
  | next
  /-- `av_read_frame` returns a packet of this stream -/
  | packet (stream : Nat)
  /-- `av_read_frame` or `avbox_queue_put` fails -/
  | fails
  deriving DecidableEq, Repr

/-- `goto decoder_exit`. -/
def decoderExit (s : State) : State :=
  { s with streamInputWorker := .exiting, streamExiting := true }

/-- The start of `avbox_player_stream_parse`. -/
def parserStart (s : State) (alloc : Bool) : Except Fault State := do
  assert (s.status = .playing ∨ s.status = .buffering)
  assert (s.fmtCtx = none ∧ s.audioStreamIndex = -1 ∧ s.videoStreamIndex = -1)
  assert (s.stillFrame = false)
  let s := { s with
    audioDecoderFlushed := true
    videoDecoderFlushed := true
    underrun := false
    getmastertime := .systemTime
    paused := 0 }
  if alloc then
    .ok (sendctl { s with fmtCtx := some [], streamInputWorker := .opening } .bufferUnderrun)
  else .ok (decoderExit s)

/-- The part of `avbox_player_stream_parse` from `av_find_best_stream` to its loop. -/
def parserOpens (s : State) (streams : List AVStream) (audio video : Int) (queues : Bool) : State :=
  let s := { s with
    fmtCtx := some streams
    audioPaused := false
    getmastertime := if 0 ≤ audio then .audioTime else .systemTime
    audioStreamIndex := if 0 ≤ audio then audio else -1
    videoStreamIndex := video }
  if 0 ≤ video ∧ ¬queues then decoderExit s
  else if s.audioStreamIndex = -1 ∧ s.videoStreamIndex = -1 then decoderExit s
  else
    sendctl
      { s with
        streamParserCheckpoint := s.streamParserCheckpoint + 1
        streamInputWorker := .loop }
      .streamReady

/-- The audio stream that was asked for by its id has come. -/
def selectAudio (s : State) (stream : Nat) : State :=
  match s.fmtCtx.bind (·[stream]?) with
  | none => s
  | some st =>
    if st.audio ∧ s.audioStreamIndex = -2 then
      if s.audioStreamId ≠ -1 then
        if st.id = s.audioStreamId then { s with audioStreamIndex := stream } else s
      else { s with audioStreamIndex := -1 }
    else s

/-- One stretch of `avbox_player_stream_parse`. -/
def parserStep (s : State) (input : ParserInput) : Option (Except Fault State) :=
  match s.streamInputWorker, input with
  | .delegated, .start alloc => some (parserStart s alloc)
  | .opening, .openFails input =>
    some (.ok (decoderExit { s with fmtCtx := if input then none else s.fmtCtx }))
  | .opening, .opens streams audio video queues =>
    some (.ok (parserOpens s streams audio video queues))
  | .loop, .next =>
    some (.ok (if s.streamQuit then decoderExit s else { s with streamInputWorker := .checkpoint }))
  | .checkpoint, .next =>
    if s.streamParserCheckpoint = 0 then some (.ok { s with streamInputWorker := .reading })
    else none
  | .reading, .packet stream => some (.ok { selectAudio s stream with streamInputWorker := .loop })
  | .reading, .fails => some (.ok (decoderExit s))
  | .exiting, .next =>
    some (.ok (sendctl
      { s with streamInputWorker := .returned, streamQuit := true, streamExiting := false }
      .streamExit))
  | _, _ => none

inductive Worker where
  | audioDecoder
  | videoDecoder
  | videoOutput
  deriving DecidableEq, Repr

inductive WorkerEvent where
  /-- the worker reports that it is ready -/
  | ready
  /-- a decoder took a packet: it has something to flush -/
  | decodes
  /-- a decoder has been flushed -/
  | flushes
  /-- the worker returns, ready or not -/
  | returns
  deriving DecidableEq, Repr

/-- One report of `avbox_player_audio_decode`, `avbox_player_video_decode` (or the decoder that
    takes its place) or `avbox_player_video`. -/
def workerStep (s : State) : Worker → WorkerEvent → Option State
  | .audioDecoder, .ready =>
    if s.audioDecoderWorker = .starting then
      let s := { s with audioDecoderWorker := .running, audioDecoderFlushed := true }
      some (if s.playState = .audioDec then sendctl s .audioDecReady else s)
    else none
  | .audioDecoder, .decodes =>
    if s.audioDecoderWorker = .running then some { s with audioDecoderFlushed := false } else none
  | .audioDecoder, .flushes =>
    if s.audioDecoderWorker = .running then some { s with audioDecoderFlushed := true } else none
  | .audioDecoder, .returns =>
    if s.audioDecoderWorker = .idle then none else some { s with audioDecoderWorker := .returned }
  | .videoDecoder, .ready =>
    if s.videoDecoderWorker = .starting then
      some (sendctl { s with videoDecoderWorker := .running, videoDecoderFlushed := true }
        .videoDecReady)
    else none
  | .videoDecoder, .decodes =>
    if s.videoDecoderWorker = .running then some { s with videoDecoderFlushed := false } else none
  | .videoDecoder, .flushes =>
    if s.videoDecoderWorker = .running then some { s with videoDecoderFlushed := true } else none
  | .videoDecoder, .returns =>
    if s.videoDecoderWorker = .idle then none else some { s with videoDecoderWorker := .returned }
  | .videoOutput, .ready =>
    if s.videoOutputWorker = .starting then
      some (sendctl { s with videoOutputWorker := .running } .videoOutReady)
    else none
  | .videoOutput, .returns =>
    if s.videoOutputWorker = .idle then none else some { s with videoOutputWorker := .returned }
  | .videoOutput, .decodes => none
  | .videoOutput, .flushes => none

/-! ## Runs -/

inductive Event where
  /-- `avbox_player_play`, by the application -/
  | play (path : Option Path)
  /-- `avbox_player_playlist`, by the application -/
  | playlist (items : List Path) (selected : Nat)
  /-- another message that any thread may send, or a timer message -/
  | post (m : Msg)
  /-- the control thread handles the next message -/
  | control (env : Env)
  | parser (input : ParserInput)
  | worker (w : Worker) (e : WorkerEvent)
  deriving DecidableEq, Repr

inductive Result where
  | done
  | fault (f : Fault)
  deriving DecidableEq, Repr

/-- A fault leaves the state as it was. -/
def outcome (s : State) : Except Fault State → State × Result
  | .ok s' => (s', .done)
  | .error f => (s, .fault f)

/-- One step. -/
def step (s : State) : Event → Option (State × Result)
  | .play path => some (play s path, .done)
  | .playlist items selected => (startPlaylist s items selected).map (·, .done)
  | .post m => if m.internal then none else some (sendctl s m, .done)
  | .control env =>
    match s.mailbox with
    | [] => none
    | m :: ms => some (outcome s (control { s with mailbox := ms } m env))
  | .parser input => (parserStep s input).map (outcome s)
  | .worker w e => (workerStep s w e).map (·, .done)

end Mediabox.Player
