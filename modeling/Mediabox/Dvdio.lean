import Mathlib.Data.List.Basic
import Mediabox.Lib.Transition
import Mediabox.Rect

/-!
# Playing a DVD (`src/lib/dvdio.c`, `src/lib/ui/player.c`)

The threads that work together while a DVD is played: the stream thread in `avio_read_packet`, the
control thread in `avbox_player_control`, the main thread in `avbox_dvdio_control`, and the timers
thread as far as it sends the message of a still frame timer.

* The stream thread keeps `inst->lock` from the first to the last line of `avio_read_packet`, except
  in the `pthread_cond_timedwait` of an indefinite still frame.  The others take the lock and
  release it in one step, so that it is free between two steps unless the stream thread has it.
* A synchronous request is an argument on the stack of the stream thread (`struct avbox_syncarg`)
  and a message that points to it.  Each use of an argument has its own number.  It is alive until
  the block it is declared in is left, or until it is initialized for the next request.
* `avbox_syncarg_init` locks the mutex of the argument, so it is not returned before its sender is
  in `pthread_cond_wait`: to send a request and to begin to wait for it is one step.
* Of the pipeline there is how much is left to play.  FLUSH waits for all of it, STILL_FRAME for the
  video.  The stream parser, which is the stream thread, fills it between two calls of
  `avio_read_packet`.  The video output hands each frame to the main thread, and waits until that
  was presented before it hands over the next one.
* The event brings what the code cannot decide: the blocks and menus of `dvdnav`, the keys, whether
  the decoders are flushed, and whether there was memory for a message, a timer or a string.
* Other messages of the player are here as far as they matter: those that drop the pipeline
  (`avbox_player_drop`), pause or resume the playback, STOP and VIDEOOUT_READY.  The video output
  reports VIDEOOUT_READY once.
* What the control thread finds in an argument that is not alive is not modelled: it goes on with
  what was sent.  A failed `ASSERT` does not end the program.
* Left out: the bytes of the blocks, and the fields that only the player's other threads read.
-/

set_option autoImplicit false

namespace Mediabox.Dvdio

open Transition

/-! ## Menus and streams -/

/-- What `dvdnav` tells of a menu: the number of buttons, the highlighted one, and its borders. -/
structure Menu where
  btnNs : Int
  btnid : Int
  xStart : Int
  xEnd : Int
  yEnd : Int
  deriving DecidableEq, Repr

/-- `avbox_dvdio_process_menus`: the highlight, and whether an UPDATE is sent. -/
def processMenus (highlight : Rect) (menu : Menu) : Rect × Bool :=
  if menu.btnNs > menu.btnid - 1 then
    if highlight.x ≠ menu.xStart ∨ highlight.y ≠ menu.yEnd ∨
        highlight.w ≠ menu.xEnd - menu.xStart then
      (⟨menu.xStart, menu.yEnd, menu.xEnd - menu.xStart, 5⟩, true)
    else (highlight, false)
  else if highlight.x ≠ 0 ∨ highlight.y ≠ 0 then ({ highlight with x := 0, y := 0 }, true)
  else (highlight, false)

/-- `DVD_AUDIO_FORMAT_*`. -/
inductive AudioFormat where
  | dts
  | ac3
  | lpcm
  | mpeg2Ext
  | sdds
  | other
  deriving DecidableEq, Repr

/-- `active_stream | mask`, an `int`. -/
def streamOr (activeStream : BitVec 8) (mask : BitVec 32) : Int :=
  (activeStream.signExtend 32 ||| mask).toInt

/-- `avbox_dvdio_get_stream_id`. -/
def getStreamId (activeStream : BitVec 8) : AudioFormat → Int
  | .dts => streamOr activeStream 0x88#32
  | .ac3 => streamOr activeStream 0x80#32
  | .lpcm => streamOr activeStream 0xa0#32
  | .mpeg2Ext => streamOr activeStream 0xc0#32
  | .sdds => -1
  | .other => -1

/-- `inst->active_stream` and what goes with it; no format is the 0xffff of the beginning. -/
structure ActiveStream where
  stream : BitVec 8
  ch : Int
  fmt : Option AudioFormat
  deriving DecidableEq, Repr

/-- The title of a DVD: "Unknown" when it has none, and spaces for underscores. -/
def titleText (title : Option (List Char)) : List Char :=
  (title.getD "Unknown".toList).map fun c => if c = '_' then ' ' else c

/-- What `dvdnav` tells of a title. -/
inductive TitleInfo where
  /-- `dvdnav_current_title_info` failed -/
  | failed
  /-- the duration in ticks of 1/90000 second -/
  | chapters (duration : Nat)
  /-- no chapters: `s_duration` is not initialized -/
  | noChapters (garbage : Int)
  deriving DecidableEq, Repr

/-- Ticks as microseconds, in whole seconds. -/
def microseconds (ticks : Int) : Int := ticks.tdiv 90000 * 1000000

def TitleInfo.duration : TitleInfo → Int
  | .failed => 0
  | .chapters duration => microseconds duration
  | .noChapters garbage => garbage

/-! ## The threads -/

/-- A block or event of `dvdnav_get_next_block`. -/
inductive NavEvent where
  | blockOk (len : Nat)
  | nop
  | stop
  | hopChannel
  | wait
  | stillFrame (length : UInt8)
  | vtsChange (title : Option (List Char)) (info : TitleInfo)
  | cellChange
  | audioStreamChange (stream : BitVec 8) (ch : Int) (fmt : AudioFormat)
  | spuClutChange
  | spuStreamChange
  | highlight
  | navPacket (menu : Menu) (time : Int)
  deriving DecidableEq, Repr

/-- A message with a `struct avbox_syncarg`, and what its `__data` stands for. -/
inductive Request where
  | flush
  | stillFrame (length : UInt8)
  | setTitle (title : List Char)
  | setDuration (duration : Int)
  | setPosition (pos : Int)
  | changeAudioTrack (streamId : Int)
  deriving DecidableEq, Repr

/-- The sender waits for the answer. -/
def Request.waits : Request → Bool
  | .stillFrame length => length < 0xFF
  | _ => true

/-- What is done after the last answer. -/
inductive Finish where
  | nothing
  /-- the still frame is over -/
  | still
  /-- the stream is remembered -/
  | track (active : ActiveStream)
  deriving DecidableEq, Repr

/-- The stream thread. -/
inductive StreamPc where
  /-- outside `avio_read_packet` -/
  | idle
  /-- before `inst->lock` -/
  | locking
  /-- at the head of the loop -/
  | loop
  /-- before a request is sent; `rest` are the requests that follow it -/
  | sending (r : Request) (rest : List Request) (fin : Finish)
  /-- in `avbox_syncarg_wait` -/
  | waiting (arg : Nat) (rest : List Request) (fin : Finish) (answered : Bool)
  /-- an indefinite still frame was sent; the block of the argument is to be left -/
  | leaving (arg : Nat)
  /-- in `pthread_cond_timedwait` -/
  | dozing
  deriving DecidableEq, Repr

/-- The stream thread has `inst->lock`. -/
def StreamPc.holds : StreamPc → Bool
  | .idle | .locking | .dozing => false
  | _ => true

/-- The argument that is alive. -/
def StreamPc.arg : StreamPc → Option Nat
  | .waiting arg _ _ _ => some arg
  | .leaving arg => some arg
  | _ => none

/-- Other messages of the player. -/
inductive Posted where
  | videoOutReady
  | stop
  /-- SEEK or STREAM_EXIT, with `avbox_player_drop` -/
  | drop
  /-- PAUSE, PLAY, BUFFER_UNDERRUN or the timer of an underrun; whether the playback is paused after
      it -/
  | pausing (paused : Bool)
  /-- CHANGE_AUDIO_TRACK without argument, and what has no part in this -/
  | other
  deriving DecidableEq, Repr

/-- A message to the control thread. -/
inductive Msg where
  | update
  | request (arg : Nat) (r : Request)
  | timer (id : Nat)
  | posted (p : Posted)
  deriving DecidableEq, Repr

/-- The control thread. -/
inductive ControlPc where
  | idle
  /-- FLUSH, in the loop -/
  | flushing (arg : Nat)
  /-- STILL_FRAME, in its loop -/
  | presenting (arg : Nat) (length : UInt8)
  /-- UPDATE, in `avbox_delegate_wait`; whether the delegate was sent to the main thread -/
  | updating (sent : Bool)
  /-- VIDEOOUT_READY, in `avbox_dvdio_play`, before `inst->lock` -/
  | starting
  deriving DecidableEq, Repr

inductive Key where
  | context
  | enter
  | back
  | arrowUp
  | arrowDown
  | arrowLeft
  | arrowRight
  | other
  deriving DecidableEq, Repr

/-- The main thread. -/
inductive MainPc where
  | idle
  /-- in `avbox_dvdio_control` with an INPUT message, before `inst->lock` -/
  | locking (key : Key)
  deriving DecidableEq, Repr

/-- `struct avbox_dvdio`; `buf` is what is left of the block, and `grabbed` says that the input is
    grabbed by its object. -/
structure Inst where
  closed : Bool
  playing : Bool
  stillFrame : Bool
  grabbed : Bool
  active : ActiveStream
  buf : Option Nat
  highlight : Rect
  deriving DecidableEq, Repr

/-- `struct avbox_player`; `none` is the -1 of `still_frame_timer_id`. -/
structure Player where
  stillFrame : Bool
  stillFrameWaiter : Option Nat
  stillFrameTimerId : Option Nat
  title : List Char
  duration : Int
  pos : Int
  audioStreamId : Int
  deriving DecidableEq, Repr

structure State where
  io : Inst
  player : Player
  stream : StreamPc
  control : ControlPc
  main : MainPc
  /-- the messages of the control thread -/
  queue : List Msg
  /-- the still frame timers -/
  timers : List Nat
  nextTimer : Nat
  nextArg : Nat
  /-- the argument of `avio_read_packet` -/
  bufsz : Nat
  /-- VIDEOOUT_READY was sent -/
  ready : Bool
  /-- what is left of the audio in the pipeline -/
  audio : Nat
  /-- the frames that are left in the pipeline, decoded or not -/
  frames : Nat
  /-- a frame was sent to the main thread, which has not presented it -/
  delegated : Bool
  /-- `inst->paused` is not 0 -/
  paused : Bool
  deriving DecidableEq, Repr

/-- After `avbox_dvdio_open`. -/
def init : State where
  io := ⟨false, false, false, false, ⟨-1, 0, none⟩, none, ⟨0, 0, 0, 0⟩⟩
  player := ⟨false, none, none, [], 0, 0, -1⟩
  stream := .idle
  control := .idle
  main := .idle
  queue := []
  timers := []
  nextTimer := 1
  nextArg := 0
  bufsz := 0
  ready := false
  audio := 0
  frames := 0
  delegated := false
  paused := false

inductive StreamEvent where
  /-- `avio_read_packet` is called -/
  | read (bufsz : Nat)
  | lock
  /-- once around the loop, up to the first request; `block` is the answer of
      `dvdnav_get_next_block` (none for an error), and `sent` says whether UPDATE could be sent -/
  | turn (block : Option NavEvent) (sent : Bool)
  /-- `avbox_player_sendctl`, and whether it succeeds -/
  | send (ok : Bool)
  | leave
  /-- `pthread_cond_wait` in `avbox_syncarg_wait` returns -/
  | wake
  /-- `pthread_cond_timedwait` returns -/
  | rouse
  deriving DecidableEq, Repr

inductive ControlEvent where
  /-- the next message; `alloc` says whether `strdup` or `avbox_delegate_new` got memory, and `sent`
      whether the delegate could be sent -/
  | take (alloc sent : Bool)
  /-- a round of the loop of FLUSH, and whether it is the last -/
  | flush (done : Bool)
  /-- a round of the loop of STILL_FRAME, whether it is the last, and whether the timer can be
      registered -/
  | present (done timer : Bool)
  /-- `avbox_dvdio_play`, and whether `avbox_input_grab` succeeds -/
  | play (grabbed : Bool)
  deriving DecidableEq, Repr

inductive MainEvent where
  | key (key : Key)
  /-- the key is handled; `inMenu` says that `dvdnav` is in neither of the domains asked for, and
      `sent` whether UPDATE could be sent -/
  | input (inMenu : Bool) (menu : Menu) (sent : Bool)
  /-- the delegate of UPDATE is executed -/
  | delegate
  /-- the frame that was sent is presented -/
  | frame
  deriving DecidableEq, Repr

/-- What happens to the pipeline. -/
inductive OutputEvent where
  /-- the stream parser adds packets -/
  | put (audio frames : Nat)
  /-- audio is played -/
  | play
  /-- the video output sends a frame to the main thread; whether it could be sent -/
  | present (sent : Bool)
  /-- the same with a frame whose time a flush has taken away -/
  | force (sent : Bool)
  /-- a late frame is skipped -/
  | skip
  deriving DecidableEq, Repr

inductive Event where
  | stream (e : StreamEvent)
  | control (e : ControlEvent)
  | main (e : MainEvent)
  | output (e : OutputEvent)
  /-- a still frame timer fires, and whether its message could be sent -/
  | fire (id : Nat) (sent : Bool)
  /-- another thread sends a message -/
  | post (p : Posted)
  deriving DecidableEq, Repr

/-- What a step shows. -/
inductive Act where
  /-- `avbox_syncarg_data` -/
  | read (arg : Nat)
  /-- `avbox_syncarg_return` -/
  | returned (arg : Nat)
  /-- `avbox_syncarg_wait` returned -/
  | woke (arg : Nat)
  /-- `avio_read_packet` returned -/
  | ret (n : Nat)
  /-- `avbox_dvdio_control` returned: AVBOX_DISPATCH_OK or AVBOX_DISPATCH_CONTINUE -/
  | dispatched (ok : Bool)
  deriving DecidableEq, Repr

/-! ## The stream thread -/

/-- `avbox_player_sendctl`. -/
def State.sendctl (s : State) (m : Msg) (ok : Bool) : State :=
  if ok then { s with queue := s.queue ++ [m] } else s

/-- The end of `avio_read_packet`. -/
def State.ret (s : State) (buf : Option Nat) (n : Nat) : State × List Act :=
  ({ s with stream := .idle, io := { s.io with buf := buf } }, [.ret n])

/-- A block, or what is left of it, is copied. -/
def copyBlock (s : State) (blen : Nat) : State × List Act :=
  if blen ≤ s.bufsz then s.ret none blen else s.ret (some (blen - s.bufsz)) s.bufsz

/-- The next round of the loop. -/
def State.again (s : State) : State := { s with stream := .loop }

/-- The case of an event, up to the first request. -/
def navEvent (s : State) (sent : Bool) : NavEvent → State × List Act
  | .blockOk len => copyBlock s len
  | .stop => ({ s.again with io := { s.io with closed := true } }, [])
  | .hopChannel | .wait =>
    if s.io.playing then ({ s with stream := .sending .flush [] .nothing }, []) else (s.again, [])
  | .stillFrame length =>
    if s.io.stillFrame then ({ s with stream := .dozing }, [])
    else if s.io.playing then
      ({ s with
        io := { s.io with stillFrame := true }
        stream := .sending (.stillFrame length) [] .still }, [])
    else (s.again, [])
  | .vtsChange title info =>
    if s.io.playing then
      ({ s with stream :=
        .sending .flush [.setTitle (titleText title), .setDuration info.duration] .nothing }, [])
    else (s.again, [])
  | .audioStreamChange stream ch fmt =>
    if s.io.playing = true ∧ s.io.active ≠ ⟨stream, ch, some fmt⟩ then
      let request := Request.changeAudioTrack (getStreamId stream fmt)
      ({ s with stream := .sending .flush [request] (.track ⟨stream, ch, some fmt⟩) }, [])
    else (s.again, [])
  | .navPacket menu time =>
    if s.io.playing then
      let (highlight, update) := processMenus s.io.highlight menu
      (State.sendctl { s with
        io := { s.io with highlight := highlight }
        stream := .sending (.setPosition (microseconds time)) [] .nothing } .update
          (update && sent), [])
    else (s.again, [])
  | .nop | .cellChange | .spuClutChange | .spuStreamChange | .highlight => (s.again, [])

/-- What follows an answer. -/
def State.resume (s : State) (rest : List Request) (fin : Finish) : State :=
  match rest, fin with
  | r :: rest, fin => { s with stream := .sending r rest fin }
  | [], .nothing => s.again
  | [], .still => { s.again with io := { s.io with stillFrame := false } }
  | [], .track active => { s.again with io := { s.io with active := active } }

/-- One step of the stream thread. -/
def stepStream (s : State) (e : StreamEvent) : Option (State × List Act) :=
  match s.stream, e with
  | .idle, .read bufsz => some ({ s with stream := .locking, bufsz := bufsz }, [])
  | .locking, .lock => some (s.again, [])
  | .loop, .turn block sent =>
    if s.io.closed then some (s.ret s.io.buf 0)
    else
      match s.io.buf, block with
      | some blen, _ => some (copyBlock s blen)
      | none, none => some (s.ret none 0)
      | none, some event => some (navEvent s sent event)
  | .sending r rest fin, .send ok =>
    some (State.sendctl { s with
      stream := if r.waits then .waiting s.nextArg rest fin false else .leaving s.nextArg
      nextArg := s.nextArg + 1 } (.request s.nextArg r) ok, [])
  | .leaving _, .leave => some (s.again, [])
  | .waiting arg rest fin _, .wake => some (s.resume rest fin, [.woke arg])
  | .dozing, .rouse => some (s.again, [])
  | _, _ => none

/-! ## The control thread -/

/-- The sender of the argument is woken, if it is in `avbox_syncarg_wait`. -/
def StreamPc.answer (pc : StreamPc) (arg : Nat) : StreamPc :=
  match pc with
  | .waiting a rest fin answered =>
    if a = arg then .waiting a rest fin true else .waiting a rest fin answered
  | pc => pc

/-- `avbox_syncarg_return`. -/
def syncargReturn (s : State) (arg : Nat) : State × List Act :=
  ({ s with stream := s.stream.answer arg }, [.returned arg])

/-- `avbox_syncarg_return` of `still_frame_waiter`. -/
def returnWaiter (s : State) : State × List Act :=
  match s.player.stillFrameWaiter with
  | some arg => syncargReturn s arg
  | none => (s, [])

/-- The still frame is over. -/
def Player.noStill (p : Player) : Player := { p with stillFrame := false, stillFrameTimerId := none }

/-- `avbox_player_clear_still_frame`. -/
def clearStillFrame (s : State) : State × List Act :=
  if s.player.stillFrame then
    match s.player.stillFrameTimerId with
    | some id => returnWaiter { s with timers := s.timers.erase id, player := s.player.noStill }
    | none => ({ s with player := { s.player with stillFrame := false } }, [])
  else (s, [])

/-- STILL_FRAME after its loop. -/
def stillFrame (s : State) (arg : Nat) (length : UInt8) (timer : Bool) : State × List Act :=
  let p := { s.player with stillFrame := true, stillFrameWaiter := some arg }
  if length = 0xFF then ({ s with player := p }, [])
  else if timer then
    ({ s with
      player := { p with stillFrameTimerId := some s.nextTimer }
      timers := s.timers ++ [s.nextTimer]
      nextTimer := s.nextTimer + 1 }, [])
  else syncargReturn { s with player := { p with stillFrameTimerId := none } } arg

/-- A message with an argument, up to the loop of FLUSH or STILL_FRAME. -/
def takeRequest (s : State) (arg : Nat) (alloc : Bool) : Request → State × List Act
  | .flush => ({ s with control := .flushing arg }, [])
  | .stillFrame length =>
    if length ≠ 0xFF ∨ s.player.stillFrame = false then
      ({ s with control := .presenting arg length }, [.read arg])
    else (s, [.read arg])
  | .setTitle title =>
    let t := if alloc then title else s.player.title
    ((syncargReturn { s with player := { s.player with title := t } } arg).1,
      [.read arg, .returned arg])
  | .setDuration duration =>
    ((syncargReturn { s with player := { s.player with duration := duration } } arg).1,
      [.read arg, .returned arg])
  | .setPosition pos =>
    ((syncargReturn { s with player := { s.player with pos := pos } } arg).1,
      [.read arg, .returned arg])
  | .changeAudioTrack streamId =>
    let id := if streamId = -1 then s.player.audioStreamId else streamId
    ((syncargReturn { s with player := { s.player with audioStreamId := id } } arg).1,
      [.read arg, .returned arg])

/-- `avbox_dvdio_close`. -/
def close (s : State) : State :=
  if s.io.closed then s else { s with io := { s.io with closed := true, grabbed := false } }

/-- `avbox_player_control`, up to the first wait. -/
def takeMessage (s : State) (alloc sent : Bool) : Msg → State × List Act
  | .update => (if alloc then { s with control := .updating sent } else s, [])
  | .request arg r => takeRequest s arg alloc r
  | .timer id =>
    if s.player.stillFrameTimerId = some id then
      returnWaiter { s with player := s.player.noStill }
    else (s, [])
  | .posted .videoOutReady => ({ s with control := .starting }, [])
  | .posted .stop => (close s, [])
  | .posted .drop => clearStillFrame { s with audio := 0, frames := 0 }
  | .posted (.pausing paused) => ({ s with paused := paused }, [])
  | .posted .other => (s, [])

/-- One step of the control thread. -/
def stepControl (s : State) (e : ControlEvent) : Option (State × List Act) :=
  match s.control, e with
  | .idle, .take alloc sent =>
    match s.queue with
    | [] => none
    | m :: queue => some (takeMessage { s with queue := queue } alloc sent m)
  | .flushing arg, .flush done =>
    if done then
      if s.audio = 0 ∧ s.frames = 0 then
        let r := clearStillFrame { s with control := .idle }
        some ((syncargReturn r.1 arg).1, r.2 ++ [Act.returned arg])
      else none
    else some (s, [])
  | .presenting arg length, .present done timer =>
    if done then
      if s.frames = 0 then some (stillFrame { s with control := .idle } arg length timer) else none
    else some (s, [])
  | .starting, .play grabbed =>
    if s.stream.holds then none
    else
      -- the playback is paused until the buffers are full
      some ({ s with
        control := .idle
        io := { s.io with playing := true, buf := none, grabbed := grabbed }
        paused := true }, [])
  | _, _ => none

/-! ## The main thread -/

/-- `avbox_dvdio_control`, an INPUT message: the instance, whether UPDATE is sent, and whether the
    answer is AVBOX_DISPATCH_OK. -/
def handleKey (io : Inst) (key : Key) (inMenu : Bool) (menu : Menu) : Inst × Bool × Bool :=
  let menus (io : Inst) : Inst × Bool × Bool :=
    let (highlight, update) := processMenus io.highlight menu
    ({ io with highlight := highlight }, update, true)
  match key with
  | .context => menus { io with stillFrame := false }
  | .enter => menus (if inMenu then { io with stillFrame := false } else io)
  | .back => (if inMenu then { io with stillFrame := false } else io, false, false)
  | .arrowUp | .arrowDown | .arrowLeft | .arrowRight => menus io
  | .other => (io, false, false)

/-- One step of the main thread. -/
def stepMain (s : State) (e : MainEvent) : Option (State × List Act) :=
  match s.main, e with
  | .idle, .key key => if s.io.grabbed then some ({ s with main := .locking key }, []) else none
  | .idle, .delegate =>
    if s.control = .updating true then some ({ s with control := .idle }, []) else none
  | .idle, .frame => if s.delegated then some ({ s with delegated := false }, []) else none
  | .locking key, .input inMenu menu sent =>
    if s.stream.holds then none
    else
      let (io, update, ok) := handleKey s.io key inMenu menu
      some (State.sendctl { s with io := io, main := .idle } .update (update && sent),
        [.dispatched ok])
  | _, _ => none

/-! ## The pipeline -/

/-- In the loop of FLUSH or STILL_FRAME. -/
def ControlPc.drains : ControlPc → Bool
  | .flushing _ | .presenting _ _ => true
  | _ => false

/-- The video output sends a frame to the main thread, when the one before it was presented. -/
def sendFrame (s : State) (sent : Bool) : Option (State × List Act) :=
  if 0 < s.frames ∧ s.delegated = false then
    some ({ s with frames := s.frames - 1, delegated := sent }, [])
  else none

/-- One step of the pipeline.  While the playback is paused the audio stands still, and the video
    with the clock; a flush forces the frames that wait for the clock of the audio. -/
def stepOutput (s : State) : OutputEvent → Option (State × List Act)
  | .put audio frames =>
    if s.stream = .idle then
      some ({ s with audio := s.audio + audio, frames := s.frames + frames }, [])
    else none
  | .play =>
    if 0 < s.audio ∧ s.paused = false then some ({ s with audio := s.audio - 1 }, []) else none
  | .present sent => if s.paused then none else sendFrame s sent
  | .force sent => if s.control.drains then sendFrame s sent else none
  | .skip => if 0 < s.frames then some ({ s with frames := s.frames - 1 }, []) else none

/-! ## The system -/

def step (s : State) : Event → Option (State × List Act)
  | .stream e => stepStream s e
  | .control e => stepControl s e
  | .main e => stepMain s e
  | .output e => stepOutput s e
  | .fire id sent =>
    if id ∈ s.timers then
      some (State.sendctl { s with timers := s.timers.erase id } (.timer id) sent, [])
    else none
  | .post p =>
    if p = .videoOutReady ∧ s.ready = true then none
    else
      some ({ s with
        queue := s.queue ++ [Msg.posted p]
        ready := s.ready || p = .videoOutReady }, [])

end Mediabox.Dvdio
