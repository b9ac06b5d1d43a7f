import Mathlib.Logic.Function.Basic
import Mediabox.Checkpoint
import Mediabox.LinkedList

/-!
# The video frames of the player (`src/lib/ui/player.c`)

A decoded frame goes from the frame pool through `video_frames_q` to the video output, from there to
the main thread that shows it, and back to the pool when the next one is shown.

* Threads: `avbox_player_video_decode` where it touches frames, `avbox_player_video`, the main
  thread with its delegates, and the control thread, which drops frames or takes their time away
  once `avbox_checkpoint_wait` on `video_output_checkpoint` has returned 1.  The checkpoint is that
  of `Mediabox.Checkpoint`, with its single accesses.
* What libav, the clock, `malloc` and the sending of messages answer comes with the event; the other
  user of the pool, the audio decoder, takes and gives back frames at any time.
* `image` is what a frame shows; its type is a parameter.
* `delegate_waitable` is that there is an update which was not waited for, and the control thread
  takes the packet that it has peeked, since the process ends in `abort()` otherwise.
* `Sees` — a wait does not take an output that leaves the checkpoint for a halted one; `Halting` —
  what the control thread then knows of it.
* `Move` — what a step can do.
-/

set_option autoImplicit false

namespace Mediabox.PlayerFrames

open Transition

universe u

abbrev Addr := Nat

/-- The type of a `struct avbox_player_packet`, and its union. -/
inductive Content where
  | video (frame : Addr)
  | setClock (value : Option Int)
  deriving DecidableEq, Repr

/-- Where `avbox_player_video_decode` stands. -/
inductive DecoderPc where
  /-- not at the filter graph -/
  | away
  /-- before `acquire_av_frame` -/
  | pulling
  /-- before `av_buffersink_get_frame` -/
  | sink (frame : Addr)
  /-- before `acquire_packet`, for the clock -/
  | clocking (frame : Addr)
  | puttingClock (frame packet : Addr) (value : Option Int)
  /-- before `acquire_packet`, for the frame -/
  | packing (frame : Addr)
  | putting (frame packet : Addr)
  /-- at `decoder_exit` -/
  | exiting
  /-- the queue is closed -/
  | exited
  deriving DecidableEq, Repr

/-- Where `avbox_player_video` stands. -/
inductive OutputPc where
  /-- before `avbox_checkpoint_enable` -/
  | starting
  /-- before or in `avbox_checkpoint_here` -/
  | loop
  /-- before `avbox_queue_timedpeek` -/
  | peeking
  | clock (packet : Addr) (value : Option Int)
  /-- waits for `avbox_player_createwindow` -/
  | creating (packet frame : Addr)
  | timing (packet frame : Addr)
  /-- waits for the update before -/
  | waiting (packet frame : Addr)
  | sending (packet frame : Addr)
  /-- at `next_frame` -/
  | next (packet : Addr)
  /-- at `video_exit`, before `avbox_checkpoint_disable` -/
  | exiting
  | draining
  /-- waits for the last update -/
  | closing
  /-- waits for `avbox_player_destroywindow` -/
  | window
  /-- before the last frame is released -/
  | last
  | returned
  /-- `abort()`, since another packet was dequeued -/
  | aborted
  deriving DecidableEq, Repr

/-- The recyclable delegate. -/
inductive Update where
  | idle
  | posted (frame : Addr)
  | finished
  deriving DecidableEq, Repr

structure State (α : Type u) where
  framePool : List Addr
  /-- what was allocated for it -/
  frames : List Addr
  packetPool : List Addr
  packets : List Addr
  image : Addr → Option α
  /-- the time stamp of a frame in microseconds, or `AV_NOPTS_VALUE` -/
  pts : Addr → Option Int
  /-- `video_frames_q`, the oldest packet first -/
  queue : List (Addr × Content)
  closed : Bool
  timeSet : Bool
  decoder : DecoderPc
  output : OutputPc
  update : Update
  scaled : Bool
  skipFrame : Nat
  lastLatency : Int
  /-- `video_window` is not `NULL` -/
  videoWindow : Bool
  lastVideoFrame : Option Addr
  /-- `video_output_checkpoint` -/
  checkpoint : Checkpoint.State
  /-- `avbox_checkpoint_wait` has returned 1 since the last halt or continue -/
  waited : Bool
  /-- the frames that the audio decoder has -/
  others : List Addr

def init {α : Type u} : State α where
  framePool := []
  frames := []
  packetPool := []
  packets := []
  image := fun _ => none
  pts := fun _ => none
  queue := []
  closed := false
  timeSet := false
  decoder := .away
  output := .starting
  update := .idle
  scaled := false
  skipFrame := 0
  lastLatency := 0
  videoWindow := false
  lastVideoFrame := none
  checkpoint := Checkpoint.init
  waited := false
  others := []

/-- What `av_buffersink_get_frame` answers; after `EAGAIN` it is called again while the graph is
    flushed. -/
inductive Sink (α : Type u) where
  | frame (image : α) (pts : Option Int)
  | again (flushGraph : Bool)
  | eof
  | error
  deriving DecidableEq, Repr

inductive Event (α : Type u) where
  /-- the decoder comes to the filter graph -/
  | pull
  | acquireFrame (malloc : Option Addr)
  | sink (answer : Sink α)
  | acquirePacket (malloc : Option Addr)
  /-- `avbox_queue_put`, on a queue that may be full -/
  | put (full : Bool)
  /-- the decoder was flushed -/
  | flushed
  /-- the decoder goes to `decoder_exit` -/
  | exit
  | close
  /-- a step of the output or of the control thread at `video_output_checkpoint` -/
  | checkpoint (e : Checkpoint.Event)
  | peek
  | reset
  /-- the master clock, before and after the wait -/
  | time (now woke : Int)
  | waited
  | send (sent : Bool)
  | get
  | drain
  | join
  | releaseLast
  /-- the main thread runs `avbox_player_doupdate` -/
  | doupdate
  /-- the main thread runs `avbox_player_createwindow` or `avbox_player_destroywindow`; `false` when
      there is no window then, or it could not be destroyed -/
  | delegateWindow (success : Bool)
  /-- the control thread takes a packet -/
  | drop
  /-- the control thread takes the time stamp away -/
  | dump
  | takeFrame (malloc : Option Addr)
  | giveFrame (frame : Addr)
  deriving DecidableEq, Repr

inductive Outcome (α : Type u) where
  | done
  | acquired (frame : Addr) (allocated : Bool)
  | produced (image : α)
  | clocked (value : Option Int)
  | skipped
  | presented
  | shown (image : Option α)
  | lost (frame : Addr)
  deriving DecidableEq, Repr

variable {α : Type u}

/-! ## The pools -/

/-- `acquire_av_frame` or `acquire_packet`: what is taken, the pool then, and whether it was
    allocated. -/
def acquire (pool allocated : List Addr) (malloc : Option Addr) : Option (Addr × List Addr × Bool) :=
  match listTail pool, malloc with
  | some a, _ => some (a, listRemove pool a, false)
  | none, some a => if a ∈ allocated then none else some (a, pool, true)
  | none, none => none

/-- `release_av_frame` -/
def State.releaseFrame (s : State α) (frame : Addr) : State α :=
  { s with framePool := listAdd s.framePool frame }

/-- `release_packet` -/
def State.releasePacket (s : State α) (packet : Addr) : State α :=
  { s with packetPool := listAdd s.packetPool packet }

def State.acquired (s : State α) (frame : Addr) (pool : List Addr) (fresh : Bool) : State α :=
  { s with framePool := pool, frames := if fresh then frame :: s.frames else s.frames }

def State.acquiredPacket (s : State α) (packet : Addr) (pool : List Addr) (fresh : Bool) : State α :=
  { s with packetPool := pool, packets := if fresh then packet :: s.packets else s.packets }

/-! ## The threads -/

/-- Where a frame that was taken from the queue goes. -/
def State.releaseContent (s : State α) : Content → State α
  | .video frame => s.releaseFrame frame
  | .setClock _ => s

/-- `AVBOX_SKIP_FRAME_MAX` -/
def skipMax : Nat := 3

/-- The frame is late: it is skipped, unless too many were. -/
def late (s : State α) (packet frame : Addr) : State α × Outcome α :=
  if s.skipFrame + 1 ≤ skipMax then
    ({ s.releaseFrame frame with skipFrame := s.skipFrame + 1, output := .next packet }, .skipped)
  else ({ s with skipFrame := 0, output := .waiting packet frame }, .presented)

/-- A frame of which the latency is known. -/
def judge (s : State α) (packet frame : Addr) (latency : Int) : State α × Outcome α :=
  let s := { s with lastLatency := latency }
  if latency > 400 * 1000 then late s packet frame
  else ({ s with output := .waiting packet frame }, .presented)

/-- From the time stamp of the frame to the wait for the update before. -/
def timing (s : State α) (packet frame : Addr) (now woke : Int) : State α × Outcome α :=
  match s.pts frame with
  | none => ({ s with output := .waiting packet frame }, .presented)
  | some frameTime =>
    let delay := frameTime - now - min s.lastLatency 0
    let waits := now < frameTime ∧ delay > 5000
    if waits ∧ woke + 30 * 1000 < frameTime then ({ s with output := .loop }, .done)
    else judge s packet frame (max 0 ((if waits then woke else now) - frameTime))

def peek (s : State α) : State α :=
  match s.queue with
  | (packet, .setClock value) :: _ => { s with output := .clock packet value }
  | (packet, .video frame) :: _ =>
    { s with output := if s.scaled then .timing packet frame else .creating packet frame }
  | [] => { s with output := if s.closed then .exiting else .loop }

/-- `avbox_queue_get(inst->video_frames_q) != packet`, and `release_packet`. -/
def get (s : State α) (packet : Addr) : State α :=
  match s.queue with
  | (p, _) :: rest =>
    if p = packet then { s.releasePacket packet with queue := rest, output := .loop }
    else { s with queue := rest, output := .aborted }
  | [] => { s with output := .aborted }

/-- `avbox_player_doupdate` -/
def doupdate (s : State α) (frame : Addr) : State α × Outcome α :=
  if s.videoWindow then
    let t := match s.lastVideoFrame with
      | some last => s.releaseFrame last
      | none => s
    ({ t with lastVideoFrame := some frame, update := .finished }, .shown (s.image frame))
  else ({ s with update := .finished }, .lost frame)

/-- The decoder, where it is. -/
def stepDecoder (s : State α) : Event α → Option (State α × Outcome α)
  | .pull => if s.decoder = .away then some ({ s with decoder := .pulling }, .done) else none
  | .acquireFrame malloc =>
    match s.decoder, acquire s.framePool s.frames malloc with
    | .pulling, some (frame, pool, fresh) =>
      some ({ s.acquired frame pool fresh with decoder := .sink frame }, .acquired frame fresh)
    | _, _ => none
  | .sink answer =>
    match s.decoder, answer with
    | .sink frame, .frame image pts => some ({ s with
        image := Function.update s.image frame (some image)
        pts := Function.update s.pts frame pts
        decoder := if s.timeSet then .packing frame else .clocking frame }, .produced image)
    | .sink frame, .again flushGraph =>
      some ({ s.releaseFrame frame with decoder := if flushGraph then .pulling else .away }, .done)
    | .sink frame, .eof => some ({ s.releaseFrame frame with decoder := .away }, .done)
    | .sink frame, .error => some ({ s.releaseFrame frame with decoder := .exiting }, .done)
    | _, _ => none
  | .acquirePacket malloc =>
    match s.decoder, acquire s.packetPool s.packets malloc with
    | .clocking frame, some (packet, pool, fresh) => some ({ s.acquiredPacket packet pool fresh with
        timeSet := true
        decoder := .puttingClock frame packet (s.pts frame) }, .done)
    | .packing frame, some (packet, pool, fresh) =>
      some ({ s.acquiredPacket packet pool fresh with decoder := .putting frame packet }, .done)
    | .clocking frame, none | .packing frame, none =>
      if malloc = none then some ({ s.releaseFrame frame with decoder := .exiting }, .done) else none
    | _, _ => none
  | .put full =>
    match s.decoder with
    | .puttingClock frame packet value =>
      if s.closed then
        some ({ (s.releaseFrame frame).releasePacket packet with decoder := .exiting }, .done)
      else if full then some (s, .done)
      else some ({ s with queue := s.queue ++ [(packet, .setClock value)], decoder := .packing frame },
        .done)
    | .putting frame packet =>
      if s.closed then
        some ({ (s.releaseFrame frame).releasePacket packet with decoder := .exiting }, .done)
      else if full then some (s, .done)
      else some ({ s with queue := s.queue ++ [(packet, .video frame)], decoder := .pulling }, .done)
    | _ => none
  | .flushed => if s.decoder = .away then some ({ s with timeSet := false }, .done) else none
  | .exit => if s.decoder = .away then some ({ s with decoder := .exiting }, .done) else none
  | .close =>
    if s.decoder = .exiting then some ({ s with closed := true, decoder := .exited }, .done) else none
  | _ => none

/-- The video output, where it is. -/
def stepOutput (s : State α) : Event α → Option (State α × Outcome α)
  | .peek => if s.output = .peeking then some (peek s, .done) else none
  | .reset =>
    match s.output with
    | .clock packet value => some (get s packet, .clocked value)
    | _ => none
  | .time now woke =>
    match s.output with
    | .timing packet frame => some (timing s packet frame now woke)
    | _ => none
  | .waited =>
    match s.output, s.update with
    | .waiting _ _, .posted _ => none
    | .waiting packet frame, _ =>
      some ({ s with update := .idle, output := .sending packet frame }, .done)
    | _, _ => none
  | .send sent =>
    match s.output with
    | .sending packet frame =>
      if sent then some ({ s with update := .posted frame, output := .next packet }, .done)
      else some ({ s with output := .next packet }, .lost frame)
    | _ => none
  | .get =>
    match s.output with
    | .next packet => some (get s packet, .done)
    | _ => none
  | .drain =>
    match s.output, s.queue with
    | .draining, (packet, content) :: rest =>
      some ({ (s.releaseContent content).releasePacket packet with queue := rest }, .done)
    | .draining, [] => if s.closed then some ({ s with output := .closing }, .done) else none
    | _, _ => none
  | .join =>
    match s.output, s.update with
    | .closing, .posted _ => none
    | .closing, _ =>
      some ({ s with update := .idle, output := if s.videoWindow then .window else .last }, .done)
    | _, _ => none
  | .releaseLast =>
    if s.output = .last then
      match s.lastVideoFrame with
      | some frame =>
        some ({ s.releaseFrame frame with lastVideoFrame := none, output := .returned }, .done)
      | none => some ({ s with output := .returned }, .done)
    else none
  | _ => none

/-- The main thread, the control thread and the audio decoder. -/
def stepOthers (s : State α) : Event α → Option (State α × Outcome α)
  | .doupdate =>
    match s.update with
    | .posted frame => some (doupdate s frame)
    | _ => none
  | .delegateWindow success =>
    match s.output with
    | .creating packet frame => some ({ s with
        videoWindow := success
        scaled := true
        output := .timing packet frame }, .done)
    | .window => some ({ s with videoWindow := !success, output := .last }, .done)
    | _ => none
  | .drop =>
    match s.queue with
    | (packet, content) :: rest =>
      if s.waited = true then
        some ({ (s.releaseContent content).releasePacket packet with queue := rest }, .done)
      else none
    | [] => none
  | .dump =>
    match s.queue with
    | (_, .video frame) :: _ =>
      if s.waited = true then
        some ({ s with pts := Function.update s.pts frame none }, .done)
      else none
    | _ => none
  | .takeFrame malloc =>
    match acquire s.framePool s.frames malloc with
    | some (frame, pool, fresh) =>
      some ({ s.acquired frame pool fresh with others := frame :: s.others }, .acquired frame fresh)
    | none => none
  | .giveFrame frame =>
    if frame ∈ s.others then
      some ({ s.releaseFrame frame with others := s.others.erase frame }, .done)
    else none
  | _ => none

/-- Where the output is after a step at its checkpoint, which is `c` then. -/
def OutputPc.after (pc : OutputPc) (c : Checkpoint.State) : Checkpoint.Event → Option OutputPc
  | .enable => if pc = .starting then some .loop else none
  | .here | .worker =>
    if pc = .loop then some (if c.worker = .outside then .peeking else .loop) else none
  | .disable => if pc = .exiting then some .draining else none
  | .halt | .wait | .waitWake | .continue => some pc

/-- What the control thread knows from its last wait. -/
def knows (waited : Bool) (o : Checkpoint.Outcome) : Checkpoint.Event → Bool
  | .here | .worker | .enable | .disable => waited
  | .halt | .wait | .waitWake | .continue => o = .waited true

/-- A step at the checkpoint. -/
def stepCheckpoint (s : State α) : Event α → Option (State α × Outcome α)
  | .checkpoint e =>
    match Checkpoint.step s.checkpoint e with
    | none => none
    | some (c, o) => (s.output.after c e).map fun pc =>
        ({ s with checkpoint := c, waited := knows s.waited o e, output := pc }, .done)
  | _ => none

/-- A step is one of the decoder, of the video output, of another thread, or at the checkpoint. -/
def step (s : State α) (e : Event α) : Option (State α × Outcome α) :=
  ((stepDecoder s e <|> stepOutput s e) <|> stepOthers s e) <|> stepCheckpoint s e

/-! ## The checkpoint -/

/-- A wait does not look at an output that is about to leave. -/
def Sees (s : State α) : Event α → Prop
  | .checkpoint e => Checkpoint.NotLeaving s.checkpoint e
  | _ => True

instance (s : State α) : (e : Event α) → Decidable (Sees s e)
  | .checkpoint e => inferInstanceAs (Decidable (Checkpoint.NotLeaving s.checkpoint e))
  | .pull | .acquireFrame _ | .sink _ | .acquirePacket _ | .put _ | .flushed | .exit | .close
  | .peek | .reset | .time _ _ | .waited | .send _ | .get | .drain | .join | .releaseLast
  | .doupdate | .delegateWindow _ | .drop | .dump | .takeFrame _ | .giveFrame _ => isTrue trivial

/-- The output has peeked no packet, and peeks none before its next checkpoint. -/
def OutputPc.away : OutputPc → Bool
  | .starting | .loop | .draining | .closing | .window | .last | .returned => true
  | _ => false

/-- The output has its checkpoint enabled. -/
def OutputPc.enabled : OutputPc → Bool
  | .starting | .draining | .closing | .window | .last | .returned => false
  | _ => true

/-- The output halts where it loops; a control thread that has waited for it finds it away, and it
    does not come back before it is let go on. -/
structure Halting (s : State α) : Prop where
  checkpoint : Checkpoint.Inv s.checkpoint
  inside : s.checkpoint.worker ≠ .outside → s.output = .loop
  enabled : s.checkpoint.enabled = s.output.enabled
  held : s.waited = true ∨ s.checkpoint.waiting = true → 0 < s.checkpoint.count
  rests : s.waited = true → s.output.away = true ∧ s.checkpoint.worker ≠ .clear

/-! ## What a step can do -/

/-- The frame that the decoder has. -/
def DecoderPc.hand : DecoderPc → Option Addr
  | .sink frame | .clocking frame | .puttingClock frame _ _ | .packing frame | .putting frame _ =>
    some frame
  | .away | .pulling | .exiting | .exited => none

def Content.frames : Content → List Addr
  | .video frame => [frame]
  | .setClock _ => []

/-- What the output has peeked is at the head of the queue. -/
def Peeked (s : State α) : Prop :=
  match s.output with
  | .clock packet value => ∃ rest, s.queue = (packet, .setClock value) :: rest
  | .creating packet frame | .timing packet frame | .waiting packet frame | .sending packet frame =>
    ∃ rest, s.queue = (packet, .video frame) :: rest
  | .next packet => ∃ content rest, s.queue = (packet, content) :: rest
  | _ => True

/-- The pool and what was allocated, before and after a frame or packet is acquired. -/
def Acquires (pool allocated : List Addr) (a : Addr) (pool' allocated' : List Addr)
    (fresh : Bool) : Prop :=
  (fresh = false ∧ pool.Perm (a :: pool') ∧ allocated' = allocated) ∨
    (fresh = true ∧ pool' = pool ∧ a ∉ allocated ∧ allocated' = a :: allocated)

/-- The steps, by what they do to frames. -/
inductive Move (s : State α) : Outcome α → State α → Prop
  /-- the decoder goes on without a frame -/
  | decoder {pc : DecoderPc} {timeSet : Bool} : s.decoder = .away →
      pc = .away ∨ pc = .pulling ∨ pc = .exiting →
      Move s .done { s with decoder := pc, timeSet := timeSet }
  | acquireFrame {frame : Addr} {pool frames : List Addr} {fresh : Bool} : s.decoder = .pulling →
      Acquires s.framePool s.frames frame pool frames fresh → Move s (.acquired frame fresh)
        { s with framePool := pool, frames := frames, decoder := .sink frame }
  | produce {frame : Addr} {image : α} {pts : Option Int} : s.decoder = .sink frame →
      Move s (.produced image) { s with
        image := Function.update s.image frame (some image)
        pts := Function.update s.pts frame pts
        decoder := if s.timeSet then .packing frame else .clocking frame }
  /-- the decoder gives the frame back -/
  | discard {frame : Addr} {pc : DecoderPc} {packetPool : List Addr} :
      s.decoder.hand = some frame → pc = .away ∨ pc = .pulling ∨ pc = .exiting →
      Move s .done { s with
        framePool := frame :: s.framePool
        packetPool := packetPool
        decoder := pc }
  | clock {frame packet : Addr} {packetPool packets : List Addr} : s.decoder = .clocking frame →
      Move s .done { s with
        packetPool := packetPool
        packets := packets
        timeSet := true
        decoder := .puttingClock frame packet (s.pts frame) }
  | pack {frame packet : Addr} {packetPool packets : List Addr} : s.decoder = .packing frame →
      Move s .done { s with
        packetPool := packetPool
        packets := packets
        decoder := .putting frame packet }
  | stay : Move s .done s
  | putClock {frame packet : Addr} {value : Option Int} :
      s.decoder = .puttingClock frame packet value → s.closed = false →
      Move s .done { s with
        queue := s.queue ++ [(packet, .setClock value)]
        decoder := .packing frame }
  | putFrame {frame packet : Addr} : s.decoder = .putting frame packet → s.closed = false →
      Move s .done { s with
        queue := s.queue ++ [(packet, .video frame)]
        decoder := .pulling }
  | close : s.decoder = .exiting → Move s .done { s with closed := true, decoder := .exited }
  | checkpoint {e : Checkpoint.Event} {c : Checkpoint.State} {o : Checkpoint.Outcome}
      {pc : OutputPc} : Checkpoint.step s.checkpoint e = some (c, o) →
      s.output.after c e = some pc → Checkpoint.NotLeaving s.checkpoint e →
      Move s .done { s with checkpoint := c, waited := knows s.waited o e, output := pc }
  | peekClock {packet : Addr} {value : Option Int} {rest : List (Addr × Content)} :
      s.output = .peeking → s.queue = (packet, .setClock value) :: rest →
      Move s .done { s with output := .clock packet value }
  | peekFrame {packet frame : Addr} {rest : List (Addr × Content)} {pc : OutputPc} :
      s.output = .peeking → s.queue = (packet, .video frame) :: rest →
      pc = .timing packet frame ∨ pc = .creating packet frame →
      Move s .done { s with output := pc }
  | underrun : s.output = .peeking → Move s .done { s with output := .loop }
  | shutdown : s.output = .peeking → s.closed = true → Move s .done { s with output := .exiting }
  | reset {packet : Addr} {value : Option Int} {rest : List (Addr × Content)} :
      s.output = .clock packet value → s.queue = (packet, .setClock value) :: rest →
      Move s (.clocked value) { s with
        packetPool := packet :: s.packetPool
        queue := rest
        output := .loop }
  | create {packet frame : Addr} {window : Bool} : s.output = .creating packet frame →
      Move s .done { s with
        videoWindow := window
        scaled := true
        output := .timing packet frame }
  | early {packet frame : Addr} : s.output = .timing packet frame →
      Move s .done { s with output := .loop }
  | skip {packet frame : Addr} {latency : Int} : s.output = .timing packet frame →
      s.skipFrame + 1 ≤ skipMax → Move s .skipped { s with
        framePool := frame :: s.framePool
        lastLatency := latency
        skipFrame := s.skipFrame + 1
        output := .next packet }
  | present {packet frame : Addr} {latency : Int} {skipFrame : Nat} :
      s.output = .timing packet frame → skipFrame ≤ s.skipFrame → Move s .presented { s with
        lastLatency := latency
        skipFrame := skipFrame
        output := .waiting packet frame }
  | waited {packet frame : Addr} : s.output = .waiting packet frame →
      (∀ f, s.update ≠ .posted f) →
      Move s .done { s with update := .idle, output := .sending packet frame }
  | send {packet frame : Addr} : s.output = .sending packet frame →
      Move s .done { s with update := .posted frame, output := .next packet }
  | sendFails {packet frame : Addr} : s.output = .sending packet frame →
      Move s (.lost frame) { s with output := .next packet }
  | get {packet : Addr} {content : Content} {rest : List (Addr × Content)} :
      s.output = .next packet → s.queue = (packet, content) :: rest →
      Move s .done { s with
        packetPool := packet :: s.packetPool
        queue := rest
        output := .loop }
  /-- a packet is taken from the queue, by the control thread or at the end -/
  | drop {packet : Addr} {content : Content} {rest : List (Addr × Content)} :
      s.output.away = true → s.queue = (packet, content) :: rest →
      Move s .done { s with
        framePool := content.frames ++ s.framePool
        packetPool := packet :: s.packetPool
        queue := rest }
  | drained : s.output = .draining → s.queue = [] → Move s .done { s with output := .closing }
  | join {pc : OutputPc} : s.output = .closing → (∀ f, s.update ≠ .posted f) →
      pc = .window ∨ pc = .last → Move s .done { s with update := .idle, output := pc }
  | destroyWindow {window : Bool} : s.output = .window →
      Move s .done { s with videoWindow := window, output := .last }
  | releaseLast : s.output = .last → Move s .done { s with
      framePool := s.lastVideoFrame.toList ++ s.framePool
      lastVideoFrame := none
      output := .returned }
  | shows {frame : Addr} : s.update = .posted frame → s.videoWindow = true →
      Move s (.shown (s.image frame)) { s with
        framePool := s.lastVideoFrame.toList ++ s.framePool
        lastVideoFrame := some frame
        update := .finished }
  | showFails {frame : Addr} : s.update = .posted frame → s.videoWindow = false →
      Move s (.lost frame) { s with update := .finished }
  | dump {pts : Addr → Option Int} : Move s .done { s with pts := pts }
  | takeFrame {frame : Addr} {pool frames : List Addr} {fresh : Bool} :
      Acquires s.framePool s.frames frame pool frames fresh → Move s (.acquired frame fresh)
        { s with framePool := pool, frames := frames, others := frame :: s.others }
  | giveFrame {frame : Addr} : frame ∈ s.others → Move s .done { s with
      framePool := frame :: s.framePool
      others := s.others.erase frame }

variable {s t : State α} {e : Event α} {o : Outcome α}

theorem acquire_cases {pool allocated pool' : List Addr} {malloc : Option Addr} {a : Addr}
    {fresh : Bool} (h : acquire pool allocated malloc = some (a, pool', fresh)) :
    Acquires pool allocated a pool' (if fresh then a :: allocated else allocated) fresh := by
  unfold acquire at h
  split at h
  · rename_i b hb
    cases h
    obtain ⟨l, rfl⟩ := listTail_eq_some.mp hb
    exact .inl ⟨rfl, List.perm_cons_erase (by simp), rfl⟩
  · split at h
    · cases h
    · rename_i hnot
      cases h
      exact .inr ⟨rfl, rfl, hnot, rfl⟩
  · cases h

theorem stepDecoder_move (h : stepDecoder s e = some (t, o)) : Move s o t := by
  cases e with
  | pull =>
    simp only [stepDecoder] at h
    split at h
    · cases h
      exact .decoder ‹_› (.inr (.inl rfl))
    · cases h
  | acquireFrame malloc =>
    simp only [stepDecoder] at h
    split at h
    · rename_i hpc hacq
      cases h
      exact .acquireFrame hpc (acquire_cases hacq)
    · cases h
  | sink answer =>
    simp only [stepDecoder] at h
    split at h
    · cases h
      exact .produce ‹_›
    · rename_i frame flushGraph hpc
      cases h
      refine .discard (by rw [hpc]; rfl) ?_
      cases flushGraph with
      | true => exact .inr (.inl rfl)
      | false => exact .inl rfl
    · rename_i hpc
      cases h
      exact .discard (by rw [hpc]; rfl) (.inl rfl)
    · rename_i hpc
      cases h
      exact .discard (by rw [hpc]; rfl) (.inr (.inr rfl))
    · cases h
  | acquirePacket malloc =>
    simp only [stepDecoder] at h
    split at h
    · cases h
      exact .clock ‹_›
    · cases h
      exact .pack ‹_›
    · rename_i hpc _
      split at h
      · cases h
        exact .discard (by rw [hpc]; rfl) (.inr (.inr rfl))
      · cases h
    · rename_i hpc _
      split at h
      · cases h
        exact .discard (by rw [hpc]; rfl) (.inr (.inr rfl))
      · cases h
    · cases h
  | put full =>
    simp only [stepDecoder] at h
    split at h
    · rename_i hpc
      split at h
      · cases h
        exact .discard (by rw [hpc]; rfl) (.inr (.inr rfl))
      rename_i hopen
      split at h
      · cases h
        exact .stay
      · cases h
        exact .putClock hpc (Bool.eq_false_iff.mpr hopen)
    · rename_i hpc
      split at h
      · cases h
        exact .discard (by rw [hpc]; rfl) (.inr (.inr rfl))
      rename_i hopen
      split at h
      · cases h
        exact .stay
      · cases h
        exact .putFrame hpc (Bool.eq_false_iff.mpr hopen)
    · cases h
  | flushed =>
    simp only [stepDecoder] at h
    split at h
    · rename_i hpc
      cases h
      have hmove : Move s .done { s with decoder := .away, timeSet := false } :=
        .decoder hpc (.inl rfl)
      rwa [← hpc] at hmove
    · cases h
  | exit =>
    simp only [stepDecoder] at h
    split at h
    · cases h
      exact .decoder ‹_› (.inr (.inr rfl))
    · cases h
  | close =>
    simp only [stepDecoder] at h
    split at h
    · cases h
      exact .close ‹_›
    · cases h
  | _ => cases h

theorem get_move {packet : Addr} {content : Content} {rest : List (Addr × Content)}
    (hq : s.queue = (packet, content) :: rest) : get s packet = { s with
      packetPool := packet :: s.packetPool
      queue := rest
      output := .loop } := by
  simp only [get, hq, ↓reduceIte, State.releasePacket, listAdd]

theorem judge_move {packet frame : Addr} (hpc : s.output = .timing packet frame) (latency : Int) :
    Move s (judge s packet frame latency).2 (judge s packet frame latency).1 := by
  unfold judge
  dsimp only
  split
  · unfold late
    split
    · rename_i hskip
      exact .skip hpc hskip
    · exact .present hpc (Nat.zero_le _)
  · exact .present hpc (Nat.le_refl _)

theorem timing_move {packet frame : Addr} (now woke : Int)
    (hpc : s.output = .timing packet frame) :
    Move s (timing s packet frame now woke).2 (timing s packet frame now woke).1 := by
  unfold timing
  split
  · exact .present hpc (Nat.le_refl _)
  dsimp only
  split
  · exact .early hpc
  · exact judge_move hpc _

theorem stepOutput_move (hpeeked : Peeked s) (h : stepOutput s e = some (t, o)) : Move s o t := by
  cases e with
  | peek =>
    simp only [stepOutput] at h
    split at h
    · rename_i hpc
      cases h
      unfold peek
      split
      · rename_i hq
        exact .peekClock hpc hq
      · rename_i hq
        refine .peekFrame hpc hq ?_
        cases s.scaled with
        | true => exact .inl rfl
        | false => exact .inr rfl
      · split
        · exact .shutdown hpc ‹_›
        · exact .underrun hpc
    · cases h
  | reset =>
    simp only [stepOutput] at h
    split at h
    · rename_i hpc
      cases h
      simp only [Peeked, hpc] at hpeeked
      obtain ⟨rest, hq⟩ := hpeeked
      rw [get_move hq]
      exact .reset hpc hq
    · cases h
  | time now woke =>
    simp only [stepOutput] at h
    split at h
    · rename_i hpc
      have hmove := timing_move now woke hpc
      rw [Option.some.inj h] at hmove
      exact hmove
    · cases h
  | waited =>
    simp only [stepOutput] at h
    split at h
    · cases h
    · rename_i hpc hupdate
      cases h
      exact .waited hpc fun f hf => hupdate f hf
    · cases h
  | send sent =>
    simp only [stepOutput] at h
    split at h
    · rename_i hpc
      split at h
      · cases h
        exact .send hpc
      · cases h
        exact .sendFails hpc
    · cases h
  | get =>
    simp only [stepOutput] at h
    split at h
    · rename_i hpc
      cases h
      simp only [Peeked, hpc] at hpeeked
      obtain ⟨content, rest, hq⟩ := hpeeked
      rw [get_move hq]
      exact .get hpc hq
    · cases h
  | drain =>
    simp only [stepOutput] at h
    split at h
    · rename_i content rest hpc hq
      cases h
      cases content with
      | video frame | setClock value => exact .drop (by rw [hpc]; rfl) hq
    · rename_i hpc hq
      split at h
      · cases h
        exact .drained hpc hq
      · cases h
    · cases h
  | join =>
    simp only [stepOutput] at h
    split at h
    · cases h
    · rename_i hpc hupdate
      cases h
      refine .join hpc (fun f hf => hupdate f hf) ?_
      cases s.videoWindow with
      | true => exact .inl rfl
      | false => exact .inr rfl
    · cases h
  | releaseLast =>
    simp only [stepOutput] at h
    split at h
    · rename_i hpc
      have hmove := Move.releaseLast hpc
      split at h
      · rename_i hlast
        cases h
        rw [hlast] at hmove
        exact hmove
      · rename_i hlast
        cases h
        rw [hlast] at hmove
        cases s
        cases hlast
        exact hmove
    · cases h
  | _ => cases h

theorem stepOthers_move (haway : s.waited = true → s.output.away = true)
    (h : stepOthers s e = some (t, o)) : Move s o t := by
  cases e with
  | doupdate =>
    simp only [stepOthers] at h
    split at h
    · rename_i frame hupdate
      simp only [Option.some.injEq] at h
      unfold doupdate at h
      split at h
      · rename_i hwindow
        have hmove := Move.shows hupdate hwindow
        cases hlast : s.lastVideoFrame with
        | none | some last =>
          rw [hlast] at h hmove
          cases h
          exact hmove
      · rename_i hwindow
        cases h
        exact .showFails hupdate (Bool.eq_false_iff.mpr hwindow)
    · cases h
  | delegateWindow success =>
    simp only [stepOthers] at h
    split at h
    · cases h
      exact .create ‹_›
    · cases h
      exact .destroyWindow ‹_›
    · cases h
  | drop =>
    simp only [stepOthers] at h
    split at h
    · rename_i content rest hq
      split at h
      · rename_i hwaited
        cases h
        cases content with
        | video frame | setClock value => exact .drop (haway hwaited) hq
      · cases h
    · cases h
  | dump =>
    simp only [stepOthers] at h
    split at h
    · split at h
      · cases h
        exact .dump
      · cases h
    · cases h
  | takeFrame malloc =>
    simp only [stepOthers] at h
    split at h
    · rename_i hacq
      cases h
      exact .takeFrame (acquire_cases hacq)
    · cases h
  | giveFrame frame =>
    simp only [stepOthers] at h
    split at h
    · cases h
      exact .giveFrame ‹_›
    · cases h
  | _ => cases h

theorem stepCheckpoint_move (hsees : Sees s e) (h : stepCheckpoint s e = some (t, o)) :
    Move s o t := by
  cases e with
  | checkpoint ce =>
    simp only [stepCheckpoint] at h
    split at h
    · cases h
    · rename_i hcheck
      obtain ⟨pc, hpc, heq⟩ := Option.map_eq_some_iff.mp h
      cases heq
      exact .checkpoint hcheck hpc hsees
  | _ => cases h

theorem step_move (hpeeked : Peeked s) (hhalting : Halting s) (hsees : Sees s e)
    (h : step s e = some (t, o)) : Move s o t := by
  simp only [step, Option.orElse_eq_orElse, Option.orElse_eq_or, Option.or_eq_some_iff,
    Option.or_eq_none_iff] at h
  rcases h with ((hd | ⟨-, ho⟩) | ⟨-, hr⟩) | ⟨-, hc⟩
  · exact stepDecoder_move hd
  · exact stepOutput_move hpeeked ho
  · exact stepOthers_move (fun hwaited => (hhalting.rests hwaited).1) hr
  · exact stepCheckpoint_move hsees hc

/-! ## The output at its checkpoint -/

theorem OutputPc.after_cases {pc pc' : OutputPc} {c : Checkpoint.State} {e : Checkpoint.Event}
    (h : pc.after c e = some pc') : pc' = pc ∨ (pc = .starting ∧ pc' = .loop) ∨
      (pc = .loop ∧ pc' = .peeking) ∨ (pc = .exiting ∧ pc' = .draining) := by
  cases e with
  | enable =>
    simp only [OutputPc.after, Option.ite_none_right_eq_some, Option.some.injEq] at h
    exact .inr (.inl ⟨h.1, h.2.symm⟩)
  | disable =>
    simp only [OutputPc.after, Option.ite_none_right_eq_some, Option.some.injEq] at h
    exact .inr (.inr (.inr ⟨h.1, h.2.symm⟩))
  | here | worker =>
    simp only [OutputPc.after, Option.ite_none_right_eq_some, Option.some.injEq] at h
    obtain ⟨hloop, rfl⟩ := h
    split
    · exact .inr (.inr (.inl ⟨hloop, rfl⟩))
    · exact .inl hloop.symm
  | _ => exact .inl (Option.some.inj h).symm

theorem Halting.init : Halting (init : State α) :=
  ⟨Checkpoint.init_inv, fun h => absurd rfl h, rfl, fun h => by simp [PlayerFrames.init,
    Checkpoint.init] at h, fun h => by simp [PlayerFrames.init] at h⟩

/-- A step of an output that is not at its checkpoint. -/
theorem Halting.output (h : Halting s) (hcheckpoint : t.checkpoint = s.checkpoint)
    (hwaited : t.waited = s.waited) (hloop : s.output ≠ .loop)
    (henabled : t.output.enabled = s.output.enabled)
    (haway : s.output.away = true → t.output.away = true) : Halting t := by
  refine ⟨by rw [hcheckpoint]; exact h.checkpoint, fun hworker => ?_, ?_, fun hw => ?_, fun hw => ?_⟩
  · rw [hcheckpoint] at hworker
    exact absurd (h.inside hworker) hloop
  · rw [hcheckpoint, henabled]
    exact h.enabled
  · rw [hcheckpoint] at hw ⊢
    exact h.held (hwaited ▸ hw)
  · obtain ⟨hrests, hclear⟩ := h.rests (hwaited ▸ hw)
    rw [hcheckpoint]
    exact ⟨haway hrests, hclear⟩

/-- A wait that returns 1 has found the output away, if it was not leaving. -/
theorem Halting.away (h : Halting s) (hstate : s.checkpoint.onlyEnabled = false)
    (hleaving : ¬(s.checkpoint.worker = .clear ∧ s.checkpoint.halted = true)) :
    s.output.away = true ∧ s.checkpoint.worker ≠ .clear := by
  by_cases henabled : s.checkpoint.enabled = true
  · have hhalted : s.checkpoint.halted = true := by
      simpa [Checkpoint.State.onlyEnabled, henabled] using hstate
    rw [h.inside (h.checkpoint.halted hhalted)]
    exact ⟨rfl, fun hclear => hleaving ⟨hclear, hhalted⟩⟩
  · have houtput := h.enabled
    rw [Bool.eq_false_iff.mpr henabled] at houtput
    refine ⟨?_, fun hclear => ?_⟩
    · generalize s.output = pc at houtput
      cases pc with
      | starting | draining | closing | window | last | returned => rfl
      | _ => cases houtput
    · rw [h.inside (by rw [hclear]; decide)] at houtput
      cases houtput

theorem Halting.confirm (h : Halting s) {b : Bool} (hcount : 0 < s.checkpoint.count)
    (hstate : s.checkpoint.onlyEnabled = false)
    (hleaving : ¬(s.checkpoint.worker = .clear ∧ s.checkpoint.halted = true))
    (hinv : Checkpoint.Inv { s.checkpoint with waiting := b }.confirm) :
    Halting { s with checkpoint := { s.checkpoint with waiting := b }.confirm, waited := true } := by
  obtain ⟨l, hl⟩ := Checkpoint.confirm_eq { s.checkpoint with waiting := b }
  rw [hl] at hinv ⊢
  exact ⟨hinv, h.inside, h.enabled, fun _ => hcount, fun _ => h.away hstate hleaving⟩

/-- The output in `avbox_checkpoint_here`, where it stays while the count is not 0. -/
theorem Halting.looped (h : Halting s) {c : Checkpoint.State} (hloop : s.output = .loop)
    (hinv : Checkpoint.Inv c) (hcount : c.count = s.checkpoint.count)
    (henabled : c.enabled = s.checkpoint.enabled) (hwaiting : c.waiting = s.checkpoint.waiting)
    (hstays : 0 < s.checkpoint.count → s.checkpoint.worker ≠ .clear →
      c.worker ≠ .outside ∧ c.worker ≠ .clear) :
    Halting { s with
      checkpoint := c
      output := if c.worker = .outside then .peeking else .loop } := by
  refine ⟨hinv, fun hw => if_neg hw, ?_, fun hw => ?_, fun hw => ?_⟩
  · have hold := h.enabled
    rw [hloop, ← henabled] at hold
    refine hold.trans ?_
    dsimp only
    split
    · rfl
    · rfl
  · dsimp only at hw ⊢
    rw [hcount]
    exact h.held (hw.imp_right fun hwaits => hwaiting ▸ hwaits)
  · obtain ⟨houtside, hclear⟩ := hstays (h.held (.inl hw)) (h.rests hw).2
    exact ⟨by dsimp only; rw [if_neg houtside]; rfl, hclear⟩

/-- **The output stays where a wait has found it**: every step at the checkpoint that meets `Sees`
    keeps `Halting`. -/
theorem Halting.step {ce : Checkpoint.Event} {c : Checkpoint.State} {co : Checkpoint.Outcome}
    {pc : OutputPc} (h : Halting s) (hstep : Checkpoint.step s.checkpoint ce = some (c, co))
    (hpc : s.output.after c ce = some pc) (hsees : Checkpoint.NotLeaving s.checkpoint ce) :
    Halting { s with checkpoint := c, waited := knows s.waited co ce, output := pc } := by
  have hinv := Checkpoint.step_inv h.checkpoint hsees hstep
  have hleaving := hsees
  cases ce with
  | enable | disable =>
    simp only [OutputPc.after, Option.ite_none_right_eq_some, Option.some.injEq] at hpc
    simp only [Checkpoint.step, Option.ite_none_right_eq_some, Option.some.injEq] at hstep
    obtain ⟨hworker, heq⟩ := hstep
    obtain ⟨-, rfl⟩ := hpc
    cases heq
    exact ⟨hinv, fun hw => absurd hworker hw, rfl, h.held, fun _ => ⟨rfl, by simp [hworker]⟩⟩
  | here =>
    simp only [OutputPc.after, Option.ite_none_right_eq_some, Option.some.injEq] at hpc
    simp only [Checkpoint.step, Option.ite_none_right_eq_some, Option.some.injEq] at hstep
    obtain ⟨-, heq⟩ := hstep
    obtain ⟨hloop, rfl⟩ := hpc
    cases heq
    exact h.looped hloop hinv rfl rfl rfl fun hcount _ => by simp [hcount]
  | worker =>
    simp only [OutputPc.after, Option.ite_none_right_eq_some, Option.some.injEq] at hpc
    obtain ⟨c', hworker, heq⟩ := Option.map_eq_some_iff.mp hstep
    obtain ⟨hloop, rfl⟩ := hpc
    cases heq
    unfold Checkpoint.worker at hworker
    split at hworker <;> rename_i hwpc
    · cases hworker
    · cases hworker
      exact h.looped hloop hinv rfl rfl rfl fun hcount _ => by simp [hcount]
    · split at hworker <;> cases hworker
      · exact h.looped hloop hinv rfl rfl rfl fun _ _ => by simp
      · exact h.looped hloop hinv rfl rfl rfl fun _ _ => by simp
    · cases hworker
      exact h.looped hloop hinv rfl rfl rfl fun _ _ => by simp
    · cases hworker
      exact h.looped hloop hinv rfl rfl rfl fun _ hclear => absurd hwpc hclear
  | halt =>
    cases hpc
    simp only [Checkpoint.step, Option.ite_none_left_eq_some, Option.some.injEq] at hstep
    obtain ⟨-, heq⟩ := hstep
    cases heq
    exact ⟨hinv, h.inside, h.enabled, fun _ => Nat.succ_pos _, fun hw => by simp [knows] at hw⟩
  | wait =>
    cases hpc
    simp only [Checkpoint.step, Option.ite_none_left_eq_some] at hstep
    obtain ⟨hfree, hstep⟩ := hstep
    have hcount : 0 < s.checkpoint.count := by
      rw [h.checkpoint.count]
      exact List.length_pos_iff.mpr fun hnil => hfree (.inr hnil)
    split at hstep
    · cases hstep
      exact ⟨hinv, h.inside, h.enabled, fun _ => hcount, fun hw => by simp [knows] at hw⟩
    · rename_i hstate
      cases hstep
      exact h.confirm (b := s.checkpoint.waiting) hcount (Bool.eq_false_iff.mpr hstate)
        (hleaving (.inl rfl)) hinv
  | waitWake =>
    cases hpc
    simp only [Checkpoint.step, Option.ite_none_right_eq_some] at hstep
    obtain ⟨hwaiting, hstep⟩ := hstep
    have hcount := h.held (.inr hwaiting)
    split at hstep
    · cases hstep
      exact ⟨hinv, h.inside, h.enabled, fun _ => hcount, fun hw => by simp [knows] at hw⟩
    · rename_i hstate
      cases hstep
      exact h.confirm hcount (Bool.eq_false_iff.mpr hstate) (hleaving (.inr rfl)) hinv
  | «continue» =>
    cases hpc
    simp only [Checkpoint.step, Option.ite_none_left_eq_some, Option.some.injEq, not_or] at hstep
    obtain ⟨hfree, heq⟩ := hstep
    cases heq
    refine ⟨hinv, h.inside, h.enabled, fun hw => ?_, fun hw => by simp [knows] at hw⟩
    rcases hw with hw | hw
    · simp [knows] at hw
    · exact absurd hw hfree.1

theorem Halting.move (h : Halting s) (hmove : Move s o t) : Halting t := by
  cases hmove with
  | checkpoint hstep hpc hsees => exact h.step hstep hpc hsees
  | peekFrame hpc _ hnext | join hpc _ hnext =>
    rcases hnext with rfl | rfl
    · exact h.output rfl rfl (by simp [hpc]) (by simp [hpc, OutputPc.enabled])
        (by simp [hpc, OutputPc.away])
    · exact h.output rfl rfl (by simp [hpc]) (by simp [hpc, OutputPc.enabled])
        (by simp [hpc, OutputPc.away])
  | peekClock hpc _ | underrun hpc | shutdown hpc _ | reset hpc _ | create hpc | early hpc
  | skip hpc _ | present hpc _ | waited hpc _ | send hpc | sendFails hpc | get hpc _
  | drained hpc _ | destroyWindow hpc | releaseLast hpc =>
    exact h.output rfl rfl (by simp [hpc]) (by simp [hpc, OutputPc.enabled])
      (by simp [hpc, OutputPc.away])
  | stay => exact h
  | decoder _ _ | acquireFrame _ _ | produce _ | discard _ _ | clock _ | pack _ | putClock _ _
  | putFrame _ _ | close _ | drop _ _ | shows _ _ | showFails _ _ | dump | takeFrame _
  | giveFrame _ => exact { h with }

end Mediabox.PlayerFrames
