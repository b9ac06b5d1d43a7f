import Mediabox.PlayerHalt

/-!
# Dropping the pipeline

`avbox_player_halt` waits until the audio decoder is at its checkpoint and then pauses the audio
stream; `avbox_player_drop` goes on to let the decoder go, as long as it was not flushed, and waits
for it again.  The decoder writes to the audio stream, where it waits on `queue_wake` when the queue
is full, and the output thread of the stream waits on `io_wake` when the stream is paused.

* A handler that comes to the loop over the audio decoder's checkpoint is cut into its steps there;
  every other handler, and what the handler does before and after, is one step of `Mediabox.Player`.
* `Hung` — the control thread waits for the decoder, the decoder for the output thread, and that one
  for the stream to be resumed, which only the control thread does.
* `seek_hangs_and_stop_asserts` — a seek can hang because the drop itself pauses the stream, and the
  assertion of `avbox_player_halt` fails when the stream of a provider is stopped while it is
  paused.
* Main result: `drop_ends` — neither happens in a run in which pauses are taken apart from each
  other and from the end of the stream, and the decoder finds room in the queue while the pipeline
  is dropped.
-/

set_option autoImplicit false

namespace Mediabox.PlayerDrop

open Transition Player

/-! ## Data -/

/-- Where `avbox_player_audio_decode` stands. -/
inductive DecoderPc where
  /-- decoding, or not running -/
  | busy
  /-- in `avbox_checkpoint_here` -/
  | checkpoint
  /-- in `avbox_audiostream_write` with `n` frames, on `queue_wake` -/
  | waiting (n : Nat)
  /-- the same, signalled but not yet running -/
  | woken (n : Nat)
  deriving DecidableEq, Repr

def DecoderPc.signal : DecoderPc → DecoderPc
  | .waiting n => .woken n
  | pc => pc

/-- Where `avbox_audiostream_output` stands. -/
inductive OutputPc where
  | running
  /-- `n` frames were written to the device, and are still counted in `queued_frames` -/
  | counting (n : Nat)
  /-- on `io_wake` -/
  | waiting
  /-- the same, signalled but not yet running -/
  | woken
  deriving DecidableEq, Repr

def OutputPc.signal : OutputPc → OutputPc
  | .waiting => .woken
  | pc => pc

/-- The frames that are counted, but in no packet any more. -/
def OutputPc.pending : OutputPc → Nat
  | .counting n => n
  | _ => 0

/-- Where the control thread stands in `avbox_player_drop`; `env` is what its handler finds. -/
inductive ControlPc where
  /-- not in `avbox_player_drop` -/
  | idle
  /-- in the loop of `avbox_player_halt` over the checkpoint of the audio decoder -/
  | halting (env : Env)
  /-- past `avbox_player_halt`, at the test of the loop that flushes the audio decoder -/
  | dropping (env : Env)
  /-- it has let the decoder go -/
  | yielding (env : Env)
  /-- it has halted the decoder again, and loops over its checkpoint -/
  | redoing (env : Env)
  deriving DecidableEq, Repr

/-- It loops until the audio decoder is at its checkpoint. -/
def ControlPc.loops : ControlPc → Bool
  | .halting _ | .redoing _ => true
  | .idle | .dropping _ | .yielding _ => false

/-- It is past `avbox_player_halt`. -/
def ControlPc.drops : ControlPc → Bool
  | .dropping _ | .yielding _ | .redoing _ => true
  | .idle | .halting _ => false

/-- The audio decoder is not to pass its checkpoint. -/
def ControlPc.halts : ControlPc → Bool
  | .halting _ | .dropping _ | .redoing _ => true
  | .idle | .yielding _ => false

/-- The player, the members `paused` and `queued_frames` of its audio stream, and where the three
    threads stand. -/
structure State where
  player : Player.State
  paused : Bool
  queuedFrames : Nat
  decoder : DecoderPc
  output : OutputPc
  control : ControlPc

def init : State where
  player := new
  paused := false
  queuedFrames := 0
  decoder := .busy
  output := .running
  control := .idle

inductive ControlEvent where
  /-- the handler comes to the loop over the checkpoint of the audio decoder -/
  | halt (env : Env)
  /-- `avbox_checkpoint_wait` returns, and the stream is paused -/
  | halted
  /-- `avbox_checkpoint_continue` in `avbox_player_drop` -/
  | letGo
  /-- `avbox_checkpoint_halt` after it -/
  | haltAgain
  /-- `avbox_checkpoint_wait` after it returns -/
  | held
  /-- the rest of the handler -/
  | finish
  deriving DecidableEq, Repr

inductive DecoderEvent where
  | reach
  | pass
  | write (n : Nat)
  | run
  deriving DecidableEq, Repr

inductive OutputEvent where
  | write (n : Nat)
  | count
  | sleep
  | run
  deriving DecidableEq, Repr

inductive Event where
  | player (e : Player.Event)
  | control (e : ControlEvent)
  | decoder (e : DecoderEvent)
  | output (e : OutputEvent)
  deriving DecidableEq, Repr

/-! ## The control thread -/

/-- The state in which the handling of the next message comes to the loop over the checkpoint of the
    audio decoder. -/
def comesToLoop (s : Player.State) (env : Env) : Option Player.State :=
  match s.mailbox with
  | [] => none
  | m :: ms =>
    match entersHalt { s with mailbox := ms } m env with
    | none => none
    | some t => if t.status ≠ .paused ∧ .audioDec ≤ t.playState then some t else none

/-- `avbox_checkpoint_wait` on the parser's checkpoint returns: it waits there, or has left. -/
def parserHalted : ParserPc → Bool
  | .checkpoint | .exiting | .returned => true
  | .idle | .delegated | .opening | .loop | .reading => false

/-- `avbox_checkpoint_wait` on the audio decoder's checkpoint returns: the decoder waits there, or
    the checkpoint is not enabled. -/
def State.decoderHalted (x : State) : Bool :=
  match x.decoder with
  | .checkpoint => true
  | .busy => x.player.audioDecoderWorker ≠ .running
  | .waiting _ | .woken _ => false

/-- `avbox_audiostream_pause` or `avbox_audiostream_resume`. -/
def State.setPaused (x : State) (paused : Bool) : State :=
  { x with paused := paused, output := if paused then x.output else x.output.signal }

/-- A handler has come to its end, with the player in `t`; the audio stream goes with the session.
    -/
def State.follow (x : State) (t : Player.State) : State :=
  if t.playState = .ready then { init with player := t, paused := t.audioPaused }
  else { x.setPaused t.audioPaused with player := t, control := .idle }

/-- `avbox_audiostream_drop`; its assertion that nothing is left in `queued_frames` is not here. -/
def State.dropFrames (x : State) : State :=
  { x with queuedFrames := x.output.pending, output := x.output.signal }

def stepControl (x : State) : ControlEvent → Option (State × Result)
  | .halt env =>
    if x.control = .idle ∧ parserHalted x.player.streamInputWorker then
      (comesToLoop x.player env).map fun t =>
        ({ x.setPaused t.audioPaused with control := .halting env }, .done)
    else none
  | .halted =>
    match x.control with
    | .halting env =>
      if x.decoderHalted then some ({ x.setPaused true with control := .dropping env }, .done)
      else none
    | _ => none
  | .letGo =>
    match x.control with
    | .dropping env =>
      if x.player.audioDecoderFlushed then none
      else some ({ x with control := .yielding env }, .done)
    | _ => none
  | .haltAgain =>
    match x.control with
    | .yielding env => some ({ x with control := .redoing env }, .done)
    | _ => none
  | .held =>
    match x.control with
    | .redoing env =>
      if x.decoderHalted then some ({ x with control := .dropping env }, .done) else none
    | _ => none
  | .finish =>
    match x.control with
    | .dropping env =>
      if x.player.audioDecoderFlushed then
        (Player.step x.player (.control env)).map fun r => (x.dropFrames.follow r.1, r.2)
      else none
    | _ => none

/-- Steps of the player that are possible: while the control thread is in `avbox_player_drop` it
    takes no other message and the parser is halted, and a decoder reports only between two frames.
    -/
def State.moves (x : State) : Player.Event → Bool
  | .control env => x.control = .idle && (comesToLoop x.player env).isNone
  | .parser _ => x.control = .idle || x.player.streamInputWorker = .exiting
  | .worker .audioDecoder _ => x.decoder = .busy
  | _ => true

def stepPlayer (x : State) (e : Player.Event) : Option (State × Result) :=
  if x.moves e then
    (Player.step x.player e).map fun r =>
      (if x.control = .idle then x.follow r.1 else { x with player := r.1 }, r.2)
  else none

/-! ## The audio threads -/

section Audio

variable (maxFrames : Nat)

/-- `avbox_audiostream_write`: with the queue full the decoder waits, and does so again as long as
    the queue is full when it wakes up. -/
def State.write (x : State) (n : Nat) : State :=
  if x.queuedFrames > maxFrames then { x with decoder := .waiting n }
  else { x with queuedFrames := x.queuedFrames + n, decoder := .busy }

def stepDecoder (x : State) (e : DecoderEvent) : Option State :=
  match x.decoder, e with
  | .busy, .reach =>
    if x.player.audioDecoderWorker = .running then some { x with decoder := .checkpoint } else none
  | .busy, .write n =>
    if x.player.audioDecoderWorker = .running ∧ n ≠ 0 then some (x.write maxFrames n) else none
  | .checkpoint, .pass =>
    if x.control.halts ∨ x.player.audioDecoderCheckpoint ≠ 0 then none
    else some { x with decoder := .busy }
  | .woken n, .run => some (x.write maxFrames n)
  | _, _ => none

/-- One stretch of `avbox_audiostream_output`, whose thread `VIDEODEC_READY` starts. -/
def stepOutput (x : State) (e : OutputEvent) : Option State :=
  if .audioOut ≤ x.player.playState then
    match x.output, e with
    | .running, .write n =>
      if x.paused = false ∧ n ≤ x.queuedFrames then some { x with output := .counting n } else none
    | .running, .sleep =>
      if x.paused = true ∧ 0 < x.queuedFrames then some { x with output := .waiting } else none
    | .counting n, .count =>
      some { x with
        queuedFrames := x.queuedFrames - n
        decoder := x.decoder.signal
        output := .running }
    | .woken, .run => some { x with output := .running }
    | _, _ => none
  else none

/-- One step. -/
def step (x : State) : Event → Option (State × Result)
  | .player e => stepPlayer x e
  | .control e => stepControl x e
  | .decoder e => (stepDecoder maxFrames x e).map (·, .done)
  | .output e => (stepOutput x e).map (·, .done)

/-! ## The property -/

/-- The assertion of `avbox_player_halt` holds whatever the next message brings. -/
def Asserted (x : State) : Prop :=
  ∀ m ms env t, x.control = .idle → x.player.mailbox = m :: ms →
    entersHalt { x.player with mailbox := ms } m env = some t → t.status ≠ .paused

/-- The control thread loops over the checkpoint of the decoder, which waits for room in the queue,
    which the output thread does not make because the stream is paused. -/
def Hung (x : State) : Prop :=
  x.control.loops = true ∧ (∃ n, x.decoder = .waiting n) ∧ maxFrames < x.queuedFrames ∧
    x.output = .waiting ∧ x.paused = true

/-- The condition on the rest of a handler. -/
def EndsInOrder (s : Player.State) : ControlPc → Prop
  | .dropping env => InOrder s (.control env)
  | _ => True

instance (s : Player.State) : ∀ pc, Decidable (EndsInOrder s pc)
  | .dropping env => inferInstanceAs (Decidable (InOrder s (.control env)))
  | .idle | .halting _ | .yielding _ | .redoing _ => inferInstanceAs (Decidable True)

/-- The condition on a step: the player keeps pauses apart, and while the pipeline is dropped the
    decoder finds room in the queue. -/
def Orderly (x : State) : Event → Prop
  | .player e => InOrder x.player e
  | .control (.halt env) => InOrder x.player (.control env)
  | .control .finish => EndsInOrder x.player x.control
  | .decoder (.write _) => x.control.drops = true → x.queuedFrames ≤ maxFrames
  | _ => True

instance (x : State) : ∀ e, Decidable (Orderly maxFrames x e)
  | .player e => inferInstanceAs (Decidable (InOrder x.player e))
  | .control (.halt env) => inferInstanceAs (Decidable (InOrder x.player (.control env)))
  | .control .finish => inferInstanceAs (Decidable (EndsInOrder x.player x.control))
  | .decoder (.write _) => inferInstanceAs (Decidable (_ → _))
  | .control .halted | .control .letGo | .control .haltAgain | .control .held
  | .decoder .reach | .decoder .pass | .decoder .run | .output _ =>
    inferInstanceAs (Decidable True)

end Audio

/-! ## The invariant -/

/-- The decoder is not in `avbox_audiostream_write`. -/
def DecoderPc.outside : DecoderPc → Bool
  | .busy | .checkpoint => true
  | .waiting _ | .woken _ => false

/-- The stream runs while the decoder is waited for in `avbox_player_halt`, and the decoder does not
    wait for room in the queue after that. -/
structure Inv (x : State) : Prop where
  sound : Sound x.player
  halting : x.control.loops = true → x.control.drops = false → x.paused = false
  dropping : x.control.drops = true → x.decoder.outside = true

theorem init_inv : Inv init := ⟨new_sound, nofun, nofun⟩

variable {maxFrames : Nat} {x y : State} {r : Result}

theorem DecoderPc.signal_outside {pc : DecoderPc} (h : pc.outside = true) : pc.signal = pc := by
  cases pc with
  | waiting n => cases h
  | _ => rfl

theorem outside_of_halted (h : x.decoderHalted = true) : x.decoder.outside = true := by
  unfold State.decoderHalted at h
  cases hpc : x.decoder with
  | waiting n | woken n => simp [hpc] at h
  | busy | checkpoint => rfl

theorem Inv.of_idle (hsound : Sound x.player) (hidle : x.control = .idle) : Inv x where
  sound := hsound
  halting := by
    rw [hidle]
    nofun
  dropping := by
    rw [hidle]
    nofun

theorem follow_inv {t : Player.State} (h : Sound t) : Inv (x.follow t) := by
  unfold State.follow
  split <;> exact Inv.of_idle h rfl

/-! ## The steps -/

theorem comesToLoop_eq {s t : Player.State} {env : Env} (h : comesToLoop s env = some t) :
    ∃ m ms, s.mailbox = m :: ms ∧ entersHalt { s with mailbox := ms } m env = some t ∧
      .audioDec ≤ t.playState := by
  unfold comesToLoop at h
  split at h
  · cases h
  · rename_i m ms hms
    split at h
    · cases h
    · rename_i u hu
      split at h
      · rename_i hloop
        cases h
        exact ⟨m, ms, hms, hu, hloop.2⟩
      · cases h

theorem stepPlayer_inv {e : Player.Event} (h : Inv x) (hok : InOrder x.player e)
    (hstep : stepPlayer x e = some (y, r)) : Inv y := by
  unfold stepPlayer at hstep
  split at hstep
  · obtain ⟨⟨t, r'⟩, ht, heq⟩ := Option.map_eq_some_iff.mp hstep
    cases heq
    have hsound := step_sound h.sound hok ht
    split
    · exact follow_inv hsound
    · exact ⟨hsound, h.halting, h.dropping⟩
  · cases hstep

theorem stepControl_inv {e : ControlEvent} (h : Inv x) (hok : Orderly maxFrames x (.control e))
    (hstep : stepControl x e = some (y, r)) : Inv y := by
  cases e with
  | halt env =>
    simp only [stepControl] at hstep
    split at hstep
    · obtain ⟨t, ht, heq⟩ := Option.map_eq_some_iff.mp hstep
      cases heq
      obtain ⟨m, ms, hms, hent, hplay⟩ := comesToLoop_eq ht
      have hhead : OnHead (Apart x.player · env) x.player.mailbox := hok
      rw [hms] at hhead
      exact ⟨h.sound, fun _ _ => entersHalt_audio h.sound hms hhead.1 hent hplay, nofun⟩
    · cases hstep
  | halted | held =>
    simp only [stepControl] at hstep
    split at hstep
    · split at hstep
      · rename_i hhalted
        cases hstep
        exact ⟨h.sound, nofun, fun _ => outside_of_halted hhalted⟩
      · cases hstep
    · cases hstep
  | letGo =>
    simp only [stepControl] at hstep
    split at hstep
    · rename_i hcontrol
      split at hstep
      · cases hstep
      · cases hstep
        exact ⟨h.sound, nofun, fun _ => h.dropping (by rw [hcontrol]; rfl)⟩
    · cases hstep
  | haltAgain =>
    simp only [stepControl] at hstep
    split at hstep
    · rename_i hcontrol
      cases hstep
      exact ⟨h.sound, fun _ => nofun, fun _ => h.dropping (by rw [hcontrol]; rfl)⟩
    · cases hstep
  | finish =>
    simp only [stepControl] at hstep
    split at hstep
    · rename_i env hcontrol
      split at hstep
      · obtain ⟨⟨t, r'⟩, ht, heq⟩ := Option.map_eq_some_iff.mp hstep
        cases heq
        have hend : EndsInOrder x.player x.control := hok
        rw [hcontrol] at hend
        have hend : InOrder x.player (.control env) := hend
        exact follow_inv (step_sound h.sound hend ht)
      · cases hstep
    · cases hstep

/-- A write that finds room in the queue, if the pipeline is being dropped. -/
theorem write_inv {n : Nat} (h : Inv x)
    (hroom : x.control.drops = true → x.queuedFrames ≤ maxFrames) : Inv (x.write maxFrames n) := by
  unfold State.write
  split
  · rename_i hfull
    refine ⟨h.sound, h.halting, fun hdrops => ?_⟩
    have hle := hroom hdrops
    omega
  · exact ⟨h.sound, h.halting, fun _ => rfl⟩

theorem stepDecoder_inv {e : DecoderEvent} (h : Inv x) (hok : Orderly maxFrames x (.decoder e))
    (hstep : stepDecoder maxFrames x e = some y) : Inv y := by
  unfold stepDecoder at hstep
  split at hstep
  · split at hstep
    · cases hstep
      exact ⟨h.sound, h.halting, fun _ => rfl⟩
    · cases hstep
  · split at hstep
    · cases hstep
      exact write_inv h hok
    · cases hstep
  · split at hstep
    · cases hstep
    · cases hstep
      exact ⟨h.sound, h.halting, fun _ => rfl⟩
  · -- a decoder that has waited did so before the drop
    rename_i hwoken
    cases hstep
    refine write_inv h fun hdrops => ?_
    have hout := h.dropping hdrops
    rw [hwoken] at hout
    cases hout
  · cases hstep

theorem stepOutput_inv {e : OutputEvent} (h : Inv x) (hstep : stepOutput x e = some y) :
    Inv y := by
  unfold stepOutput at hstep
  split at hstep
  · split at hstep
    · split at hstep
      · cases hstep
        exact { h with }
      · cases hstep
    · split at hstep
      · cases hstep
        exact { h with }
      · cases hstep
    · cases hstep
      refine ⟨h.sound, h.halting, fun hdrops => ?_⟩
      have hout := h.dropping hdrops
      show x.decoder.signal.outside = true
      rw [DecoderPc.signal_outside hout]
      exact hout
    · cases hstep
      exact { h with }
    · cases hstep
  · cases hstep

theorem step_inv {e : Event} (h : Inv x) (hok : Orderly maxFrames x e)
    (hstep : step maxFrames x e = some (y, r)) : Inv y := by
  cases e with
  | player e => exact stepPlayer_inv h hok hstep
  | control e => exact stepControl_inv h hok hstep
  | decoder e =>
    obtain ⟨z, hz, heq⟩ := Option.map_eq_some_iff.mp hstep
    cases heq
    exact stepDecoder_inv h hok hz
  | output e =>
    obtain ⟨z, hz, heq⟩ := Option.map_eq_some_iff.mp hstep
    cases heq
    exact stepOutput_inv h hz

/-! ## The result -/

theorem Inv.asserted (h : Inv x) : Asserted x :=
  fun _ _ _ _ _ hms hent => entersHalt_running h.sound hms hent

theorem Inv.not_hung (h : Inv x) : ¬Hung maxFrames x := by
  rintro ⟨hloops, ⟨n, hwaiting⟩, _, _, hpaused⟩
  cases hdrops : x.control.drops with
  | true =>
    have hout := h.dropping hdrops
    rw [hwaiting] at hout
    cases hout
  | false => exact absurd (hpaused.symm.trans (h.halting hloops hdrops)) (by simp)

/-- **A halt ends**: in every run in which pauses are taken apart from each other and from the end
    of the stream, and in which the decoder finds room in the queue while the pipeline is dropped,
    the assertion of `avbox_player_halt` holds and the three threads never wait for each other. -/
theorem drop_ends {tr : List (Event × Result)}
    (h : Run (Guarded (step maxFrames) (Orderly maxFrames)) init tr x) :
    Asserted x ∧ ¬Hung maxFrames x := by
  have hinv : Inv x := Run.invariant init_inv (fun _ _ _ hx hg => step_inv hx hg.1 hg.2) h
  exact ⟨hinv.asserted, hinv.not_hung⟩

/-- The start of a file, up to the end of the buffering; the decoder has taken a packet. -/
def playing (start : Player.Event) (env : Env) : List Event :=
  List.map Event.player (start :: .control env :: (startup ['a']).drop 2 ++
    [Event.post (.timer 2), .control (fullEnv 3), .worker .audioDecoder .decodes])

/-- A seek up to the loop that waits for the decoder while it is flushed. -/
def seeking : List Event :=
  [.player (.parser .next), .decoder .reach, .player (.post (.seek seekAbsolute 60000000)),
    .control (.halt (fullEnv 4)), .control .halted, .control .letGo, .decoder .pass,
    .control .haltAgain, .decoder (.write 1024)]

/-- The decoder finds room for its last frames: the hypotheses of `drop_ends` can be met. -/
theorem drop_ends_with_room : ∃ tr x,
    Run (Guarded (step 16000) (Orderly 16000)) init tr x ∧ x.control.loops = true ∧
      x.paused = true ∧ ¬Hung 16000 x := by
  obtain ⟨tr, x, hrun, hloops, hpaused⟩ := exists_run_of_guarded_exec (step 16000) (Orderly 16000)
    init (fun _ x => x.control.loops = true ∧ x.paused = true)
    (playing (.play (some ['a'])) (fullEnv 0) ++ [Event.decoder (.write 1024)] ++ seeking)
    (by decide +kernel)
  exact ⟨tr, x, hrun, hloops, hpaused, (drop_ends hrun).2⟩

/-- A stream of a provider is paused and stopped, and ends. -/
def stopPaused : List Event :=
  List.map Event.player [.post .pause, .control (fullEnv 4), .post .stop, .control (fullEnv 5),
    .parser .next, .parser .next, .parser .fails, .parser .next]

/-- **A seek hangs**: the queue is full when the stream is paused, so that the decoder, let go to be
    flushed, waits for room in it that nobody makes.  **A stop asserts**: a provider's stream that
    is stopped while it is paused comes to `avbox_player_halt` paused. -/
theorem seek_hangs_and_stop_asserts :
    (∃ tr x, Run (Step (step 16000)) init tr x ∧ Hung 16000 x) ∧
      ∃ tr x, Run (Step (step 16000)) init tr x ∧ ¬Asserted x := by
  constructor
  · have hrun : Run (Step (step 16000)) init _ _ := run_of_exec
      (playing (.play (some ['a'])) (fullEnv 0) ++ List.replicate 16 (.decoder (.write 1024)) ++
        seeking ++ [Event.output .sleep]) rfl
    exact ⟨_, _, hrun, rfl, ⟨_, rfl⟩, by decide, rfl, rfl⟩
  · have hrun : Run (Step (step 16000)) init _ _ := run_of_exec
      (playing (.play (some ['d', 'v', 'd', ':']))
        { fullEnv 0 with provider := some ⟨true, false⟩ } ++ stopPaused) rfl
    exact ⟨_, _, hrun, fun h => h .streamExit [] (fullEnv 6) _ rfl rfl rfl rfl⟩

end Mediabox.PlayerDrop
