import Mediabox.PlayerLife

/-!
# Stream indices and queues of the player

The player uses the index -1 for "no such stream" and calls the packet and frame queues under tests
of the indices.  Indices and queues are set up by the stream parser, one after the other, while the
control thread handles messages.  This module refines `Mediabox.Player` where the two meet:

* `SetUp` / `setUp` — the part of `avbox_player_stream_parse` that `Player.parserOpens` takes in one
  step, here one call at a time; `setUp_opens` is the refinement.
* `Handler` — a message is taken, handled and released, with steps of the parser in between.
* `avbox_ffmpegutil_opencodeccontext` may look for the audio stream again.
* `IndexSound` — an index that is not -1 is a stream of the file and has its queues.
* `StreamsCreated` — the results of `av_find_best_stream` and `avbox_queue_new`, and the order of
  steps, with which the indices are sound.

Main result: `indices_sound`.  `no_video_stream` is a file with one audio stream.
-/

set_option autoImplicit false

namespace Mediabox.PlayerStreams

open Transition Outcome Player

/-! ## Model -/

/-- What `avbox_player_stream_parse` has done while the file is being opened. -/
inductive SetUp where
  | opening
  /-- `avformat_find_stream_info` has succeeded -/
  | found
  | audioStream
  | audioPacketsQ
  /-- `audio_stream_index` was assigned -/
  | audioFound
  /-- `video_stream_index` was assigned and is not negative -/
  | videoFound
  | videoPacketsQ
  /-- the queues that are needed were created -/
  | created
deriving DecidableEq, Repr

/-- The results of the calls. -/
inductive SetUpCall where
  | findStreamInfo (streams : List AVStream)
  | audiostreamNew (ok : Bool)
  | queueNew (ok : Bool)
  | findBestStream (index : Int)
  | done
deriving DecidableEq, Repr

/-- Where the control thread is in `avbox_player_control`. -/
inductive Handler where
  | idle
  | begun (m : Msg)
  | handled
deriving DecidableEq, Repr

/-- The player, with its queues: whether the pointers are not `NULL`. -/
structure State where
  player : Player.State
  setUp : SetUp
  handler : Handler
  audioPacketsQ : Bool
  videoPacketsQ : Bool
  videoFramesQ : Bool

def new : State := ⟨Player.new, .opening, .idle, false, false, false⟩

/-- `av_find_best_stream` returns the index of a stream or a negative code. -/
def bestStream (s : Player.State) (index : Int) : Prop :=
  0 ≤ index → ∃ streams, s.fmtCtx = some streams ∧ index < streams.length

instance (s : Player.State) (index : Int) : Decidable (bestStream s index) :=
  match h : s.fmtCtx with
  | none =>
    if hi : 0 ≤ index then .isFalse fun hb => by
      obtain ⟨_, hctx, _⟩ := hb hi
      rw [h] at hctx
      cases hctx
    else .isTrue fun hi' => absurd hi' hi
  | some streams =>
    if hi : 0 ≤ index → index < streams.length then .isTrue fun h0 => ⟨streams, h, hi h0⟩
    else .isFalse fun hb => hi fun h0 => by
      obtain ⟨_, hctx, hlt⟩ := hb h0
      rw [h] at hctx
      cases hctx
      exact hlt

/-- `audio_stream_index` after the search; an error code becomes -1. -/
def audioFound (p : Player.State) (index : Int) : Player.State :=
  { p with
    getmastertime := if 0 ≤ index then .audioTime else p.getmastertime
    audioStreamIndex := if 0 ≤ index then index else -1 }

/-- `video_stream_index` after the search; an error code stays. -/
def videoFound (p : Player.State) (index : Int) : Player.State :=
  { p with
    getmastertime :=
      if 0 ≤ index ∧ p.audioStreamIndex = -1 then .systemTime else p.getmastertime
    videoStreamIndex := index }

/-- The end of the set-up: without a stream the parser exits, else it reports that it is ready. -/
def setUpDone (p : Player.State) : Player.State :=
  if p.audioStreamIndex = -1 ∧ p.videoStreamIndex = -1 then decoderExit p
  else
    sendctl { p with
        streamParserCheckpoint := p.streamParserCheckpoint + 1
        streamInputWorker := .loop } .streamReady

/-- One call of the set-up, by the parser. -/
def setUp (s : State) : SetUpCall → Option State
  | .findStreamInfo streams =>
    if s.setUp = .opening then
      some { s with setUp := .found, player := { s.player with fmtCtx := some streams } }
    else none
  | .audiostreamNew ok =>
    if s.setUp = .found then
      some (if ok then
          { s with setUp := .audioStream, player := { s.player with audioPaused := false } }
        else { s with player := decoderExit s.player })
    else none
  | .queueNew ok =>
    match s.setUp with
    | .audioStream =>
      some (if ok then { s with setUp := .audioPacketsQ, audioPacketsQ := true }
        else { s with player := decoderExit s.player })
    | .videoFound =>
      some (if ok then { s with setUp := .videoPacketsQ, videoPacketsQ := true }
        else { s with player := decoderExit s.player })
    | .videoPacketsQ =>
      some (if ok then { s with setUp := .created, videoFramesQ := true }
        else { s with player := decoderExit s.player })
    | _ => none
  | .findBestStream index =>
    if bestStream s.player index then
      match s.setUp with
      | .audioPacketsQ => some { s with setUp := .audioFound, player := audioFound s.player index }
      | .audioFound =>
        some { s with
          setUp := if 0 ≤ index then .videoFound else .created
          player := videoFound s.player index }
      | _ => none
    else none
  | .done => if s.setUp = .created then some { s with player := setUpDone s.player } else none

/-- The queues after the handler of `m` has led to `p`: the end of a session destroys them. -/
def afterHandling (s : State) (m : Msg) (p : Player.State) : State :=
  if m = .streamExit ∧ p.playState = .ready then
    { s with
      player := p
      handler := .handled
      audioPacketsQ := false
      videoPacketsQ := if s.player.videoStreamIndex ≠ -1 then false else s.videoPacketsQ
      videoFramesQ := if s.player.videoStreamIndex ≠ -1 then false else s.videoFramesQ }
  else { s with player := p, handler := .handled }

inductive Event where
  /-- a step of `Mediabox.Player` that is not refined here -/
  | player (e : Player.Event)
  /-- the control thread takes a message -/
  | take
  /-- the message is handled -/
  | handle (env : Env)
  /-- the message is released -/
  | finish
  /-- the next call of the parser while it opens the file -/
  | setUp (call : SetUpCall)
  /-- the audio decoder opens its codec; what `av_find_best_stream` returns -/
  | openCodec (index : Int)
deriving DecidableEq, Repr

/-- The steps of `Mediabox.Player` that are refined here. -/
def refined (s : State) : Player.Event → Bool
  | .control _ => true
  | .parser (.opens _ _ _ _) => true
  | .parser (.openFails _) => s.setUp ≠ .opening
  | _ => false

/-- The `ASSERT`s on the queues at the start of `avbox_player_stream_parse`. -/
def startFails (s : State) : Player.Event → Bool
  | .parser (.start _) => s.audioPacketsQ || s.videoPacketsQ || s.videoFramesQ
  | _ => false

/-- The parser starts at the beginning. -/
def setUpAfter (s : State) : Player.Event → SetUp
  | .parser (.start _) => .opening
  | _ => s.setUp

/-- One step. -/
def step (s : State) : Event → Option (State × Result)
  | .player e =>
    if refined s e then none
    else if startFails s e then some (s, .fault .assert)
    else (Player.step s.player e).map fun r =>
      ({ s with player := r.1, setUp := setUpAfter s e }, r.2)
  | .take =>
    match s.handler, s.player.mailbox with
    | .idle, m :: ms =>
      some ({ s with handler := .begun m, player := { s.player with mailbox := ms } }, .done)
    | _, _ => none
  | .handle env =>
    match s.handler with
    | .begun m =>
      match control s.player m env with
      | .ok p => some (afterHandling s m p, .done)
      | .error f => some (s, .fault f)
    | _ => none
  | .finish => if s.handler = .handled then some ({ s with handler := .idle }, .done) else none
  | .setUp call =>
    if s.player.streamInputWorker = .opening then (setUp s call).map (·, .done) else none
  -- the decoder has peeked a packet before, so that there is a queue
  | .openCodec index =>
    if s.player.audioDecoderWorker = .running ∧ bestStream s.player index then
      if s.audioPacketsQ = false then some (s, .fault .null)
      else if s.player.audioStreamIndex = -1 then
        some ({ s with player := { s.player with audioStreamIndex := index } }, .done)
      else some (s, .done)
    else none

/-- The calls of the set-up, with the results of the two `avbox_queue_new` for the video. -/
def setUpCalls (streams : List AVStream) (audio video : Int) (packets frames : Bool) :
    List SetUpCall :=
  [SetUpCall.findStreamInfo streams, .audiostreamNew true, .queueNew true, .findBestStream audio,
    .findBestStream video] ++
    if 0 ≤ video then
      if packets then .queueNew true :: .queueNew frames :: if frames then [.done] else []
      else [.queueNew false]
    else [.done]

/-- **The refinement**: the calls of the set-up, one after the other, are the one step of
    `Mediabox.Player`. -/
theorem setUp_opens {s : State} {streams : List AVStream} {audio video : Int}
    {packets frames : Bool} (hpc : s.player.streamInputWorker = .opening)
    (hset : s.setUp = .opening) (hclock : s.player.getmastertime = .systemTime)
    (haudio : audio < streams.length) (hvideo : video < streams.length) :
    ∃ r, exec step s ((setUpCalls streams audio video packets frames).map .setUp) = some r ∧
      r.1.player = parserOpens s.player streams audio video (packets && frames) := by
  have hbest : ∀ (p : Player.State) (index : Int), p.fmtCtx = some streams →
      index < streams.length → bestStream p index := fun p index hctx hlt _ => ⟨streams, hctx, hlt⟩
  have hne : 0 ≤ audio → audio ≠ -1 := by omega
  have hne' : 0 ≤ video → video ≠ -1 := by omega
  obtain ⟨p, su, hd, aq, vq, fq⟩ := s
  cases hset
  have hclock' : p.getmastertime = .systemTime := hclock
  have hpc' : p.streamInputWorker = .opening := hpc
  by_cases ha : 0 ≤ audio <;> by_cases hv : 0 ≤ video <;> cases packets <;> cases frames <;>
    simp [setUpCalls, exec, step, setUp, parserOpens, audioFound, videoFound, setUpDone,
      decoderExit, hbest, haudio, hvideo, ha, hv, hne, hne', hclock', hpc']

/-! ## What is asked of the indices -/

/-- `video_stream_index` is a stream of the file. -/
def isStream (p : Player.State) : Prop :=
  0 ≤ p.videoStreamIndex ∧ bestStream p p.videoStreamIndex

/-- `video_stream_index` is a stream of the file, and its queues are there. -/
structure VideoSound (s : State) : Prop where
  packets : s.videoPacketsQ = true
  frames : s.videoFramesQ = true
  stream : isStream s.player

/-- The tests of the indices guard the queues. -/
structure IndexSound (s : State) : Prop where
  video : s.player.videoStreamIndex ≠ -1 → VideoSound s
  audio : 0 ≤ s.player.audioStreamIndex → s.audioPacketsQ = true

/-- The exit code of the parser or a handler of the control thread runs. -/
def Runs (s : State) : Prop :=
  s.player.streamInputWorker = .exiting ∨ s.handler ≠ .idle

/-- The parser has assigned `video_stream_index` and not created both queues. -/
def inWindow (s : State) : Bool :=
  s.player.streamInputWorker = .opening ∧ (s.setUp = .videoFound ∨ s.setUp = .videoPacketsQ)

/-- `CHANGE_AUDIO_TRACK` without a stream id finds a track. -/
def findsTrack (p : Player.State) : Bool :=
  (p.fmtCtx.bind fun streams =>
    (trackAfter p.audioStreamIndex streams 0 false).or (firstTrack streams 0)).isSome

/-- The search for the video stream gives an index or -1, both video queues are created, no message
    is handled between the two, and the audio track is changed only while its queue exists. -/
def StreamsCreated (s : State) : Event → Prop
  | .take => inWindow s = false
  | .handle _ =>
    s.handler = .begun (.changeAudioTrack none) → findsTrack s.player = true →
      s.audioPacketsQ = true
  | .setUp (.queueNew ok) => inWindow s = true → ok = true
  | .setUp (.findBestStream index) =>
    s.setUp = .audioFound → index = -1 ∨ 0 ≤ index ∧ s.handler = .idle
  | _ => True

instance (s : State) : ∀ e, Decidable (StreamsCreated s e)
  | .take => inferInstanceAs (Decidable (_ = _))
  | .handle _ => inferInstanceAs (Decidable (_ → _ → _))
  | .setUp (.queueNew _) => inferInstanceAs (Decidable (_ → _))
  | .setUp (.findBestStream _) => inferInstanceAs (Decidable (_ → _ ∨ _ ∧ _))
  | .setUp (.findStreamInfo _) | .setUp (.audiostreamNew _) | .setUp .done | .player _ | .finish
  | .openCodec _ => .isTrue trivial


/-! ## The handlers -/

/-- A handler that leaves the streams as they are; it may start the parser. -/
structure SameStreams (s t : Player.State) : Prop where
  video : t.videoStreamIndex = s.videoStreamIndex
  audio : t.audioStreamIndex = s.audioStreamIndex
  fmtCtx : t.fmtCtx = s.fmtCtx
  worker : t.streamInputWorker = s.streamInputWorker ∨ t.streamInputWorker = .delegated

section Handlers

variable {s t u : Player.State} {env : Env}

theorem SameStreams.refl (s : Player.State) : SameStreams s s := ⟨rfl, rfl, rfl, .inl rfl⟩

theorem SameStreams.trans (h : SameStreams s t) (h' : SameStreams t u) : SameStreams s u := by
  refine ⟨h'.video.trans h.video, h'.audio.trans h.audio, h'.fmtCtx.trans h.fmtCtx, ?_⟩
  rcases h'.worker with hu | hu
  · rw [hu]
    exact h.worker
  · exact .inr hu

theorem dopause_streams (s : Player.State) : SameStreams s (dopause s) := by
  unfold dopause
  split <;> exact { SameStreams.refl s with }

theorem Resumes.streams {n : Nat} (h : Resumes n s t) : SameStreams s t := by
  obtain ⟨_, _, _, _, rfl⟩ := h
  exact { SameStreams.refl s with }

theorem doresume_streams : Ensures (doresume s env) (SameStreams s) anyFault :=
  doresume_frame.imp fun _ => Resumes.streams

theorem handleUnderrun_streams : Ensures (handleUnderrun s env) (SameStreams s) anyFault := by
  refine handleUnderrun_ensures (fun _ _ => { SameStreams.refl s with }) fun _ => ?_
  exact doresume_streams.imp fun t ht => { ht with }

theorem resumeIfPaused_streams : Ensures (resumeIfPaused s env) (SameStreams s) anyFault :=
  resumeIfPaused_ensures (fun _ => SameStreams.refl s) fun _ => doresume_streams

theorem dostop_streams : Ensures (dostop s env) (SameStreams s) anyFault := by
  unfold dostop
  split
  · exact SameStreams.refl s
  · exact resumeIfPaused_streams.imp fun _ ht => { ht with }

theorem drop_streams : Ensures (drop s env) (SameStreams s) anyFault :=
  drop_ensures (fun _ => { SameStreams.refl s with }) (fun _ => trivial) fun _ => trivial

theorem flush_streams {flags : Nat} :
    Ensures (flush s flags env)
      (fun r => SameStreams s r.1 ∧ r.1.playState ≠ .ready) anyFault := by
  refine flush_ensures (fun _ _ _ => trivial) (fun hst => ?_) (fun hp _ => ?_)
    (fun hp _ a v _ => ?_) fun _ _ => trivial
  · exact ⟨SameStreams.refl s, by rw [hst]; exact nofun⟩
  · have hbusy : s.playState ≠ .ready := by rw [hp]; exact nofun
    exact ⟨{ SameStreams.refl s with }, hbusy⟩
  · have hbusy : s.playState ≠ .ready := by rw [hp]; exact nofun
    exact ⟨{ SameStreams.refl s with }, hbusy⟩

theorem flushLoop_streams {flags : Nat} (hflags : flags ≠ 0) :
    Ensures (flushLoop s flags env) (SameStreams s) anyFault :=
  flushLoop_ensures hflags (fun _ _ _ => trivial) (fun _ => SameStreams.refl s)
    (fun _ _ _ _ _ => { SameStreams.refl s with }) fun _ _ => trivial

theorem doplay_streams {path : Option Path} :
    Ensures (doplay s path env) (SameStreams s) anyFault :=
  doplay_ensures (SameStreams.refl s) (fun _ => doresume_streams)
    (fun _ _ => dostop_streams.imp fun _ ht => { ht with }) (fun _ _ => { SameStreams.refl s with })
    (fun _ _ _ => { SameStreams.refl s with })
    (fun _ _ => { SameStreams.refl s with worker := .inr rfl }) trivial

theorem pause_streams : SameStreams s (pause s env) := by
  rcases pause_cases s env with heq | ⟨_, heq⟩
  · rw [heq]
    exact SameStreams.refl s
  · rw [heq]
    exact { dopause_streams s with }

theorem seekTo_streams {pos : Int} : Ensures (seekTo s pos env) (SameStreams s) anyFault := by
  refine seekTo_ensures (D := SameStreams) (SameStreams.refl s) (fun _ => resumeIfPaused_streams)
    (fun _ ht => ht) (fun _ _ _ => drop_streams.imp fun _ hu => { hu with })
    (fun t _ => { SameStreams.refl t with }) fun t u ht hu =>
      handleUnderrun_streams.imp fun v hv => ?_
  rw [ensures_checkpointContinue]
  refine ⟨fun _ => ?_, fun _ => trivial⟩
  have hlast : SameStreams t v :=
    (show SameStreams t { u with underrun := true } from { hu with }).trans
      ((dopause_streams _).trans hv)
  exact { ht.trans hlast with }

theorem playItem_streams (i : Nat) : SameStreams s (playItem s i) := by
  unfold playItem
  split <;> exact { SameStreams.refl s with }

theorem doseek_streams {flags : Nat} {incr : Int} :
    Ensures (doseek s flags incr env) (SameStreams s) anyFault :=
  doseek_ensures (SameStreams.refl s) playItem_streams (fun _ _ _ => seekTo_streams) trivial

theorem NextStage.streams {p : PlayState} (h : NextStage p s t) : SameStreams s t := by
  obtain ⟨_, _, _, _, _, _, rfl, _⟩ := h
  exact { SameStreams.refl s with }

theorem videoOutReady_streams : Ensures (videoOutReady s env) (SameStreams s) anyFault := by
  unfold videoOutReady
  simp only [ensures_bind, ensures_assert]
  refine ⟨fun _ => ?_, fun _ => trivial⟩
  refine handleUnderrun_streams.imp fun t ht => ?_
  simp only [ensures_checkpointContinue, ensures_ok]
  refine ⟨fun _ => ?_, fun _ => trivial⟩
  exact { (dopause_streams _).trans ht with }

theorem bufferUnderrun_streams : Ensures (bufferUnderrun s env) (SameStreams s) anyFault :=
  bufferUnderrun_ensures (SameStreams.refl s)
    (fun _ _ => handleUnderrun_streams.imp fun _ ht =>
      { (dopause_streams { s with underrun := true }).trans ht with })
    fun _ _ => handleUnderrun_streams.imp fun _ ht => { ht with }

theorem stop_streams : Ensures (stop s env) (SameStreams s) anyFault := by
  unfold stop
  split
  · exact SameStreams.refl s
  · exact dostop_streams.imp fun _ ht => { ht with }

theorem threadExit_streams : Ensures (threadExit s env) (SameStreams s) anyFault := by
  unfold threadExit
  split
  · exact dostop_streams.imp fun _ ht => { ht with }
  · exact SameStreams.refl s

theorem flushMsg_streams : Ensures (flushMsg s env) (SameStreams s) anyFault :=
  flushMsg_ensures ((flushLoop_streams (by decide)).imp fun _ ht => { ht with }) trivial

theorem stillFrame_streams {length : Nat} :
    Ensures (stillFrame s length env) (SameStreams s) anyFault :=
  stillFrame_ensures (SameStreams.refl s)
    ((flushLoop_streams (by decide)).imp fun _ ht _ => { ht with }) trivial

theorem timer_streams {id : Nat} : Ensures (timer s id env) (SameStreams s) anyFault :=
  timer_ensures (SameStreams.refl s) (fun _ _ => handleUnderrun_streams)
    (fun _ _ => handleUnderrun_streams.imp fun _ ht => { ht with })
    (fun _ _ => doresume_streams.imp fun _ ht => { ht with }) (fun _ => { SameStreams.refl s with })
    { SameStreams.refl s with }

/-- What a handler does to the streams. -/
inductive Effect (s : Player.State) (m : Msg) (t : Player.State) : Prop
  | same (h : SameStreams s t) (hbusy : m = .streamExit → t.playState ≠ .ready)
  | track (hm : m = .changeAudioTrack none) (hfound : findsTrack s = true)
      (hvideo : t.videoStreamIndex = s.videoStreamIndex) (hctx : t.fmtCtx = s.fmtCtx)
      (hworker : t.streamInputWorker = s.streamInputWorker)
  | noTrack (id : Int) (hm : m = .changeAudioTrack (some id)) (haudio : t.audioStreamIndex < 0)
      (hvideo : t.videoStreamIndex = s.videoStreamIndex) (hctx : t.fmtCtx = s.fmtCtx)
      (hworker : t.streamInputWorker = s.streamInputWorker)
  | ended (hm : m = .streamExit) (hvideo : t.videoStreamIndex = -1)
      (haudio : t.audioStreamIndex = -1) (hworker : t.streamInputWorker = .idle)
      (hready : t.playState = .ready)

theorem endSession_effect (s t : Player.State) : Effect s .streamExit (endSession t) := by
  unfold endSession
  by_cases hstop : (cleanup t).stopping = true
  · simp only [hstop, ↓reduceIte]
    exact .ended rfl rfl rfl rfl rfl
  · obtain ⟨_, _, _, heq, _⟩ := playNext_eq (cleanup t)
    simp only [hstop, heq]
    exact .ended rfl rfl rfl rfl rfl

theorem streamExit_effect : Ensures (streamExit s env) (Effect s .streamExit) anyFault := by
  unfold streamExit
  rw [ensures_bind]
  have hcancel : Ensures (cancelUnderrun s env) (SameStreams s) anyFault :=
    cancelUnderrun_ensures (fun _ => SameStreams.refl s) fun _ =>
      doresume_streams.imp fun _ ht => { ht with }
  refine hcancel.imp fun t ht => ?_
  split
  · rw [ensures_bind]
    exact drop_streams.imp fun u _ => endSession_effect s u
  · rw [ensures_bind]
    refine flush_streams.imp fun r hr => ?_
    split
    · exact endSession_effect s r.1
    · have hall := ht.trans hr.1
      exact delayStreamExit_ensures (fun _ _ => .same { hall with } fun _ => hr.2)
        (fun _ => .same { hall with } fun _ => hr.2) trivial

theorem changeAudioTrack_effect {id : Option Int} :
    Ensures (changeAudioTrack s id) (Effect s (.changeAudioTrack id)) anyFault := by
  refine changeAudioTrack_ensures (.same (SameStreams.refl s) nofun)
    (fun streams next hctx hid hnext => ?_) (fun id hid _ => ?_) (fun hid => ?_) trivial
  · subst hid
    refine .track rfl ?_ rfl rfl rfl
    rw [findsTrack, hctx, Option.bind_some, hnext]
    rfl
  · subst hid
    exact .noTrack id rfl (show (-2 : Int) < 0 by decide) rfl rfl rfl
  · subst hid
    exact .noTrack (-1) rfl (show (-1 : Int) < 0 by decide) rfl rfl rfl

/-- **Handlers**: what each message does to the streams. -/
theorem control_effect {m : Msg} : Ensures (control s m env) (Effect s m) anyFault := by
  have hsame : ∀ {x : Except Fault Player.State}, m ≠ .streamExit →
      Ensures x (SameStreams s) anyFault → Ensures x (Effect s m) anyFault :=
    fun hm hx => hx.imp fun t ht => .same ht fun hexit => absurd hexit hm
  unfold Player.control
  cases m with
  | play path => exact hsame nofun doplay_streams
  | pause => exact hsame nofun pause_streams
  | stop => exact hsame nofun stop_streams
  | seek flags incr => exact hsame nofun doseek_streams
  | threadExit => exact hsame nofun threadExit_streams
  | streamReady =>
    exact hsame nofun ((streamReady_stage fun _ _ _ => trivial).imp fun _ => NextStage.streams)
  | audioDecReady =>
    exact hsame nofun ((audioDecReady_stage fun _ _ _ => trivial).imp fun _ => NextStage.streams)
  | videoDecReady =>
    exact hsame nofun ((videoDecReady_stage fun _ _ _ => trivial).imp fun _ => NextStage.streams)
  | audioOutReady =>
    exact hsame nofun ((audioOutReady_stage fun _ _ _ => trivial).imp fun _ => NextStage.streams)
  | videoOutReady => exact hsame nofun videoOutReady_streams
  | streamExit => exact streamExit_effect
  | bufferUnderrun => exact hsame nofun bufferUnderrun_streams
  | audioStreamUnderrun | info => exact hsame nofun (SameStreams.refl s)
  | changeAudioTrack id => exact changeAudioTrack_effect
  | flush => exact hsame nofun flushMsg_streams
  | stillFrame length => exact hsame nofun stillFrame_streams
  | timer id => exact hsame nofun timer_streams

end Handlers


/-! ## The invariant -/

/-- `video_stream_index` was not assigned yet. -/
def SetUp.beforeVideo : SetUp → Bool
  | .opening | .found | .audioStream | .audioPacketsQ | .audioFound => true
  | .videoFound | .videoPacketsQ | .created => false

/-- `audio_packets_q` was created. -/
def SetUp.hasAudioQ : SetUp → Bool
  | .opening | .found | .audioStream => false
  | .audioPacketsQ | .audioFound | .videoFound | .videoPacketsQ | .created => true

/-- The parser is at a point where `audio_packets_q` was created. -/
def hasAudioQ (pc : ParserPc) (setUp : SetUp) : Bool :=
  match pc with
  | .opening => setUp.hasAudioQ
  | .loop | .checkpoint | .reading => true
  | .idle | .delegated | .exiting | .returned => false

/-- What is left to create between the assignment of the index and the last queue; no handler
    runs there. -/
structure Window (s : State) : Prop where
  idle : s.handler = .idle
  stream : isStream s.player
  packets : s.setUp = .videoPacketsQ → s.videoPacketsQ = true

structure Inv (s : State) : Prop where
  video : inWindow s = false → s.player.videoStreamIndex ≠ -1 → VideoSound s
  window : inWindow s = true → Window s
  unassigned : s.player.streamInputWorker = .opening → s.setUp.beforeVideo = true →
    s.player.videoStreamIndex = -1
  queue : hasAudioQ s.player.streamInputWorker s.setUp = true → s.audioPacketsQ = true
  audio : 0 ≤ s.player.audioStreamIndex → s.audioPacketsQ = true

theorem new_inv : Inv new :=
  ⟨fun _ h => absurd rfl h, nofun, nofun, nofun, fun h => absurd h (by decide)⟩

section Steps

variable {s : State} {p : Player.State} {pc : ParserPc}

theorem isStream.congr {q : Player.State} (h : isStream q)
    (hvideo : p.videoStreamIndex = q.videoStreamIndex) (hctx : p.fmtCtx = q.fmtCtx) :
    isStream p := by
  unfold isStream bestStream
  rw [hvideo, hctx]
  exact h

theorem inWindow_of_pc (h : s.player.streamInputWorker ≠ .opening) : inWindow s = false := by
  simp [inWindow, h]

/-- Outside of its set-up the parser only needs its index and its queues. -/
theorem Inv.move (h : Inv s) (hout : inWindow s = false) (hpc : p.streamInputWorker ≠ .opening)
    (hvideo : p.videoStreamIndex = s.player.videoStreamIndex) (hctx : p.fmtCtx = s.player.fmtCtx)
    (haudio : 0 ≤ p.audioStreamIndex → s.audioPacketsQ = true)
    (hqueue : hasAudioQ p.streamInputWorker s.setUp = true → s.audioPacketsQ = true) :
    Inv { s with player := p } := by
  refine ⟨fun _ hne => ?_, fun hwin => ?_, fun hopen => absurd hopen hpc, hqueue, haudio⟩
  · have hold := h.video hout (by rw [← hvideo]; exact hne)
    exact ⟨hold.packets, hold.frames, hold.stream.congr hvideo hctx⟩
  · rw [inWindow_of_pc hpc] at hwin
    cases hwin

theorem Inv.frame (h : Inv s) (hpc : p.streamInputWorker = s.player.streamInputWorker)
    (hvideo : p.videoStreamIndex = s.player.videoStreamIndex) (hctx : p.fmtCtx = s.player.fmtCtx)
    (haudio : 0 ≤ p.audioStreamIndex → s.audioPacketsQ = true) : Inv { s with player := p } := by
  have hwin : inWindow { s with player := p } = inWindow s := by simp [inWindow, hpc]
  refine ⟨fun hout hne => ?_, fun hin => ?_, fun hopen => ?_, fun hq => ?_, haudio⟩
  · have hold := h.video (hwin ▸ hout) (by rw [← hvideo]; exact hne)
    exact ⟨hold.packets, hold.frames, hold.stream.congr hvideo hctx⟩
  · have hold := h.window (hwin ▸ hin)
    exact ⟨hold.idle, hold.stream.congr hvideo hctx, hold.packets⟩
  · show s.setUp.beforeVideo = true → p.videoStreamIndex = -1
    rw [hvideo]
    exact h.unassigned (hpc ▸ hopen)
  · exact h.queue (hpc ▸ hq)

end Steps


section Handling

variable {s : State} {p : Player.State}

theorem Inv.setHandler (h : Inv s) (hout : inWindow s = false) (hd : Handler) :
    Inv { s with handler := hd } := by
  refine ⟨fun _ hne => ?_, fun hin => ?_, h.unassigned, h.queue, h.audio⟩
  · have hold := h.video hout hne
    exact ⟨hold.packets, hold.frames, hold.stream⟩
  · rw [show inWindow s = true from hin] at hout
    cases hout

theorem Inv.not_inWindow (h : Inv s) (hrun : s.handler ≠ .idle) : inWindow s = false := by
  cases hwin : inWindow s with
  | false => rfl
  | true => exact absurd (h.window hwin).idle hrun

theorem afterHandling_busy {m : Msg} (h : m = .streamExit → p.playState ≠ .ready) :
    afterHandling s m p = { s with player := p, handler := .handled } :=
  if_neg fun hend => h hend.1 hend.2

/-- The streams of a session are gone with its queues. -/
theorem Inv.ended (hvideo : p.videoStreamIndex = -1) (haudio : p.audioStreamIndex = -1)
    (hworker : p.streamInputWorker = .idle) {su : SetUp} {hd : Handler} {a v f : Bool} :
    Inv ⟨p, su, hd, a, v, f⟩ := by
  refine ⟨fun _ hne => absurd hvideo hne, fun hin => ?_, fun hopen => ?_, fun hq => ?_, fun h => ?_⟩
  · rw [inWindow_of_pc (show p.streamInputWorker ≠ .opening by rw [hworker]; exact nofun)] at hin
    cases hin
  · rw [show p.streamInputWorker = .opening from hopen] at hworker
    cases hworker
  · have hidle : hasAudioQ p.streamInputWorker su = true := hq
    rw [hworker] at hidle
    cases hidle
  · rw [show p.audioStreamIndex = -1 from haudio] at h
    exact absurd h (by decide)

theorem handle_inv {m : Msg} {env : Env} (h : Inv s) (hrun : s.handler = .begun m)
    (hok : StreamsCreated s (.handle env)) (hctl : control s.player m env = .ok p) :
    Inv (afterHandling s m p) := by
  have hout : inWindow s = false := h.not_inWindow (by rw [hrun]; exact nofun)
  have heffect : Effect s.player m p := by
    have hcontrol : Ensures (control s.player m env) (Effect s.player m) anyFault := control_effect
    rw [hctl] at hcontrol
    exact hcontrol
  cases heffect with
  | same hsame hbusy =>
    rw [afterHandling_busy hbusy]
    refine Inv.setHandler (s := { s with player := p }) ?_ ?_ _
    · rcases hsame.worker with hpc | hpc
      · exact h.frame hpc hsame.video hsame.fmtCtx fun ha => h.audio (hsame.audio ▸ ha)
      · refine h.move hout (by rw [hpc]; exact nofun) hsame.video hsame.fmtCtx
          (fun ha => h.audio (hsame.audio ▸ ha)) fun hq => ?_
        rw [hpc] at hq
        cases hq
    · rcases hsame.worker with hpc | hpc
      · simpa [inWindow, hpc] using hout
      · exact inWindow_of_pc (by rw [show p.streamInputWorker = _ from hpc]; exact nofun)
  | track hm hfound hvideo hctx hworker =>
    subst hm
    rw [afterHandling_busy (m := .changeAudioTrack none) nofun]
    refine Inv.setHandler (s := { s with player := p }) ?_
      (by simpa [inWindow, hworker] using hout) _
    exact h.frame hworker hvideo hctx fun _ => hok hrun hfound
  | noTrack id hm haudio hvideo hctx hworker =>
    subst hm
    rw [afterHandling_busy (m := .changeAudioTrack (some id)) nofun]
    refine Inv.setHandler (s := { s with player := p }) ?_
      (by simpa [inWindow, hworker] using hout) _
    exact h.frame hworker hvideo hctx fun ha => absurd ha (by omega)
  | ended hm hvideo haudio hworker hready =>
    rw [afterHandling, if_pos ⟨hm, hready⟩]
    exact Inv.ended hvideo haudio hworker

end Handling


section Parser

variable {s t : State}

/-- The parser goes to its exit code, outside of the window. -/
theorem Inv.decoderExit (h : Inv s) (hout : inWindow s = false) :
    Inv { s with player := decoderExit s.player } :=
  h.move hout nofun rfl rfl h.audio nofun

theorem Inv.of_before (hpc : t.player.streamInputWorker = .opening)
    (hbefore : t.setUp.beforeVideo = true) (hvideo : t.player.videoStreamIndex = -1)
    (hqueue : t.setUp.hasAudioQ = true → t.audioPacketsQ = true)
    (haudio : 0 ≤ t.player.audioStreamIndex → t.audioPacketsQ = true) : Inv t := by
  refine ⟨fun _ hne => absurd hvideo hne, fun hin => ?_, fun _ _ => hvideo, fun hq => ?_, haudio⟩
  · unfold inWindow at hin
    rcases (of_decide_eq_true hin).2 with hset | hset
    · rw [hset] at hbefore
      cases hbefore
    · rw [hset] at hbefore
      cases hbefore
  · rw [hpc] at hq
    exact hqueue hq

theorem Inv.of_window (hafter : t.setUp.beforeVideo = false) (hin : inWindow t = true)
    (hwindow : Window t) (hqueue : t.audioPacketsQ = true) : Inv t := by
  refine ⟨fun hout => ?_, fun _ => hwindow, fun _ hb => ?_, fun _ => hqueue, fun _ => hqueue⟩
  · rw [hin] at hout
    cases hout
  · rw [hafter] at hb
    cases hb

theorem Inv.of_created (hset : t.setUp = .created)
    (hvideo : t.player.videoStreamIndex ≠ -1 → VideoSound t) (hqueue : t.audioPacketsQ = true) :
    Inv t := by
  refine ⟨fun _ => hvideo, fun hin => ?_, fun _ hb => ?_, fun _ => hqueue, fun _ => hqueue⟩
  · simp [inWindow, hset] at hin
  · rw [hset] at hb
    cases hb

theorem queueNew_inv {ok : Bool} (h : Inv s) (hpc : s.player.streamInputWorker = .opening)
    (hok : StreamsCreated s (.setUp (.queueNew ok))) (hstep : setUp s (.queueNew ok) = some t) :
    Inv t := by
  have hqueue : s.setUp.hasAudioQ = true → s.audioPacketsQ = true := fun hq =>
    h.queue (by rw [hpc]; exact hq)
  simp only [setUp] at hstep
  split at hstep
  · rename_i hset
    cases hstep
    cases ok with
    | false => exact h.decoderExit (by simp [inWindow, hset])
    | true =>
      have hvideo := h.unassigned hpc (by rw [hset]; rfl)
      exact Inv.of_before hpc rfl hvideo (fun _ => rfl) fun _ => rfl
  · rename_i hset
    have hin : inWindow s = true := by simp [inWindow, hpc, hset]
    have hwindow := h.window hin
    cases hok hin
    cases hstep
    exact Inv.of_window rfl (by simp [inWindow, hpc]) ⟨hwindow.idle, hwindow.stream, fun _ => rfl⟩
      (hqueue (by rw [hset]; rfl))
  · rename_i hset
    have hin : inWindow s = true := by simp [inWindow, hpc, hset]
    have hwindow := h.window hin
    cases hok hin
    cases hstep
    exact Inv.of_created rfl (fun _ => ⟨hwindow.packets hset, rfl, hwindow.stream⟩)
      (hqueue (by rw [hset]; rfl))
  · cases hstep

theorem findBestStream_inv {index : Int} (h : Inv s)
    (hpc : s.player.streamInputWorker = .opening)
    (hok : StreamsCreated s (.setUp (.findBestStream index)))
    (hstep : setUp s (.findBestStream index) = some t) : Inv t := by
  have hqueue : s.setUp.hasAudioQ = true → s.audioPacketsQ = true := fun hq =>
    h.queue (by rw [hpc]; exact hq)
  obtain ⟨hbest, hstep⟩ := Option.ite_none_right_eq_some.mp hstep
  split at hstep
  · rename_i hset
    cases hstep
    have hvideo := h.unassigned hpc (by rw [hset]; rfl)
    have hq := hqueue (by rw [hset]; rfl)
    exact Inv.of_before hpc rfl hvideo (fun _ => hq) fun _ => hq
  · rename_i hset
    cases hstep
    have hq := hqueue (by rw [hset]; rfl)
    rcases hok hset with rfl | ⟨hnonneg, hidle⟩
    · exact Inv.of_created rfl (fun hne => absurd rfl hne) hq
    · simp only [hnonneg, ↓reduceIte]
      exact Inv.of_window rfl (by simp [inWindow, videoFound, hpc])
        ⟨hidle, ⟨hnonneg, hbest⟩, nofun⟩ hq
  · cases hstep

theorem setUp_inv {call : SetUpCall} (h : Inv s) (hpc : s.player.streamInputWorker = .opening)
    (hok : StreamsCreated s (.setUp call)) (hstep : setUp s call = some t) : Inv t := by
  cases call with
  | findStreamInfo streams =>
    obtain ⟨hset, heq⟩ := Option.ite_none_right_eq_some.mp hstep
    cases heq
    have hvideo := h.unassigned hpc (by rw [hset]; rfl)
    exact Inv.of_before hpc rfl hvideo nofun h.audio
  | audiostreamNew ok =>
    obtain ⟨hset, heq⟩ := Option.ite_none_right_eq_some.mp hstep
    cases heq
    cases ok with
    | false => exact h.decoderExit (by simp [inWindow, hset])
    | true =>
      have hvideo := h.unassigned hpc (by rw [hset]; rfl)
      exact Inv.of_before hpc rfl hvideo nofun h.audio
  | queueNew ok => exact queueNew_inv h hpc hok hstep
  | findBestStream index => exact findBestStream_inv h hpc hok hstep
  | done =>
    obtain ⟨hset, heq⟩ := Option.ite_none_right_eq_some.mp hstep
    cases heq
    have hout : inWindow s = false := by simp [inWindow, hset]
    have hq : s.audioPacketsQ = true := h.queue (by rw [hpc, hset]; rfl)
    unfold setUpDone
    split
    · exact h.decoderExit hout
    · exact h.move hout nofun rfl rfl h.audio fun _ => hq

/-- A packet changes at most the audio stream. -/
theorem selectAudio_index (p : Player.State) (stream : Nat) :
    ∃ index, selectAudio p stream = { p with audioStreamIndex := index } := by
  unfold selectAudio
  split
  · exact ⟨_, rfl⟩
  · split
    · split
      · split
        · exact ⟨_, rfl⟩
        · exact ⟨_, rfl⟩
      · exact ⟨_, rfl⟩
    · exact ⟨_, rfl⟩

theorem parserStart_inv {alloc : Bool} (h : Inv s) (hpc : s.player.streamInputWorker = .delegated) :
    Ensures (parserStart s.player alloc)
      (fun p => Inv { s with player := p, setUp := .opening }) anyFault := by
  unfold parserStart
  simp only [ensures_bind, ensures_assert]
  refine ⟨fun _ => ⟨fun hnone => ⟨fun _ => ?_, fun _ => trivial⟩, fun _ => trivial⟩,
    fun _ => trivial⟩
  cases alloc with
  | true => exact Inv.of_before rfl rfl hnone.2.2 (by rintro ⟨⟩) h.audio
  | false =>
    have hout : inWindow s = false := inWindow_of_pc (by rw [hpc]; rintro ⟨⟩)
    have hexit := h.decoderExit hout
    exact ⟨fun _ => fun hne => absurd hnone.2.2 hne, by rintro ⟨⟩, by rintro ⟨⟩, by rintro ⟨⟩,
      hexit.audio⟩

theorem parser_inv {input : ParserInput} {r : Except Fault Player.State} (h : Inv s)
    (hrefined : refined s (.parser input) = false)
    (hstep : parserStep s.player input = some r) :
    Ensures r (fun p => Inv { s with player := p, setUp := setUpAfter s (.parser input) })
      anyFault := by
  unfold parserStep at hstep
  split at hstep
  · rename_i hpc
    cases hstep
    exact parserStart_inv h hpc
  · rename_i input hpc
    cases hstep
    have hset : s.setUp = .opening := by simpa [refined] using hrefined
    have hvideo : s.player.videoStreamIndex = -1 := h.unassigned hpc (by rw [hset]; rfl)
    exact ⟨fun _ hne => absurd hvideo hne, nofun, nofun, nofun, h.audio⟩
  · cases hrefined
  · rename_i hpc
    cases hstep
    have hout : inWindow s = false := inWindow_of_pc (by rw [hpc]; exact nofun)
    rw [ensures_ok]
    split
    · exact h.decoderExit hout
    · exact h.move hout nofun rfl rfl h.audio fun _ => h.queue (by rw [hpc]; rfl)
  · rename_i hpc
    have hout : inWindow s = false := inWindow_of_pc (by rw [hpc]; exact nofun)
    obtain ⟨_, heq⟩ := Option.ite_none_right_eq_some.mp hstep
    cases heq
    exact h.move hout nofun rfl rfl h.audio fun _ => h.queue (by rw [hpc]; rfl)
  · rename_i stream hpc
    cases hstep
    have hout : inWindow s = false := inWindow_of_pc (by rw [hpc]; exact nofun)
    have hq : s.audioPacketsQ = true := h.queue (by rw [hpc]; rfl)
    obtain ⟨index, heq⟩ := selectAudio_index s.player stream
    rw [heq]
    exact h.move hout nofun rfl rfl (fun _ => hq) fun _ => hq
  · rename_i hpc
    cases hstep
    exact h.decoderExit (inWindow_of_pc (by rw [hpc]; exact nofun))
  · rename_i hpc
    cases hstep
    exact h.move (inWindow_of_pc (by rw [hpc]; exact nofun)) nofun rfl rfl h.audio nofun
  · cases hstep

theorem worker_inv {w : Worker} {e : WorkerEvent} {p : Player.State} (h : Inv s)
    (hstep : workerStep s.player w e = some p) : Inv { s with player := p } := by
  obtain ⟨_, _, _, _, _, _, rfl, _⟩ := workerStep_eq hstep
  exact h.frame rfl rfl rfl h.audio

theorem outcome_inv {su : SetUp} {x : Except Fault Player.State} (hs : Inv { s with setUp := su })
    (hx : Ensures x (fun p => Inv { s with player := p, setUp := su }) anyFault) :
    Inv { s with player := (outcome s.player x).1, setUp := su } := by
  cases x with
  | ok p => exact hx
  | error f => exact hs

end Parser


/-! ## Every step -/

section Steps

variable {s t : State} {r : Result}

theorem delegated_of_start {p : Player.State} {alloc : Bool} {x : Except Fault Player.State}
    (h : parserStep p (.start alloc) = some x) : p.streamInputWorker = .delegated := by
  cases hpc : p.streamInputWorker with
  | delegated => rfl
  | _ =>
    simp only [parserStep, hpc] at h
    cases h

/-- Before the parser runs, it does not matter how far the last one came. -/
theorem Inv.restart (h : Inv s) (hpc : s.player.streamInputWorker = .delegated) :
    Inv { s with setUp := .opening } := by
  have hne : s.player.streamInputWorker ≠ .opening := by rw [hpc]; exact nofun
  refine ⟨fun _ hv => ?_, fun hin => ?_, fun hopen => absurd hopen hne, fun hq => ?_, h.audio⟩
  · have hold := h.video (inWindow_of_pc hne) hv
    exact ⟨hold.packets, hold.frames, hold.stream⟩
  · rw [inWindow_of_pc (s := { s with setUp := .opening }) hne] at hin
    cases hin
  · have hdelegated : hasAudioQ s.player.streamInputWorker .opening = true := hq
    rw [hpc] at hdelegated
    cases hdelegated

theorem playerStep_inv {e : Player.Event} (h : Inv s)
    (hstep : step s (.player e) = some (t, r)) : Inv t := by
  simp only [step] at hstep
  split at hstep
  · cases hstep
  · rename_i hrefined
    split at hstep
    · cases hstep
      exact h
    · obtain ⟨r', hplayer, heq⟩ := Option.map_eq_some_iff.mp hstep
      cases heq
      cases e with
      | play path =>
        cases hplayer
        exact h.frame rfl rfl rfl h.audio
      | playlist items selected =>
        obtain ⟨p, hp, heq⟩ := Option.map_eq_some_iff.mp hplayer
        cases heq
        unfold startPlaylist at hp
        split at hp
        · cases hp
        · cases hp
          exact h.frame rfl rfl rfl h.audio
      | post m =>
        simp only [Player.step] at hplayer
        split at hplayer
        · cases hplayer
        · cases hplayer
          exact h.frame rfl rfl rfl h.audio
      | control env => exact absurd rfl hrefined
      | parser input =>
        obtain ⟨x, hx, heq⟩ := Option.map_eq_some_iff.mp hplayer
        cases heq
        refine outcome_inv ?_ (parser_inv h (by simpa using hrefined) hx)
        cases input with
        | start alloc =>
          exact h.restart (delegated_of_start hx)
        | _ => exact h
      | worker w ev =>
        obtain ⟨p, hp, heq⟩ := Option.map_eq_some_iff.mp hplayer
        cases heq
        exact worker_inv h hp

theorem step_inv {e : Event} (h : Inv s) (hok : StreamsCreated s e)
    (hstep : step s e = some (t, r)) : Inv t := by
  cases e with
  | player e => exact playerStep_inv h hstep
  | take =>
    simp only [step] at hstep
    split at hstep
    · rename_i m ms hidle _
      cases hstep
      exact Inv.setHandler (s := { s with player := { s.player with mailbox := ms } })
        (h.frame rfl rfl rfl h.audio) hok _
    · cases hstep
  | handle env =>
    simp only [step] at hstep
    split at hstep
    · rename_i m hrun
      split at hstep
      · rename_i p hctl
        cases hstep
        exact handle_inv h hrun hok hctl
      · cases hstep
        exact h
    · cases hstep
  | finish =>
    obtain ⟨hhandled, heq⟩ := Option.ite_none_right_eq_some.mp hstep
    cases heq
    exact h.setHandler (h.not_inWindow (by rw [hhandled]; exact nofun)) _
  | setUp call =>
    obtain ⟨hpc, hcall⟩ := Option.ite_none_right_eq_some.mp hstep
    obtain ⟨t', ht, heq⟩ := Option.map_eq_some_iff.mp hcall
    cases heq
    exact setUp_inv h hpc hok ht
  | openCodec index =>
    obtain ⟨_, hcodec⟩ := Option.ite_none_right_eq_some.mp hstep
    split at hcodec
    · cases hcodec
      exact h
    · rename_i hq
      split at hcodec
      · cases hcodec
        exact h.frame rfl rfl rfl fun _ => by simpa using hq
      · cases hcodec
        exact h

theorem Inv.indexSound (h : Inv s) (hruns : Runs s) : IndexSound s := by
  refine ⟨h.video ?_, h.audio⟩
  rcases hruns with hexit | hhandler
  · exact inWindow_of_pc (by rw [hexit]; exact nofun)
  · exact h.not_inWindow hhandler

end Steps

/-- **Stream indices**: for every file and every order of messages, whenever the exit code of the
    parser or a handler runs, an index that is not -1 is a stream of the file with its queues, if
    the search for the video stream fails with no other code than -1, its queues are created with no
    handler in between, and the audio track is not changed before its queue exists. -/
theorem indices_sound {tr : List (Event × Result)} {s : State}
    (hrun : Run (Guarded step StreamsCreated) new tr s) (hruns : Runs s) : IndexSound s :=
  have hinv : Inv s := Run.invariant new_inv (fun _ _ _ h hs => step_inv h hs.1 hs.2) hrun
  hinv.indexSound hruns

/-- A file is delegated to the parser, which opens it. -/
def openFile : List Event :=
  [.player (.play (some ['a'])), .take, .handle (fullEnv 0), .finish,
    .player (.parser (.start true))]

/-- The set-up of a file with these streams. -/
def setUpFile (streams : List AVStream) (audio video : Int) : List Event :=
  [.setUp (.findStreamInfo streams), .setUp (.audiostreamNew true), .setUp (.queueNew true),
    .setUp (.findBestStream audio), .setUp (.findBestStream video)]

/-- A file with an audio and a video stream is set up, and its first message is being handled. -/
theorem indices_sound_two_streams : ∃ tr s, Run (Guarded step StreamsCreated) new tr s ∧
    Runs s ∧ s.player.videoStreamIndex = 0 ∧ IndexSound s := by
  obtain ⟨tr, s, hrun, hruns, hindex⟩ := exists_run_of_guarded_exec step StreamsCreated new
    (fun _ s => s.handler ≠ .idle ∧ s.player.videoStreamIndex = 0)
    (openFile ++ setUpFile [⟨false, 0⟩, ⟨true, 1⟩] 1 0 ++
      [Event.setUp (.queueNew true), .setUp (.queueNew true), .setUp .done, .take]) (by decide +kernel)
  exact ⟨tr, s, hrun, .inr hruns, hindex, indices_sound hrun (.inr hruns)⟩

/-- The file has one stream, an audio stream: `av_find_best_stream` answers
    `AVERROR_STREAM_NOT_FOUND`, and from its first message on the control thread has this for an
    index and no queues. -/
theorem no_video_stream :
    ¬ ∀ (tr : List (Event × Result)) (s : State), Run (Step step) new tr s → Runs s →
      IndexSound s := by
  intro hall
  have hrun := run_of_exec (f := step) (s := new)
    (openFile ++ setUpFile [⟨true, 0⟩] 0 (-1381258232) ++ [Event.setUp .done, .take]) rfl
  exact nomatch ((hall _ _ hrun (.inr nofun)).video (by decide)).packets

end Mediabox.PlayerStreams
