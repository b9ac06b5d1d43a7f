import Mediabox.PlayerSpec

/-!
# The life of a session

What holds of the player in every state, whatever the order of the messages.

* `Shape` — how the stage of the session, the position of the stream parser, its messages in the
  mailbox and the other workers go together.
* `STREAM_READY` and `STREAM_EXIT` are in the mailbox at most once, in this order, and belong to the
  session that is running; a `STREAM_EXIT` that was put off is the stream exit timer instead.
* `step_wf` — every step keeps this shape.
-/

set_option autoImplicit false

namespace Mediabox.Player

open Transition Outcome

/-- The parser has tried to open the file. -/
def ParserPc.started : ParserPc → Bool
  | .loop | .checkpoint | .reading | .exiting | .returned => true
  | .idle | .delegated | .opening => false

/-- The parser has set its flags for the session. -/
def ParserPc.running (pc : ParserPc) : Bool := pc.started || pc == .opening

/-- The messages of the stream parser that are waiting. -/
def parserMsgs (mailbox : List Msg) : List Msg :=
  mailbox.filter fun m => m = .streamReady ∨ m = .streamExit

/-- The `STREAM_EXIT` that should be waiting. -/
def exitMsgs (pc : ParserPc) (streamExitTimerId : Option Nat) : List Msg :=
  if pc = .returned ∧ streamExitTimerId = none then [.streamExit] else []

/-- The parts of a session fit together; `x` is what waits of `STREAM_EXIT`. -/
structure Shape (x : List Msg) (s : State) : Prop where
  ready_of_status : s.status = .ready → s.playState = .ready
  idle_of_ready : s.playState = .ready → s.streamInputWorker = .idle
  stream_of_opening : s.streamInputWorker = .delegated ∨ s.streamInputWorker = .opening →
    s.playState = .stream
  started_of_audioDec : .audioDec ≤ s.playState → s.streamInputWorker.started
  msgs : parserMsgs s.mailbox = x ∨
    parserMsgs s.mailbox = .streamReady :: x ∧ s.playState = .stream ∧
      s.streamInputWorker.started
  returned_of_timer : s.streamExitTimerId ≠ none → s.streamInputWorker = .returned
  started_of_video : s.videoStreamIndex ≠ -1 → s.streamInputWorker.started
  playing_of_flushing : s.flushing ≠ 0 → s.playState = .playing
  audioDec_of_worker : s.audioDecoderWorker ≠ .idle → .audioDec ≤ s.playState
  videoRuns_of_worker : s.videoDecoderWorker ≠ .idle → videoRuns s.playState s.videoStreamIndex
  videoDec_of_decoded : s.streamInputWorker.running → s.videoDecoderFlushed = false →
    .videoDec ≤ s.playState
  audioDec_of_decoded : s.streamInputWorker.running → s.audioDecoderFlushed = false →
    .audioDec ≤ s.playState
  id_of_waiting : s.audioStreamIndex = -2 → s.audioStreamId ≠ -1

/-- The shape of a state between two steps. -/
def Wf (s : State) : Prop := Shape (exitMsgs s.streamInputWorker s.streamExitTimerId) s

theorem new_wf : Wf new where
  ready_of_status := fun _ => rfl
  idle_of_ready := fun _ => rfl
  stream_of_opening := by simp [new]
  started_of_audioDec := by decide
  msgs := Or.inl rfl
  returned_of_timer := by simp [new]
  started_of_video := by simp [new]
  playing_of_flushing := by simp [new]
  audioDec_of_worker := by simp [new]
  videoRuns_of_worker := by simp [new]
  videoDec_of_decoded := by simp [new, ParserPc.running, ParserPc.started]
  audioDec_of_decoded := by simp [new, ParserPc.running, ParserPc.started]
  id_of_waiting := by simp [new]

variable {s t : State} {env : Env} {x : List Msg}

/-! ## Functions that stay inside a session -/

/-- `t` is `s` after a change inside the session: of what the shape speaks about, only the status
    moves (not to `READY`), decoders may have been flushed, and a flush may have begun or ended. -/
structure Keeps (s t : State) : Prop where
  playState : t.playState = s.playState
  streamInputWorker : t.streamInputWorker = s.streamInputWorker
  streamExitTimerId : t.streamExitTimerId = s.streamExitTimerId
  mailbox : t.mailbox = s.mailbox
  videoStreamIndex : t.videoStreamIndex = s.videoStreamIndex
  audioStreamIndex : t.audioStreamIndex = s.audioStreamIndex
  audioStreamId : t.audioStreamId = s.audioStreamId
  audioDecoderWorker : t.audioDecoderWorker = s.audioDecoderWorker
  videoDecoderWorker : t.videoDecoderWorker = s.videoDecoderWorker
  status : t.status = .ready → s.status = .ready
  flushing : t.flushing ≠ 0 → s.flushing ≠ 0 ∨ s.playState = .playing
  videoFlushed : t.videoDecoderFlushed = false → s.videoDecoderFlushed = false
    ∨ s.playState = .playing
  audioFlushed : t.audioDecoderFlushed = false → s.audioDecoderFlushed = false
    ∨ s.playState = .playing

theorem Keeps.refl (s : State) : Keeps s s :=
  ⟨rfl, rfl, rfl, rfl, rfl, rfl, rfl, rfl, rfl, id, Or.inl, Or.inl, Or.inl⟩

theorem Keeps.trans {u : State} (h : Keeps s t) (h' : Keeps t u) : Keeps s u where
  playState := h'.playState.trans h.playState
  streamInputWorker := h'.streamInputWorker.trans h.streamInputWorker
  streamExitTimerId := h'.streamExitTimerId.trans h.streamExitTimerId
  mailbox := h'.mailbox.trans h.mailbox
  videoStreamIndex := h'.videoStreamIndex.trans h.videoStreamIndex
  audioStreamIndex := h'.audioStreamIndex.trans h.audioStreamIndex
  audioStreamId := h'.audioStreamId.trans h.audioStreamId
  audioDecoderWorker := h'.audioDecoderWorker.trans h.audioDecoderWorker
  videoDecoderWorker := h'.videoDecoderWorker.trans h.videoDecoderWorker
  status := fun hu => h.status (h'.status hu)
  flushing := fun hu => (h'.flushing hu).elim h.flushing fun hp => Or.inr (h.playState ▸ hp)
  videoFlushed := fun hu =>
    (h'.videoFlushed hu).elim h.videoFlushed fun hp => Or.inr (h.playState ▸ hp)
  audioFlushed := fun hu =>
    (h'.audioFlushed hu).elim h.audioFlushed fun hp => Or.inr (h.playState ▸ hp)

theorem Keeps.shape (h : Keeps s t) (hs : Shape x s) : Shape x t where
  ready_of_status := fun ht => h.playState ▸ hs.ready_of_status (h.status ht)
  idle_of_ready := by rw [h.playState, h.streamInputWorker]; exact hs.idle_of_ready
  stream_of_opening := by rw [h.playState, h.streamInputWorker]; exact hs.stream_of_opening
  started_of_audioDec := by rw [h.playState, h.streamInputWorker]; exact hs.started_of_audioDec
  msgs := by rw [h.mailbox, h.playState, h.streamInputWorker]; exact hs.msgs
  returned_of_timer := by
    rw [h.streamExitTimerId, h.streamInputWorker]
    exact hs.returned_of_timer
  started_of_video := by rw [h.videoStreamIndex, h.streamInputWorker]; exact hs.started_of_video
  playing_of_flushing := fun ht => by
    rw [h.playState]
    exact (h.flushing ht).elim hs.playing_of_flushing id
  audioDec_of_worker := by rw [h.audioDecoderWorker, h.playState]; exact hs.audioDec_of_worker
  videoRuns_of_worker := by
    rw [h.videoDecoderWorker, h.playState, h.videoStreamIndex]
    exact hs.videoRuns_of_worker
  videoDec_of_decoded := by
    rw [h.playState, h.streamInputWorker]
    intro hrun ht
    rcases h.videoFlushed ht with hf | hp
    · exact hs.videoDec_of_decoded hrun hf
    · rw [hp]
      decide
  audioDec_of_decoded := by
    rw [h.playState, h.streamInputWorker]
    intro hrun ht
    rcases h.audioFlushed ht with hf | hp
    · exact hs.audioDec_of_decoded hrun hf
    · rw [hp]
      decide
  id_of_waiting := by rw [h.audioStreamIndex, h.audioStreamId]; exact hs.id_of_waiting

theorem Keeps.wf (h : Keeps s t) (hs : Wf s) : Wf t := by
  unfold Wf
  rw [h.streamInputWorker, h.streamExitTimerId]
  exact h.shape hs

/-- No promise about the fault. -/
def anyFault : Fault → Prop := fun _ => True

theorem dopause_keeps (s : State) : Keeps s (dopause s) := by
  unfold dopause
  split <;> exact { Keeps.refl s with }

theorem doresume_keeps : Ensures (doresume s env) (Keeps s) anyFault := by
  refine doresume_ensures (fun _ => Keeps.refl s) (fun _ => { Keeps.refl s with })
    (fun _ _ _ => ?_) (fun _ _ => trivial) (fun _ _ _ => trivial) fun _ _ => trivial
  exact { Keeps.refl s with status := nofun }

theorem handleUnderrun_keeps : Ensures (handleUnderrun s env) (Keeps s) anyFault := by
  refine handleUnderrun_ensures (fun _ _ => { Keeps.refl s with status := nofun }) fun _ => ?_
  refine doresume_keeps.imp fun t ht => ?_
  exact { ht with status := nofun }

theorem resumeIfPaused_keeps : Ensures (resumeIfPaused s env) (Keeps s) anyFault :=
  resumeIfPaused_ensures (fun _ => Keeps.refl s) fun _ => doresume_keeps

theorem dostop_keeps : Ensures (dostop s env) (Keeps s) anyFault := by
  unfold dostop
  split
  · exact Keeps.refl s
  · exact resumeIfPaused_keeps.imp fun _ ht => { ht with }

theorem cancelUnderrun_keeps : Ensures (cancelUnderrun s env) (Keeps s) anyFault :=
  cancelUnderrun_ensures (fun _ => Keeps.refl s) fun _ =>
    doresume_keeps.imp fun _ ht => { ht with }

theorem dropped_keeps (s : State) : Keeps s (dropped s) :=
  { Keeps.refl s with
    flushing := fun h => absurd rfl h
    videoFlushed := fun h => by
      by_cases hv : s.videoStreamIndex = -1
      · exact Or.inl (by simpa [dropped, clearStillFrame, hv] using h)
      · simp [dropped, hv] at h
    audioFlushed := nofun }

theorem drop_keeps :
    Ensures (drop s env) (fun t => Keeps s t ∧ t.flushing = 0) anyFault :=
  drop_ensures (fun _ => ⟨dropped_keeps s, rfl⟩) (fun _ => trivial) fun _ => trivial

theorem flushedTo_keeps {a v : Bool} (hplay : s.playState = .playing) : Keeps s (flushedTo s a v) :=
  { Keeps.refl s with
    flushing := fun hf => absurd rfl hf
    videoFlushed := fun _ => Or.inr hplay }

/-- Outside of the last stage there is no flush. -/
theorem Shape.flushing_zero (h : Shape x s) (hp : s.playState ≠ .playing) : s.flushing = 0 := by
  by_contra hf
  exact hp (h.playing_of_flushing hf)

theorem flush_keeps {flags : Nat} (hshape : Shape x s) :
    Ensures (flush s flags env) (fun r => Keeps s r.1 ∧ (r.2 = true → r.1.flushing = 0))
      anyFault := by
  refine flush_ensures (fun _ _ _ => trivial) (fun hst => ?_) (fun hp _ => ?_)
    (fun hp _ a v _ => ?_) fun _ _ => trivial
  · exact ⟨Keeps.refl s, fun _ => hshape.flushing_zero (by simp [hst])⟩
  · exact ⟨{ Keeps.refl s with flushing := fun _ => Or.inr hp }, nofun⟩
  · exact ⟨flushedTo_keeps hp, fun _ => rfl⟩

theorem flushLoop_keeps {flags : Nat} (hflags : flags ≠ 0) :
    Ensures (flushLoop s flags env) (Keeps s) anyFault := by
  refine flushLoop_ensures hflags (fun _ _ _ => trivial) (fun _ => Keeps.refl s)
    (fun hp a v d _ => ?_) fun _ _ => trivial
  exact { flushedTo_keeps (a := a) (v := v) hp with audioFlushed := fun _ => Or.inr hp }

/-! ## The mailbox -/

@[simp] theorem parserMsgs_nil : parserMsgs [] = [] := rfl

@[simp] theorem parserMsgs_exit : parserMsgs [.streamExit] = [.streamExit] := rfl

@[simp] theorem parserMsgs_ready : parserMsgs [.streamReady] = [.streamReady] := rfl

@[simp] theorem parserMsgs_play (path : Option Path) : parserMsgs [.play path] = [] := rfl

theorem parserMsgs_cons (m : Msg) (ms : List Msg) :
    parserMsgs (m :: ms) = parserMsgs [m] ++ parserMsgs ms := by
  unfold parserMsgs
  exact List.filter_append [m] ms

@[simp] theorem parserMsgs_append (ms ms' : List Msg) :
    parserMsgs (ms ++ ms') = parserMsgs ms ++ parserMsgs ms' := List.filter_append ms ms'

theorem parserMsgs_other {m : Msg} (hready : m ≠ .streamReady) (hexit : m ≠ .streamExit) :
    parserMsgs [m] = [] := by
  simp [parserMsgs, hready, hexit]

theorem Shape.setMailbox {ms : List Msg} (h : Shape x s)
    (hms : parserMsgs ms = parserMsgs s.mailbox) : Shape x { s with mailbox := ms } :=
  { h with msgs := by rw [hms]; exact h.msgs }

theorem Shape.sendctl {m : Msg} (h : Shape x s) (hm : parserMsgs [m] = []) :
    Shape x (sendctl s m) :=
  h.setMailbox (by simp [hm])

theorem Wf.play (h : Wf s) (path : Option Path) : Wf (play s path) :=
  Shape.sendctl (x := exitMsgs s.streamInputWorker s.streamExitTimerId)
    (s := { s with
      playlist := []
      playlistItem := if s.playlist = [] then s.playlistItem else none }) { h with } rfl

theorem play_msgs (s : State) (path : Option Path) :
    parserMsgs (play s path).mailbox = parserMsgs s.mailbox := by
  simp [play, sendctl]

theorem exitMsgs_of_ne {pc : ParserPc} {id : Option Nat} (h : pc ≠ .returned) :
    exitMsgs pc id = [] := if_neg fun hret => h hret.1

theorem exitMsgs_ne_ready {pc : ParserPc} {id : Option Nat} {ms : List Msg} :
    exitMsgs pc id ≠ .streamReady :: ms := by
  unfold exitMsgs
  split <;> simp

theorem Wf.take_ready {ms : List Msg} (h : Wf s) (hm : s.mailbox = .streamReady :: ms) :
    parserMsgs ms = exitMsgs s.streamInputWorker s.streamExitTimerId ∧
      s.streamInputWorker.started := by
  have hcons : parserMsgs s.mailbox = .streamReady :: parserMsgs ms := by
    rw [hm, parserMsgs_cons]
    rfl
  rcases h.msgs with hmsgs | ⟨hmsgs, _, hstarted⟩
  · exact absurd (hmsgs.symm.trans hcons) exitMsgs_ne_ready
  · exact ⟨List.tail_eq_of_cons_eq (hcons.symm.trans hmsgs), hstarted⟩

/-- Taking `STREAM_EXIT` from the mailbox: it is the only one, and nothing of the session is behind
    it. -/
theorem Wf.take_exit {ms : List Msg} (h : Wf s) (hm : s.mailbox = .streamExit :: ms) :
    parserMsgs ms = [] ∧ s.streamInputWorker = .returned ∧ s.streamExitTimerId = none := by
  have hcons : parserMsgs s.mailbox = .streamExit :: parserMsgs ms := by
    rw [hm, parserMsgs_cons]
    rfl
  rcases h.msgs with hmsgs | ⟨hmsgs, _, _⟩
  · rw [hcons] at hmsgs
    unfold exitMsgs at hmsgs
    split at hmsgs
    · rename_i hret
      exact ⟨List.tail_eq_of_cons_eq hmsgs, hret⟩
    · cases hmsgs
  · rw [hcons] at hmsgs
    simp at hmsgs

/-! ## The start of a session -/

theorem Shape.of_ready (h : Shape x s) (hready : s.playState = .ready) :
    s.streamInputWorker = .idle ∧ s.streamExitTimerId = none ∧ s.videoStreamIndex = -1 ∧
      s.flushing = 0 ∧ s.audioDecoderWorker = .idle ∧ s.videoDecoderWorker = .idle ∧
      parserMsgs s.mailbox = x := by
  have hidle := h.idle_of_ready hready
  refine ⟨hidle, ?_, ?_, ?_, ?_, ?_, ?_⟩
  · by_contra htimer
    exact absurd (hidle.symm.trans (h.returned_of_timer htimer)) (by simp)
  · by_contra hvideo
    have hstarted := h.started_of_video hvideo
    rw [hidle] at hstarted
    cases hstarted
  · exact h.flushing_zero (by simp [hready])
  · by_contra hworker
    exact absurd (hready ▸ h.audioDec_of_worker hworker) (by decide)
  · by_contra hworker
    exact absurd (hready ▸ (h.videoRuns_of_worker hworker).1) (by decide)
  · rcases h.msgs with hmsgs | ⟨_, hstream, _⟩
    · exact hmsgs
    · exact absurd (hready.symm.trans hstream) (by simp)

theorem not_audioDec_le_stream : ¬PlayState.audioDec ≤ .stream := by decide

theorem doplay_wf {path : Option Path} (h : Wf s) :
    Ensures (doplay s path env) Wf anyFault := by
  -- from a ready player: nothing is left of an earlier session
  have hready (hst : s.status = .ready) := h.of_ready (h.ready_of_status hst)
  have hempty (hst : s.status = .ready) : parserMsgs s.mailbox = [] := by
    obtain ⟨hidle, _, _, _, _, _, hmsgs⟩ := hready hst
    rw [hmsgs, exitMsgs_of_ne (by simp [hidle])]
  have hstart (hst : s.status = .ready) :
      Shape [] { s with playState := .stream, status := .buffering } := by
    obtain ⟨hidle, htimer, hvideo, hflush, haudio, hvideoDec, _⟩ := hready hst
    exact { h with
      ready_of_status := nofun
      idle_of_ready := nofun
      stream_of_opening := fun _ => rfl
      started_of_audioDec := fun hle => absurd hle not_audioDec_le_stream
      msgs := Or.inl (hempty hst)
      playing_of_flushing := fun hf => absurd hflush hf
      audioDec_of_worker := fun hw => absurd haudio hw
      videoRuns_of_worker := fun hw => absurd hvideoDec hw
      videoDec_of_decoded := by simp [hidle, ParserPc.running, ParserPc.started]
      audioDec_of_decoded := by simp [hidle, ParserPc.running, ParserPc.started] }
  refine doplay_ensures h (fun _ => ?_) (fun _ _ => ?_) (fun hst _ => ?_)
    (fun hst stream quit => ?_) (fun hst _ => ?_) trivial
  · exact doresume_keeps.imp fun t ht => ht.wf h
  · exact dostop_keeps.imp fun t ht => (show Keeps s t from { ht with }).wf h
  · refine show Shape (exitMsgs s.streamInputWorker _) _ from ?_
    rw [exitMsgs_of_ne (by simp [(hready hst).1])]
    exact hstart hst
  · exact Keeps.wf (s := s) { Keeps.refl s with
      playState := (h.ready_of_status hst).symm
      status := fun _ => hst } h
  · obtain ⟨_, htimer, hvideo, _⟩ := hready hst
    exact { hstart hst with
      idle_of_ready := nofun
      stream_of_opening := fun _ => rfl
      started_of_audioDec := fun hle => absurd hle not_audioDec_le_stream
      msgs := Or.inl (hempty hst)
      returned_of_timer := fun ht => absurd htimer ht
      started_of_video := fun hv => absurd hvideo hv
      videoDec_of_decoded := nofun
      audioDec_of_decoded := nofun }

/-! ## The stages of a start -/

theorem PlayState.le_trans {p q r : PlayState} (h : p ≤ q) (h' : q ≤ r) : p ≤ r :=
  Nat.le_trans h h'

theorem PlayState.ne_ready {p : PlayState} (h : .audioDec ≤ p) : p ≠ .ready := by
  rintro rfl
  exact absurd h (by decide)

theorem PlayState.ne_stream {p : PlayState} (h : .audioDec ≤ p) : p ≠ .stream := by
  rintro rfl
  exact absurd h (by decide)

theorem Shape.advance {q : PlayState} (h : Shape x s) (hp : .audioDec ≤ s.playState)
    (hplaying : s.playState ≠ .playing) (hq : s.playState ≤ q) :
    Shape x { s with playState := q } := by
  have hle : .audioDec ≤ q := PlayState.le_trans hp hq
  have hstream := PlayState.ne_stream hp
  exact { h with
    ready_of_status := fun hst => absurd (h.ready_of_status hst) (PlayState.ne_ready hp)
    idle_of_ready := fun hready => absurd hready (PlayState.ne_ready hle)
    stream_of_opening := fun hopen => absurd (h.stream_of_opening hopen) hstream
    started_of_audioDec := fun _ => h.started_of_audioDec hp
    msgs := h.msgs.imp id fun hmsgs => absurd hmsgs.2.1 hstream
    playing_of_flushing := fun hf => absurd (h.playing_of_flushing hf) hplaying
    audioDec_of_worker := fun _ => hle
    videoRuns_of_worker := fun hw =>
      ⟨PlayState.le_trans (h.videoRuns_of_worker hw).1 hq, (h.videoRuns_of_worker hw).2⟩
    videoDec_of_decoded := fun hrun hf => PlayState.le_trans (h.videoDec_of_decoded hrun hf) hq
    audioDec_of_decoded := fun _ _ => hle }

theorem streamReady_wf {ms : List Msg} (h : Wf s) (hm : s.mailbox = .streamReady :: ms) :
    Ensures (streamReady { s with mailbox := ms } env) Wf anyFault := by
  obtain ⟨hmsgs, hstarted⟩ := h.take_ready hm
  unfold streamReady
  simp only [ensures_bind, ensures_assert]
  refine ⟨fun hstate => ?_, fun _ => trivial⟩
  have hstream : s.playState = .stream := hstate
  have hnext : Shape (exitMsgs s.streamInputWorker s.streamExitTimerId)
      { s with mailbox := ms, playState := .audioDec } :=
    { h with
      ready_of_status := fun hst => absurd (hstream.symm.trans (h.ready_of_status hst)) (by simp)
      idle_of_ready := (by rintro ⟨⟩)
      stream_of_opening := fun hopen => by
        rcases hopen with hpc | hpc <;> rw [show s.streamInputWorker = _ from hpc] at hstarted <;>
          cases hstarted
      started_of_audioDec := fun _ => hstarted
      msgs := Or.inl hmsgs
      playing_of_flushing := fun hf =>
        absurd (hstream.symm.trans (h.playing_of_flushing hf)) (by simp)
      audioDec_of_worker := fun _ => Nat.le_refl _
      videoRuns_of_worker := fun hw =>
        absurd (hstream ▸ (h.videoRuns_of_worker hw).1) (by decide)
      videoDec_of_decoded := fun hrun hf =>
        absurd (hstream ▸ h.videoDec_of_decoded hrun hf) (by decide)
      audioDec_of_decoded := fun _ _ => Nat.le_refl _ }
  split
  · exact hnext.sendctl rfl
  · simp only [ensures_bind, ensures_assert]
    refine ⟨fun _ => ?_, fun _ => trivial⟩
    split
    · exact { hnext with audioDec_of_worker := fun _ => Nat.le_refl _ }
    · trivial

theorem audioDecReady_wf (h : Wf s) : Ensures (audioDecReady s env) Wf anyFault := by
  unfold audioDecReady
  simp only [ensures_bind, ensures_assert]
  refine ⟨fun hstate => ?_, fun _ => trivial⟩
  have hnext := h.advance (q := .videoDec) (by rw [hstate]; decide) (by rw [hstate]; decide)
    (by rw [hstate]; decide)
  split
  · exact hnext.sendctl rfl
  · rename_i hvideo
    simp only [ensures_bind, ensures_assert]
    refine ⟨fun _ => ?_, fun _ => trivial⟩
    split
    · exact { hnext with videoRuns_of_worker := fun _ => ⟨Nat.le_refl _, hvideo⟩ }
    · exact hnext.sendctl rfl

theorem videoDecReady_wf (h : Wf s) : Ensures (videoDecReady s) Wf anyFault := by
  unfold videoDecReady
  simp only [ensures_bind, ensures_assert]
  refine ⟨fun hstate => ?_, fun _ => trivial⟩
  have hnext := h.advance (q := .audioOut) (by rw [hstate]; decide) (by rw [hstate]; decide)
    (by rw [hstate]; decide)
  exact hnext.sendctl rfl

theorem audioOutReady_wf (h : Wf s) : Ensures (audioOutReady s env) Wf anyFault := by
  unfold audioOutReady
  simp only [ensures_bind, ensures_assert]
  refine ⟨fun hstate => ?_, fun _ => trivial⟩
  have hnext := h.advance (q := .videoOut) (by rw [hstate]; decide) (by rw [hstate]; decide)
    (by rw [hstate]; decide)
  split
  · exact hnext.sendctl rfl
  · simp only [ensures_bind, ensures_assert]
    refine ⟨fun _ => ?_, fun _ => trivial⟩
    split
    · exact { hnext with }
    · exact hnext.sendctl rfl

/-- The four handlers of the stages before the last: in the stage `p` the stage goes up, a worker is
    started or the next report is posted. -/
def NextStage (p : PlayState) (s t : State) : Prop :=
  s.playState = p ∧ ∃ q a v o mailbox, t = { s with
      playState := q
      audioDecoderWorker := a
      videoDecoderWorker := v
      videoOutputWorker := o
      mailbox := mailbox } ∧
    .audioDec ≤ q ∧ q ≠ .playing ∧ parserMsgs mailbox = parserMsgs s.mailbox

theorem streamReady_stage {E : Fault → Prop} (hE : ∀ f, f ≠ .checkpoint → f ≠ .hang → E f) :
    Ensures (streamReady s env) (NextStage .stream s) E := by
  unfold streamReady
  simp only [ensures_bind, ensures_assert]
  refine ⟨fun hp => ?_, fun _ => hE _ (by simp) (by simp)⟩
  have hrest : ∀ a mailbox, parserMsgs mailbox = parserMsgs s.mailbox → NextStage .stream s { s with
      playState := .audioDec, audioDecoderWorker := a, mailbox := mailbox } := fun a mailbox hm =>
    ⟨hp, _, _, _, _, _, rfl, by decide, by simp, hm⟩
  split
  · exact hrest _ _ (by simp [parserMsgs_other])
  · simp only [ensures_bind, ensures_assert]
    refine ⟨fun _ => ?_, fun _ => hE _ (by simp) (by simp)⟩
    split
    · exact hrest _ _ rfl
    · exact hE _ (by simp) (by simp)

theorem audioDecReady_stage {E : Fault → Prop} (hE : ∀ f, f ≠ .checkpoint → f ≠ .hang → E f) :
    Ensures (audioDecReady s env) (NextStage .audioDec s) E := by
  unfold audioDecReady
  simp only [ensures_bind, ensures_assert]
  refine ⟨fun hp => ?_, fun _ => hE _ (by simp) (by simp)⟩
  have hrest : ∀ v mailbox, parserMsgs mailbox = parserMsgs s.mailbox →
      NextStage .audioDec s { s with
      playState := .videoDec, videoDecoderWorker := v, mailbox := mailbox } := fun v mailbox hm =>
    ⟨hp, _, _, _, _, _, rfl, by decide, by simp, hm⟩
  split
  · exact hrest _ _ (by simp [parserMsgs_other])
  · simp only [ensures_bind, ensures_assert]
    refine ⟨fun _ => ?_, fun _ => hE _ (by simp) (by simp)⟩
    split
    · exact hrest _ _ rfl
    · exact hrest _ _ (by simp [parserMsgs_other])

theorem videoDecReady_stage {E : Fault → Prop} (hE : ∀ f, f ≠ .checkpoint → f ≠ .hang → E f) :
    Ensures (videoDecReady s) (NextStage .videoDec s) E := by
  unfold videoDecReady
  simp only [ensures_bind, ensures_assert]
  refine ⟨fun hp => ?_, fun _ => hE _ (by simp) (by simp)⟩
  exact ⟨hp, .audioOut, _, _, _, _, rfl, by decide, by simp, by simp [parserMsgs_other]⟩

theorem audioOutReady_stage {E : Fault → Prop} (hE : ∀ f, f ≠ .checkpoint → f ≠ .hang → E f) :
    Ensures (audioOutReady s env) (NextStage .audioOut s) E := by
  unfold audioOutReady
  simp only [ensures_bind, ensures_assert]
  refine ⟨fun hp => ?_, fun _ => hE _ (by simp) (by simp)⟩
  have hrest : ∀ o mailbox, parserMsgs mailbox = parserMsgs s.mailbox →
      NextStage .audioOut s { s with
      playState := .videoOut, videoOutputWorker := o, mailbox := mailbox } := fun o mailbox hm =>
    ⟨hp, _, _, _, _, _, rfl, by decide, by simp, hm⟩
  split
  · exact hrest _ _ (by simp [parserMsgs_other])
  · simp only [ensures_bind, ensures_assert]
    refine ⟨fun _ => ?_, fun _ => hE _ (by simp) (by simp)⟩
    split
    · exact hrest _ _ rfl
    · exact hrest _ _ (by simp [parserMsgs_other])

theorem videoOutReady_wf (h : Wf s) : Ensures (videoOutReady s env) Wf anyFault := by
  unfold videoOutReady
  simp only [ensures_bind, ensures_assert]
  refine ⟨fun hstate => ?_, fun _ => trivial⟩
  have hnext := h.advance (q := .playing) (by rw [hstate]; decide) (by rw [hstate]; decide)
    (by rw [hstate]; decide)
  have hwf : Wf { s with playState := .playing, underrun := true } := { hnext with }
  refine handleUnderrun_keeps.imp fun t ht => ?_
  simp only [ensures_checkpointContinue, ensures_ok]
  have hkeeps := (dopause_keeps _).trans ht
  refine ⟨fun _ => Keeps.wf (s := { s with playState := .playing, underrun := true }) ?_ hwf,
    fun _ => trivial⟩
  exact { hkeeps with status := (by rintro ⟨⟩) }

/-! ## The other messages -/

theorem pause_keeps : Keeps s (pause s env) := by
  rcases pause_cases s env with heq | ⟨_, heq⟩
  · rw [heq]
    exact Keeps.refl s
  · rw [heq]
    exact { dopause_keeps s with status := nofun }

theorem stop_keeps : Ensures (stop s env) (Keeps s) anyFault := by
  unfold stop
  split
  · exact Keeps.refl s
  · exact dostop_keeps.imp fun _ ht => { ht with }

theorem threadExit_keeps : Ensures (threadExit s env) (Keeps s) anyFault := by
  unfold threadExit
  split
  · exact dostop_keeps.imp fun _ ht => { ht with }
  · exact Keeps.refl s

theorem bufferUnderrun_keeps : Ensures (bufferUnderrun s env) (Keeps s) anyFault := by
  have hunder : Keeps s { s with underrun := true } := { Keeps.refl s with }
  refine bufferUnderrun_ensures (Keeps.refl s) (fun _ _ => ?_) fun _ _ => ?_
  · exact handleUnderrun_keeps.imp fun _ ht => (hunder.trans (dopause_keeps _)).trans ht
  · exact handleUnderrun_keeps.imp fun t ht => hunder.trans ht

theorem seekTo_keeps {pos : Int} : Ensures (seekTo s pos env) (Keeps s) anyFault := by
  refine seekTo_ensures (D := Keeps) (Keeps.refl s) (fun _ => resumeIfPaused_keeps)
    (fun _ ht => ht) (fun _ _ _ => drop_keeps.imp fun _ hu => { hu.1 with })
    (fun t _ => { Keeps.refl t with }) fun t u ht hu => handleUnderrun_keeps.imp fun v hv => ?_
  rw [ensures_checkpointContinue]
  refine ⟨fun _ => ?_, fun _ => trivial⟩
  have hlast : Keeps t v :=
    (show Keeps t { u with underrun := true } from { hu with }).trans
      ((dopause_keeps _).trans hv)
  exact { ht.trans hlast with }

theorem Wf.playItem (h : Wf s) (i : Nat) : Wf (playItem s i) := by
  unfold Player.playItem
  split
  · exact h
  · exact Wf.play (s := { s with playlistItem := some i }) { h with } _

theorem doseek_wf {flags : Nat} {incr : Int} (h : Wf s) :
    Ensures (doseek s flags incr env) Wf anyFault :=
  doseek_ensures h h.playItem (fun _ _ _ => seekTo_keeps.imp fun _ ht => ht.wf h)
    trivial

theorem trackAfter_nonneg {active : Int} {streams : List AVStream} {i next : Int} {found : Bool}
    (hi : 0 ≤ i) (h : trackAfter active streams i found = some next) : 0 ≤ next := by
  induction streams generalizing i found with
  | nil => simp [trackAfter] at h
  | cons st streams ih =>
    simp only [trackAfter] at h
    split at h
    · exact ih (by omega) h
    · split at h
      · exact ih (by omega) h
      · split at h
        · simp only [Option.some.injEq] at h
          omega
        · exact ih (by omega) h

theorem firstTrack_nonneg {streams : List AVStream} {i next : Int} (hi : 0 ≤ i)
    (h : firstTrack streams i = some next) : 0 ≤ next := by
  induction streams generalizing i with
  | nil => simp [firstTrack] at h
  | cons st streams ih =>
    simp only [firstTrack] at h
    split at h
    · simp only [Option.some.injEq] at h
      omega
    · exact ih (by omega) h

/-- The track a change without argument selects is a stream of the file. -/
theorem nextTrack_nonneg {active next : Int} {streams : List AVStream}
    (h : (trackAfter active streams 0 false).or (firstTrack streams 0) = some next) :
    0 ≤ next := by
  rcases Option.or_eq_some_iff.mp h with hafter | ⟨_, hfirst⟩
  · exact trackAfter_nonneg (Int.le_refl 0) hafter
  · exact firstTrack_nonneg (Int.le_refl 0) hfirst

theorem changeAudioTrack_wf {id : Option Int} (h : Wf s) :
    Ensures (changeAudioTrack s id) Wf anyFault := by
  refine changeAudioTrack_ensures h (fun _ _ _ _ hnext => ?_) (fun _ _ hid => ?_) (fun _ => ?_)
    trivial
  · have hnonneg := nextTrack_nonneg hnext
    exact { h with id_of_waiting := fun hidx => absurd hidx (by simp only; omega) }
  · exact { h with id_of_waiting := fun _ => hid }
  · exact { h with id_of_waiting := nofun }

theorem flushMsg_keeps : Ensures (flushMsg s env) (Keeps s) anyFault :=
  flushMsg_ensures ((flushLoop_keeps (by decide)).imp fun _ ht => { ht with }) trivial

theorem stillFrame_keeps {length : Nat} : Ensures (stillFrame s length env) (Keeps s) anyFault :=
  stillFrame_ensures (Keeps.refl s)
    ((flushLoop_keeps (by decide)).imp fun _ ht _ => { ht with }) trivial

theorem timer_wf {id : Nat} (h : Wf s) : Ensures (timer s id env) Wf anyFault := by
  refine timer_ensures h (fun _ _ => ?_) (fun _ _ => ?_) (fun _ _ => ?_) (fun hexit => ?_)
    { h with }
  · exact handleUnderrun_keeps.imp fun t ht => ht.wf h
  · exact handleUnderrun_keeps.imp fun t ht => (show Keeps s t from { ht with }).wf h
  · refine doresume_keeps.imp fun t ht => ?_
    exact (show Keeps s { t with status := .playing } from { ht with status := nofun }).wf h
  · -- the put off `STREAM_EXIT` comes back to the mailbox
    have hret := h.returned_of_timer (by simp [hexit])
    have hold : exitMsgs s.streamInputWorker s.streamExitTimerId = [] := by
      simp [exitMsgs, hexit]
    have hnew : exitMsgs s.streamInputWorker none = [.streamExit] := by
      simp [exitMsgs, hret]
    refine show Shape (exitMsgs s.streamInputWorker none) _ from ?_
    rw [hnew]
    have hmsgs := h.msgs
    rw [hold] at hmsgs
    exact { h with
      msgs := hmsgs.imp (fun hm => by simp [sendctl, hm])
        fun hm => ⟨by simp [sendctl, hm.1], hm.2⟩
      returned_of_timer := fun _ => hret }

/-! ## The end of a session -/

/-- Going on to the next file only posts a `PLAY`, and uses up `next_file`. -/
theorem playNext_eq (s : State) : ∃ playlist item mailbox, playNext s = { s with
    nextFile := none, playlist := playlist, playlistItem := item, mailbox := mailbox } ∧
    parserMsgs mailbox = parserMsgs s.mailbox := by
  unfold playNext
  split
  · exact ⟨_, _, _, rfl, play_msgs s _⟩
  · rename_i hnext
    split
    · exact ⟨s.playlist, s.playlistItem, s.mailbox, by rw [← hnext], rfl⟩
    · simp only
      split
      · exact ⟨s.playlist, _, s.mailbox, by rw [← hnext], rfl⟩
      · exact ⟨_, _, _, by rw [← hnext]; rfl, play_msgs s _⟩

/-- The player after the last `STREAM_EXIT`: ready, with nothing left of the session but flags. -/
theorem endSession_eq (s : State) (hshape : Shape x s) :
    ∃ nextFile playlist item mailbox, endSession s = { s with
      nextFile := nextFile
      playlist := playlist
      playlistItem := item
      mailbox := mailbox
      videoOutputWorker :=
        if s.videoStreamIndex ≠ -1 ∧ .videoOut ≤ s.playState then .idle else s.videoOutputWorker
      videoDecoderWorker := .idle
      audioDecoderWorker := .idle
      streamInputWorker := .idle
      videoStreamIndex := -1
      audioStreamIndex := -1
      fmtCtx := none
      stream := none
      status := .ready
      playState := .ready } ∧ parserMsgs mailbox = parserMsgs s.mailbox ∧
      (s.stopping = false → nextFile = none) := by
  have hvideo : (if s.videoStreamIndex ≠ -1 ∧ .videoDec ≤ s.playState then .idle
      else s.videoDecoderWorker) = WorkerPc.idle := by
    split
    · rfl
    · rename_i hruns
      by_contra hworker
      exact hruns (hshape.videoRuns_of_worker hworker).symm
  have haudio : (if .audioDec ≤ s.playState then .idle else s.audioDecoderWorker)
      = WorkerPc.idle := by
    split
    · rfl
    · rename_i hle
      by_contra hworker
      exact hle (hshape.audioDec_of_worker hworker)
  have hclean : cleanup s = { s with
      videoOutputWorker :=
        if s.videoStreamIndex ≠ -1 ∧ .videoOut ≤ s.playState then .idle else s.videoOutputWorker
      videoDecoderWorker := .idle
      audioDecoderWorker := .idle
      streamInputWorker := .idle
      videoStreamIndex := -1
      audioStreamIndex := -1
      fmtCtx := none
      stream := none
      status := .ready } := by
    unfold cleanup
    rw [hvideo, haudio]
  have hend : endSession s =
      { (if s.stopping then cleanup s else playNext (cleanup s)) with playState := .ready } := rfl
  rw [hend]
  by_cases hstop : s.stopping = true
  · rw [if_pos hstop, hclean]
    exact ⟨s.nextFile, s.playlist, s.playlistItem, s.mailbox, rfl, rfl, by simp [hstop]⟩
  · obtain ⟨playlist, item, mailbox, heq, hmsgs⟩ := playNext_eq (cleanup s)
    rw [if_neg hstop, heq, hclean]
    exact ⟨none, playlist, item, mailbox, rfl, hmsgs, fun _ => rfl⟩

theorem endSession_wf (hshape : Shape x s) (hmsgs : parserMsgs s.mailbox = [])
    (htimer : s.streamExitTimerId = none) (hflush : s.flushing = 0) : Wf (endSession s) := by
  obtain ⟨_, _, _, mailbox, heq, hmailbox, _⟩ := endSession_eq s hshape
  rw [heq]
  exact {
    ready_of_status := fun _ => rfl
    idle_of_ready := fun _ => rfl
    stream_of_opening := nofun
    started_of_audioDec := fun hle => absurd rfl (PlayState.ne_ready hle)
    msgs := Or.inl (hmailbox.trans hmsgs)
    returned_of_timer := fun ht => absurd htimer ht
    started_of_video := fun hv => absurd rfl hv
    playing_of_flushing := fun hf => absurd hflush hf
    audioDec_of_worker := fun hw => absurd rfl hw
    videoRuns_of_worker := fun hw => absurd rfl hw
    videoDec_of_decoded := nofun
    audioDec_of_decoded := nofun
    id_of_waiting := nofun }

theorem streamExit_wf {ms : List Msg} (h : Wf s) (hm : s.mailbox = .streamExit :: ms) :
    Ensures (streamExit { s with mailbox := ms } env) Wf anyFault := by
  obtain ⟨hmsgs, hret, htimer⟩ := h.take_exit hm
  have hshape : Shape [] { s with mailbox := ms } := { h with msgs := Or.inl hmsgs }
  unfold streamExit
  rw [ensures_bind]
  refine cancelUnderrun_keeps.imp fun t ht => ?_
  have hend : ∀ u, Keeps t u → u.flushing = 0 → Wf (endSession u) := fun u hu hflush => by
    have hall := ht.trans hu
    refine endSession_wf (hall.shape hshape) ?_ ?_ hflush
    · rw [hall.mailbox]
      exact hmsgs
    · rw [hall.streamExitTimerId]
      exact htimer
  split
  · rw [ensures_bind]
    exact drop_keeps.imp fun u hu => hend u hu.1 hu.2
  · rw [ensures_bind]
    refine (flush_keeps (ht.shape hshape)).imp fun r hr => ?_
    split
    · rename_i hdone
      exact hend r.1 hr.1 (hr.2 hdone)
    · have hall := ht.trans hr.1
      have hpc : r.1.streamInputWorker = .returned := hall.streamInputWorker.trans hret
      have hmailbox : parserMsgs r.1.mailbox = [] := by
        rw [hall.mailbox]
        exact hmsgs
      refine delayStreamExit_ensures (fun hnone _ => ?_) (fun hsome => ?_) trivial
      · refine show Shape (exitMsgs r.1.streamInputWorker r.1.streamExitTimerId) _ from ?_
        have hexits : exitMsgs r.1.streamInputWorker r.1.streamExitTimerId = [.streamExit] := by
          simp [exitMsgs, hpc, hnone]
        rw [hexits]
        exact { hall.shape hshape with msgs := Or.inl (by simp [sendctl, hmailbox]) }
      · refine show Shape (exitMsgs r.1.streamInputWorker env.timer) _ from ?_
        have hexits : exitMsgs r.1.streamInputWorker env.timer = [] := by
          simp [exitMsgs, hsome]
        rw [hexits]
        exact { hall.shape hshape with returned_of_timer := fun _ => hpc }

/-! ## Every step -/

theorem control_wf {m : Msg} {ms : List Msg} (h : Wf s) (hm : s.mailbox = m :: ms) :
    Ensures (control { s with mailbox := ms } m env) Wf anyFault := by
  have htake : parserMsgs [m] = [] → Wf { s with mailbox := ms } := fun hother =>
    h.setMailbox (by rw [hm, parserMsgs_cons m, hother, List.nil_append])
  unfold control
  cases m with
  | play path => exact doplay_wf (htake rfl)
  | pause => exact pause_keeps.wf (htake rfl)
  | stop => exact stop_keeps.imp fun t ht => ht.wf (htake rfl)
  | seek flags incr => exact doseek_wf (htake rfl)
  | threadExit => exact threadExit_keeps.imp fun t ht => ht.wf (htake rfl)
  | streamReady => exact streamReady_wf h hm
  | audioDecReady => exact audioDecReady_wf (htake rfl)
  | videoDecReady => exact videoDecReady_wf (htake rfl)
  | audioOutReady => exact audioOutReady_wf (htake rfl)
  | videoOutReady => exact videoOutReady_wf (htake rfl)
  | streamExit => exact streamExit_wf h hm
  | bufferUnderrun =>
    exact bufferUnderrun_keeps.imp fun t ht => ht.wf (htake rfl)
  | audioStreamUnderrun | info => exact htake rfl
  | changeAudioTrack streamId => exact changeAudioTrack_wf (htake rfl)
  | flush => exact flushMsg_keeps.imp fun t ht => ht.wf (htake rfl)
  | stillFrame length => exact stillFrame_keeps.imp fun t ht => ht.wf (htake rfl)
  | timer id => exact timer_wf (htake rfl)

/-! ## The workers -/

theorem Wf.setWorker (h : Wf s) (pc : ParserPc) (hnew : pc.started) (hret : pc ≠ .returned)
    (hold : s.streamInputWorker ≠ .returned) (hready : s.playState ≠ .ready)
    (hvideo : s.videoDecoderFlushed = false → .videoDec ≤ s.playState)
    (haudio : s.audioDecoderFlushed = false → .audioDec ≤ s.playState) :
    Wf { s with streamInputWorker := pc } := by
  have hmsgs := h.msgs
  rw [exitMsgs_of_ne hold] at hmsgs
  refine show Shape (exitMsgs pc s.streamExitTimerId) _ from ?_
  rw [exitMsgs_of_ne hret]
  exact { h with
    idle_of_ready := fun hr => absurd hr hready
    stream_of_opening := fun hpc => by
      rcases hpc with hpc | hpc <;> rw [show pc = _ from hpc] at hnew <;> cases hnew
    started_of_audioDec := fun _ => hnew
    msgs := hmsgs.imp id fun hm => ⟨hm.1, hm.2.1, hnew⟩
    returned_of_timer := fun ht => absurd (h.returned_of_timer ht) hold
    started_of_video := fun _ => hnew
    videoDec_of_decoded := fun _ => hvideo
    audioDec_of_decoded := fun _ => haudio }

theorem Wf.move (h : Wf s) (pc : ParserPc) (hstarted : s.streamInputWorker.started)
    (hold : s.streamInputWorker ≠ .returned) (hnew : pc.started) (hret : pc ≠ .returned) :
    Wf { s with streamInputWorker := pc } := by
  have hrun : s.streamInputWorker.running = true := by simp [ParserPc.running, hstarted]
  refine h.setWorker pc hnew hret hold (fun hready => ?_) (h.videoDec_of_decoded hrun)
    (h.audioDec_of_decoded hrun)
  rw [h.idle_of_ready hready] at hstarted
  cases hstarted

/-- The parser knows the streams of the file. -/
def withStreams (s : State) (streams : List AVStream) (clock : MasterTime) (audio video : Int) :
    State :=
  { s with
    fmtCtx := some streams
    audioPaused := false
    getmastertime := clock
    audioStreamIndex := audio
    videoStreamIndex := video }

/-- It then gives up, or halts itself and reports that it is ready. -/
theorem parserOpens_eq (s : State) (streams : List AVStream) (audio video : Int) (queues : Bool) :
    ∃ clock index, index ≠ -2 ∧
      (parserOpens s streams audio video queues =
          decoderExit (withStreams s streams clock index video) ∨
        parserOpens s streams audio video queues =
          sendctl { withStreams s streams clock index video with
            streamParserCheckpoint := s.streamParserCheckpoint + 1
            streamInputWorker := .loop } .streamReady) := by
  refine ⟨if 0 ≤ audio then .audioTime else .systemTime, if 0 ≤ audio then audio else -1, ?_, ?_⟩
  · split <;> omega
  · by_cases hqueues : 0 ≤ video ∧ ¬queues
    · exact Or.inl (if_pos hqueues)
    · by_cases hnone : (if 0 ≤ audio then audio else -1) = -1 ∧ video = -1
      · exact Or.inl ((if_neg hqueues).trans (if_pos hnone))
      · exact Or.inr ((if_neg hqueues).trans (if_neg hnone))

theorem parserOpens_wf {streams : List AVStream} {audio video : Int} {queues : Bool} (h : Wf s)
    (hpc : s.streamInputWorker = .opening) :
    Wf (parserOpens s streams audio video queues) := by
  have hstream := h.stream_of_opening (Or.inr hpc)
  have hrun : s.streamInputWorker.running = true := by rw [hpc]; rfl
  have hworker : s.videoDecoderWorker = .idle := by
    by_contra hw
    exact absurd (hstream ▸ (h.videoRuns_of_worker hw).1) (by decide)
  have hmsgs : parserMsgs s.mailbox = [] := by
    rcases h.msgs with hm | ⟨_, _, hstarted⟩
    · rw [hm, exitMsgs_of_ne (by simp [hpc])]
    · rw [hpc] at hstarted
      cases hstarted
  have hloop (pc : ParserPc) (hnew : pc.started) (hret : pc ≠ .returned) :=
    h.setWorker pc hnew hret (by simp [hpc]) (by simp [hstream]) (h.videoDec_of_decoded hrun)
      (h.audioDec_of_decoded hrun)
  obtain ⟨clock, index, hindex, heq | heq⟩ := parserOpens_eq s streams audio video queues
  · rw [heq]
    exact { hloop .exiting rfl (by simp) with
      started_of_video := fun _ => rfl
      videoRuns_of_worker := fun hw => absurd hworker hw
      id_of_waiting := fun hw => absurd hw hindex }
  · rw [heq]
    exact { hloop .loop rfl (by simp) with
      msgs := Or.inr ⟨by simp [sendctl, withStreams, hmsgs, exitMsgs], hstream, rfl⟩
      started_of_video := fun _ => rfl
      videoRuns_of_worker := fun hw => absurd hworker hw
      id_of_waiting := fun hw => absurd hw hindex }

theorem selectAudio_eq (s : State) (stream : Nat)
    (h : s.audioStreamIndex = -2 → s.audioStreamId ≠ -1) :
    selectAudio s stream = s ∨ s.audioStreamIndex = -2 ∧
      selectAudio s stream = { s with audioStreamIndex := stream } := by
  unfold selectAudio
  split
  · exact Or.inl rfl
  · split
    · rename_i hwait
      split
      · split
        · exact Or.inr ⟨hwait.2, rfl⟩
        · exact Or.inl rfl
      · rename_i hid
        exact absurd (h hwait.2) hid
    · exact Or.inl rfl

theorem parserStart_wf {alloc : Bool} (h : Wf s) (hpc : s.streamInputWorker = .delegated) :
    Ensures (parserStart s alloc) Wf anyFault := by
  have hstream := h.stream_of_opening (Or.inl hpc)
  refine parserStart_ensures (fun t ht => ?_) trivial
  subst ht
  have hreset : Wf { s with
      audioDecoderFlushed := true
      videoDecoderFlushed := true
      underrun := false
      getmastertime := .systemTime
      paused := 0 } :=
    { h with
      videoDec_of_decoded := nofun
      audioDec_of_decoded := nofun }
  have hmsgs := h.msgs
  rw [exitMsgs_of_ne (by simp [hpc])] at hmsgs
  constructor
  · refine Shape.sendctl (x := []) ?_ rfl
    exact { hreset with
      idle_of_ready := fun hr => absurd (hstream.symm.trans hr) (by simp)
      stream_of_opening := fun _ => hstream
      started_of_audioDec := fun hle => absurd hstream (PlayState.ne_stream hle)
      msgs := hmsgs.imp id fun hm => by
        have := hm.2.2
        rw [hpc] at this
        cases this
      returned_of_timer := fun ht =>
        absurd (hpc.symm.trans (h.returned_of_timer ht)) (by simp)
      started_of_video := fun hv => by
        have := h.started_of_video hv
        rw [hpc] at this
        cases this
      videoDec_of_decoded := nofun
      audioDec_of_decoded := nofun }
  · exact { hreset.setWorker .exiting rfl (by simp) (by simp [hpc]) (by simp [hstream])
      nofun nofun with }

/-- The parser ends: its `STREAM_EXIT` is the only one. -/
theorem parserEnd_wf (h : Wf s) (hpc : s.streamInputWorker = .exiting) : Wf (sendctl
    { s with streamInputWorker := .returned, streamQuit := true, streamExiting := false }
    .streamExit) := by
  have htimer : s.streamExitTimerId = none := by
    by_contra ht
    exact absurd (hpc.symm.trans (h.returned_of_timer ht)) (by simp)
  have hready : s.playState ≠ .ready := fun hr =>
    absurd (hpc.symm.trans (h.idle_of_ready hr)) (by simp)
  have hmsgs := h.msgs
  rw [exitMsgs_of_ne (by simp [hpc])] at hmsgs
  refine show Shape (exitMsgs .returned s.streamExitTimerId) _ from ?_
  rw [htimer]
  have hrun : s.streamInputWorker.running = true := by rw [hpc]; rfl
  exact { h with
    idle_of_ready := fun hr => absurd hr hready
    stream_of_opening := nofun
    started_of_audioDec := fun _ => rfl
    msgs := hmsgs.imp (fun hm => by simp [sendctl, hm, exitMsgs])
      fun hm => ⟨by simp [sendctl, hm.1, exitMsgs], hm.2.1, rfl⟩
    returned_of_timer := fun _ => rfl
    started_of_video := fun _ => rfl
    videoDec_of_decoded := fun _ => h.videoDec_of_decoded hrun
    audioDec_of_decoded := fun _ => h.audioDec_of_decoded hrun }

theorem parserStep_wf {input : ParserInput} {r : Except Fault State} (h : Wf s)
    (hstep : parserStep s input = some r) : Ensures r Wf anyFault := by
  refine parserStep_ensures hstep (fun hpc _ => parserStart_wf h hpc) (fun hpc _ _ => ?_)
    (fun hpc _ _ _ _ => parserOpens_wf h hpc) (fun hpc pc hnew => ?_) (fun hpc stream => ?_)
    (fun hpc => ?_) fun hpc => parserEnd_wf h hpc
  · have hstream := h.stream_of_opening (Or.inr hpc)
    have hrun : s.streamInputWorker.running = true := by rw [hpc]; rfl
    exact { h.setWorker .exiting rfl (by simp) (by simp [hpc]) (by simp [hstream])
      (h.videoDec_of_decoded hrun) (h.audioDec_of_decoded hrun) with }
  · rcases hpc with hpc | hpc <;> rcases hnew with rfl | rfl <;>
      exact h.move _ (by rw [hpc]; rfl) (by simp [hpc]) rfl (by simp)
  · have hmove := h.move .loop (by rw [hpc]; rfl) (by simp [hpc]) rfl (by simp)
    rcases selectAudio_eq s stream h.id_of_waiting with heq | ⟨_, heq⟩
    · rw [heq]
      exact hmove
    · rw [heq]
      exact { hmove with id_of_waiting := fun hw => absurd hw (by simp only; omega) }
  · rcases hpc with ⟨hpc, _⟩ | ⟨hpc, _⟩ <;>
      exact { h.move .exiting (by rw [hpc]; rfl) (by simp [hpc]) rfl (by simp) with }

/-- A worker only reports: it changes its own position, the flag of its decoder and the mailbox. -/
theorem workerStep_eq {w : Worker} {e : WorkerEvent} (hstep : workerStep s w e = some t) :
    ∃ a v o af vf mailbox, t = { s with
        audioDecoderWorker := a
        videoDecoderWorker := v
        videoOutputWorker := o
        audioDecoderFlushed := af
        videoDecoderFlushed := vf
        mailbox := mailbox } ∧ parserMsgs mailbox = parserMsgs s.mailbox ∧
      (a ≠ .idle → s.audioDecoderWorker ≠ .idle) ∧ (v ≠ .idle → s.videoDecoderWorker ≠ .idle) ∧
      (af = false → s.audioDecoderFlushed = false ∨ s.audioDecoderWorker ≠ .idle) ∧
      (vf = false → s.videoDecoderFlushed = false ∨ s.videoDecoderWorker ≠ .idle) := by
  unfold workerStep at hstep
  split at hstep
  · split at hstep
    · rename_i hw
      simp only at hstep
      split at hstep <;> cases hstep
      · exact ⟨_, _, _, _, _, _, rfl, by simp [parserMsgs_other], fun _ => by simp [hw], id, nofun,
          Or.inl⟩
      · exact ⟨_, _, _, _, _, _, rfl, rfl, fun _ => by simp [hw], id, nofun, Or.inl⟩
    · cases hstep
  · split at hstep <;> cases hstep
    rename_i hw
    exact ⟨_, _, _, _, _, _, rfl, rfl, id, id, fun _ => Or.inr (by simp [hw]), Or.inl⟩
  · split at hstep <;> cases hstep
    exact ⟨_, _, _, _, _, _, rfl, rfl, id, id, nofun, Or.inl⟩
  · split at hstep <;> cases hstep
    rename_i hw
    exact ⟨_, _, _, _, _, _, rfl, rfl, fun _ => hw, id, Or.inl, Or.inl⟩
  · split at hstep <;> cases hstep
    rename_i hw
    exact ⟨_, _, _, _, _, _, rfl, by simp [parserMsgs_other], id, fun _ => by simp [hw], Or.inl,
      nofun⟩
  · split at hstep <;> cases hstep
    rename_i hw
    exact ⟨_, _, _, _, _, _, rfl, rfl, id, id, Or.inl, fun _ => Or.inr (by simp [hw])⟩
  · split at hstep <;> cases hstep
    exact ⟨_, _, _, _, _, _, rfl, rfl, id, id, Or.inl, nofun⟩
  · split at hstep <;> cases hstep
    rename_i hw
    exact ⟨_, _, _, _, _, _, rfl, rfl, id, fun _ => hw, Or.inl, Or.inl⟩
  · split at hstep <;> cases hstep
    exact ⟨_, _, _, _, _, _, rfl, by simp [parserMsgs_other], id, id, Or.inl, Or.inl⟩
  · split at hstep <;> cases hstep
    exact ⟨_, _, _, _, _, _, rfl, rfl, id, id, Or.inl, Or.inl⟩
  · cases hstep
  · cases hstep

theorem workerStep_wf {w : Worker} {e : WorkerEvent} (h : Wf s)
    (hstep : workerStep s w e = some t) : Wf t := by
  obtain ⟨a, v, o, af, vf, mailbox, rfl, hmail, ha, hv, haf, hvf⟩ := workerStep_eq hstep
  exact { h.setMailbox hmail with
    audioDec_of_worker := fun hw => h.audioDec_of_worker (ha hw)
    videoRuns_of_worker := fun hw => h.videoRuns_of_worker (hv hw)
    videoDec_of_decoded := fun hrun hf =>
      (hvf hf).elim (h.videoDec_of_decoded hrun) fun hw => (h.videoRuns_of_worker hw).1
    audioDec_of_decoded := fun hrun hf =>
      (haf hf).elim (h.audioDec_of_decoded hrun) h.audioDec_of_worker }

/-- **The rule for steps**: what does not depend on the playlist, nor on messages that are posted
    and are not the parser's, is preserved by every step when the handlers and the workers preserve
    it. -/
theorem step_rule_posts {I : State → Prop} {E : Fault → Prop} {e : Event} {r : Result} (hI : I s)
    (hpost : ∀ playlist item ms, parserMsgs ms = [] →
      I { s with playlist := playlist, playlistItem := item, mailbox := s.mailbox ++ ms })
    (hcontrol : ∀ env m ms, e = .control env → s.mailbox = m :: ms →
      Ensures (control { s with mailbox := ms } m env) I E)
    (hparser : ∀ input x, e = .parser input → parserStep s input = some x → Ensures x I E)
    (hworker : ∀ w ev u, e = .worker w ev → workerStep s w ev = some u → I u)
    (hstep : step s e = some (t, r)) : I t ∧ ∀ f, r = .fault f → E f := by
  have hout : ∀ x : Except Fault State, Ensures x I E → outcome s x = (t, r) →
      I t ∧ ∀ f, r = .fault f → E f := by
    intro x hx heq
    cases x with
    | ok u =>
      cases heq
      exact ⟨hx, nofun⟩
    | error f =>
      cases heq
      exact ⟨hI, fun f' hf => by cases hf; exact hx⟩
  cases e with
  | play path =>
    cases hstep
    exact ⟨hpost _ _ _ (parserMsgs_play path), nofun⟩
  | playlist items selected =>
    obtain ⟨u, hu, heq⟩ := Option.map_eq_some_iff.mp hstep
    cases heq
    unfold startPlaylist at hu
    split at hu
    · cases hu
    · cases hu
      exact ⟨hpost _ _ _ (parserMsgs_play _), nofun⟩
  | post m =>
    simp only [step] at hstep
    split at hstep
    · cases hstep
    · rename_i hm
      cases hstep
      have hother : parserMsgs [m] = [] := by
        cases m <;> first | rfl | exact absurd rfl hm
      exact ⟨hpost s.playlist s.playlistItem _ hother, nofun⟩
  | control env =>
    simp only [step] at hstep
    split at hstep
    · cases hstep
    · rename_i m ms hms
      exact hout _ (hcontrol env m ms rfl hms) (Option.some.inj hstep)
  | parser input =>
    obtain ⟨x, hx, heq⟩ := Option.map_eq_some_iff.mp hstep
    exact hout x (hparser input x rfl hx) heq
  | worker w ev =>
    obtain ⟨u, hu, heq⟩ := Option.map_eq_some_iff.mp hstep
    cases heq
    exact ⟨hworker w ev _ rfl hu, nofun⟩

/-- The same for what depends on the mailbox only through the messages of the parser. -/
theorem step_rule {I : State → Prop} {E : Fault → Prop} {e : Event} {r : Result} (hI : I s)
    (hmail : ∀ playlist item mailbox, parserMsgs mailbox = parserMsgs s.mailbox →
      I { s with playlist := playlist, playlistItem := item, mailbox := mailbox })
    (hcontrol : ∀ env m ms, e = .control env → s.mailbox = m :: ms →
      Ensures (control { s with mailbox := ms } m env) I E)
    (hparser : ∀ input x, parserStep s input = some x → Ensures x I E)
    (hworker : ∀ w ev u, workerStep s w ev = some u → I u)
    (hstep : step s e = some (t, r)) : I t ∧ ∀ f, r = .fault f → E f :=
  step_rule_posts hI (fun _ _ ms hms => hmail _ _ _ (by simp [hms])) hcontrol
    (fun input x _ => hparser input x) (fun w ev u _ => hworker w ev u) hstep

theorem step_wf {e : Event} {r : Result} (h : Wf s) (hstep : step s e = some (t, r)) : Wf t := by
  refine (step_rule h (fun _ _ _ hmail => ?_) (fun env m ms _ hms => control_wf h hms)
    (fun _ _ => parserStep_wf h) (fun _ _ _ => workerStep_wf h) hstep).1
  exact { h.setMailbox hmail with }

/-! ## Conditions on the message that is handled -/

/-- `P` holds of the first message, if there is one. -/
def OnHead (P : Msg → Prop) : List Msg → Prop
  | [] => True
  | m :: _ => P m

instance {P : Msg → Prop} [DecidablePred P] : DecidablePred (OnHead P)
  | [] => inferInstanceAs (Decidable True)
  | m :: _ => inferInstanceAs (Decidable (P m))

/-- The condition `P` on the message that the control thread handles in this step. -/
def Handling (P : State → Msg → Env → Prop) (s : State) : Event → Prop
  | .control env => OnHead (P s · env) s.mailbox
  | _ => True

instance {P : State → Msg → Env → Prop} [∀ s m env, Decidable (P s m env)] (s : State) :
    ∀ e, Decidable (Handling P s e)
  | .control env => inferInstanceAs (Decidable (OnHead (P s · env) s.mailbox))
  | .play _ | .playlist _ _ | .post _ | .parser _ | .worker _ _ =>
    inferInstanceAs (Decidable True)

theorem Handling.head {P : State → Msg → Env → Prop} {s : State} {env : Env} {m : Msg}
    {ms : List Msg} (h : Handling P s (.control env)) (hm : s.mailbox = m :: ms) : P s m env := by
  have hhead : OnHead (P s · env) s.mailbox := h
  rw [hm] at hhead
  exact hhead

theorem Handling.imp {P Q : State → Msg → Env → Prop} {s : State}
    (h : ∀ m env, P s m env → Q s m env) : ∀ {e : Event}, Handling P s e → Handling Q s e
  | .control env, hP => by
    show OnHead (Q s · env) s.mailbox
    have hhead : OnHead (P s · env) s.mailbox := hP
    cases hm : s.mailbox with
    | nil => trivial
    | cons m ms =>
      rw [hm] at hhead
      exact h m env hhead
  | .play _, _ | .playlist _ _, _ | .post _, _ | .parser _, _ | .worker _ _, _ => trivial

/-! ## Runs -/

/-- What a handler finds when nothing fails and the pipeline is full; timers get the id `id`. -/
def fullEnv (id : Nat) : Env where
  buffers := ⟨20, 10, 20, 16000, 16000, 0, 0, 10, 16000⟩
  timer := some id
  applicationDelegate := true
  threadDelegate := true
  provider := none
  canPause := true
  underrunExpected := false
  masterTime := 0
  chapter := .refused
  seeks := true
  videoRounds := 0
  audioRounds := 0
  videoFrame := true
  audioBlocking := false

/-- The start of a file with one video and one audio stream, up to `VIDEOOUT_READY`; the timer that
    waits for the buffers has the id 2. -/
def startup (file : Path) : List Event :=
  [.play (some file), .control (fullEnv 0), .parser (.start true),
    .parser (.opens [⟨false, 0⟩, ⟨true, 1⟩] 1 0 true), .control (fullEnv 1), .control (fullEnv 0),
    .worker .audioDecoder .ready, .control (fullEnv 0), .worker .videoDecoder .ready,
    .control (fullEnv 0), .control (fullEnv 0), .worker .videoOutput .ready, .control (fullEnv 2)]

/-- What a handler finds when nothing fails and the pipeline is empty. -/
def emptyEnv (id : Nat) : Env := (fullEnv id).drained

/-- The file plays to its end: the parser reads up to the end of the stream and reports it. -/
def readToEnd : List Event :=
  [.post (.timer 2), .control (fullEnv 0), .parser .next, .parser .next, .parser .fails,
    .parser .next]

end Mediabox.Player
