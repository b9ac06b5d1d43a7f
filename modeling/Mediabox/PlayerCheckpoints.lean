import Mediabox.PlayerLife

/-!
# The halt counts of the checkpoints

Every halt of a worker is released again: by the handler that made it, or later.  Three halts
outlive the handler, and each has a trace in the state.

* `ownHalt` — the stream parser halts itself when it has opened the file and is released by
  `VIDEOOUT_READY`.
* `flushHalt` — a flush that returns 0 holds the stream parser until the flush is over.
* `pauseHalt` — a pause holds the video output of a stream without audio.
* `halt_left_by_stop` — a `STOP` while the flush at the end of the stream is under way: the pipeline
  is dropped, `flushing` is cleared, and the halt of the flush is left behind in the ready player.
* `checkpoints_balanced` — when no such flush is dropped, the player is not stopped in the middle of
  a start, and what decides about a `pauseHalt` does not change under it, no release finds a
  checkpoint at 0, and the counts of a ready player are 0.
-/

set_option autoImplicit false

namespace Mediabox.Player

open Transition Outcome

variable {s t : State} {env : Env} {k : Nat}

/-! ## The condition -/

/-- A change of the audio track neither turns the audio on nor off. -/
def keepsAudio (s : State) : Option Int → Prop
  | none => s.audioStreamIndex = -1 → ∀ st ∈ s.fmtCtx.getD [], st.audio = false
  | some id => s.audioStreamIndex = -1 ↔ id = -1

instance (s : State) : ∀ streamId, Decidable (keepsAudio s streamId)
  | none => inferInstanceAs (Decidable (_ → ∀ st ∈ s.fmtCtx.getD [], st.audio = false))
  | some _ => inferInstanceAs (Decidable (_ ↔ _))

/-- No drop loses a halt, and none of the halts of a pause changes its meaning. -/
def HaltsPaired (s : State) (m : Msg) (env : Env) : Prop :=
  match m with
  | .pause => pauseAccepted s env → s.streamInputWorker ≠ .opening
  | .seek _ _ => s.status = .playing ∨ s.status = .paused → s.underrun = false →
      s.streamInputWorker ≠ .opening ∧ (env.seeks → s.flushing = 0)
  | .streamExit =>
      (s.stopping → s.flushing = 0 ∧ (s.playState = .stream ∨ s.playState = .playing)) ∧
        (endsSession s env → videoOnly s.videoStreamIndex s.audioStreamIndex →
          s.paused ≤ bufferingPauses s.underrunTimerId)
  | .changeAudioTrack streamId => 0 < s.paused → s.videoStreamIndex ≠ -1 → keepsAudio s streamId
  | _ => True

instance (s : State) (env : Env) : ∀ m, Decidable (HaltsPaired s m env)
  | .pause => inferInstanceAs (Decidable (_ → _))
  | .seek _ _ => inferInstanceAs (Decidable (_ → _ → _ ∧ (_ → _)))
  | .streamExit => inferInstanceAs (Decidable ((_ → _ ∧ _) ∧ (_ → _ → _)))
  | .changeAudioTrack _ => inferInstanceAs (Decidable (_ → _ → _))
  | .play _ | .stop | .threadExit | .streamReady | .audioDecReady | .videoDecReady
  | .audioOutReady | .videoOutReady | .bufferUnderrun | .audioStreamUnderrun | .flush
  | .stillFrame _ | .info | .timer _ => inferInstanceAs (Decidable True)

/-! ## The invariant -/

/-- The halt with which the stream parser waits for the rest of the player. -/
def ownHalt (playState : PlayState) (mailbox : List Msg) : Nat :=
  if .streamReady ∈ parserMsgs mailbox ∨ .audioDec ≤ playState ∧ playState ≠ .playing then 1 else 0

/-- The halt of a flush that is under way. -/
def flushHalt (flushing : Nat) : Nat := if flushing ≠ 0 then 1 else 0

/-- The halt of a pause. -/
def pauseHalt (paused : Nat) (videoStreamIndex audioStreamIndex : Int) : Nat :=
  if 0 < paused ∧ videoOnly videoStreamIndex audioStreamIndex then 1 else 0

/-- Every halt is accounted for; `k` more of the stream parser are by the handler itself. -/
structure Balance (k : Nat) (s : State) : Prop where
  parser : s.streamParserCheckpoint = ownHalt s.playState s.mailbox + flushHalt s.flushing + k
  audio : s.audioDecoderCheckpoint = 0
  video : s.videoDecoderCheckpoint = 0
  output : s.videoOutputCheckpoint = pauseHalt s.paused s.videoStreamIndex s.audioStreamIndex
  opening : s.streamInputWorker = .opening → s.paused = 0
  context : s.fmtCtx ≠ none → s.streamInputWorker.running

theorem new_balance : Balance 0 new where
  parser := rfl
  audio := rfl
  video := rfl
  output := rfl
  opening := nofun
  context := fun h => absurd rfl h

/-- Any fault but the assertion of `avbox_checkpoint_continue`. -/
def notCheckpoint : Fault → Prop := fun f => f ≠ .checkpoint

theorem ownHalt_mailbox {p : PlayState} {ms ms' : List Msg}
    (h : .streamReady ∈ parserMsgs ms ↔ .streamReady ∈ parserMsgs ms') :
    ownHalt p ms = ownHalt p ms' := by
  simp only [ownHalt, h]

theorem Balance.setMailbox {ms : List Msg} (h : Balance k s)
    (hms : .streamReady ∈ parserMsgs ms ↔ .streamReady ∈ parserMsgs s.mailbox) :
    Balance k { s with mailbox := ms } :=
  { h with parser := h.parser.trans (by rw [ownHalt_mailbox hms]) }

theorem Balance.sendctl {m : Msg} (h : Balance k s) (hm : m ≠ .streamReady) :
    Balance k (sendctl s m) :=
  h.setMailbox (by
    rw [parserMsgs_append, List.mem_append, or_iff_left]
    simp [parserMsgs, hm.symm])

theorem ownHalt_starting {p : PlayState} {ms : List Msg} (hp : .audioDec ≤ p) (hne : p ≠ .playing) :
    ownHalt p ms = 1 := if_pos (Or.inr ⟨hp, hne⟩)

/-- Before the stages of the start, and after them, the parser is not held. -/
theorem ownHalt_none {p : PlayState} {ms : List Msg} (hms : .streamReady ∉ parserMsgs ms)
    (hp : p = .playing ∨ ¬.audioDec ≤ p) : ownHalt p ms = 0 := by
  refine if_neg fun hhalt => ?_
  rcases hhalt with hmem | ⟨hle, hne⟩
  · exact hms hmem
  · exact hp.elim hne fun hnot => hnot hle

theorem pauseHalt_zero {v a : Int} : pauseHalt 0 v a = 0 := if_neg fun h => absurd h.1 (by simp)

theorem pauseHalt_pos {p : Nat} {v a : Int} (hp : 0 < p) :
    pauseHalt p v a = if videoOnly v a then 1 else 0 := by
  simp [pauseHalt, hp]

/-! ## Pausing and underruns -/

theorem dopause_balance (h : Balance k s) (hopen : s.streamInputWorker ≠ .opening) :
    Balance k (dopause s) := by
  by_cases hzero : s.paused = 0
  · rw [dopause_first hzero]
    refine { h with output := ?_, opening := fun ho => absurd ho hopen }
    have hout := h.output
    rw [hzero, pauseHalt_zero] at hout
    simp [pauseHalt_pos, hout]
  · have hmore : dopause s = { s with paused := s.paused + 1 } := if_neg hzero
    rw [hmore]
    refine { h with output := ?_, opening := fun ho => absurd ho hopen }
    rw [h.output, pauseHalt_pos (Nat.pos_of_ne_zero hzero), pauseHalt_pos (Nat.succ_pos _)]

theorem doresume_balance (h : Balance k s) : Ensures (doresume s env) (Balance k) notCheckpoint := by
  refine doresume_ensures (fun _ => h) (fun hmany => ?_) (fun hone _ _ => ?_)
    (fun _ _ => by simp [notCheckpoint]) (fun hone hvideo hfree => ?_)
    fun _ _ => by simp [notCheckpoint]
  · refine { h with output := ?_, opening := fun ho => ?_ }
    · rw [h.output, pauseHalt_pos (by omega), pauseHalt_pos (show 0 < s.paused - 1 by omega)]
    · have hzero := h.opening ho
      omega
  · refine { h with output := ?_, opening := fun _ => rfl }
    have hout := h.output
    rw [hone, pauseHalt_pos Nat.one_pos] at hout
    simp only [resumed, hout, pauseHalt_zero]
    split <;> rfl
  · have hout := h.output
    rw [hone, pauseHalt_pos Nat.one_pos, if_pos hvideo] at hout
    exact absurd (hfree.symm.trans hout) (by simp)

theorem handleUnderrun_balance (h : Balance k s) :
    Ensures (handleUnderrun s env) (Balance k) notCheckpoint := by
  refine handleUnderrun_ensures (fun _ _ => { h with }) fun _ => ?_
  exact (doresume_balance (s := { s with status := .buffering, underrunTimerId := none })
    { h with }).imp fun _ ht => { ht with }

theorem resumeIfPaused_balance (h : Balance k s) :
    Ensures (resumeIfPaused s env) (Balance k) notCheckpoint :=
  resumeIfPaused_ensures (fun _ => h) fun _ => doresume_balance h

theorem dostop_balance (h : Balance k s) : Ensures (dostop s env) (Balance k) notCheckpoint := by
  unfold dostop
  split
  · exact h
  · exact resumeIfPaused_balance (s := { s with streamQuit := true }) { h with }

/-! ## Dropping and flushing -/

theorem dropped_balance (h : Balance k s) (hflush : s.flushing = 0) : Balance k (dropped s) :=
  { h with parser := h.parser.trans (by rw [hflush]; rfl) }

theorem Shape.decodersFlushed {x : List Msg} (h : Shape x s) (hrun : s.streamInputWorker.running) :
    s.DecodersFlushed :=
  ⟨fun _ => h.videoDec_of_decoded hrun, h.audioDec_of_decoded hrun⟩

theorem drop_balance (h : Balance k s) (hdec : s.DecodersFlushed) (hflush : s.flushing = 0) :
    Ensures (drop s env) (fun t => t = dropped s ∧ Balance k t) notCheckpoint :=
  drop_ensures (fun _ => ⟨rfl, dropped_balance h hflush⟩) (fun _ => by simp [notCheckpoint])
    fun hnot => absurd hdec hnot

theorem beginFlush_balance {flags : Nat} (hflags : flags ≠ 0) (h : Balance k s) :
    Balance k (beginFlush s flags) := by
  refine { h with parser := ?_ }
  have hparser := h.parser
  by_cases hf : s.flushing = 0
  · simp only [beginFlush, hf, hflags, flushHalt, ↓reduceIte, ne_eq, not_true_eq_false,
      not_false_eq_true] at hparser ⊢
    omega
  · simpa [beginFlush, hf] using hparser

theorem flushedTo_balance {a v : Bool} (h : Balance k s) : Balance k (flushedTo s a v) := by
  refine { h with parser := ?_ }
  have hparser := h.parser
  by_cases hf : s.flushing = 0
  · simpa [flushedTo, hf] using hparser
  · simp only [flushedTo, hf, flushHalt, ↓reduceIte, ne_eq, not_true_eq_false,
      not_false_eq_true] at hparser ⊢
    omega

theorem Balance.halted_of_flushing (h : Balance k s) (hf : s.flushing ≠ 0) :
    s.streamParserCheckpoint ≠ 0 := by
  have hparser := h.parser
  rw [flushHalt, if_pos hf] at hparser
  omega

theorem flushLoop_balance {flags : Nat} (hflags : flags ≠ 0) (h : Balance k s) :
    Ensures (flushLoop s flags env) (Balance k) notCheckpoint :=
  flushLoop_ensures hflags (fun _ hf _ => hf) (fun _ => h)
    (fun _ a v _ _ => { flushedTo_balance (a := a) (v := v) h with })
    fun hf hzero => absurd hzero (h.halted_of_flushing hf)

/-! ## The handlers -/

theorem Balance.release (h : Balance (k + 1) s) :
    Ensures (checkpointContinue s.streamParserCheckpoint)
      (fun count => Balance k { s with streamParserCheckpoint := count }) notCheckpoint := by
  have hparser := h.parser
  rw [ensures_checkpointContinue]
  refine ⟨fun _ => { h with parser := ?_ }, fun hzero => ?_⟩
  · simp only
    omega
  · omega

theorem doplay_balance {path : Option Path} (hwf : Wf s) (h : Balance 0 s) :
    Ensures (doplay s path env) (Balance 0) notCheckpoint := by
  have hown (hst : s.status = .ready) :
      ownHalt s.playState s.mailbox = ownHalt .stream s.mailbox := by
    rw [hwf.ready_of_status hst]
    exact if_congr (or_congr Iff.rfl (by decide)) rfl rfl
  refine doplay_ensures h (fun _ => doresume_balance h) (fun _ path => ?_) (fun hst _ => ?_)
    (fun hst _ _ => ?_) (fun hst _ => ?_) (by simp [notCheckpoint])
  · exact dostop_balance (s := { s with nextFile := some path }) { h with }
  · exact { h with parser := h.parser.trans (by rw [hown hst]) }
  · exact { h with parser := h.parser.trans (by rw [hwf.ready_of_status hst]) }
  · refine { h with
      parser := h.parser.trans (by rw [hown hst])
      opening := nofun
      context := fun hctx => ?_ }
    have hrun := h.context hctx
    rw [hwf.idle_of_ready (hwf.ready_of_status hst)] at hrun
    cases hrun

theorem pause_balance (h : Balance k s)
    (hok : pauseAccepted s env → s.streamInputWorker ≠ .opening) : Balance k (pause s env) := by
  rcases pause_cases s env with heq | ⟨hacc, heq⟩
  · rw [heq]
    exact h
  · rw [heq]
    exact { dopause_balance h (hok hacc) with }

theorem stop_balance (h : Balance k s) : Ensures (stop s env) (Balance k) notCheckpoint := by
  unfold stop
  split
  · exact h
  · exact dostop_balance (s := { s with stopping := true }) { h with }

theorem threadExit_balance (h : Balance k s) :
    Ensures (threadExit s env) (Balance k) notCheckpoint := by
  unfold threadExit
  split
  · exact dostop_balance (s := { s with stopping := true }) { h with }
  · exact h

theorem seekTo_balance {pos : Int} (h : Balance 0 s) (hdec : s.DecodersFlushed)
    (hok : s.underrun = false → s.streamInputWorker ≠ .opening ∧ (env.seeks → s.flushing = 0)) :
    Ensures (seekTo s pos env) (Balance 0) notCheckpoint := by
  have hresume (hunder : s.underrun = false) : Ensures (resumeIfPaused s env)
      (fun t => Balance 0 t ∧ t.streamInputWorker ≠ .opening ∧ t.DecodersFlushed ∧
        (env.seeks → t.flushing = 0)) notCheckpoint := by
    obtain ⟨hopen, hflush⟩ := hok hunder
    refine ((resumeIfPaused_balance h).and resumeIfPaused_frame).mono (fun t ht => ?_)
      fun _ h => h.1
    obtain ⟨hbal, _, _, _, _, _, heq⟩ := ht
    rw [heq] at hbal ⊢
    exact ⟨hbal, hopen, hdec, hflush⟩
  have hone {t : State} (h : Balance 0 t) :
      Balance 1 { t with streamParserCheckpoint := t.streamParserCheckpoint + 1 } :=
    { h with parser := by simp only [h.parser] }
  refine seekTo_ensures (D := fun _ u => Balance 1 u ∧ u.streamInputWorker ≠ .opening) h hresume
    (fun _ ht => ht.1) (fun t ht hseeks => ?_) (fun t ht => ⟨hone ht.1, ht.2.1⟩)
    fun t u _ hu => ?_
  · refine (drop_balance (hone ht.1) ht.2.2.1 (ht.2.2.2 hseeks)).imp fun u hu => ⟨hu.2, ?_⟩
    rw [hu.1]
    exact ht.2.1
  · have hpause : Balance 1 (dopause { u with underrun := true }) :=
      dopause_balance (s := { u with underrun := true }) { hu.1 with } hu.2
    exact (handleUnderrun_balance hpause).imp fun v hv => hv.release

theorem playItem_balance (h : Balance k s) (i : Nat) : Balance k (playItem s i) := by
  unfold playItem
  split
  · exact h
  · exact Balance.sendctl (s := { s with playlist := [], playlistItem := _ }) { h with } nofun

theorem doseek_balance {flags : Nat} {incr : Int} (hwf : Wf s) (h : Balance 0 s)
    (hok : s.status = .playing ∨ s.status = .paused → s.underrun = false →
      s.streamInputWorker ≠ .opening ∧ (env.seeks → s.flushing = 0)) :
    Ensures (doseek s flags incr env) (Balance 0) notCheckpoint :=
  doseek_ensures h (playItem_balance h)
    (fun hst hctx _ => seekTo_balance h (hwf.decodersFlushed (h.context hctx)) (hok hst))
    (by simp [notCheckpoint])

/-- The reports of the stages: the parser stays held until the last one. -/
theorem NextStage.balance {p : PlayState} {ms : List Msg} (h : Balance 0 s)
    (hown : ownHalt s.playState s.mailbox = 1) (hnext : NextStage p { s with mailbox := ms } t) :
    Balance 0 t := by
  obtain ⟨_, q, _, _, _, _, rfl, hle, hq, _⟩ := hnext
  exact { h with parser := h.parser.trans (by rw [hown, ownHalt_starting hle hq]) }

theorem Shape.no_ready {pc : ParserPc} {id : Option Nat} (h : Shape (exitMsgs pc id) s)
    (hp : s.playState ≠ .stream) : .streamReady ∉ parserMsgs s.mailbox := by
  rcases h.msgs with hmsgs | ⟨_, hstream, _⟩
  · rw [hmsgs, exitMsgs]
    split <;> simp
  · exact absurd hstream hp

theorem videoOutReady_balance (hwf : Wf s) (h : Balance 0 s) :
    Ensures (videoOutReady s env) (Balance 0) notCheckpoint := by
  unfold videoOutReady
  simp only [ensures_bind, ensures_assert]
  refine ⟨fun hstate => ?_, fun _ => by simp [notCheckpoint]⟩
  have hstarted := hwf.started_of_audioDec (by rw [hstate]; decide)
  have hplaying : Balance 1 { s with playState := .playing, underrun := true } := by
    refine { h with parser := ?_ }
    have hparser := h.parser
    rw [hstate, ownHalt_starting (by decide) (by simp)] at hparser
    rw [ownHalt_none (hwf.no_ready (by simp [hstate])) (Or.inl rfl)]
    simp only
    omega
  have hpause : Balance 1 (dopause { s with playState := .playing, underrun := true }) :=
    dopause_balance hplaying fun hopen => by
      rw [show s.streamInputWorker = .opening from hopen] at hstarted
      cases hstarted
  refine (handleUnderrun_balance hpause).imp fun t ht => ?_
  exact ht.release.imp fun _ hu => { hu with }

theorem bufferUnderrun_balance (hwf : Wf s) (h : Balance k s) :
    Ensures (bufferUnderrun s env) (Balance k) notCheckpoint := by
  refine bufferUnderrun_ensures h (fun hplay _ => handleUnderrun_balance ?_)
    fun _ _ => handleUnderrun_balance { h with }
  refine dopause_balance (s := { s with underrun := true }) { h with } fun hopen => ?_
  exact absurd (hplay.symm.trans (hwf.stream_of_opening (Or.inr hopen))) (by simp)

theorem timer_balance {id : Nat} (h : Balance k s) :
    Ensures (timer s id env) (Balance k) notCheckpoint := by
  refine timer_ensures h (fun _ _ => handleUnderrun_balance h)
    (fun _ _ => handleUnderrun_balance { h with }) (fun _ _ => ?_)
    (fun _ => { h.sendctl (m := .streamExit) nofun with }) { h with }
  exact (doresume_balance (s := { s with underrun := false, underrunTimerId := none })
    { h with }).imp fun _ ht => { ht with }

theorem trackAfter_none {active : Int} {streams : List AVStream} {i : Int} {found : Bool}
    (h : ∀ st ∈ streams, st.audio = false) : trackAfter active streams i found = none := by
  induction streams generalizing i with
  | nil => rfl
  | cons st streams ih =>
    rw [trackAfter, if_pos (by simp [h st (by simp)])]
    exact ih fun st' hst => h st' (List.mem_cons_of_mem _ hst)

theorem firstTrack_none {streams : List AVStream} {i : Int}
    (h : ∀ st ∈ streams, st.audio = false) : firstTrack streams i = none := by
  induction streams generalizing i with
  | nil => rfl
  | cons st streams ih =>
    rw [firstTrack, if_neg (by simp [h st (by simp)])]
    exact ih fun st' hst => h st' (List.mem_cons_of_mem _ hst)

theorem pauseHalt_congr {p : Nat} {v a a' : Int}
    (h : 0 < p → v ≠ -1 → (a = -1 ↔ a' = -1)) : pauseHalt p v a = pauseHalt p v a' := by
  have hiff : (0 < p ∧ videoOnly v a) ↔ (0 < p ∧ videoOnly v a') :=
    ⟨fun hh => ⟨hh.1, hh.2.1, (h hh.1 hh.2.1).mp hh.2.2⟩,
      fun hh => ⟨hh.1, hh.2.1, (h hh.1 hh.2.1).mpr hh.2.2⟩⟩
  simp only [pauseHalt, hiff]

theorem changeAudioTrack_balance {id : Option Int} (h : Balance k s)
    (hok : 0 < s.paused → s.videoStreamIndex ≠ -1 → keepsAudio s id) :
    Ensures (changeAudioTrack s id) (Balance k) notCheckpoint := by
  refine changeAudioTrack_ensures h (fun streams next hctx hid hnext => ?_) (fun id hid hne => ?_)
    (fun hid => ?_) (by simp [notCheckpoint])
  · subst hid
    have hnonneg := nextTrack_nonneg hnext
    refine { h with output := h.output.trans (pauseHalt_congr fun hp hv => ?_) }
    refine ⟨fun hoff => ?_, fun hoff => absurd (show next = -1 from hoff) (by omega)⟩
    have hnone : ∀ st ∈ streams, st.audio = false := by simpa [hctx] using hok hp hv hoff
    rw [trackAfter_none hnone, firstTrack_none hnone] at hnext
    cases hnext
  · subst hid
    refine { h with output := h.output.trans (pauseHalt_congr fun hp hv => ?_) }
    refine ⟨fun hoff => absurd ((hok hp hv).mp hoff) hne, nofun⟩
  · subst hid
    refine { h with output := h.output.trans (pauseHalt_congr fun hp hv => ?_) }
    exact ⟨fun _ => rfl, fun _ => (hok hp hv).mpr rfl⟩

theorem flushMsg_balance (h : Balance k s) :
    Ensures (flushMsg s env) (Balance k) notCheckpoint :=
  flushMsg_ensures ((flushLoop_balance (by decide) h).imp fun _ ht => { ht with })
    (by simp [notCheckpoint])

theorem stillFrame_balance {length : Nat} (h : Balance k s) :
    Ensures (stillFrame s length env) (Balance k) notCheckpoint :=
  stillFrame_ensures h
    ((flushLoop_balance (by decide) h).imp fun _ ht _ => { ht with })
    (by simp [notCheckpoint])

/-! ## The end of a session -/

theorem endSession_balance {x : List Msg} (hshape : Shape x s) (h : Balance 0 s)
    (hmsgs : parserMsgs s.mailbox = []) (hflush : s.flushing = 0)
    (hstage : s.playState = .stream ∨ s.playState = .playing)
    (hpaused : videoOnly s.videoStreamIndex s.audioStreamIndex → s.paused = 0) :
    Balance 0 (endSession s) := by
  have hparser : s.streamParserCheckpoint = 0 := by
    rw [h.parser, ownHalt_none (by simp [hmsgs]) ?_, hflush]
    · rfl
    · rcases hstage with hst | hst
      · exact Or.inr (by rw [hst]; decide)
      · exact Or.inl hst
  have houtput : s.videoOutputCheckpoint = 0 := by
    rw [h.output]
    refine if_neg fun hpause => ?_
    have hzero := hpaused hpause.2
    omega
  obtain ⟨_, _, _, mailbox, heq, hmailbox, _⟩ := endSession_eq s hshape
  rw [heq]
  refine { h with
    parser := ?_
    output := ?_
    opening := nofun
    context := fun hctx => absurd rfl hctx }
  · have hown : ownHalt .ready mailbox = 0 :=
      ownHalt_none (by simp [hmailbox, hmsgs]) (Or.inr (by decide))
    simpa [hown, flushHalt, hflush] using hparser
  · rw [houtput]
    exact (if_neg fun hpause => hpause.2.1 rfl).symm

theorem delayStreamExit_balance (h : Balance k s) :
    Ensures (delayStreamExit s env) (Balance k) notCheckpoint :=
  delayStreamExit_ensures (fun _ _ => h.sendctl nofun) (fun _ => { h with })
    (by simp [notCheckpoint])

theorem cancelUnderrun_balance (h : Balance k s) :
    Ensures (cancelUnderrun s env) (Balance k) notCheckpoint :=
  cancelUnderrun_ensures (fun _ => h) fun _ =>
    doresume_balance (s := { s with underrunTimerId := none }) { h with }

theorem streamExit_balance {ms : List Msg} (hwf : Wf s) (hm : s.mailbox = .streamExit :: ms)
    (h : Balance 0 s) (hok : HaltsPaired s .streamExit env) :
    Ensures (streamExit { s with mailbox := ms } env) (Balance 0) notCheckpoint := by
  obtain ⟨hmsgs, hret, _⟩ := hwf.take_exit hm
  obtain ⟨hdrop, hpaused⟩ := hok
  have hshape : Shape [] { s with mailbox := ms } := { hwf with msgs := Or.inl hmsgs }
  have htake : Balance 0 { s with mailbox := ms } :=
    h.setMailbox (by rw [hm, parserMsgs_cons, hmsgs]; simp)
  unfold streamExit
  rw [ensures_bind]
  refine ((cancelUnderrun_balance htake).and (cancelUnderrun_frame.and cancelUnderrun_keeps)).mono
    (fun t ht => ?_) fun _ h => h.1
  obtain ⟨hbal, ⟨status, output, running, audio, heq⟩, hkeeps⟩ := ht
  have htshape := hkeeps.shape hshape
  have htmsgs : parserMsgs t.mailbox = [] := by rw [hkeeps.mailbox]; exact hmsgs
  have htrun : t.streamInputWorker.running := by
    rw [hkeeps.streamInputWorker, show ({ s with mailbox := ms } : State).streamInputWorker = _
      from hret]
    rfl
  have hzero (hend : endsSession s env)
      (hvideo : videoOnly t.videoStreamIndex t.audioStreamIndex) : t.paused = 0 := by
    rw [hkeeps.videoStreamIndex, hkeeps.audioStreamIndex] at hvideo
    have hle := hpaused hend hvideo
    rw [heq]
    exact Nat.sub_eq_zero_of_le hle
  split
  · rename_i hstop
    have hstop : s.stopping = true := by rw [heq] at hstop; exact hstop
    have hflush : t.flushing = 0 := by rw [heq]; exact (hdrop hstop).1
    rw [ensures_bind]
    refine (drop_balance hbal (htshape.decodersFlushed htrun) hflush).imp fun u hu => ?_
    obtain ⟨rfl, hu⟩ := hu
    refine endSession_balance ((dropped_keeps t).shape htshape) hu htmsgs rfl ?_
      (hzero (Or.inl hstop))
    rw [(dropped_keeps t).playState, hkeeps.playState]
    exact (hdrop hstop).2
  · rw [ensures_bind]
    refine flush_ensures (fun _ hf _ => hf) (fun hst => ?_) (fun _ _ => ?_)
      (fun hplay hflush a v _ => ?_) fun hf hfree => absurd hfree (hbal.halted_of_flushing hf)
    · -- the file could not be opened
      have hstream : s.playState = .stream := hkeeps.playState.symm.trans hst
      exact endSession_balance htshape hbal htmsgs (htshape.flushing_zero (by simp [hst]))
        (Or.inl hst) (hzero (Or.inr (Or.inl hstream)))
    · exact delayStreamExit_balance (beginFlush_balance (by decide) hbal)
    · have hflush : flushable s flushAll env := by rw [heq] at hflush; exact hflush
      have hplaying : s.playState = .playing := hkeeps.playState.symm.trans hplay
      exact endSession_balance ((flushedTo_keeps hplay).shape htshape) (flushedTo_balance hbal)
        htmsgs rfl (Or.inr hplay) (hzero (Or.inr (Or.inr ⟨hplaying, hflush⟩)))

/-! ## Every step -/

theorem control_balance {m : Msg} {ms : List Msg} (hwf : Wf s) (h : Balance 0 s)
    (hm : s.mailbox = m :: ms) (hok : HaltsPaired s m env) :
    Ensures (control { s with mailbox := ms } m env) (Balance 0) notCheckpoint := by
  have hmsgs (hother : parserMsgs [m] = []) : parserMsgs ms = parserMsgs s.mailbox := by
    rw [hm, parserMsgs_cons m, hother, List.nil_append]
  have htake (hother : parserMsgs [m] = []) : Balance 0 { s with mailbox := ms } :=
    h.setMailbox (by rw [hmsgs hother])
  have hwf' (hother : parserMsgs [m] = []) : Wf { s with mailbox := ms } :=
    hwf.setMailbox (hmsgs hother)
  have hstage {p : PlayState} (hle : .audioDec ≤ p) (hp : p ≠ .playing) (t : State)
      (ht : NextStage p { s with mailbox := ms } t) : Balance 0 t := by
    have hplay : s.playState = p := ht.1
    exact ht.balance h (by rw [hplay, ownHalt_starting hle hp])
  unfold control
  cases m with
  | play path => exact doplay_balance (hwf' rfl) (htake rfl)
  | pause => exact pause_balance (htake rfl) hok
  | stop => exact stop_balance (htake rfl)
  | seek flags incr => exact doseek_balance (hwf' rfl) (htake rfl) hok
  | threadExit => exact threadExit_balance (htake rfl)
  | streamReady =>
    refine (streamReady_stage fun _ hf _ => hf).imp fun t ht => ht.balance h ?_
    exact if_pos (Or.inl (by rw [hm, parserMsgs_cons]; simp))
  | audioDecReady =>
    exact (audioDecReady_stage fun _ hf _ => hf).imp (hstage (by decide) nofun)
  | videoDecReady =>
    exact (videoDecReady_stage fun _ hf _ => hf).imp (hstage (by decide) nofun)
  | audioOutReady =>
    exact (audioOutReady_stage fun _ hf _ => hf).imp (hstage (by decide) nofun)
  | videoOutReady => exact videoOutReady_balance (hwf' rfl) (htake rfl)
  | streamExit => exact streamExit_balance hwf hm h hok
  | bufferUnderrun => exact bufferUnderrun_balance (hwf' rfl) (htake rfl)
  | audioStreamUnderrun | info => exact htake rfl
  | changeAudioTrack streamId =>
    refine changeAudioTrack_balance (htake rfl) fun hp hv => ?_
    have hkeep := hok hp hv
    cases streamId <;> exact hkeep
  | flush => exact flushMsg_balance (htake rfl)
  | stillFrame length => exact stillFrame_balance (htake rfl)
  | timer id => exact timer_balance (htake rfl)

theorem parserOpens_balance {streams : List AVStream} {audio video : Int} {queues : Bool}
    (hwf : Wf s) (h : Balance 0 s) (hpc : s.streamInputWorker = .opening) :
    Balance 0 (parserOpens s streams audio video queues) := by
  have hzero := h.opening hpc
  have houtput (a : Int) : s.videoOutputCheckpoint = pauseHalt s.paused video a := by
    rw [h.output, hzero, pauseHalt_zero, pauseHalt_zero]
  obtain ⟨clock, index, _, heq | heq⟩ := parserOpens_eq s streams audio video queues
  · rw [heq]
    exact { h with output := houtput index, opening := nofun, context := fun _ => rfl }
  · rw [heq]
    refine { h with
      parser := ?_
      output := houtput index
      opening := nofun
      context := fun _ => rfl }
    -- before, there was neither a halt of the parser nor a `STREAM_READY`
    have hno : .streamReady ∉ parserMsgs s.mailbox := by
      rcases hwf.msgs with hmsgs | ⟨_, _, hstarted⟩
      · rw [hmsgs, exitMsgs_of_ne (by simp [hpc])]
        exact List.not_mem_nil
      · rw [hpc] at hstarted
        cases hstarted
    have hparser := h.parser
    rw [ownHalt_none hno (Or.inr (by rw [hwf.stream_of_opening (Or.inr hpc)]; decide))] at hparser
    have hown : ownHalt s.playState (s.mailbox ++ [Msg.streamReady]) = 1 := if_pos (Or.inl (by simp))
    simp only [sendctl, withStreams, hown]
    omega

theorem parserStep_balance {input : ParserInput} {r : Except Fault State} (hwf : Wf s)
    (h : Balance 0 s) (hstep : parserStep s input = some r) :
    Ensures r (Balance 0) notCheckpoint := by
  refine parserStep_ensures hstep (fun hpc _ => ?_) (fun _ _ _ => ?_)
    (fun hpc _ _ _ _ => parserOpens_balance hwf h hpc) (fun _ _ hnew => ?_) (fun _ stream => ?_)
    (fun _ => ?_) fun _ => ?_
  · have hvideo : s.videoStreamIndex = -1 := by
      by_contra hv
      have hstarted := hwf.started_of_video hv
      rw [hpc] at hstarted
      cases hstarted
    have houtput : s.videoOutputCheckpoint =
        pauseHalt 0 s.videoStreamIndex s.audioStreamIndex := by
      rw [h.output, pauseHalt_zero]
      exact if_neg fun hpause => hpause.2.1 hvideo
    refine parserStart_ensures (fun t ht => ?_) (by simp [notCheckpoint])
    subst ht
    constructor
    · refine Balance.sendctl ?_ nofun
      exact { h with output := houtput, opening := fun _ => rfl, context := fun _ => rfl }
    · exact { h with output := houtput, opening := nofun, context := fun _ => rfl }
  · exact { h with opening := nofun, context := fun _ => rfl }
  · rcases hnew with rfl | rfl <;> exact { h with opening := nofun, context := fun _ => rfl }
  · rcases selectAudio_eq s stream hwf.id_of_waiting with heq | ⟨hwait, heq⟩
    · rw [heq]
      exact { h with opening := nofun, context := fun _ => rfl }
    · rw [heq]
      refine { h with
        output := h.output.trans (pauseHalt_congr fun _ _ => ?_)
        opening := nofun
        context := fun _ => rfl }
      simp only [hwait]
      omega
  · exact { h with opening := nofun, context := fun _ => rfl }
  · refine Balance.sendctl ?_ nofun
    exact { h with opening := nofun, context := fun _ => rfl }

theorem workerStep_balance {w : Worker} {e : WorkerEvent} (h : Balance k s)
    (hstep : workerStep s w e = some t) : Balance k t := by
  obtain ⟨_, _, _, _, _, _, rfl, hmail, _⟩ := workerStep_eq hstep
  exact { h.setMailbox (by rw [hmail]) with }

theorem step_balance {e : Event} {r : Result} (hwf : Wf s) (h : Balance 0 s)
    (hok : Handling HaltsPaired s e) (hstep : step s e = some (t, r)) :
    Balance 0 t ∧ r ≠ .fault .checkpoint := by
  have hrule := step_rule (E := notCheckpoint) h
    (fun _ _ _ hmail => { h.setMailbox (by rw [hmail]) with })
    (fun env m ms he hms => by
      subst he
      exact control_balance hwf h hms (hok.head hms))
    (fun _ _ => parserStep_balance hwf h) (fun _ _ _ => workerStep_balance h) hstep
  exact ⟨hrule.1, fun hr => hrule.2 _ hr rfl⟩

/-! ## The result -/

/-- **The checkpoints are balanced**: in every run in which no halt is lost, no release finds a
    count at 0, and the counts of a ready player are 0. -/
theorem checkpoints_balanced {tr : List (Event × Result)}
    (h : Run (Guarded step (Handling HaltsPaired)) new tr s) :
    (∀ a ∈ tr, a.2 ≠ .fault .checkpoint) ∧
      (s.playState = .ready → s.streamParserCheckpoint = 0 ∧ s.audioDecoderCheckpoint = 0 ∧
        s.videoDecoderCheckpoint = 0 ∧ s.videoOutputCheckpoint = 0) := by
  have hall := Run.history
    (P := fun tr s => Wf s ∧ Balance 0 s ∧ ∀ a ∈ tr, a.2 ≠ .fault .checkpoint)
    ⟨new_wf, new_balance, fun a ha => nomatch ha⟩
    (fun tr t a u hinv hstep => by
      obtain ⟨hwf, hbal, hpast⟩ := hinv
      obtain ⟨hbal', hlast⟩ := step_balance hwf hbal hstep.1 hstep.2
      refine ⟨step_wf hwf hstep.2, hbal', fun b hb => ?_⟩
      rcases List.mem_append.mp hb with hold | hnew
      · exact hpast b hold
      · rw [List.mem_singleton.mp hnew]
        exact hlast) h
  obtain ⟨hwf, hbal, hlabels⟩ := hall
  refine ⟨hlabels, fun hready => ⟨?_, hbal.audio, hbal.video, ?_⟩⟩
  · have hflush := (hwf.of_ready hready).2.2.2.1
    rw [hbal.parser, hflush, ownHalt_none (hwf.no_ready (by simp [hready]))
      (Or.inr (by rw [hready]; decide))]
    rfl
  · have hvideo := (hwf.of_ready hready).2.2.1
    rw [hbal.output]
    exact if_neg fun hpause => hpause.2.1 hvideo

/-- A file that is played to its end: the hypotheses of `checkpoints_balanced` can be met in a run
    in which the flush at the end returns 0 once and 1 at the second call. -/
theorem checkpoints_balanced_at_end : ∃ tr s,
    Run (Guarded step (Handling HaltsPaired)) new tr s ∧ s.playState = .ready ∧
      s.streamParserCheckpoint = 0 := by
  obtain ⟨tr, s, hrun, hready⟩ := exists_run_of_guarded_exec step (Handling HaltsPaired) new
    (fun _ s => s.playState = .ready)
    (startup ['a'] ++ readToEnd ++
      [Event.control (fullEnv 5), .post (.timer 5), .control (fullEnv 0), .control (emptyEnv 0)])
    (by decide +kernel)
  exact ⟨tr, s, hrun, hready, ((checkpoints_balanced hrun).2 hready).1⟩

/-- **A stop loses the halt of a flush**: at the end of the stream the pipeline is not empty, the
    flush returns 0 and holds the parser; a `STOP` comes before the timer that tries again, and the
    pipeline is dropped instead.  The player is ready with its parser halted for good. -/
theorem halt_left_by_stop : ∃ tr s, Run (Step step) new tr s ∧
    s.playState = .ready ∧ s.streamParserCheckpoint ≠ 0 :=
  exists_run_of_exec step new (fun _ s => s.playState = .ready ∧ s.streamParserCheckpoint ≠ 0)
    (startup ['a'] ++ readToEnd ++
      [Event.control (fullEnv 5), .post .stop, .control (fullEnv 0), .post (.timer 5),
        .control (fullEnv 0), .control (fullEnv 0)]) (by decide +kernel)

end Mediabox.Player
