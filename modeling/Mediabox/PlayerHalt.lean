import Mediabox.PlayerPause

/-!
# Halting the pipeline

`avbox_player_drop` halts the stream parser and the decoders with `avbox_player_halt`, which asserts
that the player is not paused.  Here are the states of the player in which it does so.

* `entersHalt` — the state in which the handling of a message comes to `avbox_player_halt`, if it
  does: in a seek that `avbox_player_doseek` accepted, or in `STREAM_EXIT` after a stop.
* `EndsApart`, `InOrder` — the stream of a player that is stopping does not end while it is
  paused, and it is not paused once the stream has ended.
* `HaltInv` — the invariant: a session that is stopping and whose stream has ended is not paused,
  and the audio stream runs until the player plays.
* Main result: `entersHalt_running` — whoever comes to `avbox_player_halt` finds a player that is
  not paused, by `entersHalt_audio` with the audio stream running.
-/

set_option autoImplicit false

namespace Mediabox.Player

open Transition Outcome

/-! ## Where the pipeline is halted -/

/-- The position that `avbox_player_doseek` goes to; `none` when it refuses the seek, or leaves it
    to the provider or the playlist. -/
def seekPos (s : State) (flags : Nat) (incr : Int) (env : Env) : Option Int :=
  if (s.status ≠ .playing ∧ s.status ≠ .paused) ∨ s.fmtCtx = none ∨ s.stream.any (·.hasSeek) then
    none
  else if flags &&& seekChapter ≠ 0 then
    match env.chapter with
    | .pos pos => some pos
    | .refused | .nextItem | .prevItem => none
  else if flags &&& seekAbsolute ≠ 0 then some incr
  else if flags &&& seekRelative ≠ 0 then some (env.masterTime + incr)
  else none

/-- The state in which a seek to `pos` calls `avbox_player_drop`. -/
def seekDrops (s : State) (pos : Int) (env : Env) : Option State :=
  if s.underrun ∨ pos = -1 ∨ ¬env.seeks then none
  else
    match resumeIfPaused s env with
    | .ok t => some { t with streamParserCheckpoint := t.streamParserCheckpoint + 1 }
    | .error _ => none

/-- The state in which `STREAM_EXIT` calls `avbox_player_drop`. -/
def exitDrops (s : State) (env : Env) : Option State :=
  match cancelUnderrun s env with
  | .ok t => if t.stopping then some t else none
  | .error _ => none

/-- The state in which the handling of `m` calls `avbox_player_drop`, and that `avbox_player_halt`.
    -/
def entersHalt (s : State) (m : Msg) (env : Env) : Option State :=
  match m with
  | .seek flags incr => (seekPos s flags incr env).bind (seekDrops s · env)
  | .streamExit => exitDrops s env
  | _ => none

variable {s t : State} {env : Env} {m : Msg}

theorem doseek_of_seekPos {flags : Nat} {incr pos : Int}
    (h : seekPos s flags incr env = some pos) : doseek s flags incr env = seekTo s pos env := by
  unfold seekPos at h
  split at h
  · cases h
  · rename_i hno
    rw [not_or, not_or] at hno
    obtain ⟨hst, hctx, hseek⟩ := hno
    unfold doseek
    rw [if_neg hst]
    simp only [assert, hctx, ne_eq, not_false_eq_true, ↓reduceIte, bind, Except.bind, hseek,
      Bool.false_eq_true]
    split at h
    · rename_i hchapter
      rw [if_pos hchapter]
      cases hpos : env.chapter <;> simp_all
    · rename_i hchapter
      rw [if_neg hchapter]
      split at h
      · rename_i habs
        rw [if_pos habs]
        cases h
        rfl
      · rename_i habs
        rw [if_neg habs]
        split at h
        · rename_i hrel
          rw [if_pos hrel]
          cases h
          rfl
        · cases h

/-- **The handling goes through the drop**: what it does is the drop from the state it comes to
    `avbox_player_halt` in, and what follows. -/
theorem control_of_entersHalt (h : entersHalt s m env = some t) :
    ∃ rest, control s m env = drop t env >>= rest := by
  unfold entersHalt at h
  split at h
  · rename_i flags incr
    obtain ⟨pos, hpos, hdrops⟩ := Option.bind_eq_some_iff.mp h
    unfold seekDrops at hdrops
    split at hdrops
    · cases hdrops
    · rename_i hno
      rw [not_or, not_or, not_not] at hno
      obtain ⟨hunder, hne, hseeks⟩ := hno
      split at hdrops
      · rename_i u hu
        cases hdrops
        refine ⟨fun t => do
          let t ← handleUnderrun (dopause { t with underrun := true }) env
          let count ← checkpointContinue t.streamParserCheckpoint
          .ok { t with streamParserCheckpoint := count }, ?_⟩
        show doseek s flags incr env = _
        rw [doseek_of_seekPos hpos]
        unfold seekTo seekFrame
        simp only [hunder, Bool.false_eq_true, ↓reduceIte, hu, bind, Except.bind, hne, hseeks]
      · cases hdrops
  · unfold exitDrops at h
    split at h
    · rename_i u hu
      split at h
      · rename_i hstop
        cases h
        refine ⟨fun t => .ok (endSession t), ?_⟩
        show streamExit s env = _
        unfold streamExit
        simp only [hu, bind, Except.bind, hstop, ↓reduceIte]
      · cases h
    · cases h
  · cases h

/-! ## The condition -/

/-- The parser has left its loop. -/
def ParserPc.ended : ParserPc → Bool
  | .exiting | .returned => true
  | .idle | .delegated | .opening | .loop | .checkpoint | .reading => false

/-- Once the stream has ended a player that is stopping is not paused, and a player that is paused
    is not stopped without being resumed: `avbox_player_dostop` leaves the stream of a provider
    paused. -/
def EndsApart (s : State) (m : Msg) (env : Env) : Prop :=
  s.streamInputWorker.ended = true →
    (m = .pause → pauseAccepted s env → s.stopping = false) ∧
      (m = .stop ∨ m = .threadExit → s.stream.isSome → s.status ≠ .paused)

instance (s : State) (m : Msg) (env : Env) : Decidable (EndsApart s m env) :=
  inferInstanceAs (Decidable (_ → (_ → _ → _) ∧ (_ → _ → _)))

/-- Pauses are taken apart from each other and from the end of the stream. -/
def Apart (s : State) (m : Msg) (env : Env) : Prop := PausesApart s m env ∧ EndsApart s m env

instance (s : State) (m : Msg) (env : Env) : Decidable (Apart s m env) :=
  inferInstanceAs (Decidable (_ ∧ _))

/-- The condition on a step of the player. -/
def InOrder (s : State) : Event → Prop
  | .control env => OnHead (Apart s · env) s.mailbox
  | .parser input => leavesLoop s input → s.stopping = true → s.status ≠ .paused
  | _ => True

instance (s : State) : ∀ e, Decidable (InOrder s e)
  | .control env => inferInstanceAs (Decidable (OnHead (Apart s · env) s.mailbox))
  | .parser _ => inferInstanceAs (Decidable (_ → _ → _))
  | .play _ | .playlist _ _ | .post _ | .worker _ _ => inferInstanceAs (Decidable True)

/-! ## The invariant -/

/-- The start of a session, from the report of the parser to `VIDEOOUT_READY`. -/
def State.Starting (s : State) : Prop :=
  (.streamReady ∈ parserMsgs s.mailbox ∨ .audioDec ≤ s.playState) ∧ s.playState ≠ .playing

structure HaltInv (s : State) : Prop where
  ended : s.stopping = true → s.streamInputWorker.ended = true → s.status ≠ .paused
  starting : s.Starting → s.audioPaused = false

theorem HaltInv.frame (h : HaltInv s) (hstop : t.stopping = s.stopping)
    (hworker : t.streamInputWorker.ended = true → s.streamInputWorker.ended = true)
    (hst : t.status = .paused → s.status = .paused) (hplay : t.playState = s.playState)
    (hmail : .streamReady ∈ parserMsgs t.mailbox → .streamReady ∈ parserMsgs s.mailbox)
    (haudio : s.playState ≠ .playing → s.audioPaused = false → t.audioPaused = false) :
    HaltInv t where
  ended := fun hs hw ht => h.ended (hstop.symm.trans hs) (hworker hw) (hst ht)
  starting := fun ⟨hstart, hne⟩ => by
    rw [hplay] at hstart hne
    exact haudio hne (h.starting ⟨hstart.imp_left hmail, hne⟩)

/-- Before the report of the parser. -/
theorem HaltInv.of_early (hworker : s.streamInputWorker.ended ≠ true)
    (hmail : .streamReady ∉ parserMsgs s.mailbox) (hplay : ¬.audioDec ≤ s.playState) :
    HaltInv s :=
  ⟨fun _ hended => absurd hended hworker, fun ⟨hstart, _⟩ => absurd hstart (by simp [hmail, hplay])⟩

theorem Wf.stream_of_report (hwf : Wf s) (hmail : .streamReady ∈ parserMsgs s.mailbox) :
    s.playState = .stream := by
  rcases hwf.msgs with hmsgs | ⟨_, hstream, _⟩
  · rw [hmsgs, exitMsgs] at hmail
    split at hmail <;> simp at hmail
  · exact hstream

/-- Without a session the parser neither reports nor ends. -/
theorem Wf.no_session (hwf : Wf s) (hready : s.playState = .ready) :
    s.streamInputWorker.ended ≠ true ∧ .streamReady ∉ parserMsgs s.mailbox := by
  refine ⟨?_, fun hmail => ?_⟩
  · rw [hwf.idle_of_ready hready]
    nofun
  · exact absurd (hready.symm.trans (hwf.stream_of_report hmail)) (by simp)

theorem HaltInv.of_ready (hwf : Wf s) (hready : s.playState = .ready) : HaltInv s :=
  HaltInv.of_early (hwf.no_session hready).1 (hwf.no_session hready).2 (by rw [hready]; decide)

theorem new_haltInv : HaltInv new := HaltInv.of_ready new_wf rfl

/-- What a handler does that pauses the stream only while the player plays, and never for the
    user. -/
structure Calm (s t : State) : Prop extends Keeps s t where
  stopping : t.stopping = s.stopping
  unpaused : t.status = .paused → s.status = .paused
  audio : s.playState ≠ .playing → s.audioPaused = false → t.audioPaused = false

theorem Calm.refl (s : State) : Calm s s := ⟨Keeps.refl s, rfl, id, fun _ => id⟩

theorem Calm.trans {u : State} (h : Calm s t) (h' : Calm t u) : Calm s u where
  toKeeps := h.toKeeps.trans h'.toKeeps
  stopping := h'.stopping.trans h.stopping
  unpaused := fun hu => h.unpaused (h'.unpaused hu)
  audio := fun hp hs => h'.audio (by rw [h.playState]; exact hp) (h.audio hp hs)

theorem Calm.inv (hq : Calm s t) (h : HaltInv s) : HaltInv t :=
  h.frame hq.stopping (by rw [hq.streamInputWorker]; exact id) hq.unpaused hq.playState
    (by rw [hq.mailbox]; exact id) hq.audio

theorem dopause_calm (hplay : s.playState = .playing) : Calm s (dopause s) where
  toKeeps := dopause_keeps s
  stopping := by unfold dopause; split <;> rfl
  unpaused := by unfold dopause; split <;> exact id
  audio := fun hne => absurd hplay hne

theorem doresume_calm : Ensures (doresume s env) (Calm s) anyFault := by
  refine doresume_ensures (fun _ => Calm.refl s) (fun _ => { Calm.refl s with })
    (fun _ _ _ => ?_) (fun _ _ => trivial) (fun _ _ _ => trivial) fun _ _ => trivial
  exact { Keeps.refl s with
    status := nofun
    stopping := rfl
    unpaused := nofun
    audio := fun _ _ => rfl }

theorem handleUnderrun_calm : Ensures (handleUnderrun s env) (Calm s) anyFault := by
  refine handleUnderrun_ensures
    (fun _ _ => { Calm.refl s with status := nofun, unpaused := nofun }) fun _ => ?_
  refine doresume_calm.imp fun t ht => ?_
  exact { ht with status := nofun, unpaused := nofun }

theorem resumeIfPaused_calm : Ensures (resumeIfPaused s env) (Calm s) anyFault :=
  resumeIfPaused_ensures (fun _ => Calm.refl s) fun _ => doresume_calm

theorem cancelUnderrun_calm : Ensures (cancelUnderrun s env) (Calm s) anyFault :=
  cancelUnderrun_ensures (fun _ => Calm.refl s) fun _ =>
    doresume_calm.imp fun _ ht => { ht with }

theorem dostop_calm : Ensures (dostop s env) (Calm s) anyFault := by
  unfold dostop
  split
  · exact Calm.refl s
  · exact resumeIfPaused_calm.imp fun _ ht => { ht with }

theorem dropped_calm (s : State) : Calm s (dropped s) where
  toKeeps := dropped_keeps s
  stopping := rfl
  unpaused := id
  audio := fun _ hs => by
    show (if _ then _ else _) = _
    split
    · rfl
    · exact hs

theorem flushedTo_calm {a v : Bool} (hplay : s.playState = .playing) :
    Calm s (flushedTo s a v) :=
  ⟨flushedTo_keeps hplay, rfl, id, fun hne => absurd hplay hne⟩

theorem flushLoop_calm {flags : Nat} (hflags : flags ≠ 0) :
    Ensures (flushLoop s flags env) (Calm s) anyFault :=
  flushLoop_ensures hflags (fun _ _ _ => trivial) (fun _ => Calm.refl s)
    (fun hplay a v _ _ =>
      { flushedTo_calm (a := a) (v := v) hplay with audioFlushed := fun _ => Or.inr hplay })
    fun _ _ => trivial

theorem seekTo_calm {pos : Int} (hplay : s.playState = .playing) :
    Ensures (seekTo s pos env) (Calm s) anyFault := by
  refine seekTo_ensures (D := Calm) (Calm.refl s) (fun _ => resumeIfPaused_calm) (fun _ ht => ht)
    (fun t _ _ => ?_) (fun t _ => { Calm.refl t with }) fun t u ht hu =>
      handleUnderrun_calm.imp fun v hv => ?_
  · exact drop_ensures (fun _ => { dropped_calm _ with }) (fun _ => trivial) fun _ => trivial
  · rw [ensures_checkpointContinue]
    refine ⟨fun _ => ?_, fun _ => trivial⟩
    have hu : Calm s { u with underrun := true } := { ht.trans hu with }
    have hpause := dopause_calm (s := { u with underrun := true }) (hu.playState.trans hplay)
    exact { hu.trans (hpause.trans hv) with }

/-! ## The handlers -/

theorem HaltInv.setMailbox {ms : List Msg} (h : HaltInv s)
    (hmail : .streamReady ∈ parserMsgs ms → .streamReady ∈ parserMsgs s.mailbox) :
    HaltInv { s with mailbox := ms } :=
  h.frame rfl id id rfl hmail fun _ => id

theorem HaltInv.sendctl (h : HaltInv s) (hm : m ≠ .streamReady) : HaltInv (sendctl s m) :=
  h.setMailbox fun hready => by
    simpa [parserMsgs, hm.symm] using hready

theorem doplay_halt {path : Option Path} (hwf : Wf s) (h : HaltInv s) :
    Ensures (doplay s path env) HaltInv anyFault := by
  have hnone (hst : s.status = .ready) := hwf.no_session (hwf.ready_of_status hst)
  refine doplay_ensures h (fun hst => ?_) (fun _ _ => ?_) (fun hst _ => ?_) (fun hst _ _ => ?_)
    (fun hst _ => ?_) trivial
  · exact doresume_calm.imp fun t ht => ht.inv h
  · exact dostop_calm.imp fun t ht => ht.inv { h with }
  · exact HaltInv.of_early (hnone hst).1 (hnone hst).2 not_audioDec_le_stream
  · exact HaltInv.of_early (hnone hst).1 (hnone hst).2 (show ¬PlayState.audioDec ≤ .ready by decide)
  · exact HaltInv.of_early nofun (hnone hst).2 not_audioDec_le_stream

theorem pause_halt (h : HaltInv s) (hplay : pauseAccepted s env → s.playState = .playing)
    (hok : s.streamInputWorker.ended = true → pauseAccepted s env → s.stopping = false) :
    HaltInv (pause s env) := by
  rcases pause_cases s env with heq | ⟨hacc, heq⟩
  · rw [heq]
    exact h
  · have hcalm := dopause_calm (hplay hacc)
    rw [heq]
    refine ⟨fun hstop hended => ?_, fun hstart => ?_⟩
    · have hended : s.streamInputWorker.ended = true := by
        rw [← hcalm.streamInputWorker]
        exact hended
      have hstop : s.stopping = true := hcalm.stopping.symm.trans hstop
      exact absurd (hstop.symm.trans (hok hended hacc)) (by simp)
    · exact absurd (hcalm.playState.trans (hplay hacc)) hstart.2

/-- `STOP` and `THREADEXIT`: a file that is paused is resumed, the stream of a provider is not. -/
theorem dostop_halt (hinv : PauseInv s) (h : HaltInv s)
    (hok : s.streamInputWorker.ended = true → s.stream.isSome → s.status ≠ .paused) :
    Ensures (dostop { s with stopping := true } env) HaltInv anyFault := by
  have hset (hst : s.streamInputWorker.ended = true → s.status ≠ .paused) :
      HaltInv { s with stopping := true } := ⟨fun _ => hst, h.starting⟩
  unfold dostop
  split
  · rename_i hprov
    exact hset fun hended => hok hended hprov
  · have hpaused : PauseInv { s with stopping := true, streamQuit := true } := hinv.frame rfl rfl
    have hresume : Ensures (resumeIfPaused { s with stopping := true, streamQuit := true } env) _
        _ := (resumeIfPaused_inv hpaused).and resumeIfPaused_calm
    refine hresume.mono (fun t ht => ?_) fun _ _ => trivial
    obtain ⟨⟨_, hst, _⟩, hcalm⟩ := ht
    refine ⟨fun _ _ => hst, fun hstart => ?_⟩
    have hstart : s.Starting := by
      obtain ⟨hstart, hne⟩ := hstart
      rw [hcalm.mailbox, hcalm.playState] at hstart
      rw [hcalm.playState] at hne
      exact ⟨hstart, hne⟩
    exact hcalm.audio hstart.2 (h.starting hstart)

theorem NextStage.halt {p : PlayState} (h : HaltInv s) (haudio : s.audioPaused = false)
    (hnext : NextStage p s t) : HaltInv t := by
  obtain ⟨_, _, _, _, _, _, rfl, _⟩ := hnext
  exact ⟨h.ended, fun _ => haudio⟩

theorem videoOutReady_halt : Ensures (videoOutReady s env)
    (fun t => t.playState = .playing ∧ t.status = .playing) anyFault := by
  unfold videoOutReady
  simp only [ensures_bind, ensures_assert]
  refine ⟨fun _ => ?_, fun _ => trivial⟩
  refine handleUnderrun_calm.imp fun t ht => ?_
  simp only [ensures_checkpointContinue, ensures_ok, and_true]
  refine ⟨fun _ => ?_, fun _ => trivial⟩
  exact ht.playState.trans (dopause_keeps _).playState

theorem HaltInv.of_playing (hplay : s.playState = .playing) (hst : s.status ≠ .paused) :
    HaltInv s := ⟨fun _ _ => hst, fun hstart => absurd hplay hstart.2⟩

theorem bufferUnderrun_calm : Ensures (bufferUnderrun s env) (Calm s) anyFault := by
  refine bufferUnderrun_ensures (Calm.refl s) (fun hplay _ => ?_) fun _ _ => ?_
  · refine handleUnderrun_calm.imp fun t ht => ?_
    have hpause := dopause_calm (s := { s with underrun := true }) hplay
    exact { hpause.trans ht with }
  · exact handleUnderrun_calm.imp fun t ht => { ht with }

theorem timer_halt {id : Nat} (h : HaltInv s) : Ensures (timer s id env) HaltInv anyFault := by
  have hframe {t : State} (ht : Calm s t) : HaltInv t := ht.inv h
  refine timer_ensures h (fun _ _ => ?_) (fun _ _ => ?_) (fun _ _ => ?_) (fun _ => ?_) ?_
  · exact handleUnderrun_calm.imp fun t ht => ht.inv h
  · exact handleUnderrun_calm.imp fun t ht => hframe { ht with }
  · refine doresume_calm.imp fun t ht => hframe ?_
    exact { ht with status := nofun, unpaused := nofun }
  · exact { h.sendctl (m := .streamExit) (by simp) with }
  · exact { h with }

theorem changeAudioTrack_halt {id : Option Int} (h : HaltInv s) :
    Ensures (changeAudioTrack s id) HaltInv anyFault :=
  changeAudioTrack_ensures h (fun _ _ _ _ _ => { h with }) (fun _ _ _ => { h with })
    (fun _ => { h with }) trivial

theorem doseek_halt {flags : Nat} {incr : Int} (h : HaltInv s)
    (hok : s.status = .playing ∨ s.status = .paused → s.playState = .playing) :
    Ensures (doseek s flags incr env) HaltInv anyFault := by
  refine doseek_ensures h (fun i => ?_) (fun hst _ _ => ?_) trivial
  · unfold playItem
    split
    · exact h
    · exact { h.sendctl (m := .play _) (by simp) with }
  · exact (seekTo_calm (hok hst)).imp fun t ht => ht.inv h

theorem flushMsg_halt (h : HaltInv s) : Ensures (flushMsg s env) HaltInv anyFault :=
  flushMsg_ensures ((flushLoop_calm (by decide)).imp fun t ht => { ht.inv h with }) trivial

theorem stillFrame_halt {length : Nat} (h : HaltInv s) :
    Ensures (stillFrame s length env) HaltInv anyFault :=
  stillFrame_ensures h ((flushLoop_calm (by decide)).imp fun t ht _ => { ht.inv h with }) trivial

/-- The handler either ends the session, or puts the end off. -/
theorem streamExit_halt {ms : List Msg} (hwf : Wf s) (h : HaltInv s)
    (hm : s.mailbox = .streamExit :: ms) :
    Ensures (streamExit { s with mailbox := ms } env) HaltInv anyFault := by
  have htake : HaltInv { s with mailbox := ms } := h.setMailbox fun hready => by
    rw [hm, parserMsgs_cons]
    exact List.mem_append_right _ hready
  have hend : Ensures (streamExit { s with mailbox := ms } env)
      (fun t => t.playState = .ready ∨ HaltInv t) anyFault := by
    unfold streamExit
    rw [ensures_bind]
    refine cancelUnderrun_calm.imp fun t ht => ?_
    split
    · rw [ensures_bind]
      exact drop_ensures (fun _ => Or.inl rfl) (fun _ => trivial) fun _ => trivial
    · rw [ensures_bind]
      refine flush_ensures (fun _ _ _ => trivial) (fun _ => Or.inl rfl) (fun _ _ => ?_)
        (fun _ _ _ _ _ => Or.inl rfl) fun _ _ => trivial
      have hbegin : HaltInv (beginFlush t flushAll) := { ht.inv htake with }
      exact delayStreamExit_ensures (fun _ _ => Or.inr (hbegin.sendctl (by simp)))
        (fun _ => Or.inr { hbegin with }) trivial
  refine ((streamExit_wf hwf hm).and hend).mono (fun t ht => ?_) fun _ _ => trivial
  exact ht.2.elim (HaltInv.of_ready ht.1) id

theorem control_halt {ms : List Msg} (hwf : Wf s) (hinv : PauseInv s) (h : HaltInv s)
    (hm : s.mailbox = m :: ms) (hok : Apart s m env) :
    Ensures (control { s with mailbox := ms } m env) HaltInv anyFault := by
  have htake : HaltInv { s with mailbox := ms } := h.setMailbox fun hready => by
    rw [hm, parserMsgs_cons]
    exact List.mem_append_right _ hready
  have hpause : PauseInv { s with mailbox := ms } := hinv.frame rfl rfl
  have hstage {p : PlayState} (hp : .audioDec ≤ p) (hne : p ≠ .playing) (t : State)
      (ht : NextStage p { s with mailbox := ms } t) : HaltInv t :=
    ht.halt htake (h.starting ⟨Or.inr (by rw [show s.playState = p from ht.1]; exact hp),
      by rw [show s.playState = p from ht.1]; exact hne⟩)
  unfold Player.control
  cases m with
  | play path =>
    have hwf' : Wf { s with mailbox := ms } :=
      hwf.setMailbox (by rw [hm, parserMsgs_cons]; rfl)
    exact doplay_halt hwf' htake
  | pause =>
    exact pause_halt htake (fun hacc => (hok.1.1 rfl hacc).1) fun hended hacc =>
      (hok.2 hended).1 rfl hacc
  | stop =>
    show Ensures (stop _ _) _ _
    unfold stop
    split
    · exact htake
    · exact dostop_halt hpause htake fun hended => (hok.2 hended).2 (Or.inl rfl)
  | seek flags incr => exact doseek_halt htake (hok.1.2.1 rfl)
  | threadExit =>
    show Ensures (threadExit _ _) _ _
    unfold threadExit
    split
    · exact dostop_halt hpause htake fun hended => (hok.2 hended).2 (Or.inr rfl)
    · exact htake
  | streamReady =>
    refine (streamReady_stage fun _ _ _ => trivial).imp fun t ht => ht.halt htake ?_
    refine h.starting ⟨Or.inl (by rw [hm, parserMsgs_cons]; simp), ?_⟩
    rw [show s.playState = .stream from ht.1]
    nofun
  | audioDecReady => exact (audioDecReady_stage fun _ _ _ => trivial).imp (hstage (by decide) nofun)
  | videoDecReady => exact (videoDecReady_stage fun _ _ _ => trivial).imp (hstage (by decide) nofun)
  | audioOutReady => exact (audioOutReady_stage fun _ _ _ => trivial).imp (hstage (by decide) nofun)
  | videoOutReady =>
    exact videoOutReady_halt.imp fun t ht => HaltInv.of_playing ht.1 (by simp [ht.2])
  | streamExit => exact streamExit_halt hwf h hm
  | bufferUnderrun => exact bufferUnderrun_calm.imp fun t ht => ht.inv htake
  | audioStreamUnderrun | info => exact htake
  | changeAudioTrack streamId => exact changeAudioTrack_halt htake
  | flush => exact flushMsg_halt htake
  | stillFrame length => exact stillFrame_halt htake
  | timer id => exact timer_halt htake

/-! ## Every step -/

theorem parserStep_halt {input : ParserInput} {r : Except Fault State} (hwf : Wf s)
    (hinv : PauseInv s) (h : HaltInv s)
    (hok : leavesLoop s input → s.stopping = true → s.status ≠ .paused)
    (hstep : parserStep s input = some r) : Ensures r HaltInv anyFault := by
  have hopening (hpc : s.streamInputWorker = .delegated ∨ s.streamInputWorker = .opening) :
      s.status ≠ .paused := hinv.status (by simp [hwf.stream_of_opening hpc])
  refine parserStep_ensures hstep (fun hpc _ => ?_) (fun hpc _ _ => ?_)
    (fun hpc streams audio video queues => ?_) (fun hpc pc hnew => ?_) (fun hpc stream => ?_)
    (fun hleave => ?_) fun hpc => ?_
  · refine parserStart_ensures (fun t ht => ?_) trivial
    subst ht
    constructor
    · exact HaltInv.sendctl ⟨nofun, h.starting⟩ (by simp)
    · exact ⟨fun _ _ => hopening (Or.inl hpc), h.starting⟩
  · exact ⟨fun _ _ => hopening (Or.inr hpc), h.starting⟩
  · obtain ⟨_, _, _, heq | heq⟩ := parserOpens_eq s streams audio video queues
    · rw [heq]
      exact ⟨fun _ _ => hopening (Or.inr hpc), fun _ => rfl⟩
    · rw [heq]
      exact ⟨nofun, fun _ => rfl⟩
  · rcases hnew with rfl | rfl <;> exact ⟨nofun, h.starting⟩
  · rcases selectAudio_eq s stream hwf.id_of_waiting with heq | ⟨_, heq⟩ <;>
    · rw [heq]
      exact ⟨nofun, h.starting⟩
  · exact ⟨fun hstop _ => hok hleave hstop, h.starting⟩
  · refine HaltInv.sendctl ⟨fun hstop _ => ?_, h.starting⟩ (by simp)
    exact h.ended hstop (by rw [hpc]; rfl)

theorem workerStep_halt {w : Worker} {e : WorkerEvent} (h : HaltInv s)
    (hstep : workerStep s w e = some t) : HaltInv t := by
  obtain ⟨_, _, _, _, _, _, rfl, hmail, _⟩ := workerStep_eq hstep
  exact { h.setMailbox (by rw [hmail]; exact id) with }

theorem InOrder.handling {e : Event} (h : InOrder s e) : Handling PausesApart s e := by
  cases e with
  | control env =>
    have hall : Handling Apart s (.control env) := h
    exact hall.imp fun _ _ hm => hm.1
  | _ => trivial

/-- What the player keeps to in every run. -/
structure Sound (s : State) : Prop where
  wf : Wf s
  pauses : PauseInv s
  halts : HaltInv s

theorem new_sound : Sound new := ⟨new_wf, new_pauseInv, new_haltInv⟩

theorem step_sound {e : Event} {r : Result} (h : Sound s) (hok : InOrder s e)
    (hstep : step s e = some (t, r)) : Sound t := by
  refine ⟨step_wf h.wf hstep, step_pause h.wf h.pauses hok.handling hstep, ?_⟩
  refine (step_rule_posts (E := anyFault) h.halts (fun _ _ ms hms => ?_)
    (fun env m ms he hms => ?_) (fun input r he hr => ?_) (fun _ _ _ _ => workerStep_halt h.halts)
    hstep).1
  · have hpost : HaltInv { s with mailbox := s.mailbox ++ ms } :=
      h.halts.setMailbox (by simp [hms])
    exact { hpost with }
  · subst he
    have hhead : OnHead (Apart s · env) s.mailbox := hok
    rw [hms] at hhead
    exact control_halt h.wf h.pauses h.halts hms hhead
  · subst he
    exact parserStep_halt h.wf h.pauses h.halts hok hr

/-! ## The state at the halt -/

theorem seekDrops_eq {pos : Int} (h : seekDrops s pos env = some t) :
    s.underrun = false ∧ ∃ u, resumeIfPaused s env = .ok u ∧
      t = { u with streamParserCheckpoint := u.streamParserCheckpoint + 1 } := by
  unfold seekDrops at h
  split at h
  · cases h
  · rename_i hno
    rw [not_or] at hno
    refine ⟨by simpa using hno.1, ?_⟩
    split at h
    · rename_i u hu
      exact ⟨u, hu, (Option.some.inj h).symm⟩
    · cases h

theorem exitDrops_eq (h : exitDrops s env = some t) :
    cancelUnderrun s env = .ok t ∧ t.stopping = true := by
  unfold exitDrops at h
  split at h
  · rename_i u hu
    split at h
    · rename_i hstop
      cases h
      exact ⟨hu, hstop⟩
    · cases h
  · cases h

theorem status_of_seekPos {flags : Nat} {incr pos : Int}
    (h : seekPos s flags incr env = some pos) : s.status = .playing ∨ s.status = .paused := by
  unfold seekPos at h
  split at h
  · cases h
  · rename_i hno
    by_contra hst
    rw [not_or] at hst hno
    exact hno.1 hst

/-- **The assertion holds**: the player is not paused where `avbox_player_halt` is entered. -/
theorem entersHalt_running {ms : List Msg} (h : Sound s) (hm : s.mailbox = m :: ms)
    (hent : entersHalt { s with mailbox := ms } m env = some t) : t.status ≠ .paused := by
  have hpause : PauseInv { s with mailbox := ms } := h.pauses.frame rfl rfl
  unfold entersHalt at hent
  split at hent
  · -- the seek has resumed the player
    obtain ⟨pos, _, hdrops⟩ := Option.bind_eq_some_iff.mp hent
    obtain ⟨_, u, hu, rfl⟩ := seekDrops_eq hdrops
    have hres : Ensures (resumeIfPaused { s with mailbox := ms } env) _ anyFault :=
      resumeIfPaused_inv hpause
    rw [hu] at hres
    exact hres.2.1
  · -- the session is stopping, and its stream has ended
    obtain ⟨hcancel, hstop⟩ := exitDrops_eq hent
    have hcalm : Ensures (cancelUnderrun { s with mailbox := ms } env) _ _ := cancelUnderrun_calm
    rw [hcancel] at hcalm
    have hended : s.streamInputWorker.ended = true := by
      rw [(h.wf.take_exit hm).2.1]
      rfl
    exact fun hst =>
      h.halts.ended (hcalm.stopping.symm.trans hstop) hended (hcalm.unpaused hst)
  · cases hent

/-- **The audio stream runs** where `avbox_player_halt` is entered. -/
theorem entersHalt_audio {ms : List Msg} (h : Sound s) (hm : s.mailbox = m :: ms)
    (hok : PausesApart s m env) (hent : entersHalt { s with mailbox := ms } m env = some t)
    (hplay : .audioDec ≤ t.playState) : t.audioPaused = false := by
  have hst := entersHalt_running h hm hent
  have hpause : PauseInv { s with mailbox := ms } := h.pauses.frame rfl rfl
  unfold entersHalt at hent
  split at hent
  · obtain ⟨pos, hpos, hdrops⟩ := Option.bind_eq_some_iff.mp hent
    obtain ⟨hunder, u, hu, rfl⟩ := seekDrops_eq hdrops
    have hplaying : s.playState = .playing := hok.2.1 rfl (status_of_seekPos hpos)
    have hres : Ensures (resumeIfPaused { s with mailbox := ms } env) _ anyFault :=
      resumeIfPaused_inv hpause
    rw [hu] at hres
    exact (RunningNow.of_no_underrun hres.1 (hres.2.2.1.trans hplaying)
      (hres.2.2.2.trans hunder) hst).audio
  · obtain ⟨hcancel, _⟩ := exitDrops_eq hent
    have htake : HaltInv { s with mailbox := ms } := h.halts.setMailbox fun hready => by
      rw [hm, parserMsgs_cons]
      exact List.mem_append_right _ hready
    have hres : Ensures (cancelUnderrun { s with mailbox := ms } env) _ _ :=
      (cancelUnderrun_pause hpause (h.wf.take_exit hm).2.1).and cancelUnderrun_calm
    rw [hcancel] at hres
    obtain ⟨⟨hinv, htimer⟩, hcalm⟩ := hres
    by_cases hplaying : t.playState = .playing
    · rcases hinv.playing hplaying with hb | hu | hr
      · exact absurd htimer hb.timer
      · exact absurd hu.status hst
      · exact hr.audio
    · exact (hcalm.inv htake).starting ⟨Or.inr hplay, hplaying⟩
  · cases hent

end Mediabox.Player
