import Mediabox.PlayerLife

/-!
# The pause counter

A pause by the user and a pause for buffering share the counter `paused`, but every handler writes
`status` on its own.

* `BufferingNow`, `UserPaused`, `RunningNow` — the three ways in which counter, status and underrun
  timer go together while the player plays.
* `pause_during_buffering` — a `PAUSE` that comes right after `VIDEOOUT_READY` is accepted while the
  player buffers, and the end of the buffering then leaves the stream paused with status `PLAYING`.
* `OutputHeld` — a pause of a stream without audio holds the video output, which the resume releases.
* `pauses_paired` — when a `PAUSE` is accepted only outside of buffering, an underrun is entered
  only when the user has not paused, a `PAUSE` or `SEEK` is accepted only once the start is
  complete, and the audio is not turned off under a pause, the counter is 0 whenever the player
  claims to play, and 1 whenever it is paused; a `PLAY` then resumes, where the loop of
  `avbox_player_doresume` ends.
-/

set_option autoImplicit false

namespace Mediabox.Player

open Transition Outcome

/-! ## The condition -/

def Msg.isSeek : Msg → Bool
  | .seek _ _ => true
  | _ => false

/-- No pause is taken on top of another one, and none during the start. -/
def PausesApart (s : State) (m : Msg) (env : Env) : Prop :=
  (m = .pause → pauseAccepted s env → s.playState = .playing ∧ s.underrunTimerId = none) ∧
    (m.isSeek → s.status = .playing ∨ s.status = .paused → s.playState = .playing) ∧
    (m = .bufferUnderrun → entersUnderrun s env → s.status ≠ .paused)

instance (s : State) (m : Msg) (env : Env) : Decidable (PausesApart s m env) :=
  inferInstanceAs (Decidable (_ ∧ _ ∧ _))

/-! ## The invariant -/

/-- The stream is paused until the underrun timer fires. -/
structure BufferingNow (s : State) : Prop where
  timer : s.underrunTimerId ≠ none
  paused : s.paused = 1
  status : s.status ≠ .paused
  underrun : s.underrun = true
  stopped : s.videoTimeRunning = false

/-- The stream is paused until the user resumes it. -/
structure UserPaused (s : State) : Prop where
  timer : s.underrunTimerId = none
  paused : s.paused = 1
  status : s.status = .paused
  stopped : s.videoTimeRunning = false

/-- The stream runs. -/
structure RunningNow (s : State) : Prop where
  timer : s.underrunTimerId = none
  paused : s.paused = 0
  status : s.status = .playing
  running : s.videoTimeRunning = true
  audio : s.audioPaused = false

/-- While the player plays it is in one of the three; before that nothing is paused. -/
structure PauseInv (s : State) : Prop where
  playing : s.playState = .playing → BufferingNow s ∨ UserPaused s ∨ RunningNow s
  status : s.playState ≠ .playing → s.status ≠ .paused
  paused : s.playState ≠ .playing → s.streamInputWorker.running → s.paused = 0

theorem new_pauseInv : PauseInv new where
  playing := nofun
  status := fun _ => nofun
  paused := fun _ => nofun

variable {s t : State} {env : Env}

/-- What the invariant depends on, besides the position of the stream parser. -/
def State.pauses (s : State) : PlayState × Status × Nat × Option Nat × Bool × Bool × Bool :=
  (s.playState, s.status, s.paused, s.underrunTimerId, s.underrun, s.videoTimeRunning,
    s.audioPaused)

theorem PauseInv.frame (h : PauseInv s) (heq : t.pauses = s.pauses)
    (hworker : t.streamInputWorker.running = s.streamInputWorker.running) : PauseInv t := by
  simp only [State.pauses, Prod.mk.injEq] at heq
  obtain ⟨hplay, hstatus, hpaused, htimer, hunder, hclock, haudio⟩ := heq
  refine ⟨fun hp => ?_, fun hp => ?_, fun hp hw => ?_⟩
  · refine (h.playing (hplay ▸ hp)).imp (fun hb => ?_) (Or.imp (fun hu => ?_) fun hr => ?_)
    · exact ⟨htimer ▸ hb.timer, hpaused.trans hb.paused, hstatus ▸ hb.status,
        hunder.trans hb.underrun, hclock.trans hb.stopped⟩
    · exact ⟨htimer.trans hu.timer, hpaused.trans hu.paused, hstatus.trans hu.status,
        hclock.trans hu.stopped⟩
    · exact ⟨htimer.trans hr.timer, hpaused.trans hr.paused, hstatus.trans hr.status,
        hclock.trans hr.running, haudio.trans hr.audio⟩
  · rw [hstatus]
    exact h.status (hplay ▸ hp)
  · rw [hpaused]
    exact h.paused (hplay ▸ hp) (hworker ▸ hw)

theorem UserPaused.of_status (h : PauseInv s) (hst : s.status = .paused) :
    s.playState = .playing ∧ UserPaused s := by
  by_cases hplay : s.playState = .playing
  · refine ⟨hplay, ?_⟩
    rcases h.playing hplay with hb | hu | hr
    · exact absurd hst hb.status
    · exact hu
    · exact absurd (hst.symm.trans hr.status) (by simp)
  · exact absurd hst (h.status hplay)

/-! ## Pausing and resuming -/

theorem doresume_one (hone : s.paused = 1) :
    Ensures (doresume s env) (fun t => t = resumed s) anyFault :=
  doresume_ensures (fun h => absurd (hone.symm.trans h) (by simp))
    (fun h => absurd h (by omega)) (fun _ _ _ => rfl) (fun _ _ => trivial) (fun _ _ _ => trivial)
    fun _ _ => trivial

theorem PauseInv.of_playing (hplay : s.playState = .playing)
    (h : BufferingNow s ∨ UserPaused s ∨ RunningNow s) : PauseInv s :=
  ⟨fun _ => h, fun hne => absurd hplay hne, fun hne => absurd hplay hne⟩

theorem resumed_inv (hplay : s.playState = .playing) (htimer : s.underrunTimerId = none) :
    PauseInv (resumed s) :=
  PauseInv.of_playing hplay (Or.inr (Or.inr ⟨htimer, rfl, rfl, rfl, rfl⟩))

/-- Buffering that begins, or goes on. -/
theorem handleUnderrun_inv (hplay : s.playState = .playing) (hone : s.paused = 1)
    (hunder : s.underrun = true) (hstop : s.videoTimeRunning = false) :
    Ensures (handleUnderrun s env)
      (fun t => t.playState = .playing ∧ (BufferingNow t ∨ RunningNow t)) anyFault := by
  refine handleUnderrun_ensures (fun id _ => ?_) fun _ => ?_
  · exact ⟨hplay, Or.inl ⟨by simp, hone, by simp, hunder, hstop⟩⟩
  · refine (doresume_one (s := { s with status := .buffering, underrunTimerId := none })
      hone).imp fun t ht => ?_
    subst ht
    exact ⟨hplay, Or.inr ⟨rfl, rfl, rfl, rfl, rfl⟩⟩

theorem enterUnderrun_inv (hrun : RunningNow s) (hplay : s.playState = .playing) :
    Ensures (handleUnderrun (dopause { s with underrun := true }) env)
      (fun t => t.playState = .playing ∧ (BufferingNow t ∨ RunningNow t)) anyFault := by
  rw [dopause_first (s := { s with underrun := true }) hrun.paused]
  exact handleUnderrun_inv hplay rfl rfl rfl

/-- The same before the player plays: nothing is paused, and nothing gets paused. -/
theorem handleUnderrun_outside (h : PauseInv s) (hplay : s.playState ≠ .playing) :
    Ensures (handleUnderrun s env) PauseInv anyFault := by
  refine handleUnderrun_ensures (fun id _ => ?_) fun _ => ?_
  · exact ⟨fun hp => absurd hp hplay, fun _ => nofun, h.paused⟩
  · refine doresume_ensures (fun _ => ?_) (fun hmany => ?_) (fun _ _ _ => ?_)
      (fun _ _ => trivial) (fun _ _ _ => trivial) fun _ _ => trivial
    · exact ⟨fun hp => absurd hp hplay, fun _ => nofun, h.paused⟩
    · refine ⟨fun hp => absurd hp hplay, fun _ => nofun, fun hp hrun => ?_⟩
      have hzero := h.paused hp hrun
      have hmany : 1 < s.paused := hmany
      omega
    · exact ⟨fun hp => absurd hp hplay, fun _ => nofun, fun _ _ => rfl⟩

theorem resumeIfPaused_inv (h : PauseInv s) :
    Ensures (resumeIfPaused s env) (fun t => PauseInv t ∧ t.status ≠ .paused ∧
      t.playState = s.playState ∧ t.underrun = s.underrun) anyFault := by
  refine resumeIfPaused_ensures (fun hst => ⟨h, hst, rfl, rfl⟩) fun hst => ?_
  obtain ⟨hplay, huser⟩ := UserPaused.of_status h hst
  refine (doresume_one huser.paused).imp fun t ht => ?_
  subst ht
  exact ⟨resumed_inv hplay huser.timer, by simp [resumed], rfl, rfl⟩

theorem dostop_inv (h : PauseInv s) : Ensures (dostop s env) PauseInv anyFault := by
  unfold dostop
  split
  · exact h
  · exact (resumeIfPaused_inv (s := { s with streamQuit := true })
      (h.frame rfl rfl)).imp
      fun _ ht => ht.1

theorem flushedTo_inv {a v : Bool} (h : PauseInv s) (ha : a = false ∨ a = s.audioPaused) :
    PauseInv (flushedTo s a v) where
  playing := fun hplay => by
    refine (h.playing hplay).imp (fun hb => { hb with })
      (Or.imp (fun hu => { hu with }) fun hr => ?_)
    exact { hr with audio := ha.elim id fun heq => heq.trans hr.audio }
  status := h.status
  paused := h.paused

/-! ## The handlers -/

theorem doplay_pause {path : Option Path} (hwf : Wf s) (h : PauseInv s) :
    Ensures (doplay s path env) PauseInv anyFault := by
  have hidle (hst : s.status = .ready) : s.streamInputWorker.running = false := by
    rw [hwf.idle_of_ready (hwf.ready_of_status hst)]
    rfl
  refine doplay_ensures h (fun hst => ?_) (fun _ _ => ?_) (fun hst _ => ?_) (fun hst _ _ => ?_)
    (fun _ _ => ?_) trivial
  · obtain ⟨hplay, huser⟩ := UserPaused.of_status h hst
    refine (doresume_one huser.paused).imp fun t ht => ?_
    subst ht
    exact resumed_inv hplay huser.timer
  · exact dostop_inv (h.frame rfl rfl)
  · exact ⟨nofun, fun _ => nofun, fun _ hrun => absurd ((hidle hst).symm.trans hrun) (by simp)⟩
  · exact ⟨nofun, fun _ => nofun, fun _ hrun => absurd ((hidle hst).symm.trans hrun) (by simp)⟩
  · exact ⟨nofun, fun _ => nofun, fun _ => nofun⟩

theorem pause_pause (h : PauseInv s)
    (hok : pauseAccepted s env → s.playState = .playing ∧ s.underrunTimerId = none) :
    PauseInv (pause s env) := by
  rcases pause_cases s env with heq | ⟨hacc, heq⟩
  · rw [heq]
    exact h
  · obtain ⟨hplay, htimer⟩ := hok hacc
    have hrun : RunningNow s := by
      rcases h.playing hplay with hb | hu | hr
      · exact absurd htimer hb.timer
      · exact absurd (hacc.1.symm.trans hu.status) (by simp)
      · exact hr
    rw [heq, dopause_first hrun.paused]
    exact PauseInv.of_playing hplay (Or.inr (Or.inl ⟨htimer, rfl, rfl, rfl⟩))

theorem stop_pause (h : PauseInv s) : Ensures (stop s env) PauseInv anyFault := by
  unfold stop
  split
  · exact h
  · exact dostop_inv (h.frame rfl rfl)

theorem threadExit_pause (h : PauseInv s) : Ensures (threadExit s env) PauseInv anyFault := by
  unfold threadExit
  split
  · exact dostop_inv (h.frame rfl rfl)
  · exact h

/-- While the player plays and is not in underrun, a status other than `PAUSED` means that the
    stream runs. -/
theorem RunningNow.of_no_underrun (h : PauseInv s) (hplay : s.playState = .playing)
    (hunder : s.underrun = false) (hst : s.status ≠ .paused) : RunningNow s := by
  rcases h.playing hplay with hb | hu | hr
  · exact absurd (hunder.symm.trans hb.underrun) (by simp)
  · exact absurd hu.status hst
  · exact hr

theorem seekTo_pause {pos : Int} (h : PauseInv s) (hplay : s.playState = .playing) :
    Ensures (seekTo s pos env) PauseInv anyFault := by
  have hresume (hunder : s.underrun = false) : Ensures (resumeIfPaused s env)
      (fun t => PauseInv t ∧ RunningNow t ∧ t.playState = .playing) anyFault := by
    refine (resumeIfPaused_inv h).imp fun t ht => ?_
    obtain ⟨hinv, hst, hplay', hunder'⟩ := ht
    have hplaying := hplay'.trans hplay
    exact ⟨hinv, RunningNow.of_no_underrun hinv hplaying (hunder'.trans hunder) hst, hplaying⟩
  refine seekTo_ensures (D := fun _ u => RunningNow u ∧ u.playState = .playing) h hresume
    (fun _ ht => ht.1) (fun t ht _ => ?_) (fun t ht => ?_) fun t u _ hu => ?_
  · obtain ⟨-, hrun, hplaying⟩ := ht
    refine drop_ensures (fun _ => ⟨?_, hplaying⟩) (fun _ => trivial) fun _ => trivial
    refine ⟨hrun.timer, hrun.paused, hrun.status, hrun.running, ?_⟩
    simp [dropped, hplaying, show .audioDec ≤ PlayState.playing by decide]
  · obtain ⟨-, hrun, hplaying⟩ := ht
    exact ⟨{ hrun with }, hplaying⟩
  · refine (enterUnderrun_inv hu.1 hu.2).imp fun v hv => ?_
    rw [ensures_checkpointContinue]
    exact ⟨fun _ => (PauseInv.of_playing hv.1 (hv.2.imp id Or.inr)).frame rfl rfl,
      fun _ => trivial⟩

theorem playItem_pause (h : PauseInv s) (i : Nat) : PauseInv (playItem s i) := by
  unfold playItem
  split
  · exact h
  · exact h.frame rfl rfl

theorem doseek_pause {flags : Nat} {incr : Int} (h : PauseInv s)
    (hok : s.status = .playing ∨ s.status = .paused → s.playState = .playing) :
    Ensures (doseek s flags incr env) PauseInv anyFault :=
  doseek_ensures h (playItem_pause h) (fun hst _ _ => seekTo_pause h (hok hst)) trivial

theorem NextStage.pause {p : PlayState} (h : PauseInv s) (hp : p ≠ .playing)
    (hnext : NextStage p s t) : PauseInv t := by
  obtain ⟨hstage, q, _, _, _, _, rfl, _, hq, _⟩ := hnext
  have hplay : s.playState ≠ .playing := hstage ▸ hp
  exact ⟨fun h => absurd h hq, fun _ => h.status hplay, fun _ => h.paused hplay⟩

theorem videoOutReady_pause (hwf : Wf s) (h : PauseInv s) :
    Ensures (videoOutReady s env) PauseInv anyFault := by
  unfold videoOutReady
  simp only [ensures_bind, ensures_assert]
  refine ⟨fun hstate => ?_, fun _ => trivial⟩
  have hstarted := hwf.started_of_audioDec (by rw [hstate]; decide)
  have hzero : s.paused = 0 := h.paused (by simp [hstate]) (by simp [ParserPc.running, hstarted])
  rw [dopause_first (s := { s with playState := .playing, underrun := true }) hzero]
  refine (handleUnderrun_inv rfl rfl rfl rfl).imp fun t ht => ?_
  simp only [ensures_checkpointContinue, ensures_ok]
  refine ⟨fun _ => PauseInv.of_playing ht.1 ?_, fun _ => trivial⟩
  rcases ht.2 with hb | hr
  · exact Or.inl ⟨hb.timer, hb.paused, by simp, hb.underrun, hb.stopped⟩
  · exact Or.inr (Or.inr ⟨hr.timer, hr.paused, rfl, hr.running, hr.audio⟩)

theorem bufferUnderrun_pause (h : PauseInv s)
    (hok : entersUnderrun s env → s.status ≠ .paused) :
    Ensures (bufferUnderrun s env) PauseInv anyFault := by
  refine bufferUnderrun_ensures h (fun hplay henter => ?_) fun hplay _ => ?_
  · have hrun := RunningNow.of_no_underrun h hplay henter.1 (hok henter)
    exact (enterUnderrun_inv hrun hplay).imp fun t ht => PauseInv.of_playing ht.1
      (ht.2.imp id Or.inr)
  · exact handleUnderrun_outside (s := { s with underrun := true })
      ⟨fun hp => absurd hp hplay, h.status, h.paused⟩ hplay

theorem timer_pause {timerId : Nat} (h : PauseInv s) :
    Ensures (timer s timerId env) PauseInv anyFault := by
  have hbuffering (htimer : s.underrunTimerId = some timerId) (hplay : s.playState = .playing) :
      BufferingNow s := by
    rcases h.playing hplay with hb | hu | hr
    · exact hb
    · exact absurd (htimer.symm.trans hu.timer) (by simp)
    · exact absurd (htimer.symm.trans hr.timer) (by simp)
  refine timer_ensures h (fun htimer hplay => ?_) (fun _ hplay => ?_) (fun htimer hplay => ?_)
    (fun _ => h.frame rfl rfl) (h.frame rfl rfl)
  · have hb := hbuffering htimer hplay
    exact (handleUnderrun_inv hplay hb.paused hb.underrun hb.stopped).imp
      fun t ht => PauseInv.of_playing ht.1 (ht.2.imp id Or.inr)
  · exact handleUnderrun_outside (s := { s with underrun := true })
      ⟨fun hp => absurd hp hplay, h.status, h.paused⟩ hplay
  · refine (doresume_one (s := { s with underrun := false, underrunTimerId := none })
      (hbuffering htimer hplay).paused).imp fun t ht => ?_
    subst ht
    exact (resumed_inv (s := { s with underrun := false, underrunTimerId := none })
      hplay rfl).frame rfl rfl

theorem changeAudioTrack_pause {id : Option Int} (h : PauseInv s) :
    Ensures (changeAudioTrack s id) PauseInv anyFault :=
  changeAudioTrack_ensures h (fun _ _ _ _ _ => h.frame rfl rfl)
    (fun _ _ _ => h.frame rfl rfl)
    (fun _ => h.frame rfl rfl) trivial

theorem flushLoop_pause {flags : Nat} (hflags : flags ≠ 0) (h : PauseInv s) :
    Ensures (flushLoop s flags env) PauseInv anyFault :=
  flushLoop_ensures hflags (fun _ _ _ => trivial) (fun _ => h)
    (fun _ _ v _ ha => (flushedTo_inv (v := v) h ha).frame rfl rfl)
    fun _ _ => trivial

theorem flushMsg_pause (h : PauseInv s) : Ensures (flushMsg s env) PauseInv anyFault :=
  flushMsg_ensures ((flushLoop_pause (by decide) h).imp
    fun t ht => ht.frame rfl rfl) trivial

theorem stillFrame_pause {length : Nat} (h : PauseInv s) :
    Ensures (stillFrame s length env) PauseInv anyFault :=
  stillFrame_ensures h ((flushLoop_pause (by decide) h).imp
    fun t ht _ => ht.frame rfl rfl) trivial

theorem endSession_pause (s : State) : PauseInv (endSession s) := by
  have hready : (endSession s).playState = .ready := rfl
  have hstatus : (endSession s).status = .ready := by
    unfold endSession
    simp only
    split
    · rfl
    · obtain ⟨_, _, _, heq, _⟩ := playNext_eq (cleanup s)
      rw [heq]
      rfl
  have hidle : (endSession s).streamInputWorker = .idle := by
    unfold endSession
    simp only
    split
    · rfl
    · obtain ⟨_, _, _, heq, _⟩ := playNext_eq (cleanup s)
      rw [heq]
      rfl
  refine ⟨fun hp => absurd (hready.symm.trans hp) (by simp), fun _ => by simp [hstatus], ?_⟩
  intro _ hrun
  rw [hidle] at hrun
  cases hrun

/-- The end of the buffering leaves no timer, and the stream running if it was paused for that. -/
theorem cancelUnderrun_pause (h : PauseInv s) (hworker : s.streamInputWorker = .returned) :
    Ensures (cancelUnderrun s env) (fun t => PauseInv t ∧ t.underrunTimerId = none) anyFault := by
  refine cancelUnderrun_ensures (fun hnone => ⟨h, hnone⟩) fun hsome => ?_
  by_cases hplay : s.playState = .playing
  · have hb : BufferingNow s := by
      rcases h.playing hplay with hb | hu | hr
      · exact hb
      · simp [hu.timer] at hsome
      · simp [hr.timer] at hsome
    refine (doresume_one (s := { s with underrunTimerId := none }) hb.paused).imp
      fun t ht => ?_
    subst ht
    exact ⟨resumed_inv (s := { s with underrunTimerId := none }) hplay rfl, rfl⟩
  · have hzero : s.paused = 0 := h.paused hplay (by rw [hworker]; rfl)
    refine doresume_ensures (fun _ => ?_) (fun hmany => ?_) (fun hone _ _ => ?_)
      (fun _ _ => trivial) (fun _ _ _ => trivial) fun _ _ => trivial
    · exact ⟨⟨fun hp => absurd hp hplay, h.status, h.paused⟩, rfl⟩
    · exact absurd (show 1 < s.paused from hmany) (by omega)
    · exact absurd (show s.paused = 1 from hone) (by omega)

theorem streamExit_pause (h : PauseInv s) (hworker : s.streamInputWorker = .returned) :
    Ensures (streamExit s env) PauseInv anyFault := by
  unfold streamExit
  rw [ensures_bind]
  refine (cancelUnderrun_pause h hworker).imp fun t ht => ?_
  split
  · rw [ensures_bind]
    exact drop_ensures (fun _ => endSession_pause _) (fun _ => trivial) fun _ => trivial
  · rw [ensures_bind]
    refine flush_ensures (fun _ _ _ => trivial) (fun _ => endSession_pause _) (fun _ _ => ?_)
      (fun _ _ _ _ _ => endSession_pause _) fun _ _ => trivial
    exact delayStreamExit_ensures (fun _ _ => ht.1.frame rfl rfl)
      (fun _ => ht.1.frame rfl rfl) trivial

/-! ## Every step -/

theorem control_pause {m : Msg} {ms : List Msg} (hwf : Wf s) (h : PauseInv s)
    (hm : s.mailbox = m :: ms) (hok : PausesApart s m env) :
    Ensures (control { s with mailbox := ms } m env) PauseInv anyFault := by
  have htake : PauseInv { s with mailbox := ms } := h.frame rfl rfl
  have hstage {p : PlayState} (hp : p ≠ .playing) (t : State)
      (ht : NextStage p { s with mailbox := ms } t) : PauseInv t := ht.pause htake hp
  unfold control
  cases m with
  | play path =>
    have hwf' : Wf { s with mailbox := ms } :=
      hwf.setMailbox (by rw [hm, parserMsgs_cons]; rfl)
    exact doplay_pause hwf' htake
  | pause => exact pause_pause htake (hok.1 rfl)
  | stop => exact stop_pause htake
  | seek flags incr => exact doseek_pause htake (hok.2.1 rfl)
  | threadExit => exact threadExit_pause htake
  | streamReady =>
    exact (streamReady_stage fun _ _ _ => trivial).imp (hstage nofun)
  | audioDecReady =>
    exact (audioDecReady_stage fun _ _ _ => trivial).imp (hstage nofun)
  | videoDecReady =>
    exact (videoDecReady_stage fun _ _ _ => trivial).imp (hstage nofun)
  | audioOutReady =>
    exact (audioOutReady_stage fun _ _ _ => trivial).imp (hstage nofun)
  | videoOutReady =>
    have hwf' : Wf { s with mailbox := ms } :=
      hwf.setMailbox (by rw [hm, parserMsgs_cons]; rfl)
    exact videoOutReady_pause hwf' htake
  | streamExit => exact streamExit_pause htake (hwf.take_exit hm).2.1
  | bufferUnderrun =>
    exact bufferUnderrun_pause htake fun henter =>
      hok.2.2 rfl (entersUnderrun_mailbox.mp henter)
  | audioStreamUnderrun | info => exact htake
  | changeAudioTrack streamId => exact changeAudioTrack_pause htake
  | flush => exact flushMsg_pause htake
  | stillFrame length => exact stillFrame_pause htake
  | timer id => exact timer_pause htake

theorem parserStep_pause {input : ParserInput} {r : Except Fault State} (hwf : Wf s)
    (h : PauseInv s) (hstep : parserStep s input = some r) : Ensures r PauseInv anyFault := by
  refine parserStep_ensures hstep (fun hpc _ => ?_) (fun hpc _ _ => ?_)
    (fun hpc streams audio video queues => ?_) (fun hpc pc hnew => ?_) (fun hpc stream => ?_)
    (fun hpc => ?_) fun hpc => ?_
  · have hplay : s.playState ≠ .playing := by simp [hwf.stream_of_opening (Or.inl hpc)]
    refine parserStart_ensures (fun t ht => ?_) trivial
    subst ht
    constructor <;> exact ⟨fun hp => absurd hp hplay, h.status, fun _ _ => rfl⟩
  · exact h.frame rfl (by rw [hpc]; rfl)
  · have hplay : s.playState ≠ .playing := by simp [hwf.stream_of_opening (Or.inr hpc)]
    have hzero := h.paused hplay (by rw [hpc]; rfl)
    obtain ⟨clock, index, _, heq | heq⟩ := parserOpens_eq s streams audio video queues <;>
    · rw [heq]
      exact ⟨fun hp => absurd hp hplay, h.status, fun _ _ => hzero⟩
  · have hold : s.streamInputWorker.running = true := by
      rcases hpc with hpc | hpc <;> rw [hpc] <;> rfl
    have hrun : pc.running = true := by rcases hnew with rfl | rfl <;> rfl
    exact h.frame rfl (hrun.trans hold.symm)
  · rcases selectAudio_eq s stream hwf.id_of_waiting with heq | ⟨_, heq⟩ <;>
    · rw [heq]
      exact h.frame rfl (by rw [hpc]; rfl)
  · rcases hpc with ⟨hpc, _⟩ | ⟨hpc, _⟩ <;>
      exact h.frame rfl (by rw [hpc]; rfl)
  · exact h.frame rfl (by rw [hpc]; rfl)

theorem workerStep_pause {w : Worker} {e : WorkerEvent} (h : PauseInv s)
    (hstep : workerStep s w e = some t) : PauseInv t := by
  obtain ⟨_, _, _, _, _, _, rfl, _⟩ := workerStep_eq hstep
  exact h.frame rfl rfl

theorem step_pause {e : Event} {r : Result} (hwf : Wf s) (h : PauseInv s)
    (hok : Handling PausesApart s e) (hstep : step s e = some (t, r)) : PauseInv t := by
  refine (step_rule (E := anyFault) h (fun _ _ _ _ => ?_) (fun env m ms he hms => ?_)
    (fun _ _ => parserStep_pause hwf h) (fun _ _ _ => workerStep_pause h) hstep).1
  · exact h.frame rfl rfl
  · subst he
    exact control_pause hwf h hms (hok.head hms)

/-! ## The halt of a pause -/

/-- A change of the audio track does not turn the audio off under a pause of a stream with video: the
    pause halted no video output, and the resume would release one. -/
def PauseKept (s : State) (m : Msg) : Prop :=
  m = .changeAudioTrack (some (-1)) → 0 < s.paused → s.videoStreamIndex ≠ -1 →
    s.audioStreamIndex = -1

instance (s : State) (m : Msg) : Decidable (PauseKept s m) :=
  inferInstanceAs (Decidable (_ → _ → _ → _))

/-- A pause of a stream without audio holds the video output. -/
def OutputHeld (s : State) : Prop :=
  0 < s.paused → videoOnly s.videoStreamIndex s.audioStreamIndex → 0 < s.videoOutputCheckpoint

theorem dopause_held (h : OutputHeld s) : OutputHeld (dopause s) := by
  by_cases hzero : s.paused = 0
  · rw [dopause_first hzero]
    intro _ hvideo
    simp [show videoOnly s.videoStreamIndex s.audioStreamIndex from hvideo]
  · have hmore : dopause s = { s with paused := s.paused + 1 } := if_neg hzero
    rw [hmore]
    exact fun _ hvideo => h (Nat.pos_of_ne_zero hzero) hvideo

theorem doresume_held (h : OutputHeld s) : Ensures (doresume s env) OutputHeld anyFault := by
  refine doresume_ensures (fun _ => h) (fun hmany => ?_) (fun _ _ _ => ?_) (fun _ _ => trivial)
    (fun _ _ _ => trivial) fun _ _ => trivial
  · exact fun _ hvideo => h (Nat.zero_lt_of_lt hmany) hvideo
  · exact fun hpaused => absurd hpaused (Nat.lt_irrefl 0)

theorem handleUnderrun_held (h : OutputHeld s) :
    Ensures (handleUnderrun s env) OutputHeld anyFault := by
  refine handleUnderrun_ensures (fun _ _ => h) fun _ => ?_
  exact doresume_held (s := { s with status := .buffering, underrunTimerId := none }) h

theorem resumeIfPaused_held (h : OutputHeld s) :
    Ensures (resumeIfPaused s env) OutputHeld anyFault :=
  resumeIfPaused_ensures (fun _ => h) fun _ => doresume_held h

theorem dostop_held (h : OutputHeld s) : Ensures (dostop s env) OutputHeld anyFault := by
  unfold dostop
  split
  · exact h
  · exact resumeIfPaused_held (s := { s with streamQuit := true }) h

theorem drop_held (h : OutputHeld s) : Ensures (drop s env) OutputHeld anyFault :=
  drop_ensures (fun _ => h) (fun _ => trivial) fun _ => trivial

theorem flushLoop_held {flags : Nat} (hflags : flags ≠ 0) (h : OutputHeld s) :
    Ensures (flushLoop s flags env) OutputHeld anyFault :=
  flushLoop_ensures hflags (fun _ _ _ => trivial) (fun _ => h) (fun _ _ _ _ _ => h)
    fun _ _ => trivial

theorem seekTo_held {pos : Int} (h : OutputHeld s) :
    Ensures (seekTo s pos env) OutputHeld anyFault := by
  refine seekTo_ensures (D := fun _ => OutputHeld) h (fun _ => resumeIfPaused_held h)
    (fun _ ht => ht) (fun _ ht _ => drop_held ht) (fun _ ht => ht) fun _ u _ hu => ?_
  have hpause := dopause_held (s := { u with underrun := true }) hu
  refine (handleUnderrun_held hpause).imp fun v hv => ?_
  rw [ensures_checkpointContinue]
  exact ⟨fun _ => hv, fun _ => trivial⟩

theorem endSession_held (s : State) : OutputHeld (endSession s) := by
  have hnone : (endSession s).videoStreamIndex = -1 := by
    unfold endSession
    simp only
    split
    · rfl
    · obtain ⟨_, _, _, heq, _⟩ := playNext_eq (cleanup s)
      rw [heq]
      rfl
  exact fun _ hvideo => absurd hnone hvideo.1

theorem streamExit_held (h : OutputHeld s) : Ensures (streamExit s env) OutputHeld anyFault := by
  have hcancel : Ensures (cancelUnderrun s env) OutputHeld anyFault :=
    cancelUnderrun_ensures (fun _ => h) fun _ =>
      doresume_held (s := { s with underrunTimerId := none }) h
  unfold streamExit
  rw [ensures_bind]
  refine hcancel.imp fun t ht => ?_
  split
  · rw [ensures_bind]
    exact (drop_held ht).imp fun u _ => endSession_held u
  · rw [ensures_bind]
    refine flush_ensures (fun _ _ _ => trivial) (fun _ => endSession_held t) (fun _ _ => ?_)
      (fun _ _ _ _ _ => endSession_held _) fun _ _ => trivial
    exact delayStreamExit_ensures (fun _ _ => ht) (fun _ => ht) trivial

theorem changeAudioTrack_held {id : Option Int} (h : OutputHeld s)
    (hok : PauseKept s (.changeAudioTrack id)) :
    Ensures (changeAudioTrack s id) OutputHeld anyFault := by
  refine changeAudioTrack_ensures h (fun streams next _ _ hnext => ?_) (fun id _ _ => ?_)
    (fun hid => ?_) trivial
  · intro _ hvideo
    have hnonneg := nextTrack_nonneg hnext
    exact absurd (show next = -1 from hvideo.2) (by omega)
  · exact fun _ hvideo => absurd (show (-2 : Int) = -1 from hvideo.2) (by decide)
  · subst hid
    exact fun hpaused hvideo => h hpaused ⟨hvideo.1, hok rfl hpaused hvideo.1⟩

theorem stop_held (h : OutputHeld s) : Ensures (stop s env) OutputHeld anyFault := by
  unfold stop
  split
  · exact h
  · exact dostop_held (s := { s with stopping := true }) h

theorem threadExit_held (h : OutputHeld s) :
    Ensures (threadExit s env) OutputHeld anyFault := by
  unfold threadExit
  split
  · exact dostop_held (s := { s with stopping := true }) h
  · exact h

theorem playItem_held (h : OutputHeld s) (i : Nat) : OutputHeld (playItem s i) := by
  unfold playItem
  split <;> exact h

theorem videoOutReady_held (h : OutputHeld s) :
    Ensures (videoOutReady s env) OutputHeld anyFault := by
  unfold videoOutReady
  simp only [ensures_bind, ensures_assert]
  refine ⟨fun _ => ?_, fun _ => trivial⟩
  have hpause := dopause_held (s := { s with playState := .playing, underrun := true }) h
  refine (handleUnderrun_held hpause).imp fun t ht => ?_
  rw [ensures_checkpointContinue]
  exact ⟨fun _ => ht, fun _ => trivial⟩

theorem control_held {m : Msg} (h : OutputHeld s) (hok : PauseKept s m) :
    Ensures (control s m env) OutputHeld anyFault := by
  have hstage {p : PlayState} (t : State) (ht : NextStage p s t) : OutputHeld t := by
    obtain ⟨_, _, _, _, _, _, rfl, _⟩ := ht
    exact h
  unfold control
  cases m with
  | play path =>
    exact doplay_ensures h (fun _ => doresume_held h)
      (fun _ path => dostop_held (s := { s with nextFile := some path }) h)
      (fun _ _ => h) (fun _ _ _ => h) (fun _ _ => h) trivial
  | pause =>
    rcases pause_cases s env with heq | ⟨_, heq⟩
    · rw [heq]
      exact h
    · rw [heq]
      exact dopause_held h
  | stop => exact stop_held h
  | seek flags incr =>
    exact doseek_ensures h (playItem_held h) (fun _ _ _ => seekTo_held h) trivial
  | threadExit => exact threadExit_held h
  | streamReady => exact (streamReady_stage fun _ _ _ => trivial).imp hstage
  | audioDecReady => exact (audioDecReady_stage fun _ _ _ => trivial).imp hstage
  | videoDecReady => exact (videoDecReady_stage fun _ _ _ => trivial).imp hstage
  | audioOutReady => exact (audioOutReady_stage fun _ _ _ => trivial).imp hstage
  | videoOutReady => exact videoOutReady_held h
  | streamExit => exact streamExit_held h
  | bufferUnderrun =>
    have hpause := dopause_held (s := { s with underrun := true }) h
    exact bufferUnderrun_ensures h (fun _ _ => handleUnderrun_held hpause)
      fun _ _ => handleUnderrun_held (s := { s with underrun := true }) h
  | audioStreamUnderrun | info => exact h
  | changeAudioTrack streamId => exact changeAudioTrack_held h hok
  | flush => exact flushMsg_ensures (flushLoop_held (by decide) h) trivial
  | stillFrame length =>
    exact stillFrame_ensures h ((flushLoop_held (by decide) h).imp fun _ ht _ => ht) trivial
  | timer id =>
    exact timer_ensures h (fun _ _ => handleUnderrun_held h)
      (fun _ _ => handleUnderrun_held (s := { s with underrun := true }) h)
      (fun _ _ => doresume_held (s := { s with underrun := false, underrunTimerId := none }) h)
      (fun _ => h) h

/-- The file is opened while nothing is paused, so that its streams can be any. -/
theorem parserStep_held {input : ParserInput} {r : Except Fault State} (hwf : Wf s)
    (hinv : PauseInv s) (h : OutputHeld s) (hstep : parserStep s input = some r) :
    Ensures r OutputHeld anyFault := by
  refine parserStep_ensures hstep (fun _ _ => ?_) (fun _ _ _ => h)
    (fun hpc streams audio video queues => ?_) (fun _ _ _ => h) (fun _ stream => ?_)
    (fun _ => h) fun _ => h
  · refine parserStart_ensures (fun t ht => ?_) trivial
    subst ht
    constructor <;> exact fun hpaused => absurd hpaused (Nat.lt_irrefl 0)
  · have hplay : s.playState ≠ .playing := by simp [hwf.stream_of_opening (Or.inr hpc)]
    have hzero := hinv.paused hplay (by rw [hpc]; rfl)
    obtain ⟨_, _, _, heq | heq⟩ := parserOpens_eq s streams audio video queues <;>
    · rw [heq]
      exact fun hpaused => absurd hzero (Nat.ne_of_gt hpaused)
  · rcases selectAudio_eq s stream hwf.id_of_waiting with heq | ⟨_, heq⟩
    · rw [heq]
      exact h
    · rw [heq]
      exact fun _ hvideo => absurd (show (stream : Int) = -1 from hvideo.2) (by omega)

/-- What the pairing of the pauses asks of a message. -/
def Paired (s : State) (m : Msg) (env : Env) : Prop := PausesApart s m env ∧ PauseKept s m

instance (s : State) (m : Msg) (env : Env) : Decidable (Paired s m env) :=
  inferInstanceAs (Decidable (_ ∧ _))

theorem step_held {e : Event} {r : Result} (hwf : Wf s) (hinv : PauseInv s) (h : OutputHeld s)
    (hok : Handling Paired s e) (hstep : step s e = some (t, r)) : OutputHeld t := by
  refine (step_rule (E := anyFault) h (fun _ _ _ _ => h) (fun env m ms he hms => ?_)
    (fun _ _ => parserStep_held hwf hinv h) (fun _ _ _ hw => ?_) hstep).1
  · subst he
    exact control_held (s := { s with mailbox := ms }) h (hok.head hms).2
  · obtain ⟨_, _, _, _, _, _, rfl, _⟩ := workerStep_eq hw
    exact h

theorem run_held {tr : List (Event × Result)}
    (h : Run (Guarded step (Handling Paired)) new tr s) : Wf s ∧ PauseInv s ∧ OutputHeld s :=
  Run.invariant (P := fun s => Wf s ∧ PauseInv s ∧ OutputHeld s)
    ⟨new_wf, new_pauseInv, fun hpaused => absurd hpaused (Nat.lt_irrefl 0)⟩
    (fun _ _ _ hinv hg =>
      ⟨step_wf hinv.1 hg.2,
        step_pause hinv.1 hinv.2.1 (hg.1.imp fun _ _ hm => hm.1) hg.2,
        step_held hinv.1 hinv.2.1 hinv.2.2 hg.1 hg.2⟩) h

/-! ## The result -/

/-- The counter, the status and the underrun timer agree. -/
def PausePaired (s : State) : Prop :=
  (s.playState = .playing → s.status = .playing → s.underrunTimerId = none →
    s.paused = 0 ∧ s.videoTimeRunning = true ∧ s.audioPaused = false) ∧
  (s.status = .paused → 1 ≤ s.paused)

/-- **Pauses are paired**: in every run in which no pause is taken on top of another one, and none
    loses the audio it stopped, the counter is 0 and the clocks run whenever the player claims to play
    without buffering, it is at least 1 whenever the player is paused, and then one `PLAY` without a
    path leads back to playing, unless it waits for a video frame that does not come. -/
theorem pauses_paired {tr : List (Event × Result)}
    (h : Run (Guarded step (Handling Paired)) new tr s) :
    PausePaired s ∧
      (s.status = .paused → ∀ env, ¬resumeWaits s env →
        ∃ t, control s (.play none) env = .ok t ∧ t.status = .playing ∧ t.paused = 0) := by
  obtain ⟨_, hinv, hheld⟩ := run_held h
  refine ⟨⟨fun hplay hst htimer => ?_, fun hst => ?_⟩, fun hst env hframe => ?_⟩
  · rcases hinv.playing hplay with hb | hu | hr
    · exact absurd htimer hb.timer
    · exact absurd (hst.symm.trans hu.status) (by simp)
    · exact ⟨hr.paused, hr.running, hr.audio⟩
  · exact Nat.le_of_eq (UserPaused.of_status hinv hst).2.paused.symm
  · obtain ⟨hplay, huser⟩ := UserPaused.of_status hinv hst
    refine ⟨resumed s, ?_, rfl, rfl⟩
    by_cases hvideo : videoOnly s.videoStreamIndex s.audioStreamIndex
    · have hpos := hheld (by rw [huser.paused]; exact Nat.one_pos) hvideo
      simp [control, doplay, doresume, resumed, checkpointContinue, assert, hplay, hst,
        huser.paused, huser.stopped, hvideo, hpos, hframe, bind, Except.bind]
    · simp [control, doplay, doresume, resumed, assert, hplay, hst,
        huser.paused, huser.stopped, hvideo, hframe, bind, Except.bind]

/-- A started file is paused after the buffering, and the `PLAY` that follows finds a video frame:
    the hypotheses of `pauses_paired` can be met. -/
theorem pauses_paired_after_buffering : ∃ tr s t,
    Run (Guarded step (Handling Paired)) new tr s ∧ s.status = .paused ∧ PausePaired s ∧
      ¬resumeWaits s (fullEnv 5) ∧ control s (.play none) (fullEnv 5) = .ok t ∧
      t.status = .playing ∧ t.paused = 0 := by
  obtain ⟨tr, s, hrun, hpaused, hframe⟩ := exists_run_of_guarded_exec step (Handling Paired) new
    (fun _ s => s.status = .paused ∧ ¬resumeWaits s (fullEnv 5))
    (startup ['a'] ++ [Event.post (.timer 2), .control (fullEnv 3), .post .pause, .control (fullEnv 4)])
    (by decide +kernel)
  have hpaired := pauses_paired hrun
  obtain ⟨t, hplay⟩ := hpaired.2 hpaused (fullEnv 5) hframe
  exact ⟨tr, s, t, hrun, hpaused, hpaired.1, hframe, hplay⟩

/-- **A pause during buffering is lost**: right after the start the status is `PLAYING` though the
    player buffers, so that a `PAUSE` is accepted; when the buffers are full one of the two pauses
    is left, but the status is `PLAYING` and no timer is outstanding. -/
theorem pause_during_buffering : ∃ tr s, Run (Step step) new tr s ∧
    s.playState = .playing ∧ s.status = .playing ∧ s.underrunTimerId = none ∧ s.paused ≠ 0 :=
  exists_run_of_exec step new
    (fun _ s => s.playState = .playing ∧ s.status = .playing ∧ s.underrunTimerId = none ∧
      s.paused ≠ 0)
    (startup ['a'] ++ [Event.post .pause, .control (fullEnv 3), .post (.timer 2), .control (fullEnv 4)])
    (by decide +kernel)

end Mediabox.Player
