import Mediabox.PlayerRest

/-!
# What the player is going to play

Of the player's state only a few parts decide which files come next: the `PLAY` messages that wait,
`next_file`, the playlist with its position, `stopping`, and whether a session is under way.

* `Plan` — these parts; `Plan.next` is the end of a session in terms of them.
* `Plan.Move` — what a step can do to a plan when nobody gives a command: a waiting `PLAY` starts a
  file, is ignored or is kept for later, or a session ends.
* `step_move` — every step of the player in which files open is a move of its plan, and the files
  that moves start are the files that steps start.
-/

set_option autoImplicit false

namespace Mediabox.Player

open Transition Outcome

variable {s t : State} {env : Env}

/-! ## Plans -/

/-- The `PLAY` messages that wait. -/
def plays (mailbox : List Msg) : List (Option Path) :=
  mailbox.filterMap fun m => match m with
    | .play path => some path
    | _ => none

/-- The other messages by which a user or a worker that gave up acts on the session. -/
def Msg.command : Msg → Bool
  | .pause | .stop | .seek _ _ | .threadExit => true
  | _ => false

def PlayState.isReady : PlayState → Bool
  | .ready => true
  | _ => false

theorem PlayState.isReady_eq_true {p : PlayState} : p.isReady = true ↔ p = .ready := by
  cases p <;> simp [PlayState.isReady]

theorem PlayState.isReady_eq_false {p : PlayState} : p.isReady = false ↔ p ≠ .ready := by
  cases p <;> simp [PlayState.isReady]

/-- What decides which files come next. -/
@[ext]
structure Plan where
  ready : Bool
  plays : List (Option Path)
  commands : List Msg
  stopping : Bool
  nextFile : Option Path
  playlist : List Path
  playlistItem : Option Nat
  deriving DecidableEq, Repr

def State.plan (s : State) : Plan where
  ready := s.playState.isReady
  plays := Player.plays s.mailbox
  commands := s.mailbox.filter Msg.command
  stopping := s.stopping
  nextFile := s.nextFile
  playlist := s.playlist
  playlistItem := s.playlistItem

/-- `avbox_player_play`, on the plan. -/
def Plan.play (p : Plan) (path : Path) : Plan :=
  { p with
    plays := p.plays ++ [some path]
    playlist := []
    playlistItem := if p.playlist = [] then p.playlistItem else none }

/-- `playNext`, on the plan. -/
def Plan.advance (p : Plan) : Plan :=
  match p.nextFile with
  | some path => { p.play path with nextFile := none }
  | none =>
    match p.playlistItem with
    | none => p
    | some i =>
      let i := if i < p.playlist.length then i + 1 else 0
      match p.playlist[i]? with
      | none => { p with playlistItem := some i }
      | some path => Plan.play { p with playlistItem := some i } path

/-- The end of a session, on the plan. -/
def Plan.next (p : Plan) : Plan := { (if p.stopping then p else p.advance) with ready := true }

/-- What a step may do to a plan, and the file that it starts. -/
inductive Plan.Move (p : Plan) : Option Path → Plan → Prop
  | same : Move p none p
  | start {path : Path} {ps : List (Option Path)} : p.ready = true → p.plays = some path :: ps →
      Move p (some path) { p with ready := false, plays := ps }
  | ignore {path : Option Path} {ps : List (Option Path)} : p.ready = false ∨ path = none →
      p.plays = path :: ps → Move p none { p with plays := ps }
  | defer {path : Path} {ps : List (Option Path)} : p.ready = false → p.plays = some path :: ps →
      Move p none { p with plays := ps, nextFile := some path }
  | finish : p.ready = false → Move p none p.next

theorem Plan.advance_nextFile (p : Plan) : p.advance.nextFile = none := by
  unfold Plan.advance
  split
  · rfl
  · rename_i hnone
    split
    · exact hnone
    · simp only
      split <;> exact hnone

theorem Plan.next_nextFile {p : Plan} (h : p.next.stopping = false) : p.next.nextFile = none := by
  unfold Plan.next at h ⊢
  by_cases hstop : p.stopping = true
  · rw [if_pos hstop] at h
    exact absurd (hstop.symm.trans h) (by simp)
  · rw [if_neg hstop]
    exact p.advance_nextFile

theorem plays_append (m₁ m₂ : List Msg) : plays (m₁ ++ m₂) = plays m₁ ++ plays m₂ :=
  List.filterMap_append

theorem plan_play (s : State) (path : Path) : (play s (some path)).plan = s.plan.play path := by
  have hplays : plays (s.mailbox ++ [Msg.play (some path)]) = plays s.mailbox ++ [some path] :=
    plays_append _ _
  have hcommands : (s.mailbox ++ [Msg.play (some path)]).filter Msg.command
      = s.mailbox.filter Msg.command := by
    rw [List.filter_append, show [Msg.play (some path)].filter Msg.command = [] from rfl,
      List.append_nil]
  simp only [State.plan, play, sendctl, Plan.play, hplays, hcommands]
  rfl

/-- A message that is no command does not change the plan. -/
theorem plan_sendctl (s : State) {m : Msg} (hplay : plays [m] = [])
    (hcommand : m.command = false) : (sendctl s m).plan = s.plan := by
  simp [State.plan, sendctl, plays_append, hplay, hcommand]

theorem plan_playNext (s : State) : (playNext s).plan = s.plan.advance := by
  unfold playNext Plan.advance
  cases hnext : s.nextFile with
  | some path =>
    simp only [show s.plan.nextFile = some path from hnext]
    rw [← plan_play]
    rfl
  | none =>
    simp only [show s.plan.nextFile = none from hnext]
    cases hitem : s.playlistItem with
    | none =>
      simp only [show s.plan.playlistItem = none from hitem]
    | some i =>
      simp only [show s.plan.playlistItem = some i from hitem, listNext,
        show s.plan.playlist = s.playlist from rfl]
      cases hget : s.playlist[if i < s.playlist.length then i + 1 else 0]? with
      | none =>
        simp only
        rw [← hnext]
        rfl
      | some path =>
        simp only
        rw [← hnext]
        exact plan_play _ _

/-- **The end of a session is `Plan.next`.** -/
theorem plan_endSession (s : State) : (endSession s).plan = s.plan.next := by
  have hready (u : State) : State.plan { u with playState := .ready } =
      { u.plan with ready := true } := rfl
  unfold endSession Plan.next
  rw [hready]
  by_cases hstop : s.stopping = true
  · rw [if_pos (show s.plan.stopping = true from hstop),
      if_pos (show (cleanup s).stopping = true from hstop)]
    rfl
  · rw [if_neg (show ¬s.plan.stopping = true from hstop),
      if_neg (show ¬(cleanup s).stopping = true from hstop), plan_playNext]
    rfl

/-! ## Functions that leave the plan alone -/

theorem dopause_plan (s : State) : (dopause s).plan = s.plan := by
  unfold dopause
  split <;> rfl

theorem doresume_plan : Ensures (doresume s env) (fun t => t.plan = s.plan) anyFault :=
  doresume_ensures (fun _ => rfl) (fun _ => rfl) (fun _ _ _ => rfl) (fun _ _ => trivial)
    (fun _ _ _ => trivial) fun _ _ => trivial

theorem handleUnderrun_plan :
    Ensures (handleUnderrun s env) (fun t => t.plan = s.plan) anyFault :=
  handleUnderrun_ensures (fun _ _ => rfl) fun _ => doresume_plan.imp fun _ ht => ht

theorem dostop_plan : Ensures (dostop s env) (fun t => t.plan = s.plan) anyFault := by
  unfold dostop
  split
  · rfl
  · exact resumeIfPaused_ensures (fun _ => rfl) fun _ => doresume_plan.imp fun _ ht => ht

theorem flushLoop_plan {flags : Nat} (hflags : flags ≠ 0) :
    Ensures (flushLoop s flags env) (fun t => t.plan = s.plan) anyFault :=
  flushLoop_ensures hflags (fun _ _ _ => trivial) (fun _ => rfl) (fun _ _ _ _ _ => rfl)
    fun _ _ => trivial

theorem bufferUnderrun_plan :
    Ensures (bufferUnderrun s env) (fun t => t.plan = s.plan) anyFault :=
  bufferUnderrun_ensures rfl
    (fun _ _ => handleUnderrun_plan.imp fun _ ht => ht.trans (dopause_plan _))
    fun _ _ => handleUnderrun_plan.imp fun _ ht => ht

theorem timer_plan {id : Nat} : Ensures (timer s id env) (fun t => t.plan = s.plan) anyFault :=
  timer_ensures rfl (fun _ _ => handleUnderrun_plan) (fun _ _ => handleUnderrun_plan.imp fun _ ht => ht)
    (fun _ _ => doresume_plan.imp fun _ ht => ht) (fun _ => plan_sendctl s rfl rfl) rfl

theorem changeAudioTrack_plan {id : Option Int} :
    Ensures (changeAudioTrack s id) (fun t => t.plan = s.plan) anyFault :=
  changeAudioTrack_ensures rfl (fun _ _ _ _ _ => rfl) (fun _ _ _ => rfl) (fun _ => rfl) trivial

theorem flushMsg_plan : Ensures (flushMsg s env) (fun t => t.plan = s.plan) anyFault :=
  flushMsg_ensures ((flushLoop_plan (by decide)).imp fun _ ht => ht) trivial

theorem stillFrame_plan {length : Nat} :
    Ensures (stillFrame s length env) (fun t => t.plan = s.plan) anyFault :=
  stillFrame_ensures rfl ((flushLoop_plan (by decide)).imp fun _ ht _ => ht) trivial

/-- The next stage of a session that has begun. -/
theorem plan_stage {p q : PlayState} (hs : s.playState = p) (hp : p ≠ .ready) (hq : q ≠ .ready) :
    State.plan { s with playState := q } = s.plan := by
  have hready : q.isReady = s.playState.isReady := by
    rw [hs, PlayState.isReady_eq_false.mpr hp, PlayState.isReady_eq_false.mpr hq]
  simp only [State.plan, hready]

theorem streamReady_plan : Ensures (streamReady s env) (fun t => t.plan = s.plan) anyFault := by
  unfold streamReady
  simp only [ensures_bind, ensures_assert]
  refine ⟨fun hp => ?_, fun _ => trivial⟩
  have hstage := plan_stage (q := .audioDec) hp (by simp) (by simp)
  split
  · exact (plan_sendctl _ rfl rfl).trans hstage
  · simp only [ensures_bind, ensures_assert]
    refine ⟨fun _ => ?_, fun _ => trivial⟩
    split
    · exact hstage
    · trivial

theorem audioDecReady_plan (hthread : env.threadDelegate = true) :
    Ensures (audioDecReady s env) (fun t => t.plan = s.plan) anyFault := by
  unfold audioDecReady
  simp only [ensures_bind, ensures_assert]
  refine ⟨fun hp => ?_, fun _ => trivial⟩
  have hstage := plan_stage (q := .videoDec) hp (by simp) (by simp)
  split
  · exact (plan_sendctl _ rfl rfl).trans hstage
  · simp only [ensures_bind, ensures_assert]
    exact ⟨fun _ => hstage, fun _ => trivial⟩

theorem videoDecReady_plan : Ensures (videoDecReady s) (fun t => t.plan = s.plan) anyFault := by
  unfold videoDecReady
  simp only [ensures_bind, ensures_assert]
  refine ⟨fun hp => ?_, fun _ => trivial⟩
  have hstage := plan_stage (q := .audioOut) hp (by simp) (by simp)
  exact (plan_sendctl _ rfl rfl).trans hstage

theorem audioOutReady_plan (hthread : env.threadDelegate = true) :
    Ensures (audioOutReady s env) (fun t => t.plan = s.plan) anyFault := by
  unfold audioOutReady
  simp only [ensures_bind, ensures_assert]
  refine ⟨fun hp => ?_, fun _ => trivial⟩
  have hstage := plan_stage (q := .videoOut) hp (by simp) (by simp)
  split
  · exact (plan_sendctl _ rfl rfl).trans hstage
  · simp only [ensures_bind, ensures_assert]
    exact ⟨fun _ => hstage, fun _ => trivial⟩

theorem videoOutReady_plan : Ensures (videoOutReady s env) (fun t => t.plan = s.plan) anyFault := by
  unfold videoOutReady
  simp only [ensures_bind, ensures_assert]
  refine ⟨fun hp => ?_, fun _ => trivial⟩
  have hstage := plan_stage (q := .playing) hp (by simp) (by simp)
  refine handleUnderrun_plan.imp fun t ht => ?_
  simp only [ensures_checkpointContinue, ensures_ok]
  refine ⟨fun _ => ?_, fun _ => trivial⟩
  exact (ht.trans (dopause_plan _)).trans hstage

theorem parserStep_plan {input : ParserInput} {r : Except Fault State}
    (hwait : s.audioStreamIndex = -2 → s.audioStreamId ≠ -1)
    (hstep : parserStep s input = some r) :
    Ensures r (fun t => t.plan = s.plan) anyFault := by
  refine parserStep_ensures hstep (fun _ _ => ?_) (fun _ _ _ => rfl)
    (fun _ streams audio video queues => ?_) (fun _ _ _ => rfl) (fun _ stream => ?_)
    (fun _ => rfl) fun _ => plan_sendctl _ rfl rfl
  · refine parserStart_ensures (fun t ht => ?_) trivial
    subst ht
    exact ⟨plan_sendctl _ rfl rfl, rfl⟩
  · obtain ⟨_, _, _, heq | heq⟩ := parserOpens_eq s streams audio video queues
    · rw [heq]
      exact rfl
    · rw [heq]
      exact plan_sendctl _ rfl rfl
  · rcases selectAudio_eq s stream hwait with heq | ⟨_, heq⟩ <;> rw [heq] <;> rfl

theorem workerStep_plan {w : Worker} {e : WorkerEvent} (hstep : workerStep s w e = some t) :
    t.plan = s.plan := by
  unfold workerStep at hstep
  split at hstep
  all_goals (try simp only at hstep)
  all_goals (try split at hstep)
  all_goals (try split at hstep)
  all_goals (cases hstep <;> first | rfl | exact plan_sendctl _ rfl rfl)

/-! ## The end of a session -/

/-- **The rule for `STREAM_EXIT`**: the session ends with its plan untouched, or the message comes
    again later. -/
theorem streamExit_ensures {R : State → Prop}
    (hend : ∀ u, u.plan = s.plan → u.underrunTimerId = none → R (endSession u))
    (hdelay : ∀ u, u.plan = s.plan → s.playState = .playing → R (sendctl u .streamExit) ∧
      R { u with streamExitTimerId := env.timer }) :
    Ensures (streamExit s env) R anyFault := by
  unfold streamExit
  rw [ensures_bind]
  refine cancelUnderrun_frame.mono (fun t ht => ?_) fun _ _ => trivial
  obtain ⟨hplan, htimer, hstate⟩ : t.plan = s.plan ∧ t.underrunTimerId = none ∧
      t.playState = s.playState := by
    obtain ⟨_, _, _, _, rfl⟩ := ht
    exact ⟨rfl, rfl, rfl⟩
  split
  · rw [ensures_bind]
    exact drop_ensures (fun _ => hend _ hplan htimer) (fun _ => trivial) fun _ => trivial
  · rw [ensures_bind]
    refine flush_ensures (fun _ _ _ => trivial) (fun _ => hend t hplan htimer) (fun hplay _ => ?_)
      (fun _ _ _ _ _ => hend _ hplan htimer) fun _ _ => trivial
    obtain ⟨hsend, htimer⟩ := hdelay (beginFlush t flushAll) hplan (hstate ▸ hplay)
    exact delayStreamExit_ensures (fun _ _ => hsend) (fun _ => htimer) trivial

/-! ## Files that open and play to their end -/

/-- The message is handled as it is when files open: `avbox_player_openstream` succeeds and threads
    can be started. -/
def opens (env : Env) : Msg → Bool
  | .play (some path) =>
    env.applicationDelegate && (!providerPath path || env.provider.isSome) && env.threadDelegate
  | .audioDecReady | .audioOutReady => env.threadDelegate
  | _ => true

/-- What the parser finds when the file opens. -/
def ParserInput.succeeds : ParserInput → Bool
  | .start alloc => alloc
  | .openFails _ => false
  | .opens _ audio video queues => (0 ≤ audio || video ≠ -1) && (queues || video < 0)
  | .next | .packet _ | .fails => true

/-- Nobody gives a command, files open, and no worker gives up. -/
def Undisturbed (s : State) : Event → Prop
  | .play _ | .playlist _ _ => False
  | .post m => m.command = false
  | .control env => OnHead (opens env · = true) s.mailbox
  | .parser input => input.succeeds
  | .worker _ _ => True

instance (s : State) : ∀ e, Decidable (Undisturbed s e)
  | .play _ | .playlist _ _ => inferInstanceAs (Decidable False)
  | .post m => inferInstanceAs (Decidable (m.command = false))
  | .control env => inferInstanceAs (Decidable (OnHead (opens env · = true) s.mailbox))
  | .parser input => inferInstanceAs (Decidable (input.succeeds = true))
  | .worker _ _ => inferInstanceAs (Decidable True)

/-- The file that a step starts: the path of a `PLAY` that delegates the stream parser. -/
def starts (s : State) (e : Event) (t : State) : Option Path :=
  match e, s.mailbox with
  | .control _, .play (some path) :: _ =>
    if s.streamInputWorker = .idle ∧ t.streamInputWorker = .delegated then some path else none
  | _, _ => none

/-- Flags of a player in which nothing is left to start. -/
def Settled (f : Flags) : Prop := f.underrunTimerId = none ∧ (f.stopping = false → f.nextFile = none)

theorem settled_unbuffered : Unbuffered Settled where
  underrunTimerId := fun _ hf => hf.1
  stillFrame := fun _ hf => hf

theorem endSession_settled (h : s.underrunTimerId = none) : AtRest Settled (endSession s) := by
  intro _
  obtain ⟨_, _, _, hnext, _⟩ := playNext_eq (cleanup s)
  have hplan := plan_endSession s
  refine ⟨⟨?_, fun hstop => ?_⟩, ?_⟩
  · show (endSession s).underrunTimerId = none
    unfold endSession
    simp only
    split
    · exact h
    · rw [hnext]
      exact h
  · have hstop : s.plan.next.stopping = false := by
      rw [← hplan]
      exact hstop
    have hfile := Plan.next_nextFile hstop
    rw [← hplan] at hfile
    exact hfile
  · unfold endSession
    simp only
    split
    · rfl
    · rw [hnext]
      rfl

theorem step_settled {e : Event} {r : Result} (hwf : Wf s) (h : AtRest Settled s)
    (hok : Handling NoIdleUnderrun s e) (hstep : step s e = some (t, r)) : AtRest Settled t := by
  refine step_rest settled_unbuffered hwf h hok (fun env ms he hms => ?_) hstep
  refine streamExit_ensures (fun u _ hu => endSession_settled hu) fun u hu hplay => ?_
  have hbusy : u.playState ≠ .ready := by
    apply PlayState.isReady_eq_false.mp
    rw [show u.playState.isReady = s.playState.isReady from congrArg Plan.ready hu]
    rw [show s.playState = .playing from hplay]
    rfl
  exact ⟨AtRest.of_busy hbusy, AtRest.of_busy hbusy⟩

/-! ## Every step is a move -/

/-- A step that leaves the stream parser where it is starts no file. -/
theorem starts_of_same {e : Event} (h : t.streamInputWorker = s.streamInputWorker) :
    starts s e t = none := by
  unfold starts
  split
  · rw [h, if_neg (by rintro ⟨hidle, hdel⟩; simp [hidle] at hdel)]
  · rfl

/-- Taking a `PLAY` out of the mailbox. -/
theorem plan_take_play {path : Option Path} {ms : List Msg} (hm : s.mailbox = .play path :: ms) :
    s.plan.plays = path :: plays ms ∧ ms.filter Msg.command = s.plan.commands := by
  constructor
  · show plays s.mailbox = _
    rw [hm]
    rfl
  · show _ = s.mailbox.filter Msg.command
    rw [hm]
    rfl

/-- Taking a message out of the mailbox that is neither a `PLAY` nor another command. -/
theorem plan_take_other {m : Msg} {ms : List Msg} (hm : s.mailbox = m :: ms)
    (hplay : plays [m] = []) (hcommand : m.command = false) :
    State.plan { s with mailbox := ms } = s.plan := by
  have hplays : plays s.mailbox = plays ms := by
    rw [hm, ← List.singleton_append, plays_append, hplay, List.nil_append]
  have hcommands : s.mailbox.filter Msg.command = ms.filter Msg.command := by
    rw [hm, List.filter_cons_of_neg (by simp [hcommand])]
  simp only [State.plan, hplays, hcommands]

theorem Plan.Move.of_eq {p p' q : Plan} {f f' : Option Path} (h : p.Move f p') (hf : f' = f)
    (hq : q = p') : p.Move f' q := by
  subst hf hq
  exact h

theorem doplay_move {path : Option Path} {ms : List Msg} (hwf : Wf s) (hrest : AtRest Settled s)
    (hm : s.mailbox = .play path :: ms) (hok : opens env (.play path) = true) :
    Ensures (doplay { s with mailbox := ms } path env)
      (fun t => s.plan.Move (starts s (.control env) t) t.plan) anyFault := by
  obtain ⟨hplays, hcommands⟩ := plan_take_play hm
  have hready : s.playState ≠ .ready → s.plan.ready = false := PlayState.isReady_eq_false.mpr
  have hplan : State.plan { s with mailbox := ms } = { s.plan with plays := plays ms } :=
    Plan.ext rfl rfl hcommands rfl rfl rfl rfl
  have hstays (t : State) (ht : t.streamInputWorker = s.streamInputWorker) :
      starts s (.control env) t = none := starts_of_same ht
  unfold doplay
  split
  · -- in the middle of a start: the command is ignored
    rename_i hmid
    exact (Plan.Move.ignore (Or.inl (hready hmid.1)) hplays).of_eq (hstays _ rfl) hplan
  · cases path with
    | none =>
      have hignore := Plan.Move.ignore (Or.inr rfl) hplays
      simp only
      split
      · refine (doresume_plan.and doresume_keeps).mono (fun t ht => ?_) fun _ _ => trivial
        exact hignore.of_eq (hstays _ ht.2.streamInputWorker) (ht.1.trans hplan)
      · exact hignore.of_eq (hstays _ rfl) hplan
    | some path =>
      simp only
      split
      · -- a file is playing: the new one has to wait
        rename_i hstatus
        have hbusy := hready (hrest.busy_of_status hstatus)
        refine (dostop_plan.and dostop_keeps).mono (fun t ht => ?_) fun _ _ => trivial
        refine (Plan.Move.defer hbusy hplays).of_eq (hstays _ ht.2.streamInputWorker) ?_
        exact ht.1.trans (Plan.ext rfl rfl hcommands rfl rfl rfl rfl)
      · rename_i hstatus
        have hplay := hwf.ready_of_status (by simpa using hstatus)
        have hidle := hwf.idle_of_ready hplay
        simp only [opens, Bool.and_eq_true, Bool.or_eq_true, Bool.not_eq_true'] at hok
        obtain ⟨⟨happ, hprov⟩, hthread⟩ := hok
        rw [if_neg (by simp [happ]), if_neg (by
          rintro ⟨hpath, hnone⟩
          simp [hpath, hnone] at hprov)]
        simp only [ensures_bind, ensures_assert, hthread, ↓reduceIte]
        refine ⟨fun _ => ?_, fun _ => trivial⟩
        have hstarts (u : State) (hu : u.streamInputWorker = .delegated) :
            starts s (.control env) u = some path := by
          unfold starts
          rw [hm]
          exact if_pos ⟨hidle, hu⟩
        refine (Plan.Move.start (PlayState.isReady_eq_true.mpr hplay) hplays).of_eq
          (hstarts _ rfl) ?_
        exact Plan.ext rfl rfl hcommands rfl rfl rfl rfl

theorem starts_of_other {m : Msg} {ms : List Msg} (hm : s.mailbox = m :: ms)
    (hplay : plays [m] = []) : starts s (.control env) t = none := by
  unfold starts
  rw [hm]
  cases m with
  | play path => cases hplay
  | _ => rfl

theorem streamExit_move {ms : List Msg} (hwf : Wf s) (hm : s.mailbox = .streamExit :: ms) :
    Ensures (streamExit { s with mailbox := ms } env)
      (fun t => s.plan.Move (starts s (.control env) t) t.plan) anyFault := by
  have hplan := plan_take_other hm rfl rfl
  have hnone (t : State) : starts s (.control env) t = none := starts_of_other hm rfl
  have hbusy : s.playState ≠ .ready := fun hready => by
    have hret := (hwf.take_exit hm).2.1
    exact absurd (hret.symm.trans (hwf.idle_of_ready hready)) (by simp)
  refine streamExit_ensures (fun u hu _ => ?_) fun u hu _ => ?_
  · have hnext : (endSession u).plan = s.plan.next := by
      rw [plan_endSession, hu, hplan]
    exact (Plan.Move.finish (PlayState.isReady_eq_false.mpr hbusy)).of_eq (hnone _) hnext
  · have hsame : (sendctl u .streamExit).plan = u.plan := plan_sendctl u rfl rfl
    exact ⟨Plan.Move.same.of_eq (hnone _) ((hsame.trans hu).trans hplan),
      Plan.Move.same.of_eq (hnone _) (hu.trans hplan)⟩

theorem control_move {m : Msg} {ms : List Msg} (hwf : Wf s) (hrest : AtRest Settled s)
    (hcalm : s.plan.commands = []) (hm : s.mailbox = m :: ms) (hok : opens env m = true) :
    Ensures (control { s with mailbox := ms } m env)
      (fun t => s.plan.Move (starts s (.control env) t) t.plan) anyFault := by
  have hcommand : m.command = false := by
    have hmem : m ∉ s.mailbox.filter Msg.command := by
      rw [show s.mailbox.filter Msg.command = [] from hcalm]
      exact List.not_mem_nil
    simpa [hm] using hmem
  -- a handler that leaves the plan alone
  have hsame (hplay : plays [m] = []) (x : Except Fault State)
      (hx : Ensures x (fun t => t.plan = State.plan { s with mailbox := ms }) anyFault) :
      Ensures x (fun t => s.plan.Move (starts s (.control env) t) t.plan) anyFault :=
    hx.imp fun t ht => Plan.Move.same.of_eq (starts_of_other hm hplay)
      (ht.trans (plan_take_other hm hplay hcommand))
  unfold control
  cases m with
  | play path => exact doplay_move hwf hrest hm hok
  | pause | stop | seek flags incr | threadExit => cases hcommand
  | streamReady => exact hsame rfl _ streamReady_plan
  | audioDecReady => exact hsame rfl _ (audioDecReady_plan hok)
  | videoDecReady => exact hsame rfl _ videoDecReady_plan
  | audioOutReady => exact hsame rfl _ (audioOutReady_plan hok)
  | videoOutReady => exact hsame rfl _ videoOutReady_plan
  | streamExit => exact streamExit_move hwf hm
  | bufferUnderrun => exact hsame rfl _ bufferUnderrun_plan
  | audioStreamUnderrun | info => exact hsame rfl (.ok _) rfl
  | changeAudioTrack streamId => exact hsame rfl _ changeAudioTrack_plan
  | flush => exact hsame rfl _ flushMsg_plan
  | stillFrame length => exact hsame rfl _ stillFrame_plan
  | timer id => exact hsame rfl _ timer_plan

/-- **Every step is a move of the plan**, as long as nobody gives a command and files open. -/
theorem step_move {e : Event} {r : Result} (hwf : Wf s) (hrest : AtRest Settled s)
    (hcalm : s.plan.commands = []) (hok : Undisturbed s e) (hstep : step s e = some (t, r)) :
    s.plan.Move (starts s e t) t.plan := by
  have hout (x : Except Fault State)
      (hx : Ensures x (fun t => s.plan.Move (starts s e t) t.plan) anyFault)
      (heq : outcome s x = (t, r)) : s.plan.Move (starts s e t) t.plan := by
    cases x with
    | ok u =>
      cases heq
      exact hx
    | error f =>
      cases heq
      exact Plan.Move.same.of_eq (starts_of_same rfl) rfl
  cases e with
  | play path | playlist items selected => exact hok.elim
  | post m =>
    simp only [step] at hstep
    split at hstep
    · cases hstep
    · rename_i hm
      cases hstep
      have hplay : plays [m] = [] := by
        cases m <;> first | rfl | exact absurd rfl hm
      exact Plan.Move.same.of_eq rfl (plan_sendctl s hplay hok)
  | control env =>
    simp only [step] at hstep
    split at hstep
    · cases hstep
    · rename_i m ms hms
      have hopens : OnHead (opens env · = true) s.mailbox := hok
      rw [hms] at hopens
      exact hout _ (control_move hwf hrest hcalm hms hopens) (Option.some.inj hstep)
  | parser input =>
    obtain ⟨x, hx, heq⟩ := Option.map_eq_some_iff.mp hstep
    refine hout x ?_ heq
    exact (parserStep_plan hwf.id_of_waiting hx).imp fun t ht => Plan.Move.same.of_eq rfl ht
  | worker w ev =>
    obtain ⟨u, hu, heq⟩ := Option.map_eq_some_iff.mp hstep
    cases heq
    exact Plan.Move.same.of_eq rfl (workerStep_plan hu)

end Mediabox.Player
