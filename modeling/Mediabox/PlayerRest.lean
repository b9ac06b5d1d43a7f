import Mediabox.PlayerLife

/-!
# The player between two sessions

Between the end of one file and the start of the next the player is ready, and what it does then
depends on the flags that the last session left behind.

* `Flags` — `stopping`, `paused`, `flushing`, `underrun`, `next_file` and the timer ids.
* `AtRest Q` — a ready player has the status `READY` and flags that meet `Q`.
* `step_rest` — when `Q` knows of no buffering, every step keeps it but two: an underrun that is
  handled by a ready player, and the end of a session.
-/

set_option autoImplicit false

namespace Mediabox.Player

open Transition Outcome

variable {s t : State} {env : Env}

/-- The flags that steer a session. -/
structure Flags where
  stopping : Bool
  paused : Nat
  flushing : Nat
  underrun : Bool
  nextFile : Option Path
  underrunTimerId : Option Nat
  streamExitTimerId : Option Nat
  stillFrameTimerId : Option Nat
  deriving DecidableEq, Repr

def State.flags (s : State) : Flags where
  stopping := s.stopping
  paused := s.paused
  flushing := s.flushing
  underrun := s.underrun
  nextFile := s.nextFile
  underrunTimerId := s.underrunTimerId
  streamExitTimerId := s.streamExitTimerId
  stillFrameTimerId := s.stillFrameTimerId

/-- A ready player has the status `READY` and flags that meet `Q`. -/
def AtRest (Q : Flags → Prop) (s : State) : Prop :=
  s.playState = .ready → Q s.flags ∧ s.status = .ready

variable {Q : Flags → Prop}

theorem AtRest.frame (h : AtRest Q s) (hplay : t.playState = s.playState)
    (hflags : t.flags = s.flags) (hstatus : t.status = s.status) : AtRest Q t := fun hready => by
  rw [hflags, hstatus]
  exact h (hplay ▸ hready)

/-- Inside a session there is nothing to show. -/
theorem AtRest.of_busy (h : s.playState ≠ .ready) : AtRest Q s := fun hready => absurd hready h

theorem AtRest.busy_of_status (h : AtRest Q s) (hst : s.status ≠ .ready) : s.playState ≠ .ready :=
  fun hready => hst (h hready).2

theorem Keeps.rest (hkeeps : Keeps s t) (hbusy : s.playState ≠ .ready) : AtRest Q t :=
  AtRest.of_busy (by rw [hkeeps.playState]; exact hbusy)

/-! ## The handlers -/

theorem doplay_rest {path : Option Path} (hwf : Wf s) (h : AtRest Q s) :
    Ensures (doplay s path env) (AtRest Q) anyFault := by
  refine doplay_ensures h (fun hst => ?_) (fun hst _ => ?_) (fun _ _ => ?_) (fun hst _ _ _ => ?_)
    (fun _ _ => ?_) trivial
  · have hbusy := h.busy_of_status (by simp [hst])
    exact doresume_keeps.imp fun t ht => ht.rest hbusy
  · have hbusy := h.busy_of_status hst
    exact dostop_keeps.imp fun t ht => Keeps.rest (s := s) { ht with } hbusy
  · exact nofun
  · exact ⟨(h (hwf.ready_of_status hst)).1, rfl⟩
  · exact nofun

theorem pause_rest (h : AtRest Q s) : AtRest Q (pause s env) := by
  rcases pause_cases s env with heq | ⟨hacc, heq⟩
  · rw [heq]
    exact h
  · have hbusy := h.busy_of_status (by simp [hacc.1])
    rw [heq]
    exact Keeps.rest { dopause_keeps s with status := nofun } hbusy

theorem stop_rest (h : AtRest Q s) : Ensures (stop s env) (AtRest Q) anyFault := by
  unfold stop
  split
  · exact h
  · rename_i hbusy
    exact dostop_keeps.imp fun t ht => Keeps.rest (s := s) { ht with } hbusy

theorem threadExit_rest (h : AtRest Q s) : Ensures (threadExit s env) (AtRest Q) anyFault := by
  unfold threadExit
  split
  · rename_i hbusy
    exact dostop_keeps.imp fun t ht => Keeps.rest (s := s) { ht with } hbusy.1
  · exact h

theorem playItem_rest (h : AtRest Q s) (i : Nat) : AtRest Q (playItem s i) := by
  unfold playItem
  split
  · exact h
  · exact h.frame rfl rfl rfl

theorem doseek_rest {flags : Nat} {incr : Int} (h : AtRest Q s) :
    Ensures (doseek s flags incr env) (AtRest Q) anyFault := by
  refine doseek_ensures h (playItem_rest h) (fun hst _ _ => ?_) trivial
  have hbusy : s.playState ≠ .ready :=
    h.busy_of_status (by rcases hst with hst | hst <;> simp [hst])
  exact seekTo_keeps.imp fun t ht => ht.rest hbusy

theorem NextStage.rest {p : PlayState} (hnext : NextStage p s t) : AtRest Q t := by
  obtain ⟨_, q, _, _, _, _, rfl, hle, _, _⟩ := hnext
  exact AtRest.of_busy (PlayState.ne_ready hle)

theorem videoOutReady_rest : Ensures (videoOutReady s env) (AtRest Q) anyFault := by
  unfold videoOutReady
  simp only [ensures_bind, ensures_assert]
  refine ⟨fun _ => ?_, fun _ => trivial⟩
  refine handleUnderrun_keeps.imp fun t ht => ?_
  have hplay : t.playState = .playing := ((dopause_keeps _).trans ht).playState
  simp only [ensures_checkpointContinue, ensures_ok]
  exact ⟨fun _ => AtRest.of_busy (by simp [hplay]), fun _ => trivial⟩

theorem bufferUnderrun_rest (h : AtRest Q s) (hok : entersUnderrun s env → s.playState ≠ .ready) :
    Ensures (bufferUnderrun s env) (AtRest Q) anyFault := by
  have hunder : Keeps s { s with underrun := true } := { Keeps.refl s with }
  refine bufferUnderrun_ensures h (fun _ henter => ?_) fun _ henter => ?_
  · exact handleUnderrun_keeps.imp
      fun t ht => ((hunder.trans (dopause_keeps _)).trans ht).rest (hok henter)
  · exact handleUnderrun_keeps.imp fun t ht => (hunder.trans ht).rest (hok henter)

/-- Flags of a player that is not buffering; a still frame does not matter. -/
structure Unbuffered (Q : Flags → Prop) : Prop where
  underrunTimerId : ∀ f, Q f → f.underrunTimerId = none
  stillFrame : ∀ f, Q f → Q { f with stillFrameTimerId := none }

theorem timer_rest {id : Nat} (hQ : Unbuffered Q) (hwf : Wf s) (h : AtRest Q s) :
    Ensures (timer s id env) (AtRest Q) anyFault := by
  refine timer_ensures h (fun _ hplay => ?_) (fun htimer _ => ?_) (fun _ hplay => ?_)
    (fun hexit => ?_) fun hready => ?_
  · exact handleUnderrun_keeps.imp fun t ht => ht.rest (by simp [hplay])
  · have hbusy : s.playState ≠ .ready := fun hready => by
      have hnone : s.underrunTimerId = none := hQ.underrunTimerId _ (h hready).1
      exact absurd (hnone.symm.trans htimer) (by simp)
    exact handleUnderrun_keeps.imp fun t ht => Keeps.rest (s := s) { ht with } hbusy
  · exact doresume_keeps.imp fun t ht => AtRest.of_busy (by simp [ht.playState, hplay])
  · refine AtRest.of_busy fun hready => ?_
    have hret := hwf.returned_of_timer (by simp [hexit])
    exact absurd (hret.symm.trans (hwf.idle_of_ready hready)) (by simp)
  · obtain ⟨hflags, hstatus⟩ := h hready
    exact ⟨hQ.stillFrame _ hflags, hstatus⟩

theorem changeAudioTrack_rest {id : Option Int} (h : AtRest Q s) :
    Ensures (changeAudioTrack s id) (AtRest Q) anyFault :=
  changeAudioTrack_ensures h (fun _ _ _ _ _ => h.frame rfl rfl rfl)
    (fun _ _ _ => h.frame rfl rfl rfl) (fun _ => h.frame rfl rfl rfl) trivial

/-- A flush that returns was made inside a session. -/
theorem flushLoop_busy {flags : Nat} (hflags : flags ≠ 0) :
    Ensures (flushLoop s flags env) (fun t => t.playState ≠ .ready) anyFault :=
  flushLoop_ensures hflags (fun _ _ _ => trivial) (fun hst => by simp [hst])
    (fun hplay _ _ _ _ => by simp [flushedTo, hplay]) fun _ _ => trivial

theorem flushMsg_rest : Ensures (flushMsg s env) (AtRest Q) anyFault :=
  flushMsg_ensures ((flushLoop_busy (by decide)).imp fun _ ht => AtRest.of_busy ht)
    trivial

theorem stillFrame_rest {length : Nat} (h : AtRest Q s) :
    Ensures (stillFrame s length env) (AtRest Q) anyFault :=
  stillFrame_ensures h
    ((flushLoop_busy (by decide)).imp fun _ ht _ => AtRest.of_busy ht) trivial

theorem delayStreamExit_rest (hbusy : s.playState ≠ .ready) :
    Ensures (delayStreamExit s env) (AtRest Q) anyFault :=
  delayStreamExit_ensures (fun _ _ => AtRest.of_busy hbusy) (fun _ => AtRest.of_busy hbusy) trivial

/-! ## Every step -/

/-- The condition under which a ready player stays out of buffering. -/
def NoIdleUnderrun (s : State) (m : Msg) (env : Env) : Prop :=
  m = .bufferUnderrun → entersUnderrun s env → s.playState ≠ .ready

instance (s : State) (m : Msg) (env : Env) : Decidable (NoIdleUnderrun s m env) :=
  inferInstanceAs (Decidable (_ → _ → _))

theorem control_rest {m : Msg} {ms : List Msg} (hQ : Unbuffered Q) (hwf : Wf s) (h : AtRest Q s)
    (hm : s.mailbox = m :: ms) (hok : NoIdleUnderrun s m env)
    (hexit : m = .streamExit → Ensures (streamExit { s with mailbox := ms } env) (AtRest Q)
      anyFault) : Ensures (control { s with mailbox := ms } m env) (AtRest Q) anyFault := by
  have htake : AtRest Q { s with mailbox := ms } := h.frame rfl rfl rfl
  have hother : parserMsgs [m] = [] → Wf { s with mailbox := ms } := fun hmsgs =>
    hwf.setMailbox (by rw [hm, parserMsgs_cons m, hmsgs, List.nil_append])
  unfold control
  cases m with
  | play path => exact doplay_rest (hother rfl) htake
  | pause => exact pause_rest htake
  | stop => exact stop_rest htake
  | seek flags incr => exact doseek_rest htake
  | threadExit => exact threadExit_rest htake
  | streamReady =>
    exact (streamReady_stage fun _ _ _ => trivial).imp fun _ ht => ht.rest
  | audioDecReady =>
    exact (audioDecReady_stage fun _ _ _ => trivial).imp fun _ ht => ht.rest
  | videoDecReady =>
    exact (videoDecReady_stage fun _ _ _ => trivial).imp fun _ ht => ht.rest
  | audioOutReady =>
    exact (audioOutReady_stage fun _ _ _ => trivial).imp fun _ ht => ht.rest
  | videoOutReady => exact videoOutReady_rest
  | streamExit => exact hexit rfl
  | bufferUnderrun =>
    exact bufferUnderrun_rest htake fun henter => hok rfl (entersUnderrun_mailbox.mp henter)
  | audioStreamUnderrun | info => exact htake
  | changeAudioTrack streamId => exact changeAudioTrack_rest htake
  | flush => exact flushMsg_rest
  | stillFrame length => exact stillFrame_rest htake
  | timer id => exact timer_rest hQ (hother rfl) htake

/-- The parser works only inside a session. -/
theorem parserStep_busy {input : ParserInput} {r : Except Fault State} (hwf : Wf s)
    (hstep : parserStep s input = some r) :
    Ensures r (fun t => t.playState ≠ .ready) anyFault := by
  have hbusy (pc : ParserPc) (hpc : s.streamInputWorker = pc) (hne : pc ≠ .idle) :
      s.playState ≠ .ready := fun hready =>
    hne (hpc.symm.trans (hwf.idle_of_ready hready))
  refine parserStep_ensures hstep (fun hpc _ => ?_) (fun hpc _ _ => ?_)
    (fun hpc streams audio video queues => ?_) (fun hpc _ _ => ?_) (fun hpc stream => ?_)
    (fun hpc => ?_) fun hpc => ?_
  · refine parserStart_ensures (fun t ht => ?_) trivial
    subst ht
    constructor <;> exact hbusy _ hpc nofun
  · exact hbusy _ hpc nofun
  · obtain ⟨_, _, _, heq | heq⟩ := parserOpens_eq s streams audio video queues <;>
    · rw [heq]
      exact hbusy _ hpc nofun
  · rcases hpc with hpc | hpc <;> exact hbusy _ hpc nofun
  · rcases selectAudio_eq s stream hwf.id_of_waiting with heq | ⟨_, heq⟩ <;>
    · rw [heq]
      exact hbusy _ hpc nofun
  · rcases hpc with ⟨hpc, _⟩ | ⟨hpc, _⟩ <;> exact hbusy _ hpc nofun
  · exact hbusy _ hpc nofun

theorem workerStep_rest {w : Worker} {e : WorkerEvent} (h : AtRest Q s)
    (hstep : workerStep s w e = some t) : AtRest Q t := by
  obtain ⟨_, _, _, _, _, _, rfl, _⟩ := workerStep_eq hstep
  exact h.frame rfl rfl rfl

/-- **The rule for a player at rest**: besides an underrun without a session only the end of a
    session can bring a ready player out of `Q`. -/
theorem step_rest {e : Event} {r : Result} (hQ : Unbuffered Q) (hwf : Wf s) (h : AtRest Q s)
    (hok : Handling NoIdleUnderrun s e)
    (hexit : ∀ env ms, e = .control env → s.mailbox = .streamExit :: ms →
      Ensures (streamExit { s with mailbox := ms } env) (AtRest Q) anyFault)
    (hstep : step s e = some (t, r)) : AtRest Q t := by
  refine (step_rule (E := anyFault) h (fun _ _ _ _ => h.frame rfl rfl rfl)
    (fun env m ms he hms => ?_) (fun _ _ hparser => ?_) (fun _ _ _ => workerStep_rest h) hstep).1
  · subst he
    exact control_rest hQ hwf h hms (hok.head hms) fun hm => hexit env ms rfl (hm ▸ hms)
  · exact (parserStep_busy hwf hparser).imp fun _ => AtRest.of_busy

end Mediabox.Player
