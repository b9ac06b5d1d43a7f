import Mediabox.PlayerCheckpoints

/-!
# Starting a session when a stage fails

The stages of a start are a chain: each is started by the report of the one before, and the stream
parser, which halts itself once it has opened the file, is let go by the last of them.  A stage that
ends without its report breaks the chain.

* `Quiet` — what the functions inside a session do to the halts of the stream parser: nothing, but
  for the flush, which is counted with its halt.
* `Live` — as long as every stage reports, the parser is held only by a flush after it returned, or
  by a stage whose report is in the mailbox or whose worker is still starting.
* `Stranded` — the player was told to stop, is not ready, and nothing is left that could move it.
* `start_recoverable` — no stranded state is reached when every stage that is started reports, and
  no halt of the parser is lost at the end of a session.
* `video_decoder_strands_player` — a video codec that cannot be opened.
-/

set_option autoImplicit false

namespace Mediabox.Player

open Transition Outcome

variable {s t : State} {env : Env}

/-! ## The condition -/

/-- The handler starts what it has to start, and no drop loses a halt of the stream parser. -/
def KeepsChain (s : State) (m : Msg) (env : Env) : Prop :=
  match m with
  | .play (some _) => s.status = .ready → env.applicationDelegate = true
  | .audioDecReady | .audioOutReady => s.videoStreamIndex ≠ -1 → env.threadDelegate = true
  | .seek _ _ => s.status = .playing ∨ s.status = .paused → s.underrun = false → env.seeks = true →
      s.flushing = 0
  | .streamExit => s.stopping = true →
      s.flushing = 0 ∧ (s.playState = .stream ∨ s.playState = .playing)
  | _ => True

instance (s : State) (env : Env) : ∀ m, Decidable (KeepsChain s m env)
  | .play (some _) => inferInstanceAs (Decidable (_ → _))
  | .audioDecReady | .audioOutReady => inferInstanceAs (Decidable (_ → _))
  | .seek _ _ => inferInstanceAs (Decidable (_ → _ → _ → _))
  | .streamExit => inferInstanceAs (Decidable (_ → _ ∧ _))
  | .play none | .pause | .stop | .threadExit | .streamReady | .videoDecReady | .videoOutReady
  | .bufferUnderrun | .audioStreamUnderrun | .changeAudioTrack _ | .flush | .stillFrame _ | .info
  | .timer _ => .isTrue trivial

/-- The worker that runs `w`. -/
def State.worker (s : State) : Worker → WorkerPc
  | .audioDecoder => s.audioDecoderWorker
  | .videoDecoder => s.videoDecoderWorker
  | .videoOutput => s.videoOutputWorker

/-- A worker that returns was ready before. -/
def ReturnsReady (s : State) : Event → Prop
  | .worker w .returns => s.worker w ≠ .starting
  | _ => True

instance (s : State) : ∀ e, Decidable (ReturnsReady s e)
  | .worker _ .returns => inferInstanceAs (Decidable (_ ≠ _))
  | .worker _ .ready | .worker _ .decodes | .worker _ .flushes | .play _ | .playlist _ _ | .post _
  | .control _ | .parser _ => .isTrue trivial

/-- Every stage that is started reports: the handlers start their workers, and no worker returns
    before it is ready. -/
def StagesReport (s : State) (e : Event) : Prop := Handling KeepsChain s e ∧ ReturnsReady s e

instance (s : State) (e : Event) : Decidable (StagesReport s e) :=
  inferInstanceAs (Decidable (_ ∧ _))

/-! ## The halts of the stream parser -/

/-- Besides that of a flush no halt of the stream parser is added, and no flush begins. -/
structure Quiet (s t : State) : Prop where
  held : t.streamParserCheckpoint ≤
    (s.streamParserCheckpoint - flushHalt s.flushing) + flushHalt t.flushing
  flushing : t.flushing ≠ 0 → s.flushing ≠ 0
  videoOutputWorker : t.videoOutputWorker = s.videoOutputWorker

theorem Quiet.refl (s : State) : Quiet s s := ⟨by omega, id, rfl⟩

theorem Quiet.trans {u : State} (h : Quiet s t) (h' : Quiet t u) : Quiet s u where
  held := by
    have h1 := h.held
    have h2 := h'.held
    omega
  flushing := fun hu => h.flushing (h'.flushing hu)
  videoOutputWorker := h'.videoOutputWorker.trans h.videoOutputWorker

theorem dopause_quiet (s : State) : Quiet s (dopause s) := by
  unfold dopause
  split <;> exact { Quiet.refl s with }

theorem doresume_quiet : Ensures (doresume s env) (Quiet s) anyFault :=
  doresume_ensures (fun _ => Quiet.refl s) (fun _ => { Quiet.refl s with })
    (fun _ _ _ => { Quiet.refl s with }) (fun _ _ => trivial) (fun _ _ _ => trivial)
    fun _ _ => trivial

theorem handleUnderrun_quiet : Ensures (handleUnderrun s env) (Quiet s) anyFault :=
  handleUnderrun_ensures (fun _ _ => { Quiet.refl s with }) fun _ =>
    doresume_quiet.imp fun _ ht => { ht with }

theorem resumeIfPaused_quiet : Ensures (resumeIfPaused s env) (Quiet s) anyFault :=
  resumeIfPaused_ensures (fun _ => Quiet.refl s) fun _ => doresume_quiet

theorem dostop_quiet : Ensures (dostop s env) (Quiet s) anyFault := by
  unfold dostop
  split
  · exact Quiet.refl s
  · exact resumeIfPaused_quiet.imp fun _ ht => { ht with }

theorem cancelUnderrun_quiet : Ensures (cancelUnderrun s env) (Quiet s) anyFault :=
  cancelUnderrun_ensures (fun _ => Quiet.refl s) fun _ =>
    doresume_quiet.imp fun _ ht => { ht with }

/-- A drop outside of a flush keeps the halts. -/
theorem drop_quiet (hflush : s.flushing = 0) : Ensures (drop s env) (Quiet s) anyFault := by
  refine drop_ensures (fun _ => ?_) (fun _ => trivial) fun _ => trivial
  refine { Quiet.refl s with held := ?_, flushing := fun hf => absurd rfl hf }
  rw [hflush]
  exact Nat.le_refl s.streamParserCheckpoint

theorem flushedTo_quiet {a v : Bool} : Quiet s (flushedTo s a v) := by
  refine { Quiet.refl s with held := ?_, flushing := fun hf => absurd rfl hf }
  by_cases hf : s.flushing = 0
  · simp [flushedTo, flushHalt, hf]
  · simp [flushedTo, flushHalt, hf]

theorem flushLoop_quiet {flags : Nat} (hflags : flags ≠ 0) :
    Ensures (flushLoop s flags env) (Quiet s) anyFault :=
  flushLoop_ensures hflags (fun _ _ _ => trivial) (fun _ => Quiet.refl s)
    (fun _ a v _ _ => { flushedTo_quiet (a := a) (v := v) with }) fun _ _ => trivial

theorem seekTo_quiet {pos : Int}
    (hok : s.underrun = false → env.seeks = true → s.flushing = 0) :
    Ensures (seekTo s pos env) (Quiet s) anyFault := by
  refine seekTo_ensures
    (R := fun t => Quiet s t ∧ (env.seeks = true → s.flushing = 0))
    (D := fun t => Quiet { t with streamParserCheckpoint := t.streamParserCheckpoint + 1 })
    (Quiet.refl s) (fun hunder => resumeIfPaused_quiet.imp fun _ ht => ⟨ht, hok hunder⟩)
    (fun _ ht => ht.1) (fun t ht hseeks => drop_quiet ?_) (fun _ _ => Quiet.refl _)
    fun t u ht hu => handleUnderrun_quiet.imp fun v hv => ?_
  · by_contra hf
    exact ht.1.flushing hf (ht.2 hseeks)
  · rw [ensures_checkpointContinue]
    refine ⟨fun _ => ?_, fun _ => trivial⟩
    have hlast : Quiet { t with streamParserCheckpoint := t.streamParserCheckpoint + 1 } v :=
      hu.trans ((show Quiet u { u with underrun := true } from { Quiet.refl u with }).trans
        ((dopause_quiet _).trans hv))
    -- the halt of the seek is released
    refine ht.1.trans { hlast with held := ?_ }
    have hheld := hlast.held
    simp only at hheld ⊢
    omega

theorem pause_quiet : Quiet s (pause s env) := by
  rcases pause_cases s env with heq | ⟨_, heq⟩
  · rw [heq]
    exact Quiet.refl s
  · rw [heq]
    exact { dopause_quiet s with }

theorem stop_quiet : Ensures (stop s env) (Quiet s) anyFault := by
  unfold stop
  split
  · exact Quiet.refl s
  · exact dostop_quiet.imp fun _ ht => { ht with }

theorem threadExit_quiet : Ensures (threadExit s env) (Quiet s) anyFault := by
  unfold threadExit
  split
  · exact dostop_quiet.imp fun _ ht => { ht with }
  · exact Quiet.refl s

theorem bufferUnderrun_quiet : Ensures (bufferUnderrun s env) (Quiet s) anyFault := by
  have hunder : Quiet s { s with underrun := true } := { Quiet.refl s with }
  refine bufferUnderrun_ensures (Quiet.refl s) (fun _ _ => ?_) fun _ _ => ?_
  · exact handleUnderrun_quiet.imp fun _ ht => (hunder.trans (dopause_quiet _)).trans ht
  · exact handleUnderrun_quiet.imp fun _ ht => hunder.trans ht

theorem flushMsg_quiet : Ensures (flushMsg s env) (Quiet s) anyFault :=
  flushMsg_ensures ((flushLoop_quiet (by decide)).imp fun _ ht => { ht with }) trivial

theorem stillFrame_quiet {length : Nat} : Ensures (stillFrame s length env) (Quiet s) anyFault :=
  stillFrame_ensures (Quiet.refl s)
    ((flushLoop_quiet (by decide)).imp fun _ ht _ => { ht with }) trivial

/-! ## The reports of the stages -/

/-- The report that ends a stage. -/
def PlayState.report : PlayState → Option Msg
  | .audioDec => some .audioDecReady
  | .videoDec => some .videoDecReady
  | .audioOut => some .audioOutReady
  | .videoOut => some .videoOutReady
  | .ready | .stream | .playing => none

/-- The worker of the stage has been started and has not reported. -/
def State.starting (s : State) : Prop :=
  match s.playState with
  | .audioDec => s.audioDecoderWorker = .starting
  | .videoDec => s.videoDecoderWorker = .starting
  | .videoOut => s.videoOutputWorker = .starting
  | .ready | .stream | .audioOut | .playing => False

/-- The report of the stage is in the mailbox, or its worker is going to send it. -/
def Due (s : State) : Prop := ∀ m, s.playState.report = some m → m ∈ s.mailbox ∨ s.starting

/-- Every stage is on its way to its report, and nothing else holds the stream parser but a flush
    after it returned. -/
structure Live (s : State) : Prop where
  busy : s.playState ≠ .ready → s.streamInputWorker ≠ .idle
  held : s.streamParserCheckpoint ≤ ownHalt s.playState s.mailbox + flushHalt s.flushing
  flushing : s.flushing ≠ 0 → s.streamInputWorker = .returned
  due : Due s

theorem new_live : Live new where
  busy := fun h => absurd rfl h
  held := Nat.le_refl 0
  flushing := fun h => absurd rfl h
  due := nofun

theorem Live.frame (h : Live s) (hk : Keeps s t) (hq : Quiet s t) : Live t where
  busy := by
    rw [hk.playState, hk.streamInputWorker]
    exact h.busy
  held := by
    have hs := h.held
    have ht := hq.held
    rw [hk.playState, hk.mailbox]
    omega
  flushing := fun hf => hk.streamInputWorker.trans (h.flushing (hq.flushing hf))
  due := by
    unfold Due State.starting
    rw [hk.playState, hk.mailbox, hk.audioDecoderWorker, hk.videoDecoderWorker,
      hq.videoOutputWorker]
    exact h.due

/-- Messages other than the first report of the parser are posted. -/
theorem Live.post (h : Live s) (ms : List Msg) (hms : .streamReady ∉ parserMsgs ms) :
    Live { s with mailbox := s.mailbox ++ ms } where
  busy := h.busy
  held := by
    have hown : ownHalt s.playState (s.mailbox ++ ms) = ownHalt s.playState s.mailbox :=
      ownHalt_mailbox (by simp [hms])
    rw [hown]
    exact h.held
  flushing := h.flushing
  due := fun m hm => (h.due m hm).imp_left (List.mem_append_left ms)

def Msg.isReport : Msg → Bool
  | .audioDecReady | .videoDecReady | .audioOutReady | .videoOutReady => true
  | _ => false

theorem isReport_of_report {p : PlayState} {m : Msg} (h : p.report = some m) :
    m.isReport = true := by
  cases p <;> cases h <;> rfl

theorem Live.take {m : Msg} {ms : List Msg} (h : Live s) (hm : s.mailbox = m :: ms)
    (hother : parserMsgs [m] = []) (hreport : m.isReport = false) :
    Live { s with mailbox := ms } where
  busy := h.busy
  held := by
    have hms : parserMsgs ms = parserMsgs s.mailbox := by
      rw [hm, parserMsgs_cons m, hother, List.nil_append]
    have hown : ownHalt s.playState ms = ownHalt s.playState s.mailbox :=
      ownHalt_mailbox (by rw [hms])
    rw [hown]
    exact h.held
  flushing := h.flushing
  due := by
    intro m' hm'
    refine (h.due m' hm').imp_left fun hmem => ?_
    rw [hm] at hmem
    rcases List.mem_cons.mp hmem with rfl | hmem
    · exact absurd ((isReport_of_report hm').symm.trans hreport) nofun
    · exact hmem

/-! ## The handlers -/

theorem doplay_live {path : Option Path} (hwf : Wf s) (h : Live s)
    (hok : KeepsChain s (.play path) env) : Ensures (doplay s path env) Live anyFault := by
  have hresume : Ensures (doresume s env) Live anyFault :=
    (doresume_keeps.and doresume_quiet).mono (fun _ ht => h.frame ht.1 ht.2) fun _ _ => trivial
  cases path with
  | none =>
    unfold doplay
    split
    · exact h
    · dsimp only
      split
      · exact hresume
      · exact h
  | some path =>
    have hready (hst : s.status = .ready) := hwf.of_ready (hwf.ready_of_status hst)
    have hcount (hst : s.status = .ready) (p : PlayState) :
        s.streamParserCheckpoint ≤ ownHalt p s.mailbox + flushHalt s.flushing := by
      have hheld := h.held
      rw [hwf.ready_of_status hst, ownHalt_none (hwf.no_ready (by simp [hwf.ready_of_status hst]))
        (Or.inr (by decide))] at hheld
      omega
    refine doplay_ensures h (fun _ => hresume) (fun _ _ => ?_) (fun hst hdelegate => ?_)
      (fun hst _ _ => ?_) (fun hst _ => ?_) trivial
    · refine (dostop_keeps.and dostop_quiet).mono (fun t ht => ?_) fun _ _ => trivial
      exact h.frame { ht.1 with } { ht.2 with }
    · exact absurd (hdelegate.symm.trans (hok hst)) nofun
    · exact ⟨fun hne => absurd rfl hne, hcount hst _, h.flushing, nofun⟩
    · exact ⟨nofun, hcount hst _, fun hf => absurd (hready hst).2.2.2.1 hf, nofun⟩

/-- The handlers of the first four reports: the parser stays held. -/
theorem NextStage.live {p : PlayState} {ms : List Msg} (h : Live s)
    (hown : ownHalt s.playState s.mailbox = 1) (hnext : NextStage p { s with mailbox := ms } t)
    (hp : p ≠ .ready) (hdue : Due t) : Live t := by
  obtain ⟨hplay, q, _, _, _, _, rfl, hle, hq, _⟩ := hnext
  refine ⟨fun _ => h.busy ?_, ?_, h.flushing, hdue⟩
  · rw [show s.playState = p from hplay]
    exact hp
  · have hheld := h.held
    rw [hown] at hheld
    rw [ownHalt_starting hle hq]
    exact hheld

theorem due_posted {m : Msg} {ms : List Msg} (hreport : t.playState.report = some m)
    (hmailbox : t.mailbox = ms ++ [m]) : Due t := by
  intro m' hm'
  obtain rfl := Option.some.inj (hreport.symm.trans hm')
  refine .inl ?_
  rw [hmailbox]
  exact List.mem_append_right _ (List.mem_singleton_self m)

theorem streamReady_due : Ensures (streamReady s env) Due anyFault := by
  unfold streamReady
  simp only [ensures_bind, ensures_assert]
  refine ⟨fun _ => ?_, fun _ => trivial⟩
  split
  · exact due_posted rfl rfl
  · simp only [ensures_bind, ensures_assert]
    refine ⟨fun _ => ?_, fun _ => trivial⟩
    split
    · exact fun _ _ => .inr rfl
    · trivial

theorem audioDecReady_due (hok : s.videoStreamIndex ≠ -1 → env.threadDelegate = true) :
    Ensures (audioDecReady s env) Due anyFault := by
  unfold audioDecReady
  simp only [ensures_bind, ensures_assert]
  refine ⟨fun _ => ?_, fun _ => trivial⟩
  split
  · exact due_posted rfl rfl
  · rename_i hvideo
    simp only [ensures_bind, ensures_assert]
    refine ⟨fun _ => ?_, fun _ => trivial⟩
    rw [if_pos (hok hvideo)]
    exact fun _ _ => .inr rfl

theorem videoDecReady_due : Ensures (videoDecReady s) Due anyFault := by
  unfold videoDecReady
  simp only [ensures_bind, ensures_assert]
  refine ⟨fun _ => ?_, fun _ => trivial⟩
  exact due_posted rfl rfl

theorem audioOutReady_due (hok : s.videoStreamIndex ≠ -1 → env.threadDelegate = true) :
    Ensures (audioOutReady s env) Due anyFault := by
  unfold audioOutReady
  simp only [ensures_bind, ensures_assert]
  refine ⟨fun _ => ?_, fun _ => trivial⟩
  split
  · exact due_posted rfl rfl
  · rename_i hvideo
    simp only [ensures_bind, ensures_assert]
    refine ⟨fun _ => ?_, fun _ => trivial⟩
    rw [if_pos (hok hvideo)]
    exact fun _ _ => .inr rfl

/-- The last report lets the stream parser go. -/
theorem videoOutReady_live {ms : List Msg} (h : Live s) :
    Ensures (videoOutReady { s with mailbox := ms } env) Live anyFault := by
  unfold videoOutReady
  simp only [ensures_bind, ensures_assert]
  refine ⟨fun hstate => ?_, fun _ => trivial⟩
  have hplay : s.playState = .videoOut := hstate
  refine (handleUnderrun_keeps.and handleUnderrun_quiet).mono (fun t ht => ?_) fun _ _ => trivial
  simp only [ensures_checkpointContinue, ensures_ok]
  refine ⟨fun _ => ?_, fun _ => trivial⟩
  have hk := (dopause_keeps _).trans ht.1
  have hq := (dopause_quiet _).trans ht.2
  have hheld := h.held
  rw [hplay, ownHalt_starting (p := .videoOut) (by decide) (by decide)] at hheld
  have hnew := hq.held
  refine ⟨fun _ => ?_, ?_, fun hf => ?_, ?_⟩
  · rw [show t.streamInputWorker = _ from hk.streamInputWorker]
    exact h.busy (by simp [hplay])
  · simp only at hnew ⊢
    omega
  · exact hk.streamInputWorker.trans (h.flushing (hq.flushing hf))
  · intro m hm
    rw [show t.playState = .playing from hk.playState] at hm
    cases hm

theorem endSession_live {x : List Msg} (hshape : Shape x s) (hcount : s.streamParserCheckpoint = 0)
    (hflush : s.flushing = 0) : Live (endSession s) := by
  obtain ⟨_, _, _, mailbox, heq, _, _⟩ := endSession_eq s hshape
  rw [heq]
  refine ⟨fun hne => absurd rfl hne, ?_, fun hf => absurd hflush hf, nofun⟩
  simp only [hcount]
  exact Nat.zero_le _

theorem beginFlush_held {flags : Nat} (hflags : flags ≠ 0)
    (h : s.streamParserCheckpoint ≤ flushHalt s.flushing) :
    (beginFlush s flags).streamParserCheckpoint ≤ flushHalt (beginFlush s flags).flushing := by
  by_cases hf : s.flushing = 0
  · simpa [beginFlush, flushHalt, hf, hflags] using h
  · simpa [beginFlush, flushHalt, hf] using h

theorem flushedTo_free {a v : Bool} (h : s.streamParserCheckpoint ≤ flushHalt s.flushing) :
    (flushedTo s a v).streamParserCheckpoint = 0 := by
  by_cases hf : s.flushing = 0
  · simpa [flushedTo, flushHalt, hf] using h
  · simp only [flushedTo, flushHalt, hf, ↓reduceIte, ne_eq, not_false_eq_true] at h ⊢
    omega

theorem streamExit_live {ms : List Msg} (hwf : Wf s) (hm : s.mailbox = .streamExit :: ms)
    (h : Live s) (hok : KeepsChain s .streamExit env) :
    Ensures (streamExit { s with mailbox := ms } env) Live anyFault := by
  obtain ⟨hmsgs, hret, _⟩ := hwf.take_exit hm
  have hshape : Shape [] { s with mailbox := ms } := { hwf with msgs := Or.inl hmsgs }
  unfold streamExit
  rw [ensures_bind]
  refine ((cancelUnderrun_keeps.and cancelUnderrun_quiet).and cancelUnderrun_frame).mono
    (fun t ht => ?_) fun _ _ => trivial
  obtain ⟨⟨hk, hq⟩, _, _, _, _, heq⟩ := ht
  have htshape := hk.shape hshape
  have hstopping : t.stopping = s.stopping := by rw [heq]
  have hflushing : t.flushing = s.flushing := by rw [heq]
  -- outside of the middle of a start only a flush holds the parser
  have hfree (hplay : t.playState = .stream ∨ t.playState = .playing) :
      t.streamParserCheckpoint ≤ flushHalt t.flushing := by
    have hnone : ownHalt s.playState s.mailbox = 0 := by
      refine ownHalt_none ?_ ?_
      · rw [hm, parserMsgs_cons, hmsgs]
        simp
      · rcases hplay with hp | hp
        · exact Or.inr (by rw [show s.playState = _ from hk.playState.symm.trans hp]; decide)
        · exact Or.inl (hk.playState.symm.trans hp)
    have hold := h.held
    have hnew := hq.held
    simp only at hnew
    omega
  split
  · rename_i hstop
    obtain ⟨hflush, hplay⟩ := hok (hstopping.symm.trans hstop)
    have hzero := hfree (by rw [show t.playState = s.playState from hk.playState]; exact hplay)
    have hnil : flushHalt 0 = 0 := rfl
    rw [ensures_bind]
    refine ((drop_keeps (s := t)).and (drop_quiet (hflushing.trans hflush))).mono (fun u hu => ?_)
      fun _ _ => trivial
    refine endSession_live (hu.1.1.shape htshape) ?_ hu.1.2
    have hheld := hu.2.held
    rw [hu.1.2, hflushing, hflush] at hheld
    rw [hflushing, hflush] at hzero
    omega
  · rw [ensures_bind]
    refine flush_ensures (fun _ _ _ => trivial) (fun hst => ?_) (fun hst _ => ?_)
      (fun hst _ a v _ => ?_) fun _ _ => trivial
    · have hzero := hfree (Or.inl hst)
      have hflush := htshape.flushing_zero (by simp [hst])
      rw [hflush] at hzero
      exact endSession_live htshape (Nat.le_zero.mp hzero) hflush
    · -- the flush goes on, and the parser has returned
      have hpc : t.streamInputWorker = .returned := hk.streamInputWorker.trans hret
      have hheld : (beginFlush t flushAll).streamParserCheckpoint ≤ _ :=
        beginFlush_held (by decide) (hfree (Or.inr hst))
      have hlive : Live (beginFlush t flushAll) := by
        refine ⟨fun _ hidle => ?_, by omega, fun _ => hpc, fun m hm => ?_⟩
        · exact absurd (hpc.symm.trans hidle) nofun
        · rw [show (beginFlush t flushAll).playState = .playing from hst] at hm
          cases hm
      exact delayStreamExit_ensures (fun _ _ => hlive.post _ (by simp)) (fun _ => { hlive with })
        trivial
    · exact endSession_live ((flushedTo_keeps hst).shape htshape)
        (flushedTo_free (hfree (Or.inr hst))) rfl

theorem timer_live {id : Nat} (h : Live s) : Ensures (timer s id env) Live anyFault := by
  have hframe {u : State} (hk : Keeps s u) (hq : Quiet s u) :
      Ensures (handleUnderrun u env) Live anyFault :=
    (handleUnderrun_keeps.and handleUnderrun_quiet).mono
      (fun _ ht => h.frame (hk.trans ht.1) (hq.trans ht.2)) fun _ _ => trivial
  refine timer_ensures h (fun _ _ => hframe (Keeps.refl s) (Quiet.refl s))
    (fun _ _ => hframe { Keeps.refl s with } { Quiet.refl s with }) (fun _ _ => ?_)
    (fun _ => { h.post [.streamExit] (by simp) with }) { h with }
  refine (doresume_keeps.and doresume_quiet).mono (fun t ht => ?_) fun _ _ => trivial
  exact h.frame (t := { t with status := .playing }) { ht.1 with status := nofun } { ht.2 with }

theorem doseek_live {flags : Nat} {incr : Int} (h : Live s)
    (hok : KeepsChain s (.seek flags incr) env) :
    Ensures (doseek s flags incr env) Live anyFault := by
  refine doseek_ensures h (fun i => ?_) (fun hst _ _ => ?_) trivial
  · unfold playItem
    split
    · exact h
    · exact { h.post [.play _] (by simp) with }
  · exact (seekTo_keeps.and (seekTo_quiet (hok hst))).mono (fun _ ht => h.frame ht.1 ht.2)
      fun _ _ => trivial

theorem changeAudioTrack_live {id : Option Int} (h : Live s) :
    Ensures (changeAudioTrack s id) Live anyFault :=
  changeAudioTrack_ensures h (fun _ _ _ _ _ => { h with }) (fun _ _ _ => { h with })
    (fun _ => { h with }) trivial

/-! ## Every step -/

theorem control_live {m : Msg} {ms : List Msg} (hwf : Wf s) (h : Live s) (hm : s.mailbox = m :: ms)
    (hok : KeepsChain s m env) :
    Ensures (Player.control { s with mailbox := ms } m env) Live anyFault := by
  have htake (hother : parserMsgs [m] = []) (hreport : m.isReport = false) :
      Live { s with mailbox := ms } := h.take hm hother hreport
  have hwf' (hother : parserMsgs [m] = []) : Wf { s with mailbox := ms } :=
    hwf.setMailbox (by rw [hm, parserMsgs_cons m, hother, List.nil_append])
  have hframe {r : Except Fault State} (hlive : Live { s with mailbox := ms })
      (hk : Ensures r (Keeps { s with mailbox := ms }) anyFault)
      (hq : Ensures r (Quiet { s with mailbox := ms }) anyFault) : Ensures r Live anyFault :=
    (hk.and hq).mono (fun _ ht => hlive.frame ht.1 ht.2) fun _ _ => trivial
  have hstage {p : PlayState} {r : Except Fault State} (hle : .audioDec ≤ p) (hp : p ≠ .playing)
      (hnext : Ensures r (NextStage p { s with mailbox := ms }) anyFault)
      (hdue : Ensures r Due anyFault) : Ensures r Live anyFault := by
    refine (hnext.and hdue).mono (fun t ht => ?_) fun _ _ => trivial
    refine NextStage.live h ?_ ht.1 (PlayState.ne_ready hle) ht.2
    rw [show s.playState = p from ht.1.1, ownHalt_starting hle hp]
  unfold Player.control
  cases m with
  | play path =>
    refine doplay_live (hwf' rfl) (htake rfl rfl) ?_
    cases path <;> exact hok
  | pause => exact (htake rfl rfl).frame pause_keeps pause_quiet
  | stop => exact hframe (htake rfl rfl) stop_keeps stop_quiet
  | seek flags incr => exact doseek_live (htake rfl rfl) hok
  | threadExit => exact hframe (htake rfl rfl) threadExit_keeps threadExit_quiet
  | streamReady =>
    refine ((streamReady_stage fun _ _ _ => trivial).and streamReady_due).mono (fun t ht => ?_)
      fun _ _ => trivial
    refine NextStage.live h ?_ ht.1 nofun ht.2
    exact if_pos (Or.inl (by rw [hm, parserMsgs_cons]; simp))
  | audioDecReady =>
    exact hstage (p := .audioDec) (by decide) nofun (audioDecReady_stage fun _ _ _ => trivial)
      (audioDecReady_due hok)
  | videoDecReady =>
    exact hstage (p := .videoDec) (by decide) nofun (videoDecReady_stage fun _ _ _ => trivial)
      videoDecReady_due
  | audioOutReady =>
    exact hstage (p := .audioOut) (by decide) nofun (audioOutReady_stage fun _ _ _ => trivial)
      (audioOutReady_due hok)
  | videoOutReady => exact videoOutReady_live h
  | streamExit => exact streamExit_live hwf hm h hok
  | bufferUnderrun => exact hframe (htake rfl rfl) bufferUnderrun_keeps bufferUnderrun_quiet
  | audioStreamUnderrun | info => exact htake rfl rfl
  | changeAudioTrack streamId => exact changeAudioTrack_live (htake rfl rfl)
  | flush => exact hframe (htake rfl rfl) flushMsg_keeps flushMsg_quiet
  | stillFrame length => exact hframe (htake rfl rfl) stillFrame_keeps stillFrame_quiet
  | timer id => exact timer_live (htake rfl rfl)

/-- The parser moves; only after a flush has begun it does not. -/
theorem Live.move (h : Live s) (pc : ParserPc) (hold : s.streamInputWorker ≠ .returned)
    (hnew : pc ≠ .idle) : Live { s with streamInputWorker := pc } where
  busy := fun _ => hnew
  held := h.held
  flushing := fun hf => absurd (h.flushing hf) hold
  due := h.due

theorem parserOpens_live {streams : List AVStream} {audio video : Int} {queues : Bool} (hwf : Wf s)
    (h : Live s) (hpc : s.streamInputWorker = .opening) :
    Live (parserOpens s streams audio video queues) := by
  have hstream := hwf.stream_of_opening (Or.inr hpc)
  have hmove (pc : ParserPc) (hnew : pc ≠ .idle) := h.move pc (by simp [hpc]) hnew
  obtain ⟨clock, index, _, heq | heq⟩ := parserOpens_eq s streams audio video queues
  · rw [heq]
    exact { hmove .exiting nofun with }
  · rw [heq]
    refine { hmove .loop nofun with held := ?_, due := ?_ }
    · -- before, there was no `STREAM_READY`
      have hno : .streamReady ∉ parserMsgs s.mailbox := by
        rcases hwf.msgs with hmsgs | ⟨_, _, hstarted⟩
        · rw [hmsgs, exitMsgs_of_ne (by simp [hpc])]
          exact List.not_mem_nil
        · rw [hpc] at hstarted
          cases hstarted
      have hheld := h.held
      rw [ownHalt_none hno (Or.inr (by rw [hstream]; decide))] at hheld
      have hown : ownHalt s.playState (s.mailbox ++ [Msg.streamReady]) = 1 := if_pos (Or.inl (by simp))
      simp only [sendctl, withStreams, hown]
      omega
    · intro m hm
      have hreport : s.playState.report = some m := hm
      rw [hstream] at hreport
      cases hreport

theorem parserStep_live {input : ParserInput} {r : Except Fault State} (hwf : Wf s) (h : Live s)
    (hstep : parserStep s input = some r) : Ensures r Live anyFault := by
  refine parserStep_ensures hstep (fun hpc _ => ?_) (fun hpc _ _ => ?_)
    (fun hpc _ _ _ _ => parserOpens_live hwf h hpc) (fun hpc pc hnew => ?_) (fun hpc stream => ?_)
    (fun hpc => ?_) fun hpc => ?_
  · refine parserStart_ensures (fun t ht => ?_) trivial
    subst ht
    constructor
    · exact { (h.move .opening (by simp [hpc]) (by rintro ⟨⟩)).post [.bufferUnderrun]
        (by simp [parserMsgs]) with }
    · exact { h.move .exiting (by simp [hpc]) (by rintro ⟨⟩) with }
  · exact { h.move .exiting (by simp [hpc]) (by rintro ⟨⟩) with }
  · refine h.move pc (by rcases hpc with hpc | hpc <;> simp [hpc]) ?_
    rcases hnew with rfl | rfl <;> rintro ⟨⟩
  · have hmove := h.move .loop (by simp [hpc]) (by rintro ⟨⟩)
    rcases selectAudio_eq s stream hwf.id_of_waiting with heq | ⟨_, heq⟩
    · rw [heq]
      exact hmove
    · rw [heq]
      exact { hmove with }
  · have hout : s.streamInputWorker ≠ .returned := by
      rcases hpc with ⟨hpc, _⟩ | ⟨hpc, _⟩ <;> simp [hpc]
    exact { h.move .exiting hout (by rintro ⟨⟩) with }
  · exact { (h.move .returned (by simp [hpc]) (by rintro ⟨⟩)).post [.streamExit] (by simp) with }

/-- The workers change nothing else than their positions, their flags and the mailbox: a report is
    still due when the worker of the stage is still starting, or has just posted it. -/
theorem Live.workers (h : Live s) {a v o : WorkerPc} {af vf : Bool} {mailbox ms : List Msg}
    (hmail : mailbox = s.mailbox ++ ms) (hms : parserMsgs ms = [])
    (haudio : s.playState = .audioDec → s.audioDecoderWorker = .starting →
      a = .starting ∨ .audioDecReady ∈ ms)
    (hvideo : s.playState = .videoDec → s.videoDecoderWorker = .starting →
      v = .starting ∨ .videoDecReady ∈ ms)
    (houtput : s.playState = .videoOut → s.videoOutputWorker = .starting →
      o = .starting ∨ .videoOutReady ∈ ms) :
    Live { s with
      audioDecoderWorker := a
      videoDecoderWorker := v
      videoOutputWorker := o
      audioDecoderFlushed := af
      videoDecoderFlushed := vf
      mailbox := mailbox } := by
  subst hmail
  refine ⟨h.busy, (h.post ms (by simp [hms])).held, h.flushing, fun m hm => ?_⟩
  rcases h.due m hm with hmem | hstarting
  · exact .inl (List.mem_append_left ms hmem)
  · unfold State.starting at hstarting ⊢
    dsimp only at hm ⊢
    cases hp : s.playState with
    | audioDec =>
      rw [hp] at hm hstarting
      cases hm
      exact (haudio hp hstarting).symm.imp_left (List.mem_append_right _)
    | videoDec =>
      rw [hp] at hm hstarting
      cases hm
      exact (hvideo hp hstarting).symm.imp_left (List.mem_append_right _)
    | videoOut =>
      rw [hp] at hm hstarting
      cases hm
      exact (houtput hp hstarting).symm.imp_left (List.mem_append_right _)
    | ready | stream | audioOut | playing =>
      rw [hp] at hstarting
      exact hstarting.elim

theorem workerReady_live {w : Worker} (h : Live s) (hstep : workerStep s w .ready = some t) :
    Live t := by
  cases w with
  | audioDecoder =>
    simp only [workerStep] at hstep
    split at hstep
    · split at hstep
      · cases hstep
        exact h.workers rfl rfl (fun _ _ => .inr (by simp)) (fun _ => .inl) fun _ => .inl
      · rename_i hp
        cases hstep
        exact h.workers (List.append_nil _).symm rfl (fun hp' => absurd hp' hp) (fun _ => .inl)
          fun _ => .inl
    · cases hstep
  | videoDecoder =>
    simp only [workerStep] at hstep
    split at hstep
    · cases hstep
      exact h.workers rfl rfl (fun _ => .inl) (fun _ _ => .inr (by simp)) fun _ => .inl
    · cases hstep
  | videoOutput =>
    simp only [workerStep] at hstep
    split at hstep
    · cases hstep
      exact h.workers rfl rfl (fun _ => .inl) (fun _ => .inl) fun _ _ => .inr (by simp)
    · cases hstep

theorem workerReturns_live {w : Worker} (h : Live s) (hok : s.worker w ≠ .starting)
    (hstep : workerStep s w .returns = some t) : Live t := by
  have hnil := (List.append_nil s.mailbox).symm
  cases w with
  | audioDecoder =>
    simp only [workerStep] at hstep
    split at hstep
    · cases hstep
    · cases hstep
      exact h.workers hnil rfl (fun _ hs => absurd hs hok) (fun _ => .inl) fun _ => .inl
  | videoDecoder =>
    simp only [workerStep] at hstep
    split at hstep
    · cases hstep
    · cases hstep
      exact h.workers hnil rfl (fun _ => .inl) (fun _ hs => absurd hs hok) fun _ => .inl
  | videoOutput =>
    simp only [workerStep] at hstep
    split at hstep
    · cases hstep
    · cases hstep
      exact h.workers hnil rfl (fun _ => .inl) (fun _ => .inl) fun _ hs => absurd hs hok

theorem workerStep_live {w : Worker} {e : WorkerEvent} (h : Live s)
    (hok : ReturnsReady s (.worker w e)) (hstep : workerStep s w e = some t) : Live t := by
  cases e with
  | ready => exact workerReady_live h hstep
  | returns => exact workerReturns_live h hok hstep
  | decodes | flushes =>
    cases w with
    | audioDecoder | videoDecoder =>
      simp only [workerStep] at hstep
      split at hstep
      · cases hstep
        exact { h with }
      · cases hstep
    | videoOutput => cases hstep

/-! ## The result -/

/-- The worker has ended, was not started, or is held at its checkpoint. -/
def WorkerPc.out (pc : WorkerPc) (count : Nat) : Prop :=
  pc = .idle ∨ pc = .returned ∨ pc = .running ∧ 0 < count

instance (pc : WorkerPc) (count : Nat) : Decidable (pc.out count) :=
  inferInstanceAs (Decidable (_ ∨ _ ∨ _ ∧ _))

/-- The player was told to stop and is not ready, no message and no timer is on its way to the
    control thread, and no worker moves any more. -/
structure Stranded (s : State) : Prop where
  stopping : s.stopping = true
  busy : s.playState ≠ .ready
  mailbox : s.mailbox = []
  underrunTimer : s.underrunTimerId = none
  streamExitTimer : s.streamExitTimerId = none
  stillFrameTimer : s.stillFrameTimerId = none
  parser : s.streamInputWorker = .idle ∨ s.streamInputWorker = .returned ∨
    s.streamInputWorker = .checkpoint ∧ 0 < s.streamParserCheckpoint
  audioDecoder : s.audioDecoderWorker.out s.audioDecoderCheckpoint
  videoDecoder : s.videoDecoderWorker.out s.videoDecoderCheckpoint
  videoOutput : s.videoOutputWorker.out s.videoOutputCheckpoint

theorem Stranded.not_starting (h : Stranded s) : ¬s.starting := by
  have hout {pc : WorkerPc} {count : Nat} (hpc : pc.out count) : pc ≠ .starting := by
    rintro rfl
    rcases hpc with h | h | ⟨h, _⟩ <;> cases h
  unfold State.starting
  cases s.playState with
  | audioDec => exact hout h.audioDecoder
  | videoDec => exact hout h.videoDecoder
  | videoOut => exact hout h.videoOutput
  | ready | stream | audioOut | playing => exact id

/-- A stage of the start has a report. -/
theorem report_of_stage {p : PlayState} (hle : .audioDec ≤ p) (hp : p ≠ .playing) :
    ∃ m, p.report = some m := by
  cases p with
  | ready | stream => exact absurd hle (by decide)
  | playing => exact absurd rfl hp
  | audioDec | videoDec | audioOut | videoOut => exact ⟨_, rfl⟩

theorem Live.not_stranded (hwf : Wf s) (h : Live s) : ¬Stranded s := by
  intro hs
  rcases hs.parser with hidle | hret | ⟨hpc, hpos⟩
  · exact h.busy hs.busy hidle
  · -- a parser that returned has left its `STREAM_EXIT`
    rcases hwf.msgs with hmsgs | ⟨hmsgs, _⟩ <;>
      simp [hs.mailbox, exitMsgs, hret, hs.streamExitTimer] at hmsgs
  · have hflush : s.flushing = 0 := by
      by_contra hf
      exact absurd (hpc.symm.trans (h.flushing hf)) (by rintro ⟨⟩)
    have hheld := h.held
    rw [hflush, show flushHalt 0 = 0 from rfl, hs.mailbox] at hheld
    have hstage : .audioDec ≤ s.playState ∧ s.playState ≠ .playing := by
      by_contra hno
      rw [ownHalt, if_neg (by simpa using hno)] at hheld
      omega
    obtain ⟨m, hm⟩ := report_of_stage hstage.1 hstage.2
    rcases h.due m hm with hmem | hstarting
    · rw [hs.mailbox] at hmem
      exact absurd hmem List.not_mem_nil
    · exact hs.not_starting hstarting

theorem step_live {e : Event} {r : Result} (hwf : Wf s) (h : Live s) (hok : StagesReport s e)
    (hstep : step s e = some (t, r)) : Live t :=
  (step_rule_posts (E := anyFault) h (fun _ _ _ hms => { h.post _ (by simp [hms]) with })
    (fun env m ms he hms => by
      subst he
      exact control_live hwf h hms (hok.1.head hms))
    (fun _ _ _ => parserStep_live hwf h)
    (fun w ev u he hu => by
      subst he
      exact workerStep_live h hok.2 hu) hstep).1

/-- **A start can be stopped**: in every run in which each stage that is started reports, and no
    halt of the stream parser is lost, no state is reached in which the player was told to stop
    and nothing is left that could make it ready. -/
theorem start_recoverable {tr : List (Event × Result)}
    (h : Run (Guarded step StagesReport) new tr s) : ¬Stranded s := by
  have hinv : Wf s ∧ Live s := h.invariant (P := fun s => Wf s ∧ Live s) ⟨new_wf, new_live⟩
    fun t a u ht hstep => ⟨step_wf ht.1 hstep.2, step_live ht.1 ht.2 hstep.1 hstep.2⟩
  exact hinv.2.not_stranded hinv.1


/-- A `STOP` in the middle of a start: the parser is held, and the video decoder has yet to report.
    -/
theorem start_recoverable_before_report : ∃ tr s,
    Run (Guarded step StagesReport) new tr s ∧ s.stopping = true ∧ s.playState = .videoDec ∧
      s.streamInputWorker = .checkpoint ∧ ¬Stranded s := by
  obtain ⟨tr, s, hrun, hstop, hplay, hinput⟩ := exists_run_of_guarded_exec step StagesReport new
    (fun _ s => s.stopping = true ∧ s.playState = .videoDec ∧ s.streamInputWorker = .checkpoint)
    [.play (some ['a']), .control (fullEnv 0), .parser (.start true),
      .parser (.opens [⟨false, 0⟩, ⟨true, 1⟩] 1 0 true), .control (fullEnv 1), .control (fullEnv 0),
      .worker .audioDecoder .ready, .control (fullEnv 0), .parser .next, .post .stop,
      .control (fullEnv 0)] (by decide +kernel)
  exact ⟨tr, s, hrun, hstop, hplay, hinput, start_recoverable hrun⟩

/-- **A video decoder that fails strands the player**: a first file is stopped, and the codec of a
    second one, a file without audio, cannot be opened.  The decoder returns without a word, the
    parser waits at its checkpoint for the last stage, and a `STOP` changes nothing. -/
theorem video_decoder_strands_player :
    ¬∀ (tr : List (Event × Result)) (s : State), Run (Step step) new tr s → ¬Stranded s := by
  intro hclaim
  refine hclaim _ _ (run_of_exec
    (startup ['a'] ++
      [Event.post .stop, .control (fullEnv 0), .parser .next, .parser .next, .control (fullEnv 0),
        .play (some ['b']), .control (fullEnv 0), .parser (.start true),
        .parser (.opens [⟨false, 0⟩] (-1) 0 true), .control (fullEnv 0), .control (fullEnv 0),
        .control (fullEnv 0), .parser .next, .worker .videoDecoder .returns, .post .stop,
        .control (fullEnv 0)]) rfl) ?_
  constructor
  all_goals decide

end Mediabox.Player
