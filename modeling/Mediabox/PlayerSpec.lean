import Mediabox.Player

/-!
# What the parts of the control thread do

One postcondition for each function the message handlers share; the invariants of the player are
proved from these and do not look into the functions again.

* `doresume_ensures`, `handleUnderrun_ensures` — a resume undoes one pause, and the last one lets
  the clocks and the video output run.
* `drop_ensures` — a drop halts and releases every stage: the counts end as they began, whatever
  the loops over the decoders do, and `flushing` is cleared.
* `flush_ensures` — a flush holds the stream parser from its first call on until the call that
  returns 1.
-/

set_option autoImplicit false

namespace Mediabox.Player

open Outcome

variable {s : State} {env : Env} {E : Fault → Prop}

/-! ## Assertions and checkpoints -/

@[simp] theorem ensures_assert {c : Prop} [Decidable c] {Q : Unit → Prop} :
    Ensures (assert c) Q E ↔ (c → Q ()) ∧ (¬c → E .assert) := by
  unfold assert
  rw [ensures_ite]
  rfl

@[simp] theorem ensures_checkpointContinue {count : Nat} {Q : Nat → Prop} :
    Ensures (checkpointContinue count) Q E ↔
      (0 < count → Q (count - 1)) ∧ (count = 0 → E .checkpoint) := by
  unfold checkpointContinue
  rw [ensures_ite]
  simp

/-- A loop that releases a halted worker and halts it again leaves the count as it was. -/
theorem checkpointRounds_halted (n : Nat) {count : Nat} (h : 0 < count) :
    checkpointRounds n count = .ok count := by
  induction n with
  | zero => rfl
  | succ n ih =>
    have hcont : checkpointContinue count = .ok (count - 1) := if_pos h
    simp only [checkpointRounds, hcont, Nat.sub_add_cancel h, bind, Except.bind]
    exact ih

theorem ensures_dropRounds {flushed : Bool} {n count : Nat} {Q : Nat → Prop} (hQ : Q count)
    (hE : flushed = false → count = 0 → E .checkpoint) :
    Ensures (dropRounds flushed n count) Q E := by
  unfold dropRounds
  cases flushed with
  | true => exact hQ
  | false =>
    rcases Nat.eq_zero_or_pos count with hzero | hpos
    · subst hzero
      cases n with
      | zero => exact hQ
      | succ n => simpa [checkpointRounds] using hE rfl rfl
    · simpa [checkpointRounds_halted n hpos] using hQ

/-! ## Pausing and underruns -/

theorem dopause_first (h : s.paused = 0) : dopause s = { s with
    paused := 1
    videoOutputCheckpoint :=
      if videoOnly s.videoStreamIndex s.audioStreamIndex then s.videoOutputCheckpoint + 1
      else s.videoOutputCheckpoint
    videoTimeRunning := false
    audioPaused := true } := if_pos h

/-- The last resume. -/
def resumed (s : State) : State :=
  { s with
    paused := 0
    status := .playing
    videoOutputCheckpoint :=
      if videoOnly s.videoStreamIndex s.audioStreamIndex then s.videoOutputCheckpoint - 1
      else s.videoOutputCheckpoint
    videoTimeRunning := true
    audioPaused := false }

theorem doresume_ensures {Q : State → Prop} (hnone : s.paused = 0 → Q s)
    (hsome : 1 < s.paused → Q { s with paused := s.paused - 1 })
    (hlast : s.paused = 1 → s.videoTimeRunning = false →
      (videoOnly s.videoStreamIndex s.audioStreamIndex → 0 < s.videoOutputCheckpoint) →
      Q (resumed s))
    (hrunning : s.paused = 1 → s.videoTimeRunning = true → E .assert)
    (hfree : s.paused = 1 → videoOnly s.videoStreamIndex s.audioStreamIndex →
      s.videoOutputCheckpoint = 0 → E .checkpoint)
    (hhang : s.paused = 1 → resumeWaits s env → E .hang) :
    Ensures (doresume s env) Q E := by
  unfold doresume
  split
  · exact hnone ‹_›
  · split
    · rename_i hone
      by_cases hv : videoOnly s.videoStreamIndex s.audioStreamIndex
      · simp only [hv, ↓reduceIte, ensures_bind, ensures_checkpointContinue, ensures_assert,
          ensures_ite, ensures_ok, ensures_error, Bool.not_eq_false]
        refine ⟨fun hpos => ⟨fun hrun => ⟨hhang hone, fun _ => ?_⟩, hrunning hone⟩, hfree hone hv⟩
        have hres := hlast hone hrun fun _ => hpos
        simpa [resumed, hv] using hres
      · simp only [hv, ↓reduceIte, ensures_bind, ensures_assert, ensures_ite, ensures_ok,
          ensures_error, Bool.not_eq_false]
        refine ⟨fun hrun => ⟨hhang hone, fun _ => ?_⟩, hrunning hone⟩
        have hres := hlast hone hrun fun h => absurd h hv
        simpa [resumed, hv] using hres
    · exact hsome (by omega)

/-- `t` is `s` with `n` pauses taken away: nothing else changes but the status and what a pause had
    stopped. -/
def Resumes (n : Nat) (s t : State) : Prop :=
  ∃ status output running audio, t = { s with
    paused := s.paused - n
    status := status
    videoOutputCheckpoint := output
    videoTimeRunning := running
    audioPaused := audio }

theorem doresume_frame : Ensures (doresume s env) (Resumes 1 s) fun _ => True := by
  refine doresume_ensures (fun hzero => ?_) (fun _ => ?_) (fun hone _ _ => ?_) (fun _ _ => trivial)
    (fun _ _ _ => trivial) fun _ _ => trivial
  · exact ⟨_, _, _, _, by rw [hzero, Nat.zero_sub, ← hzero]⟩
  · exact ⟨_, _, _, _, rfl⟩
  · exact ⟨_, _, _, _, by rw [hone]; rfl⟩

theorem handleUnderrun_ensures {Q : State → Prop}
    (htimer : ∀ id, env.timer = some id →
      Q { s with status := .buffering, underrunTimerId := some id })
    (hfails : env.timer = none →
      Ensures (doresume { s with status := .buffering, underrunTimerId := none } env)
        (fun t => Q { t with status := .playing }) E) :
    Ensures (handleUnderrun s env) Q E := by
  unfold handleUnderrun
  cases ht : env.timer with
  | none => simpa using hfails ht
  | some id => simpa using htimer id ht

theorem resumeIfPaused_ensures {Q : State → Prop} (hother : s.status ≠ .paused → Q s)
    (hpaused : s.status = .paused → Ensures (doresume s env) Q E) :
    Ensures (resumeIfPaused s env) Q E := by
  unfold resumeIfPaused
  split
  · exact hpaused ‹_›
  · exact hother ‹_›

theorem cancelUnderrun_ensures {Q : State → Prop} (hnone : s.underrunTimerId = none → Q s)
    (hsome : s.underrunTimerId.isSome →
      Ensures (doresume { s with underrunTimerId := none } env) Q E) :
    Ensures (cancelUnderrun s env) Q E := by
  unfold cancelUnderrun
  split
  · exact hsome ‹_›
  · rename_i h
    exact hnone (by simpa using h)

theorem resumeIfPaused_frame :
    Ensures (resumeIfPaused s env) (fun t => ∃ n, Resumes n s t) fun _ => True :=
  resumeIfPaused_ensures (fun _ => ⟨0, _, _, _, _, rfl⟩) fun _ =>
    doresume_frame.imp fun _ ht => ⟨1, ht⟩

/-- The pause that the end of the buffering takes away. -/
def bufferingPauses (underrunTimerId : Option Nat) : Nat := if underrunTimerId.isSome then 1 else 0

theorem cancelUnderrun_frame : Ensures (cancelUnderrun s env)
    (Resumes (bufferingPauses s.underrunTimerId) { s with underrunTimerId := none })
    fun _ => True := by
  refine cancelUnderrun_ensures (fun hnone => ?_) fun hsome => ?_
  · have hzero : bufferingPauses s.underrunTimerId = 0 := by rw [hnone]; rfl
    rw [hzero, ← hnone]
    exact ⟨_, _, _, _, rfl⟩
  · rw [bufferingPauses, if_pos hsome]
    exact doresume_frame

/-! ## Dropping and flushing -/

/-- The decoders have nothing to flush before they were started. -/
def State.DecodersFlushed (s : State) : Prop :=
  (s.videoStreamIndex ≠ -1 → s.videoDecoderFlushed = false → .videoDec ≤ s.playState) ∧
    (s.audioDecoderFlushed = false → .audioDec ≤ s.playState)

/-- The state after a drop. -/
def dropped (s : State) : State :=
  { clearStillFrame s with
    flushing := 0
    audioPaused := if .audioDec ≤ s.playState then false else s.audioPaused
    videoDecoderFlushed := if s.videoStreamIndex ≠ -1 then true else s.videoDecoderFlushed
    audioDecoderFlushed := true }

/-- What `avbox_player_halt` leaves. -/
def halted (s : State) : State :=
  { s with
    streamParserCheckpoint := s.streamParserCheckpoint + 1
    videoDecoderCheckpoint :=
      if videoRuns s.playState s.videoStreamIndex then s.videoDecoderCheckpoint + 1
      else s.videoDecoderCheckpoint
    videoOutputCheckpoint :=
      if videoRuns s.playState s.videoStreamIndex then s.videoOutputCheckpoint + 1
      else s.videoOutputCheckpoint
    audioDecoderCheckpoint :=
      if .audioDec ≤ s.playState then s.audioDecoderCheckpoint + 1 else s.audioDecoderCheckpoint
    audioPaused := if .audioDec ≤ s.playState then true else s.audioPaused }

theorem halt_ensures {Q : State → Prop} (hQ : s.status ≠ .paused → Q (halted s))
    (hE : s.status = .paused → E .assert) : Ensures (halt s) Q E := by
  unfold halt
  simp only [ensures_bind, ensures_assert, ensures_ok, not_not]
  exact ⟨hQ, hE⟩

theorem continueAll_halted {Q : State → Prop}
    (hQ : Q { s with audioPaused := if .audioDec ≤ s.playState then false else s.audioPaused }) :
    Ensures (continueAll (halted s)) Q E := by
  unfold continueAll continueAudio continueVideo halted
  by_cases hv : videoRuns s.playState s.videoStreamIndex <;>
    by_cases ha : .audioDec ≤ s.playState <;>
    simpa [hv, ha] using hQ

/-- **A drop is balanced**: it ends with the counts it began with. -/
theorem drop_ensures {Q : State → Prop} (hdrop : s.status ≠ .paused → Q (dropped s))
    (hpaused : s.status = .paused → E .assert)
    (hdecoders : ¬s.DecodersFlushed → E .checkpoint) :
    Ensures (drop s env) Q E := by
  unfold drop
  rw [ensures_bind]
  refine halt_ensures (fun hst => ?_) hpaused
  rw [ensures_bind]
  have hvideo : Ensures (dropVideo (halted { s with flushing := flushAll }) env)
      (fun t => t = { halted { s with flushing := flushAll } with
        videoDecoderFlushed := if s.videoStreamIndex ≠ -1 then true else s.videoDecoderFlushed })
      E := by
    unfold dropVideo
    rw [ensures_ite]
    refine ⟨fun hv => ?_, fun hv => ?_⟩
    · have hv' : s.videoStreamIndex ≠ -1 := hv
      rw [ensures_bind]
      refine ensures_dropRounds ?_ fun hflushed hzero => ?_
      · simp [halted, hv']
      · refine hdecoders fun hok => ?_
        have hle := hok.1 hv hflushed
        simp [halted, videoRuns, hle, hv'] at hzero
    · have hv' : s.videoStreamIndex = -1 := by simpa [halted] using hv
      simp [halted, hv']
  refine hvideo.imp fun t ht => ?_
  subst ht
  rw [ensures_bind]
  unfold dropAudio
  rw [ensures_bind]
  refine ensures_dropRounds ?_ fun hflushed hzero => ?_
  · rw [ensures_ok]
    -- halting commutes with what the drop changes
    exact continueAll_halted (s := { clearStillFrame s with
      flushing := 0
      videoDecoderFlushed := if s.videoStreamIndex ≠ -1 then true else s.videoDecoderFlushed
      audioDecoderFlushed := true }) (hdrop hst)
  · refine hdecoders fun hok => ?_
    have hle := hok.2 hflushed
    simp [halted, hle] at hzero

/-- Nothing is left that a flush with these flags would wait for; frames that only the audio clock
    holds back are not waited for. -/
def flushable (s : State) (flags : Nat) (env : Env) : Prop :=
  (flags &&& flushAudio ≠ 0 → audioFlushed s.audioDecoderFlushed env.buffers) ∧
    (flags &&& flushVideo ≠ 0 → s.videoStreamIndex ≠ -1 → s.getmastertime = .systemTime →
      videoFlushed s.videoDecoderFlushed env.buffers)

instance (s : State) (flags : Nat) (env : Env) : Decidable (flushable s flags env) :=
  inferInstanceAs (Decidable ((_ → _) ∧ (_ → _ → _ → _)))

/-- The handler of `STREAM_EXIT` gets to the end of the session. -/
def endsSession (s : State) (env : Env) : Prop :=
  s.stopping ∨ s.playState = .stream ∨ s.playState = .playing ∧ flushable s flushAll env

instance (s : State) (env : Env) : Decidable (endsSession s env) :=
  inferInstanceAs (Decidable (_ ∨ _ ∨ _ ∧ _))

/-- The state after a flush that returned 1: the halt of the first call is undone. -/
def flushedTo (s : State) (audioPaused videoDecoderFlushed : Bool) : State :=
  { s with
    flushing := 0
    streamParserCheckpoint :=
      if s.flushing = 0 then s.streamParserCheckpoint else s.streamParserCheckpoint - 1
    audioPaused := audioPaused
    videoDecoderFlushed := videoDecoderFlushed }

theorem endFlush_ensures {t : State} {flags : Nat} {a v : Bool} {Q : State × Bool → Prop}
    (ht : t = { beginFlush s flags with audioPaused := a, videoDecoderFlushed := v })
    (hQ : Q (flushedTo s a v, true))
    (hfree : s.flushing ≠ 0 → s.streamParserCheckpoint = 0 → E .checkpoint) :
    Ensures (endFlush t) Q E := by
  subst ht
  unfold endFlush beginFlush
  by_cases hf : s.flushing = 0
  · simpa [hf, flushedTo] using hQ
  · simp only [hf, ↓reduceIte, ensures_bind, ensures_checkpointContinue, ensures_ok]
    refine ⟨fun _ => ?_, hfree hf⟩
    simpa [flushedTo, hf] using hQ

/-- **A flush holds the stream parser** from its first call on until the call that returns 1. -/
theorem flush_ensures {flags : Nat} {Q : State × Bool → Prop}
    (hE : ∀ f, f ≠ .checkpoint → f ≠ .hang → E f)
    (hstream : s.playState = .stream → Q (s, true))
    (hzero : s.playState = .playing → ¬flushable s flags env → Q (beginFlush s flags, false))
    (hone : s.playState = .playing → flushable s flags env → ∀ a v,
      a = false ∨ a = s.audioPaused → Q (flushedTo s a v, true))
    (hfree : s.flushing ≠ 0 → s.streamParserCheckpoint = 0 → E .checkpoint) :
    Ensures (flush s flags env) Q E := by
  unfold flush
  split
  · rename_i hplay
    unfold flushPipeline
    split
    · rename_i hbusy
      exact hzero hplay fun hflush => hbusy.2 (hflush.1 hbusy.1)
    · rename_i haudio
      have haudio : flags &&& flushAudio ≠ 0 → audioFlushed s.audioDecoderFlushed env.buffers :=
        fun hf => Decidable.byContradiction fun hb => haudio ⟨hf, hb⟩
      split
      · rename_i hvideo
        split
        · rename_i hclock
          split
          · rename_i hempty
            exact endFlush_ensures rfl
              (hone hplay ⟨haudio, fun _ _ _ => hempty⟩ false _ (Or.inl rfl)) hfree
          · rename_i hbusy
            exact hzero hplay fun hflush => hbusy (hflush.2 hvideo.1 hvideo.2 hclock)
        · rename_i hclock
          have hflush : flushable s flags env := ⟨haudio, fun _ _ h => absurd h hclock⟩
          split
          · exact endFlush_ensures rfl (hone hplay hflush _ _ (Or.inr rfl)) hfree
          · unfold forceFrames
            simp only [ensures_bind, ensures_assert, checkpointRounds_halted _ (Nat.succ_pos _),
              ensures_ok, ensures_checkpointContinue]
            refine ⟨fun _ => ⟨fun _ => ?_, fun h => absurd h (Nat.succ_ne_zero _)⟩,
              fun _ => hE _ (by simp) (by simp)⟩
            exact endFlush_ensures rfl (hone hplay hflush false true (Or.inl rfl)) hfree
      · rename_i hvideo
        exact endFlush_ensures rfl
          (hone hplay ⟨haudio, fun hf hv => absurd ⟨hf, hv⟩ hvideo⟩ _ _ (Or.inr rfl)) hfree
  · split
    · exact hstream ‹_›
    · exact hE _ (by simp) (by simp)

theorem flushLoop_ensures {flags : Nat} {Q : State → Prop} (hflags : flags ≠ 0)
    (hE : ∀ f, f ≠ .checkpoint → f ≠ .hang → E f)
    (hstream : s.playState = .stream → Q s)
    (hone : s.playState = .playing → ∀ a v d, a = false ∨ a = s.audioPaused →
      Q { flushedTo s a v with audioDecoderFlushed := d })
    (hfree : s.flushing ≠ 0 → s.streamParserCheckpoint = 0 → E .checkpoint) :
    Ensures (flushLoop s flags env) Q E := by
  unfold flushLoop
  rw [ensures_bind]
  refine flush_ensures hE hstream (fun hplay _ => ?_) (fun hplay _ a v ha => ?_) hfree
  · -- the flush goes on: the parser stays halted until the call that returns 1
    simp only [Bool.false_eq_true, ↓reduceIte, ensures_bind]
    have hflushing : (beginFlush s flags).flushing ≠ 0 := by
      by_cases hf : s.flushing = 0 <;> simp [beginFlush, hf, hflags]
    refine flush_ensures hE (fun hst => ?_) (fun _ hbusy => ?_) (fun _ _ a v ha => ?_) fun _ => ?_
    · exact absurd (hplay.symm.trans hst) (by simp)
    · refine absurd ⟨fun hf => ?_, fun hf _ _ => ?_⟩ hbusy
      · simp [audioFlushed, Env.drained, hf]
      · simp [videoFlushed, Env.drained, hf]
    · have hres := hone hplay a v (s.audioDecoderFlushed || flags &&& flushAudio ≠ 0) ha
      by_cases hf : s.flushing = 0 <;>
        simpa [flushedTo, beginFlush, hf, hflags] using hres
    · by_cases hf : s.flushing = 0
      · simp [beginFlush, hf]
      · simpa [beginFlush, hf] using hfree hf
  · exact hone hplay a v s.audioDecoderFlushed ha

/-! ## The handlers -/

theorem doplay_ensures {path : Option Path} {Q : State → Prop} (hsame : Q s)
    (hresume : s.status = .paused → Ensures (doresume s env) Q E)
    (hreplace : s.status ≠ .ready → ∀ path,
      Ensures (dostop { s with nextFile := some path } env) Q E)
    (hblocked : s.status = .ready → env.applicationDelegate = false →
      Q { s with playState := .stream, status := .buffering })
    (hback : s.status = .ready → ∀ stream quit, Q { s with
      stream := stream, streamQuit := quit, playState := .ready, status := .ready })
    (hstart : s.status = .ready → ∀ stream, Q { s with
      playState := .stream
      status := .buffering
      stream := stream
      streamQuit := false
      streamInputWorker := .delegated })
    (hE : E .assert) : Ensures (doplay s path env) Q E := by
  unfold doplay
  split
  · exact hsame
  · cases path with
    | none =>
      simp only
      split
      · exact hresume ‹_›
      · exact hsame
    | some path =>
      simp only
      split
      · exact hreplace ‹_› path
      · rename_i hstatus
        have hready : s.status = .ready := by simpa using hstatus
        split
        · rename_i hdelegate
          exact hblocked hready (by simpa using hdelegate)
        · split
          · exact hback hready s.stream s.streamQuit
          · simp only [ensures_bind, ensures_assert]
            refine ⟨fun _ => ?_, fun _ => hE⟩
            split
            · exact hstart hready _
            · exact hback hready _ _

/-- The handler of `PAUSE` goes on to pause the stream. -/
def pauseAccepted (s : State) (env : Env) : Prop :=
  s.status = .playing ∧ (s.stream.isSome → env.canPause)

instance (s : State) (env : Env) : Decidable (pauseAccepted s env) :=
  inferInstanceAs (Decidable (_ ∧ _))

theorem pause_cases (s : State) (env : Env) : pause s env = s ∨
    pauseAccepted s env ∧ pause s env = { dopause s with status := .paused } := by
  unfold pause
  split
  · exact Or.inl rfl
  · split
    · exact Or.inl rfl
    · rename_i hst hcan
      exact Or.inr ⟨⟨by simpa using hst, by simpa using hcan⟩, rfl⟩

/-- The handler of `BUFFER_UNDERRUN` enters the underrun state. -/
def entersUnderrun (s : State) (env : Env) : Prop :=
  s.underrun = false ∧ s.flushing = 0 ∧ s.stillFrame = false ∧ s.stopping = false ∧
    ¬(s.stream.isSome ∧ env.underrunExpected) ∧ (isunderrun s env).2 = true

instance (s : State) (env : Env) : Decidable (entersUnderrun s env) :=
  inferInstanceAs (Decidable (_ ∧ _ ∧ _ ∧ _ ∧ _ ∧ _))

theorem entersUnderrun_mailbox {ms : List Msg} :
    entersUnderrun { s with mailbox := ms } env ↔ entersUnderrun s env := by
  by_cases hplay : s.playState = .playing <;>
    simp [entersUnderrun, isunderrun, providerUnderrun, decodedUnderrun, hplay]

theorem not_playing_le {p : PlayState} (h : p ≠ .playing) : ¬.playing ≤ p := by
  intro hle
  cases p <;> first | exact h rfl | exact absurd hle (by decide)

theorem bufferUnderrun_ensures {Q : State → Prop} (hsame : Q s)
    (hplaying : s.playState = .playing → entersUnderrun s env →
      Ensures (handleUnderrun (dopause { s with underrun := true }) env) Q E)
    (houtside : s.playState ≠ .playing → entersUnderrun s env →
      Ensures (handleUnderrun { s with underrun := true } env) Q E) :
    Ensures (bufferUnderrun s env) Q E := by
  unfold bufferUnderrun
  split
  · exact hsame
  · split
    · exact hsame
    · rename_i hunder hother
      simp only [not_or, Bool.not_eq_true, ne_eq, not_not] at hother
      have henter (hyes : (isunderrun s env).2 = true) : entersUnderrun s env :=
        ⟨by simpa using hunder, hother.1, hother.2.1, hother.2.2.1, hother.2.2.2, hyes⟩
      by_cases hplay : s.playState = .playing
      · have hstate : (isunderrun s env).1 = s := by simp [isunderrun, hplay]
        simp only [hstate]
        split
        · rename_i hyes
          rw [if_pos (show .playing ≤ s.playState by rw [hplay]; decide)]
          exact hplaying hplay (henter hyes)
        · exact hsame
      · have hstate : isunderrun s env = ({ s with underrun := true }, true) := by
          simp [isunderrun, hplay]
        simp only [hstate, ↓reduceIte, not_playing_le hplay]
        exact houtside hplay (henter (by rw [hstate]))

theorem timer_ensures {id : Nat} {Q : State → Prop} (hsame : Q s)
    (hagain : s.underrunTimerId = some id → s.playState = .playing →
      Ensures (handleUnderrun s env) Q E)
    (houtside : s.underrunTimerId = some id → s.playState ≠ .playing →
      Ensures (handleUnderrun { s with underrun := true } env) Q E)
    (hfull : s.underrunTimerId = some id → s.playState = .playing →
      Ensures (doresume { s with underrun := false, underrunTimerId := none } env)
        (fun t => Q { t with status := .playing }) E)
    (hexit : s.streamExitTimerId = some id →
      Q { sendctl s .streamExit with streamExitTimerId := none })
    (hstill : Q { s with stillFrame := false, stillFrameTimerId := none }) :
    Ensures (timer s id env) Q E := by
  unfold timer
  split
  · rename_i htimer
    by_cases hplay : s.playState = .playing
    · have hstate : (isunderrun s env).1 = s := by simp [isunderrun, hplay]
      simp only [hstate]
      split
      · exact hagain htimer hplay
      · rw [ensures_bind]
        exact hfull htimer hplay
    · have hstate : isunderrun s env = ({ s with underrun := true }, true) := by
        simp [isunderrun, hplay]
      simp only [hstate, ↓reduceIte]
      exact houtside htimer hplay
  · split
    · exact hexit ‹_›
    · split
      · exact hstill
      · exact hsame

/-- A seek holds the parser from before its drop until the buffering has begun. -/
theorem seekTo_ensures {pos : Int} {Q R : State → Prop} {D : State → State → Prop} (hsame : Q s)
    (hresume : s.underrun = false → Ensures (resumeIfPaused s env) R E) (hstay : ∀ t, R t → Q t)
    (hdrop : ∀ t, R t → env.seeks = true → Ensures
      (drop { t with streamParserCheckpoint := t.streamParserCheckpoint + 1 } env) (D t) E)
    (hskip : ∀ t, R t → D t { t with streamParserCheckpoint := t.streamParserCheckpoint + 1 })
    (hwait : ∀ t u, R t → D t u →
      Ensures (handleUnderrun (dopause { u with underrun := true }) env) (fun v =>
        Ensures (checkpointContinue v.streamParserCheckpoint)
          (fun count => Q { v with streamParserCheckpoint := count }) E) E) :
    Ensures (seekTo s pos env) Q E := by
  unfold seekTo
  split
  · exact hsame
  · rename_i hunder
    rw [ensures_bind]
    refine (hresume (by simpa using hunder)).imp fun t ht => ?_
    split
    · exact hstay t ht
    · simp only [ensures_bind]
      refine Ensures.imp (Q := D t) ?_ fun u hu => hwait t u ht hu
      unfold seekFrame
      split
      · exact hdrop t ht ‹_›
      · exact hskip t ht

theorem doseek_ensures {flags : Nat} {incr : Int} {Q : State → Prop} (hsame : Q s)
    (hitem : ∀ i, Q (playItem s i))
    (hseek : s.status = .playing ∨ s.status = .paused → s.fmtCtx ≠ none → ∀ pos,
      Ensures (seekTo s pos env) Q E)
    (hE : E .assert) : Ensures (doseek s flags incr env) Q E := by
  unfold doseek
  split
  · exact hsame
  · rename_i hst
    have hst : s.status = .playing ∨ s.status = .paused := by
      by_contra hno
      exact hst ⟨fun hp => hno (Or.inl hp), fun hp => hno (Or.inr hp)⟩
    simp only [ensures_bind, ensures_assert]
    refine ⟨fun hctx => ?_, fun _ => hE⟩
    split
    · exact hsame
    · split
      · split
        · exact hsame
        · cases s.playlistItem with
          | none => exact hsame
          | some i => exact hitem _
        · cases s.playlistItem with
          | none => exact hsame
          | some i => exact hitem _
        · exact hseek hst hctx _
      · split
        · exact hseek hst hctx _
        · split
          · exact hseek hst hctx _
          · exact hsame

theorem flushMsg_ensures {Q : State → Prop}
    (hflush : Ensures (flushLoop s flushAll env) (fun t => Q (clearStillFrame t)) E)
    (hE : E .assert) : Ensures (flushMsg s env) Q E := by
  unfold flushMsg
  simp only [ensures_bind, ensures_assert]
  exact ⟨fun _ => hflush, fun _ => hE⟩

theorem stillFrame_ensures {length : Nat} {Q : State → Prop} (hsame : Q s)
    (hflush : Ensures (flushLoop s flushVideo env)
      (fun t => ∀ id, Q { t with stillFrame := true, stillFrameTimerId := id }) E)
    (hE : E .assert) : Ensures (stillFrame s length env) Q E := by
  unfold stillFrame
  split
  · simp only [ensures_bind, ensures_assert]
    refine ⟨fun _ => ⟨fun _ => ?_, fun _ => hE⟩, fun _ => hE⟩
    exact hflush.imp fun t ht => ht env.timer
  · split
    · exact hsame
    · rw [ensures_bind]
      exact hflush.imp fun t ht => ht t.stillFrameTimerId

theorem changeAudioTrack_ensures {streamId : Option Int} {Q : State → Prop} (hsame : Q s)
    (hnext : ∀ streams next, s.fmtCtx = some streams → streamId = none →
      (trackAfter s.audioStreamIndex streams 0 false).or (firstTrack streams 0) = some next →
      Q { s with audioStreamIndex := next })
    (hid : ∀ id, streamId = some id → id ≠ -1 →
      Q { s with audioStreamId := id, audioStreamIndex := -2 })
    (hoff : streamId = some (-1) →
      Q { s with getmastertime := .systemTime, audioStreamIndex := -1 })
    (hE : E .null) : Ensures (changeAudioTrack s streamId) Q E := by
  unfold changeAudioTrack
  split
  · split
    · exact hE
    · rename_i streams hctx
      split
      · exact hsame
      · exact hnext streams _ hctx rfl ‹_›
  · rename_i id
    split
    · rename_i hne
      split
      · exact hE
      · exact hid id rfl hne
    · rename_i heq
      exact hoff (by simpa using heq)

theorem delayStreamExit_ensures {Q : State → Prop}
    (hsend : s.streamExitTimerId = none → env.timer = none → Q (sendctl s .streamExit))
    (htimer : env.timer ≠ none → Q { s with streamExitTimerId := env.timer })
    (hE : E .assert) : Ensures (delayStreamExit s env) Q E := by
  unfold delayStreamExit
  simp only [ensures_bind, ensures_assert]
  refine ⟨fun hnone => ?_, fun _ => hE⟩
  split
  · exact hsend hnone ‹_›
  · exact htimer ‹_›

/-! ## The stream parser -/

theorem parserStart_ensures {alloc : Bool} {Q : State → Prop}
    (hQ : ∀ t, t = { s with
        audioDecoderFlushed := true
        videoDecoderFlushed := true
        underrun := false
        getmastertime := .systemTime
        paused := 0 } →
      Q (sendctl { t with fmtCtx := some [], streamInputWorker := .opening } .bufferUnderrun) ∧
        Q (decoderExit t))
    (hE : E .assert) : Ensures (parserStart s alloc) Q E := by
  unfold parserStart
  simp only [ensures_bind, ensures_assert]
  refine ⟨fun _ => ⟨fun _ => ⟨fun _ => ?_, fun _ => hE⟩, fun _ => hE⟩, fun _ => hE⟩
  split
  · exact (hQ _ rfl).1
  · exact (hQ _ rfl).2

/-- In this stretch the parser leaves its loop: it was told to quit, or it could not read on. -/
def leavesLoop (s : State) (input : ParserInput) : Prop :=
  s.streamInputWorker = .loop ∧ input = .next ∧ s.streamQuit = true ∨
    s.streamInputWorker = .reading ∧ input = .fails

instance (s : State) (input : ParserInput) : Decidable (leavesLoop s input) :=
  inferInstanceAs (Decidable (_ ∧ _ ∧ _ ∨ _ ∧ _))

/-- One stretch of the parser: it starts, opens the file or fails to, moves in its loop, takes a
    packet, leaves the loop or ends. -/
theorem parserStep_ensures {input : ParserInput} {r : Except Fault State} {Q : State → Prop}
    (hstep : parserStep s input = some r)
    (hstart : s.streamInputWorker = .delegated → ∀ alloc, Ensures (parserStart s alloc) Q E)
    (hfails : s.streamInputWorker = .opening → ∀ ctx, ctx = none ∨ ctx = s.fmtCtx →
      Q (decoderExit { s with fmtCtx := ctx }))
    (hopens : s.streamInputWorker = .opening → ∀ streams audio video queues,
      Q (parserOpens s streams audio video queues))
    (hmove : s.streamInputWorker = .loop ∨ s.streamInputWorker = .checkpoint →
      ∀ pc, pc = .checkpoint ∨ pc = .reading → Q { s with streamInputWorker := pc })
    (hpacket : s.streamInputWorker = .reading → ∀ stream,
      Q { selectAudio s stream with streamInputWorker := .loop })
    (hleave : leavesLoop s input → Q (decoderExit s))
    (hend : s.streamInputWorker = .exiting → Q (sendctl
      { s with streamInputWorker := .returned, streamQuit := true, streamExiting := false }
      .streamExit)) : Ensures r Q E := by
  unfold parserStep at hstep
  split at hstep
  · rename_i hpc
    cases hstep
    exact hstart hpc _
  · rename_i input hpc
    cases hstep
    apply hfails hpc _
    cases input with
    | true => exact Or.inl rfl
    | false => exact Or.inr rfl
  · rename_i hpc
    cases hstep
    exact hopens hpc _ _ _ _
  · rename_i hpc
    cases hstep
    rw [ensures_ok]
    split
    · exact hleave (Or.inl ⟨hpc, rfl, ‹_›⟩)
    · exact hmove (Or.inl hpc) _ (Or.inl rfl)
  · rename_i hpc
    split at hstep
    · cases hstep
      exact hmove (Or.inr hpc) _ (Or.inr rfl)
    · cases hstep
  · rename_i hpc
    cases hstep
    exact hpacket hpc _
  · rename_i hpc
    cases hstep
    exact hleave (Or.inr ⟨hpc, rfl⟩)
  · rename_i hpc
    cases hstep
    exact hend hpc
  · cases hstep

end Mediabox.Player
