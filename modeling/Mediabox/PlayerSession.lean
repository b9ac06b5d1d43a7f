import Mediabox.PlayerRest

/-!
# One session after another

The flags that steer a session are written by most handlers, but only the end of a session could
bring them back to what they were before.

* `Flags` — `stopping`, `paused`, `flushing`, `underrun`, `next_file` and the timer ids.
* `stopping_left_by_stop` — after a session that was stopped by the user the player is ready with
  `stopping` still set: nothing ever clears it.
* `sessions_independent` — when sessions end only by reaching the end of the stream, outside of
  buffering, without a pause and without a still frame, and no underrun is handled between two
  sessions, a ready player has the flags of a new one and `PLAY` does what it does there.
-/

set_option autoImplicit false

namespace Mediabox.Player

open Transition Outcome

variable {s t : State} {env : Env}

/-! ## The condition -/

/-- A session ends with its flags in order, and no underrun is entered between two sessions. -/
def EndsClean (s : State) (m : Msg) (env : Env) : Prop :=
  (m = .bufferUnderrun → entersUnderrun s env → s.playState ≠ .ready) ∧
    (m = .streamExit → endsSession s env → s.stopping = false ∧ s.underrun = false ∧
      s.paused ≤ bufferingPauses s.underrunTimerId ∧ s.stillFrameTimerId = none)

instance (s : State) (m : Msg) (env : Env) : Decidable (EndsClean s m env) :=
  inferInstanceAs (Decidable ((_ → _ → _) ∧ (_ → _ → _ ∧ _ ∧ _ ∧ _)))

/-! ## The invariant -/

/-- A ready player has the flags of a new one. -/
def Fresh (s : State) : Prop :=
  s.playState = .ready → s.flags = new.flags ∧ s.status = .ready

theorem fresh_unbuffered : Unbuffered (· = new.flags) where
  underrunTimerId := fun _ hf => by rw [hf]; rfl
  stillFrame := fun _ hf => by rw [hf]; rfl

/-! ## The end of a session -/

/-- A session that ends in order leaves the flags as it found them. -/
theorem endSession_fresh {x : List Msg} (hshape : Shape x s) (hstopping : s.stopping = false)
    (hunder : s.underrun = false) (hpaused : s.paused = 0) (hflush : s.flushing = 0)
    (htimer : s.underrunTimerId = none) (hexit : s.streamExitTimerId = none)
    (hstill : s.stillFrameTimerId = none) : Fresh (endSession s) := fun _ => by
  obtain ⟨_, _, _, _, heq, _, hnext⟩ := endSession_eq s hshape
  rw [heq]
  simp only [State.flags, hstopping, hunder, hpaused, hflush, htimer, hexit, hstill,
    hnext hstopping]
  exact ⟨rfl, trivial⟩

theorem streamExit_fresh {ms : List Msg} (hwf : Wf s) (hm : s.mailbox = .streamExit :: ms)
    (hok : endsSession s env → s.stopping = false ∧ s.underrun = false ∧
      s.paused ≤ bufferingPauses s.underrunTimerId ∧ s.stillFrameTimerId = none) :
    Ensures (streamExit { s with mailbox := ms } env) Fresh anyFault := by
  obtain ⟨hmsgs, hret, hexit⟩ := hwf.take_exit hm
  have hshape : Shape [] { s with mailbox := ms } := { hwf with msgs := Or.inl hmsgs }
  have hbusy : s.playState ≠ .ready := fun hready =>
    absurd (hret.symm.trans (hwf.idle_of_ready hready)) (by simp)
  unfold streamExit
  rw [ensures_bind]
  refine (cancelUnderrun_frame.and cancelUnderrun_keeps).mono (fun t ht => ?_) fun _ _ => trivial
  obtain ⟨⟨_, _, _, _, heq⟩, hkeeps⟩ := ht
  have htshape := hkeeps.shape hshape
  -- the flags after the buffering was cancelled, of a state that only the flush has touched
  have hend (u : State) (hends : endsSession s env) (hu : Shape [] u) (hflush : u.flushing = 0)
      (hsame : { u.flags with flushing := 0 } = { t.flags with flushing := 0 }) :
      Fresh (endSession u) := by
    obtain ⟨hstopping, hunder, hpaused, hstill⟩ := hok hends
    rw [heq] at hsame
    simp only [State.flags, Flags.mk.injEq] at hsame
    obtain ⟨h1, h2, _, h4, _, h6, h7, h8⟩ := hsame
    exact endSession_fresh hu (h1.trans hstopping) (h4.trans hunder)
      (h2.trans (Nat.sub_eq_zero_of_le hpaused)) hflush h6 (h7.trans hexit) (h8.trans hstill)
  split
  · rename_i hstop
    rw [heq] at hstop
    exact absurd (hok (Or.inl hstop)).1 (by simp [show s.stopping = true from hstop])
  · rw [ensures_bind]
    refine flush_ensures (fun _ _ _ => trivial) (fun hst => ?_) (fun _ _ => ?_)
      (fun hplay hflush a v _ => ?_) fun _ _ => trivial
    · -- the file could not be opened
      have hstream : s.playState = .stream := hkeeps.playState.symm.trans hst
      exact hend t (Or.inr (Or.inl hstream)) htshape (htshape.flushing_zero (by simp [hst])) rfl
    · have htbusy : t.playState ≠ .ready := by rw [hkeeps.playState]; exact hbusy
      exact delayStreamExit_rest (s := beginFlush t flushAll) (Q := (· = new.flags)) htbusy
    · have hflush : flushable s flushAll env := by rw [heq] at hflush; exact hflush
      have hplaying : s.playState = .playing := hkeeps.playState.symm.trans hplay
      exact hend _ (Or.inr (Or.inr ⟨hplaying, hflush⟩)) ((flushedTo_keeps hplay).shape htshape)
        rfl rfl

theorem step_fresh {e : Event} {r : Result} (hwf : Wf s) (h : Fresh s)
    (hok : Handling EndsClean s e) (hstep : step s e = some (t, r)) : Fresh t := by
  refine step_rest fresh_unbuffered hwf h ?_ (fun env ms he hms => ?_) hstep
  · cases e with
    | control env =>
      show OnHead _ s.mailbox
      cases hms : s.mailbox with
      | nil => trivial
      | cons m ms => exact (hok.head hms).1
    | _ => trivial
  · subst he
    exact streamExit_fresh hwf hms ((hok.head hms).2 rfl)

/-! ## The result -/

/-- What a session starts from. -/
def State.start (s : State) : Flags × Status × PlayState × ParserPc :=
  (s.flags, s.status, s.playState, s.streamInputWorker)

/-- `PLAY` of a path by a ready player. -/
def played (s : State) (path : Path) (env : Env) : State :=
  if ¬env.applicationDelegate then { s with playState := .stream, status := .buffering }
  else if providerPath path ∧ env.provider = none then
    { s with playState := .ready, status := .ready }
  else
    { s with
      stream := if providerPath path then env.provider else s.stream
      streamQuit := false
      playState := if env.threadDelegate then .stream else .ready
      status := if env.threadDelegate then .buffering else .ready
      streamInputWorker := if env.threadDelegate then .delegated else s.streamInputWorker }

theorem doplay_ready {path : Path} (h : s.start = new.start) :
    doplay s (some path) env = .ok (played s path env) := by
  simp only [State.start, Prod.mk.injEq] at h
  obtain ⟨_, hstatus, hplay, hidle⟩ := h
  have hstatus : s.status = .ready := hstatus
  have hplay : s.playState = .ready := hplay
  have hidle : s.streamInputWorker = .idle := hidle
  unfold doplay played
  rw [if_neg (by simp [hplay])]
  simp only [hstatus, ne_eq, not_true_eq_false, ↓reduceIte]
  split
  · rfl
  · split
    · rfl
    · simp only [hidle, assert, ↓reduceIte, bind, Except.bind]
      split <;> rfl

theorem played_start {path : Path} (h : s.start = t.start) :
    (played s path env).start = (played t path env).start := by
  simp only [State.start, Prod.mk.injEq] at h
  obtain ⟨hflags, _, _, hworker⟩ := h
  have hrest (p : PlayState) (st : Status) (pc : ParserPc) :
      (s.flags, st, p, pc) = (t.flags, st, p, pc) := by rw [hflags]
  unfold played
  split
  · exact (hrest _ _ _).trans (by rw [hworker]; rfl)
  · split
    · exact (hrest _ _ _).trans (by rw [hworker]; rfl)
    · exact (hrest _ _ _).trans (by rw [hworker]; rfl)

/-- A parser that is started is not told to quit. -/
theorem played_streamQuit {path : Path} (hidle : s.streamInputWorker = .idle)
    (h : (played s path env).streamInputWorker = .delegated) :
    (played s path env).streamQuit = false := by
  have hnot : s.streamInputWorker ≠ .delegated := by simp [hidle]
  unfold played at h ⊢
  split at h
  · exact absurd h hnot
  · rename_i happ
    rw [if_neg happ]
    split at h
    · exact absurd h hnot
    · rename_i hprov
      rw [if_neg hprov]

/-- **Sessions are independent**: in every run in which sessions end in order, a ready player has
    the flags of a new one, and `PLAY` leads from it to where it leads from the new one. -/
theorem sessions_independent {tr : List (Event × Result)}
    (h : Run (Guarded step (Handling EndsClean)) new tr s) (hready : s.playState = .ready) :
    s.flags = new.flags ∧ s.status = .ready ∧
      ∀ path env, ∃ t u, control s (.play (some path)) env = .ok t ∧
        control new (.play (some path)) env = .ok u ∧ t.start = u.start ∧
        (t.streamInputWorker = .delegated → t.streamQuit = false) := by
  have hinv := Run.invariant (P := fun s => Wf s ∧ Fresh s) ⟨new_wf, fun _ => ⟨rfl, rfl⟩⟩
    (fun _ _ _ hinv hg => ⟨step_wf hinv.1 hg.2, step_fresh hinv.1 hinv.2 hg.1 hg.2⟩) h
  obtain ⟨hflags, hstatus⟩ := hinv.2 hready
  have hidle := hinv.1.idle_of_ready hready
  have hstart : s.start = new.start := by
    unfold State.start
    rw [hflags, hstatus, hready, hidle]
    rfl
  exact ⟨hflags, hstatus, fun path env => ⟨_, _, doplay_ready hstart, doplay_ready rfl,
    played_start hstart, played_streamQuit hidle⟩⟩

/-- A file that is played to its end, and then a second one: the hypotheses of
    `sessions_independent` can be met. -/
theorem sessions_independent_at_end : ∃ tr s,
    Run (Guarded step (Handling EndsClean)) new tr s ∧ 20 ≤ tr.length ∧ s.playState = .ready ∧
      s.flags = new.flags := by
  obtain ⟨tr, s, hrun, hlen, hready⟩ := exists_run_of_guarded_exec step (Handling EndsClean) new
    (fun tr s => 20 ≤ tr.length ∧ s.playState = .ready)
    (startup ['a'] ++ readToEnd ++ [Event.control (emptyEnv 0)] ++ startup ['b'] ++ readToEnd ++
      [Event.control (emptyEnv 0)]) (by decide +kernel)
  exact ⟨tr, s, hrun, hlen, hready, (sessions_independent hrun hready).1⟩

/-- **A stop is never forgotten**: a session is stopped by the user, and the player is ready with
    `stopping` set. -/
theorem stopping_left_by_stop : ∃ tr s, Run (Step step) new tr s ∧
    s.playState = .ready ∧ s.stopping ≠ new.stopping :=
  exists_run_of_exec step new (fun _ s => s.playState = .ready ∧ s.stopping ≠ new.stopping)
    (startup ['a'] ++ [Event.post (.timer 2), .control (fullEnv 0), .post .stop, .control (fullEnv 0),
      .parser .next, .parser .next, .control (fullEnv 0)]) (by decide +kernel)

end Mediabox.Player
