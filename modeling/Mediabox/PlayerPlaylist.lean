import Mathlib.Data.List.TakeDrop
import Mediabox.PlayerPlan

/-!
# Playing a playlist

`mbox_browser_addtoplaylist` collects the files of a directory, `avbox_player_playlist` copies the
list and plays the selected item, and the end of each file chooses the next one.

* `playlist_copied` — `LIST_ADD` reverses the list twice, so that the copy is in the order in which
  the files were added to the browser.
* `Course` — the way of an idle player through its list: the end of the selected item starts the
  next one through `avbox_player_play`, which frees the list, so there is no third.
* `ResumeEnds`, `step_ends` — the loop in which `avbox_player_doresume` waits for a video frame is the
  only one that may not end, and it does when there is a frame or the audio decoder is blocked.
* `playlist_plays_through` — the list is played to its end exactly when at most one item comes after
  the selected one, or none if the player was ever stopped before.
-/

set_option autoImplicit false

namespace Mediabox.Player

open Transition Outcome

/-! ## The list -/

/-- `mbox_browser_addtoplaylist`; whether the two allocations succeed comes with the call. -/
def addtoplaylist (playlist : List Path) (file : Option Path) (malloc strdup : Bool) :
    Option (List Path) :=
  match file with
  | none => none
  | some file =>
    if file.length = 0 then none
    else if !malloc then none
    else if !strdup then none
    else some (listAdd playlist file)

/-- The list of the browser after these files were added to it. -/
def browse (files : List Path) : Option (List Path) :=
  files.foldlM (fun playlist file => addtoplaylist playlist (some file) true true) []

theorem foldlM_addtoplaylist {files playlist items : List Path}
    (h : files.foldlM (fun l file => addtoplaylist l (some file) true true) playlist = some items) :
    items = files.reverse ++ playlist := by
  induction files generalizing playlist with
  | nil =>
    simp only [List.foldlM_nil] at h
    cases h
    rfl
  | cons file files ih =>
    rw [List.foldlM_cons] at h
    obtain ⟨next, hadd, hrest⟩ := Option.bind_eq_some_iff.mp h
    rw [ih hrest, List.reverse_cons, List.append_assoc]
    simp only [addtoplaylist, Bool.not_true, Bool.false_eq_true, ↓reduceIte] at hadd
    split at hadd
    · cases hadd
    · cases hadd
      rfl

theorem foldl_listAdd (items copied : List Path) :
    items.foldl listAdd copied = items.reverse ++ copied := by
  induction items generalizing copied with
  | nil => rfl
  | cons item items ih =>
    rw [List.foldl_cons, ih, List.reverse_cons, List.append_assoc]
    rfl

/-- `avbox_player_playlist`: the copy in the opposite order, and the `PLAY` of the selected item. -/
theorem startPlaylist_eq {s t : State} {items : List Path} {selected : Nat}
    (h : startPlaylist s items selected = some t) : ∃ x, items.reverse[items.length - 1 - selected]?
      = some x ∧ t = sendctl { s with
        playlist := items.reverse
        playlistItem := some (items.length - 1 - selected) } (.play (some x)) := by
  unfold startPlaylist at h
  split at h
  · cases h
  · rename_i x hx
    cases h
    have hlt : selected < items.length := (List.getElem?_eq_some_iff.mp hx).1
    refine ⟨x, ?_, by rw [foldl_listAdd, List.append_nil]⟩
    rw [List.getElem?_reverse (by omega), ← hx]
    congr 1
    omega

/-- The plan of a player in which no command waited when it was given the list. -/
theorem startPlaylist_plan {s t : State} {items : List Path} {selected : Nat}
    (hplays : plays s.mailbox = []) (hcalm : s.mailbox.filter Msg.command = [])
    (h : startPlaylist s items selected = some t) : ∃ x, items.reverse[items.length - 1 - selected]?
      = some x ∧ t.plan = ⟨s.playState.isReady, [some x], [], s.stopping, s.nextFile, items.reverse,
        some (items.length - 1 - selected)⟩ := by
  obtain ⟨x, hx, rfl⟩ := startPlaylist_eq h
  refine ⟨x, hx, Plan.ext rfl ?_ ?_ rfl rfl rfl rfl⟩
  · show plays (s.mailbox ++ [Msg.play (some x)]) = _
    rw [plays_append, hplays]
    rfl
  · show (s.mailbox ++ [Msg.play (some x)]).filter Msg.command = []
    rw [List.filter_append, hcalm]
    rfl

theorem playlist_copied {s t : State} {items added : List Path} {selected : Nat}
    (h : startPlaylist s items selected = some t) (hadded : browse added = some items) :
    t.playlist = added := by
  obtain ⟨x, _, rfl⟩ := startPlaylist_eq h
  have hitems := foldlM_addtoplaylist hadded
  rw [List.append_nil] at hitems
  show items.reverse = added
  rw [hitems, List.reverse_reverse]

/-! ## The course of an idle player -/

/-- The plan and the files played so far of a player that was idle when it was given the list `L`
    with item `i` selected, `stopping` being `st`. -/
inductive Course (L : List Path) (i : Nat) (st : Bool) : Plan → List Path → Prop
  /-- the `PLAY` of the selected item waits -/
  | waiting {x : Path} {next : Option Path} : L[i]? = some x → (st = false → next = none) →
      Course L i st ⟨true, [some x], [], st, next, L, some i⟩ []
  /-- the selected item plays -/
  | first {x : Path} {next : Option Path} : L[i]? = some x → (st = false → next = none) →
      Course L i st ⟨false, [], [], st, next, L, some i⟩ [x]
  /-- the `PLAY` of the next item waits; the list was freed with it -/
  | between {x y : Path} : st = false → L[i]? = some x → L[i + 1]? = some y →
      Course L i st ⟨true, [some y], [], st, none, [], none⟩ [x]
  /-- the next item plays -/
  | second {x y : Path} : st = false → L[i]? = some x → L[i + 1]? = some y →
      Course L i st ⟨false, [], [], st, none, [], none⟩ [x, y]
  | ended {p : Plan} : p.ready = true → p.plays = [] →
      Course L i st p ((L.drop i).take (if st then 1 else 2))

theorem drop_of_getElem? {L : List Path} {i : Nat} {x : Path} (h : L[i]? = some x) :
    L.drop i = x :: L.drop (i + 1) := by
  obtain ⟨hlt, rfl⟩ := List.getElem?_eq_some_iff.mp h
  exact List.drop_eq_getElem_cons hlt

/-- The end of the selected item. -/
theorem Course.finish_first {L : List Path} {i : Nat} {st : Bool} {x : Path} {next : Option Path}
    (hx : L[i]? = some x) (hnext : st = false → next = none) :
    Course L i st (Plan.next ⟨false, [], [], st, next, L, some i⟩) [x] := by
  have hlt : i < L.length := (List.getElem?_eq_some_iff.mp hx).1
  cases st with
  | true =>
    have hfiles : [x] = (L.drop i).take (if true then 1 else 2) := by
      rw [drop_of_getElem? hx]
      rfl
    rw [hfiles]
    exact .ended rfl rfl
  | false =>
    rw [hnext rfl]
    unfold Plan.next Plan.advance
    simp only [Bool.false_eq_true, ↓reduceIte, hlt]
    cases hy : L[i + 1]? with
    | none =>
      have hfiles : [x] = (L.drop i).take (if false then 1 else 2) := by
        rw [drop_of_getElem? hx, List.drop_eq_nil_of_le (List.getElem?_eq_none_iff.mp hy)]
        rfl
      rw [hfiles]
      exact .ended rfl rfl
    | some y =>
      have hne : L ≠ [] := List.ne_nil_of_length_pos (by omega)
      simp only [Plan.play, hne, ↓reduceIte]
      exact .between rfl hx hy

theorem Course.move {L : List Path} {i : Nat} {st : Bool} {p q : Plan} {files : List Path}
    {f : Option Path} (h : Course L i st p files) (hmove : p.Move f q) :
    Course L i st q (files ++ f.toList) := by
  cases hmove with
  | same =>
    rw [Option.toList_none, List.append_nil]
    exact h
  | start hready hplays =>
    cases h with
    | waiting hx hnext =>
      cases hplays
      exact .first hx hnext
    | first | second => cases hready
    | between hst hx hy =>
      cases hplays
      exact .second hst hx hy
    | ended _ hnone => exact absurd (hnone.symm.trans hplays) (by simp)
  | ignore hready hplays =>
    cases h with
    | waiting | between => cases hplays; simp at hready
    | first | second => cases hplays
    | ended _ hnone => exact absurd (hnone.symm.trans hplays) (by simp)
  | defer hready hplays =>
    cases h with
    | waiting | between => cases hready
    | first | second => cases hplays
    | ended _ hnone => exact absurd (hnone.symm.trans hplays) (by simp)
  | finish hready =>
    rw [Option.toList_none, List.append_nil]
    cases h with
    | waiting | between => cases hready
    | first hx hnext => exact Course.finish_first hx hnext
    | second hst hx hy =>
      subst hst
      have hfiles (x y : Path) (hx : L[i]? = some x) (hy : L[i + 1]? = some y) :
          [x, y] = (L.drop i).take (if false then 1 else 2) := by
        rw [drop_of_getElem? hx, drop_of_getElem? hy]
        rfl
      rw [hfiles _ _ hx hy]
      exact .ended rfl rfl
    | ended htrue _ => exact absurd (htrue.symm.trans hready) (by simp)

/-! ## How many files can come -/

/-- A bound on the files that a plan still starts. -/
def Plan.budget (p : Plan) : Nat :=
  p.plays.length + if p.nextFile = none ∧ p.playlist = [] then 0 else 1

theorem Plan.budget_advance (p : Plan) : p.advance.budget ≤ p.budget := by
  unfold Plan.advance
  cases hnext : p.nextFile with
  | some path => simp [Plan.budget, Plan.play, hnext]
  | none =>
    cases hitem : p.playlistItem with
    | none => exact Nat.le_refl _
    | some i =>
      simp only
      cases hget : p.playlist[if i < p.playlist.length then i + 1 else 0]? with
      | none => simp [Plan.budget, hnext]
      | some path =>
        have hne : p.playlist ≠ [] := fun hnil => by simp [hnil] at hget
        simp [Plan.budget, Plan.play, hne, hnext]

theorem Plan.Move.budget {p q : Plan} {f : Option Path} (h : p.Move f q) :
    f.toList.length + q.budget ≤ p.budget := by
  cases h with
  | same => simp
  | start _ hplays =>
    simp only [Plan.budget, hplays, List.length_cons, Option.toList_some, List.length_nil]
    omega
  | ignore _ hplays =>
    simp only [Plan.budget, hplays, List.length_cons, Option.toList_none, List.length_nil]
    omega
  | defer _ hplays =>
    simp only [Plan.budget, hplays, List.length_cons, Option.toList_none, List.length_nil]
    split <;> split <;> omega
  | finish _ =>
    have hadvance := p.budget_advance
    simp only [Option.toList_none, List.length_nil, Nat.zero_add]
    unfold Plan.next
    split
    · exact Nat.le_refl _
    · exact hadvance

theorem Plan.next_commands (p : Plan) : p.next.commands = p.commands := by
  unfold Plan.next Plan.advance
  split
  · rfl
  · split
    · rfl
    · split
      · rfl
      · simp only
        split <;> rfl

theorem Plan.Move.commands {p q : Plan} {f : Option Path} (h : p.Move f q) :
    q.commands = p.commands := by
  cases h with
  | finish _ => exact p.next_commands
  | _ => rfl

/-! ## Resumes that end -/

/-- The handler of `m`, which is no command, may come to `avbox_player_doresume`. -/
def mayResume (s : State) (env : Env) : Msg → Prop
  | .play _ => s.status = .paused
  | .streamExit => s.underrunTimerId ≠ none
  | .timer id => s.underrunTimerId = some id
  | .videoOutReady | .bufferUnderrun => env.timer = none
  | _ => False

instance (s : State) (env : Env) : DecidablePred (mayResume s env)
  | .play _ => inferInstanceAs (Decidable (_ = _))
  | .streamExit => inferInstanceAs (Decidable (_ ≠ _))
  | .timer _ => inferInstanceAs (Decidable (_ = _))
  | .videoOutReady | .bufferUnderrun => inferInstanceAs (Decidable (_ = _))
  | .pause | .stop | .seek _ _ | .threadExit | .streamReady | .audioDecReady | .videoDecReady
  | .audioOutReady | .audioStreamUnderrun | .changeAudioTrack _ | .flush | .stillFrame _ | .info =>
    inferInstanceAs (Decidable False)

/-- A resume of a stream with audio and video finds a video frame, or a blocked audio decoder. -/
def ResumeEnds (s : State) (m : Msg) (env : Env) : Prop :=
  mayResume s env m → ¬resumeWaits { s with audioPaused := true } env

instance (s : State) (m : Msg) (env : Env) : Decidable (ResumeEnds s m env) :=
  inferInstanceAs (Decidable (_ → ¬_))

/-- Any fault but a loop that does not end. -/
def notHang : Fault → Prop := fun f => f ≠ .hang

theorem doresume_ends {s : State} {env : Env} (h : ¬resumeWaits { s with audioPaused := true } env) :
    Ensures (doresume s env) (fun _ => True) notHang :=
  doresume_ensures (fun _ => trivial) (fun _ => trivial) (fun _ _ _ => trivial)
    (fun _ _ => by simp [notHang]) (fun _ _ _ => by simp [notHang])
    fun _ hwaits => absurd ⟨rfl, hwaits.2⟩ h

theorem handleUnderrun_ends {s : State} {env : Env}
    (h : env.timer = none → ¬resumeWaits { s with audioPaused := true } env) :
    Ensures (handleUnderrun s env) (fun _ => True) notHang :=
  handleUnderrun_ensures (fun _ _ => trivial) fun hnone =>
    doresume_ends (s := { s with status := .buffering, underrunTimerId := none }) (h hnone)

/-- A pause changes nothing that the loop of a resume looks at but the audio stream. -/
theorem resumeWaits_dopause {s : State} {env : Env} :
    resumeWaits { dopause s with audioPaused := true } env ↔
      resumeWaits { s with audioPaused := true } env := by
  unfold dopause
  split <;> rfl

theorem streamExit_ends {s : State} {env : Env} (h : ResumeEnds s .streamExit env) :
    Ensures (streamExit s env) (fun _ => True) notHang := by
  have hcancel : Ensures (cancelUnderrun s env) (fun _ => True) notHang :=
    cancelUnderrun_ensures (fun _ => trivial) fun hsome =>
      doresume_ends (s := { s with underrunTimerId := none }) (h (Option.isSome_iff_ne_none.mp hsome))
  unfold streamExit
  rw [ensures_bind]
  refine hcancel.imp fun t _ => ?_
  split
  · rw [ensures_bind]
    exact drop_ensures (fun _ => trivial) (fun _ => by simp [notHang]) fun _ => by simp [notHang]
  · rw [ensures_bind]
    refine flush_ensures (fun _ _ hf => hf) (fun _ => trivial) (fun _ _ => ?_)
      (fun _ _ _ _ _ => trivial) fun _ _ => by simp [notHang]
    exact delayStreamExit_ensures (fun _ _ => trivial) (fun _ => trivial) (by simp [notHang])

theorem flushLoop_ends {s : State} {env : Env} {flags : Nat} (hflags : flags ≠ 0) :
    Ensures (flushLoop s flags env) (fun _ => True) notHang :=
  flushLoop_ensures hflags (fun _ _ hf => hf) (fun _ => trivial) (fun _ _ _ _ _ => trivial)
    fun _ _ => by simp [notHang]

/-- Nothing but a resume waits for what may not come. -/
theorem control_ends {s : State} {m : Msg} {env : Env} (hm : m.command = false)
    (h : ResumeEnds s m env) : Ensures (control s m env) (fun _ => True) notHang := by
  have hother : notHang .assert := by simp [notHang]
  have hstage {p : PlayState} (t : State) (_ : NextStage p s t) : True := trivial
  unfold control
  cases m with
  | play path =>
    refine doplay_ensures trivial (fun hst => doresume_ends (h hst)) (fun _ path => ?_)
      (fun _ _ => trivial) (fun _ _ _ => trivial) (fun _ _ => trivial) hother
    unfold dostop
    split
    · trivial
    · exact resumeIfPaused_ensures (fun _ => trivial) fun hst =>
        doresume_ends (s := { s with nextFile := some path, streamQuit := true }) (h hst)
  | pause | stop | seek | threadExit => cases hm
  | streamReady => exact (streamReady_stage fun _ _ hf => hf).imp hstage
  | audioDecReady => exact (audioDecReady_stage fun _ _ hf => hf).imp hstage
  | videoDecReady => exact (videoDecReady_stage fun _ _ hf => hf).imp hstage
  | audioOutReady => exact (audioOutReady_stage fun _ _ hf => hf).imp hstage
  | videoOutReady =>
    unfold videoOutReady
    simp only [ensures_bind, ensures_assert]
    refine ⟨fun _ => ?_, fun _ => hother⟩
    refine (handleUnderrun_ends fun hnone => ?_).imp fun t _ => ?_
    · rw [resumeWaits_dopause]
      exact h hnone
    · rw [ensures_checkpointContinue]
      exact ⟨fun _ => trivial, fun _ => by simp [notHang]⟩
  | streamExit => exact streamExit_ends h
  | bufferUnderrun =>
    refine bufferUnderrun_ensures trivial (fun _ _ => handleUnderrun_ends fun hnone => ?_)
      fun _ _ => handleUnderrun_ends (s := { s with underrun := true }) h
    rw [resumeWaits_dopause]
    exact h hnone
  | audioStreamUnderrun | info => trivial
  | changeAudioTrack streamId =>
    exact changeAudioTrack_ensures trivial (fun _ _ _ _ _ => trivial) (fun _ _ _ => trivial)
      (fun _ => trivial) (by simp [notHang])
  | flush => exact flushMsg_ensures ((flushLoop_ends (by decide)).imp fun _ _ => trivial) hother
  | stillFrame length =>
    exact stillFrame_ensures trivial ((flushLoop_ends (by decide)).imp fun _ _ _ => trivial) hother
  | timer id =>
    exact timer_ensures trivial (fun htimer _ => handleUnderrun_ends fun _ => h htimer)
      (fun htimer _ => handleUnderrun_ends (s := { s with underrun := true }) fun _ => h htimer)
      (fun htimer _ =>
        doresume_ends (s := { s with underrun := false, underrunTimerId := none }) (h htimer))
      (fun _ => trivial) trivial

theorem step_ends {s t : State} {e : Event} {r : Result} (hcalm : s.plan.commands = [])
    (hok : Handling ResumeEnds s e) (hstep : step s e = some (t, r)) : r ≠ .fault .hang := by
  have hrule := step_rule (I := fun _ => True) (E := notHang) trivial (fun _ _ _ _ => trivial)
    (fun env m ms he hms => ?_) (fun _ _ hparser => ?_) (fun _ _ _ _ => trivial) hstep
  · exact fun hr => hrule.2 _ hr rfl
  · subst he
    refine control_ends (s := { s with mailbox := ms }) ?_ (hok.head hms)
    have hnone : (m :: ms).filter Msg.command = [] := hms ▸ hcalm
    have hm := List.filter_eq_nil_iff.mp hnone m List.mem_cons_self
    simpa using hm
  · exact parserStep_ensures hparser
      (fun _ _ => parserStart_ensures (fun _ _ => ⟨trivial, trivial⟩) (by simp [notHang]))
      (fun _ _ _ => trivial) (fun _ _ _ _ _ => trivial) (fun _ _ _ => trivial)
      (fun _ _ => trivial) (fun _ => trivial) fun _ => trivial

/-! ## Runs -/

/-- One step of the player, with the files that were started so far. -/
def watch (w : State × List Path) (e : Event) : Option ((State × List Path) × Result) :=
  (step w.1 e).map fun r => ((r.1, w.2 ++ (starts w.1 e r.1).toList), r.2)

/-- The steps that the result speaks of: nobody gives a command, files open, no underrun is entered
    by a ready player, and no resume waits for ever. -/
def Plays (w : State × List Path) (e : Event) : Prop :=
  Undisturbed w.1 e ∧ Handling NoIdleUnderrun w.1 e ∧ Handling ResumeEnds w.1 e

instance (w : State × List Path) (e : Event) : Decidable (Plays w e) :=
  inferInstanceAs (Decidable (_ ∧ _ ∧ _))

/-- The selected item and the items after it, in the player's copy of the list. -/
def State.rest (s : State) : List Path := s.playlistItem.elim [] fun i => s.playlist.drop i

/-- What holds along a run in which a list is played. -/
structure Playing (w : State × List Path) : Prop where
  wf : Wf w.1
  settled : AtRest Settled w.1
  calm : w.1.plan.commands = []

theorem Playing.step {w w' : State × List Path} {e : Event} {r : Result} (h : Playing w)
    (hok : Plays w e) (hstep : watch w e = some (w', r)) :
    Playing w' ∧ r ≠ .fault .hang ∧ ∃ f, w.1.plan.Move f w'.1.plan ∧ w'.2 = w.2 ++ f.toList := by
  obtain ⟨⟨t, r⟩, ht, heq⟩ := Option.map_eq_some_iff.mp hstep
  cases heq
  have hmove := step_move h.wf h.settled h.calm hok.1 ht
  exact ⟨⟨step_wf h.wf ht, step_settled h.wf h.settled hok.2.1 ht, hmove.commands.trans h.calm⟩,
    step_ends h.calm hok.2.2 ht, _, hmove, rfl⟩

/-- Every state that is reached without an underrun of a ready player is settled. -/
theorem reachable_settled {tr : List (Event × Result)} {s : State}
    (h : Run (Guarded step (Handling NoIdleUnderrun)) new tr s) : Wf s ∧ AtRest Settled s :=
  Run.invariant (P := fun s => Wf s ∧ AtRest Settled s)
    ⟨new_wf, fun _ => ⟨⟨rfl, fun _ => rfl⟩, rfl⟩⟩
    (fun _ _ _ hinv hg => ⟨step_wf hinv.1 hg.2, step_settled hinv.1 hinv.2 hg.1 hg.2⟩) h

theorem startPlaylist_playing {s t : State} {items : List Path} {selected : Nat} (hwf : Wf s)
    (hsettled : AtRest Settled s) (hcalm : t.plan.commands = [])
    (h : startPlaylist s items selected = some t) : Playing (t, []) := by
  have hstep : step s (.playlist items selected) = some (t, .done) := by
    simp only [step, h, Option.map_some]
  have hok : Handling NoIdleUnderrun s (.playlist items selected) := trivial
  exact ⟨step_wf hwf hstep, step_settled hwf hsettled hok hstep, hcalm⟩

/-- Never more files than the plan had room for. -/
theorem run_budget {tr : List (Event × Result)} {s t : State} {files : List Path}
    (hplaying : Playing (s, [])) (h : Run (Guarded watch Plays) (s, []) tr (t, files)) :
    files.length ≤ s.plan.budget := by
  have hinv := Run.invariant
    (P := fun w => Playing w ∧ w.2.length + w.1.plan.budget ≤ s.plan.budget)
    ⟨hplaying, by simp⟩ (fun w a w' hw hg => ?_) h
  · have hle : files.length + t.plan.budget ≤ s.plan.budget := hinv.2
    omega
  · obtain ⟨hw', _, f, hmove, heq⟩ := hw.1.step hg.1 hg.2
    have hle := hmove.budget
    have hprev := hw.2
    refine ⟨hw', ?_⟩
    rw [heq, List.length_append]
    omega

theorem run_course {tr : List (Event × Result)} {s t : State} {files L : List Path} {i : Nat}
    {st : Bool} (hplaying : Playing (s, [])) (hstart : Course L i st s.plan [])
    (h : Run (Guarded watch Plays) (s, []) tr (t, files)) : Course L i st t.plan files := by
  have hinv := Run.invariant (P := fun w => Playing w ∧ Course L i st w.1.plan w.2)
    ⟨hplaying, hstart⟩ (fun w a w' hw hg => ?_) h
  · exact hinv.2
  · obtain ⟨hw', _, f, hmove, heq⟩ := hw.1.step hg.1 hg.2
    rw [heq]
    exact ⟨hw', hw.2.move hmove⟩

theorem run_ends {tr : List (Event × Result)} {s : State} {w : State × List Path}
    (hplaying : Playing (s, [])) (h : Run (Guarded watch Plays) (s, []) tr w) :
    ∀ a ∈ tr, a.2 ≠ .fault .hang := by
  have hall := Run.history (P := fun tr w => Playing w ∧ ∀ a ∈ tr, a.2 ≠ .fault .hang)
    ⟨hplaying, fun a ha => nomatch ha⟩ (fun tr w a w' hinv hg => ?_) h
  · exact hall.2
  · obtain ⟨hw', hlast, _⟩ := hinv.1.step hg.1 hg.2
    refine ⟨hw', fun b hb => ?_⟩
    rcases List.mem_append.mp hb with hold | hnew
    · exact hinv.2 b hold
    · rw [List.mem_singleton.mp hnew]
      exact hlast

/-- At the end of the course the first one or two of the files have been played. -/
theorem Course.end {L files : List Path} {i : Nat} {st : Bool} {p : Plan}
    (h : Course L i st p files) (hready : p.ready = true) (hplays : p.plays = []) :
    files = (L.drop i).take (if st then 1 else 2) := by
  cases h with
  | waiting | between => cases hplays
  | first | second => cases hready
  | ended => rfl

/-- **Playlists play through** exactly when few items are left: a list is given to a player in
    which no command waits, nobody gives another one, every file opens and plays to its end, no
    underrun is entered by a ready player, and each resume finds a video frame or a blocked audio
    decoder.  The copy is in the order in which the browser's files were added, and no handler waits
    for ever.  Never more than two files are played; when the player was idle, these are the
    selected item and all items after it if and only if there are at most two of them, or one if
    the player was stopped before. -/
theorem playlist_plays_through {items : List Path} {selected : Nat} {tr₀ tr : List (Event × Result)}
    {s₀ s₁ s : State} {files : List Path}
    (h₀ : Run (Guarded step (Handling NoIdleUnderrun)) new tr₀ s₀)
    (hplays : plays s₀.mailbox = []) (hcalm : s₀.mailbox.filter Msg.command = [])
    (hcall : startPlaylist s₀ items selected = some s₁)
    (hrun : Run (Guarded watch Plays) (s₁, []) tr (s, files))
    (hready : s.playState = .ready) (hdone : plays s.mailbox = []) :
    (∀ added, browse added = some items → s₁.playlist = added) ∧
      (∀ a ∈ tr, a.2 ≠ .fault .hang) ∧
      (files = s₁.rest → s₁.rest.length ≤ 2) ∧
      (s₀.playState = .ready →
        (files = s₁.rest ↔ s₁.rest.length ≤ if s₀.stopping then 1 else 2)) := by
  obtain ⟨hwf, hsettled⟩ := reachable_settled h₀
  obtain ⟨x, hx, hplan⟩ := startPlaylist_plan hplays hcalm hcall
  have hplaying := startPlaylist_playing hwf hsettled (by rw [hplan]) hcall
  refine ⟨fun added hadded => playlist_copied hcall hadded, run_ends hplaying hrun,
    fun hfiles => ?_, fun hidle => ?_⟩
  · have hle := run_budget hplaying hrun
    rw [hplan, hfiles] at hle
    refine Nat.le_trans hle ?_
    simp only [Plan.budget, List.length_cons, List.length_nil]
    split <;> omega
  · have hrest : s₁.rest = items.reverse.drop (items.length - 1 - selected) := by
      obtain ⟨_, _, rfl⟩ := startPlaylist_eq hcall
      rfl
    have hstart : Course items.reverse (items.length - 1 - selected) s₀.stopping s₁.plan [] := by
      rw [hplan, PlayState.isReady_eq_true.mpr hidle]
      exact .waiting hx (hsettled hidle).1.2
    have hfiles := (run_course hplaying hstart hrun).end
      (PlayState.isReady_eq_true.mpr hready) hdone
    rw [hfiles, hrest]
    exact List.take_eq_self_iff _

/-! ## Two runs -/

/-- One item of a list is opened and played to its end. -/
def itemEvents : List Event :=
  (startup []).tail ++ readToEnd ++ [Event.control (emptyEnv 0)]

/-- A list of two files plays through. -/
theorem playlist_plays_through_two : ∃ items s₁ tr s files,
    browse [['a'], ['b']] = some items ∧ startPlaylist new items 1 = some s₁ ∧
      Run (Guarded watch Plays) (s₁, []) tr (s, files) ∧ s.playState = .ready ∧
      plays s.mailbox = [] ∧ files = s₁.rest ∧ files = [['a'], ['b']] :=
  have hcall : startPlaylist new [['b'], ['a']] 1 = some _ := rfl
  have hrun : Run (Guarded watch Plays) (_, []) _ (_, _) :=
    run_of_guarded_exec (s := ((startPlaylist new [['b'], ['a']] 1).get rfl, []))
      (itemEvents ++ itemEvents) rfl
  ⟨_, _, _, _, _, rfl, rfl, hrun, rfl, rfl,
    ((playlist_plays_through Run.nil rfl rfl hcall hrun rfl rfl).2.2.2 rfl).mpr (by decide), rfl⟩

/-- **The third file of a list is never played**: the files `a`, `b` and `c` are added to the
    browser and `a` is selected; each file opens and plays to its end. -/
theorem playlist_stops_early : ∃ items s₁ tr s files,
    browse [['a'], ['b'], ['c']] = some items ∧ startPlaylist new items 2 = some s₁ ∧
      Run (Guarded watch Plays) (s₁, []) tr (s, files) ∧ s.playState = .ready ∧ s.mailbox = [] ∧
      s₁.rest = [['a'], ['b'], ['c']] ∧ files = [['a'], ['b']] :=
  have hrun : Run (Guarded watch Plays) (_, []) _ (_, _) :=
    run_of_guarded_exec (s := ((startPlaylist new [['c'], ['b'], ['a']] 2).get rfl, []))
      (itemEvents ++ itemEvents) rfl
  ⟨_, _, _, _, _, rfl, rfl, hrun, rfl, rfl, rfl, rfl⟩

end Mediabox.Player
