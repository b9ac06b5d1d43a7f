import Mediabox.PlayerFlow

/-!
# The control thread keeps what the threads of the player rely on

`control_flow` goes through the start of a session, `avbox_player_drop`, `avbox_player_flush` and
the end of `STREAM_EXIT`; `step_flow` puts the three threads together.
-/

set_option autoImplicit false

namespace Mediabox.PlayerPackets

open Transition
open Player (PlayState)

variable {s s' : State} {out : Outcome}

/-! ## What stays -/

/-- The queue and the decoder stay; the count of the checkpoint may be another one. -/
def Pipe.Same (p p' : Pipe) : Prop := p'.queue = p.queue ∧ p'.decoder = p.decoder

theorem Pipe.Same.items {p p' : Pipe} (h : p.Same p') : p'.items = p.items :=
  congrArg (Option.getD · []) h.1

theorem setPipe_same {side : Side} {p : Pipe} (hside : (s.pipe side).Same p) (i : Side) :
    (s.pipe i).Same ((s.setPipe side p).pipe i) :=
  setPipe_forall (P := fun i p => (s.pipe i).Same p) hside (fun _ => ⟨rfl, rfl⟩) i

/-- The control thread moves on, with no packet in its hands. -/
theorem Flow.of_control (h : Flow s) {c : ControlPc} {n : Nat} {flushing : Bool} {pool : List Addr}
    {pipe : Side → Pipe} (hpipe : ∀ side, (s.pipe side).Same (pipe side)) (hhand : c.hand = [])
    (hrests : ∀ side, c.rests side = true → (pipe side).Away)
    (hwaits : ∀ side, c.waitsFor = some side → (pipe side).checkpoint ≠ 0)
    (hheld : s.playState ≠ .playing → c.pending + s.parser.held ≤ n)
    (hflushes : ∀ exit, c = .flushing exit → s.playState = .playing)
    (hbusy : c ≠ .idle → s.playState ≠ .ready) (hexits : c.exits = true → s.parser = .returned)
    (hdrained : ∀ side, c.drained side = true → (s.pipe side).items = []) :
    Flow { s with
      control := c, checkpoint := n, flushing := flushing, pool := pool, pipe := pipe } where
  workers side hruns := (hpipe side).2.trans (h.workers side hruns)
  opened := h.opened
  head side packet hdecoding := by
    obtain ⟨l, hl⟩ := h.head side packet ((hpipe side).2.symm.trans hdecoding)
    exact ⟨l, (hpipe side).items.trans hl⟩
  rests := hrests
  waits := hwaits
  before hplay := by
    obtain ⟨hlive, hacquiring⟩ := h.before hplay
    obtain ⟨hparser, hpipes, -⟩ := live_eq_nil.mp hlive
    refine ⟨live_eq_nil.mpr ⟨hparser, fun side => ⟨?_, ?_⟩, hhand⟩, hacquiring⟩
    · exact (hpipe side).items.trans (hpipes side).1
    · exact (congrArg DecoderPc.hand (hpipe side).2).trans (hpipes side).2
  held := hheld
  flushes := hflushes
  busy := hbusy
  exits := hexits
  drained side hside := (hpipe side).items.trans (hdrained side hside)
  noVideo hvideo := by
    obtain ⟨hitems, hputting⟩ := h.noVideo hvideo
    exact ⟨(hpipe .video).items.trans hitems, hputting⟩

theorem ControlPc.outside {c : ControlPc} (h : c.pending = 0) :
    c.hand = [] ∧ c.waitsFor = none ∧ (∀ side, c.rests side = false) ∧
      ∀ side, c.drained side = true → c = .joining := by
  cases c with
  | idle | flushing _ => exact ⟨rfl, rfl, fun side => by cases side <;> rfl,
      fun side hdrained => by cases side <;> cases hdrained⟩
  | joining => exact ⟨rfl, rfl, fun side => by cases side <;> rfl, fun _ _ => rfl⟩
  | halting caller | dropping caller | dequeued caller | frames caller | yielding caller
  | redoing caller => cases caller <;> cases h

/-- The control thread goes on outside of `avbox_player_drop`. -/
theorem Flow.of_outside (h : Flow s) {c : ControlPc} {n : Nat} {flushing : Bool}
    {pipe : Side → Pipe} (hpipe : ∀ side, (s.pipe side).Same (pipe side)) (hout : c.pending = 0)
    (hheld : s.playState ≠ .playing → s.parser.held ≤ n)
    (hflushes : ∀ exit, c = .flushing exit → s.playState = .playing)
    (hbusy : c ≠ .idle → s.playState ≠ .ready) (hexits : c.exits = true → s.parser = .returned)
    (hdrained : c = .joining → ∀ side, (s.pipe side).items = []) :
    Flow { s with control := c, checkpoint := n, flushing := flushing, pipe := pipe } := by
  obtain ⟨hhand, hwaits, hrests, hjoining⟩ := ControlPc.outside hout
  refine h.of_control hpipe hhand (fun side hside => ?_) (fun side hside => ?_) (fun hplay => ?_)
    hflushes hbusy hexits fun side hside => hdrained (hjoining side hside) side
  · rw [hrests side] at hside
    cases hside
  · rw [hwaits] at hside
    cases hside
  · rw [hout, Nat.zero_add]
    exact hheld hplay

/-! ## `avbox_player_drop` -/

theorem away_of_halted {p : Pipe} (hhalted : p.decoder.halted = true) (hseen : p.decoder ≠ .leaving)
    (hheld : p.checkpoint ≠ 0) : p.Away := by
  obtain ⟨queue, checkpoint, decoder⟩ := p
  cases decoder with
  | idle | returned => trivial
  | starting | checkpoint => exact hheld
  | leaving => exact absurd rfl hseen
  | loop | peeking | decoding | dequeued => cases hhalted

/-- `avbox_player_drop` may be called for this caller. -/
structure State.Drops (s : State) (caller : Caller) : Prop where
  held : s.playState ≠ .playing → caller.pending + s.parser.held ≤ s.checkpoint
  started : s.playState ≠ .ready
  exits : caller = .streamExit → s.parser = .returned

theorem Flow.drops (h : Flow s) {c : ControlPc} {caller : Caller} (hpc : s.control = c)
    (hpending : c.pending = caller.pending) (hexits : c.exits = decide (caller = .streamExit))
    (hbusy : c ≠ .idle) : s.Drops caller where
  held hplay := by
    have hheld := h.held hplay
    rw [hpc, hpending] at hheld
    exact hheld
  started := h.busy (hpc ▸ hbusy)
  exits hcaller := h.exits (by rw [hpc, hexits, hcaller]; rfl)

/-- `avbox_player_drop` goes on, with no packet in its hands. -/
theorem Flow.of_drop (h : Flow s) {caller : Caller} (hdrops : s.Drops caller) {c : ControlPc}
    {pool : List Addr} {pipe : Side → Pipe} (hpipe : ∀ side, (s.pipe side).Same (pipe side))
    (hhand : c.hand = []) (hpending : c.pending = caller.pending)
    (hexits : c.exits = decide (caller = .streamExit)) (hnot : ∀ exit, c ≠ .flushing exit)
    (hrests : ∀ side, c.rests side = true → (pipe side).Away)
    (hwaits : ∀ side, c.waitsFor = some side → (pipe side).checkpoint ≠ 0)
    (hdrained : ∀ side, c.drained side = true → (s.pipe side).items = []) :
    Flow { s with control := c, pool := pool, pipe := pipe } := by
  refine h.of_control hpipe hhand hrests hwaits ?_ (fun exit hc => absurd hc (hnot exit))
    (fun _ => hdrops.started) ?_ hdrained
  · rw [hpending]
    exact hdrops.held
  · rw [hexits]
    exact fun hcaller => hdrops.exits (of_decide_eq_true hcaller)

/-- Where `avbox_player_drop` is between two steps once the video packets are dropped. -/
def afterVideo (caller : Caller) : List ControlPc :=
  [.frames caller, .yielding caller .video, .dropping caller .audio, .yielding caller .audio,
    .redoing caller]

theorem afterVideo_spec {caller : Caller} {c : ControlPc} (hc : c ∈ afterVideo caller) :
    (c.hand = [] ∧ c.pending = caller.pending ∧ c.exits = decide (caller = .streamExit) ∧
      c ≠ .idle ∧ ∀ exit, c ≠ .flushing exit) ∧
    c.rests .video = false ∧ ∀ side, c.drained side = (ControlPc.frames caller).drained side := by
  simp only [afterVideo, List.mem_cons, List.not_mem_nil, or_false] at hc
  rcases hc with rfl | rfl | rfl | rfl | rfl
  all_goals
    refine ⟨⟨rfl, rfl, rfl, nofun, nofun⟩, rfl, fun side => ?_⟩
    cases caller <;> cases side <;> rfl

/-- `avbox_player_drop` goes on after the video packets; only the audio decoder may have to rest. -/
theorem Flow.of_afterVideo (h : Flow s) (caller : Caller) {c c' : ControlPc}
    {pipe : Side → Pipe} (hpc : s.control = c) (hc : c ∈ afterVideo caller)
    (hc' : c' ∈ afterVideo caller) (hpipe : ∀ side, (s.pipe side).Same (pipe side))
    (haudio : c'.rests .audio = true → (pipe .audio).Away)
    (hwaits : ∀ side, c'.waitsFor = some side → (pipe side).checkpoint ≠ 0) :
    Flow { s with control := c', pipe := pipe } := by
  obtain ⟨⟨-, hpending, hexits, hbusy, -⟩, -, hdrained⟩ := afterVideo_spec hc
  obtain ⟨⟨hhand, hpending', hexits', -, hnot⟩, hvideo, hdrained'⟩ := afterVideo_spec hc'
  refine h.of_drop (h.drops hpc hpending hexits hbusy) hpipe hhand hpending' hexits' hnot
    (fun side hside => ?_) hwaits fun side hside => h.drained side ?_
  · cases side with
    | video => rw [hvideo] at hside; cases hside
    | audio => exact haudio hside
  · rw [hpc, hdrained, ← hdrained']
    exact hside

theorem Flow.dropQueues (h : Flow s) {caller : Caller} (hdrops : s.Drops caller)
    (haway : ∀ side, (s.pipe side).Away) : Flow (dropQueues s caller) := by
  refine h.of_drop hdrops (fun _ => ⟨rfl, rfl⟩) rfl rfl rfl nofun (fun side _ => haway side) nofun
    fun side hside => ?_
  split at hside
  · cases side <;> cases caller <;> cases hside
  · rename_i hnone
    cases side with
    | video => exact (h.noVideo (not_not.mp hnone)).1
    | audio => cases caller <;> cases hside

theorem Flow.haltAudio (h : Flow s) {caller : Caller} (hdrops : s.Drops caller)
    (haway : (s.pipe .video).Away) : Flow (haltAudio s caller) := by
  unfold PlayerPackets.haltAudio
  split
  · refine h.of_drop hdrops (setPipe_same ⟨rfl, rfl⟩) rfl rfl rfl nofun ?_ ?_ ?_
    · intro side hside
      cases side with
      | video => exact haway
      | audio => cases hside
    · intro side hside
      cases hside
      exact Nat.succ_ne_zero _
    · exact fun side hside => by cases side <;> cases caller <;> cases hside
  · rename_i hruns
    refine h.dropQueues hdrops fun side => ?_
    cases side with
    | video => exact haway
    | audio =>
      rw [Pipe.Away, h.workers .audio hruns]
      trivial

theorem Flow.drop (h : Flow s) {caller : Caller} (hpc : s.control = .idle)
    (hheld : s.playState ≠ .playing → caller.pending + s.parser.held ≤ s.checkpoint + 1)
    (hstarted : s.playState ≠ .ready) (hexits : caller = .streamExit → s.parser = .returned) :
    Flow (drop s caller) := by
  unfold PlayerPackets.drop
  dsimp only
  split
  · refine h.of_control (setPipe_same ⟨rfl, rfl⟩) rfl ?_ ?_ hheld nofun (fun _ => hstarted)
      (fun hexit => hexits (of_decide_eq_true hexit)) ?_
    · exact fun side hside => by cases side <;> cases hside
    · intro side hside
      cases hside
      exact Nat.succ_ne_zero _
    · exact fun side hside => by cases side <;> cases caller <;> cases hside
  · rename_i hruns
    refine Flow.haltAudio ?_ ⟨hheld, hstarted, hexits⟩ ?_
    · refine h.of_control (fun _ => ⟨rfl, rfl⟩) ?_ h.rests h.waits (fun hplay => ?_) h.flushes
        h.busy h.exits h.drained
      · rw [hpc]
        rfl
      · exact Nat.le_succ_of_le (h.held hplay)
    · have hidle : (s.pipe .video).decoder = .idle := h.workers .video hruns
      show (s.pipe .video).Away
      rw [Pipe.Away, hidle]
      trivial

theorem continueDecoder_same {P : Prop} [Decidable P] {side : Side} {t : State}
    (h : (if P then continueDecoder s side else some s) = some t) :
    ∃ pipe, (∀ i, (s.pipe i).Same (pipe i)) ∧ t = { s with pipe := pipe } := by
  split at h
  · obtain ⟨n, -, rfl⟩ := continueDecoder_cases h
    exact ⟨(s.setPipe side { s.pipe side with checkpoint := n }).pipe,
      setPipe_same ⟨rfl, rfl⟩, rfl⟩
  · cases h
    exact ⟨_, fun _ => ⟨rfl, rfl⟩, rfl⟩

theorem Pipe.Same.trans {p q r : Pipe} (h : p.Same q) (h' : q.Same r) : p.Same r :=
  ⟨h'.1.trans h.1, h'.2.trans h.2⟩

/-- Where the control thread is after its call of `avbox_player_drop`. -/
def Caller.after : Caller → ControlPc
  | .seek => .idle
  | .streamExit => .joining

/-- What is left of `avbox_player_drop` once the queues are empty. -/
theorem endDrop_cases {caller : Caller} {t : State} (h : endDrop s caller = some t) :
    ∃ pipe, (∀ side, (s.pipe side).Same (pipe side)) ∧
      t = { s with
        flushing := false
        checkpoint := s.checkpoint - caller.pending
        pipe := pipe
        control := caller.after } := by
  obtain ⟨u, hall, h⟩ := Option.bind_eq_some_iff.mp h
  obtain ⟨s₁, hparser, hall⟩ := Option.bind_eq_some_iff.mp hall
  obtain ⟨s₂, haudio, hvideo⟩ := Option.bind_eq_some_iff.mp hall
  obtain ⟨-, rfl⟩ := continueParser_cases hparser
  obtain ⟨pipe₁, hsame₁, rfl⟩ := continueDecoder_same haudio
  obtain ⟨pipe₂, hsame₂, rfl⟩ := continueDecoder_same hvideo
  have hsame : ∀ side, (s.pipe side).Same (pipe₂ side) := fun side =>
    (hsame₁ side).trans (hsame₂ side)
  cases caller with
  | seek =>
    obtain ⟨v, hagain, rfl⟩ := Option.map_eq_some_iff.mp h
    obtain ⟨-, rfl⟩ := continueParser_cases hagain
    exact ⟨pipe₂, hsame, rfl⟩
  | streamExit =>
    cases h
    exact ⟨pipe₂, hsame, rfl⟩

/-! ## The start and the end of a session -/

theorem Flow.of_play (h : Flow s) (hpc : s.control = .idle) (hready : s.playState = .ready) :
    Flow { s with playState := .stream, parser := .opening, streamQuit := false } := by
  have hplay : s.playState ≠ .playing := by
    rw [hready]
    nofun
  obtain ⟨-, hpipe, hcontrol⟩ := live_eq_nil.mp (h.before hplay).1
  constructor
  · refine fun side _ => h.workers side fun hruns => ?_
    have hearly := audioDec_le_of_runs hruns
    rw [hready] at hearly
    exact absurd hearly (by decide)
  · intro _
    show ¬PlayState.audioDec ≤ PlayState.stream
    decide
  · exact h.head
  · exact h.rests
  · exact h.waits
  · exact fun _ => ⟨live_eq_nil.mpr ⟨rfl, hpipe, hcontrol⟩, nofun⟩
  · exact fun _ => Nat.le_trans (Nat.le_add_right _ _) (h.held hplay)
  · intro exit hflushing
    rw [hpc] at hflushing
    cases hflushing
  · exact fun _ => nofun
  · intro hexit
    rw [hpc] at hexit
    cases hexit
  · exact h.drained
  · exact fun _ => ⟨(hpipe .video).1, nofun⟩

theorem runs_mono {p : PlayState} {side : Side} (hle : s.playState ≤ p) (h : s.runs side) :
    { s with playState := p }.runs side := by
  cases side with
  | audio => exact Nat.le_trans h hle
  | video => exact ⟨Nat.le_trans h.1 hle, h.2⟩

theorem Flow.of_stage (h : Flow s) {p : PlayState} {n : Nat} {pipe : Side → Pipe}
    (hpc : s.control = .idle) (hplay : s.playState ≠ .playing)
    (hopened : s.parser ≠ .idle ∧ s.parser ≠ .opening)
    (hnext : s.playState ≤ p)
    (hpipe : ∀ side, pipe side = s.pipe side ∨
      { s with playState := p }.runs side ∧
        pipe side = { s.pipe side with decoder := .starting })
    (hheld : p ≠ .playing → n = s.checkpoint) :
    Flow { s with playState := p, checkpoint := n, pipe := pipe } := by
  obtain ⟨hparser, hpipes, hcontrol⟩ := live_eq_nil.mp (h.before hplay).1
  have hitems : ∀ side, (pipe side).items = [] := by
    intro side
    rcases hpipe side with hsame | ⟨-, hstarts⟩
    · rw [hsame]
      exact (hpipes side).1
    · rw [hstarts]
      exact (hpipes side).1
  constructor
  · intro side hruns
    rcases hpipe side with hsame | ⟨hstarted, -⟩
    · dsimp only
      rw [hsame]
      exact h.workers side fun hbefore => hruns (runs_mono hnext hbefore)
    · exact absurd hstarted hruns
  · exact fun hearly => absurd hearly (not_or.mpr hopened)
  · intro side packet hdecoding
    rcases hpipe side with hsame | ⟨-, hstarts⟩
    · dsimp only at hdecoding ⊢
      rw [hsame] at hdecoding ⊢
      exact h.head side packet hdecoding
    · dsimp only at hdecoding
      rw [hstarts] at hdecoding
      cases hdecoding
  · intro side hrests
    rw [hpc] at hrests
    cases side <;> cases hrests
  · intro side hwaits
    rw [hpc] at hwaits
    cases hwaits
  · refine fun _ => ⟨live_eq_nil.mpr ⟨hparser, fun side => ⟨hitems side, ?_⟩, hcontrol⟩,
      (h.before hplay).2⟩
    rcases hpipe side with hsame | ⟨-, hstarts⟩
    · dsimp only
      rw [hsame]
      exact (hpipes side).2
    · dsimp only
      rw [hstarts]
      rfl
  · intro hstarting
    rw [hheld hstarting]
    exact h.held hplay
  · intro exit hflushing
    rw [hpc] at hflushing
    cases hflushing
  · exact fun hbusy => absurd hpc hbusy
  · intro hexit
    rw [hpc] at hexit
    cases hexit
  · exact fun side _ => hitems side
  · refine fun _ => ⟨hitems .video, fun packet hputting => ?_⟩
    rw [hputting] at hparser
    cases hparser

theorem Flow.parser_opened (h : Flow s) (hlate : .audioDec ≤ s.playState) :
    s.parser ≠ .idle ∧ s.parser ≠ .opening :=
  ⟨fun hpc => h.opened (Or.inl hpc) hlate, fun hpc => h.opened (Or.inr hpc) hlate⟩

theorem Flow.of_join (h : Flow s) (hpc : s.control = .joining) : Flow (join s) := by
  have hidle : ∀ side, ((join s).pipe side).decoder = .idle := by
    have hjoined : ∀ side, (if s.runs side then .idle else (s.pipe side).decoder) =
        DecoderPc.idle := by
      intro side
      split
      · rfl
      · exact h.workers side ‹_›
    intro side
    cases side with
    | audio => exact hjoined .audio
    | video =>
      unfold join
      dsimp only
      split
      · exact hjoined .video
      · exact h.workers .video fun hruns => absurd hruns.2 ‹_›
  have hitems : ∀ side, ((join s).pipe side).items = [] := by
    intro side
    cases side with
    | audio => rfl
    | video =>
      unfold join
      dsimp only
      split
      · rfl
      · exact h.drained .video (by rw [hpc]; rfl)
  constructor
  · exact fun side _ => hidle side
  · intro _
    show ¬PlayState.audioDec ≤ PlayState.ready
    decide
  · intro side packet hdecoding
    rw [hidle side] at hdecoding
    cases hdecoding
  · exact fun side hside => by cases side <;> cases hside
  · exact nofun
  · refine fun _ => ⟨live_eq_nil.mpr ⟨rfl, fun side => ⟨hitems side, ?_⟩, rfl⟩, nofun⟩
    rw [hidle side]
    rfl
  · exact fun _ => Nat.zero_le _
  · exact nofun
  · exact fun hbusy => absurd rfl hbusy
  · exact nofun
  · exact fun side _ => hitems side
  · exact fun _ => ⟨hitems .video, nofun⟩

/-! ## Every step -/

theorem ControlPc.dequeued_rests (caller : Caller) (side i : Side) (packet : Addr) :
    (ControlPc.dequeued caller side packet).rests i = (ControlPc.dropping caller side).rests i := by
  cases side <;> cases i <;> rfl

theorem ControlPc.dequeued_drained (caller : Caller) (side i : Side) (packet : Addr) :
    (ControlPc.dequeued caller side packet).drained i =
      (ControlPc.dropping caller side).drained i := by
  cases caller <;> cases side <;> cases i <;> rfl

theorem Flow.of_take (h : Flow s) {caller : Caller} {side : Side} {packet : Addr} {l : List Addr}
    (hpc : s.control = .dropping caller side) (hq : (s.pipe side).queue = some (l ++ [packet])) :
    Flow { s.setQueue side (some l) with control := .dequeued caller side packet } := by
  have hsome : (s.pipe side).items ≠ [] := by
    rw [Pipe.items, hq]
    exact List.append_ne_nil_of_right_ne_nil l (by rintro ⟨⟩)
  have hplay : s.playState = .playing := by
    by_contra hplay
    exact hsome ((live_eq_nil.mp (h.before hplay).1).2.1 side).1
  have hdrops := h.drops hpc rfl rfl (by rintro ⟨⟩)
  have haway : (s.pipe side).Away := h.rests side (by rw [hpc]; cases side <;> rfl)
  constructor
  · exact setPipe_forall (P := fun i p => ¬s.runs i → p.decoder = .idle) (h.workers side) h.workers
  · exact h.opened
  · refine setPipe_forall (P := fun _ p => ∀ packet, p.decoder = .decoding (some packet) →
      ∃ l, p.items = l ++ [packet]) (fun oldest hdecoding => ?_) h.head
    have hdecoding : (s.pipe side).decoder = .decoding (some oldest) := hdecoding
    rw [Pipe.Away, hdecoding] at haway
    exact haway.elim
  · intro i hrests
    have hbefore : s.control.rests i = true := by
      rw [hpc, ← ControlPc.dequeued_rests caller side i packet]
      exact hrests
    have hall : ∀ i, s.control.rests i = true → ((s.setQueue side (some l)).pipe i).Away :=
      setPipe_forall (P := fun i p => s.control.rests i = true → p.Away) (h.rests side) h.rests
    exact hall i hbefore
  · rintro _ ⟨⟩
  · exact fun hne => absurd hplay hne
  · exact fun hne => absurd hplay hne
  · rintro _ ⟨⟩
  · exact fun _ => hdrops.started
  · exact fun hexit => hdrops.exits (of_decide_eq_true hexit)
  · intro i hdrained
    have hbefore : s.control.drained i = true := by
      rw [hpc, ← ControlPc.dequeued_drained caller side i packet]
      exact hdrained
    refine setPipe_forall (P := fun i p => s.control.drained i = true → p.items = [])
      (fun hside => absurd (h.drained side hside) hsome) h.drained i hbefore
  · intro hvideo
    obtain ⟨hitems, hputting⟩ := h.noVideo hvideo
    refine ⟨?_, hputting⟩
    cases side with
    | video => exact absurd hitems hsome
    | audio => exact hitems

theorem control_flow {e : ControlEvent} (h : Flow s) (hsees : Sees s (.control e))
    (hstep : ControlStep s e out s') : Flow s' := by
  have hsame : ∀ side, (s.pipe side).Same (s.pipe side) := fun _ => ⟨rfl, rfl⟩
  cases hstep with
  | play hpc hready => exact h.of_play hpc hready
  | streamReady hpc hstream hopened hpipe =>
    refine h.of_stage hpc ?_ hopened ?_ (fun side => ?_) fun _ => rfl
    · rw [hstream]
      nofun
    · rw [hstream]
      decide
    · rcases hpipe with rfl | rfl
      · exact Or.inl rfl
      · refine setPipe_forall (P := fun i p => p = s.pipe i ∨
          { s with playState := .audioDec }.runs i ∧ p = { s.pipe i with decoder := .starting })
          (Or.inr ⟨?_, rfl⟩) (fun _ => Or.inl rfl) side
        exact Nat.le_refl _
  | audioDecReady hpc haudio hpipe =>
    have hopened := h.parser_opened (by rw [haudio]; decide)
    refine h.of_stage hpc ?_ hopened ?_ (fun side => ?_) fun _ => rfl
    · rw [haudio]
      nofun
    · rw [haudio]
      decide
    · rcases hpipe with rfl | ⟨hvideo, rfl⟩
      · exact Or.inl rfl
      · refine setPipe_forall (P := fun i p => p = s.pipe i ∨
          { s with playState := .videoDec }.runs i ∧ p = { s.pipe i with decoder := .starting })
          (Or.inr ⟨?_, rfl⟩) (fun _ => Or.inl rfl) side
        exact ⟨Nat.le_refl _, hvideo⟩
  | @outReady _ p hpc hnext =>
    have hstages : .audioDec ≤ s.playState ∧ s.playState ≠ .playing ∧ s.playState ≤ p := by
      rcases hnext with ⟨hnow, rfl⟩ | ⟨hnow, rfl⟩ <;> rw [hnow] <;> decide
    obtain ⟨hlate, hplay, hle⟩ := hstages
    exact h.of_stage hpc hplay (h.parser_opened hlate) hle (fun _ => Or.inl rfl) fun _ => rfl
  | playing hpc hout =>
    have hopened := h.parser_opened (by rw [hout]; decide)
    refine h.of_stage hpc ?_ hopened ?_ (fun _ => Or.inl rfl) fun hne => absurd rfl hne
    · rw [hout]
      nofun
    · rw [hout]
      decide
  | sets hpc =>
    exact ⟨h.workers, h.opened, h.head, h.rests, h.waits, h.before, h.held, h.flushes, h.busy,
      h.exits, h.drained, h.noVideo⟩
  | flush hpc hplaying hexit =>
    refine h.of_outside hsame rfl (fun hne => absurd hplaying hne) (fun _ _ => hplaying)
      (fun _ => ?_) hexit nofun
    rw [hplaying]
    nofun
  | seek hpc hready =>
    refine Flow.drop ?_ hpc (fun hplay => ?_) hready nofun
    · refine h.of_control hsame ?_ h.rests h.waits (fun hplay => Nat.le_succ_of_le (h.held hplay))
        h.flushes h.busy h.exits h.drained
      rw [hpc]
      rfl
    · have hheld := Nat.le_trans (Nat.le_add_left _ _) (h.held hplay)
      rw [Nat.add_comm]
      exact Nat.add_le_add_right hheld 2
  | stopped hpc hparser hready =>
    refine h.drop hpc (fun hplay => ?_) hready fun _ => hparser
    rw [hparser]
    exact Nat.le_add_left _ _
  | unstarted hpc hparser hstream =>
    have hplay : s.playState ≠ .playing := by
      rw [hstream]
      nofun
    obtain ⟨-, hpipes, -⟩ := live_eq_nil.mp (h.before hplay).1
    refine h.of_outside hsame rfl (fun _ => ?_) nofun (fun _ => ?_) (fun _ => hparser)
      fun _ side => (hpipes side).1
    · rw [hparser]
      exact Nat.zero_le _
    · rw [hstream]
      nofun
  | videoHalted hpc hhalted =>
    exact h.haltAudio (h.drops hpc rfl rfl nofun)
      (away_of_halted hhalted (hsees rfl .video (by rw [hpc]; rfl))
        (h.waits .video (by rw [hpc]; rfl)))
  | audioHalted hpc hhalted =>
    refine h.dropQueues (h.drops hpc rfl rfl nofun) fun side => ?_
    cases side with
    | video => exact h.rests .video (by rw [hpc]; rfl)
    | audio =>
      exact away_of_halted hhalted (hsees rfl .audio (by rw [hpc]; rfl))
        (h.waits .audio (by rw [hpc]; rfl))
  | take hpc hq => exact h.of_take hpc hq
  | @release caller side packet hpc =>
    refine h.of_drop (h.drops hpc rfl rfl nofun) hsame rfl rfl rfl nofun ?_ nofun ?_
    · intro i hi
      exact h.rests i (by rw [hpc, ControlPc.dequeued_rests]; exact hi)
    · intro i hi
      exact h.drained i (by rw [hpc, ControlPc.dequeued_drained]; exact hi)
  | @videoDropped caller hpc hempty =>
    refine h.of_drop (h.drops hpc rfl rfl nofun) hsame rfl rfl rfl nofun ?_ nofun ?_
    · exact fun side _ => h.rests side (by rw [hpc]; rfl)
    · intro side hside
      cases side with
      | video => exact congrArg (Option.getD · []) hempty
      | audio => cases caller <;> cases hside
  | @letVideo caller n hpc hcount | @haltVideo caller hpc =>
    exact h.of_afterVideo caller hpc (by simp [afterVideo]) (by simp [afterVideo])
      (setPipe_same ⟨rfl, rfl⟩) (fun _ => h.rests .audio (by rw [hpc]; rfl)) nofun
  | @framesDropped caller hpc =>
    exact h.of_afterVideo caller hpc (by simp [afterVideo]) (by simp [afterVideo]) hsame
      (fun _ => h.rests .audio (by rw [hpc]; rfl)) nofun
  | @letAudio caller n hpc hcount =>
    exact h.of_afterVideo caller hpc (by simp [afterVideo]) (by simp [afterVideo])
      (setPipe_same ⟨rfl, rfl⟩) nofun nofun
  | @haltAudio caller hpc =>
    refine h.of_afterVideo caller hpc (by simp [afterVideo]) (by simp [afterVideo])
      (setPipe_same ⟨rfl, rfl⟩) nofun fun side hside => ?_
    cases hside
    exact Nat.succ_ne_zero _
  | @haltedAgain caller hpc hhalted =>
    refine h.of_afterVideo caller hpc (by simp [afterVideo]) (by simp [afterVideo]) hsame (fun _ => ?_)
      nofun
    exact away_of_halted hhalted (hsees rfl .audio (by rw [hpc]; rfl))
      (h.waits .audio (by rw [hpc]; rfl))
  | @dropped caller t hpc hempty hend =>
    obtain ⟨pipe, hpipe, rfl⟩ := endDrop_cases hend
    have hdrops := h.drops hpc rfl rfl nofun
    have hheld (hplay : s.playState ≠ .playing) : s.parser.held ≤ s.checkpoint - caller.pending :=
      Nat.le_sub_of_add_le' (hdrops.held hplay)
    cases caller with
    | seek => exact h.of_outside hpipe rfl hheld nofun (fun hbusy => absurd rfl hbusy) nofun nofun
    | streamExit =>
      refine h.of_outside hpipe rfl hheld nofun (fun _ => hdrops.started)
        (fun _ => hdrops.exits rfl) fun _ side => ?_
      cases side with
      | video => exact h.drained .video (by rw [hpc]; rfl)
      | audio => exact hempty
  | @flushed exit hpc hempty =>
    have hplaying := h.flushes exit hpc
    cases exit with
    | false =>
      exact h.of_outside hsame rfl (fun hne => absurd hplaying hne) nofun
        (fun hbusy => absurd rfl hbusy) nofun nofun
    | true =>
      refine h.of_outside hsame rfl (fun hne => absurd hplaying hne) nofun (fun _ => ?_)
        (fun _ => h.exits (by rw [hpc]; rfl)) fun _ side => ?_
      · rw [hplaying]
        nofun
      · obtain ⟨haudio, hvideo⟩ := hempty rfl
        cases side with
        | audio => exact haudio
        | video =>
          by_cases hnone : s.videoStreamIndex = -1
          · exact (h.noVideo hnone).1
          · exact congrArg (Option.getD · []) (hvideo hnone)
  | delay hpc =>
    exact h.of_outside hsame rfl (fun hne => absurd (h.flushes true hpc) hne) nofun
      (fun hbusy => absurd rfl hbusy) nofun nofun
  | join hpc hjoins => exact h.of_join hpc

theorem step_flow {e : Event} (h : Flow s) (hsees : Sees s e) (hstep : step s e = some (s', out)) :
    Flow s' := by
  cases step_cases hstep with
  | parser hparser => exact parser_flow h hparser
  | decoder hdecoder => exact decoder_flow h hdecoder
  | control hcontrol => exact control_flow h hsees hcontrol

end Mediabox.PlayerPackets
