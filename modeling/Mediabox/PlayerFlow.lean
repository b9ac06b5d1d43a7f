import Mediabox.PlayerPacketSteps

/-!
# What the threads of the player rely on

A packet is in the hands of a thread or in a queue, and no thread looks whether another one has it.
`Flow` is why this goes well: before the player plays no packet is under way; a decoder has the
oldest packet of its queue; who drops a queue has its decoder halted; and when the session ends the
queues are empty.  It holds in every run whose waits meet `Sees`; the steps of the parser and of the
decoders are here, those of the control thread in `Mediabox.PlayerFlowControl`.
-/

set_option autoImplicit false

namespace Mediabox.PlayerPackets

open Transition
open Player (PlayState AVStream videoRuns)

/-! ## The packets under way -/

def Pipe.items (p : Pipe) : List Addr := p.queue.getD []

def DecoderPc.hand : DecoderPc → List Addr
  | .dequeued packet => [packet]
  | _ => []

def ParserPc.hand : ParserPc → List Addr
  | .reading packet | .putting _ packet | .releasing packet _ => [packet]
  | _ => []

def ControlPc.hand : ControlPc → List Addr
  | .dequeued _ _ packet => [packet]
  | _ => []

def Pipe.live (p : Pipe) : List Addr := p.items ++ p.decoder.hand

/-- The packets that were acquired and not released, except for those that were lost. -/
def State.live (s : State) : List Addr :=
  s.parser.hand ++ (s.pipe .video).live ++ (s.pipe .audio).live ++ s.control.hand

/-! ## The condition -/

/-- The decoder that the control thread waits for. -/
def ControlPc.waitsFor : ControlPc → Option Side
  | .halting _ side => some side
  | .redoing _ => some .audio
  | _ => none

/-- A wait does not take a decoder that leaves its checkpoint for a halted one. -/
def Sees (s : State) (e : Event) : Prop :=
  e = .control .halted → ∀ side ∈ s.control.waitsFor, (s.pipe side).decoder ≠ .leaving

instance (s : State) (e : Event) : Decidable (Sees s e) := inferInstanceAs (Decidable (_ → _))

/-! ## The invariant -/

/-- The decoder does not touch its queue before it is let go on. -/
def Pipe.Away (p : Pipe) : Prop :=
  match p.decoder with
  | .idle | .returned => True
  | .starting | .loop | .checkpoint => p.checkpoint ≠ 0
  | _ => False

/-- The control thread relies on this decoder. -/
def ControlPc.rests : ControlPc → Side → Bool
  | .halting _ .audio, .video => true
  | .dropping _ .video, _ | .dequeued _ .video _, _ => true
  | .frames _, .audio | .yielding _ .video, .audio => true
  | .dropping _ .audio, .audio | .dequeued _ .audio _, .audio => true
  | _, _ => false

/-- How often the caller lets the parser go on after its call of `avbox_player_drop`. -/
def Caller.pending : Caller → Nat
  | .seek => 2
  | .streamExit => 1

/-- How often the control thread is still to let the parser go on. -/
def ControlPc.pending : ControlPc → Nat
  | .halting caller _ | .dropping caller _ | .dequeued caller _ _ | .frames caller
  | .yielding caller _ | .redoing caller => caller.pending
  | .idle | .flushing _ | .joining => 0

/-- The control thread handles `STREAM_EXIT`. -/
def ControlPc.exits : ControlPc → Bool
  | .halting caller _ | .dropping caller _ | .dequeued caller _ _ | .frames caller
  | .yielding caller _ | .redoing caller => caller = .streamExit
  | .flushing exit => exit
  | .joining => true
  | .idle => false

/-- `STREAM_EXIT` has found this queue empty. -/
def ControlPc.drained : ControlPc → Side → Bool
  | .frames .streamExit, .video | .yielding .streamExit _, .video
  | .dropping .streamExit .audio, .video | .dequeued .streamExit .audio _, .video
  | .redoing .streamExit, .video => true
  | .joining, _ => true
  | _, _ => false

/-- The parser has halted itself, and was not let go. -/
def ParserPc.held : ParserPc → Nat
  | .loop | .checkpoint => 1
  | _ => 0

structure Flow (s : State) : Prop where
  workers : ∀ side, ¬s.runs side → (s.pipe side).decoder = .idle
  opened : s.parser = .idle ∨ s.parser = .opening → ¬.audioDec ≤ s.playState
  head : ∀ side packet, (s.pipe side).decoder = .decoding (some packet) →
    ∃ l, (s.pipe side).items = l ++ [packet]
  rests : ∀ side, s.control.rests side = true → (s.pipe side).Away
  waits : ∀ side, s.control.waitsFor = some side → (s.pipe side).checkpoint ≠ 0
  before : s.playState ≠ .playing → s.live = [] ∧ s.parser ≠ .acquiring
  held : s.playState ≠ .playing → s.control.pending + s.parser.held ≤ s.checkpoint
  flushes : ∀ exit, s.control = .flushing exit → s.playState = .playing
  busy : s.control ≠ .idle → s.playState ≠ .ready
  exits : s.control.exits = true → s.parser = .returned
  drained : ∀ side, s.control.drained side = true → (s.pipe side).items = []
  noVideo : s.videoStreamIndex = -1 →
    (s.pipe .video).items = [] ∧ ∀ packet, s.parser ≠ .putting .video packet

variable {s s' : State} {out : Outcome}

theorem init_flow : Flow init where
  workers _ _ := rfl
  opened _ := by decide
  head _ _ h := nomatch h
  rests side h := by cases side <;> cases h
  waits _ h := nomatch h
  before _ := ⟨rfl, nofun⟩
  held _ := Nat.le_refl _
  flushes _ h := nomatch h
  busy h := absurd rfl h
  exits h := nomatch h
  drained side h := by cases side <;> cases h
  noVideo _ := ⟨rfl, nofun⟩

theorem ControlPc.exits_of_drained {pc : ControlPc} {side : Side} (h : pc.drained side = true) :
    pc.exits = true := by
  unfold ControlPc.drained at h
  split at h
  all_goals first | rfl | cases h

theorem live_eq_nil : s.live = [] ↔ s.parser.hand = [] ∧
    (∀ side, (s.pipe side).items = [] ∧ (s.pipe side).decoder.hand = []) ∧
      s.control.hand = [] := by
  unfold State.live Pipe.live
  simp only [List.append_eq_nil_iff]
  constructor
  · rintro ⟨⟨⟨hparser, hvideo⟩, haudio⟩, hcontrol⟩
    refine ⟨hparser, fun side => ?_, hcontrol⟩
    cases side
    · exact hvideo
    · exact haudio
  · rintro ⟨hparser, hpipe, hcontrol⟩
    exact ⟨⟨⟨hparser, hpipe .video⟩, hpipe .audio⟩, hcontrol⟩

/-! ## The parser -/

/-- The parser moves on, and the pipes stay. -/
theorem Flow.of_parser (h : Flow s) {pc : ParserPc} {a : Int} {quit : Bool}
    {pool allocated : List Addr} {turn : Addr → Nat} {turns : Nat}
    (hopened : pc ≠ .idle ∧ pc ≠ .opening)
    (hbefore : s.playState ≠ .playing → pc.hand = [] ∧ pc ≠ .acquiring ∧
      pc.held ≤ s.parser.held)
    (hexits : s.parser ≠ .returned)
    (hputting : s.videoStreamIndex = -1 → ∀ packet, pc ≠ .putting .video packet) :
    Flow { s with
      parser := pc, audioStreamIndex := a, streamQuit := quit, pool := pool
      allocated := allocated, turn := turn, turns := turns } where
  workers := h.workers
  opened hpc := absurd hpc (not_or.mpr hopened)
  head := h.head
  rests := h.rests
  waits := h.waits
  before hplay := by
    obtain ⟨hhand, hacquiring, -⟩ := hbefore hplay
    obtain ⟨-, hpipe, hcontrol⟩ := live_eq_nil.mp (h.before hplay).1
    exact ⟨live_eq_nil.mpr ⟨hhand, hpipe, hcontrol⟩, hacquiring⟩
  held hplay := Nat.le_trans (Nat.add_le_add_left (hbefore hplay).2.2 _) (h.held hplay)
  flushes := h.flushes
  busy := h.busy
  exits hexit := absurd (h.exits hexit) hexits
  drained := h.drained
  noVideo hvideo := ⟨(h.noVideo hvideo).1, hputting hvideo⟩

theorem Flow.hand_eq_nil (h : Flow s) (hplay : s.playState ≠ .playing) : s.parser.hand = [] :=
  (live_eq_nil.mp (h.before hplay).1).1

/-- The packet comes from the tail of the pool, or it is a new one. -/
theorem acquire_cases {malloc : Option Addr} {t : State} {packet : Addr}
    (h : acquireAvPacket s malloc = some (t, packet)) : ∃ pool allocated,
      ((∃ l, s.pool = l ++ [packet] ∧ pool = listRemove (l ++ [packet]) packet) ∧
          allocated = s.allocated ∨
        pool = s.pool ∧ packet ∉ s.allocated ∧ allocated = packet :: s.allocated) ∧
      t = { s with
        pool := pool
        allocated := allocated
        turn := Function.update s.turn packet s.turns
        turns := s.turns + 1 } := by
  unfold acquireAvPacket at h
  dsimp only at h
  split at h
  · rename_i htail
    cases h
    obtain ⟨l, hl⟩ := listTail_eq_some.mp htail
    exact ⟨_, _, Or.inl ⟨⟨l, hl, congrArg (listRemove · packet) hl⟩, rfl⟩, rfl⟩
  · split at h
    · cases h
    · rename_i hfresh
      cases h
      exact ⟨_, _, Or.inr ⟨rfl, hfresh, rfl⟩, rfl⟩
  · cases h

theorem audioDec_le_of_runs {side : Side} (h : s.runs side) : .audioDec ≤ s.playState := by
  cases side with
  | audio => exact h
  | video => exact Nat.le_trans (by decide) h.1

theorem Flow.of_opens (h : Flow s) {streams : List AVStream} {a v : Int} {pipe : Side → Pipe}
    {checkpoint : Nat} {pc : ParserPc} (hpc : s.parser = .opening)
    (hpipe : ∀ side, (s.pipe side).Opened (pipe side))
    (hto : pc = .exiting ∧ checkpoint = s.checkpoint ∨
      pc = .loop ∧ checkpoint = s.checkpoint + 1) :
    Flow { s with
      streams := streams, audioStreamIndex := a, videoStreamIndex := v, pipe := pipe
      checkpoint := checkpoint, parser := pc } := by
  have hearly := h.opened (Or.inr hpc)
  have hplay : s.playState ≠ .playing := by
    intro hplaying
    rw [hplaying] at hearly
    exact hearly (by decide)
  obtain ⟨-, hlive, hcontrol⟩ := live_eq_nil.mp (h.before hplay).1
  have hidle : ∀ side, (pipe side).decoder = .idle := fun side =>
    (hpipe side).1.trans (h.workers side fun hruns => hearly (audioDec_le_of_runs hruns))
  have hitems : ∀ side, (pipe side).items = [] := by
    intro side
    rcases (hpipe side).2.2 with hsame | hnew
    · rw [Pipe.items, hsame]
      exact (hlive side).1
    · rw [Pipe.items, hnew]
      rfl
  have hreturned : s.parser ≠ .returned := by
    rw [hpc]
    nofun
  have hnew : pc = .exiting ∨ pc = .loop := hto.imp And.left And.left
  constructor
  · exact fun side _ => hidle side
  · rintro (hidle | hopening) <;> rcases hnew with rfl | rfl <;> contradiction
  · intro side packet hdecoding
    rw [hidle side] at hdecoding
    cases hdecoding
  · intro side _
    show (pipe side).Away
    rw [Pipe.Away, hidle side]
    trivial
  · intro side hwaits
    show (pipe side).checkpoint ≠ 0
    rw [(hpipe side).2.1]
    exact h.waits side hwaits
  · refine fun _ => ⟨live_eq_nil.mpr ⟨?_, fun side => ⟨hitems side, ?_⟩, hcontrol⟩, ?_⟩
    · rcases hnew with rfl | rfl <;> rfl
    · show (pipe side).decoder.hand = []
      rw [hidle side]
      rfl
    · rcases hnew with rfl | rfl <;> nofun
  · intro _
    have hheld := h.held hplay
    rcases hto with ⟨rfl, rfl⟩ | ⟨rfl, rfl⟩
    · exact Nat.le_trans (Nat.le_add_right _ _) hheld
    · exact Nat.succ_le_succ (Nat.le_trans (Nat.le_add_right _ _) hheld)
  · exact h.flushes
  · exact h.busy
  · exact fun hexit => absurd (h.exits hexit) hreturned
  · exact fun side _ => hitems side
  · refine fun _ => ⟨hitems .video, fun packet => ?_⟩
    rcases hnew with rfl | rfl <;> nofun

/-- What holds of the new pipe and of the other one as it was holds of every pipe. -/
theorem setPipe_forall {P : Side → Pipe → Prop} {side : Side} {p : Pipe} (hside : P side p)
    (hrest : ∀ i, P i (s.pipe i)) (i : Side) : P i ((s.setPipe side p).pipe i) := by
  by_cases hi : i = side
  · subst hi
    rw [setPipe_self]
    exact hside
  · rw [setPipe_of_ne s p hi]
    exact hrest i

theorem Flow.of_put (h : Flow s) {side : Side} {packet : Addr} {l : List Addr}
    (hpc : s.parser = .putting side packet) (hq : (s.pipe side).queue = some l) :
    Flow { s.setQueue side (some (packet :: l)) with parser := .loop } := by
  have hplay : s.playState = .playing := by
    by_contra hplay
    have hhand := h.hand_eq_nil hplay
    rw [hpc] at hhand
    cases hhand
  have hexits : ¬s.control.exits = true := by
    intro hexit
    have hreturned := h.exits hexit
    rw [hpc] at hreturned
    cases hreturned
  constructor
  · exact setPipe_forall (P := fun i p => ¬s.runs i → p.decoder = .idle) (h.workers side) h.workers
  · exact nofun
  · refine setPipe_forall (P := fun _ p => ∀ packet, p.decoder = .decoding (some packet) →
      ∃ l, p.items = l ++ [packet]) (fun oldest hdecoding => ?_) h.head
    obtain ⟨l', hl'⟩ := h.head side oldest hdecoding
    rw [Pipe.items, hq] at hl'
    exact ⟨packet :: l', congrArg (packet :: ·) hl'⟩
  · exact setPipe_forall (P := fun i p => s.control.rests i = true → p.Away) (h.rests side) h.rests
  · exact setPipe_forall (P := fun i p => s.control.waitsFor = some i → p.checkpoint ≠ 0)
      (h.waits side) h.waits
  · exact fun hne => absurd hplay hne
  · exact fun hne => absurd hplay hne
  · exact h.flushes
  · exact h.busy
  · exact fun hexit => absurd hexit hexits
  · exact fun side hdrained => absurd (ControlPc.exits_of_drained hdrained) hexits
  · intro hvideo
    obtain ⟨hitems, hnot⟩ := h.noVideo hvideo
    refine ⟨?_, nofun⟩
    cases side with
    | video => exact absurd hpc (hnot packet)
    | audio => exact hitems

theorem parser_flow {e : ParserEvent} (h : Flow s) (hstep : ParserStep s e out s') : Flow s' := by
  have hand {packet : Addr} (hhand : s.parser.hand = [packet]) (hplay : s.playState ≠ .playing) :
      False := by
    rw [h.hand_eq_nil hplay] at hhand
    cases hhand
  cases hstep with
  | openFails hpc | quits hpc | lost hpc _ | exit hpc =>
    refine h.of_parser ⟨nofun, nofun⟩ (fun _ => ⟨rfl, nofun, Nat.zero_le _⟩) ?_ (fun _ _ => nofun)
    rw [hpc]
    nofun
  | opens hpc hpipe hto => exact h.of_opens hpc hpipe hto
  | halts hpc _ =>
    refine h.of_parser ⟨nofun, nofun⟩ (fun _ => ⟨rfl, nofun, ?_⟩) ?_ (fun _ _ => nofun)
    · rw [hpc]
      exact Nat.le_refl _
    · rw [hpc]
      nofun
  | passes hpc hfree =>
    refine h.of_parser ⟨nofun, nofun⟩ (fun hplay => ?_) ?_ (fun _ _ => nofun)
    · -- until the player plays it has not let the parser go
      have hheld := h.held hplay
      rw [hfree] at hheld
      rcases hpc with hpc | hpc <;> rw [hpc] at hheld <;> cases hheld
    · rcases hpc with hpc | hpc <;> rw [hpc] <;> nofun
  | acquire hpc hacquire =>
    obtain ⟨pool, allocated, -, rfl⟩ := acquire_cases hacquire
    refine h.of_parser ⟨nofun, nofun⟩ (fun hplay => absurd hpc (h.before hplay).2) ?_
      (fun _ _ => nofun)
    rw [hpc]
    nofun
  | route hpc hto =>
    refine h.of_parser ?_ (fun hplay => (hand (by rw [hpc]; rfl) hplay).elim) ?_ ?_
    · rcases hto with ⟨side, rfl, -⟩ | rfl <;> exact ⟨nofun, nofun⟩
    · rw [hpc]
      nofun
    · intro hnone packet hputting
      rcases hto with ⟨side, rfl, hvideo⟩ | rfl
      · cases hputting
        exact hvideo rfl hnone
      · cases hputting
  | put hpc hq => exact h.of_put hpc hq
  | again => exact h
  | refused hpc =>
    refine h.of_parser ⟨nofun, nofun⟩ (fun hplay => (hand (by rw [hpc]; rfl) hplay).elim) ?_
      (fun _ _ => nofun)
    rw [hpc]
    nofun
  | release hpc hto =>
    refine h.of_parser ?_ (fun hplay => (hand (by rw [hpc]; rfl) hplay).elim) ?_ ?_
    · rcases hto with rfl | rfl <;> exact ⟨nofun, nofun⟩
    · rw [hpc]
      nofun
    · rcases hto with rfl | rfl <;> exact fun _ _ => nofun

/-! ## The decoders -/

theorem Flow.of_decoder (h : Flow s) {side : Side} {p : Pipe} {pool : List Addr}
    (hstarted : (s.pipe side).decoder ≠ .idle)
    (hcheckpoint : p.checkpoint = (s.pipe side).checkpoint)
    (hhead : ∀ packet, p.decoder = .decoding (some packet) → ∃ l, p.items = l ++ [packet])
    (haway : (s.pipe side).Away → p.Away)
    (hempty : (s.pipe side).items = [] → p.items = [])
    (hhand : (s.pipe side).items = [] → (s.pipe side).decoder.hand = [] → p.decoder.hand = []) :
    Flow { s.setPipe side p with pool := pool } where
  workers := setPipe_forall (P := fun i p => ¬s.runs i → p.decoder = .idle)
    (fun hruns => absurd (h.workers side hruns) hstarted) h.workers
  opened := h.opened
  head := setPipe_forall (P := fun _ p => ∀ packet, p.decoder = .decoding (some packet) →
    ∃ l, p.items = l ++ [packet]) hhead h.head
  rests := setPipe_forall (P := fun i p => s.control.rests i = true → p.Away)
    (fun hrests => haway (h.rests side hrests)) h.rests
  waits := setPipe_forall (P := fun i p => s.control.waitsFor = some i → p.checkpoint ≠ 0)
    (fun hwaits => by
      rw [hcheckpoint]
      exact h.waits side hwaits) h.waits
  before hplay := by
    obtain ⟨hlive, hacquiring⟩ := h.before hplay
    obtain ⟨hparser, hpipe, hcontrol⟩ := live_eq_nil.mp hlive
    refine ⟨live_eq_nil.mpr ⟨hparser, ?_, hcontrol⟩, hacquiring⟩
    obtain ⟨hitems, hnone⟩ := hpipe side
    exact setPipe_forall (P := fun _ p => p.items = [] ∧ p.decoder.hand = [])
      ⟨hempty hitems, hhand hitems hnone⟩ hpipe
  held := h.held
  flushes := h.flushes
  busy := h.busy
  exits := h.exits
  drained := setPipe_forall (P := fun i p => s.control.drained i = true → p.items = [])
    (fun hdrained => hempty (h.drained side hdrained)) h.drained
  noVideo hvideo := by
    obtain ⟨hitems, hputting⟩ := h.noVideo hvideo
    refine ⟨?_, hputting⟩
    cases side with
    | video =>
      show ((s.setPipe .video p).pipe .video).items = []
      rw [setPipe_self]
      exact hempty hitems
    | audio => exact hitems

theorem DecoderPc.Moves.not_idle {n : Nat} {pc pc' : DecoderPc} (h : pc.Moves n pc') :
    pc ≠ .idle := by
  cases h <;> nofun

theorem DecoderPc.Moves.not_decoding {n : Nat} {pc pc' : DecoderPc} (h : pc.Moves n pc')
    (packet : Addr) : pc' ≠ .decoding (some packet) := by
  cases h <;> nofun

theorem DecoderPc.Moves.hand {n : Nat} {pc pc' : DecoderPc} (h : pc.Moves n pc') :
    pc.hand = [] ∧ pc'.hand = [] := by
  cases h <;> exact ⟨rfl, rfl⟩

theorem DecoderPc.Moves.away {p : Pipe} {pc : DecoderPc} (h : p.decoder.Moves p.checkpoint pc)
    (haway : p.Away) : { p with decoder := pc }.Away := by
  obtain ⟨queue, checkpoint, decoder⟩ := p
  cases h with
  | ready | halts => exact haway
  | startFails | peekFails | decodeFails | missing => trivial
  | passes hfree | leaves hfree => exact absurd hfree haway
  | left | again | noPacket | skip => exact haway.elim

theorem decoder_flow {side : Side} {e : DecoderEvent} (h : Flow s)
    (hstep : DecoderStep s side e out s') : Flow s' := by
  cases hstep with
  | moves hmove =>
    refine h.of_decoder hmove.not_idle rfl ?_ hmove.away id fun _ _ => hmove.hand.2
    exact fun packet hdecoding => absurd hdecoding (hmove.not_decoding packet)
  | peek hpc hq =>
    refine h.of_decoder ?_ rfl ?_ ?_ id fun _ _ => rfl
    · rw [hpc]
      nofun
    · intro packet hdecoding
      cases hdecoding
      exact ⟨_, congrArg (Option.getD · []) hq⟩
    · rw [Pipe.Away, hpc]
      exact False.elim
  | @get packet q l hpc hq =>
    have hitems : (s.pipe side).items = l ++ [q] := congrArg (Option.getD · []) hq
    have hsome : (s.pipe side).items ≠ [] := by
      rw [hitems]
      exact List.append_ne_nil_of_right_ne_nil l (by nofun)
    refine h.of_decoder ?_ rfl ?_ ?_ (fun hnone => absurd hnone hsome)
      fun hnone => absurd hnone hsome
    · rw [hpc]
      nofun
    · intro packet hdecoding
      dsimp only at hdecoding
      split at hdecoding <;> cases hdecoding
    · rw [Pipe.Away, hpc]
      exact False.elim
  | release hpc =>
    refine h.of_decoder ?_ rfl nofun ?_ id fun _ _ => rfl
    · rw [hpc]
      nofun
    · rw [Pipe.Away, hpc]
      exact False.elim

end Mediabox.PlayerPackets
