import Mediabox.Lib.Circulation
import Mediabox.PlayerFlowControl

/-!
# The packet pool of the player

Every packet that is acquired goes back to the pool once, unless `av_read_frame` fails: then
`avbox_player_stream_parse` leaves its loop with the packet in its hands.  `Counted` keeps the
account of every use of a packet, `conserved_iff_no_failure` is the result, and `packet_lost` is a
file that is played to its end.
-/

set_option autoImplicit false

namespace Mediabox.PlayerPackets

open Transition Circulation

/-- The uses that were released, in order. -/
def released (tr : List (Event × Outcome)) : List Nat :=
  tr.filterMap fun a => match a.2 with
    | .released turn => some turn
    | _ => none

/-- The uses that were lost, in order. -/
def lost (tr : List (Event × Outcome)) : List Nat :=
  tr.filterMap fun a => match a.2 with
    | .lost turn => some turn
    | _ => none

/-- Every use so far was released, was lost, or is under way. -/
def Counted (tr : List (Event × Outcome)) (s : State) : Prop :=
  Accounted s.pool s.live s.allocated s.turn s.turns (released tr) (lost tr)

variable {s s' : State} {out : Outcome} {tr : List (Event × Outcome)} {e : Event}

/-! ## What a step does to the account -/

/-- What `acquire_av_packet` keeps of the packets. -/
def State.books (s : State) : List Addr × List Addr × (Addr → Nat) × Nat :=
  (s.pool, s.allocated, s.turn, s.turns)

theorem Counted.moves (h : Counted tr s) (hbooks : s'.books = s.books)
    (hlive : s'.live.Perm s.live) : Counted (tr ++ [(e, .done)]) s' := by
  simp only [State.books, Prod.mk.injEq] at hbooks
  obtain ⟨hpool, hallocated, hturn, hturns⟩ := hbooks
  unfold Counted released lost
  rw [List.filterMap_append, List.filterMap_append, hpool, hallocated, hturn, hturns]
  simp only [List.filterMap_cons, List.filterMap_nil, List.append_nil]
  exact h.perm hlive

/-- The packets stay where they are. -/
structure Still (s s' : State) : Prop where
  books : s'.books = s.books
  parser : s'.parser.hand = s.parser.hand
  pipe : ∀ side, (s'.pipe side).live = (s.pipe side).live
  control : s'.control.hand = s.control.hand

theorem Pipe.Same.live {p p' : Pipe} (h : p.Same p') : p'.live = p.live := by
  rw [Pipe.live, Pipe.live, h.items, h.2]

theorem Still.live (h : Still s s') : s'.live = s.live := by
  rw [State.live, State.live, h.parser, h.control, h.pipe .video, h.pipe .audio]

theorem Counted.still (h : Counted tr s) (hstill : Still s s') :
    Counted (tr ++ [(e, .done)]) s' :=
  h.moves hstill.books (List.Perm.of_eq hstill.live)

/-- Before the player plays there is nothing that could move. -/
theorem Counted.early (h : Counted tr s) (hflow : Flow s) (hflow' : Flow s')
    (hplay : s.playState ≠ .playing) (hplay' : s'.playState ≠ .playing)
    (hbooks : s'.books = s.books) : Counted (tr ++ [(e, .done)]) s' := by
  refine h.moves hbooks (List.Perm.of_eq ?_)
  rw [(hflow.before hplay).1, (hflow'.before hplay').1]

theorem Counted.releases (h : Counted tr s) {packet : Addr} (hpool : s'.pool = packet :: s.pool)
    (hallocated : s'.allocated = s.allocated) (hturn : s'.turn = s.turn)
    (hturns : s'.turns = s.turns) (hlive : s.live.Perm (packet :: s'.live)) :
    Counted (tr ++ [(e, .released (s.turn packet))]) s' := by
  unfold Counted released lost
  rw [List.filterMap_append, List.filterMap_append, hpool, hallocated, hturn, hturns]
  simp only [List.filterMap_cons, List.filterMap_nil, List.append_nil]
  exact h.release hlive

theorem Counted.loses (h : Counted tr s) {packet : Addr} (hbooks : s'.books = s.books)
    (hlive : s.live.Perm (packet :: s'.live)) :
    Counted (tr ++ [(e, .lost (s.turn packet))]) s' := by
  simp only [State.books, Prod.mk.injEq] at hbooks
  obtain ⟨hpool, hallocated, hturn, hturns⟩ := hbooks
  unfold Counted released lost
  rw [List.filterMap_append, List.filterMap_append, hpool, hallocated, hturn, hturns]
  simp only [List.filterMap_cons, List.filterMap_nil, List.append_nil]
  exact h.lose hlive

/-- The rest of a state stays when the packets of one side and of the two other threads move. -/
theorem live_perm (gone : List Addr) (side : Side)
    (hrest : ∀ i, i ≠ side → s'.pipe i = s.pipe i)
    (hside : (s.parser.hand ++ (s.pipe side).live ++ s.control.hand).Perm
      (gone ++ (s'.parser.hand ++ (s'.pipe side).live ++ s'.control.hand))) :
    s.live.Perm (gone ++ s'.live) := by
  refine List.perm_iff_count.mpr fun x => ?_
  have hcount := List.perm_iff_count.mp hside x
  unfold State.live
  simp only [List.count_append] at hcount ⊢
  cases side with
  | video =>
    rw [hrest .audio nofun]
    omega
  | audio =>
    rw [hrest .video nofun]
    omega

/-! ## The steps of the threads -/

theorem acquire_counted {malloc : Option Addr} {t : State} {packet : Addr} {pc : ParserPc}
    (h : Counted tr s) (hpc : s.parser.hand = []) (hto : pc.hand = [packet])
    (hacquire : acquireAvPacket s malloc = some (t, packet)) {turn : Nat} :
    Counted (tr ++ [(e, .acquired turn)]) { t with parser := pc } := by
  obtain ⟨pool, allocated, hfrom, rfl⟩ := acquire_cases hacquire
  have htaken : Taken s.pool s.allocated packet pool allocated := by
    rcases hfrom with ⟨⟨l, hl, hpool⟩, hsame⟩ | hnew
    · have hnodup := (List.nodup_append.mp h.nodup).1
      rw [hl] at hnodup
      rw [listRemove_tail hnodup] at hpool
      rw [hpool]
      exact Or.inl ⟨hl, hsame⟩
    · exact Or.inr hnew
  unfold Counted released lost
  rw [List.filterMap_append, List.filterMap_append]
  simp only [List.filterMap_cons, List.filterMap_nil, List.append_nil]
  refine h.take htaken (List.Perm.of_eq ?_) (Function.update_self _ _ _)
    fun y hy => Function.update_of_ne hy _ _
  unfold State.live
  rw [hpc]
  dsimp only
  rw [hto]
  rfl

theorem parser_counted {e : ParserEvent} (h : Counted tr s) (hflow : Flow s) (hflow' : Flow s')
    (hstep : ParserStep s e out s') : Counted (tr ++ [(Event.parser e, out)]) s' := by
  have hsame : ∀ side, (s.pipe side).live = (s.pipe side).live := fun _ => rfl
  cases hstep with
  | openFails hpc | quits hpc | halts hpc _ | refused hpc | exit hpc =>
    exact h.still ⟨rfl, by rw [hpc]; rfl, hsame, rfl⟩
  | opens hpc _ _ =>
    have hplay : s.playState ≠ .playing := fun hplaying =>
      hflow.opened (Or.inr hpc) (by rw [hplaying]; decide)
    exact h.early hflow hflow' hplay hplay rfl
  | passes hpc _ =>
    refine h.still ⟨rfl, ?_, hsame, rfl⟩
    rcases hpc with hpc | hpc <;> rw [hpc] <;> rfl
  | acquire hpc hacquire => exact acquire_counted h (by rw [hpc]; rfl) rfl hacquire
  | route hpc hto =>
    refine h.still ⟨rfl, ?_, hsame, rfl⟩
    rcases hto with ⟨side, rfl, -⟩ | rfl <;> rw [hpc] <;> rfl
  | lost hpc _ =>
    refine h.loses rfl (List.Perm.of_eq ?_)
    unfold State.live
    rw [hpc]
    rfl
  | @put side packet l hpc hq =>
    refine h.moves rfl (live_perm [] side (fun i hi => (setPipe_of_ne s _ hi).symm) ?_)
    have hlive : ((s.setQueue side (some (packet :: l))).pipe side).live =
        packet :: (s.pipe side).live := by
      rw [setQueue_self, Pipe.live, Pipe.live, Pipe.items, Pipe.items, hq]
      rfl
    dsimp only
    rw [hlive, hpc]
    exact List.Perm.refl _
  | again hpc => exact h.still ⟨rfl, rfl, hsame, rfl⟩
  | release hpc hto =>
    refine h.releases rfl rfl rfl rfl (List.Perm.of_eq ?_)
    unfold State.live
    rw [hpc]
    rcases hto with rfl | rfl <;> rfl

theorem decoder_counted {side : Side} {e : DecoderEvent} (h : Counted tr s) (hflow : Flow s)
    (hstep : DecoderStep s side e out s') : Counted (tr ++ [(Event.decoder side e, out)]) s' := by
  have hpipes {p : Pipe} (hlive : p.live = (s.pipe side).live) :
      Still s (s.setPipe side p) :=
    ⟨rfl, rfl, setPipe_forall (P := fun i p => p.live = (s.pipe i).live) hlive fun _ => rfl, rfl⟩
  cases hstep with
  | moves hmove =>
    refine h.still (hpipes (congrArg ((s.pipe side).items ++ ·) ?_))
    exact hmove.hand.2.trans hmove.hand.1.symm
  | peek hpc _ =>
    refine h.still (hpipes (congrArg ((s.pipe side).items ++ ·) ?_))
    rw [hpc]
    rfl
  | @get packet q l hpc hq =>
    -- nobody else has taken the packet since it was peeked
    have hitems : (s.pipe side).items = l ++ [q] := congrArg (Option.getD · []) hq
    obtain ⟨l', hl'⟩ := hflow.head side packet hpc
    obtain ⟨-, hsame⟩ := List.append_inj' (hitems.symm.trans hl') rfl
    cases hsame
    refine h.still (hpipes ?_)
    rw [if_pos rfl, Pipe.live, Pipe.live, hitems, hpc]
    exact (List.append_nil _).symm
  | @release packet hpc =>
    refine h.releases rfl rfl rfl rfl
      (live_perm [packet] side (fun i hi => setPipe_of_ne _ _ hi) ?_)
    have hlive : (((releaseAvPacket s packet).setDecoder side .loop).pipe side).live =
        (s.pipe side).items := by
      rw [setDecoder_self]
      exact List.append_nil _
    have hbefore : (s.pipe side).live = (s.pipe side).items ++ [packet] := by
      rw [Pipe.live, hpc]
      rfl
    rw [hlive, hbefore]
    show (s.parser.hand ++ ((s.pipe side).items ++ [packet]) ++ s.control.hand).Perm
      ([packet] ++ (s.parser.hand ++ (s.pipe side).items ++ s.control.hand))
    refine List.perm_iff_count.mpr fun x => ?_
    simp only [List.count_append]
    omega

theorem checkpoint_live (side : Side) (n : Nat) (i : Side) :
    ((s.setPipe side { s.pipe side with checkpoint := n }).pipe i).live = (s.pipe i).live :=
  setPipe_forall (P := fun i p => p.live = (s.pipe i).live)
    (p := { s.pipe side with checkpoint := n }) rfl (fun _ => rfl) i

theorem haltAudio_still {caller : Caller} (hhand : s.control.hand = []) :
    Still s (haltAudio s caller) := by
  unfold haltAudio
  split
  · exact ⟨rfl, rfl, checkpoint_live .audio _, hhand.symm⟩
  · exact ⟨rfl, rfl, fun _ => rfl, hhand.symm⟩

theorem drop_still {caller : Caller} (hhand : s.control.hand = []) : Still s (drop s caller) := by
  unfold drop
  dsimp only
  split
  · exact ⟨rfl, rfl, checkpoint_live .video _, hhand.symm⟩
  · have hstill : Still { s with flushing := true, checkpoint := s.checkpoint + 1 }
        (haltAudio { s with flushing := true, checkpoint := s.checkpoint + 1 } caller) :=
      haltAudio_still hhand
    exact ⟨hstill.books, hstill.parser, hstill.pipe, hstill.control⟩

theorem live_of_joins (hflow : Flow s) (hpc : s.control = .joining) (hjoins : s.joins) :
    s.live = [] := by
  obtain ⟨hparser, hvideo, haudio⟩ := hjoins
  refine live_eq_nil.mpr ⟨by rw [hparser]; rfl, fun side => ⟨?_, ?_⟩, by rw [hpc]; rfl⟩
  · exact hflow.drained side (by rw [hpc]; rfl)
  · by_cases hruns : s.runs side
    · cases side with
      | video => rw [hvideo hruns]; rfl
      | audio => rcases haudio hruns with hpc | hpc <;> rw [hpc] <;> rfl
    · rw [hflow.workers side hruns]
      rfl

theorem control_counted {e : ControlEvent} (h : Counted tr s) (hflow : Flow s) (hflow' : Flow s')
    (hstep : ControlStep s e out s') : Counted (tr ++ [(Event.control e, out)]) s' := by
  have hsame : ∀ side, (s.pipe side).live = (s.pipe side).live := fun _ => rfl
  cases hstep with
  | play hpc hready =>
    exact h.early hflow hflow' (by rw [hready]; rintro ⟨⟩) (by rintro ⟨⟩) rfl
  | streamReady hpc hstream _ _ =>
    exact h.early hflow hflow' (by rw [hstream]; rintro ⟨⟩) (by rintro ⟨⟩) rfl
  | audioDecReady hpc haudio _ =>
    exact h.early hflow hflow' (by rw [haudio]; rintro ⟨⟩) (by rintro ⟨⟩) rfl
  | outReady hpc _ | playing hpc _ | sets hpc => exact h.still ⟨rfl, rfl, hsame, rfl⟩
  | flush hpc _ _ | unstarted hpc _ _ | audioHalted hpc _ | videoDropped hpc _ | framesDropped hpc
  | haltedAgain hpc _ | delay hpc => exact h.still ⟨rfl, rfl, hsame, by rw [hpc]; rfl⟩
  | seek hpc _ =>
    have hstill : Still { s with checkpoint := s.checkpoint + 1 }
        (drop { s with checkpoint := s.checkpoint + 1 } .seek) := drop_still (by rw [hpc]; rfl)
    exact h.still ⟨hstill.books, hstill.parser, hstill.pipe, hstill.control⟩
  | stopped hpc _ _ => exact h.still (drop_still (by rw [hpc]; rfl))
  | videoHalted hpc _ => exact h.still (haltAudio_still (by rw [hpc]; rfl))
  | @take caller side packet l hpc hq =>
    refine h.moves rfl (live_perm [] side (fun i hi => (setPipe_of_ne s _ hi).symm) ?_)
    have hlive : ((s.setQueue side (some l)).pipe side).live =
        l ++ (s.pipe side).decoder.hand := by
      rw [setQueue_self]
      rfl
    have hbefore : (s.pipe side).live = l ++ [packet] ++ (s.pipe side).decoder.hand := by
      rw [Pipe.live, Pipe.items, hq]
      rfl
    dsimp only
    rw [hlive, hbefore, hpc]
    show (s.parser.hand ++ (l ++ (s.pipe side).decoder.hand) ++ [packet]).Perm
      ([] ++ (s.parser.hand ++ (l ++ [packet] ++ (s.pipe side).decoder.hand) ++ []))
    refine List.perm_iff_count.mpr fun x => ?_
    simp only [List.count_append, List.count_nil]
    omega
  | release hpc =>
    refine h.releases rfl rfl rfl rfl ?_
    unfold State.live
    rw [hpc]
    show (_ ++ [_]).Perm (_ :: (_ ++ []))
    rw [List.append_nil]
    exact List.perm_append_singleton _ _
  | letVideo hpc _ | haltVideo hpc | letAudio hpc _ | haltAudio hpc =>
    exact h.still ⟨rfl, rfl, checkpoint_live _ _, by rw [hpc]; rfl⟩
  | @dropped caller t hpc _ hend =>
    obtain ⟨pipe, hpipe, rfl⟩ := endDrop_cases hend
    refine h.still ⟨rfl, rfl, fun side => (hpipe side).live, ?_⟩
    rw [hpc]
    cases caller <;> rfl
  | @flushed exit hpc _ =>
    refine h.still ⟨rfl, rfl, hsame, ?_⟩
    rw [hpc]
    cases exit <;> rfl
  | join hpc hjoins =>
    refine h.moves rfl (List.Perm.of_eq ?_)
    exact (hflow'.before (by rintro ⟨⟩)).1.trans (live_of_joins hflow hpc hjoins).symm

theorem step_counted {e : Event} (h : Counted tr s) (hflow : Flow s) (hsees : Sees s e)
    (hstep : step s e = some (s', out)) : Counted (tr ++ [(e, out)]) s' := by
  have hflow' := step_flow hflow hsees hstep
  cases step_cases hstep with
  | parser hparser => exact parser_counted h hflow hflow' hparser
  | decoder hdecoder => exact decoder_counted h hflow hdecoder
  | control hcontrol => exact control_counted h hflow hflow' hcontrol

/-! ## A session -/

theorem run_counted (h : Run (Guarded step Sees) init tr s) : Flow s ∧ Counted tr s :=
  h.history (P := fun tr s => Flow s ∧ Counted tr s) ⟨init_flow, accounted_nil⟩
    fun _ _ _ _ ⟨hflow, hcounted⟩ ⟨hsees, hstep⟩ =>
      ⟨step_flow hflow hsees hstep, step_counted hcounted hflow hsees hstep⟩

/-- `av_read_frame` gives no packet. -/
def Event.Fails (e : Event) : Prop := e = .parser (.read .eof) ∨ e = .parser (.read .error)

instance (e : Event) : Decidable e.Fails := inferInstanceAs (Decidable (_ ∨ _))

theorem step_lost_iff {e : Event} (h : step s e = some (s', out)) :
    (∃ turn, out = .lost turn) ↔ e.Fails := by
  cases step_cases h with
  | parser hparser =>
    cases hparser with
    | lost _ hr =>
      refine ⟨fun _ => ?_, fun _ => ⟨_, rfl⟩⟩
      rcases hr with rfl | rfl
      · exact Or.inl rfl
      · exact Or.inr rfl
    | _ => exact ⟨nofun, by rintro (hfails | hfails) <;> cases hfails⟩
  | decoder hdecoder =>
    refine ⟨?_, by rintro (hfails | hfails) <;> cases hfails⟩
    cases hdecoder <;> nofun
  | control hcontrol =>
    refine ⟨?_, by rintro (hfails | hfails) <;> cases hfails⟩
    cases hcontrol <;> nofun

theorem lost_eq_nil_iff (tr : List (Event × Outcome)) :
    lost tr = [] ↔ ∀ a ∈ tr, ¬∃ turn, a.2 = .lost turn := by
  unfold lost
  rw [List.filterMap_eq_nil_iff]
  refine forall₂_congr fun a _ => ?_
  obtain ⟨e, out⟩ := a
  cases out <;> simp

theorem run_lost_iff {s₀ : State} (h : Run (Guarded step Sees) s₀ tr s) :
    lost tr = [] ↔ ∀ a ∈ tr, ¬a.1.Fails := by
  rw [lost_eq_nil_iff]
  have hlabels : ∀ a ∈ tr, (∃ turn, a.2 = .lost turn) ↔ a.1.Fails := by
    refine h.history (P := fun tr _ => ∀ a ∈ tr, (∃ turn, a.2 = .lost turn) ↔ a.1.Fails) nofun ?_
    intro tr t a u hpast ⟨_, hstep⟩ b hb
    rcases List.mem_append.mp hb with hb | hb
    · exact hpast b hb
    · rw [List.mem_singleton.mp hb]
      exact step_lost_iff hstep
  exact forall₂_congr fun a ha => not_congr (hlabels a ha)

/-- **Conservation of packets**: from one moment when the player is ready to another one, every
    packet that was acquired was released once exactly if no call of `av_read_frame` failed. -/
theorem conserved_iff_no_failure {s₀ s : State} {tr₀ tr : List (Event × Outcome)}
    (h₀ : Run (Guarded step Sees) init tr₀ s₀) (hready₀ : s₀.playState = .ready)
    (h : Run (Guarded step Sees) s₀ tr s) (hready : s.playState = .ready) :
    (∀ i, s₀.turns ≤ i → i < s.turns → (released tr).count i = 1) ↔ ∀ a ∈ tr, ¬a.1.Fails := by
  rw [← run_lost_iff h]
  have hnothing {s : State} (hflow : Flow s) (hready : s.playState = .ready) : s.live = [] :=
    (hflow.before (by rw [hready]; nofun)).1
  obtain ⟨hflow₀, hcounted₀⟩ := run_counted h₀
  obtain ⟨hflow, hcounted⟩ := run_counted (h₀.append h)
  unfold Counted at hcounted₀ hcounted
  rw [hnothing hflow₀ hready₀] at hcounted₀
  rw [hnothing hflow hready, released, lost, List.filterMap_append, List.filterMap_append]
    at hcounted
  exact conserved_iff hcounted₀ hcounted

/-! ## Three sessions -/

/-- A file with an audio stream, a video stream and another audio stream starts to play. -/
def starts : List Event :=
  [.control .play, .parser (.opens [⟨true, 1⟩, ⟨false, 2⟩, ⟨true, 3⟩] 0 1 true true true),
    .parser .next, .control (.stage true), .decoder .audio .ready, .control (.stage true),
    .decoder .video .ready, .control (.stage true), .control (.stage true),
    .control (.stage true), .parser .next]

/-- The parser queues a packet of the video stream. -/
def queues (malloc : Option Addr) : List Event :=
  [.parser (.acquire malloc), .parser (.read (.packet 1)), .parser (.put .ok), .parser .next]

/-- A decoder takes a packet through. -/
def decodes (side : Side) : List Event :=
  [.decoder side .next, .decoder side (.peek .packet), .decoder side .get, .decoder side .release]

/-- A decoder that is not halted comes to its end. -/
def ends (side : Side) : List Event :=
  [.decoder side .next, .decoder side (.peek .fails)]

/-- The file is stopped: one packet was decoded, one is dropped, and one was of no use. -/
def stopped : List Event :=
  List.flatten [starts, queues (some 7), queues (some 8),
    [.parser (.acquire (some 9)), .parser (.read (.packet 2)), .parser .release, .control .quit,
      .control .stop, .parser .next, .parser .exit],
    decodes .video,
    [.control .streamExit, .decoder .video .next, .control .halted, .decoder .audio .next,
      .control .halted, .control .take, .control .release, .control .next, .control .next,
      .control .next],
    .decoder .video .next :: ends .video, .decoder .audio .next :: ends .audio, [.control .join]]

/-- The file is played to its end. -/
def played : List Event :=
  List.flatten [starts, queues (some 7),
    [.parser (.acquire (some 8)), .parser (.read .eof), .parser .exit], decodes .video,
    [.control .streamExit, .control .flushed], ends .video, ends .audio, [.control .join]]

theorem conserved_stopped :
    ∃ tr s, Run (Guarded step Sees) init tr s ∧ s.turns = 3 ∧
      ∀ i, init.turns ≤ i → i < s.turns → (released tr).count i = 1 := by
  obtain ⟨tr, s, hrun, hready, hturns, hreads⟩ := exists_run_of_guarded_exec step Sees init
    (fun tr s => s.playState = .ready ∧ s.turns = 3 ∧ ∀ a ∈ tr, ¬a.1.Fails) stopped
    (by decide +kernel)
  exact ⟨tr, s, hrun, hturns, (conserved_iff_no_failure .nil rfl hrun hready).mpr hreads⟩

/-- **A file that is played to its end**: the packet that was acquired for the last call of
    `av_read_frame` is not released. -/
theorem packet_lost :
    ∃ tr s, Run (Guarded step Sees) init tr s ∧ s.playState = .ready ∧
      ∃ i, init.turns ≤ i ∧ i < s.turns ∧ (released tr).count i = 0 := by
  obtain ⟨tr, s, hrun, hready, hturns, hlost⟩ := exists_run_of_guarded_exec step Sees init
    (fun tr s => s.playState = .ready ∧ s.turns = 2 ∧ (released tr).count 1 = 0) played
    (by decide +kernel)
  exact ⟨tr, s, hrun, hready, 1, Nat.zero_le _, hturns ▸ Nat.one_lt_two, hlost⟩

end Mediabox.PlayerPackets
