import Mediabox.AudioDecode

/-!
# Every frame of the audio decoder is released once

* `Move` / `step_move` — what a step of the stream does to the packets that are filled in: it
  releases one, fills one, or leaves them.
* `Ledger` / `run_ledger` — in every run, the releases of a frame and its places add up to one, plus
  one for each failed `avbox_queue_put`, less one for a call with nothing to write.
* `Sound` — the condition on one step: the call has something to write and its put does not fail.
* `released_once_iff` — exactly in the runs whose steps are all sound, every frame is released once
  or still on its way, and every failed call leaves `queued_frames` as it was.

`failed_put_releases_twice` is the run in which `malloc` fails for the queue node.
-/

set_option autoImplicit false

namespace Mediabox.AudioDecode

open Transition
open Audio (Addr State Placed)

/-! ## What a step of the stream does to the packets -/

section Stream

variable {s s' : State} {o : Audio.Outcome} {e : Audio.Event} {tr : List (Audio.Event × Audio.Outcome)}

/-- What one step of the stream can do to the packets that are filled in. -/
inductive Move (s s' : State) (e : Audio.Event) : Prop
  | keep (hrel : releases s e = none) (hlive : s'.live.Perm s.live)
      (htype : ∀ q, (s'.mem q).type = (s.mem q).type)
  | fillData (p : Addr) (hrel : releases s e = none) (hlive : s'.live.Perm (p :: s.live))
      (hp : p ∉ s.live) (hwriting : s'.writing = p :: s.writing)
      (hwrite : ∃ data n malloc, e = .writer (.write data n malloc))
      (hnew : (s'.mem p).type = .dataPacket)
      (htype : ∀ q, q ≠ p → (s'.mem q).type = (s.mem q).type)
  | fillClock (p : Addr) (hrel : releases s e = none) (hlive : s'.live.Perm (p :: s.live))
      (hp : p ∉ s.live) (hnew : (s'.mem p).type = .clockSet)
      (htype : ∀ q, q ≠ p → (s'.mem q).type = (s.mem q).type)
  | release (p : Addr) (hrel : releases s e = some p) (hlive : s.live.Perm (p :: s'.live))
      (htype : ∀ q, (s'.mem q).type = (s.mem q).type)

/-- A step that neither fills nor releases keeps the packets. -/
theorem perm_of_effect (h : Audio.Effect s s' o) (hcalls : s'.calls = s.calls)
    (hout : ∀ i, o ≠ .released i) : s'.live.Perm s.live := by
  cases h with
  | keep _ hlive => exact hlive
  | fill _ _ _ hnew =>
    rw [hcalls] at hnew
    omega
  | release p _ _ _ _ _ ho => exact absurd ho (hout _)

theorem put_not_quiet {p : Addr} {accepted : Bool}
    (h : Audio.stepWriter s (.put p accepted) = some (s', o)) : o.quiet = false := by
  simp only [Audio.stepWriter] at h
  split at h
  · cases accepted <;> cases h <;> rfl
  · split at h
    · cases accepted <;> cases h <;> rfl
    · cases h

theorem writer_move {e : Audio.WriterEvent} (hp : Placed tr s)
    (h : Audio.stepWriter s e = some (s', o)) : Move s s' (.writer e) := by
  have hcases := Audio.stepWriter_cases (List.nodup_append.mp hp.nodup).1 h
  have heffect := Audio.stepWriter_effect hcases
  cases hcases with
  | refused ho =>
    cases e with
    | write | setclock => exact .keep rfl (.refl _) fun _ => rfl
    | put p accepted =>
      rw [put_not_quiet h] at ho
      cases ho
  | @write data n malloc p pool allocated hfrom =>
    refine .fillData p rfl ?_ (hp.not_live hfrom) rfl ⟨_, _, _, rfl⟩ ?_ fun q hq => ?_
    · simp only [State.live, State.fillData, List.append_assoc]
      exact List.perm_middle
    · simp [State.fillData]
    · simp [State.fillData, hq]
  | @setclock value malloc p pool allocated hfrom =>
    refine .fillClock p rfl ?_ (hp.not_live hfrom) ?_ fun q hq => ?_
    · simp only [State.live, State.fillClock, List.append_assoc]
      rw [← List.append_assoc, ← List.append_assoc s.queue s.writing]
      exact List.perm_middle
    · simp [State.fillClock]
    · simp [State.fillClock, hq]
  | putData | putClock => exact .keep rfl (perm_of_effect heffect rfl (by simp)) fun _ => rfl
  | @loseData p hp =>
    have hperm := Audio.perm_erase_append (l := s.queue) hp
      (s.setting ++ s.output.hand ++ s.drop.hand)
    simp only [← List.append_assoc] at hperm
    exact .release p rfl hperm fun _ => rfl
  | @loseClock p hw hp =>
    have hperm := Audio.perm_erase_append (l := s.queue ++ s.writing) hp
      (s.output.hand ++ s.drop.hand)
    simp only [← List.append_assoc] at hperm
    exact .release p rfl hperm fun _ => rfl

theorem output_move {e : Audio.OutputEvent} (h : Audio.OutputStep s e s' o) (hrel : e ≠ .release) :
    Move s s' (.output e) := by
  have hnone : releases s (.output e) = none := by
    cases e <;> first | rfl | exact absurd rfl hrel
  have heffect := Audio.stepOutput_effect h
  cases h with
  | release => exact absurd rfl hrel
  | @writei p n k recovered =>
    refine .keep hnone (perm_of_effect heffect rfl (by simp)) fun q => ?_
    by_cases hq : q = p
    · subst hq
      simp [Audio.Packet.advance]
    · simp [hq]
  | peek | readData | readClock | resetClock | readSize | leave | account | spent | more | get
  | abort => exact .keep hnone (perm_of_effect heffect rfl (by simp)) fun _ => rfl

theorem drop_move {e : Audio.DropEvent} (h : Audio.DropStep s e s' o) : Move s s' (.drop e) := by
  have heffect := Audio.stepDrop_effect h
  cases h with
  | @release p hd =>
    refine .release p (by simp [releases, hd]) (List.perm_iff_count.mpr fun a => ?_) fun _ => rfl
    simp only [State.live, hd, Audio.Drop.hand, List.count_append, List.count_cons]
    omega
  | lock | countEmpty | countMore | take | loadData | loadClock | store | checkOk | checkFailed =>
    exact .keep rfl (perm_of_effect heffect rfl (by simp)) fun _ => rfl

/-- **What one step of the stream does to the packets that are filled in.** -/
theorem step_move (hp : Placed tr s) (h : Audio.step s e = some (s', o)) : Move s s' e := by
  cases e with
  | writer e => exact writer_move hp h
  | drop e => exact drop_move (Audio.stepDrop_cases h)
  | output e =>
    by_cases hrel : e = .release
    · subst hrel
      have hcases := Audio.stepOutput_cases h
      cases hcases with
      | @release p ho =>
        refine .release p (by simp [releases, ho]) (List.perm_iff_count.mpr fun a => ?_) fun _ => rfl
        simp only [State.live, ho, Audio.Output.hand, List.count_append, List.count_cons]
        omega
      | leave ho =>
        -- no way back to the top of the loop is called `release`
        rcases ho with ho | ⟨p, n, ho⟩ <;> simp [Audio.step, Audio.stepOutput, ho] at h
    · exact output_move (Audio.stepOutput_cases h) hrel

/-- Only the decoder touches the packets of its own calls. -/
theorem foreign_writing (hp : Placed tr s) (hf : foreign s e = true)
    (h : Audio.step s e = some (s', o)) : s'.writing = s.writing := by
  cases e with
  | writer e =>
    cases Audio.stepWriter_cases (List.nodup_append.mp hp.nodup).1 h with
    | refused | setclock | putClock | loseClock => rfl
    | write => cases hf
    | putData hq | loseData hq => exact absurd hq (by simpa [foreign] using hf)
  | output e => cases Audio.stepOutput_cases h <;> rfl
  | drop e => cases Audio.stepDrop_cases h <;> rfl

end Stream

/-! ## The handles of the packets -/

section Handles

variable {m m' : Player} {e : Audio.Event} {ns : List Note}
  {tr : List (Audio.Event × Audio.Outcome)}

/-- The handles of the packets that are filled in. -/
def Player.carried (m : Player) : List Nat := m.stream.live.filterMap m.carries

@[simp] theorem carried_decoder (m : Player) (d : Decoder) :
    Player.carried { m with decoder := d } = m.carried := rfl

theorem carries_congr {p : Addr} (htype : (m'.stream.mem p).type = (m.stream.mem p).type)
    (hhandle : m'.handle p = m.handle p) : m'.carries p = m.carries p := by
  unfold Player.carries
  rw [htype, hhandle]

theorem carried_congr {l : List Addr} (h : ∀ p ∈ l, m'.carries p = m.carries p) :
    l.filterMap m'.carries = l.filterMap m.carries :=
  List.filterMap_congr h

/-- `release_packet` calls back with the handle it finds, and clears it. -/
theorem releasePacket_spec (m : Player) (p : Addr) :
    (releasePacket m p).2 = (m.carries p).toList.map Note.callback ∧
      (releasePacket m p).1.stream = m.stream ∧ (releasePacket m p).1.decoder = m.decoder ∧
      (releasePacket m p).1.turns = m.turns ∧
      ∀ q, q ≠ p → (releasePacket m p).1.handle q = m.handle q := by
  unfold releasePacket
  cases hc : m.carries p with
  | none => exact ⟨rfl, rfl, rfl, rfl, fun _ _ => rfl⟩
  | some turn => exact ⟨rfl, rfl, rfl, rfl, fun q hq => Function.update_of_ne hq _ _⟩

/-- A step of the stream with its callbacks, from the packets it moves. -/
theorem stream_spec (h : stream m e = some (m', ns)) :
    (∃ o, Audio.step m.stream e = some (m'.stream, o)) ∧ m'.decoder = m.decoder ∧
      m'.turns = m.turns ∧
      ns = ((releases m.stream e).bind m.carries).toList.map Note.callback ∧
      ∀ q, releases m.stream e ≠ some q → m'.handle q = m.handle q := by
  unfold stream at h
  split at h
  · cases h
  · rename_i s o hstep
    cases hrel : releases m.stream e with
    | none =>
      rw [hrel] at h
      cases h
      exact ⟨⟨o, hstep⟩, rfl, rfl, rfl, fun _ _ => rfl⟩
    | some p =>
      rw [hrel] at h
      obtain ⟨hns, hs, hd, ht, hh⟩ := releasePacket_spec m p
      cases h
      exact ⟨⟨o, hstep⟩, hd, ht, hns, fun q hq => hh q fun hqp => hq (by rw [hqp])⟩

/-- **The callbacks of a step and the handles of the packets balance**, unless it is a write. -/
theorem stream_balance (hp : Placed tr m.stream) (hwrite : ∀ d n a, e ≠ .writer (.write d n a))
    (h : stream m e = some (m', ns)) (f : Nat) :
    ns.count (.callback f) + m'.carried.count f = m.carried.count f := by
  obtain ⟨⟨o, hstep⟩, -, -, hns, hhandle⟩ := stream_spec h
  cases step_move hp hstep with
  | keep hrel hlive htype =>
    have hsame : m'.stream.live.filterMap m'.carries = m'.stream.live.filterMap m.carries :=
      carried_congr fun q _ => carries_congr (htype q) (hhandle q (by rw [hrel]; simp))
    rw [hns, hrel, Player.carried, hsame, (hlive.filterMap m.carries).count_eq]
    simp [Player.carried]
  | fillData p hrel hlive hpl hwriting he =>
    obtain ⟨d, n, a, he⟩ := he
    exact absurd he (hwrite d n a)
  | fillClock p hrel hlive hpl hnew htype =>
    have hsame : m.stream.live.filterMap m'.carries = m.stream.live.filterMap m.carries :=
      carried_congr fun q hq =>
        carries_congr (htype q fun hqp => hpl (hqp ▸ hq)) (hhandle q (by rw [hrel]; simp))
    have hp' : m'.carries p = none := by simp [Player.carries, hnew]
    rw [hns, hrel, Player.carried, (hlive.filterMap m'.carries).count_eq,
      List.filterMap_cons_none hp', hsame]
    simp [Player.carried]
  | release p hrel hlive htype =>
    have hnd : (p :: m'.stream.live).Nodup :=
      hlive.nodup_iff.mp (List.nodup_append.mp hp.nodup).2.1
    have hsame : m'.stream.live.filterMap m'.carries = m'.stream.live.filterMap m.carries := by
      refine carried_congr fun q hq => carries_congr (htype q) (hhandle q ?_)
      rw [hrel]
      rintro ⟨⟩
      exact (List.nodup_cons.mp hnd).1 hq
    rw [hns, hrel, Player.carried, hsame, Player.carried, (hlive.filterMap m.carries).count_eq,
      List.filterMap_cons]
    cases hc : m.carries p with
    | none => simp [hc]
    | some t =>
      simp only [Option.bind_some, hc, Option.toList_some, List.map_cons, List.map_nil,
        List.count_cons, List.count_nil]
      simp only [beq_iff_eq, Note.callback.injEq]
      omega

theorem writing_live {s : State} {p : Addr} (h : p ∈ s.writing) : p ∈ s.live := by
  simp only [State.live, List.mem_append]
  exact Or.inl (Or.inl (Or.inl (Or.inr h)))

theorem stream_keeps_writing {p : Addr} (hp : Placed tr m.stream) (hf : foreign m.stream e = true)
    (h : stream m e = some (m', ns)) (hw : p ∈ m.stream.writing) :
    p ∈ m'.stream.writing ∧ m'.carries p = m.carries p := by
  obtain ⟨⟨o, hstep⟩, -, -, -, hhandle⟩ := stream_spec h
  have hw' : p ∈ m'.stream.writing := by
    rw [foreign_writing hp hf hstep]
    exact hw
  refine ⟨hw', ?_⟩
  cases step_move hp hstep with
  | keep hrel _ htype => exact carries_congr (htype p) (hhandle p (by rw [hrel]; simp))
  | fillData q hrel _ hq _ _ _ htype | fillClock q hrel _ hq _ htype =>
    have hne : p ≠ q := fun hpq => hq (hpq ▸ writing_live hw)
    exact carries_congr (htype p hne) (hhandle p (by rw [hrel]; simp))
  | release q hrel hlive htype =>
    have hnd : (q :: m'.stream.live).Nodup :=
      hlive.nodup_iff.mp (List.nodup_append.mp hp.nodup).2.1
    refine carries_congr (htype p) (hhandle p ?_)
    rw [hrel]
    rintro ⟨⟩
    exact (List.nodup_cons.mp hnd).1 (writing_live hw')

theorem stepWriter_write {s s' : State} {o : Audio.Outcome} {data : Int} {n : UInt64}
    {malloc : Option Addr} (hnd : s.pool.Nodup)
    (h : Audio.stepWriter s (.write data n malloc) = some (s', o)) :
    (n.toNat = 0 ∧ s' = s ∧ o = .returned 0) ∨
    (n.toNat ≠ 0 ∧ s' = s ∧ (o = .eagain ∨ o = .enomem)) ∨
    (n.toNat ≠ 0 ∧ o = .silent ∧ ∃ p pool allocated, Audio.Allocated s p pool allocated ∧
      s' = { s.fillData p data n.toNat with
        pool := pool, allocated := allocated, writing := p :: s.writing
        queuedFrames := Audio.int32 (s.queuedFrames + n.toNat) }) := by
  simp only [Audio.stepWriter] at h
  split at h
  · cases h
  · rename_i hmay
    split at h
    · rename_i hn
      cases h
      exact Or.inl ⟨hn, rfl, rfl⟩
    · rename_i hn
      split at h
      · cases h
        exact Or.inr (Or.inl ⟨hn, rfl, Or.inl rfl⟩)
      · split at h
        · rename_i t ha
          cases h
          exact Or.inr (Or.inl ⟨hn, Audio.allocPacket_none ha, Or.inr rfl⟩)
        · rename_i p t ha
          cases h
          obtain ⟨hfrom, ht⟩ := Audio.allocPacket_some hnd (by simpa using hmay) ha
          refine Or.inr (Or.inr ⟨hn, rfl, p, t.pool, t.allocated, hfrom, ?_⟩)
          rw [ht]
          rfl

/-- The section of a write that fills a packet. -/
structure Filled (m m' : Player) (frame : Frame) (p : Addr) : Prop where
  stream : ∃ e o, Audio.step m.stream e = some (m'.stream, o)
  writing : p ∈ m'.stream.writing
  carries : m'.carries p = some frame.turn
  carried : ∀ f, m'.carried.count f = m.carried.count f + if frame.turn = f then 1 else 0

/-- **The section of a write under `queue_lock`**: nothing to write, a failure that changes nothing,
    or a packet that carries the frame. -/
theorem write_spec {frame : Frame} {malloc : Option Addr} (hp : Placed tr m.stream)
    (hn : frame.nbSamples < 2 ^ 31) (h : write m frame malloc = some (m', ns)) :
    (frame.nbSamples = 0 ∧ m' = { m with decoder := .idle } ∧ ns = [.empty frame.turn]) ∨
    (frame.nbSamples ≠ 0 ∧ m' = m ∧ ns = [.failed frame.turn 0]) ∨
    (frame.nbSamples ≠ 0 ∧ m' = { m with decoder := .idle } ∧
      ns = [.failed frame.turn 0, .freed frame.turn]) ∨
    (frame.nbSamples ≠ 0 ∧ m'.turns = m.turns ∧ ns = [] ∧
      ∃ p own, m'.decoder = .putting p frame own ∧ Filled m m' frame p) := by
  have hsize : (UInt64.ofNat frame.nbSamples).toNat = frame.nbSamples := by
    rw [UInt64.toNat_ofNat', Nat.mod_eq_of_lt (by omega)]
  unfold write at h
  split at h
  · cases h
  rename_i s o hstep
  rcases stepWriter_write (List.nodup_append.mp hp.nodup).1 hstep with
    ⟨hz, rfl, rfl⟩ | ⟨hz, rfl, rfl | rfl⟩ | ⟨hz, rfl, p, pool, allocated, hfrom, hs⟩
  · cases h
    exact Or.inl ⟨hsize ▸ hz, rfl, rfl⟩
  · cases h
    exact Or.inr (Or.inl ⟨hsize ▸ hz, rfl, by rw [Int.sub_self]⟩)
  · cases h
    exact Or.inr (Or.inr (Or.inl ⟨hsize ▸ hz, rfl, by rw [Int.sub_self]⟩))
  · have hwriting : s.writing = p :: m.stream.writing := by rw [hs]
    have hpl : p ∉ m.stream.live := hp.not_live hfrom
    have hlive : s.live.Perm (p :: m.stream.live) := by
      rw [hs]
      simp only [State.live, State.fillData, List.append_assoc]
      exact List.perm_middle
    simp only [hwriting] at h
    cases h
    refine Or.inr (Or.inr (Or.inr ⟨hsize ▸ hz, rfl, rfl, p, _, rfl, ?_⟩))
    have hcarries : Player.carries { m with
        stream := s, handle := Function.update m.handle p (some frame.turn)
        decoder := .putting p frame (s.queuedFrames - m.stream.queuedFrames) } p =
          some frame.turn := by
      simp [Player.carries, hs, State.fillData]
    refine ⟨⟨.writer (.write frame.data (UInt64.ofNat frame.nbSamples) malloc), _, hstep⟩,
      by rw [hwriting]; exact List.mem_cons_self, hcarries, fun f => ?_⟩
    rw [Player.carried, (hlive.filterMap _).count_eq, List.filterMap_cons_some hcarries,
      List.count_cons]
    congr 1
    · rw [carried_congr (m := m), ← Player.carried]
      intro q hq
      have hqp : q ≠ p := fun hqp => hpl (hqp ▸ hq)
      apply carries_congr
      · simp [hs, State.fillData, hqp]
      · exact Function.update_of_ne hqp _ _
    · simp only [beq_iff_eq]

end Handles

/-! ## The ledger of the frames -/

def notes (tr : List (Event × List Note)) : List Note := tr.flatMap (·.2)

theorem notes_snoc (tr : List (Event × List Note)) (e : Event) (ns : List Note) :
    notes (tr ++ [(e, ns)]) = notes tr ++ ns := by
  simp [notes]

/-- How often a frame was released, by the callback and by the decoder. -/
def releasedOf (ns : List Note) (f : Nat) : Nat := ns.count (.callback f) + ns.count (.freed f)

/-- The decoder holds the frame outside of a call. -/
def Decoder.holds (f : Nat) : Decoder → Nat
  | .holding frame => if frame.turn = f then 1 else 0
  | _ => 0

/-- Where the frame is: with the decoder, or in a packet. -/
def Player.places (m : Player) (f : Nat) : Nat := m.decoder.holds f + m.carried.count f

/-- What is known of the frame that the decoder is writing. -/
structure FrameOk (ns : List Note) (m : Player) (frame : Frame) : Prop where
  turn : frame.turn < m.turns
  small : frame.nbSamples < 2 ^ 31
  notEmpty : ns.count (.empty frame.turn) = 0
  refused : frame.nbSamples = 0 → ns.count (.refused frame.turn) = 0

def DecoderOk (ns : List Note) (m : Player) : Prop :=
  match m.decoder with
  | .idle => True
  | .holding frame => FrameOk ns m frame
  | .putting p frame _ =>
    FrameOk ns m frame ∧ frame.nbSamples ≠ 0 ∧ p ∈ m.stream.writing ∧
      m.carries p = some frame.turn

/-- The frames after the labels `tr`. -/
structure Ledger (maxFrames : Int) (period : Nat) (tr : List (Event × List Note)) (m : Player) :
    Prop where
  stream : ∃ str, Run (Step Audio.step) (Audio.init maxFrames period) str m.stream
  decoder : DecoderOk (notes tr) m
  fresh : ∀ f, m.turns ≤ f → (notes tr).count (.refused f) = 0
  exclusive : ∀ f, (notes tr).count (.empty f) = 0 ∨ (notes tr).count (.refused f) = 0
  balance : ∀ f, releasedOf (notes tr) f + m.places f + (notes tr).count (.empty f) =
    (if f < m.turns then 1 else 0) + (notes tr).count (.refused f)

section Runs

variable {maxFrames : Int} {period : Nat} {tr : List (Event × List Note)} {m m' : Player}
  {ns : List Note}

theorem init_ledger (maxFrames : Int) (period : Nat) :
    Ledger maxFrames period [] (init maxFrames period) := by
  constructor
  · exact ⟨[], Run.nil⟩
  · trivial
  · intro f _
    rfl
  · intro f
    exact Or.inl rfl
  · intro f
    rfl

theorem Ledger.placed (h : Ledger maxFrames period tr m) : ∃ str, Placed str m.stream := by
  obtain ⟨str, hrun⟩ := h.stream
  exact ⟨str, Audio.run_placed hrun⟩

/-- A frame that was not pulled yet left no trace. -/
theorem Ledger.untouched (h : Ledger maxFrames period tr m) {f : Nat} (hf : m.turns ≤ f) :
    (notes tr).count (.empty f) = 0 ∧ (notes tr).count (.refused f) = 0 := by
  have hbalance := h.balance f
  have hfresh := h.fresh f hf
  rw [if_neg (by omega), hfresh] at hbalance
  exact ⟨by omega, hfresh⟩

theorem pull_ledger {data : Int} {nbSamples : Nat} (h : Ledger maxFrames period tr m)
    (hstep : step m (.pull data nbSamples) = some (m', ns)) :
    Ledger maxFrames period (tr ++ [(Event.pull data nbSamples, ns)]) m' := by
  simp only [step] at hstep
  split at hstep
  · rename_i hidle
    obtain ⟨hidle, hsmall⟩ := hidle
    cases hstep
    obtain ⟨hempty, hrefused⟩ := h.untouched (Nat.le_refl m.turns)
    constructor
    · exact h.stream
    · rw [notes_snoc, List.append_nil]
      exact ⟨Nat.lt_succ_self _, hsmall, hempty, fun _ => hrefused⟩
    · intro f hf
      rw [notes_snoc, List.append_nil]
      exact h.fresh f (by simp only at hf; omega)
    · rw [notes_snoc, List.append_nil]
      exact h.exclusive
    · intro f
      have hbalance := h.balance f
      rw [notes_snoc, List.append_nil]
      simp only [Player.places, Decoder.holds, hidle, Player.carried] at hbalance ⊢
      show _ + ((if m.turns = f then 1 else 0) + (m.stream.live.filterMap m.carries).count f) + _ = _
      split_ifs at hbalance ⊢ <;> omega
  · cases hstep

/-- A step that pulls no frame: what it adds to the ledger. -/
theorem Ledger.next {e : Event} (h : Ledger maxFrames period tr m)
    (hstream : ∃ str, Run (Step Audio.step) (Audio.init maxFrames period) str m'.stream)
    (hturns : m'.turns = m.turns) (hdecoder : DecoderOk (notes tr ++ ns) m')
    (hfresh : ∀ f, m.turns ≤ f → ns.count (.refused f) = 0)
    (hexclusive : ∀ f, (notes tr ++ ns).count (.empty f) = 0 ∨
      (notes tr ++ ns).count (.refused f) = 0)
    (hbalance : ∀ f, releasedOf ns f + m'.places f + ns.count (.empty f) =
      m.places f + ns.count (.refused f)) :
    Ledger maxFrames period (tr ++ [(e, ns)]) m' := by
  constructor
  · exact hstream
  · rw [notes_snoc]
    exact hdecoder
  · intro f hf
    rw [hturns] at hf
    rw [notes_snoc, List.count_append, h.fresh f hf, hfresh f hf]
  · rw [notes_snoc]
    exact hexclusive
  · intro f
    have hold := h.balance f
    have hnew := hbalance f
    rw [notes_snoc, hturns]
    simp only [releasedOf, List.count_append] at hold hnew ⊢
    omega

theorem Ledger.stream_snoc {e : Audio.Event} {s : State} {o : Audio.Outcome}
    (h : Ledger maxFrames period tr m) (hstep : Audio.step m.stream e = some (s, o)) :
    ∃ str, Run (Step Audio.step) (Audio.init maxFrames period) str s := by
  obtain ⟨str, hrun⟩ := h.stream
  exact ⟨str ++ [(e, o)], hrun.snoc hstep⟩

theorem FrameOk.mono {frame : Frame} (h : FrameOk (notes tr) m frame) (hturns : m'.turns = m.turns)
    (hempty : ns.count (.empty frame.turn) = 0)
    (hrefused : frame.nbSamples = 0 → ns.count (.refused frame.turn) = 0) :
    FrameOk (notes tr ++ ns) m' frame := by
  constructor
  · rw [hturns]
    exact h.turn
  · exact h.small
  · rw [List.count_append, h.notEmpty, hempty]
  · intro hz
    rw [List.count_append, h.refused hz, hrefused hz]

theorem write_ledger {malloc : Option Addr} (h : Ledger maxFrames period tr m)
    (hstep : step m (.write malloc) = some (m', ns)) :
    Ledger maxFrames period (tr ++ [(Event.write malloc, ns)]) m' := by
  simp only [step] at hstep
  split at hstep
  · rename_i frame hd
    have hframe : FrameOk (notes tr) m frame := by
      have := h.decoder
      rwa [DecoderOk, hd] at this
    obtain ⟨str, hp⟩ := h.placed
    rcases write_spec hp hframe.small hstep with
      ⟨hz, rfl, rfl⟩ | ⟨hz, rfl, rfl⟩ | ⟨hz, rfl, rfl⟩ | ⟨hz, hturns, rfl, p, own, hd', hfilled⟩
    · refine h.next h.stream rfl trivial (fun f _ => by simp) (fun f => ?_) (fun f => ?_)
      · by_cases hf : frame.turn = f
        · subst hf
          right
          simp [List.count_append, hframe.refused hz]
        · rcases h.exclusive f with hx | hx
          · left
            simp [List.count_append, hx, hf]
          · right
            simp [List.count_append, hx]
      · simp only [Player.places, hd, Decoder.holds, releasedOf, List.count_cons, List.count_nil]
        simp [Nat.add_comm]
    · refine h.next h.stream rfl ?_ (fun f _ => by simp) (fun f => ?_) (fun f => ?_)
      · rw [DecoderOk, hd]
        exact hframe.mono rfl (by simp) (by simp)
      · simpa [List.count_append] using h.exclusive f
      · simp [releasedOf]
    · refine h.next h.stream rfl trivial (fun f _ => by simp) (fun f => ?_) (fun f => ?_)
      · simpa [List.count_append] using h.exclusive f
      · simp only [Player.places, hd, Decoder.holds, releasedOf, List.count_cons, List.count_nil]
        simp
    · obtain ⟨e, o, hs⟩ := hfilled.stream
      refine h.next (h.stream_snoc hs) hturns ?_ (fun f _ => rfl) (fun f => ?_) (fun f => ?_)
      · rw [DecoderOk, hd']
        exact ⟨hframe.mono hturns rfl fun _ => rfl, hz, hfilled.writing, hfilled.carries⟩
      · simpa using h.exclusive f
      · have hcarried := hfilled.carried f
        simp only [Player.places, hd, hd', Decoder.holds, releasedOf, List.count_nil]
        omega
  · cases hstep

theorem stream_notes {e : Audio.Event} (h : stream m e = some (m', ns)) (f : Nat) :
    ns.count (.empty f) = 0 ∧ ns.count (.refused f) = 0 ∧ ns.count (.freed f) = 0 := by
  obtain ⟨-, -, -, hns, -⟩ := stream_spec h
  rw [hns]
  cases (releases m.stream e).bind m.carries <;> simp

theorem stream_ledger {e : Audio.Event} (h : Ledger maxFrames period tr m)
    (hstep : step m (.stream e) = some (m', ns)) :
    Ledger maxFrames period (tr ++ [(Event.stream e, ns)]) m' := by
  simp only [step] at hstep
  split at hstep
  · rename_i hf
    obtain ⟨str, hp⟩ := h.placed
    obtain ⟨⟨o, hs⟩, hd, hturns, -, -⟩ := stream_spec hstep
    have hnotes := stream_notes hstep
    refine h.next (h.stream_snoc hs) hturns ?_ (fun f _ => (hnotes f).2.1) (fun f => ?_)
      (fun f => ?_)
    · have hdecoder := h.decoder
      rw [DecoderOk] at hdecoder ⊢
      rw [hd]
      cases hm : m.decoder with
      | idle => trivial
      | holding frame =>
        rw [hm] at hdecoder
        exact hdecoder.mono hturns (hnotes _).1 fun _ => (hnotes _).2.1
      | putting p frame own =>
        rw [hm] at hdecoder
        obtain ⟨hframe, hz, hw, hc⟩ := hdecoder
        obtain ⟨hw', hc'⟩ := stream_keeps_writing hp hf hstep hw
        exact ⟨hframe.mono hturns (hnotes _).1 fun _ => (hnotes _).2.1, hz, hw', hc'.trans hc⟩
    · obtain ⟨hempty, hrefused, -⟩ := hnotes f
      rw [List.count_append, List.count_append, hempty, hrefused]
      exact h.exclusive f
    · have hwrite : ∀ d n a, e ≠ .writer (.write d n a) := by
        rintro d n a rfl
        cases hf
      have hbalance := stream_balance hp hwrite hstep f
      obtain ⟨hempty, hrefused, hfreed⟩ := hnotes f
      simp only [Player.places, releasedOf, hd]
      omega
  · cases hstep

/-- The put at the end of a call: the call is over, or the decoder calls again. -/
theorem put_spec {p : Addr} {frame : Frame} {own : Int} {result : Except Errno Unit}
    (h : put m p frame own result = some (m', ns)) :
    (result = .ok () ∧ ∃ m₁, stream m (.writer (.put p true)) = some (m₁, ns) ∧
      m' = { m₁ with decoder := .idle }) ∨
    (∃ errno, result = .error errno ∧ ∃ m₁ ns₁ own',
      stream m (.writer (.put p false)) = some (m₁, ns₁) ∧
      ((m' = { m₁ with decoder := .holding frame } ∧
          ns = .refused frame.turn :: ns₁ ++ [Note.failed frame.turn own']) ∨
        (m' = { m₁ with decoder := .idle } ∧
          ns = .refused frame.turn :: ns₁ ++ [Note.failed frame.turn own'] ++ [Note.freed frame.turn]))) := by
  cases result with
  | ok =>
    obtain ⟨r, hr, heq⟩ := Option.map_eq_some_iff.mp h
    cases heq
    exact Or.inl ⟨rfl, r.1, hr, rfl⟩
  | error errno =>
    obtain ⟨r, hr, heq⟩ := Option.map_eq_some_iff.mp h
    refine Or.inr ⟨errno, rfl, r.1, r.2,
      own + (r.1.stream.queuedFrames - m.stream.queuedFrames), hr, ?_⟩
    by_cases he : errno = .eagain
    · simp only [he, ↓reduceIte] at heq
      cases heq
      exact Or.inl ⟨rfl, rfl⟩
    · simp only [he, ↓reduceIte] at heq
      cases heq
      exact Or.inr ⟨rfl, rfl⟩

theorem put_ledger {result : Except Errno Unit} (h : Ledger maxFrames period tr m)
    (hstep : step m (.put result) = some (m', ns)) :
    Ledger maxFrames period (tr ++ [(Event.put result, ns)]) m' := by
  simp only [step] at hstep
  split at hstep
  · rename_i p frame own hd
    obtain ⟨str, hp⟩ := h.placed
    have hdecoder := h.decoder
    rw [DecoderOk, hd] at hdecoder
    obtain ⟨hframe, hz, -, hc⟩ := hdecoder
    rcases put_spec hstep with ⟨-, m₁, hs₁, rfl⟩ | ⟨errno, -, m₁, ns₁, own', hs₁, hcases⟩
    · obtain ⟨⟨o, hs⟩, hd₁, hturns, -, -⟩ := stream_spec hs₁
      have hnotes := stream_notes hs₁
      refine h.next (h.stream_snoc hs) hturns trivial (fun f _ => (hnotes f).2.1) (fun f => ?_)
        (fun f => ?_)
      · obtain ⟨hempty, hrefused, -⟩ := hnotes f
        rw [List.count_append, List.count_append, hempty, hrefused]
        exact h.exclusive f
      · have hbalance := stream_balance hp (by simp) hs₁ f
        obtain ⟨hempty, hrefused, hfreed⟩ := hnotes f
        simp only [Player.places, releasedOf, hd, Decoder.holds, carried_decoder]
        omega
    · obtain ⟨⟨o, hs⟩, -, hturns, -, -⟩ := stream_spec hs₁
      have hnotes := stream_notes hs₁
      have hrefused (f : Nat) : ns.count (.refused f) = if frame.turn = f then 1 else 0 := by
        have := (hnotes f).2.1
        rcases hcases with ⟨-, rfl⟩ | ⟨-, rfl⟩ <;> simp [List.count_cons, this]
      have hempty (f : Nat) : ns.count (.empty f) = 0 := by
        have := (hnotes f).1
        rcases hcases with ⟨-, rfl⟩ | ⟨-, rfl⟩ <;> simp [this]
      have hm' : m'.stream = m₁.stream ∧ m'.turns = m.turns := by
        rcases hcases with ⟨rfl, -⟩ | ⟨rfl, -⟩ <;> exact ⟨rfl, hturns⟩
      refine h.next ?_ hm'.2 ?_ (fun f hf => ?_) (fun f => ?_) (fun f => ?_)
      · rw [hm'.1]
        exact h.stream_snoc hs
      · rcases hcases with ⟨rfl, -⟩ | ⟨rfl, -⟩
        · exact hframe.mono hturns (hempty _) fun h0 => absurd h0 hz
        · trivial
      · have := hframe.turn
        rw [hrefused, if_neg (by omega)]
      · rw [List.count_append, List.count_append, hempty, hrefused]
        by_cases hf : frame.turn = f
        · left
          rw [← hf, hframe.notEmpty]
        · rw [if_neg hf]
          exact h.exclusive f
      · have hbalance := stream_balance hp (by simp) hs₁ f
        have hfreed := (hnotes f).2.2
        rw [hempty, hrefused]
        rcases hcases with ⟨rfl, rfl⟩ | ⟨rfl, rfl⟩
        · simp only [Player.places, releasedOf, hd, Decoder.holds, carried_decoder]
          simp [hfreed]
          omega
        · simp only [Player.places, releasedOf, hd, Decoder.holds, carried_decoder]
          simp [hfreed, List.count_cons]
          omega
  · cases hstep

/-- **The ledger of every run.** -/
theorem run_ledger (h : Run (Step step) (init maxFrames period) tr m) :
    Ledger maxFrames period tr m := by
  refine Run.history (init_ledger maxFrames period) (fun tr m a m' hl hstep => ?_) h
  obtain ⟨e, ns⟩ := a
  cases e with
  | pull data nbSamples => exact pull_ledger hl hstep
  | write malloc => exact write_ledger hl hstep
  | put result => exact put_ledger hl hstep
  | stream e => exact stream_ledger hl hstep

/-! ## The condition -/

def Decoder.willWrite : Decoder → Bool
  | .holding frame => frame.nbSamples ≠ 0
  | _ => true

/-- The call has something to write, and its put does not fail. -/
def Sound (m : Player) : Event → Prop
  | .write _ => m.decoder.willWrite = true
  | .put result => result = .ok ()
  | .pull _ _ | .stream _ => True

instance (m : Player) (e : Event) : Decidable (Sound m e) :=
  match e with
  | .write _ => inferInstanceAs (Decidable (m.decoder.willWrite = true))
  | .put result => inferInstanceAs (Decidable (result = .ok ()))
  | .pull _ _ | .stream _ => inferInstanceAs (Decidable True)

/-- A label without a call that had nothing to write and without a failed put. -/
def Note.fine : Note → Bool
  | .empty _ | .refused _ => false
  | _ => true

theorem sound_iff {e : Event} (h : Ledger maxFrames period tr m)
    (hstep : step m e = some (m', ns)) : Sound m e ↔ ∀ n ∈ ns, n.fine = true := by
  cases e with
  | pull data nbSamples =>
    simp only [step] at hstep
    split at hstep
    · cases hstep
      simp [Sound]
    · cases hstep
  | write malloc =>
    simp only [step] at hstep
    split at hstep
    · rename_i frame hd
      have hframe : FrameOk (notes tr) m frame := by
        have := h.decoder
        rwa [DecoderOk, hd] at this
      obtain ⟨str, hp⟩ := h.placed
      rcases write_spec hp hframe.small hstep with
        ⟨hz, -, rfl⟩ | ⟨hz, -, rfl⟩ | ⟨hz, -, rfl⟩ | ⟨hz, -, rfl, -⟩
      · simp [Sound, Decoder.willWrite, hd, hz, Note.fine]
      · simp [Sound, Decoder.willWrite, hd, hz, Note.fine]
      · simp [Sound, Decoder.willWrite, hd, hz, Note.fine]
      · simp [Sound, Decoder.willWrite, hd, hz]
    · cases hstep
  | put result =>
    simp only [step] at hstep
    split at hstep
    · rcases put_spec hstep with ⟨rfl, m₁, hs₁, -⟩ | ⟨errno, rfl, m₁, ns₁, own', -, hcases⟩
      · obtain ⟨-, -, -, rfl, -⟩ := stream_spec hs₁
        simp [Sound, releases]
      · rcases hcases with ⟨-, rfl⟩ | ⟨-, rfl⟩ <;> simp [Sound, Note.fine]
    · cases hstep
  | stream e =>
    simp only [step] at hstep
    split at hstep
    · obtain ⟨-, -, -, rfl, -⟩ := stream_spec hstep
      cases (releases m.stream e).bind m.carries <;> simp [Sound, Note.fine]
    · cases hstep

/-- A sound step that returns -1 leaves `queued_frames`. -/
theorem sound_failed {e : Event} {f : Nat} {own : Int} (h : Ledger maxFrames period tr m)
    (hok : Sound m e) (hstep : step m e = some (m', ns)) (hf : .failed f own ∈ ns) : own = 0 := by
  cases e with
  | pull data nbSamples =>
    simp only [step] at hstep
    split at hstep
    · cases hstep
      cases hf
    · cases hstep
  | write malloc =>
    simp only [step] at hstep
    split at hstep
    · rename_i frame hd
      have hframe : FrameOk (notes tr) m frame := by
        have := h.decoder
        rwa [DecoderOk, hd] at this
      obtain ⟨str, hp⟩ := h.placed
      rcases write_spec hp hframe.small hstep with
        ⟨hz, -, rfl⟩ | ⟨hz, -, rfl⟩ | ⟨hz, -, rfl⟩ | ⟨hz, -, rfl, -⟩
      · simp at hf
      · simp at hf
        exact hf.2
      · simp at hf
        exact hf.2
      · cases hf
    · cases hstep
  | put result =>
    simp only [step] at hstep
    split at hstep
    · cases hok
      rcases put_spec hstep with ⟨-, m₁, hs₁, -⟩ | ⟨errno, hr, -⟩
      · obtain ⟨-, -, -, rfl, -⟩ := stream_spec hs₁
        simp [releases] at hf
      · cases hr
    · cases hstep
  | stream e =>
    simp only [step] at hstep
    split at hstep
    · obtain ⟨-, -, -, rfl, -⟩ := stream_spec hstep
      cases hc : (releases m.stream e).bind m.carries <;> simp [hc] at hf
    · cases hstep

/-- What a frame that was pulled is owed: it is released once, or still on its way. -/
def Once (tr : List (Event × List Note)) (m : Player) : Prop :=
  ∀ f < m.turns, releasedOf (notes tr) f + m.places f = 1

/-- A failed call leaves `queued_frames` as it was. -/
def Undone (tr : List (Event × List Note)) : Prop := ∀ f own, .failed f own ∈ notes tr → own = 0

/-- When every frame is released once, no call was empty and no put failed. -/
theorem Ledger.fine (h : Ledger maxFrames period tr m) (honce : Once tr m) :
    ∀ n ∈ notes tr, n.fine = true := by
  have hzero (f : Nat) : (notes tr).count (.empty f) = 0 ∧ (notes tr).count (.refused f) = 0 := by
    by_cases hf : f < m.turns
    · have hbalance := h.balance f
      have hone := honce f hf
      rw [if_pos hf] at hbalance
      rcases h.exclusive f with hx | hx <;> omega
    · exact h.untouched (Nat.le_of_not_lt hf)
  intro n hn
  cases n with
  | callback | freed | failed => rfl
  | empty f => exact absurd hn (List.count_eq_zero.mp (hzero f).1)
  | refused f => exact absurd hn (List.count_eq_zero.mp (hzero f).2)

/-- The sound runs are those in which no call was empty and no put failed. -/
theorem fine_iff_guarded (h : Run (Step step) (init maxFrames period) tr m) :
    (∀ a ∈ tr, ∀ n ∈ a.2, n.fine = true) ↔
      Run (Guarded step Sound) (init maxFrames period) tr m :=
  Run.guarded_iff (fun _ _ _ _ hrun hstep => sound_iff (run_ledger hrun) hstep) h

theorem guarded_once (h : Run (Guarded step Sound) (init maxFrames period) tr m) : Once tr m := by
  have hledger := run_ledger h.of_guarded
  have hfine := (fine_iff_guarded h.of_guarded).mpr h
  have hnone (n : Note) (hn : n.fine = false) : (notes tr).count n = 0 := by
    apply List.count_eq_zero.mpr
    intro hmem
    obtain ⟨a, ha, hna⟩ := List.mem_flatMap.mp hmem
    rw [hfine a ha n hna] at hn
    cases hn
  intro f hf
  have hbalance := hledger.balance f
  rw [if_pos hf, hnone (.empty f) rfl, hnone (.refused f) rfl] at hbalance
  omega

theorem guarded_undone (h : Run (Guarded step Sound) (init maxFrames period) tr m) : Undone tr := by
  induction h with
  | nil =>
    intro f own hf
    cases hf
  | @snoc tr m m' a hrun hstep ih =>
    intro f own hf
    obtain ⟨e, ns⟩ := a
    rw [notes_snoc] at hf
    rcases List.mem_append.mp hf with hold | hnew
    · exact ih f own hold
    · exact sound_failed (run_ledger hrun.of_guarded) hstep.1 hstep.2 hnew

/-- **Every frame of the audio decoder is released once.**  Exactly in the runs in which each call
    has something to write and no `avbox_queue_put` of a call fails, every frame that was pulled is
    released once or still on its way, and every call that returned -1 left `queued_frames` as it
    was. -/
theorem released_once_iff (h : Run (Step step) (init maxFrames period) tr m) :
    (Once tr m ∧ Undone tr) ↔ Run (Guarded step Sound) (init maxFrames period) tr m := by
  constructor
  · rintro ⟨honce, -⟩
    have hfine := (run_ledger h).fine honce
    apply (fine_iff_guarded h).mp
    intro a ha n hn
    exact hfine n (List.mem_flatMap.mpr ⟨a, ha, hn⟩)
  · intro hsound
    exact ⟨guarded_once hsound, guarded_undone hsound⟩

end Runs

/-- A frame that is written, played and released, after the queue was full once. -/
theorem released_once_iff_played : ∃ tr m, Run (Step step) (init 3 4) tr m ∧ m.turns = 2 ∧
    releasedOf (notes tr) 0 = 1 ∧ .failed 1 0 ∈ notes tr ∧ Once tr m ∧ Undone tr := by
  have hrun : Run (Guarded step Sound) (init 3 4) _ _ := run_of_guarded_exec
    [.pull 0 4, .write (some 1), .put (.ok ()), .pull 100 4, .write (some 2),
      .stream (.output .peek), .stream (.output .readType), .stream (.output .readSize),
      .stream (.output (.writei 4 false)), .stream (.output .account), .stream (.output .readLeft),
      .stream (.output .get), .stream (.output .release), .write (some 2)] rfl
  obtain ⟨honce, hundone⟩ := (released_once_iff hrun.of_guarded).mpr hrun
  exact ⟨_, _, hrun.of_guarded, rfl, by decide, by decide, honce, hundone⟩

/-- `malloc` fails for the queue node: the frame is released twice and its 4 samples stay counted. -/
theorem failed_put_releases_twice : ∃ tr m, Run (Step step) (init 100 4) tr m ∧
    notes tr = [.refused 0, .callback 0, .failed 0 4, .freed 0] ∧ m.stream.queuedFrames = 4 ∧
      m.stream.queue = [] ∧ ¬Once tr m ∧ ¬Undone tr := by
  obtain ⟨tr, m, hrun, hnotes, hqueued, hqueue, hturns⟩ : ∃ tr m,
      Run (Step step) (init 100 4) tr m ∧
      notes tr = [.refused 0, .callback 0, .failed 0 4, .freed 0] ∧ m.stream.queuedFrames = 4 ∧
      m.stream.queue = [] ∧ m.turns = 1 :=
    ⟨_, _, run_of_exec [.pull 0 4, .write (some 1), .put (.error .enomem)] rfl,
      by decide +kernel, by decide +kernel, rfl, rfl⟩
  refine ⟨tr, m, hrun, hnotes, hqueued, hqueue, fun h => ?_, fun h => ?_⟩
  · have hone := h 0 (by omega)
    have htwo : releasedOf [.refused 0, .callback 0, .failed 0 4, .freed 0] 0 = 2 := by decide
    rw [hnotes, htwo] at hone
    omega
  · have hfour := h 0 4 (by rw [hnotes]; decide)
    exact absurd hfour (by decide)

end Mediabox.AudioDecode
