import Mediabox.PlayerFrames

/-!
# Frames from the decoder to the screen (`src/lib/ui/player.c`)

* `places` — where frames are: each that was allocated is at one place, unless it was lost with an
  update that could not be sent or had no window (`video_frames_conserved`, `frames_returned`).
* `way` — the frames that are still to come, in their order; what is shown is what was produced, in
  the order in which it was (`frames_shown_in_order`).

The runs are those in which no wait takes an output that leaves its checkpoint for a halted one.
-/

set_option autoImplicit false

namespace Mediabox.PlayerFrames

open Transition

universe u

variable {α : Type u} {s t : State α} {o : Outcome α} {tr : List (Event α × Outcome α)}

/-! ## What it is for -/

def Update.hand : Update → Option Addr
  | .posted frame => some frame
  | .idle | .finished => none

/-- The packets of the queue whose frame was not given away. -/
def pending (s : State α) : List (Addr × Content) :=
  match s.output with
  | .next _ => s.queue.tail
  | _ => s.queue

def queued (s : State α) : List Addr := (pending s).flatMap (·.2.frames)

/-- Where the frames are. -/
def places (s : State α) : List Addr :=
  s.framePool ++ queued s ++ s.decoder.hand.toList ++ s.update.hand.toList ++
    s.lastVideoFrame.toList ++ s.others

/-- The frames that were lost. -/
def lost (tr : List (Event α × Outcome α)) : List Addr :=
  tr.filterMap fun a =>
    match a.2 with
    | .lost frame => some frame
    | _ => none

/-- What was produced. -/
def produced (tr : List (Event α × Outcome α)) : List α :=
  tr.filterMap fun a =>
    match a.2 with
    | .produced image => some image
    | _ => none

/-- What was shown. -/
def shown (tr : List (Event α × Outcome α)) : List (Option α) :=
  tr.filterMap fun a =>
    match a.2 with
    | .shown image => some image
    | _ => none

/-! ## The invariant -/

/-- How far the output is in its end. -/
def OutputPc.stage : OutputPc → Nat
  | .exiting | .draining => 1
  | .closing => 2
  | .window | .last => 3
  | .returned => 4
  | _ => 0

structure Inv (s : State α) : Prop where
  peeked : Peeked s
  idle : ∀ packet frame, s.output = .sending packet frame → s.update = .idle
  exited : s.closed = true → s.decoder = .exited
  ends : 1 ≤ s.output.stage → s.closed = true
  empty : 2 ≤ s.output.stage → s.queue = []
  quiet : 3 ≤ s.output.stage → s.update = .idle
  gone : 4 ≤ s.output.stage → s.lastVideoFrame = none
  runs : s.output ≠ .aborted

theorem Inv.init : Inv (init : State α) where
  peeked := trivial
  idle _ _ h := by cases h
  exited h := by cases h
  ends h := absurd h (Nat.not_succ_le_zero 0)
  empty _ := rfl
  quiet _ := rfl
  gone _ := rfl
  runs := by simp [PlayerFrames.init]

/-- What was peeked stays at the head when a packet is put. -/
theorem Peeked.append (h : Peeked s) {l : List (Addr × Content)} (hout : t.output = s.output)
    (hqueue : t.queue = s.queue ++ l) : Peeked t := by
  have hcons {p : Addr × Content} (hq : ∃ rest, s.queue = p :: rest) :
      ∃ rest, s.queue ++ l = p :: rest := by
    obtain ⟨rest, hq⟩ := hq
    exact ⟨rest ++ l, by rw [hq, List.cons_append]⟩
  unfold Peeked at h ⊢
  rw [hout, hqueue]
  generalize s.output = pc at h ⊢
  cases pc with
  | clock packet value | creating packet frame | timing packet frame | waiting packet frame
  | sending packet frame => exact hcons h
  | next packet => exact h.imp fun content hq => hcons hq
  | _ => trivial

/-- A step of a decoder that has not exited: the output is not at its end. -/
theorem Inv.decoder (h : Inv s) (hpc : s.decoder ≠ .exited) {l : List (Addr × Content)}
    (hout : t.output = s.output) (hqueue : t.queue = s.queue ++ l) (hupdate : t.update = s.update)
    (hclosed : t.closed = s.closed) : Inv t := by
  have hopen : ¬s.closed = true := fun hc => hpc (h.exited hc)
  have hstage : ¬1 ≤ s.output.stage := fun hs => hopen (h.ends hs)
  refine ⟨h.peeked.append hout hqueue, fun p f hs => ?_, fun hc => ?_, fun hs => ?_, fun hs => ?_,
    fun hs => ?_, fun hs => ?_, ?_⟩
  · rw [hupdate]
    exact h.idle p f (hout ▸ hs)
  · exact absurd (hclosed ▸ hc) hopen
  · exact absurd (hout ▸ hs) hstage
  · exact absurd (by rw [hout] at hs; omega) hstage
  · exact absurd (by rw [hout] at hs; omega) hstage
  · exact absurd (by rw [hout] at hs; omega) hstage
  · rw [hout]
    exact h.runs

/-- A step of an output that is not at its end, nor sends a frame next. -/
theorem Inv.output (h : Inv s) (hpeeked : Peeked t) (hdecoder : t.decoder = s.decoder)
    (hclosed : t.closed = s.closed) (hstage : t.output.stage = 0)
    (hidle : ∀ packet frame, t.output = .sending packet frame → t.update = .idle)
    (hruns : t.output ≠ .aborted) : Inv t := by
  refine ⟨hpeeked, hidle, fun hc => ?_, ?_, ?_, ?_, ?_, hruns⟩
  · rw [hdecoder]
    exact h.exited (hclosed ▸ hc)
  all_goals
    intro hs
    omega

/-- Where packets are left, an output that is away is before its end, or takes them itself. -/
theorem Inv.away_cases (h : Inv s) (haway : s.output.away = true) (hqueue : s.queue ≠ []) :
    s.output = .starting ∨ s.output = .loop ∨ s.output = .draining := by
  have hstage : ¬2 ≤ s.output.stage := fun hs => hqueue (h.empty hs)
  generalize s.output = pc at haway hstage
  cases pc with
  | starting => exact .inl rfl
  | loop => exact .inr (.inl rfl)
  | draining => exact .inr (.inr rfl)
  | closing | window | last | returned => exact absurd (by decide) hstage
  | _ => cases haway

theorem Inv.move (h : Inv s) (hmove : Move s o t) : Inv t := by
  cases hmove with
  | decoder hpc _ | acquireFrame hpc _ =>
    exact h.decoder (by simp [hpc]) rfl (List.append_nil _).symm rfl rfl
  | produce hpc | clock hpc | pack hpc =>
    exact h.decoder (by simp [hpc]) rfl (List.append_nil _).symm rfl rfl
  | discard hhand _ =>
    exact h.decoder (fun heq => by simp [heq, DecoderPc.hand] at hhand) rfl
      (List.append_nil _).symm rfl rfl
  | stay => exact h
  | putClock hpc _ | putFrame hpc _ => exact h.decoder (by simp [hpc]) rfl rfl rfl rfl
  | close hpc => exact { h with exited := fun _ => rfl, ends := fun _ => rfl }
  | checkpoint _ hpc _ =>
    rcases OutputPc.after_cases hpc with rfl | ⟨hold, rfl⟩ | ⟨hold, rfl⟩ | ⟨hold, rfl⟩
    · exact { h with }
    · exact h.output trivial rfl rfl rfl (by simp) (by simp)
    · exact h.output trivial rfl rfl rfl (by simp) (by simp)
    · have hclosed := h.ends (by simp [hold, OutputPc.stage])
      exact ⟨trivial, by simp, h.exited, fun _ => hclosed, fun hs => absurd hs (by decide : ¬2 ≤ 1),
        fun hs => absurd hs (by decide : ¬3 ≤ 1), fun hs => absurd hs (by decide : ¬4 ≤ 1), by simp⟩
  | underrun _ | early _ => exact h.output trivial rfl rfl rfl (by simp) (by simp)
  | reset _ _ | get _ _ => exact h.output trivial rfl rfl rfl (by simp) (by simp)
  | peekClock hpc hq => exact h.output ⟨_, hq⟩ rfl rfl rfl (by simp) (by simp)
  | peekFrame hpc hq hnext =>
    rcases hnext with rfl | rfl
    · exact h.output ⟨_, hq⟩ rfl rfl rfl (by simp) (by simp)
    · exact h.output ⟨_, hq⟩ rfl rfl rfl (by simp) (by simp)
  | shutdown hpc hclosed =>
    exact ⟨trivial, by simp, h.exited, fun _ => hclosed, fun hs => absurd hs (by decide : ¬2 ≤ 1),
      fun hs => absurd hs (by decide : ¬3 ≤ 1), fun hs => absurd hs (by decide : ¬4 ≤ 1), by simp⟩
  | create hpc =>
    have hpeeked := h.peeked
    simp only [Peeked, hpc] at hpeeked
    exact h.output hpeeked rfl rfl rfl (by simp) (by simp)
  | present hpc _ | waited hpc _ =>
    have hpeeked := h.peeked
    simp only [Peeked, hpc] at hpeeked
    exact h.output hpeeked rfl rfl rfl (by simp) (by simp)
  | skip hpc _ =>
    have hpeeked := h.peeked
    simp only [Peeked, hpc] at hpeeked
    exact h.output ⟨_, hpeeked⟩ rfl rfl rfl (by simp) (by simp)
  | send hpc | sendFails hpc =>
    have hpeeked := h.peeked
    simp only [Peeked, hpc] at hpeeked
    exact h.output ⟨_, hpeeked⟩ rfl rfl rfl (by simp) (by simp)
  | drop hpc hq =>
    rcases h.away_cases hpc (by simp [hq]) with hpc | hpc | hpc
    · exact h.output (by simp [Peeked, hpc]) rfl rfl (by simp [hpc, OutputPc.stage]) (by simp [hpc])
        (by simp [hpc])
    · exact h.output (by simp [Peeked, hpc]) rfl rfl (by simp [hpc, OutputPc.stage]) (by simp [hpc])
        (by simp [hpc])
    · exact { h with
        peeked := by simp [Peeked, hpc]
        empty := fun hs => absurd hs (by simp [hpc, OutputPc.stage]) }
  | drained hpc hq =>
    have hclosed := h.ends (by simp [hpc, OutputPc.stage])
    exact ⟨trivial, by simp, h.exited, fun _ => hclosed, fun _ => hq,
      fun hs => absurd hs (by decide : ¬3 ≤ 2), fun hs => absurd hs (by decide : ¬4 ≤ 2), by simp⟩
  | join hpc _ hnext =>
    have hclosed := h.ends (by simp [hpc, OutputPc.stage])
    have hq := h.empty (by simp [hpc, OutputPc.stage])
    rcases hnext with rfl | rfl
    · exact ⟨trivial, by simp, h.exited, fun _ => hclosed, fun _ => hq, fun _ => rfl,
        fun hs => absurd hs (by decide : ¬4 ≤ 3), by simp⟩
    · exact ⟨trivial, by simp, h.exited, fun _ => hclosed, fun _ => hq, fun _ => rfl,
        fun hs => absurd hs (by decide : ¬4 ≤ 3), by simp⟩
  | destroyWindow hpc =>
    have hstage : 3 ≤ s.output.stage := by simp [hpc, OutputPc.stage]
    exact ⟨trivial, by simp, h.exited, fun _ => h.ends (by omega), fun _ => h.empty (by omega),
      fun _ => h.quiet hstage, fun hs => absurd hs (by decide : ¬4 ≤ 3), by simp⟩
  | releaseLast hpc =>
    have hstage : 3 ≤ s.output.stage := by simp [hpc, OutputPc.stage]
    exact ⟨trivial, by simp, h.exited, fun _ => h.ends (by omega), fun _ => h.empty (by omega),
      fun _ => h.quiet hstage, fun _ => rfl, by simp⟩
  | shows hupdate _ =>
    have hbusy : ¬3 ≤ s.output.stage := fun hs => by simp [h.quiet hs] at hupdate
    exact { h with
      idle := fun p f hs => absurd (h.idle p f hs) (by simp [hupdate])
      quiet := fun hs => absurd hs hbusy
      gone := fun hs => absurd (Nat.le_of_succ_le hs) hbusy }
  | showFails hupdate _ =>
    have hbusy : ¬3 ≤ s.output.stage := fun hs => by simp [h.quiet hs] at hupdate
    exact { h with
      idle := fun p f hs => absurd (h.idle p f hs) (by simp [hupdate])
      quiet := fun hs => absurd hs hbusy }
  | dump => exact { h with }
  | takeFrame _ | giveFrame _ => exact { h with }

/-! ## Every frame at one place -/

def Outcome.added : Outcome α → List Addr
  | .acquired frame true => [frame]
  | _ => []

def Outcome.gone : Outcome α → List Addr
  | .lost frame => [frame]
  | _ => []

/-- How often a frame is at its places. -/
def tally (s : State α) (f : Addr) : Nat :=
  s.framePool.count f + (queued s).count f + s.decoder.hand.toList.count f +
    s.update.hand.toList.count f + s.lastVideoFrame.toList.count f + s.others.count f

theorem Update.hand_eq_none {u : Update} (h : ∀ f, u ≠ .posted f) : u.hand = none := by
  cases u with
  | posted f => exact absurd rfl (h f)
  | idle | finished => rfl

theorem count_places (s : State α) (f : Addr) : (places s).count f = tally s f := by
  simp only [places, tally, List.count_append]

theorem queued_append (h : Inv s) {l : List (Addr × Content)} (hout : t.output = s.output)
    (hqueue : t.queue = s.queue ++ l) : queued t = queued s ++ l.flatMap (·.2.frames) := by
  have hpeeked := h.peeked
  unfold queued pending
  rw [hout, hqueue, ← List.flatMap_append]
  cases hpc : s.output with
  | next packet =>
    simp only [Peeked, hpc] at hpeeked
    obtain ⟨content, rest, hq⟩ := hpeeked
    simp only [hq, List.cons_append, List.tail_cons]
  | _ => rfl

theorem count_cons' {a f : Addr} {l : List Addr} : (a :: l).count f = l.count f + [a].count f := by
  rw [List.count_cons, List.count_singleton]

theorem Acquires.count {pool allocated pool' allocated' : List Addr} {a : Addr} {fresh : Bool}
    (h : Acquires pool allocated a pool' allocated' fresh) (f : Addr) : pool'.count f + [a].count f =
      pool.count f + (Outcome.acquired a fresh : Outcome α).added.count f := by
  rcases h with ⟨rfl, hperm, -⟩ | ⟨rfl, rfl, -, -⟩
  · rw [hperm.count_eq]
    exact count_cons'.symm
  · rfl

/-- **Conservation**: a step moves frames from place to place. -/
theorem Move.tally (hmove : Move s o t) (h : Inv s) (f : Addr) :
    tally t f + o.gone.count f = tally s f + o.added.count f := by
  cases hmove with
  | decoder hpc hnext =>
    rcases hnext with rfl | rfl | rfl <;>
      simp only [PlayerFrames.tally, queued, pending, hpc, DecoderPc.hand, Outcome.gone, Outcome.added]
  | acquireFrame hpc hacq =>
    have hcount := hacq.count (α := α) f
    simp only [PlayerFrames.tally, queued, pending, hpc, DecoderPc.hand, Outcome.gone,
      Option.toList_some, Option.toList_none, List.count_nil]
    omega
  | produce hpc =>
    cases s.timeSet <;>
      simp only [PlayerFrames.tally, queued, pending, hpc, DecoderPc.hand, Outcome.gone, Outcome.added,
        ↓reduceIte, Bool.false_eq_true]
  | discard hhand hnext =>
    simp only [PlayerFrames.tally, queued, pending, hhand, Outcome.gone, Outcome.added,
      count_cons' (l := s.framePool), Option.toList_some, List.count_nil]
    rcases hnext with rfl | rfl | rfl <;>
    · simp only [DecoderPc.hand, Option.toList_none, List.count_nil]
      omega
  | clock hpc | pack hpc | close hpc =>
    simp only [PlayerFrames.tally, queued, pending, hpc, DecoderPc.hand, Outcome.gone, Outcome.added]
  | stay => rfl
  | @putClock frame packet value hpc _ =>
    have hq := queued_append h (t := { s with
      queue := s.queue ++ [(packet, .setClock value)]
      decoder := .packing frame }) rfl rfl
    simp only [PlayerFrames.tally, hq, hpc, DecoderPc.hand, Outcome.gone, Outcome.added, Content.frames,
      List.flatMap_cons, List.flatMap_nil, List.append_nil]
  | @putFrame frame packet hpc _ =>
    have hq := queued_append h (t := { s with
      queue := s.queue ++ [(packet, .video frame)]
      decoder := .pulling }) rfl rfl
    simp only [PlayerFrames.tally, hq, hpc, DecoderPc.hand, Outcome.gone, Outcome.added, Content.frames,
      List.flatMap_cons, List.flatMap_nil, List.append_nil, List.count_append, Option.toList_some,
      Option.toList_none, List.count_nil]
    omega
  | peekFrame hpc _ hnext =>
    rcases hnext with rfl | rfl <;>
      simp only [PlayerFrames.tally, queued, pending, hpc, Outcome.gone, Outcome.added]
  | reset hpc hq =>
    simp only [PlayerFrames.tally, queued, pending, hpc, hq, Outcome.gone, Outcome.added,
      List.flatMap_cons, Content.frames, List.nil_append]
  | skip hpc _ =>
    have hpeeked := h.peeked
    simp only [Peeked, hpc] at hpeeked
    obtain ⟨rest, hq⟩ := hpeeked
    simp only [PlayerFrames.tally, queued, pending, hpc, hq, List.tail_cons, Outcome.gone,
      Outcome.added, List.flatMap_cons, Content.frames, List.count_append, count_cons' (l := s.framePool)]
    omega
  | waited hpc hupdate =>
    have hnone := Update.hand_eq_none hupdate
    simp only [PlayerFrames.tally, queued, pending, hpc, hnone, Outcome.gone, Outcome.added]
    rfl
  | send hpc =>
    have hpeeked := h.peeked
    simp only [Peeked, hpc] at hpeeked
    obtain ⟨rest, hq⟩ := hpeeked
    simp only [PlayerFrames.tally, queued, pending, hpc, hq, List.tail_cons, h.idle _ _ hpc, Update.hand,
      Outcome.gone, Outcome.added, List.flatMap_cons, Content.frames, List.count_append,
      Option.toList_some, Option.toList_none, List.count_nil]
    omega
  | sendFails hpc =>
    have hpeeked := h.peeked
    simp only [Peeked, hpc] at hpeeked
    obtain ⟨rest, hq⟩ := hpeeked
    simp only [PlayerFrames.tally, queued, pending, hpc, hq, List.tail_cons, Outcome.gone,
      Outcome.added, List.flatMap_cons, Content.frames, List.count_append, List.count_nil]
    omega
  | get hpc hq =>
    simp only [PlayerFrames.tally, queued, pending, hpc, hq, List.tail_cons, Outcome.gone, Outcome.added]
  | drop hpc hq =>
    rcases h.away_cases hpc (by simp [hq]) with hpc | hpc | hpc <;>
    · simp only [PlayerFrames.tally, queued, pending, hpc, hq, List.flatMap_cons, List.count_append,
        Outcome.gone, Outcome.added, List.count_nil]
      omega
  | join hpc hupdate hnext =>
    have hnone := Update.hand_eq_none hupdate
    rcases hnext with rfl | rfl <;>
    · simp only [PlayerFrames.tally, queued, pending, hpc, hnone, Outcome.gone, Outcome.added]
      rfl
  | checkpoint _ hpc _ =>
    rcases OutputPc.after_cases hpc with rfl | ⟨hold, rfl⟩ | ⟨hold, rfl⟩ | ⟨hold, rfl⟩
    · rfl
    all_goals
      simp only [PlayerFrames.tally, queued, pending, hold, Outcome.gone, Outcome.added]
  | underrun hpc | create hpc | early hpc | destroyWindow hpc =>
    simp only [PlayerFrames.tally, queued, pending, hpc, Outcome.gone, Outcome.added]
  | peekClock hpc _ | shutdown hpc _ | present hpc _ | drained hpc _ =>
    simp only [PlayerFrames.tally, queued, pending, hpc, Outcome.gone, Outcome.added]
  | releaseLast hpc =>
    simp only [PlayerFrames.tally, queued, pending, hpc, Outcome.gone, Outcome.added, List.count_append,
      Option.toList_none, List.count_nil]
    omega
  | shows hupdate _ =>
    simp only [PlayerFrames.tally, queued, pending, hupdate, Update.hand, Outcome.gone, Outcome.added,
      List.count_append, Option.toList_some, Option.toList_none, List.count_nil]
    omega
  | showFails hupdate _ =>
    simp only [PlayerFrames.tally, queued, pending, hupdate, Update.hand, Outcome.gone, Outcome.added,
      Option.toList_some, Option.toList_none, List.count_nil]
    omega
  | dump => rfl
  | takeFrame hacq =>
    have hcount := hacq.count (α := α) f
    simp only [PlayerFrames.tally, queued, pending, Outcome.gone, count_cons' (l := s.others),
      List.count_nil]
    omega
  | giveFrame hmem =>
    have hperm := (List.perm_cons_erase hmem).count_eq f
    rw [count_cons' (l := s.others.erase _)] at hperm
    simp only [PlayerFrames.tally, queued, pending, Outcome.gone, Outcome.added, List.count_nil,
      count_cons' (l := s.framePool)]
    omega

/-! ## Runs -/

theorem Move.frames (hmove : Move s o t) :
    (∃ f, o.added = [f] ∧ f ∉ s.frames ∧ t.frames = f :: s.frames) ∨
      (o.added = [] ∧ t.frames = s.frames) := by
  cases hmove with
  | acquireFrame _ hacq | takeFrame hacq =>
    rcases hacq with ⟨rfl, -, rfl⟩ | ⟨rfl, -, hnot, rfl⟩
    · exact .inr ⟨rfl, rfl⟩
    · exact .inl ⟨_, rfl, hnot, rfl⟩
  | _ => exact .inr ⟨rfl, rfl⟩

theorem lost_append (e : Event α) : lost (tr ++ [(e, o)]) = lost tr ++ o.gone := by
  unfold lost
  rw [List.filterMap_append]
  cases o <;> rfl

/-- Each frame that was allocated is at one place, or lost. -/
def Accounted (tr : List (Event α × Outcome α)) (s : State α) : Prop :=
  ∀ f, (places s).count f + (lost tr).count f = if f ∈ s.frames then 1 else 0

theorem Accounted.move (h : Accounted tr s) (hs : Inv s) (hmove : Move s o t) (e : Event α) :
    Accounted (tr ++ [(e, o)]) t := by
  intro f
  have hold := h f
  have hcount := hmove.tally hs f
  rw [count_places] at hold
  rw [count_places, lost_append, List.count_append]
  rcases hmove.frames with ⟨g, hadded, hnot, hframes⟩ | ⟨hadded, hframes⟩
  · rw [hadded, List.count_singleton] at hcount
    rw [hframes]
    by_cases hfg : f = g
    · subst hfg
      simp only [beq_self_eq_true, ↓reduceIte] at hcount
      rw [if_neg hnot] at hold
      rw [if_pos List.mem_cons_self]
      omega
    · have hne : (g == f) = false := by simpa using fun heq => hfg heq.symm
      simp only [hne, Bool.false_eq_true, ↓reduceIte] at hcount
      simp only [List.mem_cons, hfg, false_or]
      omega
  · rw [hadded, List.count_nil] at hcount
    rw [hframes]
    omega

/-- The steps of a run, with what holds before each of them. -/
theorem Run.moves {P : List (Event α × Outcome α) → State α → Prop} (hinit : P [] init)
    (hmove : ∀ tr s e o t, P tr s → Inv s → Accounted tr s → Move s o t → P (tr ++ [(e, o)]) t)
    (h : Run (Guarded step Sees) init tr s) : Inv s ∧ Accounted tr s ∧ P tr s := by
  have hall : (Halting s ∧ Inv s) ∧ Accounted tr s ∧ P tr s := by
    refine h.history (P := fun tr s => (Halting s ∧ Inv s) ∧ Accounted tr s ∧ P tr s)
      ⟨⟨Halting.init, Inv.init⟩, fun f => rfl, hinit⟩ ?_
    rintro tr s ⟨e, o⟩ t ⟨⟨hhalting, hs⟩, hacc, hP⟩ ⟨hsees, hstep⟩
    have hm := step_move hs.peeked hhalting hsees hstep
    exact ⟨⟨hhalting.move hm, hs.move hm⟩, hacc.move hs hm e, hmove tr s e o t hP hs hacc hm⟩
  exact ⟨hall.1.2, hall.2⟩

/-- **Frames are conserved**: in every order of the steps of the decoder, the video output, the main
    thread and the control thread each frame is at exactly one place, or was lost once; the video
    output dequeues what it has peeked. -/
theorem video_frames_conserved (h : Run (Guarded step Sees) (init : State α) tr s) :
    (∀ f, (places s).count f + (lost tr).count f = if f ∈ s.frames then 1 else 0) ∧
      s.output ≠ .aborted := by
  obtain ⟨hinv, hacc, -⟩ := Run.moves (P := fun _ _ => True) trivial (fun _ _ _ _ _ _ _ _ _ => trivial) h
  exact ⟨hacc, hinv.runs⟩

/-- A frame is decoded and shown; a second one is dropped while the output is halted; a third one is
    not filled, and the threads come to their end. -/
def film : List (Event Nat) :=
  [.checkpoint .enable, .pull, .acquireFrame (some 1), .sink (.frame 10 (some 0)),
    .acquirePacket (some 1), .put false, .acquirePacket (some 2), .put false, .checkpoint .here, .peek,
    .reset, .checkpoint .here, .peek, .delegateWindow true, .time 0 0, .waited, .send true, .get,
    .doupdate, .acquireFrame (some 2), .sink (.frame 20 (some 40000)), .acquirePacket none, .put false,
    .checkpoint .halt, .checkpoint .here, .checkpoint .worker, .checkpoint .worker, .checkpoint .wait,
    .drop, .checkpoint .continue, .checkpoint .worker, .checkpoint .worker, .checkpoint .worker,
    .acquireFrame none, .sink .eof, .exit, .close, .peek, .checkpoint .disable, .drain, .join,
    .delegateWindow true, .releaseLast]

theorem video_frames_conserved_film : ∃ (tr : List (Event Nat × Outcome Nat)) (s : State Nat),
    Run (Guarded step Sees) init tr s ∧ tr.map Prod.fst = film ∧ s.frames = [2, 1] ∧
      (∀ f, (places s).count f + (lost tr).count f = if f ∈ s.frames then 1 else 0) ∧
      s.output ≠ .aborted := by
  obtain ⟨tr, s, hrun, hevents, hframes⟩ := exists_run_of_guarded_exec step Sees init
    (fun tr s => tr.map Prod.fst = film ∧ s.frames = [2, 1]) film (by decide +kernel)
  exact ⟨tr, s, hrun, hevents, hframes, video_frames_conserved hrun⟩

/-- **Frames are returned**: when the video output has returned, each frame that was not lost is in
    the pool, or the audio decoder has it. -/
theorem frames_returned (h : Run (Guarded step Sees) (init : State α) tr s)
    (hreturned : s.output = .returned) (hlost : lost tr = []) {f : Addr} (hf : f ∈ s.frames) :
    (s.framePool ++ s.others).count f = 1 := by
  obtain ⟨hinv, hacc, -⟩ := Run.moves (P := fun _ _ => True) trivial (fun _ _ _ _ _ _ _ _ _ => trivial) h
  have hstage : 4 ≤ s.output.stage := by simp [hreturned, OutputPc.stage]
  have hplaces : places s = s.framePool ++ s.others := by
    have hqueue := hinv.empty (by omega)
    have hdecoder := hinv.exited (hinv.ends (by omega))
    simp only [places, queued, pending, hreturned, hqueue, hdecoder, hinv.quiet (by omega),
      hinv.gone hstage, DecoderPc.hand, Update.hand, List.flatMap_nil, Option.toList_none,
      List.append_nil]
  have hcount := hacc f
  rw [hplaces, hlost, if_pos hf, List.count_nil] at hcount
  exact hcount

theorem frames_returned_film : ∃ (tr : List (Event Nat × Outcome Nat)) (s : State Nat),
    Run (Guarded step Sees) init tr s ∧ tr.map Prod.fst = film ∧ s.output = .returned ∧
      lost tr = [] ∧ (s.framePool ++ s.others).count 1 = 1 := by
  obtain ⟨tr, s, hrun, hevents, hreturned, hlost, hmem⟩ := exists_run_of_guarded_exec step Sees init
    (fun tr s => tr.map Prod.fst = film ∧ s.output = .returned ∧ lost tr = [] ∧ 1 ∈ s.frames) film
    (by decide +kernel)
  exact ⟨tr, s, hrun, hevents, hreturned, hlost, frames_returned hrun hreturned hlost hmem⟩

/-! ## The order of the frames -/

/-- The frame that the decoder has, once it has an image. -/
def DecoderPc.filled : DecoderPc → Option Addr
  | .sink _ => none
  | pc => pc.hand

/-- The frames that were produced and are not shown yet, the oldest first. -/
def way (s : State α) : List Addr :=
  s.update.hand.toList ++ queued s ++ s.decoder.filled.toList

def Outcome.seen : Outcome α → List (Option α)
  | .shown image => [image]
  | _ => []

def Outcome.made : Outcome α → List α
  | .produced image => [image]
  | _ => []

/-- **The way of the frames**: a step that produces none takes frames from the way, from its front
    if it shows one. -/
theorem Move.way (hmove : Move s o t) (h : Inv s) (hmade : o.made = []) :
    t.image = s.image ∧
      (o.seen ++ (way t).map s.image).Sublist ((PlayerFrames.way s).map s.image) := by
  have hsub {t : State α} (hseen : o.seen = []) (hway : (PlayerFrames.way t).Sublist (PlayerFrames.way s)) :
      (o.seen ++ (PlayerFrames.way t).map s.image).Sublist ((PlayerFrames.way s).map s.image) := by
    rw [hseen]
    exact hway.map _
  have hsame {t : State α} (hseen : o.seen = []) (hway : PlayerFrames.way t = PlayerFrames.way s) :
      (o.seen ++ (PlayerFrames.way t).map s.image).Sublist ((PlayerFrames.way s).map s.image) :=
    hsub hseen (hway ▸ List.Sublist.refl _)
  cases hmove with
  | decoder hpc hnext =>
    refine ⟨rfl, hsame rfl ?_⟩
    rcases hnext with rfl | rfl | rfl <;>
      simp only [PlayerFrames.way, queued, pending, hpc, DecoderPc.filled, DecoderPc.hand]
  | acquireFrame hpc _ =>
    refine ⟨rfl, hsame rfl ?_⟩
    simp only [PlayerFrames.way, queued, pending, hpc, DecoderPc.filled, DecoderPc.hand]
  | produce _ => cases hmade
  | discard _ hnext =>
    refine ⟨rfl, hsub rfl (List.Sublist.append_left ?_ _)⟩
    rcases hnext with rfl | rfl | rfl <;> exact List.nil_sublist _
  | clock hpc | pack hpc | close hpc =>
    refine ⟨rfl, hsame rfl ?_⟩
    simp only [PlayerFrames.way, queued, pending, hpc, DecoderPc.filled, DecoderPc.hand]
  | stay => exact ⟨rfl, hsame rfl rfl⟩
  | @putClock frame packet value hpc _ =>
    have hq := queued_append h (t := { s with
      queue := s.queue ++ [(packet, .setClock value)]
      decoder := .packing frame }) rfl rfl
    refine ⟨rfl, hsame rfl ?_⟩
    simp only [PlayerFrames.way, hq, hpc, DecoderPc.filled, DecoderPc.hand, Content.frames,
      List.flatMap_cons, List.flatMap_nil, List.append_nil]
  | @putFrame frame packet hpc _ =>
    have hq := queued_append h (t := { s with
      queue := s.queue ++ [(packet, .video frame)]
      decoder := .pulling }) rfl rfl
    refine ⟨rfl, hsame rfl ?_⟩
    simp only [PlayerFrames.way, hq, hpc, DecoderPc.filled, DecoderPc.hand, Content.frames,
      List.flatMap_cons, List.flatMap_nil, List.append_nil, Option.toList_some, Option.toList_none,
      List.append_assoc]
  | peekFrame hpc _ hnext =>
    refine ⟨rfl, hsame rfl ?_⟩
    rcases hnext with rfl | rfl <;> simp only [PlayerFrames.way, queued, pending, hpc]
  | reset hpc hq =>
    refine ⟨rfl, hsame rfl ?_⟩
    simp only [PlayerFrames.way, queued, pending, hpc, hq, List.flatMap_cons, Content.frames,
      List.nil_append]
  | skip hpc _ | sendFails hpc =>
    have hpeeked := h.peeked
    simp only [Peeked, hpc] at hpeeked
    obtain ⟨rest, hq⟩ := hpeeked
    refine ⟨rfl, hsub rfl ?_⟩
    simp only [PlayerFrames.way, queued, pending, hpc, hq, List.tail_cons, List.flatMap_cons]
    exact ((List.sublist_append_right _ _).append_left _).append_right _
  | waited hpc hupdate =>
    have hnone := Update.hand_eq_none hupdate
    refine ⟨rfl, hsame rfl ?_⟩
    simp only [PlayerFrames.way, queued, pending, hpc, hnone]
    rfl
  | send hpc =>
    have hpeeked := h.peeked
    simp only [Peeked, hpc] at hpeeked
    obtain ⟨rest, hq⟩ := hpeeked
    refine ⟨rfl, hsame rfl ?_⟩
    simp only [PlayerFrames.way, queued, pending, hpc, hq, List.tail_cons, List.flatMap_cons,
      h.idle _ _ hpc, Update.hand, Content.frames, Option.toList_some, Option.toList_none,
      List.nil_append]
  | get hpc hq =>
    refine ⟨rfl, hsame rfl ?_⟩
    simp only [PlayerFrames.way, queued, pending, hpc, hq, List.tail_cons]
  | drop hpc hq =>
    refine ⟨rfl, hsub rfl ?_⟩
    rcases h.away_cases hpc (by simp [hq]) with hpc | hpc | hpc <;>
    · simp only [PlayerFrames.way, queued, pending, hpc, hq, List.flatMap_cons]
      exact ((List.sublist_append_right _ _).append_left _).append_right _
  | join hpc hupdate hnext =>
    have hnone := Update.hand_eq_none hupdate
    refine ⟨rfl, hsame rfl ?_⟩
    rcases hnext with rfl | rfl <;>
    · simp only [PlayerFrames.way, queued, pending, hpc, hnone]
      rfl
  | checkpoint _ hpc _ =>
    refine ⟨rfl, hsame rfl ?_⟩
    rcases OutputPc.after_cases hpc with rfl | ⟨hold, rfl⟩ | ⟨hold, rfl⟩ | ⟨hold, rfl⟩
    · rfl
    all_goals simp only [PlayerFrames.way, queued, pending, hold]
  | underrun hpc | create hpc | early hpc | destroyWindow hpc | releaseLast hpc =>
    exact ⟨rfl, hsame rfl (by simp only [PlayerFrames.way, queued, pending, hpc])⟩
  | peekClock hpc _ | shutdown hpc _ | present hpc _ | drained hpc _ =>
    exact ⟨rfl, hsame rfl (by simp only [PlayerFrames.way, queued, pending, hpc])⟩
  | shows hupdate _ =>
    refine ⟨rfl, ?_⟩
    simp only [PlayerFrames.way, queued, pending, hupdate, Update.hand, Option.toList_some,
      Option.toList_none, List.nil_append, List.cons_append, List.map_cons]
    exact List.Sublist.refl _
  | showFails hupdate _ =>
    refine ⟨rfl, hsub rfl ?_⟩
    simp only [PlayerFrames.way, queued, pending, hupdate, Update.hand, Option.toList_none]
    exact (List.nil_sublist _).append_right _ |>.append_right _
  | dump => exact ⟨rfl, hsame rfl rfl⟩
  | takeFrame _ | giveFrame _ => exact ⟨rfl, hsame rfl rfl⟩

theorem not_mem_way {frame : Addr} (h : Accounted tr s) (hpc : s.decoder = .sink frame) :
    frame ∉ way s := by
  intro hmem
  have hpos := List.count_pos_iff.mpr hmem
  have hcount := h frame
  simp only [way, hpc, DecoderPc.filled, List.count_append, Option.toList_none, List.count_nil] at hpos
  simp only [places, hpc, DecoderPc.hand, List.count_append, Option.toList_some, List.count_singleton,
    beq_self_eq_true, ↓reduceIte] at hcount
  split at hcount <;> omega

theorem produced_append (e : Event α) : produced (tr ++ [(e, o)]) = produced tr ++ o.made := by
  unfold produced
  rw [List.filterMap_append]
  cases o <;> rfl

theorem shown_append (e : Event α) : shown (tr ++ [(e, o)]) = shown tr ++ o.seen := by
  unfold shown
  rw [List.filterMap_append]
  cases o <;> rfl

/-- What was shown and what is on the way was produced, in this order. -/
def Ordered (tr : List (Event α × Outcome α)) (s : State α) : Prop :=
  (shown tr ++ (way s).map s.image).Sublist ((produced tr).map some)

theorem Ordered.move (h : Ordered tr s) (hs : Inv s) (hacc : Accounted tr s) (hmove : Move s o t)
    (e : Event α) : Ordered (tr ++ [(e, o)]) t := by
  unfold Ordered
  rw [produced_append, shown_append, List.map_append]
  cases hmade : o.made with
  | nil =>
    obtain ⟨himage, hway⟩ := hmove.way hs hmade
    rw [himage, List.append_assoc, List.map_nil, List.append_nil]
    exact (hway.append_left _).trans h
  | cons image rest =>
    cases hmove with
    | @produce frame image pts hpc =>
      have hway : way { s with
          image := Function.update s.image frame (some image)
          pts := Function.update s.pts frame pts
          decoder := if s.timeSet then .packing frame else .clocking frame } = way s ++ [frame] := by
        simp only [way, queued, pending, hpc, DecoderPc.filled, Option.toList_none, List.append_nil]
        cases s.timeSet <;> rfl
      have hold : (way s).map (Function.update s.image frame (some image)) = (way s).map s.image :=
        List.map_congr_left fun f hf => by
          have hne : f ≠ frame := fun heq => not_mem_way hacc hpc (heq ▸ hf)
          rw [Function.update_of_ne hne]
      rw [hway, List.map_append, hold, ← hmade]
      simp only [Outcome.seen, List.append_nil, List.map_cons, List.map_nil, Function.update_self,
        Outcome.made]
      rw [← List.append_assoc]
      exact h.append (List.Sublist.refl _)
    | _ => cases hmade

/-- **Frames are shown in order**: in every order of the steps, what was shown are images that were
    produced, in the order in which they were and each at most once; no frame is overwritten while it
    is on its way to the screen. -/
theorem frames_shown_in_order (h : Run (Guarded step Sees) (init : State α) tr s) :
    (shown tr).Sublist ((produced tr).map some) := by
  obtain ⟨-, -, hordered⟩ := Run.moves (P := Ordered) (List.Sublist.refl _)
    (fun _ _ e _ _ ho hs hacc hm => ho.move hs hacc hm e) h
  exact (List.sublist_append_left _ _).trans hordered

theorem frames_shown_in_order_film : ∃ (tr : List (Event Nat × Outcome Nat)) (s : State Nat),
    Run (Guarded step Sees) init tr s ∧ tr.map Prod.fst = film ∧ produced tr = [10, 20] ∧
      shown tr = [some 10] ∧ (shown tr).Sublist ((produced tr).map some) := by
  obtain ⟨tr, s, hrun, hevents, hproduced, hshown⟩ := exists_run_of_guarded_exec step Sees init
    (fun tr _ => tr.map Prod.fst = film ∧ produced tr = [10, 20] ∧ shown tr = [some 10]) film
    (by decide +kernel)
  exact ⟨tr, s, hrun, hevents, hproduced, hshown, frames_shown_in_order hrun⟩

end Mediabox.PlayerFrames
