import Mediabox.AudioPackets
import Mathlib.Algebra.BigOperators.Group.List.Basic

/-!
# Dropping the audio queue while it plays

`avbox_audiostream_drop` holds `io_lock` only, while the output thread works on a packet in three
sections under different locks and the writers count their frames before they put them.  So the
drop is safe only if it does not come between sections that belong together.  `Undisturbed` names
what must not happen, step by step; under it

* `Pointing` — the packet the output thread works on is the head of the queue, or was dropped and
  will be found missing by the comparison under `io_lock`;
* `Counted` — modulo the width of an `int`, `queued_frames` is the sum of the frames of the queued
  packets, of those in the hands of writers and of the drop, and of the fragment that was written
  and not yet subtracted;
* `drop_safe` — the assertion at the end of a drop holds, the output thread never dequeues another
  packet than the one it peeked, and every packet is released exactly once.

`drop_between_sections` is the interleaving that breaks the assertion.
-/

set_option autoImplicit false

namespace Mediabox.Audio

open Transition

variable {tr : List (Event × Outcome)} {s s' : State} {o : Outcome}

/-! ## The condition -/

/-- A packet that the output thread has peeked and will compare with the head before it writes. -/
def Output.pointer : Output → Option Addr
  | .peeked p | .data p | .sized p _ => some p
  | _ => none

/-- The output thread is past its last comparison with the head of the queue: it will take the
    packet off the queue, or read it again, whatever the queue holds by then. -/
def State.committed (s : State) : Bool :=
  match s.output with
  | .peeked p => (s.mem p).type = .clockSet
  | .clock _ | .clockSet _ | .wrote .. | .counted _ | .spent _ => true
  | _ => false

/-- The pool would hand out the packet at which the output thread still points. -/
def State.recycles (s : State) : Bool := s.output.pointer.isSome && listTail s.pool == s.output.pointer

/-- The drop is between its load and its store of `queued_frames`. -/
def Drop.subtracting : Drop → Bool
  | .loaded .. => true
  | _ => false

/-- What must not happen around a drop: a packet is handed out again while the output thread points
    at it; a writer counts its frames inside the drop's subtraction; a counted packet is lost on its
    way to the queue; a packet is dropped while the output thread is committed to it; the assertion
    is tested with frames of a writer under way or queued meanwhile. -/
def Undisturbed (s : State) : Event → Prop
  | .writer (.write _ n _) =>
    n.toNat = 0 ∨ s.maxFrames < s.queuedFrames ∨ (s.recycles = false ∧ s.drop.subtracting = false)
  | .writer (.setclock ..) => s.recycles = false
  | .writer (.put p accepted) => accepted = true ∨ p ∉ s.writing
  | .drop .take => s.committed = false
  | .drop .check => s.writing = [] ∧ ∀ p ∈ s.queue, (s.mem p).type = .clockSet
  | _ => True

instance (s : State) (e : Event) : Decidable (Undisturbed s e) := by
  unfold Undisturbed
  split <;> infer_instance

/-! ## The packet the output thread works on -/

/-- An allocated packet is out of the queue and not on its way back. -/
structure OutOf (allocated queue writing setting : List Addr) (p : Addr) : Prop where
  allocated : p ∈ allocated
  queue : p ∉ queue
  writing : p ∉ writing
  setting : p ∉ setting

abbrev State.Gone (s : State) (p : Addr) : Prop := OutOf s.allocated s.queue s.writing s.setting p

/-- The output thread's packet and the queue. -/
def Pointing (s : State) : Prop :=
  match s.output with
  | .peeked p => s.queue.head? = some p ∨ (s.Gone p ∧ (s.mem p).type = .dataPacket)
  | .data p => (s.queue.head? = some p ∧ (s.mem p).type = .dataPacket) ∨ s.Gone p
  | .sized p n =>
    (s.queue.head? = some p ∧ (s.mem p).type = .dataPacket ∧ n ≤ (s.mem p).nFrames) ∨ s.Gone p
  | .clock p | .clockSet p => s.queue.head? = some p ∧ (s.mem p).type = .clockSet
  | .wrote p _ | .counted p => s.queue.head? = some p ∧ (s.mem p).type = .dataPacket
  | .spent p =>
    s.queue.head? = some p ∧ (s.mem p).type = .dataPacket ∧ (s.mem p).nFrames = 0
  | .aborted _ => False
  | .idle | .taken _ | .ended => True

/-- A step of another party keeps `Pointing` when it takes nothing off the queue, brings no packet
    back at which the output thread points, and keeps the packets concerned as they are. -/
theorem Pointing.frame (h : Pointing s) (hout : s'.output = s.output)
    (hhead : ∀ p, s.queue.head? = some p → s'.queue.head? = some p)
    (hgone : ∀ p, s.output.pointer = some p → s.Gone p → s'.Gone p)
    (hmem : ∀ p, s.queue.head? = some p ∨ s.output.pointer = some p → s'.mem p = s.mem p) :
    Pointing s' := by
  unfold Pointing at h ⊢
  rw [hout]
  split at h
  · rename_i p hp
    have hptr : s.output.pointer = some p := by rw [hp]; rfl
    rw [hmem p (Or.inr hptr)]
    exact h.imp (hhead p) fun hg => ⟨hgone p hptr hg.1, hg.2⟩
  · rename_i p hp
    have hptr : s.output.pointer = some p := by rw [hp]; rfl
    rw [hmem p (Or.inr hptr)]
    exact h.imp (fun hg => ⟨hhead p hg.1, hg.2⟩) (hgone p hptr)
  · rename_i p n hp
    have hptr : s.output.pointer = some p := by rw [hp]; rfl
    rw [hmem p (Or.inr hptr)]
    exact h.imp (fun hg => ⟨hhead p hg.1, hg.2⟩) (hgone p hptr)
  all_goals first
    | exact ⟨hhead _ h.1, by rw [hmem _ (Or.inl h.1)]; exact h.2⟩
    | exact h

/-- The comparison under `io_lock` found the packet at the head: it was not dropped. -/
theorem Pointing.of_sized {p : Addr} {n : Nat} (h : Pointing s) (ho : s.output = .sized p n)
    (hq : s.queue.head? = some p) : (s.mem p).type = .dataPacket ∧ n ≤ (s.mem p).nFrames := by
  unfold Pointing at h
  simp only [ho] at h
  rcases h with hh | hg
  · exact hh.2
  · exact absurd (List.mem_of_head? hq) hg.queue

theorem pointer_ne {p q : Addr} {pool allocated : List Addr} (hp : Placed tr s) (h : Pointing s)
    (hfrom : Allocated s p pool allocated) (hrec : s.recycles = false)
    (hq : s.output.pointer = some q) : q ≠ p := by
  rintro rfl
  have hnotlive := hp.not_live hfrom
  rcases hfrom with ⟨hpool, -⟩ | ⟨-, hfresh, -⟩
  · -- the tail of the pool
    have htail : listTail s.pool = some q := listTail_eq_some.mpr ⟨pool, hpool⟩
    simp [State.recycles, hq, htail] at hrec
  · have hqueue : s.queue.head? ≠ some q := fun hh =>
      hnotlive (by simp [State.live, List.mem_of_head? hh])
    cases ho : s.output <;> simp only [ho, Output.pointer, Option.some.injEq, reduceCtorEq] at hq
    all_goals
      subst hq
      simp only [Pointing, ho, hqueue, false_and, false_or] at h
    · exact hfresh h.1.allocated
    · exact hfresh h.allocated
    · exact hfresh h.allocated

theorem stepWriter_pointing {e : WriterEvent} (hp : Placed tr s) (h : Pointing s)
    (hok : Undisturbed s (.writer e)) (hstep : WriterStep s e s' o) : Pointing s' := by
  have hlive : ∀ {p q : Addr}, s.queue.head? = some q → p ∉ s.live → q ≠ p := by
    rintro p q hq hp rfl
    exact hp (by simp [State.live, List.mem_of_head? hq])
  cases hstep with
  | refused => exact h
  | @write data n malloc p pool allocated hfrom hn hroom =>
    have hrec : s.recycles = false := by
      rcases hok with hz | hfull | hok
      · exact absurd hz hn
      · exact absurd hroom (Int.not_le.mpr hfull)
      · exact hok.1
    have hne : ∀ q, s.queue.head? = some q ∨ s.output.pointer = some q → q ≠ p := fun q hq =>
      hq.elim (fun hh => hlive hh (hp.not_live hfrom)) (pointer_ne hp h hfrom hrec)
    refine h.frame rfl (fun _ hq => hq) (fun q hq hg => ?_) (fun q hq => ?_)
    · refine ⟨?_, hg.queue, ?_, hg.setting⟩
      · rcases hfrom with ⟨-, ha⟩ | ⟨-, -, ha⟩
        · simpa [ha] using hg.allocated
        · simp [ha, hg.allocated]
      · simpa using ⟨hne q (Or.inr hq), hg.writing⟩
    · simp [State.fillData, hne q hq]
  | @setclock value malloc p pool allocated hfrom =>
    have hne : ∀ q, s.queue.head? = some q ∨ s.output.pointer = some q → q ≠ p := fun q hq =>
      hq.elim (fun hh => hlive hh (hp.not_live hfrom)) (pointer_ne hp h hfrom hok)
    refine h.frame rfl (fun _ hq => hq) (fun q hq hg => ?_) (fun q hq => ?_)
    · refine ⟨?_, hg.queue, hg.writing, ?_⟩
      · rcases hfrom with ⟨-, ha⟩ | ⟨-, -, ha⟩
        · simpa [ha] using hg.allocated
        · simp [ha, hg.allocated]
      · simpa using ⟨hne q (Or.inr hq), hg.setting⟩
    · simp [State.fillClock, hne q hq]
  | @putData p hmem =>
    refine h.frame rfl (fun q hq => ?_) (fun q _ hg => ?_) (fun _ _ => rfl)
    · simp [List.head?_append, hq]
    · have hqp : q ≠ p := fun hqp => hg.writing (hqp ▸ hmem)
      exact ⟨hg.allocated, by simp [hg.queue, hqp], fun hm => hg.writing (List.mem_of_mem_erase hm),
        hg.setting⟩
  | @putClock p hw hmem =>
    refine h.frame rfl (fun q hq => ?_) (fun q _ hg => ?_) (fun _ _ => rfl)
    · simp [List.head?_append, hq]
    · have hqp : q ≠ p := fun hqp => hg.setting (hqp ▸ hmem)
      exact ⟨hg.allocated, by simp [hg.queue, hqp], hg.writing,
        fun hm => hg.setting (List.mem_of_mem_erase hm)⟩
  | loseData =>
    exact h.frame rfl (fun _ hq => hq) (fun q _ hg => ⟨hg.allocated, hg.queue,
      fun hm => hg.writing (List.mem_of_mem_erase hm), hg.setting⟩) (fun _ _ => rfl)
  | loseClock =>
    exact h.frame rfl (fun _ hq => hq) (fun q _ hg => ⟨hg.allocated, hg.queue, hg.writing,
      fun hm => hg.setting (List.mem_of_mem_erase hm)⟩) (fun _ _ => rfl)

theorem stepOutput_pointing {e : OutputEvent} (h : Pointing s) (hstep : OutputStep s e s' o) :
    Pointing s' := by
  have hpt := h
  unfold Pointing at h
  cases hstep with
  | peek ho hq => simp [Pointing, hq]
  | readData ho ht =>
    simp only [ho] at h
    exact h.imp (fun hh => ⟨hh, ht⟩) And.left
  | readClock ho ht =>
    simp only [ho] at h
    rcases h with hh | ⟨-, hd⟩
    · exact ⟨hh, ht⟩
    · rw [ht] at hd; cases hd
  | resetClock ho | account ho => simpa only [Pointing, ho] using h
  | readSize ho =>
    simp only [ho] at h
    exact h.imp_left fun hh => ⟨hh.1, hh.2, Nat.min_le_right ..⟩
  | spent ho hn =>
    simp only [ho] at h
    exact ⟨h.1, h.2, hn⟩
  | leave ho hout => rcases hout with rfl | rfl <;> trivial
  | @writei p n k recovered ho hd hq hk hrec =>
    exact ⟨hq, by simpa [Packet.advance] using (hpt.of_sized ho hq).1⟩
  | more | get | release => trivial
  | abort ho hq hne =>
    rcases ho with ho | ho
    all_goals
      simp only [ho, hq, List.head?_cons, Option.some.injEq] at h
      exact absurd h.1 hne

theorem stepDrop_pointing {e : DropEvent} (hp : Placed tr s) (h : Pointing s)
    (hok : Undisturbed s (.drop e)) (hstep : DropStep s e s' o) : Pointing s' := by
  cases hstep with
  | lock | countEmpty | countMore | loadData | loadClock | store | release | checkOk | checkFailed =>
    exact h.frame rfl (fun _ hq => hq) (fun _ _ hg => ⟨hg.1, hg.2, hg.3, hg.4⟩) (fun _ _ => rfl)
  | @take p rest hd hq =>
    -- the dropped packet is queued once, and in nobody's hands
    have hgone : OutOf s.allocated rest s.writing s.setting p := by
      have hnd := (List.nodup_append.mp hp.nodup).2.1
      have hall := hp.allocated p (by simp [State.live, hq])
      simp only [State.live, hq, List.append_assoc, List.cons_append, List.nodup_cons,
        List.mem_append, not_or] at hnd
      exact ⟨hall, hnd.1.1, hnd.1.2.1, hnd.1.2.2.1⟩
    have hkeep : ∀ q, s.Gone q → OutOf s.allocated rest s.writing s.setting q :=
      fun q hg => ⟨hg.allocated, fun hm => hg.queue (by simp [hq, hm]), hg.writing, hg.setting⟩
    unfold Pointing at h
    unfold Undisturbed State.committed at hok
    cases ho : s.output with
    | peeked q =>
      simp only [ho, hq, List.head?_cons, Option.some.injEq, decide_eq_false_iff_not] at h hok
      have htype : (s.mem q).type = .dataPacket := by
        cases ht : (s.mem q).type with
        | dataPacket => rfl
        | clockSet => exact absurd ht hok
      rcases h with rfl | hg
      · exact Or.inr ⟨hgone, htype⟩
      · exact Or.inr ⟨hkeep q hg.1, htype⟩
    | data q | sized q n =>
      simp only [ho, hq, List.head?_cons, Option.some.injEq] at h
      rcases h with ⟨rfl, -⟩ | hg
      · exact Or.inr hgone
      · exact Or.inr (hkeep q hg)
    | clock q | clockSet q | wrote q k | counted q | spent q => simp [ho] at hok
    | aborted q => simp [ho] at h
    | idle | taken q | ended => trivial

theorem step_pointing {e : Event} (hp : Placed tr s) (h : Pointing s) (hok : Undisturbed s e)
    (hstep : step s e = some (s', o)) : Pointing s' := by
  have hnd : s.pool.Nodup := (List.nodup_append.mp hp.nodup).1
  cases e with
  | writer e => exact stepWriter_pointing hp h hok (stepWriter_cases hnd hstep)
  | output e => exact stepOutput_pointing h (stepOutput_cases hstep)
  | drop e => exact stepDrop_pointing hp h hok (stepDrop_cases hstep)

/-! ## What `queued_frames` counts -/

/-- The frames left in a packet. -/
def weight (mem : Addr → Packet) (p : Addr) : Int :=
  if (mem p).type = .dataPacket then (mem p).nFrames else 0

def framesIn (mem : Addr → Packet) (l : List Addr) : Int := (l.map (weight mem)).sum

/-- The fragment that was written and is still counted as queued. -/
def Output.pending : Output → Int
  | .wrote _ k => k
  | _ => 0

/-- The frames of the dropped packet that are still counted as queued. -/
def Drop.held (mem : Addr → Packet) : Drop → Int
  | .took p | .loaded p _ => weight mem p
  | _ => 0

/-- The frames that `queued_frames` stands for. -/
def State.outstanding (s : State) : Int :=
  framesIn s.mem s.queue + framesIn s.mem s.writing + s.output.pending + s.drop.held s.mem

/-- The drop has emptied the queue, or taken a packet off it. -/
def Drop.settled : Drop → Bool
  | .took _ | .loaded .. | .releasing _ | .checking => true
  | _ => false

structure Counted (s : State) : Prop where
  range : -2 ^ 31 ≤ s.queuedFrames ∧ s.queuedFrames < 2 ^ 31
  total : (2 ^ 32 : Int) ∣ s.queuedFrames - s.outstanding
  clocks : ∀ p ∈ s.setting, (s.mem p).type = .clockSet
  loaded : ∀ p v, s.drop = .loaded p v → v = s.queuedFrames ∧ (s.mem p).type = .dataPacket
  settled : s.drop.settled = true → ∀ p k, s.output ≠ .wrote p k
  passed : s.drop ≠ .failed

@[simp] theorem framesIn_nil (mem : Addr → Packet) : framesIn mem [] = 0 := rfl

@[simp] theorem framesIn_cons (mem : Addr → Packet) (p : Addr) (l : List Addr) :
    framesIn mem (p :: l) = weight mem p + framesIn mem l := by
  simp [framesIn]

@[simp] theorem framesIn_append (mem : Addr → Packet) (l m : List Addr) :
    framesIn mem (l ++ m) = framesIn mem l + framesIn mem m := by
  simp [framesIn]

theorem framesIn_erase (mem : Addr → Packet) {p : Addr} {l : List Addr} (hp : p ∈ l) :
    framesIn mem l = weight mem p + framesIn mem (l.erase p) := by
  have hperm := (List.perm_cons_erase hp).map (weight mem)
  simpa [framesIn] using hperm.sum_eq

theorem framesIn_congr {mem mem' : Addr → Packet} {l : List Addr} (h : ∀ p ∈ l, mem' p = mem p) :
    framesIn mem' l = framesIn mem l := by
  have hmap : l.map (weight mem') = l.map (weight mem) :=
    List.map_congr_left fun p hp => by simp [weight, h p hp]
  simp [framesIn, hmap]

theorem int32_range (x : Int) : -2 ^ 31 ≤ int32 x ∧ int32 x < 2 ^ 31 := by
  unfold int32
  omega

theorem int32_sub {x y : Int} (h : (2 ^ 32 : Int) ∣ x - y) : (2 ^ 32 : Int) ∣ int32 x - y := by
  unfold int32
  omega

theorem sizeSub_dvd (n : Nat) (k : Int) : (2 ^ 32 : Int) ∣ (sizeSub n k : Int) - (n - k) := by
  unfold sizeSub
  omega

/-- Filling in a packet that is nowhere changes no frames that are counted. -/
theorem outstanding_fill {p : Addr} {k : Packet} (hp : p ∉ s.live) :
    framesIn (Function.update s.mem p k) s.queue = framesIn s.mem s.queue ∧
      framesIn (Function.update s.mem p k) s.writing = framesIn s.mem s.writing ∧
      s.drop.held (Function.update s.mem p k) = s.drop.held s.mem := by
  simp only [State.live, List.mem_append, not_or] at hp
  have hne : ∀ {l : List Addr}, p ∉ l → ∀ q ∈ l, Function.update s.mem p k q = s.mem q := by
    intro l hl q hq
    refine Function.update_of_ne ?_ _ _
    rintro rfl
    exact hl hq
  refine ⟨framesIn_congr (hne hp.1.1.1.1), framesIn_congr (hne hp.1.1.1.2), ?_⟩
  cases hd : s.drop with
  | took q | loaded q v =>
    have hq : q ≠ p := fun hqp => hp.2 (by simp [hd, Drop.hand, hqp])
    simp [Drop.held, weight, hq]
  | idle | counting | taking | releasing q | checking | failed => rfl

/-- A call counts its frames once, when it takes its packet; putting a packet moves them. -/
theorem stepWriter_outstanding {e : WriterEvent} (hp : Placed tr s) (h : Counted s)
    (hok : Undisturbed s (.writer e)) (hstep : WriterStep s e s' o) :
    (s'.queuedFrames = s.queuedFrames ∧ s'.outstanding = s.outstanding) ∨
      ∃ data n malloc, e = .write data n malloc ∧ n.toNat ≠ 0 ∧ s.queuedFrames ≤ s.maxFrames ∧
        s'.queuedFrames = int32 (s.queuedFrames + n.toNat) ∧
        s'.outstanding = s.outstanding + n.toNat := by
  cases hstep with
  | refused | loseClock => exact Or.inl ⟨rfl, rfl⟩
  | @write data n malloc p pool allocated hfrom hn hroom =>
    obtain ⟨hqueue, hwriting, hheld⟩ := outstanding_fill (s := s)
      (k := ⟨s.calls, .dataPacket, n.toNat, data, ⟨data, n.toNat⟩⟩) (hp.not_live hfrom)
    refine Or.inr ⟨data, n, malloc, rfl, hn, hroom, rfl, ?_⟩
    simp only [State.outstanding, State.fillData, framesIn_cons, hqueue, hwriting, hheld]
    simp only [weight, Function.update_self, if_true, Packet.nFrames]
    omega
  | @setclock value malloc p pool allocated hfrom =>
    obtain ⟨hqueue, hwriting, hheld⟩ := outstanding_fill (s := s)
      (k := { s.mem p with serial := s.calls, type := .clockSet, word := (value % 2 ^ 64).toNat })
      (hp.not_live hfrom)
    refine Or.inl ⟨rfl, ?_⟩
    simp only [State.outstanding, State.fillClock, hqueue, hwriting, hheld]
  | @putData p hmem =>
    have herase := framesIn_erase s.mem hmem
    refine Or.inl ⟨rfl, ?_⟩
    simp only [State.outstanding, framesIn_append, framesIn_cons, framesIn_nil]
    omega
  | @putClock p hw hmem =>
    have hzero : weight s.mem p = 0 := by simp [weight, h.clocks p hmem]
    refine Or.inl ⟨rfl, ?_⟩
    simp [State.outstanding, hzero]
  | loseData hmem => exact absurd hmem (hok.resolve_left (by simp))

theorem stepWriter_counted {e : WriterEvent} (hp : Placed tr s) (h : Counted s)
    (hok : Undisturbed s (.writer e)) (hstep : WriterStep s e s' o) : Counted s' := by
  have htotal := h.total
  have hnumbers : (-2 ^ 31 ≤ s'.queuedFrames ∧ s'.queuedFrames < 2 ^ 31) ∧
      (2 ^ 32 : Int) ∣ s'.queuedFrames - s'.outstanding := by
    rcases stepWriter_outstanding hp h hok hstep with ⟨hq, hs⟩ | ⟨_, n, _, -, -, -, hq, hs⟩
    · rw [hq, hs]
      exact ⟨h.range, htotal⟩
    · rw [hq, hs]
      exact ⟨int32_range _, int32_sub (by omega)⟩
  refine ⟨hnumbers.1, hnumbers.2, ?_, ?_, ?_, ?_⟩
  all_goals cases hstep
  -- the packets of the clock calls in progress
  case refine_1.write data n malloc p pool allocated hfrom hn hroom =>
    intro q hq
    have hqp : q ≠ p := fun hqp =>
      hp.not_live hfrom (by simp [State.live, ← hqp, show q ∈ s.setting from hq])
    simpa [State.fillData, hqp] using h.clocks q hq
  case refine_1.setclock value malloc p pool allocated hfrom =>
    intro q hq
    rcases List.mem_cons.mp hq with rfl | hq
    · simp [State.fillClock]
    · have hqp : q ≠ p := fun hqp => hp.not_live hfrom (by simp [State.live, ← hqp, hq])
      simpa [State.fillClock, hqp] using h.clocks q hq
  case refine_1.putClock | refine_1.loseClock =>
    exact fun q hq => h.clocks q (List.mem_of_mem_erase hq)
  -- the packet of which the drop subtracts the frames
  case refine_2.write data n malloc p pool allocated hfrom hn hroom =>
    intro q v hd
    have hsub : s.drop.subtracting = false := by
      rcases hok with hz | hfull | hok
      · exact absurd hz hn
      · exact absurd hroom (Int.not_le.mpr hfull)
      · exact hok.2
    simp [show s.drop = .loaded q v from hd, Drop.subtracting] at hsub
  case refine_2.setclock value malloc p pool allocated hfrom =>
    intro q v hd
    have hd' : s.drop = .loaded q v := hd
    have hqp : q ≠ p := fun hqp => hp.not_live hfrom (by simp [State.live, hd', Drop.hand, hqp])
    simpa [State.fillClock, hqp] using h.loaded q v hd'
  all_goals first | exact h.clocks | exact h.loaded | exact h.settled | exact h.passed

/-- The output thread moves frames from a packet to its pending fragment, and gives these up when it
    subtracts them. -/
theorem stepOutput_outstanding {e : OutputEvent} (hp : Placed tr s) (hpt : Pointing s)
    (hstep : OutputStep s e s' o) :
    (s'.queuedFrames = s.queuedFrames ∧ s'.outstanding = s.outstanding) ∨
      (∃ p k, s.output = .wrote p k ∧ s'.queuedFrames = int32 (s.queuedFrames - k) ∧
        s'.outstanding = s.outstanding - k) ∨
      ∃ p n k, s.output = .sized p n ∧ s'.output = .wrote p k ∧ k ≤ n ∧
        s.queue.head? = some p ∧ s'.queuedFrames = s.queuedFrames ∧
        s'.outstanding = s.outstanding +
          (sizeSub (s.mem p).nFrames k - ((s.mem p).nFrames - k)) := by
  -- a section that moves no frames, from a state without a pending fragment
  have hkeep : ∀ out : Output, s.output.pending = 0 → out.pending = 0 →
      ∀ frames clockStart : Int, State.outstanding { s with
        output := out, frames := frames, clockStart := clockStart } = s.outstanding := by
    intro out hold hnew frames clockStart
    simp only [State.outstanding, hold, hnew]
  cases hstep with
  | peek ho | readData ho | readClock ho | resetClock ho | readSize ho | spent ho | more ho =>
    exact Or.inl ⟨rfl, hkeep _ (by rw [ho]; rfl) rfl _ _⟩
  | leave ho hout =>
    have hold : s.output.pending = 0 := by
      rcases ho with ho | ⟨p, n, ho⟩ <;> rw [ho] <;> rfl
    rcases hout with rfl | rfl <;> exact Or.inl ⟨rfl, hkeep _ hold rfl _ _⟩
  | @writei p n k recovered ho hd hq hk hrec =>
    obtain ⟨rest, hrest⟩ : ∃ rest, s.queue = p :: rest := List.head?_eq_some_iff.mp hq
    have hdata := (hpt.of_sized ho hq).1
    -- the packet is at the head of the queue and nowhere else
    have hnd := (List.nodup_append.mp hp.nodup).2.1
    simp only [State.live, hrest, List.append_assoc, List.cons_append, List.nodup_cons,
      List.mem_append, not_or] at hnd
    have hother : ∀ l : List Addr, p ∉ l →
        framesIn (Function.update s.mem p ((s.mem p).advance k)) l = framesIn s.mem l := by
      intro l hl
      refine framesIn_congr fun q hql => Function.update_of_ne ?_ _ _
      rintro rfl
      exact hl hql
    have hpend : s.output.pending = 0 := by rw [ho]; rfl
    refine Or.inr (Or.inr ⟨p, n, k, ho, rfl, hk, hq, rfl, ?_⟩)
    simp only [State.outstanding, hrest, framesIn_cons, hother _ hnd.1.1, hother _ hnd.1.2.1, hd,
      hpend, Drop.held]
    simp only [weight, Function.update_self, Packet.advance, hdata, if_true, Packet.nFrames,
      Output.pending]
    omega
  | @account p k ho =>
    refine Or.inr (Or.inl ⟨p, k, ho, rfl, ?_⟩)
    simp only [State.outstanding, ho, Output.pending]
    omega
  | @get p rest ho hq =>
    have hzero : weight s.mem p = 0 := by
      unfold Pointing at hpt
      rcases ho with ho | ho <;> simp only [ho] at hpt
      · simp [weight, hpt.2]
      · simp [weight, hpt.2.1, hpt.2.2]
    have hpend : s.output.pending = 0 := by rcases ho with ho | ho <;> rw [ho] <;> rfl
    refine Or.inl ⟨rfl, ?_⟩
    simp only [State.outstanding, hq, framesIn_cons, hzero, hpend, Int.zero_add]
    rfl
  | @abort p q rest ho hq hne =>
    unfold Pointing at hpt
    rcases ho with ho | ho
    all_goals
      simp only [ho, hq, List.head?_cons, Option.some.injEq] at hpt
      exact absurd hpt.1 hne
  | release ho =>
    refine Or.inl ⟨rfl, ?_⟩
    simp only [State.outstanding, ho]
    rfl

theorem stepOutput_counted {e : OutputEvent} (hp : Placed tr s) (hpt : Pointing s) (h : Counted s)
    (hstep : OutputStep s e s' o) : Counted s' := by
  have htotal := h.total
  have hnumbers : (-2 ^ 31 ≤ s'.queuedFrames ∧ s'.queuedFrames < 2 ^ 31) ∧
      (2 ^ 32 : Int) ∣ s'.queuedFrames - s'.outstanding := by
    rcases stepOutput_outstanding hp hpt hstep with
      ⟨hq, hs⟩ | ⟨p, k, -, hq, hs⟩ | ⟨p, n, k, -, -, -, -, hq, hs⟩
    · rw [hq, hs]
      exact ⟨h.range, htotal⟩
    · rw [hq, hs]
      exact ⟨int32_range _, int32_sub (by omega)⟩
    · have hsub := sizeSub_dvd (s.mem p).nFrames k
      rw [hq, hs]
      exact ⟨h.range, by omega⟩
  cases hstep with
  | @writei p n k recovered ho hd hq hk hrec =>
    refine ⟨hnumbers.1, hnumbers.2, fun q hqs => ?_, ?_, ?_, h.passed⟩
    · have hqp : q ≠ p := by
        rintro rfl
        have hnd := (List.nodup_append.mp hp.nodup).2.1
        simp only [State.live, List.append_assoc] at hnd
        exact (List.nodup_append.mp hnd).2.2 q (List.mem_of_head? hq) q
          (List.mem_append_right _ (List.mem_append_left _ hqs)) rfl
      simpa [hqp] using h.clocks q hqs
    · intro q v hl
      rw [hd] at hl
      cases hl
    · intro hset
      rw [hd] at hset
      cases hset
  | @account p k ho =>
    refine ⟨hnumbers.1, hnumbers.2, h.clocks, fun q v hl => ?_, fun _ => by simp, h.passed⟩
    have hl' : s.drop = .loaded q v := hl
    exact absurd ho (h.settled (by rw [hl']; rfl) p k)
  | leave ho hout =>
    refine ⟨hnumbers.1, hnumbers.2, h.clocks, h.loaded, fun _ => ?_, h.passed⟩
    rcases hout with rfl | rfl <;> simp
  | peek | readData | readClock | resetClock | readSize | spent | more | get | abort | release =>
    exact ⟨hnumbers.1, hnumbers.2, h.clocks, h.loaded, fun _ => by simp, h.passed⟩

theorem stepDrop_counted {e : DropEvent} (hpt : Pointing s) (h : Counted s)
    (hok : Undisturbed s (.drop e)) (hstep : DropStep s e s' o) : Counted s' := by
  have htotal := h.total
  unfold State.outstanding at htotal
  have hbusy : s.queue = [] → ∀ p k, s.output ≠ .wrote p k := by
    intro hq p k ho
    unfold Pointing at hpt
    simp [ho, hq] at hpt
  cases hstep with
  | lock hd | countMore hd | release hd | checkOk hd =>
    refine ⟨h.range, ?_, h.clocks, by simp, by simp [Drop.settled], by simp⟩
    simpa only [State.outstanding, hd, Drop.held] using htotal
  | countEmpty hd hq =>
    refine ⟨h.range, ?_, h.clocks, by simp, fun _ => hbusy hq, by simp⟩
    simpa only [State.outstanding, hd, Drop.held] using htotal
  | @take p rest hd hq =>
    refine ⟨h.range, ?_, h.clocks, by simp, fun _ q k ho => ?_, by simp⟩
    · simp only [hq, framesIn_cons, hd, Drop.held] at htotal
      simp only [State.outstanding, Drop.held]
      omega
    · have ho' : s.output = .wrote q k := ho
      simp [Undisturbed, State.committed, ho'] at hok
  | @loadData p hd ht =>
    refine ⟨h.range, ?_, h.clocks, ?_, fun _ => h.settled (by rw [hd]; rfl), by simp⟩
    · simpa only [State.outstanding, hd, Drop.held] using htotal
    · rintro q v hl
      cases hl
      exact ⟨rfl, ht⟩
  | @loadClock p hd ht =>
    have hzero : weight s.mem p = 0 := by simp [weight, ht]
    refine ⟨h.range, ?_, h.clocks, by simp, fun _ => h.settled (by rw [hd]; rfl), by simp⟩
    simpa only [State.outstanding, hd, Drop.held, hzero] using htotal
  | @store p v hd =>
    obtain ⟨rfl, ht⟩ := h.loaded p v hd
    refine ⟨int32_range _, int32_sub ?_, h.clocks, by simp, fun _ => h.settled (by rw [hd]; rfl),
      by simp⟩
    simp only [hd, Drop.held, weight, ht, if_true] at htotal
    simp only [State.outstanding, Drop.held]
    omega
  | checkFailed hd hz =>
    -- nothing is outstanding, so the counter is zero modulo its width
    obtain ⟨hwriting, hclocks⟩ := hok
    have hqueue : framesIn s.mem s.queue = 0 := by
      unfold framesIn
      refine List.sum_eq_zero fun x hx => ?_
      obtain ⟨p, hp, rfl⟩ := List.mem_map.mp hx
      simp [weight, hclocks p hp]
    have hpend : s.output.pending = 0 := by
      cases ho : s.output with
      | wrote p k => exact absurd ho (h.settled (by rw [hd]; rfl) p k)
      | _ => rfl
    simp only [hqueue, hwriting, framesIn_nil, hpend, hd, Drop.held] at htotal
    have hrange := h.range
    exact absurd (by omega) hz

theorem step_counted {e : Event} (hp : Placed tr s) (hpt : Pointing s) (h : Counted s)
    (hok : Undisturbed s e) (hstep : step s e = some (s', o)) : Counted s' := by
  have hnd : s.pool.Nodup := (List.nodup_append.mp hp.nodup).1
  cases e with
  | writer e => exact stepWriter_counted hp h hok (stepWriter_cases hnd hstep)
  | output e => exact stepOutput_counted hp hpt h (stepOutput_cases hstep)
  | drop e => exact stepDrop_counted hpt h hok (stepDrop_cases hstep)

/-! ## Whole runs -/

/-- The invariant of undisturbed runs. -/
structure Steady (tr : List (Event × Outcome)) (s : State) : Prop where
  placed : Placed tr s
  pointing : Pointing s
  counted : Counted s

theorem init_steady (maxFrames : Int) (period : Nat) : Steady [] (init maxFrames period) := by
  refine ⟨init_placed maxFrames period, trivial, ?_⟩
  constructor
  · simp [init]
  · simp [init, State.outstanding, Output.pending, Drop.held]
  · intro p hp; cases hp
  · intro p v hd; cases hd
  · intro hd; cases hd
  · intro hd; cases hd

theorem step_steady {e : Event} (h : Steady tr s) (hok : Undisturbed s e)
    (hstep : step s e = some (s', o)) : Steady (tr ++ [(e, o)]) s' :=
  ⟨step_placed h.placed hstep, step_pointing h.placed h.pointing hok hstep,
    step_counted h.placed h.pointing h.counted hok hstep⟩

theorem run_steady {maxFrames : Int} {period : Nat}
    (h : Run (Guarded step Undisturbed) (init maxFrames period) tr s) : Steady tr s :=
  Run.history (init_steady maxFrames period)
    (fun _ _ _ _ hs hstep => step_steady hs hstep.1 hstep.2) h

/-- The fillings of packets that are under way. -/
def State.underWay (s : State) : List Nat := s.live.map fun p => (s.mem p).serial

/-- **Dropping audio**: in an undisturbed run the assertion of the drop holds, the output thread
    never dequeues another packet than its own, and each packet that was filled in is released
    exactly once, unless it is still under way. -/
theorem drop_safe {maxFrames : Int} {period : Nat}
    (h : Run (Guarded step Undisturbed) (init maxFrames period) tr s) :
    s.drop ≠ .failed ∧ (∀ p, s.output ≠ .aborted p) ∧
      ∀ i < s.calls, (released tr).count i = if i ∈ s.underWay then 0 else 1 := by
  have hs := run_steady h
  refine ⟨hs.counted.passed, fun p ho => ?_, fun i hi => ?_⟩
  · have hpt := hs.pointing
    simp [Pointing, ho] at hpt
  · have honce := hs.placed.once i
    rw [if_pos hi] at honce
    change (released tr).count i + s.underWay.count i = 1 at honce
    split
    · rename_i hm
      have hpos : 0 < s.underWay.count i := List.count_pos_iff.mpr hm
      omega
    · rename_i hm
      rw [List.count_eq_zero_of_not_mem hm] at honce
      omega

/-- A packet is dropped while the output thread waits for the device; it finds another head, and the
    stream plays on. -/
theorem drop_safe_waiting : ∃ tr s, Run (Guarded step Undisturbed) (init 100 4) tr s ∧
    s.drop = .idle ∧ s.output = .idle ∧ released tr = [0] ∧
      (∀ i < s.calls, (released tr).count i = if i ∈ s.underWay then 0 else 1) := by
  have hrun : Run (Guarded step Undisturbed) (init 100 4) _ _ :=
    run_of_guarded_exec [.writer (.write 0 6 (some 1)), .writer (.put 1 true), .output .peek,
      .output .readType, .output .readSize, .drop .lock, .drop .count, .drop .take, .drop .load,
      .drop .store, .drop .release, .drop .count, .drop .check, .output (.writei 4 false)] rfl
  exact ⟨_, _, hrun, rfl, rfl, rfl, (drop_safe hrun).2.2⟩

/-- The last fragment of a packet is written and not yet subtracted when the drop comes: its
    assertion fails.  Had the subtraction come first, the drop would pass, and the output thread
    would take the next packet for its own and abort. -/
theorem drop_between_sections :
    (∃ tr s, Run (Step step) (init 100 4) tr s ∧ s.drop = .failed) ∧
      ∃ tr s, Run (Step step) (init 100 4) tr s ∧ s.drop = .idle ∧ s.output = .aborted 2 := by
  constructor
  · have hrun : Run (Step step) (init 100 4) _ _ :=
      run_of_exec [.writer (.write 0 4 (some 1)), .writer (.put 1 true), .output .peek,
        .output .readType, .output .readSize, .output (.writei 4 false), .drop .lock, .drop .count,
        .drop .take, .drop .load, .drop .store, .drop .release, .drop .count, .drop .check] rfl
    exact ⟨_, _, hrun, rfl⟩
  · have hrun : Run (Step step) (init 100 4) _ _ :=
      run_of_exec [.writer (.setclock 0 (some 2)), .writer (.put 2 true), .output .peek,
        .output .readType, .writer (.write 0 4 (some 1)), .writer (.put 1 true),
        .output .resetClock, .output .get, .output .release, .output .peek, .output .readType,
        .output .readSize, .output (.writei 4 false), .output .account, .drop .lock, .drop .count,
        .drop .take, .drop .load, .drop .store, .drop .release, .drop .count, .drop .check,
        .output .readLeft, .writer (.write 16 4 none), .writer (.put 2 true), .output .get] rfl
    exact ⟨_, _, hrun, rfl, rfl⟩

end Mediabox.Audio
