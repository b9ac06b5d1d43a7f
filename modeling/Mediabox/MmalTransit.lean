import Mathlib.Data.Multiset.AddSub
import Mathlib.Tactic.Common
import Mediabox.Lib.Transition

/-!
# The frames of the MMAL decoder (`src/lib/ui/mmaldecode.c`)

A decoded frame points to the context on the stack of `avbox_mmal_decode`, and `in_transit` is to
say how many of them the player still has.

* A step is one access of the output callback, of `avbox_mmal_release_frame_buffer` or of the decoder
  thread to the context, the pool, the port or the queue.  Any number of callbacks and releases run
  at the same time; they are kept by where they stand.
* A release runs on the thread that drops the last reference to a frame: the output thread, the
  control thread, or a callback whose put failed.  A send that fails releases a second frame inside
  of the first release; `outer` counts the releases around one.
* `avbox_queue_put` fails with ESHUTDOWN only where the queue is closed and full.
* `delivered` is bookkeeping: the frames that were put into `video_frames_q` and whose last
  reference was not dropped yet.  The player takes packets and drops references in any order.

Main result: `frames_contained` — `in_transit` is the number of these frames whenever no callback
runs, and there is none when the decoder leaves its last wait, in every run without a failed put or
send in which that wait does not end between a put and its increment.
-/

set_option autoImplicit false

namespace Mediabox.MmalTransit

open Transition

/-! ## The code -/

/-- Where an `avbox_mmal_output_port_cb` with a frame stands. -/
inductive Callback where
  /-- `if (!ctx->time_set)` -/
  | test
  /-- `ctx->time_set = 1` -/
  | setClock
  /-- `avbox_queue_put` of the clock packet -/
  | putClock
  /-- `avbox_queue_put` of the frame -/
  | putFrame
  /-- `ATOMIC_INC(&ctx->in_transit)` -/
  | count
  deriving DecidableEq, Repr

/-- Where an `avbox_mmal_release_frame_buffer` stands. -/
inductive ReleasePc where
  /-- `mmal_buffer_header_release` -/
  | header
  /-- `avbox_mmal_send_output_buffer` -/
  | resend
  /-- `ATOMIC_DEC(&ctx->in_transit)` -/
  | dec
  deriving DecidableEq, Repr

structure Release where
  pc : ReleasePc
  /-- releases on the same stack that wait for this one -/
  outer : Nat
  deriving DecidableEq, Repr

/-- Where `avbox_mmal_decode` stands. -/
inductive Decoder where
  | running
  /-- in the loop that waits for the pipeline to flush -/
  | flushing
  /-- at the label `end` -/
  | closing
  /-- in the loop that waits for the frames in transit -/
  | waiting
  | left
  deriving DecidableEq, Repr

structure State where
  /-- free headers of `output_pool` -/
  pool : Nat
  /-- buffers with the output port -/
  port : Nat
  /-- packets in `video_frames_q` -/
  queued : Nat
  closed : Bool
  delivered : Nat
  timeSet : Bool
  inTransit : Int
  callbacks : Multiset Callback
  releases : Multiset Release
  decoder : Decoder
  deriving DecidableEq

/-- The output pool has this many headers. -/
def init (headers : Nat) : State :=
  ⟨headers, 0, 0, false, 0, false, 0, 0, 0, .running⟩

/-- What `avbox_queue_put` answers. -/
inductive Put where
  | stored
  | eagain
  | eshutdown
  | enomem
  deriving DecidableEq, Repr

inductive Event where
  /-- `avbox_mmal_output_port_fill` sends a buffer -/
  | fill (sent : Bool)
  /-- the port gives a buffer back without a frame -/
  | empty
  /-- the port calls back with a frame -/
  | frame
  /-- a callback goes on -/
  | callback (c : Callback) (put : Put)
  /-- the player takes a packet out of the queue -/
  | take
  /-- the last reference to a delivered frame is dropped -/
  | release
  /-- a release goes on; `sent` is the answer of `mmal_port_send_buffer` -/
  | releasing (r : Release) (sent : Bool)
  /-- the decoder starts to flush -/
  | flush
  /-- the test of the flush loop, with `packets` buffers missing in the input pool -/
  | flushed (packets : Nat)
  /-- `goto end`, or the `break` out of the loop -/
  | exit
  /-- `avbox_queue_close` -/
  | close
  /-- the test of the last loop -/
  | wait
  deriving DecidableEq, Repr

variable (sz : Nat) (s : State)

def State.full : Bool := 0 < sz ∧ sz ≤ s.queued

/-- `avbox_queue_put` can give this answer. -/
def State.answers : Put → Bool
  | .stored => !s.full sz
  | .eagain => s.full sz
  | .eshutdown => s.full sz && s.closed
  | .enomem => true

/-- `av_frame_unref` of the last reference. -/
def State.unref : State := { s with releases := ⟨.header, 0⟩ ::ₘ s.releases }

/-- The loop around `avbox_queue_put`: `c` is left for what `stored` makes of the state. -/
def State.put (c : Callback) (stored : State) (put : Put) : Option State :=
  if s.answers sz put then
    match put with
    | .stored => some stored
    | .eagain => some s
    | .eshutdown | .enomem => some { s with callbacks := s.callbacks.erase c }.unref
  else none

def State.callback (c : Callback) (put : Put) : Option State :=
  let rest := s.callbacks.erase c
  if c ∈ s.callbacks then
    match c with
    | .test => some { s with callbacks := (if s.timeSet then .putFrame else .setClock) ::ₘ rest }
    | .setClock => some { s with timeSet := true, callbacks := .putClock ::ₘ rest }
    | .putClock =>
      s.put sz .putClock { s with queued := s.queued + 1, callbacks := .putFrame ::ₘ rest } put
    | .putFrame =>
      s.put sz .putFrame { s with
        queued := s.queued + 1, delivered := s.delivered + 1, callbacks := .count ::ₘ rest } put
    | .count => some { s with inTransit := s.inTransit + 1, callbacks := rest }
  else none

/-- `avbox_mmal_release_frame_buffer` -/
def State.releasing (r : Release) (sent : Bool) : Option State :=
  let rest := s.releases.erase r
  if r ∈ s.releases then
    match r.pc with
    | .header => some { s with pool := s.pool + 1, releases := ⟨.resend, r.outer⟩ ::ₘ rest }
    | .resend =>
      if s.pool = 0 then some { s with releases := ⟨.dec, r.outer⟩ ::ₘ rest }
      else if sent then
        some { s with
          pool := s.pool - 1, port := s.port + 1, releases := ⟨.dec, r.outer⟩ ::ₘ rest }
      else some { s with pool := s.pool - 1, releases := ⟨.header, r.outer + 1⟩ ::ₘ rest }
    | .dec =>
      match r.outer with
      | 0 => some { s with inTransit := s.inTransit - 1, releases := rest }
      | outer + 1 =>
        some { s with inTransit := s.inTransit - 1, releases := ⟨.dec, outer⟩ ::ₘ rest }
  else none

/-- One step, with a queue of this size. -/
def next : Event → Option State
  | .fill sent =>
    if s.decoder = .running ∧ 0 < s.pool then
      if sent then some { s with pool := s.pool - 1, port := s.port + 1 }
      else some { s with pool := s.pool - 1 }.unref
    else none
  | .empty => if 0 < s.port then some { s with port := s.port - 1, pool := s.pool + 1 } else none
  | .frame =>
    if 0 < s.port then some { s with port := s.port - 1, callbacks := .test ::ₘ s.callbacks }
    else none
  | .callback c put => s.callback sz c put
  | .take => if 0 < s.queued then some { s with queued := s.queued - 1 } else none
  | .release =>
    if 0 < s.delivered then some { s with delivered := s.delivered - 1 }.unref else none
  | .releasing r sent => s.releasing r sent
  | .flush => if s.decoder = .running then some { s with decoder := .flushing } else none
  | .flushed packets =>
    if s.decoder = .flushing then
      if packets = 0 ∧ s.inTransit ≤ 1 then some { s with decoder := .running, timeSet := false }
      else some s
    else none
  | .exit => if s.decoder = .running then some { s with decoder := .closing } else none
  | .close =>
    if s.decoder = .closing then some { s with decoder := .waiting, closed := true } else none
  | .wait =>
    if s.decoder = .waiting then
      if s.inTransit > 0 then some s else some { s with decoder := .left }
    else none

def step (e : Event) : Option (State × Unit) := (next sz s e).map (·, ())

/-! ## The property -/

/-- The context outlives the frames, and its counter counts them. -/
structure Contained : Prop where
  counted : s.callbacks = 0 → s.releases = 0 → s.inTransit = s.delivered
  left : s.decoder = .left → s.delivered = 0

/-- No put and no send to the output port fails, the last wait does not end while a callback is
between its put and its increment, and no frame is put after it. -/
def Orderly : Event → Prop
  | .fill sent => sent = true
  | .callback .putClock put => put = .stored ∨ put = .eagain
  | .callback .putFrame put => put = .stored ∧ s.decoder ≠ .left ∨ put = .eagain
  | .releasing ⟨.resend, _⟩ sent => s.pool = 0 ∨ sent = true
  | .wait => 0 < s.inTransit ∨ Callback.count ∉ s.callbacks
  | _ => True

instance : ∀ e, Decidable (Orderly s e)
  | .fill _ => inferInstanceAs (Decidable (_ = _))
  | .callback .putClock _ | .callback .putFrame _ | .releasing ⟨.resend, _⟩ _ | .wait =>
    inferInstanceAs (Decidable (_ ∨ _))
  | .empty | .frame | .callback .test _ | .callback .setClock _ | .callback .count _ | .take
  | .release | .releasing ⟨.header, _⟩ _ | .releasing ⟨.dec, _⟩ _ | .flush | .flushed _ | .exit
  | .close => inferInstanceAs (Decidable True)

/-! ## The invariant -/

structure Inv : Prop where
  counted : s.inTransit + s.callbacks.count .count = s.delivered + s.releases.card
  outer : ∀ r ∈ s.releases, r.outer = 0
  left : s.decoder = .left → s.delivered = 0 ∧ s.releases = 0 ∧ .count ∉ s.callbacks

variable {sz s} {t : State}

theorem Inv.init (headers : Nat) : Inv (init headers) where
  counted := by simp [MmalTransit.init]
  outer := by simp [MmalTransit.init]
  left h := by cases h

theorem Inv.contained (h : Inv s) : Contained s where
  counted hcallbacks hreleases := by
    have hcounted := h.counted
    rw [hcallbacks, hreleases] at hcounted
    simpa using hcounted
  left hleft := (h.left hleft).1

/-- A callback goes from a place before its put to another one, or to the put. -/
theorem Inv.move (h : Inv s) {c x : Callback} {rest : Multiset Callback}
    (hcallbacks : s.callbacks = c ::ₘ rest) (hc : c ≠ .count) (hx : x ≠ .count) (timeSet : Bool)
    (queued : Nat) : Inv { s with timeSet, queued, callbacks := x ::ₘ rest } where
  counted := by
    have hcounted := h.counted
    rw [hcallbacks, Multiset.count_cons_of_ne hc.symm] at hcounted
    simpa [Multiset.count_cons_of_ne hx.symm] using hcounted
  outer := h.outer
  left hleft := by
    obtain ⟨hdelivered, hreleases, hnone⟩ := h.left hleft
    rw [hcallbacks, Multiset.mem_cons, not_or] at hnone
    refine ⟨hdelivered, hreleases, ?_⟩
    simpa [hx.symm] using hnone.2

theorem Inv.put (h : Inv s) {rest : Multiset Callback}
    (hcallbacks : s.callbacks = .putFrame ::ₘ rest) (hleft : s.decoder ≠ .left) (queued : Nat) :
    Inv { s with queued, delivered := s.delivered + 1, callbacks := .count ::ₘ rest } where
  counted := by
    have hcounted := h.counted
    rw [hcallbacks, Multiset.count_cons_of_ne (by simp)] at hcounted
    rw [Multiset.count_cons_self]
    dsimp only
    omega
  outer := h.outer
  left hl := absurd hl hleft

theorem Inv.count (h : Inv s) {rest : Multiset Callback}
    (hcallbacks : s.callbacks = .count ::ₘ rest) :
    Inv { s with inTransit := s.inTransit + 1, callbacks := rest } where
  counted := by
    have hcounted := h.counted
    rw [hcallbacks, Multiset.count_cons_self] at hcounted
    dsimp only
    omega
  outer := h.outer
  left hleft := by
    obtain ⟨-, -, hnone⟩ := h.left hleft
    exact absurd (hcallbacks ▸ Multiset.mem_cons_self .count rest) hnone

theorem Inv.callback (h : Inv s) {c : Callback} {put : Put} (hok : Orderly s (.callback c put))
    (hs : s.callback sz c put = some t) : Inv t := by
  unfold State.callback at hs
  dsimp only at hs
  split at hs
  · rename_i hmem
    obtain ⟨rest, hrest⟩ := Multiset.exists_cons_of_mem hmem
    rw [hrest, Multiset.erase_cons_head] at hs
    cases c with
    | test =>
      cases hs
      apply h.move hrest (by simp)
      split <;> simp
    | setClock =>
      cases hs
      exact h.move hrest (by simp) (by simp) true s.queued
    | putClock =>
      dsimp only [State.put] at hs
      split at hs
      · rcases hok with rfl | rfl
        · cases hs
          exact h.move hrest (by simp) (by simp) s.timeSet _
        · cases hs
          exact h
      · cases hs
    | putFrame =>
      dsimp only [State.put] at hs
      split at hs
      · rcases hok with ⟨rfl, hleft⟩ | rfl
        · cases hs
          exact h.put hrest hleft _
        · cases hs
          exact h
      · cases hs
    | count =>
      cases hs
      exact h.count hrest
  · cases hs

theorem Inv.release (h : Inv s) (hpos : 0 < s.delivered) :
    Inv { s with delivered := s.delivered - 1 }.unref where
  counted := by
    have hcounted := h.counted
    dsimp only [State.unref]
    rw [Multiset.card_cons]
    omega
  outer r hr := by
    rcases Multiset.mem_cons.mp hr with rfl | hr
    · rfl
    · exact h.outer r hr
  left hleft := by
    have hzero := (h.left hleft).1
    omega

theorem Inv.advance (h : Inv s) {r x : Release} {rest : Multiset Release}
    (hreleases : s.releases = r ::ₘ rest) (hx : x.outer = 0) (pool port : Nat) :
    Inv { s with pool, port, releases := x ::ₘ rest } where
  counted := by
    have hcounted := h.counted
    rw [hreleases, Multiset.card_cons] at hcounted
    simpa using hcounted
  outer y hy := by
    rcases Multiset.mem_cons.mp hy with rfl | hy
    · exact hx
    · exact h.outer y (hreleases ▸ Multiset.mem_cons_of_mem hy)
  left hleft := by
    have hnone := (h.left hleft).2.1
    rw [hreleases] at hnone
    exact absurd hnone (Multiset.cons_ne_zero)

theorem Inv.released (h : Inv s) {r : Release} {rest : Multiset Release}
    (hreleases : s.releases = r ::ₘ rest) :
    Inv { s with inTransit := s.inTransit - 1, releases := rest } where
  counted := by
    have hcounted := h.counted
    rw [hreleases, Multiset.card_cons] at hcounted
    dsimp only
    omega
  outer y hy := h.outer y (hreleases ▸ Multiset.mem_cons_of_mem hy)
  left hleft := by
    have hnone := (h.left hleft).2.1
    rw [hreleases] at hnone
    exact absurd hnone (Multiset.cons_ne_zero)

theorem Inv.releasing (h : Inv s) {r : Release} {sent : Bool}
    (hok : Orderly s (.releasing r sent)) (hs : s.releasing r sent = some t) : Inv t := by
  unfold State.releasing at hs
  dsimp only at hs
  split at hs
  · rename_i hmem
    have houter := h.outer r hmem
    obtain ⟨rest, hrest⟩ := Multiset.exists_cons_of_mem hmem
    rw [hrest, Multiset.erase_cons_head] at hs
    obtain ⟨pc, outer⟩ := r
    obtain rfl : outer = 0 := houter
    cases pc with
    | header =>
      cases hs
      exact h.advance hrest rfl _ _
    | resend =>
      dsimp only at hs
      split at hs
      · cases hs
        exact h.advance hrest rfl _ _
      · rename_i hpool
        rw [if_pos (hok.resolve_left hpool)] at hs
        cases hs
        exact h.advance hrest rfl _ _
    | dec =>
      cases hs
      exact h.released hrest
  · cases hs

theorem Inv.decoder (h : Inv s) {d : Decoder} (hd : d ≠ .left) (timeSet closed : Bool) :
    Inv { s with timeSet, closed, decoder := d } :=
  ⟨h.counted, h.outer, fun hleft => absurd hleft hd⟩

theorem Inv.leave (h : Inv s) (hzero : ¬ s.inTransit > 0) (hnone : Callback.count ∉ s.callbacks) :
    Inv { s with decoder := .left } := by
  refine ⟨h.counted, h.outer, fun _ => ?_⟩
  have hcounted := h.counted
  rw [Multiset.count_eq_zero_of_notMem hnone] at hcounted
  have hdelivered : s.delivered = 0 := by omega
  have hreleases : s.releases.card = 0 := by omega
  exact ⟨hdelivered, Multiset.card_eq_zero.mp hreleases, hnone⟩

theorem Inv.step {a : Event × Unit} (h : Inv s) (hstep : Guarded (step sz) Orderly s a t) :
    Inv t := by
  obtain ⟨e, out⟩ := a
  obtain ⟨hok, hstep⟩ := hstep
  obtain ⟨t', hs, ht⟩ := Option.map_eq_some_iff.mp hstep
  cases ht
  cases e with
  | fill sent =>
    simp only [next] at hs
    split at hs
    · obtain rfl : sent = true := hok
      cases hs
      exact ⟨h.counted, h.outer, h.left⟩
    · cases hs
  | empty | take =>
    simp only [next] at hs
    split at hs
    · cases hs
      exact ⟨h.counted, h.outer, h.left⟩
    · cases hs
  | frame =>
    simp only [next] at hs
    split at hs
    · cases hs
      refine ⟨?_, h.outer, fun hleft => ?_⟩
      · simpa [Multiset.count_cons_of_ne] using h.counted
      · simpa using h.left hleft
    · cases hs
  | callback c put => exact h.callback hok hs
  | release =>
    simp only [next] at hs
    split at hs
    · cases hs
      exact h.release ‹_›
    · cases hs
  | releasing r sent => exact h.releasing hok hs
  | flush | exit =>
    simp only [next] at hs
    split at hs
    · cases hs
      exact h.decoder (by simp) s.timeSet s.closed
    · cases hs
  | flushed packets =>
    simp only [next] at hs
    split at hs
    · split at hs
      · cases hs
        exact h.decoder (by simp) false s.closed
      · cases hs
        exact h
    · cases hs
  | close =>
    simp only [next] at hs
    split at hs
    · cases hs
      exact h.decoder (by simp) s.timeSet true
    · cases hs
  | wait =>
    simp only [next] at hs
    split at hs
    · split at hs
      · cases hs
        exact h
      · rename_i hzero
        cases hs
        exact h.leave hzero (hok.resolve_left hzero)
    · cases hs

/-! ## Runs -/

/-- **The frames are contained**: in every orderly run `in_transit` is the number of delivered
frames not yet released whenever no callback runs, and there is none once the decoder has left. -/
theorem frames_contained {headers : Nat} {tr : List (Event × Unit)}
    (h : Run (Guarded (step sz) Orderly) (init headers) tr s) : Contained s :=
  (h.invariant (Inv.init headers) fun _ _ _ ht hstep => ht.step hstep).contained

/-- A frame is decoded, shown and released, and the decoder leaves. -/
theorem frames_contained_one :
    ∃ tr s, Run (Guarded (step 2) Orderly) (init 2) tr s ∧ s.decoder = .left ∧ Contained s := by
  obtain ⟨tr, s, hrun, hleft⟩ := exists_run_of_guarded_exec (step 2) Orderly (init 2)
    (fun _ s => s.decoder = .left)
    [Event.fill true, .frame, .callback .test .stored, .callback .setClock .stored,
      .callback .putClock .stored, .callback .putFrame .stored, .callback .count .stored, .take,
      .take, .flush, .flushed 0, .exit, .close, .wait, .release, .releasing ⟨.header, 0⟩ true,
      .releasing ⟨.resend, 0⟩ true, .releasing ⟨.dec, 0⟩ true, .wait] (by decide +kernel)
  exact ⟨tr, s, hrun, hleft, frames_contained hrun⟩

/-- The decoder leaves between the put of a frame and its increment; and a put that fails makes a
release that takes one from `in_transit` for a frame that was never added. -/
theorem frames_escape :
    (∃ tr s, Run (Step (step 2)) (init 2) tr s ∧ s.decoder = .left ∧ ¬ Contained s) ∧
    ∃ tr s, Run (Step (step 2)) (init 2) tr s ∧ s.callbacks = 0 ∧ s.releases = 0 ∧
      ¬ Contained s := by
  constructor
  · obtain ⟨tr, s, hrun, hleft, hone⟩ := exists_run_of_exec (step 2) (init 2)
      (fun _ s => s.decoder = .left ∧ s.delivered = 1)
      [Event.fill true, .frame, .callback .test .stored, .callback .setClock .stored,
        .callback .putClock .stored, .callback .putFrame .stored, .flush, .flushed 0, .exit, .close,
        .wait] (by decide +kernel)
    refine ⟨tr, s, hrun, hleft, fun h => ?_⟩
    have hzero := h.left hleft
    omega
  · obtain ⟨tr, s, hrun, hcallbacks, hreleases, hone, htransit⟩ := exists_run_of_exec (step 2)
      (init 2)
      (fun _ s => s.callbacks = 0 ∧ s.releases = 0 ∧ s.delivered = 0 ∧ s.inTransit = -1)
      [Event.fill true, .frame, .callback .test .stored, .callback .setClock .stored,
        .callback .putClock .enomem, .releasing ⟨.header, 0⟩ true, .releasing ⟨.resend, 0⟩ true,
        .releasing ⟨.dec, 0⟩ true] (by decide +kernel)
    refine ⟨tr, s, hrun, hcallbacks, hreleases, fun h => ?_⟩
    have hequal := h.counted hcallbacks hreleases
    omega

end Mediabox.MmalTransit
