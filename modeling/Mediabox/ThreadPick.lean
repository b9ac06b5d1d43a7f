import Mediabox.TimeUtil

/-!
# The worker for the next job (`avbox_thread_pick` in `src/lib/thread.c`)

The loop of `avbox_thread_pick` over the threads of the work queue, with the clock reading that it
takes at each busy one.

* A thread whose `stop_time` is not before its `start_time` has nothing to do: the first such
  thread is picked.
* `runtime` is `timediff(&now, &thread->start_time)`, the time from `now` back to the start, so the
  longer a job runs the smaller it is: `pick_longest`.

Main result: `pick_correct_iff` — a free thread, or else one whose job runs the shortest time, is
picked if and only if some thread is free or all jobs run equally long.
-/

set_option autoImplicit false

namespace Mediabox.ThreadPick

variable {α : Type*}

/-- The threads by their addresses, and what the clock shows when the loop is at one of them. -/
structure Times (α : Type*) where
  startTime : α → Timespec
  stopTime : α → Timespec
  now : α → Timespec

namespace Times

variable (q : Times α)

/-! ## The code -/

/-- The loop over `workqueue_threads`. -/
def pickLoop : List α → Option α → Timespec → Option α
  | [], bestThread, _ => bestThread
  | thread :: threads, bestThread, bestTime =>
    if timegte (q.stopTime thread) (q.startTime thread) then some thread
    else
      let runtime := timediff (q.now thread) (q.startTime thread)
      if timelt runtime bestTime then pickLoop threads (some thread) runtime
      else pickLoop threads bestThread bestTime

/-- `avbox_thread_pick`; `none` is where the assertion fails. -/
def threadPick (threads : List α) : Option α := q.pickLoop threads none ⟨0xFFFFFF, 999000000⟩

/-! ## What it is for -/

/-- The thread is running a job. -/
def Busy (t : α) : Prop := (q.stopTime t).ns < (q.startTime t).ns

instance (t : α) : Decidable (q.Busy t) := inferInstanceAs (Decidable (_ < _))

/-- For how long the job of the thread has been running. -/
def running (t : α) : Int := (q.now t).ns - (q.startTime t).ns

/-- The first thread that is free, or one whose job runs for the shortest time. -/
def PicksBest (threads : List α) (picked : Option α) : Prop :=
  match threads.find? (fun t => ¬q.Busy t) with
  | some t => picked = some t
  | none => ∃ t ∈ threads, picked = some t ∧ ∀ u ∈ threads, q.running t ≤ q.running u

/-- The times of a thread, and a reading of the clock after the start of its job. -/
structure Ok (t : α) : Prop where
  start : (q.startTime t).Normalized
  stop : (q.stopTime t).Normalized
  now : (q.now t).Normalized
  started : (q.startTime t).ns ≤ (q.now t).ns

variable {q} {t : α} {threads : List α} {bestThread : Option α} {bestTime : Timespec}

theorem Ok.free_iff (h : q.Ok t) :
    timegte (q.stopTime t) (q.startTime t) = true ↔ ¬q.Busy t := by
  rw [timegte_iff h.stop h.start, Busy, Int.not_lt]

/-- `runtime` is the time that the job runs, with the other sign. -/
theorem Ok.runtime (h : q.Ok t) :
    (timediff (q.now t) (q.startTime t)).Normalized ∧
      (timediff (q.now t) (q.startTime t)).ns = -q.running t := by
  refine ⟨timediff_normalized h.now h.start, ?_⟩
  rw [ns_timediff, running]
  omega

/-! ## What it does -/

theorem pickLoop_free (hok : ∀ t ∈ threads, q.Ok t)
    (hfind : threads.find? (fun t => ¬q.Busy t) = some t) :
    q.pickLoop threads bestThread bestTime = some t := by
  induction threads generalizing bestThread bestTime with
  | nil => cases hfind
  | cons u threads ih =>
    have hu := (hok u List.mem_cons_self).free_iff
    have hrest := fun v hv => hok v (List.mem_cons_of_mem _ hv)
    rw [List.find?_cons] at hfind
    rw [pickLoop]
    by_cases hbusy : q.Busy u
    · simp only [hbusy, not_true_eq_false, decide_false] at hfind
      rw [if_neg (fun hfree => hu.mp hfree hbusy)]
      dsimp only
      split
      · exact ih hrest hfind
      · exact ih hrest hfind
    · simp only [hbusy, not_false_eq_true, decide_true] at hfind
      rw [if_pos (hu.mpr hbusy), Option.some.inj hfind]

/-- With all threads busy, the loop keeps what it has, or finds one that runs longer than that and
at least as long as every other. -/
theorem pickLoop_busy (bestThread : Option α) (hok : ∀ t ∈ threads, q.Ok t)
    (hbusy : ∀ t ∈ threads, q.Busy t) (hbest : bestTime.Normalized) :
    q.pickLoop threads bestThread bestTime = bestThread ∧
        (∀ u ∈ threads, q.running u ≤ -bestTime.ns) ∨
      ∃ t ∈ threads, q.pickLoop threads bestThread bestTime = some t ∧
        -bestTime.ns < q.running t ∧ ∀ u ∈ threads, q.running u ≤ q.running t := by
  induction threads generalizing bestThread bestTime with
  | nil => exact Or.inl ⟨rfl, fun u hu => nomatch hu⟩
  | cons v threads ih =>
    have hv := hok v List.mem_cons_self
    obtain ⟨hnormalized, hruntime⟩ := hv.runtime
    have hrest := fun u hu => hok u (List.mem_cons_of_mem _ hu)
    have hbusyrest := fun u hu => hbusy u (List.mem_cons_of_mem _ hu)
    have hnotfree := fun hfree => hv.free_iff.mp hfree (hbusy v List.mem_cons_self)
    rw [pickLoop, if_neg hnotfree]
    dsimp only
    split
    · rename_i hlt
      rw [timelt_iff hnormalized hbest, hruntime] at hlt
      refine Or.inr ?_
      rcases ih (some v) hrest hbusyrest hnormalized with ⟨heq, hall⟩ | ⟨t, ht, heq, hlonger, hall⟩
      · rw [hruntime, Int.neg_neg] at hall
        exact ⟨v, List.mem_cons_self, heq, by omega,
          List.forall_mem_cons.mpr ⟨Int.le_refl _, hall⟩⟩
      · rw [hruntime, Int.neg_neg] at hlonger
        exact ⟨t, List.mem_cons_of_mem _ ht, heq, by omega,
          List.forall_mem_cons.mpr ⟨by omega, hall⟩⟩
    · rename_i hge
      rw [timelt_iff hnormalized hbest, hruntime] at hge
      rcases ih bestThread hrest hbusyrest hbest with ⟨heq, hall⟩ | ⟨t, ht, heq, hlonger, hall⟩
      · exact Or.inl ⟨heq, List.forall_mem_cons.mpr ⟨by omega, hall⟩⟩
      · exact Or.inr ⟨t, List.mem_cons_of_mem _ ht, heq, hlonger,
          List.forall_mem_cons.mpr ⟨by omega, hall⟩⟩

/-- **With all threads busy, the one that runs longest is picked.** -/
theorem pick_longest (hok : ∀ t ∈ threads, q.Ok t) (hbusy : ∀ t ∈ threads, q.Busy t)
    (hne : threads ≠ []) :
    ∃ t ∈ threads, q.threadPick threads = some t ∧ ∀ u ∈ threads, q.running u ≤ q.running t := by
  have hbest : Timespec.Normalized ⟨0xFFFFFF, 999000000⟩ := by decide
  rcases pickLoop_busy none hok hbusy hbest with ⟨-, hall⟩ | ⟨t, ht, heq, -, hall⟩
  · obtain ⟨t, ht⟩ := List.exists_mem_of_ne_nil threads hne
    have hshort := hall t ht
    have hstarted := (hok t ht).started
    simp only [running, Timespec.ns] at hshort hstarted
    omega
  · exact ⟨t, ht, heq, hall⟩

/-! ## Main theorem -/

/-- **Picking a thread.**  The first free thread, or else one that runs the shortest time, is
picked if and only if one is free or all run equally long; of no threads, none is. -/
theorem pick_correct_iff (hok : ∀ t ∈ threads, q.Ok t) :
    q.PicksBest threads (q.threadPick threads) ↔
      (∃ t ∈ threads, ¬q.Busy t) ∨
        threads ≠ [] ∧ ∀ t ∈ threads, ∀ u ∈ threads, q.running t = q.running u := by
  unfold PicksBest
  cases hfind : threads.find? (fun t => ¬q.Busy t) with
  | some t =>
    have hfree : ¬q.Busy t := by simpa using List.find?_some hfind
    have hpick : q.threadPick threads = some t := pickLoop_free hok hfind
    exact ⟨fun _ => Or.inl ⟨t, List.mem_of_find?_eq_some hfind, hfree⟩, fun _ => hpick⟩
  | none =>
    have hbusy : ∀ t ∈ threads, q.Busy t := by simpa using hfind
    constructor
    · rintro ⟨t, ht, hpick, hshortest⟩
      have hne : threads ≠ [] := List.ne_nil_of_mem ht
      obtain ⟨s, hs, hpick', hlongest⟩ := pick_longest hok hbusy hne
      obtain rfl : t = s := Option.some.inj (hpick.symm.trans hpick')
      refine Or.inr ⟨hne, ?_⟩
      intro u hu v hv
      have hu' := Int.le_antisymm (hshortest u hu) (hlongest u hu)
      have hv' := Int.le_antisymm (hshortest v hv) (hlongest v hv)
      rw [← hu', ← hv']
    · rintro (⟨t, ht, hfree⟩ | ⟨hne, heq⟩)
      · exact absurd (hbusy t ht) hfree
      · obtain ⟨t, ht, hpick, -⟩ := pick_longest hok hbusy hne
        exact ⟨t, ht, hpick, fun u hu => Int.le_of_eq (heq t ht u hu)⟩

/-- Two busy threads: the job of the first runs for nine seconds, that of the second for one. -/
def twoBusy : Times Bool where
  startTime t := if t then ⟨1, 0⟩ else ⟨9, 0⟩
  stopTime _ := ⟨0, 0⟩
  now _ := ⟨10, 0⟩

theorem twoBusy_ok (t : Bool) : twoBusy.Ok t := by
  cases t <;> exact ⟨by decide, by decide, by decide, by decide⟩

/-- The first thread of the two is picked, but not because it is the better one. -/
theorem pick_correct_iff_two :
    twoBusy.PicksBest [true, false] (twoBusy.threadPick [true, false]) ↔
      (∃ t ∈ [true, false], ¬twoBusy.Busy t) ∨ [true, false] ≠ [] ∧
        ∀ t ∈ [true, false], ∀ u ∈ [true, false], twoBusy.running t = twoBusy.running u :=
  pick_correct_iff fun t _ => twoBusy_ok t

/-- With these two threads, the one that is busy for nine seconds gets the next job. -/
theorem picks_longest_running :
    ¬∀ (α : Type) (q : Times α) (threads : List α), threads ≠ [] → (∀ t ∈ threads, q.Ok t) →
      (∀ t ∈ threads, (q.stopTime t).ns ≤ (q.now t).ns) →
      threads.Pairwise (fun t u => (q.now t).ns ≤ (q.now u).ns) →
      q.PicksBest threads (q.threadPick threads) := by
  intro hclaim
  have hbest := hclaim Bool twoBusy [true, false] (by decide) (fun t _ => twoBusy_ok t)
    (by decide) (by decide)
  obtain ⟨t, -, hpick, hshortest⟩ := hbest
  obtain rfl : true = t := Option.some.inj hpick
  exact absurd (hshortest false (by decide)) (by decide)

end Times

end Mediabox.ThreadPick
