import Mathlib.Tactic.Common
import Mediabox.Lib.Transition

/-!
# Checkpoints (`include/libavbox/checkpoint.h`)

One worker that calls `avbox_checkpoint_here` at any points, and one controller that calls
`avbox_checkpoint_halt`, `avbox_checkpoint_wait` and `avbox_checkpoint_continue` in matched pairs.

* The worker moves by single accesses: the unlocked reads of `count`, the section under the mutex
  up to `pthread_cond_wait`, the wake-up, and the unlocked clearing of `HALTED`.
* Both condition waits may end at any moment.
* `outstanding` is bookkeeping: one entry for each halt without its continue, innermost first; it
  is `true` once `avbox_checkpoint_wait` has returned 1 for it with the checkpoint enabled.

A worker that has read `count` as 0 is on its way out but still has `HALTED` set.  A second halt and
its wait that come in that moment are told that the worker is halted:

* `wait_sees_stale_flag` — the worker then leaves while the controller relies on it.
* `halted_worker_stays` — when no wait looks at the state in that moment, a worker reported as
  halted stays inside until the matching continue; and a wait that does look then can be followed by
  the worker's return.
-/

set_option autoImplicit false

namespace Mediabox.Checkpoint

open Transition

/-- Next access of the worker in `avbox_checkpoint_here`. -/
inductive WorkerPc where
  | outside
  /-- `while (checkpoint->count > 0)` -/
  | loop
  /-- `pthread_mutex_lock`, and the section after it -/
  | lock
  /-- in `pthread_cond_wait(&checkpoint->released)` -/
  | waiting
  /-- `checkpoint->state &= ~AVBOX_CHECKPOINT_HALTED` -/
  | clear
  deriving DecidableEq, Repr

/-- `struct avbox_checkpoint` (the two bits of `state` apart), the worker and the controller. -/
structure State where
  count : Nat
  enabled : Bool
  halted : Bool
  worker : WorkerPc
  /-- the controller is in `pthread_cond_timedwait(&checkpoint->halted)` -/
  waiting : Bool
  outstanding : List Bool
  deriving DecidableEq, Repr

/-- A checkpoint that was just initialized. -/
def init : State := ⟨0, false, false, .outside, false, []⟩

inductive Event where
  /-- the worker calls `avbox_checkpoint_here`: the first read of `count` -/
  | here
  /-- the worker's next access -/
  | worker
  /-- `avbox_checkpoint_enable` by the worker -/
  | enable
  /-- `avbox_checkpoint_disable` by the worker -/
  | disable
  /-- `avbox_checkpoint_halt` -/
  | halt
  /-- `avbox_checkpoint_wait` up to its wait, or to its end -/
  | wait
  /-- `avbox_checkpoint_wait` after its wait -/
  | waitWake
  /-- `avbox_checkpoint_continue` -/
  | continue
  deriving DecidableEq, Repr

inductive Outcome where
  | done
  /-- `avbox_checkpoint_wait` returned this. -/
  | waited (ret : Bool)
  deriving DecidableEq, Repr

/-! ## The code -/

/-- `checkpoint->state == AVBOX_CHECKPOINT_ENABLED`. -/
def State.onlyEnabled (s : State) : Bool := s.enabled && !s.halted

/-- The innermost halt is confirmed when the wait returned 1 for an enabled checkpoint. -/
def State.confirm (s : State) : State :=
  match s.outstanding with
  | [] => s
  | b :: bs => { s with outstanding := (b || s.enabled) :: bs }

/-- The worker's accesses in `avbox_checkpoint_here` after the first one. -/
def worker (s : State) : Option State :=
  match s.worker with
  | .outside => none
  | .loop => some { s with worker := if s.count > 0 then .lock else .clear }
  | .lock =>
    if s.count > 0 then some { s with halted := true, worker := .waiting }
    else some { s with worker := .loop }
  | .waiting => some { s with worker := .loop }
  | .clear => some { s with halted := false, worker := .outside }

/-- One step. -/
def step (s : State) : Event → Option (State × Outcome)
  | .here =>
    if s.worker = .outside then
      some ({ s with worker := if s.count > 0 then .loop else .outside }, .done)
    else none
  | .worker => (worker s).map fun s' => (s', .done)
  | .enable => if s.worker = .outside then some ({ s with enabled := true }, .done) else none
  | .disable => if s.worker = .outside then some ({ s with enabled := false }, .done) else none
  | .halt =>
    if s.waiting then none
    else some ({ s with count := s.count + 1, outstanding := false :: s.outstanding }, .done)
  | .wait =>
    if s.waiting ∨ s.outstanding = [] then none
    else if s.onlyEnabled then some ({ s with waiting := true }, .done)
    else some (s.confirm, .waited true)
  | .waitWake =>
    if s.waiting then
      if s.onlyEnabled then some ({ s with waiting := false }, .waited false)
      else some ({ s with waiting := false }.confirm, .waited true)
    else none
  | .continue =>
    if s.waiting ∨ s.outstanding = [] then none
    else some ({ s with count := s.count - 1, outstanding := s.outstanding.tail }, .done)

/-! ## What a confirmed halt promises -/

/-- Some wait returned 1 for the enabled checkpoint and its continue has not been issued yet. -/
def State.relies (s : State) : Prop := true ∈ s.outstanding

/-- The controller relies on a halted worker only while the worker is inside. -/
def Safe (s : State) : Prop := s.relies → s.worker ≠ .outside

/-- A wait does not look at the state while the worker, which has read `count` as 0, is about to
    clear `HALTED`. -/
def NotLeaving (s : State) (e : Event) : Prop :=
  e = .wait ∨ e = .waitWake → ¬(s.worker = .clear ∧ s.halted = true)

instance (s : State) (e : Event) : Decidable (NotLeaving s e) :=
  inferInstanceAs (Decidable (_ → _))

/-- Invariant of runs that meet `NotLeaving`. -/
structure Inv (s : State) : Prop where
  count : s.count = s.outstanding.length
  halted : s.halted = true → s.worker ≠ .outside
  relies : s.relies → s.worker ≠ .outside ∧ s.worker ≠ .clear

theorem init_inv : Inv init :=
  ⟨rfl, (fun h => nomatch h), (fun h => nomatch h)⟩

/-- There is a halt outstanding whenever the controller relies on one. -/
theorem Inv.count_pos {s : State} (hinv : Inv s) (h : s.relies) : 0 < s.count := by
  rw [hinv.count]
  exact List.length_pos_of_mem h

theorem worker_inv {s s' : State} (hinv : Inv s) (h : worker s = some s') : Inv s' := by
  unfold worker at h
  split at h <;> rename_i hpc
  · cases h
  · cases h
    refine ⟨hinv.count, fun _ => ?_, fun hr => ?_⟩
    · dsimp only
      split <;> simp
    · have := hinv.count_pos hr
      simp [this]
  · split at h
    · cases h
      exact ⟨hinv.count, fun _ => by simp, fun _ => by simp⟩
    · cases h
      exact ⟨hinv.count, fun _ => by simp, fun _ => by simp⟩
  · cases h
    exact ⟨hinv.count, fun _ => by simp, fun _ => by simp⟩
  · cases h
    exact ⟨hinv.count, (fun hh => nomatch hh), fun hr => absurd hpc (hinv.relies hr).2⟩

theorem confirm_eq (s : State) : ∃ l, s.confirm = { s with outstanding := l } := by
  unfold State.confirm
  split
  · exact ⟨_, rfl⟩
  · exact ⟨_, rfl⟩

/-- A wait that returns 1 confirms the innermost halt; it may do so when the worker is not on its
    way out. -/
theorem Inv.confirm {s : State} (hinv : Inv s) (hstate : s.onlyEnabled = false)
    (hleaving : ¬(s.worker = .clear ∧ s.halted = true)) : Inv s.confirm := by
  unfold State.confirm
  split
  · exact hinv
  · rename_i b bs hout
    have hcount := hinv.count
    refine ⟨by rw [hcount, hout]; rfl, hinv.halted, ?_⟩
    intro hr
    rcases List.mem_cons.mp hr with hnew | hold
    · cases hb : b with
      | true => exact hinv.relies (by unfold State.relies; rw [hout, hb]; exact List.mem_cons_self)
      | false =>
        have hen : s.enabled = true := by simpa [hb] using hnew.symm
        have hhalted : s.halted = true := by simpa [State.onlyEnabled, hen] using hstate
        exact ⟨hinv.halted hhalted, fun hc => hleaving ⟨hc, hhalted⟩⟩
    · exact hinv.relies (by unfold State.relies; rw [hout]; exact List.mem_cons_of_mem _ hold)

/-- **Every step that meets `NotLeaving` preserves the invariant.** -/
theorem step_inv {s s' : State} {e : Event} {out : Outcome} (hinv : Inv s)
    (hcond : NotLeaving s e) (h : step s e = some (s', out)) : Inv s' := by
  cases e with
  | here =>
    simp only [step] at h
    split at h
    · rename_i hpc
      cases h
      refine ⟨hinv.count, fun hh => absurd hpc (hinv.halted hh), fun hr => ?_⟩
      exact absurd hpc (hinv.relies hr).1
    · cases h
  | worker =>
    obtain ⟨s₁, hw, hs⟩ := Option.map_eq_some_iff.mp h
    cases hs
    exact worker_inv hinv hw
  | enable | disable =>
    simp only [step] at h
    split at h
    · cases h; exact ⟨hinv.count, hinv.halted, hinv.relies⟩
    · cases h
  | halt =>
    simp only [step] at h
    split at h
    · cases h
    · cases h
      refine ⟨by simp [hinv.count], hinv.halted, fun hr => hinv.relies ?_⟩
      simpa [State.relies] using hr
  | wait =>
    simp only [step] at h
    split at h
    · cases h
    · split at h
      · cases h; exact ⟨hinv.count, hinv.halted, hinv.relies⟩
      · rename_i hstate
        cases h
        exact hinv.confirm (by simpa using hstate) (hcond (Or.inl rfl))
  | waitWake =>
    simp only [step] at h
    split at h
    · split at h
      · cases h; exact ⟨hinv.count, hinv.halted, hinv.relies⟩
      · rename_i hstate
        cases h
        have hinv' : Inv { s with waiting := false } := ⟨hinv.count, hinv.halted, hinv.relies⟩
        exact hinv'.confirm (by simpa [State.onlyEnabled] using hstate) (hcond (Or.inr rfl))
    · cases h
  | «continue» =>
    simp only [step] at h
    split at h
    · cases h
    · cases h
      refine ⟨by simp [hinv.count], hinv.halted, fun hr => hinv.relies ?_⟩
      exact List.mem_of_mem_tail hr

/-! ## Main theorem -/

theorem guarded_inv {tr : List (Event × Outcome)} {s : State}
    (hrun : Run (Guarded step NotLeaving) init tr s) : Inv s :=
  hrun.invariant init_inv fun _ _ _ hinv hstep => step_inv hinv hstep.1 hstep.2

/-- A wait of an enabled checkpoint that looks at the wrong moment: the worker's next access takes
    it out of the function, with the halt confirmed and not continued. -/
theorem leaves_after_wait {s s' : State} {e : Event} {out : Outcome} (hen : s.enabled = true)
    (hout : s.outstanding ≠ []) (hbad : ¬NotLeaving s e) (h : step s e = some (s', out)) :
    ∃ s'', step s' .worker = some (s'', .done) ∧ ¬Safe s'' := by
  unfold NotLeaving at hbad
  push Not at hbad
  obtain ⟨he, hpc, hhalted⟩ := hbad
  obtain ⟨b, bs, hcons⟩ := List.exists_cons_of_ne_nil hout
  rcases he with rfl | rfl
  · simp only [step, State.onlyEnabled, hen, hhalted, hcons] at h
    split at h
    · cases h
    · cases h
      refine ⟨_, by simp [step, worker, State.confirm, hcons, hpc]; rfl, ?_⟩
      simp [Safe, State.relies, hen]
  · simp only [step, State.onlyEnabled, hen, hhalted] at h
    split at h
    · cases h
      refine ⟨_, by simp [step, worker, State.confirm, hcons, hpc]; rfl, ?_⟩
      simp [Safe, State.relies]
    · cases h

/-- **A halted worker stays.**  In every run whose waits meet `NotLeaving`, whenever a wait has
    returned 1 for the enabled checkpoint and the matching continue has not been issued, the worker
    is inside `avbox_checkpoint_here`.  A wait that breaks the condition can be followed at once by
    the worker's return. -/
theorem halted_worker_stays {tr : List (Event × Outcome)} {s : State}
    (hrun : Run (Guarded step NotLeaving) init tr s) :
    Safe s ∧ ∀ e s' out, s.enabled = true → s.outstanding ≠ [] → ¬NotLeaving s e →
      step s e = some (s', out) → ∃ s'', step s' .worker = some (s'', .done) ∧ ¬Safe s'' :=
  ⟨fun hr => ((guarded_inv hrun).relies hr).1, fun _ _ _ hen hout hbad hstep =>
    leaves_after_wait hen hout hbad hstep⟩

/-- A halt, the worker comes to the checkpoint, and the wait is told so. -/
theorem halted_worker_stays_once :
    ∃ (tr : List (Event × Outcome)) (s : State), Run (Guarded step NotLeaving) init tr s ∧
      s.relies ∧ Safe s :=
  have hrun := run_of_guarded_exec [.enable, .halt, .here, .worker, .worker, .wait] rfl
  ⟨_, _, hrun, List.mem_cons_self, (halted_worker_stays hrun).1⟩

/-- One full round; then the worker reads `count` as 0, and a second halt and wait come before it
    clears `HALTED`.  The wait returns 1, and the worker returns. -/
theorem wait_sees_stale_flag :
    ¬∀ (tr : List (Event × Outcome)) (s : State), Run (Step step) init tr s → Safe s := by
  intro hclaim
  have hsafe := hclaim _ _ (run_of_exec [.enable, .halt, .here, .worker, .worker, .wait, .continue,
    .worker, .worker, .halt, .wait, .worker] rfl)
  exact absurd rfl (hsafe List.mem_cons_self)

end Mediabox.Checkpoint
