import Mediabox.ProcessSteps

/-!
# `timers_lock` and `process_list_lock`

The timers thread runs `avbox_process_force_kill` with `timers_lock` held, and the callback takes
`process_list_lock`.  The monitor registers a restart timer, and the monitor and
`avbox_process_wait` cancel the timer of a process they free, with `process_list_lock` held.

* `Deadlock` — the timers thread and another thread wait for each other's lock.
* `Ordered` — a thread with the list locked comes to a timer call only when no force kill callback
  is ahead in the pass of the timers thread, and a pass with one begins only when nobody stands at
  such a call.
* `never_deadlocked` — runs of ordered steps do not deadlock; `stop_deadlock` is a run that does.
-/

set_option autoImplicit false

namespace Mediabox.Process

open Transition

variable {τ : Type*} [DecidableEq τ]

/-! ## Who waits for what -/

inductive Lock where
  | list
  | timers
  deriving DecidableEq, Repr

/-- The lock that a thread is to take next, where it holds another one or may be kept waiting. -/
def State.wants (s : State τ) : Tid τ → Option Lock
  | .monitor =>
    match s.monitor with
    | .reaped _ => some .list
    | .scan _ _ (.registering _) => some .timers
    | .scan _ _ (.cancelling _ _) => some .timers
    | _ => none
  | .timers =>
    match s.timersPc with
    | .forceKill _ _ _ => some .list
    | _ => none
  | .caller t =>
    match s.callers t with
    | .cancelling _ _ => some .timers
    | .registering _ => some .timers
    | _ => none

/-- The timers thread holds `timers_lock` and waits for `process_list_lock`, while another thread
    holds the latter and waits for the former. -/
def Deadlock (s : State τ) : Prop :=
  s.timersLock = some .timers ∧ s.wants .timers = some .list ∧
    ∃ u, s.listLock = some u ∧ s.wants u = some .timers

/-- The holder of `process_list_lock` waits for `timers_lock`. -/
def State.blocking (s : State τ) : Bool := s.listLock.any fun u => s.wants u = some .timers

def TimerCallback.isForceKill : TimerCallback → Bool
  | .forceKill _ => true
  | .autorestart _ => false

/-- One of these timers calls `avbox_process_force_kill`. -/
def State.killsIn (s : State τ) (timers : List Nat) : Bool :=
  s.timers.any fun t => t.callback.isForceKill && t.id ∈ timers

/-- The timers still to come in the pass. -/
def TimersPc.todo : TimersPc → List Nat
  | .asleep => []
  | .pass todo => todo
  | .forceKill _ _ todo => todo
  | .forked _ _ todo => todo
  | .stored _ _ todo => todo
  | .returned _ _ todo => todo

/-- `avbox_process_force_kill` is called in this pass, or will be. -/
def State.forceKillAhead (s : State τ) : Bool :=
  s.wants .timers = some .list || s.killsIn s.timersPc.todo

/-- The step takes a thread that holds `process_list_lock` to `avbox_timer_register` or
    `avbox_timer_cancel`. -/
def toTimerCall (s : State τ) : Event τ → Bool
  | .monitor .decide =>
    match s.monitor with
    | .scan _ _ (.deciding id cbresult) =>
      (s.procs id).any fun p => !restarts p cbresult && !p.flags.wait && p.forceKillTimer.isSome
    | _ => false
  | .monitor (.acquire ok) => ok
  | .caller _ (.wait id) => (s.procs id).any fun p => p.exitted && p.forceKillTimer.isSome
  | .caller t .wakeup =>
    match s.callers t with
    | .waiting id => (s.procs id).any fun p => p.forceKillTimer.isSome
    | _ => false
  | _ => false

/-- The step begins a pass of the timers thread in which `avbox_process_force_kill` is called. -/
def toForceKill (s : State τ) : Event τ → Bool
  | .timers (.wake elapsed) => s.killsIn elapsed
  | _ => false

/-- The order of the steps that keeps the two locks apart. -/
def Ordered (s : State τ) (e : Event τ) : Prop :=
  (toTimerCall s e = true → s.forceKillAhead = false) ∧
    (toForceKill s e = true → s.blocking = false)

instance (s : State τ) (e : Event τ) : Decidable (Ordered s e) :=
  inferInstanceAs (Decidable (_ ∧ _))

/-! ## The invariant -/

/-- The locks as the threads see them. -/
structure Locks (s : State τ) : Prop where
  callers : ∀ t, s.listLock = some (.caller t) → ∃ id timer, s.callers t = .cancelling id timer
  timers : s.timersPc ≠ .asleep → s.timersLock = some .timers
  ranked : s.blocking = true → s.forceKillAhead = false

section

omit [DecidableEq τ]

theorem blocking_iff {s : State τ} :
    s.blocking = true ↔ ∃ u, s.listLock = some u ∧ s.wants u = some .timers := by
  unfold State.blocking
  cases s.listLock <;> simp

theorem killsIn_iff {s : State τ} {timers : List Nat} : s.killsIn timers = true ↔
    ∃ t ∈ s.timers, t.callback.isForceKill = true ∧ t.id ∈ timers := by
  simp [State.killsIn]

/-- Fewer timers, and fewer of them to come. -/
theorem killsIn_mono {s s' : State τ} {timers timers' : List Nat}
    (h : s'.killsIn timers' = true) (hsub : s'.timers ⊆ s.timers) (htodo : timers' ⊆ timers) :
    s.killsIn timers = true := by
  obtain ⟨t, ht, hkill, hid⟩ := killsIn_iff.mp h
  exact killsIn_iff.mpr ⟨t, hsub ht, hkill, htodo hid⟩

theorem dropTimer_subset (s : State τ) (timer : Nat) : (s.dropTimer timer).timers ⊆ s.timers :=
  List.eraseP_subset

theorem ahead_iff {s : State τ} : s.forceKillAhead = true ↔
    s.wants .timers = some .list ∨ s.killsIn s.timersPc.todo = true := by
  simp [State.forceKillAhead]

theorem ahead_asleep {s : State τ} (hpc : s.timersPc = .asleep) : s.forceKillAhead = false := by
  rw [← Bool.not_eq_true, ahead_iff]
  rintro (hwants | hkill)
  · simp [State.wants, hpc] at hwants
  · simp [State.killsIn, hpc, TimersPc.todo] at hkill

/-- A timer can be registered only while the timers thread sleeps. -/
theorem Locks.asleep {s : State τ} (hl : Locks s) (hfree : s.timersLock = none) :
    s.timersPc = .asleep := by
  by_contra hne
  have := hl.timers hne
  rw [hfree] at this
  cases this

/-- The pass goes on: no new timer, and nothing to come that was not to come before. -/
theorem ahead_mono {s s' : State τ} (hahead : s'.forceKillAhead = true)
    (hwants : s'.wants .timers = some .list → s.wants .timers = some .list)
    (hsub : s'.timers ⊆ s.timers) (htodo : s'.timersPc.todo ⊆ s.timersPc.todo) :
    s.forceKillAhead = true :=
  ahead_iff.mpr ((ahead_iff.mp hahead).imp hwants fun hk => killsIn_mono hk hsub htodo)

end

/-- A force kill comes to be ahead when a pass begins with it, and not otherwise. -/
theorem ahead_cases {s s' : State τ} {e : Event τ} {out : Outcome} (hl : Locks s)
    (h : Steps s e out s') (hahead : s'.forceKillAhead = true) :
    s.forceKillAhead = true ∨ toForceKill s e = true := by
  have hsame : s'.timersPc = s.timersPc → s'.timers ⊆ s.timers → s.forceKillAhead = true := by
    intro hpc hsub
    refine ahead_mono hahead (fun hw => ?_) hsub (by rw [hpc]; exact List.Subset.refl _)
    simpa only [State.wants, hpc] using hw
  have hasleep : s'.timersPc = s.timersPc → s.timersLock = none → False := by
    intro hpc hfree
    rw [ahead_asleep (hpc.trans (hl.asleep hfree))] at hahead
    cases hahead
  cases h with
  | monitor h | caller h =>
    cases h with
    | register hpc hfree => exact (hasleep rfl hfree).elim
    | cancel hpc hfree => exact Or.inl (hsame rfl (dropTimer_subset _ _))
    | _ => exact Or.inl (hsame rfl (List.Subset.refl _))
  | timers h =>
    -- the rest of the pass, with or without the timer just called
    have hrest : s'.wants .timers = none → s'.timers ⊆ s.timers →
        s'.timersPc.todo ⊆ s.timersPc.todo → s.forceKillAhead = true := by
      intro hw
      refine ahead_mono hahead fun hw' => ?_
      rw [hw] at hw'
      cases hw'
    cases h with
    | wake hpc hfree =>
      right
      rcases ahead_iff.mp hahead with hw | hk
      · cases hw
      · exact killsIn_mono hk (List.Subset.refl _) fun timer ht => by simpa using (List.mem_filter.mp ht).2
    | gone hpc =>
      exact Or.inl (hrest rfl (List.Subset.refl _) (by rw [hpc]; exact List.subset_cons_self _ _))
    | @forceKill timer id todo pid t hpc ht hcall =>
      refine Or.inl (ahead_iff.mpr (Or.inr (killsIn_iff.mpr ⟨t, List.mem_of_find?_eq_some ht, ?_, ?_⟩)))
      · rw [hcall]
        rfl
      · have hid : t.id = timer := by simpa using List.find?_some ht
        rw [hpc, hid]
        exact List.mem_cons_self
    | noFork hpc ht hcall hp | fork hpc ht hcall hp hpid =>
      exact Or.inl (hrest rfl (dropTimer_subset _ _) (by rw [hpc]; exact List.subset_cons_self _ _))
    | kill hpc hfree | store hpc hp | load hpc hp | restore hpc hp | sleep hpc =>
      exact Or.inl (hrest rfl (List.Subset.refl _) (by rw [hpc]; exact List.Subset.refl _))
    | stop hpc hfree =>
      exact Or.inl (hrest rfl (dropTimer_subset _ _) (by rw [hpc]; exact List.Subset.refl _))
  | _ => exact Or.inl (hsame rfl (List.Subset.refl _))

omit [DecidableEq τ] in
theorem wants_timers (s : State τ) : s.wants .timers ≠ some .timers := by
  unfold State.wants
  dsimp only
  split <;> simp

omit [DecidableEq τ] in
theorem blocking_of_keep {s s' : State τ} (hblock : s'.blocking = true)
    (hlock : s'.listLock = s.listLock)
    (hmonitor : s.listLock = some .monitor → s'.wants .monitor = some .timers →
      s.wants .monitor = some .timers)
    (hcaller : ∀ t, s.listLock = some (.caller t) → s'.callers t = s.callers t) :
    s.blocking = true := by
  obtain ⟨u, hu, hw⟩ := blocking_iff.mp hblock
  rw [hlock] at hu
  cases u with
  | monitor => exact blocking_iff.mpr ⟨.monitor, hu, hmonitor hu hw⟩
  | timers => exact absurd hw (wants_timers s')
  | caller t =>
    refine blocking_iff.mpr ⟨.caller t, hu, ?_⟩
    simpa only [State.wants, hcaller t hu] using hw

theorem caller_frame {s s' : State τ} {t : τ} {e : CallerEvent} {out : Outcome}
    (h : CallerStep s t e out s') : s'.monitor = s.monitor ∧ s'.timersPc = s.timersPc ∧
      s'.timersLock = s.timersLock ∧ ∀ u, u ≠ t → s'.callers u = s.callers u := by
  cases h <;> refine ⟨rfl, rfl, rfl, fun u hu => ?_⟩ <;>
    first | rfl | exact Function.update_of_ne hu _ _

/-- A caller keeps the list locked only to free an entry with a timer. -/
theorem caller_list {s s' : State τ} {t : τ} {e : CallerEvent} {out : Outcome}
    (h : CallerStep s t e out s') :
    (s'.listLock = s.listLock ∧ ∀ id timer, s.callers t ≠ .cancelling id timer) ∨
      s'.listLock = none ∨
      (s'.listLock = some (.caller t) ∧ toTimerCall s (.caller t e) = true ∧
        ∃ id timer, s'.callers t = .cancelling id timer) := by
  cases h with
  | cancel hpc hfree hp => exact Or.inr (Or.inl rfl)
  | @toCancel _ id timer p hfree hp he htimer =>
    refine Or.inr (Or.inr ⟨rfl, ?_, id, timer, Function.update_self _ _ _⟩)
    rcases he with ⟨rfl, hpc, hexit⟩ | ⟨rfl, hpc⟩
    · simp [toTimerCall, hp, hexit, htimer]
    · simp [toTimerCall, hpc, hp, htimer]
  | free hfree hp he htimer =>
    refine Or.inl ⟨rfl, ?_⟩
    rcases he with ⟨rfl, hpc, -⟩ | ⟨rfl, hpc⟩ <;> simp [hpc]
  | _ =>
    rename_i hpc
    exact Or.inl ⟨rfl, by simp [*]⟩

/-- The holder of the list comes to a timer call by a step of its own. -/
theorem blocking_cases {s s' : State τ} {e : Event τ} {out : Outcome} (hl : Locks s)
    (h : Steps s e out s') (hblock : s'.blocking = true) :
    s.blocking = true ∨ toTimerCall s e = true := by
  cases h with
  | monitor h =>
    -- a step after which the monitor is at no timer call
    have hkeep : s'.listLock = s.listLock → s'.callers = s.callers →
        s'.wants .monitor ≠ some .timers → s.blocking = true := by
      intro hlock hcallers hw
      exact blocking_of_keep hblock hlock (fun _ hw' => absurd hw' hw) fun t _ => by rw [hcallers]
    cases h with
    | lock hpc hfree => simp [State.blocking, State.wants] at hblock
    | unlock hpc => simp [State.blocking] at hblock
    | found hpc hp hpid hstage =>
      rcases hstage with ⟨rfl, -⟩ | ⟨rfl, -⟩
      · exact Or.inl (hkeep rfl rfl (by simp [State.wants, State.setProc]))
      · exact Or.inl (hkeep rfl rfl (by simp [State.wants, State.setProc]))
    | acquire hpc => exact Or.inr rfl
    | toCancel hpc hp hrestart hwait htimer =>
      right
      simp [toTimerCall, hpc, hp, hrestart, hwait, htimer]
    | _ =>
      exact Or.inl (hkeep rfl rfl
        (by simp [State.wants, State.setProc, State.free, State.addTimer, State.dropTimer]))
  | timers h =>
    left
    cases h <;> exact blocking_of_keep hblock rfl (fun _ hw => hw) fun _ _ => rfl
  | @caller t e _ _ h =>
    obtain ⟨hmonitor, -, -, hcallers⟩ := caller_frame h
    rcases caller_list h with ⟨hlock, hpc⟩ | hnone | ⟨-, hcall, -⟩
    · -- a caller that holds the list is at a timer call, and its next step gives the list back
      refine Or.inl (blocking_of_keep hblock hlock (fun _ hw => ?_) fun u hu => hcallers u ?_)
      · simpa only [State.wants, hmonitor] using hw
      · rintro rfl
        obtain ⟨id, timer, hu⟩ := hl.callers u hu
        exact hpc id timer hu
    · simp [State.blocking, hnone] at hblock
    · exact Or.inr hcall
  | _ => exact Or.inl (blocking_of_keep hblock rfl (fun _ hw => hw) fun _ _ => rfl)

omit [DecidableEq τ] in
theorem init_locks : Locks (init : State τ) :=
  ⟨fun _ h => (nomatch h), fun h => absurd rfl h, fun h => (nomatch h)⟩

theorem step_locks {s s' : State τ} {e : Event τ} {out : Outcome} (hl : Locks s)
    (hok : Ordered s e) (h : Steps s e out s') : Locks s' := by
  refine ⟨?_, ?_, fun hblock => ?_⟩
  · intro t ht
    cases h with
    | monitor h =>
      cases h with
      | lock | unlock => cases ht
      | _ => exact hl.callers t ht
    | timers h => cases h <;> exact hl.callers t ht
    | @caller u e _ _ h =>
      obtain ⟨-, -, -, hcallers⟩ := caller_frame h
      rcases caller_list h with ⟨hlock, hpc⟩ | hnone | ⟨hlock, -, hcancel⟩
      · rw [hlock] at ht
        obtain ⟨id, timer, hu⟩ := hl.callers t ht
        refine ⟨id, timer, (hcallers t ?_).trans hu⟩
        rintro rfl
        exact hpc id timer hu
      · rw [hnone] at ht
        cases ht
      · rw [hlock] at ht
        cases ht
        exact hcancel
    | _ => exact hl.callers t ht
  · intro hpc
    cases h with
    | monitor h => cases h <;> exact hl.timers hpc
    | timers h =>
      cases h with
      | wake => rfl
      | sleep => exact absurd rfl hpc
      | _ => exact hl.timers (by simp [*])
    | caller h =>
      obtain ⟨-, hpc', hlock, -⟩ := caller_frame h
      rw [hpc'] at hpc
      rw [hlock]
      exact hl.timers hpc
    | _ => exact hl.timers hpc
  · -- both at once: one of the two came first, and the other was not allowed
    rw [← Bool.not_eq_true]
    intro hahead
    rcases blocking_cases hl h hblock with hblock | hcall
    · rcases ahead_cases hl h hahead with hahead | hkill
      · rw [hl.ranked hblock] at hahead
        cases hahead
      · rw [hok.2 hkill] at hblock
        cases hblock
    · rcases ahead_cases hl h hahead with hahead | hkill
      · rw [hok.1 hcall] at hahead
        cases hahead
      · cases h <;> first | cases hkill | cases hcall

theorem run_locks {tr : List (Event τ × Outcome)} {s : State τ}
    (h : Run (Guarded step Ordered) init tr s) : Locks s :=
  h.invariant init_locks fun _ _ _ hl hstep => step_locks hl hstep.1 (step_cases hstep.2)

/-- **No deadlock**: when every step of a run is ordered, the timers thread and a holder of
    `process_list_lock` never wait for each other. -/
theorem never_deadlocked {tr : List (Event τ × Outcome)} {s : State τ}
    (h : Run (Guarded step Ordered) init tr s) : ¬ Deadlock s := by
  rintro ⟨-, hwants, hblock⟩
  have hahead := (run_locks h).ranked (blocking_iff.mpr hblock)
  rw [ahead_iff.mpr (Or.inl hwants)] at hahead
  cases hahead

/-- A process without `AVBOX_PROCESS_SIGKILL` is started and stopped with SIGTERM, which registers
    its force kill timer. -/
def startAndStop : List (Event Unit) :=
  [.caller () (.start ⟨false, false, false, false⟩ 5 false (some 100)), .caller () (.stop 1),
    .caller () .read, .caller () .mark, .caller () (.kill true true), .caller () .register,
    .caller () .store]

/-- It dies, and the monitor comes to cancel the timer. -/
def dieAndFree : List (Event Unit) :=
  [.die 100 15, .monitor (.waitpid (some 100)), .monitor .lock, .monitor (.visit false),
    .monitor .decide]

/-- The timer is cancelled first: the list is empty again and nobody waits. -/
theorem never_deadlocked_cancel :
    ∃ tr s, Run (Guarded step Ordered) (init : State Unit) tr s ∧ s.list = [] ∧ s.timers = [] ∧
      ¬ Deadlock s := by
  have hrun : Run (Guarded step Ordered) (init : State Unit) _ _ := run_of_guarded_exec
    (startAndStop ++ dieAndFree ++ [Event.monitor .cancel, .timers (.wake [1]), .monitor .unlock]) rfl
  exact ⟨_, _, hrun, rfl, rfl, never_deadlocked hrun⟩

/-- **The force kill timer elapses as the process is freed**: the timers thread takes `timers_lock`
    and waits for the list in `avbox_process_force_kill`, and the monitor holds the list and waits
    in `avbox_timer_cancel`. -/
theorem stop_deadlock :
    ∃ tr s, Run (Step step) (init : State Unit) tr s ∧ Deadlock s := by
  have hrun : Run (Step step) (init : State Unit) _ _ := run_of_exec
    (startAndStop ++ dieAndFree ++ [Event.timers (.wake [1]), .timers (.call none)]) rfl
  exact ⟨_, _, hrun, rfl, rfl, .monitor, rfl, rfl⟩

end Mediabox.Process
