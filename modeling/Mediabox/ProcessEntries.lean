import Mediabox.ProcessSteps

/-!
# One entry of the process list

What the threads do to one process structure, whatever happens to the others.

* `State.view` — all that decides the life of an entry: its structure, the stage of the scan if it
  is at this entry, its restart timers, and how far the timers thread is with restarting it.
* `Move` — what a step can do to the view of one entry; `step_move` says that there is nothing else.
* `Coherent` — ids are not given twice, neither of entries nor of timers, and the list holds the
  entries there are.
-/

set_option autoImplicit false

namespace Mediabox.Process

open Transition

variable {τ : Type*} [DecidableEq τ]

/-! ## Views -/

/-- How far the timers thread is in `avbox_process_autorestart` for an entry. -/
inductive Restart where
  | none
  | forked (pid : Nat)
  | stored (pid : Nat)
  | returned (pid : Option Nat)
  deriving DecidableEq, Repr

structure View where
  proc : Option Proc
  stage : Stage
  timers : Nat
  restart : Restart

/-- The view of an entry that was never made, or is freed. -/
def View.blank : View := ⟨none, .next, 0, .none⟩

/-- The entry that the scan handles. -/
def Stage.entry : Stage → Option Nat
  | .next => none
  | .deciding id _ => some id
  | .restarting id => some id
  | .registering id => some id
  | .cancelling id _ => some id

def MonitorPc.stage : MonitorPc → Stage
  | .scan _ _ stage => stage
  | _ => .next

/-- The stage of the scan, where it is at this entry. -/
def State.stageAt (s : State τ) (id : Nat) : Stage :=
  if s.monitor.stage.entry = some id then s.monitor.stage else .next

def TimersPc.restartAt : TimersPc → Nat → Restart
  | .forked i pid _, id => if i = id then .forked pid else .none
  | .stored i pid _, id => if i = id then .stored pid else .none
  | .returned i pid _, id => if i = id then .returned pid else .none
  | _, _ => .none

def Timer.restarts (id : Nat) (t : Timer) : Bool := t.callback = .autorestart id

def State.view (s : State τ) (id : Nat) : View :=
  ⟨s.procs id, s.stageAt id, s.timers.countP (Timer.restarts id), s.timersPc.restartAt id⟩

/-- The entry that the outcome of a step is about. -/
def Outcome.entry : Outcome → Option Nat
  | .found id _ => some id
  | .forked id _ => some id
  | .noTimer id => some id
  | .waited id _ => some id
  | _ => none

/-- What a step can do to one entry. -/
inductive Move (id : Nat) (v : View) : Outcome → View → Prop
  | same {out : Outcome} (hout : out.entry ≠ some id) : Move id v out v
  | noStart (hv : v = .blank) : Move id v (.forked id none) v
  | start {flags : Flags} {delay pid : Nat} {cb : Bool} (hv : v = .blank) :
      Move id v (.forked id (some pid))
        { v with proc := some ⟨some pid, -1, false, false, none, delay, flags, cb, none⟩ }
  | found {p : Proc} {pid status : Nat} {stage : Stage} {cbstate : Option Callback}
      (hp : v.proc = some p) (hv : v.stage = .next) (hpid : p.pid = some pid)
      (hstage : stage = .next ∧ cbstate = some .running ∨
        stage = .deciding id 0 ∧ (cbstate = Option.none ∨ cbstate = p.cbstate)) :
      Move id v (.found id pid)
        { v with
          proc := some { p with
            pid := Option.none, exitStatus := wexitstatus status, cbstate := cbstate }
          stage := stage }
  | collect {p : Proc} {result : Int} (hp : v.proc = some p) (hv : v.stage = .next)
      (hcb : p.cbstate = some (.finished result)) :
      Move id v .done
        { v with proc := some { p with cbstate := none }, stage := .deciding id result }
  | restart {p : Proc} {cbresult : Int} (hp : v.proc = some p)
      (hv : v.stage = .deciding id cbresult) (hrestart : restarts p cbresult = true) :
      Move id v .done { v with stage := .restarting id }
  | exitted {p : Proc} {cbresult : Int} (hp : v.proc = some p)
      (hv : v.stage = .deciding id cbresult) (hwait : p.flags.wait = true) :
      Move id v .done { v with proc := some { p with exitted := true }, stage := .next }
  | toCancel {timer : Nat} {cbresult : Int} (hv : v.stage = .deciding id cbresult) :
      Move id v .done { v with stage := .cancelling id timer }
  | free (hv : (∃ cbresult, v.stage = .deciding id cbresult) ∨
      ∃ timer, v.stage = .cancelling id timer) :
      Move id v .done { v with proc := none, stage := .next }
  | waited {p : Proc} (hp : v.proc = some p) :
      Move id v (.waited id p.exitStatus) { v with proc := none }
  | noFork {p : Proc} (hp : v.proc = some p) (hv : v.stage = .restarting id) :
      Move id v (.forked id none)
        { v with proc := some { p with pid := none }, stage := .next }
  | fork {p : Proc} {pid : Nat} (hp : v.proc = some p) (hv : v.stage = .restarting id) :
      Move id v (.forked id (some pid))
        { v with proc := some { p with pid := some pid }, stage := .next }
  | noTimer (hv : v.stage = .restarting id) : Move id v (.noTimer id) { v with stage := .next }
  | acquire (hv : v.stage = .restarting id) : Move id v .done { v with stage := .registering id }
  | register (hv : v.stage = .registering id) :
      Move id v .done { v with stage := .next, timers := v.timers + 1 }
  | noCall {p : Proc} {n : Nat} (hp : v.proc = some p) (hv : v.timers = n + 1)
      (hrestart : v.restart = .none) :
      Move id v (.forked id none) { v with proc := some { p with pid := none }, timers := n }
  | call {p : Proc} {n pid : Nat} (hp : v.proc = some p) (hv : v.timers = n + 1)
      (hrestart : v.restart = .none) :
      Move id v (.forked id (some pid)) { v with timers := n, restart := .forked pid }
  | store {p : Proc} {pid : Nat} (hp : v.proc = some p) (hv : v.restart = .forked pid) :
      Move id v .done
        { v with proc := some { p with pid := some pid }, restart := .stored pid }
  | load {p : Proc} {pid : Nat} (hp : v.proc = some p) (hv : v.restart = .stored pid) :
      Move id v .done { v with restart := .returned p.pid }
  | restore {p : Proc} {pid : Option Nat} (hp : v.proc = some p)
      (hv : v.restart = .returned pid) :
      Move id v .done { v with proc := some { p with pid := pid }, restart := .none }
  | mark {p : Proc} (hp : v.proc = some p) :
      Move id v .done { v with proc := some { p with stopping := true } }
  | timer {p : Proc} {out : Outcome} {timer : Option Nat} (hp : v.proc = some p)
      (hout : out.entry = none) :
      Move id v out { v with proc := some { p with forceKillTimer := timer } }
  | callback {p : Proc} {result : Int} (hp : v.proc = some p)
      (hcb : p.cbstate = some .running) :
      Move id v .done { v with proc := some { p with cbstate := some (.finished result) } }

/-! ## Timer ids -/

/-- The id of a force kill timer that some thread has in hand, or that is stored in an entry. -/
def State.KillTimer (s : State τ) (timer : Nat) : Prop :=
  (∃ id p, s.procs id = some p ∧ p.forceKillTimer = some timer) ∨
  (∃ id, s.monitor.stage = .cancelling id timer) ∨
  (∃ t id, s.callers t = .cancelling id timer ∨ s.callers t = .storing id timer) ∨
  ∃ id todo, s.timersPc = .forceKill timer id todo

/-- An id that was given, and that no restart timer has. -/
def State.KillId (s : State τ) (timer : Nat) : Prop :=
  timer < s.nextTimer ∧ ∀ t ∈ s.timers, t.id = timer → ∀ id, t.callback ≠ .autorestart id

/-- Ids of timers are not given twice; so no force kill timer has the id of a restart timer. -/
structure TimerIds (s : State τ) : Prop where
  below : ∀ t ∈ s.timers, t.id < s.nextTimer
  same : ∀ t ∈ s.timers, ∀ t' ∈ s.timers, t.id = t'.id → t.callback = t'.callback
  kills : ∀ timer, s.KillTimer timer → s.KillId timer

omit [DecidableEq τ] in
/-- No timer is added. -/
theorem TimerIds.mono {s s' : State τ} (h : TimerIds s) (hsub : s'.timers ⊆ s.timers)
    (hnext : s'.nextTimer = s.nextTimer) (hkills : ∀ timer, s'.KillTimer timer → s.KillId timer) :
    TimerIds s' := by
  refine ⟨fun t ht => ?_, fun t ht t' ht' => h.same t (hsub ht) t' (hsub ht'), fun timer hk => ?_⟩
  · rw [hnext]
    exact h.below t (hsub ht)
  · obtain ⟨hlt, hall⟩ := hkills timer hk
    exact ⟨by rw [hnext]; exact hlt, fun t ht => hall t (hsub ht)⟩

omit [DecidableEq τ] in
theorem TimerIds.add {s s' : State τ} (h : TimerIds s) {callback : TimerCallback}
    (htimers : s'.timers = ⟨s.nextTimer, callback⟩ :: s.timers)
    (hnext : s'.nextTimer = s.nextTimer + 1)
    (hkills : ∀ timer, s'.KillTimer timer → s.KillId timer ∨
      (timer = s.nextTimer ∧ ∀ id, callback ≠ .autorestart id)) : TimerIds s' := by
  have hmem : ∀ t ∈ s'.timers, t = ⟨s.nextTimer, callback⟩ ∨ t ∈ s.timers ∧ t.id < s.nextTimer := by
    intro t ht
    rw [htimers] at ht
    exact (List.mem_cons.mp ht).imp_right fun hold => ⟨hold, h.below t hold⟩
  refine ⟨fun t ht => ?_, fun t ht t' ht' hid => ?_, fun timer hk => ?_⟩
  · rcases hmem t ht with rfl | ⟨-, hlt⟩
    · rw [hnext]
      exact Nat.lt_succ_self _
    · omega
  · rcases hmem t ht with rfl | ⟨hold, hlt⟩
    · rcases hmem t' ht' with rfl | ⟨-, hlt'⟩
      · rfl
      · exact absurd hid (Nat.ne_of_gt hlt')
    · rcases hmem t' ht' with rfl | ⟨hold', -⟩
      · exact absurd hid (Nat.ne_of_lt hlt)
      · exact h.same t hold t' hold' hid
  · rcases hkills timer hk with ⟨hlt, hall⟩ | ⟨rfl, hnew⟩
    · refine ⟨by omega, fun t ht hid => ?_⟩
      rcases hmem t ht with rfl | ⟨hold, -⟩
      · exact absurd hid (Nat.ne_of_gt hlt)
      · exact hall t hold hid
    · refine ⟨by omega, fun t ht hid => ?_⟩
      rcases hmem t ht with rfl | ⟨-, hlt⟩
      · exact hnew
      · omega

/-- A force kill timer stored in an entry was stored before, or was in hand to be stored. -/
theorem procs_killTimer {s s' : State τ} {e : Event τ} {out : Outcome} (h : Steps s e out s')
    {id timer : Nat} {p : Proc} (hp : s'.procs id = some p)
    (htimer : p.forceKillTimer = some timer) : s.KillTimer timer := by
  have hsame : s'.procs = s.procs → s.KillTimer timer := by
    intro heq
    rw [heq] at hp
    exact Or.inl ⟨id, p, hp, htimer⟩
  have hset : ∀ i r, s'.procs = Function.update s.procs i (some r) →
      (r.forceKillTimer = some timer → s.KillTimer timer) → s.KillTimer timer := by
    intro i r heq hr
    rw [heq] at hp
    by_cases hi : id = i
    · subst hi
      rw [Function.update_self, Option.some.injEq] at hp
      subst hp
      exact hr htimer
    · rw [Function.update_of_ne hi] at hp
      exact Or.inl ⟨id, p, hp, htimer⟩
  have hkeep : ∀ {i q}, s.procs i = some q → q.forceKillTimer = some timer → s.KillTimer timer :=
    fun hq ht => Or.inl ⟨_, _, hq, ht⟩
  have hfree : ∀ i, s'.procs = Function.update s.procs i none → s.KillTimer timer := by
    intro i heq
    rw [heq] at hp
    by_cases hi : id = i
    · subst hi
      rw [Function.update_self] at hp
      cases hp
    · rw [Function.update_of_ne hi] at hp
      exact Or.inl ⟨id, p, hp, htimer⟩
  cases h with
  | monitor h =>
    cases h with
    | found _ hq | collect _ hq | exitted _ hq | noFork _ hq | fork _ hq =>
      exact hset _ _ rfl fun ht => hkeep hq ht
    | free | cancel => exact hfree _ rfl
    | _ => exact hsame rfl
  | timers h =>
    cases h with
    | noFork _ _ _ hq | store _ hq | restore _ hq => exact hset _ _ rfl fun ht => hkeep hq ht
    | _ => exact hsame rfl
  | caller h =>
    cases h with
    | start | noTimer => exact hset _ _ rfl fun ht => nomatch ht
    | free | cancel => exact hfree _ rfl
    | mark _ hq => exact hset _ _ rfl fun ht => hkeep hq ht
    | store hpc =>
      refine hset _ _ rfl fun ht => ?_
      cases ht
      exact Or.inr (Or.inr (Or.inl ⟨_, _, Or.inr hpc⟩))
    | _ => exact hsame rfl
  | callback hq => exact hset _ _ rfl fun ht => hkeep hq ht
  | _ => exact hsame rfl

/-- Where the force kill timers in hand come from. -/
theorem killTimer_cases {s s' : State τ} {e : Event τ} {out : Outcome} (h : Steps s e out s')
    {timer : Nat} (hk : s'.KillTimer timer) : s.KillTimer timer ∨
      (timer = s.nextTimer ∧ ∃ id, s'.timers = ⟨timer, .forceKill id⟩ :: s.timers) ∨
      ∃ t ∈ s.timers, t.id = timer ∧ ∀ id, t.callback ≠ .autorestart id := by
  rcases hk with ⟨id, p, hp, ht⟩ | ⟨id, hstage⟩ | ⟨t, id, hcaller⟩ | ⟨id, todo, hpc⟩
  · exact Or.inl (procs_killTimer h hp ht)
  · left
    have hsame : s'.monitor = s.monitor → s.KillTimer timer := by
      intro heq
      rw [heq] at hstage
      exact Or.inr (Or.inl ⟨id, hstage⟩)
    cases h with
    | monitor h =>
      cases h with
      | toCancel _ hp _ _ ht =>
        cases hstage
        exact Or.inl ⟨_, _, hp, ht⟩
      | found _ _ _ hcase => rcases hcase with ⟨rfl, -⟩ | ⟨rfl, -⟩ <;> cases hstage
      | _ => cases hstage
    | timers h | caller h => cases h <;> exact hsame rfl
    | _ => exact hsame rfl
  · have hsame : s'.callers t = s.callers t → s.KillTimer timer := by
      intro heq
      rw [heq] at hcaller
      exact Or.inr (Or.inr (Or.inl ⟨t, id, hcaller⟩))
    cases h with
    | monitor h | timers h => exact Or.inl (by cases h <;> exact hsame rfl)
    | @caller u _ _ _ h =>
      by_cases hu : t = u
      · subst hu
        cases h with
        | toCancel _ hp _ ht =>
          simp only [State.setCaller, Function.update_self] at hcaller
          rcases hcaller with hc | hc
          · cases hc
            exact Or.inl (Or.inl ⟨_, _, hp, ht⟩)
          · cases hc
        | register =>
          simp only [State.setCaller, State.addTimer, Function.update_self] at hcaller
          rcases hcaller with hc | hc
          · cases hc
          · cases hc
            exact Or.inr (Or.inl ⟨rfl, _, rfl⟩)
        | noStart | start | noWait | noStop => exact Or.inl (hsame rfl)
        | _ =>
          exfalso
          simp [State.setCaller, State.setProc] at hcaller
      · have hother : ∀ pc, Function.update s.callers u pc t = s.callers t :=
          fun pc => Function.update_of_ne hu _ _
        left
        cases h <;> first | exact hsame rfl | exact hsame (hother _)
    | _ => exact Or.inl (hsame rfl)
  · have hsame : s'.timersPc = s.timersPc → s.KillTimer timer := by
      intro heq
      rw [heq] at hpc
      exact Or.inr (Or.inr (Or.inr ⟨id, todo, hpc⟩))
    cases h with
    | monitor h | caller h => exact Or.inl (by cases h <;> exact hsame rfl)
    | timers h =>
      cases h with
      | @forceKill _ _ _ _ t' _ ht hcall =>
        cases hpc
        refine Or.inr (Or.inr ⟨t', List.mem_of_find?_eq_some ht, ?_, ?_⟩)
        · simpa using List.find?_some ht
        · simp [hcall]
      | _ => cases hpc
    | _ => exact Or.inl (hsame rfl)

theorem step_timerIds {s s' : State τ} {e : Event τ} {out : Outcome} (hids : TimerIds s)
    (h : Steps s e out s') : TimerIds s' := by
  have hkills : ∀ timer, s'.KillTimer timer → s.KillId timer ∨
      (timer = s.nextTimer ∧ ∃ id, s'.timers = ⟨timer, .forceKill id⟩ :: s.timers) := by
    intro timer hk
    rcases killTimer_cases h hk with hold | hnew | ⟨t, ht, rfl, hcall⟩
    · exact Or.inl (hids.kills timer hold)
    · exact Or.inr hnew
    · refine Or.inl ⟨hids.below t ht, fun t' ht' heq i => ?_⟩
      rw [hids.same t' ht' t ht heq]
      exact hcall i
  have hdrop : s'.timers ⊆ s.timers → s'.nextTimer = s.nextTimer → TimerIds s' := by
    intro hsub hnext
    refine hids.mono hsub hnext fun timer hk => (hkills timer hk).resolve_right ?_
    rintro ⟨rfl, id, heq⟩
    have hnew : (⟨s.nextTimer, .forceKill id⟩ : Timer) ∈ s.timers := hsub (heq ▸ List.mem_cons_self)
    exact absurd (hids.below _ hnew) (Nat.lt_irrefl _)
  have hadd : ∀ callback, s'.timers = ⟨s.nextTimer, callback⟩ :: s.timers →
      s'.nextTimer = s.nextTimer + 1 → TimerIds s' := by
    intro callback htimers hnext
    refine hids.add htimers hnext fun timer hk => (hkills timer hk).imp_right ?_
    rintro ⟨rfl, id, heq⟩
    rw [htimers] at heq
    cases heq
    exact ⟨rfl, fun _ hne => nomatch hne⟩
  cases h with
  | monitor h | caller h =>
    cases h with
    | register => exact hadd _ rfl rfl
    | cancel => exact hdrop List.eraseP_subset rfl
    | _ => exact hdrop (List.Subset.refl _) rfl
  | timers h =>
    cases h with
    | noFork | fork | stop => exact hdrop List.eraseP_subset rfl
    | _ => exact hdrop (List.Subset.refl _) rfl
  | _ => exact hdrop (List.Subset.refl _) rfl

/-! ## Moves -/

section

omit [DecidableEq τ]

theorem view_congr {s s' : State τ} {id : Nat} (hprocs : s'.procs id = s.procs id)
    (hstage : s'.stageAt id = s.stageAt id)
    (htimers : s'.timers.countP (Timer.restarts id) = s.timers.countP (Timer.restarts id))
    (hrestart : s'.timersPc.restartAt id = s.timersPc.restartAt id) : s'.view id = s.view id := by
  unfold State.view
  rw [hprocs, hstage, htimers, hrestart]

theorem stageAt_of_ne {s : State τ} {id : Nat} (h : s.monitor.stage.entry ≠ some id) :
    s.stageAt id = .next := if_neg h

theorem stageAt_eq {s : State τ} {id : Nat} {target : Target} {todo : List Nat} {stage : Stage}
    (hpc : s.monitor = .scan target todo stage) (h : stage.entry = some id ∨ stage = .next) :
    s.stageAt id = stage := by
  unfold State.stageAt
  rw [hpc]
  rcases h with h | rfl
  · exact if_pos h
  · exact ite_self _

theorem countP_dropTimer {s : State τ} {timer id : Nat}
    (h : ∀ t ∈ s.timers, t.id = timer → t.callback ≠ .autorestart id) :
    (s.dropTimer timer).timers.countP (Timer.restarts id) =
      s.timers.countP (Timer.restarts id) := by
  show (s.timers.eraseP fun t => t.id = timer).countP _ = _
  by_cases hex : ∃ t ∈ s.timers, t.id = timer
  · obtain ⟨t, ht, hid⟩ := hex
    obtain ⟨a, l₁, l₂, -, ha, hl, herase⟩ :=
      List.exists_of_eraseP (p := fun t : Timer => t.id = timer) ht (by simpa using hid)
    have hmem : a ∈ s.timers := by rw [hl]; simp
    have hno : Timer.restarts id a = false := by
      simpa [Timer.restarts] using h a hmem (by simpa using ha)
    rw [herase, hl]
    simp [List.countP_append, hno]
  · rw [List.eraseP_of_forall_not]
    intro t ht
    simpa using fun heq => hex ⟨t, ht, heq⟩

theorem countP_dropTimer_self {s : State τ} {timer id : Nat} {t : Timer}
    (ht : s.timers.find? (fun t => t.id = timer) = some t) (hcall : t.callback = .autorestart id) :
    s.timers.countP (Timer.restarts id) =
      (s.dropTimer timer).timers.countP (Timer.restarts id) + 1 := by
  obtain ⟨hid, l₁, l₂, hl, hl₁⟩ := List.find?_eq_some_iff_append.mp ht
  have hl₁' : ∀ b ∈ l₁, ¬ decide (b.id = timer) = true := by
    intro b hb
    simpa using hl₁ b hb
  have hyes : Timer.restarts id t = true := by simp [Timer.restarts, hcall]
  show _ = (s.timers.eraseP fun t => t.id = timer).countP _ + 1
  rw [hl, List.eraseP_append_right _ hl₁', List.eraseP_cons_of_pos (a := t) hid]
  simp only [List.countP_append, List.countP_cons, hyes, ↓reduceIte]
  omega

end

theorem update_other {α : Type*} {f : Nat → α} {i : Nat} {x : α} :
    ∀ j, j ≠ i → Function.update f i x j = f j := fun _ hj => Function.update_of_ne hj _ _

omit [DecidableEq τ] in
theorem move_at {s s' : State τ} {out : Outcome} {i : Nat}
    (hother : ∀ j, j ≠ i → s'.view j = s.view j) (hout : out.entry = none ∨ out.entry = some i)
    (hmove : Move i (s.view i) out (s'.view i)) (id : Nat) :
    Move id (s.view id) out (s'.view id) := by
  by_cases hi : id = i
  · subst hi
    exact hmove
  · rw [hother id hi]
    refine .same fun heq => ?_
    rcases hout with hout | hout
    · rw [hout] at heq
      cases heq
    · rw [hout] at heq
      exact hi (Option.some.inj heq).symm

omit [DecidableEq τ] in
theorem monitor_move {s s' : State τ} {e : MonitorEvent} {out : Outcome} (hids : TimerIds s)
    (h : MonitorStep s e out s') (id : Nat) : Move id (s.view id) out (s'.view id) := by
  have htimersPc : s'.timersPc = s.timersPc := by cases h <;> rfl
  -- a step at no entry
  have hidle : s'.procs = s.procs → s.monitor.stage = .next → s'.monitor.stage = .next →
      s'.timers = s.timers → out.entry = none → Move id (s.view id) out (s'.view id) := by
    intro hprocs hstage hstage' htimers hout
    rw [view_congr (by rw [hprocs]) (by simp only [State.stageAt, hstage, hstage'])
      (by rw [htimers]) (by rw [htimersPc])]
    exact .same (by rw [hout]; exact nofun)
  -- a step at the entry `i`
  have hat : ∀ (i : Nat) {target todo stage target' todo' stage'},
      s.monitor = .scan target todo stage → s'.monitor = .scan target' todo' stage' →
      stage.entry = some i ∨ stage = .next → stage'.entry = some i ∨ stage' = .next →
      (∀ j, j ≠ i → s'.procs j = s.procs j) →
      (∀ j, j ≠ i →
        s'.timers.countP (Timer.restarts j) = s.timers.countP (Timer.restarts j)) →
      out.entry = none ∨ out.entry = some i →
      Move i (s.view i) out
        ⟨s'.procs i, stage', s'.timers.countP (Timer.restarts i), (s.view i).restart⟩ →
      Move id (s.view id) out (s'.view id) := by
    intro i target todo stage target' todo' stage' hpc hpc' hstage hstage' hprocs htimers hout hmove
    have hview : s'.view i =
        ⟨s'.procs i, stage', s'.timers.countP (Timer.restarts i), (s.view i).restart⟩ := by
      unfold State.view
      rw [stageAt_eq hpc' hstage', htimersPc]
    refine move_at (fun j hj => ?_) hout (by rw [hview]; exact hmove) id
    have hne : ∀ {st : Stage}, st.entry = some i ∨ st = .next → st.entry ≠ some j := by
      rintro st (hst | rfl)
      · rw [hst]
        exact fun heq => hj (Option.some.inj heq).symm
      · exact nofun
    have hstages : s'.stageAt j = s.stageAt j := by
      rw [stageAt_of_ne (by rw [hpc']; exact hne hstage'),
        stageAt_of_ne (by rw [hpc]; exact hne hstage)]
    exact view_congr (hprocs j hj) hstages (htimers j hj) (by rw [htimersPc])
  cases h with
  | none hpc | reap hpc | exit hpc | lock hpc | skip hpc | unlock hpc =>
    exact hidle rfl (by rw [hpc]; rfl) rfl rfl rfl
  | @found pid status i todo p delegated stage cbstate hpc hp hpid hstage =>
    have hentry : stage.entry = some i ∨ stage = .next :=
      hstage.elim (fun hs => Or.inr hs.1) fun hs => Or.inl (by rw [hs.1]; rfl)
    refine hat i hpc rfl (Or.inr rfl) hentry update_other (fun _ _ => rfl) (Or.inr rfl) ?_
    simp only [State.setProc, Function.update_self]
    exact .found hp (stageAt_eq hpc (Or.inr rfl)) hpid hstage
  | @collect _ i _ _ _ _ hpc hp _ hcb =>
    refine hat i hpc rfl (Or.inr rfl) (Or.inl rfl) update_other (fun _ _ => rfl) (Or.inl rfl) ?_
    simp only [State.setProc, Function.update_self]
    exact .collect hp (stageAt_eq hpc (Or.inr rfl)) hcb
  | @restart _ i _ _ _ hpc hp hrestart =>
    refine hat i hpc rfl (Or.inl rfl) (Or.inl rfl) (fun _ _ => rfl) (fun _ _ => rfl) (Or.inl rfl) ?_
    exact .restart hp (stageAt_eq hpc (Or.inl rfl)) hrestart
  | @exitted _ i _ _ _ hpc hp _ hwait =>
    refine hat i hpc rfl (Or.inl rfl) (Or.inr rfl) update_other (fun _ _ => rfl) (Or.inl rfl) ?_
    simp only [State.setProc, Function.update_self]
    exact .exitted hp (stageAt_eq hpc (Or.inl rfl)) hwait
  | @toCancel _ i _ _ _ _ hpc =>
    refine hat i hpc rfl (Or.inl rfl) (Or.inl rfl) (fun _ _ => rfl) (fun _ _ => rfl) (Or.inl rfl) ?_
    exact .toCancel (stageAt_eq hpc (Or.inl rfl))
  | @free _ i _ _ _ hpc =>
    refine hat i hpc rfl (Or.inl rfl) (Or.inr rfl) update_other (fun _ _ => rfl) (Or.inl rfl) ?_
    simp only [State.free, Function.update_self]
    exact .free (Or.inl ⟨_, stageAt_eq hpc (Or.inl rfl)⟩)
  | @noFork _ i _ _ hpc hp =>
    refine hat i hpc rfl (Or.inl rfl) (Or.inr rfl) update_other (fun _ _ => rfl) (Or.inr rfl) ?_
    simp only [State.setProc, Function.update_self]
    exact .noFork hp (stageAt_eq hpc (Or.inl rfl))
  | @fork _ i _ _ _ hpc hp =>
    refine hat i hpc rfl (Or.inl rfl) (Or.inr rfl) update_other (fun _ _ => rfl) (Or.inr rfl) ?_
    simp only [State.setProc, Function.update_self]
    exact .fork hp (stageAt_eq hpc (Or.inl rfl))
  | @noTimer _ i _ hpc =>
    refine hat i hpc rfl (Or.inl rfl) (Or.inr rfl) (fun _ _ => rfl) (fun _ _ => rfl) (Or.inr rfl) ?_
    exact .noTimer (stageAt_eq hpc (Or.inl rfl))
  | @acquire _ i _ hpc =>
    refine hat i hpc rfl (Or.inl rfl) (Or.inl rfl) (fun _ _ => rfl) (fun _ _ => rfl) (Or.inl rfl) ?_
    exact .acquire (stageAt_eq hpc (Or.inl rfl))
  | @register _ i _ hpc =>
    refine hat i hpc rfl (Or.inl rfl) (Or.inr rfl) (fun _ _ => rfl) (fun j hj => ?_) (Or.inl rfl) ?_
    · have hno : Timer.restarts j ⟨s.nextTimer, .autorestart i⟩ = false := by
        simpa [Timer.restarts, eq_comm] using hj
      simp [State.addTimer, listAdd, hno]
    · have hyes : Timer.restarts i ⟨s.nextTimer, .autorestart i⟩ = true := by
        simp [Timer.restarts]
      simp only [State.addTimer, listAdd, List.countP_cons, hyes, ↓reduceIte]
      exact .register (stageAt_eq hpc (Or.inl rfl))
  | @cancel _ i timer _ hpc =>
    have hkill := (hids.kills timer (Or.inr (Or.inl ⟨i, by rw [hpc]; rfl⟩))).2
    have hcount : ∀ j, (s.dropTimer timer).timers.countP (Timer.restarts j) =
        s.timers.countP (Timer.restarts j) :=
      fun j => countP_dropTimer fun t ht heq => hkill t ht heq j
    refine hat i hpc rfl (Or.inl rfl) (Or.inr rfl) update_other (fun j _ => hcount j) (Or.inl rfl) ?_
    have hmove : Move i (s.view i) .done _ := .free (Or.inr ⟨_, stageAt_eq hpc (Or.inl rfl)⟩)
    simp only [State.free, Function.update_self]
    exact (hcount i).symm ▸ hmove

/-- The entry that the timers thread restarts. -/
def TimersPc.entry : TimersPc → Option Nat
  | .forked id _ _ => some id
  | .stored id _ _ => some id
  | .returned id _ _ => some id
  | _ => none

theorem restartAt_of_ne {pc : TimersPc} {i : Nat} (h : pc.entry = none ∨ pc.entry = some i) {j : Nat}
    (hj : j ≠ i) : pc.restartAt j = .none := by
  have hne : ∀ {k : Nat}, some k = some i → k ≠ j := by
    rintro k hk rfl
    exact hj (Option.some.inj hk)
  cases pc with
  | forked k pid todo | stored k pid todo | returned k pid todo =>
    exact if_neg (hne (h.resolve_left nofun))
  | _ => rfl

omit [DecidableEq τ] in
/-- What a step of the timers thread does to one entry. -/
theorem timers_move {s s' : State τ} {e : TimersEvent} {out : Outcome} (hids : TimerIds s)
    (h : TimersStep s e out s') (id : Nat) : Move id (s.view id) out (s'.view id) := by
  have hmonitor : s'.monitor = s.monitor := by cases h <;> rfl
  have hstages : ∀ j, s'.stageAt j = s.stageAt j := by
    intro j
    unfold State.stageAt
    rw [hmonitor]
  -- a step outside `avbox_process_autorestart`
  have hidle : s'.procs = s.procs → (∀ j, s.timersPc.restartAt j = .none) →
      (∀ j, s'.timersPc.restartAt j = .none) →
      s'.timers.countP (Timer.restarts id) = s.timers.countP (Timer.restarts id) →
      out.entry = none → Move id (s.view id) out (s'.view id) := by
    intro hprocs hrestart hrestart' htimers hout
    rw [view_congr (by rw [hprocs]) (hstages id) htimers (by rw [hrestart, hrestart'])]
    exact .same (by rw [hout]; exact nofun)
  -- a step inside, for the entry `i`
  have hat : ∀ (i : Nat), (∀ j, j ≠ i → s'.procs j = s.procs j) →
      (∀ j, j ≠ i →
        s'.timers.countP (Timer.restarts j) = s.timers.countP (Timer.restarts j)) →
      s'.timersPc.entry = none ∨ s'.timersPc.entry = some i →
      s.timersPc.entry = none ∨ s.timersPc.entry = some i →
      out.entry = none ∨ out.entry = some i →
      Move i (s.view i) out
        ⟨s'.procs i, (s.view i).stage, s'.timers.countP (Timer.restarts i),
          s'.timersPc.restartAt i⟩ → Move id (s.view id) out (s'.view id) := by
    intro i hprocs htimers hentry' hentry hout hmove
    refine move_at (fun j hj => ?_) hout ?_ id
    · exact view_congr (hprocs j hj) (hstages j) (htimers j hj)
        ((restartAt_of_ne hentry' hj).trans (restartAt_of_ne hentry hj).symm)
    · have hview : s'.view i = ⟨s'.procs i, (s.view i).stage,
          s'.timers.countP (Timer.restarts i), s'.timersPc.restartAt i⟩ := by
        unfold State.view
        rw [hstages i]
      rw [hview]
      exact hmove
  have hpass : ∀ {todo}, s.timersPc = .pass todo → ∀ j, s.timersPc.restartAt j = .none := by
    intro todo hpc j
    rw [hpc]
    rfl
  have hself : ∀ {timer i todo} {t : Timer}, s.timersPc = .pass (timer :: todo) →
      s.timers.find? (fun t => t.id = timer) = some t → t.callback = .autorestart i →
      (∀ j, j ≠ i → (s.dropTimer timer).timers.countP (Timer.restarts j) =
        s.timers.countP (Timer.restarts j)) ∧
      (s.view i).timers = (s.dropTimer timer).timers.countP (Timer.restarts i) + 1 := by
    intro timer i todo t hpc ht hcall
    refine ⟨fun j hj => countP_dropTimer fun t' ht' heq hcall' => ?_, countP_dropTimer_self ht hcall⟩
    have hid : t.id = timer := by simpa using List.find?_some ht
    have hsame := hids.same t' ht' t (List.mem_of_find?_eq_some ht) (heq.trans hid.symm)
    rw [hcall', hcall] at hsame
    cases hsame
    exact hj rfl
  cases h with
  | wake hpc | kill hpc => exact hidle rfl (fun j => by rw [hpc]; rfl) (fun _ => rfl) rfl rfl
  | gone hpc | forceKill hpc | sleep hpc => exact hidle rfl (hpass hpc) (fun _ => rfl) rfl rfl
  | @stop timer i todo hpc =>
    have hkill := (hids.kills timer (Or.inr (Or.inr (Or.inr ⟨i, todo, hpc⟩)))).2
    exact hidle rfl (fun j => by rw [hpc]; rfl) (fun _ => rfl)
      (countP_dropTimer fun t ht heq => hkill t ht heq id) rfl
  | @noFork timer i todo p t hpc ht hcall hp =>
    obtain ⟨hothers, hone⟩ := hself hpc ht hcall
    refine hat i update_other hothers (Or.inl rfl) (Or.inl (by rw [hpc]; rfl)) (Or.inr rfl) ?_
    have hrestart := hpass hpc i
    have hmove : Move i (s.view i) (.forked i none) _ := .noCall hp hone hrestart
    simp only [State.setProc, Function.update_self]
    rw [show (s.view i).restart = .none from hrestart] at hmove
    exact hmove
  | @fork timer i pid todo p t hpc ht hcall hp =>
    obtain ⟨hothers, hone⟩ := hself hpc ht hcall
    refine hat i (fun _ _ => rfl) hothers (Or.inr rfl) (Or.inl (by rw [hpc]; rfl)) (Or.inr rfl) ?_
    simp only [TimersPc.restartAt, ↓reduceIte]
    exact .call hp hone (hpass hpc i)
  | @store i pid todo p hpc hp =>
    refine hat i update_other (fun _ _ => rfl) (Or.inr rfl) (Or.inr (by rw [hpc]; rfl)) (Or.inl rfl) ?_
    simp only [State.setProc, Function.update_self, TimersPc.restartAt, ↓reduceIte]
    exact .store hp (by simp [State.view, hpc, TimersPc.restartAt])
  | @load i pid todo p hpc hp =>
    refine hat i (fun _ _ => rfl) (fun _ _ => rfl) (Or.inr rfl) (Or.inr (by rw [hpc]; rfl))
      (Or.inl rfl) ?_
    have hstored : (s.view i).restart = .stored pid := by
      simp [State.view, hpc, TimersPc.restartAt]
    simp only [TimersPc.restartAt, ↓reduceIte]
    exact .load hp hstored
  | @restore i pid todo p hpc hp =>
    refine hat i update_other (fun _ _ => rfl) (Or.inl rfl) (Or.inr (by rw [hpc]; rfl)) (Or.inl rfl) ?_
    simp only [State.setProc, Function.update_self, TimersPc.restartAt]
    exact .restore hp (by simp [State.view, hpc, TimersPc.restartAt])

theorem caller_move {s s' : State τ} {t : τ} {e : CallerEvent} {out : Outcome} (hids : TimerIds s)
    (hfresh : ∀ id, s.nextId ≤ id → s.view id = .blank) (h : CallerStep s t e out s') (id : Nat) :
    Move id (s.view id) out (s'.view id) := by
  have hstages : ∀ j, s'.stageAt j = s.stageAt j := by
    intro j
    cases h <;> rfl
  have hrestart : ∀ j, s'.timersPc.restartAt j = s.timersPc.restartAt j := by
    intro j
    cases h <;> rfl
  have htimers : ∀ j, s'.timers.countP (Timer.restarts j) = s.timers.countP (Timer.restarts j) := by
    intro j
    cases h with
    | @cancel i timer p hpc hfree hp =>
      have hkill := (hids.kills timer (Or.inr (Or.inr (Or.inl ⟨t, i, Or.inl hpc⟩)))).2
      exact countP_dropTimer fun t ht heq => hkill t ht heq j
    | register => simp [State.addTimer, State.setCaller, listAdd, Timer.restarts]
    | _ => rfl
  have hidle : s'.procs = s.procs → out.entry = none → Move id (s.view id) out (s'.view id) := by
    intro hprocs hout
    rw [view_congr (by rw [hprocs]) (hstages id) (htimers id) (hrestart id)]
    exact .same (by rw [hout]; exact nofun)
  have hat : ∀ (i : Nat), (∀ j, j ≠ i → s'.procs j = s.procs j) →
      out.entry = none ∨ out.entry = some i →
      Move i (s.view i) out { s.view i with proc := s'.procs i } →
      Move id (s.view id) out (s'.view id) := by
    intro i hprocs hout hmove
    refine move_at (fun j hj => ?_) hout ?_ id
    · exact view_congr (hprocs j hj) (hstages j) (htimers j) (hrestart j)
    · have hview : s'.view i = { s.view i with proc := s'.procs i } := by
        unfold State.view
        rw [hstages i, htimers i, hrestart i]
      rw [hview]
      exact hmove
  cases h with
  | noStart =>
    refine hat s.nextId (fun _ _ => rfl) (Or.inr rfl) ?_
    exact .noStart (hfresh _ (Nat.le_refl _))
  | start =>
    refine hat s.nextId update_other (Or.inr rfl) ?_
    simp only [State.setProc, Function.update_self]
    exact .start (hfresh _ (Nat.le_refl _))
  | @free _ i p hfree hp | @cancel i _ p hpc hfree hp =>
    refine hat i update_other (Or.inr rfl) ?_
    simp only [State.free, State.setCaller, Function.update_self]
    exact .waited hp
  | @mark i _ p hpc hp =>
    refine hat i update_other (Or.inl rfl) ?_
    simp only [State.setProc, Function.update_self]
    exact .mark hp
  | @noTimer i _ p hpc hp | @store i _ p hpc hp =>
    refine hat i update_other (Or.inl rfl) ?_
    simp only [State.setProc, Function.update_self]
    exact .timer hp rfl
  | _ => exact hidle rfl rfl

/-! ## The entries that there are -/

/-- Ids are given once, and the list holds the entries that were not freed. -/
structure Coherent (s : State τ) : Prop where
  ids : TimerIds s
  fresh : ∀ id, s.nextId ≤ id → s.view id = .blank
  listed : ∀ id, id ∈ s.list ↔ s.procs id ≠ none
  nodup : s.list.Nodup

/-- What a step does to one entry. -/
theorem step_move {s s' : State τ} {e : Event τ} {out : Outcome} (hc : Coherent s)
    (h : Steps s e out s') (id : Nat) : Move id (s.view id) out (s'.view id) := by
  cases h with
  | monitor h => exact monitor_move hc.ids h id
  | timers h => exact timers_move hc.ids h id
  | caller h => exact caller_move hc.ids hc.fresh h id
  | @callback i result p hp hcb =>
    refine move_at (i := i) (fun j hj => ?_) (Or.inl rfl) ?_ id
    · exact view_congr (update_other j hj) rfl rfl rfl
    · have hview : (s.setProc i { p with cbstate := some (.finished result) }).view i =
          { s.view i with proc := some { p with cbstate := some (.finished result) } } := by
        simp only [State.view, State.setProc, Function.update_self]
        rfl
      rw [hview]
      exact .callback hp hcb
  | _ => exact .same nofun

theorem nextId_le {s s' : State τ} {e : Event τ} {out : Outcome} (h : Steps s e out s') :
    s.nextId ≤ s'.nextId := by
  cases h with
  | monitor h | timers h => cases h <;> exact Nat.le_refl _
  | caller h =>
    cases h with
    | noStart | start => exact Nat.le_succ _
    | _ => exact Nat.le_refl _
  | _ => exact Nat.le_refl _

theorem forked_cases {s s' : State τ} {e : Event τ} {id : Nat} {pid : Option Nat}
    (h : Steps s e (.forked id pid) s') :
    (∃ p, s.procs id = some p) ∨ id = s.nextId ∧ s'.nextId = s.nextId + 1 := by
  cases h with
  | monitor h =>
    cases h with
    | noFork _ hp | fork _ hp => exact Or.inl ⟨_, hp⟩
  | timers h =>
    cases h with
    | noFork _ _ _ hp | fork _ _ _ hp => exact Or.inl ⟨_, hp⟩
  | caller h =>
    cases h with
    | noStart | start => exact Or.inr ⟨rfl, rfl⟩

theorem not_forked {s s' : State τ} {e : Event τ} {out : Outcome} {id : Nat} (hid : id < s.nextId)
    (h : Steps s e out s') (hnone : (s.view id).proc = none) (pid : Option Nat) :
    out ≠ .forked id pid := by
  rintro rfl
  rcases forked_cases h with ⟨p, hp⟩ | ⟨rfl, -⟩
  · rw [show s.procs id = none from hnone] at hp
    cases hp
  · exact Nat.lt_irrefl _ hid

/-- A structure is made by a fork for its entry; `stopping` and `exitted` are never taken back. -/
theorem Move.kept {id : Nat} {v v' : View} {out : Outcome} (h : Move id v out v') {p' : Proc}
    (hp' : v'.proc = some p') :
    (∃ p, v.proc = some p ∧ (p.stopping = true → p'.stopping = true) ∧
      (p.exitted = true → p'.exitted = true)) ∨
    (v.proc = none ∧ ∃ pid, out = .forked id pid) := by
  have hold : ∀ {p q : Proc}, v.proc = some p → some q = some p' →
      (p.stopping = true → q.stopping = true) → (p.exitted = true → q.exitted = true) →
      (∃ p, v.proc = some p ∧ (p.stopping = true → p'.stopping = true) ∧
        (p.exitted = true → p'.exitted = true)) ∨
      (v.proc = none ∧ ∃ pid, out = .forked id pid) := by
    rintro p q hp ⟨⟩ hs he
    exact Or.inl ⟨p, hp, hs, he⟩
  cases h with
  | start hv => exact Or.inr ⟨by rw [hv]; rfl, _, rfl⟩
  | found hp | collect hp | noFork hp | fork hp | noCall hp | store hp | restore hp | timer hp
  | callback hp => exact hold hp hp' (fun hs => hs) fun he => he
  | exitted hp => exact hold hp hp' (fun hs => hs) fun _ => rfl
  | mark hp => exact hold hp hp' (fun _ => rfl) fun he => he
  | free | waited => cases hp'
  | _ => exact hold hp' rfl (fun hs => hs) fun he => he

theorem Move.of_blank {id : Nat} {out : Outcome} {v : View} (h : Move id .blank out v) :
    v = .blank ∨ ∃ pid, out = .forked id pid := by
  cases h with
  | same | noStart => exact Or.inl rfl
  | start => exact Or.inr ⟨_, rfl⟩
  | free hv =>
    rcases hv with ⟨_, hv⟩ | ⟨_, hv⟩ <;> cases hv
  | found hp | collect hp | waited hp | noCall hp | call hp | store hp | load hp | restore hp
  | mark hp | timer hp | callback hp | restart hp | exitted hp | noFork hp | fork hp => cases hp
  | toCancel hv | noTimer hv | acquire hv | register hv => cases hv

theorem step_listed {s s' : State τ} {e : Event τ} {out : Outcome} (hc : Coherent s)
    (h : Steps s e out s') : (∀ id, id ∈ s'.list ↔ s'.procs id ≠ none) ∧ s'.list.Nodup := by
  have hsame : s'.list = s.list → s'.procs = s.procs →
      (∀ id, id ∈ s'.list ↔ s'.procs id ≠ none) ∧ s'.list.Nodup := by
    intro hlist hprocs
    rw [hlist, hprocs]
    exact ⟨hc.listed, hc.nodup⟩
  have hset : ∀ {i p q}, s.procs i = some p → s'.list = s.list →
      s'.procs = Function.update s.procs i (some q) →
      (∀ id, id ∈ s'.list ↔ s'.procs id ≠ none) ∧ s'.list.Nodup := by
    intro i p q hp hlist hprocs
    rw [hlist, hprocs]
    refine ⟨fun id => ?_, hc.nodup⟩
    rw [hc.listed id]
    by_cases hi : id = i
    · subst hi
      simp [hp]
    · rw [Function.update_of_ne hi]
  have hfree : ∀ {i}, s'.list = listRemove s.list i →
      s'.procs = Function.update s.procs i none →
      (∀ id, id ∈ s'.list ↔ s'.procs id ≠ none) ∧ s'.list.Nodup := by
    intro i hlist hprocs
    rw [hlist, hprocs, listRemove]
    refine ⟨fun id => ?_, hc.nodup.erase i⟩
    rw [hc.nodup.mem_erase_iff, hc.listed id]
    by_cases hi : id = i
    · subst hi
      simp
    · rw [Function.update_of_ne hi]
      exact and_iff_right hi
  cases h with
  | monitor h =>
    cases h with
    | found _ hp | collect _ hp | exitted _ hp | noFork _ hp | fork _ hp => exact hset hp rfl rfl
    | free | cancel => exact hfree rfl rfl
    | _ => exact hsame rfl rfl
  | timers h =>
    cases h with
    | noFork _ _ _ hp | store _ hp | restore _ hp => exact hset hp rfl rfl
    | _ => exact hsame rfl rfl
  | caller h =>
    cases h with
    | start =>
      have hnew : s.procs s.nextId = none := congrArg View.proc (hc.fresh _ (Nat.le_refl _))
      refine ⟨fun id => ?_, List.nodup_cons.mpr ⟨fun hm => ?_, hc.nodup⟩⟩
      · show id ∈ s.nextId :: s.list ↔ Function.update s.procs s.nextId _ id ≠ none
        rw [List.mem_cons, hc.listed id]
        by_cases hi : id = s.nextId
        · subst hi
          simp
        · rw [Function.update_of_ne hi]
          exact or_iff_right hi
      · exact (hc.listed _).mp hm hnew
    | free | cancel => exact hfree rfl rfl
    | mark _ hp | noTimer _ hp | store _ hp => exact hset hp rfl rfl
    | _ => exact hsame rfl rfl
  | callback hp => exact hset hp rfl rfl
  | _ => exact hsame rfl rfl

omit [DecidableEq τ] in
theorem init_coherent : Coherent (init : State τ) := by
  refine ⟨⟨fun t ht => (nomatch ht), fun t ht => (nomatch ht), ?_⟩, fun _ _ => rfl, ?_, List.nodup_nil⟩
  · rintro timer (⟨id, p, hp, -⟩ | ⟨id, hs⟩ | ⟨t, id, hc | hc⟩ | ⟨id, todo, hpc⟩)
    · cases hp
    · cases hs
    · cases hc
    · cases hc
    · cases hpc
  · intro id
    simp [init]

theorem step_coherent {s s' : State τ} {e : Event τ} {out : Outcome} (hc : Coherent s)
    (h : Steps s e out s') : Coherent s' := by
  obtain ⟨hlisted, hnodup⟩ := step_listed hc h
  refine ⟨step_timerIds hc.ids h, fun id hid => ?_, hlisted, hnodup⟩
  have hblank := hc.fresh id (Nat.le_trans (nextId_le h) hid)
  have hmove := step_move hc h id
  rw [hblank] at hmove
  rcases hmove.of_blank with hv | ⟨pid, rfl⟩
  · exact hv
  · rcases forked_cases h with ⟨p, hp⟩ | ⟨hid', hnext⟩
    · have hnone : s.procs id = none := congrArg View.proc hblank
      rw [hp] at hnone
      cases hnone
    · omega

theorem step_kept {s s' : State τ} {e : Event τ} {out : Outcome} (hc : Coherent s)
    (h : Steps s e out s') {id : Nat} (hid : id < s.nextId) {p' : Proc}
    (hp' : s'.procs id = some p') : ∃ p, s.procs id = some p ∧
      (p.stopping = true → p'.stopping = true) ∧ (p.exitted = true → p'.exitted = true) := by
  rcases (step_move hc h id).kept hp' with hold | ⟨hnone, pid, hout⟩
  · exact hold
  · exact absurd hout (not_forked hid h hnone pid)

omit [DecidableEq τ] in
theorem Coherent.below {s : State τ} (hc : Coherent s) {id : Nat} {p : Proc}
    (hp : s.procs id = some p) : id < s.nextId := by
  by_contra hge
  have hnone : s.procs id = none := congrArg View.proc (hc.fresh id (Nat.le_of_not_lt hge))
  rw [hp] at hnone
  cases hnone

end Mediabox.Process
