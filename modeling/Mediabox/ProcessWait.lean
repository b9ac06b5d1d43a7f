import Mediabox.ProcessPolicy
import Mediabox.ProcessTimers

/-!
# Waiting for a process

`avbox_process_wait` tests `exitted` once, waits on the condition at most once, and then frees the
entry with the condition in it.

* `Waiters` — the run invariant: the entry of a caller in `pthread_cond_wait` is there, and it has
  `AVBOX_PROCESS_WAIT`, so that the monitor does not free it.
* `Unshared` — the condition on the steps: no call goes on to free an entry while another one waits
  on it, and `pthread_cond_wait` returns only after the exit.
* `wait_served` is the result, and `second_waiter` a run with two callers.
-/

set_option autoImplicit false

namespace Mediabox.Process

open Transition

variable {τ : Type*} [DecidableEq τ]

/-! ## What it is for -/

/-- A call of `avbox_process_wait` goes on past `pthread_cond_wait`: its thread and its entry. -/
def passes (s : State τ) : Event τ → Option (τ × Nat)
  | .caller t (.wait id) => if (s.procs id).any (·.exitted) then some (t, id) else none
  | .caller t .wakeup => match s.callers t with | .waiting id => some (t, id) | _ => none
  | _ => none

/-- The entry that a call of `avbox_process_wait` is at work on, across its steps. -/
def CallerPc.waitsFor : CallerPc → Option Nat
  | .waiting id => some id
  | .cancelling id _ => some id
  | _ => none

/-- The entry that a call of `avbox_process_wait` has freed. -/
def Outcome.waitedFor : Outcome → Option Nat
  | .waited id _ => some id
  | _ => none

/-- The entries that were freed by `avbox_process_wait`, in order. -/
def freedEntries (tr : List (Event τ × Outcome)) : List Nat := tr.filterMap fun a => a.2.waitedFor

/-- The calls of `avbox_process_wait` are served by the steps `R`, after the history `tr`. -/
structure Served (R : State τ × Notes → Event τ × Outcome → State τ × Notes → Prop)
    (tr : List (Event τ × Outcome)) (x : State τ × Notes) : Prop where
  /-- a call goes on after the exit, and its assertion holds -/
  exited : ∀ a y, R x a y → ∀ z ∈ passes x.1 a.1, ∀ p ∈ x.1.procs z.2,
    p.exitted = true ∧ p.pid = none
  /-- a call that returns 0 gives the exit status of the process, and has freed the entry -/
  status : ∀ a y, R x a y → ∀ id status, a.2 = .waited id status →
    (∃ p ∈ x.1.procs id, p.exitted = true) ∧
      (∃ st ∈ x.2.ended id, status = wexitstatus st) ∧ y.1.procs id = none
  /-- no entry is freed twice -/
  once : (freedEntries tr).Nodup
  /-- no call is at work on an entry that was freed -/
  untouched : ∀ t, ∀ id ∈ (x.1.callers t).waitsFor, x.1.procs id ≠ none
  /-- a call that comes later fails -/
  later : ∀ id ∈ freedEntries tr, ∀ t, x.1.callers t = .idle → x.1.listLock = none →
    step x.1 (.caller t (.wait id)) = some (x.1, .failed id)

/-- The condition under which they are: the scan is timely; `pthread_cond_wait` returns only after
    the exit; and a call goes on to free the entry only when no other call waits on it. -/
def Unshared (x : State τ × Notes) (e : Event τ) : Prop :=
  Timely x.1 e ∧ (∀ id ∈ wakes x.1 e, ∀ p ∈ x.1.procs id, p.exitted = true) ∧
    ∀ z ∈ passes x.1 e, ∀ u, x.1.callers u = .waiting z.2 → u = z.1

instance [Fintype τ] (x : State τ × Notes) (e : Event τ) : Decidable (Unshared x e) :=
  inferInstanceAs (Decidable (_ ∧ _ ∧ _))

/-! ## The callers that wait -/

/-- The entry of a call that waits is there, and is kept for it; and the monitor cancels the timer
    only of an entry that is kept for nobody. -/
structure Waiters (s : State τ) : Prop where
  waiting : ∀ t id, s.callers t = .waiting id → ∃ p, s.procs id = some p ∧ p.flags.wait = true
  cancels : ∀ t id timer, s.callers t = .cancelling id timer →
    s.procs id ≠ none ∧ ∀ u, s.callers u ≠ .waiting id
  scan : ∀ id timer, s.monitor.stage = .cancelling id timer →
    ∃ p, s.procs id = some p ∧ p.flags.wait = false

omit [DecidableEq τ] in
theorem init_waiters : Waiters (init : State τ) where
  waiting _ _ h := nomatch h
  cancels _ _ _ h := nomatch h
  scan _ _ h := nomatch h

variable {s s' : State τ} {e : Event τ} {out : Outcome}

theorem wait_cases {t : τ} {id : Nat} (h : step s (.caller t (.wait id)) = some (s', out)) :
    s' = s ∨ s.listLock = none ∧ ∃ p, s.procs id = some p ∧ p.flags.wait = true ∧
      (s' = s.setCaller t (.waiting id) ∨ endWait s t id p = (s', out)) := by
  cases hpc : s.callers t with
  | idle =>
    simp only [step, stepCaller, hpc] at h
    split at h
    · rename_i hfree
      split at h
      · cases h
        exact Or.inl rfl
      · rename_i p hp
        split at h
        · cases h
          exact Or.inl rfl
        · rename_i hwait
          rw [Bool.not_eq_false] at hwait
          refine Or.inr ⟨hfree, p, hp, hwait, ?_⟩
          split at h
          · exact Or.inr (Option.some.inj h)
          · cases h
            exact Or.inl rfl
    · cases h
  | _ =>
    simp only [step, stepCaller, hpc] at h
    cases h

/-- A call that waits has found an entry with `AVBOX_PROCESS_WAIT`. -/
theorem waits_cases {t : τ} {id : Nat} (hstep : step s e = some (s', out))
    (hpc : s'.callers t = .waiting id) : s.callers t = .waiting id ∨
      s.listLock = none ∧ s' = s.setCaller t (.waiting id) ∧
        ∃ p, s.procs id = some p ∧ p.flags.wait = true := by
  have hsame : s'.callers t = s.callers t → s.callers t = .waiting id := fun heq =>
    heq.symm.trans hpc
  have hself : ∀ {pc}, s'.callers = Function.update s.callers t pc → pc = .waiting id := by
    intro pc heq
    rw [heq, Function.update_self] at hpc
    exact hpc
  cases step_cases hstep with
  | monitor h | timers h => exact Or.inl (hsame (by cases h <;> rfl))
  | @caller u _ _ _ h =>
    by_cases hu : t = u
    · subst hu
      cases h with
      | noStart | start | noWait | noStop => exact Or.inl (hsame rfl)
      | wait hidle hfree =>
        cases hself rfl
        rcases wait_cases hstep with heq | ⟨-, p, hp, hwait, -⟩
        · exact Or.inl (hsame (congrFun (congrArg State.callers heq) t))
        · exact Or.inr ⟨hfree, rfl, p, hp, hwait⟩
      | _ => cases hself rfl
    · refine Or.inl (hsame ?_)
      cases h <;> first | rfl | exact Function.update_of_ne hu _ _
  | _ => exact Or.inl (hsame rfl)

theorem freed_cases (hw : Waiters s) (h : Steps s e out s') {id : Nat} {p : Proc}
    (hp : s.procs id = some p) (hnone : s'.procs id = none) :
    (p.flags.wait = false ∧ (∃ m, e = .monitor m) ∧
        ∃ target todo stage, s.monitor = .scan target todo stage) ∨
      ∃ t, s'.callers t = .idle ∧ ((t, id) ∈ passes s e ∧ s.listLock = none ∨
        ∃ timer, s.callers t = .cancelling id timer) := by
  have hsame : s'.procs id ≠ s.procs id := by
    rw [hp, hnone]
    exact nofun
  have hset : ∀ {i q}, s'.procs ≠ Function.update s.procs i (some q) := by
    intro i q heq
    by_cases hi : id = i
    · subst hi
      rw [heq, Function.update_self] at hnone
      cases hnone
    · exact hsame ((congrFun heq id).trans (Function.update_of_ne hi _ _))
  have hfree : ∀ {i}, s'.procs = Function.update s.procs i none → i = id := by
    intro i heq
    by_contra hi
    exact hsame ((congrFun heq id).trans (Function.update_of_ne (Ne.symm hi) _ _))
  cases h with
  | monitor h =>
    cases h with
    | free hpc hq _ hwait =>
      cases hfree rfl
      cases hp.symm.trans hq
      exact Or.inl ⟨hwait, ⟨_, rfl⟩, _, _, _, hpc⟩
    | cancel hpc =>
      cases hfree rfl
      obtain ⟨q, hq, hwait⟩ := hw.scan id _ (by rw [hpc]; rfl)
      cases hp.symm.trans hq
      exact Or.inl ⟨hwait, ⟨_, rfl⟩, _, _, _, hpc⟩
    | found | collect | exitted | noFork | fork => exact absurd rfl hset
    | _ => exact absurd rfl hsame
  | timers h =>
    cases h with
    | noFork | store | restore => exact absurd rfl hset
    | _ => exact absurd rfl hsame
  | @caller t _ _ _ h =>
    cases h with
    | free hlock hq he =>
      cases hfree rfl
      refine Or.inr ⟨t, Function.update_self _ _ _, Or.inl ⟨?_, hlock⟩⟩
      rcases he with ⟨rfl, -, hex⟩ | ⟨rfl, hpc⟩
      · simp [passes, hq, hex]
      · simp [passes, hpc]
    | cancel hpc =>
      cases hfree rfl
      exact Or.inr ⟨t, Function.update_self _ _ _, Or.inr ⟨_, hpc⟩⟩
    | start | mark | noTimer | store => exact absurd rfl hset
    | _ => exact absurd rfl hsame
  | callback => exact absurd rfl hset
  | _ => exact absurd rfl hsame

theorem cancels_cases {t : τ} {id timer : Nat} (h : Steps s e out s')
    (hpc : s'.callers t = .cancelling id timer) : s.callers t = .cancelling id timer ∨
      (t, id) ∈ passes s e ∧ s'.procs = s.procs ∧ s.procs id ≠ none := by
  have hsame : s'.callers t = s.callers t → s.callers t = .cancelling id timer := fun heq =>
    heq.symm.trans hpc
  have hself : ∀ {pc}, s'.callers = Function.update s.callers t pc → pc = .cancelling id timer := by
    intro pc heq
    rw [heq, Function.update_self] at hpc
    exact hpc
  cases h with
  | monitor h | timers h => exact Or.inl (hsame (by cases h <;> rfl))
  | @caller u _ _ _ h =>
    by_cases hu : t = u
    · subst hu
      cases h with
      | noStart | start | noWait | noStop => exact Or.inl (hsame rfl)
      | toCancel _ hp he =>
        cases hself rfl
        refine Or.inr ⟨?_, rfl, by rw [hp]; exact nofun⟩
        rcases he with ⟨rfl, -, hex⟩ | ⟨rfl, hwaiting⟩
        · simp [passes, hp, hex]
        · simp [passes, hwaiting]
      | _ => cases hself rfl
    · refine Or.inl (hsame ?_)
      cases h <;> first | rfl | exact Function.update_of_ne hu _ _
  | _ => exact Or.inl (hsame rfl)

/-- The monitor cancels the timer of an entry that is kept for nobody. -/
theorem stage_cancels {id timer : Nat} (h : Steps s e out s')
    (hstage : s'.monitor.stage = .cancelling id timer) :
    (∃ p, s'.procs id = some p ∧ p.flags.wait = false) ∨
      s.monitor.stage = .cancelling id timer ∧ ∀ m, e ≠ .monitor m := by
  cases h with
  | monitor h =>
    cases h with
    | toCancel _ hp _ hwait =>
      cases hstage
      exact Or.inl ⟨_, hp, hwait⟩
    | found _ _ _ hnew =>
      rcases hnew with ⟨rfl, -⟩ | ⟨rfl, -⟩
      · cases hstage
      · cases hstage
    | _ => cases hstage
  | timers h | caller h =>
    refine Or.inr ⟨?_, nofun⟩
    cases h <;> exact hstage
  | _ => exact Or.inr ⟨hstage, nofun⟩

theorem MonitorPc.scan_of_stage {pc : MonitorPc} (h : pc.stage ≠ .next) :
    ∃ target todo stage, pc = .scan target todo stage := by
  cases pc with
  | scan target todo stage => exact ⟨target, todo, stage, rfl⟩
  | _ => exact absurd rfl h

theorem step_waiters (hw : Waiters s) (hc : Coherent s) (hh : Held s)
    (halone : ∀ z ∈ passes s e, ∀ u, s.callers u = .waiting z.2 → u = z.1)
    (hstep : step s e = some (s', out)) : Waiters s' := by
  have h := step_cases hstep
  constructor
  · intro t id hpc
    rcases waits_cases hstep hpc with hold | ⟨-, rfl, hp⟩
    · obtain ⟨p, hp, hwait⟩ := hw.waiting t id hold
      cases hp' : s'.procs id with
      | some p' =>
        refine ⟨p', rfl, ?_⟩
        rw [((step_move hc h id).steady hp hp').1]
        exact hwait
      | none =>
        rcases freed_cases hw h hp hp' with ⟨hno, -⟩ | ⟨u, hidle, ⟨hpass, -⟩ | ⟨timer, hcancel⟩⟩
        · rw [hwait] at hno
          cases hno
        · -- it is the only one that waits
          obtain rfl : t = u := halone _ hpass t hold
          rw [hidle] at hpc
          cases hpc
        · exact absurd hold ((hw.cancels u id timer hcancel).2 t)
    · exact hp
  · intro t id timer hpc
    rcases cancels_cases h hpc with hold | ⟨hpass, hprocs, hp⟩
    · have hlock := hh.cancels t id timer hold
      obtain ⟨hlive, hnone⟩ := hw.cancels t id timer hold
      refine ⟨fun hgone => ?_, fun u hu => ?_⟩
      · obtain ⟨p, hp⟩ := Option.ne_none_iff_exists'.mp hlive
        rcases freed_cases hw h hp hgone with ⟨-, -, _, _, _, hscan⟩ | ⟨u, hidle, hends⟩
        · cases hlock.symm.trans (hh.scan _ _ _ hscan)
        · rcases hends with ⟨-, hfree⟩ | ⟨timer', hcancel⟩
          · cases hlock.symm.trans hfree
          · -- the call that holds the list is not done
            cases hlock.symm.trans (hh.cancels u id timer' hcancel)
            rw [hidle] at hpc
            cases hpc
      · rcases waits_cases hstep hu with hwas | ⟨hfree, -⟩
        · exact hnone u hwas
        · cases hlock.symm.trans hfree
    · refine ⟨by rwa [hprocs], fun u hu => ?_⟩
      rcases waits_cases hstep hu with hwas | ⟨hfree, rfl, -⟩
      · obtain rfl : u = t := halone _ hpass u hwas
        rw [hu] at hpc
        cases hpc
      · by_cases htu : t = u
        · rw [htu, hu] at hpc
          cases hpc
        · have hold : s.callers t = .cancelling id timer :=
            (Function.update_of_ne htu _ _).symm.trans hpc
          cases (hh.cancels t id timer hold).symm.trans hfree
  · intro id timer hstage
    rcases stage_cancels h hstage with hnew | ⟨hold, hother⟩
    · exact hnew
    · obtain ⟨p, hp, hwait⟩ := hw.scan id timer hold
      have hbusy : s.monitor.stage ≠ .next := by
        rw [hold]
        exact nofun
      obtain ⟨_, _, _, hscan⟩ := MonitorPc.scan_of_stage hbusy
      have hlock := hh.scan _ _ _ hscan
      cases hp' : s'.procs id with
      | some p' =>
        refine ⟨p', rfl, ?_⟩
        rw [((step_move hc h id).steady hp hp').1]
        exact hwait
      | none =>
        rcases freed_cases hw h hp hp' with ⟨-, ⟨m, hm⟩, -⟩ | ⟨u, -, ⟨-, hfree⟩ | ⟨timer', hcancel⟩⟩
        · exact absurd hm (hother m)
        · cases hlock.symm.trans hfree
        · cases hlock.symm.trans (hh.cancels u id timer' hcancel)

/-! ## The histories -/

/-- Each of them was there once, and is gone. -/
structure Gone (tr : List (Event τ × Outcome)) (s : State τ) : Prop where
  nodup : (freedEntries tr).Nodup
  gone : ∀ id ∈ freedEntries tr, id < s.nextId ∧ s.procs id = none

/-- A call that returns 0 gives what the entry has, and frees it. -/
theorem waited_freed {id : Nat} {status : Int} (h : Steps s e (.waited id status) s') :
    ∃ p, s.procs id = some p ∧ status = p.exitStatus ∧ s'.procs id = none := by
  cases h with
  | monitor h | timers h => cases h
  | caller h =>
    cases h with
    | free _ hp | cancel _ _ hp => exact ⟨_, hp, rfl, Function.update_self _ _ _⟩

theorem step_gone {tr : List (Event τ × Outcome)} (hg : Gone tr s) (hc : Coherent s)
    (h : Steps s e out s') : Gone (tr ++ [(e, out)]) s' := by
  have hstay : ∀ id, id < s.nextId → s.procs id = none → id < s'.nextId ∧ s'.procs id = none := by
    intro id hid hnone
    refine ⟨Nat.lt_of_lt_of_le hid (nextId_le h), ?_⟩
    cases hp' : s'.procs id with
    | none => rfl
    | some p' =>
      obtain ⟨p, hp, -⟩ := step_kept hc h hid hp'
      rw [hnone] at hp
      cases hp
  have happend : freedEntries (tr ++ [(e, out)]) = freedEntries tr ++ out.waitedFor.toList := by
    unfold freedEntries
    rw [List.filterMap_append]
    cases hout : out.waitedFor <;> simp [hout]
  cases hout : out.waitedFor with
  | none =>
    rw [hout, Option.toList_none, List.append_nil] at happend
    constructor
    · rw [happend]
      exact hg.nodup
    · rw [happend]
      exact fun id hid => hstay id (hg.gone id hid).1 (hg.gone id hid).2
  | some id =>
    obtain ⟨status, rfl⟩ : ∃ status, out = .waited id status := by
      cases out with
      | waited i status =>
        cases hout
        exact ⟨status, rfl⟩
      | _ => cases hout
    obtain ⟨p, hp, -, hnone⟩ := waited_freed h
    constructor
    · rw [happend, hout, Option.toList_some]
      refine hg.nodup.append (List.nodup_singleton _) fun i hi hlast => ?_
      cases List.mem_singleton.mp hlast
      rw [(hg.gone id hi).2] at hp
      cases hp
    · rw [happend, hout, Option.toList_some]
      intro i hi
      rcases List.mem_append.mp hi with hold | hlast
      · exact hstay i (hg.gone i hold).1 (hg.gone i hold).2
      · cases List.mem_singleton.mp hlast
        exact ⟨Nat.lt_of_lt_of_le (hc.below hp) (nextId_le h), hnone⟩

theorem wait_gone {t : τ} {id : Nat} (hpc : s.callers t = .idle) (hfree : s.listLock = none)
    (hnone : s.procs id = none) : step s (.caller t (.wait id)) = some (s, .failed id) := by
  simp [step, stepCaller, hpc, hfree, hnone]

/-! ## Whole runs -/

/-- What holds in runs that meet the condition. -/
structure Tended (tr : List (Event τ × Outcome)) (x : State τ × Notes) : Prop where
  tracked : Tracked x.1
  seen : Seen x.1 x.2
  waits : ∀ t, WaitOk x.1 (x.1.callers t)
  held : Held x.1
  waiters : Waiters x.1
  gone : Gone tr x.1

omit [DecidableEq τ] in
theorem init_tended : Tended [] ((init : State τ), Notes.init) :=
  ⟨init_tracked, init_seen, fun _ => trivial, init_held, init_waiters,
    ⟨List.nodup_nil, fun _ hid => nomatch hid⟩⟩

theorem step_tended {tr : List (Event τ × Outcome)} {n : Notes} (ht : Tended tr (s, n))
    (hok : Unshared (s, n) e) (hstep : step s e = some (s', out)) :
    Tended (tr ++ [(e, out)]) (s', note n s e out s') := by
  have h := step_cases hstep
  have hc := ht.tracked.coherent
  exact ⟨step_tracked ht.tracked hok.1 h, step_seen ht.seen hc h,
    step_waits hc ht.waits hok.2.1 h, step_held ht.held h,
    step_waiters ht.waiters hc ht.held hok.2.2 hstep, step_gone ht.gone hc h⟩

omit [DecidableEq τ] in
/-- A call that goes on finds that the process has exited. -/
theorem passes_exitted {n : Notes} (hok : Unshared (s, n) e) {z : τ × Nat} (hz : z ∈ passes s e)
    {p : Proc} (hp : s.procs z.2 = some p) : p.exitted = true := by
  unfold passes at hz
  split at hz
  · split at hz
    · rename_i hany
      cases hz
      obtain ⟨q, hq, hex⟩ := (Option.any_eq_true _ _).mp hany
      cases hp.symm.trans hq
      exact hex
    · cases hz
  · split at hz
    · rename_i hpc
      cases hz
      exact hok.2.1 _ (by simp [wakes, hpc]) p hp
    · cases hz
  · cases hz

/-- **Waiting for a process**: in every run whose steps meet the condition, a call of
    `avbox_process_wait` goes on after the exit, returns the exit status and frees the entry; no
    entry is freed twice, no call is at work on one that was freed, and later calls fail. -/
theorem wait_served {tr : List (Event τ × Outcome)} {x : State τ × Notes}
    (h : Run (Guarded (observed step note) Unshared) (init, Notes.init) tr x) :
    Served (Guarded (observed step note) Unshared) tr x := by
  have ht : Tended tr x := by
    refine h.history (P := Tended) init_tended ?_
    rintro tr ⟨s, n⟩ ⟨e, out⟩ ⟨s', n'⟩ ht ⟨hok, hstep⟩
    obtain ⟨hplain, hnote⟩ := step_observed.mp hstep
    dsimp only at hplain hnote
    subst hnote
    exact step_tended ht hok hplain
  obtain ⟨s, n⟩ := x
  constructor
  · rintro ⟨e, out⟩ y ⟨hok, -⟩ z hz p hp
    have hex := passes_exitted hok hz hp
    have hsound := ht.tracked.sound z.2 p hp
    exact ⟨hex, (hsound.other (Or.inr (Or.inr (Or.inl hex)))).1⟩
  · rintro ⟨e, out⟩ ⟨s', n'⟩ ⟨hok, hstep⟩ id status rfl
    have hsteps := step_cases (step_observed.mp hstep).1
    obtain ⟨p, hp, hstatus, hnone⟩ := waited_freed hsteps
    have hex := waited_exitted ht.waits hok.2.1 hsteps rfl hp
    obtain ⟨st, hended, hexit⟩ := ht.seen.ended id p hp (Or.inr (Or.inr hex))
    exact ⟨⟨p, hp, hex⟩, ⟨st, hended, hstatus.trans hexit⟩, hnone⟩
  · exact ht.gone.nodup
  · intro t id hid
    cases hpc : s.callers t with
    | waiting i =>
      rw [hpc] at hid
      cases hid
      obtain ⟨p, hp, -⟩ := ht.waiters.waiting t id hpc
      rw [hp]
      exact nofun
    | cancelling i timer =>
      rw [hpc] at hid
      cases hid
      exact (ht.waiters.cancels t id timer hpc).1
    | _ =>
      rw [hpc] at hid
      cases hid
  · intro id hid t hidle hfree
    exact wait_gone hidle hfree (ht.gone.gone id hid).2

/-- A process that is waited for exits with the code 3, and the monitor wakes its waiters. -/
def waitedExit (waits : List τ) (t : τ) : List (Event τ) :=
  List.flatten [[.caller t (.start ⟨true, false, false, false⟩ 5 false (some 100))],
    waits.map fun u => .caller u (.wait 1),
    [.die 100 768, .monitor (.waitpid (some 100)), .monitor .lock, .monitor (.visit false),
      .monitor .decide, .monitor .unlock]]

/-- One thread waits. -/
theorem wait_served_one :
    ∃ tr x, Run (Guarded (observed step note) Unshared) ((init : State Unit), Notes.init) tr x ∧
      (Event.caller () .wakeup, Outcome.waited 1 3) ∈ tr ∧
      Served (Guarded (observed step note) Unshared) tr x := by
  obtain ⟨tr, x, hrun, hwaited⟩ := exists_run_of_guarded_exec (observed step note) Unshared
    ((init : State Unit), Notes.init)
    (fun tr _ => (Event.caller () .wakeup, Outcome.waited 1 3) ∈ tr)
    (waitedExit [()] () ++ [Event.caller () .wakeup]) (by decide +kernel)
  exact ⟨tr, x, hrun, hwaited, wait_served hrun⟩

/-- **Two threads wait**: the first one that runs frees the entry, and the other one is still in
    `pthread_cond_wait` on it. -/
theorem second_waiter :
    ∃ tr x, Run (Step (observed step note)) ((init : State Bool), Notes.init) tr x ∧
      ¬Served (Step (observed step note)) tr x := by
  obtain ⟨tr, x, hrun, hpc, hnone⟩ := exists_run_of_exec (observed step note)
    ((init : State Bool), Notes.init)
    (fun _ x => x.1.callers true = .waiting 1 ∧ x.1.procs 1 = none)
    (waitedExit [false, true] false ++ [Event.caller false .wakeup]) (by decide +kernel)
  refine ⟨tr, x, hrun, fun hserved => hserved.untouched true 1 ?_ hnone⟩
  rw [hpc]
  rfl

end Mediabox.Process
