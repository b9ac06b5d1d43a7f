import Mediabox.Process

/-!
# What one step of the process manager does

`MonitorStep`, `TimersStep` and `CallerStep` list what a step of each thread can do, with the state
it starts from and the state it leaves; `step_cases` says that there is nothing else.  The results
about locks, restarts and exits are derived from these relations and never unfold `step`.
-/

set_option autoImplicit false

namespace Mediabox.Process

open Transition

variable {τ : Type*}

/-- Steps of `avbox_process_monitor_thread`. -/
inductive MonitorStep (s : State τ) : MonitorEvent → Outcome → State τ → Prop
  | none (hpc : s.monitor = .poll) :
      MonitorStep s (.waitpid none) .done { s with monitor := .reaped none }
  | reap {pid status : Nat} {owner : Option Nat} (hpc : s.monitor = .poll)
      (hchild : s.children pid = some ⟨owner, some status⟩) :
      MonitorStep s (.waitpid (some pid)) (.reaped pid owner)
        { s with
          monitor := .reaped (some (pid, status))
          children := Function.update s.children pid none }
  | exit (hpc : s.monitor = .poll) (hempty : s.list = []) :
      MonitorStep s .exit .done { s with monitor := .exited }
  | lock {target : Target} (hpc : s.monitor = .reaped target) (hfree : s.listLock = none) :
      MonitorStep s .lock .done
        { s with monitor := .scan target s.list .next, listLock := some .monitor }
  | found {pid status id : Nat} {todo : List Nat} {p : Proc} {delegated : Bool} {stage : Stage}
      {cbstate : Option Callback}
      (hpc : s.monitor = .scan (some (pid, status)) (id :: todo) .next)
      (hp : s.procs id = some p) (hpid : p.pid = some pid)
      (hstage : stage = .next ∧ cbstate = some .running ∨
        stage = .deciding id 0 ∧ (cbstate = Option.none ∨ cbstate = p.cbstate)) :
      MonitorStep s (.visit delegated) (.found id pid)
        ({ s with monitor := .scan (some (pid, status)) todo stage }.setProc id
          { p with pid := Option.none, exitStatus := wexitstatus status, cbstate := cbstate })
  | collect {target : Target} {id : Nat} {todo : List Nat} {p : Proc} {delegated : Bool}
      {result : Int} (hpc : s.monitor = .scan target (id :: todo) .next)
      (hp : s.procs id = some p) (hpid : ∀ pid status, target = some (pid, status) →
        p.pid ≠ some pid) (hcb : p.cbstate = some (.finished result)) :
      MonitorStep s (.visit delegated) .done
        ({ s with monitor := .scan target todo (.deciding id result) }.setProc id
          { p with cbstate := Option.none })
  | skip {target : Target} {id : Nat} {todo : List Nat} {p : Proc} {delegated : Bool}
      (hpc : s.monitor = .scan target (id :: todo) .next) (hp : s.procs id = some p)
      (hpid : ∀ pid status, target = some (pid, status) → p.pid ≠ some pid) :
      MonitorStep s (.visit delegated) .done { s with monitor := .scan target todo .next }
  | restart {target : Target} {id : Nat} {todo : List Nat} {p : Proc} {cbresult : Int}
      (hpc : s.monitor = .scan target todo (.deciding id cbresult)) (hp : s.procs id = some p)
      (hrestart : restarts p cbresult = true) :
      MonitorStep s .decide .done { s with monitor := .scan target todo (.restarting id) }
  | exitted {target : Target} {id : Nat} {todo : List Nat} {p : Proc} {cbresult : Int}
      (hpc : s.monitor = .scan target todo (.deciding id cbresult)) (hp : s.procs id = some p)
      (hrestart : restarts p cbresult = false) (hwait : p.flags.wait = true) :
      MonitorStep s .decide .done
        ({ s with monitor := .scan target todo .next }.setProc id { p with exitted := true })
  | toCancel {target : Target} {id timer : Nat} {todo : List Nat} {p : Proc} {cbresult : Int}
      (hpc : s.monitor = .scan target todo (.deciding id cbresult)) (hp : s.procs id = some p)
      (hrestart : restarts p cbresult = false) (hwait : p.flags.wait = false)
      (htimer : p.forceKillTimer = some timer) :
      MonitorStep s .decide .done { s with monitor := .scan target todo (.cancelling id timer) }
  | free {target : Target} {id : Nat} {todo : List Nat} {p : Proc} {cbresult : Int}
      (hpc : s.monitor = .scan target todo (.deciding id cbresult)) (hp : s.procs id = some p)
      (hrestart : restarts p cbresult = false) (hwait : p.flags.wait = false)
      (htimer : p.forceKillTimer = Option.none) :
      MonitorStep s .decide .done ({ s with monitor := .scan target todo .next }.free id)
  | noFork {target : Target} {id : Nat} {todo : List Nat} {p : Proc}
      (hpc : s.monitor = .scan target todo (.restarting id)) (hp : s.procs id = some p) :
      MonitorStep s (.fork Option.none) (.forked id Option.none)
        ({ s with monitor := .scan target todo .next }.setProc id { p with pid := Option.none })
  | fork {target : Target} {id pid : Nat} {todo : List Nat} {p : Proc}
      (hpc : s.monitor = .scan target todo (.restarting id)) (hp : s.procs id = some p)
      (hpid : s.children pid = Option.none) :
      MonitorStep s (.fork (some pid)) (.forked id (some pid))
        ({ s with
          monitor := .scan target todo .next
          children := Function.update s.children pid (some ⟨some id, Option.none⟩) }.setProc id
            { p with pid := some pid })
  | noTimer {target : Target} {id : Nat} {todo : List Nat}
      (hpc : s.monitor = .scan target todo (.restarting id)) :
      MonitorStep s (.acquire false) (.noTimer id) { s with monitor := .scan target todo .next }
  | acquire {target : Target} {id : Nat} {todo : List Nat}
      (hpc : s.monitor = .scan target todo (.restarting id)) :
      MonitorStep s (.acquire true) .done
        { s with monitor := .scan target todo (.registering id) }
  | register {target : Target} {id : Nat} {todo : List Nat}
      (hpc : s.monitor = .scan target todo (.registering id)) (hfree : s.timersLock = Option.none) :
      MonitorStep s .register .done
        ({ s with monitor := .scan target todo .next }.addTimer (.autorestart id))
  | cancel {target : Target} {id timer : Nat} {todo : List Nat}
      (hpc : s.monitor = .scan target todo (.cancelling id timer))
      (hfree : s.timersLock = Option.none) :
      MonitorStep s .cancel .done
        (({ s with monitor := .scan target todo .next }.dropTimer timer).free id)
  | unlock {target : Target} (hpc : s.monitor = .scan target [] .next) :
      MonitorStep s .unlock .done { s with monitor := .poll, listLock := Option.none }

/-- Steps of `avbox_timers_thread`. -/
inductive TimersStep (s : State τ) : TimersEvent → Outcome → State τ → Prop
  | wake {elapsed : List Nat} (hpc : s.timersPc = .asleep) (hfree : s.timersLock = none) :
      TimersStep s (.wake elapsed) .done
        { s with
          timersPc := .pass ((s.timers.map Timer.id).filter fun timer => timer ∈ elapsed)
          timersLock := some .timers }
  | gone {timer : Nat} {todo : List Nat} {pid : Option Nat}
      (hpc : s.timersPc = .pass (timer :: todo)) :
      TimersStep s (.call pid) .done { s with timersPc := .pass todo }
  | forceKill {timer id : Nat} {todo : List Nat} {pid : Option Nat} {t : Timer}
      (hpc : s.timersPc = .pass (timer :: todo))
      (ht : s.timers.find? (fun t => t.id = timer) = some t) (hcall : t.callback = .forceKill id) :
      TimersStep s (.call pid) .done { s with timersPc := .forceKill timer id todo }
  | noFork {timer id : Nat} {todo : List Nat} {p : Proc} {t : Timer}
      (hpc : s.timersPc = .pass (timer :: todo))
      (ht : s.timers.find? (fun t => t.id = timer) = some t)
      (hcall : t.callback = .autorestart id) (hp : s.procs id = some p) :
      TimersStep s (.call none) (.forked id none)
        ({ s.dropTimer timer with timersPc := .pass todo }.setProc id { p with pid := none })
  | fork {timer id pid : Nat} {todo : List Nat} {p : Proc} {t : Timer}
      (hpc : s.timersPc = .pass (timer :: todo))
      (ht : s.timers.find? (fun t => t.id = timer) = some t)
      (hcall : t.callback = .autorestart id) (hp : s.procs id = some p)
      (hpid : s.children pid = none) :
      TimersStep s (.call (some pid)) (.forked id (some pid))
        { s.dropTimer timer with
          timersPc := .forked id pid todo
          children := Function.update s.children pid (some ⟨some id, none⟩) }
  | kill {timer id : Nat} {todo : List Nat} (hpc : s.timersPc = .forceKill timer id todo)
      (hfree : s.listLock = none) : TimersStep s .kill .done { s with timersPc := .pass todo }
  | stop {timer id : Nat} {todo : List Nat} (hpc : s.timersPc = .forceKill timer id todo)
      (hfree : s.listLock = none) :
      TimersStep s .kill .done ({ s with timersPc := .pass todo }.dropTimer timer)
  | store {id pid : Nat} {todo : List Nat} {p : Proc} (hpc : s.timersPc = .forked id pid todo)
      (hp : s.procs id = some p) :
      TimersStep s .store .done
        ({ s with timersPc := .stored id pid todo }.setProc id { p with pid := some pid })
  | load {id pid : Nat} {todo : List Nat} {p : Proc} (hpc : s.timersPc = .stored id pid todo)
      (hp : s.procs id = some p) :
      TimersStep s .load .done { s with timersPc := .returned id p.pid todo }
  | restore {id : Nat} {pid : Option Nat} {todo : List Nat} {p : Proc}
      (hpc : s.timersPc = .returned id pid todo) (hp : s.procs id = some p) :
      TimersStep s .restore .done
        ({ s with timersPc := .pass todo }.setProc id { p with pid := pid })
  | sleep (hpc : s.timersPc = .pass []) :
      TimersStep s .sleep .done { s with timersPc := .asleep, timersLock := none }

theorem fork_cases {s s' : State τ} {owner : Option Nat} {pid : Nat}
    (h : s.fork owner pid = some s') : s.children pid = none ∧
      s' = { s with children := Function.update s.children pid (some ⟨owner, none⟩) } := by
  unfold State.fork at h
  split at h
  · cases h
    exact ⟨‹_›, rfl⟩
  · cases h

theorem visit_cases {s s' : State τ} {target : Target} {todo : List Nat} {id : Nat} {p : Proc}
    {delegated : Bool} {out : Outcome} (hpc : s.monitor = .scan target (id :: todo) .next)
    (hp : s.procs id = some p) (h : visit s target todo id p delegated = (s', out)) :
    MonitorStep s (.visit delegated) out s' := by
  unfold visit at h
  cases hmatch : target.filter fun t => p.pid = some t.1 with
  | some reaped =>
    obtain ⟨pid, status⟩ := reaped
    obtain ⟨rfl, hpid⟩ := Option.filter_eq_some_iff.mp hmatch
    have hpid' : p.pid = some pid := by simpa using hpid
    simp only [hmatch] at h
    split at h
    · split at h
      · cases h
        exact .found hpc hp hpid' (Or.inl ⟨rfl, rfl⟩)
      · cases h
        exact .found hpc hp hpid' (Or.inr ⟨rfl, Or.inl rfl⟩)
    · cases h
      exact .found hpc hp hpid' (Or.inr ⟨rfl, Or.inr rfl⟩)
  | none =>
    have hpid : ∀ pid status, target = some (pid, status) → p.pid ≠ some pid := by
      rintro pid status rfl heq
      simp [heq] at hmatch
    cases hcb : p.cbstate with
    | none =>
      simp only [hmatch, hcb] at h
      cases h
      exact .skip hpc hp hpid
    | some cb =>
      simp only [hmatch, hcb] at h
      cases cb with
      | running =>
        cases h
        exact .skip hpc hp hpid
      | finished result =>
        cases h
        exact .collect hpc hp hpid hcb

theorem conclude_cases {s : State τ} {target : Target} {todo : List Nat} {id : Nat} {p : Proc}
    {cbresult : Int} (hpc : s.monitor = .scan target todo (.deciding id cbresult))
    (hp : s.procs id = some p) :
    MonitorStep s .decide .done (conclude s target todo id p cbresult) := by
  unfold conclude
  dsimp only
  split
  · exact .restart hpc hp ‹_›
  · rename_i hrestart
    rw [Bool.not_eq_true] at hrestart
    split
    · exact .exitted hpc hp hrestart ‹_›
    · rename_i hwait
      rw [Bool.not_eq_true] at hwait
      split
      · exact .toCancel hpc hp hrestart hwait ‹_›
      · exact .free hpc hp hrestart hwait ‹_›

theorem monitor_cases {s s' : State τ} {e : MonitorEvent} {out : Outcome}
    (h : stepMonitor s e = some (s', out)) : MonitorStep s e out s' := by
  unfold stepMonitor at h
  split at h
  · rename_i hpc
    split at h
    · cases h
      exact .none hpc
    · cases h
  · rename_i hpc
    split at h
    · split at h
      · cases h
        exact .reap hpc ‹_›
      · cases h
    · cases h
  · rename_i hpc
    split at h
    · rename_i hcond
      cases h
      exact .exit hpc hcond.2
    · cases h
  · rename_i hpc
    split at h
    · cases h
      exact .lock hpc ‹_›
    · cases h
  · rename_i hpc
    obtain ⟨p, hp, hvisit⟩ := Option.map_eq_some_iff.mp h
    exact visit_cases hpc hp hvisit
  · rename_i hpc
    obtain ⟨p, hp, hconclude⟩ := Option.map_eq_some_iff.mp h
    cases hconclude
    exact conclude_cases hpc hp
  · rename_i hpc
    obtain ⟨p, hp, h⟩ := Option.bind_eq_some_iff.mp h
    split at h
    · dsimp only at h
      split at h
      · cases h
        exact .noFork hpc hp
      · obtain ⟨s₁, hfork, hr⟩ := Option.map_eq_some_iff.mp h
        cases hr
        obtain ⟨hpid, rfl⟩ := fork_cases hfork
        exact .fork hpc hp hpid
    · cases h
  · rename_i ok hpc
    obtain ⟨p, hp, h⟩ := Option.bind_eq_some_iff.mp h
    split at h
    · cases h
    · cases ok with
      | false =>
        cases h
        exact .noTimer hpc
      | true =>
        cases h
        exact .acquire hpc
  · rename_i hpc
    split at h
    · cases h
      exact .register hpc ‹_›
    · cases h
  · rename_i hpc
    split at h
    · cases h
      exact .cancel hpc ‹_›
    · cases h
  · rename_i hpc
    cases h
    exact .unlock hpc
  · cases h

theorem timers_cases {s s' : State τ} {e : TimersEvent} {out : Outcome}
    (h : stepTimers s e = some (s', out)) : TimersStep s e out s' := by
  unfold stepTimers at h
  split at h
  · rename_i hpc
    split at h
    · cases h
      exact .wake hpc ‹_›
    · cases h
  · rename_i hpc
    split at h
    · cases h
      exact .gone hpc
    · rename_i ht
      obtain ⟨p, hp, hr⟩ := Option.map_eq_some_iff.mp h
      cases hr
      exact .forceKill hpc ht rfl
    · rename_i ht
      obtain ⟨p, hp, h⟩ := Option.bind_eq_some_iff.mp h
      dsimp only at h
      split at h
      · cases h
        exact .noFork hpc ht rfl hp
      · obtain ⟨s₁, hfork, hr⟩ := Option.map_eq_some_iff.mp h
        cases hr
        obtain ⟨hpid, rfl⟩ := fork_cases hfork
        exact .fork hpc ht rfl hp hpid
  · rename_i hpc
    split at h
    · split at h
      · cases h
        exact .kill hpc ‹_›
      · cases h
        exact .stop hpc ‹_›
    · cases h
  · rename_i hpc
    obtain ⟨p, hp, hr⟩ := Option.map_eq_some_iff.mp h
    cases hr
    exact .store hpc hp
  · rename_i hpc
    obtain ⟨p, hp, hr⟩ := Option.map_eq_some_iff.mp h
    cases hr
    exact .load hpc hp
  · rename_i hpc
    obtain ⟨p, hp, hr⟩ := Option.map_eq_some_iff.mp h
    cases hr
    exact .restore hpc hp
  · rename_i hpc
    cases h
    exact .sleep hpc
  · cases h

variable [DecidableEq τ]

/-- Steps of a caller. -/
inductive CallerStep (s : State τ) (t : τ) : CallerEvent → Outcome → State τ → Prop
  | noStart {flags : Flags} {delay : Nat} {cb : Bool} (hpc : s.callers t = .idle)
      (hfree : s.listLock = none) :
      CallerStep s t (.start flags delay cb none) (.forked s.nextId none)
        { s with nextId := s.nextId + 1 }
  | start {flags : Flags} {delay pid : Nat} {cb : Bool} (hpc : s.callers t = .idle)
      (hfree : s.listLock = none) (hpid : s.children pid = none) :
      CallerStep s t (.start flags delay cb (some pid)) (.forked s.nextId (some pid))
        ({ s with
          nextId := s.nextId + 1
          list := listAdd s.list s.nextId
          children :=
            Function.update s.children pid (some ⟨some s.nextId, none⟩) }.setProc s.nextId
              ⟨some pid, -1, false, false, none, delay, flags, cb, none⟩)
  | noWait {id : Nat} (hpc : s.callers t = .idle) (hfree : s.listLock = none) :
      CallerStep s t (.wait id) (.failed id) s
  | wait {id : Nat} (hpc : s.callers t = .idle) (hfree : s.listLock = none) :
      CallerStep s t (.wait id) .done (s.setCaller t (.waiting id))
  | free {e : CallerEvent} {id : Nat} {p : Proc} (hfree : s.listLock = none)
      (hp : s.procs id = some p)
      (he : e = .wait id ∧ s.callers t = .idle ∧ p.exitted = true ∨
        e = .wakeup ∧ s.callers t = .waiting id) (htimer : p.forceKillTimer = none) :
      CallerStep s t e (.waited id p.exitStatus) ((s.free id).setCaller t .idle)
  | toCancel {e : CallerEvent} {id timer : Nat} {p : Proc} (hfree : s.listLock = none)
      (hp : s.procs id = some p)
      (he : e = .wait id ∧ s.callers t = .idle ∧ p.exitted = true ∨
        e = .wakeup ∧ s.callers t = .waiting id) (htimer : p.forceKillTimer = some timer) :
      CallerStep s t e .done
        ({ s with listLock := some (.caller t) }.setCaller t (.cancelling id timer))
  | cancel {id timer : Nat} {p : Proc} (hpc : s.callers t = .cancelling id timer)
      (hfree : s.timersLock = none) (hp : s.procs id = some p) :
      CallerStep s t .cancel (.waited id p.exitStatus)
        ((({ s with listLock := none }.dropTimer timer).free id).setCaller t .idle)
  | noStop {id : Nat} (hpc : s.callers t = .idle) (hp : s.procs id = none) :
      CallerStep s t (.stop id) (.stopped id (-1)) s
  | stop {id : Nat} (hpc : s.callers t = .idle) :
      CallerStep s t (.stop id) .done (s.setCaller t (.found id))
  | readNone {id : Nat} {p : Proc} (hpc : s.callers t = .found id) (hp : s.procs id = some p)
      (hpid : p.pid = none) : CallerStep s t .read (.stopped id 0) (s.setCaller t .idle)
  | read {id pid : Nat} {p : Proc} (hpc : s.callers t = .found id) (hp : s.procs id = some p)
      (hpid : p.pid = some pid) :
      CallerStep s t .read .done (s.setCaller t (.marking id pid))
  | mark {id pid : Nat} {p : Proc} (hpc : s.callers t = .marking id pid)
      (hp : s.procs id = some p) :
      CallerStep s t .mark .done
        ((s.setCaller t (.killing id pid)).setProc id { p with stopping := true })
  | noKill {id pid : Nat} {acquired : Bool} {p : Proc} (hpc : s.callers t = .killing id pid)
      (hp : s.procs id = some p) :
      CallerStep s t (.kill false acquired) (.stopped id (-1)) (s.setCaller t .idle)
  | sigkill {id pid : Nat} {acquired : Bool} {p : Proc} (hpc : s.callers t = .killing id pid)
      (hp : s.procs id = some p) :
      CallerStep s t (.kill true acquired) (.stopped id 0) (s.setCaller t .idle)
  | sigterm {id pid : Nat} {p : Proc} (hpc : s.callers t = .killing id pid)
      (hp : s.procs id = some p) :
      CallerStep s t (.kill true true) .done (s.setCaller t (.registering id))
  | noTimer {id pid : Nat} {p : Proc} (hpc : s.callers t = .killing id pid)
      (hp : s.procs id = some p) :
      CallerStep s t (.kill true false) (.stopped id (-1))
        ((s.setCaller t .idle).setProc id { p with forceKillTimer := none })
  | register {id : Nat} (hpc : s.callers t = .registering id) (hfree : s.timersLock = none) :
      CallerStep s t .register .done
        ((s.setCaller t (.storing id s.nextTimer)).addTimer (.forceKill id))
  | store {id timer : Nat} {p : Proc} (hpc : s.callers t = .storing id timer)
      (hp : s.procs id = some p) :
      CallerStep s t .store (.stopped id 0)
        ((s.setCaller t .idle).setProc id { p with forceKillTimer := some timer })

/-- Steps of the manager. -/
inductive Steps (s : State τ) : Event τ → Outcome → State τ → Prop
  | monitor {e : MonitorEvent} {out : Outcome} {s' : State τ} (h : MonitorStep s e out s') :
      Steps s (.monitor e) out s'
  | timers {e : TimersEvent} {out : Outcome} {s' : State τ} (h : TimersStep s e out s') :
      Steps s (.timers e) out s'
  | caller {t : τ} {e : CallerEvent} {out : Outcome} {s' : State τ} (h : CallerStep s t e out s') :
      Steps s (.caller t e) out s'
  | die {pid status : Nat} {owner : Option Nat} (hchild : s.children pid = some ⟨owner, none⟩) :
      Steps s (.die pid status) .done
        { s with children := Function.update s.children pid (some ⟨owner, some status⟩) }
  | spawn {pid : Nat} (hpid : s.children pid = none) :
      Steps s (.spawn pid) .done
        { s with children := Function.update s.children pid (some ⟨none, none⟩) }
  | callback {id : Nat} {result : Int} {p : Proc} (hp : s.procs id = some p)
      (hcb : p.cbstate = some .running) :
      Steps s (.callback id result) .done
        (s.setProc id { p with cbstate := some (.finished result) })
  | shutdown : Steps s .shutdown .done { s with quit := true }

theorem endWait_cases {s s' : State τ} {t : τ} {e : CallerEvent} {id : Nat} {p : Proc}
    {out : Outcome} (hfree : s.listLock = none) (hp : s.procs id = some p)
    (he : e = .wait id ∧ s.callers t = .idle ∧ p.exitted = true ∨
      e = .wakeup ∧ s.callers t = .waiting id) (h : endWait s t id p = (s', out)) :
    CallerStep s t e out s' := by
  unfold endWait at h
  split at h
  · cases h
    exact .toCancel hfree hp he ‹_›
  · cases h
    exact .free hfree hp he ‹_›

theorem caller_cases {s s' : State τ} {t : τ} {e : CallerEvent} {out : Outcome}
    (h : stepCaller s t e = some (s', out)) : CallerStep s t e out s' := by
  unfold stepCaller at h
  split at h
  · rename_i hpc
    split at h
    · rename_i hfree
      dsimp only at h
      split at h
      · cases h
        exact .noStart hpc hfree
      · obtain ⟨s₁, hfork, hr⟩ := Option.map_eq_some_iff.mp h
        cases hr
        obtain ⟨hpid, rfl⟩ := fork_cases hfork
        exact .start hpc hfree hpid
    · cases h
  · rename_i hpc
    split at h
    · rename_i hfree
      split at h
      · cases h
        exact .noWait hpc hfree
      · rename_i hp
        split at h
        · cases h
          exact .noWait hpc hfree
        · split at h
          · rename_i hexit
            exact endWait_cases hfree hp (Or.inl ⟨rfl, hpc, hexit⟩) (Option.some.inj h)
          · cases h
            exact .wait hpc hfree
    · cases h
  · rename_i hpc
    split at h
    · rename_i hfree
      obtain ⟨p, hp, hr⟩ := Option.map_eq_some_iff.mp h
      exact endWait_cases hfree hp (Or.inr ⟨rfl, hpc⟩) hr
    · cases h
  · rename_i hpc
    split at h
    · obtain ⟨p, hp, hr⟩ := Option.map_eq_some_iff.mp h
      cases hr
      exact .cancel hpc ‹_› hp
    · cases h
  · rename_i hpc
    split at h
    · split at h
      · cases h
        exact .noStop hpc ‹_›
      · cases h
        exact .stop hpc
    · cases h
  · rename_i hpc
    obtain ⟨p, hp, hr⟩ := Option.map_eq_some_iff.mp h
    split at hr
    · cases hr
      exact .readNone hpc hp ‹_›
    · cases hr
      exact .read hpc hp ‹_›
  · rename_i hpc
    obtain ⟨p, hp, hr⟩ := Option.map_eq_some_iff.mp h
    cases hr
    exact .mark hpc hp
  · rename_i hpc
    obtain ⟨p, hp, hk⟩ := Option.bind_eq_some_iff.mp h
    split at hk
    · rename_i hok
      subst hok
      split at hk
      · cases hk
        exact .noKill hpc hp
      · cases hk
    · rename_i hok
      rw [Bool.not_eq_false] at hok
      subst hok
      split at hk
      · cases hk
        exact .sigkill hpc hp
      · split at hk
        · rename_i hacquired
          subst hacquired
          cases hk
          exact .sigterm hpc hp
        · rename_i hacquired
          rw [Bool.not_eq_true] at hacquired
          subst hacquired
          cases hk
          exact .noTimer hpc hp
  · rename_i hpc
    split at h
    · cases h
      exact .register hpc ‹_›
    · cases h
  · rename_i hpc
    obtain ⟨p, hp, hr⟩ := Option.map_eq_some_iff.mp h
    cases hr
    exact .store hpc hp
  · cases h

/-- There is no other step. -/
theorem step_cases {s s' : State τ} {e : Event τ} {out : Outcome}
    (h : step s e = some (s', out)) : Steps s e out s' := by
  cases e with
  | monitor e => exact .monitor (monitor_cases h)
  | timers e => exact .timers (timers_cases h)
  | caller t e => exact .caller (caller_cases h)
  | die pid status =>
    simp only [step] at h
    split at h
    · cases h
      exact .die ‹_›
    · cases h
  | spawn pid =>
    obtain ⟨s₁, hfork, hr⟩ := Option.map_eq_some_iff.mp h
    cases hr
    obtain ⟨hpid, rfl⟩ := fork_cases hfork
    exact .spawn hpid
  | callback id result =>
    simp only [step] at h
    split at h
    · split at h
      · cases h
        exact .callback ‹_› ‹_›
      · cases h
    · cases h
  | shutdown =>
    cases h
    exact .shutdown

end Mediabox.Process
