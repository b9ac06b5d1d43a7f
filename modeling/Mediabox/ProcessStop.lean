import Mediabox.ProcessEntries

/-!
# A stopped process stays stopped

`avbox_process_stop` sets `stopping` only when it finds a pid, and the timer that restarts a process
does not look at `stopping`.

* `View.Stopped` — what an entry must be like so that nothing forks it again.
* `Heeded` — `avbox_process_stop` finds no entry in its exit callback or on its way to a restart,
  and at its `kill` no restart is due.
* `stopped_stays` — in runs of such steps, no process is forked after `avbox_process_stop` returned
  0 for it; `stopped_restarts` is a run where it is.
-/

set_option autoImplicit false

namespace Mediabox.Process

open Transition

variable {τ : Type*} [DecidableEq τ]

/-! ## What keeps an entry from being forked -/

/-- The scan has decided for a restart. -/
def Stage.restart : Stage → Bool
  | .restarting _ => true
  | .registering _ => true
  | _ => false

/-- The scan is before its test for a restart. -/
def Stage.deciding? : Stage → Bool
  | .deciding _ _ => true
  | _ => false

/-- A fork is certain: the scan has decided for it, or its timer is registered. -/
def View.due (v : View) : Bool := v.stage.restart || decide (0 < v.timers)

/-- One of the flags for a restart is set. -/
def Proc.mayRestart (p : Proc) : Bool := p.flags.autorestart || p.flags.autorestartAlways

/-- No fork is due, and none will be: `stopping` is set, or no restart is asked for, or the process
    is neither running nor in its callback. -/
def View.Stopped (v : View) : Prop :=
  ∀ p, v.proc = some p → v.due = false ∧ (p.stopping = true ∨ p.mayRestart = false ∨
    (p.pid = none ∧ p.cbstate = none ∧ v.stage.deciding? = false ∧ v.restart = .none))

/-- `avbox_process_stop` is about to read the pid of this entry. -/
def readEntry (s : State τ) : Event τ → Option Nat
  | .caller t .read =>
    match s.callers t with
    | .found id => some id
    | _ => none
  | _ => none

/-- `avbox_process_stop` is about to signal the process of this entry, with success. -/
def killEntry (s : State τ) : Event τ → Option Nat
  | .caller t (.kill true _) =>
    match s.callers t with
    | .killing id _ => some id
    | _ => none
  | _ => none

/-- The process is running, or it is neither on its way to a restart nor (where a restart is still
    possible) in its exit callback. -/
def View.heeds (v : View) : Bool :=
  match v.proc with
  | none => true
  | some p =>
    p.pid.isSome || (!v.due && decide (v.restart = .none) &&
      (p.stopping || !p.mayRestart || (decide (p.cbstate = none) && !v.stage.deciding?)))

/-- The condition on the steps of `avbox_process_stop`. -/
def Heeded (s : State τ) (e : Event τ) : Prop :=
  (∀ id ∈ readEntry s e, (s.view id).heeds = true) ∧
    ∀ id ∈ killEntry s e, (s.view id).due = false

instance (s : State τ) (e : Event τ) : Decidable (Heeded s e) :=
  inferInstanceAs (Decidable (_ ∧ _))

theorem due_eq_false {v : View} :
    v.due = false ↔ v.stage.restart = false ∧ v.timers = 0 := by
  simp [View.due]

/-- A process that is stopped or without the flags is not restarted. -/
theorem restarts_stopped {p : Proc} {cbresult : Int}
    (h : p.stopping = true ∨ p.mayRestart = false) : restarts p cbresult = false := by
  rcases h with h | h
  · simp [restarts, h]
  · have hflags : p.flags.autorestart = false ∧ p.flags.autorestartAlways = false := by
      simpa [Proc.mayRestart] using h
    simp [restarts, hflags.1, hflags.2]

/-- An entry that is at work is stopped by `stopping` or for want of the flags. -/
theorem View.Stopped.marked {v : View} (h : v.Stopped) {p : Proc} (hp : v.proc = some p)
    (hbusy : p.pid ≠ none ∨ p.cbstate ≠ none ∨ v.stage.deciding? = true ∨ v.restart ≠ .none) :
    p.stopping = true ∨ p.mayRestart = false := by
  rcases (h p hp).2 with hs | hs | ⟨hpid, hcb, hstage, hrestart⟩
  · exact Or.inl hs
  · exact Or.inr hs
  · rcases hbusy with hb | hb | hb | hb
    · exact absurd hpid hb
    · exact absurd hcb hb
    · rw [hstage] at hb
      cases hb
    · exact absurd hrestart hb

theorem View.Stopped.intro {v : View} {p : Proc} (hp : v.proc = some p) (hdue : v.due = false)
    (hmarked : p.stopping = true ∨ p.mayRestart = false) : v.Stopped := by
  intro q hq
  rw [hp] at hq
  cases hq
  exact ⟨hdue, hmarked.elim Or.inl fun hm => Or.inr (Or.inl hm)⟩

theorem View.stopped_none {v : View} (h : v.proc = none) : v.Stopped := by
  intro p hp
  rw [h] at hp
  cases hp

/-- Nothing forks a stopped entry, and it stays stopped. -/
theorem Move.stopped {id : Nat} {v v' : View} {out : Outcome} (h : Move id v out v')
    (hstop : v.Stopped) (hlive : v.proc = none → ∀ pid, out ≠ .forked id pid) :
    v'.Stopped ∧ ∀ pid, out ≠ .forked id pid := by
  -- a restart that is due contradicts `hstop`
  have hdue : ∀ {p}, v.proc = some p → v.stage.restart = false ∧ v.timers = 0 :=
    fun hp => due_eq_false.mp (hstop _ hp).1
  have hstage : ∀ {p}, v.proc = some p → v.stage ≠ .restarting id ∧ v.stage ≠ .registering id := by
    intro p hp
    have := (hdue hp).1
    constructor
    · intro heq
      rw [heq] at this
      cases this
    · intro heq
      rw [heq] at this
      cases this
  have hbare : ∀ {w : View}, w.proc = v.proc → v.stage = .restarting id ∨ v.stage = .registering id →
      w.Stopped := by
    intro w hw hv
    cases hp : v.proc with
    | none => exact View.stopped_none (hw.trans hp)
    | some p => exact absurd hv (not_or.mpr (hstage hp))
  cases h with
  | same hout =>
    refine ⟨hstop, ?_⟩
    rintro pid rfl
    exact hout rfl
  | noStart hv | start hv => exact absurd rfl (hlive (by rw [hv]; rfl) _)
  | found hp hv hpid hnew =>
    have hmarked := hstop.marked hp (Or.inl (by rw [hpid]; exact nofun))
    refine ⟨.intro rfl ?_ hmarked, nofun⟩
    refine due_eq_false.mpr ⟨?_, (hdue hp).2⟩
    rcases hnew with ⟨rfl, -⟩ | ⟨rfl, -⟩ <;> rfl
  | collect hp hv hcb =>
    have hmarked := hstop.marked hp (Or.inr (Or.inl (by rw [hcb]; exact nofun)))
    exact ⟨.intro rfl (due_eq_false.mpr ⟨rfl, (hdue hp).2⟩) hmarked, nofun⟩
  | restart hp hv hrestart =>
    have hmarked := hstop.marked hp (Or.inr (Or.inr (Or.inl (by rw [hv]; rfl))))
    rw [restarts_stopped hmarked] at hrestart
    cases hrestart
  | exitted hp hv hwait =>
    have hmarked := hstop.marked hp (Or.inr (Or.inr (Or.inl (by rw [hv]; rfl))))
    exact ⟨.intro rfl (due_eq_false.mpr ⟨rfl, (hdue hp).2⟩) hmarked, nofun⟩
  | toCancel hv =>
    refine ⟨fun p hp => ?_, nofun⟩
    have hmarked := hstop.marked hp (Or.inr (Or.inr (Or.inl (by rw [hv]; rfl))))
    exact View.Stopped.intro hp (due_eq_false.mpr ⟨rfl, (hdue hp).2⟩) hmarked p hp
  | free | waited => exact ⟨View.stopped_none rfl, nofun⟩
  | noFork hp hv | fork hp hv => exact absurd hv (hstage hp).1
  | noTimer hv | acquire hv => exact ⟨hbare rfl (Or.inl hv), nofun⟩
  | register hv => exact ⟨hbare rfl (Or.inr hv), nofun⟩
  | noCall hp hv | call hp hv =>
    have := (hdue hp).2
    omega
  | store hp hv | restore hp hv =>
    have hmarked := hstop.marked hp (Or.inr (Or.inr (Or.inr (by rw [hv]; exact nofun))))
    exact ⟨.intro rfl (hstop _ hp).1 hmarked, nofun⟩
  | load hp hv =>
    have hmarked := hstop.marked hp (Or.inr (Or.inr (Or.inr (by rw [hv]; exact nofun))))
    exact ⟨.intro hp (hstop _ hp).1 hmarked, nofun⟩
  | mark hp => exact ⟨.intro rfl (hstop _ hp).1 (Or.inl rfl), nofun⟩
  | timer hp hout =>
    have hold := hstop _ hp
    refine ⟨fun q hq => ?_, ?_⟩
    · cases hq
      exact hold
    · rintro pid rfl
      cases hout
  | callback hp hcb =>
    have hmarked := hstop.marked hp (Or.inr (Or.inl (by rw [hcb]; exact nofun)))
    exact ⟨.intro rfl (hstop _ hp).1 hmarked, nofun⟩

/-! ## Whole runs -/

/-- An entry that was made, and that nothing forks again. -/
def Settled (s : State τ) (id : Nat) : Prop := id < s.nextId ∧ (s.view id).Stopped

theorem Settled.step {s s' : State τ} {e : Event τ} {out : Outcome} {id : Nat} (hset : Settled s id)
    (hc : Coherent s) (h : Steps s e out s') : Settled s' id ∧ ∀ pid, out ≠ .forked id pid := by
  obtain ⟨hstopped, hquiet⟩ := (step_move hc h id).stopped hset.2 (not_forked hset.1 h)
  exact ⟨⟨Nat.lt_of_lt_of_le hset.1 (nextId_le h), hstopped⟩, hquiet⟩

/-- An entry that was made, and in which `stopping` is set. -/
def Marked (s : State τ) (id : Nat) : Prop :=
  id < s.nextId ∧ ∀ p, (s.view id).proc = some p → p.stopping = true

theorem Marked.step {s s' : State τ} {e : Event τ} {out : Outcome} {id : Nat} (hm : Marked s id)
    (hc : Coherent s) (h : Steps s e out s') : Marked s' id := by
  refine ⟨Nat.lt_of_lt_of_le hm.1 (nextId_le h), fun p' hp' => ?_⟩
  obtain ⟨p, hp, hs, -⟩ := step_kept hc h hm.1 hp'
  exact hs (hm.2 p hp)

/-- What a caller in `avbox_process_stop` relies on. -/
def CallerOk (s : State τ) : CallerPc → Prop
  | .killing id _ => Marked s id
  | .registering id => Settled s id
  | .storing id _ => Settled s id
  | _ => True

theorem CallerOk.step {s s' : State τ} {e : Event τ} {out : Outcome} {pc : CallerPc}
    (hok : CallerOk s pc) (hc : Coherent s) (h : Steps s e out s') : CallerOk s' pc := by
  cases pc with
  | killing id pid => exact Marked.step hok hc h
  | registering id | storing id timer => exact (Settled.step hok hc h).1
  | _ => trivial

omit [DecidableEq τ] in
/-- A signalled process, with no restart due, is stopped. -/
theorem Marked.settled {s : State τ} {id : Nat} (hm : Marked s id)
    (hdue : (s.view id).due = false) : Settled s id :=
  ⟨hm.1, fun p hp => ⟨hdue, Or.inl (hm.2 p hp)⟩⟩

omit [DecidableEq τ] in
theorem settled_of_heeds {s : State τ} (hc : Coherent s) {id : Nat} {p : Proc}
    (hp : s.procs id = some p) (hpid : p.pid = none) (h : (s.view id).heeds = true) :
    Settled s id := by
  refine ⟨hc.below hp, fun q hq => ?_⟩
  have hview : (s.view id).proc = some p := hp
  rw [hview] at hq
  cases hq
  simp only [View.heeds, hview, hpid, Option.isSome_none, Bool.false_or, Bool.and_eq_true,
    Bool.not_eq_true', decide_eq_true_eq, Bool.or_eq_true] at h
  obtain ⟨⟨hdue, hrestart⟩, (hs | hs) | ⟨hcb, hstage⟩⟩ := h
  · exact ⟨hdue, Or.inl hs⟩
  · exact ⟨hdue, Or.inr (Or.inl hs)⟩
  · exact ⟨hdue, Or.inr (Or.inr ⟨hpid, hcb, hstage, hrestart⟩)⟩

/-- What a step of a caller leaves behind, and what `avbox_process_stop` promises by returning 0. -/
theorem caller_stops {s s' : State τ} {t : τ} {e : CallerEvent} {out : Outcome} (hc : Coherent s)
    (hold : CallerOk s (s.callers t)) (hok : Heeded s (.caller t e)) (h : CallerStep s t e out s') :
    CallerOk s' (s'.callers t) ∧ ∀ id, out = .stopped id 0 → Settled s id := by
  have hstep : ∀ {id}, Settled s id → Settled s' id :=
    fun hset => (hset.step hc (.caller h)).1
  have hself : ∀ {pc}, s'.callers = Function.update s.callers t pc → CallerOk s' pc →
      CallerOk s' (s'.callers t) := by
    intro pc heq hpc
    rw [heq, Function.update_self]
    exact hpc
  cases h with
  | noStart hpc | start hpc =>
    exact ⟨by show CallerOk _ (s.callers t); rw [hpc]; trivial, by rintro _ ⟨⟩⟩
  | noWait | noStop => exact ⟨hold, by rintro _ ⟨⟩⟩
  | mark hpc hp =>
    refine ⟨hself rfl ⟨hc.below hp, ?_⟩, by rintro _ ⟨⟩⟩
    intro q hq
    simp only [State.view, State.setProc, Function.update_self, Option.some.injEq] at hq
    rw [← hq]
  | readNone hpc hp hpid =>
    refine ⟨hself rfl trivial, ?_⟩
    rintro id ⟨⟩
    exact settled_of_heeds hc hp hpid (hok.1 _ (by simp [readEntry, hpc]))
  | sigkill hpc hp =>
    rw [hpc] at hold
    refine ⟨hself rfl trivial, ?_⟩
    rintro id ⟨⟩
    exact Marked.settled hold (hok.2 _ (by simp [killEntry, hpc]))
  | sigterm hpc hp =>
    rw [hpc] at hold
    have hset := Marked.settled hold (hok.2 _ (by simp [killEntry, hpc]))
    exact ⟨hself rfl (hstep hset), by rintro _ ⟨⟩⟩
  | register hpc =>
    rw [hpc] at hold
    exact ⟨hself rfl (hstep hold), by rintro _ ⟨⟩⟩
  | store hpc hp =>
    rw [hpc] at hold
    refine ⟨hself rfl trivial, ?_⟩
    rintro id ⟨⟩
    exact hold
  | _ => exact ⟨hself rfl trivial, by rintro _ ⟨⟩⟩

/-- The run invariant: what the callers rely on, and what `avbox_process_stop` promised. -/
structure Stops (tr : List (Event τ × Outcome)) (s : State τ) : Prop where
  coherent : Coherent s
  callers : ∀ t, CallerOk s (s.callers t)
  promised : ∀ e id, (e, Outcome.stopped id 0) ∈ tr → Settled s id
  silent : ∀ tr₁ tr₂ e id, tr = tr₁ ++ (e, .stopped id 0) :: tr₂ →
    ∀ a ∈ tr₂, ∀ pid, a.2 ≠ .forked id pid

omit [DecidableEq τ] in
theorem init_stops : Stops [] (init : State τ) := by
  refine ⟨init_coherent, fun _ => trivial, fun e id h => (nomatch h), ?_⟩
  intro tr₁ tr₂ e id htr
  exact absurd (congrArg List.length htr) (by simp)

/-- Other threads do not touch the program counter of a caller. -/
theorem step_callers {s s' : State τ} {e : Event τ} {out : Outcome} (h : Steps s e out s') (t : τ) :
    s'.callers t = s.callers t ∨ ∃ e', e = .caller t e' ∧ CallerStep s t e' out s' := by
  cases h with
  | monitor h | timers h => exact Or.inl (by cases h <;> rfl)
  | @caller u e' _ _ h =>
    by_cases hu : t = u
    · subst hu
      exact Or.inr ⟨e', rfl, h⟩
    · left
      cases h <;> first | rfl | exact Function.update_of_ne hu _ _
  | _ => exact Or.inl rfl

theorem stopped_caller {s s' : State τ} {e : Event τ} {id : Nat} {ret : Int}
    (h : Steps s e (.stopped id ret) s') :
    ∃ t e', e = .caller t e' ∧ CallerStep s t e' (.stopped id ret) s' := by
  cases h with
  | monitor h | timers h => cases h
  | @caller t e' _ _ h => exact ⟨t, e', rfl, h⟩

theorem step_stops {tr : List (Event τ × Outcome)} {s s' : State τ} {e : Event τ} {out : Outcome}
    (hst : Stops tr s) (hok : Heeded s e) (h : Steps s e out s') : Stops (tr ++ [(e, out)]) s' := by
  have hc := hst.coherent
  -- a process for which the step itself returns 0 was settled before it
  have hnow : ∀ id, out = .stopped id 0 → Settled s id := by
    rintro id rfl
    obtain ⟨t, e', rfl, hcaller⟩ := stopped_caller h
    exact (caller_stops hc (hst.callers t) hok hcaller).2 id rfl
  refine ⟨step_coherent hc h, fun t => ?_, fun e' id hm => ?_, fun tr₁ tr₂ e' id htr => ?_⟩
  · rcases step_callers h t with heq | ⟨e', rfl, hcaller⟩
    · rw [heq]
      exact (hst.callers t).step hc h
    · exact (caller_stops hc (hst.callers t) hok hcaller).1
  · rcases List.mem_append.mp hm with hm | hm
    · exact ((hst.promised e' id hm).step hc h).1
    · cases List.mem_singleton.mp hm
      exact ((hnow id rfl).step hc h).1
  · rcases List.eq_nil_or_concat tr₂ with rfl | ⟨tr₃, a, rfl⟩
    · intro b hb
      cases hb
    · rw [List.concat_eq_append, ← List.cons_append, ← List.append_assoc] at htr
      obtain ⟨hpast, hlast⟩ := List.append_inj' htr rfl
      cases hlast
      intro b hb
      rw [List.concat_eq_append] at hb
      rcases List.mem_append.mp hb with hb | hb
      · exact hst.silent tr₁ tr₃ e' id hpast b hb
      · cases List.mem_singleton.mp hb
        have hm : (e', Outcome.stopped id 0) ∈ tr := by
          rw [hpast]
          simp
        exact ((hst.promised e' id hm).step hc h).2

/-- **A stopped process stays stopped**: in every run whose steps meet the condition, once
    `avbox_process_stop` has returned 0 for a process no later step forks it. -/
theorem stopped_stays {tr : List (Event τ × Outcome)} {s : State τ}
    (h : Run (Guarded step Heeded) init tr s) {tr₁ tr₂ : List (Event τ × Outcome)} {e : Event τ}
    {id : Nat} (htr : tr = tr₁ ++ (e, .stopped id 0) :: tr₂) :
    ∀ a ∈ tr₂, ∀ pid, a.2 ≠ .forked id pid := by
  have hst : Stops tr s := h.history init_stops fun tr s a s' hst hstep =>
    step_stops hst hstep.1 (step_cases hstep.2)
  exact hst.silent tr₁ tr₂ e id htr

/-- A process that is always restarted after five seconds is started; `exitCallback` says whether it
    has an exit callback. -/
def startAlways (exitCallback : Bool) : Event Unit :=
  .caller () (.start ⟨false, true, false, true⟩ 5 exitCallback (some 100))

/-- It dies, and the monitor finds it. -/
def dieAndFind (delegated : Bool) : List (Event Unit) :=
  [.die 100 0, .monitor (.waitpid (some 100)), .monitor .lock, .monitor (.visit delegated)]

/-- `avbox_process_stop` is called while the process runs: it is killed, found and freed, and not
    forked. -/
theorem stopped_stays_running :
    ∃ tr₁ tr₂ e s, Run (Guarded step Heeded) (init : State Unit)
      (tr₁ ++ (e, .stopped 1 0) :: tr₂) s ∧ s.list = [] ∧ tr₂.length = 6 ∧
      ∀ a ∈ tr₂, ∀ pid, a.2 ≠ .forked 1 pid := by
  obtain ⟨tr, s, hrun, hlist, hlen, ⟨e, out⟩, hat, rfl⟩ :=
    exists_run_of_guarded_exec step Heeded (init : State Unit)
      (fun tr s => s.list = [] ∧ (tr.drop 5).length = 6 ∧ ∃ a ∈ tr[4]?, a.2 = .stopped 1 0)
      ([startAlways false, .caller () (.stop 1), .caller () .read, .caller () .mark,
        .caller () (.kill true false)] ++ dieAndFind false ++ [Event.monitor .decide, .monitor .unlock])
      (by decide +kernel)
  rw [← take_append_cons_drop hat] at hrun
  exact ⟨_, _, e, s, hrun, hlist, hlen, stopped_stays hrun rfl⟩

/-- **Stopped between an exit and its restart**: `avbox_process_stop` finds no pid, returns 0
    without setting `stopping`, and the process is forked again, when its restart timer is
    registered and when it is in its exit callback. -/
theorem stopped_restarts :
    (∃ tr₁ tr₂ e e' s, Run (Step step) (init : State Unit)
      (tr₁ ++ (e, .stopped 1 0) :: tr₂ ++ [(e', .forked 1 (some 101))]) s) ∧
    ∃ tr₁ tr₂ e e' s, Run (Step step) (init : State Unit)
      (tr₁ ++ (e, .stopped 1 0) :: tr₂ ++ [(e', .forked 1 (some 101))]) s := by
  constructor
  · have hrun : Run (Step step) (init : State Unit) _ _ := run_of_exec
      (startAlways false :: dieAndFind false ++ [Event.monitor .decide, .monitor (.acquire true),
        .monitor .register, .monitor .unlock, .caller () (.stop 1), .caller () .read,
        .timers (.wake [1]), .timers (.call (some 101))]) rfl
    exact ⟨[(_, _), (_, _), (_, _), (_, _), (_, _), (_, _), (_, _), (_, _), (_, _), (_, _)],
      [(_, _)], _, _, _, hrun⟩
  · have hrun : Run (Step step) (init : State Unit) _ _ := run_of_exec
      (startAlways true :: dieAndFind true ++ [Event.monitor .unlock, .caller () (.stop 1),
        .caller () .read, .callback 1 0, .monitor (.waitpid none), .monitor .lock,
        .monitor (.visit false), .monitor .decide, .monitor (.acquire true), .monitor .register,
        .monitor .unlock, .timers (.wake [1]), .timers (.call (some 101))]) rfl
    exact ⟨[(_, _), (_, _), (_, _), (_, _), (_, _), (_, _), (_, _)],
      [(_, _), (_, _), (_, _), (_, _), (_, _), (_, _), (_, _), (_, _), (_, _)], _, _, _, hrun⟩

end Mediabox.Process
