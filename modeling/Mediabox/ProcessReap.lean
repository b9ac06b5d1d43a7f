import Mediabox.ProcessExits

/-!
# No child exit is lost

`avbox_process_start` forks with the list locked, so that the monitor cannot scan before the pid is
stored.  The restart by the timers thread forks without the lock.

* `Caught` — the scan is timely, no fork by another thread returns the pid the monitor looks for,
  and `pthread_cond_wait` returns only after the exit.
* `exit_found` — in runs of such steps the scan after every `waitpid` finds the entry that the child
  was forked for; `exit_lost` is a restart whose child dies at once.
-/

set_option autoImplicit false

namespace Mediabox.Process

open Transition

variable {τ : Type*} [DecidableEq τ]

/-- The pid that `fork()` gives to another thread than the monitor. -/
def forksTo : Event τ → Option Nat
  | .timers (.call pid) => pid
  | .caller _ (.start _ _ _ pid) => pid
  | _ => none

/-- The entry for which `pthread_cond_wait` returns. -/
def wakes (s : State τ) : Event τ → Option Nat
  | .caller t .wakeup =>
    match s.callers t with
    | .waiting id => some id
    | _ => none
  | _ => none

/-- The condition under which no exit is lost. -/
def Caught (s : State τ) (e : Event τ) : Prop :=
  Timely s e ∧ (∀ pid ∈ forksTo e, s.monitor.target ≠ some pid) ∧
    ∀ id ∈ wakes s e, ∀ p ∈ s.procs id, p.exitted = true

instance (s : State τ) (e : Event τ) : Decidable (Caught s e) :=
  inferInstanceAs (Decidable (_ ∧ _ ∧ _))

/-- The entries to come are different from each other and from the one that is handled. -/
def MonitorPc.Ordered : MonitorPc → Prop
  | .scan _ todo stage => todo.Nodup ∧ ∀ id, stage.entry = some id → id ∉ todo
  | _ => True

/-- The entry that `avbox_process_wait` frees has exitted. -/
def WaitOk (s : State τ) : CallerPc → Prop
  | .cancelling id _ => id < s.nextId ∧ ∀ p, s.procs id = some p → p.exitted = true
  | _ => True

/-- The run invariant: every child is known to its entry, and not looked for. -/
structure Reaps (s : State τ) : Prop where
  tracked : Tracked s
  waits : ∀ t, WaitOk s (s.callers t)
  scan : s.monitor.Ordered
  owners : ∀ pid id, s.isChild pid id → (s.view id).Claims pid
  apart : ∀ pid id, s.isChild pid id → ¬ s.pending pid id

variable {s s' : State τ} {e : Event τ} {out : Outcome}

theorem step_ordered (hc : Coherent s) (hscan : s.monitor.Ordered) (h : Steps s e out s') :
    s'.monitor.Ordered := by
  have hsame : s'.monitor = s.monitor → s'.monitor.Ordered := fun heq => heq ▸ hscan
  cases h with
  | monitor h =>
    have hvisit : ∀ {target i todo stage}, s.monitor = .scan target (i :: todo) .next →
        stage.entry = some i ∨ stage = .next → (MonitorPc.scan target todo stage).Ordered := by
      intro target i todo stage hpc hstage
      rw [hpc] at hscan
      obtain ⟨hi, hnodup⟩ := List.nodup_cons.mp hscan.1
      refine ⟨hnodup, fun id hid => ?_⟩
      rcases hstage with hstage | rfl
      · rw [hstage] at hid
        cases hid
        exact hi
      · cases hid
    have hstage : ∀ {target todo stage stage'}, s.monitor = .scan target todo stage →
        stage'.entry = stage.entry ∨ stage' = .next →
        (MonitorPc.scan target todo stage').Ordered := by
      intro target todo stage stage' hpc hentry
      rw [hpc] at hscan
      refine ⟨hscan.1, fun id hid => ?_⟩
      rcases hentry with hentry | rfl
      · exact hscan.2 id (hentry.symm.trans hid)
      · cases hid
    cases h with
    | none | reap | exit | unlock => exact trivial
    | lock => exact ⟨hc.nodup, nofun⟩
    | found hpc _ _ hnew =>
      exact hvisit hpc (hnew.elim (fun hs => Or.inr hs.1) fun hs => Or.inl (by rw [hs.1]; rfl))
    | collect hpc => exact hvisit hpc (Or.inl rfl)
    | skip hpc => exact hvisit hpc (Or.inr rfl)
    | restart hpc | toCancel hpc | acquire hpc => exact hstage hpc (Or.inl rfl)
    | exitted hpc | free hpc | noFork hpc | fork hpc | noTimer hpc | register hpc | cancel hpc =>
      exact hstage hpc (Or.inr rfl)
  | timers h | caller h => exact hsame (by cases h <;> rfl)
  | _ => exact hscan

/-- An entry is freed by `avbox_process_wait` after its exit. -/
theorem waited_exitted (hwaits : ∀ t, WaitOk s (s.callers t))
    (hwake : ∀ id ∈ wakes s e, ∀ p ∈ s.procs id, p.exitted = true) (h : Steps s e out s')
    {id : Nat} {st : Int} {p : Proc} (hout : out = .waited id st) (hp : s.procs id = some p) :
    p.exitted = true := by
  subst hout
  cases h with
  | monitor h | timers h => cases h
  | @caller t _ _ _ h =>
    cases h with
    | free _ hq he =>
      rw [hp] at hq
      cases hq
      rcases he with ⟨-, -, hex⟩ | ⟨rfl, hpc⟩
      · exact hex
      · exact hwake id (by simp [wakes, hpc]) p hp
    | cancel hpc =>
      have := hwaits t
      rw [hpc] at this
      exact this.2 p hp

theorem WaitOk.step {pc : CallerPc} (hw : WaitOk s pc) (hc : Coherent s) (h : Steps s e out s') :
    WaitOk s' pc := by
  cases pc with
  | cancelling id timer =>
    refine ⟨Nat.lt_of_lt_of_le hw.1 (nextId_le h), fun p' hp' => ?_⟩
    obtain ⟨p, hp, -, hex⟩ := step_kept hc h hw.1 hp'
    exact hex (hw.2 p hp)
  | _ => trivial

theorem step_waits (hc : Coherent s) (hwaits : ∀ t, WaitOk s (s.callers t))
    (hwake : ∀ id ∈ wakes s e, ∀ p ∈ s.procs id, p.exitted = true) (h : Steps s e out s') (t : τ) :
    WaitOk s' (s'.callers t) := by
  have hsame : s'.callers t = s.callers t → WaitOk s' (s'.callers t) := by
    intro heq
    rw [heq]
    exact (hwaits t).step hc h
  cases h with
  | monitor h | timers h => exact hsame (by cases h <;> rfl)
  | @caller u e' _ _ h =>
    by_cases hu : t = u
    · subst hu
      have hself : ∀ {pc}, s'.callers = Function.update s.callers t pc → WaitOk s' pc →
          WaitOk s' (s'.callers t) := by
        intro pc heq hpc
        rw [heq, Function.update_self]
        exact hpc
      cases h with
      | @toCancel _ id timer p hfree hp he htimer =>
        refine hself rfl ⟨hc.below hp, fun q hq => ?_⟩
        obtain rfl : p = q := Option.some.inj (hp.symm.trans hq)
        rcases he with ⟨-, -, hex⟩ | ⟨rfl, hpc⟩
        · exact hex
        · exact hwake id (by simp [wakes, hpc]) p hp
      | noStart | start | noWait | noStop => exact hsame rfl
      | _ => exact hself rfl trivial
    · refine hsame ?_
      cases h <;> first | rfl | exact Function.update_of_ne hu _ _
  | _ => exact hsame rfl

theorem Move.claims_forked {id pid : Nat} {v v' : View} (h : Move id v (.forked id (some pid)) v') :
    v'.Claims pid := by
  cases h with
  | same hout => exact absurd rfl hout
  | start | fork => exact ⟨_, rfl, Or.inl rfl⟩
  | call hp => exact ⟨_, hp, Or.inr rfl⟩
  | timer _ hout => cases hout

/-- What is looked for now was looked for before, or was just reaped. -/
theorem pending_old (h : Steps s e out s') {pid id : Nat} (hpend : s'.pending pid id) :
    s.pending pid id ∨ ∃ owner, out = .reaped pid owner := by
  obtain ⟨htarget, hun⟩ := hpend
  have hsame : s'.monitor = s.monitor → s.pending pid id := by
    intro heq
    rw [heq] at htarget hun
    exact ⟨htarget, hun⟩
  cases h with
  | monitor h =>
    have hscan : ∀ {target todo todo' stage stage'}, s.monitor = .scan target todo stage →
        s'.monitor = .scan target todo' stage' → todo' ⊆ todo → s.pending pid id := by
      intro target todo todo' stage stage' hpc hpc' hsub
      rw [hpc'] at htarget hun
      unfold State.pending
      rw [hpc]
      exact ⟨htarget, hsub hun⟩
    cases h with
    | none | exit | unlock => cases htarget
    | reap =>
      cases htarget
      exact Or.inr ⟨_, rfl⟩
    | lock hpc =>
      left
      unfold State.pending
      rw [hpc]
      exact ⟨htarget, trivial⟩
    | found hpc | collect hpc | skip hpc => exact Or.inl (hscan hpc rfl (List.subset_cons_self _ _))
    | restart hpc | exitted hpc | toCancel hpc | free hpc | noFork hpc | fork hpc | noTimer hpc
    | acquire hpc | register hpc | cancel hpc => exact Or.inl (hscan hpc rfl (List.Subset.refl _))
  | timers h | caller h => exact Or.inl (hsame (by cases h <;> rfl))
  | _ => exact Or.inl (hsame rfl)

theorem reaped_gone {pid id : Nat} {owner : Option Nat} (h : Steps s e (.reaped pid owner) s') :
    ¬ s'.isChild pid id := by
  rintro ⟨st, hst⟩
  cases h with
  | monitor h =>
    cases h with
    | reap => simp at hst
  | timers h | caller h => cases h

theorem found_pending {id pid : Nat} (h : Steps s e (.found id pid) s') : s.pending pid id := by
  cases h with
  | monitor h =>
    cases h with
    | found hpc =>
      unfold State.pending
      rw [hpc]
      exact ⟨rfl, List.mem_cons_self⟩
  | timers h | caller h => cases h

/-- No fork returns a pid that is looked for, except for an entry that was visited. -/
theorem forked_apart (hr : Reaps s) (hok : Caught s e) {id pid : Nat}
    (h : Steps s e (.forked id (some pid)) s') : ¬ s'.pending pid id := by
  rintro ⟨htarget, hun⟩
  cases h with
  | monitor h =>
    cases h with
    | fork hpc =>
      have hscan := hr.scan
      rw [hpc] at hscan
      exact hscan.2 id rfl hun
  | timers h =>
    cases h with
    | fork => exact hok.2.1 pid rfl htarget
  | caller h =>
    cases h with
    | start => exact hok.2.1 pid rfl htarget

omit [DecidableEq τ] in
theorem init_reaps : Reaps (init : State τ) := by
  refine ⟨init_tracked, fun _ => trivial, trivial, ?_, ?_⟩
  · rintro pid id ⟨st, hst⟩
    cases hst
  · rintro pid id ⟨st, hst⟩
    cases hst

theorem step_reaps (hr : Reaps s) (hok : Caught s e) (h : Steps s e out s') : Reaps s' := by
  have hc := hr.tracked.coherent
  refine ⟨step_tracked hr.tracked hok.1 h, step_waits hc hr.waits hok.2.2 h,
    step_ordered hc hr.scan h, ?_, ?_⟩
  · intro pid id hchild
    rcases child_old h hchild with hold | rfl
    · refine ((step_move hc h id).claims_keep (hr.tracked.sound id) (hr.owners pid id hold) ?_
        fun st p hout hp => waited_exitted hr.waits hok.2.2 h hout hp).resolve_right ?_
      · rintro q rfl
        exact hok.1.found h
      · rintro rfl
        exact hr.apart pid id hold (found_pending h)
    · exact (step_move hc h id).claims_forked
  · intro pid id hchild hpend
    rcases child_old h hchild with hold | rfl
    · rcases pending_old h hpend with hpend | ⟨owner, rfl⟩
      · exact hr.apart pid id hold hpend
      · exact reaped_gone h hchild
    · exact forked_apart hr hok h hpend

/-- A child that was reaped, and whose entry the scan has still to find. -/
def Owed (s : State τ) (pid id : Nat) : Prop := s.pending pid id ∧ (s.view id).Claims pid

/-- The scan finds the entry, or is still to come to it. -/
theorem Owed.step (hr : Reaps s) (hok : Caught s e) (h : Steps s e out s') {pid id : Nat}
    (ho : Owed s pid id) : out = .found id pid ∨ Owed s' pid id := by
  have hc := hr.tracked.coherent
  obtain ⟨hpend, hclaims⟩ := ho
  have hlive : s.procs id ≠ none := by
    obtain ⟨p, hp, -⟩ := hclaims
    rw [show s.procs id = some p from hp]
    exact nofun
  have hguard : ∀ q, out = .found id q → (s.view id).restart.pid ≠ some q := by
    rintro q rfl
    exact hok.1.found h
  rcases pending_keep hc h hlive hpend with hpend' | hvisit
  · have hkeep := (step_move hc h id).claims_keep (hr.tracked.sound id) hclaims hguard
      fun st p hout hp => waited_exitted hr.waits hok.2.2 h hout hp
    exact hkeep.symm.imp_right fun hcl => ⟨hpend', hcl⟩
  · exact Or.inl (visit_finds hok.1 h hvisit hclaims).1

theorem reaped_owed (hr : Reaps s) (hok : Caught s e) {pid id : Nat}
    (h : Steps s e (.reaped pid (some id)) s') : Owed s' pid id := by
  have hc := hr.tracked.coherent
  have hchild : s.isChild pid id ∧ s'.pending pid id := by
    cases h with
    | monitor h =>
      cases h with
      | reap hpc hold => exact ⟨⟨_, hold⟩, rfl, trivial⟩
    | timers h | caller h => cases h
  refine ⟨hchild.2, ?_⟩
  have hkeep := (step_move hc h id).claims_keep (hr.tracked.sound id) (hr.owners pid id hchild.1)
    (fun q hout => by cases hout) (fun st p hout => by cases hout)
  rcases hkeep with hclaims | hout
  · exact hclaims
  · cases hout

/-- The histories: every child that was reaped in this pass is found or owed. -/
def Settles (tr : List (Event τ × Outcome)) (s : State τ) : Prop :=
  ∀ tr₁ tr₂ e pid id, tr = tr₁ ++ (e, .reaped pid (some id)) :: tr₂ →
    (∀ a ∈ tr₂, a.1 ≠ .monitor .unlock) → (∃ a ∈ tr₂, a.2 = .found id pid) ∨ Owed s pid id

theorem step_settles {tr : List (Event τ × Outcome)} (hr : Reaps s) (hs : Settles tr s)
    (hok : Caught s e) (h : Steps s e out s') : Settles (tr ++ [(e, out)]) s' := by
  intro tr₁ tr₂ e' pid id htr hpass
  rcases List.eq_nil_or_concat tr₂ with rfl | ⟨tr₃, a, rfl⟩
  · obtain ⟨-, hlast⟩ := List.append_inj' htr rfl
    cases hlast
    exact Or.inr (reaped_owed hr hok h)
  · rw [List.concat_eq_append, ← List.cons_append, ← List.append_assoc] at htr
    obtain ⟨hpast, hlast⟩ := List.append_inj' htr rfl
    cases hlast
    have hmem : ∀ b ∈ tr₃, b ∈ tr₃.concat (e, out) := by
      intro b hb
      simp [hb]
    rcases hs tr₁ tr₃ e' pid id hpast fun b hb => hpass b (hmem b hb) with ⟨b, hb, hfound⟩ | howed
    · exact Or.inl ⟨b, hmem b hb, hfound⟩
    · exact (howed.step hr hok h).imp_left fun hout => ⟨(e, out), by simp, hout⟩

/-- **No exit is lost**: in every run whose steps meet the condition, after `waitpid` has reaped a
    child that was forked for an entry, the scan that follows finds its pid in that entry. -/
theorem exit_found {tr₁ tr₂ : List (Event τ × Outcome)} {s : State τ} {e : Event τ} {pid id : Nat}
    {out : Outcome}
    (h : Run (Guarded step Caught) init
      (tr₁ ++ (e, .reaped pid (some id)) :: tr₂ ++ [(.monitor .unlock, out)]) s)
    (hpass : ∀ a ∈ tr₂, a.1 ≠ .monitor .unlock) : ∃ a ∈ tr₂, a.2 = .found id pid := by
  obtain ⟨t, hrun, hlast⟩ := h.last
  have hinv : Reaps t ∧ Settles (tr₁ ++ (e, .reaped pid (some id)) :: tr₂) t := by
    refine hrun.history (P := fun tr s => Reaps s ∧ Settles tr s) ⟨init_reaps, ?_⟩ ?_
    · intro tr₁ tr₂ e pid id htr
      exact absurd (congrArg List.length htr) (by simp)
    · rintro tr t a u ⟨hr, hs⟩ ⟨hok, hstep⟩
      have hsteps := step_cases hstep
      exact ⟨step_reaps hr hok hsteps, step_settles hr hs hok hsteps⟩
  rcases hinv.2 tr₁ tr₂ e pid id rfl hpass with hfound | ⟨⟨-, hun⟩, -⟩
  · exact hfound
  · -- the list is unlocked when every entry was visited
    cases step_cases hlast.2 with
    | monitor h =>
      cases h with
      | unlock hpc =>
        rw [hpc] at hun
        exact (List.not_mem_nil hun).elim

/-- A process that exits at once is found and removed. -/
theorem exit_found_start :
    ∃ tr₁ tr₂ e out s, Run (Guarded step Caught) (init : State Unit)
        (tr₁ ++ (e, .reaped 100 (some 1)) :: tr₂ ++ [(.monitor .unlock, out)]) s ∧
      s.list = [] ∧ ∃ a ∈ tr₂, a.2 = .found 1 100 := by
  obtain ⟨tr, s, hrun, hlist, htr, hpass⟩ := exists_run_of_guarded_exec step Caught
    (init : State Unit)
    (fun tr s => s.list = [] ∧
      tr = tr.take 2 ++ (.monitor (.waitpid (some 100)), .reaped 100 (some 1)) ::
        (tr.drop 3).take 3 ++ [(.monitor .unlock, .done)] ∧
      ∀ a ∈ (tr.drop 3).take 3, a.1 ≠ .monitor .unlock)
    [.caller () (.start ⟨false, false, false, false⟩ 0 false (some 100)), .die 100 0,
      .monitor (.waitpid (some 100)), .monitor .lock, .monitor (.visit false), .monitor .decide,
      .monitor .unlock] (by decide +kernel)
  rw [htr] at hrun
  exact ⟨_, _, _, _, s, hrun, hlist, exit_found hrun hpass⟩

/-- **A restart whose child dies at once**: the timers thread has forked and not stored the pid when
    the monitor reaps the child and scans the list.  The pid it then stores belongs to no process.
    -/
theorem exit_lost :
    ∃ tr₁ tr₂ tr₃ e out s p, Run (Step step) (init : State Unit)
        (tr₁ ++ (e, .reaped 101 (some 1)) :: tr₂ ++ (.monitor .unlock, out) :: tr₃) s ∧
      (∀ a ∈ tr₂, a.1 ≠ .monitor .unlock) ∧ (¬ ∃ a ∈ tr₂, a.2 = .found 1 101) ∧
      s.procs 1 = some p ∧ p.pid = some 101 ∧ ¬ s.isChild 101 1 := by
  have hrun : Run (Step step) (init : State Unit) _ _ := run_of_exec
    [.caller () (.start ⟨false, false, false, true⟩ 5 false (some 100)), .die 100 256,
      .monitor (.waitpid (some 100)), .monitor .lock, .monitor (.visit false), .monitor .decide,
      .monitor (.acquire true), .monitor .register, .monitor .unlock,
      .timers (.wake [1]), .timers (.call (some 101)), .die 101 256,
      .monitor (.waitpid (some 101)), .monitor .lock, .monitor (.visit false), .monitor .unlock,
      .timers .store] rfl
  refine ⟨[(_, _), (_, _), (_, _), (_, _), (_, _), (_, _), (_, _), (_, _), (_, _), (_, _), (_, _),
    (_, _)], [(_, _), (_, _)], [(_, _)], _, _, _, _, hrun, by simp, by simp, rfl, rfl, ?_⟩
  rintro ⟨st, hst⟩
  cases hst

end Mediabox.Process
