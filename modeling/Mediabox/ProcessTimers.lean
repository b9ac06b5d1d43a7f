import Mathlib.Data.Fintype.Basic
import Mediabox.ProcessReap

/-!
# No timer outlives its process

`avbox_process_free` cancels the one force kill timer that the entry remembers.  The restart timer
is not remembered at all, and is never cancelled.

* `Dangling` — a registered timer, or the restart callback that is under way, has an entry that was
  freed.
* `View.Pointed` — a freed entry has no restart timer: while there is one the entry is in no phase
  in which it is freed.
* `Kills` — a force kill timer is remembered by its entry, or a call of `avbox_process_stop` is
  about to store it there.
* `Watched` — the condition on the steps; `never_dangling` is the result, and `second_stop_dangles`
  a run with two calls of `avbox_process_stop`.
-/

set_option autoImplicit false

namespace Mediabox.Process

open Transition

variable {τ : Type*} [DecidableEq τ]

/-- The entry that the data of a timer points into. -/
def TimerCallback.entry : TimerCallback → Nat
  | .autorestart id => id
  | .forceKill id => id

/-- A timer is registered for an entry that was freed, or its restart callback runs.  The timer of a
    callback that runs is still registered. -/
def Dangling (s : State τ) : Prop :=
  (∃ t ∈ s.timers, s.procs t.callback.entry = none) ∨
    ∃ id, s.timersPc.entry = some id ∧ s.procs id = none

/-! ## The condition -/

/-- `avbox_process_stop` is about to register or to store the force kill timer of this entry. -/
def CallerPc.arms (id : Nat) : CallerPc → Bool
  | .registering i => i = id
  | .storing i _ => i = id
  | _ => false

/-- The entry for which `avbox_process_stop` sends SIGTERM, with its structure. -/
def terminates (s : State τ) : Event τ → Option (Nat × Proc)
  | .caller t (.kill true _) =>
    match s.callers t with
    | .killing id _ => (s.procs id).bind fun p => if p.flags.sigkill then none else some (id, p)
    | _ => none
  | _ => none

/-- The entry that a step frees or is going to free. -/
def frees (s : State τ) : Event τ → Option Nat
  | .monitor .decide =>
    match s.monitor with
    | .scan _ _ (.deciding id cbresult) =>
      if (s.procs id).any fun p => !restarts p cbresult && !p.flags.wait then some id else none
    | _ => none
  | .caller _ (.wait id) => if (s.procs id).any (·.exitted) then some id else none
  | .caller t .wakeup => match s.callers t with | .waiting id => some id | _ => none
  | _ => none

/-- The condition under which no timer outlives its process: a stop that registers a timer finds
    none that is remembered or on its way; no entry is freed while its timer is on its way; the scan
    is timely; and `pthread_cond_wait` returns only after the exit. -/
def Watched (s : State τ) (e : Event τ) : Prop :=
  (∀ x ∈ terminates s e, x.2.forceKillTimer = none ∧ ∀ u, (s.callers u).arms x.1 = false) ∧
    (∀ id ∈ frees s e, ∀ u, (s.callers u).arms id = false) ∧ Timely s e ∧
    ∀ id ∈ wakes s e, ∀ p ∈ s.procs id, p.exitted = true

instance [Fintype τ] (s : State τ) (e : Event τ) : Decidable (Watched s e) :=
  inferInstanceAs (Decidable (_ ∧ _ ∧ _ ∧ _))

/-! ## Restart timers -/

/-- A freed entry left nothing behind. -/
def View.Pointed (v : View) : Prop := v.proc = none → v = .blank

variable {s s' : State τ} {e : Event τ} {out : Outcome}

/-- Nothing is left of an entry that is handled or exitted when its structure is gone. -/
theorem View.SoundFor.gone {v : View} {p : Proc} (h : v.SoundFor p)
    (hv : v.stage.busy = true ∨ p.exitted = true) : v.timers = 0 ∧ v.restart = .none ∧
      (p.exitted = true → v.stage = .next) := by
  have honce := h.once
  have hrestart : v.restart = .none :=
    (h.other (hv.imp_right fun hex => Or.inr (Or.inl hex))).2
  simp only [View.phases] at honce
  refine ⟨?_, hrestart, fun hex => ?_⟩
  · rcases hv with hv | hv <;> simp only [hv, Bool.toNat_true] at honce <;> omega
  · simp only [hex, Bool.toNat_true] at honce
    cases hs : v.stage with
    | next => rfl
    | _ =>
      simp only [hs, Stage.busy, Bool.toNat_true] at honce
      omega

/-- An entry is freed only when it has no restart timer. -/
theorem Move.pointed {id : Nat} {v v' : View} (h : Move id v out v') (hs : v.Sound)
    (hv : v.Pointed)
    (hexit : ∀ st, out = .waited id st → ∀ p, v.proc = some p → p.exitted = true) :
    v'.Pointed := by
  intro hnone
  -- a stage of the scan belongs to an entry that is there
  have hstage : v.stage ≠ .next → ∃ p, v.proc = some p := by
    intro hne
    cases hp : v.proc with
    | none => exact absurd (congrArg View.stage (hv hp)) hne
    | some p => exact ⟨p, rfl⟩
  have hthere : v.stage ≠ .next → v.proc = none → v' = .blank := by
    intro hne hp
    obtain ⟨p, hp'⟩ := hstage hne
    rw [hp] at hp'
    cases hp'
  cases h with
  | same | noStart => exact hv hnone
  | free hfree =>
    have hbusy : v.stage.busy = true := by
      rcases hfree with ⟨_, h⟩ | ⟨_, h⟩ <;> rw [h] <;> rfl
    obtain ⟨p, hp⟩ := hstage (by rintro h; rw [h] at hbusy; cases hbusy)
    obtain ⟨htimers, hrestart, -⟩ := (hs p hp).gone (Or.inl hbusy)
    rw [htimers, hrestart]
    rfl
  | @waited p hp =>
    have hex := hexit _ rfl p hp
    obtain ⟨htimers, hrestart, hnext⟩ := (hs p hp).gone (Or.inr hex)
    rw [htimers, hrestart, hnext hex]
    rfl
  | toCancel h | noTimer h | acquire h | register h => exact hthere (by rw [h]; nofun) hnone
  | restart hp | call hp | load hp =>
    rw [hp] at hnone
    cases hnone
  | _ => cases hnone

/-! ## Who holds the list -/

/-- The scan and a caller that cancels a timer have the list locked. -/
structure Held (s : State τ) : Prop where
  scan : ∀ target todo stage, s.monitor = .scan target todo stage → s.listLock = some .monitor
  cancels : ∀ u id timer, s.callers u = .cancelling id timer → s.listLock = some (.caller u)

omit [DecidableEq τ] in
theorem init_held : Held (init : State τ) :=
  ⟨fun _ _ _ h => (nomatch h), fun _ _ _ h => (nomatch h)⟩

omit [DecidableEq τ] in
/-- The lock and what the threads do under it stay. -/
theorem Held.keep (h : Held s) (hlock : s'.listLock = s.listLock)
    (hscan : ∀ target todo stage, s'.monitor = .scan target todo stage →
      ∃ target todo stage, s.monitor = .scan target todo stage)
    (hcancels : ∀ u id timer, s'.callers u = .cancelling id timer →
      s.callers u = .cancelling id timer) : Held s' := by
  constructor
  · intro target todo stage hpc
    obtain ⟨target', todo', stage', hpc'⟩ := hscan target todo stage hpc
    rw [hlock]
    exact h.scan target' todo' stage' hpc'
  · intro u id timer hpc
    rw [hlock]
    exact h.cancels u id timer (hcancels u id timer hpc)

theorem step_held (hh : Held s) (h : Steps s e out s') : Held s' := by
  cases h with
  | monitor h =>
    cases h with
    | lock hpc hfree =>
      refine ⟨fun _ _ _ _ => rfl, fun u id timer hu => ?_⟩
      have := hh.cancels u id timer hu
      rw [hfree] at this
      cases this
    | unlock hpc =>
      refine ⟨fun _ _ _ h => (nomatch h), fun u id timer hu => ?_⟩
      have := hh.cancels u id timer hu
      rw [hh.scan _ _ _ hpc] at this
      cases this
    | none | reap | exit =>
      exact hh.keep rfl (fun _ _ _ h => (nomatch h)) fun _ _ _ h => h
    | found hpc | collect hpc | skip hpc | restart hpc | exitted hpc | toCancel hpc | free hpc
    | noFork hpc | fork hpc | noTimer hpc | acquire hpc | register hpc | cancel hpc =>
      exact hh.keep rfl (fun _ _ _ _ => ⟨_, _, _, hpc⟩) fun _ _ _ h => h
  | timers h => cases h <;> exact hh.keep rfl (fun _ _ _ h => ⟨_, _, _, h⟩) fun _ _ _ h => h
  | @caller t e _ _ h =>
    -- the caller goes on to something else than cancelling a timer
    have hset : ∀ pc, s'.callers = Function.update s.callers t pc →
        (∀ id timer, pc ≠ .cancelling id timer) → s'.listLock = s.listLock →
        s'.monitor = s.monitor → Held s' := by
      intro pc hcallers hpc hlock hmonitor
      refine hh.keep hlock (fun _ _ _ h => ⟨_, _, _, hmonitor ▸ h⟩) fun u id timer hu => ?_
      rw [hcallers] at hu
      by_cases hut : u = t
      · rw [hut, Function.update_self] at hu
        exact absurd hu (hpc id timer)
      · rwa [Function.update_of_ne hut] at hu
    cases h with
    | toCancel hfree =>
      refine ⟨fun target todo stage hpc => ?_, fun u id timer hu => ?_⟩
      · have := hh.scan target todo stage hpc
        rw [hfree] at this
        cases this
      · by_cases hut : u = t
        · rw [hut]
          rfl
        · have hu' := hh.cancels u id timer ((Function.update_of_ne hut _ _).symm.trans hu)
          rw [hfree] at hu'
          cases hu'
    | cancel hpc =>
      have hlock := hh.cancels t _ _ hpc
      refine ⟨fun target todo stage hscan => ?_, fun u id timer hu => ?_⟩
      · have := hh.scan target todo stage hscan
        rw [hlock] at this
        cases this
      · by_cases hut : u = t
        · rw [hut] at hu
          exact nomatch (Function.update_self _ _ _).symm.trans hu
        · have hu' := hh.cancels u id timer ((Function.update_of_ne hut _ _).symm.trans hu)
          rw [hlock] at hu'
          cases hu'
          exact absurd rfl hut
    | noStart | start | noWait | noStop =>
      exact hh.keep rfl (fun _ _ _ h => ⟨_, _, _, h⟩) fun _ _ _ h => h
    | wait | free | stop | readNone | read | mark | noKill | sigkill | sigterm | noTimer | register
    | store => exact hset _ rfl nofun rfl rfl
  | _ => exact hh.keep rfl (fun _ _ _ h => ⟨_, _, _, h⟩) fun _ _ _ h => h

/-! ## Force kill timers -/

/-- Where the force kill timers are known. -/
structure Kills (s : State τ) : Prop where
  nodup : (s.timers.map Timer.id).Nodup
  known : ∀ t ∈ s.timers, ∀ id, t.callback = .forceKill id → ∃ p, s.procs id = some p ∧
    (p.forceKillTimer = some t.id ∨ ∃ u, s.callers u = .storing id t.id)
  arms : ∀ u id, (s.callers u).arms id = true → ∃ p, s.procs id = some p ∧ p.forceKillTimer = none
  alone : ∀ u v id, (s.callers u).arms id = true → (s.callers v).arms id = true → u = v
  scan : ∀ id timer, s.monitor.stage = .cancelling id timer →
    ∃ p, s.procs id = some p ∧ p.forceKillTimer = some timer
  cancels : ∀ u id timer, s.callers u = .cancelling id timer →
    ∃ p, s.procs id = some p ∧ p.forceKillTimer = some timer

section

omit [DecidableEq τ]

theorem init_kills : Kills (init : State τ) := by
  constructor
  · exact List.nodup_nil
  · intro t ht
    cases ht
  · intro u id h
    cases h
  · intro u v id h
    cases h
  · intro id timer h
    cases h
  · intro u id timer h
    cases h

/-- No entry is freed, and no force kill timer is registered or stored. -/
theorem Kills.keep (h : Kills s) (hnodup : (s'.timers.map Timer.id).Nodup)
    (hprocs : ∀ id p, s.procs id = some p →
      ∃ p', s'.procs id = some p' ∧ p'.forceKillTimer = p.forceKillTimer)
    (htimers : ∀ t ∈ s'.timers, ∀ id, t.callback = .forceKill id → t ∈ s.timers)
    (harms : ∀ u id, (s'.callers u).arms id = true → (s.callers u).arms id = true)
    (hstoring : ∀ u id timer, s.callers u = .storing id timer → s'.callers u = .storing id timer)
    (hstage : ∀ id timer, s'.monitor.stage = .cancelling id timer →
      ∃ p, s.procs id = some p ∧ p.forceKillTimer = some timer)
    (hcancels : ∀ u id timer, s'.callers u = .cancelling id timer →
      ∃ p, s.procs id = some p ∧ p.forceKillTimer = some timer) : Kills s' := by
  have hsome : ∀ {id : Nat} {timer : Option Nat},
      (∃ p, s.procs id = some p ∧ p.forceKillTimer = timer) →
      ∃ p, s'.procs id = some p ∧ p.forceKillTimer = timer := by
    rintro id timer ⟨p, hp, hk⟩
    obtain ⟨p', hp', hsame⟩ := hprocs id p hp
    exact ⟨p', hp', hsame.trans hk⟩
  constructor
  · exact hnodup
  · intro t ht id hcall
    obtain ⟨p, hp, hknown⟩ := h.known t (htimers t ht id hcall) id hcall
    obtain ⟨p', hp', hsame⟩ := hprocs id p hp
    refine ⟨p', hp', hknown.imp (fun hk => hsame.trans hk) ?_⟩
    rintro ⟨u, hu⟩
    exact ⟨u, hstoring u id t.id hu⟩
  · intro u id hu
    exact hsome (h.arms u id (harms u id hu))
  · intro u v id hu hv
    exact h.alone u v id (harms u id hu) (harms v id hv)
  · intro id timer hs
    exact hsome (hstage id timer hs)
  · intro u id timer hu
    exact hsome (hcancels u id timer hu)

theorem Kills.keep_callers (h : Kills s) (hnodup : (s'.timers.map Timer.id).Nodup)
    (hprocs : ∀ id p, s.procs id = some p →
      ∃ p', s'.procs id = some p' ∧ p'.forceKillTimer = p.forceKillTimer)
    (htimers : ∀ t ∈ s'.timers, ∀ id, t.callback = .forceKill id → t ∈ s.timers)
    (hcallers : s'.callers = s.callers)
    (hstage : ∀ id timer, s'.monitor.stage = .cancelling id timer →
      ∃ p, s.procs id = some p ∧ p.forceKillTimer = some timer) : Kills s' := by
  refine h.keep hnodup hprocs htimers ?_ ?_ hstage ?_
  · intro u id hu
    rwa [hcallers] at hu
  · intro u id timer hu
    rw [hcallers]
    exact hu
  · intro u id timer hu
    rw [hcallers] at hu
    exact h.cancels u id timer hu

theorem procs_same (id : Nat) (p : Proc) (hp : s.procs id = some p) :
    ∃ p', s.procs id = some p' ∧ p'.forceKillTimer = p.forceKillTimer := ⟨p, hp, rfl⟩

theorem procs_update {i : Nat} {p q : Proc} (hp : s.procs i = some p)
    (hq : q.forceKillTimer = p.forceKillTimer) (id : Nat) (r : Proc) (hr : s.procs id = some r) :
    ∃ r', Function.update s.procs i (some q) id = some r' ∧
      r'.forceKillTimer = r.forceKillTimer := by
  by_cases hid : id = i
  · subst hid
    rw [hp] at hr
    cases hr
    exact ⟨q, Function.update_self _ _ _, hq⟩
  · exact ⟨r, (Function.update_of_ne hid _ _).trans hr, rfl⟩

theorem nodup_dropTimer (h : (s.timers.map Timer.id).Nodup) (timer : Nat) :
    ((s.dropTimer timer).timers.map Timer.id).Nodup :=
  h.sublist (List.Sublist.map Timer.id (List.eraseP_sublist))

end

theorem mem_eraseP {l : List Timer} {timer : Nat} {t : Timer} (h : (l.map Timer.id).Nodup)
    (ht : t ∈ l.eraseP fun t => t.id = timer) : t.id ≠ timer := by
  induction l with
  | nil => cases ht
  | cons a l ih =>
    obtain ⟨ha, hl⟩ := List.nodup_cons.mp h
    by_cases hid : a.id = timer
    · rw [List.eraseP_cons_of_pos (by simpa using hid)] at ht
      rintro rfl
      exact ha (hid ▸ List.mem_map_of_mem ht)
    · rw [List.eraseP_cons_of_neg (by simpa using hid)] at ht
      rcases List.mem_cons.mp ht with rfl | ht
      · exact hid
      · exact ih hl ht

section

omit [DecidableEq τ]

theorem nodup_addTimer (hids : TimerIds s) (h : (s.timers.map Timer.id).Nodup)
    (callback : TimerCallback) : ((s.addTimer callback).timers.map Timer.id).Nodup := by
  refine List.nodup_cons.mpr ⟨fun hmem => ?_, h⟩
  obtain ⟨t, ht, hid⟩ := List.mem_map.mp hmem
  exact absurd hid (Nat.ne_of_lt (hids.below t ht))

/-- An entry is freed when no force kill timer is registered for it and none is on its way. -/
theorem Kills.freed {i : Nat} (h : Kills s) (hnodup : (s'.timers.map Timer.id).Nodup)
    (hprocs : s'.procs = Function.update s.procs i none)
    (htimers : ∀ t ∈ s'.timers, t ∈ s.timers ∧ t.callback ≠ .forceKill i)
    (harms : ∀ u, (s.callers u).arms i = false)
    (hcallers : ∀ u, s'.callers u = s.callers u ∨ s'.callers u = .idle ∧
      ∀ id, (s.callers u).arms id = false)
    (hstage : ∀ id timer, s'.monitor.stage ≠ .cancelling id timer)
    (hcancels : ∀ u id timer, s'.callers u ≠ .cancelling id timer) : Kills s' := by
  have hother : ∀ id p, id ≠ i → s.procs id = some p → s'.procs id = some p := by
    intro id p hne hp
    rw [hprocs, Function.update_of_ne hne]
    exact hp
  have harms' : ∀ u id, (s'.callers u).arms id = true → (s.callers u).arms id = true ∧ id ≠ i := by
    intro u id hu
    rcases hcallers u with heq | ⟨hidle, -⟩
    · rw [heq] at hu
      refine ⟨hu, ?_⟩
      rintro rfl
      rw [harms u] at hu
      cases hu
    · rw [hidle] at hu
      cases hu
  constructor
  · exact hnodup
  · intro t ht id hcall
    obtain ⟨hold, hne⟩ := htimers t ht
    obtain ⟨p, hp, hknown⟩ := h.known t hold id hcall
    have hid : id ≠ i := by
      rintro rfl
      exact hne hcall
    refine ⟨p, hother id p hid hp, hknown.imp_right ?_⟩
    rintro ⟨u, hu⟩
    refine ⟨u, ?_⟩
    rcases hcallers u with heq | ⟨-, hnone⟩
    · exact heq.trans hu
    · have := hnone id
      rw [hu] at this
      simp [CallerPc.arms] at this
  · intro u id hu
    obtain ⟨hold, hid⟩ := harms' u id hu
    obtain ⟨p, hp, hnone⟩ := h.arms u id hold
    exact ⟨p, hother id p hid hp, hnone⟩
  · intro u v id hu hv
    exact h.alone u v id (harms' u id hu).1 (harms' v id hv).1
  · intro id timer hs
    exact absurd hs (hstage id timer)
  · intro u id timer hu
    exact absurd hu (hcancels u id timer)

/-- The timers of an entry without a remembered one, when none is on its way. -/
theorem Kills.none_known {i : Nat} {p : Proc} (h : Kills s) (hp : s.procs i = some p)
    (harms : ∀ u, (s.callers u).arms i = false) {t : Timer} (ht : t ∈ s.timers)
    (hcall : t.callback = .forceKill i) : p.forceKillTimer = some t.id := by
  obtain ⟨q, hq, hknown⟩ := h.known t ht i hcall
  rw [hp] at hq
  cases hq
  refine hknown.resolve_right ?_
  rintro ⟨u, hu⟩
  have := harms u
  rw [hu] at this
  simp [CallerPc.arms] at this

/-- While the entry remembers a timer no other one is on its way. -/
theorem Kills.not_arms {i timer : Nat} {p : Proc} (h : Kills s) (hp : s.procs i = some p)
    (htimer : p.forceKillTimer = some timer) (u : τ) : (s.callers u).arms i = false := by
  rw [← Bool.not_eq_true]
  intro hu
  obtain ⟨q, hq, hnone⟩ := h.arms u i hu
  rw [hp] at hq
  cases hq
  rw [htimer] at hnone
  cases hnone

/-- The scan has the list: no caller cancels a timer. -/
theorem Held.no_cancel (hh : Held s) {target : Target} {todo : List Nat} {stage : Stage}
    (hpc : s.monitor = .scan target todo stage) (u : τ) (id timer : Nat) :
    s.callers u ≠ .cancelling id timer := by
  intro hu
  have := hh.cancels u id timer hu
  rw [hh.scan _ _ _ hpc] at this
  cases this

/-- Without the list the monitor cancels no timer. -/
theorem Held.no_stage (hh : Held s) (hlock : s.listLock ≠ some .monitor) (id timer : Nat) :
    s.monitor.stage ≠ .cancelling id timer := by
  intro hs
  cases hpc : s.monitor with
  | scan target todo stage => exact hlock (hh.scan target todo stage hpc)
  | _ =>
    rw [hpc] at hs
    cases hs

theorem monitor_kills {e : MonitorEvent} (hids : TimerIds s) (hh : Held s) (hk : Kills s)
    (hok : Watched s (.monitor e)) (h : MonitorStep s e out s') : Kills s' := by
  -- the steps that end before or after the handling of an entry, or inside it
  have hplain : ∀ {i : Nat} {p q : Proc}, s.procs i = some p →
      s'.procs = Function.update s.procs i (some q) → q.forceKillTimer = p.forceKillTimer →
      s'.timers = s.timers → s'.callers = s.callers →
      (∀ id timer, s'.monitor.stage ≠ .cancelling id timer) → Kills s' := by
    intro i p q hp hprocs hq htimers hcallers hstage
    refine hk.keep_callers (by rw [htimers]; exact hk.nodup) ?_ ?_ hcallers ?_
    · intro id r hr
      rw [hprocs]
      exact procs_update hp hq id r hr
    · intro t ht id _
      rwa [htimers] at ht
    · intro id timer hs
      exact absurd hs (hstage id timer)
  have hsame : s'.procs = s.procs → s'.timers = s.timers → s'.callers = s.callers →
      (∀ id timer, s'.monitor.stage = .cancelling id timer →
        ∃ p, s.procs id = some p ∧ p.forceKillTimer = some timer) → Kills s' := by
    intro hprocs htimers hcallers hstage
    refine hk.keep_callers (by rw [htimers]; exact hk.nodup) ?_ ?_ hcallers hstage
    · intro id p hp
      rw [hprocs]
      exact procs_same id p hp
    · intro t ht id _
      rwa [htimers] at ht
  cases h with
  | none | reap | exit | lock | unlock | skip | restart | noTimer | acquire =>
    exact hsame rfl rfl rfl nofun
  | toCancel hpc hp hrestart hwait htimer =>
    refine hsame rfl rfl rfl ?_
    rintro id timer ⟨⟩
    exact ⟨_, hp, htimer⟩
  | found hpc hp hpid hstage =>
    refine hplain hp rfl rfl rfl rfl ?_
    rcases hstage with ⟨rfl, -⟩ | ⟨rfl, -⟩ <;> nofun
  | collect hpc hp | exitted hpc hp | noFork hpc hp | fork hpc hp =>
    exact hplain hp rfl rfl rfl rfl nofun
  | register hpc =>
    refine hk.keep_callers (nodup_addTimer hids hk.nodup _) procs_same ?_ rfl nofun
    intro t ht id hcall
    rcases List.mem_cons.mp ht with rfl | ht
    · cases hcall
    · exact ht
  | @free target id todo p cbresult hpc hp hrestart hwait htimer =>
    have harms : ∀ u, (s.callers u).arms id = false :=
      hok.2.1 id (by simp [frees, hpc, hp, hrestart, hwait])
    refine hk.freed hk.nodup rfl (fun t ht => ⟨ht, fun hcall => ?_⟩) harms (fun u => Or.inl rfl)
      nofun (hh.no_cancel hpc)
    have := hk.none_known hp harms ht hcall
    rw [htimer] at this
    cases this
  | @cancel target id timer todo hpc hfree =>
    obtain ⟨p, hp, htimer⟩ := hk.scan id timer (by rw [hpc]; rfl)
    have harms := hk.not_arms hp htimer
    refine hk.freed (nodup_dropTimer hk.nodup timer) rfl (fun t ht => ?_) harms
      (fun u => Or.inl rfl) nofun (hh.no_cancel hpc)
    have hold : t ∈ s.timers := List.mem_of_mem_eraseP ht
    refine ⟨hold, fun hcall => ?_⟩
    have := hk.none_known hp harms hold hcall
    rw [htimer] at this
    exact mem_eraseP hk.nodup ht (Option.some.inj this).symm

theorem timers_kills {e : TimersEvent} (hk : Kills s) (h : TimersStep s e out s') : Kills s' := by
  have hdrop : ∀ {timer : Nat}, ∀ t ∈ (s.dropTimer timer).timers, ∀ id,
      t.callback = .forceKill id → t ∈ s.timers :=
    fun t ht _ _ => List.mem_of_mem_eraseP ht
  cases h with
  | wake | gone | forceKill | kill | load | sleep =>
    exact hk.keep_callers hk.nodup procs_same (fun _ ht _ _ => ht) rfl hk.scan
  | fork | stop => exact hk.keep_callers (nodup_dropTimer hk.nodup _) procs_same hdrop rfl hk.scan
  | noFork hpc ht hcall hp =>
    exact hk.keep_callers (nodup_dropTimer hk.nodup _) (procs_update hp rfl) hdrop rfl hk.scan
  | store hpc hp | restore hpc hp =>
    exact hk.keep_callers hk.nodup (procs_update hp rfl) (fun _ ht _ _ => ht) rfl hk.scan

end

theorem kill_sigkill {t : τ} {id pid : Nat} {acquired : Bool} {p : Proc}
    (hpc : s.callers t = .killing id pid) (hp : s.procs id = some p)
    (hsig : p.flags.sigkill = true)
    (h : stepCaller s t (.kill true acquired) = some (s', out)) : out = .stopped id 0 := by
  simp only [stepCaller, hpc, hp, Option.bind_some, hsig, ↓reduceIte] at h
  cases h
  rfl

theorem Watched.sigterm {t : τ} {id pid : Nat} {acquired : Bool} {p : Proc}
    (hok : Watched s (.caller t (.kill true acquired))) (hpc : s.callers t = .killing id pid)
    (hp : s.procs id = some p)
    (h : stepCaller s t (.kill true acquired) = some (s', out)) (hout : out ≠ .stopped id 0) :
    p.forceKillTimer = none ∧ ∀ u, (s.callers u).arms id = false := by
  refine hok.1 (id, p) ?_
  have hsig : p.flags.sigkill = false := by
    rw [← Bool.not_eq_true]
    intro hsig
    exact hout (kill_sigkill hpc hp hsig h)
  simp [terminates, hpc, hp, hsig]

theorem idle_or_same {t : τ} (ht : ∀ i, (s.callers t).arms i = false) (u : τ) :
    Function.update s.callers t .idle u = s.callers u ∨
      Function.update s.callers t .idle u = .idle ∧ ∀ i, (s.callers u).arms i = false := by
  by_cases hut : u = t
  · subst hut
    exact Or.inr ⟨Function.update_self _ _ _, ht⟩
  · exact Or.inl (Function.update_of_ne hut _ _)

theorem no_cancel_idle {t : τ} (h : ∀ u, u ≠ t → ∀ i timer, s.callers u ≠ .cancelling i timer)
    (u : τ) (i timer : Nat) : Function.update s.callers t .idle u ≠ .cancelling i timer := by
  by_cases hut : u = t
  · rw [hut, Function.update_self]
    nofun
  · rw [Function.update_of_ne hut]
    exact h u hut i timer

theorem Kills.arm {t : τ} {i : Nat} {p : Proc} (hk : Kills s) (hp : s.procs i = some p)
    (hnone : p.forceKillTimer = none) (harms : ∀ u, (s.callers u).arms i = false)
    (ht : ∀ id timer, s.callers t ≠ .storing id timer) :
    Kills (s.setCaller t (.registering i)) := by
  -- the arming callers are those of before, and this one
  have hcases : ∀ u id, ((s.setCaller t (.registering i)).callers u).arms id = true →
      (u = t ∧ id = i) ∨ (u ≠ t ∧ id ≠ i ∧ (s.callers u).arms id = true) := by
    intro u id hu
    by_cases hut : u = t
    · subst hut
      simp only [State.setCaller, Function.update_self, CallerPc.arms, decide_eq_true_eq] at hu
      exact Or.inl ⟨rfl, hu.symm⟩
    · simp only [State.setCaller, Function.update_of_ne hut] at hu
      refine Or.inr ⟨hut, ?_, hu⟩
      rintro rfl
      rw [harms u] at hu
      cases hu
  constructor
  · exact hk.nodup
  · intro t' ht' id hcall
    obtain ⟨q, hq, hknown⟩ := hk.known t' ht' id hcall
    refine ⟨q, hq, hknown.imp_right ?_⟩
    rintro ⟨u, hu⟩
    have hut : u ≠ t := by
      rintro rfl
      exact ht id t'.id hu
    exact ⟨u, (Function.update_of_ne hut _ _).trans hu⟩
  · intro u id hu
    rcases hcases u id hu with ⟨-, rfl⟩ | ⟨-, -, hold⟩
    · exact ⟨p, hp, hnone⟩
    · exact hk.arms u id hold
  · intro u v id hu hv
    rcases hcases u id hu with ⟨rfl, rfl⟩ | ⟨-, hne, hold⟩
    · rcases hcases v id hv with ⟨rfl, -⟩ | ⟨-, hne, -⟩
      · rfl
      · exact absurd rfl hne
    · rcases hcases v id hv with ⟨-, heq⟩ | ⟨-, -, hold'⟩
      · exact absurd heq hne
      · exact hk.alone u v id hold hold'
  · exact hk.scan
  · intro u id timer hu
    by_cases hut : u = t
    · rw [hut] at hu
      cases (Function.update_self _ _ _).symm.trans hu
    · exact hk.cancels u id timer ((Function.update_of_ne hut _ _).symm.trans hu)

theorem Kills.register {t : τ} {i : Nat} (hk : Kills s) (hids : TimerIds s)
    (hpc : s.callers t = .registering i) :
    Kills ((s.setCaller t (.storing i s.nextTimer)).addTimer (.forceKill i)) := by
  have ht : (s.callers t).arms i = true := by simp [hpc, CallerPc.arms]
  have hcases : ∀ u id, (Function.update s.callers t (.storing i s.nextTimer) u).arms id = true →
      (s.callers u).arms id = true := by
    intro u id hu
    by_cases hut : u = t
    · subst hut
      simp only [Function.update_self, CallerPc.arms, decide_eq_true_eq] at hu
      exact hu ▸ ht
    · rwa [Function.update_of_ne hut] at hu
  constructor
  · exact nodup_addTimer hids hk.nodup _
  · intro t' ht' id hcall
    rcases List.mem_cons.mp ht' with rfl | hold
    · cases hcall
      obtain ⟨p, hp, -⟩ := hk.arms t i ht
      exact ⟨p, hp, Or.inr ⟨t, Function.update_self _ _ _⟩⟩
    · obtain ⟨q, hq, hknown⟩ := hk.known t' hold id hcall
      refine ⟨q, hq, hknown.imp_right ?_⟩
      rintro ⟨u, hu⟩
      have hut : u ≠ t := by
        rintro rfl
        rw [hpc] at hu
        cases hu
      exact ⟨u, (Function.update_of_ne hut _ _).trans hu⟩
  · intro u id hu
    exact hk.arms u id (hcases u id hu)
  · intro u v id hu hv
    exact hk.alone u v id (hcases u id hu) (hcases v id hv)
  · exact hk.scan
  · intro u id timer hu
    by_cases hut : u = t
    · rw [hut] at hu
      exact nomatch (Function.update_self _ _ _).symm.trans hu
    · exact hk.cancels u id timer ((Function.update_of_ne hut _ _).symm.trans hu)

theorem Kills.store {t : τ} {i timer : Nat} {p : Proc} (hk : Kills s)
    (hpc : s.callers t = .storing i timer) (hp : s.procs i = some p) :
    Kills ((s.setCaller t .idle).setProc i { p with forceKillTimer := some timer }) := by
  have ht : (s.callers t).arms i = true := by simp [hpc, CallerPc.arms]
  have hnone : p.forceKillTimer = none := by
    obtain ⟨q, hq, hnone⟩ := hk.arms t i ht
    rw [hp] at hq
    cases hq
    exact hnone
  have hcases : ∀ u id, (Function.update s.callers t .idle u).arms id = true →
      u ≠ t ∧ id ≠ i ∧ (s.callers u).arms id = true := by
    intro u id hu
    have hut : u ≠ t := by
      rintro rfl
      rw [Function.update_self] at hu
      cases hu
    rw [Function.update_of_ne hut] at hu
    refine ⟨hut, ?_, hu⟩
    rintro rfl
    exact hut (hk.alone u t id hu ht)
  have hother : ∀ {id : Nat} {q : Proc}, id ≠ i → s.procs id = some q →
      Function.update s.procs i (some { p with forceKillTimer := some timer }) id = some q :=
    fun hid hq => (Function.update_of_ne hid _ _).trans hq
  -- an entry with a timer to cancel remembers one, and this entry does not
  have hremembers : ∀ {id other : Nat},
      (∃ q, s.procs id = some q ∧ q.forceKillTimer = some other) → ∃ q,
        Function.update s.procs i (some { p with forceKillTimer := some timer }) id = some q ∧
          q.forceKillTimer = some other := by
    rintro id other ⟨q, hq, hsome⟩
    have hid : id ≠ i := by
      rintro rfl
      rw [hp] at hq
      cases hq
      rw [hnone] at hsome
      cases hsome
    exact ⟨q, hother hid hq, hsome⟩
  constructor
  · exact hk.nodup
  · intro t' ht' id hcall
    obtain ⟨q, hq, hknown⟩ := hk.known t' ht' id hcall
    by_cases hid : id = i
    · subst hid
      rw [hp] at hq
      cases hq
      rcases hknown with hsome | ⟨u, hu⟩
      · rw [hnone] at hsome
        cases hsome
      · have hut : u = t := hk.alone u t id (by simp [hu, CallerPc.arms]) ht
        rw [hut, hpc] at hu
        cases hu
        exact ⟨_, Function.update_self _ _ _, Or.inl rfl⟩
    · refine ⟨q, hother hid hq, hknown.imp_right ?_⟩
      rintro ⟨u, hu⟩
      have hut : u ≠ t := by
        rintro rfl
        rw [hpc] at hu
        cases hu
        exact hid rfl
      exact ⟨u, (Function.update_of_ne hut _ _).trans hu⟩
  · intro u id hu
    obtain ⟨-, hid, hold⟩ := hcases u id hu
    obtain ⟨q, hq, hn⟩ := hk.arms u id hold
    exact ⟨q, hother hid hq, hn⟩
  · intro u v id hu hv
    exact hk.alone u v id (hcases u id hu).2.2 (hcases v id hv).2.2
  · intro id other hs
    exact hremembers (hk.scan id other hs)
  · intro u id other hu
    have hut : u ≠ t := by
      rintro rfl
      exact nomatch (Function.update_self _ _ _).symm.trans hu
    exact hremembers (hk.cancels u id other ((Function.update_of_ne hut _ _).symm.trans hu))

theorem caller_kills {t : τ} {e : CallerEvent} (hc : Coherent s) (hh : Held s) (hk : Kills s)
    (hok : Watched s (.caller t e)) (hstep : stepCaller s t e = some (s', out)) : Kills s' := by
  -- the caller was not, and is not, at a force kill timer
  have hplain : ∀ {pc : CallerPc}, s'.callers = Function.update s.callers t pc →
      (∀ id, (s.callers t).arms id = false) → (∀ id, pc.arms id = false) →
      (∀ id timer, pc = .cancelling id timer →
        ∃ p, s.procs id = some p ∧ p.forceKillTimer = some timer) → s'.timers = s.timers →
      s'.monitor = s.monitor →
      (∀ id p, s.procs id = some p →
        ∃ p', s'.procs id = some p' ∧ p'.forceKillTimer = p.forceKillTimer) → Kills s' := by
    intro pc hcallers hbefore hafter hcancel htimers hmonitor hprocs
    refine hk.keep (by rw [htimers]; exact hk.nodup) hprocs ?_ ?_ ?_ ?_ ?_
    · intro t' ht id _
      rwa [htimers] at ht
    · intro u id hu
      rw [hcallers] at hu
      by_cases hut : u = t
      · rw [hut, Function.update_self, hafter id] at hu
        cases hu
      · rwa [Function.update_of_ne hut] at hu
    · intro u id timer hu
      have hut : u ≠ t := by
        rintro rfl
        have := hbefore id
        rw [hu] at this
        simp [CallerPc.arms] at this
      rw [hcallers, Function.update_of_ne hut]
      exact hu
    · intro id timer hs
      rw [hmonitor] at hs
      exact hk.scan id timer hs
    · intro u id timer hu
      rw [hcallers] at hu
      by_cases hut : u = t
      · rw [hut, Function.update_self] at hu
        exact hcancel id timer hu
      · rw [Function.update_of_ne hut] at hu
        exact hk.cancels u id timer hu
  cases caller_cases hstep with
  | noStart | noWait | noStop =>
    exact hk.keep_callers hk.nodup procs_same (fun _ ht _ _ => ht) rfl hk.scan
  | start =>
    refine hk.keep_callers hk.nodup (fun id p hp => ⟨p, ?_, rfl⟩) (fun _ ht _ _ => ht) rfl hk.scan
    have hne : id ≠ s.nextId := Nat.ne_of_lt (hc.below hp)
    exact (Function.update_of_ne hne _ _).trans hp
  | wait hpc | stop hpc | readNone hpc | read hpc | noKill hpc | sigkill hpc =>
    exact hplain rfl (by rw [hpc]; exact fun _ => rfl) (fun _ => rfl) nofun rfl rfl procs_same
  | mark hpc hp =>
    exact hplain rfl (by rw [hpc]; exact fun _ => rfl) (fun _ => rfl) nofun rfl rfl
      (procs_update hp rfl)
  | noTimer hpc hp =>
    obtain ⟨hnone, -⟩ := hok.sigterm hpc hp hstep (by simp)
    exact hplain rfl (by rw [hpc]; exact fun _ => rfl) (fun _ => rfl) nofun rfl rfl
      (procs_update hp hnone.symm)
  | @toCancel _ id timer p hfree hp he htimer =>
    refine hplain rfl ?_ (fun _ => rfl) ?_ rfl rfl procs_same
    · rcases he with ⟨-, hpc, -⟩ | ⟨-, hpc⟩ <;> rw [hpc] <;> exact fun _ => rfl
    · rintro id timer ⟨⟩
      exact ⟨p, hp, htimer⟩
  | @free _ id p hfree hp he htimer =>
    have harms : ∀ u, (s.callers u).arms id = false := by
      refine hok.2.1 id ?_
      rcases he with ⟨rfl, -, hex⟩ | ⟨rfl, hpc⟩
      · simp [frees, hp, hex]
      · simp [frees, hpc]
    have ht : ∀ i, (s.callers t).arms i = false := by
      rcases he with ⟨-, hpc, -⟩ | ⟨-, hpc⟩ <;> rw [hpc] <;> exact fun _ => rfl
    refine hk.freed hk.nodup rfl (fun t' ht' => ⟨ht', fun hcall => ?_⟩) harms (idle_or_same ht)
      (hh.no_stage (by rw [hfree]; nofun)) (no_cancel_idle fun u _ i timer hu => ?_)
    · have := hk.none_known hp harms ht' hcall
      rw [htimer] at this
      cases this
    · have := hh.cancels u i timer hu
      rw [hfree] at this
      cases this
  | @cancel id timer p hpc hfree hp =>
    obtain ⟨q, hq, htimer⟩ := hk.cancels t id timer hpc
    have hlock := hh.cancels t id timer hpc
    have harms := hk.not_arms hq htimer
    have ht : ∀ i, (s.callers t).arms i = false := by
      rw [hpc]
      exact fun _ => rfl
    refine hk.freed (nodup_dropTimer hk.nodup timer) rfl (fun t' ht' => ?_) harms (idle_or_same ht)
      (hh.no_stage (by rw [hlock]; nofun)) (no_cancel_idle fun u hut i timer' hu => ?_)
    · have hold : t' ∈ s.timers := List.mem_of_mem_eraseP ht'
      refine ⟨hold, fun hcall => ?_⟩
      have := hk.none_known hq harms hold hcall
      rw [htimer] at this
      exact mem_eraseP hk.nodup ht' (Option.some.inj this).symm
    · have := hh.cancels u i timer' hu
      rw [hlock] at this
      cases this
      exact hut rfl
  | @sigterm id pid p hpc hp =>
    obtain ⟨hnone, harms⟩ := hok.sigterm hpc hp hstep nofun
    exact hk.arm hp hnone harms (by rw [hpc]; nofun)
  | register hpc => exact hk.register hc.ids hpc
  | store hpc hp => exact hk.store hpc hp

theorem step_kills (hc : Coherent s) (hh : Held s) (hk : Kills s) (hok : Watched s e)
    (hstep : step s e = some (s', out)) : Kills s' := by
  cases step_cases hstep with
  | monitor h => exact monitor_kills hc.ids hh hk hok h
  | timers h => exact timers_kills hk h
  | caller => exact caller_kills hc hh hk hok hstep
  | die | spawn | shutdown =>
    exact hk.keep_callers hk.nodup procs_same (fun _ ht _ _ => ht) rfl hk.scan
  | callback hp =>
    exact hk.keep_callers hk.nodup (procs_update hp rfl) (fun _ ht _ _ => ht) rfl hk.scan

/-! ## Whole runs -/

/-- What holds in runs that meet the condition. -/
structure Safe (s : State τ) : Prop where
  tracked : Tracked s
  waits : ∀ t, WaitOk s (s.callers t)
  pointed : ∀ id, (s.view id).Pointed
  held : Held s
  kills : Kills s

omit [DecidableEq τ] in
theorem init_safe : Safe (init : State τ) :=
  ⟨init_tracked, fun _ => trivial, fun _ _ => rfl, init_held, init_kills⟩

theorem step_safe (hs : Safe s) (hok : Watched s e) (hstep : step s e = some (s', out)) :
    Safe s' := by
  have h := step_cases hstep
  have hc := hs.tracked.coherent
  have hwake := hok.2.2.2
  constructor
  · exact step_tracked hs.tracked hok.2.2.1 h
  · exact step_waits hc hs.waits hwake h
  · intro id
    apply (step_move hc h id).pointed (hs.tracked.sound id) (hs.pointed id)
    intro st hout p hp
    exact waited_exitted hs.waits hwake h hout hp
  · exact step_held hs.held h
  · exact step_kills hc hs.held hs.kills hok hstep

theorem run_safe {tr : List (Event τ × Outcome)} (h : Run (Guarded step Watched) init tr s) :
    Safe s :=
  h.invariant init_safe fun _ _ _ hs hstep => step_safe hs hstep.1 hstep.2

omit [DecidableEq τ] in
/-- A restart timer belongs to an entry that is there. -/
theorem Safe.restart (hs : Safe s) {t : Timer} {id : Nat} (ht : t ∈ s.timers)
    (hcall : t.callback = .autorestart id) : s.procs id ≠ none := by
  intro hnone
  have hzero : s.timers.countP (Timer.restarts id) = 0 :=
    congrArg View.timers (hs.pointed id hnone)
  have := List.countP_eq_zero.mp hzero t ht
  simp [Timer.restarts, hcall] at this

omit [DecidableEq τ] in
/-- The restart callback works on an entry that is there. -/
theorem Safe.callback (hs : Safe s) {id : Nat} (hpc : s.timersPc.entry = some id) :
    s.procs id ≠ none := by
  intro hnone
  have hrestart : s.timersPc.restartAt id = .none :=
    congrArg View.restart (hs.pointed id hnone)
  cases h : s.timersPc with
  | forked | stored | returned =>
    rw [h] at hpc hrestart
    cases hpc
    simp [TimersPc.restartAt] at hrestart
  | _ =>
    rw [h] at hpc
    cases hpc

/-- **No timer outlives its process**: in runs whose steps all meet the condition, every registered
    timer and the restart callback that runs have an entry that was not freed. -/
theorem never_dangling {tr : List (Event τ × Outcome)}
    (h : Run (Guarded step Watched) init tr s) : ¬Dangling s := by
  have hs := run_safe h
  rintro (⟨t, ht, hnone⟩ | ⟨id, hpc, hnone⟩)
  · cases hcall : t.callback with
    | autorestart id =>
      rw [hcall] at hnone
      exact hs.restart ht hcall hnone
    | forceKill id =>
      rw [hcall] at hnone
      obtain ⟨p, hp, -⟩ := hs.kills.known t ht id hcall
      rw [show s.procs id = none from hnone] at hp
      cases hp
  · exact hs.callback hpc hnone

/-- A process is started and stopped with SIGTERM. -/
def stopOnce (id : Nat) : List (Event Unit) :=
  [.caller () (.stop id), .caller () .read, .caller () .mark, .caller () (.kill true true),
    .caller () .register, .caller () .store]

/-- It dies and is freed, and its timer is gone. -/
theorem never_dangling_stop :
    ∃ tr s, Run (Guarded step Watched) (init : State Unit) tr s ∧ s.procs 1 = none ∧
      s.timers = [] ∧ ¬Dangling s := by
  obtain ⟨tr, s, hrun, hfreed, htimers⟩ := exists_run_of_guarded_exec step Watched
    (init : State Unit) (fun _ s => s.procs 1 = none ∧ s.timers = [])
    ([Event.caller () (.start ⟨false, false, false, false⟩ 5 false (some 100))] ++ stopOnce 1 ++
      [Event.die 100 15, .monitor (.waitpid (some 100)), .monitor .lock, .monitor (.visit false),
        .monitor .decide, .monitor .cancel, .monitor .unlock]) (by decide +kernel)
  exact ⟨tr, s, hrun, hfreed, htimers, never_dangling hrun⟩

/-- `avbox_process_stop` is called twice before the process dies: the entry remembers the second
    timer, and the first one stays registered with a pointer to the structure that was freed. -/
theorem second_stop_dangles :
    ∃ tr s, Run (Step step) (init : State Unit) tr s ∧ s.procs 1 = none ∧
      s.timers = [⟨1, .forceKill 1⟩] ∧ Dangling s := by
  obtain ⟨tr, s, hrun, hfreed, htimers⟩ := exists_run_of_exec step (init : State Unit)
    (fun _ s => s.procs 1 = none ∧ s.timers = [⟨1, .forceKill 1⟩])
    ([Event.caller () (.start ⟨false, false, false, false⟩ 5 false (some 100))] ++ stopOnce 1 ++
      stopOnce 1 ++ [Event.die 100 15, .monitor (.waitpid (some 100)), .monitor .lock,
        .monitor (.visit false), .monitor .decide, .monitor .cancel, .monitor .unlock])
    (by decide +kernel)
  refine ⟨tr, s, hrun, hfreed, htimers, Or.inl ⟨⟨1, .forceKill 1⟩, ?_, hfreed⟩⟩
  rw [htimers]
  exact List.mem_cons_self

end Mediabox.Process
