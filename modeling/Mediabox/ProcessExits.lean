import Mediabox.ProcessEntries

/-!
# The entries of the process list and their children

* `View.Sound` — an entry is in at most one phase: running, in its exit callback, handled by the
  scan, waiting for its restart timer, forked by the timers thread, or exitted.
* `Timely` — the scan does not visit an entry with the pid it looks for while the timers thread is
  between `fork()` and its last store of that pid.
* `no_dead_entries` — when also the forks and timers of restarts succeed, between two passes of the
  monitor every entry is in exactly one phase; `dead_entry` is what a failing fork leaves.
-/

set_option autoImplicit false

namespace Mediabox.Process

open Transition

variable {τ : Type*} [DecidableEq τ]

/-! ## Phases -/

/-- The scan handles the entry. -/
def Stage.busy : Stage → Bool
  | .next => false
  | _ => true

/-- A child was forked for the entry, and its pid is not stored. -/
def Restart.isForked : Restart → Bool
  | .forked _ => true
  | _ => false

/-- The pid that the timers thread is to store, or has stored once. -/
def Restart.pid : Restart → Option Nat
  | .none => Option.none
  | .forked pid => some pid
  | .stored pid => some pid
  | .returned pid => pid

/-- The phases that an entry is in. -/
def View.phases (v : View) (p : Proc) : Nat :=
  p.pid.isSome.toNat + p.cbstate.isSome.toNat + p.exitted.toNat + v.stage.busy.toNat + v.timers +
    v.restart.isForked.toNat

/-- At most one phase; the stores of the timers thread agree with the pid; and only a process with
    `AVBOX_PROCESS_WAIT` is kept after its exit. -/
structure View.SoundFor (v : View) (p : Proc) : Prop where
  once : v.phases p ≤ 1
  stored : ∀ pid, v.restart = .stored pid → p.pid = some pid
  returned : ∀ pid, v.restart = .returned pid → p.pid = pid ∧ pid ≠ none
  wait : p.exitted = true → p.flags.wait = true

def View.Sound (v : View) : Prop := ∀ p, v.proc = some p → v.SoundFor p

/-- Some phase. -/
def View.Alive (v : View) : Prop := ∀ p, v.proc = some p → 0 < v.phases p

/-- The entry knows this child, or the timers thread has it in hand for the entry. -/
def View.Claims (v : View) (pid : Nat) : Prop :=
  ∃ p, v.proc = some p ∧ (p.pid = some pid ∨ v.restart = .forked pid)

/-- An entry with a pid is in no other phase. -/
theorem View.SoundFor.running {v : View} {p : Proc} (h : v.SoundFor p) {pid : Nat}
    (hpid : p.pid = some pid) : p.cbstate = none ∧ p.exitted = false ∧ v.stage = .next ∧
      v.timers = 0 ∧ v.restart.isForked = false := by
  have honce := h.once
  simp only [View.phases, hpid, Option.isSome_some, Bool.toNat_true] at honce
  refine ⟨?_, ?_, ?_, by omega, ?_⟩
  · cases hcb : p.cbstate with
    | none => rfl
    | some cb =>
      simp only [hcb, Option.isSome_some, Bool.toNat_true] at honce
      omega
  · cases hex : p.exitted with
    | false => rfl
    | true =>
      simp only [hex, Bool.toNat_true] at honce
      omega
  · cases hs : v.stage with
    | next => rfl
    | _ =>
      simp only [hs, Stage.busy, Bool.toNat_true] at honce
      omega
  · cases hr : v.restart.isForked with
    | false => rfl
    | true =>
      simp only [hr, Bool.toNat_true] at honce
      omega

/-- An entry that the scan handles, or that has a restart timer, is in no other phase. -/
theorem View.SoundFor.other {v : View} {p : Proc} (h : v.SoundFor p)
    (hv : v.stage.busy = true ∨ 0 < v.timers ∨ p.exitted = true ∨ p.cbstate ≠ none) :
    p.pid = none ∧ v.restart = .none := by
  have hpid : p.pid = none := by
    cases hp : p.pid with
    | none => rfl
    | some pid =>
      obtain ⟨hcb, hex, hs, ht, -⟩ := h.running hp
      rcases hv with hv | hv | hv | hv
      · rw [hs] at hv
        cases hv
      · omega
      · rw [hex] at hv
        cases hv
      · exact absurd hcb hv
  refine ⟨hpid, ?_⟩
  cases hr : v.restart with
  | none => rfl
  | forked pid =>
    have honce := h.once
    simp only [View.phases, hr, Restart.isForked, Bool.toNat_true] at honce
    rcases hv with hv | hv | hv | hv
    · rw [hv, Bool.toNat_true] at honce
      omega
    · omega
    · rw [hv, Bool.toNat_true] at honce
      omega
    · rw [Option.isSome_iff_ne_none.mpr hv, Bool.toNat_true] at honce
      omega
  | stored pid =>
    rw [h.stored pid hr] at hpid
    cases hpid
  | returned pid =>
    obtain ⟨heq, hne⟩ := h.returned pid hr
    exact absurd (heq.symm.trans hpid) hne

theorem View.SoundFor.of_idle {v : View} {p : Proc} (hrestart : v.restart = .none)
    (honce : v.phases p ≤ 1) (hwait : p.exitted = true → p.flags.wait = true) : v.SoundFor p := by
  refine ⟨honce, fun pid hs => ?_, fun pid hs => ?_, hwait⟩
  · rw [hrestart] at hs
    cases hs
  · rw [hrestart] at hs
    cases hs

theorem View.SoundFor.congr {v v' : View} {p p' : Proc} (h : v.SoundFor p)
    (hphases : v'.phases p' = v.phases p) (hrestart : v'.restart = v.restart)
    (hpid : p'.pid = p.pid) (hwait : p'.exitted = true → p'.flags.wait = true) :
    v'.SoundFor p' := by
  refine ⟨hphases ▸ h.once, ?_, ?_, hwait⟩
  · rw [hrestart, hpid]
    exact h.stored
  · rw [hrestart, hpid]
    exact h.returned

theorem View.Sound.intro {v : View} {p : Proc} (hp : v.proc = some p) (h : v.SoundFor p) :
    v.Sound := by
  intro q hq
  rw [hp] at hq
  cases hq
  exact h

theorem View.sound_none {v : View} (h : v.proc = none) : v.Sound := by
  intro p hp
  rw [h] at hp
  cases hp

/-- A scan that finds the pid does so when the timers thread is not restarting the entry. -/
theorem View.SoundFor.restart_of_found {v : View} {p : Proc} (h : v.SoundFor p) {pid : Nat}
    (hpid : p.pid = some pid) (hguard : v.restart.pid ≠ some pid) : v.restart = .none := by
  have hforked := (h.running hpid).2.2.2.2
  cases hr : v.restart with
  | none => rfl
  | forked q =>
    rw [hr] at hforked
    cases hforked
  | stored q =>
    refine absurd ?_ hguard
    rw [hr]
    exact (h.stored q hr).symm.trans hpid
  | returned q =>
    refine absurd ?_ hguard
    rw [hr]
    exact (h.returned q hr).1.symm.trans hpid

theorem Move.sound {id : Nat} {v v' : View} {out : Outcome} (h : Move id v out v') (hv : v.Sound)
    (hguard : ∀ pid, out = .found id pid → v.restart.pid ≠ some pid) : v'.Sound := by
  cases h with
  | same | noStart => exact hv
  | start hb =>
    subst hb
    exact .intro rfl (.of_idle rfl (Nat.le_refl _) nofun)
  | @found p pid status stage cbstate hp hs hpid hnew =>
    have hp' := hv p hp
    have hrestart := hp'.restart_of_found hpid (hguard pid rfl)
    obtain ⟨hcb, hex, -, ht, -⟩ := hp'.running hpid
    refine .intro rfl (.of_idle hrestart ?_ hp'.wait)
    rcases hnew with ⟨rfl, rfl⟩ | ⟨rfl, rfl | rfl⟩ <;>
      simp [View.phases, hcb, hex, ht, hrestart, Stage.busy, Restart.isForked]
  | @collect p result hp hs hcb =>
    have hp' := hv p hp
    obtain ⟨hpid, hrestart⟩ := hp'.other (Or.inr (Or.inr (Or.inr (by rw [hcb]; exact nofun))))
    have honce := hp'.once
    refine .intro rfl (.of_idle hrestart ?_ hp'.wait)
    simp only [View.phases, hcb, hs, Stage.busy, Option.isSome_some, Option.isSome_none,
      Bool.toNat_true, Bool.toNat_false] at honce ⊢
    omega
  | @restart p cbresult hp hs hrestart =>
    have hp' := hv p hp
    refine .intro hp (hp'.congr ?_ rfl rfl hp'.wait)
    simp only [View.phases, hs, Stage.busy]
  | @exitted p cbresult hp hs hwait =>
    have hp' := hv p hp
    obtain ⟨hpid, hrestart⟩ := hp'.other (Or.inl (by rw [hs]; rfl))
    have honce := hp'.once
    refine .intro rfl (.of_idle hrestart ?_ fun _ => hwait)
    simp only [View.phases, hs, Stage.busy, Bool.toNat_true, Bool.toNat_false] at honce ⊢
    omega
  | toCancel hs | acquire hs =>
    intro p hp
    have hp' := hv p hp
    refine hp'.congr ?_ rfl rfl hp'.wait
    simp only [View.phases, hs, Stage.busy]
  | free | waited => exact View.sound_none rfl
  | @noFork p hp hs =>
    have hp' := hv p hp
    obtain ⟨hpid, hrestart⟩ := hp'.other (Or.inl (by rw [hs]; rfl))
    have honce := hp'.once
    refine .intro rfl (.of_idle hrestart ?_ hp'.wait)
    simp only [View.phases, hs, hpid, Stage.busy, Bool.toNat_true, Bool.toNat_false] at honce ⊢
    omega
  | @fork p pid hp hs =>
    have hp' := hv p hp
    obtain ⟨hpid, hrestart⟩ := hp'.other (Or.inl (by rw [hs]; rfl))
    have honce := hp'.once
    refine .intro rfl (.of_idle hrestart ?_ hp'.wait)
    simp only [View.phases, hs, hpid, Stage.busy, Option.isSome_some, Option.isSome_none,
      Bool.toNat_true, Bool.toNat_false] at honce ⊢
    omega
  | noTimer hs | register hs =>
    intro p hp
    have hp' := hv p hp
    obtain ⟨-, hrestart⟩ := hp'.other (Or.inl (by rw [hs]; rfl))
    have honce := hp'.once
    refine .of_idle hrestart ?_ hp'.wait
    simp only [View.phases, hs, Stage.busy, Bool.toNat_true, Bool.toNat_false] at honce ⊢
    omega
  | @noCall p n hp ht hrestart =>
    have hp' := hv p hp
    obtain ⟨hpid, -⟩ := hp'.other (Or.inr (Or.inl (by omega)))
    have honce := hp'.once
    refine .intro rfl (.of_idle hrestart ?_ hp'.wait)
    simp only [View.phases, ht, hpid] at honce ⊢
    omega
  | @call p n pid hp ht hrestart =>
    have hp' := hv p hp
    have honce := hp'.once
    refine .intro hp ⟨?_, nofun, nofun, hp'.wait⟩
    simp only [View.phases, ht, hrestart, Restart.isForked, Bool.toNat_true, Bool.toNat_false]
      at honce ⊢
    omega
  | @store p pid hp hr =>
    have hp' := hv p hp
    have honce := hp'.once
    refine .intro rfl ⟨?_, ?_, nofun, hp'.wait⟩
    · simp only [View.phases, hr, Restart.isForked, Option.isSome_some, Bool.toNat_true,
        Bool.toNat_false] at honce ⊢
      omega
    · rintro q ⟨⟩
      rfl
  | @load p pid hp hr =>
    have hp' := hv p hp
    have hpid := hp'.stored pid hr
    refine .intro hp ⟨?_, nofun, ?_, hp'.wait⟩
    · have honce := hp'.once
      simp only [View.phases, hr, Restart.isForked] at honce ⊢
      exact honce
    · rintro q ⟨⟩
      exact ⟨rfl, by rw [hpid]; exact nofun⟩
  | @restore p pid hp hr =>
    have hp' := hv p hp
    obtain ⟨hpid, -⟩ := hp'.returned pid hr
    have honce := hp'.once
    refine .intro rfl (.of_idle rfl ?_ hp'.wait)
    simp only [View.phases, hr, hpid, Restart.isForked] at honce ⊢
    exact honce
  | mark hp | timer hp => exact .intro rfl ((hv _ hp).congr rfl rfl rfl (hv _ hp).wait)
  | @callback p result hp hcb =>
    have hp' := hv p hp
    refine .intro rfl (hp'.congr ?_ rfl rfl hp'.wait)
    simp only [View.phases, hcb, Option.isSome_some]

theorem View.Alive.intro {v : View} {p : Proc} (hp : v.proc = some p) (h : 0 < v.phases p) :
    v.Alive := by
  intro q hq
  rw [hp] at hq
  cases hq
  exact h

theorem View.alive_busy {v : View} (h : v.stage.busy = true) : v.Alive := by
  intro p _
  simp only [View.phases, h, Bool.toNat_true]
  omega

/-- An entry leaves its phase for another one, unless a restart fails. -/
theorem Move.alive {id : Nat} {v v' : View} {out : Outcome} (h : Move id v out v') (hv : v.Sound)
    (halive : v.Alive) (hfork : out = .forked id none → v.proc = none)
    (htimer : out ≠ .noTimer id) : v'.Alive := by
  cases h with
  | same | noStart => exact halive
  | start | fork | store | callback hp hcb =>
    exact .intro rfl (by simp only [View.phases, Option.isSome_some, Bool.toNat_true]; omega)
  | found hp hs hpid hnew =>
    rcases hnew with ⟨-, rfl⟩ | ⟨rfl, -⟩
    · exact .intro rfl (by simp only [View.phases, Option.isSome_some, Bool.toNat_true]; omega)
    · exact View.alive_busy rfl
  | collect | restart | toCancel | acquire => exact View.alive_busy rfl
  | exitted => exact .intro rfl (by simp only [View.phases, Bool.toNat_true]; omega)
  | free | waited => exact fun p hp => (nomatch hp)
  | noFork hp | noCall hp =>
    rw [hfork rfl] at hp
    cases hp
  | noTimer => exact absurd rfl htimer
  | register =>
    intro p _
    simp only [View.phases]
    omega
  | call hp => exact .intro hp (by simp only [View.phases, Restart.isForked, Bool.toNat_true]; omega)
  | load hp hr =>
    have hold := halive _ hp
    refine .intro hp ?_
    simp only [View.phases, hr, Restart.isForked] at hold ⊢
    exact hold
  | @restore p pid hp hr =>
    obtain ⟨-, hne⟩ := (hv p hp).returned pid hr
    refine .intro rfl ?_
    simp only [View.phases, Option.isSome_iff_ne_none.mpr hne, Bool.toNat_true]
    omega
  | mark hp | timer hp =>
    have hold := halive _ hp
    exact .intro rfl hold

theorem Move.claims_old {id : Nat} {v v' : View} {out : Outcome} (h : Move id v out v')
    (hv : v.Sound) {pid : Nat} (hc : v'.Claims pid) :
    v.Claims pid ∨ out = .forked id (some pid) := by
  obtain ⟨q, hq, hclaim⟩ := hc
  have hsame : ∀ {p}, v.proc = some p → p.pid = some pid ∨ v.restart = .forked pid →
      v.Claims pid ∨ out = .forked id (some pid) := fun hp hcl => Or.inl ⟨_, hp, hcl⟩
  cases h with
  | start hb =>
    subst hb
    cases hq
    rcases hclaim with ⟨⟨⟩⟩ | hr
    · exact Or.inr rfl
    · cases hr
  | found hp | noFork hp | noCall hp =>
    cases hq
    exact hsame hp (Or.inr (hclaim.resolve_left nofun))
  | fork hp =>
    cases hq
    rcases hclaim with ⟨⟨⟩⟩ | hr
    · exact Or.inr rfl
    · exact hsame hp (Or.inr hr)
  | call hp =>
    rcases hclaim with hpid | ⟨⟨⟩⟩
    · exact hsame hq (Or.inl hpid)
    · exact Or.inr rfl
  | store hp hr =>
    cases hq
    rcases hclaim with ⟨⟨⟩⟩ | hr'
    · exact hsame hp (Or.inr hr)
    · cases hr'
  | load hp hr => exact hsame hq (Or.inl (hclaim.resolve_right nofun))
  | @restore p r hp hr =>
    cases hq
    obtain ⟨hpid, -⟩ := (hv p hp).returned r hr
    exact hsame hp (Or.inl (hpid.trans (hclaim.resolve_right nofun)))
  | free | waited => cases hq
  | collect hp | exitted hp | mark hp | timer hp | callback hp =>
    cases hq
    exact hsame hp hclaim
  | _ => exact hsame hq hclaim

theorem Move.claims_keep {id : Nat} {v v' : View} {out : Outcome} (h : Move id v out v')
    (hv : v.Sound) {pid : Nat} (hc : v.Claims pid)
    (hguard : ∀ q, out = .found id q → v.restart.pid ≠ some q)
    (hwait : ∀ st p, out = .waited id st → v.proc = some p → p.exitted = true) :
    v'.Claims pid ∨ out = .found id pid := by
  obtain ⟨q, hq, hclaim⟩ := hc
  have hp' := hv q hq
  -- an entry in another phase knows no child
  have hnone : v.stage.busy = true ∨ 0 < v.timers ∨ q.exitted = true ∨ q.cbstate ≠ none → False := by
    intro hother
    obtain ⟨hpid, hrestart⟩ := hp'.other hother
    rcases hclaim with hcl | hcl
    · rw [hpid] at hcl
      cases hcl
    · rw [hrestart] at hcl
      cases hcl
  have hsame : ∀ {p r : Proc}, v.proc = some p → v'.proc = some r → r.pid = p.pid →
      v'.restart = v.restart → v'.Claims pid ∨ out = .found id pid := by
    intro p r hp hr hpid hrestart
    rw [hq] at hp
    cases hp
    exact Or.inl ⟨r, hr, by rw [hpid, hrestart]; exact hclaim⟩
  have hbusy : v.stage.busy = true → v'.Claims pid ∨ out = .found id pid :=
    fun hb => (hnone (Or.inl hb)).elim
  cases h with
  | same | noStart => exact Or.inl ⟨q, hq, hclaim⟩
  | start hb =>
    rw [hb] at hq
    cases hq
  | @found p r status stage cbstate hp hs hpid hnew =>
    rw [hq] at hp
    cases hp
    have hrestart := hp'.restart_of_found hpid (hguard r rfl)
    rcases hclaim with hcl | hcl
    · rw [hpid] at hcl
      cases hcl
      exact Or.inr rfl
    · rw [hrestart] at hcl
      cases hcl
  | @collect p result hp hs hcb =>
    rw [hq] at hp
    cases hp
    exact (hnone (Or.inr (Or.inr (Or.inr (by rw [hcb]; exact nofun))))).elim
  | restart _ hs | exitted _ hs | toCancel hs | noFork _ hs | fork _ hs | noTimer hs | acquire hs
  | register hs => exact hbusy (by rw [hs]; rfl)
  | free hs => exact hbusy (by rcases hs with ⟨_, hs⟩ | ⟨_, hs⟩ <;> rw [hs] <;> rfl)
  | waited hp => exact (hnone (Or.inr (Or.inr (Or.inl (hwait _ q rfl hq))))).elim
  | noCall _ ht | call _ ht => exact (hnone (Or.inr (Or.inl (by omega)))).elim
  | @store p r hp hr =>
    rw [hq] at hp
    cases hp
    refine Or.inl ⟨_, rfl, Or.inl ?_⟩
    rcases hclaim with hcl | hcl
    · -- the pid was stored while the child is in hand: two phases
      have hforked := (hp'.running hcl).2.2.2.2
      rw [hr] at hforked
      cases hforked
    · rw [hr] at hcl
      cases hcl
      rfl
  | @load p r hp hr =>
    refine Or.inl ⟨q, hq, Or.inl (hclaim.resolve_right ?_)⟩
    rw [hr]
    exact nofun
  | @restore p r hp hr =>
    rw [hq] at hp
    cases hp
    have hpid := (hp'.returned r hr).1
    refine Or.inl ⟨_, rfl, Or.inl (hpid.symm.trans (hclaim.resolve_right ?_))⟩
    rw [hr]
    exact nofun
  | mark hp | timer hp | callback hp => exact hsame hp rfl rfl rfl

/-! ## Children and the scan -/

/-- A child of this entry that was not reaped. -/
def State.isChild (s : State τ) (pid id : Nat) : Prop := ∃ st, s.children pid = some ⟨some id, st⟩

/-- The pid that the monitor has reaped and looks for. -/
def MonitorPc.target : MonitorPc → Option Nat
  | .reaped target => target.map Prod.fst
  | .scan target _ _ => target.map Prod.fst
  | _ => none

/-- The pass has not come to this entry. -/
def MonitorPc.unscanned : MonitorPc → Nat → Prop
  | .reaped _, _ => True
  | .scan _ todo _, id => id ∈ todo
  | _, _ => False

/-- The monitor has reaped this pid, and has not visited this entry since. -/
def State.pending (s : State τ) (pid id : Nat) : Prop :=
  s.monitor.target = some pid ∧ s.monitor.unscanned id

/-- The entry that the scan is to visit, and the pid it looks for. -/
def visited (s : State τ) : Event τ → Option (Nat × Nat)
  | .monitor (.visit _) =>
    match s.monitor with
    | .scan (some (pid, _)) (id :: _) .next => some (id, pid)
    | _ => none
  | _ => none

/-- The scan does not visit an entry with a pid that the timers thread is still to store there. -/
def Timely (s : State τ) (e : Event τ) : Prop :=
  ∀ x ∈ visited s e, (s.view x.1).restart.pid ≠ some x.2

instance (s : State τ) (e : Event τ) : Decidable (Timely s e) :=
  inferInstanceAs (Decidable (∀ x ∈ visited s e, _))

theorem Timely.found {s s' : State τ} {e : Event τ} {id pid : Nat} (hok : Timely s e)
    (h : Steps s e (.found id pid) s') : (s.view id).restart.pid ≠ some pid := by
  cases h with
  | monitor h =>
    cases h with
    | found hpc => exact hok (id, pid) (by simp [visited, hpc])
  | timers h | caller h => cases h

omit [DecidableEq τ] in
theorem isChild_update {s s' : State τ} {pid id q : Nat} {c : Option Child} (hne : pid ≠ q)
    (hchildren : s'.children = Function.update s.children q c) :
    s'.isChild pid id ↔ s.isChild pid id := by
  unfold State.isChild
  rw [hchildren, Function.update_of_ne hne]

/-- Where the children of an entry come from. -/
theorem child_old {s s' : State τ} {e : Event τ} {out : Outcome} (h : Steps s e out s')
    {pid id : Nat} (hchild : s'.isChild pid id) :
    s.isChild pid id ∨ out = .forked id (some pid) := by
  -- a child appears or changes its state
  have hset : ∀ {q c}, s'.children = Function.update s.children q (some c) →
      (pid = q → c.owner = some id → s.isChild pid id ∨ out = .forked id (some pid)) →
      s.isChild pid id ∨ out = .forked id (some pid) := by
    intro q c hchildren hnew
    by_cases hpid : pid = q
    · obtain ⟨st, hst⟩ := hchild
      rw [hchildren, hpid, Function.update_self, Option.some.injEq] at hst
      exact hnew hpid (by rw [hst])
    · exact Or.inl ((isChild_update hpid hchildren).mp hchild)
  cases h with
  | monitor h =>
    cases h with
    | @reap q status owner hpc hold =>
      by_cases hpid : pid = q
      · obtain ⟨st, hst⟩ := hchild
        rw [hpid] at hst
        simp at hst
      · exact Or.inl ((isChild_update hpid rfl).mp hchild)
    | fork =>
      refine hset rfl fun hpid hid => Or.inr ?_
      cases hid
      rw [hpid]
    | _ => exact Or.inl hchild
  | timers h =>
    cases h with
    | fork =>
      refine hset rfl fun hpid hid => Or.inr ?_
      cases hid
      rw [hpid]
    | _ => exact Or.inl hchild
  | caller h =>
    cases h with
    | start =>
      refine hset rfl fun hpid hid => Or.inr ?_
      cases hid
      rw [hpid]
    | _ => exact Or.inl hchild
  | @die q status owner hold =>
    refine hset rfl fun hpid hid => Or.inl ⟨none, ?_⟩
    rw [hpid, hold]
    exact congrArg (fun o => some (Child.mk o none)) hid
  | spawn => exact hset rfl fun _ hid => nomatch hid
  | _ => exact Or.inl hchild

theorem child_keep {s s' : State τ} {e : Event τ} {out : Outcome} (h : Steps s e out s')
    {pid id : Nat} (hchild : s.isChild pid id) :
    s'.isChild pid id ∨ (out = .reaped pid (some id) ∧ s'.pending pid id) := by
  obtain ⟨st, hst⟩ := hchild
  -- a fork gives a pid that is not in use
  have hfork : ∀ {q c}, s'.children = Function.update s.children q c → s.children q = none →
      s'.isChild pid id := by
    intro q c hchildren hnone
    refine (isChild_update (fun hpid => ?_) hchildren).mpr ⟨st, hst⟩
    rw [hpid, hnone] at hst
    cases hst
  cases h with
  | monitor h =>
    cases h with
    | @reap q status owner hpc hold =>
      by_cases hpid : pid = q
      · subst hpid
        rw [hold] at hst
        cases hst
        exact Or.inr ⟨rfl, rfl, trivial⟩
      · exact Or.inl ((isChild_update hpid rfl).mpr ⟨st, hst⟩)
    | fork _ _ hnone => exact Or.inl (hfork rfl hnone)
    | _ => exact Or.inl ⟨st, hst⟩
  | timers h =>
    cases h with
    | fork _ _ _ _ hnone => exact Or.inl (hfork rfl hnone)
    | _ => exact Or.inl ⟨st, hst⟩
  | caller h =>
    cases h with
    | start _ _ hnone => exact Or.inl (hfork rfl hnone)
    | _ => exact Or.inl ⟨st, hst⟩
  | @die q status owner hold =>
    left
    by_cases hpid : pid = q
    · subst hpid
      rw [hold] at hst
      cases hst
      exact ⟨some status, Function.update_self _ _ _⟩
    · exact (isChild_update hpid rfl).mpr ⟨st, hst⟩
  | spawn hnone => exact Or.inl (hfork rfl hnone)
  | _ => exact Or.inl ⟨st, hst⟩

theorem forked_child {s s' : State τ} {e : Event τ} {id pid : Nat}
    (h : Steps s e (.forked id (some pid)) s') : s'.isChild pid id := by
  cases h with
  | monitor h | timers h =>
    cases h with
    | fork => exact ⟨none, Function.update_self _ _ _⟩
  | caller h =>
    cases h with
    | start => exact ⟨none, Function.update_self _ _ _⟩

/-- The pass comes to every entry that was there when it locked the list. -/
theorem pending_keep {s s' : State τ} {e : Event τ} {out : Outcome} (hc : Coherent s)
    (h : Steps s e out s') {pid id : Nat} (hlive : s.procs id ≠ none) (hpend : s.pending pid id) :
    s'.pending pid id ∨ visited s e = some (id, pid) := by
  obtain ⟨htarget, hun⟩ := hpend
  have hsame : s'.monitor = s.monitor → s'.pending pid id := by
    intro heq
    unfold State.pending
    rw [heq]
    exact ⟨htarget, hun⟩
  cases h with
  | monitor h =>
    -- the scan goes on with the same entries to come
    have hstage : ∀ {target todo stage stage'}, s.monitor = .scan target todo stage →
        s'.monitor = .scan target todo stage' → s'.pending pid id := by
      intro target todo stage stage' hpc hpc'
      unfold State.pending
      rw [hpc] at htarget hun
      rw [hpc']
      exact ⟨htarget, hun⟩
    -- the scan visits the next entry
    have hvisit : ∀ {target i todo stage d}, s.monitor = .scan target (i :: todo) .next →
        s'.monitor = .scan target todo stage →
        s'.pending pid id ∨ visited s (.monitor (.visit d)) = some (id, pid) := by
      intro target i todo stage d hpc hpc'
      rw [hpc] at htarget hun
      rcases List.mem_cons.mp hun with rfl | hmem
      · right
        obtain ⟨⟨q, status⟩, rfl, rfl⟩ := Option.map_eq_some_iff.mp htarget
        simp [visited, hpc]
      · left
        unfold State.pending
        rw [hpc']
        exact ⟨htarget, hmem⟩
    have hpoll : s.monitor = .poll → False := by
      intro hpc
      rw [hpc] at hun
      exact hun
    cases h with
    | none hpc | reap hpc | exit hpc => exact (hpoll hpc).elim
    | lock hpc =>
      rw [hpc] at htarget
      exact Or.inl ⟨htarget, (hc.listed id).mpr hlive⟩
    | found hpc | collect hpc | skip hpc => exact hvisit hpc rfl
    | restart hpc | exitted hpc | toCancel hpc | free hpc | noFork hpc | fork hpc | noTimer hpc
    | acquire hpc | register hpc | cancel hpc => exact Or.inl (hstage hpc rfl)
    | unlock hpc =>
      rw [hpc] at hun
      exact (List.not_mem_nil hun).elim
  | timers h | caller h => exact Or.inl (hsame (by cases h <;> rfl))
  | _ => exact Or.inl (hsame rfl)

theorem visit_finds {s s' : State τ} {e : Event τ} {out : Outcome} (hok : Timely s e)
    (h : Steps s e out s') {pid id : Nat} (hv : visited s e = some (id, pid))
    (hclaims : (s.view id).Claims pid) : out = .found id pid ∧ ¬ (s'.view id).Claims pid := by
  have hguard := hok (id, pid) hv
  -- the timers thread does not have this child in hand
  obtain ⟨q, hq, hclaim⟩ := hclaims
  have hpid : q.pid = some pid := by
    refine hclaim.resolve_right fun hr => hguard ?_
    rw [hr]
    rfl
  cases h with
  | monitor h =>
    cases h with
    | @found r status i todo p d stage cbstate hpc hp hpid' hstage =>
      have hids : i = id ∧ r = pid := by simpa [visited, hpc] using hv
      obtain ⟨rfl, rfl⟩ := hids
      refine ⟨rfl, ?_⟩
      rintro ⟨w, hw, hcl⟩
      have hw' : w.pid = none := by
        simp only [State.view, State.setProc, Function.update_self, Option.some.injEq] at hw
        rw [← hw]
      rcases hcl with hcl | hcl
      · rw [hw'] at hcl
        cases hcl
      · refine hguard ?_
        show Restart.pid (s.timersPc.restartAt i) = some r
        rw [show s.timersPc.restartAt i = .forked r from hcl]
        rfl
    | @collect target i todo p d result hpc hp hno | @skip target i todo p d hpc hp hno =>
      obtain ⟨⟨r, status⟩, rfl⟩ : ∃ x, target = some x := by
        cases target with
        | none => simp [visited, hpc] at hv
        | some x => exact ⟨x, rfl⟩
      have hids : i = id ∧ r = pid := by simpa [visited, hpc] using hv
      obtain ⟨rfl, rfl⟩ := hids
      rw [show s.procs i = some q from hq] at hp
      cases hp
      exact absurd hpid (hno r status rfl)
    | _ => cases hv
  | _ => cases hv

/-- The entries and their children, in runs where the scan is timely. -/
structure Tracked (s : State τ) : Prop where
  coherent : Coherent s
  sound : ∀ id, (s.view id).Sound
  known : ∀ id pid, (s.view id).Claims pid → s.isChild pid id ∨ s.pending pid id

omit [DecidableEq τ] in
theorem init_tracked : Tracked (init : State τ) := by
  refine ⟨init_coherent, fun id p hp => (nomatch hp), ?_⟩
  rintro id pid ⟨p, hp, -⟩
  cases hp

theorem step_tracked {s s' : State τ} {e : Event τ} {out : Outcome} (ht : Tracked s)
    (hok : Timely s e) (h : Steps s e out s') : Tracked s' := by
  have hguard : ∀ id pid, out = .found id pid → (s.view id).restart.pid ≠ some pid := by
    rintro id pid rfl
    exact hok.found h
  have hmove := step_move ht.coherent h
  refine ⟨step_coherent ht.coherent h, fun id => (hmove id).sound (ht.sound id) (hguard id), ?_⟩
  intro id pid hclaims
  rcases (hmove id).claims_old (ht.sound id) hclaims with hold | rfl
  · rcases ht.known id pid hold with hchild | hpend
    · exact (child_keep h hchild).imp_right And.right
    · have hlive : s.procs id ≠ none := by
        obtain ⟨p, hp, -⟩ := hold
        rw [show s.procs id = some p from hp]
        exact nofun
      rcases pending_keep ht.coherent h hlive hpend with hpend | hvisit
      · exact Or.inr hpend
      · exact absurd hclaims (visit_finds hok h hvisit hold).2
  · exact Or.inl (forked_child h)

/-! ## No dead entries -/

def TimerCallback.isAutorestart : TimerCallback → Bool
  | .autorestart _ => true
  | .forceKill _ => false

/-- `fork()` fails in a restart, or the restart timer cannot be registered. -/
def restartFails (s : State τ) : Event τ → Bool
  | .monitor (.fork none) => true
  | .monitor (.acquire false) => true
  | .timers (.call none) =>
    match s.timersPc with
    | .pass (timer :: _) =>
      (s.timers.find? fun t => t.id = timer).any fun t => t.callback.isAutorestart
    | _ => false
  | _ => false

/-- The condition under which no entry is left dead. -/
def Lasting (s : State τ) (e : Event τ) : Prop := Timely s e ∧ restartFails s e = false

instance (s : State τ) (e : Event τ) : Decidable (Lasting s e) :=
  inferInstanceAs (Decidable (_ ∧ _))

/-- A restart timer is registered, or its callback has forked and not stored the pid. -/
def State.restartPending (s : State τ) (id : Nat) : Prop :=
  (∃ t ∈ s.timers, t.callback = .autorestart id) ∨ ∃ pid todo, s.timersPc = .forked id pid todo

/-- Where no restart fails, `fork()` fails only in `avbox_process_start`. -/
theorem noFork_fresh {s s' : State τ} {e : Event τ} {id : Nat} (hc : Coherent s)
    (hok : restartFails s e = false) (h : Steps s e (.forked id none) s') :
    (s.view id).proc = none := by
  cases h with
  | monitor h =>
    cases h with
    | noFork => cases hok
  | timers h =>
    cases h with
    | noFork hpc ht hcall =>
      simp [restartFails, hpc, ht, hcall, TimerCallback.isAutorestart] at hok
  | caller h =>
    cases h with
    | noStart => exact congrArg View.proc (hc.fresh _ (Nat.le_refl _))

theorem not_noTimer {s s' : State τ} {e : Event τ} {id : Nat} (hok : restartFails s e = false)
    (h : Steps s e (.noTimer id) s') : False := by
  cases h with
  | monitor h =>
    cases h with
    | noTimer => cases hok
  | timers h | caller h => cases h

theorem step_alive {s s' : State τ} {e : Event τ} {out : Outcome} (ht : Tracked s)
    (halive : ∀ id, (s.view id).Alive) (hok : restartFails s e = false) (h : Steps s e out s')
    (id : Nat) : (s'.view id).Alive := by
  refine (step_move ht.coherent h id).alive (ht.sound id) (halive id) ?_ ?_
  · rintro rfl
    exact noFork_fresh ht.coherent hok h
  · rintro rfl
    exact not_noTimer hok h

omit [DecidableEq τ] in
theorem phase_cases {s : State τ} {id : Nat} {p : Proc} (hs : (s.view id).SoundFor p)
    (hpos : 0 < (s.view id).phases p) (hidle : s.monitor.stage = .next) :
    (∃ pid, p.pid = some pid) ∨ p.cbstate ≠ none ∨ s.restartPending id ∨
      (p.flags.wait = true ∧ p.exitted = true) := by
  by_contra hno
  rw [not_or, not_or, not_or] at hno
  obtain ⟨hpid, hcb, hrestart, hwait⟩ := hno
  have hpid' : p.pid = none := Option.eq_none_iff_forall_ne_some.mpr fun q hq => hpid ⟨q, hq⟩
  have hex : p.exitted = false := by
    rw [← Bool.not_eq_true]
    exact fun hex => hwait ⟨hs.wait hex, hex⟩
  have hstage : (s.view id).stage = .next := by
    show s.stageAt id = .next
    simp [State.stageAt, hidle]
  have htimers : (s.view id).timers = 0 := by
    refine List.countP_eq_zero.mpr fun t ht hr => hrestart (Or.inl ⟨t, ht, ?_⟩)
    simpa [Timer.restarts] using hr
  have hforked : (s.view id).restart.isForked = false := by
    show (s.timersPc.restartAt id).isForked = false
    unfold TimersPc.restartAt
    split
    · rename_i i pid todo hpc
      split
      · rename_i hi
        subst hi
        exact absurd (Or.inr ⟨pid, todo, hpc⟩) hrestart
      · rfl
    all_goals first | rfl | (split <;> rfl)
  simp [View.phases, hpid', not_not.mp hcb, hex, hstage, htimers, hforked, Stage.busy] at hpos

/-- **No dead entries**: in every run whose steps meet the condition, between two passes of the
    monitor each entry of the list has a child that was not reaped, or an exit callback in progress,
    or a pending restart, or is kept for `avbox_process_wait`. -/
theorem no_dead_entries {tr : List (Event τ × Outcome)} {s : State τ}
    (h : Run (Guarded step Lasting) init tr s) (hpass : s.monitor = .poll ∨ s.monitor = .exited) :
    ∀ id ∈ s.list, ∃ p, s.procs id = some p ∧
      ((∃ pid, p.pid = some pid ∧ s.isChild pid id) ∨ p.cbstate ≠ none ∨ s.restartPending id ∨
        (p.flags.wait = true ∧ p.exitted = true)) := by
  have hinv : Tracked s ∧ ∀ id, (s.view id).Alive := by
    refine h.invariant (P := fun s => Tracked s ∧ ∀ id, (s.view id).Alive)
      ⟨init_tracked, fun id p hp => (nomatch hp)⟩ ?_
    rintro t a u ⟨ht, halive⟩ ⟨hok, hstep⟩
    have hsteps := step_cases hstep
    exact ⟨step_tracked ht hok.1 hsteps, step_alive ht halive hok.2 hsteps⟩
  obtain ⟨ht, halive⟩ := hinv
  intro id hid
  obtain ⟨p, hp⟩ := Option.ne_none_iff_exists'.mp ((ht.coherent.listed id).mp hid)
  refine ⟨p, hp, ?_⟩
  have hidle : s.monitor.stage = .next := by rcases hpass with hpc | hpc <;> rw [hpc] <;> rfl
  refine (phase_cases (ht.sound id p hp) (halive id p hp) hidle).imp_left ?_
  rintro ⟨pid, hpid⟩
  refine ⟨pid, hpid, (ht.known id pid ⟨p, hp, Or.inl hpid⟩).resolve_right ?_⟩
  rintro ⟨htarget, -⟩
  rcases hpass with hpc | hpc <;> rw [hpc] at htarget <;> cases htarget

/-- A process that is always restarted after five seconds dies, and its restart timer is registered
    in the pass that finds it. -/
def exitToTimer : List (Event Unit) :=
  [.caller () (.start ⟨false, false, false, true⟩ 5 false (some 100)), .die 100 256,
    .monitor (.waitpid (some 100)), .monitor .lock, .monitor (.visit false), .monitor .decide,
    .monitor (.acquire true), .monitor .register, .monitor .unlock]

/-- The timer restarts the process: its entry has a child again. -/
theorem no_dead_entries_restart :
    ∃ tr s p, Run (Guarded step Lasting) (init : State Unit) tr s ∧ s.list = [1] ∧
      s.procs 1 = some p ∧ p.pid = some 101 ∧
      ((∃ pid, p.pid = some pid ∧ s.isChild pid 1) ∨ p.cbstate ≠ none ∨ s.restartPending 1 ∨
        (p.flags.wait = true ∧ p.exitted = true)) := by
  obtain ⟨tr, s, hrun, hlist, hpoll, p, hp, hpid⟩ := exists_run_of_guarded_exec step Lasting
    (init : State Unit)
    (fun _ s => s.list = [1] ∧ s.monitor = .poll ∧ ∃ p ∈ s.procs 1, p.pid = some 101)
    (exitToTimer ++ [Event.timers (.wake [1]), .timers (.call (some 101)), .timers .store, .timers .load,
      .timers .restore, .timers .sleep]) (by decide +kernel)
  have hmem : 1 ∈ s.list := by rw [hlist]; exact List.mem_singleton_self 1
  obtain ⟨p', hp', hphase⟩ := no_dead_entries hrun (Or.inl hpoll) 1 hmem
  cases hp.symm.trans hp'
  exact ⟨tr, s, p, hrun, hlist, hp, hpid, hphase⟩

/-- **A restart that fails**: `fork()` fails in the callback of the restart timer.  The entry stays
    in the list with no child, no callback, no timer and nobody to wait for it. -/
theorem dead_entry :
    ∃ tr s p, Run (Step step) (init : State Unit) tr s ∧ s.monitor = .poll ∧
      s.timersPc = .asleep ∧ s.timers = [] ∧ s.list = [1] ∧ s.procs 1 = some p ∧ p.pid = none ∧
      p.cbstate = none ∧ p.exitted = false := by
  have hrun : Run (Step step) (init : State Unit) _ _ := run_of_exec
    (exitToTimer ++ [Event.timers (.wake [1]), .timers (.call none), .timers .sleep]) rfl
  exact ⟨_, _, _, hrun, rfl, rfl, rfl, rfl, rfl, rfl, rfl, rfl⟩

end Mediabox.Process
