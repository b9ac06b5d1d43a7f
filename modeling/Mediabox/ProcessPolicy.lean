import Mediabox.ProcessReap

/-!
# The restart policy of the monitor

`avbox_process_monitor_thread` keeps `WEXITSTATUS` of the wait status in the entry, asks the exit
callback in a worker, and decides in this pass or in a later one.

* `Notes` — what an observer saw: the wait status of the last termination of each entry that the
  monitor found, what the exit callback answered since, and the terminations that are not settled.
* `Told` — the run invariant: the entries and the scan agree with the notes.
* `WEXITSTATUS` of a process that was killed by a signal is 0, so that its death is not abnormal
  for the code: `Policed` leaves it out.

Main result: `restart_policy`.
-/

set_option autoImplicit false

namespace Mediabox.Process

open Transition

variable {τ : Type*} [DecidableEq τ]

/-! ## The observer -/

structure Notes where
  /-- the wait status of the last death of a pid -/
  died : Nat → Option Nat
  /-- the wait status that `waitpid` gave last -/
  reaped : Option Nat
  /-- the wait status of the last termination that the monitor found in an entry -/
  ended : Nat → Option Nat
  /-- what the exit callback answered to it; 0 if it was not asked -/
  answer : Nat → Int
  /-- a child of this entry was reaped, and the monitor is not done with that -/
  unsettled : Nat → Bool

def Notes.init : Notes := ⟨fun _ => none, none, fun _ => none, fun _ => 0, fun _ => false⟩

/-- The entry that the scan is done with in this step, after it has handled a termination. -/
def leaves (s s' : State τ) : Option Nat :=
  if s'.monitor.stage = .next then s.monitor.stage.entry else none

def note (n : Notes) (s : State τ) (e : Event τ) (out : Outcome) (s' : State τ) : Notes :=
  match leaves s s' with
  | some id => { n with unsettled := Function.update n.unsettled id false }
  | none =>
    match e, out with
    | .die pid status, _ => { n with died := Function.update n.died pid (some status) }
    | .callback id result, _ => { n with answer := Function.update n.answer id result }
    | _, .reaped pid (some id) =>
      { n with reaped := n.died pid, unsettled := Function.update n.unsettled id true }
    | _, .reaped pid none => { n with reaped := n.died pid }
    | _, .found id _ =>
      { n with
        ended := Function.update n.ended id n.reaped
        answer := Function.update n.answer id 0 }
    | _, _ => n

/-! ## What it is for -/

/-- `exit` with a code other than 0, or death by a signal. -/
def Abnormal (status : Nat) : Prop := status % 128 ≠ 0 ∨ wexitstatus status ≠ 0

/-- A restart is due. -/
def Policy (n : Notes) (id : Nat) (flags : Flags) : Prop :=
  n.answer id = 0 ∧ (flags.autorestartAlways = true ∨
    flags.autorestart = true ∧ ∃ status ∈ n.ended id, Abnormal status)

/-- The monitor schedules a restart: it registers a timer, or forks at once. -/
def Schedules (s s' : State τ) (out : Outcome) (id : Nat) : Prop :=
  (s'.view id).timers = (s.view id).timers + 1 ∨ ∃ pid, out = .forked id pid

/-- The policy is followed by the steps `R` from here: when the monitor is done with a termination
    of a process that is not being stopped, it has scheduled a restart if and only if one is due,
    and else the entry has left the list or is kept for its waiter; and between two passes the only
    terminations that are not settled are those whose exit callback is in progress. -/
structure Followed (R : State τ × Notes → Event τ × Outcome → State τ × Notes → Prop)
    (x : State τ × Notes) : Prop where
  scheduled : ∀ a y, R x a y → ∀ id ∈ leaves x.1 y.1, ∀ p ∈ x.1.procs id, p.stopping = false →
    (Schedules x.1 y.1 a.2 id ↔ Policy x.2 id p.flags)
  otherwise : ∀ a y, R x a y → ∀ id ∈ leaves x.1 y.1, ¬Schedules x.1 y.1 a.2 id →
    id ∉ y.1.list ∨ ∃ p ∈ y.1.procs id, p.exitted = true ∧ p.flags.wait = true
  settled : x.1.monitor = .poll → ∀ id, x.2.unsettled id = true →
    ∃ p ∈ x.1.procs id, p.cbstate ≠ none

/-- The condition under which it is: no exit is lost, the restart timer gets registered, and a
    process that would be restarted for its death alone was not killed by a signal. -/
def Policed (x : State τ × Notes) (e : Event τ) : Prop :=
  Caught x.1 e ∧ e ≠ .monitor (.acquire false) ∧
    (e = .monitor .decide → ∀ id ∈ x.1.monitor.stage.entry, ∀ p ∈ x.1.procs id,
      p.stopping = false → p.flags.autorestart = true → p.flags.autorestartAlways = false →
      x.2.answer id = 0 → ∀ status ∈ x.2.ended id, status % 128 = 0)

instance (x : State τ × Notes) (e : Event τ) : Decidable (Policed x e) :=
  inferInstanceAs (Decidable (_ ∧ _ ∧ _))

/-! ## The notes -/

section Notes

variable {s s' : State τ} {e : Event τ} {out : Outcome} {n : Notes} {id : Nat}

omit [DecidableEq τ]

theorem leaves_same (h : s'.monitor = s.monitor) : leaves s s' = none := by
  unfold leaves
  rw [h]
  split
  · rename_i hstage
    rw [hstage]
    rfl
  · rfl

/-- The scan that comes to an entry is done with none. -/
theorem leaves_next (h : s.monitor.stage = .next) : leaves s s' = none := by
  unfold leaves
  rw [h]
  exact ite_self _

theorem note_die {pid status : Nat} (h : s'.monitor = s.monitor) :
    note n s (.die pid status) out s' =
      { n with died := Function.update n.died pid (some status) } := by
  unfold note
  rw [leaves_same h]

theorem note_callback {result : Int} (h : s'.monitor = s.monitor) :
    note n s (.callback id result) out s' =
      { n with answer := Function.update n.answer id result } := by
  unfold note
  rw [leaves_same h]

theorem note_reap {m : MonitorEvent} {pid : Nat} {owner : Option Nat}
    (h : s.monitor.stage = .next) :
    (note n s (.monitor m) (.reaped pid owner) s').reaped = n.died pid := by
  unfold note
  rw [leaves_next h]
  cases owner <;> rfl

theorem note_found {m : MonitorEvent} {pid : Nat} (h : s.monitor.stage = .next) :
    note n s (.monitor m) (.found id pid) s' =
      { n with
        ended := Function.update n.ended id n.reaped
        answer := Function.update n.answer id 0 } := by
  unfold note
  rw [leaves_next h]

theorem note_died (hdie : ∀ pid status, e ≠ .die pid status) :
    (note n s e out s').died = n.died := by
  unfold note
  split
  · rfl
  · split
    · rename_i pid status
      exact absurd rfl (hdie pid status)
    all_goals rfl

theorem note_reaped (hreaped : ∀ pid owner, out ≠ .reaped pid owner) :
    (note n s e out s').reaped = n.reaped := by
  unfold note
  split
  · rfl
  · split
    · rfl
    · rfl
    · exact absurd rfl (hreaped _ _)
    · exact absurd rfl (hreaped _ _)
    all_goals rfl

/-- Only a child that is reaped becomes unsettled. -/
theorem note_unsettled (h : (note n s e out s').unsettled id = true) :
    leaves s s' ≠ some id ∧ (n.unsettled id = true ∨ ∃ pid, out = .reaped pid (some id)) := by
  unfold note at h
  split at h
  · rename_i i hleaves
    dsimp only at h
    by_cases hi : id = i
    · subst hi
      rw [Function.update_self] at h
      cases h
    · rw [Function.update_of_ne hi] at h
      refine ⟨fun hid => hi ?_, Or.inl h⟩
      rw [hleaves] at hid
      exact (Option.some.inj hid).symm
  · rename_i hleaves
    refine ⟨by rw [hleaves]; exact nofun, ?_⟩
    split at h
    · exact Or.inl h
    · exact Or.inl h
    · rename_i pid i _ _
      dsimp only at h
      by_cases hi : id = i
      · subst hi
        exact Or.inr ⟨pid, rfl⟩
      · rw [Function.update_of_ne hi] at h
        exact Or.inl h
    · exact Or.inl h
    · exact Or.inl h
    · exact Or.inl h

theorem note_ended (hfound : ∀ pid, out ≠ .found id pid) :
    (note n s e out s').ended id = n.ended id := by
  unfold note
  split
  · rfl
  · split
    · rfl
    · rfl
    · rfl
    · rfl
    · rename_i i pid _ _
      have hne : id ≠ i := by
        rintro rfl
        exact hfound pid rfl
      exact Function.update_of_ne hne _ _
    · rfl

theorem note_answer (hfound : ∀ pid, out ≠ .found id pid) (hcallback : ∀ r, e ≠ .callback id r) :
    (note n s e out s').answer id = n.answer id := by
  unfold note
  split
  · rfl
  · split
    · rfl
    · rename_i i r
      have hne : id ≠ i := by
        rintro rfl
        exact hcallback r rfl
      exact Function.update_of_ne hne _ _
    · rfl
    · rfl
    · rename_i i pid _ _
      have hne : id ≠ i := by
        rintro rfl
        exact hfound pid rfl
      exact Function.update_of_ne hne _ _
    · rfl

end Notes

/-! ## The entries and the notes -/

variable {s s' : State τ} {e : Event τ} {out : Outcome} {n : Notes}

/-- The exit status of an entry whose termination is being handled, or was the end of it, is that
    of the last one. -/
def View.Ended (v : View) (ended : Option Nat) : Prop :=
  ∀ p, v.proc = some p → p.cbstate ≠ none ∨ v.stage.busy = true ∨ p.exitted = true →
    ∃ status, ended = some status ∧ p.exitStatus = wexitstatus status

theorem Move.ended {id : Nat} {v v' : View} {ended : Option Nat} (h : Move id v out v')
    (hfound : ∀ pid, out ≠ .found id pid) (hv : v.Ended ended) : v'.Ended ended := by
  intro p' hp' hopen
  have hold : ∀ {p q : Proc}, v.proc = some p → some q = some p' →
      (p'.cbstate ≠ none ∨ v'.stage.busy = true ∨ p'.exitted = true →
        p.cbstate ≠ none ∨ v.stage.busy = true ∨ p.exitted = true) →
      q.exitStatus = p.exitStatus →
      ∃ status, ended = some status ∧ p'.exitStatus = wexitstatus status := by
    rintro p q hp ⟨⟩ hpast hstatus
    rw [hstatus]
    exact hv p hp (hpast hopen)
  cases h with
  | same | noStart | call | load => exact hold hp' rfl (fun ho => ho) rfl
  | start hblank =>
    subst hblank
    cases hp'
    rcases hopen with hcb | hbusy | hexit
    · exact absurd rfl hcb
    · cases hbusy
    · cases hexit
  | found => exact absurd rfl (hfound _)
  | collect hp _ hcb => exact hold hp hp' (fun _ => Or.inl (by rw [hcb]; exact nofun)) rfl
  | restart _ hstage | toCancel hstage | noTimer hstage | acquire hstage | register hstage =>
    exact hold hp' rfl (fun _ => Or.inr (Or.inl (by rw [hstage]; rfl))) rfl
  | exitted hp hstage | noFork hp hstage | fork hp hstage =>
    exact hold hp hp' (fun _ => Or.inr (Or.inl (by rw [hstage]; rfl))) rfl
  | free | waited => cases hp'
  | noCall hp | store hp | restore hp | mark hp | timer hp =>
    exact hold hp hp' (by cases hp'; exact fun ho => ho) rfl
  | callback hp hcb =>
    exact hold hp hp' (fun _ => Or.inl (by rw [hcb]; exact nofun)) rfl

/-- The flags of an entry stay, and `stopping` is not taken back. -/
theorem Move.steady {id : Nat} {v v' : View} (h : Move id v out v') {p p' : Proc}
    (hp : v.proc = some p) (hp' : v'.proc = some p') :
    p'.flags = p.flags ∧ (p.stopping = true → p'.stopping = true) := by
  have hset : ∀ {q r : Proc}, v.proc = some q → some r = some p' → r.flags = q.flags →
      (q.stopping = true → r.stopping = true) →
      p'.flags = p.flags ∧ (p.stopping = true → p'.stopping = true) := by
    rintro q r hq ⟨⟩ hflags hstopping
    cases hp.symm.trans hq
    exact ⟨hflags, hstopping⟩
  cases h with
  | start hblank =>
    subst hblank
    cases hp
  | free | waited => cases hp'
  | found hq | collect hq | exitted hq | noFork hq | fork hq | noCall hq | store hq | restore hq
  | timer hq | callback hq => exact hset hq hp' rfl fun hs => hs
  | mark hq => exact hset hq hp' rfl fun _ => rfl
  | _ => exact hset hp' rfl rfl fun hs => hs

/-- A termination stays in the hands of the callback or of the scan, until the scan is done. -/
theorem Move.handled {id : Nat} {v v' : View} (h : Move id v out v') (hs : v.Sound)
    (hwaited : ∀ st p, out = .waited id st → v.proc = some p → p.exitted = true) {p : Proc}
    (hp : v.proc = some p) (hopen : p.cbstate ≠ none ∨ v.stage.busy = true) :
    (∃ p', v'.proc = some p' ∧ (p'.cbstate ≠ none ∨ v'.stage.busy = true)) ∨
      v.stage.busy = true ∧ v'.stage = .next := by
  have hkeep : ∀ {q r : Proc}, v.proc = some q → v'.proc = some r → v'.stage = v.stage →
      (q.cbstate ≠ none → r.cbstate ≠ none) →
      ∃ p', v'.proc = some p' ∧ (p'.cbstate ≠ none ∨ v'.stage.busy = true) := by
    intro q r hq hr hstage hcb
    cases hp.symm.trans hq
    exact ⟨r, hr, hopen.imp hcb fun hbusy => by rw [hstage]; exact hbusy⟩
  have hleft : ∀ {stage : Stage}, v.stage = stage → stage.busy = true → v'.stage = .next →
      v.stage.busy = true ∧ v'.stage = .next := by
    rintro stage rfl hbusy hnext
    exact ⟨hbusy, hnext⟩
  cases h with
  | start hblank =>
    subst hblank
    cases hp
  | found hq hstage hpid =>
    cases hp.symm.trans hq
    obtain ⟨hcb, -, hnext, -⟩ := (hs p hp).running hpid
    rw [hcb, hnext] at hopen
    rcases hopen with hcb | hbusy
    · exact absurd rfl hcb
    · cases hbusy
  | waited hq =>
    have hexit := hwaited _ p rfl hp
    have honce := (hs p hp).once
    simp only [View.phases, hexit, Bool.toNat_true] at honce
    rcases hopen with hcb | hbusy
    · rw [Option.isSome_iff_ne_none.mpr hcb, Bool.toNat_true] at honce
      omega
    · rw [hbusy, Bool.toNat_true] at honce
      omega
  | collect hq => exact Or.inl ⟨_, rfl, Or.inr rfl⟩
  | restart hq => exact Or.inl ⟨_, hq, Or.inr rfl⟩
  | toCancel | acquire => exact Or.inl ⟨_, hp, Or.inr rfl⟩
  | exitted _ hstage | noFork _ hstage | fork _ hstage | noTimer hstage | register hstage =>
    exact Or.inr (hleft hstage rfl rfl)
  | free hstage =>
    rcases hstage with ⟨_, hstage⟩ | ⟨_, hstage⟩
    · exact Or.inr (hleft hstage rfl rfl)
    · exact Or.inr (hleft hstage rfl rfl)
  | noCall hq | store hq | restore hq | mark hq | timer hq =>
    exact Or.inl (hkeep hq rfl rfl fun hcb => hcb)
  | callback hq => exact Or.inl (hkeep hq rfl rfl fun _ => (by rintro ⟨⟩))
  | _ => exact Or.inl (hkeep hp hp rfl fun hcb => hcb)

theorem finished_old (h : Steps s e out s') (he : ∀ i r, e ≠ .callback i r) {id : Nat} {p' : Proc}
    {result : Int} (hp' : s'.procs id = some p') (hcb : p'.cbstate = some (.finished result)) :
    ∃ p, s.procs id = some p ∧ p.cbstate = some (.finished result) := by
  have hset : ∀ {i p q}, s.procs i = some p → s'.procs = Function.update s.procs i (some q) →
      (q.cbstate = some (.finished result) → p.cbstate = some (.finished result)) →
      ∃ p, s.procs id = some p ∧ p.cbstate = some (.finished result) := by
    intro i p q hp hprocs hold
    rw [hprocs] at hp'
    by_cases hi : id = i
    · subst hi
      rw [Function.update_self] at hp'
      cases hp'
      exact ⟨p, hp, hold hcb⟩
    · rw [Function.update_of_ne hi] at hp'
      exact ⟨p', hp', hcb⟩
  have hfree : ∀ {i}, s'.procs = Function.update s.procs i none →
      ∃ p, s.procs id = some p ∧ p.cbstate = some (.finished result) := by
    intro i hprocs
    rw [hprocs] at hp'
    by_cases hi : id = i
    · subst hi
      rw [Function.update_self] at hp'
      cases hp'
    · rw [Function.update_of_ne hi] at hp'
      exact ⟨p', hp', hcb⟩
  cases h with
  | monitor h =>
    cases h with
    | found _ hp _ hstage =>
      refine hset hp rfl fun hq => ?_
      dsimp only at hq
      rcases hstage with ⟨-, rfl⟩ | ⟨-, rfl | rfl⟩
      · cases hq
      · cases hq
      · exact hq
    | collect _ hp => exact hset hp rfl nofun
    | exitted _ hp | noFork _ hp | fork _ hp => exact hset hp rfl fun hq => hq
    | free | cancel => exact hfree rfl
    | _ => exact ⟨p', hp', hcb⟩
  | timers h =>
    cases h with
    | noFork _ _ _ hp | store _ hp | restore _ hp => exact hset hp rfl fun hq => hq
    | _ => exact ⟨p', hp', hcb⟩
  | caller h =>
    cases h with
    | start =>
      dsimp only [State.setProc] at hp'
      by_cases hi : id = s.nextId
      · subst hi
        rw [Function.update_self] at hp'
        cases hp'
        cases hcb
      · rw [Function.update_of_ne hi] at hp'
        exact ⟨p', hp', hcb⟩
    | free | cancel => exact hfree rfl
    | mark _ hp | noTimer _ hp | store _ hp => exact hset hp rfl fun hq => hq
    | _ => exact ⟨p', hp', hcb⟩
  | callback => exact absurd rfl (he _ _)
  | _ => exact ⟨p', hp', hcb⟩

/-! ## The run invariant -/

/-- What `waitpid` gave to the pass. -/
def MonitorPc.reaped? : MonitorPc → Target
  | .reaped target => target
  | .scan target _ _ => target
  | _ => none

/-- What the notes say of the entry that the scan handles. -/
def Stage.Told (n : Notes) (id : Nat) (p : Proc) : Stage → Prop
  | .next => True
  | .deciding _ result => n.answer id = result
  | .restarting _ => Policy n id p.flags
  | .registering _ => Policy n id p.flags
  | .cancelling _ _ => p.stopping = true ∨ ¬Policy n id p.flags

/-- The notes agree with the children that were not reaped, with what was reaped last, and with the
    exit status of the entries. -/
structure Seen (s : State τ) (n : Notes) : Prop where
  died : ∀ pid owner status, s.children pid = some ⟨owner, some status⟩ →
    n.died pid = some status
  reaped : ∀ pid status, s.monitor.reaped? = some (pid, status) → n.reaped = some status
  ended : ∀ id, (s.view id).Ended (n.ended id)

/-- They also agree with the exit callbacks and with the scan. -/
structure Told (s : State τ) (n : Notes) : Prop extends Seen s n where
  finished : ∀ id p result, s.procs id = some p → p.cbstate = some (.finished result) →
    n.answer id = result
  stage : ∀ id p, s.monitor.stage.entry = some id → s.procs id = some p →
    s.monitor.stage.Told n id p
  unsettled : ∀ id, n.unsettled id = true → (∃ pid, Owed s pid id) ∨
    ∃ p, s.procs id = some p ∧ (p.cbstate ≠ none ∨ (s.view id).stage.busy = true)

omit [DecidableEq τ] in
theorem init_seen : Seen (init : State τ) Notes.init where
  died _ _ _ h := nomatch h
  reaped _ _ h := nomatch h
  ended _ _ h := nomatch h

omit [DecidableEq τ] in
theorem init_told : Told (init : State τ) Notes.init where
  toSeen := init_seen
  finished _ _ _ h := nomatch h
  stage _ _ h := nomatch h
  unsettled _ h := nomatch h

theorem seen_died (hs : Seen s n) (h : Steps s e out s') {pid status : Nat} {owner : Option Nat}
    (hchild : s'.children pid = some ⟨owner, some status⟩) :
    (note n s e out s').died pid = some status := by
  have hsame : (∀ pid status, e ≠ .die pid status) → s'.children = s.children →
      (note n s e out s').died pid = some status := by
    intro hdie heq
    rw [note_died hdie]
    rw [heq] at hchild
    exact hs.died pid owner status hchild
  have hset : ∀ {q c}, (∀ pid status, e ≠ .die pid status) →
      s'.children = Function.update s.children q c →
      (∀ owner status, c ≠ some ⟨owner, some status⟩) →
      (note n s e out s').died pid = some status := by
    intro q c hdie heq hc
    rw [note_died hdie]
    rw [heq] at hchild
    by_cases hq : pid = q
    · subst hq
      rw [Function.update_self] at hchild
      exact absurd hchild (hc owner status)
    · rw [Function.update_of_ne hq] at hchild
      exact hs.died pid owner status hchild
  cases h with
  | monitor h =>
    cases h with
    | reap | fork => exact hset nofun rfl nofun
    | _ => exact hsame nofun rfl
  | timers h =>
    cases h with
    | fork => exact hset nofun rfl nofun
    | _ => exact hsame nofun rfl
  | caller h =>
    cases h with
    | start => exact hset nofun rfl nofun
    | _ => exact hsame nofun rfl
  | @die q status' owner' =>
    rw [note_die (by rfl)]
    dsimp only at hchild ⊢
    by_cases hq : pid = q
    · subst hq
      rw [Function.update_self] at hchild ⊢
      cases hchild
      rfl
    · rw [Function.update_of_ne hq] at hchild ⊢
      exact hs.died pid owner status hchild
  | spawn => exact hset nofun rfl nofun
  | callback | shutdown => exact hsame nofun rfl

theorem seen_reaped (hs : Seen s n) (h : Steps s e out s') {pid status : Nat}
    (htarget : s'.monitor.reaped? = some (pid, status)) :
    (note n s e out s').reaped = some status := by
  have hsame : (∀ pid owner, out ≠ .reaped pid owner) → s'.monitor.reaped? = s.monitor.reaped? →
      (note n s e out s').reaped = some status := by
    intro hreaped heq
    rw [note_reaped hreaped]
    rw [heq] at htarget
    exact hs.reaped pid status htarget
  have hscan : ∀ {target todo stage todo' stage'}, s.monitor = .scan target todo stage →
      s'.monitor = .scan target todo' stage' → (∀ pid owner, out ≠ .reaped pid owner) →
      (note n s e out s').reaped = some status := by
    intro target todo stage todo' stage' hpc hpc' hreaped
    exact hsame hreaped (by rw [hpc, hpc']; rfl)
  cases h with
  | monitor h =>
    cases h with
    | none | exit | unlock => cases htarget
    | @reap q status' owner hpc hchild =>
      cases htarget
      rw [note_reap (by rw [hpc]; rfl)]
      exact hs.died pid _ status hchild
    | lock hpc => exact hsame nofun (by rw [hpc]; rfl)
    | found hpc | collect hpc | skip hpc | restart hpc | exitted hpc | toCancel hpc | free hpc
    | noFork hpc | fork hpc | noTimer hpc | acquire hpc | register hpc | cancel hpc =>
      exact hscan hpc rfl nofun
  | timers h | caller h =>
    refine hsame ?_ ?_
    · cases h <;> exact nofun
    · cases h <;> rfl
  | _ => exact hsame nofun rfl

theorem seen_ended (hs : Seen s n) (hc : Coherent s) (h : Steps s e out s') (id : Nat) :
    (s'.view id).Ended ((note n s e out s').ended id) := by
  by_cases hfound : ∃ pid, out = .found id pid
  · obtain ⟨pid, rfl⟩ := hfound
    cases h with
    | monitor h =>
      cases h with
      | @found q status _ todo p d stage cbstate hpc hp =>
        rw [note_found (by rw [hpc]; rfl)]
        intro p' hp' _
        simp only [State.view, State.setProc, Function.update_self, Option.some.injEq] at hp' ⊢
        rw [← hp', hs.reaped pid status (by rw [hpc]; rfl)]
        exact ⟨status, rfl, rfl⟩
    | timers h | caller h => cases h
  · have hnot : ∀ pid, out ≠ .found id pid := fun pid heq => hfound ⟨pid, heq⟩
    rw [note_ended hnot]
    exact (step_move hc h id).ended hnot (hs.ended id)

theorem step_seen (hs : Seen s n) (hc : Coherent s) (h : Steps s e out s') :
    Seen s' (note n s e out s') where
  died _ _ _ hchild := seen_died hs h hchild
  reaped _ _ htarget := seen_reaped hs h htarget
  ended := seen_ended hs hc h

/-- What an exit callback has answered is noted. -/
theorem told_finished (ht : Told s n) (hs : ∀ id, (s.view id).Sound) (h : Steps s e out s')
    {id : Nat} {p' : Proc} {result : Int} (hp' : s'.procs id = some p')
    (hcb : p'.cbstate = some (.finished result)) :
    (note n s e out s').answer id = result := by
  by_cases he : ∃ i r, e = .callback i r
  · obtain ⟨i, r, rfl⟩ := he
    cases h with
    | callback hp =>
      rw [note_callback (by rfl)]
      dsimp only [State.setProc] at hp' ⊢
      by_cases hi : id = i
      · subst hi
        rw [Function.update_self] at hp' ⊢
        cases hp'
        cases hcb
        rfl
      · rw [Function.update_of_ne hi] at hp' ⊢
        exact ht.finished id p' result hp' hcb
  · have hnot : ∀ i r, e ≠ .callback i r := fun i r heq => he ⟨i, r, heq⟩
    obtain ⟨p, hp, hold⟩ := finished_old h hnot hp' hcb
    rw [note_answer (fun pid heq => ?_) (hnot id)]
    · exact ht.finished id p result hp hold
    · -- an entry with a pid has no callback
      subst heq
      cases h with
      | monitor h =>
        cases h with
        | found _ hq hpid =>
          cases hp.symm.trans hq
          obtain ⟨hnone, -⟩ := (hs id p hp).running hpid
          rw [hnone] at hold
          cases hold
      | timers h | caller h => cases h

/-! ## The decision -/

omit [DecidableEq τ] in
theorem busy_iff {id : Nat} :
    (s.view id).stage.busy = true ↔ s.monitor.stage.entry = some id := by
  show (s.stageAt id).busy = true ↔ _
  unfold State.stageAt
  split
  · rename_i hentry
    refine ⟨fun _ => hentry, fun _ => ?_⟩
    cases hstage : s.monitor.stage with
    | next =>
      rw [hstage] at hentry
      cases hentry
    | _ => rfl
  · rename_i hentry
    exact ⟨nofun, fun h => absurd h hentry⟩

theorem policy_congr {n' : Notes} {id : Nat} {flags : Flags} (hended : n'.ended id = n.ended id)
    (hanswer : n'.answer id = n.answer id) : Policy n' id flags ↔ Policy n id flags := by
  unfold Policy
  rw [hended, hanswer]

theorem Stage.Told.congr {n' : Notes} {id : Nat} {p p' : Proc} {stage : Stage}
    (h : stage.Told n id p) (hended : n'.ended id = n.ended id)
    (hanswer : n'.answer id = n.answer id) (hflags : p'.flags = p.flags)
    (hstopping : p.stopping = true → p'.stopping = true) : stage.Told n' id p' := by
  have hpolicy : Policy n' id p'.flags ↔ Policy n id p.flags := by
    rw [hflags]
    exact policy_congr hended hanswer
  cases stage with
  | next => trivial
  | deciding i result => exact hanswer.trans h
  | restarting i | registering i => exact hpolicy.mpr h
  | cancelling i timer => exact h.imp hstopping fun hno => mt hpolicy.mp hno

theorem policy_of_restarts {id : Nat} {p : Proc} {result : Int} (hanswer : n.answer id = result)
    (hended : ∃ status, n.ended id = some status ∧ p.exitStatus = wexitstatus status)
    (h : restarts p result = true) : Policy n id p.flags := by
  obtain ⟨status, hstatus, hexit⟩ := hended
  simp only [restarts, Bool.and_eq_true, Bool.or_eq_true, decide_eq_true_eq] at h
  obtain ⟨⟨hzero, halways | ⟨hne, hauto⟩⟩, -⟩ := h
  · exact ⟨hanswer.trans hzero, Or.inl halways⟩
  · refine ⟨hanswer.trans hzero, Or.inr ⟨hauto, status, hstatus, Or.inr ?_⟩⟩
    rw [← hexit]
    exact hne

/-- What the monitor does not restart is not due, unless a signal killed it. -/
theorem not_policy {id : Nat} {p : Proc} {result : Int} (hanswer : n.answer id = result)
    (hended : ∃ status, n.ended id = some status ∧ p.exitStatus = wexitstatus status)
    (hexits : p.flags.autorestart = true → p.flags.autorestartAlways = false → n.answer id = 0 →
      ∀ status ∈ n.ended id, status % 128 = 0)
    (h : restarts p result = false) (hstopping : p.stopping = false) : ¬Policy n id p.flags := by
  rintro ⟨hzero, hdue⟩
  obtain ⟨status, hstatus, hexit⟩ := hended
  have hrestart : restarts p result = true := by
    simp only [restarts, Bool.and_eq_true, Bool.or_eq_true, decide_eq_true_eq, hstopping,
      Bool.not_false, and_true]
    refine ⟨hanswer.symm.trans hzero, ?_⟩
    by_cases halways : p.flags.autorestartAlways = true
    · exact Or.inl halways
    · obtain ⟨hauto, status', hstatus', habnormal⟩ := hdue.resolve_left halways
      cases hstatus.symm.trans hstatus'
      refine Or.inr ⟨?_, hauto⟩
      rw [hexit]
      exact habnormal.resolve_left fun hsignal =>
        hsignal (hexits hauto (Bool.eq_false_iff.mpr halways) hzero status hstatus)
  rw [hrestart] at h
  cases h

omit [DecidableEq τ] in
/-- **The monitor decides** by the policy. -/
theorem decide_told {m : MonitorEvent} (ht : Told s n) (hok : Policed (s, n) (.monitor m))
    (h : MonitorStep s m out s') {id : Nat} {p' : Proc}
    (hentry : s'.monitor.stage.entry = some id) (hp' : s'.procs id = some p') :
    s'.monitor.stage.Told (note n s (.monitor m) out s') id p' := by
  have hended : ∀ {p}, s.monitor.stage.entry = some id → s.procs id = some p →
      ∃ status, n.ended id = some status ∧ p.exitStatus = wexitstatus status := fun hentry hp =>
    ht.ended id _ hp (Or.inr (Or.inl (busy_iff.mpr hentry)))
  have hcongr : ∀ {flags : Flags}, (∀ pid, out ≠ .found id pid) →
      (Policy (note n s (.monitor m) out s') id flags ↔ Policy n id flags) := fun hfound =>
    policy_congr (note_ended hfound) (note_answer hfound nofun)
  have hanswered : (∀ pid, out ≠ .found id pid) →
      (note n s (.monitor m) out s').answer id = n.answer id := fun hfound =>
    note_answer hfound nofun
  cases h with
  | found hpc hp hpid hstage =>
    rcases hstage with ⟨rfl, -⟩ | ⟨rfl, -⟩
    · cases hentry
    · cases hentry
      rw [note_found (by rw [hpc]; rfl)]
      exact Function.update_self _ _ _
  | collect hpc hp hpid hcb =>
    cases hentry
    exact (hanswered nofun).trans (ht.finished _ _ _ hp hcb)
  | @restart target i todo p cbresult hpc hp hrestart =>
    cases hentry
    cases hp.symm.trans hp'
    have hat : s.monitor.stage.entry = some id := by rw [hpc]; rfl
    have hanswer := ht.stage id p' hat hp
    rw [hpc] at hanswer
    exact (hcongr nofun).mpr (policy_of_restarts hanswer (hended hat hp) hrestart)
  | @toCancel target i timer todo p cbresult hpc hp hrestart =>
    cases hentry
    cases hp.symm.trans hp'
    have hat : s.monitor.stage.entry = some id := by rw [hpc]; rfl
    have hanswer := ht.stage id p' hat hp
    rw [hpc] at hanswer
    by_cases hstopping : p'.stopping = true
    · exact Or.inl hstopping
    · rw [Bool.not_eq_true] at hstopping
      refine Or.inr (mt (hcongr nofun).mp ?_)
      exact not_policy hanswer (hended hat hp) (hok.2.2 rfl id hat p' hp hstopping) hrestart
        hstopping
  | acquire hpc =>
    cases hentry
    have hold := ht.stage id p' (by rw [hpc]; rfl) hp'
    rw [hpc] at hold
    exact (hcongr nofun).mpr hold
  | _ => cases hentry

theorem told_stage (ht : Told s n) (hr : Reaps s) (hok : Policed (s, n) e) (h : Steps s e out s')
    {id : Nat} {p' : Proc} (hentry : s'.monitor.stage.entry = some id)
    (hp' : s'.procs id = some p') :
    s'.monitor.stage.Told (note n s e out s') id p' := by
  have hc := hr.tracked.coherent
  have hs := hr.tracked.sound
  -- the scan stays at the entry
  have hsame : s'.monitor = s.monitor → (∀ pid, out ≠ .found id pid) →
      s'.monitor.stage.Told (note n s e out s') id p' := by
    intro hmonitor hfound
    rw [hmonitor] at hentry ⊢
    have hbusy := busy_iff.mpr hentry
    obtain ⟨p, hp⟩ : ∃ p, s.procs id = some p := by
      rcases (step_move hc h id).kept hp' with ⟨p, hp, -⟩ | ⟨-, pid, rfl⟩
      · exact ⟨p, hp⟩
      · refine (forked_cases h).resolve_right ?_
        rintro ⟨rfl, -⟩
        rw [hc.fresh _ (Nat.le_refl _)] at hbusy
        cases hbusy
    obtain ⟨hflags, hstopping⟩ := (step_move hc h id).steady hp hp'
    refine (ht.stage id p hentry hp).congr (note_ended hfound) (note_answer hfound ?_) hflags
      hstopping
    -- no callback runs for it
    rintro r rfl
    cases h with
    | callback hq hcb =>
      cases hp.symm.trans hq
      have honce := (hs id p hp).once
      simp only [View.phases, hbusy, hcb, Option.isSome_some, Bool.toNat_true] at honce
      omega
  cases h with
  | monitor h => exact decide_told ht hok h hentry hp'
  | timers h | caller h =>
    refine hsame ?_ ?_
    · cases h <;> rfl
    · cases h <;> rintro _ ⟨⟩
  | _ => exact hsame rfl (by rintro _ ⟨⟩)

theorem stage_after (h : Steps s e out s') {id : Nat} (hentry : s.monitor.stage.entry = some id) :
    s'.monitor.stage.entry = some id ∨ s'.monitor.stage = .next := by
  have hsame : s'.monitor = s.monitor → s'.monitor.stage.entry = some id := by
    intro heq
    rw [heq]
    exact hentry
  cases h with
  | monitor h =>
    cases h with
    | restart hpc | toCancel hpc | acquire hpc =>
      rw [hpc] at hentry
      exact Or.inl hentry
    | found hpc | collect hpc =>
      rw [hpc] at hentry
      cases hentry
    | _ => exact Or.inr rfl
  | timers h | caller h => exact Or.inl (hsame (by cases h <;> rfl))
  | _ => exact Or.inl (hsame rfl)

theorem found_handled {id pid : Nat} (h : Steps s e (.found id pid) s') :
    ∃ p', s'.procs id = some p' ∧ (p'.cbstate ≠ none ∨ (s'.view id).stage.busy = true) := by
  cases h with
  | monitor h =>
    cases h with
    | found hpc hp hpid hstage =>
      refine ⟨_, Function.update_self _ _ _, ?_⟩
      rcases hstage with ⟨-, rfl⟩ | ⟨rfl, -⟩
      · exact Or.inl nofun
      · exact Or.inr (busy_iff.mpr rfl)
  | timers h | caller h => cases h

theorem told_unsettled (ht : Told s n) (hr : Reaps s) (hok : Caught s e) (h : Steps s e out s')
    {id : Nat} (hopen : (note n s e out s').unsettled id = true) :
    (∃ pid, Owed s' pid id) ∨
      ∃ p, s'.procs id = some p ∧ (p.cbstate ≠ none ∨ (s'.view id).stage.busy = true) := by
  obtain ⟨hleaves, hold | ⟨pid, rfl⟩⟩ := note_unsettled hopen
  · rcases ht.unsettled id hold with ⟨pid, howed⟩ | ⟨p, hp, hhandled⟩
    · rcases howed.step hr hok h with rfl | howed
      · exact Or.inr (found_handled h)
      · exact Or.inl ⟨pid, howed⟩
    · have hmove := step_move hr.tracked.coherent h id
      rcases hmove.handled (hr.tracked.sound id)
        (fun st q hout hq => waited_exitted hr.waits hok.2.2 h hout hq) hp hhandled with
        hstill | ⟨hbusy, hnext⟩
      · exact Or.inr hstill
      · -- the scan is done with it, which is noted
        have hentry := busy_iff.mp hbusy
        refine absurd ?_ hleaves
        rcases stage_after h hentry with hat | hdone
        · have hbusy' := busy_iff.mpr hat
          rw [hnext] at hbusy'
          cases hbusy'
        · exact (if_pos hdone).trans hentry
  · exact Or.inl ⟨pid, reaped_owed hr hok h⟩

theorem step_told (ht : Told s n) (hr : Reaps s) (hok : Policed (s, n) e) (h : Steps s e out s') :
    Told s' (note n s e out s') where
  toSeen := step_seen ht.toSeen hr.tracked.coherent h
  finished _ _ _ hp' hcb := told_finished ht hr.tracked.sound h hp' hcb
  stage _ _ hentry hp' := told_stage ht hr hok h hentry hp'
  unsettled _ hopen := told_unsettled ht hr hok.1 h hopen

/-! ## The policy -/

theorem leaves_cases (h : Steps s e out s') {id : Nat} (hleaves : leaves s s' = some id) :
    s.monitor.stage.entry = some id ∧ ∃ m, e = .monitor m ∧ MonitorStep s m out s' := by
  have hentry : s.monitor.stage.entry = some id := by
    unfold leaves at hleaves
    split at hleaves
    · exact hleaves
    · cases hleaves
  have hmoved : s'.monitor ≠ s.monitor := fun heq => by
    rw [leaves_same heq] at hleaves
    cases hleaves
  refine ⟨hentry, ?_⟩
  cases h with
  | monitor h => exact ⟨_, rfl, h⟩
  | timers h | caller h => exact absurd (by cases h <;> rfl) hmoved
  | _ => exact absurd rfl hmoved

/-- The scan is done with an entry by a restart that is due, or by letting it go. -/
theorem leaves_policy (ht : Told s n) (hr : Reaps s) (hok : Policed (s, n) e)
    (h : Steps s e out s') {id : Nat} (hleaves : leaves s s' = some id) :
    (Schedules s s' out id ∧ ∀ p, s.procs id = some p → Policy n id p.flags) ∨
      (¬Schedules s s' out id ∧
        (∀ p, s.procs id = some p → p.stopping = true ∨ ¬Policy n id p.flags) ∧
        (id ∉ s'.list ∨ ∃ p, s'.procs id = some p ∧ p.exitted = true ∧ p.flags.wait = true)) := by
  obtain ⟨hentry, m, rfl, hstep⟩ := leaves_cases h hleaves
  have hc := hr.tracked.coherent
  have hended : ∀ p, s.procs id = some p →
      ∃ status, n.ended id = some status ∧ p.exitStatus = wexitstatus status := fun p hp =>
    ht.ended id p hp (Or.inr (Or.inl (busy_iff.mpr hentry)))
  have hno : (s'.view id).timers ≤ (s.view id).timers → (∀ pid, out ≠ .forked id pid) →
      ¬Schedules s s' out id := by
    rintro hle hout (hmore | ⟨pid, hforked⟩)
    · omega
    · exact hout pid hforked
  have hgone : ∀ {l : List Nat}, l = listRemove s.list id → id ∉ l := by
    rintro l rfl hmem
    exact (hc.nodup.mem_erase_iff.mp hmem).1 rfl
  -- the test said no
  have hdecided : ∀ {target todo cbresult p}, m = .decide →
      s.monitor = .scan target todo (.deciding id cbresult) → s.procs id = some p →
      restarts p cbresult = false →
      ∀ q, s.procs id = some q → q.stopping = true ∨ ¬Policy n id q.flags := by
    rintro target todo cbresult p rfl hpc hp hrestart q hq
    cases hp.symm.trans hq
    have hanswer := ht.stage id p hentry hp
    rw [hpc] at hanswer
    by_cases hstopping : p.stopping = true
    · exact Or.inl hstopping
    · rw [Bool.not_eq_true] at hstopping
      exact Or.inr (not_policy hanswer (hended p hp) (hok.2.2 rfl id hentry p hp hstopping)
        hrestart hstopping)
  -- what it said holds until the scan is done
  have hkept : ∀ {target todo stage}, s.monitor = .scan target todo stage →
      ∀ p, s.procs id = some p → stage.Told n id p := by
    intro target todo stage hpc p hp
    have htold := ht.stage id p hentry hp
    rw [hpc] at htold
    exact htold
  have hat : ∀ {target todo stage i}, s.monitor = .scan target todo stage →
      stage.entry = some i → i = id := by
    intro target todo stage i hpc hi
    rw [hpc] at hentry
    exact Option.some.inj (hi.symm.trans hentry)
  cases hstep with
  | exitted hpc hp hrestart hwait =>
    obtain rfl := hat hpc rfl
    refine Or.inr ⟨hno (Nat.le_refl _) nofun, hdecided rfl hpc hp hrestart, Or.inr ?_⟩
    exact ⟨_, Function.update_self _ _ _, rfl, hwait⟩
  | free hpc hp hrestart =>
    obtain rfl := hat hpc rfl
    exact Or.inr ⟨hno (Nat.le_refl _) nofun, hdecided rfl hpc hp hrestart, Or.inl (hgone rfl)⟩
  | noFork hpc | fork hpc =>
    obtain rfl := hat hpc rfl
    exact Or.inl ⟨Or.inr ⟨_, rfl⟩, hkept hpc⟩
  | noTimer => exact absurd rfl hok.2.1
  | register hpc =>
    obtain rfl := hat hpc rfl
    refine Or.inl ⟨Or.inl ?_, hkept hpc⟩
    simp [State.view, State.addTimer, listAdd, Timer.restarts]
  | cancel hpc =>
    obtain rfl := hat hpc rfl
    refine Or.inr ⟨hno ?_ nofun, hkept hpc, Or.inl (hgone rfl)⟩
    exact List.Sublist.countP_le List.eraseP_sublist
  | none hpc | reap hpc | exit hpc | lock hpc | found hpc | collect hpc | skip hpc | unlock hpc =>
    rw [hpc] at hentry
    cases hentry
  | restart | toCancel | acquire => cases hleaves

/-- **The restart policy**: in every run whose steps meet the condition, the monitor schedules a
    restart after the termination of a process that is not being stopped if and only if one is due;
    otherwise the entry leaves the list or is kept for its waiter. -/
theorem restart_policy {tr : List (Event τ × Outcome)} {x : State τ × Notes}
    (h : Run (Guarded (observed step note) Policed) (init, Notes.init) tr x) :
    Followed (Guarded (observed step note) Policed) x := by
  have hinv : Reaps x.1 ∧ Told x.1 x.2 := by
    refine h.invariant (P := fun x => Reaps x.1 ∧ Told x.1 x.2) ⟨init_reaps, init_told⟩ ?_
    rintro ⟨s, n⟩ ⟨e, out⟩ ⟨s', n'⟩ ⟨hr, ht⟩ ⟨hok, hstep⟩
    obtain ⟨hplain, hnote⟩ := step_observed.mp hstep
    dsimp only at hplain hnote
    subst hnote
    have hsteps := step_cases hplain
    exact ⟨step_reaps hr hok.1 hsteps, step_told ht hr hok hsteps⟩
  obtain ⟨hr, ht⟩ := hinv
  obtain ⟨s, n⟩ := x
  refine ⟨?_, ?_, ?_⟩
  · rintro ⟨e, out⟩ ⟨s', n'⟩ ⟨hok, hstep⟩ id hleaves p hp hstopping
    have hsteps := step_cases (step_observed.mp hstep).1
    rcases leaves_policy ht hr hok hsteps hleaves with ⟨hyes, hdue⟩ | ⟨hno, hnot, -⟩
    · exact iff_of_true hyes (hdue p hp)
    · refine iff_of_false hno ((hnot p hp).resolve_left ?_)
      rw [hstopping]
      exact nofun
  · rintro ⟨e, out⟩ ⟨s', n'⟩ ⟨hok, hstep⟩ id hleaves hnone
    have hsteps := step_cases (step_observed.mp hstep).1
    rcases leaves_policy ht hr hok hsteps hleaves with ⟨hyes, -⟩ | ⟨-, -, hgone⟩
    · exact absurd hyes hnone
    · exact hgone
  · intro hpoll id hopen
    dsimp only at hpoll
    rcases ht.unsettled id hopen with ⟨pid, ⟨htarget, -⟩, -⟩ | ⟨p, hp, hhandled⟩
    · rw [hpoll] at htarget
      cases htarget
    · refine ⟨p, hp, hhandled.resolve_right fun hbusy => ?_⟩
      have hentry := busy_iff.mp hbusy
      rw [hpoll] at hentry
      cases hentry

/-- A process with `AVBOX_PROCESS_AUTORESTART` dies with this wait status, and the monitor has found
    it. -/
def dieAndVisit (status : Nat) : List (Event Unit) :=
  [.caller () (.start ⟨false, false, true, false⟩ 5 false (some 100)), .die 100 status,
    .monitor (.waitpid (some 100)), .monitor .lock, .monitor (.visit false)]

/-- It exits with the code 1, and gets a restart timer. -/
theorem restart_policy_exit :
    ∃ tr x, Run (Guarded (observed step note) Policed) ((init : State Unit), Notes.init) tr x ∧
      (x.1.view 1).timers = 1 ∧ Followed (Guarded (observed step note) Policed) x := by
  obtain ⟨tr, x, hrun, htimers⟩ := exists_run_of_guarded_exec (observed step note) Policed
    ((init : State Unit), Notes.init) (fun _ x => (x.1.view 1).timers = 1)
    (dieAndVisit 256 ++ [Event.monitor .decide, .monitor (.acquire true), .monitor .register])
    (by decide +kernel)
  exact ⟨tr, x, hrun, htimers, restart_policy hrun⟩

/-- **A crash**: the process is killed by the signal 11, and its entry is freed. -/
theorem crash_not_restarted :
    ∃ tr x, Run (Step (observed step note)) ((init : State Unit), Notes.init) tr x ∧
      ¬Followed (Step (observed step note)) x := by
  obtain ⟨tr, ⟨s, n⟩, hrun, hpc, hp, hended, hanswer⟩ := exists_run_of_exec (observed step note)
    ((init : State Unit), Notes.init)
    (fun _ x => x.1.monitor = .scan (some (100, 11)) [] (.deciding 1 0) ∧
      x.1.procs 1 =
        some ⟨none, 0, false, false, none, 5, ⟨false, false, true, false⟩, false, none⟩ ∧
      x.2.ended 1 = some 11 ∧ x.2.answer 1 = 0)
    (dieAndVisit 11) (by decide +kernel)
  refine ⟨tr, (s, n), hrun, fun hfollowed => ?_⟩
  dsimp only at hpc hp hended hanswer
  have hfreed : ∃ s', step s (.monitor .decide) = some (s', .done) ∧ leaves s s' = some 1 ∧
      (s'.view 1).timers = (s.view 1).timers := by
    refine ⟨{ s with monitor := .scan (some (100, 11)) [] .next }.free 1, ?_, ?_, rfl⟩
    · simp [step, stepMonitor, hpc, hp, conclude, restarts]
    · rw [leaves, hpc]
      rfl
  obtain ⟨s', hstep, hleaves, htimers⟩ := hfreed
  have hiff := hfollowed.scheduled (.monitor .decide, .done)
    (s', note n s (.monitor .decide) .done s') (step_observed.mpr ⟨hstep, rfl⟩) 1 hleaves _ hp rfl
  rcases hiff.mpr ⟨hanswer, Or.inr ⟨rfl, 11, hended, Or.inl (by decide)⟩⟩ with hmore | ⟨_, hfork⟩
  · dsimp only at hmore
    omega
  · cases hfork

end Mediabox.Process
