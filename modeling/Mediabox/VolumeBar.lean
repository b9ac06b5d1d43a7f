import Mathlib.Logic.Function.Basic
import Mediabox.Lib.Outcome
import Mediabox.Lib.Transition

/-!
# The volume indicator (`src/shell.c`)

A change of the volume shows a window with a progress bar, and a timer removes them again.  Every
further change registers a new timer and cancels the old one, whose message may be under way.

* A step is a message of the shell, a timer that goes off, or another object that registers one.
  Messages are delivered in any order.
* What cannot be created is listed with the step.  Timer ids count up, as in `src/lib/timers.c`;
  `-1` is `none`.  Windows and widgets have serial numbers, which are not used again.
* Of the player's status messages only the clock is modelled, and of the clock only its timer.

Main result: `indicator_kept`.
-/

set_option autoImplicit false

namespace Mediabox.VolumeBar

open Outcome Transition

/-! ## The code -/

inductive Fault where
  /-- `assert(volumebar == NULL)` or `assert(volumebar_window == NULL)` -/
  | assert
  /-- a window or widget is used that is not there -/
  | freed
  deriving DecidableEq, Repr

structure Window where
  x : Int
  y : Int
  width : Int
  height : Int
  visible : Bool
  deriving DecidableEq, Repr

/-- `struct avbox_progressview`, with the window that it is in. -/
structure Progressview where
  parent : Nat
  min : Int
  max : Int
  value : Int
  deriving DecidableEq, Repr

structure Timer where
  id : Nat
  autoreload : Bool
  deriving DecidableEq, Repr

structure State where
  volumebarWindow : Option Nat
  volumebar : Option Nat
  volumebarTimerId : Option Nat
  /-- `some 0` when the clock was stopped -/
  clockTimerId : Option Nat
  windows : Nat → Option Window
  progressviews : Nat → Option Progressview
  /-- the number of the next window and its widget -/
  nextWindow : Nat
  timers : List Timer
  /-- the TIMER messages that are still to be delivered -/
  pending : List Nat
  nextId : Nat
  failed : Option Fault

def init : State where
  volumebarWindow := none
  volumebar := none
  volumebarTimerId := none
  clockTimerId := none
  windows _ := none
  progressviews _ := none
  nextWindow := 0
  timers := []
  pending := []
  nextId := 1
  failed := none

/-- What a pointer points to. -/
def deref {α : Type} (heap : Nat → Option α) (p : Option Nat) : Except Fault (Nat × α) :=
  match p with
  | none => .error .freed
  | some p =>
    match heap p with
    | none => .error .freed
    | some a => .ok (p, a)

/-- `avbox_window_show`, `avbox_window_hide` -/
def windowVisible (s : State) (window : Option Nat) (visible : Bool) : Except Fault State := do
  let (p, w) ← deref s.windows window
  .ok { s with windows := Function.update s.windows p (some { w with visible }) }

/-- `avbox_window_update`, which only draws. -/
def windowUpdate (s : State) (window : Option Nat) : Except Fault State := do
  let _ ← deref s.windows window
  .ok s

/-- `avbox_window_destroy` -/
def windowDestroy (s : State) (window : Option Nat) : Except Fault State := do
  let (p, _) ← deref s.windows window
  .ok { s with windows := Function.update s.windows p none }

/-- `avbox_progressview_setvalue`, whose result is ignored. -/
def progressviewSetvalue (s : State) (view : Option Nat) (value : Int) : Except Fault State := do
  let (p, v) ← deref s.progressviews view
  if value < v.min ∨ value > v.max then .ok s
  else .ok { s with progressviews := Function.update s.progressviews p (some { v with value }) }

/-- `avbox_progressview_destroy`, which removes it from its window. -/
def progressviewDestroy (s : State) (view : Option Nat) : Except Fault State := do
  let (p, v) ← deref s.progressviews view
  let _ ← deref s.windows (some v.parent)
  .ok { s with progressviews := Function.update s.progressviews p none }

/-- `avbox_timer_register` -/
def register (s : State) (autoreload registered : Bool) : State × Option Nat :=
  if registered then
    ({ s with timers := s.timers ++ [⟨s.nextId, autoreload⟩], nextId := s.nextId + 1 },
      some s.nextId)
  else (s, none)

/-- `avbox_timer_cancel` -/
def cancel (s : State) (id : Nat) : State := { s with timers := s.timers.eraseP (·.id == id) }

/-- Hide and destroy the indicator, which both functions do. -/
def takeDown (s : State) : Except Fault State := do
  let s ← windowVisible s s.volumebarWindow false
  let s ← progressviewDestroy s s.volumebar
  let s ← windowDestroy s s.volumebarWindow
  .ok { s with volumebar := none, volumebarWindow := none }

/-- `mbox_shell_dismissvolumebar` -/
def dismissvolumebar (s : State) (id : Nat) : Except Fault State :=
  if some id = s.volumebarTimerId then do
    let s ← takeDown s
    .ok { s with volumebarTimerId := none }
  else .ok s

/-- A change of the volume, the size of the screen, and what can be created. -/
structure Change where
  volume : Int
  width : Int
  height : Int
  window : Bool
  progressview : Bool
  timer : Bool
  deriving DecidableEq, Repr

/-- The first half of `mbox_shell_volumechanged` when no timer is running; the result says whether
    it goes on. -/
def create (s : State) (c : Change) : Except Fault (State × Bool) :=
  if s.volumebar.isSome ∨ s.volumebarWindow.isSome then .error .assert
  else
    let barWidth := (c.width * 70).tdiv 100
    let x := c.width.tdiv 2 - barWidth.tdiv 2
    let y := c.height - 150
    if !c.window then .ok ({ s with volumebarWindow := none }, false)
    else do
      let p := s.nextWindow
      let s := { s with
        windows := Function.update s.windows p (some ⟨x, y, barWidth, 40, false⟩)
        volumebarWindow := some p
        nextWindow := p + 1 }
      if !c.progressview then
        let s ← windowDestroy { s with volumebar := none } s.volumebarWindow
        .ok (s, false)
      else
        let s := { s with
          progressviews := Function.update s.progressviews p (some ⟨p, 0, 100, c.volume⟩)
          volumebar := some p }
        let s ← windowVisible s s.volumebarWindow true
        .ok (s, true)

/-- The second half of `mbox_shell_volumechanged`. -/
def renewTimer (s : State) (c : Change) : Except Fault State := do
  let s ← windowUpdate s s.volumebarWindow
  let (s, newTimerId) := register s false c.timer
  if newTimerId = none ∧ s.volumebarTimerId = none then takeDown s
  else
    let s := match s.volumebarTimerId with
      | some id => cancel s id
      | none => s
    .ok { s with volumebarTimerId := newTimerId }

/-- `mbox_shell_volumechanged` -/
def volumechanged (s : State) (c : Change) : Except Fault State :=
  if s.volumebarTimerId = none then do
    let (s, shown) ← create s c
    if shown then renewTimer s c else .ok s
  else do
    let s ← progressviewSetvalue s s.volumebar c.volume
    renewTimer s c

/-- `mbox_shell_startclock` -/
def startclock (s : State) (registered : Bool) : State :=
  let (s, id) := register s true registered
  { s with clockTimerId := id }

/-- In `mbox_shell_playerstatuschanged`, out of the READY state. -/
def stopclock (s : State) : State :=
  match s.clockTimerId with
  | some id =>
    if id ≠ 0 ∧ s.timers.any (·.id == id) then { cancel s id with clockTimerId := some 0 } else s
  | none => s

/-- The clock in `mbox_shell_playerstatuschanged`. -/
def playerstatuschanged (s : State) (ready registered : Bool) : State :=
  if !ready then stopclock s
  else if s.clockTimerId = some 0 then startclock s registered else s

inductive Event where
  /-- `mbox_shell_run` starts the clock -/
  | start (registered : Bool)
  | player (ready registered : Bool)
  | volume (c : Change)
  /-- a timer goes off and sends its message -/
  | expire (timer : Timer)
  /-- the message of a timer is delivered -/
  | timer (id : Nat)
  /-- another object registers a timer -/
  | other
  deriving DecidableEq, Repr

/-- What an event leaves, `none` where it is not possible. -/
def next (s : State) : Event → Option (Except Fault State)
  | .start registered => some (.ok (startclock s registered))
  | .player ready registered => some (.ok (playerstatuschanged s ready registered))
  | .volume c => some (volumechanged s c)
  | .expire timer =>
    if timer ∈ s.timers then
      some (.ok { s with
        timers := if timer.autoreload then s.timers else s.timers.erase timer
        pending := s.pending ++ [timer.id] })
    else none
  | .timer id =>
    if id ∈ s.pending then
      let s := { s with pending := s.pending.erase id }
      some (if some id = s.clockTimerId then .ok s else dismissvolumebar s id)
    else none
  | .other => some (.ok { s with nextId := s.nextId + 1 })

/-- One step, as long as nothing has failed. -/
def step (s : State) (e : Event) : Option (State × Unit) :=
  if s.failed.isSome then none
  else
    (next s e).map fun
      | .ok s' => (s', ())
      | .error f => ({ s with failed := some f }, ())

/-! ## What holds of it -/

/-- The timer will go off, or its message will be delivered. -/
def State.awaits (s : State) (id : Nat) : Prop := (∃ t ∈ s.timers, t.id = id) ∨ id ∈ s.pending

/-- What the indicator is in every state that is reached. -/
structure Kept (s : State) : Prop where
  volumebar : s.volumebar ≠ none ↔ s.volumebarTimerId ≠ none
  window : s.volumebarWindow ≠ none ↔ s.volumebarTimerId ≠ none
  awaited : ∀ id, s.volumebarTimerId = some id → s.awaits id
  /-- no assertion fails, and nothing is used after it was destroyed -/
  failed : s.failed = none

/-- The steps that go well: a window gets its progress bar, and a running timer is replaced. -/
def Granted (s : State) : Event → Prop
  | .volume c =>
    if s.volumebarTimerId = none then c.window = true → c.progressview = true else c.timer = true
  | _ => True

instance (s : State) : ∀ e, Decidable (Granted s e)
  | .volume c => inferInstanceAs (Decidable
      (if s.volumebarTimerId = none then c.window = true → c.progressview = true
        else c.timer = true))
  | .start _ => isTrue trivial
  | .player .. => isTrue trivial
  | .expire _ => isTrue trivial
  | .timer _ => isTrue trivial
  | .other => isTrue trivial

variable {s s' : State} {c : Change} {tr : List (Event × Unit)}

/-! ## Windows and widgets -/

/-- The indicator is there, with its progress bar in its window. -/
structure Shown (s : State) : Prop where
  view : ∃ q v, s.volumebar = some q ∧ s.progressviews q = some v ∧
    s.volumebarWindow = some v.parent
  window : ∃ p w, s.volumebarWindow = some p ∧ s.windows p = some w

/-- What is not drawn stays the same. -/
structure SameTimers (s s' : State) : Prop where
  volumebar : s'.volumebarTimerId = s.volumebarTimerId
  clock : s'.clockTimerId = s.clockTimerId
  timers : s'.timers = s.timers
  pending : s'.pending = s.pending
  nextId : s'.nextId = s.nextId
  failed : s'.failed = s.failed

theorem SameTimers.refl (s : State) : SameTimers s s := ⟨rfl, rfl, rfl, rfl, rfl, rfl⟩

theorem deref_some {α : Type} {heap : Nat → Option α} {p : Nat} {a : α} (h : heap p = some a) :
    deref heap (some p) = .ok (p, a) := by
  simp only [deref, h]

/-- **Taking the indicator down**: nothing is used after it was destroyed. -/
theorem takeDown_ensures (h : Shown s) :
    Ensures (takeDown s) (fun s' => SameTimers s s' ∧ s'.volumebar = none ∧
      s'.volumebarWindow = none) fun _ => False := by
  obtain ⟨q, v, hq, hv, hparent⟩ := h.view
  obtain ⟨p, w, hp, hw⟩ := h.window
  obtain rfl : v.parent = p := Option.some.inj (hparent.symm.trans hp)
  simp only [takeDown, windowVisible, progressviewDestroy, windowDestroy, ensures_bind, hp, hq,
    deref_some hw, deref_some hv, deref_some (Function.update_self v.parent _ s.windows),
    ensures_ok]
  exact ⟨⟨rfl, rfl, rfl, rfl, rfl, rfl⟩, trivial, trivial⟩

/-- **Setting the value** leaves the indicator there. -/
theorem progressviewSetvalue_ensures (h : Shown s) (value : Int) :
    Ensures (progressviewSetvalue s s.volumebar value) (fun s' => SameTimers s s' ∧ Shown s')
      fun _ => False := by
  obtain ⟨q, v, hq, hv, hparent⟩ := h.view
  simp only [progressviewSetvalue, ensures_bind, hq, deref_some hv, ensures_ok]
  split
  · exact ⟨SameTimers.refl s, h⟩
  · exact ⟨⟨rfl, rfl, rfl, rfl, rfl, rfl⟩,
      ⟨q, { v with value }, rfl, Function.update_self .., hparent⟩, h.window⟩

/-- **Creating the indicator**: it is there, or both pointers are NULL, if a window gets its
    progress bar. -/
theorem create_ensures (hbar : s.volumebar = none) (hwindow : s.volumebarWindow = none)
    (hc : c.window = true → c.progressview = true) :
    Ensures (create s c) (fun r => SameTimers s r.1 ∧
      (if r.2 then Shown r.1 else r.1.volumebar = none ∧ r.1.volumebarWindow = none))
      fun _ => False := by
  rw [create, if_neg (by simp [hbar, hwindow])]
  cases hw : c.window with
  | false => exact ⟨⟨rfl, rfl, rfl, rfl, rfl, rfl⟩, hbar, rfl⟩
  | true =>
    simp only [hc hw, Bool.not_true, Bool.false_eq_true, if_false, windowVisible, ensures_bind,
      deref_some (Function.update_self s.nextWindow _ s.windows), ensures_ok, if_true]
    exact ⟨⟨rfl, rfl, rfl, rfl, rfl, rfl⟩, ⟨_, _, rfl, Function.update_self .., rfl⟩,
      ⟨_, _, rfl, Function.update_self ..⟩⟩

/-! ## Timers -/

/-- The timer of the indicator is awaited, and is not that of the clock. -/
structure Timed (s : State) : Prop where
  nextId : 0 < s.nextId
  volumebar : ∀ id, s.volumebarTimerId = some id →
    0 < id ∧ id < s.nextId ∧ s.awaits id ∧ s.clockTimerId ≠ some id
  clock : ∀ id, s.clockTimerId = some id → id < s.nextId
  failed : s.failed = none

theorem SameTimers.awaits (h : SameTimers s s') {id : Nat} (hid : s.awaits id) : s'.awaits id := by
  rw [State.awaits, h.timers, h.pending]
  exact hid

theorem SameTimers.timed (h : SameTimers s s') (ht : Timed s) : Timed s' where
  nextId := h.nextId ▸ ht.nextId
  volumebar id hid := by
    obtain ⟨hpos, hlt, haw, hclock⟩ := ht.volumebar id (h.volumebar ▸ hid)
    exact ⟨hpos, h.nextId ▸ hlt, h.awaits haw, h.clock ▸ hclock⟩
  clock id hid := h.nextId ▸ ht.clock id (h.clock ▸ hid)
  failed := h.failed.trans ht.failed

/-- A timer that is cancelled is not another one. -/
theorem awaits_cancel {id other : Nat} (h : s.awaits other) (hne : other ≠ id) :
    (cancel s id).awaits other := by
  refine h.imp_left fun ⟨t, ht, hid⟩ => ⟨t, ?_, hid⟩
  exact (List.mem_eraseP_of_neg (by simp [hid, hne])).mpr ht

theorem awaits_register {autoreload : Bool} (registered : Bool) {id : Nat} (h : s.awaits id) :
    (register s autoreload registered).1.awaits id := by
  unfold register
  split
  · exact h.imp_left fun ⟨t, ht, hid⟩ => ⟨t, List.mem_append_left _ ht, hid⟩
  · exact h

/-- Ids are used once. -/
theorem Timed.advance (h : Timed s) : Timed { s with nextId := s.nextId + 1 } where
  nextId := Nat.succ_pos _
  volumebar id hid := by
    obtain ⟨hpos, hlt, hrest⟩ := h.volumebar id hid
    exact ⟨hpos, Nat.lt_succ_of_lt hlt, hrest⟩
  clock id hid := Nat.lt_succ_of_lt (h.clock id hid)
  failed := h.failed

/-- **The clock is started**: its timer is a new one. -/
theorem Timed.startclock (h : Timed s) (registered : Bool) : Timed (startclock s registered) := by
  unfold VolumeBar.startclock register
  cases registered with
  | false => exact ⟨h.nextId, fun id hid => ⟨(h.volumebar id hid).1, (h.volumebar id hid).2.1,
      (h.volumebar id hid).2.2.1, nofun⟩, nofun, h.failed⟩
  | true =>
    refine ⟨Nat.succ_pos _, fun id hid => ?_, ?_, h.failed⟩
    · obtain ⟨hpos, hlt, haw, -⟩ := h.volumebar id hid
      refine ⟨hpos, Nat.lt_succ_of_lt hlt, awaits_register true haw, ?_⟩
      rintro ⟨⟩
      exact Nat.lt_irrefl _ hlt
    · rintro id ⟨⟩
      exact Nat.lt_succ_self _

/-- **The clock is stopped**: its timer is not that of the indicator. -/
theorem Timed.stopclock (h : Timed s) : Timed (stopclock s) := by
  unfold VolumeBar.stopclock
  split
  · rename_i id hid
    split
    · refine ⟨h.nextId, fun i hi => ?_, ?_, h.failed⟩
      · obtain ⟨hpos, hlt, haw, hclock⟩ := h.volumebar i hi
        refine ⟨hpos, hlt, awaits_cancel haw fun heq => hclock (heq ▸ hid), ?_⟩
        rintro ⟨⟩
        exact Nat.lt_irrefl _ hpos
      · rintro i ⟨⟩
        exact h.nextId
    · exact h
  · exact h

/-! ## The invariant -/

structure Inv (s : State) : Prop where
  timed : Timed s
  hidden : s.volumebarTimerId = none → s.volumebar = none ∧ s.volumebarWindow = none
  shown : s.volumebarTimerId ≠ none → Shown s

theorem Inv.init : Inv init where
  timed := ⟨Nat.one_pos, nofun, nofun, rfl⟩
  hidden _ := ⟨rfl, rfl⟩
  shown hne := absurd rfl hne

theorem Inv.kept (h : Inv s) : Kept s := by
  refine ⟨?_, ?_, fun id hid => (h.timed.volumebar id hid).2.2.1, h.timed.failed⟩
  all_goals
    refine ⟨fun hne hnone => hne ?_, fun hne hnull => ?_⟩
  · exact (h.hidden hnone).1
  · obtain ⟨q, v, hq, -⟩ := (h.shown hne).view
    exact nomatch hq.symm.trans hnull
  · exact (h.hidden hnone).2
  · obtain ⟨p, w, hp, -⟩ := (h.shown hne).window
    exact nomatch hp.symm.trans hnull

theorem Inv.of_timed (h : Inv s) (ht : Timed s') (hid : s'.volumebarTimerId = s.volumebarTimerId)
    (hbar : s'.volumebar = s.volumebar) (hwin : s'.volumebarWindow = s.volumebarWindow)
    (hbars : s'.progressviews = s.progressviews) (hwins : s'.windows = s.windows) : Inv s' where
  timed := ht
  hidden hnone := by
    rw [hbar, hwin]
    exact h.hidden (hid ▸ hnone)
  shown hne := by
    have hshown : Shown s := h.shown (hid ▸ hne)
    exact ⟨by rw [hbar, hbars, hwin]; exact hshown.view, by rw [hwin, hwins]; exact hshown.window⟩

/-- **The timer is renewed**, or the indicator is taken down again when none was running. -/
theorem renewTimer_ensures (ht : Timed s) (h : Shown s)
    (hc : s.volumebarTimerId ≠ none → c.timer = true) :
    Ensures (renewTimer s c) Inv fun _ => False := by
  obtain ⟨p, w, hp, hw⟩ := h.window
  simp only [renewTimer, windowUpdate, hp, ensures_bind, deref_some hw, ensures_ok]
  cases hct : c.timer with
  | false =>
    have hnone : s.volumebarTimerId = none := by
      by_contra hne
      cases hct.symm.trans (hc hne)
    simp only [register, Bool.false_eq_true, if_false, hnone, and_self, if_true]
    refine (takeDown_ensures h).imp ?_
    rintro s' ⟨hsame, hbar, hwin⟩
    exact ⟨hsame.timed ht, fun _ => ⟨hbar, hwin⟩,
      fun hne => absurd (hsame.volumebar.trans hnone) hne⟩
  | true =>
    have hnew : (register s false true).1.awaits s.nextId :=
      .inl ⟨⟨s.nextId, false⟩, List.mem_append_right _ (List.mem_singleton_self _), rfl⟩
    have hclock (id : Nat) (hid : s.clockTimerId = some id) : id < s.nextId + 1 :=
      Nat.lt_succ_of_lt (ht.clock id hid)
    have hapart : s.clockTimerId ≠ some s.nextId := fun hid => Nat.lt_irrefl _ (ht.clock _ hid)
    simp only [register, if_true, reduceCtorEq, false_and, if_false, ensures_ok]
    cases hid : s.volumebarTimerId with
    | none =>
      refine ⟨⟨Nat.succ_pos _, ?_, hclock, ht.failed⟩, by rintro ⟨⟩, fun _ => ⟨h.view, h.window⟩⟩
      rintro id ⟨⟩
      exact ⟨ht.nextId, Nat.lt_succ_self _, hnew, hapart⟩
    | some old =>
      refine ⟨⟨Nat.succ_pos _, ?_, hclock, ht.failed⟩, by rintro ⟨⟩, fun _ => ⟨h.view, h.window⟩⟩
      rintro id ⟨⟩
      refine ⟨ht.nextId, Nat.lt_succ_self _, awaits_cancel hnew ?_, hapart⟩
      rintro rfl
      exact Nat.lt_irrefl _ (ht.volumebar _ hid).2.1

/-- **A change of the volume** keeps the invariant when its step goes well. -/
theorem volumechanged_ensures (h : Inv s) (hc : Granted s (.volume c)) :
    Ensures (volumechanged s c) Inv fun _ => False := by
  unfold volumechanged
  by_cases hnone : s.volumebarTimerId = none
  · obtain ⟨hbar, hwin⟩ := h.hidden hnone
    rw [Granted, if_pos hnone] at hc
    rw [if_pos hnone, ensures_bind]
    refine (create_ensures hbar hwin hc).imp fun ⟨s₁, shown⟩ ⟨hsame, hs₁⟩ => ?_
    have hnone₁ : s₁.volumebarTimerId = none := hsame.volumebar.trans hnone
    cases shown with
    | true => exact renewTimer_ensures (hsame.timed h.timed) hs₁ fun hne => absurd hnone₁ hne
    | false => exact ⟨hsame.timed h.timed, fun _ => hs₁, fun hne => absurd hnone₁ hne⟩
  · rw [Granted, if_neg hnone] at hc
    rw [if_neg hnone, ensures_bind]
    exact (progressviewSetvalue_ensures (h.shown hnone) c.volume).imp fun s₁ ⟨hsame, hs₁⟩ =>
      renewTimer_ensures (hsame.timed h.timed) hs₁ fun _ => hc

theorem Inv.startclock (h : Inv s) (registered : Bool) : Inv (startclock s registered) := by
  refine h.of_timed (h.timed.startclock registered) ?_ ?_ ?_ ?_ ?_
  all_goals
    cases registered with
    | true | false => rfl

theorem Inv.stopclock (h : Inv s) : Inv (stopclock s) := by
  refine h.of_timed h.timed.stopclock ?_ ?_ ?_ ?_ ?_
  all_goals
    unfold VolumeBar.stopclock
    split
    · split <;> rfl
    · rfl

/-- **The player's status** starts or stops the clock. -/
theorem Inv.playerstatuschanged (h : Inv s) (ready registered : Bool) :
    Inv (playerstatuschanged s ready registered) := by
  unfold VolumeBar.playerstatuschanged
  split
  · exact h.stopclock
  · split
    · exact h.startclock registered
    · exact h

/-- **A timer goes off**: its message is awaited instead. -/
theorem Inv.expire (h : Inv s) (t : Timer) :
    Inv { s with
      timers := if t.autoreload then s.timers else s.timers.erase t
      pending := s.pending ++ [t.id] } := by
  refine h.of_timed ⟨h.timed.nextId, fun id hid => ?_, h.timed.clock, h.timed.failed⟩
    rfl rfl rfl rfl rfl
  obtain ⟨hpos, hlt, haw, hclock⟩ := h.timed.volumebar id hid
  refine ⟨hpos, hlt, ?_, hclock⟩
  rcases haw with ⟨t', ht', rfl⟩ | hpending
  · by_cases heq : t' = t
    · exact .inr (List.mem_append_right _ (by simp [heq]))
    · refine .inl ⟨t', ?_, rfl⟩
      dsimp only
      split
      · exact ht'
      · exact (List.mem_erase_of_ne heq).mpr ht'
  · exact .inr (List.mem_append_left _ hpending)

/-- **The message of a timer**: the indicator is dismissed if it is that of its timer. -/
theorem timer_ensures (h : Inv s) (id : Nat) :
    Ensures (if some id = s.clockTimerId then .ok { s with pending := s.pending.erase id }
      else dismissvolumebar { s with pending := s.pending.erase id } id) Inv fun _ => False := by
  have hdelivered (hne : s.volumebarTimerId ≠ some id) :
      Inv { s with pending := s.pending.erase id } := by
    refine h.of_timed ⟨h.timed.nextId, fun i hi => ?_, h.timed.clock, h.timed.failed⟩
      rfl rfl rfl rfl rfl
    obtain ⟨hpos, hlt, haw, hclock⟩ := h.timed.volumebar i hi
    refine ⟨hpos, hlt, haw.imp_right fun hmem => (List.mem_erase_of_ne ?_).mpr hmem, hclock⟩
    rintro rfl
    exact hne hi
  split
  · rename_i hclock
    exact hdelivered fun hid => (h.timed.volumebar id hid).2.2.2 hclock.symm
  · unfold dismissvolumebar
    split
    · rename_i hid
      dsimp only at hid
      have hshown : Shown s := h.shown (hid ▸ nofun)
      rw [ensures_bind]
      refine (takeDown_ensures (s := { s with pending := s.pending.erase id })
        ⟨hshown.view, hshown.window⟩).imp fun s' ⟨hsame, hbar, hwin⟩ => ?_
      exact ⟨⟨hsame.nextId ▸ h.timed.nextId, nofun,
        fun i hi => hsame.nextId ▸ h.timed.clock i (hsame.clock ▸ hi),
        hsame.failed.trans h.timed.failed⟩, fun _ => ⟨hbar, hwin⟩, fun hne => absurd rfl hne⟩
    · rename_i hid
      exact hdelivered fun heq => hid heq.symm

/-- **A step** that goes well keeps the invariant. -/
theorem Inv.step {a : Event × Unit} (h : Inv s) (hok : Granted s a.1) (hs : Step step s a s') :
    Inv s' := by
  obtain ⟨e, out⟩ := a
  have hnext : ∀ r, next s e = some r → Ensures r Inv fun _ => False := by
    intro r hr
    cases e with
    | start registered =>
      cases hr
      exact h.startclock registered
    | player ready registered =>
      cases hr
      exact h.playerstatuschanged ready registered
    | volume c =>
      cases hr
      exact volumechanged_ensures h hok
    | expire t =>
      obtain ⟨-, ⟨⟩⟩ := Option.ite_none_right_eq_some.mp hr
      exact h.expire t
    | timer id =>
      obtain ⟨-, ⟨⟩⟩ := Option.ite_none_right_eq_some.mp hr
      exact timer_ensures h id
    | other =>
      cases hr
      exact h.of_timed h.timed.advance rfl rfl rfl rfl rfl
  simp only [Step, VolumeBar.step, h.timed.failed, Option.isSome_none, Bool.false_eq_true,
    if_false] at hs
  obtain ⟨r, hr, hs⟩ := Option.map_eq_some_iff.mp hs
  have hres := hnext r hr
  cases r with
  | ok t =>
    cases hs
    exact hres
  | error f => exact hres.elim

/-- **A step that does not go well** leaves an indicator that no timer removes. -/
theorem not_kept_of_not_granted {a : Event × Unit} (h : Inv s) (hok : ¬Granted s a.1)
    (hs : Step step s a s') : ¬Kept s' := by
  obtain ⟨e, out⟩ := a
  cases e with
  | volume c =>
    have hresult : Ensures (volumechanged s c) (fun s' => ¬Kept s') fun _ => True := by
      unfold volumechanged
      rw [Granted] at hok
      by_cases hnone : s.volumebarTimerId = none
      · obtain ⟨hbar, hwin⟩ := h.hidden hnone
        rw [if_pos hnone, Classical.not_imp, Bool.not_eq_true] at hok
        rw [if_pos hnone, create, if_neg (by simp [hbar, hwin])]
        simp only [hok.1, hok.2, Bool.not_true, Bool.not_false, Bool.false_eq_true, if_false,
          if_true, windowDestroy, ensures_bind, ensures_ok,
          deref_some (Function.update_self s.nextWindow _ s.windows)]
        exact fun hkept => absurd hnone (hkept.window.mp (by rintro ⟨⟩))
      · obtain ⟨id, hid⟩ := Option.ne_none_iff_exists'.mp hnone
        rw [if_neg hnone, Bool.not_eq_true] at hok
        rw [if_neg hnone, ensures_bind]
        refine (progressviewSetvalue_ensures (h.shown hnone) c.volume).mono ?_ fun _ hf => hf.elim
        rintro s₁ ⟨hsame, hs₁⟩
        obtain ⟨q, v, hq, -⟩ := hs₁.view
        obtain ⟨p, w, hp, hw⟩ := hs₁.window
        have hid₁ : s₁.volumebarTimerId = some id := hsame.volumebar.trans hid
        simp only [renewTimer, windowUpdate, hp, deref_some hw, ensures_bind, ensures_ok, register,
          hok, hid₁, Bool.false_eq_true, if_false, reduceCtorEq, and_false]
        exact fun hkept => hkept.volumebar.mp (fun hnull => by cases hq.symm.trans hnull) rfl
    simp only [Step, VolumeBar.step, h.timed.failed, Option.isSome_none, Bool.false_eq_true,
      if_false, next, Option.map_some, Option.some.injEq] at hs
    cases hv : volumechanged s c with
    | ok t =>
      rw [hv] at hs hresult
      cases hs
      exact hresult
    | error f =>
      rw [hv] at hs
      cases hs
      exact fun hkept => by cases hkept.failed
  | _ => exact absurd trivial hok

/-! ## Runs -/

/-- **The indicator and its timer**: when in a run every window gets its progress bar and a running
    timer is always replaced, the two pointers are set exactly while there is a timer, which is
    awaited, and nothing is used after it was destroyed. -/
theorem indicator_kept (h : Run (Guarded step Granted) init tr s) : Kept s := by
  have hinv : Inv s :=
    h.invariant Inv.init fun _ _ _ ht hstep => ht.step hstep.1 hstep.2
  exact hinv.kept

/-- The volume is changed twice, and the message of the first timer comes too late. -/
theorem indicator_kept_late : ∃ tr s, Run (Guarded step Granted) init tr s ∧
    s.volumebarTimerId = some 3 ∧ s.timers = [⟨1, true⟩, ⟨3, false⟩] ∧ Kept s := by
  obtain ⟨tr, s, hrun, hid, htimers⟩ := exists_run_of_guarded_exec step Granted init
    (fun _ s => s.volumebarTimerId = some 3 ∧ s.timers = [⟨1, true⟩, ⟨3, false⟩])
    [.start true, .volume ⟨50, 1280, 720, true, true, true⟩, .expire ⟨2, false⟩,
      .volume ⟨55, 1280, 720, true, true, true⟩, .timer 2]
    (by decide +kernel)
  exact ⟨tr, s, hrun, hid, htimers, indicator_kept hrun⟩

/-- The second timer cannot be registered, and the first one is cancelled nevertheless: nothing
    removes the indicator, and the next change runs into the assertion.  A progress bar that cannot
    be created has the same effect. -/
theorem indicator_abandoned :
    (∃ tr s, Run (Step step) init tr s ∧ s.timers = [] ∧ s.failed = some .assert ∧ ¬Kept s) ∧
      ∃ tr s, Run (Step step) init tr s ∧ s.volumebarTimerId = none ∧ s.failed = some .assert ∧
        ¬Kept s := by
  have hbroken {s : State} (h : s.failed = some .assert) : ¬Kept s := fun hkept =>
    nomatch h.symm.trans hkept.failed
  obtain ⟨tr, s, hrun, htimers, hfailed⟩ := exists_run_of_exec step init
    (fun _ s => s.timers = [] ∧ s.failed = some .assert)
    [.volume ⟨50, 1280, 720, true, true, true⟩, .volume ⟨55, 1280, 720, true, true, false⟩,
      .volume ⟨60, 1280, 720, true, true, true⟩]
    (by decide +kernel)
  obtain ⟨tr', s', hrun', hid', hfailed'⟩ := exists_run_of_exec step init
    (fun _ s => s.volumebarTimerId = none ∧ s.failed = some .assert)
    [.volume ⟨50, 1280, 720, true, false, true⟩, .volume ⟨55, 1280, 720, true, true, true⟩]
    (by decide +kernel)
  exact ⟨⟨tr, s, hrun, htimers, hfailed, hbroken hfailed⟩,
    tr', s', hrun', hid', hfailed', hbroken hfailed'⟩

end Mediabox.VolumeBar
