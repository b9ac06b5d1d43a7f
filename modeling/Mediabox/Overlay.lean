import Mediabox.Player

/-!
# The overlay of the player (`src/overlay.c`, `src/shell.c`)

The overlay is shown for some seconds and dismissed by a timer.  Cancelling a timer does not take
back the message that it has sent, and the BACK key hides the window without cancelling.

* A step is one message of the overlay or one key of the shell, a timer that goes off, or another
  object that registers one.  Messages are delivered in any order.
* Timer ids count up, as in `src/lib/timers.c`; `-1` is `none`.  A registration that is to fail is
  listed with the step.
* The title, the position and the drawing are left out, and so is the end of the overlay.

Main result: `visible_dismissed`.
-/

set_option autoImplicit false

namespace Mediabox.Overlay

open Outcome Transition
open Player (Status)

/-! ## The code -/

/-- `MBOX_OVERLAY_STATE_READY`, which is `MB_PLAYER_STATUS_READY`, and the others. -/
inductive Display where
  | ready
  | playing
  | paused
  deriving DecidableEq, Repr

inductive Fault where
  /-- `ASSERT(inst->dismiss_timer != -1)` -/
  | assert
  deriving DecidableEq, Repr

structure State where
  visible : Bool
  dismissTimer : Option Nat
  durationTimer : Option Nat
  state : Display
  /-- the timers that can still go off -/
  outstanding : List Nat
  /-- the TIMER messages that are still to be delivered -/
  pending : List Nat
  nextId : Nat
  failed : Option Fault
  deriving DecidableEq, Repr

/-- `mbox_overlay_new` -/
def init : State := ⟨false, none, none, .ready, [], [], 1, none⟩

/-- `avbox_window_hide` -/
def hide (s : State) : State := { s with visible := false }

/-- `avbox_timer_cancel` -/
def cancel (s : State) (id : Nat) : State := { s with outstanding := s.outstanding.erase id }

/-- `avbox_timer_register`, which fails for these ids. -/
def register (refused : List Nat) (s : State) : State × Option Nat :=
  if s.nextId ∈ refused then ({ s with nextId := s.nextId + 1 }, none)
  else ({ s with outstanding := s.nextId :: s.outstanding, nextId := s.nextId + 1 }, some s.nextId)

/-- `mbox_overlay_setstate` -/
def setState (s : State) (state : Display) : State := { s with state }

/-- `mbox_overlay_start_time_updates` -/
def startTimeUpdates (refused : List Nat) (s : State) (force : Bool) : State :=
  if force || s.durationTimer = none then
    let (s, timer) := register refused s
    let s := { s with durationTimer := timer }
    if timer = none then hide s else s
  else s

/-- The beginning of `mbox_overlay_show`. -/
def uncover (s : State) : Except Fault State :=
  if s.visible then
    match s.dismissTimer with
    | none => .error .assert
    | some timer => .ok { cancel s timer with dismissTimer := none }
  else .ok { s with visible := true }

/-- The end of `mbox_overlay_show`. -/
def startDismiss (refused : List Nat) (s : State) : State :=
  let (s, timer) := register refused s
  let s := { s with dismissTimer := timer }
  if timer = none then hide s else s

/-- `mbox_overlay_show` -/
def overlayShow (refused : List Nat) (s : State) : Except Fault State := do
  let s ← uncover s
  let s := if s.state ≠ .ready then startTimeUpdates refused s false else s
  .ok (startDismiss refused s)

/-- `AVBOX_MESSAGETYPE_PLAYER` -/
def player (refused : List Nat) (s : State) (last status : Status) : Except Fault State := do
  let s ← (if last = .paused ∧ status ≠ .paused then overlayShow refused (setState s .playing)
    else .ok s)
  let s := if last = .ready ∧ status ≠ .ready ∧ s.visible then startTimeUpdates refused s false
    else s
  match status with
  | .ready => .ok (setState (if s.visible then hide s else s) .ready)
  | .buffering => do
    let s ← (if last ≠ .buffering then overlayShow refused (setState s .ready) else .ok s)
    -- falls through
    overlayShow refused (setState s .playing)
  | .playing => overlayShow refused (setState s .playing)
  | .paused => overlayShow refused (setState s .paused)

/-- `AVBOX_MESSAGETYPE_TIMER` -/
def timer (refused : List Nat) (s : State) (id : Nat) : State :=
  if some id = s.dismissTimer then
    { (if s.visible then hide s else s) with dismissTimer := none }
  else if some id = s.durationTimer then
    if s.visible ∧ s.state ≠ .ready then startTimeUpdates refused s true
    else { s with durationTimer := none }
  else s

inductive Event where
  /-- a status notification, and the timers that cannot be registered -/
  | status (last now : Status) (refused : List Nat)
  /-- `MBI_EVENT_INFO` -/
  | info (refused : List Nat)
  /-- `MBI_EVENT_BACK` -/
  | back
  /-- a timer goes off and sends its message -/
  | expire (id : Nat)
  /-- the message of a timer is delivered -/
  | timer (id : Nat) (refused : List Nat)
  /-- another object registers a timer -/
  | other
  deriving DecidableEq, Repr

/-- What an event leaves, `none` where it is not possible. -/
def next (s : State) : Event → Option (Except Fault State)
  | .status last now refused => some (player refused s last now)
  | .info refused => some (overlayShow refused s)
  | .back => some (.ok (if s.visible then hide s else s))
  | .expire id =>
    if id ∈ s.outstanding then
      some (.ok { s with outstanding := s.outstanding.erase id, pending := s.pending ++ [id] })
    else none
  | .timer id refused =>
    if id ∈ s.pending then
      some (.ok (timer refused { s with pending := s.pending.erase id } id))
    else none
  | .other => some (.ok { s with nextId := s.nextId + 1 })

/-- One step, as long as no assertion has failed. -/
def step (s : State) (e : Event) : Option (State × Unit) :=
  if s.failed.isSome then none
  else
    (next s e).map fun
      | .ok s' => (s', ())
      | .error f => ({ s with failed := some f }, ())

/-! ## What holds of it -/

/-- The timer will go off, or its message will be delivered. -/
def State.awaits (s : State) (id : Nat) : Prop := id ∈ s.outstanding ∨ id ∈ s.pending

/-- A visible overlay will be dismissed. -/
def Dismissed (s : State) : Prop := s.visible = true → ∃ id, s.dismissTimer = some id ∧ s.awaits id

/-- Timers are used once: what the overlay knows and awaits was registered, each once. -/
structure Once (s : State) : Prop where
  nodup : (s.outstanding ++ s.pending).Nodup
  awaits : ∀ id, s.awaits id → id < s.nextId
  dismiss : ∀ id, s.dismissTimer = some id → id < s.nextId
  duration : ∀ id, s.durationTimer = some id → id < s.nextId
  apart : ∀ id, s.dismissTimer = some id → s.durationTimer ≠ some id

/-- What holds in a state that was reached. -/
structure Kept (s : State) : Prop where
  dismissed : Dismissed s
  once : Once s
  /-- the message of another timer does not hide the overlay -/
  older : ∀ id refused s', Step step s (.timer id refused, ()) s' → s.visible = true →
    s.dismissTimer ≠ some id → s.nextId ∉ refused → s'.visible = true
  /-- no assertion fails -/
  failed : s.failed = none

variable {s s' : State} {refused : List Nat} {tr : List (Event × Unit)}

/-! ## Registering and cancelling -/

/-- What a registration does. -/
structure Registered (refused : List Nat) (s : State) (r : State × Option Nat) : Prop where
  once : Once r.1
  visible : r.1.visible = s.visible
  dismiss : r.1.dismissTimer = s.dismissTimer
  duration : r.1.durationTimer = s.durationTimer
  failed : r.1.failed = s.failed
  awaits : ∀ id, s.awaits id → r.1.awaits id
  timer : ∀ id, r.2 = some id → id = s.nextId ∧ r.1.awaits id
  nextId : r.1.nextId = s.nextId + 1
  refused : r.2 = none → s.nextId ∈ refused

theorem Once.advance (h : Once s) : Once { s with nextId := s.nextId + 1 } where
  nodup := h.nodup
  awaits id hid := Nat.lt_succ_of_lt (h.awaits id hid)
  dismiss id hid := Nat.lt_succ_of_lt (h.dismiss id hid)
  duration id hid := Nat.lt_succ_of_lt (h.duration id hid)
  apart := h.apart

theorem register_spec (h : Once s) : Registered refused s (register refused s) := by
  unfold register
  split
  · rename_i hrefused
    exact ⟨h.advance, rfl, rfl, rfl, rfl, fun _ hid => hid, nofun, rfl, fun _ => hrefused⟩
  · have hfresh : s.nextId ∉ s.outstanding ++ s.pending := fun hmem =>
      Nat.lt_irrefl _ (h.awaits _ (List.mem_append.mp hmem))
    refine ⟨⟨List.nodup_cons.mpr ⟨hfresh, h.nodup⟩, fun id hid => ?_, h.advance.dismiss,
      h.advance.duration, h.apart⟩, rfl, rfl, rfl, rfl,
      fun id hid => hid.imp_left (List.mem_cons_of_mem _), ?_, rfl, nofun⟩
    · rcases hid with hid | hid
      · rcases List.mem_cons.mp hid with rfl | hid
        · exact Nat.lt_succ_self _
        · exact Nat.lt_succ_of_lt (h.awaits id (.inl hid))
      · exact Nat.lt_succ_of_lt (h.awaits id (.inr hid))
    · rintro id ⟨⟩
      exact ⟨rfl, .inl (List.mem_cons_self ..)⟩

theorem Once.cancel (h : Once s) (id : Nat) :
    Once { Overlay.cancel s id with dismissTimer := none } where
  nodup := h.nodup.sublist (List.erase_sublist.append_right _)
  awaits i hi := h.awaits i (hi.imp_left List.mem_of_mem_erase)
  dismiss := nofun
  duration := h.duration
  apart := nofun

/-! ## The invariant -/

structure Inv (s : State) : Prop where
  once : Once s
  dismissed : Dismissed s
  failed : s.failed = none

theorem Inv.init : Inv init where
  once := ⟨List.nodup_nil, by simp [State.awaits, Overlay.init], nofun, nofun, nofun⟩
  dismissed := nofun
  failed := rfl

theorem Inv.setState (h : Inv s) (state : Display) : Inv (setState s state) :=
  ⟨⟨h.once.nodup, h.once.awaits, h.once.dismiss, h.once.duration, h.once.apart⟩, h.dismissed,
    h.failed⟩

theorem Inv.hide (h : Inv s) : Inv (hide s) :=
  ⟨⟨h.once.nodup, h.once.awaits, h.once.dismiss, h.once.duration, h.once.apart⟩, nofun, h.failed⟩

/-- What a change of the duration timer leaves as it is. -/
structure Updated (refused : List Nat) (s s' : State) : Prop where
  once : Once s'
  visible : s'.visible = true → s.visible = true
  dismiss : s'.dismissTimer = s.dismissTimer
  awaits : ∀ id, s.awaits id → s'.awaits id
  failed : s'.failed = s.failed
  /-- it hides the overlay when its timer is refused -/
  refused : s.visible = true → s.nextId ∉ refused → s'.visible = true

theorem Updated.inv (hu : Updated refused s s') (h : Inv s) : Inv s' where
  once := hu.once
  dismissed hv := by
    obtain ⟨id, hid, haw⟩ := h.dismissed (hu.visible hv)
    exact ⟨id, hu.dismiss.trans hid, hu.awaits id haw⟩
  failed := hu.failed.trans h.failed

/-- The duration timer may be any that was registered later than the dismiss timer. -/
theorem Once.setDuration (h : Once s) {timer : Option Nat}
    (htimer : ∀ id, timer = some id → id < s.nextId ∧ s.dismissTimer ≠ some id) :
    Once { s with durationTimer := timer } where
  nodup := h.nodup
  awaits := h.awaits
  dismiss := h.dismiss
  duration id hid := (htimer id hid).1
  apart id hid hid' := (htimer id hid').2 hid

/-- **The time updates**: they take a timer of their own. -/
theorem startTimeUpdates_spec (h : Once s) (force : Bool) :
    Updated refused s (startTimeUpdates refused s force) := by
  unfold startTimeUpdates
  split
  · have hr : Registered refused s (register refused s) := register_spec h
    generalize register refused s = r at hr
    obtain ⟨s', timer⟩ := r
    have honce : Once { s' with durationTimer := timer } := hr.once.setDuration fun id hid => by
      obtain ⟨rfl, -⟩ := hr.timer id hid
      refine ⟨by rw [hr.nextId]; exact Nat.lt_succ_self _, fun hd => ?_⟩
      exact Nat.lt_irrefl _ (h.dismiss _ (hr.dismiss ▸ hd))
    cases timer with
    | none =>
      exact ⟨⟨honce.nodup, honce.awaits, honce.dismiss, honce.duration, honce.apart⟩, nofun,
        hr.dismiss, hr.awaits, hr.failed, fun _ hn => absurd (hr.refused rfl) hn⟩
    | some id =>
      exact ⟨honce, fun hv => hr.visible ▸ hv, hr.dismiss, hr.awaits, hr.failed,
        fun hv _ => hr.visible.trans hv⟩
  · exact ⟨h, id, rfl, fun _ hid => hid, rfl, fun hv _ => hv⟩

/-- Uncovering does not fail, and leaves no old dismiss timer behind a visible overlay. -/
theorem uncover_ensures (h : Inv s) :
    Ensures (uncover s) (fun s' => Once s' ∧ s'.failed = none) fun _ => False := by
  unfold uncover
  split
  · rename_i hv
    obtain ⟨id, hid, -⟩ := h.dismissed hv
    simp only [hid]
    exact ⟨h.once.cancel id, h.failed⟩
  · exact ⟨⟨h.once.nodup, h.once.awaits, h.once.dismiss, h.once.duration, h.once.apart⟩, h.failed⟩

theorem startDismiss_inv (h : Once s) (hfailed : s.failed = none) :
    Inv (startDismiss refused s) := by
  unfold startDismiss
  have hr : Registered refused s (register refused s) := register_spec h
  generalize register refused s = r at hr
  obtain ⟨s', timer⟩ := r
  have honce : Once { s' with dismissTimer := timer } := by
    refine ⟨hr.once.nodup, hr.once.awaits, fun id hid => ?_, hr.once.duration, fun id hid hd => ?_⟩
    · rw [(hr.timer id hid).1]
      exact hr.nextId ▸ Nat.lt_succ_self _
    · rw [(hr.timer id hid).1] at hd
      exact Nat.lt_irrefl _ (h.duration _ (hr.duration ▸ hd))
  cases timer with
  | none =>
    exact ⟨⟨honce.nodup, honce.awaits, honce.dismiss, honce.duration, honce.apart⟩, nofun,
      hr.failed.trans hfailed⟩
  | some id => exact ⟨honce, fun _ => ⟨id, rfl, (hr.timer id rfl).2⟩, hr.failed.trans hfailed⟩

/-- **Show**: the assertion holds, and the overlay gets a new timer or is hidden again. -/
theorem overlayShow_ensures (h : Inv s) :
    Ensures (overlayShow refused s) Inv fun _ => False := by
  rw [overlayShow, ensures_bind]
  refine (uncover_ensures h).imp fun s₁ ⟨honce₁, hfailed₁⟩ => ?_
  rw [ensures_ok]
  split
  · have hu : Updated refused s₁ _ := startTimeUpdates_spec honce₁ false
    exact startDismiss_inv hu.once (hu.failed.trans hfailed₁)
  · exact startDismiss_inv honce₁ hfailed₁

theorem Inv.timeUpdates (h : Inv s) (force : Bool) : Inv (startTimeUpdates refused s force) :=
  (startTimeUpdates_spec h.once force).inv h

theorem Inv.cover (h : Inv s) : Inv (if s.visible then Overlay.hide s else s) := by
  split
  · exact h.hide
  · exact h

/-! ## Messages and keys -/

/-- **A status notification** shows the overlay, hides it or leaves it. -/
theorem player_ensures (h : Inv s) (last status : Status) :
    Ensures (player refused s last status) Inv fun _ => False := by
  have hshow {s : State} (h : Inv s) (state : Display) :
      Ensures (overlayShow refused (Overlay.setState s state)) Inv fun _ => False :=
    overlayShow_ensures (h.setState state)
  have hunpaused : Ensures (if last = .paused ∧ status ≠ .paused then
      overlayShow refused (Overlay.setState s .playing) else .ok s) Inv fun _ => False := by
    split
    · exact hshow h .playing
    · exact h
  rw [player, ensures_bind]
  refine hunpaused.imp fun s₁ h₁ => ?_
  have hstarted : Inv (if last = .ready ∧ status ≠ .ready ∧ s₁.visible then
      startTimeUpdates refused s₁ false else s₁) := by
    split
    · exact h₁.timeUpdates false
    · exact h₁
  cases status with
  | ready => exact hstarted.cover.setState .ready
  | buffering =>
    rw [ensures_bind]
    refine Ensures.imp (Q := Inv) ?_ fun s₂ h₂ => hshow h₂ .playing
    split
    · exact hshow hstarted .ready
    · exact hstarted
  | playing => exact hshow hstarted .playing
  | paused => exact hshow hstarted .paused

theorem Once.deliver (h : Once s) (id : Nat) :
    Once { s with pending := s.pending.erase id } where
  nodup := h.nodup.sublist (List.erase_sublist.append_left _)
  awaits i hi := h.awaits i (hi.imp_right List.mem_of_mem_erase)
  dismiss := h.dismiss
  duration := h.duration
  apart := h.apart

/-- **A timer message**: it hides the overlay if it is that of the dismiss timer. -/
theorem timer_inv (h : Inv s) (id : Nat) :
    Inv (timer refused { s with pending := s.pending.erase id } id) ∧
      (s.visible = true → s.dismissTimer ≠ some id → s.nextId ∉ refused →
        (timer refused { s with pending := s.pending.erase id } id).visible = true) := by
  have honce := h.once.deliver id
  unfold timer
  split
  · rename_i hid
    have hhidden : (if s.visible then Overlay.hide { s with pending := s.pending.erase id }
        else { s with pending := s.pending.erase id }) =
        { s with pending := s.pending.erase id, visible := false } := by
      cases hv : s.visible with
      | true => rfl
      | false => simp
    dsimp only at hid ⊢
    rw [hhidden]
    exact ⟨⟨⟨honce.nodup, honce.awaits, nofun, honce.duration, nofun⟩, nofun, h.failed⟩,
      fun _ hne => absurd hid.symm hne⟩
  · rename_i hid
    have hdelivered : Inv { s with pending := s.pending.erase id } := by
      refine ⟨honce, fun hv => ?_, h.failed⟩
      obtain ⟨t, ht, haw⟩ := h.dismissed hv
      refine ⟨t, ht, haw.imp_right fun hmem => (List.mem_erase_of_ne ?_).mpr hmem⟩
      rintro rfl
      exact hid ht.symm
    split
    · split
      · have hu : Updated refused _ _ := startTimeUpdates_spec honce true
        exact ⟨hu.inv hdelivered, fun hv _ hn => hu.refused hv hn⟩
      · exact ⟨⟨honce.setDuration nofun, hdelivered.dismissed, h.failed⟩, fun hv _ _ => hv⟩
    · exact ⟨hdelivered, fun hv _ _ => hv⟩

/-- **A timer goes off**: its message is awaited instead. -/
theorem Inv.expire (h : Inv s) {id : Nat} (hid : id ∈ s.outstanding) :
    Inv { s with outstanding := s.outstanding.erase id, pending := s.pending ++ [id] } := by
  have hperm : (s.outstanding.erase id ++ (s.pending ++ [id])).Perm
      (s.outstanding ++ s.pending) := by
    rw [← List.append_assoc]
    exact (List.perm_append_singleton id _).trans
      ((List.perm_cons_erase hid).symm.append_right s.pending)
  have hawaits (i : Nat) : State.awaits { s with
      outstanding := s.outstanding.erase id
      pending := s.pending ++ [id] } i ↔ s.awaits i := by
    rw [State.awaits, State.awaits, ← List.mem_append, ← List.mem_append]
    exact hperm.mem_iff
  refine ⟨⟨hperm.nodup_iff.mpr h.once.nodup, fun i hi => h.once.awaits i ((hawaits i).mp hi),
    h.once.dismiss, h.once.duration, h.once.apart⟩, fun hv => ?_, h.failed⟩
  obtain ⟨t, ht, haw⟩ := h.dismissed hv
  exact ⟨t, ht, (hawaits t).mpr haw⟩

/-- **A step**: it keeps the invariant. -/
theorem Inv.step {a : Event × Unit} (h : Inv s) (hs : Step step s a s') : Inv s' := by
  obtain ⟨e, out⟩ := a
  have hnext : ∀ r, next s e = some r → Ensures r Inv fun _ => False := by
    intro r hr
    cases e with
    | status last now refused =>
      cases hr
      exact player_ensures h last now
    | info refused =>
      cases hr
      exact overlayShow_ensures h
    | back =>
      cases hr
      exact h.cover
    | expire id =>
      obtain ⟨hid, ⟨⟩⟩ := Option.ite_none_right_eq_some.mp hr
      exact h.expire hid
    | timer id refused =>
      obtain ⟨hid, ⟨⟩⟩ := Option.ite_none_right_eq_some.mp hr
      exact (timer_inv h id).1
    | other =>
      cases hr
      exact ⟨h.once.advance, h.dismissed, h.failed⟩
  simp only [Step, Overlay.step, h.failed, Option.isSome_none, Bool.false_eq_true, if_false] at hs
  obtain ⟨r, hr, hs⟩ := Option.map_eq_some_iff.mp hs
  have hres := hnext r hr
  cases r with
  | ok t =>
    cases hs
    exact hres
  | error f => exact hres.elim

/-! ## Runs -/

/-- **The overlay is dismissed**: in every run a visible overlay has a dismiss timer that is still to
    go off or whose message is still to be delivered, no other timer's message hides it, and showing
    it again finds that timer. -/
theorem visible_dismissed (h : Run (Step step) init tr s) : Kept s := by
  have hinv : Inv s := h.invariant Inv.init fun _ _ _ ht hstep => ht.step hstep
  refine ⟨hinv.dismissed, hinv.once, fun id refused s' hs hv hne hn => ?_, hinv.failed⟩
  simp only [Step, step, next] at hs
  rw [if_neg (by simp [hinv.failed])] at hs
  obtain ⟨r, hr, hs⟩ := Option.map_eq_some_iff.mp hs
  obtain ⟨-, ⟨⟩⟩ := Option.ite_none_right_eq_some.mp hr
  cases hs
  exact (timer_inv hinv id).2 hv hne hn

/-- The overlay is hidden with BACK and shown again before its first timer goes off. -/
theorem visible_dismissed_again :
    ∃ tr s, Run (Step step) init tr s ∧ s.visible = true ∧ s.pending = [4] ∧ Kept s := by
  obtain ⟨tr, s, hrun, hvisible, hpending⟩ := exists_run_of_exec step init
    (fun _ s => s.visible = true ∧ s.pending = [4])
    [.status .ready .buffering [], .status .buffering .playing [], .back, .info [], .expire 4]
    (by decide +kernel)
  exact ⟨tr, s, hrun, hvisible, hpending, visible_dismissed hrun⟩

end Mediabox.Overlay
