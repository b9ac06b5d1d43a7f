import Mediabox.Lib.Transition

/-!
# Delegates (`src/lib/delegate.c`)

A delegate is a call that one thread runs with `avbox_delegate_execute` and another one, the owner,
waits for or detaches from.  Whichever side comes last frees it.

* A step is one access to the lock, the condition variable or the fields of the delegate.  The owner
  makes at most one call; the delegate does not have the flag `AVBOX_DELEGATE_RECYCLE`.
* `pthread_cond_wait` may return without a signal.
* `returned` is what `func` returned and `frees` counts the calls of `free`; they are not in the
  source.  The label of a step says whether it uses the delegate after it was freed.

Main result: `delegate_safe` — `avbox_delegate_wait` returns after `func` and with its result, and
the delegate is freed once and not used afterwards, in every run in which `pthread_cond_wait`
returns only after the call has finished.
-/

set_option autoImplicit false

namespace Mediabox.Delegate

open Transition

/-! ## The code -/

/-- Where `avbox_delegate_execute` stands. -/
inductive Executor where
  | func
  | lock
  | finish
  | unlock
  /-- it has left the delegate to the owner -/
  | left
  | unlockDettached
  | destroy
  | destroyed
deriving DecidableEq, Repr

/-- Where the owner stands. -/
inductive Owner where
  | idle
  | waitLock
  | waitTest
  | waiting
  /-- woken inside of `pthread_cond_wait` -/
  | woken
  | waitUnlock
  | waitResult
  | waitDestroy (result : Nat)
  /-- `avbox_delegate_wait` has returned -/
  | waited (result : Nat)
  | dettachLock
  | dettachTest
  | dettachUnlock
  | dettachFinished
  | dettachDestroy
  /-- `avbox_delegate_dettach` has returned -/
  | dettached
  /-- it has returned and freed the delegate -/
  | dettachedLast
deriving DecidableEq, Repr

inductive Side where
  | executor
  | owner
deriving DecidableEq, Repr

structure State where
  executor : Executor
  owner : Owner
  lock : Option Side
  finished : Bool
  /-- `AVBOX_DELEGATE_DETTACHED` -/
  dettached : Bool
  result : Nat
  returned : Option Nat
  frees : Nat
deriving DecidableEq, Repr

def init : State := ⟨.func, .idle, none, false, false, 0, none, 0⟩

inductive Event where
  /-- `avbox_delegate_execute` goes on; `v` is what `func` returns -/
  | execute (v : Nat)
  | wait
  | dettach
  /-- the call of the owner goes on -/
  | owner
  /-- `pthread_cond_wait` wakes up without a signal -/
  | wakeUp
deriving DecidableEq, Repr

inductive Use where
  | fine
  | afterFree
deriving DecidableEq, Repr

def use (s : State) : Use := if s.frees = 0 then .fine else .afterFree

/-- `pthread_cond_signal` -/
def signal : Owner → Owner
  | .waiting => .woken
  | o => o

/-- `avbox_delegate_execute` -/
def execute (s : State) (v : Nat) : Option State :=
  match s.executor with
  | .func => some { s with executor := .lock, result := v, returned := some v }
  | .lock =>
    if s.lock = none then some { s with executor := .finish, lock := some .executor } else none
  | .finish =>
    if s.dettached then some { s with executor := .unlockDettached, finished := true }
    else some { s with executor := .unlock, finished := true, owner := signal s.owner }
  | .unlock => some { s with executor := .left, lock := none }
  | .unlockDettached => some { s with executor := .destroy, lock := none }
  | .destroy => some { s with executor := .destroyed, frees := s.frees + 1 }
  | .left | .destroyed => none

/-- `avbox_delegate_wait` and `avbox_delegate_dettach` -/
def ownerCall (s : State) : Option State :=
  match s.owner with
  | .waitLock =>
    if s.lock = none then some { s with owner := .waitTest, lock := some .owner } else none
  | .waitTest =>
    if s.finished then some { s with owner := .waitUnlock }
    else some { s with owner := .waiting, lock := none }
  | .woken =>
    if s.lock = none then some { s with owner := .waitUnlock, lock := some .owner } else none
  | .waitUnlock => some { s with owner := .waitResult, lock := none }
  | .waitResult => some { s with owner := .waitDestroy s.result }
  | .waitDestroy result => some { s with owner := .waited result, frees := s.frees + 1 }
  | .dettachLock =>
    if s.lock = none then some { s with owner := .dettachTest, lock := some .owner } else none
  | .dettachTest =>
    if s.finished then some { s with owner := .dettachFinished }
    else some { s with owner := .dettachUnlock, dettached := true }
  | .dettachUnlock => some { s with owner := .dettached, lock := none }
  | .dettachFinished => some { s with owner := .dettachDestroy, lock := none }
  | .dettachDestroy => some { s with owner := .dettachedLast, frees := s.frees + 1 }
  | .idle | .waiting | .waited _ | .dettached | .dettachedLast => none

def step (s : State) : Event → Option (State × Use)
  | .execute v => (execute s v).map fun t => (t, use s)
  | .wait => if s.owner = .idle then some ({ s with owner := .waitLock }, .fine) else none
  | .dettach => if s.owner = .idle then some ({ s with owner := .dettachLock }, .fine) else none
  | .owner => (ownerCall s).map fun t => (t, use s)
  | .wakeUp => if s.owner = .waiting then some ({ s with owner := .woken }, .fine) else none

/-- `pthread_cond_wait` returns once the call has finished. -/
def ReturnsFinished (s : State) (e : Event) : Prop :=
  e = .owner → s.owner = .woken → s.lock = none → s.finished = true

instance (s : State) (e : Event) : Decidable (ReturnsFinished s e) :=
  inferInstanceAs (Decidable (_ → _ → _ → _))

/-! ## The invariant -/

@[simp] def Executor.hasFinished : Executor → Bool
  | .func | .lock | .finish => false
  | _ => true

@[simp] def Owner.hasDettached : Owner → Bool
  | .dettachUnlock | .dettached => true
  | _ => false

/-- The owner has seen that the call has finished. -/
@[simp] def Owner.hasSeen : Owner → Bool
  | .waitUnlock | .waitResult | .waitDestroy _ | .waited _ | .dettachFinished | .dettachDestroy
  | .dettachedLast => true
  | _ => false

/-- The owner holds the lock. -/
@[simp] def Owner.holds : Owner → Bool
  | .waitTest | .waitUnlock | .dettachTest | .dettachUnlock | .dettachFinished => true
  | _ => false

/-- The executor holds the lock. -/
@[simp] def Executor.holds : Executor → Bool
  | .finish | .unlock | .unlockDettached => true
  | _ => false

/-- The executor leaves the delegate to the owner. -/
@[simp] def Executor.leaves : Executor → Bool
  | .unlock | .left => true
  | _ => false

/-- The executor destroys the delegate. -/
@[simp] def Executor.destroys : Executor → Bool
  | .unlockDettached | .destroy | .destroyed => true
  | _ => false

@[simp] def Executor.frees : Executor → Nat
  | .destroyed => 1
  | _ => 0

@[simp] def Owner.frees : Owner → Nat
  | .waited _ | .dettachedLast => 1
  | _ => 0

/-- What the owner took for the result. -/
@[simp] def Owner.result? : Owner → Option Nat
  | .waitDestroy v | .waited v => some v
  | _ => none

structure Inv (s : State) : Prop where
  lockExecutor : s.lock = some .executor ↔ s.executor.holds = true
  lockOwner : s.lock = some .owner ↔ s.owner.holds = true
  finished : s.finished = s.executor.hasFinished
  dettached : s.dettached = s.owner.hasDettached
  /-- the owner that has seen the end has the delegate for itself -/
  seen : s.owner.hasSeen = true → s.executor = .left
  last : s.executor.leaves = true → s.owner.hasDettached = false
  first : s.executor.destroys = true → s.owner = .dettached
  frees : s.frees = s.executor.frees + s.owner.frees
  returned : s.executor ≠ .func → s.returned = some s.result
  result : ∀ v, s.owner.result? = some v → s.result = v

theorem init_inv : Inv init :=
  ⟨by simp [init], by simp [init], rfl, rfl, nofun, nofun, nofun, rfl, fun hne => absurd rfl hne,
    nofun⟩

variable {s t : State} {v : Nat}

theorem Owner.hasSeen_of_result {o : Owner} (h : o.result? = some v) : o.hasSeen = true := by
  cases o with
  | waitDestroy | waited => rfl
  | _ => cases h

/-- An owner that detached and does not hold the lock has returned. -/
theorem Owner.eq_dettached {o : Owner} (h : o.hasDettached = true) (hlock : o.holds ≠ true) :
    o = .dettached := by
  cases o with
  | dettached => rfl
  | dettachUnlock => exact absurd rfl hlock
  | _ => cases h

theorem signal_eq (o : Owner) : (signal o).holds = o.holds ∧
    (signal o).hasDettached = o.hasDettached ∧ (signal o).hasSeen = o.hasSeen ∧
    (signal o).frees = o.frees ∧ (signal o).result? = o.result? := by
  cases o <;> exact ⟨rfl, rfl, rfl, rfl, rfl⟩

/-- Until the executor has left, the owner has no result. -/
theorem Inv.no_result (h : Inv s) (hleft : s.executor ≠ .left) : s.owner.result? ≠ some v :=
  fun hv => hleft (h.seen (Owner.hasSeen_of_result hv))

/-- `avbox_delegate_execute` keeps the invariant. -/
theorem execute_inv (h : Inv s) (hex : execute s v = some t) : Inv t := by
  obtain ⟨executor, owner, lock, finished, dettached, result, returned, frees⟩ := s
  cases executor with
  | func =>
    cases hex
    exact ⟨h.lockExecutor, h.lockOwner, h.finished, h.dettached, (fun hs => nomatch h.seen hs),
      nofun, nofun, h.frees, fun _ => rfl, fun v hv => absurd hv (h.no_result nofun)⟩
  | lock =>
    obtain ⟨hlock, hex⟩ := Option.ite_none_right_eq_some.mp hex
    cases hex
    cases hlock
    refine ⟨⟨fun _ => rfl, fun _ => rfl⟩, ?_, h.finished, h.dettached, (fun hs => nomatch h.seen hs),
      nofun, nofun, h.frees, fun _ => h.returned nofun, h.result⟩
    exact ⟨nofun, fun hholds => nomatch h.lockOwner.mpr hholds⟩
  | finish =>
    have hholds : owner.holds ≠ true := by
      intro hholds
      have howner := h.lockOwner.mpr hholds
      have hexec := h.lockExecutor.mpr rfl
      exact nomatch howner.symm.trans hexec
    cases hd : dettached with
    | true =>
      cases (if_pos hd).symm.trans hex
      have hret : owner = .dettached := Owner.eq_dettached (h.dettached.symm.trans hd) hholds
      exact ⟨h.lockExecutor, h.lockOwner, rfl, h.dettached, (fun hs => nomatch h.seen hs), nofun,
        fun _ => hret, h.frees, fun _ => h.returned nofun, h.result⟩
    | false =>
      cases (if_neg (hd ▸ Bool.false_ne_true)).symm.trans hex
      obtain ⟨h1, h2, h3, h4, h5⟩ := signal_eq owner
      refine ⟨h.lockExecutor, ?_, rfl, ?_, ?_, ?_, nofun, ?_, fun _ => h.returned nofun, ?_⟩
      · exact h1 ▸ h.lockOwner
      · exact h.dettached.trans h2.symm
      · exact fun hs => nomatch h.seen (h3.symm.trans hs)
      · exact fun _ => h2.trans (h.dettached.symm.trans hd)
      · exact h4 ▸ h.frees
      · exact fun v hv => h.result v (h5.symm.trans hv)
  | unlock =>
    cases hex
    have hlock : lock = some .executor := h.lockExecutor.mpr rfl
    refine ⟨⟨nofun, nofun⟩, ⟨nofun, fun hholds => ?_⟩, h.finished, h.dettached, fun _ => rfl,
      fun _ => h.last rfl, nofun, h.frees, fun _ => h.returned nofun, h.result⟩
    exact nomatch hlock.symm.trans (h.lockOwner.mpr hholds)
  | left | destroyed => cases hex
  | unlockDettached =>
    cases hex
    have hlock : lock = some .executor := h.lockExecutor.mpr rfl
    refine ⟨⟨nofun, nofun⟩, ⟨nofun, fun hholds => ?_⟩, h.finished, h.dettached,
      (fun hs => nomatch h.seen hs), nofun, fun _ => h.first rfl, h.frees,
      fun _ => h.returned nofun, h.result⟩
    exact nomatch hlock.symm.trans (h.lockOwner.mpr hholds)
  | destroy =>
    cases hex
    refine ⟨h.lockExecutor, h.lockOwner, h.finished, h.dettached, (fun hs => nomatch h.seen hs), nofun,
      fun _ => h.first rfl, ?_, fun _ => h.returned nofun, h.result⟩
    have hfrees : frees = 0 + owner.frees := h.frees
    show frees + 1 = 1 + owner.frees
    omega

/-- When the call has finished and the owner has the lock, the executor has left it the delegate,
    unless it was detached. -/
theorem Inv.left (h : Inv s) (hfin : s.finished = true) (hlock : s.executor.holds ≠ true)
    (hret : s.owner ≠ .dettached) : s.executor = .left := by
  have hfinished := h.finished.symm.trans hfin
  have hfirst := h.first
  cases hex : s.executor with
  | left => rfl
  | func | lock | finish =>
    rw [hex] at hfinished
    cases hfinished
  | unlock | unlockDettached =>
    rw [hex] at hlock
    exact absurd rfl hlock
  | destroy | destroyed =>
    rw [hex] at hfirst
    exact absurd (hfirst rfl) hret

/-- While the owner holds the lock the executor does not. -/
theorem Inv.executor_holds (h : Inv s) (hlock : s.lock ≠ some .executor) :
    s.executor.holds ≠ true :=
  fun hholds => hlock (h.lockExecutor.mpr hholds)

/-- The calls of the owner keep the invariant, if `pthread_cond_wait` returns when the call has
    finished. -/
theorem ownerCall_inv (h : Inv s) (hex : ownerCall s = some t)
    (hwait : s.owner = .woken → s.lock = none → s.finished = true) : Inv t := by
  obtain ⟨executor, owner, lock, finished, dettached, result, returned, frees⟩ := s
  cases owner with
  | idle | waiting | waited | dettached | dettachedLast => cases hex
  | waitLock | dettachLock =>
    obtain ⟨hlock, hex⟩ := Option.ite_none_right_eq_some.mp hex
    cases hex
    cases hlock
    refine ⟨?_, ⟨fun _ => rfl, fun _ => rfl⟩, h.finished, h.dettached, nofun, h.last,
      (fun hd => nomatch h.first hd), h.frees, h.returned, nofun⟩
    exact ⟨nofun, fun hholds => nomatch h.lockExecutor.mpr hholds⟩
  | waitTest =>
    have hlock : lock = some .owner := h.lockOwner.mpr rfl
    cases finished with
    | true =>
      cases hex
      have hleft := h.left rfl (h.executor_holds (hlock ▸ nofun)) nofun
      exact ⟨h.lockExecutor, h.lockOwner, h.finished, h.dettached, fun _ => hleft, h.last,
        (fun hd => nomatch h.first hd), h.frees, h.returned, nofun⟩
    | false =>
      cases hex
      refine ⟨⟨nofun, fun hholds => ?_⟩, ⟨nofun, nofun⟩, h.finished, h.dettached, nofun, h.last,
        (fun hd => nomatch h.first hd), h.frees, h.returned, nofun⟩
      exact nomatch hlock.symm.trans (h.lockExecutor.mpr hholds)
  | woken =>
    obtain ⟨hlock, hex⟩ := Option.ite_none_right_eq_some.mp hex
    cases hex
    cases hlock
    have hleft := h.left (hwait rfl rfl) (h.executor_holds nofun) nofun
    refine ⟨?_, ⟨fun _ => rfl, fun _ => rfl⟩, h.finished, h.dettached, fun _ => hleft, h.last,
      (fun hd => nomatch h.first hd), h.frees, h.returned, nofun⟩
    exact ⟨nofun, fun hholds => nomatch h.lockExecutor.mpr hholds⟩
  | waitUnlock | dettachFinished =>
    have hlock : lock = some .owner := h.lockOwner.mpr rfl
    cases hex
    refine ⟨⟨nofun, fun hholds => ?_⟩, ⟨nofun, nofun⟩, h.finished, h.dettached,
      fun _ => h.seen rfl, h.last, (fun hd => nomatch h.first hd), h.frees, h.returned, nofun⟩
    exact nomatch hlock.symm.trans (h.lockExecutor.mpr hholds)
  | waitResult =>
    cases hex
    exact ⟨h.lockExecutor, h.lockOwner, h.finished, h.dettached, fun _ => h.seen rfl, h.last,
      (fun hd => nomatch h.first hd), h.frees, h.returned, fun v hv => Option.some.inj hv⟩
  | waitDestroy | dettachDestroy =>
    cases hex
    refine ⟨h.lockExecutor, h.lockOwner, h.finished, h.dettached, fun _ => h.seen rfl, h.last,
      (fun hd => nomatch h.first hd), ?_, h.returned, h.result⟩
    have hfrees : frees = executor.frees + 0 := h.frees
    show frees + 1 = executor.frees + 1
    omega
  | dettachTest =>
    have hlock : lock = some .owner := h.lockOwner.mpr rfl
    cases finished with
    | true =>
      cases hex
      have hleft := h.left rfl (h.executor_holds (hlock ▸ nofun)) nofun
      exact ⟨h.lockExecutor, h.lockOwner, h.finished, h.dettached, fun _ => hleft, h.last,
        (fun hd => nomatch h.first hd), h.frees, h.returned, nofun⟩
    | false =>
      cases hex
      have hfin : false = executor.hasFinished := h.finished
      refine ⟨h.lockExecutor, h.lockOwner, h.finished, rfl, nofun, ?_,
        (fun hd => nomatch h.first hd), h.frees, h.returned, nofun⟩
      intro hleaves
      cases executor with
      | unlock | left => cases hfin
      | _ => cases hleaves
  | dettachUnlock =>
    have hlock : lock = some .owner := h.lockOwner.mpr rfl
    cases hex
    refine ⟨⟨nofun, fun hholds => ?_⟩, ⟨nofun, nofun⟩, h.finished, h.dettached, nofun, h.last,
      fun _ => rfl, h.frees, h.returned, nofun⟩
    exact nomatch hlock.symm.trans (h.lockExecutor.mpr hholds)

/-! ## Runs -/

/-- A side that goes on has the delegate: nobody has freed it. -/
theorem Inv.execute_fine (h : Inv s) (hex : execute s v = some t) : use s = .fine := by
  have hfrees := h.frees
  have hseen := h.seen
  obtain ⟨executor, owner, lock, finished, dettached, result, returned, frees⟩ := s
  have hexecutor : executor ≠ .left ∧ executor ≠ .destroyed := by
    constructor <;> (rintro rfl; cases hex)
  have howner : owner.frees = 0 := by
    cases owner with
    | waited | dettachedLast => exact absurd (hseen rfl) hexecutor.1
    | _ => rfl
  have hzero : executor.frees = 0 := by
    cases executor with
    | destroyed => exact absurd rfl hexecutor.2
    | _ => rfl
  dsimp only at hfrees
  rw [howner, hzero] at hfrees
  exact if_pos hfrees

theorem Inv.owner_fine (h : Inv s) (hex : ownerCall s = some t) : use s = .fine := by
  have hfrees := h.frees
  have hfirst := h.first
  obtain ⟨executor, owner, lock, finished, dettached, result, returned, frees⟩ := s
  have howner : owner.frees = 0 ∧ owner ≠ .dettached := by
    cases owner with
    | waited | dettachedLast | dettached => cases hex
    | _ => exact ⟨rfl, nofun⟩
  have hzero : executor.frees = 0 := by
    cases executor with
    | destroyed => exact absurd (hfirst rfl) howner.2
    | _ => rfl
  dsimp only at hfrees
  rw [howner.1, hzero] at hfrees
  exact if_pos hfrees

/-- Every step keeps the invariant and uses a delegate that was not freed. -/
theorem step_inv {e : Event} {u : Use} (h : Inv s) (hwait : ReturnsFinished s e)
    (hstep : step s e = some (t, u)) : Inv t ∧ u = .fine := by
  cases e with
  | execute v =>
    obtain ⟨t', hex, heq⟩ := Option.map_eq_some_iff.mp hstep
    cases heq
    exact ⟨execute_inv h hex, h.execute_fine hex⟩
  | owner =>
    obtain ⟨t', hex, heq⟩ := Option.map_eq_some_iff.mp hstep
    cases heq
    exact ⟨ownerCall_inv h hex (hwait rfl), h.owner_fine hex⟩
  | wait | dettach =>
    obtain ⟨hidle, heq⟩ := Option.ite_none_right_eq_some.mp hstep
    cases heq
    obtain ⟨executor, owner, lock, finished, dettached, result, returned, frees⟩ := s
    cases hidle
    exact ⟨⟨h.lockExecutor, h.lockOwner, h.finished, h.dettached, nofun, h.last,
      (fun hd => nomatch h.first hd), h.frees, h.returned, nofun⟩, rfl⟩
  | wakeUp =>
    obtain ⟨hwaiting, heq⟩ := Option.ite_none_right_eq_some.mp hstep
    cases heq
    obtain ⟨executor, owner, lock, finished, dettached, result, returned, frees⟩ := s
    cases hwaiting
    exact ⟨⟨h.lockExecutor, h.lockOwner, h.finished, h.dettached, nofun, h.last,
      (fun hd => nomatch h.first hd), h.frees, h.returned, nofun⟩, rfl⟩

/-- `avbox_delegate_execute` has returned. -/
def Executor.isDone : Executor → Bool
  | .left | .destroyed => true
  | _ => false

/-- The call of the owner has returned. -/
def Owner.isDone : Owner → Bool
  | .waited _ | .dettached | .dettachedLast => true
  | _ => false

/-- `avbox_delegate_wait` returns after `func` with its result, the delegate is freed at most once,
    and once when both sides are through, and it is not used after it was freed. -/
structure Safe (tr : List (Event × Use)) (s : State) : Prop where
  waited : ∀ v, s.owner = .waited v → s.returned = some v
  once : s.frees ≤ 1
  freed : s.executor.isDone = true → s.owner.isDone = true → s.frees = 1
  unused : ∀ a ∈ tr, a.2 = .fine

theorem Inv.waited (h : Inv s) (hv : s.owner = .waited v) : s.returned = some v := by
  have hseen := h.seen (by rw [hv]; rfl)
  rw [h.returned (by rw [hseen]; exact nofun), h.result v (by rw [hv]; rfl)]

theorem Owner.frees_le (o : Owner) : o.frees ≤ 1 := by
  cases o <;> simp

theorem Inv.frees_le (h : Inv s) : s.frees ≤ 1 := by
  have hfrees := h.frees
  have hfirst := h.first
  rw [hfrees]
  cases hex : s.executor with
  | destroyed =>
    rw [hex] at hfirst
    rw [hfirst rfl]
    exact Nat.le_refl 1
  | _ =>
    simp only [Executor.frees, Nat.zero_add]
    exact s.owner.frees_le

theorem Inv.freed (h : Inv s) (hex : s.executor.isDone = true) (how : s.owner.isDone = true) :
    s.frees = 1 := by
  have hlast := h.last
  have hfirst := h.first
  rw [h.frees]
  cases he : s.executor with
  | left =>
    rw [he] at hlast
    cases ho : s.owner with
    | waited | dettachedLast => rfl
    | dettached =>
      rw [ho] at hlast
      exact nomatch hlast rfl
    | _ =>
      rw [ho] at how
      cases how
  | destroyed =>
    rw [he] at hfirst
    rw [hfirst rfl]
    rfl
  | _ =>
    rw [he] at hex
    cases hex

/-- **Delegates**: in every interleaving of `avbox_delegate_execute` with one call of the owner,
    `avbox_delegate_wait` returns after `func` with its result, and the delegate is freed once and
    not used afterwards, if `pthread_cond_wait` returns only after the call has finished. -/
theorem delegate_safe {tr : List (Event × Use)} {s : State}
    (hrun : Run (Guarded step ReturnsFinished) init tr s) : Safe tr s := by
  have hinv : Inv s ∧ ∀ a ∈ tr, a.2 = Use.fine := by
    refine Run.history (P := fun tr s => Inv s ∧ ∀ a ∈ tr, a.2 = Use.fine)
      ⟨init_inv, fun _ ha => nomatch ha⟩ ?_ hrun
    rintro tr s a t ⟨hs, hpast⟩ ⟨hwait, hstep⟩
    obtain ⟨ht, hfine⟩ := step_inv hs hwait hstep
    refine ⟨ht, fun b hb => ?_⟩
    rcases List.mem_append.mp hb with hold | hlast
    · exact hpast b hold
    · rw [List.mem_singleton.mp hlast]
      exact hfine
  exact ⟨fun v => hinv.1.waited, hinv.1.frees_le, hinv.1.freed, hinv.2⟩

/-- The owner waits, the function returns 7, and the owner is signalled. -/
theorem delegate_safe_signalled : ∃ tr s, Run (Guarded step ReturnsFinished) init tr s ∧
    s.owner = .waited 7 ∧ Safe tr s := by
  have hrun : Run (Guarded step ReturnsFinished) init _ _ := run_of_guarded_exec
    [.wait, .owner, .owner, .execute 7, .execute 0, .execute 0, .execute 0, .owner, .owner, .owner,
      .owner] rfl
  exact ⟨_, _, hrun, rfl, delegate_safe hrun⟩

/-- `pthread_cond_wait` wakes up while the function runs: `avbox_delegate_wait` returns without a
    result and frees the delegate. -/
theorem wait_returns_early :
    ¬ ∀ (tr : List (Event × Use)) (s : State), Run (Step step) init tr s → Safe tr s := by
  intro hall
  have hrun := run_of_exec (f := step) (s := init)
    [.wait, .owner, .owner, .wakeUp, .owner, .owner, .owner, .owner] rfl
  exact nomatch (hall _ _ hrun).waited 0 rfl

end Mediabox.Delegate
