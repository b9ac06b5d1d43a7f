import Mediabox.Lib.Transition
import Mediabox.LinkedList
import Mediabox.TimeUtil

/-!
# The timers thread (`src/lib/timers.c`)

The list of timers under `timers_lock`, `avbox_timer_register` and `avbox_timer_cancel` at any
instants, and the passes of `avbox_timers_thread` (one round of its loop, woken by time or by the
signal) with the clock readings they make.  Instants and readings never decrease from step to
step; a clock reading and the interval a caller gives are normalized.

A timer keeps the time that is left (`value`), and a pass takes from it the time since the pass
before, not since the timer was registered.  So a timer registered at `t`, when the last pass read
the clock at `L`, is due at `L` plus its interval:

* `fired_iff` — a pass at `N` fires exactly the timers with `seen + interval ≤ N`, where `seen` is
  that `L` (for a timer that was reloaded, the reading of the pass that fired it).
* `timer_fires_early` — a timer of five seconds that fires at once.
* `never_early_iff` — a run fires no timer early if and only if no pass of it falls in the gap
  between `seen + interval` and `since + interval` of a pending timer.
-/

set_option autoImplicit false

namespace Mediabox.Timers

open Transition

/-- `enum avbox_timer_result`. -/
inductive TimerResult where
  | continue
  | stop
  deriving DecidableEq, Repr

/-- `AVBOX_TIMER_TYPE_AUTORELOAD` -/
def flagAutoreload : Nat := 1

/-- `AVBOX_TIMER_MESSAGE` -/
def flagMessage : Nat := 2

/-- `struct avbox_timer_state`; of the callback only whether there is one.  `since` and `seen` are
    bookkeeping: the instant of the registration or of the last firing, and the clock reading
    `value` was counted from. -/
structure Timer where
  id : Int
  interval : Timespec
  value : Timespec
  flags : Nat
  messageObject : Option Nat
  callback : Bool
  since : Timespec
  seen : Timespec
  deriving DecidableEq, Repr

structure State where
  timers : List Timer
  nextid : Int
  lastSleep : Timespec
  /-- the instant of the last step -/
  clock : Timespec
  deriving DecidableEq, Repr

/-- The timers thread has read the clock for the first time. -/
def init (now : Timespec) : State := ⟨[], 1, now, now⟩

/-- What a pass cannot decide: the results of the callbacks, and for which timers the payload was
    acquired and `avbox_object_sendmsg` succeeded. -/
structure PassEnv where
  ret : Int → TimerResult
  sent : Int → Bool

inductive Event where
  /-- `avbox_timer_register`; `alloc` says whether `acquire_timer` got a timer -/
  | register (now : Timespec) (interval : Timespec) (flags : Nat) (messageObject : Option Nat)
      (callback : Bool) (alloc : Bool)
  /-- `avbox_timer_cancel` -/
  | cancel (now : Timespec) (id : Int)
  /-- one round of the loop of `avbox_timers_thread` -/
  | pass (now : Timespec) (env : PassEnv)

/-- A timer that elapsed in a pass: whether its callback was called and whether a TIMER message
    was sent, and since when it had been waiting. -/
structure Firing where
  id : Int
  callback : Bool
  message : Bool
  interval : Timespec
  since : Timespec
  deriving DecidableEq, Repr

inductive Outcome where
  /-- `avbox_timer_register` returned this. -/
  | registered (ret : Int)
  /-- `avbox_timer_cancel` returned this. -/
  | cancelled (ret : Int)
  | passed (fired : List Firing) (sleeptime : Timespec)
  deriving DecidableEq, Repr

/-! ## The code -/

/-- A TIMER message is produced for this timer when it elapses. -/
def Timer.sends (tmr : Timer) (env : PassEnv) : Bool :=
  tmr.flags &&& flagMessage ≠ 0 && tmr.messageObject.isSome && env.sent tmr.id

/-- What others see of a timer that elapses. -/
def Timer.firing (tmr : Timer) (env : PassEnv) : Firing :=
  ⟨tmr.id, tmr.callback, tmr.sends env, tmr.interval, tmr.since⟩

/-- `ret`: the answer of the callback, CONTINUE when there is none. -/
def Timer.result (tmr : Timer) (env : PassEnv) : TimerResult :=
  if tmr.callback then env.ret tmr.id else .continue

/-- The body of the loop over the timers: what is left of the timer, whether it fired, and
    `sleeptime`. -/
def passTimer (now elapsed : Timespec) (env : PassEnv) (tmr : Timer) (sleeptime : Timespec) :
    Option Timer × Option Firing × Timespec :=
  if timelte tmr.value elapsed then
    if tmr.flags &&& flagAutoreload ≠ 0 then
      if tmr.result env = .continue then
        let tmr' := { tmr with value := tmr.interval, since := now, seen := now }
        (some tmr', some (tmr.firing env),
          if timelt tmr'.value sleeptime then tmr.interval else sleeptime)
      else (none, some (tmr.firing env), sleeptime)
    else (none, some (tmr.firing env), sleeptime)
  else
    let tmr' := { tmr with value := timediff elapsed tmr.value }
    (some tmr', none, if timelt tmr'.value sleeptime then tmr'.value else sleeptime)

/-- The loop over the timers. -/
def passTimers (now elapsed : Timespec) (env : PassEnv) :
    List Timer → Timespec → List Timer × List Firing × Timespec
  | [], sleeptime => ([], [], sleeptime)
  | tmr :: tmrs, sleeptime =>
    let one := passTimer now elapsed env tmr sleeptime
    let rest := passTimers now elapsed env tmrs one.2.2
    (one.1.toList ++ rest.1, one.2.1.toList ++ rest.2.1, rest.2.2)

/-- Instants are normalized and never decrease. -/
def State.mayRead (s : State) (now : Timespec) : Prop :=
  now.Normalized ∧ timelte s.clock now = true

instance (s : State) (now : Timespec) : Decidable (s.mayRead now) :=
  inferInstanceAs (Decidable (_ ∧ _))

/-- One step. -/
def step (s : State) : Event → Option (State × Outcome)
  | .register now interval flags messageObject callback alloc =>
    if s.mayRead now ∧ interval.Normalized then
      if alloc then
        let tmr : Timer :=
          ⟨s.nextid, interval, interval, flags, messageObject, callback, now, s.lastSleep⟩
        some ({ s with timers := listAdd s.timers tmr, nextid := s.nextid + 1, clock := now },
          .registered s.nextid)
      else some ({ s with clock := now }, .registered (-1))
    else none
  | .cancel now id =>
    if s.mayRead now then
      if s.timers.any (fun tmr => tmr.id == id) then
        some ({ s with timers := s.timers.eraseP (fun tmr => tmr.id == id), clock := now },
          .cancelled 0)
      else some ({ s with clock := now }, .cancelled (-1))
    else none
  | .pass now env =>
    if s.mayRead now then
      let r := passTimers now (timediff s.lastSleep now) env s.timers ⟨10, 0⟩
      some ({ s with timers := r.1, lastSleep := now, clock := now }, .passed r.2.1 r.2.2)
    else none

/-! ## When a timer is due -/

/-- The due time of a timer, by the code: `interval` after the reading `value` was counted from. -/
def Timer.due (tmr : Timer) : Int := tmr.seen.ns + tmr.interval.ns

/-- `value` is what is left until the due time, counted from the last pass. -/
structure Timer.Ok (lastSleep : Timespec) (tmr : Timer) : Prop where
  interval : tmr.interval.Normalized
  value : tmr.value.Normalized
  left : tmr.value.ns = tmr.due - lastSleep.ns

/-- Invariant of the timers under the lock. -/
structure Inv (s : State) : Prop where
  lastSleep : s.lastSleep.Normalized
  timers : ∀ tmr ∈ s.timers, tmr.Ok s.lastSleep

theorem init_inv {now : Timespec} (h : now.Normalized) : Inv (init now) :=
  ⟨h, fun _ hm => nomatch hm⟩

/-- A pass at `now` fires the timer exactly when it is due. -/
theorem Timer.Ok.elapsed_iff {lastSleep now : Timespec} {tmr : Timer} (hok : tmr.Ok lastSleep)
    (hlast : lastSleep.Normalized) (hnow : now.Normalized) :
    timelte tmr.value (timediff lastSleep now) = true ↔ tmr.due ≤ now.ns := by
  rw [timelte_iff hok.value (timediff_normalized hlast hnow), ns_timediff, hok.left]
  omega

theorem passTimer_ok {lastSleep now sleeptime : Timespec} {env : PassEnv} {tmr tmr' : Timer}
    (hok : tmr.Ok lastSleep) (hlast : lastSleep.Normalized) (hnow : now.Normalized)
    (h : (passTimer now (timediff lastSleep now) env tmr sleeptime).1 = some tmr') :
    tmr'.Ok now := by
  have hel := timediff_normalized hlast hnow
  unfold passTimer at h
  dsimp only at h
  split at h
  · split at h
    · split at h
      · cases h
        refine ⟨hok.interval, hok.interval, ?_⟩
        show tmr.interval.ns = now.ns + tmr.interval.ns - now.ns
        omega
      · cases h
    · cases h
  · cases h
    refine ⟨hok.interval, timediff_normalized hel hok.value, ?_⟩
    show (timediff (timediff lastSleep now) tmr.value).ns = tmr.due - now.ns
    rw [ns_timediff, ns_timediff, hok.left]
    omega

/-- A timer is reported as fired exactly when it elapsed. -/
theorem passTimer_fired (now elapsed sleeptime : Timespec) (env : PassEnv) (tmr : Timer) :
    (passTimer now elapsed env tmr sleeptime).2.1 =
      if timelte tmr.value elapsed then some (tmr.firing env) else none := by
  unfold passTimer
  dsimp only
  split
  · split
    · split <;> rfl
    · rfl
  · rfl

theorem passTimers_ok {lastSleep now : Timespec} {env : PassEnv} (hlast : lastSleep.Normalized)
    (hnow : now.Normalized) : ∀ (tmrs : List Timer) (sleeptime : Timespec),
    (∀ tmr ∈ tmrs, tmr.Ok lastSleep) →
    ∀ tmr ∈ (passTimers now (timediff lastSleep now) env tmrs sleeptime).1, tmr.Ok now
  | [], _, _, _, hm => nomatch hm
  | tmr₀ :: tmrs, sleeptime, hall, tmr, hm => by
    simp only [passTimers, List.mem_append, Option.mem_toList] at hm
    rcases hm with hone | hrest
    · exact passTimer_ok (hall _ List.mem_cons_self) hlast hnow hone
    · exact passTimers_ok hlast hnow tmrs _ (fun t ht => hall t (List.mem_cons_of_mem _ ht)) tmr
        hrest

theorem mem_passTimers_fired {now elapsed : Timespec} {env : PassEnv} {f : Firing} :
    ∀ (tmrs : List Timer) (sleeptime : Timespec),
    f ∈ (passTimers now elapsed env tmrs sleeptime).2.1 ↔
      ∃ tmr ∈ tmrs, timelte tmr.value elapsed = true ∧ f = tmr.firing env
  | [], _ => by simp [passTimers]
  | tmr :: tmrs, sleeptime => by
    simp only [passTimers, List.mem_append, Option.mem_toList, passTimer_fired,
      mem_passTimers_fired tmrs, List.mem_cons, exists_eq_or_imp]
    refine or_congr ?_ Iff.rfl
    split
    · rename_i helapsed
      simp [helapsed, eq_comm]
    · rename_i helapsed
      simp [helapsed]

/-- **A pass fires exactly the timers that are due.** -/
theorem fired_iff {s s' : State} (hinv : Inv s) {now sleeptime : Timespec} {env : PassEnv}
    {fired : List Firing} (h : step s (.pass now env) = some (s', .passed fired sleeptime))
    (f : Firing) : f ∈ fired ↔ ∃ tmr ∈ s.timers, tmr.due ≤ now.ns ∧ f = tmr.firing env := by
  simp only [step] at h
  split at h
  · rename_i hread
    cases h
    rw [mem_passTimers_fired]
    refine exists_congr fun tmr => and_congr_right fun hm => ?_
    rw [(hinv.timers tmr hm).elapsed_iff hinv.lastSleep hread.1]
  · cases h

/-! ## Every step preserves the invariant -/

theorem step_inv {s s' : State} {e : Event} {out : Outcome} (hinv : Inv s)
    (h : step s e = some (s', out)) : Inv s' := by
  cases e with
  | register now interval flags messageObject callback alloc =>
    simp only [step] at h
    split at h
    · rename_i hok
      split at h
      · cases h
        refine ⟨hinv.lastSleep, ?_⟩
        intro tmr hm
        rcases List.mem_cons.mp hm with rfl | hm
        · refine ⟨hok.2, hok.2, ?_⟩
          show interval.ns = s.lastSleep.ns + interval.ns - s.lastSleep.ns
          omega
        · exact hinv.timers tmr hm
      · cases h
        exact ⟨hinv.lastSleep, hinv.timers⟩
    · cases h
  | cancel now id =>
    simp only [step] at h
    split at h
    · split at h
      · cases h
        exact ⟨hinv.lastSleep, fun tmr hm => hinv.timers tmr (List.mem_of_mem_eraseP hm)⟩
      · cases h
        exact ⟨hinv.lastSleep, hinv.timers⟩
    · cases h
  | pass now env =>
    simp only [step] at h
    split at h
    · rename_i hread
      cases h
      exact ⟨hread.1, passTimers_ok hinv.lastSleep hread.1 _ _ hinv.timers⟩
    · cases h

theorem run_inv {t₀ : Timespec} (h₀ : t₀.Normalized) {tr : List (Event × Outcome)} {s : State}
    (hrun : Run (Step step) (init t₀) tr s) : Inv s :=
  hrun.invariant (init_inv h₀) fun _ _ _ hinv hstep => step_inv hinv hstep

/-! ## Main theorem -/

/-- The callback or the message of this firing came no earlier than `interval` after the timer
    was registered or last fired. -/
def Firing.Timely (now : Timespec) (f : Firing) : Prop :=
  (f.callback = true ∨ f.message = true) → f.since.ns + f.interval.ns ≤ now.ns

/-- What this step fired, it did not fire early. -/
def TimelyStep : Event × Outcome → Prop
  | (.pass now _, .passed fired _) => ∀ f ∈ fired, f.Timely now
  | _ => True

/-- A pass at `now` does not fall between the due time of a pending timer and the end of its
    interval, unless the timer has neither a callback nor a message to send. -/
def InTime (s : State) : Event → Prop
  | .pass now env => ∀ tmr ∈ s.timers, tmr.callback = true ∨ tmr.sends env = true →
      ¬(tmr.seen.ns + tmr.interval.ns ≤ now.ns ∧ now.ns < tmr.since.ns + tmr.interval.ns)
  | _ => True

/-- One step fires nothing early exactly when it is in time. -/
theorem step_inTime_iff {s s' : State} {e : Event} {out : Outcome} (hinv : Inv s)
    (h : step s e = some (s', out)) : InTime s e ↔ TimelyStep (e, out) := by
  cases e with
  | register now interval flags messageObject callback alloc | cancel now id => exact Iff.rfl
  | pass now env =>
    obtain ⟨fired, sleeptime, rfl⟩ : ∃ fired sleeptime, out = .passed fired sleeptime := by
      simp only [step] at h
      split at h
      · cases h; exact ⟨_, _, rfl⟩
      · cases h
    constructor
    · intro hin f hf hseen
      obtain ⟨tmr, hm, hdue, rfl⟩ := (fired_iff hinv h f).mp hf
      by_contra hlt
      exact hin tmr hm hseen ⟨hdue, Int.not_le.mp hlt⟩
    · rintro htimely tmr hm hseen ⟨hdue, hlt⟩
      have hf := (fired_iff hinv h (tmr.firing env)).mpr ⟨tmr, hm, hdue, rfl⟩
      exact absurd (htimely _ hf hseen) (Int.not_le.mpr hlt)

/-- **Timers and the passes of their thread.**  A run fires no timer before its interval is over if
    and only if no pass of the run falls between the due time of a pending timer (`interval` after
    the pass before its registration) and the end of its interval. -/
theorem never_early_iff {t₀ : Timespec} (h₀ : t₀.Normalized) {tr : List (Event × Outcome)}
    {s : State} (hrun : Run (Step step) (init t₀) tr s) :
    (∀ a ∈ tr, TimelyStep a) ↔ Run (Guarded step InTime) (init t₀) tr s :=
  hrun.guarded_iff fun _ _ _ _ hpast hstep => step_inTime_iff (run_inv h₀ hpast) hstep

/-- No message is sent; every callback wants to go on. -/
def quietEnv : PassEnv := ⟨fun _ => .continue, fun _ => false⟩

/-- A timer of five seconds, registered when the thread starts, fires after five seconds. -/
theorem never_early_iff_five_seconds :
    ∃ (tr : List (Event × Outcome)) (s : State), Run (Step step) (init ⟨0, 0⟩) tr s ∧
      ((∀ a ∈ tr, TimelyStep a) ↔ Run (Guarded step InTime) (init ⟨0, 0⟩) tr s) :=
  have hrun := run_of_exec [.register ⟨0, 0⟩ ⟨5, 0⟩ 0 none true true, .pass ⟨5, 0⟩ quietEnv] rfl
  ⟨_, _, hrun, never_early_iff (by decide) hrun⟩

/-- The thread slept since second 0.  A timer of five seconds is registered at second 9, and the
    pass that the signal causes fires it. -/
theorem timer_fires_early :
    ¬∀ (t₀ : Timespec) (tr : List (Event × Outcome)) (s : State), t₀.Normalized →
      Run (Step step) (init t₀) tr s → ∀ a ∈ tr, TimelyStep a := by
  intro hclaim
  have hrun := run_of_exec (f := step) (s := init ⟨0, 0⟩)
    [.register ⟨9, 0⟩ ⟨5, 0⟩ 0 none true true, .pass ⟨9, 0⟩ quietEnv] rfl
  have htimely := hclaim _ _ _ (by decide) hrun _ (List.mem_cons_of_mem _ List.mem_cons_self)
  exact absurd (htimely _ List.mem_cons_self (Or.inl rfl)) (by decide)

end Mediabox.Timers
