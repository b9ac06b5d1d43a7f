import Mathlib
import Mediabox.Lib.MachineInt
import Mediabox.Lib.Transition

/-!
# The stopwatch (`src/lib/stopwatch.c`)

`avbox_stopwatch_start` and `avbox_stopwatch_stop` are calls of `avbox_stopwatch_reset` with the time
that the stopwatch shows.  A running one that is stopped reads the clock twice.

* `Clock` — the microseconds that `clock_gettime` and `utimediff` give, one reading after another.
* `Sheet` — what the stopwatch is for: the value of the last reset, the periods since then, and the
  beginning of the current one, with the readings that the calls took.
* `Reads` — the run invariant: the stopwatch agrees with the sheet of the calls so far.

Main result: `stopwatch_total`.
-/

set_option autoImplicit false

namespace Mediabox.Stopwatch

open MachineInt Outcome Transition

/-! ## The code -/

/-- The readings of the clock in microseconds. -/
structure Clock where
  reading : Nat → Int
  mono : Monotone reading
  range : ∀ n, 0 ≤ reading n ∧ reading n < 2 ^ 63

inductive Fault where
  | assert
  | overflow
  deriving DecidableEq, Repr

/-- `struct avbox_stopwatch` -/
structure Inst where
  running : Bool
  reset : Int
  value : Int
  deriving DecidableEq, Repr

/-- The stopwatch, and how often the clock was read. -/
structure State where
  inst : Inst
  reads : Nat
  /-- a call has failed -/
  failed : Bool
  deriving DecidableEq, Repr

/-- `avbox_stopwatch_new` -/
def new : State := ⟨⟨false, 0, 0⟩, 0, false⟩

def gettime (clock : Clock) (s : State) : Int × State :=
  (clock.reading s.reads, { s with reads := s.reads + 1 })

/-- `avbox_stopwatch_reset` -/
def reset (clock : Clock) (s : State) (value : Int) : State :=
  let (now, s) := gettime clock s
  { s with inst := ⟨false, now, value⟩ }

/-- `avbox_stopwatch_time` -/
def time (clock : Clock) (s : State) : Except Fault (Int × State) :=
  if s.inst.running then do
    let (now, s) := gettime clock s
    let elapsed ← arith 64 .overflow (now - s.inst.reset)
    let ret ← arith 64 .overflow (elapsed + s.inst.value)
    .ok (ret, s)
  else .ok (s.inst.value, s)

/-- `avbox_stopwatch_start` -/
def start (clock : Clock) (s : State) : Except Fault State :=
  if s.inst.running then .error .assert
  else do
    let (t, s) ← time clock s
    let s := reset clock s t
    .ok { s with inst := { s.inst with running := true } }

/-- `avbox_stopwatch_stop` -/
def stop (clock : Clock) (s : State) : Except Fault State := do
  let (t, s) ← time clock s
  .ok (reset clock s t)

inductive Event where
  | reset (value : Int64)
  | start
  | stop
  | time
  deriving DecidableEq

inductive Result where
  | done
  | shown (t : Int)
  | fault (f : Fault)
  deriving DecidableEq, Repr

/-- What a call shows, and the readings that it took. -/
structure Answer where
  readings : List Int
  result : Result
  deriving DecidableEq, Repr

def call (clock : Clock) (s : State) : Event → Except Fault (State × Result)
  | .reset value => .ok (reset clock s value.toInt, .done)
  | .start => do
    let s ← start clock s
    .ok (s, .done)
  | .stop => do
    let s ← stop clock s
    .ok (s, .done)
  | .time => do
    let (t, s) ← time clock s
    .ok (s, .shown t)

/-- The readings that the clock gave since then. -/
def readings (clock : Clock) (first next : Nat) : List Int :=
  (List.range' first (next - first)).map clock.reading

/-- One call, as long as none has failed. -/
def step (clock : Clock) (s : State) (e : Event) : Option (State × Answer) :=
  if s.failed then none
  else
    match call clock s e with
    | .ok (s', result) => some (s', ⟨readings clock s.reads s'.reads, result⟩)
    | .error f => some ({ s with failed := true }, ⟨[], .fault f⟩)

/-- The stopwatch is started when it is stopped only. -/
def Alternates (s : State) (e : Event) : Prop := e = .start → s.inst.running = false

instance (s : State) (e : Event) : Decidable (Alternates s e) := inferInstanceAs (Decidable (_ → _))

/-! ## What it is for -/

/-- The value of the last reset, the periods since then, and when the current one began. -/
structure Sheet where
  base : Int
  periods : List (Int × Int)
  current : Option Int

/-- A call is noted with its first reading. -/
def Sheet.note (h : Sheet) (a : Event × Answer) : Sheet :=
  match a.1, a.2.readings with
  | .reset value, _ => ⟨value.toInt, [], none⟩
  | .start, r :: _ => { h with current := some r }
  | .stop, r :: _ =>
    match h.current with
    | some b => ⟨h.base, h.periods ++ [(b, r)], none⟩
    | none => h
  | _, _ => h

def sheet (tr : List (Event × Answer)) : Sheet := tr.foldl Sheet.note ⟨0, [], none⟩

/-- The length of the periods that are over. -/
def Sheet.over (h : Sheet) : Int := (h.periods.map fun p => p.2 - p.1).sum

/-- What the stopwatch should show at this reading. -/
def Sheet.total (h : Sheet) (now : Int) : Int :=
  h.base + h.over + h.current.elim 0 (now - ·)

/-- What holds when these calls have led to the state. -/
structure Kept (clock : Clock) (tr : List (Event × Answer)) (s : State) : Prop where
  /-- `avbox_stopwatch_time` gives the total, if that is an `int64_t` -/
  shows : Ensures (time clock s) (fun r => r.1 = (sheet tr).total (clock.reading s.reads))
    fun f => f = .overflow ∧ ¬InRange 64 ((sheet tr).total (clock.reading s.reads))
  /-- a call fails if the total is no `int64_t` -/
  fails : s.failed = true → ¬InRange 64 ((sheet tr).total (clock.reading s.reads))
  asserts : ∀ a ∈ tr, a.2.result ≠ .fault .assert
  /-- without a reset it never goes backwards -/
  forward : ∀ tr' s' t t' u u', Run (Guarded (step clock) Alternates) s tr' s' →
    (∀ a ∈ tr', ∀ value, a.1 ≠ .reset value) → time clock s = .ok (t, u) →
    time clock s' = .ok (t', u') → t ≤ t'
  /-- it does not advance while it is stopped -/
  still : ∀ tr' s' t t' u u', Run (Guarded (step clock) Alternates) s tr' s' →
    (∀ a ∈ tr', ∀ value, a.1 ≠ .reset value) → (∀ a ∈ tr', a.1 ≠ .start) →
    s.inst.running = false → time clock s = .ok (t, u) → time clock s' = .ok (t', u') → t = t'

variable {clock : Clock} {s s' : State} {tr : List (Event × Answer)} {e : Event}

/-! ## The invariant -/

/-- The stopwatch agrees with the sheet. -/
structure Reads (clock : Clock) (h : Sheet) (s : State) : Prop where
  value : s.inst.value = h.base + h.over
  stopped : s.inst.running = false → h.current = none
  running : s.inst.running = true → h.current = some s.inst.reset
  past : 0 ≤ s.inst.reset ∧ s.inst.reset ≤ clock.reading s.reads
  range : InRange 64 s.inst.value

theorem sheet_append (tr : List (Event × Answer)) (a : Event × Answer) :
    sheet (tr ++ [a]) = (sheet tr).note a := by
  rw [sheet, List.foldl_append]
  rfl

theorem Reads.total_running {h : Sheet} (hr : Reads clock h s) (hrun : s.inst.running = true)
    (now : Int) : h.total now = now - s.inst.reset + s.inst.value := by
  rw [Sheet.total, hr.running hrun, hr.value]
  exact Int.add_comm _ _

theorem Reads.total_stopped {h : Sheet} (hr : Reads clock h s) (hrun : s.inst.running = false)
    (now : Int) : h.total now = s.inst.value := by
  rw [Sheet.total, hr.stopped hrun, hr.value]
  exact Int.add_zero _

/-- The time that has passed since the last reset is an `int64_t`. -/
theorem Reads.elapsed {h : Sheet} (hr : Reads clock h s) :
    InRange 64 (clock.reading s.reads - s.inst.reset) := by
  have hrange := clock.range s.reads
  have hpast := hr.past
  rw [inRange_64]
  omega

/-- **The time**: it is the total of the sheet at the reading that the call takes. -/
theorem time_ensures {h : Sheet} (hr : Reads clock h s) :
    Ensures (time clock s)
      (fun r => r.1 = h.total (clock.reading s.reads) ∧
        InRange 64 (h.total (clock.reading s.reads)) ∧
        r.2 = { s with reads := if s.inst.running then s.reads + 1 else s.reads })
      fun f => f = .overflow ∧ ¬InRange 64 (h.total (clock.reading s.reads)) := by
  unfold time
  cases hrun : s.inst.running with
  | false =>
    have htotal := hr.total_stopped hrun (clock.reading s.reads)
    exact ⟨htotal.symm, htotal ▸ hr.range, rfl⟩
  | true =>
    rw [hr.total_running hrun, if_pos rfl]
    dsimp only [gettime]
    rw [arith_ok hr.elapsed]
    by_cases hfits : InRange 64 (clock.reading s.reads - s.inst.reset + s.inst.value)
    · simp only [bind, Except.bind, arith_ok hfits]
      exact ⟨rfl, hfits, rfl⟩
    · simp only [bind, Except.bind, arith_error hfits]
      exact ⟨rfl, hfits⟩

theorem readings_one (clock : Clock) (n : Nat) : readings clock n (n + 1) = [clock.reading n] := by
  rw [readings, Nat.add_sub_cancel_left]
  rfl

theorem readings_two (clock : Clock) (n : Nat) :
    readings clock n (n + 1 + 1) = [clock.reading n, clock.reading (n + 1)] := by
  rw [readings, Nat.add_assoc, Nat.add_sub_cancel_left]
  rfl

theorem clock_past (clock : Clock) (n : Nat) :
    0 ≤ clock.reading n ∧ clock.reading n ≤ clock.reading (n + 1) :=
  ⟨(clock.range n).1, clock.mono (Nat.le_succ n)⟩

/-- What one call does: with its note the sheet agrees with the new state. -/
structure Follows (clock : Clock) (h : Sheet) (s : State) (a : Event × Answer) (s' : State) :
    Prop where
  reads : Reads clock (h.note a) s'
  forward : (∀ value, a.1 ≠ .reset value) →
    h.total (clock.reading s.reads) ≤ (h.note a).total (clock.reading s'.reads)
  still : (∀ value, a.1 ≠ .reset value) → a.1 ≠ .start → h.current = none → h.note a = h
  asserts : a.2.result ≠ .fault .assert

/-- The total does not shrink while time passes. -/
theorem Reads.total_mono {h : Sheet} (hr : Reads clock h s) {m n : Int} (hle : m ≤ n) :
    h.total m ≤ h.total n := by
  cases hrun : s.inst.running with
  | false => exact le_of_eq ((hr.total_stopped hrun m).trans (hr.total_stopped hrun n).symm)
  | true =>
    rw [hr.total_running hrun, hr.total_running hrun]
    omega

/-- **One call**: it keeps the sheet, or its total is not an `int64_t`. -/
theorem call_ensures {h : Sheet} (hr : Reads clock h s) (hok : Alternates s e) :
    Ensures (call clock s e)
      (fun r => Follows clock h s (e, ⟨readings clock s.reads r.1.reads, r.2⟩) r.1 ∧
        r.1.failed = s.failed)
      fun f => f = .overflow ∧ ¬InRange 64 (h.total (clock.reading s.reads)) := by
  cases e with
  | reset value =>
    refine ⟨⟨⟨?_, fun _ => rfl, by rintro ⟨⟩, clock_past clock s.reads, ?_⟩, ?_, ?_, ?_⟩, rfl⟩
    · exact (Int.add_zero _).symm
    · exact inRange_64.mpr ⟨value.le_toInt, value.toInt_lt⟩
    · exact fun hreset => absurd rfl (hreset value)
    · exact fun hreset => absurd rfl (hreset value)
    · rintro ⟨⟩
  | start =>
    have hrun := hok rfl
    simp only [call, start, hrun, time, gettime, reset, Bool.false_eq_true, if_false, bind,
      Except.bind, ensures_ok]
    rw [readings_one]
    refine ⟨⟨⟨hr.value, by rintro ⟨⟩, fun _ => rfl, clock_past clock s.reads, hr.range⟩,
      fun _ => ?_, fun _ hstart => absurd rfl hstart, by rintro ⟨⟩⟩, trivial⟩
    have hpast := clock_past clock s.reads
    rw [hr.total_stopped hrun, hr.value]
    exact le_add_of_nonneg_right (Int.sub_nonneg_of_le hpast.2)
  | stop =>
    simp only [call, stop, ensures_bind]
    refine (time_ensures hr).mono ?_ fun f hf => hf
    rintro r ⟨ht, hrange, hs⟩
    rw [hs, ensures_ok, ensures_ok]
    cases hrun : s.inst.running with
    | false =>
      rw [hr.total_stopped hrun] at ht
      have hkeep : Sheet.note h (.stop, ⟨readings clock s.reads (s.reads + 1), .done⟩) = h := by
        simp only [Sheet.note, readings_one, hr.stopped hrun]
      simp only [reset, gettime, Bool.false_eq_true, if_false, ht]
      refine ⟨⟨?_, fun _ => ?_, fun _ _ _ => hkeep, by rintro ⟨⟩⟩, trivial⟩
      · rw [hkeep]
        exact ⟨hr.value, fun _ => hr.stopped hrun, by rintro ⟨⟩, clock_past clock s.reads, hr.range⟩
      · rw [hkeep]
        exact hr.total_mono (clock_past clock s.reads).2
    | true =>
      have hover : Sheet.note h (.stop, ⟨readings clock s.reads (s.reads + 1 + 1), .done⟩) =
          ⟨h.base, h.periods ++ [(s.inst.reset, clock.reading s.reads)], none⟩ := by
        simp only [Sheet.note, readings_two, hr.running hrun]
      have hsum (now : Int) : Sheet.total ⟨h.base, h.periods ++
          [(s.inst.reset, clock.reading s.reads)], none⟩ now = h.total (clock.reading s.reads) := by
        rw [hr.total_running hrun, hr.value]
        simp only [Sheet.total, Sheet.over, List.map_append, List.sum_append, List.map_cons,
          List.map_nil, List.sum_singleton, Option.elim]
        omega
      simp only [reset, gettime, if_true]
      refine ⟨⟨?_, fun _ => ?_, fun _ _ hnone => ?_, by rintro ⟨⟩⟩, trivial⟩
      · rw [hover]
        refine ⟨?_, fun _ => rfl, by rintro ⟨⟩, clock_past clock (s.reads + 1), ht ▸ hrange⟩
        rw [ht, ← hsum 0]
        exact Int.add_zero _
      · rw [hover, hsum]
      · rw [hr.running hrun] at hnone
        cases hnone
  | time =>
    simp only [call, ensures_bind]
    refine (time_ensures hr).mono ?_ fun f hf => hf
    rintro r ⟨ht, hrange, hs⟩
    rw [hs, ensures_ok]
    have hlater : clock.reading s.reads ≤
        clock.reading (if s.inst.running then s.reads + 1 else s.reads) :=
      clock.mono (by split <;> omega)
    exact ⟨⟨⟨hr.value, hr.stopped, hr.running, ⟨hr.past.1, hr.past.2.trans hlater⟩, hr.range⟩,
      fun _ => hr.total_mono hlater, fun _ _ _ => rfl, by rintro ⟨⟩⟩, rfl⟩

/-- **One step**: it keeps the sheet; a failed one leaves it as it is. -/
theorem step_follows {h : Sheet} {a : Event × Answer} (hr : Reads clock h s)
    (hstep : Guarded (step clock) Alternates s a s') :
    Follows clock h s a s' ∧
      (s'.failed = true → ¬InRange 64 ((h.note a).total (clock.reading s'.reads))) := by
  obtain ⟨hok, hstep⟩ := hstep
  obtain ⟨e, o⟩ := a
  have hcall := call_ensures hr hok
  simp only [Step, step] at hstep
  split at hstep
  · cases hstep
  · rename_i hrunning
    cases hres : call clock s e with
    | ok r =>
      rw [hres, ensures_ok] at hcall
      simp only [hres, Option.some.injEq, Prod.mk.injEq] at hstep
      obtain ⟨rfl, rfl⟩ := hstep
      exact ⟨hcall.1, fun hfailed => absurd (hcall.2 ▸ hfailed) hrunning⟩
    | error f =>
      rw [hres, ensures_error] at hcall
      simp only [hres, Option.some.injEq, Prod.mk.injEq] at hstep
      obtain ⟨rfl, rfl⟩ := hstep
      have hkeep : Sheet.note h (e, ⟨[], .fault f⟩) = h ∨ ∃ value, e = .reset value := by
        cases e with
        | reset value => exact .inr ⟨value, rfl⟩
        | start | stop | time => exact .inl rfl
      rcases hkeep with hkeep | ⟨value, rfl⟩
      · rw [hkeep]
        refine ⟨⟨?_, fun _ => ?_, fun _ _ _ => hkeep, ?_⟩, fun _ => hcall.2⟩
        · rw [hkeep]
          exact ⟨hr.value, hr.stopped, hr.running, hr.past, hr.range⟩
        · rw [hkeep]
        · rw [hcall.1]
          exact nofun
      · cases hres

/-- **A run**: from a state that agrees with a sheet, the notes of the calls keep it so. -/
theorem run_follows {h : Sheet} (hr : Reads clock h s)
    (hrun : Run (Guarded (step clock) Alternates) s tr s') :
    Reads clock (tr.foldl Sheet.note h) s' ∧
      ((∀ a ∈ tr, ∀ value, a.1 ≠ .reset value) →
        h.total (clock.reading s.reads) ≤
            (tr.foldl Sheet.note h).total (clock.reading s'.reads) ∧
          ((∀ a ∈ tr, a.1 ≠ .start) → h.current = none → tr.foldl Sheet.note h = h)) := by
  refine Run.history (P := fun tr s' => Reads clock (tr.foldl Sheet.note h) s' ∧
    ((∀ a ∈ tr, ∀ value, a.1 ≠ .reset value) →
      h.total (clock.reading s.reads) ≤ (tr.foldl Sheet.note h).total (clock.reading s'.reads) ∧
        ((∀ a ∈ tr, a.1 ≠ .start) → h.current = none → tr.foldl Sheet.note h = h)))
    ⟨hr, fun _ => ⟨le_refl _, fun _ _ => rfl⟩⟩ ?_ hrun
  intro tr t a u ⟨hreads, hrest⟩ hstep
  have hone := (step_follows hreads hstep).1
  simp only [List.foldl_append, List.foldl_cons, List.foldl_nil, List.forall_mem_append,
    List.forall_mem_singleton]
  refine ⟨hone.reads, fun ⟨hreset, hlast⟩ => ?_⟩
  obtain ⟨hforward, hstill⟩ := hrest hreset
  refine ⟨hforward.trans (hone.forward hlast), fun ⟨hstart, hlaststart⟩ hnone => ?_⟩
  have hsame := hstill hstart hnone
  rw [hsame] at hone ⊢
  exact hone.still hlast hlaststart hnone

theorem Reads.time_eq {h : Sheet} {t : Int} {u : State} (hr : Reads clock h s)
    (ht : time clock s = .ok (t, u)) : t = h.total (clock.reading s.reads) := by
  have htime := time_ensures hr
  rw [ht, ensures_ok] at htime
  exact htime.1

theorem new_reads (clock : Clock) : Reads clock ⟨0, [], none⟩ new :=
  ⟨rfl, fun _ => rfl, nofun, ⟨le_refl _, (clock.range 0).1⟩, by
    rw [inRange_64]
    decide⟩

/-- **The stopwatch**: in every run that starts it only when it is stopped, the time is the value of
    the last reset and the length of the periods since then, as long as that is an `int64_t`.  It
    never goes backwards without a reset, and while it is stopped it does not advance. -/
theorem stopwatch_total (h : Run (Guarded (step clock) Alternates) new tr s) : Kept clock tr s := by
  obtain ⟨hreads, -⟩ := run_follows (new_reads clock) h
  obtain ⟨-, hfails, hasserts⟩ := Run.history (P := fun tr s => Reads clock (sheet tr) s ∧
    (s.failed = true → ¬InRange 64 ((sheet tr).total (clock.reading s.reads))) ∧
    ∀ a ∈ tr, a.2.result ≠ .fault .assert) ⟨new_reads clock, nofun, nofun⟩
    (fun tr t a u ⟨ht, _, hasserts⟩ hstep => by
      obtain ⟨hone, hfails⟩ := step_follows ht hstep
      rw [sheet_append, List.forall_mem_append, List.forall_mem_singleton]
      exact ⟨hone.reads, hfails, hasserts, hone.asserts⟩) h
  refine ⟨(time_ensures hreads).mono (fun r hr => hr.1) fun f hf => hf, hfails, hasserts, ?_, ?_⟩
  · intro tr' s' t t' u u' hrun hreset ht ht'
    obtain ⟨hreads', hrest⟩ := run_follows hreads hrun
    rw [hreads.time_eq ht, hreads'.time_eq ht']
    exact (hrest hreset).1
  · intro tr' s' t t' u u' hrun hreset hstart hstopped ht ht'
    obtain ⟨hreads', hrest⟩ := run_follows hreads hrun
    have hnone := hreads.stopped hstopped
    have hsame := (hrest hreset).2 hstart hnone
    rw [hreads.time_eq ht, hreads'.time_eq ht', hsame, Sheet.total, Sheet.total, hnone]
    rfl

/-- A clock that advances by ten microseconds from one reading to the next. -/
def ticking : Clock where
  reading n := min (10 * n) 1000
  mono m n h := by
    dsimp only
    omega
  range n := by omega

/-- Two periods, of 10 and of 20 microseconds, after a reset to 5. -/
theorem stopwatch_two_periods :
    ∃ tr s, Run (Guarded (step ticking) Alternates) new tr s ∧
      (time ticking s).map Prod.fst = .ok 35 ∧ Kept ticking tr s := by
  obtain ⟨tr, s, hrun, htime⟩ := exists_run_of_guarded_exec (step ticking) Alternates new
    (fun _ s => (time ticking s).map Prod.fst = .ok 35)
    [.reset 5, .start, .stop, .time, .start, .time, .stop] (by decide +kernel)
  exact ⟨tr, s, hrun, htime, stopwatch_total hrun⟩

/-- After a reset to the greatest `int64_t` the time that has passed does not fit. -/
theorem stopwatch_overflows :
    ¬∀ (clock : Clock) (tr : List (Event × Answer)) (s : State),
      Run (Guarded (step clock) Alternates) new tr s →
        (time clock s).map Prod.fst = .ok ((sheet tr).total (clock.reading s.reads)) := by
  intro h
  obtain ⟨tr, s, hrun, htime⟩ := exists_run_of_guarded_exec (step ticking) Alternates new
    (fun _ s => (time ticking s).map Prod.fst = .error .overflow)
    [.reset 9223372036854775807, .start] (by decide +kernel)
  rw [h ticking tr s hrun] at htime
  cases htime

end Mediabox.Stopwatch
