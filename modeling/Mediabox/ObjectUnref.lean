import Mathlib.Data.Fintype.Card
import Mediabox.Lib.Transition

/-!
# Releasing an object from several threads (`avbox_object_unref`, `src/lib/dispatch.c`)

`n` threads hold one reference each to the same object and each calls `avbox_object_unref` once.
The function is taken apart into its atomic steps: the atomic decrement, the test of `refs`, taking
`lock`, the read of `refs` by the assertion, the second test of `refs`, the read of `destroyed`, the
release of `lock` and the `free`.

The decrement and the first test are two steps, and the test reads the shared counter and not
the result of the decrement.  Whenever the last decrement comes between the two steps of
another thread, both threads see zero:

* `unref_twice` — with two threads the object is freed twice, and locked after it was freed.
* `unref_once_iff` — a complete run frees the object once, by the thread that took `refs` to
  zero, with no later access, exactly when no thread stood between its decrement and its
  test at the moment of the last decrement (`LoneTest`).
-/

set_option autoImplicit false

namespace Mediabox.ObjectUnref

open Transition

/-- Next atomic step of a thread inside `avbox_object_unref`. -/
inductive Pc where
  /-- `ATOMIC_DEC(&obj->refs)` -/
  | dec
  /-- `if (UNLIKELY(obj->refs == 0))` -/
  | test
  /-- `pthread_mutex_lock(&obj->lock)` -/
  | lock
  /-- `ASSERT(obj->refs == 0)` -/
  | assertRefs
  /-- `if (obj->refs == 0)` -/
  | testLocked
  /-- `ASSERT(obj->destroyed == 1)`, and the write of `destroy_timer_id` -/
  | assertDestroyed
  /-- `pthread_mutex_unlock(&obj->lock)` on the way to `free` -/
  | unlockFree
  /-- `free(obj)` -/
  | free
  /-- `pthread_mutex_unlock(&obj->lock)` on the way out -/
  | unlock
  | done
  deriving DecidableEq, Repr

/-- The object and the threads.  `frees` lists the threads that called `free`, latest first;
    `late` the threads that accessed the object after it was freed; `zeroed` is the thread whose
    decrement took `refs` to zero. -/
structure State (n : Nat) where
  refs : Nat
  destroyed : Bool
  lock : Option (Fin n)
  pc : Fin n → Pc
  frees : List (Fin n)
  late : List (Fin n)
  zeroed : Option (Fin n)

/-- Every thread is about to release its reference to an object that has been destroyed. -/
def init (n : Nat) : State n := ⟨n, true, none, fun _ => .dec, [], [], none⟩

variable {n : Nat}

/-- Thread `t` reads, writes or locks the object. -/
def State.touch (s : State n) (t : Fin n) : State n :=
  if s.frees = [] then s else { s with late := t :: s.late }

/-- Thread `t` goes to its next step. -/
def State.goto (s : State n) (t : Fin n) (pc : Pc) : State n :=
  { s with pc := Function.update s.pc t pc }

/-- One atomic step of thread `t`; `none` when it waits for the lock, fails an assertion or has
    returned. -/
def step (s : State n) (t : Fin n) : Option (State n × Unit) :=
  match s.pc t with
  | .dec =>
    some ({ (s.touch t).goto t .test with
      refs := s.refs - 1
      zeroed := if s.refs = 1 then some t else s.zeroed }, ())
  | .test => some ((s.touch t).goto t (if s.refs = 0 then .lock else .done), ())
  | .lock =>
    if s.lock = none then some ({ (s.touch t).goto t .assertRefs with lock := some t }, ()) else none
  | .assertRefs => if s.refs = 0 then some ((s.touch t).goto t .testLocked, ()) else none
  | .testLocked => some ((s.touch t).goto t (if s.refs = 0 then .assertDestroyed else .unlock), ())
  | .assertDestroyed => if s.destroyed then some ((s.touch t).goto t .unlockFree, ()) else none
  | .unlockFree => some ({ (s.touch t).goto t .free with lock := none }, ())
  | .free => some ({ s.goto t .done with frees := t :: s.frees }, ())
  | .unlock => some ({ (s.touch t).goto t .done with lock := none }, ())
  | .done => none

/-- The object was freed once, by the thread that took `refs` to zero, and was not accessed
    afterwards. -/
def FreedOnce (s : State n) : Prop :=
  ∃ z, s.zeroed = some z ∧ s.frees = [z] ∧ s.late = []

/-- The step does not take `refs` to zero while another thread stands between its decrement and its
    test. -/
def LoneTest (s : State n) (t : Fin n) : Prop :=
  s.pc t = .dec → s.refs = 1 → ∀ u, s.pc u ≠ .test

/-! ## Threads that have not decremented yet -/

/-- The threads that still hold their reference. -/
def holders (s : State n) : Finset (Fin n) := Finset.univ.filter (fun u => s.pc u = .dec)

theorem mem_holders {s : State n} {u : Fin n} : u ∈ holders s ↔ s.pc u = .dec := by
  simp [holders]

@[simp] theorem touch_pc (s : State n) (t : Fin n) : (s.touch t).pc = s.pc := by
  unfold State.touch; split <;> rfl

@[simp] theorem touch_refs (s : State n) (t : Fin n) : (s.touch t).refs = s.refs := by
  unfold State.touch; split <;> rfl

@[simp] theorem touch_frees (s : State n) (t : Fin n) : (s.touch t).frees = s.frees := by
  unfold State.touch; split <;> rfl

theorem touch_of_live {s : State n} (t : Fin n) (h : s.frees = []) : s.touch t = s := by
  simp [State.touch, h]

/-- The decrement of `t` takes exactly `t` out of the holders. -/
theorem holders_dec {s s' : State n} {t : Fin n} (ht : s.pc t = .dec)
    (hpc : s'.pc = Function.update s.pc t .test) : (holders s').card = (holders s).card - 1 := by
  have heq : holders s' = (holders s).erase t := by
    ext u
    rw [Finset.mem_erase, mem_holders, mem_holders, hpc]
    by_cases hu : u = t
    · subst hu; simp
    · simp [hu]
  rw [heq, Finset.card_erase_of_mem (mem_holders.mpr ht)]

theorem holders_other {s s' : State n} {t : Fin n} {p : Pc} (ht : s.pc t ≠ .dec) (hp : p ≠ .dec)
    (hpc : s'.pc = Function.update s.pc t p) : (holders s').card = (holders s).card := by
  have heq : holders s' = holders s := by
    ext u
    rw [mem_holders, mem_holders, hpc]
    by_cases hu : u = t
    · subst hu; simp [hp, ht]
    · rw [Function.update_of_ne hu]
  rw [heq]

/-- Steps between the decrement and the `free`. -/
def Pc.pending : Pc → Bool
  | .test | .lock | .assertRefs | .testLocked | .assertDestroyed | .unlockFree | .free => true
  | _ => false

/-- What every step but the decrement does: it keeps `refs`, frees nothing but in `free`, and once
    `refs` is zero it leads on to `free`. -/
theorem step_other {s s' : State n} {t : Fin n} (ht : s.pc t ≠ .dec)
    (h : step s t = some (s', ())) :
    ∃ p, p ≠ .dec ∧ s'.pc = Function.update s.pc t p ∧ s'.refs = s.refs ∧
      s'.frees = (if s.pc t = .free then t :: s.frees else s.frees) ∧
      (s.refs = 0 → (s.pc t).pending = true → p.pending = true ∨ s.pc t = .free) := by
  unfold step at h
  split at h <;> rename_i hpc
  · exact absurd hpc ht
  · cases h
    refine ⟨if s.refs = 0 then .lock else .done, ?_, by simp [State.goto], by simp [State.goto],
      by simp [State.goto, hpc], ?_⟩
    · split <;> simp
    · intro h0 _; simp [h0, Pc.pending]
  · split at h
    · cases h
      exact ⟨.assertRefs, by simp, by simp [State.goto], by simp [State.goto],
        by simp [State.goto, hpc], fun _ _ => Or.inl rfl⟩
    · cases h
  · split at h
    · cases h
      exact ⟨.testLocked, by simp, by simp [State.goto], by simp [State.goto],
        by simp [State.goto, hpc], fun _ _ => Or.inl rfl⟩
    · cases h
  · cases h
    refine ⟨if s.refs = 0 then .assertDestroyed else .unlock, ?_, by simp [State.goto],
      by simp [State.goto], by simp [State.goto, hpc], ?_⟩
    · split <;> simp
    · intro h0 _; simp [h0, Pc.pending]
  · split at h
    · cases h
      exact ⟨.unlockFree, by simp, by simp [State.goto], by simp [State.goto],
        by simp [State.goto, hpc], fun _ _ => Or.inl rfl⟩
    · cases h
  · cases h
    exact ⟨.free, by simp, by simp [State.goto], by simp [State.goto],
      by simp [State.goto, hpc], fun _ _ => Or.inl rfl⟩
  · cases h
    exact ⟨.done, by simp, by simp [State.goto], by simp [State.goto],
      by simp [hpc], fun _ _ => Or.inr hpc⟩
  · cases h
    exact ⟨.done, by simp, by simp [State.goto], by simp [State.goto],
      by simp [State.goto, hpc], fun _ hp => by simp [hpc, Pc.pending] at hp⟩
  · cases h

/-! ## Runs in which no test is overtaken -/

/-- The three phases of a run that meets `LoneTest`. -/
inductive Phase (s : State n) : Prop
  /-- References are left: nobody has seen zero. -/
  | releasing (hrefs : 0 < s.refs) (hz : s.zeroed = none) (hf : s.frees = []) (hl : s.late = [])
      (hpc : ∀ u, s.pc u = .dec ∨ s.pc u = .test ∨ s.pc u = .done)
  /-- Thread `z` took the last reference and is the only one left inside the function. -/
  | freeing (z : Fin n) (hrefs : s.refs = 0) (hz : s.zeroed = some z) (hf : s.frees = [])
      (hl : s.late = []) (hothers : ∀ u, u ≠ z → s.pc u = .done) (hpc : (s.pc z).pending = true)
  | freed (z : Fin n) (hrefs : s.refs = 0) (hz : s.zeroed = some z) (hf : s.frees = [z])
      (hl : s.late = []) (hpc : ∀ u, s.pc u = .done)

/-- Invariant of the runs that meet `LoneTest`. -/
structure Inv (s : State n) : Prop where
  count : s.refs = (holders s).card
  phase : Phase s

theorem init_inv (hn : 0 < n) : Inv (init n) := by
  refine ⟨?_, .releasing hn rfl rfl rfl (fun _ => Or.inl rfl)⟩
  simp [init, holders]

/-- In the last two phases only `z` can move, and it walks through the locked test to `free`. -/
theorem Phase.step_freeing {s s' : State n} {t z : Fin n} (hrefs : s.refs = 0)
    (hz : s.zeroed = some z) (hf : s.frees = []) (hl : s.late = [])
    (hothers : ∀ u, u ≠ z → s.pc u = .done) (hpc : (s.pc z).pending = true)
    (h : step s t = some (s', ())) : Phase s' := by
  have htz : t = z := by
    by_contra hne
    simp [step, hothers t hne] at h
  subst htz
  have hkeep : ∀ (p : Pc) (u : Fin n), u ≠ t → Function.update s.pc t p u = .done := by
    intro p u hu
    rw [Function.update_of_ne hu]; exact hothers u hu
  -- every step of `t` but the last keeps it on its way to `free`
  have hmove : ∀ (p : Pc) (l : Option (Fin n)), p.pending = true →
      Phase { s.goto t p with lock := l } := fun p l hp =>
    .freeing t hrefs hz hf hl (hkeep p) (by simpa [State.goto] using hp)
  unfold step at h
  simp only [touch_of_live t hf, hrefs, ↓reduceIte] at h
  split at h <;> rename_i hcase <;> simp only [hcase, Pc.pending, Bool.false_eq_true] at hpc
  · cases h; exact hmove .lock s.lock rfl
  · split at h
    · cases h; exact hmove .assertRefs (some t) rfl
    · cases h
  · cases h; exact hmove .testLocked s.lock rfl
  · cases h; exact hmove .assertDestroyed s.lock rfl
  · split at h
    · cases h; exact hmove .unlockFree s.lock rfl
    · cases h
  · cases h; exact hmove .free none rfl
  · cases h
    refine .freed t hrefs hz (by rw [hf]) hl ?_
    intro u
    by_cases hu : u = t
    · subst hu; simp [State.goto]
    · exact hkeep _ u hu

theorem Inv.step_dec {s : State n} (hinv : Inv s) {t : Fin n} (hcond : LoneTest s t)
    (ht : s.pc t = .dec) : Inv { s.goto t .test with
      refs := s.refs - 1, zeroed := if s.refs = 1 then some t else s.zeroed } := by
  have hcount : (holders (s.goto t .test)).card = (holders s).card - 1 := holders_dec ht rfl
  have hpos : 0 < s.refs := by
    rw [hinv.count]; exact Finset.card_pos.mpr ⟨t, mem_holders.mpr ht⟩
  refine ⟨by show s.refs - 1 = _; rw [hinv.count]; exact hcount.symm, ?_⟩
  rcases hinv.phase with ⟨hrefs, hz, hf, hl, hpc⟩ | ⟨z, hrefs, _⟩ | ⟨z, hrefs, _⟩
  · by_cases hlast : s.refs = 1
    · -- the other threads have neither a reference left nor a test ahead of them
      refine .freeing t (by show s.refs - 1 = 0; omega) (if_pos hlast) hf hl ?_ ?_
      · intro u hu
        show Function.update s.pc t .test u = .done
        rw [Function.update_of_ne hu]
        have hone : (holders s).card = 1 := by rw [← hinv.count, hlast]
        have hdec : s.pc u ≠ .dec := fun hdu =>
          hu (Finset.card_le_one.mp hone.le u (mem_holders.mpr hdu) t (mem_holders.mpr ht))
        exact ((hpc u).resolve_left hdec).resolve_left (hcond ht hlast u)
      · simp [State.goto, Pc.pending]
    · refine .releasing (by show 0 < s.refs - 1; omega) (by rw [if_neg hlast]; exact hz) hf hl ?_
      intro u
      by_cases hu : u = t
      · subst hu; simp [State.goto]
      · simpa [State.goto, Function.update_of_ne hu] using hpc u
  · omega
  · omega

/-- **Every step that meets `LoneTest` preserves the invariant.** -/
theorem step_inv {s s' : State n} {t : Fin n} (hinv : Inv s) (hcond : LoneTest s t)
    (h : step s t = some (s', ())) : Inv s' := by
  by_cases ht : s.pc t = .dec
  · have hf : s.frees = [] := by
      have hpos : 0 < s.refs := by
        rw [hinv.count]; exact Finset.card_pos.mpr ⟨t, mem_holders.mpr ht⟩
      rcases hinv.phase with ⟨_, _, hf, _⟩ | ⟨_, _, _, hf, _⟩ | ⟨_, hrefs, _⟩
      · exact hf
      · exact hf
      · omega
    simp only [step, ht, touch_of_live t hf] at h
    cases h
    exact hinv.step_dec hcond ht
  · obtain ⟨p, hp, hpc', hrefs', -, -⟩ := step_other ht h
    have hcount : s'.refs = (holders s').card := by
      rw [hrefs', holders_other ht hp hpc']; exact hinv.count
    refine ⟨hcount, ?_⟩
    rcases hinv.phase with ⟨hrefs, hz, hf, hl, hpc⟩ | ⟨z, hrefs, hz, hf, hl, hothers, hpc⟩ |
      ⟨z, hrefs, hz, hf, hl, hpc⟩
    · rcases hpc t with hdec | htest | hdone
      · exact absurd hdec ht
      · simp only [step, htest, touch_of_live t hf, if_neg (show ¬s.refs = 0 by omega)] at h
        cases h
        refine .releasing hrefs hz hf hl ?_
        intro u
        by_cases hu : u = t
        · subst hu; simp [State.goto]
        · simpa [State.goto, Function.update_of_ne hu] using hpc u
      · simp [step, hdone] at h
    · exact Phase.step_freeing hrefs hz hf hl hothers hpc h
    · simp [step, hpc t] at h

theorem Inv.safe {s : State n} (hinv : Inv s) :
    s.late = [] ∧ (s.frees = [] ∨ FreedOnce s) := by
  rcases hinv.phase with ⟨_, _, hf, hl, _⟩ | ⟨_, _, _, hf, hl, _⟩ | ⟨z, _, hz, hf, hl, _⟩
  · exact ⟨hl, Or.inl hf⟩
  · exact ⟨hl, Or.inl hf⟩
  · exact ⟨hl, Or.inr ⟨z, hz, hf, hl⟩⟩

theorem Inv.freedOnce {s : State n} (hinv : Inv s) (hdone : ∀ t, s.pc t = .done) :
    FreedOnce s := by
  rcases hinv.phase with ⟨hrefs, _⟩ | ⟨z, _, _, _, _, _, hpc⟩ | ⟨z, _, hz, hf, hl, _⟩
  · have hnone : holders s = ∅ := by
      ext u; simp [mem_holders, hdone u]
    rw [hinv.count, hnone] at hrefs
    exact absurd hrefs (by simp)
  · simp [hdone z, Pc.pending] at hpc
  · exact ⟨z, hz, hf, hl⟩

/-! ## Runs in which a test is overtaken -/

/-- Thread `u` frees the object or will do so. -/
def Dooms (s : State n) (u : Fin n) : Prop := (s.pc u).pending = true ∨ u ∈ s.frees

/-- Two threads free the object or will do so. -/
def Overtaken (s : State n) : Prop := s.refs = 0 ∧ ∃ u v, u ≠ v ∧ Dooms s u ∧ Dooms s v

theorem Dooms.step {s s' : State n} {t u : Fin n} (hrefs : s.refs = 0) (ht : s.pc t ≠ .dec)
    (h : step s t = some (s', ())) (hu : Dooms s u) : Dooms s' u := by
  obtain ⟨p, -, hpc, -, hf, hnext⟩ := step_other ht h
  rcases hu with hpend | hmem
  · by_cases hut : u = t
    · subst hut
      rcases hnext hrefs hpend with hp | hfree
      · exact Or.inl (by rw [hpc, Function.update_self]; exact hp)
      · exact Or.inr (by rw [hf, if_pos hfree]; exact List.mem_cons_self)
    · exact Or.inl (by rw [hpc, Function.update_of_ne hut]; exact hpend)
  · refine Or.inr ?_
    rw [hf]
    split
    · exact List.mem_cons_of_mem _ hmem
    · exact hmem

theorem overtaken_step {s s' : State n} {t : Fin n} (hcount : s.refs = (holders s).card)
    (hbad : Overtaken s) (h : step s t = some (s', ())) : Overtaken s' := by
  obtain ⟨hrefs, u, v, huv, hu, hv⟩ := hbad
  have ht : s.pc t ≠ .dec := by
    intro hdec
    have := Finset.card_pos.mpr ⟨t, mem_holders.mpr hdec⟩
    omega
  obtain ⟨p, -, -, hrefs', -, -⟩ := step_other ht h
  exact ⟨hrefs'.trans hrefs, u, v, huv, hu.step hrefs ht h, hv.step hrefs ht h⟩

/-- A last decrement that breaks `LoneTest` leaves two threads that will see zero. -/
theorem overtaken_of_dec {s s' : State n} {t : Fin n} (hcond : ¬LoneTest s t)
    (h : step s t = some (s', ())) : Overtaken s' := by
  unfold LoneTest at hcond
  push Not at hcond
  obtain ⟨hdec, hone, u, hu⟩ := hcond
  have hut : u ≠ t := by
    rintro rfl
    rw [hdec] at hu; cases hu
  simp only [step, hdec] at h
  cases h
  refine ⟨by show s.refs - 1 = 0; omega, t, u, hut.symm, Or.inl ?_, Or.inl ?_⟩
  · simp [State.goto, Pc.pending]
  · simp [State.goto, Function.update_of_ne hut, hu, Pc.pending]

theorem step_count {s s' : State n} {t : Fin n} (hcount : s.refs = (holders s).card)
    (h : step s t = some (s', ())) : s'.refs = (holders s').card := by
  by_cases ht : s.pc t = .dec
  · simp only [step, ht] at h
    cases h
    show s.refs - 1 = _
    rw [hcount]
    exact (holders_dec ht (by simp [State.goto])).symm
  · obtain ⟨p, hp, hpc, hrefs, -, -⟩ := step_other ht h
    rw [hrefs, holders_other ht hp hpc]; exact hcount

/-- Two threads that both free the object break the contract. -/
theorem Overtaken.not_freedOnce {s : State n} (hbad : Overtaken s) (hdone : ∀ t, s.pc t = .done) :
    ¬FreedOnce s := by
  rintro ⟨z, -, hf, -⟩
  obtain ⟨-, u, v, huv, hu, hv⟩ := hbad
  have hin : ∀ w, Dooms s w → w = z := by
    rintro w (hp | hm)
    · simp [hdone w, Pc.pending] at hp
    · rw [hf] at hm; exact List.mem_singleton.mp hm
  exact huv ((hin u hu).trans (hin v hv).symm)

/-! ## Main theorem -/

theorem guarded_inv (hn : 0 < n) {tr : List (Fin n × Unit)} {s : State n}
    (hrun : Run (Guarded step LoneTest) (init n) tr s) : Inv s :=
  hrun.invariant (init_inv hn) fun _ _ _ hinv hstep => step_inv hinv hstep.1 hstep.2

/-- A run either meets `LoneTest` throughout or has been overtaken. -/
theorem run_guarded_or_overtaken (hn : 0 < n) {tr : List (Fin n × Unit)} {s : State n}
    (hrun : Run (Step step) (init n) tr s) :
    Run (Guarded step LoneTest) (init n) tr s ∨ Overtaken s := by
  have := hrun.history (P := fun tr s => s.refs = (holders s).card ∧
      (Run (Guarded step LoneTest) (init n) tr s ∨ Overtaken s))
    ⟨(init_inv hn).count, Or.inl Run.nil⟩ ?_
  · exact this.2
  · rintro tr s ⟨t, u⟩ s' ⟨hcount, hpast⟩ hstep
    refine ⟨step_count hcount hstep, ?_⟩
    rcases hpast with hgood | hbad
    · by_cases hcond : LoneTest s t
      · exact Or.inl (hgood.snoc ⟨hcond, hstep⟩)
      · exact Or.inr (overtaken_of_dec hcond hstep)
    · exact Or.inr (overtaken_step hcount hbad hstep)

/-- **Releasing from several threads.** In every run whose steps meet `LoneTest` nothing touches the
    object after it was freed and it is freed by nobody but the thread that took `refs` to zero; and
    a run in which every thread has returned frees the object exactly once, in that way, if and only
    if all of its steps meet `LoneTest`. -/
theorem unref_once_iff (hn : 0 < n) :
    (∀ (tr : List (Fin n × Unit)) (s : State n), Run (Guarded step LoneTest) (init n) tr s →
      s.late = [] ∧ (s.frees = [] ∨ FreedOnce s)) ∧
    ∀ (tr : List (Fin n × Unit)) (s : State n), Run (Step step) (init n) tr s →
      (∀ t, s.pc t = .done) →
      (FreedOnce s ↔ Run (Guarded step LoneTest) (init n) tr s) := by
  refine ⟨fun tr s hrun => (guarded_inv hn hrun).safe, fun tr s hrun hdone => ⟨?_, ?_⟩⟩
  · intro honce
    rcases run_guarded_or_overtaken hn hrun with hgood | hbad
    · exact hgood
    · exact absurd honce (hbad.not_freedOnce hdone)
  · intro hgood
    exact (guarded_inv hn hgood).freedOnce hdone

instance (s : State n) (t : Fin n) : Decidable (LoneTest s t) :=
  inferInstanceAs (Decidable (s.pc t = .dec → s.refs = 1 → ∀ u, s.pc u ≠ .test))

/-- Three threads: two decrements in a row, both tests, and the third thread, which frees. -/
theorem unref_once_iff_three :
    ∃ (tr : List (Fin 3 × Unit)) (s : State 3), Run (Step step) (init 3) tr s ∧ tr.length = 12 ∧
      (∀ t, s.pc t = .done) ∧ Run (Guarded step LoneTest) (init 3) tr s ∧ FreedOnce s := by
  obtain ⟨tr, s, hrun, hlen, hdone⟩ := exists_run_of_guarded_exec step LoneTest (init 3)
    (fun tr s => tr.length = 12 ∧ ∀ t, s.pc t = .done) [0, 1, 1, 0, 2, 2, 2, 2, 2, 2, 2, 2]
    (by decide)
  exact ⟨tr, s, hrun.of_guarded, hlen, hdone, hrun,
    ((unref_once_iff (by decide)).2 tr s hrun.of_guarded hdone).mpr hrun⟩

/-- Two threads: both decrements, then both tests see zero; the object is freed by both. -/
theorem unref_twice :
    ¬∀ (n : Nat) (tr : List (Fin n × Unit)) (s : State n), 0 < n →
      Run (Step step) (init n) tr s → (∀ t, s.pc t = .done) → FreedOnce s := by
  intro hclaim
  obtain ⟨z, -, hf, -⟩ := hclaim 2 _ _ (by decide)
    (run_of_exec [0, 1, 0, 1, 0, 0, 0, 0, 0, 0, 1, 1, 1, 1, 1, 1] rfl) (by decide)
  have hlen := congrArg List.length hf
  exact absurd (hlen.trans List.length_singleton) (by decide)

end Mediabox.ObjectUnref
