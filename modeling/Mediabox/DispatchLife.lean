import Mediabox.DispatchChange

/-!
# The life cycle of an object

What the handler of an object is called with, from its creation to its memory being freed, read off
the labels of a run alone.

* `observe` — who is in which handler, and for each address what happened to the object that lives
  there (or lived there last): calls of its handler, and DESTROY answered with OK.
* `Lives` / `run_lives` — how the observed lives and the objects agree, along every run.
* `object_life_cycle` — a life is calls other than CLEANUP, then at most one DESTROY answered with
  OK, then at most one CLEANUP and nothing else; and a CLEANUP that the queue accepted stays
  pending until it is delivered.
-/

set_option autoImplicit false

namespace Mediabox.Dispatch

open Transition

variable {τ : Type*} [Fintype τ] [DecidableEq τ]

/-! ## Lives, read off the labels -/

/-- What happens to an object. -/
inductive LifeEvent where
  /-- Its handler was called. -/
  | called (id : MessageType)
  /-- Its handler answered DESTROY with OK; the queue accepted the CLEANUP message or not. -/
  | destroyed (accepted : Bool)
  deriving DecidableEq, Repr

/-- Who is in which handler, and the life of the latest object at each address. -/
structure Observer (τ : Type*) where
  calls : τ → Option (Addr × MessageType)
  life : Addr → List LifeEvent

def Observer.add (w : Observer τ) (o : Addr) (e : LifeEvent) : Observer τ :=
  { w with life := Function.update w.life o (w.life o ++ [e]) }

def Observer.see (w : Observer τ) : Event τ × Outcome → Observer τ
  | (.new _ _, .object o) => { w with life := Function.update w.life o [] }
  | (.deliver t _, .called o id) =>
    { w.add o (.called id) with calls := Function.update w.calls t (some (o, id)) }
  | (.handled t res m _, _) =>
    match w.calls t, res with
    | some (o, .destroy), .ok =>
      { w.add o (.destroyed (m.message && m.node)) with calls := Function.update w.calls t none }
    | _, _ => { w with calls := Function.update w.calls t none }
  | _ => w

def observe (tr : List (Event τ × Outcome)) : Observer τ :=
  tr.foldl Observer.see ⟨fun _ => none, fun _ => []⟩

/-- Only calls, and none of them CLEANUP. -/
def Alive (l : List LifeEvent) : Prop := ∀ e ∈ l, ∃ id, id ≠ .cleanup ∧ e = .called id

/-- A whole life cycle, or the beginning of one. -/
def LifeCycle (l : List LifeEvent) : Prop :=
  Alive l ∨ ∃ pre accepted, Alive pre ∧
    (l = pre ++ [LifeEvent.destroyed accepted] ∨ l = pre ++ [LifeEvent.destroyed accepted, .called .cleanup])

/-- A message is queued or in dispatch, with none of its handlers called yet. -/
def Waits (th : Thread) (msg : Message) : Prop :=
  (∃ dq, th.queue = some dq ∧ msg ∈ dq.messages) ∨
    th.frame = some ⟨msg, msg.dest.objects, false⟩

/-- The CLEANUP message of `o` waits in some thread. -/
def Pending (s : State τ) (o : Addr) : Prop :=
  ∃ t msg, msg.id = .cleanup ∧ msg.dest = .object o ∧ Waits (s.threads t) msg

/-! ## The invariant -/

/-- How the observed lives and the objects agree. -/
structure Lives (w : Observer τ) (s : State τ) : Prop where
  calls : ∀ t, w.calls t = (s.threads t).call
  cycle : ∀ o, LifeCycle (w.life o)
  alive : ∀ o x, s.heap o = some x → x.destroyed = false → Alive (w.life o)
  dying : ∀ o x, s.heap o = some x → x.destroyed = true → ¬Alive (w.life o)
  cleaned : ∀ o x, s.heap o = some x → .called .cleanup ∈ w.life o →
    s.owned o = false ∨ ∃ t, (s.threads t).call = some (o, .cleanup)

theorem Alive.snoc {l : List LifeEvent} (h : Alive l) {id : MessageType} (hid : id ≠ .cleanup) :
    Alive (l ++ [LifeEvent.called id]) := by
  intro e he
  rcases List.mem_append.mp he with he | he
  · exact h e he
  · exact ⟨id, hid, List.mem_singleton.mp he⟩

theorem not_alive_of_mem {l : List LifeEvent} (accepted : Bool) (h : .destroyed accepted ∈ l) :
    ¬Alive l := by
  intro ha
  obtain ⟨id, -, he⟩ := ha _ h
  cases he

theorem Alive.no_cleanup {l : List LifeEvent} (h : Alive l) : .called .cleanup ∉ l := by
  intro hm
  obtain ⟨id, hid, he⟩ := h _ hm
  cases he
  exact hid rfl

/-- A life that is over but for its CLEANUP. -/
theorem LifeCycle.dying {l : List LifeEvent} (h : LifeCycle l) (hdead : ¬Alive l)
    (hno : .called .cleanup ∉ l) :
    ∃ pre accepted, Alive pre ∧ l = pre ++ [LifeEvent.destroyed accepted] := by
  rcases h with h | ⟨pre, accepted, hpre, rfl | rfl⟩
  · exact absurd h hdead
  · exact ⟨pre, accepted, hpre, rfl⟩
  · exact absurd (by simp) hno

omit [DecidableEq τ] in
theorem Inv.call_lock {s : State τ} (hinv : Inv s) {t : τ} {o : Addr} {id : MessageType}
    (h : (s.threads t).call = some (o, id)) : ∃ x, s.heap o = some x ∧ x.lock = some t := by
  unfold Thread.call at h
  split at h
  · rename_i msg p todo hf
    cases h
    obtain ⟨o', todo', x, htodo, hx, hlock, -⟩ := (hinv.frames t _ hf).2 rfl
    cases htodo
    exact ⟨x, hx, hlock⟩
  · cases h

omit [Fintype τ] [DecidableEq τ] in
theorem Lives.quiet {w : Observer τ} {s s' : State τ} (h : Lives w s)
    (hkept : ∀ o y, s'.heap o = some y → ∃ x, s.heap o = some x ∧ y.destroyed = x.destroyed)
    (howned : s'.owned = s.owned) (hcalls : ∀ t, (s'.threads t).call = (s.threads t).call) :
    Lives w s' := by
  refine ⟨fun t => (h.calls t).trans (hcalls t).symm, h.cycle, ?_, ?_, ?_⟩
  · intro o y hy hd
    obtain ⟨x, hx, hyx⟩ := hkept o y hy
    exact h.alive o x hx (hyx.symm.trans hd)
  · intro o y hy hd
    obtain ⟨x, hx, hyx⟩ := hkept o y hy
    exact h.dying o x hx (hyx.symm.trans hd)
  · intro o y hy hm
    obtain ⟨x, hx, -⟩ := hkept o y hy
    rw [howned]
    simpa only [hcalls] using h.cleaned o x hx hm

omit [Fintype τ] [DecidableEq τ] in
theorem Lives.born {w : Observer τ} {s s' : State τ} (h : Lives w s) {o : Addr}
    (hnew : ∀ x, s'.heap o = some x → x.destroyed = false)
    (hkept : ∀ p, p ≠ o → s'.heap p = s.heap p) (howned : ∀ p, p ≠ o → s'.owned p = s.owned p)
    (hthreads : s'.threads = s.threads) :
    Lives { w with life := Function.update w.life o [] } s' := by
  have hempty : Alive ([] : List LifeEvent) := fun e he => nomatch he
  refine ⟨fun t => by rw [hthreads]; exact h.calls t, ?_, ?_, ?_, ?_⟩
  · intro p
    by_cases hp : p = o
    · subst hp
      simp only [Function.update_self]
      exact Or.inl hempty
    · simpa [Function.update_of_ne hp] using h.cycle p
  · intro p y hy hd
    by_cases hp : p = o
    · subst hp
      simpa using hempty
    · rw [hkept p hp] at hy
      simpa [Function.update_of_ne hp] using h.alive p y hy hd
  · intro p y hy hd
    by_cases hp : p = o
    · subst hp
      rw [hnew y hy] at hd
      cases hd
    · rw [hkept p hp] at hy
      simpa [Function.update_of_ne hp] using h.dying p y hy hd
  · intro p y hy hm
    by_cases hp : p = o
    · subst hp
      simp at hm
    · rw [hkept p hp] at hy
      rw [howned p hp, hthreads]
      exact h.cleaned p y hy (by simpa [Function.update_of_ne hp] using hm)

/-- The handler is called: with CLEANUP only if it was never called with CLEANUP before, since the
    first such call holds the lock and then drops the own reference. -/
theorem Lives.called {w : Observer τ} {s s' : State τ} (h : Lives w s) (hinv : Inv s) {t : τ}
    {o : Addr} {id : MessageType} {x : Object τ} (hx : s.heap o = some x) (hlock : x.lock = none)
    (hdes : x.destroyed = false ∨ id = .cleanup) (hclean : id = .cleanup → 0 < cleanups s o)
    (hkept : Kept s s') (howned : s'.owned = s.owned)
    (hcall : (s'.threads t).call = some (o, id)) (hidle : (s.threads t).call = none)
    (hother : ∀ u, u ≠ t → s'.threads u = s.threads u) :
    Lives { w.add o (.called id) with calls := Function.update w.calls t (some (o, id)) } s' := by
  -- what the life of `o` becomes
  have hlife : (id ≠ .cleanup ∧ Alive (w.life o ++ [LifeEvent.called id])) ∨
      (id = .cleanup ∧ x.destroyed = true ∧ ∃ pre accepted, Alive pre ∧
        w.life o ++ [LifeEvent.called id] = pre ++ [LifeEvent.destroyed accepted, .called .cleanup]) := by
    by_cases hid : id = .cleanup
    · have hpos := hclean hid
      have honce := hinv.counts.once o
      have hxd : x.destroyed = true := by
        by_contra hne
        have := (hinv.counts.fresh o x hx (by simpa using hne)).2
        omega
      have hno : .called .cleanup ∉ w.life o := by
        intro hm
        rcases h.cleaned o x hx hm with hown | ⟨u, hu⟩
        · simp only [ownRef, hown, Bool.false_eq_true, ↓reduceIte] at honce
          omega
        · obtain ⟨x', hx', hl⟩ := hinv.call_lock hu
          rw [hx] at hx'
          cases hx'
          rw [hlock] at hl
          cases hl
      obtain ⟨pre, accepted, hpre, hl⟩ := (h.cycle o).dying (h.dying o x hx hxd) hno
      exact Or.inr ⟨hid, hxd, pre, accepted, hpre, by rw [hl, hid]; simp⟩
    · exact Or.inl ⟨hid, (h.alive o x hx (hdes.resolve_right hid)).snoc hid⟩
  refine ⟨?_, ?_, ?_, ?_, ?_⟩
  · intro u
    by_cases hu : u = t
    · subst hu
      simpa using hcall.symm
    · simpa [Function.update_of_ne hu, hother u hu] using h.calls u
  · intro p
    by_cases hp : p = o
    · subst hp
      simp only [Observer.add, Function.update_self]
      rcases hlife with ⟨-, halive⟩ | ⟨-, -, pre, accepted, hpre, hl⟩
      · exact Or.inl halive
      · exact Or.inr ⟨pre, accepted, hpre, Or.inr hl⟩
    · simpa [Observer.add, Function.update_of_ne hp] using h.cycle p
  · intro p y hy hd
    obtain ⟨z, hz, hyz, -⟩ := hkept p y hy
    by_cases hp : p = o
    · subst hp
      simp only [Observer.add, Function.update_self]
      rcases hlife with ⟨-, halive⟩ | ⟨-, hxd, -⟩
      · exact halive
      · rw [hx] at hz
        cases hz
        rw [hyz, hxd] at hd
        cases hd
    · simpa [Observer.add, Function.update_of_ne hp] using h.alive p z hz (hyz.symm.trans hd)
  · intro p y hy hd
    obtain ⟨z, hz, hyz, -⟩ := hkept p y hy
    have hold := h.dying p z hz (hyz.symm.trans hd)
    by_cases hp : p = o
    · subst hp
      simp only [Observer.add, Function.update_self]
      exact fun ha => hold fun e he => ha e (List.mem_append_left _ he)
    · simpa [Observer.add, Function.update_of_ne hp] using hold
  · intro p y hy hm
    obtain ⟨z, hz, -⟩ := hkept p y hy
    by_cases hp : p = o
    · subst hp
      rcases hlife with ⟨-, halive⟩ | ⟨hid, -⟩
      · exact absurd (by simpa [Observer.add] using hm) halive.no_cleanup
      · exact Or.inr ⟨t, by rw [hcall, hid]⟩
    · rw [howned]
      have hold : .called .cleanup ∈ w.life p := by
        simpa [Observer.add, Function.update_of_ne hp] using hm
      refine (h.cleaned p z hz hold).imp_right ?_
      rintro ⟨u, hu⟩
      have hut : u ≠ t := by
        rintro rfl
        rw [hidle] at hu
        cases hu
      exact ⟨u, by rw [hother u hut]; exact hu⟩

omit [Fintype τ] in
theorem see_handled {w : Observer τ} {t : τ} {o : Addr} {id : MessageType} (res : HandlerResult)
    (m : Mallocs) (timer : Int) (out : Outcome) (h : w.calls t = some (o, id)) :
    w.see (.handled t res m timer, out) =
      { calls := Function.update w.calls t none
        life := if id = .destroy ∧ res = .ok then
            Function.update w.life o (w.life o ++ [LifeEvent.destroyed (m.message && m.node)])
          else w.life } := by
  unfold Observer.see
  simp only [h]
  cases id <;> cases res <;> simp [Observer.add]

omit [Fintype τ] in
/-- The handler returned: DESTROY is answered with OK once, since nothing but CLEANUP reaches a
    destroyed object. -/
theorem Lives.answered {w : Observer τ} {s s' : State τ} (h : Lives w s) {t : τ}
    {o : Addr} {id : MessageType} {x : Object τ} {res : HandlerResult} (m : Mallocs) (timer : Int)
    (hx : s.heap o = some x) (hcall : (s.threads t).call = some (o, id))
    (hdes : id ≠ .cleanup → x.destroyed = false)
    (hheap : ∀ p y, s'.heap p = some y → ∃ z, s.heap p = some z ∧
      (y.destroyed = if p = o ∧ id = .destroy ∧ res = .ok then true else z.destroyed) ∧
      y.destroyTimerId =
        if p = o ∧ id = .destroy ∧ res = .continue then timer else z.destroyTimerId)
    (howned : s'.owned = if id = .cleanup then Function.update s.owned o false else s.owned)
    (hidle : (s'.threads t).call = none)
    (hother : ∀ u, u ≠ t → (s'.threads u).call = (s.threads u).call) :
    Lives (w.see (.handled t res m timer, .done)) s' := by
  rw [see_handled res m timer .done ((h.calls t).trans hcall)]
  have hcalls : ∀ u, Function.update w.calls t none u = (s'.threads u).call := by
    intro u
    by_cases hu : u = t
    · subst hu
      simpa using hidle.symm
    · simpa [Function.update_of_ne hu, hother u hu] using h.calls u
  -- a CLEANUP call that goes on is not the one that returned
  have hcleaned : ∀ p z, s.heap p = some z → .called .cleanup ∈ w.life p →
      s'.owned p = false ∨ ∃ u, (s'.threads u).call = some (p, .cleanup) := by
    intro p z hz hm
    rw [howned]
    rcases h.cleaned p z hz hm with hown | ⟨u, hu⟩
    · left
      split
      · by_cases hp : p = o
        · subst hp; simp
        · simpa [Function.update_of_ne hp] using hown
      · exact hown
    · by_cases hut : u = t
      · subst hut
        rw [hcall] at hu
        cases hu
        left
        simp
      · exact Or.inr ⟨u, by rw [hother u hut]; exact hu⟩
  by_cases hok : id = .destroy ∧ res = .ok
  · have halive : Alive (w.life o) := h.alive o x hx (hdes (by rw [hok.1]; decide))
    simp only [hok, and_self, ↓reduceIte]
    refine ⟨hcalls, ?_, ?_, ?_, ?_⟩
    · intro p
      by_cases hp : p = o
      · subst hp
        simp only [Function.update_self]
        exact Or.inr ⟨_, _, halive, Or.inl rfl⟩
      · simpa [Function.update_of_ne hp] using h.cycle p
    · intro p y hy hd
      obtain ⟨z, hz, hyz, -⟩ := hheap p y hy
      by_cases hp : p = o
      · rw [if_pos ⟨hp, hok⟩] at hyz
        rw [hyz] at hd
        cases hd
      · rw [if_neg fun hq => hp hq.1] at hyz
        simpa [Function.update_of_ne hp] using h.alive p z hz (hyz.symm.trans hd)
    · intro p y hy hd
      obtain ⟨z, hz, hyz, -⟩ := hheap p y hy
      by_cases hp : p = o
      · subst hp
        exact not_alive_of_mem (m.message && m.node) (by simp)
      · rw [if_neg fun hq => hp hq.1] at hyz
        simpa [Function.update_of_ne hp] using h.dying p z hz (hyz.symm.trans hd)
    · intro p y hy hm
      obtain ⟨z, hz, -⟩ := hheap p y hy
      refine hcleaned p z hz ?_
      by_cases hp : p = o
      · subst hp
        simpa using hm
      · simpa [Function.update_of_ne hp] using hm
  · rw [if_neg hok]
    refine ⟨hcalls, h.cycle, ?_, ?_, ?_⟩
    · intro p y hy hd
      obtain ⟨z, hz, hyz, -⟩ := hheap p y hy
      rw [if_neg fun hq => hok hq.2] at hyz
      exact h.alive p z hz (hyz.symm.trans hd)
    · intro p y hy hd
      obtain ⟨z, hz, hyz, -⟩ := hheap p y hy
      rw [if_neg fun hq => hok hq.2] at hyz
      exact h.dying p z hz (hyz.symm.trans hd)
    · intro p y hy hm
      obtain ⟨z, hz, -⟩ := hheap p y hy
      exact hcleaned p z hz hm

omit [Fintype τ] in
theorem see_still {e : Event τ} {out : Outcome} (h : still e out = true) (w : Observer τ) :
    w.see (e, out) = w := by
  cases e <;> cases out <;> first | rfl | cases h

theorem step_lives {w : Observer τ} {s s' : State τ} {e : Event τ} {out : Outcome} (hinv : Inv s)
    (h : Lives w s) (hstep : step s e = some (s', out)) : Lives (w.see (e, out)) s' := by
  cases step_change hinv hstep with
  | quiet hstill hkept howned hcalls =>
    rw [see_still hstill]
    exact h.quiet (fun o y hy => (hkept o y hy).imp fun _ hx => ⟨hx.1, hx.2.1⟩) howned hcalls
  | retried _ _ _ _ _ hheap howned hcalls =>
    exact h.quiet (fun o y hy => (hheap o y hy).imp fun _ hx => ⟨hx.1, hx.2.1⟩) howned hcalls
  | skipped _ _ _ hkept howned hcalls =>
    exact h.quiet (fun o y hy => (hkept o y hy).imp fun _ hx => ⟨hx.1, hx.2.1⟩) howned hcalls
  | born _ hnew hkept howned hthreads =>
    exact h.born (fun x hx => (hnew x hx).1) hkept howned hthreads
  | called hx hlock hdes hclean hkept howned hcall hidle hother =>
    exact h.called hinv hx hlock hdes hclean hkept howned hcall hidle hother
  | answered hx hcall hdes hheap howned hidle hother =>
    exact h.answered _ _ hx hcall hdes hheap howned hidle hother

omit [Fintype τ] in
theorem observe_append (tr : List (Event τ × Outcome)) (a : Event τ × Outcome) :
    observe (tr ++ [a]) = (observe tr).see a := by
  simp [observe]

theorem run_lives {tr : List (Event τ × Outcome)} {s : State τ}
    (hrun : Run (Step step) init tr s) : Inv s ∧ Lives (observe tr) s := by
  refine Run.history (P := fun tr s => Inv s ∧ Lives (observe tr) s) ⟨init_inv, ?_⟩ ?_ hrun
  · refine ⟨fun t => rfl, fun o => Or.inl (fun e he => nomatch he), ?_, ?_, ?_⟩
    · intro o x hx; cases hx
    · intro o x hx; cases hx
    · intro o x hx; cases hx
  · intro tr t a u h hstep
    obtain ⟨e, out⟩ := a
    exact ⟨step_inv h.1 hstep, by rw [observe_append]; exact step_lives h.1 h.2 hstep⟩

/-! ## The accepted CLEANUP -/

section

omit [Fintype τ]

theorem Queued.waits {threads threads' : τ → Thread} {msg? : Option Message}
    (h : Queued threads msg? threads') {u : τ} {msg : Message} (hw : Waits (threads u) msg) :
    Waits (threads' u) msg := by
  cases h with
  | same h => rwa [h]
  | @added q dq _ _ hq h =>
    rw [h]
    by_cases hu : u = q
    · subst hu
      rw [Function.update_self]
      refine hw.imp_left ?_
      rintro ⟨dq', hdq, hm⟩
      obtain rfl := Option.some.inj (hq.symm.trans hdq)
      exact ⟨_, rfl, List.mem_append_left _ hm⟩
    · rwa [Function.update_of_ne hu]

/-- A message waits on when a thread goes on in its frame, unless it is the one of the frame. -/
theorem waits_setFrame {s s' : State τ} {t u : τ} {f : Option Frame} {msg : Message}
    (hs : s'.threads = (s.setFrame t f).threads) (h : Waits (s.threads u) msg) :
    Waits (s'.threads u) msg ∨
      (u = t ∧ (s.threads u).frame = some ⟨msg, msg.dest.objects, false⟩) := by
  rw [hs]
  by_cases hu : u = t
  · subst hu
    rcases h with hq | hf
    · exact Or.inl (Or.inl (by simpa [State.setFrame, State.setThread] using hq))
    · exact Or.inr ⟨rfl, hf⟩
  · exact Or.inl (by rwa [State.setFrame, setThread_of_ne _ _ hu])

theorem step_waits {s s' : State τ} {e : Event τ} {out : Outcome}
    (h : step s e = some (s', out)) {u : τ} {msg : Message} (hdest : msg.dest.objects ≠ [])
    (hw : Waits (s.threads u) msg) :
    Waits (s'.threads u) msg ∨ e = .flush u ∨
      ∃ m, e = .deliver u m ∧ (s.threads u).frame = some ⟨msg, msg.dest.objects, false⟩ := by
  have hother {t : τ} {th : Thread} (hs : s'.threads = (s.setThread t th).threads) (hu : u ≠ t) :
      Waits (s'.threads u) msg := by
    rwa [hs, setThread_of_ne _ _ hu]
  cases step_passage h with
  | queued _ _ hs => exact Or.inl (hs.waits hw)
  | @queue _ t dq _ _ hq hs =>
    left
    by_cases hu : u = t
    · subst hu
      rw [hs, setThread_self]
      refine hw.imp_left ?_
      rintro ⟨dq', hdq, hm⟩
      exact ⟨dq, rfl, by rwa [hq, hdq]⟩
    · exact hother hs hu
  | @got t closed head msgs _ hq hf hs =>
    left
    by_cases hu : u = t
    · subst hu
      rw [hs, setThread_self]
      rcases hw with ⟨dq, hdq, hm⟩ | hf'
      · obtain rfl := Option.some.inj (hq.symm.trans hdq)
        rcases List.mem_cons.mp hm with rfl | hm
        · exact Or.inr rfl
        · exact Or.inl ⟨_, rfl, hm⟩
      · cases hf.symm.trans hf'
    · exact hother hs hu
  | @called t m _ _ _ _ _ hs | @skipped t m _ _ _ _ _ _ _ _ hs =>
    rcases waits_setFrame hs hw with hw' | ⟨rfl, hf⟩
    · exact Or.inl hw'
    · exact Or.inr (Or.inr ⟨m, rfl, hf⟩)
  | @timer t m _ _ _ _ _ _ _ _ _ _ hsent hs =>
    rcases waits_setFrame hs (hsent.waits hw) with hw' | ⟨rfl, hf⟩
    · exact Or.inl hw'
    · exact Or.inr (Or.inr ⟨m, rfl, (hsent.frame _).symm.trans hf⟩)
  | answered hf hsent hs =>
    rcases waits_setFrame hs (hsent.waits hw) with hw' | ⟨rfl, hf'⟩
    · exact Or.inl hw'
    · have heq := hf.symm.trans ((hsent.frame _).symm.trans hf')
      exact Bool.noConfusion (congrArg Frame.calling (Option.some.inj heq))
  | finished hf hs =>
    rcases waits_setFrame hs hw with hw' | ⟨rfl, hf'⟩
    · exact Or.inl hw'
    · exact absurd (congrArg Frame.todo (Option.some.inj (hf'.symm.trans hf))) hdest
  | @flushed t _ _ _ _ _ hs =>
    by_cases hu : u = t
    · exact Or.inr (Or.inl (by rw [hu]))
    · exact Or.inl (hother hs hu)

theorem sendmsg_accepted {s s' : State τ} {o : Addr} {m : Mallocs} {ok : Bool}
    (h : sendmsg s [o] .cleanup flagUnicast none m = some (s', ok)) (hmsg : m.message = true)
    (hnode : m.node = true) :
    ∃ t, Waits (s'.threads t) ⟨.cleanup, flagUnicast, .object o, none⟩ := by
  have hcast : castOf flagUnicast = some .unicast := by decide
  simp only [sendmsg, hmsg, hcast, ↓reduceIte, Option.bind_eq_bind, Option.bind_eq_some_iff] at h
  obtain ⟨heap, -, x, -, hput⟩ := h
  unfold putmsg at hput
  split at hput
  · cases hput
  · rename_i dq hq
    simp only [hnode, ↓reduceIte, Option.some.injEq, Prod.mk.injEq] at hput
    obtain ⟨rfl, -⟩ := hput
    refine ⟨x.q, Or.inl ⟨{ dq with messages := dq.messages ++
      [⟨.cleanup, flagUnicast, .object o, none⟩] }, ?_, by simp⟩⟩
    simp [State.setThread]

theorem see_life (w : Observer τ) (e : Event τ) (out : Outcome) (o : Addr) :
    (w.see (e, out)).life o = w.life o ∨ (w.see (e, out)).life o = [] ∨
      (∃ id, (w.see (e, out)).life o = w.life o ++ [LifeEvent.called id]) ∨
      ∃ t m timer, e = .handled t .ok m timer ∧ w.calls t = some (o, .destroy) ∧
        (w.see (e, out)).life o = w.life o ++ [LifeEvent.destroyed (m.message && m.node)] := by
  unfold Observer.see
  split
  · rename_i p _
    by_cases hp : o = p
    · subst hp; simp
    · left; simp [Function.update_of_ne hp]
  · rename_i p id _
    by_cases hp : o = p
    · subst hp
      exact Or.inr (Or.inr (Or.inl ⟨id, by simp [Observer.add]⟩))
    · left; simp [Observer.add, Function.update_of_ne hp]
  · rename_i t res m timer _ heq
    cases heq
    split
    · rename_i p hcall
      by_cases hp : o = p
      · subst hp
        exact Or.inr (Or.inr (Or.inr ⟨t, m, timer, rfl, hcall, by simp [Observer.add]⟩))
      · left; simp [Observer.add, Function.update_of_ne hp]
    · exact Or.inl rfl
  · exact Or.inl rfl

/-- A step keeps the CLEANUP of a destroyed object pending, unless it delivers or flushes it. -/
theorem step_pending {w : Observer τ} {s s' : State τ} {e : Event τ} {out : Outcome}
    (hlives : Lives w s) (h : step s e = some (s', out)) (hflush : ∀ t, e ≠ .flush t) {o : Addr}
    (hpend : ∀ pre, w.life o = pre ++ [LifeEvent.destroyed true] → Pending s o) (pre : List LifeEvent)
    (hlife : (w.see (e, out)).life o = pre ++ [LifeEvent.destroyed true]) : Pending s' o := by
  rcases see_life w e out o with hsame | hnil | ⟨id, hcalled⟩ | ⟨t, m, timer, rfl, hcall, hdes⟩
  · rw [hsame] at hlife
    obtain ⟨t, msg, hid, hdest, hw⟩ := hpend pre hlife
    have hobj : msg.dest.objects = [o] := by rw [hdest]; rfl
    rcases step_waits h (by rw [hobj]; simp) hw with hw' | hfl | ⟨m, rfl, hframe⟩
    · exact ⟨t, msg, hid, hdest, hw'⟩
    · exact absurd hfl (hflush t)
    · -- the message is delivered: the handler is called, and the life goes on
      exfalso
      rw [hobj] at hframe
      simp only [step, hframe] at h
      unfold Dispatch.deliver at h
      simp only [Option.bind_eq_bind, Option.bind_eq_some_iff, hid] at h
      obtain ⟨x, hx, h⟩ := h
      split at h
      · cases h
      · simp only [or_true, ↓reduceIte, reduceCtorEq, false_and, Option.some.injEq,
          Prod.mk.injEq] at h
        obtain ⟨-, rfl⟩ := h
        simp [Observer.see, Observer.add] at hsame
  · rw [hnil] at hlife
    simp at hlife
  · rw [hcalled] at hlife
    have := congrArg List.getLast? hlife
    simp at this
  · rw [hdes] at hlife
    have hlast := congrArg List.getLast? hlife
    simp only [List.getLast?_append, List.getLast?_singleton, Option.some_or, Option.some.injEq,
      LifeEvent.destroyed.injEq, Bool.and_eq_true] at hlast
    -- the CLEANUP message is put on the queue by this very step
    have hthread : (s.threads t).call = some (o, .destroy) := (hlives.calls t).symm.trans hcall
    simp only [step] at h
    split at h
    · rename_i msg p todo hf
      simp only [Thread.call, hf, Option.some.injEq, Prod.mk.injEq] at hthread
      obtain ⟨rfl, hid⟩ := hthread
      simp only [Option.bind_eq_bind, Option.bind_eq_some_iff] at h
      obtain ⟨x, hx, ⟨s₁, res'⟩, hh, s₂, hleave, hs⟩ := h
      cases hs
      have hsent := objectHandler_queued hh
      simp only [objectHandler, hid] at hh
      obtain ⟨⟨s₃, ok⟩, hsend, hr⟩ := Option.map_eq_some_iff.mp hh
      cases hr
      obtain ⟨q, hwq⟩ := sendmsg_accepted hsend hlast.1 hlast.2
      refine ⟨q, _, rfl, rfl, (waits_setFrame (leave_threads hleave) hwq).resolve_right ?_⟩
      rintro ⟨rfl, hframe⟩
      have heq := hf.symm.trans ((hsent.frame q).symm.trans hframe)
      exact Bool.noConfusion (congrArg Frame.calling (Option.some.inj heq))
    · cases h

end

/-! ## Whole runs -/

/-- **The life cycle of an object**, for every run of the dispatcher and every address: the life of
    the object there is calls with other messages than CLEANUP, at most one DESTROY answered with
    OK after them, and at most one CLEANUP after that, with nothing behind it.  As long as no
    dispatcher is shut down, a CLEANUP message that was accepted and not delivered is waiting. -/
theorem object_life_cycle {tr : List (Event τ × Outcome)} {s : State τ}
    (hrun : Run (Step step) init tr s) (o : Addr) :
    LifeCycle ((observe tr).life o) ∧
      ((∀ a ∈ tr, ∀ t, a.1 ≠ .flush t) →
        ∀ pre, (observe tr).life o = pre ++ [LifeEvent.destroyed true] → Pending s o) := by
  refine ⟨(run_lives hrun).2.cycle o, ?_⟩
  induction hrun with
  | nil =>
    intro _ pre hlife
    simp [observe] at hlife
  | @snoc tr t u a hrun hstep ih =>
    intro hflush pre hlife
    obtain ⟨hinv, hlives⟩ := run_lives hrun
    rw [observe_append] at hlife
    refine step_pending hlives hstep ?_ (ih fun b hb => hflush b ?_) pre hlife
    · exact hflush a (List.mem_append_right _ (List.mem_singleton_self _))
    · exact List.mem_append_left _ hb

/-- Two DESTROY messages and a multicast are queued; the first DESTROY is answered with CONTINUE,
    without a timer, so that it is sent again at once. -/
theorem object_life_cycle_retry :
    ∃ (tr : List (Event Unit × Outcome)) (s : State Unit), Run (Step step) init tr s ∧
      (observe tr).life 7 = [.called .destroy, .called .ui, .called .destroy, .destroyed true,
        .called .cleanup] ∧ s.heap 7 = none ∧ LifeCycle ((observe tr).life 7) := by
  have hrun : Run (Step step) (init : State Unit) _ _ := run_of_exec [.init (), .new () (some 7),
    .send [7] .destroy flagUnicast none ⟨true, true, true⟩,
    .send [7] .ui flagMulticast none ⟨true, true, true⟩,
    .send [7] .destroy flagUnicast none ⟨true, true, true⟩,
    .get (), .deliver () ⟨true, true, true⟩, .handled () .continue ⟨true, true, true⟩ (-1),
    .finish (), .get (), .deliver () ⟨true, true, true⟩, .handled () .ok ⟨true, true, true⟩ (-1),
    .finish (), .get (), .deliver () ⟨true, true, true⟩, .handled () .ok ⟨true, true, true⟩ (-1),
    .finish (), .get (), .deliver () ⟨true, true, true⟩, .finish (), .get (),
    .deliver () ⟨true, true, true⟩, .handled () .ok ⟨true, true, true⟩ (-1), .finish ()] rfl
  exact ⟨_, _, hrun, rfl, rfl, (object_life_cycle hrun 7).1⟩

end Mediabox.Dispatch
