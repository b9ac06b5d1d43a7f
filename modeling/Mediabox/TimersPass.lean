import Mathlib.Order.Bounds.Basic
import Mediabox.ListMacros
import Mediabox.Timers

/-!
# A pass over the ring of timers (`src/lib/timers.c`, `linkedlist.h`)

One round of the loop of `avbox_timers_thread` on the nodes that it edits: the ring `timers`, the
ring `timer_pool` that a finished timer goes back to, and the timers by their addresses.  Each
timer has its own answer, whatever its id.

* `pass_spec` — the pass ends, and what it makes of both rings, of the timers and of `sleeptime`.
* `pass_refines` — where the answers go by id, it is `passTimers` on the timers read in order.

Main result: `pass_correct` — exactly the timers with `value <= elapsed` fire, in order; the ring
keeps the others with `value - elapsed` and the reloaded ones; and `sleeptime` is the least of ten
seconds and the values that are left.
-/

set_option autoImplicit false

namespace Mediabox.Timers

open LinkRing

/-- What has a `struct __listhead`. -/
inductive Node (α : Type*) where
  /-- `timers` -/
  | timers
  /-- `timer_pool` -/
  | pool
  | timer (a : α)
  deriving DecidableEq, Repr

/-- The memory and the local variables of a pass; `fired` is what was called and sent so far. -/
structure Pass (α : Type*) where
  links : Links (Node α)
  timer : α → Timer
  fired : List (α × Firing)
  sleeptime : Timespec

variable {α : Type*} [DecidableEq α]

/-! ## The code -/

namespace Pass

/-- `LIST_REMOVE(tmr)` -/
def listRemove (s : Pass α) (item : Node α) : Option (Pass α) :=
  (ListMacros.listRemove s.links item).map fun links => { s with links }

/-- `release_timer` -/
def releaseTimer (s : Pass α) (a : α) : Option (Pass α) :=
  (ListMacros.listAdd s.links .pool (.timer a)).map fun links => { s with links }

/-- The block of the loop over the timers, for the timer at `a`. -/
def block (now elapsed : Timespec) (env : α → PassEnv) (a : α) (s : Pass α) : Option (Pass α) :=
  let one := passTimer now elapsed (env a) (s.timer a) s.sleeptime
  let t := { s with fired := s.fired ++ (one.2.1.map (a, ·)).toList, sleeptime := one.2.2 }
  match one.1 with
  | some tmr => some { t with timer := Function.update t.timer a tmr }
  | none => (t.listRemove (.timer a)).bind (·.releaseTimer a)

/-- The nodes from one on, as the `var` of `LIST_FOREACH_SAFE` meets them. -/
def loop (now elapsed : Timespec) (env : α → PassEnv) (fuel : Nat) (var : Option (Node α))
    (s : Pass α) : Option (Pass α) :=
  Links.foreachSafe Pass.links .timers
    (fun node s => match node with
      | .timer a => s.block now elapsed env a
      | _ => none) fuel var s

/-- One round of the loop of the thread, up to the call of `delay2abstime`. -/
def run (lastSleep now : Timespec) (env : α → PassEnv) (fuel : Nat) (links : Links (Node α))
    (timer : α → Timer) : Option (Pass α) :=
  loop now (timediff lastSleep now) env fuel (links.next .timers) ⟨links, timer, [], ⟨10, 0⟩⟩

end Pass

/-! ## One timer -/

/-- A timer that is loaded again when it fires. -/
def Timer.Reloads (tmr : Timer) (env : PassEnv) : Prop :=
  tmr.flags &&& flagAutoreload ≠ 0 ∧ tmr.result env = .continue

instance (tmr : Timer) (env : PassEnv) : Decidable (tmr.Reloads env) :=
  inferInstanceAs (Decidable (_ ∧ _))

/-- What a pass leaves of a timer. -/
def Timer.left (tmr : Timer) (now elapsed : Timespec) (env : PassEnv) : Option Timer :=
  if timelte tmr.value elapsed then
    if tmr.Reloads env then
      some { tmr with value := tmr.interval, since := now, seen := now }
    else none
  else some { tmr with value := timediff elapsed tmr.value }

/-- `sleeptime` after a timer with this value. -/
def least (sleeptime value : Timespec) : Timespec :=
  if timelt value sleeptime then value else sleeptime

variable {now elapsed sleeptime : Timespec} {tmr : Timer}

theorem passTimer_left {env : PassEnv} :
    (passTimer now elapsed env tmr sleeptime).1 = tmr.left now elapsed env := by
  unfold passTimer Timer.left Timer.Reloads
  by_cases helapsed : timelte tmr.value elapsed
  · by_cases hflag : tmr.flags &&& flagAutoreload ≠ 0
    · by_cases hret : tmr.result env = .continue <;> simp [helapsed, hflag, hret]
    · simp [helapsed, hflag]
  · simp [helapsed]

theorem passTimer_sleeptime {env : PassEnv} :
    (passTimer now elapsed env tmr sleeptime).2.2 =
      ((tmr.left now elapsed env).map Timer.value).elim sleeptime (least sleeptime) := by
  unfold passTimer Timer.left Timer.Reloads least
  by_cases helapsed : timelte tmr.value elapsed
  · by_cases hflag : tmr.flags &&& flagAutoreload ≠ 0
    · by_cases hret : tmr.result env = .continue <;> simp [helapsed, hflag, hret]
    · simp [helapsed, hflag]
  · simp [helapsed]

/-! ## The two rings -/

/-- Well-formed rings of these timers and of these free ones. -/
structure Rings (links : Links (Node α)) (tmrs free : List α) : Prop where
  timers : IsRing links .timers (tmrs.map .timer)
  pool : IsRing links .pool (free.map .timer)
  nodup : (tmrs ++ free).Nodup

variable {links : Links (Node α)} {l l₁ l₂ free : List α} {a : α} {s : Pass α}

/-- **A timer released**: it leaves the ring of the timers and comes first in the pool. -/
theorem Pass.release (h : Rings s.links (l₁ ++ a :: l₂) free) :
    ∃ links, (s.listRemove (.timer a)).bind (·.releaseTimer a) = some { s with links := links } ∧
      Rings links (l₁ ++ l₂) (a :: free) := by
  have hnodup := h.nodup
  have hring := h.timers
  rw [List.map_append, List.map_cons] at hring
  obtain ⟨p, hp, n, hn, hprev, hnext, hremoved⟩ := hring.remove
  have hout : ∀ b ∈ Node.timers :: (l₁.map Node.timer ++ Node.timer a :: l₂.map Node.timer),
      b ∉ Node.pool :: free.map .timer := by
    intro b hb hb'
    simp only [List.mem_cons, List.mem_append, List.mem_map] at hb hb'
    grind
  have hpool := h.pool.unlink_frame (hout p hp) (hout n hn)
  have ha : Node.timer a ∉ Node.pool :: free.map .timer := hout _ (by simp)
  obtain ⟨m, hm, hfirst, hpushed⟩ := hpool.push ha
  have hkept : ∀ b ∈ Node.timer a :: Node.pool :: free.map .timer,
      b ∉ Node.timers :: (l₁.map Node.timer ++ l₂.map .timer) := by
    intro b hb hb'
    simp only [List.mem_cons, List.mem_append, List.mem_map] at hb hb'
    grind
  refine ⟨_, ?_, ?_, hpushed, ?_⟩
  · simp [Pass.listRemove, Pass.releaseTimer, ListMacros.listRemove,
      ListMacros.listAdd, hprev, hnext, hfirst]
  · rw [List.map_append]
    apply hremoved.insert_frame
    · exact hkept _ List.mem_cons_self
    · exact hkept _ (by simp)
    · exact hkept _ (List.mem_cons_of_mem _ hm)
  · grind

/-! ## The loop -/

section Loop

variable (now elapsed : Timespec) (env : α → PassEnv) (timer : α → Timer)

/-- What the pass leaves of the timer at `a`. -/
def leftAt (a : α) : Option Timer := (timer a).left now elapsed (env a)

/-- What the timer at `a` does in the pass. -/
def firingAt (a : α) : Option (α × Firing) :=
  if timelte (timer a).value elapsed then some (a, (timer a).firing (env a)) else none

/-- The pass between two timers: what it did with those that are done. -/
structure Between (free done todo : List α) (s : Pass α) : Prop where
  rings : Rings s.links
    (done.filter (fun a => (leftAt now elapsed env timer a).isSome) ++ todo)
    ((done.filter (fun a => (leftAt now elapsed env timer a).isNone)).reverse ++ free)
  content : ∀ a, s.timer a =
    if a ∈ done then (leftAt now elapsed env timer a).getD (timer a) else timer a
  todo : ∀ a ∈ todo, a ∉ done
  fired : s.fired = done.filterMap (firingAt elapsed env timer)
  sleeptime : s.sleeptime =
    ((done.filterMap (leftAt now elapsed env timer)).map Timer.value).foldl least ⟨10, 0⟩

end Loop

variable {env : α → PassEnv} {timer : α → Timer} {done todo : List α}

/-- **One timer**: the block does what the pass does with the timer. -/
theorem Between.step (h : Between now elapsed env timer free done (a :: todo) s) :
    ∃ s', s.block now elapsed env a = some s' ∧
      Between now elapsed env timer free (done ++ [a]) todo s' := by
  have hnew : a ∉ done := h.todo a List.mem_cons_self
  have hvalue : s.timer a = timer a := by rw [h.content, if_neg hnew]
  have hdisjoint : ∀ b ∈ todo, b ∉ done ++ [a] := by
    intro b hb
    have hnodup := h.rings.nodup
    have hba : b ≠ a := by grind
    have hbdone := h.todo b (List.mem_cons_of_mem _ hb)
    simp [hba, hbdone]
  have hfired : s.fired ++ ((passTimer now elapsed (env a) (timer a) s.sleeptime).2.1.map
      (a, ·)).toList = (done ++ [a]).filterMap (firingAt elapsed env timer) := by
    rw [h.fired, passTimer_fired, List.filterMap_append, List.append_right_inj]
    unfold firingAt
    split <;> simp_all
  have hsleep : (passTimer now elapsed (env a) (timer a) s.sleeptime).2.2 =
      (((done ++ [a]).filterMap (leftAt now elapsed env timer)).map Timer.value).foldl least
        ⟨10, 0⟩ := by
    rw [passTimer_sleeptime, h.sleeptime, List.filterMap_append, List.map_append,
      List.foldl_append]
    unfold leftAt
    cases hleft : (timer a).left now elapsed (env a) <;> simp [hleft]
  unfold Pass.block
  simp only [hvalue, passTimer_left]
  cases hleft : (timer a).left now elapsed (env a) with
  | some tmr =>
    refine ⟨_, rfl, ?_, ?_, hdisjoint, hfired, hsleep⟩
    · simpa [leftAt, hleft] using h.rings
    · intro b
      dsimp only
      by_cases hba : b = a
      · subst hba
        simp [leftAt, hleft]
      · rw [Function.update_of_ne hba, h.content]
        simp [hba]
  | none =>
    let t : Pass α := { s with
      fired := s.fired ++ ((passTimer now elapsed (env a) (timer a) s.sleeptime).2.1.map
        (a, ·)).toList
      sleeptime := (passTimer now elapsed (env a) (timer a) s.sleeptime).2.2 }
    have hbefore : Rings t.links _ _ := h.rings
    obtain ⟨links, hlinks, hrings⟩ := Pass.release hbefore
    refine ⟨_, hlinks, ?_, ?_, hdisjoint, hfired, hsleep⟩
    · simpa [leftAt, hleft] using hrings
    · intro b
      change s.timer b = _
      by_cases hba : b = a
      · subst hba
        simp [leftAt, hleft, hvalue]
      · rw [h.content]
        simp [hba]

/-- **A pass**: it ends, and it has done with every timer what it does with one. -/
theorem pass_spec (lastSleep now : Timespec) (env : α → PassEnv) (timer : α → Timer)
    (h : Rings links l free) :
    ∃ s, Pass.run lastSleep now env (l.length + 1) links timer = some s ∧
      Between now (timediff lastSleep now) env timer free l [] s := by
  have hstart : Between now (timediff lastSleep now) env timer free [] l
      ⟨links, timer, [], ⟨10, 0⟩⟩ :=
    ⟨by simpa using h, fun a => by simp, by simp, rfl, rfl⟩
  unfold Pass.run Pass.loop
  rw [h.timers.next_head]
  refine foreachSafe_rule (P := Between now (timediff lastSleep now) env timer free) ?_ ?_ l []
    _ hstart
  · intro done todo s hs
    exact ⟨_, by simpa using hs.rings.timers⟩
  · intro done a todo s hs
    exact hs.step

/-! ## The pass by id -/

omit [DecidableEq α] in
theorem passTimers_eq (now elapsed : Timespec) (env : PassEnv) (timer : α → Timer) :
    ∀ (l : List α) (sleeptime : Timespec),
      passTimers now elapsed env (l.map timer) sleeptime =
        (l.filterMap (leftAt now elapsed (fun _ => env) timer),
          (l.filterMap (firingAt elapsed (fun _ => env) timer)).map Prod.snd,
          ((l.filterMap (leftAt now elapsed (fun _ => env) timer)).map Timer.value).foldl least
            sleeptime)
  | [], sleeptime => rfl
  | a :: l, sleeptime => by
    rw [List.map_cons, passTimers]
    simp only [passTimers_eq now elapsed env timer l, passTimer_left, passTimer_fired,
      passTimer_sleeptime, List.filterMap_cons]
    unfold leftAt firingAt
    cases (timer a).left now elapsed env <;> split <;> simp

omit [DecidableEq α] in
theorem map_left (left : α → Option Timer) (content : α → Timer) :
    ∀ l : List α, (∀ a ∈ l, content a = (left a).getD (timer a)) →
      (l.filter (fun a => (left a).isSome)).map content = l.filterMap left
  | [], _ => rfl
  | a :: l, h => by
    have hrest := map_left left content l fun b hb => h b (List.mem_cons_of_mem _ hb)
    have ha := h a List.mem_cons_self
    cases hleft : left a with
    | none => simp [hleft, hrest]
    | some tmr => simp [hleft, hrest, ha]

theorem pass_refines {lastSleep : Timespec} (env : PassEnv) (timer : α → Timer)
    (h : Rings links l free) :
    ∃ s tmrs free, Pass.run lastSleep now (fun _ => env) (l.length + 1) links timer = some s ∧
      Rings s.links tmrs free ∧
      passTimers now (timediff lastSleep now) env (l.map timer) ⟨10, 0⟩ =
        (tmrs.map s.timer, s.fired.map Prod.snd, s.sleeptime) := by
  obtain ⟨s, hrun, hend⟩ := pass_spec lastSleep now (fun _ => env) timer h
  refine ⟨s, _, _, hrun, by simpa using hend.rings, ?_⟩
  have hleft : ∀ a ∈ l, s.timer a =
      (leftAt now (timediff lastSleep now) (fun _ => env) timer a).getD (timer a) := by
    intro a ha
    rw [hend.content, if_pos ha]
  rw [passTimers_eq, hend.fired, hend.sleeptime, map_left _ _ l hleft]

/-! ## The least time -/

theorem timelte_trans {a b c : Timespec} (hab : timelte a b = true) (hbc : timelte b c = true) :
    timelte a c = true := by
  rw [timelte_iff_lex] at hab hbc ⊢
  omega

theorem least_spec (m v : Timespec) :
    (least m v = m ∨ least m v = v) ∧ timelte (least m v) m = true ∧
      timelte (least m v) v = true := by
  unfold least
  split
  · rename_i hlt
    rw [timelt_iff_lex] at hlt
    refine ⟨Or.inr rfl, ?_, ?_⟩ <;> rw [timelte_iff_lex] <;> omega
  · rename_i hge
    rw [timelt_iff_lex] at hge
    refine ⟨Or.inl rfl, ?_, ?_⟩ <;> rw [timelte_iff_lex] <;> omega

/-- `sleeptime` after these values is one of them or what it was, and the least. -/
theorem foldl_least (vs : List Timespec) (m : Timespec) :
    vs.foldl least m ∈ m :: vs ∧ ∀ v ∈ m :: vs, timelte (vs.foldl least m) v = true := by
  induction vs generalizing m with
  | nil => simp [timelte_iff_lex]
  | cons w vs ih =>
    obtain ⟨hmem, hle⟩ := ih (least m w)
    obtain ⟨hone, hm, hw⟩ := least_spec m w
    have hfirst := hle _ List.mem_cons_self
    rw [List.foldl_cons]
    constructor
    · rcases List.mem_cons.mp hmem with heq | hin
      · rw [heq]
        rcases hone with hone | hone <;> simp [hone]
      · simp [hin]
    · intro v hv
      rcases List.mem_cons.mp hv with rfl | hv
      · exact timelte_trans hfirst hm
      · rcases List.mem_cons.mp hv with rfl | hv
        · exact timelte_trans hfirst hw
        · exact hle v (List.mem_cons_of_mem _ hv)

/-! ## Main theorem -/

/-- The timers that are in the ring after the pass. -/
def keptTimers (env : α → PassEnv) (timer : α → Timer) (l : List α) (elapsed : Int) : List α :=
  l.filter fun a => elapsed < (timer a).value.ns ∨ (timer a).Reloads (env a)

/-- The times that a pass may sleep for. -/
def sleepTimes (timer : α → Timer) (kept : List α) : List Timespec :=
  ⟨10, 0⟩ :: kept.map (fun a => (timer a).value)

/-- What one pass does with the timers of `l`, so many nanoseconds after the pass before. -/
structure Correct (env : α → PassEnv) (timer : α → Timer) (l : List α) (elapsed : Int)
    (s : Pass α) : Prop where
  fired : s.fired = (l.filter fun a => (timer a).value.ns ≤ elapsed).map
    fun a => (a, (timer a).firing (env a))
  kept : ∃ free, Rings s.links (keptTimers env timer l elapsed) free
  running : ∀ a ∈ l, elapsed < (timer a).value.ns →
    s.timer a = { timer a with value := (s.timer a).value } ∧ (s.timer a).value.Normalized ∧
      (s.timer a).value.ns = (timer a).value.ns - elapsed
  reloaded : ∀ a ∈ l, (timer a).value.ns ≤ elapsed → (timer a).Reloads (env a) →
    (s.timer a).value = (timer a).interval
  sleeptime : s.sleeptime ∈ sleepTimes s.timer (keptTimers env timer l elapsed) ∧
    ∀ v ∈ sleepTimes s.timer (keptTimers env timer l elapsed), timelte s.sleeptime v = true
  sleeptime_ns : (∀ a ∈ l, (timer a).interval.Normalized) →
    IsLeast {n | ∃ v ∈ sleepTimes s.timer (keptTimers env timer l elapsed), n = v.ns} s.sleeptime.ns

section Spec

variable {lastSleep : Timespec} (hlast : lastSleep.Normalized) (hnow : now.Normalized)

include hlast hnow
omit [DecidableEq α]

/-- With normalized values, a timer elapses by the nanoseconds. -/
theorem elapsed_iff (hvalue : tmr.value.Normalized) :
    timelte tmr.value (timediff lastSleep now) = true ↔ tmr.value.ns ≤ now.ns - lastSleep.ns := by
  rw [timelte_iff hvalue (timediff_normalized hlast hnow), ns_timediff]

theorem filter_left (env : α → PassEnv) (hvalue : ∀ a ∈ l, (timer a).value.Normalized) :
    l.filter (fun a => (leftAt now (timediff lastSleep now) env timer a).isSome) =
      keptTimers env timer l (now.ns - lastSleep.ns) := by
  apply List.filter_congr
  intro a ha
  have hiff := elapsed_iff hlast hnow (hvalue a ha)
  unfold leftAt Timer.left
  by_cases hdue : timelte (timer a).value (timediff lastSleep now) = true
  · have hle := Int.not_lt.mpr (hiff.mp hdue)
    by_cases hreload : (timer a).Reloads (env a) <;> simp [hdue, hle, hreload]
  · have hlt := Int.not_le.mp (mt hiff.mpr hdue)
    simp [hdue, hlt]

theorem filterMap_firing (hvalue : ∀ a ∈ l, (timer a).value.Normalized) :
    l.filterMap (firingAt (timediff lastSleep now) env timer) =
      (l.filter fun a => (timer a).value.ns ≤ now.ns - lastSleep.ns).map
        fun a => (a, (timer a).firing (env a)) := by
  induction l with
  | nil => rfl
  | cons a l ih =>
    have hrest := ih fun b hb => hvalue b (List.mem_cons_of_mem _ hb)
    have hiff := elapsed_iff hlast hnow (hvalue a List.mem_cons_self)
    rw [List.filterMap_cons, hrest, firingAt]
    by_cases hdue : timelte (timer a).value (timediff lastSleep now) = true
    · simp [hdue, hiff.mp hdue]
    · simp [hdue, mt hiff.mpr hdue]

end Spec

/-- **One pass of the timers thread.**  For any timers with normalized values and any answers, it
fires, keeps and reloads what it should, and sleeps until the next timer is due. -/
theorem pass_correct {lastSleep : Timespec} (env : α → PassEnv) (timer : α → Timer)
    (h : Rings links l free) (hlast : lastSleep.Normalized) (hnow : now.Normalized)
    (hvalue : ∀ a ∈ l, (timer a).value.Normalized) :
    ∃ s, Pass.run lastSleep now env (l.length + 1) links timer = some s ∧
      Correct env timer l (now.ns - lastSleep.ns) s := by
  obtain ⟨s, hrun, hend⟩ := pass_spec lastSleep now env timer h
  have hcontent : ∀ a ∈ l, s.timer a =
      (leftAt now (timediff lastSleep now) env timer a).getD (timer a) := by
    intro a ha
    rw [hend.content, if_pos ha]
  have hkept := filter_left hlast hnow env hvalue
  have hrings := hend.rings
  rw [hkept, List.append_nil] at hrings
  have hrunning : ∀ a ∈ l, now.ns - lastSleep.ns < (timer a).value.ns →
      s.timer a = { timer a with value := timediff (timediff lastSleep now) (timer a).value } := by
    intro a ha hlt
    have hdue := mt (elapsed_iff hlast hnow (hvalue a ha)).mp (Int.not_le.mpr hlt)
    rw [hcontent a ha, leftAt, Timer.left, if_neg hdue, Option.getD_some]
  have hreloaded : ∀ a ∈ l, (timer a).value.ns ≤ now.ns - lastSleep.ns →
      (timer a).Reloads (env a) → (s.timer a).value = (timer a).interval := by
    intro a ha hle hreload
    have hdue := (elapsed_iff hlast hnow (hvalue a ha)).mpr hle
    rw [hcontent a ha, leftAt, Timer.left, if_pos hdue, if_pos hreload, Option.getD_some]
  have hrest : ∀ a ∈ l, now.ns - lastSleep.ns < (timer a).value.ns →
      (s.timer a).value.Normalized ∧
        (s.timer a).value.ns = (timer a).value.ns - (now.ns - lastSleep.ns) := by
    intro a ha hlt
    rw [hrunning a ha hlt]
    refine ⟨timediff_normalized (timediff_normalized hlast hnow) (hvalue a ha), ?_⟩
    rw [ns_timediff, ns_timediff]
  have hleast := foldl_least
    ((l.filterMap (leftAt now (timediff lastSleep now) env timer)).map Timer.value) ⟨10, 0⟩
  rw [← hend.sleeptime, ← map_left _ _ l hcontent, hkept, List.map_map] at hleast
  refine ⟨s, hrun, ?_, ⟨_, hrings⟩, ?_, hreloaded, hleast, ?_⟩
  · rw [hend.fired, filterMap_firing hlast hnow hvalue]
  · intro a ha hlt
    refine ⟨?_, hrest a ha hlt⟩
    rw [hrunning a ha hlt]
  · intro hinterval
    have hnormalized : ∀ v ∈ sleepTimes s.timer (keptTimers env timer l (now.ns - lastSleep.ns)),
        v.Normalized := by
      intro v hv
      rcases List.mem_cons.mp hv with rfl | hv
      · decide
      · obtain ⟨a, ha, rfl⟩ := List.mem_map.mp hv
        obtain ⟨hal, hkeep⟩ := List.mem_filter.mp ha
        by_cases hlt : now.ns - lastSleep.ns < (timer a).value.ns
        · exact (hrest a hal hlt).1
        · have hreload : (timer a).Reloads (env a) := by simpa [hlt] using hkeep
          rw [hreloaded a hal (Int.not_lt.mp hlt) hreload]
          exact hinterval a hal
    refine ⟨⟨_, hleast.1, rfl⟩, ?_⟩
    rintro n ⟨v, hv, rfl⟩
    exact (timelte_iff (hnormalized _ hleast.1) (hnormalized v hv)).mp (hleast.2 v hv)

/-- `LIST_INIT` of both lists. -/
def initLinks : Links (Node α) where
  next a := if a = .timers ∨ a = .pool then some a else none
  prev a := if a = .timers ∨ a = .pool then some a else none

/-- Two timers that are registered one after the other. -/
def twoLinks : Links (Node (Fin 2)) :=
  (initLinks.insert (.timer 1) .timers .timers).insert (.timer 0) .timers (.timer 1)

/-- The first, of five seconds, is loaded again; the second has nine seconds left. -/
def twoTimers (a : Fin 2) : Timer :=
  if a = 0 then ⟨2, ⟨5, 0⟩, ⟨5, 0⟩, flagAutoreload, none, true, ⟨0, 0⟩, ⟨0, 0⟩⟩
  else ⟨1, ⟨9, 0⟩, ⟨9, 0⟩, 0, none, true, ⟨0, 0⟩, ⟨0, 0⟩⟩

/-- Five seconds later one timer fires and is loaded again. -/
theorem pass_correct_two :
    ∃ s, Pass.run ⟨0, 0⟩ ⟨5, 0⟩ (fun _ => quietEnv) 3 twoLinks twoTimers = some s ∧
      Correct (fun _ => quietEnv) twoTimers [0, 1] (Timespec.ns ⟨5, 0⟩ - Timespec.ns ⟨0, 0⟩) s :=
  have hrings : Rings twoLinks [0, 1] [] :=
    ⟨⟨by decide, by decide⟩, ⟨by decide, by decide⟩, by decide⟩
  pass_correct (fun _ => quietEnv) twoTimers hrings (by decide) (by decide) (by decide)

end Mediabox.Timers
