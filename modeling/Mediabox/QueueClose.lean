import Mediabox.QueueFifo

/-!
# Closing a queue

`avbox_queue_close` promises that later writes fail with `ESHUTDOWN` and that later reads succeed
while there are items and then fail with `ESHUTDOWN`.

* `Watched` — a queue together with what the promise speaks of: whether a close has completed, and
  which threads are in an `avbox_queue_put` that began after it.
* `Honours` — one section does what the promise says.
* `close_contract` — from any state of the queue and in any interleaving, reads keep the promise and
  never wait; a write keeps it exactly when it finds the queue full, because `closed` is looked at
  only there.
-/

set_option autoImplicit false

namespace Mediabox.Queue

open Transition

variable {τ α : Type*} [DecidableEq τ]

/-! ## The promise -/

/-- A queue with the calls that the promise is about. -/
structure Watched (τ α : Type*) where
  state : State τ α
  /-- a call of `avbox_queue_close` has completed -/
  done : Bool
  /-- the last `avbox_queue_put` of the thread began after that -/
  late : τ → Bool

def Outcome.isClosed : Outcome α → Bool
  | .closed => true
  | _ => false

/-- Which puts are late after an event. -/
def lateAfter (done : Bool) (late : τ → Bool) : Event τ α → τ → Bool
  | .put t _ _ => Function.update late t done
  | _ => late

/-- One critical section. -/
def watch (w : Watched τ α) (e : Event τ α) : Option (Watched τ α × Outcome α) :=
  (step w.state e).map fun r =>
    (⟨r.1, w.done || r.2.isClosed, lateAfter w.done w.late e⟩, r.2)

/-- A queue in any state, with threads anywhere but in `avbox_queue_close`, before the close. -/
structure Watched.Start (w : Watched τ α) : Prop where
  done : w.done = false
  late : ∀ t, w.late t = false
  valued : ∀ n ∈ w.state.q.items, w.state.value n ≠ none
  outside : ∀ t, w.state.pc t ≠ .closeWake

/-- The write finds the queue full. -/
def Full (q : AvboxQueue) : Prop := q.sz > 0 ∧ q.cnt ≥ q.sz

instance (q : AvboxQueue) : Decidable (Full q) := inferInstanceAs (Decidable (_ ∧ _))

/-- What the promise asks of one section: a late put ends with `ESHUTDOWN` and adds nothing, a read
    that begins after the close returns an item or, if there is none, `ESHUTDOWN`, and a drained
    queue stays empty. -/
def Honours (w : Watched τ α) (e : Event τ α) (o : Outcome α) (w' : Watched τ α) : Prop :=
  (match e with
    | .put _ _ _ => w.done = true → o = .pending ∨ o = .putErr .ESHUTDOWN
    | .putLock t | .putWake t => w.late t = true →
      o = .putErr .ESHUTDOWN ∧ w'.state.q.items = w.state.q.items
    | .get _ => w.done = true → (w.state.q.items ≠ [] → ∃ v, o = .got v) ∧
      (w.state.q.items = [] → o = .null .ESHUTDOWN)
    | .peek _ _ | .timedpeek _ _ => w.done = true →
      (w.state.q.items ≠ [] → ∃ v, o = .peeked v) ∧
      (w.state.q.items = [] → o = .null .ESHUTDOWN)
    | _ => True) ∧
  (w.done = true → w.state.q.items = [] → w'.state.q.items = [])

/-- The condition: `acquire_node` gives late puts a node and they find the queue full, and no put
    gets to a drained queue that is not full. -/
def Meets (w : Watched τ α) : Event τ α → Prop
  | .put _ _ malloc => w.done = true → (acquireNode w.state.q malloc).isSome
  | .putLock t => w.late t = true ∨ w.done = true ∧ w.state.q.items = [] → Full w.state.q
  | .putWake _ => w.done = true ∧ w.state.q.items = [] → w.state.q.cnt ≥ w.state.q.sz
  | _ => True

instance (w : Watched τ α) : ∀ e, Decidable (Meets w e)
  | .put _ _ malloc =>
    inferInstanceAs (Decidable (w.done = true → (acquireNode w.state.q malloc).isSome = true))
  | .putLock t =>
    inferInstanceAs (Decidable (w.late t = true ∨ w.done = true ∧ w.state.q.items = [] → Full _))
  | .putWake _ =>
    inferInstanceAs (Decidable (w.done = true ∧ w.state.q.items = [] → _ ≥ _))
  | .get _ | .getWake _ | .peek _ _ | .peekWake _ | .timedpeek _ _ | .timedpeekWake _ | .close _
  | .closeWake _ => inferInstanceAs (Decidable True)

/-! ## The invariant -/

def Pc.isPutWait : Pc α → Bool
  | .putWait _ _ => true
  | _ => false

/-- What holds along every run. -/
structure Closing (w : Watched τ α) : Prop where
  closed_of_done : w.done = true → w.state.q.closed = true
  done_of_late : ∀ t, w.late t = true → w.done = true ∧ (w.state.pc t).isPutWait = false
  valued : ∀ n ∈ w.state.q.items, w.state.value n ≠ none
  closed_of_wake : ∀ t, w.state.pc t = .closeWake → w.state.q.closed = true

omit [DecidableEq τ] in
theorem Watched.Start.closing {w : Watched τ α} (h : w.Start) : Closing w where
  closed_of_done := fun hd => absurd (hd.symm.trans h.done) (by simp)
  done_of_late := fun t ht => absurd (ht.symm.trans (h.late t)) (by simp)
  valued := h.valued
  closed_of_wake := fun t ht => absurd ht (h.outside t)

/-- The thread that moves. -/
def Event.thread : Event τ α → τ
  | .put t _ _ | .putLock t | .putWake t | .get t | .getWake t | .peek t _ | .peekWake t
  | .timedpeek t _ | .timedpeekWake t | .close t | .closeWake t => t

/-- What a section of thread `t` does to the threads and to `closed`. -/
structure Moves (s s' : State τ α) (t : τ) (o : Outcome α) : Prop where
  closed : s.q.closed = true → s'.q.closed = true
  pc : ∃ p, s'.pc = Function.update s.pc t p ∧ (p.isPutWait = true → s.q.closed = false) ∧
    (p = .closeWake → s'.q.closed = true)
  wakes : o.isClosed = true → s.pc t = .closeWake

theorem Moves.goto {s : State τ α} {t : τ} {p : Pc α} {q : AvboxQueue} {o : Outcome α}
    (hq : q.closed = s.q.closed) (hwait : p.isPutWait = true → s.q.closed = false)
    (hwake : p ≠ .closeWake) (ho : o.isClosed = false) : Moves s (s.goto t p q) t o where
  closed := fun h => hq.trans h
  pc := ⟨p, rfl, hwait, fun h => absurd h hwake⟩
  wakes := fun h => absurd (ho.symm.trans h) (by simp)

theorem getSection_moves {s s' : State τ α} {t : τ} {q : AvboxQueue} {r : GetNode} {o : Outcome α}
    (hq : q.closed = s.q.closed) (h : getSection s t q r = some (s', o)) : Moves s s' t o := by
  unfold getSection at h
  split at h
  · cases h
    exact .goto hq nofun nofun rfl
  · cases h
    exact .goto hq nofun nofun rfl
  · split at h
    · cases h
      exact .goto hq nofun nofun rfl
    · cases h

theorem peekSection_moves {s s' : State τ α} {t : τ} {wait : Pc α} {q : AvboxQueue} {r : GetNode}
    {o : Outcome α} (hwait : wait = .peekWait ∨ wait = .timedpeekWait)
    (hq : q.closed = s.q.closed) (h : peekSection s t wait q r = some (s', o)) :
    Moves s s' t o := by
  unfold peekSection at h
  split at h
  · cases h
    rcases hwait with rfl | rfl <;> exact .goto hq nofun nofun rfl
  · cases h
    exact .goto hq nofun nofun rfl
  · split at h
    · cases h
      exact .goto hq nofun nofun rfl
    · cases h

theorem step_moves {s s' : State τ α} {e : Event τ α} {o : Outcome α}
    (h : step s e = some (s', o)) : Moves s s' e.thread o := by
  cases e with
  | put t item malloc =>
    simp only [step] at h
    split at h
    · rename_i hpc
      split at h
      · cases h
      · split at h
        · cases h
          refine ⟨id, ⟨.idle, ?_, by rintro ⟨⟩, by rintro ⟨⟩⟩, by rintro ⟨⟩⟩
          exact (Function.update_eq_self_iff.mpr hpc.symm).symm
        · rename_i node q hacq
          have hq : q.closed = s.q.closed := by
            unfold acquireNode at hacq
            split at hacq
            · cases hacq
              rfl
            · obtain ⟨_, _, hq⟩ := Option.map_eq_some_iff.mp hacq
              cases hq
              rfl
          cases h
          exact ⟨fun hc => hq.trans hc, ⟨_, rfl, by rintro ⟨⟩, by rintro ⟨⟩⟩, by rintro ⟨⟩⟩
    · cases h
  | putLock t =>
    simp only [step] at h
    split at h
    · split at h
      · split at h
        · cases h
          exact .goto rfl (by rintro ⟨⟩) (by rintro ⟨⟩) rfl
        · rename_i hopen
          cases h
          exact .goto rfl (fun _ => by simpa using hopen) (by rintro ⟨⟩) rfl
      · cases h
        exact ⟨id, ⟨.idle, rfl, by rintro ⟨⟩, by rintro ⟨⟩⟩, by rintro ⟨⟩⟩
    · cases h
  | putWake t =>
    simp only [step] at h
    split at h
    · split at h
      · cases h
        exact .goto rfl (by rintro ⟨⟩) (by rintro ⟨⟩) rfl
      · cases h
        exact ⟨id, ⟨.idle, rfl, by rintro ⟨⟩, by rintro ⟨⟩⟩, by rintro ⟨⟩⟩
    · cases h
  | get t | getWake t =>
    simp only [step] at h
    split at h
    · exact getSection_moves (by rfl) h
    · cases h
  | peek t _ | peekWake t =>
    simp only [step] at h
    split at h
    · exact peekSection_moves (Or.inl rfl) (by rfl) h
    · cases h
  | timedpeek t _ | timedpeekWake t =>
    simp only [step] at h
    split at h
    · exact peekSection_moves (Or.inr rfl) (by rfl) h
    · cases h
  | close t =>
    simp only [step] at h
    split at h
    · cases h
      exact ⟨fun _ => rfl, ⟨.closeWake, rfl, by rintro ⟨⟩, fun _ => rfl⟩, by rintro ⟨⟩⟩
    · cases h
  | closeWake t =>
    simp only [step] at h
    split at h
    · rename_i hpc
      cases h
      exact ⟨id, ⟨.idle, rfl, by rintro ⟨⟩, by rintro ⟨⟩⟩, fun _ => hpc⟩
    · cases h

/-- Nodes in the queue carry a value. -/
theorem step_valued {s s' : State τ α} {e : Event τ α} {o : Outcome α}
    (hv : ∀ n ∈ s.q.items, s.value n ≠ none) (h : step s e = some (s', o)) :
    ∀ n ∈ s'.q.items, s'.value n ≠ none := by
  obtain ⟨t, heff⟩ := step_effect h
  cases heff with
  | keep _ hq hval | acquire _ hq _ _ hval | malloc _ hq _ hval | release _ hq _ hval =>
    rw [hq.1, hval]; exact hv
  | @enqueue node _ _ hq _ hval =>
    rw [hq.1, hval]
    intro n hn
    by_cases hnode : n = node
    · rw [hnode, Function.update_self]
      simp
    · rw [Function.update_of_ne hnode]
      exact hv n ((List.mem_cons.mp hn).resolve_left hnode)
  | dequeue _ _ hq _ hval =>
    rw [hq.1, hval]
    exact fun n hn => hv n (List.mem_of_mem_erase hn)

/-- A late put was late before, or it begins now. -/
theorem lateAfter_cases {done : Bool} {late : τ → Bool} {e : Event τ α} {u : τ} {P : Prop}
    (h : lateAfter done late e u = true) (hold : late u = true → P)
    (hnew : done = true → e.thread = u → P) : P := by
  cases e with
  | put t item malloc =>
    by_cases hut : u = t
    · subst hut
      have hd : Function.update late u done u = true := h
      rw [Function.update_self] at hd
      exact hnew hd rfl
    · have hl : Function.update late t done u = true := h
      rw [Function.update_of_ne hut] at hl
      exact hold hl
  | _ => exact hold h

theorem Closing.next {w w' : Watched τ α} {e : Event τ α} {o : Outcome α} (h : Closing w)
    (hstep : watch w e = some (w', o)) : Closing w' := by
  obtain ⟨⟨s', o⟩, hs, heq⟩ := Option.map_eq_some_iff.mp hstep
  cases heq
  have hmoves := step_moves hs
  obtain ⟨p, hpc, hwait, hwake⟩ := hmoves.pc
  have hclosed : w.done = true ∨ o.isClosed = true → w.state.q.closed = true := by
    rintro (hd | ho)
    · exact h.closed_of_done hd
    · exact h.closed_of_wake _ (hmoves.wakes ho)
  have hdone : (w.done || o.isClosed) = true → s'.q.closed = true := fun hd =>
    hmoves.closed (hclosed (by simpa using hd))
  refine ⟨hdone, fun u hu => ?_, step_valued h.valued hs, fun u hu => ?_⟩
  · -- a late put does not wait: the queue was closed when it began
    obtain ⟨hd, hother⟩ : w.done = true ∧
        (e.thread ≠ u → (w.state.pc u).isPutWait = false) := lateAfter_cases hu
      (fun hl => ⟨(h.done_of_late u hl).1, fun _ => (h.done_of_late u hl).2⟩)
      fun hd he => ⟨hd, fun hne => absurd he hne⟩
    refine ⟨by rw [hd]; rfl, ?_⟩
    show (s'.pc u).isPutWait = false
    rw [hpc]
    by_cases hut : e.thread = u
    · rw [← hut, Function.update_self]
      by_contra hp
      have hopen := hwait (by simpa using hp)
      exact absurd (hopen.symm.trans (h.closed_of_done hd)) (by simp)
    · rw [Function.update_of_ne (Ne.symm hut)]
      exact hother hut
  · have hu : s'.pc u = .closeWake := hu
    rw [hpc] at hu
    by_cases hut : u = e.thread
    · rw [hut, Function.update_self] at hu
      exact hwake hu
    · rw [Function.update_of_ne hut] at hu
      exact hmoves.closed (h.closed_of_wake u hu)

theorem watch_done {w w' : Watched τ α} {e : Event τ α} {o : Outcome α}
    (h : watch w e = some (w', o)) (hd : w.done = true) : w'.done = true := by
  obtain ⟨_, _, heq⟩ := Option.map_eq_some_iff.mp h
  cases heq
  exact (Bool.or_eq_true _ _).mpr (Or.inl hd)

theorem run_closing {w₀ w : Watched τ α} {tr : List (Event τ α × Outcome α)} (h₀ : w₀.Start)
    (h : Run (Step watch) w₀ tr w) : Closing w :=
  Run.invariant h₀.closing (fun _ _ _ hw hstep => hw.next hstep) h

/-! ## Sections of a closed queue -/

omit [DecidableEq τ] in
theorem tail_valued {s : State τ α} (hv : ∀ n ∈ s.q.items, s.value n ≠ none)
    (hne : s.q.items ≠ []) : ∃ node v, listTail s.q.items = some node ∧ s.value node = some v := by
  have htail : listTail s.q.items = some (s.q.items.getLast hne) :=
    List.getLast?_eq_some_getLast hne
  obtain ⟨v, hval⟩ := Option.ne_none_iff_exists'.mp (hv _ (List.getLast_mem hne))
  exact ⟨_, v, htail, hval⟩

theorem getnode_closed_empty {q : AvboxQueue} {block : Bool} (hclosed : q.closed = true)
    (hnil : q.items = []) : getnode q block = .null .ESHUTDOWN := by
  simp [getnode, listTail, hnil, hclosed]

theorem getnode_tail {q : AvboxQueue} {block : Bool} {node : NodeId}
    (h : listTail q.items = some node) : getnode q block = .node node := by
  simp [getnode, h]

/-- **A read of a closed queue**: the section of `avbox_queue_get` that begins after the close
    returns an item if there is one and `ESHUTDOWN` if not; it never waits. -/
theorem get_closed {s : State τ α} (hclosed : s.q.closed = true)
    (hv : ∀ n ∈ s.q.items, s.value n ≠ none) (t : τ) :
    ∃ s' o, getSection s t s.q (getnode s.q true) = some (s', o) ∧
      (s.q.items ≠ [] → ∃ v, o = .got v) ∧
      (s.q.items = [] → o = .null .ESHUTDOWN ∧ s'.q.items = []) := by
  by_cases hnil : s.q.items = []
  · rw [getnode_closed_empty hclosed hnil]
    exact ⟨_, _, rfl, fun hne => absurd hnil hne, fun _ => ⟨rfl, hnil⟩⟩
  · obtain ⟨node, v, htail, hval⟩ := tail_valued hv hnil
    rw [getnode_tail htail]
    refine ⟨s.goto t .idle (dequeue s.q node), .got v, ?_, fun _ => ⟨v, rfl⟩,
      fun h => absurd h hnil⟩
    simp [getSection, hval]

theorem peek_closed {s : State τ α} (hclosed : s.q.closed = true)
    (hv : ∀ n ∈ s.q.items, s.value n ≠ none) (t : τ) (wait : Pc α) (block : Bool) :
    ∃ s' o, peekSection s t wait s.q (getnode s.q block) = some (s', o) ∧
      (s.q.items ≠ [] → ∃ v, o = .peeked v) ∧
      (s.q.items = [] → o = .null .ESHUTDOWN ∧ s'.q.items = []) := by
  by_cases hnil : s.q.items = []
  · rw [getnode_closed_empty hclosed hnil]
    exact ⟨_, _, rfl, fun hne => absurd hnil hne, fun _ => ⟨rfl, hnil⟩⟩
  · obtain ⟨node, v, htail, hval⟩ := tail_valued hv hnil
    rw [getnode_tail htail]
    refine ⟨s.goto t .idle s.q, .peeked v, ?_, fun _ => ⟨v, rfl⟩, fun h => absurd h hnil⟩
    simp [peekSection, hval]

theorem items_nil {s s' : State τ α} {e : Event τ α} {o : Outcome α}
    (h : step s e = some (s', o)) (hput : ∀ item, o ≠ .putOk item) (hnil : s.q.items = []) :
    s'.q.items = [] := by
  obtain ⟨t, heff⟩ := step_effect h
  cases heff with
  | keep _ hq | acquire _ hq | malloc _ hq | release _ hq => rw [hq.1, hnil]
  | enqueue => exact absurd rfl (hput _)
  | dequeue _ hi =>
    obtain ⟨l, hl⟩ := hi
    rw [hnil] at hl
    exact absurd hl (by simp)

theorem getSection_not_put {s s' : State τ α} {t : τ} {q : AvboxQueue} {r : GetNode}
    {o : Outcome α} (h : getSection s t q r = some (s', o)) (item : α) : o ≠ .putOk item := by
  unfold getSection at h
  split at h
  · cases h
    simp
  · cases h
    simp
  · split at h
    · cases h
      simp
    · cases h

theorem peekSection_not_put {s s' : State τ α} {t : τ} {wait : Pc α} {q : AvboxQueue} {r : GetNode}
    {o : Outcome α} (h : peekSection s t wait q r = some (s', o)) (item : α) : o ≠ .putOk item := by
  unfold peekSection at h
  split at h
  · cases h
    simp
  · cases h
    simp
  · split at h
    · cases h
      simp
    · cases h

theorem putLock_cases {s s' : State τ α} {t : τ} {o : Outcome α}
    (h : step s (.putLock t) = some (s', o)) :
    (Full s.q ∧ s'.q.items = s.q.items ∧
      (o = .putErr .ESHUTDOWN ∧ s.q.closed = true ∨ o = .pending ∧ s.q.closed = false)) ∨
    (¬Full s.q ∧ ∃ item, o = .putOk item ∧ s'.q.items ≠ []) := by
  simp only [step] at h
  split at h
  · split at h
    · rename_i hfull
      refine Or.inl ⟨hfull, ?_⟩
      split at h
      · rename_i hclosed
        cases h
        exact ⟨rfl, Or.inl ⟨rfl, hclosed⟩⟩
      · rename_i hopen
        cases h
        exact ⟨rfl, Or.inr ⟨rfl, by simpa using hopen⟩⟩
    · rename_i hfull
      cases h
      exact Or.inr ⟨hfull, _, rfl, by simp [enqueue, listAdd]⟩
  · cases h

theorem putWake_cases {s s' : State τ α} {t : τ} {o : Outcome α}
    (h : step s (.putWake t) = some (s', o)) : (s.pc t).isPutWait = true ∧
    ((s.q.cnt ≥ s.q.sz ∧ o = .putErr .EAGAIN) ∨
      (¬s.q.cnt ≥ s.q.sz ∧ s'.q.items ≠ [])) := by
  simp only [step] at h
  split at h
  · rename_i hpc
    refine ⟨by rw [hpc]; rfl, ?_⟩
    split at h
    · rename_i hfull
      cases h
      exact Or.inl ⟨hfull, rfl⟩
    · rename_i hfull
      cases h
      exact Or.inr ⟨hfull, by simp [enqueue, listAdd]⟩
  · cases h

/-! ## The contract -/

/-- **One section keeps the promise exactly under the condition.** -/
theorem Closing.honours_iff {w w' : Watched τ α} {e : Event τ α} {o : Outcome α} (h : Closing w)
    (hstep : watch w e = some (w', o)) : Honours w e o w' ↔ Meets w e := by
  obtain ⟨⟨s', o⟩, hs, heq⟩ := Option.map_eq_some_iff.mp hstep
  cases heq
  have hquiet (hput : ∀ item, o ≠ .putOk item) :
      w.done = true → w.state.q.items = [] → s'.q.items = [] := fun _ => items_nil hs hput
  cases e with
  | put t item malloc =>
    unfold Honours Meets
    simp only [step] at hs ⊢
    split at hs
    · split at hs
      · cases hs
      · split at hs
        · rename_i hacq
          cases hs
          simp [hacq]
        · rename_i hacq
          cases hs
          exact iff_of_true ⟨fun _ => Or.inl rfl, hquiet (by simp)⟩ fun _ => by rw [hacq]; rfl
    · cases hs
  | putLock t =>
    unfold Honours Meets
    simp only
    rcases putLock_cases hs with ⟨hfull, hitems, hout⟩ | ⟨hfull, item, ho, hne⟩
    · refine ⟨fun _ _ => hfull, fun _ => ⟨fun hl => ?_, fun _ hnil => hitems.trans hnil⟩⟩
      rcases hout with ⟨ho, _⟩ | ⟨_, hopen⟩
      · exact ⟨ho, hitems⟩
      · have hclosed := h.closed_of_done (h.done_of_late t hl).1
        exact absurd (hopen.symm.trans hclosed) (by simp)
    · constructor
      · rintro ⟨hlate, hempty⟩ (hl | ⟨hd, hnil⟩)
        · exact absurd (ho.symm.trans (hlate hl).1) (by simp)
        · exact absurd (hempty hd hnil) hne
      · intro hmeets
        exact ⟨fun hl => absurd (hmeets (Or.inl hl)) hfull,
          fun hd hnil => absurd (hmeets (Or.inr ⟨hd, hnil⟩)) hfull⟩
  | putWake t =>
    unfold Honours Meets
    simp only
    obtain ⟨hwait, hcases⟩ := putWake_cases hs
    have hlate : ¬w.late t = true := fun hl => by
      rw [(h.done_of_late t hl).2] at hwait
      exact absurd hwait (by simp)
    rcases hcases with ⟨hfull, ho⟩ | ⟨hfull, hne⟩
    · exact ⟨fun _ _ => hfull, fun _ => ⟨fun hl => absurd hl hlate, hquiet (by simp [ho])⟩⟩
    · constructor
      · rintro ⟨_, hempty⟩ ⟨hd, hnil⟩
        exact absurd (hempty hd hnil) hne
      · intro hmeets
        exact ⟨fun hl => absurd hl hlate, fun hd hnil => absurd (hmeets ⟨hd, hnil⟩) hfull⟩
  | get t =>
    refine iff_of_true ?_ trivial
    simp only [step] at hs
    split at hs
    · refine ⟨fun hd => ?_, hquiet (getSection_not_put hs)⟩
      obtain ⟨_, _, heq, hsome, hnone⟩ := get_closed (h.closed_of_done hd) h.valued t
      cases hs.symm.trans heq
      exact ⟨hsome, fun hnil => (hnone hnil).1⟩
    · cases hs
  | peek t block =>
    refine iff_of_true ?_ trivial
    simp only [step] at hs
    split at hs
    · refine ⟨fun hd => ?_, hquiet (peekSection_not_put hs)⟩
      obtain ⟨_, _, heq, hsome, hnone⟩ :=
        peek_closed (h.closed_of_done hd) h.valued t .peekWait block
      cases hs.symm.trans heq
      exact ⟨hsome, fun hnil => (hnone hnil).1⟩
    · cases hs
  | timedpeek t timeout =>
    refine iff_of_true ?_ trivial
    simp only [step] at hs
    split at hs
    · refine ⟨fun hd => ?_, hquiet (peekSection_not_put hs)⟩
      obtain ⟨_, _, heq, hsome, hnone⟩ :=
        peek_closed (h.closed_of_done hd) h.valued t .timedpeekWait true
      cases hs.symm.trans heq
      exact ⟨hsome, fun hnil => (hnone hnil).1⟩
    · cases hs
  | getWake t =>
    refine iff_of_true ⟨trivial, ?_⟩ trivial
    simp only [step] at hs
    split at hs
    · exact hquiet (getSection_not_put hs)
    · cases hs
  | peekWake t | timedpeekWake t =>
    refine iff_of_true ⟨trivial, ?_⟩ trivial
    simp only [step] at hs
    split at hs
    · exact hquiet (peekSection_not_put hs)
    · cases hs
  | close t | closeWake t =>
    refine iff_of_true ⟨trivial, ?_⟩ trivial
    simp only [step] at hs
    split at hs
    · cases hs
      exact hquiet (by simp)
    · cases hs

/-- **The close contract.**  From any state of a queue and in any interleaving, a section that is
    taken after the close does what `avbox_queue_close` promises exactly when `Meets` holds: reads
    always do, a late put only if it finds the queue full.  Reads that begin after the close are
    never stuck, and while the condition is met a queue that was drained stays empty. -/
theorem close_contract {w₀ w : Watched τ α} {tr : List (Event τ α × Outcome α)} (h₀ : w₀.Start)
    (hrun : Run (Step watch) w₀ tr w) :
    (∀ e o w', watch w e = some (w', o) → (Honours w e o w' ↔ Meets w e)) ∧
      (w.done = true → ∀ t, w.state.pc t = .idle → (watch w (.get t)).isSome ∧
        (∀ block, (watch w (.peek t block)).isSome) ∧
        ∀ timeout, (watch w (.timedpeek t timeout)).isSome) ∧
      (w.done = true → w.state.q.items = [] → ∀ tr' w',
        Run (Guarded watch Meets) w tr' w' → w'.state.q.items = []) := by
  have hclosing := run_closing h₀ hrun
  refine ⟨fun e o w' => hclosing.honours_iff, fun hd t ht => ?_, fun hd hnil tr' w' hrun' => ?_⟩
  · have hclosed := hclosing.closed_of_done hd
    refine ⟨?_, fun block => ?_, fun timeout => ?_⟩
    · obtain ⟨_, _, heq, _⟩ := get_closed hclosed hclosing.valued t
      simp [watch, step, ht, heq]
    · obtain ⟨_, _, heq, _⟩ := peek_closed hclosed hclosing.valued t .peekWait block
      simp [watch, step, ht, heq]
    · obtain ⟨_, _, heq, _⟩ := peek_closed hclosed hclosing.valued t .timedpeekWait true
      simp [watch, step, ht, heq]
  · have hinv := Run.invariant
      (P := fun w => Closing w ∧ w.done = true ∧ w.state.q.items = []) ⟨hclosing, hd, hnil⟩
      (fun w a w' hw hg => ?_) hrun'
    · exact hinv.2.2
    · obtain ⟨hc, hd, hnil⟩ := hw
      have hhon := (hc.honours_iff hg.2).mpr hg.1
      exact ⟨hc.next hg.2, watch_done hg.2 hd, hhon.2 hd hnil⟩

/-- A queue just created. -/
def Watched.init (τ α : Type*) (sz : Nat) (mallocs : List (Option NodeId)) : Watched τ α :=
  ⟨Queue.init τ α sz mallocs, false, fun _ => false⟩

omit [DecidableEq τ] in
theorem init_start (sz : Nat) (mallocs : List (Option NodeId)) :
    (Watched.init τ α sz mallocs).Start :=
  ⟨rfl, fun _ => rfl, nofun, nofun⟩

/-- A late put to a full queue of size 1 ends with `ESHUTDOWN`. -/
theorem close_contract_full : ∃ tr w w', Run (Step watch) (Watched.init Unit Nat 1 [some 0]) tr w ∧
    w.done = true ∧ w.late () = true ∧
    watch w (.putLock ()) = some (w', .putErr .ESHUTDOWN) ∧
    Honours w (.putLock ()) (.putErr .ESHUTDOWN) w' :=
  have hrun : Run (Step watch) (Watched.init Unit Nat 1 [some 0]) _ _ := run_of_exec
    [.put () 7 none, .putLock (), .close (), .closeWake (), .put () 8 (some 1)] rfl
  ⟨_, _, _, hrun, rfl, rfl, rfl, ((close_contract (init_start 1 [some 0]) hrun).1 _ _ _ rfl).mpr
    (by decide)⟩

/-- **A closed queue takes items**: an unbounded queue is closed while it is empty, and the put that
    begins after that returns 0 and leaves its item in the queue. -/
theorem put_after_close : ∃ tr w w', Run (Step watch) (Watched.init Unit Nat 0 []) tr w ∧
    w.done = true ∧ w.late () = true ∧ w.state.q.items = [] ∧
    watch w (.putLock ()) = some (w', .putOk 7) ∧ w'.state.q.items = [0] ∧
    ¬Honours w (.putLock ()) (.putOk 7) w' :=
  have hrun : Run (Step watch) (Watched.init Unit Nat 0 []) _ _ := run_of_exec
    [.close (), .closeWake (), .put () 7 (some 0)] rfl
  ⟨_, _, _, hrun, rfl, rfl, rfl, rfl, rfl, fun h => nomatch h.2 rfl rfl⟩

end Mediabox.Queue
