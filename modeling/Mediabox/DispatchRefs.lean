import Mediabox.DispatchMail
import Mediabox.Lib.Tally

/-!
# Conservation of references

Along every run of the dispatcher, `refs` of a live object is the number of reasons there are to
keep it:

* its own reference, until its CLEANUP message was processed (`ownRef`),
* its occurrences in the destination lists of queued messages and of messages in dispatch
  (`occurrences`), and
* the references taken by `avbox_object_ref` and not dropped (`held`).

`refs_conserved` is the theorem.  The references of an object are dropped in several places, and the
one that needs an argument is the CLEANUP case: it may be taken once per object.  That is because a
CLEANUP message is sent by the DESTROY case alone, which sets `destroyed` under the lock of the
object, and no message but CLEANUP reaches a destroyed object (`Counts.once`, `FrameOk`).
-/

set_option autoImplicit false

namespace Mediabox.Dispatch

open Transition

variable {τ : Type*}

/-! ## The heap -/

/-- `refs` of the object at this address; 0 when there is none. -/
def refsOf (h : Heap τ) (o : Addr) : Nat := ((h o).map Object.refs).getD 0

/-- No live object is without references. -/
def Counted (h : Heap τ) : Prop := ∀ o x, h o = some x → 0 < x.refs

/-- The heap with `k o` references more on each live object `o`. -/
def addRefs (h : Heap τ) (k : Addr → Nat) : Heap τ :=
  fun o => (h o).map fun x => { x with refs := x.refs + k o }

theorem refsOf_of_some {h : Heap τ} {o : Addr} {x : Object τ} (hx : h o = some x) :
    refsOf h o = x.refs := by
  simp [refsOf, hx]

theorem live_of_refs {h : Heap τ} {o : Addr} (hpos : 0 < refsOf h o) :
    ∃ x, h o = some x := by
  cases hx : h o with
  | none => simp [refsOf, hx] at hpos
  | some x => exact ⟨x, rfl⟩

theorem refsOf_addRefs {h : Heap τ} {k : Addr → Nat} {o : Addr} (hlive : k o = 0 ∨ (h o).isSome) :
    refsOf (addRefs h k) o = refsOf h o + k o := by
  cases hx : h o with
  | none => simp [refsOf, addRefs, hx] at hlive ⊢; omega
  | some x => simp [refsOf, addRefs, hx]

theorem Counted.addRefs {h : Heap τ} (hc : Counted h) (k : Addr → Nat) :
    Counted (addRefs h k) := by
  intro o y hy
  obtain ⟨x, hx, rfl⟩ := Option.map_eq_some_iff.mp hy
  have := hc o x hx
  show 0 < x.refs + k o
  omega

theorem addRefs_addRefs (h : Heap τ) (k l : Addr → Nat) :
    addRefs (addRefs h k) l = addRefs h (fun o => k o + l o) := by
  funext o
  simp [addRefs, Function.comp_def, Nat.add_assoc]

@[simp] theorem addRefs_zero (h : Heap τ) : addRefs h (fun _ => 0) = h := by
  funext o
  simp [addRefs]

theorem objectRef_eq {h h' : Heap τ} {o : Addr} (hr : objectRef h o = some h') :
    h' = addRefs h (fun p => [o].count p) ∧ (h o).isSome := by
  obtain ⟨x, hx, rfl⟩ := Option.map_eq_some_iff.mp hr
  refine ⟨?_, by simp [hx]⟩
  funext p
  by_cases hp : p = o
  · subst hp; simp [addRefs, hx]
  · simp [addRefs, Function.update_of_ne hp, Ne.symm hp]

/-- `avbox_dispatch_destdup` takes one reference for each occurrence. -/
theorem destdup_eq {os : List Addr} : ∀ {h h' : Heap τ}, destdup h os = some h' →
    h' = addRefs h (fun p => os.count p) ∧ ∀ p ∈ os, (h p).isSome := by
  induction os with
  | nil =>
    intro h h' hd
    simp only [destdup, List.foldlM_nil, Option.pure_def, Option.some.injEq] at hd
    subst hd
    exact ⟨by simp, by simp⟩
  | cons o os ih =>
    intro h h' hd
    simp only [destdup, List.foldlM_cons, Option.bind_eq_bind, Option.bind_eq_some_iff] at hd
    obtain ⟨h₁, hr, hd⟩ := hd
    obtain ⟨rfl, hlive⟩ := objectRef_eq hr
    obtain ⟨rfl, hlives⟩ := ih hd
    refine ⟨?_, ?_⟩
    · rw [addRefs_addRefs]
      congr 1
      funext p
      simp only [List.count_cons, List.count_nil]
      omega
    · intro p hp
      rcases List.mem_cons.mp hp with rfl | hp
      · exact hlive
      · simpa [addRefs] using hlives p hp

/-- `avbox_object_unref` drops one reference of `o`, frees `o` when it was the last one, and changes
    nothing else. -/
theorem objectUnref_spec {h h' : Heap τ} {o : Addr} (hc : Counted h)
    (hu : objectUnref h o = some h') :
    Counted h' ∧ (∀ p, refsOf h' p + [o].count p = refsOf h p) ∧
      ∀ p y, h' p = some y → ∃ x, h p = some x ∧ y = { x with refs := y.refs } := by
  obtain ⟨x, hx, rfl⟩ := Option.map_eq_some_iff.mp hu
  have hpos := hc o x hx
  refine ⟨?_, ?_, ?_⟩
  · intro p y hy
    by_cases hp : p = o
    · subst hp
      rw [Function.update_self] at hy
      split at hy
      · cases hy
      · cases hy; show 0 < x.refs - 1; omega
    · rw [Function.update_of_ne hp] at hy
      exact hc p y hy
  · intro p
    by_cases hp : p = o
    · subst hp
      rw [refsOf_of_some hx]
      simp only [refsOf, Function.update_self, List.count_singleton_self]
      split <;> simp <;> omega
    · simp [refsOf, Function.update_of_ne hp, Ne.symm hp]
  · intro p y hy
    by_cases hp : p = o
    · subst hp
      rw [Function.update_self] at hy
      split at hy
      · cases hy
      · cases hy; exact ⟨x, hx, rfl⟩
    · rw [Function.update_of_ne hp] at hy
      exact ⟨y, hy, rfl⟩

/-- `avbox_dispatch_freemsg` drops one reference for each occurrence. -/
theorem unrefs_spec {os : List Addr} : ∀ {h h' : Heap τ}, Counted h →
    os.foldlM objectUnref h = some h' →
    Counted h' ∧ (∀ p, refsOf h' p + os.count p = refsOf h p) ∧
      ∀ p y, h' p = some y → ∃ x, h p = some x ∧ y = { x with refs := y.refs } := by
  induction os with
  | nil =>
    intro h h' hc hu
    simp only [List.foldlM_nil, Option.pure_def, Option.some.injEq] at hu
    subst hu
    exact ⟨hc, by simp, fun p y hy => ⟨y, hy, rfl⟩⟩
  | cons o os ih =>
    intro h h' hc hu
    simp only [List.foldlM_cons, Option.bind_eq_bind, Option.bind_eq_some_iff] at hu
    obtain ⟨h₁, hu, hus⟩ := hu
    obtain ⟨hc₁, hrefs₁, hsame₁⟩ := objectUnref_spec hc hu
    obtain ⟨hc', hrefs', hsame'⟩ := ih hc₁ hus
    refine ⟨hc', ?_, ?_⟩
    · intro p
      have h1 := hrefs₁ p
      have h2 := hrefs' p
      rw [← List.singleton_append, List.count_append]
      omega
    · intro p y hy
      obtain ⟨x₁, hx₁, hy₁⟩ := hsame' p y hy
      obtain ⟨x, hx, hx₁'⟩ := hsame₁ p x₁ hx₁
      exact ⟨x, hx, by rw [hy₁, hx₁']⟩

theorem freemsg_eq (h : Heap τ) (msg : Message) :
    freemsg h msg = msg.dest.objects.foldlM objectUnref h := by
  unfold freemsg Dest.objects
  split <;> simp

theorem unrefs_addRefs {os : List Addr} : ∀ {h h' : Heap τ}, Counted h →
    os.foldlM objectUnref (addRefs h (fun p => os.count p)) = some h' → h' = h := by
  induction os with
  | nil =>
    intro h h' _ hu
    simpa using hu.symm
  | cons o os ih =>
    intro h h' hc hu
    simp only [List.foldlM_cons, Option.bind_eq_bind, Option.bind_eq_some_iff] at hu
    obtain ⟨h₁, hu, hus⟩ := hu
    have hstep : h₁ = addRefs h (fun p => os.count p) := by
      obtain ⟨y, hy, rfl⟩ := Option.map_eq_some_iff.mp hu
      obtain ⟨x, hx, rfl⟩ := Option.map_eq_some_iff.mp hy
      have hpos := hc o x hx
      funext p
      by_cases hp : p = o
      · subst hp
        have hne : ¬x.refs + (os.count p + 1) - 1 = 0 := by omega
        simp only [Function.update_self, List.count_cons_self, hne, ↓reduceIte]
        simp [addRefs, hx]
      · simp [Function.update_of_ne hp, addRefs, List.count_cons, Ne.symm hp]
    subst hstep
    exact ih hc hus

/-! ## Totals over the threads -/

/-- What a thread holds: its queued messages, each weighed by `w`, and its message in dispatch,
    weighed by `v`. -/
def Thread.weigh (w : Message → Nat) (v : Frame → Nat) (th : Thread) : Nat :=
  ((th.queue.map fun dq => (dq.messages.map w).sum).getD 0) + (th.frame.map v).getD 0

variable [Fintype τ]

def tally (w : Message → Nat) (v : Frame → Nat) (s : State τ) : Nat :=
  ∑ t, (s.threads t).weigh w v

/-- Occurrences of `o` in the destination lists of queued messages and messages in dispatch. -/
def occurrences (s : State τ) (o : Addr) : Nat :=
  tally (fun msg => msg.dest.objects.count o) (fun f => f.msg.dest.objects.count o) s

/-- Deliveries of CLEANUP messages to `o` still to come. -/
def cleanups (s : State τ) (o : Addr) : Nat :=
  tally (fun msg => if msg.id = .cleanup then msg.dest.objects.count o else 0)
    (fun f => if f.msg.id = .cleanup then f.todo.count o else 0) s

/-- The object's own reference. -/
def ownRef (s : State τ) (o : Addr) : Nat := if s.owned o then 1 else 0

/-- The destinations of a message in dispatch are among the occurrences. -/
theorem occurrences_frame {s : State τ} {t : τ} {f : Frame} (hf : (s.threads t).frame = some f)
    (o : Addr) : f.msg.dest.objects.count o ≤ occurrences s o := by
  have := Tally.le_sum (Thread.weigh (fun msg => msg.dest.objects.count o)
    (fun f => f.msg.dest.objects.count o)) s.threads t
  simp only [Thread.weigh, hf, Option.map_some, Option.getD_some] at this
  unfold occurrences tally Thread.weigh
  omega

variable [DecidableEq τ]

theorem tally_setThread (w : Message → Nat) (v : Frame → Nat) (s : State τ) (t : τ) (th : Thread) :
    tally w v (s.setThread t th) + (s.threads t).weigh w v = tally w v s + th.weigh w v :=
  Tally.sum_update (Thread.weigh w v) s.threads t th

theorem tally_setFrame (w : Message → Nat) (v : Frame → Nat) (s : State τ) (t : τ)
    (f : Option Frame) :
    tally w v (s.setFrame t f) + ((s.threads t).frame.map v).getD 0 =
      tally w v s + (f.map v).getD 0 := by
  have := tally_setThread w v s t { s.threads t with frame := f }
  simp only [Thread.weigh, State.setFrame] at this ⊢
  omega

theorem tally_append (w : Message → Nat) (v : Frame → Nat) {s : State τ} {t : τ}
    {dq : DispatchQueue} (hq : (s.threads t).queue = some dq) (msg : Message) :
    tally w v (s.setThread t ⟨some ⟨dq.closed, dq.messages ++ [msg]⟩, (s.threads t).frame⟩) =
      tally w v s + w msg := by
  have := tally_setThread w v s t ⟨some ⟨dq.closed, dq.messages ++ [msg]⟩, (s.threads t).frame⟩
  simp only [Thread.weigh, hq, Option.map_some, Option.getD_some, List.map_append, List.sum_append,
    List.map_cons, List.map_nil, List.sum_cons, List.sum_nil] at this
  omega

theorem tally_pop (w : Message → Nat) (v : Frame → Nat) {s : State τ} {t : τ} {closed : Bool}
    {msg : Message} {msgs : List Message} (hq : (s.threads t).queue = some ⟨closed, msg :: msgs⟩)
    (hf : (s.threads t).frame = none) (f : Option Frame) :
    tally w v (s.setThread t ⟨some ⟨closed, msgs⟩, f⟩) + w msg =
      tally w v s + (f.map v).getD 0 := by
  have := tally_setThread w v s t ⟨some ⟨closed, msgs⟩, f⟩
  simp only [Thread.weigh, hq, hf, Option.map_some, Option.getD_some, Option.map_none,
    Option.getD_none, List.map_cons, List.sum_cons] at this
  omega

theorem tally_queue (w : Message → Nat) (v : Frame → Nat) {s : State τ} {t : τ} {dq : DispatchQueue}
    (hq : dq.messages = ((s.threads t).queue.map DispatchQueue.messages).getD []) :
    tally w v (s.setThread t ⟨some dq, (s.threads t).frame⟩) = tally w v s := by
  have := tally_setThread w v s t ⟨some dq, (s.threads t).frame⟩
  cases hold : (s.threads t).queue <;> simp [Thread.weigh, hold, hq] at this <;> omega
omit [DecidableEq τ] in
theorem tally_eq (w : Message → Nat) (v : Frame → Nat) {s s' : State τ}
    (h : s'.threads = s.threads) : tally w v s' = tally w v s := by
  unfold tally
  rw [h]

theorem Queued.tally {s s' : State τ} {msg? : Option Message}
    (h : Queued s.threads msg? s'.threads) (w : Message → Nat) (v : Frame → Nat) :
    Dispatch.tally w v s' = Dispatch.tally w v s ∨
      ∃ msg, msg? = some msg ∧ Dispatch.tally w v s' = Dispatch.tally w v s + w msg := by
  cases h with
  | same h => exact .inl (tally_eq w v h)
  | added hmsg hq h =>
    exact .inr ⟨_, hmsg, (tally_eq w v (s := s.setThread _ _) h).trans (tally_append w v hq _)⟩

/-! ## `avbox_object_sendmsg` -/

/-- The state after `msg` was sent to the queue of thread `q`, which was `dq`. -/
def State.sent (s : State τ) (q : τ) (dq : DispatchQueue) (msg : Message) : State τ :=
  { s with heap := addRefs s.heap (fun p => msg.dest.objects.count p) }.setThread q
    ⟨some ⟨dq.closed, dq.messages ++ [msg]⟩, (s.threads q).frame⟩

/-- What a call of `avbox_object_sendmsg` did. -/
inductive Sent (s : State τ) (dest : List Addr) (id : MessageType) (flags : Nat) :
    State τ → Bool → Prop
  /-- It returned `NULL`: nothing changed. -/
  | null : Sent s dest id flags s false
  /-- It queued a message that holds a reference for each destination. -/
  | message {q : τ} {dq : DispatchQueue} {msg : Message} (hq : (s.threads q).queue = some dq)
      (hid : msg.id = id) (hlive : ∀ p ∈ msg.dest.objects, (s.heap p).isSome)
      (huni : castOf flags = some .unicast → ∀ o, dest = [o] → msg.dest.objects = [o]) :
      Sent s dest id flags (s.sent q dq msg) true

omit [Fintype τ] in
/-- `avbox_queue_put` took the message, or the references taken for it were dropped again. -/
theorem putmsg_cases {s s' : State τ} {q : τ} {m : Mallocs} {ok : Bool} (msg : Message)
    (hc : Counted s.heap)
    (h : putmsg { s with heap := addRefs s.heap (fun p => msg.dest.objects.count p) } q msg m =
      some (s', ok)) :
    (s' = s ∧ ok = false) ∨
      ∃ dq, (s.threads q).queue = some dq ∧ s' = s.sent q dq msg ∧ ok = true := by
  unfold putmsg at h
  split at h
  · cases h
  · rename_i dq hq
    split at h
    · cases h
      exact Or.inr ⟨dq, hq, rfl, rfl⟩
    · obtain ⟨heap, hfree, hs⟩ := Option.map_eq_some_iff.mp h
      cases hs
      rw [freemsg_eq] at hfree
      obtain rfl := unrefs_addRefs hc hfree
      exact Or.inl ⟨rfl, rfl⟩

omit [Fintype τ] in
/-- `avbox_object_sendmsg` did nothing, or it queued a message with the given id and payload to a
    part of the destinations, the one destination of a unicast. -/
theorem sendmsg_cases {s s' : State τ} {dest : List Addr} {id : MessageType} {flags : Nat}
    {payload : Option Int} {m : Mallocs} {ok : Bool} (hc : Counted s.heap)
    (h : sendmsg s dest id flags payload m = some (s', ok)) :
    (s' = s ∧ ok = false) ∨
      ∃ q dq d, (s.threads q).queue = some dq ∧ d.objects.Sublist dest ∧
        (∀ p ∈ d.objects, (s.heap p).isSome) ∧
        (castOf flags = some .unicast → ∀ o, dest = [o] → d.objects = [o]) ∧
        s' = s.sent q dq ⟨id, flags, d, payload⟩ ∧ ok = true := by
  unfold sendmsg at h
  split at h
  · split at h
    · rename_i o os _
      simp only [Option.bind_eq_bind, Option.bind_eq_some_iff] at h
      obtain ⟨heap, hr, x, -, hput⟩ := h
      obtain ⟨rfl, hlive⟩ := objectRef_eq hr
      refine (putmsg_cases ⟨id, flags, .object o, payload⟩ hc hput).imp_right ?_
      rintro ⟨dq, hq, hs, hok⟩
      refine ⟨_, dq, .object o, hq, (List.nil_sublist os).cons_cons o, ?_, ?_, hs, hok⟩
      · intro p hp
        rw [List.mem_singleton.mp hp]; exact hlive
      · intro _ o' ho'
        cases ho'; rfl
    · rename_i c o os hmulti hcast
      split at h
      · simp only [Option.bind_eq_bind, Option.bind_eq_some_iff] at h
        obtain ⟨heap, hd, x, -, hput⟩ := h
        obtain ⟨rfl, hlive⟩ := destdup_eq hd
        refine (putmsg_cases ⟨id, flags, .list (o :: os), payload⟩ hc hput).imp_right ?_
        rintro ⟨dq, hq, hs, hok⟩
        refine ⟨_, dq, .list (o :: os), hq, List.Sublist.refl _, hlive, ?_, hs, hok⟩
        intro huni
        rw [huni] at hcast
        cases hcast
        exact absurd rfl hmulti
      · cases h; exact Or.inl ⟨rfl, rfl⟩
    · cases h
  · cases h; exact Or.inl ⟨rfl, rfl⟩

omit [Fintype τ] in
theorem sendmsg_sent {s s' : State τ} {dest : List Addr} {id : MessageType} {flags : Nat}
    {payload : Option Int} {m : Mallocs} {ok : Bool} (hc : Counted s.heap)
    (h : sendmsg s dest id flags payload m = some (s', ok)) : Sent s dest id flags s' ok := by
  rcases sendmsg_cases hc h with ⟨rfl, rfl⟩ | ⟨q, dq, d, hq, -, hlive, huni, rfl, rfl⟩
  · exact .null
  · exact .message hq rfl hlive huni

/-! ## The invariant -/

/-- The counters: references, and the deliveries of CLEANUP that will drop the own reference. -/
structure Counts (s : State τ) : Prop where
  refs : ∀ o, refsOf s.heap o = ownRef s o + occurrences s o + s.held o
  counted : Counted s.heap
  fresh : ∀ o x, s.heap o = some x → x.destroyed = false → s.owned o = true ∧ cleanups s o = 0
  once : ∀ o, cleanups s o ≤ ownRef s o

/-- The message in dispatch of thread `t`: while a handler runs, `t` holds the lock of its object,
    which is not destroyed unless the message is its CLEANUP. -/
def FrameOk (s : State τ) (t : τ) : Prop :=
  ∀ f, (s.threads t).frame = some f → f.todo ⊆ f.msg.dest.objects ∧
    (f.calling = true → ∃ o todo x, f.todo = o :: todo ∧ s.heap o = some x ∧ x.lock = some t ∧
      (f.msg.id ≠ .cleanup → x.destroyed = false))

structure Inv (s : State τ) : Prop where
  counts : Counts s
  frames : ∀ t, FrameOk s t

section

omit [DecidableEq τ]

/-- Every destination of a message in dispatch is live. -/
theorem Counts.live_of_frame {s : State τ} (hc : Counts s) {t : τ} {f : Frame}
    (hf : (s.threads t).frame = some f) {o : Addr} (ho : o ∈ f.msg.dest.objects) :
    ∃ x, s.heap o = some x := by
  have hocc := occurrences_frame hf o
  have hpos := List.count_pos_iff.mpr ho
  have := hc.refs o
  exact live_of_refs (by omega)

/-- A thread whose message stays as it is keeps its part of the invariant when the objects it has
    locked keep their lock and their `destroyed` flag. -/
theorem FrameOk.keep {s s' : State τ} {t : τ} (h : FrameOk s t) (hc : Counts s')
    (hf : (s'.threads t).frame = (s.threads t).frame)
    (hobj : ∀ o x y, s.heap o = some x → s'.heap o = some y → x.lock = some t →
      y.lock = some t ∧ y.destroyed = x.destroyed) : FrameOk s' t := by
  intro f hf'
  obtain ⟨hsub, hcall⟩ := h f (hf ▸ hf')
  refine ⟨hsub, fun hcalling => ?_⟩
  obtain ⟨o, todo, x, htodo, hx, hlock, hid⟩ := hcall hcalling
  obtain ⟨y, hy⟩ := hc.live_of_frame hf' (hsub (htodo ▸ List.mem_cons_self))
  obtain ⟨hlock', hdes⟩ := hobj o x y hx hy hlock
  exact ⟨o, todo, y, htodo, hy, hlock', fun hne => hdes.trans (hid hne)⟩

theorem FrameOk.keep_heap {s s' : State τ} {t : τ} (h : FrameOk s t) (hc : Counts s')
    (hf : (s'.threads t).frame = (s.threads t).frame) (hheap : s'.heap = s.heap) :
    FrameOk s' t := by
  apply h.keep hc hf
  intro o x y hx hy hlock
  rw [hheap, hx] at hy
  cases hy
  exact ⟨hlock, rfl⟩

theorem init_inv : Inv (init : State τ) := by
  have hzero : ∀ w v, tally w v (init : State τ) = 0 := by
    intro w v
    simp [tally, init, Thread.weigh]
  refine ⟨⟨?_, ?_, ?_, ?_⟩, ?_⟩
  · intro o
    show 0 = 0 + occurrences init o + 0
    rw [occurrences, hzero]
  · intro o x hx; cases hx
  · intro o x hx; cases hx
  · intro o
    simp only [cleanups, hzero]
    exact Nat.zero_le _
  · intro t f hf; cases hf

end

/-! ### Sending -/

/-- A sent message adds one occurrence for each reference it takes. -/
theorem Counts.sent {s : State τ} (hc : Counts s) {q : τ} {dq : DispatchQueue} {msg : Message}
    (hq : (s.threads q).queue = some dq) (hlive : ∀ p ∈ msg.dest.objects, (s.heap p).isSome)
    (hclean : msg.id = .cleanup → ∀ p ∈ msg.dest.objects, msg.dest.objects.count p = 1 ∧
      s.owned p = true ∧ cleanups s p = 0 ∧ ∀ x, s.heap p = some x → x.destroyed = true) :
    Counts (s.sent q dq msg) := by
  have hocc : ∀ o, occurrences (s.sent q dq msg) o = occurrences s o + msg.dest.objects.count o :=
    fun o => tally_append _ _ hq msg
  have hcl : ∀ o, cleanups (s.sent q dq msg) o =
      cleanups s o + if msg.id = .cleanup then msg.dest.objects.count o else 0 :=
    fun o => tally_append _ _ hq msg
  have hzero : ∀ o, o ∉ msg.dest.objects → msg.dest.objects.count o = 0 :=
    fun o ho => List.count_eq_zero.mpr ho
  refine ⟨?_, hc.counted.addRefs _, ?_, ?_⟩
  · intro o
    have hadd := refsOf_addRefs (h := s.heap) (k := fun p => msg.dest.objects.count p) (o := o)
      (by by_cases ho : o ∈ msg.dest.objects
          · exact Or.inr (hlive o ho)
          · exact Or.inl (hzero o ho))
    have := hc.refs o
    show refsOf (addRefs s.heap _) o = ownRef s o + occurrences (s.sent q dq msg) o + s.held o
    rw [hadd, hocc]
    omega
  · intro o y hy hdes
    obtain ⟨x, hx, rfl⟩ := Option.map_eq_some_iff.mp hy
    obtain ⟨howned, hzeroc⟩ := hc.fresh o x hx hdes
    refine ⟨howned, ?_⟩
    rw [hcl, hzeroc]
    split
    · rename_i hid
      rw [hzero o]
      intro ho
      have := (hclean hid o ho).2.2.2 x hx
      rw [this] at hdes; cases hdes
    · rfl
  · intro o
    show cleanups (s.sent q dq msg) o ≤ ownRef s o
    rw [hcl]
    have := hc.once o
    split
    · rename_i hid
      by_cases ho : o ∈ msg.dest.objects
      · obtain ⟨hone, howned, hzeroc, -⟩ := hclean hid o ho
        simp [hone, hzeroc, ownRef, howned]
      · rw [hzero o ho]; omega
    · omega

omit [Fintype τ] in
theorem sent_frame (s : State τ) (q : τ) (dq : DispatchQueue) (msg : Message) (t : τ) :
    ((s.sent q dq msg).threads t).frame = (s.threads t).frame := by
  by_cases ht : t = q
  · subst ht; simp [State.sent, State.setThread]
  · simp [State.sent, State.setThread, Function.update_of_ne ht]

omit [Fintype τ] in
/-- A send changes neither the lock nor the `destroyed` flag of any object. -/
theorem Sent.object {s s' : State τ} {dest : List Addr} {id : MessageType} {flags : Nat} {ok : Bool}
    (h : Sent s dest id flags s' ok) {o : Addr} {y : Object τ} (hy : s'.heap o = some y) :
    ∃ x, s.heap o = some x ∧ y.lock = x.lock ∧ y.destroyed = x.destroyed := by
  cases h with
  | null => exact ⟨y, hy, rfl, rfl⟩
  | message =>
    obtain ⟨x, hx, rfl⟩ := Option.map_eq_some_iff.mp hy
    exact ⟨x, hx, rfl, rfl⟩

omit [Fintype τ] in
theorem Sent.frame {s s' : State τ} {dest : List Addr} {id : MessageType} {flags : Nat} {ok : Bool}
    (h : Sent s dest id flags s' ok) (t : τ) :
    (s'.threads t).frame = (s.threads t).frame := by
  cases h with
  | null => rfl
  | message => exact sent_frame s _ _ _ t

theorem FrameOk.send {s s' : State τ} {t : τ} (hf : FrameOk s t) (hc : Counts s')
    {dest : List Addr} {id : MessageType} {flags : Nat} {ok : Bool}
    (h : Sent s dest id flags s' ok) : FrameOk s' t := by
  apply hf.keep hc (h.frame t)
  intro o x y hx hy hlock
  obtain ⟨x', hx', hl, hd⟩ := h.object hy
  rw [hx] at hx'
  cases hx'
  exact ⟨hl.trans hlock, hd⟩

theorem Counts.send {s s' : State τ} (hc : Counts s) {dest : List Addr} {id : MessageType}
    {flags : Nat} {ok : Bool} (hid : id ≠ .cleanup) (h : Sent s dest id flags s' ok) :
    Counts s' := by
  cases h with
  | null => exact hc
  | message hq hid' hlive _ =>
    exact hc.sent hq hlive (fun hcl => absurd (hid'.symm.trans hcl) hid)

theorem Counts.send_cleanup {s s' : State τ} (hc : Counts s) {o : Addr} {ok : Bool}
    (howned : s.owned o = true) (hzero : cleanups s o = 0)
    (hdes : ∀ x, s.heap o = some x → x.destroyed = true)
    (h : Sent s [o] .cleanup flagUnicast s' ok) : Counts s' := by
  cases h with
  | null => exact hc
  | message hq hid hlive huni =>
    refine hc.sent hq hlive (fun _ p hp => ?_)
    rw [huni rfl o rfl] at hp ⊢
    obtain rfl := List.mem_singleton.mp hp
    exact ⟨List.count_singleton_self, howned, hzero, hdes⟩

theorem Inv.send {s s' : State τ} (hinv : Inv s) {dest : List Addr} {id : MessageType} {flags : Nat}
    {ok : Bool} (hid : id ≠ .cleanup) (h : Sent s dest id flags s' ok) : Inv s' :=
  have hc := hinv.counts.send hid h
  ⟨hc, fun t => (hinv.frames t).send hc h⟩

/-! ### Changes of one object or one frame -/

omit [DecidableEq τ] in
/-- A change of an object that keeps its references and does not undo its destruction. -/
theorem Counts.setObject {s : State τ} (hc : Counts s) {o : Addr} {x y : Object τ}
    (hx : s.heap o = some x) (hrefs : y.refs = x.refs)
    (hdes : y.destroyed = false → x.destroyed = false) : Counts (s.setObject o y) := by
  refine ⟨?_, ?_, ?_, hc.once⟩
  · intro p
    have hsame : refsOf (s.setObject o y).heap p = refsOf s.heap p := by
      by_cases hp : p = o
      · subst hp; simp [refsOf, State.setObject, hx, hrefs]
      · simp [refsOf, State.setObject, Function.update_of_ne hp]
    rw [hsame]
    exact hc.refs p
  · intro p z hz
    by_cases hp : p = o
    · subst hp
      obtain rfl : y = z := by simpa [State.setObject] using hz
      rw [hrefs]; exact hc.counted p x hx
    · exact hc.counted p z (by simpa [State.setObject, Function.update_of_ne hp] using hz)
  · intro p z hz hzd
    by_cases hp : p = o
    · subst hp
      obtain rfl : y = z := by simpa [State.setObject] using hz
      exact hc.fresh p x hx (hdes hzd)
    · exact hc.fresh p z (by simpa [State.setObject, Function.update_of_ne hp] using hz) hzd

theorem Counts.setFrame {s : State τ} (hc : Counts s) {t : τ} {f g : Frame}
    (hf : (s.threads t).frame = some f) (hmsg : g.msg = f.msg)
    (htodo : g.todo.Sublist f.todo) : Counts (s.setFrame t (some g)) := by
  have hocc : ∀ o, occurrences (s.setFrame t (some g)) o = occurrences s o := by
    intro o
    have := tally_setFrame (fun msg => msg.dest.objects.count o)
      (fun f => f.msg.dest.objects.count o) s t (some g)
    simp only [hf, Option.map_some, Option.getD_some, hmsg] at this
    unfold occurrences
    omega
  have hcl : ∀ o, cleanups (s.setFrame t (some g)) o ≤ cleanups s o := by
    intro o
    have := tally_setFrame (fun msg => if msg.id = .cleanup then msg.dest.objects.count o else 0)
      (fun f => if f.msg.id = .cleanup then f.todo.count o else 0) s t (some g)
    simp only [hf, Option.map_some, Option.getD_some, hmsg] at this
    have hle := htodo.count_le o
    unfold cleanups
    split at this <;> omega
  refine ⟨?_, hc.counted, ?_, ?_⟩
  · intro o
    show refsOf s.heap o = ownRef s o + occurrences (s.setFrame t (some g)) o + s.held o
    rw [hocc]; exact hc.refs o
  · intro o x hx hdes
    obtain ⟨howned, hzero⟩ := hc.fresh o x hx hdes
    have := hcl o
    exact ⟨howned, by omega⟩
  · intro o
    exact (hcl o).trans (hc.once o)

omit [DecidableEq τ] in
/-- References are dropped: the heap loses one for each of `os`, and so do the reasons to keep
    them. -/
theorem Counts.drop {s s' : State τ} (hc : Counts s) (os : List Addr)
    (hheap : os.foldlM objectUnref s.heap = some s'.heap)
    (hsum : ∀ o, ownRef s' o + occurrences s' o + s'.held o + os.count o =
      ownRef s o + occurrences s o + s.held o)
    (hfresh : ∀ o x, s.heap o = some x → x.destroyed = false →
      s'.owned o = s.owned o ∧ cleanups s' o ≤ cleanups s o)
    (honce : ∀ o, cleanups s' o ≤ ownRef s' o) : Counts s' := by
  obtain ⟨hcounted, hrefs, hsame⟩ := unrefs_spec hc.counted hheap
  refine ⟨?_, hcounted, ?_, honce⟩
  · intro o
    have h1 := hrefs o
    have h2 := hsum o
    have h3 := hc.refs o
    omega
  · intro o y hy hdes
    obtain ⟨x, hx, hyx⟩ := hsame o y hy
    have hxd : x.destroyed = false := by rw [hyx] at hdes; exact hdes
    obtain ⟨howned, hle⟩ := hfresh o x hx hxd
    obtain ⟨h1, h2⟩ := hc.fresh o x hx hxd
    exact ⟨howned.trans h1, by omega⟩

omit [Fintype τ] [DecidableEq τ] in
theorem unrefs_object {h h' : Heap τ} {os : List Addr} (hc : Counted h)
    (hu : os.foldlM objectUnref h = some h') {t : τ} (o : Addr) (x y : Object τ)
    (hx : h o = some x) (hy : h' o = some y) (hlock : x.lock = some t) :
    y.lock = some t ∧ y.destroyed = x.destroyed := by
  obtain ⟨x', hx', hyx⟩ := (unrefs_spec hc hu).2.2 o y hy
  rw [hx] at hx'
  cases hx'
  rw [hyx]
  exact ⟨hlock, rfl⟩

/-! ## Every step preserves the invariant -/

omit [Fintype τ] in
theorem setFrame_frame (s : State τ) (t : τ) (f : Option Frame) :
    ((s.setFrame t f).threads t).frame = f := by
  simp [State.setFrame, State.setThread]

omit [Fintype τ] in
theorem setThread_self (s : State τ) (t : τ) (th : Thread) : (s.setThread t th).threads t = th :=
  Function.update_self ..

omit [Fintype τ] in
theorem setThread_of_ne (s : State τ) {t u : τ} (th : Thread) (hu : u ≠ t) :
    (s.setThread t th).threads u = s.threads u := by
  simp [State.setThread, Function.update_of_ne hu]

theorem Inv.init_queue {s : State τ} (hinv : Inv s) {t : τ} {dq : DispatchQueue}
    (hdq : dq.messages = ((s.threads t).queue.map DispatchQueue.messages).getD []) :
    Inv (s.setThread t ⟨some dq, (s.threads t).frame⟩) := by
  have hocc : ∀ o, occurrences (s.setThread t ⟨some dq, (s.threads t).frame⟩) o = occurrences s o :=
    fun o => tally_queue _ _ hdq
  have hcl : ∀ o, cleanups (s.setThread t ⟨some dq, (s.threads t).frame⟩) o = cleanups s o :=
    fun o => tally_queue _ _ hdq
  have hc : Counts (s.setThread t ⟨some dq, (s.threads t).frame⟩) := by
    refine ⟨?_, hinv.counts.counted, ?_, ?_⟩
    · intro o; rw [hocc]; exact hinv.counts.refs o
    · intro o; rw [hcl]; exact hinv.counts.fresh o
    · intro o; rw [hcl]; exact hinv.counts.once o
  refine ⟨hc, fun u => (hinv.frames u).keep_heap hc ?_ rfl⟩
  by_cases hu : u = t
  · subst hu; simp [State.setThread]
  · rw [setThread_of_ne s _ hu]

omit [DecidableEq τ] in
theorem Inv.new {s : State τ} (hinv : Inv s) {t : τ} {o : Addr} (ho : s.heap o = none) :
    Inv { s.setObject o ⟨none, 1, false, -1, t⟩ with owned := Function.update s.owned o true } := by
  have hsum : 0 = ownRef s o + occurrences s o + s.held o := by
    have := hinv.counts.refs o
    rwa [refsOf, ho] at this
  have hcl := hinv.counts.once o
  have hc : Counts { s.setObject o ⟨none, 1, false, -1, t⟩ with
      owned := Function.update s.owned o true } := by
    refine ⟨?_, ?_, ?_, ?_⟩
    · intro p
      show refsOf (Function.update s.heap o _) p =
        (if Function.update s.owned o true p then 1 else 0) + occurrences s p + s.held p
      by_cases hp : p = o
      · subst hp
        simp only [refsOf, Function.update_self, Option.map_some, Option.getD_some, ↓reduceIte]
        omega
      · simp only [refsOf, Function.update_of_ne hp]
        exact hinv.counts.refs p
    · intro p x hx
      by_cases hp : p = o
      · subst hp
        simp only [State.setObject, Function.update_self, Option.some.injEq] at hx
        subst hx
        exact Nat.one_pos
      · exact hinv.counts.counted p x
          (by simpa [State.setObject, Function.update_of_ne hp] using hx)
    · intro p x hx hdes
      show Function.update s.owned o true p = true ∧ cleanups s p = 0
      by_cases hp : p = o
      · subst hp
        exact ⟨Function.update_self .., by omega⟩
      · rw [Function.update_of_ne hp]
        exact hinv.counts.fresh p x
          (by simpa [State.setObject, Function.update_of_ne hp] using hx) hdes
    · intro p
      show cleanups s p ≤ (if Function.update s.owned o true p then 1 else 0)
      by_cases hp : p = o
      · subst hp; simp only [Function.update_self, ↓reduceIte]; omega
      · rw [Function.update_of_ne hp]; exact hinv.counts.once p
  refine ⟨hc, fun u => (hinv.frames u).keep hc rfl ?_⟩
  intro p x y hx hy hlock
  have hp : p ≠ o := by
    rintro rfl
    rw [ho] at hx; cases hx
  rw [show s.heap p = some y by simpa [State.setObject, Function.update_of_ne hp] using hy] at hx
  cases hx
  exact ⟨hlock, rfl⟩

omit [DecidableEq τ] in
theorem Inv.ref {s : State τ} (hinv : Inv s) {o : Addr} {heap : Heap τ}
    (h : objectRef s.heap o = some heap) :
    Inv { s with heap := heap, held := Function.update s.held o (s.held o + 1) } := by
  obtain ⟨rfl, hlive⟩ := objectRef_eq h
  have hc : Counts { s with
      heap := addRefs s.heap (fun p => [o].count p)
      held := Function.update s.held o (s.held o + 1) } := by
    refine ⟨?_, hinv.counts.counted.addRefs _, ?_, hinv.counts.once⟩
    · intro p
      show refsOf (addRefs s.heap _) p =
        ownRef s p + occurrences s p + Function.update s.held o (s.held o + 1) p
      have hrefs := hinv.counts.refs p
      have hadd := refsOf_addRefs (h := s.heap) (k := fun p => [o].count p) (o := p)
      by_cases hp : p = o
      · subst hp
        rw [hadd (Or.inr hlive), Function.update_self, List.count_singleton_self]
        omega
      · have hzero : [o].count p = 0 := by simp [Ne.symm hp]
        rw [hadd (Or.inl hzero), Function.update_of_ne hp, hzero]
        omega
    · intro p y hy hdes
      obtain ⟨x, hx, rfl⟩ := Option.map_eq_some_iff.mp hy
      exact hinv.counts.fresh p x hx hdes
  refine ⟨hc, fun u => (hinv.frames u).keep hc rfl ?_⟩
  intro p x y hx hy hlock
  obtain ⟨x', hx', rfl⟩ := Option.map_eq_some_iff.mp hy
  rw [hx] at hx'
  cases hx'
  exact ⟨hlock, rfl⟩

omit [DecidableEq τ] in
theorem Inv.unref {s : State τ} (hinv : Inv s) {o : Addr} {heap : Heap τ} (hheld : s.held o ≠ 0)
    (h : objectUnref s.heap o = some heap) :
    Inv { s with heap := heap, held := Function.update s.held o (s.held o - 1) } := by
  have hfold : [o].foldlM objectUnref s.heap = some heap := by simpa using h
  have hc : Counts { s with heap := heap, held := Function.update s.held o (s.held o - 1) } := by
    refine hinv.counts.drop [o] hfold ?_ (fun p _ _ _ => ⟨rfl, le_refl _⟩) hinv.counts.once
    intro p
    show ownRef s p + occurrences s p + Function.update s.held o (s.held o - 1) p + [o].count p = _
    by_cases hp : p = o
    · subst hp
      rw [Function.update_self, List.count_singleton_self]
      omega
    · rw [Function.update_of_ne hp]
      simp [Ne.symm hp]
  exact ⟨hc, fun u => (hinv.frames u).keep hc rfl (unrefs_object hinv.counts.counted hfold)⟩

theorem Inv.get {s : State τ} (hinv : Inv s) {t : τ} {closed : Bool} {msg : Message}
    {msgs : List Message} (hq : (s.threads t).queue = some ⟨closed, msg :: msgs⟩)
    (hf : (s.threads t).frame = none) :
    Inv (s.setThread t ⟨some ⟨closed, msgs⟩, some ⟨msg, msg.dest.objects, false⟩⟩) := by
  have hsame : ∀ w v, v ⟨msg, msg.dest.objects, false⟩ = w msg →
      tally w v (s.setThread t ⟨some ⟨closed, msgs⟩, some ⟨msg, msg.dest.objects, false⟩⟩) =
        tally w v s := by
    intro w v hwv
    have := tally_pop w v hq hf (some ⟨msg, msg.dest.objects, false⟩)
    simp only [Option.map_some, Option.getD_some, hwv] at this
    omega
  have hc : Counts (s.setThread t ⟨some ⟨closed, msgs⟩, some ⟨msg, msg.dest.objects, false⟩⟩) := by
    refine ⟨?_, hinv.counts.counted, ?_, ?_⟩
    · intro o; rw [occurrences, hsame _ _ rfl]; exact hinv.counts.refs o
    · intro o; rw [cleanups, hsame _ _ rfl]; exact hinv.counts.fresh o
    · intro o; rw [cleanups, hsame _ _ rfl]; exact hinv.counts.once o
  refine ⟨hc, fun u => ?_⟩
  by_cases hu : u = t
  · subst hu
    intro f hf'
    simp only [State.setThread, Function.update_self, Option.some.injEq] at hf'
    subst hf'
    refine ⟨fun _ h => h, fun hcalling => ?_⟩
    cases hcalling
  · exact (hinv.frames u).keep_heap hc (by rw [setThread_of_ne s _ hu]) rfl

theorem Inv.finish {s : State τ} (hinv : Inv s) {t : τ} {msg : Message} {heap : Heap τ}
    (hf : (s.threads t).frame = some ⟨msg, [], false⟩) (h : freemsg s.heap msg = some heap) :
    Inv ({ s with heap := heap }.setFrame t none) := by
  rw [freemsg_eq] at h
  have hc : Counts ({ s with heap := heap }.setFrame t none) := by
    refine hinv.counts.drop msg.dest.objects h ?_ ?_ ?_
    · intro o
      have := tally_setFrame (fun msg => msg.dest.objects.count o)
        (fun f => f.msg.dest.objects.count o) s t none
      simp only [hf, Option.map_some, Option.getD_some, Option.map_none, Option.getD_none] at this
      show ownRef s o + occurrences (s.setFrame t none) o + s.held o + _ = _
      unfold occurrences
      omega
    · intro o x _ _
      have := tally_setFrame (fun msg => if msg.id = .cleanup then msg.dest.objects.count o else 0)
        (fun f => if f.msg.id = .cleanup then f.todo.count o else 0) s t none
      refine ⟨rfl, ?_⟩
      show cleanups (s.setFrame t none) o ≤ cleanups s o
      simp only [Option.map_none, Option.getD_none] at this
      unfold cleanups
      omega
    · intro o
      have := tally_setFrame (fun msg => if msg.id = .cleanup then msg.dest.objects.count o else 0)
        (fun f => if f.msg.id = .cleanup then f.todo.count o else 0) s t none
      have hle := hinv.counts.once o
      show cleanups (s.setFrame t none) o ≤ ownRef s o
      simp only [Option.map_none, Option.getD_none] at this
      unfold cleanups at hle ⊢
      omega
  refine ⟨hc, fun u => ?_⟩
  by_cases hu : u = t
  · subst hu
    intro f hf'
    rw [setFrame_frame] at hf'; cases hf'
  · exact (hinv.frames u).keep hc (by rw [State.setFrame, setThread_of_ne _ _ hu])
      (unrefs_object hinv.counts.counted h)

theorem Inv.flush {s : State τ} (hinv : Inv s) {t : τ} {closed : Bool} {msg : Message}
    {msgs : List Message} {heap : Heap τ} (hq : (s.threads t).queue = some ⟨closed, msg :: msgs⟩)
    (hf : (s.threads t).frame = none) (h : freemsg s.heap msg = some heap) :
    Inv ({ s with heap := heap }.setThread t ⟨some ⟨closed, msgs⟩, none⟩) := by
  rw [freemsg_eq] at h
  have hcl : ∀ o, cleanups (s.setThread t ⟨some ⟨closed, msgs⟩, none⟩) o ≤ cleanups s o := by
    intro o
    have := tally_pop (fun msg => if msg.id = .cleanup then msg.dest.objects.count o else 0)
      (fun f => if f.msg.id = .cleanup then f.todo.count o else 0) hq hf none
    simp only [Option.map_none, Option.getD_none] at this
    unfold cleanups
    omega
  have hc : Counts ({ s with heap := heap }.setThread t ⟨some ⟨closed, msgs⟩, none⟩) := by
    refine hinv.counts.drop msg.dest.objects h ?_ (fun o _ _ _ => ⟨rfl, hcl o⟩)
      (fun o => (hcl o).trans (hinv.counts.once o))
    intro o
    have := tally_pop (fun msg => msg.dest.objects.count o)
      (fun f => f.msg.dest.objects.count o) hq hf none
    simp only [Option.map_none, Option.getD_none] at this
    show ownRef s o + occurrences (s.setThread t ⟨some ⟨closed, msgs⟩, none⟩) o + s.held o + _ = _
    unfold occurrences
    omega
  refine ⟨hc, fun u => ?_⟩
  by_cases hu : u = t
  · subst hu
    intro f hf'
    simp [State.setThread] at hf'
  · exact (hinv.frames u).keep hc (by rw [setThread_of_ne _ _ hu])
      (unrefs_object hinv.counts.counted h)

theorem Frame.next_calling (f : Frame) (res : HandlerResult) : (f.next res).calling = false := by
  unfold Frame.next; split <;> rfl

theorem Frame.next_todo (f : Frame) (res : HandlerResult) :
    (f.next res).todo.Sublist f.todo.tail := by
  unfold Frame.next
  split
  · exact List.nil_sublist _
  · exact List.Sublist.refl _

omit [DecidableEq τ] in
theorem FrameOk.setObject {s : State τ} {u : τ} (hf : FrameOk s u) {o : Addr} {x y : Object τ}
    (hx : s.heap o = some x) (hlock : x.lock ≠ some u) (hc : Counts (s.setObject o y)) :
    FrameOk (s.setObject o y) u := by
  apply hf.keep hc rfl
  intro p x' z hx' hz hl
  by_cases hp : p = o
  · subst hp
    rw [hx] at hx'
    cases hx'
    exact absurd hl hlock
  · rw [show s.heap p = some z by simpa [State.setObject, Function.update_of_ne hp] using hz] at hx'
    cases hx'
    exact ⟨hl, rfl⟩

theorem FrameOk.setFrame_of_ne {s : State τ} {t u : τ} (hf : FrameOk s u) (hu : u ≠ t)
    {f : Option Frame} (hc : Counts (s.setFrame t f)) : FrameOk (s.setFrame t f) u :=
  hf.keep_heap hc (by rw [State.setFrame, setThread_of_ne _ _ hu]) rfl

/-- What `avbox_object_handler` leaves for the dispatching thread `t` to restore: everything is in
    order once `t` has gone on to its next destination and has unlocked `o`. -/
structure Handled (s : State τ) (t : τ) (f : Frame) (o : Addr) (res : HandlerResult) : Prop where
  counts : Counts (s.setFrame t (some (f.next res)))
  frames : ∀ u, u ≠ t → FrameOk (s.setFrame t (some (f.next res))) u
  lock : ∀ x, s.heap o = some x → ∀ u, u ≠ t → x.lock ≠ some u

/-- The usual case: nothing but the lock and the frame of `t` is out of order. -/
theorem Handled.intro {s : State τ} {t : τ} {f : Frame} {o : Addr} {res : HandlerResult}
    (hc : Counts s) (hf : (s.threads t).frame = some f) (hframes : ∀ u, u ≠ t → FrameOk s u)
    (hlock : ∀ x, s.heap o = some x → ∀ u, u ≠ t → x.lock ≠ some u) : Handled s t f o res :=
  have hc' := hc.setFrame (g := f.next res) hf (f.next_msg res)
    ((f.next_todo res).trans (List.tail_sublist _))
  ⟨hc', fun u hu => (hframes u hu).setFrame_of_ne hu hc', hlock⟩

/-- Leaving a destination restores the invariant of the thread that dispatches. -/
theorem leave_inv {s s' : State τ} {t : τ} {f : Frame} {o : Addr} {res : HandlerResult}
    (hh : Handled s t f o res) (hsub : f.todo ⊆ f.msg.dest.objects)
    (h : leave s t f o res = some s') : Inv s' := by
  obtain ⟨x, hx, rfl⟩ := Option.map_eq_some_iff.mp h
  have hc' : Counts ((s.setObject o { x with lock := none }).setFrame t (some (f.next res))) :=
    hh.counts.setObject (o := o) (y := { x with lock := none }) hx rfl id
  refine ⟨hc', fun u => ?_⟩
  by_cases hu : u = t
  · subst hu
    intro g hg
    rw [setFrame_frame] at hg
    cases hg
    rw [f.next_msg, f.next_calling]
    refine ⟨?_, fun hcalling => nomatch hcalling⟩
    intro p hp
    exact hsub (List.mem_of_mem_tail ((f.next_todo res).subset hp))
  · exact (hh.frames u hu).setObject (o := o) (x := x) hx (hh.lock x hx u hu) hc'

theorem Inv.deliver_timer {s s₁ s' : State τ} (hinv : Inv s) {t : τ} {f : Frame} {o : Addr}
    {x x₁ : Object τ} {ok : Bool} (hf : (s.threads t).frame = some f)
    (hx : s.heap o = some x) (hlock : x.lock = none)
    (hsent : Sent s [o] .destroy flagUnicast s₁ ok) (hx₁ : s₁.heap o = some x₁)
    (h : leave (s₁.setObject o { x₁ with destroyTimerId := -1 }) t f o .ok = some s') : Inv s' := by
  have hinv₁ := hinv.send (by decide) hsent
  have hfree : ∀ u, x₁.lock ≠ some u := by
    intro u hu
    obtain ⟨x', hx', hl₁, -⟩ := hsent.object hx₁
    rw [hx] at hx'
    cases hx'
    rw [hl₁, hlock] at hu; cases hu
  have hc := hinv₁.counts.setObject (y := { x₁ with destroyTimerId := -1 }) hx₁ rfl id
  refine leave_inv (Handled.intro hc ((hsent.frame t).trans hf) ?_ ?_) (hinv.frames t f hf).1 h
  · exact fun u _ => (hinv₁.frames u).setObject hx₁ (hfree u) hc
  · intro y hy u _
    obtain rfl : { x₁ with destroyTimerId := -1 } = y := by simpa [State.setObject] using hy
    exact hfree u

theorem Inv.deliver_call {s : State τ} (hinv : Inv s) {t : τ} {msg : Message} {o : Addr}
    {todo : List Addr} {x : Object τ} (hf : (s.threads t).frame = some ⟨msg, o :: todo, false⟩)
    (hx : s.heap o = some x) (hlock : x.lock = none)
    (hdes : x.destroyed = false ∨ msg.id = .cleanup) :
    Inv ((s.setObject o { x with lock := some t }).setFrame t (some ⟨msg, o :: todo, true⟩)) := by
  have hc₁ := hinv.counts.setObject (y := { x with lock := some t }) hx rfl id
  have hc₂ := hc₁.setFrame (g := ⟨msg, o :: todo, true⟩) hf rfl (List.Sublist.refl _)
  refine ⟨hc₂, fun u => ?_⟩
  by_cases hu : u = t
  · subst hu
    intro g hg
    rw [setFrame_frame] at hg
    cases hg
    refine ⟨(hinv.frames u _ hf).1, fun _ => ⟨o, todo, { x with lock := some u }, rfl, ?_, rfl, ?_⟩⟩
    · simp [State.setFrame, State.setThread, State.setObject]
    · exact fun hne => hdes.resolve_right hne
  · have hfree : x.lock ≠ some u := by
      rw [hlock]
      exact (Option.some_ne_none u).symm
    exact ((hinv.frames u).setObject hx hfree hc₁).setFrame_of_ne hu hc₂

theorem Inv.deliver {s s' : State τ} (hinv : Inv s) {t : τ} {msg : Message} {o : Addr}
    {todo : List Addr} {m : Mallocs} {out : Outcome}
    (hf : (s.threads t).frame = some ⟨msg, o :: todo, false⟩)
    (h : deliver s t ⟨msg, o :: todo, false⟩ o m = some (s', out)) : Inv s' := by
  unfold Dispatch.deliver at h
  simp only [Option.bind_eq_bind, Option.bind_eq_some_iff] at h
  obtain ⟨x, hx, h⟩ := h
  split at h
  · cases h
  rename_i hlock
  rw [not_not] at hlock
  split at h
  · rename_i hdes
    split at h
    · cases h
    split at h
    · simp only [Option.bind_eq_some_iff] at h
      obtain ⟨⟨s₁, ok⟩, hsend, x₁, hx₁, s₂, hleave, hout⟩ := h
      cases hout
      exact hinv.deliver_timer hf hx hlock (sendmsg_sent hinv.counts.counted hsend) hx₁ hleave
    · cases h
      exact hinv.deliver_call hf hx hlock hdes
  · -- the target has been destroyed
    cases h
    have hc := hinv.counts.setFrame (g := ⟨msg, todo, false⟩) hf rfl (List.sublist_cons_self _ _)
    refine ⟨hc, fun u => ?_⟩
    by_cases hu : u = t
    · subst hu
      intro g hg
      rw [setFrame_frame] at hg
      cases hg
      exact ⟨fun p hp => (hinv.frames u _ hf).1 (List.mem_cons_of_mem _ hp),
        fun hcalling => nomatch hcalling⟩
    · exact (hinv.frames u).setFrame_of_ne hu hc

/-- The handler answered CLEANUP: the own reference is dropped.  The delivery that drops it is the
    only one there is. -/
theorem Counts.cleanup {s : State τ} (hc : Counts s) {t : τ} {f : Frame} {o : Addr}
    {todo : List Addr} {heap : Heap τ} (res : HandlerResult)
    (hf : (s.threads t).frame = some f) (htodo : f.todo = o :: todo) (hid : f.msg.id = .cleanup)
    (h : objectUnref s.heap o = some heap) :
    Counts ({ s with heap := heap, owned := Function.update s.owned o false }.setFrame t
      (some (f.next res))) := by
  have hfold : [o].foldlM objectUnref s.heap = some heap := by simpa using h
  have hstep := hc.setFrame (g := f.next res) hf (f.next_msg res)
    ((f.next_todo res).trans (List.tail_sublist _))
  -- the deliveries still to come, before and after
  have hcl : ∀ p, cleanups (s.setFrame t (some (f.next res))) p + f.todo.count p =
      cleanups s p + (f.next res).todo.count p := by
    intro p
    have := tally_setFrame (fun msg => if msg.id = .cleanup then msg.dest.objects.count p else 0)
      (fun f => if f.msg.id = .cleanup then f.todo.count p else 0) s t (some (f.next res))
    simp only [hf, Option.map_some, Option.getD_some, f.next_msg, hid, ↓reduceIte] at this
    exact this
  have hnext : (f.next res).todo.count o ≤ todo.count o := by
    have := (f.next_todo res).count_le o
    rwa [htodo] at this
  have hcount : f.todo.count o = todo.count o + 1 := by rw [htodo, List.count_cons_self]
  have hone : ownRef s o ≤ 1 := by unfold ownRef; split <;> omega
  have honce := hc.once o
  have hclo := hcl o
  have howned : s.owned o = true := by
    by_contra hne
    have : ownRef s o = 0 := by simp [ownRef, hne]
    omega
  refine hstep.drop [o] hfold ?_ ?_ ?_
  · intro p
    show (if Function.update s.owned o false p then 1 else 0) +
      occurrences (s.setFrame t (some (f.next res))) p + s.held p + [o].count p =
      ownRef s p + occurrences (s.setFrame t (some (f.next res))) p + s.held p
    by_cases hp : p = o
    · subst hp
      simp only [Function.update_self, List.count_singleton_self, ownRef, howned, ↓reduceIte,
        Bool.false_eq_true]
      omega
    · simp [Function.update_of_ne hp, ownRef, Ne.symm hp]
  · intro p x hx hdes
    refine ⟨?_, le_refl _⟩
    have hp : p ≠ o := by
      rintro rfl
      have := (hc.fresh p x hx hdes).2
      omega
    exact Function.update_of_ne hp _ _
  · intro p
    show cleanups (s.setFrame t (some (f.next res))) p ≤
      (if Function.update s.owned o false p then 1 else 0)
    by_cases hp : p = o
    · subst hp
      omega
    · rw [Function.update_of_ne hp]
      exact hstep.once p

theorem Inv.handled {s : State τ} (hinv : Inv s) {t : τ} {f : Frame} {o : Addr} {x : Object τ}
    {todo : List Addr} (hf : (s.threads t).frame = some f) (htodo : f.todo = o :: todo)
    (hcalling : f.calling = true) (hx : s.heap o = some x) {res res' : HandlerResult} {m : Mallocs}
    {timer : Int} {s' : State τ}
    (h : objectHandler s o x f.msg.id res m timer = some (s', res')) : Handled s' t f o res' := by
  obtain ⟨o', todo', x', htodo', hx', hlock, hdes⟩ := (hinv.frames t f hf).2 hcalling
  rw [htodo] at htodo'
  cases htodo'
  rw [hx] at hx'
  cases hx'
  have hother : ∀ u, u ≠ t → x.lock ≠ some u := by
    intro u hu hl
    rw [hlock] at hl
    exact hu (Option.some.inj hl).symm
  -- the object is changed and a message may be sent to it
  have hsend : ∀ {y : Object τ} {s₂ : State τ} {id : MessageType} {ok : Bool},
      Counts (s.setObject o y) → y.lock = x.lock → Counts s₂ →
      Sent (s.setObject o y) [o] id flagUnicast s₂ ok → Handled s₂ t f o .ok := by
    intro y s₂ id ok hc₁ hylock hc₂ hsent
    refine Handled.intro hc₂ ((hsent.frame t).trans hf) ?_ ?_
    · exact fun u hu => ((hinv.frames u).setObject hx (hother u hu) hc₁).send hc₂ hsent
    · intro z hz u hu
      obtain ⟨y', hy', hl, -⟩ := hsent.object hz
      obtain rfl : y = y' := by simpa [State.setObject] using hy'
      rw [hl, hylock]
      exact hother u hu
  unfold objectHandler at h
  split at h
  · rename_i hid
    split at h
    · -- destroyed: the CLEANUP message is sent
      obtain ⟨⟨s₂, ok⟩, hs, hr⟩ := Option.map_eq_some_iff.mp h
      cases hr
      obtain ⟨howned, hzero⟩ := hinv.counts.fresh o x hx (hdes (by rw [hid]; decide))
      have hc₁ := hinv.counts.setObject (y := { x with destroyed := true }) hx rfl
        (fun hd => nomatch hd)
      have hsent := sendmsg_sent hc₁.counted hs
      have hdestroyed : ∀ z, (s.setObject o { x with destroyed := true }).heap o = some z →
          z.destroyed = true := by
        intro z hz
        obtain rfl : { x with destroyed := true } = z := by simpa [State.setObject] using hz
        rfl
      exact hsend hc₁ rfl (hc₁.send_cleanup howned hzero hdestroyed hsent) hsent
    · -- not yet: DESTROY comes again, by the timer or at once
      have hc₁ := hinv.counts.setObject (y := { x with destroyTimerId := timer }) hx rfl id
      dsimp only at h
      split at h
      · obtain ⟨⟨s₂, ok⟩, hs, hr⟩ := Option.map_eq_some_iff.mp h
        cases hr
        have hsent := sendmsg_sent hc₁.counted hs
        exact hsend hc₁ rfl (hc₁.send (by decide) hsent) hsent
      · cases h
        exact hsend hc₁ rfl hc₁ (Sent.null : Sent _ [o] .destroy flagUnicast _ false)
  · rename_i hid
    obtain ⟨heap, hu, hr⟩ := Option.map_eq_some_iff.mp h
    cases hr
    have hc := hinv.counts.cleanup .ok hf htodo hid hu
    have hfold : [o].foldlM objectUnref s.heap = some heap := by simpa using hu
    refine ⟨hc, ?_, ?_⟩
    · intro u hu'
      exact (hinv.frames u).keep hc (by rw [State.setFrame, setThread_of_ne _ _ hu'])
        (unrefs_object hinv.counts.counted hfold)
    · intro z hz u hu'
      obtain ⟨x', hx', hz'⟩ := (unrefs_spec hinv.counts.counted hfold).2.2 o z hz
      rw [hx] at hx'
      cases hx'
      rw [hz']
      exact hother u hu'
  · cases h
    refine Handled.intro hinv.counts hf (fun u _ => hinv.frames u) ?_
    intro z hz u hu
    rw [hx] at hz
    cases hz
    exact hother u hu

/-- **Every step preserves the invariant.** -/
theorem step_inv {s s' : State τ} {e : Event τ} {out : Outcome} (hinv : Inv s)
    (h : step s e = some (s', out)) : Inv s' := by
  cases e with
  | init t =>
    simp only [step] at h
    split at h
    · cases h; exact hinv
    · rename_i hq
      cases h
      exact hinv.init_queue (by simp [hq])
  | new t malloc =>
    simp only [step] at h
    split at h
    · split at h
      · rename_i ho
        cases h; exact hinv.new ho
      · cases h
    · cases h; exact hinv
  | ref o =>
    obtain ⟨heap, hr, hs⟩ := Option.map_eq_some_iff.mp h
    cases hs
    exact hinv.ref hr
  | unref o =>
    simp only [step] at h
    split at h
    · cases h
    · rename_i hheld
      obtain ⟨heap, hu, hs⟩ := Option.map_eq_some_iff.mp h
      cases hs
      exact hinv.unref hheld hu
  | send dest id flags payload m =>
    simp only [step] at h
    split at h
    · cases h
    · rename_i hid
      obtain ⟨⟨s₁, ok⟩, hsend, hs⟩ := Option.map_eq_some_iff.mp h
      cases hs
      exact hinv.send hid (sendmsg_sent hinv.counts.counted hsend)
  | close t =>
    simp only [step] at h
    split at h
    · cases h
    · rename_i dq hq
      cases h
      exact hinv.init_queue (by simp [hq])
  | get t =>
    simp only [step] at h
    split at h
    · rename_i hq hf
      cases h
      exact hinv.get hq hf
    · cases h
  | deliver t m =>
    simp only [step] at h
    split at h
    · rename_i hf
      exact hinv.deliver hf h
    · cases h
  | handled t res m timer =>
    simp only [step] at h
    split at h
    · rename_i msg o todo hf
      simp only [Option.bind_eq_bind, Option.bind_eq_some_iff] at h
      obtain ⟨x, hx, ⟨s₁, res'⟩, hh, s₂, hleave, hs⟩ := h
      cases hs
      exact leave_inv (hinv.handled hf rfl rfl hx hh) (hinv.frames t _ hf).1 hleave
    · cases h
  | finish t =>
    simp only [step] at h
    split at h
    · rename_i hf
      obtain ⟨heap, hu, hs⟩ := Option.map_eq_some_iff.mp h
      cases hs
      exact hinv.finish hf hu
    · cases h
  | flush t =>
    simp only [step] at h
    split at h
    · rename_i hq hf
      obtain ⟨heap, hu, hs⟩ := Option.map_eq_some_iff.mp h
      cases hs
      exact hinv.flush hq hf hu
    · cases h

/-! ## Main theorem -/

theorem run_inv {tr : List (Event τ × Outcome)} {s : State τ}
    (hrun : Run (Step step) init tr s) : Inv s :=
  hrun.invariant init_inv fun _ _ _ hinv hstep => step_inv hinv hstep

/-- **References are conserved.**  In every state the dispatcher can reach, from whatever calls,
    handler results and failed allocations:

    * `refs` of a live object is its own reference, plus its occurrences in the destinations of
      queued messages and messages in dispatch, plus the references held;
    * a step that frees an object leaves none of these;
    * an `avbox_object_sendmsg` that returns `NULL` changes nothing. -/
theorem refs_conserved {tr : List (Event τ × Outcome)} {s : State τ}
    (hrun : Run (Step step) init tr s) :
    (∀ o x, s.heap o = some x → x.refs = ownRef s o + occurrences s o + s.held o) ∧
    (∀ e out s' o x, step s e = some (s', out) → s.heap o = some x → s'.heap o = none →
      ownRef s' o + occurrences s' o + s'.held o = 0) ∧
    (∀ dest id flags payload m s', sendmsg s dest id flags payload m = some (s', false) →
      ∀ o, refsOf s'.heap o = refsOf s.heap o) := by
  have hinv := run_inv hrun
  refine ⟨?_, ?_, ?_⟩
  · intro o x hx
    rw [← refsOf_of_some hx]
    exact hinv.counts.refs o
  · intro e out s' o x hstep _ hfreed
    have := (step_inv hinv hstep).counts.refs o
    rw [refsOf, hfreed] at this
    exact this.symm
  · intro dest id flags payload m s' hsend o
    cases sendmsg_sent hinv.counts.counted hsend
    rfl

/-- An object with one reference held and a multicast message that names it twice. -/
theorem refs_conserved_multicast :
    ∃ (tr : List (Event Unit × Outcome)) (s : State Unit) (x : Object Unit),
      Run (Step step) init tr s ∧ s.heap 7 = some x ∧ x.refs = 4 ∧
      x.refs = ownRef s 7 + occurrences s 7 + s.held 7 :=
  have hrun := run_of_exec [Event.init (), .new () (some 7), .ref 7,
    .send [7, 7] .ui flagMulticast none ⟨true, true, true⟩] rfl
  ⟨_, _, _, hrun, rfl, rfl, (refs_conserved hrun).1 7 _ rfl⟩

end Mediabox.Dispatch
