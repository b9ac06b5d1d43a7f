import Mediabox.DispatchChange

/-!
# The timer that retries DESTROY

A handler that answers DESTROY with CONTINUE is asked again: `avbox_object_handler` registers a
one-shot timer with the object as its `message_object` and keeps the id in `destroy_timer_id`; the
timers thread sends a TIMER message, and its delivery sends DESTROY again.  The timer holds no
reference.  Here the dispatcher runs together with the timers thread (`src/lib/timers.c`):

* `step` — a step of the dispatcher, a timer registered by somebody else, or a destructor timer that
  fires; ids come from one counter.
* `deliveries` — messages of a kind that are on their way to an object; `step_deliveries` says how
  a step of the dispatcher changes their number.
* `Patient` — DESTROY is not sent while a retry is pending, and not queued twice when the handler
  asks for one.
* `destroy_timer_once` — in patient runs an object has at most one retry timer, DESTROY finds
  `destroy_timer_id` at -1, and no timer is left when the object is freed.

`destroy_twice` is what two calls of `avbox_object_destroy` do otherwise.
-/

set_option autoImplicit false

namespace Mediabox.DestroyTimer

open Transition Dispatch

variable {τ : Type*} [Fintype τ] [DecidableEq τ]

/-! ## The dispatcher and the timers -/

/-- The dispatcher, the registered destructor timers with their `message_object`, the counter behind
    `avbox_timers_getnextid`, and the ids that other timers got. -/
structure State (τ : Type*) where
  dispatch : Dispatch.State τ
  timers : List (Int × Addr)
  nextId : Int
  user : List Int

def init : State τ := ⟨Dispatch.init, [], 1, []⟩

inductive Event (τ : Type*) where
  /-- a step of the dispatcher; where it registers a timer, its answer is the next id or -1 -/
  | dispatch (e : Dispatch.Event τ)
  /-- `avbox_timer_register` by somebody else -/
  | register
  /-- the timers thread finds a destructor timer elapsed and sends its message, with the answers
      of `malloc` for the payload and in `avbox_object_sendmsg` -/
  | fire (id : Int) (payload : Bool) (m : Mallocs)
  deriving DecidableEq, Repr

/-- The object for which the return of this handler registers a timer. -/
def retryOf (s : Dispatch.State τ) : Dispatch.Event τ → Option Addr
  | .handled t .continue _ timer =>
    match (s.threads t).frame with
    | some ⟨msg, o :: _, true⟩ => if msg.id = .destroy ∧ timer ≠ -1 then some o else none
    | _ => none
  | _ => none

/-- TIMER messages come from the timers thread: here those of the timers of others. -/
def timerKnown (s : State τ) : Dispatch.Event τ → Bool
  | .send _ .timer _ payload _ => payload.any fun id => decide (id ∈ s.user)
  | _ => true

def step (s : State τ) : Event τ → Option (State τ × Outcome)
  | .dispatch e =>
    if timerKnown s e then
      match retryOf s.dispatch e, e with
      | some o, .handled _ _ _ timer =>
        if timer = s.nextId then
          (Dispatch.step s.dispatch e).map fun r =>
            ({ s with dispatch := r.1, timers := (timer, o) :: s.timers, nextId := s.nextId + 1 },
              r.2)
        else none
      | _, _ => (Dispatch.step s.dispatch e).map fun r => ({ s with dispatch := r.1 }, r.2)
    else none
  | .register => some ({ s with nextId := s.nextId + 1, user := s.nextId :: s.user }, .done)
  | .fire id payload m =>
    match s.timers.find? fun a => a.1 = id with
    | none => none
    | some (_, o) =>
      let timers := s.timers.eraseP fun a => a.1 = id
      if payload then
        (sendmsg s.dispatch [o] .timer flagUnicast (some id) m).map fun r =>
          ({ s with dispatch := r.1, timers := timers }, if r.2 then .message else .null)
      else some ({ s with timers := timers }, .null)

/-- The timers registered for an object. -/
def State.timersFor (s : State τ) (o : Addr) : Nat := s.timers.countP fun a => a.2 = o

/-- A retry is pending: the object is not destroyed and `destroy_timer_id` is not -1. -/
def retrying (s : Dispatch.State τ) (o : Addr) : Bool :=
  match s.heap o with
  | some x => !x.destroyed && decide (x.destroyTimerId ≠ -1)
  | none => false

/-! ## Messages on their way -/

/-- Deliveries to `o` still to come, or in progress, of the messages that `P` selects by type and
    payload. -/
def deliveries (P : MessageType → Option Int → Bool) (s : Dispatch.State τ) (o : Addr) : Nat :=
  tally (fun msg => if P msg.id msg.payload then msg.dest.objects.count o else 0)
    (fun f => if P f.msg.id f.msg.payload then f.todo.count o else 0) s

/-- DESTROY messages. -/
def isDestroy (id : MessageType) (_ : Option Int) : Bool := id = .destroy

/-- TIMER messages other than those of the timers in `user`. -/
def isRetry (user : List Int) (id : MessageType) (payload : Option Int) : Bool :=
  id = .timer && !payload.any fun i => decide (i ∈ user)

/-- The objects that DESTROY is sent to, by `avbox_object_destroy` or otherwise. -/
def destroyDest : Dispatch.Event τ → List Addr
  | .send dest .destroy _ _ _ => dest
  | _ => []

/-- DESTROY is sent to no object with a retry pending, and when a handler asks for a retry no other
    DESTROY for its object is on the way. -/
def Patient (s : State τ) : Event τ → Prop
  | .dispatch e =>
    (∀ o ∈ destroyDest e, retrying s.dispatch o = false) ∧
      ∀ o ∈ retryOf s.dispatch e, deliveries isDestroy s.dispatch o = 1
  | _ => True

instance (s : State τ) : ∀ e, Decidable (Patient s e)
  | .dispatch e =>
    inferInstanceAs (Decidable ((∀ o ∈ destroyDest e, retrying s.dispatch o = false) ∧
      ∀ o ∈ retryOf s.dispatch e, deliveries isDestroy s.dispatch o = 1))
  | .register => isTrue trivial
  | .fire _ _ _ => isTrue trivial

variable {P : MessageType → Option Int → Bool} {s s' : Dispatch.State τ}

/-- The deliveries that a message adds. -/
def added (P : MessageType → Option Int → Bool) (msg? : Option Message) (o : Addr) : Nat :=
  (msg?.map fun msg => if P msg.id msg.payload then msg.dest.objects.count o else 0).getD 0

theorem queued_deliveries {msg? : Option Message} (h : Queued s.threads msg? s'.threads)
    (o : Addr) : deliveries P s' o ≤ deliveries P s o + added P msg? o := by
  rcases h.tally (fun msg => if P msg.id msg.payload then msg.dest.objects.count o else 0)
    (fun f => if P f.msg.id f.msg.payload then f.todo.count o else 0) with hsame | ⟨msg, rfl, hmore⟩
  · exact Nat.le_trans (Nat.le_of_eq hsame) (Nat.le_add_right _ _)
  · exact Nat.le_of_eq hmore

theorem added_made (dest : List Addr) (id : MessageType) (flags : Nat) (payload : Option Int)
    (o : Addr) : added P (made dest id flags payload) o ≤ if P id payload then dest.count o else 0 := by
  cases hmade : made dest id flags payload with
  | none => exact Nat.zero_le _
  | some msg =>
    obtain ⟨hid, hpayload, hsub⟩ := made_spec hmade
    rw [added, Option.map_some, Option.getD_some, hid, hpayload]
    split
    · exact hsub.count_le o
    · exact Nat.le_refl 0

/-- A sent message is on its way to each of its destinations. -/
theorem sendmsg_deliveries {dest : List Addr} {id : MessageType} {flags : Nat}
    {payload : Option Int} {m : Mallocs} {ok : Bool}
    (h : sendmsg s dest id flags payload m = some (s', ok)) (o : Addr) :
    deliveries P s' o ≤ deliveries P s o + if P id payload then dest.count o else 0 :=
  Nat.le_trans (queued_deliveries (sendmsg_queued h) o) (Nat.add_le_add_left (added_made ..) _)

theorem setFrame_deliveries {t : τ} {f : Frame} (hf : (s.threads t).frame = some f)
    (g : Option Frame) (hs : s'.threads = (s.setFrame t g).threads) (o : Addr) :
    deliveries P s' o + (if P f.msg.id f.msg.payload then f.todo.count o else 0) =
      deliveries P s o +
        ((g.map fun f => if P f.msg.id f.msg.payload then f.todo.count o else 0).getD 0) := by
  have hset := tally_setFrame (fun msg => if P msg.id msg.payload then msg.dest.objects.count o else 0)
    (fun f => if P f.msg.id f.msg.payload then f.todo.count o else 0) s t g
  simp only [hf, Option.map_some, Option.getD_some] at hset
  rwa [deliveries, tally_eq _ _ hs]

theorem pop_deliveries {t : τ} {closed : Bool} {msg : Message} {msgs : List Message}
    (hq : (s.threads t).queue = some ⟨closed, msg :: msgs⟩) (hf : (s.threads t).frame = none)
    (g : Option Frame) (hs : s'.threads = (s.setThread t ⟨some ⟨closed, msgs⟩, g⟩).threads)
    (o : Addr) :
    deliveries P s' o + (if P msg.id msg.payload then msg.dest.objects.count o else 0) =
      deliveries P s o +
        ((g.map fun f => if P f.msg.id f.msg.payload then f.todo.count o else 0).getD 0) := by
  rw [deliveries, tally_eq _ _ hs]
  exact tally_pop _ _ hq hf g

theorem left_deliveries {s₁ : Dispatch.State τ} {t : τ} {msg : Message} {p : Addr}
    {todo todo' : List Addr} {c c' : Bool} {msg? : Option Message}
    (hf : (s.threads t).frame = some ⟨msg, p :: todo, c⟩) (hsent : Queued s.threads msg? s₁.threads)
    (htodo : todo'.Sublist todo)
    (hs : s'.threads = (s₁.setFrame t (some ⟨msg, todo', c'⟩)).threads) (o : Addr) :
    deliveries P s' o + (if P msg.id msg.payload ∧ p = o then 1 else 0) ≤
      deliveries P s o + added P msg? o := by
  have hqueued := queued_deliveries (P := P) hsent o
  have hset := setFrame_deliveries (P := P) ((hsent.frame t).trans hf) _ hs o
  have hnext := htodo.count_le o
  simp only [Option.map_some, Option.getD_some] at hset
  by_cases hP : P msg.id msg.payload = true
  · by_cases hp : p = o
    · subst hp
      simp only [hP, ↓reduceIte, List.count_cons_self, and_self] at hset ⊢
      omega
    · have hcount : (p :: todo).count o = todo.count o := List.count_cons_of_ne hp
      simp only [hP, ↓reduceIte, hcount, hp, and_false] at hset ⊢
      omega
  · simp only [hP, Bool.false_eq_true, ↓reduceIte, false_and] at hset ⊢
    omega

/-- The deliveries that a call of `avbox_object_sendmsg` adds. -/
def sentTo (P : MessageType → Option Int → Bool) : Dispatch.Event τ → Addr → Nat
  | .send dest id _ payload _, o => if P id payload then dest.count o else 0
  | _, _ => 0

/-- The delivery that a step ends, because its handler returned or was not called. -/
def ended (P : MessageType → Option Int → Bool) (s : Dispatch.State τ) :
    Dispatch.Event τ → Outcome → Addr → Nat
  | .deliver t _, .done, o =>
    match (s.threads t).frame with
    | some ⟨msg, p :: _, false⟩ => if P msg.id msg.payload ∧ p = o then 1 else 0
    | _ => 0
  | .handled t _ _ _, _, o =>
    match (s.threads t).frame with
    | some ⟨msg, p :: _, true⟩ => if P msg.id msg.payload ∧ p = o then 1 else 0
    | _ => 0
  | _, _, _ => 0

/-- The DESTROY message that a step sends again, after a timer or for want of one. -/
def resent (s : Dispatch.State τ) : Dispatch.Event τ → Outcome → Addr → Nat
  | .deliver t _, .done, o =>
    match (s.threads t).frame with
    | some ⟨_, p :: _, false⟩ =>
      if (s.heap p).any (fun x => !x.destroyed) = true ∧ p = o then 1 else 0
    | _ => 0
  | .handled t res _ timer, _, o =>
    match (s.threads t).frame with
    | some ⟨msg, p :: _, true⟩ =>
      if msg.id = .destroy ∧ res = .continue ∧ timer = -1 ∧ p = o then 1 else 0
    | _ => 0
  | _, _, _ => 0

theorem next_frame (msg : Message) (p : Addr) (todo : List Addr) (c : Bool) (res : HandlerResult) :
    ∃ todo', Frame.next ⟨msg, p :: todo, c⟩ res = ⟨msg, todo', false⟩ ∧ todo'.Sublist todo := by
  unfold Frame.next
  split
  · exact ⟨[], rfl, List.nil_sublist todo⟩
  · exact ⟨todo, rfl, List.Sublist.refl todo⟩

/-- How a step of the dispatcher changes the number of messages on their way to an object. -/
theorem step_deliveries (hP : P .cleanup none = false) {e : Dispatch.Event τ}
    {out : Outcome} (h : Dispatch.step s e = some (s', out)) (o : Addr) :
    deliveries P s' o + ended P s e out o ≤
      deliveries P s o + sentTo P e o + if P .destroy none then resent s e out o else 0 := by
  cases step_passage h with
  | queued he he' hs =>
    have hended : ended P s e out o = 0 := by
      unfold ended
      split
      · exact absurd rfl (he _ _)
      · exact absurd rfl (he' _ _ _ _)
      · rfl
    have hadded : added P e.sends o ≤ sentTo P e o := by
      cases e with
      | send dest id flags payload m =>
        by_cases hid : id = .cleanup
        · rw [Event.sends, if_pos hid]
          exact Nat.zero_le _
        · rw [Event.sends, if_neg hid]
          exact added_made dest id flags payload o
      | _ => exact Nat.le_refl 0
    have hqueued := queued_deliveries (P := P) hs o
    omega
  | queue he hq hs =>
    have hsame : deliveries P s' o = deliveries P s o := (tally_eq _ _ hs).trans (tally_queue _ _ hq)
    have hended : ended P s e .done o = 0 := by rcases he with rfl | rfl <;> rfl
    omega
  | got hq hf hs =>
    have hpop := pop_deliveries (P := P) hq hf _ hs o
    simp only [Option.map_some, Option.getD_some] at hpop
    exact Nat.le_trans (Nat.le_of_eq (Nat.add_right_cancel hpop)) (Nat.le_add_right _ _)
  | called hf hs =>
    have hset := setFrame_deliveries (P := P) hf _ hs o
    simp only [Option.map_some, Option.getD_some] at hset
    exact Nat.le_trans (Nat.le_of_eq (Nat.add_right_cancel hset)) (Nat.le_add_right _ _)
  | skipped hf hx hdes hs =>
    have hsame : Queued s.threads none s.threads := .same rfl
    have hleft := left_deliveries (P := P) hf hsame (List.Sublist.refl _) hs o
    simp only [ended, hf]
    exact Nat.le_trans hleft (Nat.le_add_right _ _)
  | @timer t m msg p todo _ _ _ hf hid hx hdes hsent hs =>
    obtain ⟨todo', hnext, hsub⟩ := next_frame msg p todo false .ok
    have hleft := left_deliveries (P := P) hf hsent hsub (hnext ▸ hs) o
    have hadded : added P (some (own .destroy p)) o =
        if P .destroy none then (if p = o then 1 else 0) else 0 := by
      simp [added, own, Dest.objects, List.count_singleton]
    rw [hadded] at hleft
    simpa [ended, resent, sentTo, hf, hx, hdes] using hleft
  | @answered t res res' m timer msg p todo _ _ hf hsent hs =>
    obtain ⟨todo', hnext, hsub⟩ := next_frame msg p todo true res'
    have hleft := left_deliveries (P := P) hf hsent hsub (hnext ▸ hs) o
    have hadded : added P (reply msg.id p res timer) o ≤
        if P .destroy none then resent s (.handled t res m timer) .done o else 0 := by
      cases hreply : reply msg.id p res timer with
      | none => exact Nat.zero_le _
      | some sent =>
        unfold reply at hreply
        split at hreply
        · obtain rfl := Option.some.inj hreply
          simp [added, own, hP]
        · rename_i hid
          obtain ⟨htimer, hown⟩ := Option.ite_none_right_eq_some.mp hreply
          obtain rfl := Option.some.inj hown
          simp [added, own, Dest.objects, List.count_singleton, resent, hf, hid, htimer]
        · cases hreply
    simp only [ended, hf]
    exact Nat.le_trans hleft (Nat.add_le_add_left hadded _)
  | finished hf hs =>
    have hset := setFrame_deliveries (P := P) hf none hs o
    simp only [Option.map_none, Option.getD_none, List.count_nil, ite_self] at hset
    exact Nat.le_trans (Nat.le_of_eq hset) (Nat.le_add_right _ _)
  | flushed hq hf hs =>
    have hpop := pop_deliveries (P := P) hq hf none hs o
    simp only [Option.map_none, Option.getD_none, Nat.add_zero] at hpop
    exact Nat.le_trans (Nat.le_of_add_right_le (Nat.le_of_eq hpop)) (Nat.le_add_right _ _)

omit [DecidableEq τ] in
/-- Fewer messages are selected by a stronger test. -/
theorem deliveries_mono {Q : MessageType → Option Int → Bool}
    (h : ∀ id payload, P id payload = true → Q id payload = true) (o : Addr) :
    deliveries P s o ≤ deliveries Q s o := by
  have hmsg : ∀ msg : Message, (if P msg.id msg.payload then msg.dest.objects.count o else 0) ≤
      if Q msg.id msg.payload then msg.dest.objects.count o else 0 := by
    intro msg
    by_cases hP : P msg.id msg.payload = true
    · simp [hP, h _ _ hP]
    · simp [hP]
  have hframe : ∀ f : Frame, (if P f.msg.id f.msg.payload then f.todo.count o else 0) ≤
      if Q f.msg.id f.msg.payload then f.todo.count o else 0 := by
    intro f
    by_cases hP : P f.msg.id f.msg.payload = true
    · simp [hP, h _ _ hP]
    · simp [hP]
  unfold deliveries tally
  refine Finset.sum_le_sum fun t _ => ?_
  unfold Thread.weigh
  apply Nat.add_le_add
  · cases (s.threads t).queue with
    | none => exact Nat.le_refl _
    | some dq => exact List.sum_le_sum fun msg _ => hmsg msg
  · cases (s.threads t).frame with
    | none => exact Nat.le_refl _
    | some f => exact hframe f

omit [DecidableEq τ] in
theorem deliveries_frame {t : τ} {f : Frame} (hf : (s.threads t).frame = some f)
    (hP : P f.msg.id f.msg.payload = true) (o : Addr) : f.todo.count o ≤ deliveries P s o := by
  have := Tally.le_sum (Thread.weigh
    (fun msg => if P msg.id msg.payload then msg.dest.objects.count o else 0)
    (fun f => if P f.msg.id f.msg.payload then f.todo.count o else 0)) s.threads t
  simp only [Thread.weigh, hf, Option.map_some, Option.getD_some, hP, ↓reduceIte] at this
  unfold deliveries tally Thread.weigh
  omega

/-! ## Pending retries -/

omit [Fintype τ] [DecidableEq τ] in
theorem retrying_iff {o : Addr} : retrying s o = true ↔
    ∃ x, s.heap o = some x ∧ x.destroyed = false ∧ x.destroyTimerId ≠ -1 := by
  unfold retrying
  cases s.heap o with
  | none | some x => simp

omit [DecidableEq τ] in
theorem live_of_owned (hinv : Inv s) {o : Addr} (h : s.owned o = true) : ∃ x, s.heap o = some x := by
  have hrefs := hinv.counts.refs o
  simp only [ownRef, h, ↓reduceIte] at hrefs
  exact live_of_refs (by omega)

omit [DecidableEq τ] in
theorem retrying_kept (hinv : Inv s) (hinv' : Inv s') {o : Addr} (howned : s'.owned o = s.owned o)
    (hkept : ∀ y, s'.heap o = some y → ∃ x, s.heap o = some x ∧ y.destroyed = x.destroyed ∧
      y.destroyTimerId = x.destroyTimerId) : retrying s' o = retrying s o := by
  rw [Bool.eq_iff_iff, retrying_iff, retrying_iff]
  constructor
  · rintro ⟨y, hy, hd, ht⟩
    obtain ⟨x, hx, hdx, htx⟩ := hkept y hy
    exact ⟨x, hx, hdx ▸ hd, htx ▸ ht⟩
  · rintro ⟨x, hx, hd, ht⟩
    obtain ⟨y, hy⟩ := live_of_owned hinv' (howned.trans (hinv.counts.fresh o x hx hd).1)
    obtain ⟨x', hx', hdx, htx⟩ := hkept y hy
    rw [hx] at hx'
    cases hx'
    exact ⟨y, hy, hdx.trans hd, by rw [htx]; exact ht⟩

/-- The run invariant: a retry is its timer or its message, never both, and only while
    `destroy_timer_id` says so; and then no DESTROY is on the way. -/
structure Retries (s : State τ) : Prop where
  inv : Inv s.dispatch
  once : ∀ o, s.timersFor o + deliveries (isRetry s.user) s.dispatch o ≤
    (retrying s.dispatch o).toNat
  clear : ∀ o, retrying s.dispatch o = true → deliveries isDestroy s.dispatch o = 0
  positive : 0 < s.nextId
  users : ∀ i ∈ s.user, 0 < i ∧ i < s.nextId
  owns : ∀ o x, s.dispatch.heap o = some x → x.destroyTimerId = -1 ∨
    (x.destroyTimerId ∉ s.user ∧ x.destroyTimerId < s.nextId)

omit [DecidableEq τ] in
theorem init_retries : Retries (init : State τ) := by
  have hzero : ∀ P o, deliveries P (Dispatch.init : Dispatch.State τ) o = 0 := by
    intro P o
    simp [deliveries, tally, Dispatch.init, Thread.weigh]
  refine ⟨init_inv, fun o => ?_, fun o _ => hzero _ o, by simp [init], ?_, ?_⟩
  · show 0 + deliveries _ Dispatch.init o ≤ _
    rw [hzero]
    exact Nat.zero_le _
  · intro i hi; cases hi
  · intro o x hx; cases hx

variable {a a' : State τ}

/-- What the invariant says of one object. -/
def Sound (a : State τ) (o : Addr) : Prop :=
  a.timersFor o + deliveries (isRetry a.user) a.dispatch o ≤ (retrying a.dispatch o).toNat ∧
    (retrying a.dispatch o = true → deliveries isDestroy a.dispatch o = 0)

section

omit [DecidableEq τ]

theorem Retries.sound (h : Retries a) (o : Addr) : Sound a o := ⟨h.once o, h.clear o⟩

/-- An object whose retry stays as it was, with no new timer or message for it. -/
theorem Sound.keep {o : Addr} (h : Sound a o)
    (hretry : retrying a'.dispatch o = retrying a.dispatch o)
    (honce : a'.timersFor o + deliveries (isRetry a'.user) a'.dispatch o ≤
      a.timersFor o + deliveries (isRetry a.user) a.dispatch o)
    (hclear : retrying a.dispatch o = true →
      deliveries isDestroy a'.dispatch o ≤ deliveries isDestroy a.dispatch o) : Sound a' o := by
  constructor
  · rw [hretry]
    exact Nat.le_trans honce h.1
  · intro hr
    rw [hretry] at hr
    have := h.2 hr
    have := hclear hr
    omega

theorem Sound.none {o : Addr} (h : Sound a o) (hretry : retrying a.dispatch o = false) :
    a.timersFor o = 0 ∧ deliveries (isRetry a.user) a.dispatch o = 0 := by
  have := h.1
  rw [hretry, Bool.toNat_false] at this
  omega

theorem Sound.idle {o : Addr} (htimers : a.timersFor o = 0)
    (hmsgs : deliveries (isRetry a.user) a.dispatch o = 0)
    (hretry : retrying a.dispatch o = false) : Sound a o := by
  constructor
  · omega
  · intro hr
    rw [hretry] at hr
    cases hr

theorem Retries.register (h : Retries a) :
    Retries { a with nextId := a.nextId + 1, user := a.nextId :: a.user } := by
  have hpos := h.positive
  have hle : ∀ o, deliveries (isRetry (a.nextId :: a.user)) a.dispatch o ≤
      deliveries (isRetry a.user) a.dispatch o := by
    intro o
    apply deliveries_mono
    intro id payload hP
    simp only [isRetry, Bool.and_eq_true, decide_eq_true_eq, Bool.not_eq_true'] at hP ⊢
    refine ⟨hP.1, ?_⟩
    cases payload with
    | none => rfl
    | some i => simp_all
  refine ⟨h.inv, fun o => ?_, h.clear, by show 0 < a.nextId + 1; omega, ?_, ?_⟩
  · exact Nat.le_trans (Nat.add_le_add_left (hle o) _) (h.once o)
  · intro i hi
    rcases List.mem_cons.mp hi with rfl | hi
    · exact ⟨hpos, by show a.nextId < a.nextId + 1; omega⟩
    · have := h.users i hi
      exact ⟨this.1, by show i < a.nextId + 1; omega⟩
  · intro o x hx
    rcases h.owns o x hx with hnone | ⟨hout, hlt⟩
    · exact Or.inl hnone
    · refine Or.inr ⟨?_, by show x.destroyTimerId < a.nextId + 1; omega⟩
      intro hm
      rcases List.mem_cons.mp hm with heq | hm
      · omega
      · exact hout hm

end

omit [Fintype τ] [DecidableEq τ] in
theorem timersFor_erase {id : Int} {t : Int × Addr}
    (h : a.timers.find? (fun b => b.1 = id) = some t) (o : Addr) :
    (a.timers.eraseP fun b => b.1 = id).countP (fun b => b.2 = o) + (if t.2 = o then 1 else 0) =
      a.timersFor o := by
  obtain ⟨hid, l₁, l₂, hl, hl₁⟩ := List.find?_eq_some_iff_append.mp h
  have hl₁' : ∀ b ∈ l₁, ¬ decide (b.1 = id) = true := by
    intro b hb
    simpa using hl₁ b hb
  unfold State.timersFor
  rw [hl, List.eraseP_append_right _ hl₁', List.eraseP_cons_of_pos (a := t) hid]
  simp only [List.countP_append, List.countP_cons, decide_eq_true_eq]
  omega

theorem Retries.fire (h : Retries a) {id : Int} {t : Int × Addr}
    (hfind : a.timers.find? (fun b => b.1 = id) = some t) {s' : Dispatch.State τ}
    (hsend : s' = a.dispatch ∨
      ∃ m ok, sendmsg a.dispatch [t.2] .timer flagUnicast (some id) m = some (s', ok)) :
    Retries { a with dispatch := s', timers := a.timers.eraseP fun b => b.1 = id } := by
  have herase := timersFor_erase hfind
  rcases hsend with rfl | ⟨m, ok, hsend⟩
  · refine ⟨h.inv, fun o => ?_, h.clear, h.positive, h.users, h.owns⟩
    refine Nat.le_trans (Nat.add_le_add_right ?_ _) (h.once o)
    exact Nat.le_of_add_right_le (Nat.le_of_eq (herase o))
  · have hsent := sendmsg_sent h.inv.counts.counted hsend
    have hkept := Kept.sent hsent
    have hinv' : Inv s' := h.inv.send (by decide) hsent
    have hsound : ∀ o,
        Sound { a with dispatch := s', timers := a.timers.eraseP fun b => b.1 = id } o := by
      intro o
      have hretry := sendmsg_deliveries (P := isRetry a.user) hsend o
      have hdestroy := sendmsg_deliveries (P := isDestroy) hsend o
      have hcount : [t.2].count o = if t.2 = o then 1 else 0 := by
        simp [List.count_singleton]
      refine (h.sound o).keep (retrying_kept h.inv hinv' (by rw [hsent.owned]) (hkept o)) ?_ ?_
      · show (a.timers.eraseP fun b => b.1 = id).countP (fun b => b.2 = o) +
          deliveries (isRetry a.user) s' o ≤ _
        have := herase o
        rw [hcount] at hretry
        split at hretry <;> omega
      · intro _
        simpa [isDestroy] using hdestroy
    refine ⟨hinv', fun o => (hsound o).1, fun o => (hsound o).2, h.positive, h.users, ?_⟩
    intro o y hy
    obtain ⟨x, hx, -, ht⟩ := hkept o y hy
    rw [ht]
    exact h.owns o x hx

/-! ## A step of the dispatcher -/

omit [Fintype τ] [DecidableEq τ] in
theorem call_frame {t : τ} {o : Addr} {id : MessageType} (h : (s.threads t).call = some (o, id)) :
    ∃ msg todo, (s.threads t).frame = some ⟨msg, o :: todo, true⟩ ∧ msg.id = id := by
  unfold Thread.call at h
  split at h
  · rename_i msg p todo hf
    cases h
    exact ⟨msg, todo, hf, rfl⟩
  · cases h

omit [Fintype τ] in
/-- What a step of the dispatcher does to the timers. -/
theorem dispatch_cases {e : Dispatch.Event τ} {out : Outcome}
    (h : step a (.dispatch e) = some (a', out)) :
    Dispatch.step a.dispatch e = some (a'.dispatch, out) ∧ timerKnown a e = true ∧
      a'.user = a.user ∧
      ((retryOf a.dispatch e = none ∧ a'.timers = a.timers ∧ a'.nextId = a.nextId) ∨
        ∃ o t res m, e = .handled t res m a.nextId ∧ retryOf a.dispatch e = some o ∧
          a'.timers = (a.nextId, o) :: a.timers ∧ a'.nextId = a.nextId + 1) := by
  simp only [step] at h
  split at h
  · rename_i hknown
    cases hretry : retryOf a.dispatch e with
    | none =>
      simp only [hretry] at h
      obtain ⟨⟨s₁, out₁⟩, hstep, hr⟩ := Option.map_eq_some_iff.mp h
      cases hr
      exact ⟨hstep, hknown, rfl, Or.inl ⟨rfl, rfl, rfl⟩⟩
    | some o =>
      -- only the return of a handler registers a timer
      cases e with
      | handled t res m timer =>
        simp only [hretry] at h
        split at h
        · rename_i htimer
          subst htimer
          obtain ⟨⟨s₁, out₁⟩, hstep, hr⟩ := Option.map_eq_some_iff.mp h
          cases hr
          exact ⟨hstep, hknown, rfl, Or.inr ⟨o, t, res, m, rfl, rfl, rfl, rfl⟩⟩
        · cases h
      | _ => cases hretry
  · cases h

theorem dispatch_retries {e : Dispatch.Event τ} {out : Outcome}
    (hknown : timerKnown a e = true) (h : Dispatch.step a.dispatch e = some (s', out)) (o : Addr) :
    deliveries (isRetry a.user) s' o + ended (isRetry a.user) a.dispatch e out o ≤
      deliveries (isRetry a.user) a.dispatch o := by
  have hstep := step_deliveries (P := isRetry a.user) rfl h o
  have hsent : sentTo (isRetry a.user) e o = 0 := by
    cases e with
    | send dest id flags payload m =>
      cases hP : isRetry a.user id payload with
      | false => simp [sentTo, hP]
      | true =>
        simp only [isRetry, Bool.and_eq_true, decide_eq_true_eq] at hP
        obtain ⟨rfl, hP⟩ := hP
        have hknown' : (payload.any fun i => decide (i ∈ a.user)) = true := hknown
        rw [hknown'] at hP
        cases hP
    | _ => rfl
  simpa [hsent, isRetry] using hstep

omit [DecidableEq τ] in
/-- A patient step sends DESTROY to no object with a retry pending. -/
theorem sentTo_patient {e : Dispatch.Event τ} (hok : Patient a (.dispatch e)) {o : Addr}
    (hretry : retrying a.dispatch o = true) : sentTo isDestroy e o = 0 := by
  cases e with
  | send dest id flags payload m =>
    simp only [sentTo, isDestroy, decide_eq_true_eq]
    split
    · rename_i hid
      subst hid
      apply List.count_eq_zero.mpr
      intro ho
      have := hok.1 o ho
      rw [hretry] at this
      cases this
    · rfl
  | _ => rfl

omit [DecidableEq τ] in
/-- The id kept in an object is an old one, or the one of the timer just registered. -/
theorem change_timerId {e : Dispatch.Event τ} {out : Outcome} (h : Change s e out s') {o : Addr}
    {y : Object τ} (hy : s'.heap o = some y) : y.destroyTimerId = -1 ∨
      (∃ x, s.heap o = some x ∧ y.destroyTimerId = x.destroyTimerId) ∨
      (retryOf s e = some o ∧ ∃ t res m, e = .handled t res m y.destroyTimerId) := by
  have hold : Kept s s' → ∃ x, s.heap o = some x ∧ y.destroyTimerId = x.destroyTimerId := by
    intro hkept
    obtain ⟨x, hx, -, ht⟩ := hkept o y hy
    exact ⟨x, hx, ht⟩
  cases h with
  | quiet _ hkept | skipped _ _ _ hkept | called _ _ _ _ hkept => exact Or.inr (Or.inl (hold hkept))
  | @born t malloc p _ _ hnew hkept =>
    by_cases hp : o = p
    · subst hp
      exact Or.inl (hnew y hy).2
    · rw [hkept o hp] at hy
      exact Or.inr (Or.inl ⟨y, hy, rfl⟩)
  | @retried t m p x msg todo _ _ _ _ _ _ hheap =>
    obtain ⟨z, hz, -, ht⟩ := hheap o y hy
    split at ht
    · exact Or.inl ht
    · exact Or.inr (Or.inl ⟨z, hz, ht⟩)
  | @answered t res m timer p id x _ _ hcall _ hheap =>
    obtain ⟨z, hz, -, ht⟩ := hheap o y hy
    split at ht
    · rename_i hcont
      obtain ⟨rfl, rfl, rfl⟩ := hcont
      obtain ⟨msg, todo, hf, hid⟩ := call_frame hcall
      by_cases htimer : timer = -1
      · exact Or.inl (ht.trans htimer)
      · refine Or.inr (Or.inr ⟨?_, t, .continue, m, by rw [ht]⟩)
        simp [retryOf, hf, hid, htimer]
    · exact Or.inr (Or.inl ⟨z, hz, ht⟩)

/-- What a patient step of the dispatcher gives to work with, before its cases. -/
structure Took (a : State τ) (e : Dispatch.Event τ) (out : Outcome) (a' : State τ) : Prop where
  before : Retries a
  after : Inv a'.dispatch
  patient : Patient a (.dispatch e)
  change : Change a.dispatch e out a'.dispatch
  user : a'.user = a.user
  retries : ∀ o, deliveries (isRetry a'.user) a'.dispatch o +
    ended (isRetry a.user) a.dispatch e out o ≤ deliveries (isRetry a.user) a.dispatch o
  destroys : ∀ o, deliveries isDestroy a'.dispatch o + ended isDestroy a.dispatch e out o ≤
    deliveries isDestroy a.dispatch o + sentTo isDestroy e o + resent a.dispatch e out o
  timers : ∀ o, retryOf a.dispatch e ≠ some o → a'.timersFor o = a.timersFor o
  registered : ∀ o, retryOf a.dispatch e = some o → a'.timersFor o = a.timersFor o + 1 ∧
    ∃ t res m, e = .handled t res m a.nextId

theorem Took.intro (h : Retries a) {e : Dispatch.Event τ} {out : Outcome}
    (hok : Patient a (.dispatch e)) (hstep : step a (.dispatch e) = some (a', out)) :
    Took a e out a' := by
  obtain ⟨hd, hknown, huser, hcases⟩ := dispatch_cases hstep
  have hretries := dispatch_retries hknown hd
  have hdestroys := step_deliveries (P := isDestroy) rfl hd
  refine ⟨h, step_inv h.inv hd, hok, step_change h.inv hd, huser, ?_, hdestroys, ?_, ?_⟩
  · rw [huser]
    exact hretries
  · intro o ho
    rcases hcases with ⟨-, htimers, -⟩ | ⟨p, t, res, m, -, hp, htimers, -⟩
    · unfold State.timersFor
      rw [htimers]
    · rw [hp, ne_eq, Option.some.injEq] at ho
      unfold State.timersFor
      rw [htimers, List.countP_cons_of_neg (by simpa using ho)]
  · intro o ho
    rcases hcases with ⟨hnone, -, -⟩ | ⟨p, t, res, m, he, hp, htimers, -⟩
    · rw [hnone] at ho
      cases ho
    · rw [hp, Option.some.injEq] at ho
      subst ho
      refine ⟨?_, t, res, m, he⟩
      unfold State.timersFor
      rw [htimers, List.countP_cons_of_pos (by simp)]

omit [DecidableEq τ] in
/-- An object that the step does not concern. -/
theorem Took.keep {e : Dispatch.Event τ} {out : Outcome} (h : Took a e out a') {o : Addr}
    (hretry : retrying a'.dispatch o = retrying a.dispatch o) (hof : retryOf a.dispatch e ≠ some o)
    (hresent : resent a.dispatch e out o = 0) : Sound a' o := by
  refine (h.before.sound o).keep hretry ?_ fun hr => ?_
  · have := h.retries o
    have := h.timers o hof
    omega
  · have := h.destroys o
    have := sentTo_patient h.patient hr
    omega

omit [DecidableEq τ] in
theorem Took.idle {e : Dispatch.Event τ} {out : Outcome} (h : Took a e out a') {o : Addr}
    (hretry : retrying a.dispatch o = false) (hretry' : retrying a'.dispatch o = false)
    (hof : retryOf a.dispatch e ≠ some o) : Sound a' o := by
  have hnone := (h.before.sound o).none hretry
  have := h.retries o
  have := h.timers o hof
  exact Sound.idle (by omega) (by omega) hretry'

omit [Fintype τ] [DecidableEq τ] in
theorem retrying_false_iff {o : Addr} : retrying s o = false ↔
    ∀ x, s.heap o = some x → x.destroyed = true ∨ x.destroyTimerId = -1 := by
  rw [← Bool.not_eq_true, retrying_iff]
  constructor
  · intro h x hx
    by_contra hne
    rw [not_or, Bool.not_eq_true] at hne
    exact h ⟨x, hx, hne⟩
  · rintro h ⟨x, hx, hd, ht⟩
    rcases h x hx with hd' | ht'
    · rw [hd] at hd'
      cases hd'
    · exact ht ht'

section

omit [DecidableEq τ]

/-- A DESTROY in dispatch is for an object with no retry pending. -/
theorem Retries.destroying (h : Retries a) {t : τ} {msg : Message} {o : Addr} {todo : List Addr}
    {c : Bool} (hf : (a.dispatch.threads t).frame = some ⟨msg, o :: todo, c⟩)
    (hid : msg.id = .destroy) : retrying a.dispatch o = false := by
  have hle := deliveries_frame (P := isDestroy) hf (by simp [isDestroy, hid]) o
  rw [List.count_cons_self] at hle
  rw [← Bool.not_eq_true]
  intro hr
  have := h.clear o hr
  omega

/-- The message of a retry is delivered: its DESTROY is sent, and the timer is forgotten. -/
theorem Took.retried {t : τ} {m : Mallocs} (h : Took a (.deliver t m) .done a') {o : Addr}
    {x : Object τ} {msg : Message} {todo : List Addr}
    (hf : (a.dispatch.threads t).frame = some ⟨msg, o :: todo, false⟩)
    (hx : a.dispatch.heap o = some x) (hid : msg.id = .timer)
    (hpayload : msg.payload = some x.destroyTimerId)
    (hheap : ∀ p y, a'.dispatch.heap p = some y → ∃ z, a.dispatch.heap p = some z ∧
      y.destroyed = z.destroyed ∧ y.destroyTimerId = if p = o then -1 else z.destroyTimerId)
    (howned : a'.dispatch.owned = a.dispatch.owned) (p : Addr) : Sound a' p := by
  by_cases hp : p = o
  · subst hp
    -- the message is one of a retry: no other timer has the id that the object keeps
    have hmsg : isRetry a.user msg.id msg.payload = true := by
      have hout : x.destroyTimerId ∉ a.user := by
        intro hin
        rcases h.before.owns p x hx with hnone | ⟨hout, -⟩
        · have := h.before.users _ hin
          omega
        · exact hout hin
      simp [isRetry, hid, hpayload, hout]
    have hone := deliveries_frame (P := isRetry a.user) hf hmsg p
    rw [List.count_cons_self] at hone
    have hended : ended (isRetry a.user) a.dispatch (.deliver t m) .done p = 1 := by
      simp [ended, hf, hmsg]
    have honce := h.before.once p
    have hle := Bool.toNat_le (retrying a.dispatch p)
    have hretries := h.retries p
    have htimers := h.timers p (fun hof => nomatch hof)
    refine Sound.idle (by omega) (by omega) (retrying_false_iff.mpr fun y hy => ?_)
    obtain ⟨z, -, -, ht⟩ := hheap p y hy
    exact Or.inr (by rw [ht, if_pos rfl])
  · refine h.keep (retrying_kept h.before.inv h.after (by rw [howned]) ?_)
      (fun hof => nomatch hof) ?_
    · intro y hy
      obtain ⟨z, hz, hd, ht⟩ := hheap p y hy
      exact ⟨z, hz, hd, by rw [ht, if_neg hp]⟩
    · have hp' : o ≠ p := fun heq => hp heq.symm
      simp [resent, hf, hp']

/-- The handler of `o` returned from DESTROY. -/
theorem Took.destroyed {t : τ} {res : HandlerResult} {m : Mallocs} {timer : Int}
    (h : Took a (.handled t res m timer) .done a') {o : Addr} {x : Object τ} {msg : Message}
    {todo : List Addr} (hf : (a.dispatch.threads t).frame = some ⟨msg, o :: todo, true⟩)
    (hid : msg.id = .destroy) (hx : a.dispatch.heap o = some x) (hdes : x.destroyed = false)
    (hheap : ∀ y, a'.dispatch.heap o = some y →
      (y.destroyed = if res = .ok then true else x.destroyed) ∧
      y.destroyTimerId = if res = .continue then timer else x.destroyTimerId)
    (howned : a'.dispatch.owned = a.dispatch.owned) : Sound a' o := by
  have hretry := h.before.destroying hf hid
  cases res with
  | ok =>
    refine h.idle hretry (retrying_false_iff.mpr fun y hy => ?_) ?_
    · exact Or.inl (by rw [(hheap y hy).1, if_pos rfl])
    · exact fun hof => nomatch hof
  | «continue» =>
    by_cases htimer : timer = -1
    · refine h.idle hretry (retrying_false_iff.mpr fun y hy => ?_) ?_
      · exact Or.inr (by rw [(hheap y hy).2, if_pos rfl, htimer])
      · simp [retryOf, hf, htimer]
    · -- the timer is registered, and the DESTROY that ends here was the only one
      have hof : retryOf a.dispatch (.handled t .continue m timer) = some o := by
        simp [retryOf, hf, hid, htimer]
      have hpatient := h.patient.2 o hof
      have hended : ended isDestroy a.dispatch (.handled t .continue m timer) .done o = 1 := by
        simp [ended, hf, hid, isDestroy]
      have hresent : resent a.dispatch (.handled t .continue m timer) .done o = 0 := by
        simp [resent, hf, htimer]
      have hsent : sentTo isDestroy (.handled t .continue m timer : Dispatch.Event τ) o = 0 := rfl
      have hdestroys := h.destroys o
      have hnone := (h.before.sound o).none hretry
      have hretries := h.retries o
      obtain ⟨htimers, -⟩ := h.registered o hof
      have hretry' : retrying a'.dispatch o = true := by
        have howns : a'.dispatch.owned o = true := by
          rw [howned]
          exact (h.before.inv.counts.fresh o x hx hdes).1
        obtain ⟨y, hy⟩ := live_of_owned h.after howns
        obtain ⟨hd, ht⟩ := hheap y hy
        refine retrying_iff.mpr ⟨y, hy, ?_, ?_⟩
        · rw [hd, if_neg (by simp), hdes]
        · rw [ht, if_pos rfl]
          exact htimer
      constructor
      · rw [hretry', Bool.toNat_true]
        omega
      · intro _
        omega

theorem Took.answered {t : τ} {res : HandlerResult} {m : Mallocs} {timer : Int}
    (h : Took a (.handled t res m timer) .done a') {o : Addr} {id : MessageType} {x : Object τ}
    (hx : a.dispatch.heap o = some x) (hcall : (a.dispatch.threads t).call = some (o, id))
    (hdes : id ≠ .cleanup → x.destroyed = false)
    (hheap : ∀ p y, a'.dispatch.heap p = some y → ∃ z, a.dispatch.heap p = some z ∧
      (y.destroyed = if p = o ∧ id = .destroy ∧ res = .ok then true else z.destroyed) ∧
      y.destroyTimerId =
        if p = o ∧ id = .destroy ∧ res = .continue then timer else z.destroyTimerId)
    (howned : a'.dispatch.owned =
      if id = .cleanup then Function.update a.dispatch.owned o false else a.dispatch.owned)
    (p : Addr) : Sound a' p := by
  obtain ⟨msg, todo, hf, hid⟩ := call_frame hcall
  have hof : p ≠ o ∨ id ≠ .destroy → retryOf a.dispatch (.handled t res m timer) ≠ some p ∧
      resent a.dispatch (.handled t res m timer) .done p = 0 := by
    intro hne
    constructor
    · intro heq
      unfold retryOf at heq
      cases res with
      | ok => cases heq
      | «continue» =>
        simp only [hf] at heq
        split at heq
        · rename_i hd
          cases heq
          exact hne.elim (fun hp => hp rfl) (fun hi => hi (hid.symm.trans hd.1))
        · cases heq
    · simp only [resent, hf]
      rw [if_neg]
      rintro ⟨hd, -, -, rfl⟩
      exact hne.elim (fun hp => hp rfl) (fun hi => hi (hid.symm.trans hd))
  have hkeep : p ≠ o ∨ id ≠ .destroy → a'.dispatch.owned p = a.dispatch.owned p →
      Sound a' p := by
    intro hne howns
    refine h.keep (retrying_kept h.before.inv h.after howns ?_) (hof hne).1 (hof hne).2
    intro y hy
    obtain ⟨z, hz, hd, ht⟩ := hheap p y hy
    have hno : ∀ r : Prop, ¬ (p = o ∧ id = .destroy ∧ r) := fun r hc =>
      hne.elim (fun hp => hp hc.1) (fun hi => hi hc.2.1)
    exact ⟨z, hz, by rw [hd, if_neg (hno _)], by rw [ht, if_neg (hno _)]⟩
  by_cases hp : p = o
  · subst hp
    by_cases hdestroy : id = .destroy
    · subst hdestroy
      refine h.destroyed hf hid hx (hdes (by decide)) (fun y hy => ?_) ?_
      · obtain ⟨z, hz, hd, ht⟩ := hheap p y hy
        rw [hx] at hz
        cases hz
        exact ⟨by simpa using hd, by simpa using ht⟩
      · rw [howned, if_neg (by decide)]
    · by_cases hclean : id = .cleanup
      · subst hclean
        -- the object was destroyed before its CLEANUP was sent
        have hx' : x.destroyed = true := by
          rw [← Bool.not_eq_false]
          intro hlive
          have hzero := (h.before.inv.counts.fresh p x hx hlive).2
          have hone := cleanups_frame hf hid p
          rw [List.count_cons_self] at hone
          omega
        have hstays : ∀ {b : State τ}, (∀ y, b.dispatch.heap p = some y → y.destroyed = true) →
            retrying b.dispatch p = false :=
          fun hall => retrying_false_iff.mpr fun y hy => Or.inl (hall y hy)
        refine h.idle (hstays fun y hy => ?_) (hstays fun y hy => ?_) (hof (Or.inr hdestroy)).1
        · rw [hx] at hy
          cases hy
          exact hx'
        · obtain ⟨z, hz, hd, -⟩ := hheap p y hy
          rw [hx] at hz
          cases hz
          simpa [hx'] using hd
      · exact hkeep (Or.inr hdestroy) (by rw [howned, if_neg hclean])
  · refine hkeep (Or.inl hp) ?_
    rw [howned]
    split
    · exact Function.update_of_ne hp _ _
    · rfl

theorem Took.sound {e : Dispatch.Event τ} {out : Outcome} (h : Took a e out a') (p : Addr) :
    Sound a' p := by
  have hkeep : Kept a.dispatch a'.dispatch → a'.dispatch.owned = a.dispatch.owned →
      retryOf a.dispatch e ≠ some p → resent a.dispatch e out p = 0 → Sound a' p := by
    intro hkept howned
    exact h.keep (retrying_kept h.before.inv h.after (by rw [howned]) (hkept p))
  cases h.change with
  | quiet hstill hkept howned =>
    have hof : retryOf a.dispatch e = none ∧ resent a.dispatch e out p = 0 := by
      cases e <;> first | exact ⟨rfl, rfl⟩ | cases hstill
    exact hkeep hkept howned (by simp [hof.1]) hof.2
  | @born t malloc o _ hfree hnew hsame howned =>
    by_cases hp : p = o
    · subst hp
      have hnone : retrying a.dispatch p = false := by simp [retrying, hfree]
      refine h.idle hnone (retrying_false_iff.mpr fun y hy => ?_) (fun hof => nomatch hof)
      exact Or.inr (hnew y hy).2
    · refine h.keep ?_ (fun hof => nomatch hof) rfl
      unfold retrying
      rw [hsame p hp]
  | @skipped t m o x msg todo _ hf hx hdes hkept howned =>
    exact hkeep hkept howned (fun hof => nomatch hof) (by simp [resent, hf, hx, hdes])
  | retried hf hx hid hpayload hdes hheap howned =>
    exact h.retried hf hx hid hpayload hheap howned p
  | called hx hlock hdes hclean hkept howned =>
    exact hkeep hkept howned (fun hof => nomatch hof) rfl
  | answered hx hcall hdes hheap howned =>
    exact h.answered hx hcall hdes hheap howned p

end

theorem Retries.dispatch (h : Retries a) {e : Dispatch.Event τ} {out : Outcome}
    (hok : Patient a (.dispatch e)) (hstep : step a (.dispatch e) = some (a', out)) :
    Retries a' := by
  have htook := Took.intro h hok hstep
  obtain ⟨hd, -, huser, hcases⟩ := dispatch_cases hstep
  have hnext : a.nextId ≤ a'.nextId ∧
      (∀ o, retryOf a.dispatch e = some o → a.nextId < a'.nextId) := by
    rcases hcases with ⟨hnone, -, heq⟩ | ⟨o, t, res, m, -, -, -, heq⟩
    · refine ⟨by omega, fun o ho => ?_⟩
      rw [hnone] at ho
      cases ho
    · exact ⟨by omega, fun _ _ => by omega⟩
  have hpos := h.positive
  refine ⟨htook.after, fun o => (htook.sound o).1, fun o => (htook.sound o).2, by omega, ?_, ?_⟩
  · intro i hi
    rw [huser] at hi
    have := h.users i hi
    exact ⟨this.1, by omega⟩
  · intro o y hy
    rw [huser]
    rcases change_timerId htook.change hy with hnone | ⟨x, hx, ht⟩ | ⟨hof, t, res, m, he⟩
    · exact Or.inl hnone
    · rw [ht]
      rcases h.owns o x hx with hnone | ⟨hout, hlt⟩
      · exact Or.inl hnone
      · exact Or.inr ⟨hout, by omega⟩
    · -- the timer just registered: its id is new
      obtain ⟨-, t', res', m', he'⟩ := htook.registered o hof
      have hid : y.destroyTimerId = a.nextId :=
        (Dispatch.Event.handled.inj (he.symm.trans he')).2.2.2
      have := hnext.2 o hof
      refine Or.inr ⟨fun hin => ?_, by omega⟩
      have := h.users _ hin
      omega

theorem step_retries {e : Event τ} {out : Outcome} (h : Retries a) (hok : Patient a e)
    (hstep : step a e = some (a', out)) : Retries a' := by
  cases e with
  | dispatch e => exact h.dispatch hok hstep
  | register =>
    cases hstep
    exact h.register
  | fire id payload m =>
    simp only [step] at hstep
    split at hstep
    · cases hstep
    · rename_i i o hfind
      split at hstep
      · obtain ⟨⟨s₁, ok⟩, hsend, hr⟩ := Option.map_eq_some_iff.mp hstep
        cases hr
        exact h.fire hfind (Or.inr ⟨m, ok, hsend⟩)
      · cases hstep
        exact h.fire hfind (Or.inl rfl)

theorem run_retries {tr : List (Event τ × Outcome)} (h : Run (Guarded step Patient) init tr a) :
    Retries a :=
  h.invariant init_retries fun _ _ _ hr hstep => step_retries hr hstep.1 hstep.2

omit [Fintype τ] in
theorem called_deliver {e : Dispatch.Event τ} {o : Addr} {id : MessageType}
    (h : Dispatch.step s e = some (s', .called o id)) : ∃ t m, e = .deliver t m := by
  cases e with
  | deliver t m => exact ⟨t, m, rfl⟩
  | handled t res m timer =>
    simp only [Dispatch.step] at h
    split at h
    · simp only [Option.bind_eq_bind, Option.bind_eq_some_iff] at h
      obtain ⟨x, -, r, -, s₂, -, hs⟩ := h
      cases hs
    · cases h
  | ref p =>
    obtain ⟨heap, -, hs⟩ := Option.map_eq_some_iff.mp h
    cases hs
  | new t malloc =>
    simp only [Dispatch.step] at h
    split at h
    · split at h <;> cases h
    · cases h
  | send dest id' flags payload m =>
    simp only [Dispatch.step] at h
    split at h
    · cases h
    · obtain ⟨⟨s₁, ok⟩, -, hs⟩ := Option.map_eq_some_iff.mp h
      cases ok <;> cases hs
  | _ =>
    -- a call that is over answers `done` or `null`
    exfalso
    simp only [Dispatch.step] at h
    split at h <;> simp at h

/-- A handler is given DESTROY only when no retry is pending. -/
theorem Retries.called (h : Retries a) {e : Event τ} {o : Addr}
    (hstep : step a e = some (a', .called o .destroy)) :
    ∃ x, a.dispatch.heap o = some x ∧ x.destroyTimerId = -1 := by
  cases e with
  | register => cases hstep
  | fire id payload m =>
    simp only [step] at hstep
    split at hstep
    · cases hstep
    · split at hstep
      · obtain ⟨⟨s₁, ok⟩, -, hr⟩ := Option.map_eq_some_iff.mp hstep
        cases ok <;> cases hr
      · cases hstep
  | dispatch e =>
    obtain ⟨hd, -, -, -⟩ := dispatch_cases hstep
    obtain ⟨t, m, rfl⟩ := called_deliver hd
    have hdestroys := step_deliveries (P := isDestroy) rfl hd o
    cases step_change h.inv hd with
    | quiet hstill => cases hstill
    | @called _ _ _ _ x _ hx _ hdes _ _ _ hcall =>
      refine ⟨x, hx, ?_⟩
      -- the message was on its way before the step
      obtain ⟨msg, todo, hf, hid⟩ := call_frame hcall
      have hone := deliveries_frame (P := isDestroy) hf (by simp [isDestroy, hid]) o
      rw [List.count_cons_self] at hone
      have hzero : sentTo isDestroy (.deliver t m : Dispatch.Event τ) o = 0 := rfl
      have hzero' : resent a.dispatch (.deliver t m) (.called o .destroy) o = 0 := rfl
      by_contra hne
      have hretry : retrying a.dispatch o = true :=
        retrying_iff.mpr ⟨x, hx, hdes.resolve_right (by decide), hne⟩
      have hclear := h.clear o hretry
      rw [hzero, hzero', ite_self] at hdestroys
      omega

/-- **The retry of DESTROY**: in every patient run an object has at most one timer registered,
    its handler is given DESTROY only while `destroy_timer_id` is -1, and a freed object has no
    timer left. -/
theorem destroy_timer_once {tr : List (Event τ × Outcome)}
    (h : Run (Guarded step Patient) init tr a) :
    (∀ o, a.timersFor o ≤ 1) ∧
    (∀ e a' o, step a e = some (a', .called o .destroy) →
      ∃ x, a.dispatch.heap o = some x ∧ x.destroyTimerId = -1) ∧
    ∀ o, a.dispatch.heap o = none → a.timersFor o = 0 := by
  have hr := run_retries h
  refine ⟨fun o => ?_, fun e a' o hstep => ?_, fun o ho => ?_⟩
  · have := hr.once o
    have := Bool.toNat_le (retrying a.dispatch o)
    omega
  · exact hr.called hstep
  · have hnone : retrying a.dispatch o = false := by simp [retrying, ho]
    exact ((hr.sound o).none hnone).1

/-- Allocations succeed. -/
def memory : Mallocs := ⟨true, true, true⟩

/-- Deliver the oldest message of the thread up to the call of the handler. -/
def receive : List (Event Unit) := [.dispatch (.get ()), .dispatch (.deliver () memory)]

/-- The handler returned. -/
def answer (res : HandlerResult) (timer : Int) : List (Event Unit) :=
  [.dispatch (.handled () res memory timer), .dispatch (.finish ())]

/-- An object is created and destroyed `n` times. -/
def destroys (n : Nat) : List (Event Unit) :=
  .dispatch (.init ()) :: .dispatch (.new () (some 7)) ::
    List.replicate n (.dispatch (.send [7] .destroy flagUnicast none memory))

/-- A handler asks for one retry and then agrees: the timer is registered, fires and is forgotten,
    the second DESTROY finds -1, and the freed object has no timer. -/
theorem destroy_timer_once_retry :
    ∃ tr s, Run (Guarded step Patient) (init : State Unit) tr s ∧ s.dispatch.heap 7 = none ∧
      (∀ o, s.timersFor o ≤ 1) ∧ s.timersFor 7 = 0 := by
  obtain ⟨tr, s, hrun, hfreed⟩ := exists_run_of_guarded_exec step Patient (init : State Unit)
    (fun _ s => s.dispatch.heap 7 = none)
    (destroys 1 ++ receive ++ answer .continue 1 ++ [Event.fire 1 true memory] ++
      [Event.dispatch (.get ()), .dispatch (.deliver () memory), .dispatch (.finish ())] ++
      receive ++ answer .ok 0 ++ receive ++ answer .ok 0) (by decide +kernel)
  have h := destroy_timer_once hrun
  exact ⟨tr, s, hrun, hfreed, h.1, h.2.2 7 hfreed⟩

/-- **DESTROY sent twice**: `avbox_object_destroy` is called twice, and the first DESTROY is
    answered with CONTINUE.  The second one then finds a timer in `destroy_timer_id`; answered with
    CONTINUE it leaves two timers for the object, and answered with OK it leaves the timer of an
    object that is freed. -/
theorem destroy_twice :
    (∃ tr s s' x, Run (Step step) (init : State Unit) tr s ∧
      step s (.dispatch (.deliver () memory)) = some (s', .called 7 .destroy) ∧
      s.dispatch.heap 7 = some x ∧ x.destroyTimerId = 1) ∧
    (∃ tr s, Run (Step step) (init : State Unit) tr s ∧ s.timersFor 7 = 2) ∧
    ∃ tr s, Run (Step step) (init : State Unit) tr s ∧ s.dispatch.heap 7 = none ∧
      s.timersFor 7 = 1 := by
  refine ⟨?_, ?_, ?_⟩
  · have hrun : Run (Step step) (init : State Unit) _ _ := run_of_exec
      (destroys 2 ++ receive ++ answer .continue 1 ++ [Event.dispatch (.get ())]) rfl
    exact ⟨_, _, _, _, hrun, rfl, rfl, rfl⟩
  · exact exists_run_of_exec step (init : State Unit) (fun _ s => s.timersFor 7 = 2)
      (destroys 2 ++ receive ++ answer .continue 1 ++ receive ++ answer .continue 2)
      (by decide +kernel)
  · exact exists_run_of_exec step (init : State Unit)
      (fun _ s => s.dispatch.heap 7 = none ∧ s.timersFor 7 = 1)
      (destroys 2 ++ receive ++ answer .continue 1 ++ receive ++ answer .ok 0 ++ receive ++
        answer .ok 0) (by decide +kernel)

end Mediabox.DestroyTimer
