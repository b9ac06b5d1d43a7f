import Mediabox.Dispatch

/-!
# The messages of the dispatcher

What a message is does not change between `avbox_object_sendmsg` and `avbox_dispatch_freemsg`.

* `made` — the message that `avbox_object_sendmsg` makes: one object, or a copy of the list by
  `avbox_dispatch_destdup`.
* `step_passage` — what a step does to the queues and the frames.  The results about messages under
  way are derived from this alone.
* `Mail.step` — what holds of the messages that are sent, and of the DESTROY and CLEANUP messages of
  `avbox_object_handler`, holds of every message in a queue or in dispatch.
-/

set_option autoImplicit false

namespace Mediabox.Dispatch

open Transition

/-- The message of `avbox_object_sendmsg`. -/
def made (dest : List Addr) (id : MessageType) (flags : Nat) (payload : Option Int) :
    Option Message :=
  match castOf flags, dest with
  | some .unicast, o :: _ => some ⟨id, flags, .object o, payload⟩
  | some _, o :: os => some ⟨id, flags, .list (o :: os), payload⟩
  | _, _ => none

theorem made_spec {dest : List Addr} {id : MessageType} {flags : Nat} {payload : Option Int}
    {msg : Message} (h : made dest id flags payload = some msg) :
    msg.id = id ∧ msg.payload = payload ∧ msg.dest.objects.Sublist dest := by
  unfold made at h
  split at h
  · cases h
    exact ⟨rfl, rfl, List.singleton_sublist.mpr List.mem_cons_self⟩
  · cases h
    exact ⟨rfl, rfl, List.Sublist.refl _⟩
  · cases h

variable {τ : Type*} [DecidableEq τ]

/-- The message that a step sends for its caller. -/
def Event.sends : Event τ → Option Message
  | .send dest id flags payload _ => if id = .cleanup then none else made dest id flags payload
  | _ => none

/-- A message of `avbox_object_handler`. -/
def own (id : MessageType) (o : Addr) : Message := ⟨id, flagUnicast, .object o, none⟩

/-- What `avbox_object_handler` sends when the handler of `o` has answered. -/
def reply (id : MessageType) (o : Addr) (res : HandlerResult) (timer : Int) : Option Message :=
  match id, res with
  | .destroy, .ok => some (own .cleanup o)
  | .destroy, .continue => if timer = -1 then some (own .destroy o) else none
  | _, _ => none

/-! ## What a step does to the queues and the frames -/

/-- The threads are as they were, or a queue has one more message. -/
inductive Queued (threads : τ → Thread) (msg? : Option Message) (threads' : τ → Thread) : Prop
  | same (h : threads' = threads)
  | added {q : τ} {dq : DispatchQueue} {msg : Message} (hmsg : msg? = some msg)
      (hq : (threads q).queue = some dq)
      (h : threads' = Function.update threads q
        ⟨some ⟨dq.closed, dq.messages ++ [msg]⟩, (threads q).frame⟩)

inductive Passage (s : State τ) : Event τ → Outcome → State τ → Prop
  | queued {e : Event τ} {out : Outcome} {s' : State τ} (he : ∀ t m, e ≠ .deliver t m)
      (he' : ∀ t res m timer, e ≠ .handled t res m timer) (h : Queued s.threads e.sends s'.threads) :
      Passage s e out s'
  /-- a queue is created or closed -/
  | queue {e : Event τ} {t : τ} {dq : DispatchQueue} {s' : State τ} (he : e = .init t ∨ e = .close t)
      (hq : dq.messages = ((s.threads t).queue.map DispatchQueue.messages).getD [])
      (h : s'.threads = (s.setThread t ⟨some dq, (s.threads t).frame⟩).threads) :
      Passage s e .done s'
  | got {t : τ} {closed : Bool} {msg : Message} {msgs : List Message} {s' : State τ}
      (hq : (s.threads t).queue = some ⟨closed, msg :: msgs⟩) (hf : (s.threads t).frame = none)
      (h : s'.threads = (s.setThread t
        ⟨some ⟨closed, msgs⟩, some ⟨msg, msg.dest.objects, false⟩⟩).threads) :
      Passage s (.get t) .done s'
  | called {t : τ} {m : Mallocs} {msg : Message} {o : Addr} {todo : List Addr} {s' : State τ}
      (hf : (s.threads t).frame = some ⟨msg, o :: todo, false⟩)
      (h : s'.threads = (s.setFrame t (some ⟨msg, o :: todo, true⟩)).threads) :
      Passage s (.deliver t m) (.called o msg.id) s'
  /-- the target has been destroyed -/
  | skipped {t : τ} {m : Mallocs} {msg : Message} {o : Addr} {todo : List Addr} {x : Object τ}
      {s' : State τ} (hf : (s.threads t).frame = some ⟨msg, o :: todo, false⟩)
      (hx : s.heap o = some x) (hdes : x.destroyed = true)
      (h : s'.threads = (s.setFrame t (some ⟨msg, todo, false⟩)).threads) :
      Passage s (.deliver t m) .done s'
  /-- the destructor timer -/
  | timer {t : τ} {m : Mallocs} {msg : Message} {o : Addr} {todo : List Addr} {x : Object τ}
      {s₁ s' : State τ} (hf : (s.threads t).frame = some ⟨msg, o :: todo, false⟩)
      (hid : msg.id = .timer) (hx : s.heap o = some x) (hdes : x.destroyed = false)
      (hsent : Queued s.threads (some (own .destroy o)) s₁.threads)
      (h : s'.threads = (s₁.setFrame t (some (Frame.next ⟨msg, o :: todo, false⟩ .ok))).threads) :
      Passage s (.deliver t m) .done s'
  | answered {t : τ} {res res' : HandlerResult} {m : Mallocs} {timer : Int} {msg : Message}
      {o : Addr} {todo : List Addr} {s₁ s' : State τ}
      (hf : (s.threads t).frame = some ⟨msg, o :: todo, true⟩)
      (hsent : Queued s.threads (reply msg.id o res timer) s₁.threads)
      (h : s'.threads = (s₁.setFrame t (some (Frame.next ⟨msg, o :: todo, true⟩ res'))).threads) :
      Passage s (.handled t res m timer) .done s'
  | finished {t : τ} {msg : Message} {s' : State τ}
      (hf : (s.threads t).frame = some ⟨msg, [], false⟩)
      (h : s'.threads = (s.setFrame t none).threads) : Passage s (.finish t) .done s'
  | flushed {t : τ} {msg : Message} {msgs : List Message} {s' : State τ}
      (hq : (s.threads t).queue = some ⟨true, msg :: msgs⟩) (hf : (s.threads t).frame = none)
      (h : s'.threads = (s.setThread t ⟨some ⟨true, msgs⟩, none⟩).threads) :
      Passage s (.flush t) .done s'

variable {s s' : State τ} {t : τ} {e : Event τ} {out : Outcome}

/-- Nobody is handed another message by one that is queued. -/
theorem Queued.frame {msg? : Option Message} (h : Queued s.threads msg? s'.threads) (u : τ) :
    (s'.threads u).frame = (s.threads u).frame := by
  cases h with
  | same h => rw [h]
  | @added q _ _ _ _ h =>
    rw [h]
    rcases eq_or_ne u q with rfl | hu
    · simp
    · simp [Function.update_of_ne hu]

theorem putmsg_queued {q : τ} {msg : Message} {m : Mallocs} {ok : Bool}
    (h : putmsg s q msg m = some (s', ok)) : Queued s.threads (some msg) s'.threads := by
  unfold putmsg at h
  split at h
  · cases h
  · rename_i dq hq
    split at h
    · cases h
      exact .added rfl hq rfl
    · obtain ⟨heap, -, hr⟩ := Option.map_eq_some_iff.mp h
      cases hr
      exact .same rfl

theorem sendmsg_queued {dest : List Addr} {id : MessageType} {flags : Nat}
    {payload : Option Int} {m : Mallocs} {ok : Bool}
    (h : sendmsg s dest id flags payload m = some (s', ok)) :
    Queued s.threads (made dest id flags payload) s'.threads := by
  unfold sendmsg at h
  split at h
  · split at h
    · rename_i o os hcast
      simp only [Option.bind_eq_bind, Option.bind_eq_some_iff] at h
      obtain ⟨heap, -, x, -, hput⟩ := h
      have hmade : made (o :: os) id flags payload = some ⟨id, flags, .object o, payload⟩ := by
        unfold made
        rw [hcast]
      rw [hmade]
      exact putmsg_queued (s := { s with heap := heap }) hput
    · rename_i c o os hmany hcast
      split at h
      · simp only [Option.bind_eq_bind, Option.bind_eq_some_iff] at h
        obtain ⟨heap, -, x, -, hput⟩ := h
        have hmade : made (o :: os) id flags payload =
            some ⟨id, flags, .list (o :: os), payload⟩ := by
          unfold made
          rw [hcast]
          cases c with
          | unicast => exact absurd rfl hmany
          | anycast | multicast => rfl
        rw [hmade]
        exact putmsg_queued (s := { s with heap := heap }) hput
      · cases h
        exact .same rfl
    · cases h
  · cases h
    exact .same rfl

theorem objectHandler_queued {o : Addr} {x : Object τ} {id : MessageType}
    {res res' : HandlerResult} {m : Mallocs} {timer : Int}
    (h : objectHandler s o x id res m timer = some (s', res')) :
    Queued s.threads (reply id o res timer) s'.threads := by
  unfold objectHandler at h
  split at h
  · split at h
    · obtain ⟨⟨s₁, ok⟩, hsend, hr⟩ := Option.map_eq_some_iff.mp h
      cases hr
      exact sendmsg_queued (s := s.setObject o { x with destroyed := true }) hsend
    · dsimp only at h
      split at h
      · rename_i htimer
        obtain ⟨⟨s₁, ok⟩, hsend, hr⟩ := Option.map_eq_some_iff.mp h
        cases hr
        rw [show reply .destroy o .continue timer = some (own .destroy o) from if_pos htimer]
        exact sendmsg_queued (s := s.setObject o { x with destroyTimerId := timer }) hsend
      · cases h
        exact .same rfl
  · obtain ⟨heap, -, hr⟩ := Option.map_eq_some_iff.mp h
    cases hr
    exact .same rfl
  · cases h
    exact .same rfl

theorem Frame.next_msg (f : Frame) (res : HandlerResult) : (f.next res).msg = f.msg := by
  unfold Frame.next; split <;> rfl

theorem reply_own {id : MessageType} {o : Addr} {res : HandlerResult} {timer : Int} {msg : Message}
    (h : reply id o res timer = some msg) :
    ∃ id', (id' = .destroy ∨ id' = .cleanup) ∧ own id' o = msg := by
  unfold reply at h
  split at h
  · exact ⟨_, .inr rfl, Option.some.inj h⟩
  · exact ⟨_, .inl rfl, Option.some.inj (Option.ite_none_right_eq_some.mp h).2⟩
  · cases h

theorem leave_threads {f : Frame} {o : Addr} {res : HandlerResult}
    (h : leave s t f o res = some s') :
    s'.threads = (s.setFrame t (some (f.next res))).threads := by
  obtain ⟨x, -, rfl⟩ := Option.map_eq_some_iff.mp h
  rfl

theorem deliver_passage {msg : Message} {o : Addr} {todo : List Addr} {m : Mallocs}
    (hf : (s.threads t).frame = some ⟨msg, o :: todo, false⟩)
    (h : deliver s t ⟨msg, o :: todo, false⟩ o m = some (s', out)) :
    Passage s (.deliver t m) out s' := by
  unfold deliver at h
  simp only [Option.bind_eq_bind, Option.bind_eq_some_iff] at h
  obtain ⟨x, hx, h⟩ := h
  split at h
  · cases h
  split at h
  · rename_i hdes
    split at h
    · cases h
    split at h
    · rename_i htimer
      simp only [Option.bind_eq_some_iff] at h
      obtain ⟨⟨s₁, ok⟩, hsend, x₁, -, s₂, hleave, hout⟩ := h
      cases hout
      exact .timer hf htimer.1 hx (hdes.resolve_right (by simp [htimer.1]))
        (sendmsg_queued hsend)
        (leave_threads (s := s₁.setObject o { x₁ with destroyTimerId := -1 }) hleave)
    · cases h
      exact .called hf rfl
  · rename_i hdes
    cases h
    exact .skipped hf hx (by simpa using (not_or.mp hdes).1) rfl

theorem step_passage (h : step s e = some (s', out)) : Passage s e out s' := by
  cases e with
  | init t =>
    simp only [step] at h
    split at h
    · cases h
      exact .queued nofun nofun (.same rfl)
    · rename_i hq
      cases h
      exact .queue (.inl rfl) (by simp [hq]) rfl
  | new t malloc =>
    simp only [step] at h
    split at h
    · split at h
      · cases h
        exact .queued nofun nofun (.same rfl)
      · cases h
    · cases h
      exact .queued nofun nofun (.same rfl)
  | ref o =>
    obtain ⟨heap, -, hr⟩ := Option.map_eq_some_iff.mp h
    cases hr
    exact .queued nofun nofun (.same rfl)
  | unref o =>
    simp only [step] at h
    split at h
    · cases h
    · obtain ⟨heap, -, hr⟩ := Option.map_eq_some_iff.mp h
      cases hr
      exact .queued nofun nofun (.same rfl)
  | send dest id flags payload m =>
    simp only [step] at h
    split at h
    · cases h
    · rename_i hid
      obtain ⟨⟨s₁, ok⟩, hsend, hr⟩ := Option.map_eq_some_iff.mp h
      cases hr
      refine .queued nofun nofun ?_
      rw [Event.sends, if_neg hid]
      exact sendmsg_queued hsend
  | close t =>
    simp only [step] at h
    split at h
    · cases h
    · rename_i dq hq
      cases h
      refine .queue (.inr rfl) ?_ rfl
      simp [hq]
  | get t =>
    simp only [step] at h
    split at h
    · rename_i hq hf
      cases h
      exact .got hq hf rfl
    · cases h
  | deliver t m =>
    simp only [step] at h
    split at h
    · rename_i hf
      exact deliver_passage hf h
    · cases h
  | handled t res m timer =>
    simp only [step] at h
    split at h
    · rename_i hf
      simp only [Option.bind_eq_bind, Option.bind_eq_some_iff] at h
      obtain ⟨x, -, ⟨s₁, res'⟩, hhandler, s₂, hleave, hr⟩ := h
      cases hr
      exact .answered hf (objectHandler_queued hhandler) (leave_threads hleave)
    · cases h
  | finish t =>
    simp only [step] at h
    split at h
    · rename_i hf
      obtain ⟨heap, -, hr⟩ := Option.map_eq_some_iff.mp h
      cases hr
      exact .finished hf rfl
    · cases h
  | flush t =>
    simp only [step] at h
    split at h
    · rename_i hq hf
      obtain ⟨heap, -, hr⟩ := Option.map_eq_some_iff.mp h
      cases hr
      exact .flushed hq hf rfl
    · cases h

/-! ## Messages stay what they were made -/

/-- Every message in a queue or in dispatch meets `P`. -/
structure Mail (P : Message → Prop) (s : State τ) : Prop where
  queued : ∀ t dq, (s.threads t).queue = some dq → ∀ msg ∈ dq.messages, P msg
  dispatched : ∀ t f, (s.threads t).frame = some f → P f.msg

variable {P : Message → Prop}

namespace Mail

omit [DecidableEq τ] in
theorem init : Mail P (Dispatch.init : State τ) := by
  constructor
  · simp [Dispatch.init]
  · simp [Dispatch.init]

theorem setThread (h : Mail P s) {th : Thread}
    (hq : ∀ dq, th.queue = some dq → ∀ msg ∈ dq.messages, P msg)
    (hf : ∀ f, th.frame = some f → P f.msg) : Mail P (s.setThread t th) := by
  constructor
  · intro u dq hdq
    rcases eq_or_ne u t with rfl | hu
    · simp only [State.setThread, Function.update_self] at hdq
      exact hq dq hdq
    · simp only [State.setThread, Function.update_of_ne hu] at hdq
      exact h.queued u dq hdq
  · intro u f hframe
    rcases eq_or_ne u t with rfl | hu
    · simp only [State.setThread, Function.update_self] at hframe
      exact hf f hframe
    · simp only [State.setThread, Function.update_of_ne hu] at hframe
      exact h.dispatched u f hframe

theorem setFrame (h : Mail P s) {g : Option Frame} (hg : ∀ f, g = some f → P f.msg) :
    Mail P (s.setFrame t g) :=
  h.setThread (h.queued t) hg

/-- The queue of a thread with messages that it had. -/
theorem setQueue (h : Mail P s) {dq dq' : DispatchQueue} (hq : (s.threads t).queue = some dq)
    (hsub : dq'.messages ⊆ dq.messages) {g : Option Frame} (hg : ∀ f, g = some f → P f.msg) :
    Mail P (s.setThread t ⟨some dq', g⟩) := by
  refine h.setThread ?_ hg
  rintro dq'' hdq msg hmsg
  obtain rfl := Option.some.inj hdq
  exact h.queued t dq hq msg (hsub hmsg)

omit [DecidableEq τ] in
theorem of_eq (hs : s'.threads = s.threads) (h : Mail P s) : Mail P s' :=
  ⟨fun u => hs ▸ h.queued u, fun u => hs ▸ h.dispatched u⟩

theorem of_queued (h : Mail P s) {msg? : Option Message} (hP : ∀ msg, msg? = some msg → P msg)
    (hs : Queued s.threads msg? s'.threads) : Mail P s' := by
  cases hs with
  | same hs => exact .of_eq hs h
  | @added q dq msg hmsg hq hs =>
    have hs : s'.threads = (s.setThread q
      ⟨some ⟨dq.closed, dq.messages ++ [msg]⟩, (s.threads q).frame⟩).threads := hs
    refine .of_eq hs (h.setThread ?_ (h.dispatched q))
    rintro dq' hdq' msg' hmsg'
    obtain rfl := Option.some.inj hdq'
    rcases List.mem_append.mp hmsg' with hold | hnew
    · exact h.queued q dq hq msg' hold
    · rw [List.mem_singleton.mp hnew]
      exact hP msg hmsg

theorem of_setFrame {f g : Frame} (hs : s'.threads = (s.setFrame t (some g)).threads)
    (h : Mail P s) (hf : P f.msg) (hg : g.msg = f.msg) : Mail P s' := by
  refine .of_eq hs (h.setFrame ?_)
  rintro g' hg'
  obtain rfl := Option.some.inj hg'
  exact hg ▸ hf

/-- **Messages stay what they were made.** -/
theorem step (h : Mail P s)
    (hown : ∀ id o, id = MessageType.destroy ∨ id = .cleanup → P (own id o))
    (hsends : ∀ msg, e.sends = some msg → P msg)
    (hs : Dispatch.step s e = some (s', out)) : Mail P s' := by
  cases step_passage hs with
  | queued _ _ hs => exact h.of_queued hsends hs
  | @queue _ t dq _ _ hq hs =>
    refine .of_eq hs (h.setThread ?_ (h.dispatched t))
    rintro dq' hdq' msg hmsg
    obtain rfl := Option.some.inj hdq'
    rw [hq] at hmsg
    cases hold : (s.threads t).queue with
    | none => simp [hold] at hmsg
    | some dq => exact h.queued t dq hold msg (by simpa [hold] using hmsg)
  | got hq hf hs =>
    refine .of_eq hs (h.setQueue hq (List.subset_cons_self _ _) ?_)
    rintro g hg
    obtain rfl := Option.some.inj hg
    exact h.queued _ _ hq _ List.mem_cons_self
  | called hf hs | skipped hf _ _ hs => exact .of_setFrame hs h (h.dispatched _ _ hf) rfl
  | timer hf _ _ _ hsent hs =>
    refine .of_setFrame hs (h.of_queued ?_ hsent) (h.dispatched _ _ hf) (Frame.next_msg ..)
    rintro msg hmsg
    obtain rfl := Option.some.inj hmsg
    exact hown _ _ (.inl rfl)
  | answered hf hsent hs =>
    refine .of_setFrame hs (h.of_queued (fun msg hmsg => ?_) hsent) (h.dispatched _ _ hf)
      (Frame.next_msg ..)
    obtain ⟨id, hid, rfl⟩ := reply_own hmsg
    exact hown _ _ hid
  | finished hf hs => exact .of_eq hs (h.setFrame nofun)
  | flushed hq hf hs => exact .of_eq hs (h.setQueue hq (List.subset_cons_self _ _) nofun)

end Mail

end Mediabox.Dispatch
