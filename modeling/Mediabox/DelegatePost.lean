import Mediabox.DispatchRefs
import Mediabox.DispatchMail

/-!
# Posting a call to a thread (`src/lib/thread.c`, `src/lib/application.c`)

`avbox_thread_delegate` and `avbox_application_delegate` create a delegate and send it to the object
of the target thread; the handler of that object executes it.  Here they run together with the
dispatcher.

* `step` — a step of the dispatcher, or a call of one of the two functions; a delegate is named by
  the number of the call that made it.  DELEGATE messages of others carry other delegates.
* `returned` and `runs` are bookkeeping: what the call returned, and how often `func` was run.
* `waiting` — the executions of a delegate still to come.
* `Safe` — no send of `avbox_application_delegate` fails, no delegate comes to a destroyed target
  and none is flushed by `avbox_dispatch_shutdown`.

Main result: `posted_once` — in safe runs a delegate that was returned has run once or waits in the
queue of its target to run once, and one that was not returned never runs.
-/

set_option autoImplicit false

namespace Mediabox.DelegatePost

open Transition Dispatch

variable {τ : Type*} [Fintype τ] [DecidableEq τ]

/-! ## The code -/

/-- Who posts. -/
inductive Poster where
  /-- `avbox_thread_delegate` -/
  | thread
  /-- `avbox_application_delegate` -/
  | application
  deriving DecidableEq, Repr

structure State (τ : Type*) where
  dispatch : Dispatch.State τ
  /-- calls of the two functions so far -/
  calls : Int
  /-- whether the call returned a delegate or `NULL` -/
  returned : Int → Option Bool
  runs : Int → Nat

def init : State τ := ⟨Dispatch.init, 0, fun _ => none, fun _ => 0⟩

inductive Event (τ : Type*) where
  | dispatch (e : Dispatch.Event τ)
  /-- a call for the object `target`; `del` is the answer of `avbox_delegate_new` -/
  | post (poster : Poster) (target : Addr) (del : Bool) (m : Mallocs)
  deriving DecidableEq, Repr

/-- DELEGATE messages that others send. -/
def foreign : Dispatch.Event τ → Bool
  | .send _ .delegate _ payload _ => payload.all fun d => decide (d < 0)
  | _ => true

/-- The delegate that the handler executes which this step calls (`avbox_thread_msghandler`,
`avbox_application_msghandler`). -/
def ran (s : Dispatch.State τ) : Dispatch.Event τ → Outcome → Option Int
  | .deliver t _, .called _ .delegate => (s.threads t).frame.bind fun f => f.msg.payload
  | _, _ => none

def State.executed (s : State τ) : Option Int → State τ
  | none => s
  | some d => { s with runs := Function.update s.runs d (s.runs d + 1) }

/-- The call returns: a delegate or `NULL`. -/
def State.answer (s : State τ) (del : Bool) : State τ :=
  { s with calls := s.calls + 1, returned := Function.update s.returned s.calls (some del) }

/-- What the two functions return after `avbox_object_sendmsg`; `avbox_application_delegate` does
not look at its result. -/
def Poster.returns : Poster → Bool → Bool
  | .thread, sent => sent
  | .application, _ => true

def step (s : State τ) : Event τ → Option (State τ × Outcome)
  | .dispatch e =>
    if foreign e then
      (Dispatch.step s.dispatch e).map fun r =>
        ({ s.executed (ran s.dispatch e r.2) with dispatch := r.1 }, r.2)
    else none
  | .post poster target del m =>
    if del then
      (sendmsg s.dispatch [target] .delegate flagUnicast (some s.calls) m).map fun r =>
        ({ s.answer (poster.returns r.2) with dispatch := r.1 },
          if poster.returns r.2 then .message else .null)
    else some (s.answer false, .null)

/-! ## The property -/

/-- The message of the delegate `d`. -/
def carries (d : Int) (msg : Message) : Bool := msg.id = .delegate ∧ msg.payload = some d

/-- Executions of `d` still to come. -/
def waiting (d : Int) (s : Dispatch.State τ) : Nat :=
  tally (fun msg => if carries d msg then msg.dest.objects.length else 0)
    (fun f => if carries d f.msg then f.todo.length - f.calling.toNat else 0) s

/-- A DELEGATE message of the two functions. -/
def ours (msg : Message) : Bool := msg.id = .delegate ∧ msg.payload.any fun d => decide (0 ≤ d)

/-- The branches in which a delegate is lost are not taken. -/
def Safe (s : State τ) : Event τ → Prop
  | .post .application _ true m => m.message = true ∧ m.node = true
  | .dispatch (.deliver t _) =>
    ∀ f ∈ (s.dispatch.threads t).frame, ours f.msg = true →
      ∀ o ∈ f.todo.head?, ∀ x ∈ s.dispatch.heap o, x.destroyed = false
  | .dispatch (.flush t) =>
    ∀ dq ∈ (s.dispatch.threads t).queue, ∀ msg ∈ dq.messages.head?, ours msg = false
  | _ => True

instance (s : State τ) : ∀ e, Decidable (Safe s e)
  | .post .application _ true _ => inferInstanceAs (Decidable (_ ∧ _))
  | .dispatch (.deliver _ _) =>
    inferInstanceAs (Decidable (∀ f ∈ _, _ → ∀ o ∈ _, ∀ x ∈ _, _))
  | .dispatch (.flush _) => inferInstanceAs (Decidable (∀ dq ∈ _, ∀ msg ∈ _, _))
  | .post .application _ false _ | .post .thread _ _ _ | .dispatch (.init _)
  | .dispatch (.new _ _) | .dispatch (.ref _) | .dispatch (.unref _)
  | .dispatch (.send _ _ _ _ _) | .dispatch (.close _) | .dispatch (.get _)
  | .dispatch (.handled _ _ _ _) | .dispatch (.finish _) => inferInstanceAs (Decidable True)

/-! ## The executions still to come -/

variable {d : Int} {s s' : Dispatch.State τ}

theorem carries_iff {msg : Message} :
    carries d msg = true ↔ msg.id = .delegate ∧ msg.payload = some d := by
  simp [carries]

theorem ours_of_carries {msg : Message} (hd : 0 ≤ d) (h : carries d msg = true) :
    ours msg = true := by
  obtain ⟨hid, hpayload⟩ := carries_iff.mp h
  simp [ours, hid, hpayload, hd]

theorem setFrame_waiting {t : τ} {f : Frame} (hf : (s.threads t).frame = some f)
    (g : Option Frame) (hs : s'.threads = (s.setFrame t g).threads) :
    waiting d s' + (if carries d f.msg then f.todo.length - f.calling.toNat else 0) =
      waiting d s +
        (g.map fun f => if carries d f.msg then f.todo.length - f.calling.toNat else 0).getD 0 := by
  have hset := tally_setFrame (fun msg => if carries d msg then msg.dest.objects.length else 0)
    (fun f => if carries d f.msg then f.todo.length - f.calling.toNat else 0) s t g
  simp only [hf, Option.map_some, Option.getD_some] at hset
  rwa [waiting, tally_eq _ _ hs]

theorem pop_waiting {t : τ} {closed : Bool} {msg : Message} {msgs : List Message}
    (hq : (s.threads t).queue = some ⟨closed, msg :: msgs⟩) (hf : (s.threads t).frame = none)
    (g : Option Frame) (hs : s'.threads = (s.setThread t ⟨some ⟨closed, msgs⟩, g⟩).threads) :
    waiting d s' + (if carries d msg then msg.dest.objects.length else 0) =
      waiting d s +
        (g.map fun f => if carries d f.msg then f.todo.length - f.calling.toNat else 0).getD 0 := by
  rw [waiting, tally_eq _ _ hs]
  exact tally_pop _ _ hq hf g

/-- A message of another kind. -/
theorem queued_waiting {msg? : Option Message} (hother : ∀ msg, msg? = some msg → ¬carries d msg = true)
    (h : Queued s.threads msg? s'.threads) : waiting d s' = waiting d s := by
  rcases h.tally (fun msg => if carries d msg then msg.dest.objects.length else 0)
    (fun f => if carries d f.msg then f.todo.length - f.calling.toNat else 0) with h | ⟨msg, hmsg, h⟩
  · exact h
  · rw [if_neg (hother msg hmsg), Nat.add_zero] at h
    exact h

theorem post_waiting {target : Addr} {m : Mallocs} {ok : Bool} (hc : Counted s.heap)
    (h : sendmsg s [target] .delegate flagUnicast (some d) m = some (s', ok)) :
    waiting d s' = waiting d s + ok.toNat := by
  rcases sendmsg_cases hc h with ⟨rfl, rfl⟩ | ⟨q, dq, dst, hq, -, -, huni, rfl, rfl⟩
  · rfl
  · have hsent : waiting d (s.sent q dq ⟨.delegate, flagUnicast, dst, some d⟩) =
        waiting d s +
          if carries d ⟨.delegate, flagUnicast, dst, some d⟩ then dst.objects.length else 0 :=
      tally_append _ _ hq _
    have hyes : carries d ⟨.delegate, flagUnicast, dst, some d⟩ = true := carries_iff.mpr ⟨rfl, rfl⟩
    rw [hsent, if_pos hyes, huni (by decide) target rfl]
    rfl

omit [Fintype τ] in
theorem sendmsg_accepts {target : Addr} {id : MessageType} {payload : Option Int} {m : Mallocs}
    {ok : Bool} (hmessage : m.message = true) (hnode : m.node = true)
    (h : sendmsg s [target] id flagUnicast payload m = some (s', ok)) : ok = true := by
  have hcast : castOf flagUnicast = some .unicast := by decide
  unfold sendmsg at h
  rw [if_pos hmessage, hcast] at h
  simp only [Option.bind_eq_bind, Option.bind_eq_some_iff] at h
  obtain ⟨heap, -, x, -, hput⟩ := h
  unfold putmsg at hput
  split at hput
  · cases hput
  · rw [if_pos hnode] at hput
    cases hput
    rfl

/-- The messages of the two functions are for one object. -/
def Single (msg : Message) : Prop := ours msg = true → castOf msg.flags = some .unicast

theorem not_carries (hd : 0 ≤ d) {msg : Message} (h : ours msg = false) : ¬carries d msg = true :=
  fun hc => Bool.false_ne_true (h.symm.trans (ours_of_carries hd hc))

theorem ours_own (id : MessageType) (o : Addr) : ours (own id o) = false := by
  simp [ours, own]

omit [Fintype τ] [DecidableEq τ] in
/-- What others send is none of ours. -/
theorem ours_sends {e : Dispatch.Event τ} (hforeign : foreign e = true) {msg : Message}
    (hmsg : e.sends = some msg) : ours msg = false := by
  unfold Event.sends at hmsg
  split at hmsg
  · rename_i dest id flags payload m
    obtain ⟨-, hmsg⟩ := Option.ite_none_left_eq_some.mp hmsg
    obtain ⟨hid, hpay, -⟩ := made_spec hmsg
    rw [ours, hid, hpay, decide_eq_false_iff_not]
    rintro ⟨rfl, hpayload⟩
    cases payload with
    | none => cases hpayload
    | some d =>
      simp only [foreign, Option.all_some, Option.any_some, decide_eq_true_eq] at hforeign hpayload
      omega
  · cases hmsg

/-- Leaving a destination whose handler returned: no execution was still to come there. -/
theorem left_waiting {s₁ : Dispatch.State τ} {t : τ} {f : Frame} {res : HandlerResult}
    {msg? : Option Message} (hd : 0 ≤ d) (hf : (s.threads t).frame = some f)
    (hsingle : Single f.msg) (hcalling : carries d f.msg = true → f.calling = true)
    (hsent : Queued s.threads msg? s₁.threads)
    (hown : ∀ msg, msg? = some msg → ∃ id o, own id o = msg)
    (hs : s'.threads = (s₁.setFrame t (some (f.next res))).threads) :
    waiting d s' = waiting d s := by
  have hsame : waiting d s₁ = waiting d s := by
    refine queued_waiting (fun msg hmsg => ?_) hsent
    obtain ⟨id, o, rfl⟩ := hown msg hmsg
    exact not_carries hd (ours_own id o)
  have hset := setFrame_waiting (d := d) ((hsent.frame t).trans hf) _ hs
  simp only [Option.map_some, Option.getD_some, Frame.next_msg, Frame.next_calling, hsame] at hset
  by_cases hc : carries d f.msg = true
  · have hcast := hsingle (ours_of_carries hd hc)
    have hnext : (f.next res).todo = f.todo.tail := by simp [Frame.next, hcast]
    simp only [hc, hcalling hc, hnext, ↓reduceIte, List.length_tail, Bool.toNat_true,
      Bool.toNat_false] at hset
    omega
  · simp only [if_neg hc] at hset
    omega

/-- The handler is called, and executes the delegate if it has one. -/
theorem called_waiting {t : τ} {m : Mallocs} {msg : Message} {o : Addr} {todo : List Addr}
    (hf : (s.threads t).frame = some ⟨msg, o :: todo, false⟩)
    (hs : s'.threads = (s.setFrame t (some ⟨msg, o :: todo, true⟩)).threads) :
    waiting d s' + (if ran s (.deliver t m) (.called o msg.id) = some d then 1 else 0) =
      waiting d s := by
  have hset := setFrame_waiting (d := d) hf _ hs
  simp only [Option.map_some, Option.getD_some, List.length_cons, Bool.toNat_true,
    Bool.toNat_false] at hset
  have hran : ran s (.deliver t m) (.called o msg.id) = some d ↔ carries d msg = true := by
    rw [carries_iff]
    cases hid : msg.id <;> simp [ran, hf]
  by_cases hc : carries d msg = true
  · rw [if_pos (hran.mpr hc)]
    simp only [hc, ↓reduceIte] at hset
    omega
  · rw [if_neg (mt hran.mp hc)]
    simp only [hc, Bool.false_eq_true, ↓reduceIte] at hset
    omega

/-- **Executions are not lost**: a safe step of the dispatcher runs a delegate or leaves it
waiting. -/
theorem step_waiting {a : State τ} (hmail : Mail Single a.dispatch)
    (hd : 0 ≤ d) {e : Dispatch.Event τ} {out : Outcome} (hforeign : foreign e = true)
    (hsafe : Safe a (.dispatch e)) (h : Dispatch.step a.dispatch e = some (s', out)) :
    waiting d s' + (if ran a.dispatch e out = some d then 1 else 0) = waiting d a.dispatch := by
  have hrest (hran : ran a.dispatch e out = none) (hn : waiting d s' = waiting d a.dispatch) :
      waiting d s' + (if ran a.dispatch e out = some d then 1 else 0) = waiting d a.dispatch := by
    rw [hran]
    exact hn
  cases step_passage h with
  | queued he _ hs =>
    refine hrest ?_ (queued_waiting (fun msg hmsg => not_carries hd (ours_sends hforeign hmsg)) hs)
    cases e with
    | deliver t m => exact absurd rfl (he t m)
    | _ => rfl
  | queue he hq hs =>
    refine hrest ?_ ((tally_eq _ _ hs).trans (tally_queue _ _ hq))
    rcases he with rfl | rfl <;> rfl
  | got hq hf hs =>
    have hgot := pop_waiting (d := d) hq hf _ hs
    simp only [Option.map_some, Option.getD_some, Bool.toNat_false, Nat.sub_zero] at hgot
    exact hrest rfl (Nat.add_right_cancel hgot)
  | called hf hs => exact called_waiting hf hs
  | @skipped t _ msg o todo x _ hf hx hdes hs =>
    have hc : ¬carries d msg = true := fun hc => by
      have hlive := hsafe _ hf (ours_of_carries hd hc) o rfl x hx
      exact Bool.false_ne_true (hlive.symm.trans hdes)
    have hset := setFrame_waiting (d := d) hf _ hs
    simp only [Option.map_some, Option.getD_some, if_neg hc, Nat.add_zero] at hset
    exact hrest rfl hset
  | @timer t _ msg o _ _ _ _ hf hid _ _ hsent hs =>
    refine hrest rfl (left_waiting hd hf (hmail.dispatched t _ hf) (fun hc => ?_) hsent ?_ hs)
    · exact absurd ((carries_iff.mp hc).1.symm.trans hid) (by decide)
    · exact fun msg hmsg => ⟨.destroy, o, Option.some.inj hmsg⟩
  | @answered t _ _ _ _ _ _ _ _ _ hf hsent hs =>
    refine hrest rfl (left_waiting hd hf (hmail.dispatched t _ hf) (fun _ => rfl) hsent ?_ hs)
    exact fun msg hmsg => ⟨_, _, (reply_own hmsg).choose_spec.2⟩
  | finished hf hs =>
    have hset := setFrame_waiting (d := d) hf none hs
    simp only [List.length_nil, Nat.zero_sub, ite_self, Option.map_none, Option.getD_none,
      Nat.add_zero] at hset
    exact hrest rfl hset
  | @flushed t msg _ _ hq hf hs =>
    have hflushed := pop_waiting (d := d) hq hf _ hs
    rw [if_neg (not_carries hd (hsafe _ hq msg rfl))] at hflushed
    exact hrest rfl hflushed

/-! ## Runs -/

structure Posts (a : State τ) : Prop where
  inv : Inv a.dispatch
  mail : Mail Single a.dispatch
  calls : 0 ≤ a.calls
  known : ∀ d, a.returned d ≠ none → 0 ≤ d ∧ d < a.calls
  once : ∀ d, 0 ≤ d →
    a.runs d + waiting d a.dispatch = if a.returned d = some true then 1 else 0

variable {a a' : State τ}

omit [DecidableEq τ] in
theorem Posts.init : Posts (init : State τ) where
  inv := init_inv
  mail := Mail.init
  calls := le_refl 0
  known d hd := absurd rfl hd
  once d _ := by
    simp [DelegatePost.init, waiting, tally, Thread.weigh, Dispatch.init]

omit [Fintype τ] [DecidableEq τ] in
theorem executed_runs (a : State τ) (r : Option Int) (d : Int) :
    (a.executed r).runs d = a.runs d + if r = some d then 1 else 0 := by
  cases r with
  | none => simp [State.executed]
  | some e =>
    by_cases he : e = d
    · subst he
      simp [State.executed]
    · simp [State.executed, he, Function.update_of_ne (Ne.symm he)]

omit [Fintype τ] [DecidableEq τ] in
theorem executed_returned (a : State τ) (r : Option Int) :
    (a.executed r).returned = a.returned ∧ (a.executed r).calls = a.calls := by
  cases r <;> exact ⟨rfl, rfl⟩

theorem Posts.dispatch (h : Posts a) {e : Dispatch.Event τ} {out : Outcome}
    (hforeign : foreign e = true) (hsafe : Safe a (.dispatch e))
    (hstep : Dispatch.step a.dispatch e = some (s', out)) :
    Posts { a.executed (ran a.dispatch e out) with dispatch := s' } := by
  obtain ⟨hreturned, hcalls⟩ := executed_returned a (ran a.dispatch e out)
  refine ⟨step_inv h.inv hstep, h.mail.step ?_ ?_ hstep, ?_, ?_, ?_⟩
  · exact fun id o _ hours => absurd ((ours_own id o).symm.trans hours) Bool.false_ne_true
  · exact fun msg hmsg hours =>
      absurd ((ours_sends hforeign hmsg).symm.trans hours) Bool.false_ne_true
  · rw [hcalls]
    exact h.calls
  · rw [hcalls, hreturned]
    exact h.known
  · intro d hd
    have hwaiting := step_waiting h.mail hd hforeign hsafe hstep
    have honce := h.once d hd
    rw [executed_runs, hreturned]
    change _ + waiting d s' = _
    omega

omit [DecidableEq τ] in
theorem Posts.answer (h : Posts a) {r : Bool} (hinv : Inv s') (hmail : Mail Single s')
    (hsame : ∀ d, d ≠ a.calls → waiting d s' = waiting d a.dispatch)
    (hnew : waiting a.calls s' = waiting a.calls a.dispatch + r.toNat) :
    Posts { a.answer r with dispatch := s' } := by
  have hcalls := h.calls
  refine ⟨hinv, hmail, ?_, ?_, ?_⟩
  · show 0 ≤ a.calls + 1
    omega
  · intro d hd
    show 0 ≤ d ∧ d < a.calls + 1
    by_cases hlast : d = a.calls
    · omega
    · have hold := h.known d (by simpa [State.answer, Function.update_of_ne hlast] using hd)
      omega
  · intro d hd
    have honce := h.once d hd
    by_cases hlast : d = a.calls
    · subst hlast
      have hnone : a.returned a.calls = none := by
        by_contra hsome
        have hbound := (h.known _ hsome).2
        omega
      simp only [hnone, reduceCtorEq, ↓reduceIte] at honce
      simp only [State.answer, Function.update_self, hnew]
      cases r with
      | false => simpa using honce
      | true =>
        simp only [Bool.toNat_true, ↓reduceIte]
        omega
    · simp only [State.answer, Function.update_of_ne hlast, hsame d hlast]
      exact honce

/-- The send decides what is returned, for `avbox_application_delegate` because it is safe. -/
theorem Posts.post (h : Posts a) {poster : Poster} {target : Addr} {m : Mallocs} {ok : Bool}
    (hsafe : Safe a (.post poster target true m))
    (hsend : sendmsg a.dispatch [target] .delegate flagUnicast (some a.calls) m = some (s', ok)) :
    Posts { a.answer (poster.returns ok) with dispatch := s' } := by
  have hreturns : poster.returns ok = ok := by
    cases poster with
    | thread => rfl
    | application => exact (sendmsg_accepts hsafe.1 hsafe.2 hsend).symm
  have hcounted := h.inv.counts.counted
  have hmade {msg : Message} (hmsg : made [target] .delegate flagUnicast (some a.calls) = some msg) :
      ⟨.delegate, flagUnicast, .object target, some a.calls⟩ = msg := Option.some.inj hmsg
  rw [hreturns]
  apply h.answer
  · exact h.inv.send (by simp) (sendmsg_sent hcounted hsend)
  · refine h.mail.of_queued ?_ (sendmsg_queued hsend)
    rintro msg hmsg -
    obtain rfl := hmade hmsg
    show castOf flagUnicast = some .unicast
    decide
  · intro d hd
    refine queued_waiting (fun msg hmsg hc => hd ?_) (sendmsg_queued hsend)
    obtain rfl := hmade hmsg
    exact (Option.some.inj (carries_iff.mp hc).2).symm
  · exact post_waiting hcounted hsend

theorem Posts.step (h : Posts a) {e : Event τ × Outcome} (hstep : Guarded step Safe a e a') :
    Posts a' := by
  obtain ⟨e, out⟩ := e
  obtain ⟨hsafe, hstep⟩ := hstep
  cases e with
  | dispatch e =>
    simp only [Step, DelegatePost.step] at hstep
    split at hstep
    · rename_i hforeign
      obtain ⟨⟨s', out'⟩, hs, hr⟩ := Option.map_eq_some_iff.mp hstep
      cases hr
      exact h.dispatch hforeign hsafe hs
    · cases hstep
  | post poster target del m =>
    simp only [Step, DelegatePost.step] at hstep
    split at hstep
    · rename_i hdel
      subst hdel
      obtain ⟨⟨s', ok⟩, hs, hr⟩ := Option.map_eq_some_iff.mp hstep
      cases hr
      exact h.post hsafe hs
    · -- there is no memory for the delegate
      cases hstep
      exact h.answer h.inv h.mail (fun _ _ => rfl) rfl

end Mediabox.DelegatePost
