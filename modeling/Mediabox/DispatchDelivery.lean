import Mediabox.DispatchMail

/-!
# The delivery of a message (`src/lib/dispatch.c`)

`avbox_message_dispatch` as one call, with its loops over the destinations and
`avbox_dispatch_freemsg` as they are written.

* `World` — everything the call meets is arbitrary: who holds the lock of a destination, when it is
  destroyed, what its handler does and answers, and what other threads do meanwhile.
* `Act` — the call keeps a journal of the destinations it visits, the references it drops and the
  release of the message.  `Plays` — what a journal says is what the world answered in the state that
  was reached then, and its acts lead from the first state to the last one.
* `castLoop_frame` — after each turn the loops go on with the destinations that `Frame.next` leaves.
* `Posted` — the messages in the queues are what `avbox_object_sendmsg` makes them: one object or a
  copied list, and CLEANUP for one object only.

Main result: `delivery` — dispatching any message that a run of the dispatcher can queue visits the
destinations as its cast says, then drops each reference once, then releases the message.
-/

set_option autoImplicit false

namespace Mediabox.DispatchDelivery

open Transition Dispatch

/-! ## `avbox_message_dispatch` -/

/-- What the call meets. -/
structure World (σ : Type*) where
  /-- `pthread_mutex_lock(&dest->lock)` -/
  lock : σ → Addr → σ
  /-- `pthread_mutex_unlock(&dest->lock)` -/
  unlock : σ → Addr → σ
  destroyed : σ → Addr → Bool
  /-- `avbox_object_handler` -/
  objectHandler : σ → Addr → Message → σ × HandlerResult
  /-- `avbox_object_unref` -/
  objectUnref : σ → Addr → σ
  /-- `release_message` -/
  releaseMessage : σ → σ

/-- A turn of a loop: the destination, its flag, and the answer of its handler if it was called. -/
structure Visit where
  object : Addr
  destroyed : Bool
  result : Option HandlerResult
  deriving DecidableEq, Repr

inductive Act where
  | visit (v : Visit)
  | unref (o : Addr)
  | release
  deriving DecidableEq, Repr

variable {σ : Type*} (w : World σ) (msg : Message)

/-- The inside of the loops, under the lock of the destination. -/
def visit (o : Addr) (s : σ) : σ × Visit :=
  let s := w.lock s o
  let destroyed := w.destroyed s o
  if destroyed = false ∨ msg.id = .cleanup then
    let (s, res) := w.objectHandler s o msg
    (w.unlock s o, ⟨o, destroyed, some res⟩)
  else
    (w.unlock s o, ⟨o, destroyed, none⟩)

/-- The loop of `AVBOX_DISPATCH_ANYCAST`. -/
def anycastLoop : List Addr → σ → σ × List Visit
  | [], s => (s, [])
  | o :: dest, s =>
    let (s, v) := visit w msg o s
    if v.result = some .ok then (s, [v])
    else
      let (s, vs) := anycastLoop dest s
      (s, v :: vs)

/-- The loop of `AVBOX_DISPATCH_MULTICAST`. -/
def multicastLoop : List Addr → σ → σ × List Visit
  | [], s => (s, [])
  | o :: dest, s =>
    let (s, v) := visit w msg o s
    let (s, vs) := multicastLoop dest s
    (s, v :: vs)

/-- The loop of `avbox_dispatch_freemsg`. -/
def unrefLoop : List Addr → σ → σ × List Act
  | [], s => (s, [])
  | o :: dest, s =>
    let (s, acts) := unrefLoop dest (w.objectUnref s o)
    (s, .unref o :: acts)

/-- `avbox_dispatch_freemsg` -/
def freemsg (s : σ) : σ × List Act :=
  let (s, acts) := match msg.dest with
    | .object o => (w.objectUnref s o, [Act.unref o])
    | .list dest => unrefLoop w dest s
  (w.releaseMessage s, acts ++ [Act.release])

/-- The end of every case: what was visited, and then `avbox_dispatch_freemsg`. -/
def leave (s : σ) (visits : List Visit) : σ × List Act :=
  let (s, acts) := freemsg w msg s
  (s, visits.map .visit ++ acts)

/-- `avbox_message_dispatch`; a cast that does not fit the destination would read one object as a
list of them, or the other way round. -/
def messageDispatch (s : σ) : Option (σ × List Act) :=
  match castOf msg.flags, msg.dest with
  | some .anycast, .list dest =>
    let (s, visits) := anycastLoop w msg dest s
    some (leave w msg s visits)
  | some .unicast, .object o =>
    let (s, v) := visit w msg o s
    some (leave w msg s [v])
  | some .multicast, .list dest =>
    let (s, visits) := multicastLoop w msg dest s
    some (leave w msg s visits)
  | _, _ => none

/-! ## The property -/

/-- The destinations visited, in order, and where an anycast stops. -/
def Covers (cast : Option Cast) (dest : List Addr) (visits : List Visit) : Prop :=
  match cast with
  | some .anycast =>
    visits.map Visit.object <+: dest ∧ (∀ v ∈ visits.dropLast, v.result ≠ some .ok) ∧
      (visits.map Visit.object = dest ∨ ∃ v ∈ visits.getLast?, v.result = some .ok)
  | _ => visits.map Visit.object = dest

/-- What an act does to the world. -/
def perform (x : σ) : Act → σ
  | .visit ⟨o, _, none⟩ => w.unlock (w.lock x o) o
  | .visit ⟨o, _, some _⟩ => w.unlock (w.objectHandler (w.lock x o) o msg).1 o
  | .unref o => w.objectUnref x o
  | .release => w.releaseMessage x

/-- What the journal says of a visit is what the world answers, under the lock of the destination. -/
def Answers (x : σ) : Act → Prop
  | .visit v => v.destroyed = w.destroyed (w.lock x v.object) v.object ∧
      ∀ res ∈ v.result, res = (w.objectHandler (w.lock x v.object) v.object msg).2
  | .unref _ | .release => True

/-- The acts are performed one after the other, each in the state that those before have left. -/
def Plays : σ → List Act → σ → Prop
  | x, [], x' => x' = x
  | x, a :: acts, x' => Answers w msg x a ∧ Plays (perform w msg x a) acts x'

/-- **Delivery**: handlers are called in the order of the list, once for each occurrence that is not
destroyed when its turn comes (a CLEANUP, which is for one object, is for a destroyed one); all the
references are dropped after that, and the message is released once; and nothing else is done. -/
def Delivered (x x' : σ) (acts : List Act) : Prop :=
  (∃ visits : List Visit,
    acts = visits.map .visit ++ (msg.dest.objects.map .unref ++ [Act.release]) ∧
    Covers (castOf msg.flags) msg.dest.objects visits ∧
    ∀ v ∈ visits, v.result ≠ none ↔
      v.destroyed = false ∨ castOf msg.flags = some .unicast ∧ msg.id = .cleanup) ∧
  Plays w msg x acts x'

/-! ## The loops -/

variable {w msg}

theorem visit_object (o : Addr) (s : σ) : (visit w msg o s).2.object = o := by
  unfold visit
  dsimp only
  split <;> rfl

/-- Destroyed destinations are skipped, and only they. -/
theorem visit_called (o : Addr) (s : σ) : (visit w msg o s).2.result ≠ none ↔
    (visit w msg o s).2.destroyed = false ∨ msg.id = .cleanup := by
  unfold visit
  dsimp only
  split
  · rename_i h
    simpa using h
  · rename_i h
    simpa using not_or.mp h

/-- What a turn leaves to be visited, as `Dispatch` has it. -/
def todoAfter (msg : Message) (dest : List Addr) (v : Visit) : List Addr :=
  match v.result with
  | none => dest.tail
  | some res => (Frame.next ⟨msg, dest, true⟩ res).todo

/-- The loop of a cast that has one. -/
def castLoop (w : World σ) (msg : Message) : List Addr → σ → σ × List Visit :=
  if castOf msg.flags = some .anycast then anycastLoop w msg else multicastLoop w msg

/-- **The loops are the frames of the dispatcher**: a turn, and then the destinations that
`Frame.next` leaves. -/
theorem castLoop_frame (o : Addr) (dest : List Addr) (s : σ) :
    castLoop w msg (o :: dest) s =
      let (s', v) := visit w msg o s
      let (s'', vs) := castLoop w msg (todoAfter msg (o :: dest) v) s'
      (s'', v :: vs) := by
  unfold castLoop todoAfter Frame.next
  split
  · rename_i hcast
    simp only [anycastLoop, hcast, true_and]
    cases hres : (visit w msg o s).2.result with
    | none => simp
    | some res => cases res <;> simp [anycastLoop]
  · rename_i hcast
    simp only [multicastLoop, hcast, false_and, if_false]
    cases (visit w msg o s).2.result <;> rfl

theorem anycastLoop_visited (dest : List Addr) (s : σ) :
    ∀ v ∈ (anycastLoop w msg dest s).2, ∃ o x, v = (visit w msg o x).2 := by
  induction dest generalizing s with
  | nil => simp [anycastLoop]
  | cons o dest ih =>
    intro v hv
    simp only [anycastLoop] at hv
    split at hv
    · exact ⟨o, s, List.mem_singleton.mp hv⟩
    · rcases List.mem_cons.mp hv with rfl | hv
      · exact ⟨o, s, rfl⟩
      · exact ih _ v hv

theorem multicastLoop_visited (dest : List Addr) (s : σ) :
    ∀ v ∈ (multicastLoop w msg dest s).2, ∃ o x, v = (visit w msg o x).2 := by
  induction dest generalizing s with
  | nil => simp [multicastLoop]
  | cons o dest ih =>
    intro v hv
    rcases List.mem_cons.mp hv with rfl | hv
    · exact ⟨o, s, rfl⟩
    · exact ih _ v hv

theorem multicastLoop_covers (dest : List Addr) (s : σ) :
    (multicastLoop w msg dest s).2.map Visit.object = dest := by
  induction dest generalizing s with
  | nil => rfl
  | cons o dest ih => simp [multicastLoop, visit_object, ih]

/-- The anycast loop stops after the first OK, and only there. -/
theorem anycastLoop_covers (dest : List Addr) (s : σ) :
    Covers (some .anycast) dest (anycastLoop w msg dest s).2 := by
  induction dest generalizing s with
  | nil => simp [Covers, anycastLoop]
  | cons o dest ih =>
    simp only [anycastLoop]
    split
    · rename_i hok
      refine ⟨?_, by simp, .inr ⟨_, rfl, hok⟩⟩
      simp [visit_object, List.prefix_cons_iff]
    · rename_i hgo
      obtain ⟨hfront, hbefore, hlast⟩ := ih (visit w msg o s).1
      refine ⟨?_, ?_, ?_⟩
      · simpa [visit_object, List.prefix_cons_iff] using hfront
      · intro v hv
        -- the turn that went on, or one before the last of the rest
        cases hrest : (anycastLoop w msg dest (visit w msg o s).1).2 with
        | nil => simp [hrest] at hv
        | cons u us =>
          rw [hrest] at hv hbefore
          rcases List.mem_cons.mp hv with rfl | hv
          · exact hgo
          · exact hbefore v hv
      · rcases hlast with hall | ⟨v, hv, hok⟩
        · left
          simp [visit_object, hall]
        · right
          refine ⟨v, ?_, hok⟩
          rw [List.getLast?_cons, Option.mem_def.mp hv]
          rfl

theorem unrefLoop_acts (dest : List Addr) (s : σ) :
    (unrefLoop w dest s).2 = dest.map .unref := by
  induction dest generalizing s with
  | nil => rfl
  | cons o dest ih => simp [unrefLoop, ih]

theorem freemsg_acts (s : σ) :
    (freemsg w msg s).2 = msg.dest.objects.map .unref ++ [Act.release] := by
  unfold freemsg
  cases msg.dest with
  | object o => rfl
  | list dest => simp [unrefLoop_acts, Dest.objects]

theorem Plays.append {x y z : σ} {acts acts' : List Act} (h : Plays w msg x acts y)
    (h' : Plays w msg y acts' z) : Plays w msg x (acts ++ acts') z := by
  induction acts generalizing x with
  | nil =>
    cases h
    exact h'
  | cons a acts ih => exact ⟨h.1, ih h.2⟩

theorem visit_plays (o : Addr) (s : σ) :
    Plays w msg s [.visit (visit w msg o s).2] (visit w msg o s).1 := by
  unfold visit
  dsimp only
  split
  · exact ⟨⟨rfl, fun res hres => (Option.some.inj hres).symm⟩, rfl⟩
  · exact ⟨⟨rfl, fun _ hres => nomatch hres⟩, rfl⟩

theorem anycastLoop_plays (dest : List Addr) (s : σ) :
    Plays w msg s ((anycastLoop w msg dest s).2.map .visit) (anycastLoop w msg dest s).1 := by
  induction dest generalizing s with
  | nil => rfl
  | cons o dest ih =>
    simp only [anycastLoop]
    split
    · exact visit_plays o s
    · exact (visit_plays o s).append (ih _)

theorem multicastLoop_plays (dest : List Addr) (s : σ) :
    Plays w msg s ((multicastLoop w msg dest s).2.map .visit) (multicastLoop w msg dest s).1 := by
  induction dest generalizing s with
  | nil => rfl
  | cons o dest ih => exact (visit_plays o s).append (ih _)

theorem unrefLoop_plays (dest : List Addr) (s : σ) :
    Plays w msg s (unrefLoop w dest s).2 (unrefLoop w dest s).1 := by
  induction dest generalizing s with
  | nil => rfl
  | cons o dest ih => exact ⟨trivial, ih _⟩

theorem freemsg_plays (s : σ) : Plays w msg s (freemsg w msg s).2 (freemsg w msg s).1 := by
  unfold freemsg
  cases msg.dest with
  | object o => exact ⟨trivial, trivial, rfl⟩
  | list dest => exact (unrefLoop_plays dest s).append ⟨trivial, rfl⟩

/-- The end of a case plays on from where the visits have led. -/
theorem leave_plays {x y : σ} {visits : List Visit} (h : Plays w msg x (visits.map .visit) y) :
    Plays w msg x (leave w msg y visits).2 (leave w msg y visits).1 :=
  h.append (freemsg_plays y)

/-! ## The messages in the queues -/

/-- A message as `avbox_object_sendmsg` makes it. -/
structure Posted (msg : Message) : Prop where
  dest : (castOf msg.flags = some .unicast ∧ ∃ o, msg.dest = .object o) ∨
    (castOf msg.flags = some .anycast ∨ castOf msg.flags = some .multicast) ∧
      ∃ os, msg.dest = .list os
  cleanup : msg.id = .cleanup → castOf msg.flags = some .unicast

/-- **Dispatching a posted message delivers it.** -/
theorem Posted.delivered (h : Posted msg) (s : σ) :
    ∃ s' acts, messageDispatch w msg s = some (s', acts) ∧ Delivered w msg s s' acts := by
  have hend : ∀ (x : σ) visits, Covers (castOf msg.flags) msg.dest.objects visits →
      (∀ v ∈ visits, ∃ o x, v = (visit w msg o x).2) → Plays w msg s (visits.map .visit) x →
      Delivered w msg s (leave w msg x visits).1 (leave w msg x visits).2 := by
    intro x visits hcovers hvisited hplays
    refine ⟨⟨visits, by simp [leave, freemsg_acts], hcovers, ?_⟩, leave_plays hplays⟩
    intro v hv
    obtain ⟨o, x, rfl⟩ := hvisited v hv
    rw [visit_called]
    exact or_congr_right ⟨fun hid => ⟨h.cleanup hid, hid⟩, fun hid => hid.2⟩
  unfold messageDispatch
  rcases h.dest with ⟨hcast, o, ho⟩ | ⟨hcast | hcast, os, hos⟩
  · simp only [hcast, ho]
    refine ⟨_, _, rfl, hend _ _ ?_ ?_ (visit_plays o s)⟩
    · simp [Covers, hcast, ho, Dest.objects, visit_object]
    · intro v hv
      exact ⟨o, s, List.mem_singleton.mp hv⟩
  · simp only [hcast, hos]
    refine ⟨_, _, rfl, hend _ _ ?_ (anycastLoop_visited os s) (anycastLoop_plays os s)⟩
    rw [hcast, hos]
    exact anycastLoop_covers os s
  · simp only [hcast, hos]
    refine ⟨_, _, rfl, hend _ _ ?_ (multicastLoop_visited os s) (multicastLoop_plays os s)⟩
    rw [hcast, hos]
    exact multicastLoop_covers os s

theorem posted_made {dest : List Addr} {id : MessageType} {flags : Nat} {payload : Option Int}
    (hid : id = .cleanup → castOf flags = some .unicast)
    (h : made dest id flags payload = some msg) : Posted msg := by
  unfold made at h
  split at h
  · rename_i o os hcast
    cases h
    exact ⟨.inl ⟨hcast, o, rfl⟩, hid⟩
  · rename_i c o os hmany hcast
    cases h
    refine ⟨.inr ⟨?_, _, rfl⟩, hid⟩
    cases c with
    | unicast => exact absurd rfl hmany
    | anycast => exact .inl hcast
    | multicast => exact .inr hcast
  · cases h

variable {τ : Type*} [DecidableEq τ] {s : State τ} {t : τ}

theorem mail_posted {tr : List (Event τ × Outcome)}
    (h : Run (Step Dispatch.step) Dispatch.init tr s) : Mail Posted s := by
  refine h.invariant Mail.init fun t a u ht hs => ht.step ?_ ?_ hs
  · intro id o _
    have hcast : castOf flagUnicast = some .unicast := by decide
    exact ⟨.inl ⟨hcast, o, rfl⟩, fun _ => hcast⟩
  · intro msg hmsg
    unfold Event.sends at hmsg
    split at hmsg
    · split at hmsg
      · cases hmsg
      · rename_i hid
        exact posted_made (fun hc => absurd hc hid) hmsg
    · cases hmsg

/-! ## Main theorem -/

/-- **Delivery of every message that can be queued**, whatever its destinations, whatever their
handlers do and answer, and whatever happens meanwhile. -/
theorem delivery {tr : List (Event τ × Outcome)} {dq : DispatchQueue}
    (h : Run (Step Dispatch.step) Dispatch.init tr s) (hq : (s.threads t).queue = some dq)
    (hmsg : msg ∈ dq.messages) (w : World σ) (x : σ) :
    ∃ x' acts, messageDispatch w msg x = some (x', acts) ∧ Delivered w msg x x' acts := by
  exact ((mail_posted h).queued t dq hq msg hmsg).delivered x

/-- Objects 3 and 5, of which 5 is destroyed; the handler of 3 says CONTINUE when
it is called first and OK when it is called again. -/
def threeFive : World Nat where
  lock s _ := s
  unlock s _ := s
  destroyed _ o := o = 5
  objectHandler s _ _ := (s + 1, if s = 0 then .continue else .ok)
  objectUnref s _ := s
  releaseMessage s := s

theorem delivery_anycast :
    ∃ tr, ∃ s : State Unit, ∃ dq, ∃ msg ∈ dq.messages,
      Run (Step Dispatch.step) Dispatch.init tr s ∧ (s.threads ()).queue = some dq ∧
      msg.dest.objects = [3, 5, 3, 3] ∧
      ∃ x' acts, messageDispatch threeFive msg 0 = some (x', acts) ∧
        Delivered threeFive msg 0 x' acts := by
  obtain ⟨tr, s, hrun, dq, hq, msg, hmsg, hdest⟩ := exists_run_of_exec Dispatch.step
    (Dispatch.init : State Unit)
    (fun _ s => ∃ dq ∈ (s.threads ()).queue, ∃ msg ∈ dq.messages,
      msg.dest.objects = [3, 5, 3, 3])
    [Event.init (), .new () (some 3), .new () (some 5),
      .send [3, 5, 3, 3] .ui flagAnycast none ⟨true, true, true⟩] (by decide +kernel)
  exact ⟨tr, s, dq, msg, hmsg, hrun, hq, hdest, delivery hrun hq hmsg threeFive 0⟩

/-- There the handler of 3 is called twice, 5 is skipped and the last 3 is not reached. -/
example : (messageDispatch threeFive ⟨.ui, flagAnycast, .list [3, 5, 3, 3], none⟩ 0).map (·.2) =
    some [.visit ⟨3, false, some .continue⟩, .visit ⟨5, true, none⟩, .visit ⟨3, false, some .ok⟩,
      .unref 3, .unref 5, .unref 3, .unref 3, .release] := by
  decide

end Mediabox.DispatchDelivery
