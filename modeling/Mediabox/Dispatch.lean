import Mathlib.Algebra.Order.Ring.Int
import Mathlib.Logic.Function.Basic
import Mediabox.Lib.Transition

/-!
# The message dispatcher (`src/lib/dispatch.c`)

Objects with reference counts, one message queue per thread, and the dispatch of a message to the
handlers of its destinations.

* A step is one call of the interface, except that `avbox_message_dispatch` is cut at every
  handler: `get`, then `deliver` and `handled` for each destination, then `finish`.  What a handler
  does in between (sending, taking and dropping references, creating objects) and what the other
  threads do are further steps, in any order.
* `avbox_object_unref` is one atomic step; `ObjectUnref` is about its inside.
* The event brings what the code cannot decide: the answers of `malloc`, the result of the handler
  and the id `avbox_timer_register` returned.
* The memory of objects is a partial map, and an address may be allocated again after it was freed.
  Using an address that holds no object is no step.
* `held` and `owned` are bookkeeping: the references taken by `avbox_object_ref` and not
  dropped yet, and whether the object's own reference (the 1 of `avbox_object_new`) is still there.
* The queues of `avbox_dispatch_init` have no size limit, so that `avbox_queue_put` fails only for
  want of memory, on a closed queue too.  Counters are natural numbers.  Assertions stop nothing
  here, except where the code would go on with a null pointer.
-/

set_option autoImplicit false

namespace Mediabox.Dispatch

open Transition

/-- `AVBOX_MESSAGETYPE_*`. -/
inductive MessageType where
  | input
  | timer
  | exception
  | ui
  | system
  | delegate
  | player
  | volume
  | selected
  | dismissed
  | destroy
  | cleanup
  | streamReady
  | user (code : Nat)
  deriving DecidableEq, Repr

/-- The ways of sending that `avbox_object_sendmsg` and `avbox_message_dispatch` know. -/
inductive Cast where
  | unicast
  | anycast
  | multicast
  deriving DecidableEq, Repr

/-- `AVBOX_DISPATCH_UNICAST` -/
def flagUnicast : Nat := 0

/-- `AVBOX_DISPATCH_BROADCAST` -/
def flagBroadcast : Nat := 1

/-- `AVBOX_DISPATCH_MULTICAST` -/
def flagMulticast : Nat := 2

/-- `AVBOX_DISPATCH_ANYCAST` -/
def flagAnycast : Nat := 4

/-- `flags & (UNICAST | ANYCAST | MULTICAST | BROADCAST)`; `none` is the branch that aborts. -/
def castOf (flags : Nat) : Option Cast :=
  let cast := flags &&& (flagUnicast ||| flagAnycast ||| flagMulticast ||| flagBroadcast)
  if cast = flagUnicast then some .unicast
  else if cast = flagAnycast then some .anycast
  else if cast = flagMulticast then some .multicast
  else none

/-- Address of a `struct avbox_object`. -/
abbrev Addr := Nat

/-- `dest` of a message: one object (`must_free_dest` is 0), or a copied list of them. -/
inductive Dest where
  | object (o : Addr)
  | list (os : List Addr)
  deriving DecidableEq, Repr

/-- The destinations, in order and with repetitions. -/
def Dest.objects : Dest → List Addr
  | .object o => [o]
  | .list os => os

/-- `struct avbox_message`; of the payload only the id of a timer message is read here. -/
structure Message where
  id : MessageType
  flags : Nat
  dest : Dest
  payload : Option Int
  deriving DecidableEq, Repr

/-- `struct avbox_object`; `q` is the thread of its queue, `destroyTimerId` is -1 for none. -/
structure Object (τ : Type*) where
  lock : Option τ
  refs : Nat
  destroyed : Bool
  destroyTimerId : Int
  q : τ
  deriving DecidableEq, Repr

/-- The live objects. -/
abbrev Heap (τ : Type*) := Addr → Option (Object τ)

/-- The queue of a thread, oldest message first. -/
structure DispatchQueue where
  closed : Bool
  messages : List Message
  deriving DecidableEq, Repr

/-- A message inside `avbox_message_dispatch`: the destinations still to be visited, and whether
    the handler of the first one is running. -/
structure Frame where
  msg : Message
  todo : List Addr
  calling : Bool
  deriving DecidableEq, Repr

/-- A thread: its queue, once `avbox_dispatch_init` was called, and the message it dispatches. -/
structure Thread where
  queue : Option DispatchQueue
  frame : Option Frame
  deriving DecidableEq, Repr

structure State (τ : Type*) where
  heap : Heap τ
  threads : τ → Thread
  held : Addr → Nat
  owned : Addr → Bool

/-- No thread has a queue yet and there is no object. -/
def init {τ : Type*} : State τ := ⟨fun _ => none, fun _ => ⟨none, none⟩, fun _ => 0, fun _ => false⟩

/-- What a handler answers. -/
inductive HandlerResult where
  | ok
  | continue
  deriving DecidableEq, Repr

/-- Answers of `malloc` inside `avbox_object_sendmsg`: for the message, for the copy of the
    destination list, and for the node of the queue. -/
structure Mallocs where
  message : Bool
  dest : Bool
  node : Bool
  deriving DecidableEq, Repr

inductive Event (τ : Type*) where
  /-- `avbox_dispatch_init` in thread `t` -/
  | init (t : τ)
  /-- `avbox_object_new` in thread `t`, with the answer of `malloc` -/
  | new (t : τ) (malloc : Option Addr)
  /-- `avbox_object_ref` by some holder -/
  | ref (o : Addr)
  /-- `avbox_object_unref` by a holder -/
  | unref (o : Addr)
  /-- `avbox_object_sendmsg`; the message types of the library's own use included, but for CLEANUP,
      which nothing but `avbox_object_handler` sends -/
  | send (dest : List Addr) (id : MessageType) (flags : Nat) (payload : Option Int) (m : Mallocs)
  /-- `avbox_dispatch_close`, or the `avbox_queue_close` of `avbox_dispatch_shutdown` -/
  | close (t : τ)
  /-- the loop of thread `t` takes a message and calls `avbox_message_dispatch` -/
  | get (t : τ)
  /-- the next destination is locked and, unless it is destroyed, given the message -/
  | deliver (t : τ) (m : Mallocs)
  /-- the handler returned `res`; `timer` is what `avbox_timer_register` answers, where it is
      called -/
  | handled (t : τ) (res : HandlerResult) (m : Mallocs) (timer : Int)
  /-- every destination was visited: `avbox_dispatch_freemsg` -/
  | finish (t : τ)
  /-- one round of the flush loop of `avbox_dispatch_shutdown` -/
  | flush (t : τ)
  deriving DecidableEq, Repr

/-- What a call returns or does that others can see. -/
inductive Outcome where
  | done
  /-- The call returned `NULL`. -/
  | null
  /-- `avbox_object_sendmsg` returned its message. -/
  | message
  /-- `avbox_object_new` returned this object. -/
  | object (o : Addr)
  /-- The handler of this object was called with a message of this type. -/
  | called (o : Addr) (id : MessageType)
  deriving DecidableEq, Repr

variable {τ : Type*} [DecidableEq τ]

/-! ## References -/

/-- `avbox_object_ref`. -/
def objectRef (h : Heap τ) (o : Addr) : Option (Heap τ) :=
  (h o).map fun x => Function.update h o (some { x with refs := x.refs + 1 })

/-- `avbox_object_unref`. -/
def objectUnref (h : Heap τ) (o : Addr) : Option (Heap τ) :=
  (h o).map fun x =>
    Function.update h o (if x.refs - 1 = 0 then none else some { x with refs := x.refs - 1 })

/-- The references taken by `avbox_dispatch_destdup`. -/
def destdup (h : Heap τ) (dest : List Addr) : Option (Heap τ) := dest.foldlM objectRef h

/-- `avbox_dispatch_freemsg`, as far as the objects go. -/
def freemsg (h : Heap τ) (msg : Message) : Option (Heap τ) :=
  match msg.dest with
  | .object o => objectUnref h o
  | .list os => os.foldlM objectUnref h

/-! ## Sending -/

def State.setThread (s : State τ) (t : τ) (th : Thread) : State τ :=
  { s with threads := Function.update s.threads t th }

def State.setObject (s : State τ) (o : Addr) (x : Object τ) : State τ :=
  { s with heap := Function.update s.heap o (some x) }

/-- The last part of `avbox_object_sendmsg`: `avbox_queue_put`, and `avbox_dispatch_freemsg` when it
    fails. -/
def putmsg (s : State τ) (q : τ) (msg : Message) (m : Mallocs) : Option (State τ × Bool) :=
  match (s.threads q).queue with
  | none => none
  | some dq =>
    if m.node then
      let dq' := { dq with messages := dq.messages ++ [msg] }
      some (s.setThread q { s.threads q with queue := some dq' }, true)
    else
      (freemsg s.heap msg).map fun heap => ({ s with heap := heap }, false)

/-- `avbox_object_sendmsg`; the flag says whether it returned a message or `NULL`. -/
def sendmsg (s : State τ) (dest : List Addr) (id : MessageType) (flags : Nat)
    (payload : Option Int) (m : Mallocs) : Option (State τ × Bool) :=
  if m.message then
    match castOf flags, dest with
    | some .unicast, o :: _ => do
      let heap ← objectRef s.heap o
      let x ← heap o
      putmsg { s with heap := heap } x.q ⟨id, flags, .object o, payload⟩ m
    | some _, o :: os =>
      if m.dest then do
        let heap ← destdup s.heap (o :: os)
        let x ← heap o
        putmsg { s with heap := heap } x.q ⟨id, flags, .list (o :: os), payload⟩ m
      else some (s, false)
    | _, _ => none
  else some (s, false)

/-! ## Dispatching -/

/-- The destinations left after the handler of the first one answered `res`. -/
def Frame.next (f : Frame) (res : HandlerResult) : Frame :=
  if castOf f.msg.flags = some .anycast ∧ res = .ok then { f with todo := [], calling := false }
  else { f with todo := f.todo.tail, calling := false }

def State.setFrame (s : State τ) (t : τ) (f : Option Frame) : State τ :=
  s.setThread t { s.threads t with frame := f }

/-- The destination `o` is unlocked and thread `t` goes on to the next one. -/
def leave (s : State τ) (t : τ) (f : Frame) (o : Addr) (res : HandlerResult) : Option (State τ) :=
  (s.heap o).map fun x => (s.setObject o { x with lock := none }).setFrame t (some (f.next res))

/-- The loop bodies of `avbox_message_dispatch` up to the call of the object's handler. -/
def deliver (s : State τ) (t : τ) (f : Frame) (o : Addr) (m : Mallocs) :
    Option (State τ × Outcome) := do
  let x ← s.heap o
  if x.lock ≠ none then none
  else if x.destroyed = false ∨ f.msg.id = .cleanup then
    if f.msg.id = .timer ∧ f.msg.payload = none then none
    else if f.msg.id = .timer ∧ f.msg.payload = some x.destroyTimerId then do
      -- the destructor timer: `avbox_object_handler` answers OK without calling the handler
      let (s', _) ← sendmsg s [o] .destroy flagUnicast none m
      let x' ← s'.heap o
      let s'' ← leave (s'.setObject o { x' with destroyTimerId := -1 }) t f o .ok
      some (s'', .done)
    else
      some ((s.setObject o { x with lock := some t }).setFrame t (some { f with calling := true }),
        .called o f.msg.id)
  else
    -- the target has been destroyed
    some (s.setFrame t (some { f with todo := f.todo.tail }), .done)

/-- `avbox_object_handler` after the object's handler returned `res`: the state, and what
    `avbox_object_handler` returns itself. -/
def objectHandler (s : State τ) (o : Addr) (x : Object τ) (id : MessageType)
    (res : HandlerResult) (m : Mallocs) (timer : Int) : Option (State τ × HandlerResult) :=
  match id with
  | .destroy =>
    match res with
    | .ok =>
      (sendmsg (s.setObject o { x with destroyed := true }) [o] .cleanup flagUnicast none m).map
        fun r => (r.1, .ok)
    | .continue =>
      let s' := s.setObject o { x with destroyTimerId := timer }
      if timer = -1 then
        (sendmsg s' [o] .destroy flagUnicast none m).map fun r => (r.1, .ok)
      else some (s', .ok)
  | .cleanup =>
    (objectUnref s.heap o).map fun heap =>
      ({ s with heap := heap, owned := Function.update s.owned o false }, .ok)
  | _ => some (s, res)

/-- One step. -/
def step (s : State τ) : Event τ → Option (State τ × Outcome)
  | .init t =>
    match (s.threads t).queue with
    | some _ => some (s, .null)
    | none => some (s.setThread t { s.threads t with queue := some ⟨false, []⟩ }, .done)
  | .new t malloc =>
    match (s.threads t).queue, malloc with
    | some _, some o =>
      if s.heap o = none then
        some ({ s.setObject o ⟨none, 1, false, -1, t⟩ with
          owned := Function.update s.owned o true }, .object o)
      else none
    | _, _ => some (s, .null)
  | .ref o =>
    (objectRef s.heap o).map fun heap =>
      ({ s with heap := heap, held := Function.update s.held o (s.held o + 1) }, .done)
  | .unref o =>
    if s.held o = 0 then none
    else (objectUnref s.heap o).map fun heap =>
      ({ s with heap := heap, held := Function.update s.held o (s.held o - 1) }, .done)
  | .send dest id flags payload m =>
    if id = .cleanup then none
    else (sendmsg s dest id flags payload m).map fun r => (r.1, if r.2 then .message else .null)
  | .close t =>
    match (s.threads t).queue with
    | none => none
    | some dq =>
      some (s.setThread t { s.threads t with queue := some { dq with closed := true } }, .done)
  | .get t =>
    match (s.threads t).queue, (s.threads t).frame with
    | some ⟨closed, msg :: msgs⟩, none =>
      some (s.setThread t ⟨some ⟨closed, msgs⟩, some ⟨msg, msg.dest.objects, false⟩⟩, .done)
    | _, _ => none
  | .deliver t m =>
    match (s.threads t).frame with
    | some ⟨msg, o :: todo, false⟩ => deliver s t ⟨msg, o :: todo, false⟩ o m
    | _ => none
  | .handled t res m timer =>
    match (s.threads t).frame with
    | some ⟨msg, o :: todo, true⟩ => do
      let x ← s.heap o
      let (s', res') ← objectHandler s o x msg.id res m timer
      let s'' ← leave s' t ⟨msg, o :: todo, true⟩ o res'
      some (s'', .done)
    | _ => none
  | .finish t =>
    match (s.threads t).frame with
    | some ⟨msg, [], false⟩ =>
      (freemsg s.heap msg).map fun heap => ({ s with heap := heap }.setFrame t none, .done)
    | _ => none
  | .flush t =>
    match (s.threads t).queue, (s.threads t).frame with
    | some ⟨true, msg :: msgs⟩, none =>
      (freemsg s.heap msg).map fun heap =>
        ({ s with heap := heap }.setThread t ⟨some ⟨true, msgs⟩, none⟩, .done)
    | _, _ => none

end Mediabox.Dispatch
