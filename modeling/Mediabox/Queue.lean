import Mediabox.LinkedList
import Mediabox.Lib.Transition

/-!
# The blocking queue (`src/lib/queue.c`)

One `struct avbox_queue`, its nodes, and any number of threads inside `avbox_queue_put`,
`avbox_queue_get`, `avbox_queue_peek`, `avbox_queue_timedpeek` and `avbox_queue_close`.

* A step is one critical section.  `pthread_cond_wait` ends one section and starts another one,
  and the second may start at any moment (a waiter may wake up spuriously or time out), so a
  blocked thread is a program counter (`Pc`) that can always be resumed.
* `acquire_node` is a section of its own (it runs under `pool_lock`, before `lock` is taken);
  `release_node` is part of the section of `lock` it is called in.
* `avbox_queue_close` writes `closed` without the lock and then broadcasts: two steps.
* A node is an address; its `value` field is memory of its own, so that a node which is
  recycled while still in use would show.

`step` is executable: the event says which thread moves and what `malloc` answers.
-/

set_option autoImplicit false

namespace Mediabox.Queue

open Transition

/-- Error codes the queue reports through `errno`. -/
inductive Errno where
  | ENOMEM
  | EAGAIN
  | ESHUTDOWN
  deriving DecidableEq, Repr

/-- Address of a `struct avbox_queue_node`. -/
abbrev NodeId := Nat

/-- `struct avbox_queue` (locks, condition and name apart). -/
structure AvboxQueue where
  closed : Bool
  nodesAlloc : Nat
  cnt : Nat
  sz : Nat
  waiters : Nat
  items : List NodeId
  nodesPool : List NodeId
  deriving DecidableEq, Repr

/-- Where a thread stands between two critical sections. -/
inductive Pc (α : Type*) where
  | idle
  /-- `avbox_queue_put` has its node and has not taken `lock` yet. -/
  | putLock (node : NodeId) (item : α)
  /-- `avbox_queue_put` waits on `cond`. -/
  | putWait (node : NodeId) (item : α)
  | getWait
  | peekWait
  | timedpeekWait
  /-- `avbox_queue_close` has set `closed` and has not broadcast yet. -/
  | closeWake
  deriving DecidableEq, Repr

/-- The node a thread inside `avbox_queue_put` has in its hands. -/
def Pc.node? {α : Type*} : Pc α → Option NodeId
  | .putLock node _ => some node
  | .putWait node _ => some node
  | _ => none

/-- The queue, the memory of its nodes and the threads. `allocated` lists the nodes obtained from
    `malloc` so far (no operation here frees one). -/
structure State (τ α : Type*) where
  q : AvboxQueue
  value : NodeId → Option α
  allocated : List NodeId
  pc : τ → Pc α

/-- What a step answers: nothing yet (the operation goes on), or the result it returns. -/
inductive Outcome (α : Type*) where
  | pending
  /-- `avbox_queue_put` returned 0 for this item. -/
  | putOk (item : α)
  /-- `avbox_queue_put` returned -1. -/
  | putErr (errno : Errno)
  /-- `avbox_queue_get` returned this value. -/
  | got (value : α)
  /-- `avbox_queue_peek` or `avbox_queue_timedpeek` returned this value. -/
  | peeked (value : α)
  /-- A read returned `NULL`. -/
  | null (errno : Errno)
  | closed
  deriving DecidableEq, Repr

/-- One critical section, with the answer of `malloc` where the section may call it. -/
inductive Event (τ α : Type*) where
  | put (t : τ) (item : α) (malloc : Option NodeId)
  | putLock (t : τ)
  | putWake (t : τ)
  | get (t : τ)
  | getWake (t : τ)
  | peek (t : τ) (block : Bool)
  | peekWake (t : τ)
  | timedpeek (t : τ) (timeout : Int)
  | timedpeekWake (t : τ)
  | close (t : τ)
  | closeWake (t : τ)
  deriving DecidableEq, Repr

/-! ## Operations -/

/-- `acquire_node`: the tail of the pool, else a new node. -/
def acquireNode (q : AvboxQueue) (malloc : Option NodeId) : Option (NodeId × AvboxQueue) :=
  match listTail q.nodesPool with
  | some node => some (node, { q with nodesPool := listRemove q.nodesPool node })
  | none => malloc.map (fun node => (node, { q with nodesAlloc := q.nodesAlloc + 1 }))

/-- `release_node`. -/
def releaseNode (q : AvboxQueue) (node : NodeId) : AvboxQueue :=
  { q with nodesPool := listAdd q.nodesPool node }

/-- Result of a section of `avbox_queue_getnode`. -/
inductive GetNode where
  | node (node : NodeId)
  | null (errno : Errno)
  | wait
  deriving DecidableEq, Repr

/-- `avbox_queue_getnode` up to its wait (`waiters` is accounted for by `step`). -/
def getnode (q : AvboxQueue) (block : Bool) : GetNode :=
  match listTail q.items with
  | some node => .node node
  | none =>
    if q.closed then .null .ESHUTDOWN
    else if block then .wait
    else .null .EAGAIN

/-- `avbox_queue_getnode` after its wait. -/
def getnodeWoken (q : AvboxQueue) : GetNode :=
  match listTail q.items with
  | some node => .node node
  | none => .null .EAGAIN

/-- The part of `avbox_queue_get` that dequeues a node. -/
def dequeue (q : AvboxQueue) (node : NodeId) : AvboxQueue :=
  { releaseNode { q with items := listRemove q.items node } node with cnt := q.cnt - 1 }

/-- The part of `avbox_queue_put` that enqueues its node. -/
def enqueue (q : AvboxQueue) (node : NodeId) : AvboxQueue :=
  { q with items := listAdd q.items node, cnt := q.cnt + 1 }

/-- The preallocation loop of `avbox_queue_new`: a node whose `malloc` fails is left out. -/
def preallocate (mallocs : List (Option NodeId)) : List NodeId :=
  mallocs.foldl (fun pool m => m.elim pool (listAdd pool)) []

/-- `avbox_queue_new(sz)`, with the answers of `malloc` to its loop over `i < sz`. -/
def new (sz : Nat) (mallocs : List (Option NodeId)) : AvboxQueue :=
  ⟨false, 0, 0, sz, 0, [], preallocate (mallocs.take sz)⟩

section Step

variable {τ α : Type*} [DecidableEq τ]

/-- A queue just created, with every thread outside of it. -/
def init (τ α : Type*) (sz : Nat) (mallocs : List (Option NodeId)) : State τ α :=
  ⟨new sz mallocs, fun _ => none, preallocate (mallocs.take sz), fun _ => .idle⟩

/-- Thread `t` is now at `pc` and the queue is `q`. -/
def State.goto (s : State τ α) (t : τ) (pc : Pc α) (q : AvboxQueue) : State τ α :=
  { s with q := q, pc := Function.update s.pc t pc }

/-- End of a section of `avbox_queue_get`.  Reading a node that was never given a value is the
    failure of `assert(ret != NULL)`. -/
def getSection (s : State τ α) (t : τ) (q : AvboxQueue) : GetNode → Option (State τ α × Outcome α)
  | .wait => some (s.goto t .getWait { q with waiters := q.waiters + 1 }, .pending)
  | .null errno => some (s.goto t .idle q, .null errno)
  | .node node =>
    match s.value node with
    | some v => some (s.goto t .idle (dequeue q node), .got v)
    | none => none

/-- End of a section of `avbox_queue_peek` / `avbox_queue_timedpeek`, which wait at `wait`. -/
def peekSection (s : State τ α) (t : τ) (wait : Pc α) (q : AvboxQueue) :
    GetNode → Option (State τ α × Outcome α)
  | .wait => some (s.goto t wait { q with waiters := q.waiters + 1 }, .pending)
  | .null errno => some (s.goto t .idle q, .null errno)
  | .node node =>
    match s.value node with
    | some v => some (s.goto t .idle q, .peeked v)
    | none => none

/-- The end of a successful `avbox_queue_put`: `node->value = item` and the node is enqueued. -/
def putSection (s : State τ α) (t : τ) (q : AvboxQueue) (node : NodeId) (item : α) :
    State τ α × Outcome α :=
  ({ s with
      q := enqueue q node
      value := Function.update s.value node (some item)
      pc := Function.update s.pc t .idle }, .putOk item)

/-- `waiters--` when a woken thread leaves the queue. -/
def leave (q : AvboxQueue) : AvboxQueue := { q with waiters := q.waiters - 1 }

/-- One critical section of one thread. -/
def step (s : State τ α) : Event τ α → Option (State τ α × Outcome α)
  | .put t item malloc =>
    match s.pc t with
    | .idle =>
      -- `malloc` never returns the address of a live node
      if malloc.any (· ∈ s.allocated) then none else
      match acquireNode s.q malloc with
      | none => some (s, .putErr .ENOMEM)
      | some (node, q) =>
        some ({ s.goto t (.putLock node item) q with
          allocated := if node ∈ s.allocated then s.allocated else node :: s.allocated }, .pending)
    | _ => none
  | .putLock t =>
    match s.pc t with
    | .putLock node item =>
      if s.q.sz > 0 ∧ s.q.cnt ≥ s.q.sz then
        if s.q.closed then some (s.goto t .idle (releaseNode s.q node), .putErr .ESHUTDOWN)
        else some (s.goto t (.putWait node item) { s.q with waiters := s.q.waiters + 1 }, .pending)
      else some (putSection s t s.q node item)
    | _ => none
  | .putWake t =>
    match s.pc t with
    | .putWait node item =>
      if s.q.cnt ≥ s.q.sz then some (s.goto t .idle (releaseNode (leave s.q) node), .putErr .EAGAIN)
      else some (putSection s t (leave s.q) node item)
    | _ => none
  | .get t =>
    match s.pc t with
    | .idle => getSection s t s.q (getnode s.q true)
    | _ => none
  | .getWake t =>
    match s.pc t with
    | .getWait => getSection s t (leave s.q) (getnodeWoken s.q)
    | _ => none
  | .peek t block =>
    match s.pc t with
    | .idle => peekSection s t .peekWait s.q (getnode s.q block)
    | _ => none
  | .peekWake t =>
    match s.pc t with
    | .peekWait => peekSection s t .peekWait (leave s.q) (getnodeWoken s.q)
    | _ => none
  | .timedpeek t _ =>
    match s.pc t with
    | .idle => peekSection s t .timedpeekWait s.q (getnode s.q true)
    | _ => none
  | .timedpeekWake t =>
    match s.pc t with
    | .timedpeekWait => peekSection s t .timedpeekWait (leave s.q) (getnodeWoken s.q)
    | _ => none
  | .close t =>
    match s.pc t with
    | .idle => some (s.goto t .closeWake { s.q with closed := true }, .pending)
    | _ => none
  | .closeWake t =>
    match s.pc t with
    | .closeWake => some (s.goto t .idle s.q, .closed)
    | _ => none

end Step

end Mediabox.Queue
