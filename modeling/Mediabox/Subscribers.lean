import Mediabox.Lib.Outcome
import Mediabox.Lib.Transition
import Mediabox.ListMacros

/-!
# The subscribers of application events (`src/lib/application.c`, `linkedlist.h`)

When the application is destroyed, every subscriber's handler is called.  The loop reads the next
node before it calls a handler, which may unsubscribe its own node or others and subscribe new ones.

* The list is the ring of nodes that it is, with the head at address 0.  The memory of a node that
  is unsubscribed is freed, and `malloc` may return its address again.
* Subscriptions are numbered, so that a handler that subscribes again is another subscription.
* A step is one operation of whatever runs on the application's thread; between `LIST_FOREACH_SAFE`
  and the handler that it calls nothing else runs.

Main result: `quit_calls`.
-/

set_option autoImplicit false

namespace Mediabox.Subscribers

open LinkRing Outcome Transition
open ListMacros (listAppendOf listRemoveOf)

/-! ## The code -/

/-- `struct avbox_application_subscriber`, and its number. -/
structure Subscriber where
  serial : Nat
  handler : Nat
  context : Nat
  deriving DecidableEq, Repr

inductive Fault where
  /-- a node that was freed is read or written -/
  | freed
  /-- a loop over the list does not end -/
  | endless
  deriving DecidableEq, Repr

inductive Phase where
  | idle
  /-- before the condition of the loop, with `subscriber` -/
  | looping (subscriber : Option Nat)
  /-- in a handler, with `__next` -/
  | running (next : Option Nat)
  | done
  deriving DecidableEq, Repr

structure State where
  links : Links Nat
  /-- what is at an address -/
  nodes : Nat → Option Subscriber
  /-- the number of the next subscription -/
  nextSerial : Nat
  phase : Phase
  /-- who was subscribed when the broadcast began -/
  started : List Nat
  /-- whose handlers were called -/
  called : List Nat
  /-- who was unsubscribed -/
  removed : List Nat
  failed : Option Fault

/-- `&subscribers` -/
def head : Nat := 0

/-- `LIST_INIT(&subscribers)` -/
def init : State where
  links :=
    ⟨fun a => if a = head then some head else none, fun a => if a = head then some head else none⟩
  nodes _ := none
  nextSerial := 0
  phase := .idle
  started := []
  called := []
  removed := []
  failed := none

/-- The address is that of the head or of a node. -/
def allocated (s : State) (a : Nat) : Bool := a == head || (s.nodes a).isSome

/-- A loop that ends at the first subscriber with this handler and context, or at the head. -/
def findFrom (s : State) (handler context : Nat) : Nat → Option Nat → Except Fault (Option Nat)
  | 0, _ => .error .endless
  | _ + 1, none => .error .freed
  | fuel + 1, some a =>
    if a = head then .ok none
    else
      match s.nodes a with
      | none => .error .freed
      | some node =>
        if node.handler = handler ∧ node.context = context then .ok (some a)
        else findFrom s handler context fuel (s.links.next a)

/-- `avbox_application_findsubscriber` -/
def findsubscriber (s : State) (handler context : Nat) : Except Fault (Option Nat) :=
  findFrom s handler context (s.nextSerial + 1) (s.links.next head)

/-- What `LIST_APPEND` or `LIST_REMOVE` makes of the links. -/
def edited (s : State) : Option (Links Nat) → Except Fault State
  | some links => .ok { s with links }
  | none => .error .freed

/-- `LIST_APPEND(&subscribers, item)` -/
def listAppend (s : State) (item : Nat) : Except Fault State :=
  edited s (listAppendOf (allocated s) s.links head item)

/-- `LIST_REMOVE(item)` -/
def listRemove (s : State) (item : Nat) : Except Fault State :=
  edited s (listRemoveOf (allocated s) s.links item)

/-- `avbox_application_subscribe`, with what `malloc` returns. -/
def subscribe (s : State) (handler context : Nat) (malloc : Option Nat) : Except Fault State := do
  match ← findsubscriber s handler context with
  | some _ => .ok s
  | none =>
    match malloc with
    | none => .ok s
    | some a =>
      let s := { s with
        nodes := Function.update s.nodes a (some ⟨s.nextSerial, handler, context⟩)
        nextSerial := s.nextSerial + 1 }
      listAppend s a

/-- `avbox_application_unsubscribe`, whose loop is that of `avbox_application_findsubscriber`. -/
def unsubscribe (s : State) (handler context : Nat) : Except Fault State := do
  match ← findsubscriber s handler context with
  | none => .ok s
  | some a =>
    let s ← listRemove s a
    .ok { s with
      nodes := Function.update s.nodes a none
      removed := s.removed ++ ((s.nodes a).map Subscriber.serial).toList }

/-- The numbers of those who have subscribed and not unsubscribed. -/
def subscribed (s : State) : List Nat := (List.range s.nextSerial).filter fun n => n ∉ s.removed

/-- The condition of the loop, and the call of the handler. -/
def turn (s : State) : Option Nat → Except Fault (State × Option Subscriber)
  | none => .error .freed
  | some a =>
    if a = head then .ok ({ s with phase := .done }, none)
    else
      match s.nodes a with
      | none => .error .freed
      | some node =>
        .ok ({ s with
          phase := .running (s.links.next a)
          called := s.called ++ [node.serial] }, some node)

inductive Event where
  | subscribe (handler context : Nat) (malloc : Option Nat)
  | unsubscribe (handler context : Nat)
  /-- `AVBOX_MESSAGETYPE_DESTROY` -/
  | destroy
  /-- the next turn of the loop -/
  | turn
  /-- the handler returns -/
  | ret
  deriving DecidableEq, Repr

/-- Code other than the loop runs. -/
def Phase.free : Phase → Bool
  | .looping _ => false
  | _ => true

/-- What an event leaves, and the subscriber whose handler is called; `none` where it is not
    possible. -/
def next (s : State) : Event → Option (Except Fault (State × Option Subscriber))
  | .subscribe handler context malloc =>
    if s.phase.free ∧ (∀ a ∈ malloc, ¬allocated s a) then
      some ((subscribe s handler context malloc).map (·, none))
    else none
  | .unsubscribe handler context =>
    if s.phase.free then some ((unsubscribe s handler context).map (·, none)) else none
  | .destroy =>
    if s.phase = .idle then
      some (.ok ({ s with
        phase := .looping (s.links.next head)
        started := subscribed s }, none))
    else none
  | .turn =>
    match s.phase with
    | .looping subscriber => some (turn s subscriber)
    | _ => none
  | .ret =>
    match s.phase with
    | .running next => some (.ok ({ s with phase := .looping next }, none))
    | _ => none

/-- One step, as long as nothing has failed. -/
def step (s : State) (e : Event) : Option (State × Option Subscriber) :=
  if s.failed.isSome then none
  else
    (next s e).map fun
      | .ok r => r
      | .error f => ({ s with failed := some f }, none)

/-! ## What it is for -/

structure Kept (s : State) : Prop where
  /-- no node is read or written after it was freed -/
  failed : s.failed = none
  /-- no handler is called twice for a subscription -/
  once : s.called.Nodup
  /-- a handler that is called is subscribed -/
  live : ∀ node s', Step step s (.turn, some node) s' →
    node.serial ∉ s.removed ∧ node.serial ∉ s.called
  /-- in the end everyone who was subscribed at the start was called, or unsubscribed before -/
  complete : s.phase = .done → ∀ n ∈ s.started, n ∈ s.called ∨ n ∈ s.removed

/-- The handler that runs unsubscribes the one that comes next. -/
def hitsNext (s : State) (handler context : Nat) : Bool :=
  match s.phase, findsubscriber s handler context with
  | .running (some next), .ok (some a) => a == next
  | _, _ => false

/-- The steps that go well. -/
def Granted (s : State) : Event → Prop
  | .unsubscribe handler context => hitsNext s handler context = false
  | _ => True

instance (s : State) : ∀ e, Decidable (Granted s e)
  | .unsubscribe handler context => inferInstanceAs (Decidable (hitsNext s handler context = false))
  | .subscribe .. => isTrue trivial
  | .destroy => isTrue trivial
  | .turn => isTrue trivial
  | .ret => isTrue trivial

variable {s s' : State} {tr : List (Event × Option Subscriber)}

/-! ## The list -/

/-- A node at its address. -/
abbrev Entry := Nat × Subscriber

/-- The list holds these nodes, which are all that there are. -/
structure Ring (s : State) (es : List Entry) : Prop where
  ring : IsRing s.links head (es.map Prod.fst)
  nodes : ∀ a node, s.nodes a = some node ↔ (a, node) ∈ es
  length : es.length ≤ s.nextSerial
  serials : (es.map fun e => e.2.serial).Nodup
  fresh : ∀ e ∈ es, e.2.serial < s.nextSerial

variable {es es₁ es₂ past ahead : List Entry} {e : Entry}

theorem Ring.init : Ring init [] where
  ring := ⟨List.nodup_singleton _, List.isChain_cons_cons.mpr ⟨⟨rfl, rfl⟩, .singleton _⟩⟩
  nodes _ _ := iff_of_false nofun nofun
  length := Nat.le_refl 0
  serials := List.nodup_nil
  fresh := nofun

/-- Who is called or removed does not matter to the list. -/
theorem Ring.congr (h : Ring s es) (hlinks : s'.links = s.links) (hnodes : s'.nodes = s.nodes)
    (hserial : s'.nextSerial = s.nextSerial) : Ring s' es where
  ring := hlinks ▸ h.ring
  nodes a node := by
    rw [hnodes]
    exact h.nodes a node
  length := hserial ▸ h.length
  serials := h.serials
  fresh e he := hserial ▸ h.fresh e he

theorem Ring.ne_head (h : Ring s es) (he : e ∈ es) : e.1 ≠ head := by
  have hnodup := (List.nodup_cons.mp h.ring.nodup).1
  exact fun heq => hnodup (heq ▸ List.mem_map_of_mem he)

theorem Ring.allocated (h : Ring s es) {a : Nat} (ha : a ∈ head :: es.map Prod.fst) :
    allocated s a = true := by
  rw [Subscribers.allocated, Bool.or_eq_true]
  rcases List.mem_cons.mp ha with rfl | ha
  · exact .inl (beq_self_eq_true _)
  · obtain ⟨⟨b, node⟩, hmem, rfl⟩ := List.mem_map.mp ha
    rw [(h.nodes b node).mpr hmem]
    exact .inr rfl

/-- **The search** reads no freed node and ends, at the first node that is looked for. -/
theorem Ring.find (h : Ring s es) (handler context : Nat) :
    findsubscriber s handler context = .ok ((es.find? fun e =>
      decide (e.2.handler = handler ∧ e.2.context = context)).map Prod.fst) := by
  have hsuffix (before rest : List Entry) (hes : es = before ++ rest) (fuel : Nat)
      (hfuel : rest.length < fuel) :
      findFrom s handler context fuel (rest.map Prod.fst ++ [head]).head? =
        .ok ((rest.find? fun e =>
          decide (e.2.handler = handler ∧ e.2.context = context)).map Prod.fst) := by
    induction rest generalizing before fuel with
    | nil =>
      obtain ⟨fuel, rfl⟩ := Nat.exists_eq_succ_of_ne_zero (Nat.ne_of_gt hfuel)
      rfl
    | cons e rest ih =>
      have he : e ∈ es := hes ▸ List.mem_append_right _ (List.mem_cons_self ..)
      have hnode : s.nodes e.1 = some e.2 := (h.nodes e.1 e.2).mpr he
      have hring := h.ring
      rw [hes, List.map_append, List.map_cons] at hring
      obtain ⟨fuel, rfl⟩ := Nat.exists_eq_succ_of_ne_zero (Nat.ne_of_gt (Nat.zero_lt_of_lt hfuel))
      rw [List.map_cons, List.cons_append, List.head?_cons, findFrom, if_neg (h.ne_head he), hnode,
        List.find?_cons]
      dsimp only
      by_cases hmatch : e.2.handler = handler ∧ e.2.context = context
      · rw [if_pos hmatch, decide_eq_true hmatch]
        rfl
      · rw [if_neg hmatch, decide_eq_false hmatch, hring.next_mid]
        exact ih (before ++ [e]) (by rw [hes, List.append_assoc, List.singleton_append]) fuel
          (Nat.lt_of_succ_lt_succ hfuel)
  rw [findsubscriber, h.ring.next_head]
  exact hsuffix [] es rfl _ (Nat.lt_succ_of_le h.length)

/-- **A node is appended** at an address that is free. -/
theorem Ring.append (h : Ring s es) {a : Nat} (ha : Subscribers.allocated s a = false)
    (handler context : Nat) :
    ∃ links, listAppend { s with
        nodes := Function.update s.nodes a (some ⟨s.nextSerial, handler, context⟩)
        nextSerial := s.nextSerial + 1 } a = .ok { s with
          nodes := Function.update s.nodes a (some ⟨s.nextSerial, handler, context⟩)
          nextSerial := s.nextSerial + 1
          links := links } ∧
      Ring { s with
        nodes := Function.update s.nodes a (some ⟨s.nextSerial, handler, context⟩)
        nextSerial := s.nextSerial + 1
        links := links } (es ++ [(a, ⟨s.nextSerial, handler, context⟩)]) := by
  have hnotin : a ∉ head :: es.map Prod.fst := fun hmem =>
    Bool.false_ne_true (ha.symm.trans (h.allocated hmem))
  obtain ⟨p, hp, hprev, hring⟩ := h.ring.append hnotin
  have hpa : p ≠ a := fun heq => hnotin (heq ▸ hp)
  have hallocated : Subscribers.allocated { s with
      nodes := Function.update s.nodes a (some ⟨s.nextSerial, handler, context⟩)
      nextSerial := s.nextSerial + 1 } p = true := by
    have hp' := h.allocated hp
    rw [Subscribers.allocated] at hp' ⊢
    dsimp only
    rwa [Function.update_of_ne hpa]
  refine ⟨s.links.insert a p head, ?_, ?_, fun b node => ?_, ?_, ?_, fun e he => ?_⟩
  · simp [listAppend, listAppendOf, ListMacros.listAppend, edited, hprev, hallocated]
  · rwa [List.map_append]
  · dsimp only
    rw [List.mem_append, List.mem_singleton, Prod.mk.injEq]
    by_cases hb : b = a
    · subst hb
      rw [Function.update_self, Option.some.injEq]
      have hno : (b, node) ∉ es := fun hmem =>
        hnotin (List.mem_cons_of_mem _ (List.mem_map_of_mem hmem))
      simp [hno, eq_comm]
    · rw [Function.update_of_ne hb, h.nodes]
      simp [hb]
  · rw [List.length_append, List.length_singleton]
    exact Nat.succ_le_succ h.length
  · rw [List.map_append, List.nodup_append]
    refine ⟨h.serials, List.nodup_singleton _, fun n hn m hm => ?_⟩
    obtain ⟨e, he, rfl⟩ := List.mem_map.mp hn
    rw [List.mem_singleton.mp hm]
    exact Nat.ne_of_lt (h.fresh e he)
  · rcases List.mem_append.mp he with he | he
    · exact Nat.lt_succ_of_lt (h.fresh e he)
    · rw [List.mem_singleton.mp he]
      exact Nat.lt_succ_self _

/-- **A node is removed** and freed. -/
theorem Ring.remove (h : Ring s (es₁ ++ e :: es₂)) :
    ∃ links, listRemove s e.1 = .ok { s with links := links } ∧
      Ring { s with
        links := links
        nodes := Function.update s.nodes e.1 none } (es₁ ++ es₂) := by
  have hring := h.ring
  rw [List.map_append, List.map_cons] at hring
  obtain ⟨p, hp, n, hn, hprev, hnext, hrest⟩ := hring.remove
  have hmem : ∀ f ∈ es₁ ++ es₂, f ∈ es₁ ++ e :: es₂ := fun f hf =>
    (List.Sublist.append_left (List.sublist_cons_self e es₂) es₁).mem hf
  have hsub : (es₁ ++ es₂).Sublist (es₁ ++ e :: es₂) :=
    List.Sublist.append_left (List.sublist_cons_self e es₂) es₁
  have hapart : ∀ f ∈ es₁ ++ es₂, f.1 ≠ e.1 := by
    have hnodup := (List.nodup_middle.mp (List.nodup_cons.mp hring.nodup).2)
    intro f hf heq
    refine (List.nodup_cons.mp hnodup).1 ?_
    rw [← List.map_append, ← heq]
    exact List.mem_map_of_mem hf
  refine ⟨s.links.unlink p n, ?_, ?_, fun b node => ?_, ?_, ?_, fun f hf => ?_⟩
  · rw [← List.map_cons, ← List.map_append] at hp hn
    simp [listRemove, listRemoveOf, ListMacros.listRemove, edited, hprev, hnext, h.allocated hp,
      h.allocated hn]
  · rwa [List.map_append]
  · dsimp only
    by_cases hb : b = e.1
    · subst hb
      rw [Function.update_self]
      exact iff_of_false (Option.some_ne_none _).symm fun hf => hapart _ hf rfl
    · rw [Function.update_of_ne hb, h.nodes]
      refine ⟨fun hf => ?_, hmem _⟩
      rcases List.mem_append.mp hf with hf | hf
      · exact List.mem_append_left _ hf
      · rcases List.mem_cons.mp hf with rfl | hf
        · exact absurd rfl hb
        · exact List.mem_append_right _ hf
  · exact Nat.le_trans hsub.length_le h.length
  · exact h.serials.sublist (hsub.map _)
  · exact h.fresh f (hmem f hf)

/-! ## The invariant -/

/-- The numbers of the nodes. -/
abbrev serials (es : List Entry) : List Nat := es.map fun e => e.2.serial

/-- The list is what was passed and what is still ahead of the loop. -/
structure Inv (s : State) (past ahead : List Entry) : Prop where
  ring : Ring s (past ++ ahead)
  removed : ∀ n ∈ s.removed, n < s.nextSerial ∧ n ∉ serials (past ++ ahead)
  known : ∀ n < s.nextSerial, n ∈ s.removed ∨ n ∈ serials (past ++ ahead)
  called : ∀ n ∈ s.called, n < s.nextSerial
  once : s.called.Nodup
  waiting : ∀ e ∈ ahead, e.2.serial ∉ s.called
  cursor : ∀ p, s.phase = .looping p ∨ s.phase = .running p →
    p = (ahead.map Prod.fst ++ [head]).head?
  started : s.phase ≠ .idle →
    ∀ n ∈ s.started, n ∈ s.called ∨ n ∈ s.removed ∨ n ∈ serials ahead
  done : s.phase = .done → ahead = []
  idle : s.phase = .idle → s.called = []
  failed : s.failed = none

theorem Inv.init : Inv init [] [] where
  ring := Ring.init
  removed := nofun
  known := nofun
  called := nofun
  once := List.nodup_nil
  waiting := nofun
  cursor _ h := h.elim nofun nofun
  started h := absurd rfl h
  done := nofun
  idle _ := rfl
  failed := rfl

/-- Before the loop the place where it stands is anywhere. -/
theorem Inv.split (h : Inv s past ahead) (hidle : s.phase = .idle) {past' ahead' : List Entry}
    (hsplit : past' ++ ahead' = past ++ ahead) : Inv s past' ahead' where
  ring := hsplit ▸ h.ring
  removed := hsplit ▸ h.removed
  known := hsplit ▸ h.known
  called := h.called
  once := h.once
  waiting _ _ := by
    rw [h.idle hidle]
    exact List.not_mem_nil
  cursor p hp := by
    rw [hidle] at hp
    exact hp.elim nofun nofun
  started hne := absurd hidle hne
  done hdone := nomatch hidle.symm.trans hdone
  idle := h.idle
  failed := h.failed

/-- **A subscription** joins those ahead of the loop, or, behind the last turn, those it passed. -/
theorem Inv.append (h : Inv s past ahead) {links : Links Nat} {nodes : Nat → Option Subscriber}
    (he : e.2.serial = s.nextSerial)
    (hring : Ring { s with
      nodes := nodes
      nextSerial := s.nextSerial + 1
      links := links } (past ++ ahead ++ [e])) :
    ∃ past' ahead', Inv { s with
      nodes := nodes
      nextSerial := s.nextSerial + 1
      links := links } past' ahead' := by
  obtain ⟨past', ahead', hsplit, hahead⟩ : ∃ past' ahead', past' ++ ahead' = past ++ ahead ++ [e] ∧
      (ahead = [] ∧ ahead' = [] ∨ ahead ≠ [] ∧ ahead' = ahead ++ [e]) := by
    by_cases hnil : ahead = []
    · subst hnil
      exact ⟨past ++ [e], [], by rw [List.append_nil, List.append_nil], .inl ⟨rfl, rfl⟩⟩
    · exact ⟨past, ahead ++ [e], (List.append_assoc ..).symm, .inr ⟨hnil, rfl⟩⟩
  have hserials : ∀ n, n ∈ serials (past' ++ ahead') ↔
      n ∈ serials (past ++ ahead) ∨ n = s.nextSerial := by
    intro n
    have hmap : serials (past ++ ahead ++ [e]) = serials (past ++ ahead) ++ [s.nextSerial] := by
      rw [← he]
      exact List.map_append
    rw [hsplit, hmap, List.mem_append, List.mem_singleton]
  refine ⟨past', ahead', hsplit ▸ hring, fun n hn => ?_, fun n hn => ?_,
    fun n hn => Nat.lt_succ_of_lt (h.called n hn), h.once, fun f hf => ?_, fun p hp => ?_,
    fun hne n hn => ?_, fun hdone => ?_, h.idle, h.failed⟩
  · obtain ⟨hlt, hnotin⟩ := h.removed n hn
    refine ⟨Nat.lt_succ_of_lt hlt, fun hmem => ?_⟩
    exact ((hserials n).mp hmem).elim hnotin (Nat.ne_of_lt hlt)
  · rcases Nat.lt_succ_iff_lt_or_eq.mp hn with hlt | heq
    · exact (h.known n hlt).imp_right fun hmem => (hserials n).mpr (.inl hmem)
    · exact .inr ((hserials n).mpr (.inr heq))
  · rcases hahead with ⟨-, rfl⟩ | ⟨-, rfl⟩
    · exact nomatch hf
    · rcases List.mem_append.mp hf with hf | hf
      · exact h.waiting f hf
      · rw [List.mem_singleton.mp hf, he]
        exact fun hcalled => Nat.lt_irrefl _ (h.called _ hcalled)
  · rcases hahead with ⟨rfl, rfl⟩ | ⟨hne, rfl⟩
    · exact h.cursor p hp
    · rw [h.cursor p hp]
      obtain ⟨f, rest, rfl⟩ := List.exists_cons_of_ne_nil hne
      rfl
  · refine (h.started hne n hn).imp_right fun hor => hor.imp_right fun hmem => ?_
    rcases hahead with ⟨rfl, rfl⟩ | ⟨-, rfl⟩
    · exact hmem
    · rw [serials, List.map_append]
      exact List.mem_append_left _ hmem
  · rcases hahead with ⟨-, rfl⟩ | ⟨hne, -⟩
    · rfl
    · exact absurd (h.done hdone) hne

/-- **An unsubscription** of a node that is not the one that comes next. -/
theorem Inv.remove {past' ahead' : List Entry} {links : Links Nat}
    {nodes : Nat → Option Subscriber} (h : Inv s past ahead)
    (hsplit : ∃ es₁ es₂, past ++ ahead = es₁ ++ e :: es₂ ∧ past' ++ ahead' = es₁ ++ es₂)
    (hahead : ahead' = ahead ∨ ∃ f rest₁ rest₂, ahead = f :: rest₁ ++ e :: rest₂ ∧
      ahead' = f :: rest₁ ++ rest₂)
    (hring : Ring { s with
      links := links
      nodes := nodes } (past' ++ ahead')) :
    Inv { s with
      links := links
      nodes := nodes
      removed := s.removed ++ [e.2.serial] } past' ahead' := by
  obtain ⟨es₁, es₂, hold, hnew⟩ := hsplit
  have hserials : ∀ n, n ∈ serials (past' ++ ahead') ↔
      n ∈ serials (past ++ ahead) ∧ n ≠ e.2.serial := by
    have hnodup := h.ring.serials
    rw [hold, List.map_append, List.map_cons, List.nodup_middle, List.nodup_cons,
      ← List.map_append] at hnodup
    intro n
    rw [hold, hnew]
    simp only [serials, List.map_append, List.map_cons, List.mem_append, List.mem_cons]
    rw [List.map_append, List.mem_append] at hnodup
    constructor
    · intro hmem
      refine ⟨hmem.imp_right .inr, ?_⟩
      rintro rfl
      exact hnodup.1 hmem
    · rintro ⟨hmem, hne⟩
      exact hmem.imp_right fun hor => hor.resolve_left hne
  have hmem : ∀ f ∈ ahead', f ∈ ahead := by
    rcases hahead with rfl | ⟨f, rest₁, rest₂, rfl, rfl⟩
    · exact fun _ => id
    · intro g hg
      exact (List.Sublist.append_left (List.sublist_cons_self e rest₂) (f :: rest₁)).mem hg
  refine ⟨hring.congr rfl rfl rfl, fun n hn => ?_, fun n hn => ?_, h.called, h.once,
    fun f hf => h.waiting f (hmem f hf), fun p hp => ?_, fun hne n hn => ?_, fun hdone => ?_,
    h.idle, h.failed⟩
  · rw [hserials]
    rcases List.mem_append.mp hn with hn | hn
    · exact ⟨(h.removed n hn).1, fun hin => (h.removed n hn).2 hin.1⟩
    · rw [List.mem_singleton.mp hn]
      refine ⟨h.ring.fresh e ?_, fun hin => hin.2 rfl⟩
      rw [hold]
      exact List.mem_append_right _ (List.mem_cons_self ..)
  · rw [hserials, List.mem_append, List.mem_singleton]
    by_cases heq : n = e.2.serial
    · exact .inl (.inr heq)
    · exact (h.known n hn).imp .inl fun hin => ⟨hin, heq⟩
  · rw [h.cursor p hp]
    rcases hahead with rfl | ⟨f, rest₁, rest₂, rfl, rfl⟩ <;> rfl
  · rcases h.started hne n hn with hcalled | hremoved | hin
    · exact .inl hcalled
    · exact .inr (.inl (List.mem_append_left _ hremoved))
    · by_cases heq : n = e.2.serial
      · exact .inr (.inl (heq ▸ List.mem_append_right _ (List.mem_singleton_self _)))
      · refine .inr (.inr ?_)
        rcases hahead with rfl | ⟨f, rest₁, rest₂, rfl, rfl⟩
        · exact hin
        · rw [serials, List.map_append, List.map_cons (l := rest₂), List.mem_append,
            List.mem_cons] at hin
          rw [serials, List.map_append, List.mem_append]
          exact hin.imp_right fun hor => hor.resolve_left heq
  · rcases hahead with rfl | ⟨f, rest₁, rest₂, rfl, rfl⟩
    · exact h.done hdone
    · exact nomatch h.done hdone

/-! ## The steps -/

/-- The loop stands somewhere in the list. -/
def Invariant (s : State) : Prop := ∃ past ahead, Inv s past ahead

/-- `avbox_application_subscribe` -/
theorem Inv.subscribe (h : Inv s past ahead) (handler context : Nat) {malloc : Option Nat}
    (hfree : ∀ a ∈ malloc, ¬allocated s a) :
    Ensures (subscribe s handler context malloc) Invariant fun _ => False := by
  unfold Subscribers.subscribe
  rw [h.ring.find, ensures_bind, ensures_ok]
  split
  · exact ⟨past, ahead, h⟩
  · cases malloc with
    | none => exact ⟨past, ahead, h⟩
    | some a =>
      have ha : allocated s a = false := Bool.eq_false_iff.mpr (hfree a rfl)
      obtain ⟨links, happend, hring⟩ := h.ring.append ha handler context
      dsimp only
      rw [happend]
      exact h.append rfl hring

theorem Inv.first (h : Inv s past (e :: ahead)) {next : Option Nat} {handler context : Nat}
    (hphase : s.phase = .running next)
    (hfind : findsubscriber s handler context = .ok (some e.1)) :
    hitsNext s handler context = true := by
  have hnext : next = some e.1 := h.cursor next (.inr hphase)
  rw [hitsNext, hphase, hnext, hfind]
  exact beq_self_eq_true _

/-- `avbox_application_unsubscribe` -/
theorem Inv.unsubscribe (h : Inv s past ahead) {handler context : Nat}
    (hfree : s.phase.free = true) (hok : hitsNext s handler context = false) :
    Ensures (unsubscribe s handler context) Invariant fun _ => False := by
  obtain ⟨past, ahead, h, hidle⟩ :
      ∃ past ahead, Inv s past ahead ∧ (s.phase = .idle → ahead = []) := by
    by_cases hidle : s.phase = .idle
    · exact ⟨past ++ ahead, [], h.split hidle (List.append_nil _), fun _ => rfl⟩
    · exact ⟨past, ahead, h, fun h => absurd h hidle⟩
  have hfind := h.ring.find handler context
  rw [Subscribers.unsubscribe, hfind, ensures_bind, ensures_ok]
  cases hfound : (past ++ ahead).find? fun e =>
      decide (e.2.handler = handler ∧ e.2.context = context) with
  | none => exact ⟨past, ahead, h⟩
  | some e =>
    rw [hfound] at hfind
    have hmem := List.mem_of_find?_eq_some hfound
    have hnode : s.nodes e.1 = some e.2 := (h.ring.nodes e.1 e.2).mpr hmem
    obtain ⟨es₁, es₂, past', ahead', hold, hnew, hahead⟩ : ∃ es₁ es₂ past' ahead',
        past ++ ahead = es₁ ++ e :: es₂ ∧ past' ++ ahead' = es₁ ++ es₂ ∧
          (ahead' = ahead ∨ ∃ f rest₁ rest₂,
            ahead = f :: rest₁ ++ e :: rest₂ ∧ ahead' = f :: rest₁ ++ rest₂) := by
      rcases List.mem_append.mp hmem with hin | hin
      · obtain ⟨p₁, p₂, rfl⟩ := List.append_of_mem hin
        exact ⟨p₁, p₂ ++ ahead, p₁ ++ p₂, ahead, by simp, by simp, .inl rfl⟩
      · obtain ⟨a₁, a₂, rfl⟩ := List.append_of_mem hin
        refine ⟨past ++ a₁, a₂, past, a₁ ++ a₂, by simp, by simp, ?_⟩
        cases a₁ with
        | nil =>
          -- the first one ahead: no handler that runs may unsubscribe it
          cases hphase : s.phase with
          | idle => exact absurd (hidle hphase) (List.cons_ne_nil e a₂)
          | looping p =>
            rw [hphase] at hfree
            exact nomatch hfree
          | running next => exact nomatch hok.symm.trans (h.first hphase hfind)
          | done => exact absurd (h.done hphase) (List.cons_ne_nil e a₂)
        | cons f a₁ => exact .inr ⟨f, a₁, a₂, rfl, rfl⟩
    have hring := h.ring
    rw [hold] at hring
    obtain ⟨links, hremove, hrest⟩ := hring.remove
    simp only [Option.map_some, hremove, ensures_bind, ensures_ok, hnode, Option.toList_some]
    rw [← hnew] at hrest
    exact ⟨past', ahead', h.remove ⟨es₁, es₂, hold, hnew⟩ hahead hrest⟩

/-- `AVBOX_MESSAGETYPE_DESTROY` -/
theorem Inv.destroy (h : Inv s past ahead) (hidle : s.phase = .idle) :
    Inv { s with
      phase := .looping (s.links.next head)
      started := subscribed s } [] (past ++ ahead) := by
  have hall : Inv s [] (past ++ ahead) := h.split hidle rfl
  refine ⟨hall.ring.congr rfl rfl rfl, h.removed, h.known, h.called, h.once, hall.waiting,
    fun p hp => ?_, fun _ n hn => ?_, nofun, nofun, h.failed⟩
  · rw [← h.ring.ring.next_head]
    rcases hp with hp | hp <;> cases hp
    rfl
  · obtain ⟨hrange, hremoved⟩ := List.mem_filter.mp hn
    rw [decide_eq_true_iff] at hremoved
    exact .inr (.inr ((h.known n (List.mem_range.mp hrange)).resolve_left hremoved))

/-- **A turn of the loop** calls the first subscriber ahead, or ends. -/
theorem Inv.turn (h : Inv s past ahead) {p : Option Nat} (hphase : s.phase = .looping p) :
    Ensures (turn s p) (fun r => Invariant r.1 ∧ ∀ node ∈ r.2,
      node.serial ∉ s.removed ∧ node.serial ∉ s.called) fun _ => False := by
  rw [h.cursor p (.inl hphase)]
  cases ahead with
  | nil =>
    refine ⟨⟨past, [], h.ring.congr rfl rfl rfl, h.removed, h.known, h.called, h.once, h.waiting,
      fun p hp => hp.elim nofun nofun, fun _ => h.started (hphase ▸ nofun), fun _ => rfl, nofun,
      h.failed⟩, nofun⟩
  | cons e rest =>
    have hmem : e ∈ past ++ e :: rest := List.mem_append_right _ (List.mem_cons_self ..)
    have hnode : s.nodes e.1 = some e.2 := (h.ring.nodes e.1 e.2).mpr hmem
    have hserial : e.2.serial ∉ s.called := h.waiting e (List.mem_cons_self ..)
    have hnext : s.links.next e.1 = (rest.map Prod.fst ++ [head]).head? := by
      have hring := h.ring.ring
      rw [List.map_append, List.map_cons] at hring
      exact hring.next_mid
    have hsplit : past ++ [e] ++ rest = past ++ e :: rest := List.append_cons .. |>.symm
    rw [List.map_cons, List.cons_append, List.head?_cons, Subscribers.turn,
      if_neg (h.ring.ne_head hmem), hnode]
    refine ⟨⟨past ++ [e], rest, ?_, ?_, ?_, fun n hn => ?_, ?_, fun f hf => ?_, fun q hq => ?_,
      fun _ n hn => ?_, nofun, nofun, h.failed⟩, fun node hn => ?_⟩
    · rw [hsplit]
      exact h.ring.congr rfl rfl rfl
    · rw [hsplit]
      exact h.removed
    · rw [hsplit]
      exact h.known
    · rcases List.mem_append.mp hn with hn | hn
      · exact h.called n hn
      · rw [List.mem_singleton.mp hn]
        exact h.ring.fresh e hmem
    · refine List.nodup_append.mpr ⟨h.once, List.nodup_singleton _, fun n hn m hm => ?_⟩
      rw [List.mem_singleton.mp hm]
      rintro rfl
      exact hserial hn
    · have hnodup := h.ring.serials
      rw [List.map_append, List.map_cons] at hnodup
      have hrest := (List.nodup_cons.mp (List.nodup_append.mp hnodup).2.1).1
      rw [List.mem_append, List.mem_singleton, not_or]
      exact ⟨h.waiting f (List.mem_cons_of_mem _ hf), fun heq =>
        hrest (heq ▸ List.mem_map_of_mem hf)⟩
    · rw [← hnext]
      rcases hq with hq | hq <;> cases hq
      rfl
    · rcases h.started (hphase ▸ nofun) n hn with hcalled | hremoved | hin
      · exact .inl (List.mem_append_left _ hcalled)
      · exact .inr (.inl hremoved)
      · rcases List.mem_cons.mp hin with rfl | hin
        · exact .inl (List.mem_append_right _ (List.mem_singleton_self _))
        · exact .inr (.inr hin)
    · cases hn
      exact ⟨fun hremoved => (h.removed _ hremoved).2 (List.mem_map_of_mem hmem), hserial⟩

theorem Inv.ret (h : Inv s past ahead) {p : Option Nat} (hphase : s.phase = .running p) :
    Inv { s with phase := .looping p } past ahead where
  ring := h.ring.congr rfl rfl rfl
  removed := h.removed
  known := h.known
  called := h.called
  once := h.once
  waiting := h.waiting
  cursor q hq := by
    rcases hq with hq | hq <;> cases hq
    exact h.cursor p (.inr hphase)
  started _ := h.started (hphase ▸ nofun)
  done := nofun
  idle := nofun
  failed := h.failed

/-- What every step that is granted does. -/
theorem Inv.next (h : Inv s past ahead) {e : Event} (hok : Granted s e)
    {r : Except Fault (State × Option Subscriber)} (hr : next s e = some r) :
    Ensures r (fun r => Invariant r.1 ∧ ∀ node ∈ r.2,
      node.serial ∉ s.removed ∧ node.serial ∉ s.called) fun _ => False := by
  cases e with
  | subscribe handler context malloc =>
    obtain ⟨⟨-, hfree⟩, ⟨⟩⟩ := Option.ite_none_right_eq_some.mp hr
    exact ensures_map.mpr ((h.subscribe handler context hfree).imp fun _ ht => ⟨ht, nofun⟩)
  | unsubscribe handler context =>
    obtain ⟨hfree, ⟨⟩⟩ := Option.ite_none_right_eq_some.mp hr
    exact ensures_map.mpr ((h.unsubscribe hfree hok).imp fun _ ht => ⟨ht, nofun⟩)
  | destroy =>
    obtain ⟨hidle, ⟨⟩⟩ := Option.ite_none_right_eq_some.mp hr
    exact ⟨⟨_, _, h.destroy hidle⟩, nofun⟩
  | turn =>
    cases hphase : s.phase with
    | looping p =>
      rw [Subscribers.next, hphase] at hr
      cases hr
      exact h.turn hphase
    | _ => simp [Subscribers.next, hphase] at hr
  | ret =>
    cases hphase : s.phase with
    | running p =>
      rw [Subscribers.next, hphase] at hr
      cases hr
      exact ⟨⟨past, ahead, h.ret hphase⟩, nofun⟩
    | _ => simp [Subscribers.next, hphase] at hr

theorem Invariant.step {a : Event × Option Subscriber} (h : Invariant s) (hok : Granted s a.1)
    (hs : Step step s a s') :
    Invariant s' ∧ ∀ node ∈ a.2, node.serial ∉ s.removed ∧ node.serial ∉ s.called := by
  obtain ⟨e, out⟩ := a
  obtain ⟨past, ahead, hinv⟩ := h
  simp only [Step, Subscribers.step, hinv.failed, Option.isSome_none, Bool.false_eq_true,
    if_false] at hs
  obtain ⟨r, hr, hs⟩ := Option.map_eq_some_iff.mp hs
  have hres := hinv.next hok hr
  cases r with
  | ok r =>
    cases hs
    exact hres
  | error f => exact hres.elim

theorem Invariant.kept (h : Invariant s) : Kept s := by
  obtain ⟨past, ahead, hinv⟩ := h
  refine ⟨hinv.failed, hinv.once, fun node s' hs => ?_, fun hdone n hn => ?_⟩
  · have hstep := Invariant.step (a := (.turn, some node)) ⟨past, ahead, hinv⟩ trivial hs
    exact hstep.2 node rfl
  · have hahead := hinv.done hdone
    subst hahead
    exact (hinv.started (hdone ▸ nofun) n hn).imp_right
      fun hor => hor.resolve_right List.not_mem_nil

/-! ## Runs -/

/-- **Quitting**: while no handler unsubscribes the one that comes next, no node is used after it
    was freed, nobody is called twice or after it was unsubscribed, and in the end everyone who was
    subscribed at the start was called, or unsubscribed before. -/
theorem quit_calls (h : Run (Guarded step Granted) init tr s) : Kept s := by
  have hinv : Invariant s := h.invariant (P := Invariant) ⟨[], [], Inv.init⟩
    fun _ _ _ ht hstep => (ht.step hstep.1 hstep.2).1
  exact hinv.kept

/-- The second of four unsubscribes itself and the last one, whose address a fifth one takes. -/
theorem quit_calls_four : ∃ tr s, Run (Guarded step Granted) init tr s ∧
    s.phase = .done ∧ s.called = [0, 1, 2, 4] ∧ s.removed = [1, 3] ∧ Kept s := by
  obtain ⟨tr, s, hrun, hdone, hcalled, hremoved⟩ := exists_run_of_guarded_exec step Granted init
    (fun _ s => s.phase = .done ∧ s.called = [0, 1, 2, 4] ∧ s.removed = [1, 3])
    [.subscribe 1 0 (some 10), .subscribe 2 0 (some 20), .subscribe 3 0 (some 30),
      .subscribe 4 0 (some 40), .destroy, .turn, .ret, .turn, .unsubscribe 2 0, .unsubscribe 4 0,
      .subscribe 5 0 (some 40), .ret, .turn, .ret, .turn, .ret, .turn]
    (by decide +kernel)
  exact ⟨tr, s, hrun, hdone, hcalled, hremoved, quit_calls hrun⟩

/-- The first of two subscribers unsubscribes the second, whose node is read nevertheless.  Where
    another one takes its address, those between the two are not called. -/
theorem quit_skips :
    (∃ tr s, Run (Step step) init tr s ∧ s.failed = some .freed ∧ ¬Kept s) ∧
      ∃ tr s, Run (Step step) init tr s ∧ s.phase = .done ∧ s.failed = none ∧
        2 ∈ s.started ∧ 2 ∉ s.called ∧ 2 ∉ s.removed ∧ ¬Kept s := by
  obtain ⟨tr, s, hrun, hfailed⟩ := exists_run_of_exec step init
    (fun _ s => s.failed = some .freed)
    [.subscribe 1 0 (some 10), .subscribe 2 0 (some 20), .destroy, .turn, .unsubscribe 2 0, .ret,
      .turn]
    (by decide +kernel)
  obtain ⟨tr', s', hrun', hdone, hnone, hstarted, hcalled, hremoved⟩ := exists_run_of_exec step init
    (fun _ s => s.phase = .done ∧ s.failed = none ∧ 2 ∈ s.started ∧ 2 ∉ s.called ∧ 2 ∉ s.removed)
    [.subscribe 1 0 (some 10), .subscribe 2 0 (some 20), .subscribe 3 0 (some 30), .destroy, .turn,
      .unsubscribe 2 0, .subscribe 4 0 (some 20), .ret, .turn, .ret, .turn]
    (by decide +kernel)
  exact ⟨⟨tr, s, hrun, hfailed, fun hkept => nomatch hfailed.symm.trans hkept.failed⟩,
    tr', s', hrun', hdone, hnone, hstarted, hcalled, hremoved, fun hkept =>
      (hkept.complete hdone 2 hstarted).elim hcalled hremoved⟩

end Mediabox.Subscribers
