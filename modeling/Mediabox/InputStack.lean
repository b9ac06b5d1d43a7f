import Mathlib.Data.List.Induction
import Mediabox.Lib.Outcome
import Mediabox.Lib.Recency
import Mediabox.Lib.Transition
import Mediabox.LinkedList

/-!
# The input stack (`src/lib/ui/input.c`)

The objects that have grabbed the input, the last one first.  `avbox_input_sendevent` gives their
list to the anycast message.

* A node of `endpoints` is the address that `malloc` gave; what is not allocated has no object.
* `objlist` is the array of `avbox_input_getendpoints`, slot by slot.
* A step is one call; `endpoints_lock` is not held over the whole of `avbox_input_grab`, so that
  calls by several threads are one after another here.

Main result: `stack_by_last_grab`.
-/

set_option autoImplicit false

namespace Mediabox.InputStack

open Outcome Recency Transition

variable {α : Type}

/-! ## The code -/

inductive Fault where
  /-- a node that is not allocated -/
  | freed
  /-- a store behind the end of `objlist` -/
  | overrun
  /-- `abort()` -/
  | abort
  deriving DecidableEq, Repr

structure State (α : Type) where
  /-- `ep->object` -/
  object : Nat → Option α
  endpoints : List Nat
  failed : Option Fault

/-- `LIST_INIT(&endpoints)` -/
def init : State α := ⟨fun _ => none, [], none⟩

/-- A slot of `objlist`. -/
inductive Slot (α : Type) where
  | garbage
  | null
  | object (obj : α)
  deriving DecidableEq, Repr

def deref (s : State α) (ep : Nat) : Except Fault α :=
  match s.object ep with
  | some obj => .ok obj
  | none => .error .freed

/-- `objlist[i] = v` -/
def store (objlist : List (Slot α)) (i : Nat) (v : Slot α) : Except Fault (List (Slot α)) :=
  if i < objlist.length then .ok (objlist.set i v) else .error .overrun

/-- `objlist[i++] = ep->object` for the endpoints -/
def copy (s : State α) : List Nat → Nat → List (Slot α) → Except Fault (Nat × List (Slot α))
  | [], i, objlist => .ok (i, objlist)
  | ep :: eps, i, objlist => do
    let obj ← deref s ep
    let objlist ← store objlist i (.object obj)
    copy s eps (i + 1) objlist

/-- `avbox_input_getendpoints`, with its array allocated. -/
def getendpoints (s : State α) : Except Fault (Nat × List (Slot α)) := do
  let cnt := s.endpoints.length
  let (i, objlist) ← copy s s.endpoints 0 (List.replicate (cnt + 1) .garbage)
  let objlist ← store objlist i .null
  .ok (cnt, objlist)

variable [DecidableEq α]

/-- The first of these nodes that has the object. -/
def search (s : State α) (obj : α) : List Nat → Except Fault (Option Nat)
  | [] => .ok none
  | ep :: eps => do
    let object ← deref s ep
    if object = obj then .ok (some ep) else search s obj eps

/-- `avbox_input_getendpoint` -/
def getendpoint (s : State α) (obj : α) : Except Fault (Option Nat) := search s obj s.endpoints

inductive Event (α : Type) where
  /-- with what `malloc` would give for a node -/
  | grab (obj : α) (malloc : Option Nat)
  | release (obj : α)
  /-- whether the event and the array could be allocated and the message sent -/
  | sendevent (ev dest sent : Bool)
  deriving DecidableEq, Repr

inductive Result (α : Type) where
  | returned (ret : Int)
  | released
  /-- there are no endpoints -/
  | unsent
  | sent (dest : List (Slot α))
  | failed (f : Fault)
  deriving DecidableEq, Repr

/-- `avbox_input_grab` -/
def grab (s : State α) (obj : α) (malloc : Option Nat) : Except Fault (State α × Result α) := do
  let (s, node) ← match ← getendpoint s obj, malloc with
    | none, node => .ok (s, node)
    | some ep, _ => .ok ({ s with endpoints := listRemove s.endpoints ep }, some ep)
  match node with
  | none => .ok (s, .returned (-1))
  | some ep =>
    .ok ({ s with
      object := Function.update s.object ep (some obj)
      endpoints := listAdd s.endpoints ep }, .returned 0)

/-- `avbox_input_release` -/
def release (s : State α) (obj : α) : Except Fault (State α × Result α) := do
  match ← getendpoint s obj with
  | none => .ok (s, .released)
  | some ep =>
    .ok ({ s with
      object := Function.update s.object ep none
      endpoints := listRemove s.endpoints ep }, .released)

omit [DecidableEq α] in
/-- `avbox_input_sendevent` -/
def sendevent (s : State α) (ev dest sent : Bool) : Except Fault (State α × Result α) :=
  if !ev then .error .abort
  else if !dest then .error .abort
  else do
    let (cnt, objlist) ← getendpoints s
    if cnt = 0 then .ok (s, .unsent)
    else if sent then .ok (s, .sent objlist)
    else .error .abort

def call (s : State α) : Event α → Except Fault (State α × Result α)
  | .grab obj malloc => grab s obj malloc
  | .release obj => release s obj
  | .sendevent ev dest sent => sendevent s ev dest sent

/-- `malloc` gives no node that is in use. -/
def Event.possible (s : State α) : Event α → Bool
  | .grab _ (some ep) => (s.object ep).isNone
  | _ => true

/-- One call, as long as the program has not been aborted. -/
def step (s : State α) (e : Event α) : Option (State α × Result α) :=
  if s.failed.isSome ∨ !e.possible s then none
  else
    match call s e with
    | .ok r => some r
    | .error f => some ({ s with failed := some f }, .failed f)

/-! ## What it is for -/

/-- The objects on the stack, the first to be asked first. -/
def State.objects (s : State α) : List α := s.endpoints.filterMap s.object

/-- When an object was last grabbed, if it was not released since. -/
def note (tr : Nat × (α → Option Nat)) (a : Event α × Result α) : Nat × (α → Option Nat) :=
  match a with
  | (.grab obj _, .returned 0) => (tr.1 + 1, Function.update tr.2 obj (some tr.1))
  | (.release obj, .released) => (tr.1 + 1, Function.update tr.2 obj none)
  | _ => (tr.1 + 1, tr.2)

def lastGrab (tr : List (Event α × Result α)) : α → Option Nat :=
  (tr.foldl note (0, fun _ => none)).2

/-- What one call does to a stack, and what it gives to the message. -/
def Handles (stack stack' : List α) : Event α → Result α → Prop
  | .grab obj malloc, r =>
    if obj ∉ stack ∧ malloc = none then r = .returned (-1) ∧ stack' = stack
    else r = .returned 0 ∧ stack' = obj :: stack.erase obj
  | .release obj, r => r = .released ∧ stack' = stack.erase obj
  | .sendevent ev dest sent, r =>
    stack' = stack ∧
      if !ev || !dest then r = .failed .abort
      else if stack = [] then r = .unsent
      else if sent then r = .sent (stack.map .object ++ [.null])
      else r = .failed .abort

/-- What holds when these calls have led to the state. -/
structure Kept (tr : List (Event α × Result α)) (s : State α) : Prop where
  order : Recent (lastGrab tr) s.objects
  nodup : s.objects.Nodup
  handles : ∀ e r s', Step step s (e, r) s' → Handles s.objects s'.objects e r
  /-- a node is allocated as long as it is in the list -/
  nodes : ∀ ep, (s.object ep).isSome ↔ ep ∈ s.endpoints
  failed : ∀ f, s.failed = some f → f = .abort

variable {s s' : State α} {obj : α} {ep : Nat} {eps : List Nat} {tr : List (Event α × Result α)}

/-! ## The list of nodes -/

/-- The nodes of the list are those that are allocated, each once. -/
structure WellFormed (s : State α) : Prop where
  nodes : ∀ ep, (s.object ep).isSome ↔ ep ∈ s.endpoints
  nodup : s.endpoints.Nodup

/-- What a search finds: the first node with the object. -/
def Found (s : State α) (obj : α) (eps : List Nat) : Option Nat → Prop
  | none => obj ∉ eps.filterMap s.object
  | some ep => ∃ l l', eps = l ++ ep :: l' ∧ s.object ep = some obj ∧ obj ∉ l.filterMap s.object

theorem search_ensures (hlive : ∀ ep ∈ eps, (s.object ep).isSome) :
    Ensures (search s obj eps) (Found s obj eps) fun _ => False := by
  induction eps with
  | nil => exact List.not_mem_nil
  | cons ep eps ih =>
    rw [List.forall_mem_cons] at hlive
    obtain ⟨first, hfirst⟩ := Option.isSome_iff_exists.mp hlive.1
    simp only [search, deref, hfirst, ensures_bind, ensures_ok]
    by_cases heq : first = obj
    · rw [if_pos heq]
      exact ⟨[], eps, rfl, heq ▸ hfirst, List.not_mem_nil⟩
    · rw [if_neg heq]
      have hnot : obj ∉ [ep].filterMap s.object := by simp [hfirst, Ne.symm heq]
      refine (ih hlive.2).imp fun r hr => ?_
      cases r with
      | none =>
        rw [Found, ← List.singleton_append, List.filterMap_append, List.mem_append, not_or]
        exact ⟨hnot, hr⟩
      | some ep' =>
        obtain ⟨l, l', rfl, hobj, hl⟩ := hr
        refine ⟨ep :: l, l', rfl, hobj, ?_⟩
        rw [← List.singleton_append, List.filterMap_append, List.mem_append, not_or]
        exact ⟨hnot, hl⟩

theorem WellFormed.getendpoint (h : WellFormed s) (obj : α) :
    Ensures (getendpoint s obj) (Found s obj s.endpoints) fun _ => False :=
  search_ensures fun ep hep => (h.nodes ep).mpr hep

omit [DecidableEq α] in
/-- What a node has does not matter to a list without it. -/
theorem filterMap_update (hep : ep ∉ eps) (v : Option α) :
    eps.filterMap (Function.update s.object ep v) = eps.filterMap s.object :=
  List.filterMap_congr fun _ ha => Function.update_of_ne (ne_of_mem_of_not_mem ha hep) _ _

/-- **Removing a node** removes its object, and the other nodes stay. -/
theorem Found.remove (hf : Found s obj s.endpoints (some ep)) (hnodup : s.endpoints.Nodup)
    (v : Option α) : ep ∉ listRemove s.endpoints ep ∧
      (listRemove s.endpoints ep).filterMap (Function.update s.object ep v) =
        s.objects.erase obj := by
  obtain ⟨l, l', heps, hobj, hl⟩ := hf
  have hnot : ep ∉ listRemove s.endpoints ep := hnodup.not_mem_erase
  refine ⟨hnot, ?_⟩
  rw [filterMap_update hnot, State.objects, listRemove, heps, List.filterMap_append,
    List.filterMap_cons_some hobj, List.erase_append_right _ hl, List.erase_cons_head]
  rw [heps] at hnodup
  rw [List.erase_append_right _ fun hmem =>
    List.disjoint_of_nodup_append hnodup hmem (List.mem_cons_self ..), List.erase_cons_head,
    List.filterMap_append]

omit [DecidableEq α] in
theorem WellFormed.add (hnodup : eps.Nodup) (hep : ep ∉ eps)
    (hnodes : ∀ a, a ≠ ep → ((s.object a).isSome ↔ a ∈ eps)) :
    WellFormed { s with
      object := Function.update s.object ep (some obj)
      endpoints := listAdd eps ep } := by
  refine ⟨fun a => ?_, List.nodup_cons.mpr ⟨hep, hnodup⟩⟩
  rw [listAdd, List.mem_cons]
  dsimp only
  rcases eq_or_ne a ep with rfl | ha
  · simp
  · rw [Function.update_of_ne ha, hnodes a ha]
    exact (or_iff_right ha).symm

omit [DecidableEq α] in
theorem objects_add (hep : ep ∉ eps) :
    State.objects { s with
      object := Function.update s.object ep (some obj)
      endpoints := listAdd eps ep } = obj :: eps.filterMap s.object := by
  rw [State.objects, listAdd, List.filterMap_cons_some (Function.update_self ep _ _),
    filterMap_update hep]

/-! ## The calls -/

/-- What a call leaves. -/
def Follows (s : State α) (e : Event α) (r : State α × Result α) : Prop :=
  WellFormed r.1 ∧ r.1.failed = s.failed ∧ Handles s.objects r.1.objects e r.2

omit [DecidableEq α] in
theorem mem_listRemove (h : WellFormed s) {a : Nat} (ha : a ≠ ep) :
    (s.object a).isSome ↔ a ∈ listRemove s.endpoints ep := by
  rw [listRemove, List.mem_erase_of_ne ha]
  exact h.nodes a

/-- **Grab**: the object comes to the front of the stack. -/
theorem grab_ensures (h : WellFormed s) {malloc : Option Nat}
    (hmalloc : (Event.grab obj malloc).possible s = true) :
    Ensures (grab s obj malloc) (Follows s (.grab obj malloc)) fun _ => False := by
  rw [grab, ensures_bind]
  refine (h.getendpoint obj).imp fun r hr => ?_
  cases r with
  | none =>
    have habsent : obj ∉ s.objects := hr
    cases malloc with
    | none => exact ⟨h, rfl, by rw [Handles, if_pos ⟨habsent, rfl⟩]; exact ⟨rfl, rfl⟩⟩
    | some ep =>
      have hep : ep ∉ s.endpoints := by
        rw [← h.nodes, Option.not_isSome_iff_eq_none]
        exact Option.isNone_iff_eq_none.mp hmalloc
      refine ⟨WellFormed.add h.nodup hep fun a _ => h.nodes a, rfl, ?_⟩
      rw [Handles, if_neg (by simp), objects_add hep, List.erase_of_not_mem habsent]
      exact ⟨rfl, rfl⟩
  | some ep =>
    obtain ⟨hnot, hobjects⟩ := hr.remove h.nodup (s.object ep)
    rw [Function.update_eq_self] at hobjects
    have hpresent : obj ∈ s.objects := by
      obtain ⟨l, l', heps, hobj, -⟩ := hr
      exact List.mem_filterMap.mpr ⟨ep, heps ▸ List.mem_append_right _ (List.mem_cons_self ..), hobj⟩
    refine ⟨WellFormed.add (h.nodup.erase ep) hnot fun a ha => mem_listRemove h ha, rfl, ?_⟩
    rw [Handles, if_neg fun hc => hc.1 hpresent]
    exact ⟨rfl, (objects_add hnot).trans (congrArg _ hobjects)⟩

/-- **Release**: the stack loses the object, if it has it. -/
theorem release_ensures (h : WellFormed s) :
    Ensures (release s obj) (Follows s (.release obj)) fun _ => False := by
  rw [release, ensures_bind]
  refine (h.getendpoint obj).imp fun r hr => ?_
  cases r with
  | none => exact ⟨h, rfl, rfl, (List.erase_of_not_mem hr).symm⟩
  | some ep =>
    obtain ⟨hnot, hobjects⟩ := hr.remove h.nodup none
    refine ⟨⟨fun a => ?_, h.nodup.erase ep⟩, rfl, rfl, hobjects⟩
    dsimp only
    rcases eq_or_ne a ep with rfl | ha
    · simp [hnot]
    · rw [Function.update_of_ne ha]
      exact mem_listRemove h ha

omit [DecidableEq α] in
/-- The slots up to `i` are filled, the others are garbage: the objects come behind the first. -/
theorem copy_ensures (hlive : ∀ ep ∈ eps, (s.object ep).isSome) (done : List (Slot α)) (k : Nat) :
    Ensures (copy s eps done.length (done ++ List.replicate (eps.length + k) Slot.garbage))
      (· = (done.length + eps.length,
        done ++ (eps.filterMap s.object).map Slot.object ++ List.replicate k Slot.garbage))
      fun _ => False := by
  induction eps generalizing done with
  | nil => simp [copy]
  | cons ep eps ih =>
    rw [List.forall_mem_cons] at hlive
    obtain ⟨obj, hobj⟩ := Option.isSome_iff_exists.mp hlive.1
    have hroom : done.length < (done ++ List.replicate ((ep :: eps).length + k)
        Slot.garbage).length := by
      simp only [List.length_append, List.length_replicate, List.length_cons]
      omega
    have hset : (done ++ List.replicate ((ep :: eps).length + k) Slot.garbage).set done.length
        (.object obj) = done ++ [Slot.object obj] ++
          List.replicate (eps.length + k) Slot.garbage := by
      rw [List.length_cons, Nat.add_right_comm, List.replicate_succ, List.set_append_right _ _
        (Nat.le_refl _), Nat.sub_self, List.set_cons_zero, List.append_assoc]
      rfl
    have hih := ih hlive.2 (done ++ [Slot.object obj])
    rw [List.length_append, List.length_singleton] at hih
    simp only [copy, deref, hobj, store, if_pos hroom, hset, ensures_bind, ensures_ok]
    refine hih.imp fun r hr => ?_
    rw [hr, List.filterMap_cons_some hobj, List.map_cons, List.length_cons, List.append_assoc done]
    exact Prod.ext (by dsimp only; omega) rfl

omit [DecidableEq α] in
/-- **The array**: the objects of the stack and a NULL, and nothing is left uninitialised. -/
theorem getendpoints_ensures (h : WellFormed s) :
    Ensures (getendpoints s) (· = (s.endpoints.length, s.objects.map Slot.object ++ [Slot.null]))
      fun _ => False := by
  have hcopy := copy_ensures (s := s) (fun ep hep => (h.nodes ep).mpr hep) [] 1
  rw [getendpoints, ensures_bind]
  refine hcopy.imp fun r hr => ?_
  have hlen : s.objects.length = s.endpoints.length :=
    List.filterMap_length_eq_length.mpr fun ep hep => (h.nodes ep).mpr hep
  subst hr
  rw [List.length_nil, Nat.zero_add, List.nil_append]
  have hroom : s.endpoints.length <
      (s.objects.map Slot.object ++ List.replicate 1 Slot.garbage).length := by
    simp only [List.length_append, List.length_map, List.length_replicate]
    omega
  have hset : (s.objects.map Slot.object ++ List.replicate 1 Slot.garbage).set s.endpoints.length
      .null = s.objects.map Slot.object ++ [Slot.null] := by
    rw [List.set_append_right _ _ (by rw [List.length_map]; omega), List.length_map, hlen,
      Nat.sub_self]
    rfl
  simp only [store, ensures_bind]
  exact if_pos hroom ▸ hset ▸ rfl

/-- **The event**: it is sent to the whole stack, if there is one. -/
theorem sendevent_ensures (h : WellFormed s) (ev dest sent : Bool) :
    Ensures (sendevent s ev dest sent) (Follows s (.sendevent ev dest sent))
      fun f => f = .abort ∧ Handles s.objects s.objects (.sendevent ev dest sent) (.failed f) := by
  cases ev with
  | false => exact ⟨rfl, by simp [Handles]⟩
  | true =>
    cases dest with
    | false => exact ⟨rfl, by simp [Handles]⟩
    | true =>
      have hempty : s.endpoints.length = 0 ↔ s.objects = [] := by
        rw [← List.length_eq_zero_iff, State.objects,
          List.filterMap_length_eq_length.mpr fun ep hep => (h.nodes ep).mpr hep]
      simp only [sendevent, Handles, Bool.not_true, Bool.false_eq_true, if_false, ensures_bind,
        Bool.or_self]
      refine (getendpoints_ensures h).mono (fun r hr => ?_) (by rintro _ ⟨⟩)
      subst hr
      by_cases hnil : s.objects = []
      · rw [if_pos (hempty.mpr hnil)]
        exact ⟨h, rfl, by simp [Handles, hnil]⟩
      · rw [if_neg fun hc => hnil (hempty.mp hc)]
        cases sent with
        | true => exact ⟨h, rfl, by simp [Handles, hnil]⟩
        | false => exact ⟨rfl, by simp [hnil]⟩

/-! ## Runs -/

/-- **A step**: it does to the stack what the call is for. -/
theorem step_follows {a : Event α × Result α} (h : WellFormed s) (hs : Step step s a s') :
    WellFormed s' ∧ Handles s.objects s'.objects a.1 a.2 ∧ ∀ f, s'.failed = some f → f = .abort := by
  obtain ⟨e, r⟩ := a
  simp only [Step, step] at hs
  split at hs
  · cases hs
  rename_i hready
  rw [not_or, Option.not_isSome_iff_eq_none, Bool.not_eq_true', Bool.not_eq_false] at hready
  have hcall : Ensures (call s e) (Follows s e)
      fun f => f = .abort ∧ Handles s.objects s.objects e (.failed f) := by
    cases e with
    | grab obj malloc => exact (grab_ensures h hready.2).mono (fun _ hr => hr) nofun
    | release obj => exact (release_ensures h).mono (fun _ hr => hr) nofun
    | sendevent ev dest sent => exact sendevent_ensures h ev dest sent
  cases hres : call s e with
  | ok r' =>
    rw [hres, ensures_ok] at hcall
    simp only [hres, Option.some.injEq] at hs
    subst hs
    obtain ⟨hwf, hfailed, hhandles⟩ := hcall
    refine ⟨hwf, hhandles, fun f hf => ?_⟩
    rw [hfailed, hready.1] at hf
    cases hf
  | error f =>
    rw [hres, ensures_error] at hcall
    simp only [hres] at hs
    cases hs
    refine ⟨⟨h.nodes, h.nodup⟩, hcall.2, fun g hg => ?_⟩
    cases hg
    exact hcall.1

theorem foldl_note_fst (tr : List (Event α × Result α)) :
    (tr.foldl note (0, fun _ => none)).1 = tr.length := by
  induction tr using List.reverseRecOn with
  | nil => rfl
  | append_singleton tr a ih =>
    rw [List.foldl_append, List.foldl_cons, List.foldl_nil, List.length_append, ← ih]
    unfold note
    split <;> rfl

theorem lastGrab_append (tr : List (Event α × Result α)) (a : Event α × Result α) :
    lastGrab (tr ++ [a]) = (note (tr.length, lastGrab tr) a).2 := by
  rw [lastGrab, List.foldl_append, List.foldl_cons, List.foldl_nil, ← foldl_note_fst, lastGrab]

theorem lastGrab_lt (tr : List (Event α × Result α)) :
    ∀ b m, lastGrab tr b = some m → m < tr.length := by
  induction tr using List.reverseRecOn with
  | nil => exact nofun
  | append_singleton tr a ih =>
    intro b m hm
    rw [lastGrab_append] at hm
    unfold note at hm
    rw [List.length_append, List.length_singleton]
    split at hm <;> dsimp only at hm
    · rename_i obj _
      rcases eq_or_ne b obj with rfl | hb
      · rw [Function.update_self, Option.some.injEq] at hm
        omega
      · rw [Function.update_of_ne hb] at hm
        exact Nat.lt_succ_of_lt (ih b m hm)
    · rename_i obj
      rcases eq_or_ne b obj with rfl | hb
      · rw [Function.update_self] at hm
        cases hm
      · rw [Function.update_of_ne hb] at hm
        exact Nat.lt_succ_of_lt (ih b m hm)
    · exact Nat.lt_succ_of_lt (ih b m hm)

/-- **The order of the stack**: a call keeps the objects in the order of their last grabs. -/
theorem Handles.order {e : Event α} {r : Result α} {stack stack' : List α}
    (hh : Handles stack stack' e r) (hr : Recent (lastGrab tr) stack) :
    Recent (lastGrab (tr ++ [(e, r)])) stack' := by
  rw [lastGrab_append]
  cases e with
  | grab obj malloc =>
    rw [Handles] at hh
    split at hh
    · obtain ⟨rfl, rfl⟩ := hh
      exact hr
    · obtain ⟨rfl, rfl⟩ := hh
      exact hr.touch obj (lastGrab_lt tr)
  | release obj =>
    obtain ⟨rfl, rfl⟩ := hh
    exact hr.remove obj
  | sendevent ev dest sent =>
    obtain ⟨rfl, -⟩ := hh
    exact hr

/-- **The stack**: in every run the objects on it are those that were grabbed and not released since,
    each once, the last one grabbed first.  Each call does what it is for, and an event is sent to
    the whole stack in this order. -/
theorem stack_by_last_grab (h : Run (Step step) (init : State α) tr s) : Kept tr s := by
  obtain ⟨hwf, horder, hfailed⟩ := Run.history (P := fun tr s => WellFormed s ∧
    Recent (lastGrab tr) s.objects ∧ ∀ f, s.failed = some f → f = .abort)
    ⟨⟨fun ep => by simp [init], List.nodup_nil⟩, Recent.nil, fun f hf => by simp [init] at hf⟩
    (fun tr t a u ⟨hwf, horder, _⟩ hstep => by
      obtain ⟨hwf', hhandles, hfailed⟩ := step_follows hwf hstep
      exact ⟨hwf', hhandles.order horder, hfailed⟩) h
  exact ⟨horder, horder.nodup, fun e r s' hs => (step_follows hwf hs).2.1, hwf.nodes, hfailed⟩

/-- Three grabs, one of them again, a release, and an event. -/
theorem stack_by_last_grab_three :
    ∃ tr s, Run (Step step) (init : State (Fin 4)) tr s ∧ s.objects = [0, 2] ∧
      (Event.sendevent true true true, Result.sent [.object 0, .object 2, .null]) ∈ tr ∧
      Kept tr s := by
  obtain ⟨tr, s, hrun, hobjects, hsent⟩ := exists_run_of_exec step (init : State (Fin 4))
    (fun tr s => s.objects = [0, 2] ∧
      (Event.sendevent true true true, Result.sent [.object 0, .object 2, .null]) ∈ tr)
    [.grab 0 (some 10), .grab 1 (some 11), .grab 2 (some 12), .release 1, .grab 0 none,
      .grab 3 none, .release 3, .sendevent true true true] (by decide +kernel)
  exact ⟨tr, s, hrun, hobjects, hsent, stack_by_last_grab hrun⟩

end Mediabox.InputStack
