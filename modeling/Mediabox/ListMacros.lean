import Mediabox.Lib.LinkRing
import Mediabox.LinkedList

/-!
# The intrusive list macros (`include/libavbox/linkedlist.h`)

The macros as writes to the `prev` and `next` fields of nodes.  A list header is a node itself, and
a list is the ring through its header.

* `Op` — `LIST_ADD`, `LIST_APPEND` and `LIST_REMOVE`, with any number of lists; `perform` is what an
  operation does to the heap, `apply` what it does to the sequences of nodes.
* A node is added only when it is in no list, and removed only when it is in one (`Allowed`).
* The body of a `LIST_FOREACH_SAFE` may do anything that is allowed, except append to the list it
  goes through or remove a node that is still to come (`Spares`).

Main result: `lists_refine`.
-/

set_option autoImplicit false

namespace Mediabox.ListMacros

open LinkRing

variable {α : Type*} [DecidableEq α]

/-! ## The macros -/

/-- `LIST_INIT(list)` -/
def listInit (k : Links α) (list : α) : Links α where
  next := Function.update k.next list (some list)
  prev := Function.update k.prev list (some list)

/-- `LIST_ADD(list, item)` -/
def listAdd (k : Links α) (list item : α) : Option (Links α) :=
  (k.next list).map fun next => k.insert item list next

/-- `LIST_APPEND(list, item)` -/
def listAppend (k : Links α) (list item : α) : Option (Links α) :=
  (k.prev list).map fun prev => k.insert item prev list

/-- `LIST_REMOVE(item)` -/
def listRemove (k : Links α) (item : α) : Option (Links α) := do
  let prev ← k.prev item
  let next ← k.next item
  some (k.unlink prev next)

/-- `LIST_APPEND(list, item)`, `none` where the node that is last was freed. -/
def listAppendOf (allocated : α → Bool) (k : Links α) (list item : α) : Option (Links α) :=
  if (k.prev list).all allocated then listAppend k list item else none

/-- `LIST_REMOVE(item)`, `none` where a neighbour was freed. -/
def listRemoveOf (allocated : α → Bool) (k : Links α) (item : α) : Option (Links α) :=
  if (k.prev item).all allocated && (k.next item).all allocated then listRemove k item else none

inductive Op (α : Type*) where
  | add (list item : α)
  | append (list item : α)
  | remove (item : α)
  deriving DecidableEq, Repr

def Op.item : Op α → α
  | .add _ item => item
  | .append _ item => item
  | .remove item => item

def perform (k : Links α) : Op α → Option (Links α)
  | .add list item => listAdd k list item
  | .append list item => listAppend k list item
  | .remove item => listRemove k item

def performAll (k : Links α) : List (Op α) → Option (Links α)
  | [] => some k
  | op :: ops => (perform k op).bind fun k => performAll k ops

/-- The body of a loop, for which the nodes that were visited are noted. -/
def visit (body : List α → α → List (Op α)) (a : α) (s : Links α × List α) :
    Option (Links α × List α) :=
  (performAll s.1 (body s.2 a)).map fun k => (k, s.2 ++ [a])

/-- `LIST_FOREACH_SAFE(type, var, list, codeblock)`, of at most `fuel` rounds. -/
def listForeachSafe (body : List α → α → List (Op α)) (fuel : Nat) (k : Links α) (list : α) :
    Option (Links α × List α) :=
  Links.foreachSafe Prod.fst list (visit body) fuel (k.next list) (k, [])

/-! ## The sequences -/

/-- What is in the list of each header. -/
abbrev Lists (α : Type*) := α → List α

def apply (lists : Lists α) : Op α → Lists α
  | .add list item => Function.update lists list (Mediabox.listAdd (lists list) item)
  | .append list item => Function.update lists list (lists list ++ [item])
  | .remove item => fun list => Mediabox.listRemove (lists list) item

def applyAll (lists : Lists α) (ops : List (Op α)) : Lists α := ops.foldl apply lists

/-- The lists after operations on empty ones. -/
def built (ops : List (Op α)) : Lists α := applyAll (fun _ => []) ops

variable (heads : List α)

/-- A node is added that is in no list, and one is removed that is in a list. -/
def Allowed (lists : Lists α) : Op α → Prop
  | .add list item => list ∈ heads ∧ ∀ h ∈ heads, item ∉ h :: lists h
  | .append list item => list ∈ heads ∧ ∀ h ∈ heads, item ∉ h :: lists h
  | .remove item => ∃ h ∈ heads, item ∈ lists h

instance (lists : Lists α) : (op : Op α) → Decidable (Allowed heads lists op)
  | .add _ _ => inferInstanceAs (Decidable (_ ∧ _))
  | .append _ _ => inferInstanceAs (Decidable (_ ∧ _))
  | .remove _ => inferInstanceAs (Decidable (∃ _ ∈ _, _))

def AllowedAll : Lists α → List (Op α) → Prop
  | _, [] => True
  | lists, op :: ops => Allowed heads lists op ∧ AllowedAll (apply lists op) ops

instance decidableAllowedAll : (lists : Lists α) → (ops : List (Op α)) →
    Decidable (AllowedAll heads lists ops)
  | _, [] => isTrue trivial
  | lists, op :: ops =>
    have := decidableAllowedAll (apply lists op) ops
    inferInstanceAs (Decidable (_ ∧ _))

/-- The nodes with a field that the operation may write. -/
def Touches (lists : Lists α) : Op α → α → Prop
  | .add list item, a => a = item ∨ a ∈ list :: lists list
  | .append list item, a => a = item ∨ a ∈ list :: lists list
  | .remove item, a => ∃ h ∈ heads, item ∈ lists h ∧ a ∈ h :: lists h

/-! ## The loop -/

/-- The operations of the rounds for these nodes, after others. -/
def rounds (body : List α → α → List (Op α)) : List α → List α → List (Op α)
  | _, [] => []
  | done, a :: todo => body done a ++ rounds body (done ++ [a]) todo

/-- The operation leaves the nodes to come where they are. -/
def Spares (list : α) (todo : List α) : Op α → Prop
  | .add _ _ => True
  | .append list' _ => list' ≠ list
  | .remove item => item ∉ todo

/-! ## What it is for -/

/-- The heap has these lists: along `next` from each header there are these nodes, the two fields
    are inverse to each other, and a node is in one place only. -/
structure Represents (k : Links α) (lists : Lists α) : Prop where
  walk : ∀ h ∈ heads, k.walk h ((lists h).length + 1) (k.next h) = some (lists h)
  next : ∀ h ∈ heads, ∀ a ∈ h :: lists h, ∃ b ∈ h :: lists h, k.next a = some b ∧
    k.prev b = some a
  prev : ∀ h ∈ heads, ∀ b ∈ h :: lists h, ∃ a ∈ h :: lists h, k.prev b = some a ∧
    k.next a = some b
  nodup : ∀ h ∈ heads, (h :: lists h).Nodup
  disjoint : ∀ h ∈ heads, ∀ h' ∈ heads, ∀ a ∈ h :: lists h, a ∈ h' :: lists h' → h = h'

/-- The fields of a node are the same in both heaps. -/
def Same (k k' : Links α) (a : α) : Prop := k'.next a = k.next a ∧ k'.prev a = k.prev a

/-! ## Rings -/

/-- Each header has a ring, and no node is in two of them. -/
structure Rings (k : Links α) (lists : Lists α) : Prop where
  ring : ∀ h ∈ heads, IsRing k h (lists h)
  disjoint : ∀ h ∈ heads, ∀ h' ∈ heads, ∀ a ∈ h :: lists h, a ∈ h' :: lists h' → h = h'

variable {heads} {k : Links α} {lists : Lists α} {list item p n : α} {l : List α} {op : Op α}

omit [DecidableEq α] in
/-- A node of one ring is not in another one. -/
theorem Rings.not_mem {h h' a : α} (hrings : Rings heads k lists) (hh : h ∈ heads) (hh' : h' ∈ heads)
    (hne : h' ≠ h) (ha : a ∈ h :: lists h) : a ∉ h' :: lists h' :=
  fun ha' => hne (hrings.disjoint h' hh' h hh a ha' ha)

theorem Rings.represents (h : Rings heads k lists) : Represents heads k lists where
  walk h₀ hh := (h.ring h₀ hh).traverse
  next h₀ hh _ ha := (h.ring h₀ hh).exists_next ha
  prev h₀ hh _ hb := by
    obtain ⟨a, ha, hnext, hprev⟩ := (h.ring h₀ hh).exists_prev hb
    exact ⟨a, ha, hprev, hnext⟩
  nodup h₀ hh := (h.ring h₀ hh).nodup
  disjoint := h.disjoint

theorem Rings.insert (h : Rings heads k lists) (hlist : list ∈ heads)
    (hitem : ∀ h ∈ heads, item ∉ h :: lists h) (hp : p ∈ list :: lists list)
    (hn : n ∈ list :: lists list) (hring : IsRing (k.insert item p n) list l)
    (hmem : ∀ a ∈ l, a = item ∨ a ∈ lists list) :
    Rings heads (k.insert item p n) (Function.update lists list l) := by
  have hold (h₀ a : α) (ha : a ∈ h₀ :: Function.update lists list l h₀) :
      a ∈ h₀ :: lists h₀ ∨ h₀ = list ∧ a = item := by
    by_cases heq : h₀ = list
    · subst heq
      rw [Function.update_self] at ha
      rcases List.mem_cons.mp ha with rfl | ha
      · exact .inl List.mem_cons_self
      · rcases hmem a ha with rfl | ha
        · exact .inr ⟨rfl, rfl⟩
        · exact .inl (List.mem_cons_of_mem _ ha)
    · rw [Function.update_of_ne heq] at ha
      exact .inl ha
  constructor
  · intro h₀ hh
    by_cases heq : h₀ = list
    · subst heq
      rwa [Function.update_self]
    · rw [Function.update_of_ne heq]
      exact (h.ring h₀ hh).insert_frame (hitem h₀ hh) (h.not_mem hlist hh heq hp)
        (h.not_mem hlist hh heq hn)
  · intro h₁ hh₁ h₂ hh₂ a ha₁ ha₂
    rcases hold h₁ a ha₁ with hin₁ | ⟨rfl, rfl⟩
    · rcases hold h₂ a ha₂ with hin₂ | ⟨rfl, rfl⟩
      · exact h.disjoint h₁ hh₁ h₂ hh₂ a hin₁ hin₂
      · exact absurd hin₁ (hitem h₁ hh₁)
    · rcases hold h₂ a ha₂ with hin₂ | ⟨rfl, -⟩
      · exact absurd hin₂ (hitem h₂ hh₂)
      · rfl

omit [DecidableEq α] in
theorem same_refl (k : Links α) (a : α) : Same k k a := ⟨rfl, rfl⟩

theorem same_insert {a : α} (hitem : a ≠ item) (hp : a ≠ p) (hn : a ≠ n) :
    Same k (k.insert item p n) a := by
  simp [Same, Links.insert, hitem, hp, hn]

theorem same_unlink {a : α} (hp : a ≠ p) (hn : a ≠ n) : Same k (k.unlink p n) a := by
  simp [Same, Links.unlink, hp, hn]

theorem Rings.unlink (h : Rings heads k lists) (hlist : list ∈ heads) (hitem : item ∈ lists list) :
    ∃ p ∈ list :: lists list, ∃ n ∈ list :: lists list, k.prev item = some p ∧
      k.next item = some n ∧
      Rings heads (k.unlink p n) fun h => Mediabox.listRemove (lists h) item := by
  have hsubset (h₀ a : α) (ha : a ∈ h₀ :: Mediabox.listRemove (lists h₀) item) :
      a ∈ h₀ :: lists h₀ := by
    rcases List.mem_cons.mp ha with rfl | ha
    · exact List.mem_cons_self
    · exact List.mem_cons_of_mem _ (List.mem_of_mem_erase ha)
  obtain ⟨l₁, l₂, hsplit⟩ := List.append_of_mem hitem
  have hring := h.ring list hlist
  rw [hsplit] at hring
  have hfront : item ∉ l₁ := by
    have hnodup := (List.nodup_cons.mp hring.nodup).2
    rw [List.nodup_append] at hnodup
    exact fun hin => hnodup.2.2 item hin item List.mem_cons_self rfl
  obtain ⟨p, hp, n, hn, hprev, hnext, hring'⟩ := hring.remove
  rw [← hsplit] at hp hn
  refine ⟨p, hp, n, hn, hprev, hnext, fun h₀ hh => ?_, fun h₁ hh₁ h₂ hh₂ a ha₁ ha₂ =>
    h.disjoint h₁ hh₁ h₂ hh₂ a (hsubset h₁ a ha₁) (hsubset h₂ a ha₂)⟩
  by_cases heq : h₀ = list
  · subst heq
    rwa [Mediabox.listRemove, hsplit, List.erase_append_right _ hfront, List.erase_cons_head]
  · have hout := h.not_mem hlist hh heq (List.mem_cons_of_mem _ hitem)
    rw [Mediabox.listRemove, List.erase_of_not_mem (mt (List.mem_cons_of_mem _) hout)]
    exact (h.ring h₀ hh).unlink_frame (h.not_mem hlist hh heq hp) (h.not_mem hlist hh heq hn)

/-- **One operation** succeeds, does to the rings what it should, and writes to no other node. -/
theorem Rings.perform (h : Rings heads k lists) (hop : Allowed heads lists op) :
    ∃ k', perform k op = some k' ∧ Rings heads k' (apply lists op) ∧
      ∀ a, ¬Touches heads lists op a → Same k k' a := by
  cases op with
  | add list item =>
    obtain ⟨hlist, hitem⟩ := hop
    obtain ⟨n, hn, hnext, hring⟩ := (h.ring list hlist).push (hitem list hlist)
    refine ⟨k.insert item list n, by rw [ListMacros.perform, listAdd, hnext]; rfl,
      h.insert hlist hitem List.mem_cons_self hn hring fun a ha => List.mem_cons.mp ha, ?_⟩
    intro a ha
    obtain ⟨hne, hout⟩ := not_or.mp ha
    exact same_insert hne (fun heq => hout (heq ▸ List.mem_cons_self)) fun heq => hout (heq ▸ hn)
  | append list item =>
    obtain ⟨hlist, hitem⟩ := hop
    obtain ⟨p, hp, hprev, hring⟩ := (h.ring list hlist).append (hitem list hlist)
    refine ⟨k.insert item p list, by rw [ListMacros.perform, listAppend, hprev]; rfl,
      h.insert hlist hitem hp List.mem_cons_self hring fun a ha => ?_, ?_⟩
    · rw [List.mem_append, List.mem_singleton] at ha
      exact ha.symm
    · intro a ha
      obtain ⟨hne, hout⟩ := not_or.mp ha
      exact same_insert hne (fun heq => hout (heq ▸ hp)) fun heq => hout (heq ▸ List.mem_cons_self)
  | remove item =>
    obtain ⟨list, hlist, hin⟩ := hop
    obtain ⟨p, hp, n, hn, hprev, hnext, hrings⟩ := h.unlink hlist hin
    refine ⟨k.unlink p n, by rw [ListMacros.perform, listRemove, hprev, hnext]; rfl, hrings, ?_⟩
    intro a ha
    have hout (hin' : a ∈ list :: lists list) : False := ha ⟨list, hlist, hin, hin'⟩
    exact same_unlink (fun heq => hout (heq ▸ hp)) fun heq => hout (heq ▸ hn)

/-! ## Runs -/

omit [DecidableEq α] in
theorem Same.trans {k₁ k₂ k₃ : Links α} {a : α} (h : Same k₁ k₂ a) (h' : Same k₂ k₃ a) :
    Same k₁ k₃ a := ⟨h'.1.trans h.1, h'.2.trans h.2⟩

/-- Only the node of the operation comes to a list. -/
theorem mem_apply {h a : α} (ha : a ∈ apply lists op h) : a = op.item ∨ a ∈ lists h := by
  cases op with
  | add list item =>
    by_cases heq : h = list
    · subst heq
      rw [apply, Function.update_self] at ha
      exact List.mem_cons.mp ha
    · rw [apply, Function.update_of_ne heq] at ha
      exact .inr ha
  | append list item =>
    by_cases heq : h = list
    · subst heq
      rw [apply, Function.update_self, List.mem_append, List.mem_singleton] at ha
      exact ha.symm
    · rw [apply, Function.update_of_ne heq] at ha
      exact .inr ha
  | remove item => exact .inr (List.mem_of_mem_erase ha)

omit [DecidableEq α] in
theorem not_touches {a : α} (hop : Allowed heads lists op) (hitem : op.item ≠ a)
    (hout : ∀ h ∈ heads, a ∉ h :: lists h) : ¬Touches heads lists op a := by
  cases op with
  | add list item | append list item => exact not_or.mpr ⟨hitem.symm, hout list hop.1⟩
  | remove item =>
    rintro ⟨h, hh, -, ha⟩
    exact hout h hh ha

/-- **Any operations** that are allowed succeed, do to the rings what they should, and write to no
    node that is in no list and that they are not about. -/
theorem Rings.performAll {ops : List (Op α)} (h : Rings heads k lists)
    (hops : AllowedAll heads lists ops) :
    ∃ k', performAll k ops = some k' ∧ Rings heads k' (applyAll lists ops) ∧
      ∀ a, (∀ h ∈ heads, a ∉ h :: lists h) → (∀ op ∈ ops, op.item ≠ a) → Same k k' a := by
  induction ops generalizing k lists with
  | nil => exact ⟨k, rfl, h, fun a _ _ => same_refl k a⟩
  | cons op ops ih =>
    obtain ⟨hop, hops⟩ := hops
    obtain ⟨k₁, hperform, hrings, hsame⟩ := h.perform hop
    obtain ⟨k', hall, hrings', hsame'⟩ := ih hrings hops
    refine ⟨k', by rw [ListMacros.performAll, hperform]; exact hall, hrings', ?_⟩
    intro a hout hitems
    have hitem := hitems op List.mem_cons_self
    refine (hsame a (not_touches hop hitem hout)).trans
      (hsame' a (fun h₀ hh ha => ?_) fun op' hop' => hitems op' (List.mem_cons_of_mem _ hop'))
    rcases List.mem_cons.mp ha with rfl | ha
    · exact hout _ hh List.mem_cons_self
    · rcases mem_apply ha with rfl | ha
      · exact hitem rfl
      · exact hout h₀ hh (List.mem_cons_of_mem _ ha)

theorem foldl_listInit (heads : List α) (k : Links α) (a : α) :
    (heads.foldl listInit k).next a = (if a ∈ heads then some a else k.next a) ∧
      (heads.foldl listInit k).prev a = if a ∈ heads then some a else k.prev a := by
  induction heads generalizing k with
  | nil => simp
  | cons h heads ih =>
    rw [List.foldl_cons, (ih (listInit k h)).1, (ih (listInit k h)).2]
    by_cases ha : a = h
    · simp [listInit, ha]
    · simp [listInit, ha]

theorem rings_listInit (heads : List α) (k : Links α) :
    Rings heads (heads.foldl listInit k) fun _ => [] := by
  have hself (h : α) (hh : h ∈ heads) : (heads.foldl listInit k).Linked h h := by
    have hinit := foldl_listInit heads k h
    rw [if_pos hh, if_pos hh] at hinit
    exact hinit
  refine ⟨fun h hh => ⟨List.nodup_singleton h, ?_⟩, fun h _ h' _ a ha ha' => ?_⟩
  · exact List.isChain_cons_cons.mpr ⟨hself h hh, List.isChain_singleton h⟩
  · rw [List.mem_singleton] at ha ha'
    exact ha.symm.trans ha'

/-! ## The loop over a list -/

/-- The nodes to come stay at the end of the list. -/
theorem spares_suffix {todo kept : List α} (h : lists list = kept ++ todo)
    (hspares : Spares list todo op) : ∃ kept', apply lists op list = kept' ++ todo := by
  cases op with
  | add list' item =>
    by_cases heq : list = list'
    · subst heq
      exact ⟨item :: kept, by rw [apply, Function.update_self, h]; rfl⟩
    · exact ⟨kept, by rw [apply, Function.update_of_ne heq, h]⟩
  | append list' item =>
    exact ⟨kept, by rw [apply, Function.update_of_ne (Ne.symm hspares), h]⟩
  | remove item =>
    change ∃ kept', (lists list).erase item = kept' ++ todo
    rw [h]
    by_cases hin : item ∈ kept
    · exact ⟨kept.erase item, List.erase_append_left _ hin⟩
    · refine ⟨kept, ?_⟩
      rw [List.erase_append_right _ hin, List.erase_of_not_mem hspares]

theorem spares_all_suffix {todo kept : List α} {ops : List (Op α)} (h : lists list = kept ++ todo)
    (hspares : ∀ op ∈ ops, Spares list todo op) :
    ∃ kept', applyAll lists ops list = kept' ++ todo := by
  induction ops generalizing lists kept with
  | nil => exact ⟨kept, h⟩
  | cons op ops ih =>
    obtain ⟨kept', h'⟩ := spares_suffix h (hspares op List.mem_cons_self)
    exact ih h' fun op' hop' => hspares op' (List.mem_cons_of_mem _ hop')

theorem allowedAll_append {ops ops' : List (Op α)} :
    AllowedAll heads lists (ops ++ ops') ↔
      AllowedAll heads lists ops ∧ AllowedAll heads (applyAll lists ops) ops' := by
  induction ops generalizing lists with
  | nil => exact (and_iff_right trivial).symm
  | cons op ops ih =>
    rw [List.cons_append, AllowedAll, AllowedAll, ih, and_assoc]
    rfl

theorem applyAll_append {ops ops' : List (Op α)} :
    applyAll lists (ops ++ ops') = applyAll (applyAll lists ops) ops' := List.foldl_append

omit [DecidableEq α] in
theorem rounds_append (body : List α → α → List (Op α)) (before l l' : List α) :
    rounds body before (l ++ l') = rounds body before l ++ rounds body (before ++ l) l' := by
  induction l generalizing before with
  | nil => simp [rounds]
  | cons a l ih => simp [rounds, ih]

variable {body : List α → α → List (Op α)}

/-- What holds before the rounds for the nodes to come. -/
structure Round (heads : List α) (lists : Lists α) (list : α) (body : List α → α → List (Op α))
    (done todo : List α) (s : Links α × List α) : Prop where
  rings : Rings heads s.1 (applyAll lists (rounds body [] done))
  visited : s.2 = done
  split : lists list = done ++ todo
  kept : ∃ kept, applyAll lists (rounds body [] done) list = kept ++ todo

omit [DecidableEq α] in
theorem rounds_concat (body : List α → α → List (Op α)) (done : List α) (a : α) :
    rounds body [] (done ++ [a]) = rounds body [] done ++ body done a := by
  simp [rounds_append, rounds]

/-- **A round**: the body does to the lists what its operations do. -/
theorem Round.step {done todo : List α} {a : α} {s : Links α × List α}
    (hround : Round heads lists list body done (a :: todo) s)
    (hops : AllowedAll heads lists (rounds body [] (lists list)))
    (hspares : ∀ op ∈ body done a, Spares list todo op) :
    ∃ s', visit body a s = some s' ∧ Round heads lists list body (done ++ [a]) todo s' := by
  have hsplit : lists list = (done ++ [a]) ++ todo := by
    rw [hround.split, List.append_assoc, List.singleton_append]
  rw [hsplit, rounds_append, rounds_concat, List.append_assoc, allowedAll_append,
    allowedAll_append] at hops
  obtain ⟨k', hperform, hrings, -⟩ := hround.rings.performAll hops.2.1
  obtain ⟨kept, hkept⟩ := hround.kept
  rw [List.append_cons] at hkept
  refine ⟨(k', done ++ [a]), ?_, ?_, rfl, hsplit, ?_⟩
  · rw [visit, hround.visited, hperform]
    rfl
  · rw [rounds_concat, applyAll_append]
    exact hrings
  · rw [rounds_concat, applyAll_append]
    exact spares_all_suffix hkept hspares

/-- **A loop** whose body spares the nodes to come visits what was in the list. -/
theorem Rings.listForeachSafe (h : Rings heads k lists) (hlist : list ∈ heads)
    (hops : AllowedAll heads lists (rounds body [] (lists list)))
    (hspares : ∀ done a todo, lists list = done ++ a :: todo →
      ∀ op ∈ body done a, Spares list todo op) :
    ∃ k', listForeachSafe body ((lists list).length + 1) k list = some (k', lists list) ∧
      Rings heads k' (applyAll lists (rounds body [] (lists list))) := by
  have hring (done todo : List α) (s : Links α × List α)
      (hround : Round heads lists list body done todo s) :
      ∃ kept, IsRing s.1 list (kept ++ todo.map id) := by
    obtain ⟨kept, hkept⟩ := hround.kept
    have hring := hround.rings.ring list hlist
    rw [hkept] at hring
    exact ⟨kept, by rwa [List.map_id]⟩
  have hbody (done : List α) (a : α) (todo : List α) (s : Links α × List α)
      (hround : Round heads lists list body done (a :: todo) s) :=
    hround.step hops (hspares done a todo hround.split)
  obtain ⟨⟨k', visited⟩, hloop, hend⟩ :=
    foreachSafe_rule hring hbody (lists list) [] (k, []) ⟨h, rfl, rfl, [], rfl⟩
  have hvisited : visited = lists list := hend.visited
  subst hvisited
  refine ⟨k', ?_, hend.rings⟩
  rw [ListMacros.listForeachSafe, (h.ring list hlist).next_head]
  rwa [List.map_id] at hloop

/-! ## Main theorem -/

/-- **The macros do to rings what the operations do to sequences**: after any operations that are
    allowed, on any heap and with any headers, each ring has the nodes of its sequence in order and
    the two fields are inverse; nodes in no list are as before.  One more operation writes only to
    its node and to the ring it is about, and a `LIST_FOREACH_SAFE` whose body spares the nodes to
    come visits those that were in the list, once each and in order. -/
theorem lists_refine (heads : List α) (k : Links α) (ops : List (Op α))
    (hops : AllowedAll heads (fun _ => []) ops) :
    ∃ k', performAll (heads.foldl listInit k) ops = some k' ∧
      Represents heads k' (built ops) ∧
      (∀ a ∉ heads, (∀ op ∈ ops, op.item ≠ a) → Same k k' a) ∧
      (∀ op, Allowed heads (built ops) op →
        ∃ after, perform k' op = some after ∧
          Represents heads after (apply (built ops) op) ∧
          ∀ a, ¬Touches heads (built ops) op a → Same k' after a) ∧
      ∀ list ∈ heads, ∀ body : List α → α → List (Op α),
        AllowedAll heads (built ops) (rounds body [] (built ops list)) →
        (∀ done a todo, built ops list = done ++ a :: todo →
          ∀ op ∈ body done a, Spares list todo op) →
        ∃ after, listForeachSafe body ((built ops list).length + 1) k' list =
            some (after, built ops list) ∧
          Represents heads after (applyAll (built ops) (rounds body [] (built ops list))) := by
  obtain ⟨k', hperform, hrings, hsame⟩ := (rings_listInit heads k).performAll hops
  refine ⟨k', hperform, hrings.represents, fun a ha hitems => ?_, fun op hop => ?_,
    fun list hlist body hbody hspares => ?_⟩
  · have hinit : Same k (heads.foldl listInit k) a := by
      have hwritten := foldl_listInit heads k a
      rwa [if_neg ha, if_neg ha] at hwritten
    exact hinit.trans (hsame a (fun h hh hin => ha (List.mem_singleton.mp hin ▸ hh)) hitems)
  · obtain ⟨after, hafter, hrings', hframe⟩ := hrings.perform hop
    exact ⟨after, hafter, hrings'.represents, hframe⟩
  · obtain ⟨after, hloop, hrings'⟩ := hrings.listForeachSafe hlist hbody hspares
    exact ⟨after, hloop, hrings'.represents⟩

/-- A loop that moves the first of two nodes to another list. -/
theorem lists_moved : ∃ k after : Links Nat,
    performAll ([0, 10].foldl listInit ⟨fun _ => none, fun _ => none⟩)
      [.append 0 1, .append 0 2, .add 0 3, .append 10 4, .remove 1, .append 10 1] = some k ∧
    listForeachSafe (fun _ a => if a = 3 then [.remove 3, .append 10 3] else []) 3 k 0 =
      some (after, [3, 2]) ∧
    after.walk 0 2 (after.next 0) = some [2] ∧
    after.walk 10 4 (after.next 10) = some [4, 1, 3] := by
  obtain ⟨k, hperform, -, -, -, hloop⟩ := lists_refine [0, 10] ⟨fun _ => none, fun _ => none⟩
    [.append 0 1, .append 0 2, .add 0 3, .append 10 4, .remove 1, .append 10 1] (by decide)
  obtain ⟨after, hafter, hrep⟩ := hloop 0 (by decide)
    (fun _ a => if a = 3 then [.remove 3, .append 10 3] else []) (by decide) (by
      intro done a todo hsplit op hop
      have hnodup : ([3, 2] : List Nat).Nodup := by decide
      have hsplit : [3, 2] = done ++ a :: todo := hsplit
      rw [hsplit, List.nodup_append, List.nodup_cons] at hnodup
      split at hop
      · rename_i heq
        rcases List.mem_cons.mp hop with rfl | hop
        · exact heq ▸ hnodup.2.1.1
        · obtain rfl := List.mem_singleton.mp hop
          exact fun h => by cases h
      · cases hop)
  exact ⟨k, after, hperform, hafter, hrep.walk 0 (by decide), hrep.walk 10 (by decide)⟩

end Mediabox.ListMacros
