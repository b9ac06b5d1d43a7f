import Mathlib.Data.List.Chain
import Mathlib.Logic.Function.Basic

/-!
# Rings of linked nodes

Nodes that hold the addresses of their neighbours: `next` and `prev` of a node are pointers, or
nothing yet.

* `Links.insert`, `Links.unlink` — the writes of an insertion between two nodes and of the removal
  of what is between two nodes, in this order, for any nodes.
* `IsRing` — from `head` along `next` through these nodes back to `head`, each linked back.
* `IsRing.append`, `IsRing.push`, `IsRing.remove`, `IsRing.congr` — what the writes make of a ring,
  and (`IsRing.insert_frame`, `IsRing.unlink_frame`) that they leave every other ring alone.
* `IsRing.next_iff_prev`, `IsRing.traverse` — the two pointers are inverse, and the walk along
  `next` meets the nodes of the ring and ends.
* `foreachSafe` — a loop over a ring whose body may take the node it is at out of the ring, with
  its rule `foreachSafe_rule`: what the body keeps true from node to node is true at the end.
-/

set_option autoImplicit false

namespace LinkRing

variable {α : Type*}

structure Links (α : Type*) where
  next : α → Option α
  prev : α → Option α

namespace Links

section Code

variable [DecidableEq α] (k : Links α)

/-- `next->prev = item; item->next = next; item->prev = prev; prev->next = item` -/
def insert (item prev next : α) : Links α where
  next := Function.update (Function.update k.next item (some next)) prev (some item)
  prev := Function.update (Function.update k.prev next (some item)) item (some prev)

/-- `next->prev = prev; prev->next = next` -/
def unlink (prev next : α) : Links α where
  next := Function.update k.next prev (some next)
  prev := Function.update k.prev next (some prev)

/-- The nodes from one on to the head, along `next`. -/
def walk (head : α) : Nat → Option α → Option (List α)
  | 0, _ => none
  | _ + 1, none => none
  | fuel + 1, some a => if a = head then some [] else (walk head fuel (k.next a)).map (a :: ·)

end Code

/-- A loop over the nodes from one on to the head that reads the `next` of a node before its body
runs. -/
def foreachSafe {σ : Type*} [DecidableEq α] (links : σ → Links α) (head : α)
    (body : α → σ → Option σ) : Nat → Option α → σ → Option σ
  | 0, _, _ => none
  | _ + 1, none, _ => none
  | fuel + 1, some a, s =>
    if a = head then some s
    else
      let next := (links s).next a
      (body a s).bind (foreachSafe links head body fuel next)

/-- `a` and `b` are neighbours. -/
def Linked (k : Links α) (a b : α) : Prop := k.next a = some b ∧ k.prev b = some a

instance [DecidableEq α] (k : Links α) (a b : α) : Decidable (k.Linked a b) :=
  inferInstanceAs (Decidable (_ ∧ _))

end Links

/-- The ring of `head` and the nodes of `l`, in this order. -/
structure IsRing (k : Links α) (head : α) (l : List α) : Prop where
  nodup : (head :: l).Nodup
  chain : List.IsChain k.Linked (head :: l ++ [head])

variable {k k' : Links α} {head x a b : α} {l l₁ l₂ m : List α}

/-! ## Chains -/

theorem exists_concat (a : α) (l : List α) : ∃ front p, a :: l = front ++ [p] :=
  ⟨_, _, (List.dropLast_concat_getLast (List.cons_ne_nil a l)).symm⟩

/-- **Frame of a chain**: a chain stays one where only the `next` of its last node and the `prev`
of its first are written. -/
theorem chain_frame (hchain : List.IsChain k.Linked m) (hnodup : m.Nodup)
    (hnext : ∀ a ∈ m, m.getLast? ≠ some a → k'.next a = k.next a)
    (hprev : ∀ b ∈ m, m.head? ≠ some b → k'.prev b = k.prev b) : List.IsChain k'.Linked m := by
  rw [List.isChain_iff_forall_rel_of_append_cons_cons] at hchain ⊢
  intro a b l₁ l₂ hm
  obtain ⟨hab, hba⟩ := hchain hm
  subst hm
  obtain ⟨-, hpair, hdisjoint⟩ := List.nodup_append.mp hnodup
  have hlast : (l₁ ++ a :: b :: l₂).getLast? ≠ some a := by
    rw [List.getLast?_append_cons, List.getLast?_cons_cons]
    intro h
    exact (List.nodup_cons.mp hpair).1 (List.mem_of_getLast? h)
  have hfirst : (l₁ ++ a :: b :: l₂).head? ≠ some b := by
    intro h
    cases l₁ with
    | nil =>
      obtain rfl : a = b := by simpa using h
      simp at hpair
    | cons c l₁ =>
      obtain rfl : c = b := by simpa using h
      exact hdisjoint c (by simp) c (by simp) rfl
  exact ⟨(hnext a (by simp) hlast).trans hab, (hprev b (by simp) hfirst).trans hba⟩

/-- Neighbours are not changed by being linked to each other again. -/
theorem Links.Linked.unlink [DecidableEq α] (h : k.Linked a b) : k.unlink a b = k := by
  obtain ⟨hnext, hprev⟩ := h
  rw [Links.unlink, ← hnext, ← hprev, Function.update_eq_self, Function.update_eq_self]

/-- The walk along a chain ends at the head. -/
theorem walk_chain [DecidableEq α] (hchain : List.IsChain k.Linked (a :: l ++ [head]))
    (hhead : head ∉ l) : k.walk head (l.length + 1) (k.next a) = some l := by
  induction l generalizing a with
  | nil =>
    obtain ⟨hnext, -⟩ := (List.isChain_cons_cons.mp hchain).1
    simp [Links.walk, hnext]
  | cons b l ih =>
    obtain ⟨⟨hnext, -⟩, hrest⟩ := List.isChain_cons_cons.mp hchain
    rw [List.mem_cons, not_or] at hhead
    rw [List.length_cons, Links.walk.eq_def, hnext]
    simp [ih hrest hhead.2, Ne.symm hhead.1]

/-! ## Rings -/

namespace IsRing

theorem congr (h : IsRing k head l) (hnext : ∀ a ∈ head :: l, k'.next a = k.next a)
    (hprev : ∀ b ∈ head :: l, k'.prev b = k.prev b) : IsRing k' head l := by
  refine ⟨h.nodup, h.chain.imp_of_mem_imp fun a b ha hb hlinked => ?_⟩
  have hmem : ∀ c ∈ head :: l ++ [head], c ∈ head :: l := by simp [or_comm]
  exact ⟨(hnext a (hmem a ha)).trans hlinked.1, (hprev b (hmem b hb)).trans hlinked.2⟩

/-- The ring from its last node on. -/
theorem last (h : IsRing k head l) :
    ∃ front p, head :: l = front ++ [p] ∧ List.IsChain k.Linked (front ++ [p]) ∧
      k.Linked p head := by
  obtain ⟨front, p, hsplit⟩ := exists_concat head l
  have hchain := h.chain
  rw [hsplit, List.append_assoc] at hchain
  obtain ⟨hfront, hlinked, -⟩ := List.isChain_append_cons_cons.mp hchain
  exact ⟨front, p, hsplit, hfront, hlinked⟩

theorem exists_next (h : IsRing k head l) (ha : a ∈ head :: l) :
    ∃ b ∈ head :: l, k.Linked a b := by
  obtain ⟨pre, post, hsplit⟩ := List.append_of_mem ha
  have hchain := h.chain
  rw [hsplit, List.append_assoc] at hchain
  cases post with
  | nil => exact ⟨head, by simp, (List.isChain_append_cons_cons.mp hchain).2.1⟩
  | cons b post =>
    refine ⟨b, ?_, (List.isChain_append_cons_cons.mp hchain).2.1⟩
    rw [hsplit]
    simp

theorem exists_prev (h : IsRing k head l) (hb : b ∈ head :: l) :
    ∃ a ∈ head :: l, k.Linked a b := by
  rcases List.mem_cons.mp hb with rfl | hmem
  · obtain ⟨front, p, hsplit, -, hlinked⟩ := h.last
    exact ⟨p, hsplit ▸ by simp, hlinked⟩
  · obtain ⟨pre, post, rfl⟩ := List.append_of_mem hmem
    obtain ⟨front, p, hpre⟩ := exists_concat head pre
    have hchain := h.chain
    have hassoc : head :: (pre ++ b :: post) ++ [head] = front ++ p :: b :: (post ++ [head]) := by
      rw [← List.cons_append, hpre]
      simp
    rw [hassoc] at hchain
    refine ⟨p, ?_, (List.isChain_append_cons_cons.mp hchain).2.1⟩
    rw [← List.cons_append, hpre]
    simp

/-- **The two pointers are inverse.** -/
theorem next_iff_prev (h : IsRing k head l) (ha : a ∈ head :: l) (hb : b ∈ head :: l) :
    k.next a = some b ↔ k.prev b = some a := by
  constructor
  · intro hab
    obtain ⟨c, -, hnext, hprev⟩ := h.exists_next ha
    obtain rfl : c = b := Option.some.inj (hnext.symm.trans hab)
    exact hprev
  · intro hba
    obtain ⟨c, -, hnext, hprev⟩ := h.exists_prev hb
    obtain rfl : c = a := Option.some.inj (hprev.symm.trans hba)
    exact hnext

theorem next_head (h : IsRing k head l) : k.next head = (l ++ [head]).head? := by
  have hchain := h.chain
  rw [List.cons_append] at hchain
  cases l with
  | nil | cons a l => exact (List.isChain_cons_cons.mp hchain).1.1

theorem next_mid (h : IsRing k head (l₁ ++ x :: l₂)) : k.next x = (l₂ ++ [head]).head? := by
  obtain ⟨front, p, hfront⟩ := exists_concat head l₁
  obtain ⟨n, back, hback⟩ := List.exists_cons_of_ne_nil (l := l₂ ++ [head]) (by simp)
  have hchain := h.chain
  have hassoc : head :: (l₁ ++ x :: l₂) ++ [head] = front ++ p :: x :: n :: back := by
    rw [← List.cons_append, hfront, ← hback]
    simp
  rw [hassoc, List.isChain_append_cons_cons, List.isChain_cons_cons] at hchain
  rw [hback]
  exact hchain.2.2.1.1

variable [DecidableEq α]

theorem unlink_frame (h : IsRing k head l) (ha : a ∉ head :: l) (hb : b ∉ head :: l) :
    IsRing (k.unlink a b) head l := by
  apply h.congr
  · intro c hc
    have hca : c ≠ a := fun hca => ha (hca ▸ hc)
    exact Function.update_of_ne hca ..
  · intro c hc
    have hcb : c ≠ b := fun hcb => hb (hcb ▸ hc)
    exact Function.update_of_ne hcb ..

theorem insert_frame (h : IsRing k head l) (hx : x ∉ head :: l) (ha : a ∉ head :: l)
    (hb : b ∉ head :: l) : IsRing (k.insert x a b) head l := by
  apply h.congr
  · intro c hc
    have hca : c ≠ a := fun hca => ha (hca ▸ hc)
    have hcx : c ≠ x := fun hcx => hx (hcx ▸ hc)
    simp [Links.insert, hca, hcx]
  · intro c hc
    have hcb : c ≠ b := fun hcb => hb (hcb ▸ hc)
    have hcx : c ≠ x := fun hcx => hx (hcx ▸ hc)
    simp [Links.insert, hcb, hcx]

/-- **The walk meets the nodes of the ring**, and ends. -/
theorem traverse (h : IsRing k head l) : k.walk head (l.length + 1) (k.next head) = some l :=
  walk_chain h.chain (List.nodup_cons.mp h.nodup).1

/-- **A node appended**: inserted between the last node and the head. -/
theorem append (h : IsRing k head l) (hx : x ∉ head :: l) :
    ∃ p ∈ head :: l, k.prev head = some p ∧ IsRing (k.insert x p head) head (l ++ [x]) := by
  obtain ⟨front, p, hsplit, hfront, hlinked⟩ := h.last
  have hp : p ∈ head :: l := hsplit ▸ by simp
  have hxp : p ≠ x := fun hpx => hx (hpx ▸ hp)
  have hxh : head ≠ x := fun hhx => hx (hhx ▸ List.mem_cons_self)
  have hbody : List.IsChain (k.insert x p head).Linked (front ++ [p]) := by
    apply chain_frame hfront (hsplit ▸ h.nodup)
    · intro a ha hlast
      have hap : a ≠ p := fun hap => hlast (by simp [hap])
      have hax : a ≠ x := fun hax => hx (by rw [hsplit, ← hax]; exact ha)
      simp [Links.insert, hap, hax]
    · intro b hb hfirst
      have hbh : b ≠ head := fun hbh => hfirst (by rw [← hsplit, hbh]; rfl)
      have hbx : b ≠ x := fun hbx => hx (by rw [hsplit, ← hbx]; exact hb)
      simp [Links.insert, hbh, hbx]
  have hin : (k.insert x p head).Linked p x := by simp [Links.Linked, Links.insert]
  have hout : (k.insert x p head).Linked x head := by
    simp [Links.Linked, Links.insert, hxp.symm, hxh]
  refine ⟨p, hp, hlinked.2, ?_, ?_⟩
  · rw [← List.cons_append, List.nodup_append]
    refine ⟨h.nodup, by simp, fun a ha b hb => ?_⟩
    rw [List.mem_singleton.mp hb]
    exact fun hax => hx (hax ▸ ha)
  · rw [← List.cons_append, hsplit, List.append_assoc, List.append_assoc]
    refine List.isChain_append_cons_cons.mpr ⟨hbody, hin, ?_⟩
    exact List.isChain_cons_cons.mpr ⟨hout, .singleton head⟩

/-- **A node pushed**: inserted between the head and the first node. -/
theorem push (h : IsRing k head l) (hx : x ∉ head :: l) :
    ∃ n ∈ head :: l, k.next head = some n ∧ IsRing (k.insert x head n) head (x :: l) := by
  obtain ⟨n, back, hback⟩ := List.exists_cons_of_ne_nil (l := l ++ [head]) (by simp)
  have hn : n ∈ head :: l := by
    have hmem : n ∈ l ++ [head] := hback ▸ List.mem_cons_self
    simpa [or_comm] using hmem
  have hxn : n ≠ x := fun hnx => hx (hnx ▸ hn)
  have hxh : head ≠ x := fun hhx => hx (hhx ▸ List.mem_cons_self)
  have hchain := h.chain
  rw [List.cons_append, hback, List.isChain_cons_cons] at hchain
  obtain ⟨⟨hnext, -⟩, hrest⟩ := hchain
  have hnodup : (n :: back).Nodup := by
    rw [← hback]
    exact (List.perm_append_singleton head l).nodup_iff.mpr h.nodup
  have hbody : List.IsChain (k.insert x head n).Linked (n :: back) := by
    apply chain_frame hrest hnodup
    · intro a ha hlast
      rw [← hback] at ha hlast
      have hah : a ≠ head := fun hah => hlast (by simp [hah])
      have hax : a ≠ x := fun hax => hx (hax ▸ by simpa [or_comm] using ha)
      simp [Links.insert, hah, hax]
    · intro b hb hfirst
      have hbn : b ≠ n := fun hbn => hfirst (by simp [hbn])
      rw [← hback] at hb
      have hbx : b ≠ x := fun hbx => hx (hbx ▸ by simpa [or_comm] using hb)
      simp [Links.insert, hbn, hbx]
  have hin : (k.insert x head n).Linked head x := by simp [Links.Linked, Links.insert]
  have hout : (k.insert x head n).Linked x n := by
    simp [Links.Linked, Links.insert, hxn, hxh.symm]
  refine ⟨n, hn, hnext, ?_, ?_⟩
  · have hnotin := hx
    simp only [List.mem_cons, not_or] at hnotin
    have hring := h.nodup
    simp only [List.nodup_cons, List.mem_cons, not_or] at hring ⊢
    exact ⟨⟨hxh, hring.1⟩, hnotin.2, hring.2⟩
  · rw [List.cons_append, List.cons_append, hback]
    exact List.isChain_cons_cons.mpr ⟨hin, List.isChain_cons_cons.mpr ⟨hout, hbody⟩⟩

/-- **A node removed**: what is before it and what is after it are linked to each other. -/
theorem remove (h : IsRing k head (l₁ ++ x :: l₂)) :
    ∃ p ∈ head :: (l₁ ++ x :: l₂), ∃ n ∈ head :: (l₁ ++ x :: l₂),
      k.prev x = some p ∧ k.next x = some n ∧ IsRing (k.unlink p n) head (l₁ ++ l₂) := by
  obtain ⟨front, p, hfront⟩ := exists_concat head l₁
  obtain ⟨n, back, hback⟩ := List.exists_cons_of_ne_nil (l := l₂ ++ [head]) (by simp)
  have hp : p ∈ head :: l₁ := hfront ▸ by simp
  have hn : n ∈ l₂ ++ [head] := hback ▸ by simp
  have hnodup := h.nodup
  have hchain := h.chain
  have hassoc : head :: (l₁ ++ x :: l₂) ++ [head] = front ++ p :: x :: n :: back := by
    rw [← List.cons_append, hfront, ← hback]
    simp
  rw [hassoc, List.isChain_append_cons_cons, List.isChain_cons_cons] at hchain
  obtain ⟨hbefore, ⟨-, hxp⟩, ⟨hxn, -⟩, hafter⟩ := hchain
  simp only [List.nodup_cons, List.nodup_append, List.mem_append, List.mem_cons, not_or]
    at hnodup hp hn
  have hbefore' : List.IsChain (k.unlink p n).Linked (front ++ [p]) := by
    apply chain_frame hbefore
    · rw [← hfront]
      grind
    · intro a _ hlast
      have hap : a ≠ p := fun hap => hlast (by simp [hap])
      simp [Links.unlink, hap]
    · intro b hb hfirst
      rw [← hfront] at hb hfirst
      have hbn : b ≠ n := by grind
      simp [Links.unlink, hbn]
  have hafter' : List.IsChain (k.unlink p n).Linked (n :: back) := by
    apply chain_frame hafter
    · rw [← hback]
      grind
    · intro a ha hlast
      rw [← hback] at ha hlast
      have hap : a ≠ p := by grind
      simp [Links.unlink, hap]
    · intro b _ hfirst
      have hbn : b ≠ n := fun hbn => hfirst (by simp [hbn])
      simp [Links.unlink, hbn]
  have hover : (k.unlink p n).Linked p n := by simp [Links.Linked, Links.unlink]
  refine ⟨p, by grind, n, by grind, hxp, hxn, ?_, ?_⟩
  · grind
  · rw [← List.cons_append, hfront, List.append_assoc, List.append_assoc, hback]
    exact List.isChain_append_cons_cons.mpr ⟨hbefore', hover, hafter'⟩

end IsRing

/-- **The rule of the loop**: an assertion about the nodes that are done and those to come, which
has the ring of the nodes to come behind some that were kept, and which the body carries over the
node it is at. -/
theorem foreachSafe_rule {β σ : Type*} [DecidableEq α] {node : β → α} {links : σ → Links α}
    {body : α → σ → Option σ} {P : List β → List β → σ → Prop}
    (hring : ∀ done todo s, P done todo s →
      ∃ kept, IsRing (links s) head (kept ++ todo.map node))
    (hbody : ∀ done b todo s, P done (b :: todo) s →
      ∃ s', body (node b) s = some s' ∧ P (done ++ [b]) todo s') :
    ∀ (todo done : List β) (s : σ), P done todo s →
      ∃ s', Links.foreachSafe links head body (todo.length + 1) (todo.map node ++ [head]).head? s =
          some s' ∧ P (done ++ todo) [] s'
  | [], done, s, h => ⟨s, by simp [Links.foreachSafe], by simpa using h⟩
  | b :: todo, done, s, h => by
    obtain ⟨kept, hkept⟩ := hring done (b :: todo) s h
    obtain ⟨s₁, hs₁, h₁⟩ := hbody done b todo s h
    have hhead : node b ≠ head := by
      have hnotin := (List.nodup_cons.mp hkept.nodup).1
      simp only [List.map_cons, List.mem_append, List.mem_cons, not_or] at hnotin
      exact fun hbh => hnotin.2.1 hbh.symm
    obtain ⟨s', hs', h'⟩ := foreachSafe_rule hring hbody todo (done ++ [b]) s₁ h₁
    refine ⟨s', ?_, by simpa using h'⟩
    rw [List.map_cons] at hkept
    rw [List.length_cons, List.map_cons, List.cons_append, List.head?_cons, Links.foreachSafe,
      if_neg hhead, hkept.next_mid, hs₁, Option.bind_some]
    exact hs'

end LinkRing
