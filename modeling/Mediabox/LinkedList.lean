import Mathlib.Data.List.Nodup

/-!
# The intrusive list macros, at the level of sequences

`include/libavbox/linkedlist.h` keeps circular lists through the `prev` / `next` fields of their
nodes.  A list is read here as the sequence of its nodes met by `LIST_FOREACH`, that is along
`next` from the list head:

* `listAdd` — `LIST_ADD` inserts right after the head, so the new node comes first;
* `listTail` — `LIST_TAIL` is the `prev` of the head, the last node of the sequence (`NULL` when
  the list is empty);
* `listRemove` — `LIST_REMOVE` unlinks one node.

Nodes are addresses: a node is in a list at most once, and removing the tail of such a list
leaves exactly the nodes before it (`listRemove_tail`).
-/

set_option autoImplicit false

namespace Mediabox

variable {ν : Type*}

/-- `LIST_ADD(list, item)`. -/
def listAdd (l : List ν) (item : ν) : List ν := item :: l

/-- `LIST_TAIL(type, list)`. -/
def listTail (l : List ν) : Option ν := l.getLast?

/-- `LIST_REMOVE(item)`, for an item of this list. -/
def listRemove [DecidableEq ν] (l : List ν) (item : ν) : List ν := l.erase item

theorem listTail_eq_some {l : List ν} {x : ν} : listTail l = some x ↔ ∃ l', l = l' ++ [x] := by
  unfold listTail
  exact List.getLast?_eq_some_iff

/-- Removing the tail of a list of distinct nodes leaves the nodes before it. -/
theorem listRemove_tail [DecidableEq ν] {l : List ν} {x : ν} (h : (l ++ [x]).Nodup) :
    listRemove (l ++ [x]) x = l := by
  have hx : x ∉ l := by
    rw [List.nodup_append] at h
    exact fun hm => h.2.2 x hm x (by simp) rfl
  unfold listRemove
  rw [List.erase_append_right _ hx]
  simp

end Mediabox
