import Mathlib.Data.List.NodupEquivFin
import Mathlib.Order.WellFounded
import Mediabox.Listview

/-!
# The rows of the listview (`src/lib/ui/listview.c`)

Where the items of a listview show, for the model of `Listview`.  `item_windows` are the rows from
the top; scrolling gives every item its window again, the other calls leave the windows of the items
that are there.

* `row` — the row of an index when the list is scrolled by an offset.
* `Fits` — what is asked of a call so that the items have the windows of their rows: an item is
  added to a list that is not scrolled, or below its last row; nothing that shows is above or moves
  to where a removed item was; a list that is cleared is not scrolled.

Main result: `rows_shown`.
-/

set_option autoImplicit false

namespace Mediabox.ListviewRows

open Transition Outcome Library Listview

/-- The row of an index, when `visible_items` rows are shown from an offset on. -/
def row (offset visibleItems k : Nat) : Option Nat :=
  if offset ≤ k ∧ k < offset + visibleItems then some (k - offset) else none

/-- The window of an item that is not freed. -/
def windowOf (s : State) (a : Addr) : Option (Option Nat) := (s.heap a).map Item.window

/-- The items have the windows of their rows, the offset is inside of the list, and the selected
    item has a window. -/
structure Shown (s : State) : Prop where
  rows : ∀ (k : Nat) (a : Addr), s.items[k]? = some a →
    windowOf s a = some (row s.visibleWindowOffset s.visibleItems k)
  offset : (s.visibleWindowOffset : Int) ≤ max 0 (s.count - 1)
  selected : s.selected ≠ 0 → s.selected ∈ s.items ∧ ∃ w, windowOf s s.selected = some (some w)

/-- The items that `avbox_listview_removeitem` leaves. -/
def remaining (s : State) (data : Addr) : List Addr :=
  s.items.filter fun a => (s.heap a).map Item.data ≠ some data

/-- What is asked of a call.  A name is there unless the list has its selection already or the item
    has no window; the items that are left up to the last row were there before. -/
def Fits (s : State) : Event → Prop
  | .additem _ _ malloc strdup =>
    malloc = 0 ∨
      if strdup then s.visibleWindowOffset = 0 ∨ s.visibleWindowOffset + s.visibleItems ≤ s.count
      else s.selected ≠ 0 ∨ s.visibleItems ≤ s.count
  | .removeitem data =>
    (∀ a ∈ s.items, (s.heap a).map Item.data = some data → a ≠ s.selected ∧ data ≠ s.selected) ∧
      (remaining s data).take (s.visibleWindowOffset + s.visibleItems) <+: s.items
  | .clearitems => s.visibleWindowOffset = 0
  | _ => True

instance (s : State) : (e : Event) → Decidable (Fits s e)
  | .additem _ _ _ true => inferInstanceAs (Decidable (_ ∨ (_ ∨ _)))
  | .additem _ _ _ false => inferInstanceAs (Decidable (_ ∨ (_ ∨ _)))
  | .removeitem _ => inferInstanceAs (Decidable ((∀ _ ∈ _, _ → _) ∧ _))
  | .clearitems => inferInstanceAs (Decidable (_ = _))
  | .arrowUp => inferInstanceAs (Decidable True)
  | .arrowDown => inferInstanceAs (Decidable True)
  | .endOfList _ => inferInstanceAs (Decidable True)

/-- The items and their windows. -/
structure Rows (s : State) : Prop where
  nodup : s.items.Nodup
  zero : 0 ∉ s.items
  count : s.count = s.items.length
  rows : ∀ (k : Nat) (a : Addr), s.items[k]? = some a →
    windowOf s a = some (row s.visibleWindowOffset s.visibleItems k)
  known : s.selected = 0 ∨ s.selected ∈ s.items

/-- What holds between two calls. -/
structure Inv (s : State) : Prop extends Rows s where
  top : s.selected = 0 → s.visibleWindowOffset = 0
  shows : s.selected ≠ 0 → ∃ k : Nat, s.items[k]? = some s.selected ∧
    s.visibleWindowOffset ≤ k ∧ k < s.visibleWindowOffset + s.visibleItems

variable {s : State} {a : Addr} {l : List Addr} {k : Nat}

/-! ## Rows -/

theorem row_eq_none {offset visibleItems : Nat} (h : offset + visibleItems ≤ k) :
    row offset visibleItems k = none :=
  if_neg fun hk => absurd hk.2 (not_lt.mpr h)

theorem row_eq_some {offset visibleItems : Nat} (hlow : offset ≤ k)
    (hhigh : k < offset + visibleItems) : row offset visibleItems k = some (k - offset) :=
  if_pos ⟨hlow, hhigh⟩

/-- What is left of a list after its first `n` entries was left where it was. -/
theorem exists_getElem?_of_sublist {kept all : List Addr} {n : Nat} (hsub : kept.Sublist all)
    (hstart : kept.take n <+: all) (hk : kept[k]? = some a) :
    ∃ k' : Nat, all[k']? = some a ∧ k ≤ k' ∧ (k < n → k' = k) := by
  by_cases hn : k < n
  · obtain ⟨rest, hrest⟩ := hstart
    refine ⟨k, ?_, le_rfl, fun _ => rfl⟩
    have hlen := (List.getElem?_eq_some_iff.mp hk).1
    rw [← hrest, List.getElem?_append_left (by simp [hn, hlen]), List.getElem?_take_of_lt hn, hk]
  · obtain ⟨f, hf⟩ := List.sublist_iff_exists_orderEmbedding_getElem?_eq.mp hsub
    exact ⟨f k, (hf k).symm.trans hk, f.strictMono.le_apply, fun h => absurd h hn⟩

theorem update_heap_self (f : Item → Item) : (s.update a f).heap a = (s.heap a).map f :=
  Function.update_self a _ s.heap

theorem update_heap_of_ne (f : Item → Item) {b : Addr} (hne : b ≠ a) :
    (s.update a f).heap b = s.heap b :=
  Function.update_of_ne hne _ s.heap

theorem Rows.live (h : Rows s) (ha : a ∈ s.items) : ∃ item, s.heap a = some item := by
  obtain ⟨k, hk⟩ := List.mem_iff_getElem?.mp ha
  obtain ⟨item, hitem, -⟩ := Option.map_eq_some_iff.mp (h.rows k a hk)
  exact ⟨item, hitem⟩

theorem Rows.update (h : Rows s) {f : Item → Item} (hf : ∀ item, (f item).window = item.window) :
    Rows (s.update a f) where
  nodup := h.nodup
  zero := h.zero
  count := h.count
  known := h.known
  rows k b hk := by
    refine Eq.trans ?_ (h.rows k b hk)
    rw [windowOf, windowOf]
    by_cases hb : b = a
    · subst hb
      rw [update_heap_self, Option.map_map]
      exact congrArg (fun g => (s.heap b).map g) (funext hf)
    · rw [update_heap_of_ne f hb]

theorem Rows.inv (h : Rows s) (hk : s.items[k]? = some s.selected)
    (hlow : s.visibleWindowOffset ≤ k) (hhigh : k < s.visibleWindowOffset + s.visibleItems) :
    Inv s :=
  ⟨h, fun hzero => absurd (hzero ▸ List.mem_of_getElem? hk) h.zero, fun _ => ⟨k, hk, hlow, hhigh⟩⟩

/-! ## Scrolling -/

/-- **The loop** gives every item the window of its row. -/
theorem scrollLoop_ensures {i j : Nat} (hl : l.Nodup)
    (hlive : ∀ a ∈ l, ∃ item, s.heap a = some item)
    (hj : j = min (i - s.visibleWindowOffset) s.visibleItems) :
    Ensures (scrollLoop l i j s) (fun t => ∃ heap, t = { s with heap := heap } ∧
      (∀ b, b ∉ l → heap b = s.heap b) ∧ ∀ (k : Nat) (b : Addr), l[k]? = some b →
        (heap b).map Item.window = some (row s.visibleWindowOffset s.visibleItems (i + k)))
      fun _ => False := by
  induction l generalizing i j s with
  | nil => exact ⟨s.heap, rfl, fun _ _ => rfl, nofun⟩
  | cons a l ih =>
    obtain ⟨hnot, hl⟩ := List.nodup_cons.mp hl
    obtain ⟨item, hitem⟩ := hlive a List.mem_cons_self
    have hrest : ∀ (j' : Nat) (f : Item → Item),
        (f item).window = row s.visibleWindowOffset s.visibleItems i →
        j' = min (i + 1 - s.visibleWindowOffset) s.visibleItems →
        Ensures (scrollLoop l (i + 1) j' (s.update a f)) (fun t =>
          ∃ heap, t = { s with heap := heap } ∧ (∀ b, b ∉ a :: l → heap b = s.heap b) ∧
            ∀ (k : Nat) (b : Addr), (a :: l)[k]? = some b →
              (heap b).map Item.window = some (row s.visibleWindowOffset s.visibleItems (i + k)))
          fun _ => False := by
      intro j' f hf hj'
      refine (ih hl (fun b hb => live_update f (hlive b (List.mem_cons_of_mem a hb))) hj').imp ?_
      rintro t ⟨heap, rfl, hothers, hrows⟩
      refine ⟨heap, rfl, fun b hb => ?_, fun k b hk => ?_⟩
      · rw [hothers b (List.not_mem_of_not_mem_cons hb),
          update_heap_of_ne f (List.ne_of_not_mem_cons hb)]
      · cases k with
        | zero =>
          obtain rfl := Option.some.inj hk
          rw [hothers a hnot, update_heap_self, hitem]
          exact congrArg some hf
        | succ k =>
          rw [← Nat.add_assoc, Nat.add_right_comm]
          exact hrows k b hk
    rw [scrollLoop, ensures_bind]
    refine (read_ensures ⟨item, hitem⟩).imp fun _ _ => ?_
    simp only [ensures_ite]
    refine ⟨fun hbefore => hrest _ _ ?_ (by omega), fun hbefore => ⟨fun hrow => hrest _ _ ?_
      (by omega), fun hrow => hrest _ _ ?_ (by omega)⟩⟩
    · exact (if_neg fun hk => absurd hk.1 (not_le.mpr hbefore)).symm
    · rw [row_eq_some (not_lt.mp hbefore) (by omega)]
      exact congrArg some (by omega)
    · exact (row_eq_none (by omega)).symm

theorem Rows.scroll (h : Rows s) (offset : Nat) :
    Ensures (scrollLoop s.items 0 0 { s with visibleWindowOffset := offset })
      (fun t => Rows t ∧ ∃ heap, t = { s with heap := heap, visibleWindowOffset := offset })
      fun _ => False := by
  refine (scrollLoop_ensures (s := { s with visibleWindowOffset := offset }) h.nodup
    (fun a ha => h.live ha) (by simp)).imp ?_
  rintro t ⟨heap, rfl, -, hrows⟩
  refine ⟨⟨h.nodup, h.zero, h.count, fun k a hk => ?_, h.known⟩, heap, rfl⟩
  rw [← Nat.zero_add k]
  exact hrows k a hk

/-! ## Selecting -/

theorem setDirty_ensures (h : Rows s) (ha : a ∈ s.items) :
    Ensures (setDirty s a) (fun t => Rows t ∧ ∃ heap, t = { s with heap := heap })
      fun _ => False := by
  rw [setDirty, ensures_bind]
  exact (read_ensures (h.live ha)).imp fun _ _ => ⟨h.update fun _ => rfl, _, rfl⟩

theorem unselect_ensures (h : Rows s) :
    Ensures (unselect s) (fun t => Rows t ∧ ∃ heap, t = { s with heap := heap })
      fun _ => False := by
  rw [unselect, ensures_ite]
  exact ⟨fun hne => setDirty_ensures h (h.known.resolve_left hne), fun _ => ⟨h, s.heap, rfl⟩⟩

theorem setselected_ensures (h : Rows s) (hk : s.items[k]? = some a)
    (hlow : s.visibleWindowOffset ≤ k) (hhigh : k < s.visibleWindowOffset + s.visibleItems) :
    Ensures (setselected s a) Inv fun _ => False := by
  have ha := List.mem_of_getElem? hk
  rw [setselected, ensures_ite]
  refine ⟨fun heq => h.inv (heq ▸ hk) hlow hhigh, fun _ => ?_⟩
  rw [ensures_bind]
  refine (unselect_ensures h).imp ?_
  rintro t ⟨hrows, heap, rfl⟩
  have hselect : Rows { s with heap := heap, selected := a } := { hrows with known := .inr ha }
  refine (setDirty_ensures hselect ha).imp ?_
  rintro t ⟨hdirty, heap', rfl⟩
  exact hdirty.inv hk hlow hhigh

/-! ## The arrow keys -/

theorem upLoop_found (current : Addr) (l : List Addr) (prev found : Addr) :
    upLoop current l prev found = found ∨
      (upLoop current l prev found = prev ∧ l[0]? = some current) ∨
      ∃ k : Nat, l[k]? = some (upLoop current l prev found) ∧ l[k + 1]? = some current := by
  induction l generalizing prev found with
  | nil => exact .inl rfl
  | cons a l ih =>
    rw [upLoop]
    split
    · rename_i hcurrent
      rcases ih prev prev with h | ⟨h, -⟩ | ⟨k, h⟩
      · exact .inr (.inl ⟨h, by rw [hcurrent]; rfl⟩)
      · exact .inr (.inl ⟨h, by rw [hcurrent]; rfl⟩)
      · exact .inr (.inr ⟨k + 1, h⟩)
    · rcases ih a found with h | ⟨h, hnext⟩ | ⟨k, h⟩
      · exact .inl h
      · exact .inr (.inr ⟨0, by rw [h]; rfl, hnext⟩)
      · exact .inr (.inr ⟨k + 1, h⟩)

theorem downLoop_found (current : Addr) (l : List Addr) (selectNext : Bool) (found : Addr) :
    downLoop current l selectNext found = found ∨
      (selectNext = true ∧ l[0]? = some (downLoop current l selectNext found)) ∨
      ∃ k : Nat, l[k]? = some current ∧
        l[k + 1]? = some (downLoop current l selectNext found) := by
  induction l generalizing selectNext found with
  | nil => exact .inl rfl
  | cons a l ih =>
    rw [downLoop]
    split
    · rename_i hnext
      rcases ih false a with h | ⟨h, -⟩ | ⟨k, h⟩
      · exact .inr (.inl ⟨hnext, by rw [h]; rfl⟩)
      · cases h
      · exact .inr (.inr ⟨k + 1, h⟩)
    · split
      · rename_i hcurrent
        rcases ih true found with h | ⟨-, h⟩ | ⟨k, h⟩
        · exact .inl h
        · exact .inr (.inr ⟨0, by rw [hcurrent]; rfl, h⟩)
        · exact .inr (.inr ⟨k + 1, h⟩)
      · rcases ih selectNext found with h | ⟨hnext, -⟩ | ⟨k, h⟩
        · exact .inl h
        · exact absurd hnext ‹_›
        · exact .inr (.inr ⟨k + 1, h⟩)

/-- The item at the second index is the next one in a direction. -/
def Next : Direction → Nat → Nat → Prop
  | .up, selected, k => selected = k + 1
  | .down, selected, k => k = selected + 1

/-- **One line**: after scrolling, the item that is next to the selected one has a row. -/
theorem scrollTo_ensures {direction : Direction} {item : Item} {m : Nat} (h : Rows s)
    (hwindow : item.window = row s.visibleWindowOffset s.visibleItems k)
    (hlow : s.visibleWindowOffset ≤ m) (hhigh : m < s.visibleWindowOffset + s.visibleItems)
    (hnext : Next direction m k) :
    Ensures (scrollTo s direction item) (fun t => Rows t ∧ t.items = s.items ∧
      t.visibleWindowOffset ≤ k ∧ k < t.visibleWindowOffset + t.visibleItems) fun _ => False := by
  rw [scrollTo, ensures_ite]
  constructor
  · intro hnone
    have hout : ¬(s.visibleWindowOffset ≤ k ∧ k < s.visibleWindowOffset + s.visibleItems) :=
      fun hk => by rw [hwindow, row, if_pos hk] at hnone; cases hnone
    cases direction with
    | up =>
      obtain rfl : m = k + 1 := hnext
      rw [scrollitems, if_pos (by omega)]
      refine (h.scroll _).imp ?_
      rintro t ⟨hrows, heap, rfl⟩
      refine ⟨hrows, rfl, ?_, ?_⟩ <;> simp only <;> omega
    | down =>
      obtain rfl : k = m + 1 := hnext
      refine (h.scroll _).imp ?_
      rintro t ⟨hrows, heap, rfl⟩
      refine ⟨hrows, rfl, ?_, ?_⟩ <;> simp only <;> omega
  · intro hsome
    by_cases hk : s.visibleWindowOffset ≤ k ∧ k < s.visibleWindowOffset + s.visibleItems
    · exact ⟨h, rfl, hk⟩
    · exact absurd (hwindow.trans (if_neg hk)) hsome

theorem select_ensures {direction : Direction} {m : Nat} (h : Inv s)
    (hm : s.items[m]? = some s.selected) (hk : s.items[k]? = some a) (hnext : Next direction m k) :
    Ensures (select s direction a) Inv fun _ => False := by
  obtain ⟨m', hm', hlow, hhigh⟩ := h.shows fun hzero =>
    h.zero (hzero ▸ List.mem_of_getElem? hm)
  obtain rfl := (List.getElem?_inj (List.getElem?_eq_some_iff.mp hm).1 h.nodup).mp
    (hm.trans hm'.symm)
  rw [select, ensures_bind]
  obtain ⟨item, hitem, hwindow⟩ := Option.map_eq_some_iff.mp (h.rows k a hk)
  refine (read_ensures ⟨item, hitem⟩).imp fun item' hitem' => ?_
  obtain rfl := Option.some.inj (hitem.symm.trans hitem')
  rw [ensures_bind]
  refine (scrollTo_ensures h.toRows hwindow hlow hhigh hnext).imp ?_
  rintro t ⟨hrows, hitems, hlow', hhigh'⟩
  exact setselected_ensures hrows (hitems ▸ hk) hlow' hhigh'

theorem arrowUp_ensures (h : Inv s) : Ensures (arrowUp s) Inv fun _ => False := by
  rw [arrowUp, ensures_ite]
  refine ⟨fun hne => ?_, fun _ => h⟩
  rcases upLoop_found s.selected s.items 0 0
    with hzero | ⟨hzero, -⟩ | ⟨k, hk, hselected⟩
  · exact absurd hzero hne
  · exact absurd hzero hne
  · exact select_ensures h hselected hk rfl

theorem arrowDown_ensures (h : Inv s) : Ensures (arrowDown s) Inv fun _ => False := by
  rw [arrowDown, ensures_ite]
  refine ⟨fun hne => ?_, fun _ => { h with }⟩
  rcases downLoop_found s.selected s.items false 0
    with hzero | ⟨hfalse, -⟩ | ⟨k, hselected, hk⟩
  · exact absurd hzero hne
  · cases hfalse
  · exact select_ensures h hselected hk rfl

/-! ## The other calls -/

theorem removeitem_ensures {data : Addr} (h : Inv s) (hfits : Fits s (.removeitem data)) :
    Ensures (removeitem s data) Inv fun _ => False := by
  obtain ⟨hkept, hstart⟩ := hfits
  refine (removeLoop_ensures [] rfl h.nodup h.count (fun a ha => h.live ha)
    fun a ha hmatch => (hkept a ha hmatch).2).imp ?_
  rintro t ⟨heap, items, rfl, hitems, hheap⟩
  obtain rfl : items = remaining s data := hitems
  have hsub : (remaining s data).Sublist s.items := List.filter_sublist
  have hselected : s.selected ≠ 0 → s.selected ∈ remaining s data := fun hne =>
    List.mem_filter.mpr ⟨h.known.resolve_left hne, decide_eq_true fun hmatch =>
      (hkept _ (h.known.resolve_left hne) hmatch).1 rfl⟩
  refine ⟨⟨h.nodup.sublist hsub, fun hzero => h.zero (hsub.subset hzero), rfl, fun k a hk => ?_,
    ?_⟩, h.top, fun hne => ?_⟩
  · obtain ⟨k', hk', hle, hlt⟩ := exists_getElem?_of_sublist hsub hstart hk
    have hwindow : windowOf s a = some (row s.visibleWindowOffset s.visibleItems k) := by
      rw [h.rows k' a hk']
      by_cases hn : k < s.visibleWindowOffset + s.visibleItems
      · rw [hlt hn]
      · rw [row_eq_none (not_lt.mp hn), row_eq_none ((not_lt.mp hn).trans hle)]
    rw [← hwindow, windowOf, windowOf]
    exact congrArg (·.map Item.window) (hheap a (List.mem_of_getElem? hk))
  · exact or_iff_not_imp_left.mpr hselected
  · -- nothing that comes before the selected item was removed
    obtain ⟨m, hm, hlow, hhigh⟩ := h.shows hne
    obtain ⟨k, hk⟩ := List.mem_iff_getElem?.mp (hselected hne)
    obtain ⟨k', hk', hle, hlt⟩ := exists_getElem?_of_sublist hsub hstart hk
    obtain rfl := (List.getElem?_inj (List.getElem?_eq_some_iff.mp hm).1 h.nodup).mp
      (hm.trans hk'.symm)
    obtain rfl := hlt (hle.trans_lt hhigh)
    exact ⟨m, hk, hlow, hhigh⟩

theorem clearitems_ensures (h : Inv s) (hfits : Fits s .clearitems) :
    Ensures (clearitems s) Inv fun _ => False := by
  rw [clearitems, ensures_bind]
  refine (clearLoop_ensures rfl h.nodup fun a ha => h.live ha).imp ?_
  rintro t ⟨heap, rfl⟩
  exact ⟨⟨List.nodup_nil, List.not_mem_nil, rfl, by rintro _ _ ⟨⟩, .inl rfl⟩, fun _ => hfits,
    fun hne => absurd rfl hne⟩

/-- **A new item** at an address that is free gets the window of its row. -/
theorem Rows.append (h : Rows s) (item : Item) (hzero : a ≠ 0) (hfree : s.heap a = none)
    (hwindow : item.window = row s.visibleWindowOffset s.visibleItems s.items.length)
    {selected : Addr} (hselected : selected = 0 ∨ selected ∈ s.items ++ [a]) :
    Rows { s with
      heap := Function.update s.heap a (some item)
      items := s.items ++ [a]
      selected := selected
      count := s.count + 1 } := by
  have hnew : ∀ b ∈ s.items, b ≠ a := fun b hb heq =>
    not_mem_of_free (fun b hb => h.live hb) hfree (heq ▸ hb)
  refine ⟨?_, ?_, ?_, fun k b hk => ?_, hselected⟩
  · exact List.nodup_append.mpr ⟨h.nodup, List.nodup_singleton a, fun b hb c hc heq =>
      hnew b hb (heq.trans (List.mem_singleton.mp hc))⟩
  · rw [List.mem_append, List.mem_singleton]
    exact fun hmem => hmem.elim h.zero fun heq => hzero heq.symm
  · simp only [h.count, List.length_append, List.length_singleton]
    rfl
  · rcases Nat.lt_trichotomy k s.items.length with hlt | rfl | hgt
    · rw [List.getElem?_append_left hlt] at hk
      rw [← h.rows k b hk, windowOf, windowOf]
      simp only [Function.update_of_ne (hnew b (List.mem_of_getElem? hk))]
    · rw [List.getElem?_concat_length] at hk
      obtain rfl := Option.some.inj hk
      simp only [windowOf, Function.update_self]
      exact congrArg some hwindow
    · rw [List.getElem?_eq_none (by simpa using Nat.succ_le_of_lt hgt)] at hk
      cases hk

theorem additem_inv {name : CString} {data malloc : Addr} {strdup : Bool} (h : Inv s)
    (hfits : Fits s (.additem name data malloc strdup))
    (hfree : malloc = 0 ∨ s.heap malloc = none) :
    Inv (additem s name data malloc strdup).1 := by
  by_cases hzero : malloc = 0
  · rw [additem, if_pos hzero]
    exact h
  have hheap := hfree.resolve_left hzero
  have hfits := hfits.resolve_left hzero
  have hcount := h.count
  cases strdup with
  | false =>
    have hstays : ¬(s.count < s.visibleItems ∧ s.selected = 0) := fun hboth =>
      hfits.elim (fun hne => hne hboth.2) fun hfull => absurd hboth.1 (not_lt.mpr hfull)
    simp only [additem, if_neg hzero, if_neg hstays]
    exact h
  | true =>
    have hoffset : s.visibleWindowOffset = 0 ∨ s.visibleWindowOffset + s.visibleItems ≤ s.count :=
      hfits
    have hwindow : (if s.count < s.visibleItems then some s.count.toNat else none) =
        row s.visibleWindowOffset s.visibleItems s.items.length := by
      rw [hcount] at hoffset ⊢
      by_cases hshown : (s.items.length : Int) < s.visibleItems
      · rw [if_pos hshown, row_eq_some (by omega) (by omega), Int.toNat_natCast]
        exact congrArg some (by omega)
      · rw [if_neg hshown, row_eq_none (by omega)]
    by_cases hfirst : s.count < s.visibleItems ∧ s.selected = 0
    · -- the item becomes the selected one
      simp only [additem, if_neg hzero, if_pos hfirst]
      have hrows := h.append ⟨_, name, true, data⟩ hzero hheap hwindow
        (.inr (List.mem_append_right _ (List.mem_singleton_self malloc)))
      have htop := h.top hfirst.2
      have hrow : s.items.length < s.visibleWindowOffset + s.visibleItems := by
        rw [hcount] at hfirst
        omega
      exact hrows.inv List.getElem?_concat_length (htop.le.trans (Nat.zero_le _)) hrow
    · simp only [additem, if_neg hzero, if_neg hfirst]
      refine ⟨h.append ⟨_, name, true, data⟩ hzero hheap hwindow
        (h.known.imp_right (List.mem_append_left _)), h.top, fun hne => ?_⟩
      obtain ⟨k, hk, hrow⟩ := h.shows hne
      exact ⟨k, (List.getElem?_append_left (List.getElem?_eq_some_iff.mp hk).1).trans hk, hrow⟩

/-- **A call** that fits leaves the invariant, reads no freed item and fails no assertion. -/
theorem call_ensures (h : Inv s) {e : Event} (hfits : Fits s e) (henabled : enabled s e = true) :
    Ensures (call s e) (fun r => Inv r.1 ∧ (r.2 = .done ∨ r.2 = .failed)) fun _ => False := by
  cases e with
  | additem name data malloc strdup =>
    have hfree : malloc = 0 ∨ s.heap malloc = none := by
      simp only [enabled, Bool.and_eq_true, Bool.or_eq_true, decide_eq_true_eq] at henabled
      exact henabled.2
    rw [call, ensures_ok]
    exact ⟨additem_inv h hfits hfree, by cases (additem s name data malloc strdup).2 <;> simp⟩
  | removeitem data =>
    rw [call, ensures_bind]
    exact (removeitem_ensures h hfits).imp fun _ hs => ⟨hs, .inl rfl⟩
  | clearitems =>
    rw [call, ensures_bind]
    exact (clearitems_ensures h hfits).imp fun _ hs => ⟨hs, .inl rfl⟩
  | arrowUp =>
    rw [call, ensures_bind]
    exact (arrowUp_ensures h).imp fun _ hs => ⟨hs, .inl rfl⟩
  | arrowDown =>
    rw [call, ensures_bind]
    exact (arrowDown_ensures h).imp fun _ hs => ⟨hs, .inl rfl⟩
  | endOfList ret =>
    rw [call, ensures_ite]
    refine ⟨fun _ => ?_, fun _ => ⟨{ h with }, .inl rfl⟩⟩
    rw [ensures_bind]
    have hidle : Inv { s with pc := .idle } := { h with }
    exact (arrowDown_ensures hidle).imp fun _ hs => ⟨hs, .inl rfl⟩

/-! ## Runs -/

variable {t : State} {a : Event × Result} {visibleItems : Nat} {endOfListCallback : Bool}
  {tr : List (Event × Result)}

theorem Inv.step (h : Inv s) (hstep : Guarded step Fits s a t) :
    Inv t ∧ (a.2 = .done ∨ a.2 = .failed) := by
  obtain ⟨e, result⟩ := a
  obtain ⟨hfits, hstep⟩ := hstep
  simp only [Step, Listview.step] at hstep
  split at hstep
  · cases hstep
  rename_i henabled
  have hcall := call_ensures h hfits (by simpa using henabled)
  cases hresult : call s e with
  | ok r =>
    rw [hresult] at hcall hstep
    cases hstep
    exact hcall
  | error fault =>
    rw [hresult] at hcall
    exact hcall.elim

theorem Inv.init : Inv (init visibleItems endOfListCallback) :=
  ⟨⟨List.nodup_nil, List.not_mem_nil, rfl, nofun, .inl rfl⟩, fun _ => rfl, fun hne =>
    absurd rfl hne⟩

theorem Inv.shown (h : Inv s) : Shown s where
  rows := h.rows
  offset := by
    by_cases hzero : s.selected = 0
    · rw [h.top hzero]
      exact le_max_left _ _
    · obtain ⟨k, hk, hlow, -⟩ := h.shows hzero
      have hlen := (List.getElem?_eq_some_iff.mp hk).1
      have hcount := h.count
      exact (by omega : _ ≤ s.count - 1).trans (le_max_right _ _)
  selected hne := by
    obtain ⟨k, hk, hlow, hhigh⟩ := h.shows hne
    exact ⟨List.mem_of_getElem? hk, k - s.visibleWindowOffset,
      (h.rows k _ hk).trans (congrArg some (row_eq_some hlow hhigh))⟩

/-- **Rows are shown**: in every run whose calls fit, each item has the window of its row, the
    selected item has a window, and no assertion fails. -/
theorem rows_shown (h : Run (Guarded step Fits) (init visibleItems endOfListCallback) tr s) :
    Shown s ∧ ∀ a ∈ tr, a.2 = .done ∨ a.2 = .failed := by
  have hinv : Inv s ∧ ∀ a ∈ tr, a.2 = .done ∨ a.2 = .failed := by
    refine h.history (P := fun tr s => Inv s ∧ ∀ a ∈ tr, a.2 = .done ∨ a.2 = .failed)
      ⟨Inv.init, fun _ ha => absurd ha List.not_mem_nil⟩ ?_
    rintro tr s a t ⟨hinv, hpast⟩ hstep
    obtain ⟨hinv', hlast⟩ := hinv.step hstep
    rw [List.forall_mem_append, List.forall_mem_singleton]
    exact ⟨hinv', hpast, hlast⟩
  exact ⟨hinv.1.shown, hinv.2⟩

/-- Three items in two rows, the first one scrolled out and the last one removed. -/
theorem rows_shown_scrolled :
    ∃ tr s, Run (Guarded step Fits) (init 2 false) tr s ∧ s.items = [1, 2] ∧
      s.visibleWindowOffset = 1 ∧ Shown s ∧ ∀ a ∈ tr, a.2 = .done ∨ a.2 = .failed := by
  obtain ⟨tr, s, hrun, hitems, hoffset⟩ := exists_run_of_guarded_exec step Fits (init 2 false)
    (fun _ s => s.items = [1, 2] ∧ s.visibleWindowOffset = 1)
    [.additem ['a'] 100 1 true, .additem ['b'] 200 2 true, .additem ['c'] 300 3 true, .arrowDown,
      .arrowDown, .arrowUp, .removeitem 300] (by decide +kernel)
  exact ⟨tr, s, hrun, hitems, hoffset, rows_shown hrun⟩

/-- The item above the selected one is removed, and that stays in the second row; in a list of two
    rows that was scrolled, an item is removed and another one added; and a list that was scrolled
    is cleared. -/
theorem rows_not_shown :
    (∃ tr s, Run (Step step) (init 2 false) tr s ∧ s.items = [2] ∧
      windowOf s 2 = some (some 1) ∧ ¬Shown s) ∧
    (∃ tr s, Run (Step step) (init 2 false) tr s ∧ s.items = [1, 2, 4] ∧
      s.visibleWindowOffset = 1 ∧ windowOf s 4 = some none ∧ ¬Shown s) ∧
    ∃ tr s, Run (Step step) (init 1 false) tr s ∧ s.items = [] ∧ s.visibleWindowOffset = 1 ∧
      ¬Shown s := by
  refine ⟨?_, ?_, ?_⟩
  · obtain ⟨tr, s, hrun, hitems, hwindow, hoffset, hvisible⟩ := exists_run_of_exec step
      (init 2 false) (fun _ s => s.items = [2] ∧ windowOf s 2 = some (some 1) ∧
        s.visibleWindowOffset = 0 ∧ s.visibleItems = 2)
      [.additem ['a'] 100 1 true, .additem ['b'] 200 2 true, .arrowDown, .removeitem 100]
      (by decide +kernel)
    refine ⟨tr, s, hrun, hitems, hwindow, fun hshown => ?_⟩
    have hrow := hshown.rows 0 2 (hitems ▸ rfl)
    rw [hwindow, hoffset, hvisible] at hrow
    exact absurd hrow (by decide)
  · obtain ⟨tr, s, hrun, hitems, hoffset, hwindow, hvisible⟩ := exists_run_of_exec step
      (init 2 false) (fun _ s => s.items = [1, 2, 4] ∧ s.visibleWindowOffset = 1 ∧
        windowOf s 4 = some none ∧ s.visibleItems = 2)
      [.additem ['a'] 100 1 true, .additem ['b'] 200 2 true, .additem ['c'] 300 3 true, .arrowDown,
        .arrowDown, .arrowUp, .removeitem 300, .additem ['d'] 400 4 true] (by decide +kernel)
    refine ⟨tr, s, hrun, hitems, hoffset, hwindow, fun hshown => ?_⟩
    have hrow := hshown.rows 2 4 (hitems ▸ rfl)
    rw [hwindow, hoffset, hvisible] at hrow
    exact absurd hrow (by decide)
  · obtain ⟨tr, s, hrun, hitems, hoffset, hcount⟩ := exists_run_of_exec step (init 1 false)
      (fun _ s => s.items = [] ∧ s.visibleWindowOffset = 1 ∧ s.count = 0)
      [.additem ['a'] 100 1 true, .additem ['b'] 200 2 true, .arrowDown, .clearitems]
      (by decide +kernel)
    refine ⟨tr, s, hrun, hitems, hoffset, fun hshown => ?_⟩
    have hle := hshown.offset
    rw [hoffset, hcount] at hle
    exact absurd hle (by decide)

end Mediabox.ListviewRows
