import Mathlib.Data.List.Nodup
import Mathlib.Logic.Function.Basic
import Mediabox.Lib.Outcome
import Mediabox.Lib.Transition
import Mediabox.LibraryNames
import Mediabox.LinkedList

/-!
# The listview (`src/lib/ui/listview.c`)

The items of a listview, what is selected, and the windows of the items that show; a step is a call
of `avbox_listview_additem`, `avbox_listview_removeitem` or `avbox_listview_clearitems`, or an arrow
key.  The end of list callback is a state of its own in which the calls are possible.

* An item is an address, and so is the data of its owner; 0 is `NULL`.  `heap` has the items that
  are not freed.
* `avbox_listview_removeitem` finds an item by its data, and compares the selected item with the
  data: `removeLoop_ensures` is about the calls after which that does not matter.
* `Kept` — what is asked of a call: the selected item is not removed, and the first item gets a
  window and its name.

Main result: `selection_valid`.
-/

set_option autoImplicit false

namespace Mediabox.Listview

open Transition Outcome Library

/-! ## The code -/

/-- The address of an item, or of the data of an owner. -/
abbrev Addr := Nat

/-- `struct avbox_listitem` -/
structure Item where
  /-- the place in `item_windows` -/
  window : Option Nat
  name : CString
  dirty : Bool
  data : Addr
  deriving DecidableEq, Repr

inductive Pc where
  | idle
  /-- inside of `end_of_list_callback` -/
  | callback
  | stopped
  deriving DecidableEq, Repr

/-- `struct avbox_listview` and the memory of its items. -/
structure State where
  heap : Addr → Option Item
  items : List Addr
  selected : Addr
  visibleItems : Nat
  visibleWindowOffset : Nat
  count : Int
  /-- `end_of_list_callback` is set -/
  endOfListCallback : Bool
  pc : Pc

/-- `avbox_listview_new` and `avbox_listview_seteolcallback` -/
def init (visibleItems : Nat) (endOfListCallback : Bool) : State where
  heap := fun _ => none
  items := []
  selected := 0
  visibleItems := visibleItems
  visibleWindowOffset := 0
  count := 0
  endOfListCallback := endOfListCallback
  pc := .idle

inductive Fault where
  /-- the memory of an item that was freed -/
  | freed
  | assert
  deriving DecidableEq, Repr

/-- The item at an address. -/
def read (s : State) (a : Addr) : Except Fault Item :=
  match s.heap a with
  | some item => .ok item
  | none => .error .freed

def State.update (s : State) (a : Addr) (f : Item → Item) : State :=
  { s with heap := Function.update s.heap a ((s.heap a).map f) }

/-- `item->dirty = 1` -/
def setDirty (s : State) (a : Addr) : Except Fault State := do
  let _ ← read s a
  .ok (s.update a fun item => { item with dirty := true })

/-- The item is unlinked and freed. -/
def State.free (s : State) (a : Addr) : State :=
  { s with items := listRemove s.items a, heap := Function.update s.heap a none }

/-- The item that was selected, in `avbox_listview_setselected`. -/
def unselect (s : State) : Except Fault State :=
  if s.selected ≠ 0 then setDirty s s.selected else .ok s

/-- `avbox_listview_setselected` -/
def setselected (s : State) (item : Addr) : Except Fault State :=
  if s.selected = item then .ok s
  else do
    let s ← unselect s
    setDirty { s with selected := item } item

/-- `avbox_listview_getselected` -/
def getselected (s : State) : Except Fault Addr :=
  if s.selected = 0 then .ok 0
  else do
    let item ← read s s.selected
    .ok item.data

inductive Direction where
  | up
  | down
  deriving DecidableEq, Repr

/-- The loop of `avbox_listview_scrollitems`. -/
def scrollLoop : List Addr → Nat → Nat → State → Except Fault State
  | [], _, _, s => .ok s
  | a :: l, i, j, s => do
    let _ ← read s a
    if i < s.visibleWindowOffset then
      scrollLoop l (i + 1) j (s.update a fun item => { item with window := none })
    else if j < s.visibleItems then
      scrollLoop l (i + 1) (j + 1) (s.update a fun item =>
        { item with dirty := item.dirty || item.window ≠ some j, window := some j })
    else scrollLoop l (i + 1) j (s.update a fun item => { item with window := none })

/-- `avbox_listview_scrollitems` -/
def scrollitems (s : State) : Direction → Except Fault State
  | .down => scrollLoop s.items 0 0 { s with visibleWindowOffset := s.visibleWindowOffset + 1 }
  | .up =>
    if s.visibleWindowOffset > 0 then
      scrollLoop s.items 0 0 { s with visibleWindowOffset := s.visibleWindowOffset - 1 }
    else .error .assert

/-- `avbox_listview_additem`, with what `malloc` answers and whether `strdup` gives a name: the
    listview, and whether it returns 0. -/
def additem (s : State) (name : CString) (data malloc : Addr) (strdup : Bool) : State × Bool :=
  if malloc = 0 then (s, false)
  else
    let shown := s.count < s.visibleItems
    let window := if shown then some s.count.toNat else none
    -- if there's no selected item make this one it
    let s := if shown ∧ s.selected = 0 then { s with selected := malloc } else s
    if strdup then
      ({ s with
        heap := Function.update s.heap malloc (some ⟨window, name, true, data⟩)
        items := s.items ++ [malloc]
        count := s.count + 1 }, true)
    else (s, false)

/-- The loop of `avbox_listview_removeitem`, with its variables `next` and `prev`. -/
def removeLoop (data : Addr) : List Addr → Bool → Addr → State → Except Fault State
  | [], _, _, s => .ok s
  | a :: l, next, prev, s => do
    let menuitem ← read s a
    if menuitem.data = data then
      let s := { s.free a with count := s.count - 1 }
      if s.selected = data then
        if prev ≠ 0 then do
          let item ← read s prev
          removeLoop data l next a { s with selected := item.data }
        else removeLoop data l true a { s with selected := 0 }
      else removeLoop data l next a s
    else if next then .ok { s with selected := menuitem.data }
    else removeLoop data l next a s

/-- `avbox_listview_removeitem` -/
def removeitem (s : State) (data : Addr) : Except Fault State := removeLoop data s.items false 0 s

def clearLoop : List Addr → State → Except Fault State
  | [], s => .ok s
  | a :: l, s => do
    let _ ← read s a
    clearLoop l (s.free a)

/-- `avbox_listview_clearitems` -/
def clearitems (s : State) : Except Fault State := do
  let s ← clearLoop s.items s
  .ok { s with count := 0, selected := 0 }

/-- The list is scrolled to an item without a window. -/
def scrollTo (s : State) (direction : Direction) (item : Item) : Except Fault State :=
  if item.window = none then scrollitems s direction else .ok s

/-- The end of both arrow keys. -/
def select (s : State) (direction : Direction) (selected : Addr) : Except Fault State := do
  let item ← read s selected
  let s ← scrollTo s direction item
  setselected s selected

/-- The loop of `MBI_EVENT_ARROW_UP`, with its variables `prev` and `selected`. -/
def upLoop (current : Addr) : List Addr → Addr → Addr → Addr
  | [], _, selected => selected
  | a :: l, prev, selected =>
    if current = a then upLoop current l prev prev else upLoop current l a selected

/-- `MBI_EVENT_ARROW_UP` -/
def arrowUp (s : State) : Except Fault State :=
  let selected := upLoop s.selected s.items 0 0
  if selected ≠ 0 then select s .up selected else .ok s

/-- The loop of `MBI_EVENT_ARROW_DOWN`, with its variables `select_next` and `selected`. -/
def downLoop (current : Addr) : List Addr → Bool → Addr → Addr
  | [], _, selected => selected
  | a :: l, selectNext, selected =>
    if selectNext then downLoop current l false a
    else if current = a then downLoop current l true selected
    else downLoop current l selectNext selected

/-- `MBI_EVENT_ARROW_DOWN`, from `start:` on -/
def arrowDown (s : State) : Except Fault State :=
  let selected := downLoop s.selected s.items false 0
  if selected ≠ 0 then select s .down selected
  else .ok { s with pc := if s.endOfListCallback then .callback else .idle }

inductive Event where
  | additem (name : CString) (data malloc : Addr) (strdup : Bool)
  | removeitem (data : Addr)
  | clearitems
  | arrowUp
  | arrowDown
  /-- `end_of_list_callback` returns -/
  | endOfList (ret : Int)
  deriving DecidableEq, Repr

inductive Result where
  | done
  | failed
  | freed
  | aborted
  deriving DecidableEq, Repr

/-- The calls are made by the thread of the window, which is not in a handler or in the callback;
    `malloc` gives `NULL` or memory that is free. -/
def enabled (s : State) : Event → Bool
  | .additem _ _ malloc _ => s.pc ≠ .stopped && (malloc = 0 || s.heap malloc = none)
  | .removeitem _ | .clearitems => s.pc ≠ .stopped
  | .arrowUp | .arrowDown => s.pc = .idle
  | .endOfList _ => s.pc = .callback

/-- What a call does. -/
def call (s : State) : Event → Except Fault (State × Result)
  | .additem name data malloc strdup =>
    let (s, ok) := additem s name data malloc strdup
    .ok (s, if ok then .done else .failed)
  | .removeitem data => do
    let s ← removeitem s data
    .ok (s, .done)
  | .clearitems => do
    let s ← clearitems s
    .ok (s, .done)
  | .arrowUp => do
    let s ← arrowUp s
    .ok (s, .done)
  | .arrowDown => do
    let s ← arrowDown s
    .ok (s, .done)
  | .endOfList ret =>
    -- `goto start`
    if ret = 0 then do
      let s ← arrowDown { s with pc := .idle }
      .ok (s, .done)
    else .ok ({ s with pc := .idle }, .done)

/-- A step of the listview, which ends with the first access to freed memory or failed assertion. -/
def step (s : State) (e : Event) : Option (State × Result) :=
  if !enabled s e then none
  else
    match call s e with
    | .ok r => some r
    | .error .freed => some ({ s with pc := .stopped }, .freed)
    | .error .assert => some ({ s with pc := .stopped }, .aborted)

/-! ## What it is for -/

/-- The selection is valid: it is `NULL` or an item, `NULL` for an empty list only, and its data are
    read. -/
structure Valid (s : State) : Prop where
  selected : s.selected = 0 ∨ s.selected ∈ s.items
  empty : s.selected = 0 → s.items = []
  data : s.selected ≠ 0 → ∃ item, s.heap s.selected = some item ∧ getselected s = .ok item.data

/-- What is asked of a call: an item that is added to a list without selection has a window and a
    name (or neither, so that it is not added), and an item that is removed is not the selected one,
    nor are its data the address of that. -/
def Kept (s : State) : Event → Prop
  | .additem _ _ malloc strdup =>
    s.selected = 0 → malloc ≠ 0 → (strdup = true ↔ s.count < s.visibleItems)
  | .removeitem data =>
    ∀ a ∈ s.items, (s.heap a).map Item.data = some data → a ≠ s.selected ∧ data ≠ s.selected
  | _ => True

instance (s : State) : (e : Event) → Decidable (Kept s e)
  | .additem _ _ _ _ => inferInstanceAs (Decidable (_ → _ → _))
  | .removeitem _ => inferInstanceAs (Decidable (∀ _ ∈ _, _ → _))
  | .clearitems => inferInstanceAs (Decidable True)
  | .arrowUp => inferInstanceAs (Decidable True)
  | .arrowDown => inferInstanceAs (Decidable True)
  | .endOfList _ => inferInstanceAs (Decidable True)

/-- What holds between two calls. -/
structure Inv (s : State) : Prop where
  nodup : s.items.Nodup
  live : ∀ a ∈ s.items, a ≠ 0 ∧ ∃ item, s.heap a = some item
  count : s.count = s.items.length
  empty : s.items = [] → s.selected = 0
  mem : s.items ≠ [] → s.selected ∈ s.items

variable {s : State} {a : Addr} {l : List Addr}

/-! ## The items -/

theorem read_ensures (h : ∃ item, s.heap a = some item) :
    Ensures (read s a) (fun item => s.heap a = some item) fun _ => False := by
  obtain ⟨item, hitem⟩ := h
  unfold read
  rw [hitem]
  rfl

/-- Memory that is free is not that of an item. -/
theorem not_mem_of_free (hlive : ∀ b ∈ l, ∃ item, s.heap b = some item) (hfree : s.heap a = none) :
    a ∉ l := by
  intro ha
  obtain ⟨item, hitem⟩ := hlive a ha
  rw [hfree] at hitem
  cases hitem

theorem live_update (f : Item → Item) {b : Addr} (h : ∃ item, s.heap b = some item) :
    ∃ item, (s.update a f).heap b = some item := by
  obtain ⟨item, hitem⟩ := h
  by_cases hb : b = a
  · subst hb
    exact ⟨f item, by simp [State.update, hitem]⟩
  · exact ⟨item, by simp [State.update, Function.update_of_ne hb, hitem]⟩

theorem Inv.update (h : Inv s) (f : Item → Item) : Inv (s.update a f) where
  nodup := h.nodup
  live b hb := ⟨(h.live b hb).1, live_update f (h.live b hb).2⟩
  count := h.count
  empty := h.empty
  mem := h.mem

theorem Inv.select (h : Inv s) (ha : a ∈ s.items) : Inv { s with selected := a } where
  nodup := h.nodup
  live := h.live
  count := h.count
  empty hnil := absurd (hnil ▸ ha) List.not_mem_nil
  mem _ := ha

theorem Inv.selected_live (h : Inv s) (hne : s.selected ≠ 0) : s.selected ∈ s.items := by
  by_cases hnil : s.items = []
  · exact absurd (h.empty hnil) hne
  · exact h.mem hnil

theorem setDirty_ensures (h : Inv s) (ha : a ∈ s.items) :
    Ensures (setDirty s a) (fun s' => Inv s' ∧ s'.items = s.items) fun _ => False := by
  rw [setDirty, ensures_bind]
  exact (read_ensures (h.live a ha).2).imp fun _ _ => ⟨h.update _, rfl⟩

theorem unselect_ensures (h : Inv s) :
    Ensures (unselect s) (fun s' => Inv s' ∧ s'.items = s.items) fun _ => False := by
  rw [unselect, ensures_ite]
  exact ⟨fun hne => setDirty_ensures h (h.selected_live hne), fun _ => ⟨h, rfl⟩⟩

/-- The item that was selected is there when its flag is set. -/
theorem setselected_ensures (h : Inv s) (ha : a ∈ s.items) :
    Ensures (setselected s a) (fun s' => Inv s' ∧ s'.items = s.items) fun _ => False := by
  rw [setselected, ensures_ite]
  refine ⟨fun _ => ⟨h, rfl⟩, fun _ => ?_⟩
  rw [ensures_bind]
  refine (unselect_ensures h).imp fun s' ⟨hinv, hitems⟩ => ?_
  have ha' : a ∈ s'.items := hitems ▸ ha
  exact (setDirty_ensures (hinv.select ha') ha').imp fun _ ⟨hinv', hitems'⟩ =>
    ⟨hinv', hitems'.trans hitems⟩

/-! ## The arrow keys -/

theorem scrollLoop_ensures {i j : Nat} (h : Inv s) (hsub : l ⊆ s.items) :
    Ensures (scrollLoop l i j s) (fun s' => Inv s' ∧ s'.items = s.items) fun _ => False := by
  induction l generalizing i j s with
  | nil => exact ⟨h, rfl⟩
  | cons a l ih =>
    have ha := hsub List.mem_cons_self
    have hrest : ∀ i j (f : Item → Item), Ensures (scrollLoop l i j (s.update a f))
        (fun s' => Inv s' ∧ s'.items = s.items) fun _ => False := fun i j f =>
      ih (h.update f) fun b hb => hsub (List.mem_cons_of_mem a hb)
    rw [scrollLoop, ensures_bind]
    refine (read_ensures (h.live a ha).2).imp fun _ _ => ?_
    simp only [ensures_ite]
    exact ⟨fun _ => hrest _ _ _, fun _ => ⟨fun _ => hrest _ _ _, fun _ => hrest _ _ _⟩⟩

theorem scrollitems_ensures (h : Inv s) (direction : Direction) :
    Ensures (scrollitems s direction) (fun s' => Inv s' ∧ s'.items = s.items) (· ≠ .freed) := by
  have hmoved : ∀ offset, Ensures (scrollLoop s.items 0 0 { s with visibleWindowOffset := offset })
      (fun s' => Inv s' ∧ s'.items = s.items) (· ≠ .freed) := fun offset =>
    (scrollLoop_ensures (s := { s with visibleWindowOffset := offset }) { h with }
      (List.Subset.refl _)).mono (fun _ hs => hs) nofun
  cases direction with
  | down => exact hmoved _
  | up =>
    rw [scrollitems, ensures_ite]
    exact ⟨fun _ => hmoved _, fun _ => nofun⟩

theorem scrollTo_ensures (h : Inv s) (direction : Direction) (item : Item) :
    Ensures (scrollTo s direction item) (fun s' => Inv s' ∧ s'.items = s.items) (· ≠ .freed) := by
  rw [scrollTo, ensures_ite]
  exact ⟨fun _ => scrollitems_ensures h direction, fun _ => ⟨h, rfl⟩⟩

theorem select_ensures (h : Inv s) (ha : a ∈ s.items) (direction : Direction) :
    Ensures (select s direction a) Inv (· ≠ .freed) := by
  rw [select, ensures_bind]
  refine (read_ensures (h.live a ha).2).mono (fun item _ => ?_) nofun
  rw [ensures_bind]
  exact (scrollTo_ensures h direction item).imp fun s' ⟨hinv, hitems⟩ =>
    (setselected_ensures hinv (hitems ▸ ha)).mono (fun _ hs => hs.1) nofun

theorem upLoop_mem {current prev found : Addr} (hprev : prev ≠ 0 → prev ∈ s.items)
    (hfound : found ≠ 0 → found ∈ s.items) (hsub : l ⊆ s.items) :
    upLoop current l prev found ≠ 0 → upLoop current l prev found ∈ s.items := by
  induction l generalizing prev found with
  | nil => exact hfound
  | cons a l ih =>
    have hrest : l ⊆ s.items := fun b hb => hsub (List.mem_cons_of_mem a hb)
    rw [upLoop]
    split
    · exact ih hprev hprev hrest
    · exact ih (fun _ => hsub List.mem_cons_self) hfound hrest

theorem downLoop_mem {current found : Addr} {selectNext : Bool}
    (hfound : found ≠ 0 → found ∈ s.items) (hsub : l ⊆ s.items) :
    downLoop current l selectNext found ≠ 0 → downLoop current l selectNext found ∈ s.items := by
  induction l generalizing selectNext found with
  | nil => exact hfound
  | cons a l ih =>
    have hrest : l ⊆ s.items := fun b hb => hsub (List.mem_cons_of_mem a hb)
    rw [downLoop]
    split
    · exact ih (fun _ => hsub List.mem_cons_self) hrest
    · split <;> exact ih hfound hrest

theorem arrowUp_ensures (h : Inv s) : Ensures (arrowUp s) Inv (· ≠ .freed) := by
  rw [arrowUp, ensures_ite]
  refine ⟨fun hne => select_ensures h ?_ .up, fun _ => h⟩
  exact upLoop_mem (fun hzero => absurd rfl hzero) (fun hzero => absurd rfl hzero)
    (List.Subset.refl _) hne

theorem arrowDown_ensures (h : Inv s) : Ensures (arrowDown s) Inv (· ≠ .freed) := by
  rw [arrowDown, ensures_ite]
  refine ⟨fun hne => select_ensures h ?_ .down, fun _ => { h with }⟩
  exact downLoop_mem (fun hzero => absurd rfl hzero) (List.Subset.refl _) hne

/-! ## The calls -/

/-- **Removal**: the other items stay as they are, if the selected item is not compared with its own
    address. -/
theorem removeLoop_ensures {data prev : Addr} (before : List Addr) (hitems : s.items = before ++ l)
    (hnodup : s.items.Nodup) (hcount : s.count = s.items.length)
    (hlive : ∀ a ∈ l, ∃ item, s.heap a = some item)
    (hkept : ∀ a ∈ l, (s.heap a).map Item.data = some data → data ≠ s.selected) :
    Ensures (removeLoop data l false prev s) (fun t => ∃ heap items, t = { s with
        heap := heap
        items := items
        count := items.length } ∧
      items = before ++ l.filter (fun a => (s.heap a).map Item.data ≠ some data) ∧
      ∀ b ∈ items, heap b = s.heap b) fun _ => False := by
  induction l generalizing before prev s with
  | nil => exact ⟨s.heap, s.items, by rw [← hcount], by simpa using hitems, fun _ _ => rfl⟩
  | cons a l ih =>
    obtain ⟨item, hitem⟩ := hlive a List.mem_cons_self
    rw [hitems] at hnodup
    obtain ⟨-, hl, hdisjoint⟩ := List.nodup_append.mp hnodup
    obtain ⟨hnot, hl⟩ := List.nodup_cons.mp hl
    have hbefore : a ∉ before := fun ha => hdisjoint a ha a List.mem_cons_self rfl
    rw [removeLoop, ensures_bind]
    refine (read_ensures ⟨item, hitem⟩).imp fun item' hitem' => ?_
    obtain rfl := Option.some.inj (hitem.symm.trans hitem')
    rw [ensures_ite]
    refine ⟨fun hdata => ?_, fun hdata => ?_⟩
    · have hother := hkept a List.mem_cons_self (by rw [hitem, ← hdata]; rfl)
      have hfree : ∀ b, b ≠ a → (s.free a).heap b = s.heap b := fun b hb =>
        Function.update_of_ne hb _ _
      have hne : ∀ b ∈ l, b ≠ a := fun b hb heq => hnot (heq ▸ hb)
      have herase : (s.free a).items = before ++ l := by
        rw [State.free, hitems, listRemove, List.erase_append_right _ hbefore, List.erase_cons_head]
      have hrest : (s.free a).items.Nodup := herase.symm ▸
        hnodup.sublist (List.Sublist.append_left (List.sublist_cons_self a l) before)
      rw [ensures_ite]
      refine ⟨fun heq => absurd heq.symm hother, fun _ => ?_⟩
      refine (ih (s := { s.free a with count := s.count - 1 }) before herase
        hrest ?_ (fun b hb => ?_) fun b hb hmatch => ?_).imp ?_
      · have hlen : (s.free a).items.length = before.length + l.length :=
          (congrArg List.length herase).trans List.length_append
        rw [hitems] at hcount
        simp only [List.length_append, List.length_cons] at hcount
        simp only [hlen, hcount]
        omega
      · obtain ⟨other, hb'⟩ := hlive b (List.mem_cons_of_mem a hb)
        exact ⟨other, (hfree b (hne b hb)).trans hb'⟩
      · exact hkept b (List.mem_cons_of_mem a hb) (hfree b (hne b hb) ▸ hmatch)
      · rintro t ⟨heap, items, rfl, hfilter, hheap⟩
        have hsame : l.filter (fun b => ((s.free a).heap b).map Item.data ≠ some data) =
            l.filter fun b => (s.heap b).map Item.data ≠ some data :=
          List.filter_congr fun b hb => by rw [hfree b (hne b hb)]
        have hgone : ¬(s.heap a).map Item.data ≠ some data :=
          not_not.mpr (by rw [hitem, ← hdata]; rfl)
        refine ⟨heap, items, rfl, ?_, fun b hb => ?_⟩
        · rw [hfilter, hsame, List.filter_cons_of_neg (by simpa using hgone)]
        · refine (hheap b hb).trans (hfree b ?_)
          rintro rfl
          rw [hfilter, List.mem_append] at hb
          exact hb.elim hbefore fun hb => hnot (List.mem_of_mem_filter hb)
    · rw [if_neg (by decide)]
      refine (ih (before ++ [a]) (by rw [hitems, List.append_assoc]; rfl) ?_ hcount
        (fun b hb => hlive b (List.mem_cons_of_mem a hb)) fun b hb =>
          hkept b (List.mem_cons_of_mem a hb)).imp ?_
      · exact hitems ▸ hnodup
      · rintro t ⟨heap, items, rfl, hfilter, hheap⟩
        refine ⟨heap, items, rfl, ?_, hheap⟩
        have hstays : (s.heap a).map Item.data ≠ some data := by
          rw [hitem]
          exact fun heq => hdata (Option.some.inj heq)
        rw [hfilter, List.filter_cons_of_pos (by simpa using hstays), List.append_assoc]
        rfl

theorem removeitem_ensures {data : Addr} (h : Inv s) (hkept : Kept s (.removeitem data)) :
    Ensures (removeitem s data) Inv fun _ => False := by
  refine (removeLoop_ensures [] rfl h.nodup h.count (fun a ha => (h.live a ha).2)
    fun a ha hmatch => (hkept a ha hmatch).2).imp ?_
  rintro t ⟨heap, items, rfl, hitems, hheap⟩
  rw [List.nil_append] at hitems
  have hsub : items.Sublist s.items := hitems ▸ List.filter_sublist
  have hselected : s.items ≠ [] → s.selected ∈ items := fun hne =>
    hitems ▸ List.mem_filter.mpr ⟨h.mem hne, decide_eq_true fun hmatch =>
      (hkept _ (h.mem hne) hmatch).1 rfl⟩
  refine ⟨h.nodup.sublist hsub, fun b hb => ?_, rfl, fun hnil => ?_, fun hne => ?_⟩
  · obtain ⟨hzero, item, hitem⟩ := h.live b (hsub.subset hb)
    exact ⟨hzero, item, (hheap b hb).trans hitem⟩
  · refine h.empty (by_contra fun hne => ?_)
    rw [show items = [] from hnil] at hselected
    exact List.not_mem_nil (hselected hne)
  · exact hselected fun hnil => hne (List.sublist_nil.mp (hnil ▸ hsub))

theorem clearLoop_ensures (hitems : s.items = l) (hl : l.Nodup)
    (hlive : ∀ a ∈ l, ∃ item, s.heap a = some item) :
    Ensures (clearLoop l s) (fun t => ∃ heap, t = { s with heap := heap, items := [] })
      fun _ => False := by
  induction l generalizing s with
  | nil => exact ⟨s.heap, by rw [← hitems]⟩
  | cons a l ih =>
    obtain ⟨hnot, hl⟩ := List.nodup_cons.mp hl
    rw [clearLoop, ensures_bind]
    refine (read_ensures (hlive a List.mem_cons_self)).imp fun _ _ => ?_
    refine (ih (s := s.free a) ?_ hl fun b hb => ?_).imp fun t ⟨heap, ht⟩ => ⟨heap, ht⟩
    · simp only [State.free, listRemove, hitems, List.erase_cons_head]
    · have hba : b ≠ a := fun heq => hnot (heq ▸ hb)
      obtain ⟨item, hitem⟩ := hlive b (List.mem_cons_of_mem a hb)
      exact ⟨item, by simp [State.free, Function.update_of_ne hba, hitem]⟩

theorem clearitems_ensures (h : Inv s) : Ensures (clearitems s) Inv fun _ => False := by
  rw [clearitems, ensures_bind]
  refine (clearLoop_ensures rfl h.nodup fun a ha => (h.live a ha).2).imp ?_
  rintro t ⟨heap, rfl⟩
  exact ⟨List.nodup_nil, nofun, rfl, fun _ => rfl, fun hne => absurd rfl hne⟩

theorem Inv.append (h : Inv s) (item : Item) (hzero : a ≠ 0) (hfree : s.heap a = none)
    {selected : Addr} (hselected : selected ∈ s.items ∨ selected = a) :
    Inv { s with
      heap := Function.update s.heap a (some item), items := s.items ++ [a]
      selected := selected, count := s.count + 1 } := by
  have hnew : ∀ b ∈ s.items, b ≠ a := fun b hb heq =>
    not_mem_of_free (fun b hb => (h.live b hb).2) hfree (heq ▸ hb)
  refine ⟨?_, fun b hb => ?_, ?_, fun hnil => ?_, fun _ => ?_⟩
  · exact List.nodup_append.mpr ⟨h.nodup, List.nodup_singleton a, fun b hb c hc heq =>
      hnew b hb (heq.trans (List.mem_singleton.mp hc))⟩
  · rcases List.mem_append.mp hb with hb | hb
    · obtain ⟨hb0, other, hother⟩ := h.live b hb
      exact ⟨hb0, other, by simp [Function.update_of_ne (hnew b hb), hother]⟩
    · rw [List.mem_singleton.mp hb]
      exact ⟨hzero, item, by simp⟩
  · have hcount := h.count
    simp only [List.length_append, List.length_singleton]
    omega
  · exact absurd hnil (by simp)
  · rcases hselected with hmem | rfl
    · exact List.mem_append_left _ hmem
    · exact List.mem_append_right _ (List.mem_singleton_self _)

theorem additem_inv (h : Inv s) {name : CString} {data malloc : Addr} {strdup : Bool}
    (hkept : Kept s (.additem name data malloc strdup))
    (hfree : malloc = 0 ∨ s.heap malloc = none) :
    Inv (additem s name data malloc strdup).1 := by
  by_cases hzero : malloc = 0
  · rw [additem, if_pos hzero]
    exact h
  have hheap := hfree.resolve_left hzero
  by_cases hselected : s.selected = 0
  · -- the item becomes the selected one if it shows
    by_cases hshown : s.count < s.visibleItems
    · have hname := (hkept hselected hzero).mpr hshown
      simp only [additem, if_neg hzero, hshown, hselected, hname]
      exact h.append _ hzero hheap (.inr rfl)
    · have hname : strdup = false :=
        Bool.eq_false_iff.mpr fun hname => hshown ((hkept hselected hzero).mp hname)
      simp only [additem, if_neg hzero, hshown, hname]
      exact h
  · have hstays : ¬(s.count < s.visibleItems ∧ s.selected = 0) := fun hboth => hselected hboth.2
    cases strdup with
    | true =>
      simp only [additem, if_neg hzero, if_neg hstays]
      exact h.append _ hzero hheap (.inl (h.selected_live hselected))
    | false =>
      simp only [additem, if_neg hzero, if_neg hstays]
      exact h

/-- **A call** leaves the invariant and reads no freed item. -/
theorem call_ensures (h : Inv s) {e : Event} (hkept : Kept s e) (henabled : enabled s e = true) :
    Ensures (call s e) (fun r => Inv r.1 ∧ r.2 ≠ .freed) (· ≠ .freed) := by
  cases e with
  | additem name data malloc strdup =>
    have hfree : malloc = 0 ∨ s.heap malloc = none := by
      simp only [enabled, Bool.and_eq_true, Bool.or_eq_true, decide_eq_true_eq] at henabled
      exact henabled.2
    rw [call, ensures_ok]
    exact ⟨additem_inv h hkept hfree, by cases (additem s name data malloc strdup).2 <;> nofun⟩
  | removeitem data =>
    rw [call, ensures_bind]
    exact (removeitem_ensures h hkept).mono (fun _ hs => ⟨hs, nofun⟩) nofun
  | clearitems =>
    rw [call, ensures_bind]
    exact (clearitems_ensures h).mono (fun _ hs => ⟨hs, nofun⟩) nofun
  | arrowUp =>
    rw [call, ensures_bind]
    exact (arrowUp_ensures h).imp fun _ hs => ⟨hs, nofun⟩
  | arrowDown =>
    rw [call, ensures_bind]
    exact (arrowDown_ensures h).imp fun _ hs => ⟨hs, nofun⟩
  | endOfList ret =>
    rw [call, ensures_ite]
    refine ⟨fun _ => ?_, fun _ => ⟨{ h with }, nofun⟩⟩
    rw [ensures_bind]
    have hidle : Inv { s with pc := .idle } := { h with }
    exact (arrowDown_ensures hidle).imp fun _ hs => ⟨hs, nofun⟩

/-! ## Runs -/

variable {t : State} {a : Event × Result}

theorem Inv.step (h : Inv s) (hstep : Guarded step Kept s a t) : Inv t ∧ a.2 ≠ .freed := by
  obtain ⟨e, result⟩ := a
  obtain ⟨hkept, hstep⟩ := hstep
  simp only [Step, Listview.step] at hstep
  split at hstep
  · cases hstep
  rename_i henabled
  have hcall := call_ensures h hkept (by simpa using henabled)
  cases hresult : call s e with
  | ok r =>
    rw [hresult] at hcall hstep
    cases hstep
    exact hcall
  | error fault =>
    rw [hresult] at hcall hstep
    cases fault with
    | freed => exact absurd rfl hcall
    | assert =>
      cases hstep
      exact ⟨{ h with }, nofun⟩

theorem Inv.init (visibleItems : Nat) (endOfListCallback : Bool) :
    Inv (init visibleItems endOfListCallback) :=
  ⟨List.nodup_nil, fun _ ha => absurd ha List.not_mem_nil, rfl, fun _ => rfl, fun hne =>
    absurd rfl hne⟩

theorem Inv.valid (h : Inv s) : Valid s where
  selected := by
    by_cases hzero : s.selected = 0
    · exact .inl hzero
    · exact .inr (h.selected_live hzero)
  empty hzero := by
    by_contra hne
    exact (h.live _ (h.mem hne)).1 hzero
  data hne := by
    obtain ⟨-, item, hitem⟩ := h.live _ (h.selected_live hne)
    refine ⟨item, hitem, ?_⟩
    rw [getselected, if_neg hne, read, hitem]
    rfl

/-- **The selection is valid** after every call of a run in which the selected item is not removed
    and the first item gets its window and its name, and no call reads an item that was freed. -/
theorem selection_valid {visibleItems : Nat} {endOfListCallback : Bool}
    {tr : List (Event × Result)}
    (h : Run (Guarded step Kept) (init visibleItems endOfListCallback) tr s) :
    Valid s ∧ ∀ a ∈ tr, a.2 ≠ .freed := by
  have hinv : Inv s ∧ ∀ a ∈ tr, a.2 ≠ .freed := by
    refine h.history (P := fun tr s => Inv s ∧ ∀ a ∈ tr, a.2 ≠ .freed)
      ⟨Inv.init _ _, fun _ ha => absurd ha List.not_mem_nil⟩ ?_
    rintro tr s a t ⟨hinv, hpast⟩ hstep
    obtain ⟨hinv', hlast⟩ := hinv.step hstep
    refine ⟨hinv', fun b hb => ?_⟩
    rcases List.mem_append.mp hb with hb | hb
    · exact hpast b hb
    · rw [List.mem_singleton.mp hb]
      exact hlast
  exact ⟨hinv.1.valid, hinv.2⟩

/-- Two items: the second is selected, the first one removed. -/
theorem selection_valid_two :
    ∃ tr s, Run (Guarded step Kept) (init 5 false) tr s ∧ s.items = [2] ∧
      Valid s ∧ ∀ a ∈ tr, a.2 ≠ .freed := by
  obtain ⟨tr, s, hrun, hitems⟩ := exists_run_of_guarded_exec step Kept (init 5 false)
    (fun _ s => s.items = [2])
    [.additem ['a'] 100 1 true, .additem ['b'] 200 2 true, .arrowDown, .removeitem 100]
    (by decide +kernel)
  exact ⟨tr, s, hrun, hitems, selection_valid hrun⟩

/-- Two items, and the selected one is removed: it stays selected, and its memory is freed. -/
theorem removed_selected :
    ∃ tr s, Run (Step step) (init 5 false) tr s ∧ s.heap s.selected = none ∧ ¬Valid s := by
  obtain ⟨tr, s, hrun, hselected, hitems, hfreed⟩ := exists_run_of_exec step (init 5 false)
    (fun _ s => s.selected = 1 ∧ s.items = [2] ∧ (s.heap s.selected).isNone)
    [.additem ['a'] 100 1 true, .additem ['b'] 200 2 true, .removeitem 100] (by decide +kernel)
  refine ⟨tr, s, hrun, Option.isNone_iff_eq_none.mp hfreed, fun hvalid => ?_⟩
  have hmem := hvalid.selected
  rw [hselected, hitems] at hmem
  exact absurd hmem (by decide)

end Mediabox.Listview
