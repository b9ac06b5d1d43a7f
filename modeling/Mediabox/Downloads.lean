import Mathlib.Data.List.Nodup
import Mathlib.Data.List.Perm.Basic
import Mediabox.Lib.Transition
import Mediabox.LibraryNames
import Mediabox.LinkedList

/-!
# The downloads window (`src/downloads.c`, `src/downloads-backend.c`)

`mbox_downloads_populatelistasync` goes through the torrents of the session with
`avbox_torrent_next`, adds or updates the entry of each, and removes the entries that were not
updated.

* A torrent is its address and its id.  Torrents come and go between the steps of a pass; the
  address of one that is gone may be used again.
* The items of the list view are found by the pointer to the id of an entry; the ids of the entries
  are different, so that an id stands for its pointer.
* `always` are the torrents that have been in the list since the pass began, `ever` the ones that
  have been in it at some time; they are not in the source.  Memory and delegates are not exhausted.

Main result: `window_shows` — a pass ends with an entry for each torrent that was there all the time
and with none for one that was never there, if the torrent that `avbox_torrent_next` starts from is
still in the list at each of its calls.
-/

set_option autoImplicit false

namespace Mediabox.Downloads

open Transition Library

/-! ## The code -/

/-- `struct avbox_torrent`, its address and `info_hash` -/
structure Torrent where
  addr : Nat
  id : CString
deriving DecidableEq, Repr

/-- `struct mbox_download` -/
structure Download where
  id : CString
  name : CString
  updated : Bool
deriving DecidableEq, Repr

/-- `struct avbox_listitem` -/
structure Item where
  id : CString
  name : CString
deriving DecidableEq, Repr

/-- `downloads` and the items of `menu`. -/
structure Window where
  downloads : List Download
  items : List Item
  ids : (downloads.map Download.id).Nodup
  shown : (items.map Item.id).Perm (downloads.map Download.id)

/-- The torrents after the one at an address. -/
def after (addr : Nat) : List Torrent → List Torrent
  | [] => []
  | t :: ts => if t.addr = addr then ts else after addr ts

/-- The torrents that are still to come. -/
def remaining (torrents : List Torrent) : Option Nat → List Torrent
  | none => torrents
  | some addr => after addr torrents

/-- `avbox_torrent_next`: `NULL` if the current torrent is not in the list, or is the last one -/
def torrentNext (torrents : List Torrent) (current : Option Nat) : Option Torrent :=
  (remaining torrents current).head?

/-- The entry with a new name. -/
def Download.update (id name : CString) (d : Download) : Download :=
  if d.id = id then { d with name, updated := true } else d

/-- `avbox_listview_setitemtext` on one item -/
def Item.setText (id name : CString) (i : Item) : Item := if i.id = id then { i with name } else i

theorem Download.update_id (id name : CString) (d : Download) : (d.update id name).id = d.id := by
  unfold Download.update
  split <;> rfl

theorem Item.setText_id (id name : CString) (i : Item) : (i.setText id name).id = i.id := by
  unfold Item.setText
  split <;> rfl

/-- The branch of `mbox_downloads_updateentry` for an entry that is found. -/
def Window.updateItem (w : Window) (id name : CString) : Window where
  downloads := w.downloads.map (Download.update id name)
  items := w.items.map (Item.setText id name)
  ids := by
    rw [List.map_map, show Download.id ∘ Download.update id name = Download.id from
      funext (Download.update_id id name)]
    exact w.ids
  shown := by
    rw [List.map_map, List.map_map, show Download.id ∘ Download.update id name = Download.id from
      funext (Download.update_id id name), show Item.id ∘ Item.setText id name = Item.id from
      funext (Item.setText_id id name)]
    exact w.shown

/-- The branch of `mbox_downloads_updateentry` for a new entry. -/
def Window.addItem (w : Window) (id name : CString) (h : id ∉ w.downloads.map Download.id) :
    Window where
  downloads := listAdd w.downloads ⟨id, name, true⟩
  items := w.items ++ [⟨id, name⟩]
  ids := List.nodup_cons.mpr ⟨h, w.ids⟩
  shown := by
    rw [List.map_append]
    exact (List.perm_append_singleton _ _).trans (w.shown.cons _)

/-- `mbox_downloads_updateentry` -/
def Window.updateEntry (w : Window) (id name : CString) : Window :=
  if h : id ∈ w.downloads.map Download.id then w.updateItem id name else w.addItem id name h

/-- The first loop of `mbox_downloads_populatelistasync`. -/
def Window.clearUpdated (w : Window) : Window where
  downloads := w.downloads.map fun d => { d with updated := false }
  items := w.items
  ids := by
    rw [List.map_map]
    exact w.ids
  shown := by
    rw [List.map_map]
    exact w.shown

/-- The ids of the entries that were not updated. -/
def Window.stale (w : Window) : List CString :=
  (w.downloads.filter fun d => !d.updated).map Download.id

theorem Window.notMem_stale (w : Window) {d : Download} (hd : d ∈ w.downloads) :
    d.id ∉ w.stale ↔ d.updated = true := by
  constructor
  · intro hnot
    by_contra hold
    refine hnot (List.mem_map_of_mem (List.mem_filter.mpr ⟨hd, ?_⟩))
    rw [Bool.not_eq_true] at hold
    rw [hold]
    rfl
  · intro hupdated hmem
    obtain ⟨d', hd', heq⟩ := List.mem_map.mp hmem
    obtain ⟨hd', hstale⟩ := List.mem_filter.mp hd'
    rw [List.inj_on_of_nodup_map w.ids hd' hd heq, hupdated] at hstale
    cases hstale

/-- The last loop of `mbox_downloads_populatelistasync`. -/
def Window.removeStale (w : Window) : Window where
  downloads := (w.downloads.filter Download.updated).map fun d => { d with updated := false }
  items := w.items.filter fun i => i.id ∉ w.stale
  ids := by
    rw [List.map_map]
    exact (List.filter_sublist.map Download.id).nodup w.ids
  shown := by
    have hitems : (w.items.filter fun i => i.id ∉ w.stale).map Item.id =
        (w.items.map Item.id).filter (· ∉ w.stale) := by
      rw [List.filter_map]
      rfl
    have hdownloads : (w.downloads.map Download.id).filter (· ∉ w.stale) =
        (w.downloads.filter Download.updated).map Download.id := by
      rw [List.filter_map]
      refine congrArg (List.map Download.id) (List.filter_congr fun d hd => ?_)
      rw [Bool.eq_iff_iff]
      exact decide_eq_true_iff.trans (w.notMem_stale hd)
    rw [hitems, List.map_map]
    exact (w.shown.filter _).trans (List.Perm.of_eq hdownloads)

/-! ## A pass -/

/-- Where `mbox_downloads_populatelistasync` stands. -/
inductive Pass where
  | clear
  /-- before `avbox_torrent_next` -/
  | next (current : Option Nat)
  /-- before `mbox_downloads_updateentry` -/
  | update (t : Torrent)
  /-- after the last torrent -/
  | remove
  | done
deriving DecidableEq, Repr

structure State where
  torrents : List Torrent
  window : Window
  pass : Pass
  always : List Torrent
  ever : List Torrent

def init (torrents : List Torrent) (window : Window) : State :=
  ⟨torrents, window, .clear, torrents, torrents⟩

inductive Event where
  /-- a torrent is opened -/
  | add (t : Torrent)
  /-- a torrent is destroyed -/
  | remove (addr : Nat)
  /-- the pass goes on; `name` is the text for the torrent -/
  | pass (name : CString)
deriving DecidableEq, Repr

/-- `mbox_downloads_populatelistasync`, a step -/
def passStep (s : State) (name : CString) : Option State :=
  match s.pass with
  | .clear => some { s with window := s.window.clearUpdated, pass := .next none }
  | .next current =>
    match torrentNext s.torrents current with
    | some t => some { s with pass := .update t }
    | none => some { s with pass := .remove }
  | .update t =>
    some { s with window := s.window.updateEntry t.id name, pass := .next (some t.addr) }
  | .remove => some { s with window := s.window.removeStale, pass := .done }
  | .done => none

def step (s : State) : Event → Option (State × Unit)
  | .add t =>
    if t.addr ∈ s.torrents.map Torrent.addr then none
    else some ({ s with torrents := listAdd s.torrents t, ever := t :: s.ever }, ())
  | .remove addr =>
    some ({ s with
      torrents := s.torrents.filter fun t => t.addr ≠ addr
      always := s.always.filter fun t => t.addr ≠ addr }, ())
  | .pass name => (passStep s name).map fun t => (t, ())

/-- The entries of the window at the end of a pass. -/
structure Shows (s : State) : Prop where
  each : ∀ t ∈ s.always, (s.window.downloads.map Download.id).count t.id = 1
  only : ∀ d ∈ s.window.downloads, ∃ t ∈ s.ever, t.id = d.id
  items : (s.window.items.map Item.id).Perm (s.window.downloads.map Download.id)

/-- `avbox_torrent_next` starts from a torrent that is still in the list. -/
def StillListed (s : State) : Event → Prop
  | .pass _ => ∀ addr, s.pass = .next (some addr) → addr ∈ s.torrents.map Torrent.addr
  | _ => True

/-! ## The torrents after the current one -/

variable {ts : List Torrent} {t u : Torrent} {addr : Nat} {id name : CString} {w : Window}
  {s s' : State}

theorem mem_of_mem_after (h : t ∈ after addr ts) : t ∈ ts := by
  induction ts with
  | nil => exact h
  | cons x ts ih =>
    unfold after at h
    split at h
    · exact List.mem_cons_of_mem _ h
    · exact List.mem_cons_of_mem _ (ih h)

/-- Other torrents may be removed. -/
theorem mem_after_filter {gone : Nat} (h : t ∈ after addr ts) (hgone : t.addr ≠ gone)
    (haddr : gone ≠ addr) : t ∈ after addr (ts.filter fun t => t.addr ≠ gone) := by
  induction ts with
  | nil => exact h
  | cons x ts ih =>
    unfold after at h
    split at h
    · rename_i hx
      rw [List.filter_cons_of_pos (by simpa [hx] using Ne.symm haddr)]
      unfold after
      rw [if_pos hx]
      exact List.mem_filter.mpr ⟨h, decide_eq_true hgone⟩
    · rename_i hx
      by_cases hxgone : x.addr ≠ gone
      · rw [List.filter_cons_of_pos (by simpa using hxgone)]
        unfold after
        rw [if_neg hx]
        exact ih h
      · rw [List.filter_cons_of_neg (by simpa using hxgone)]
        exact ih h

theorem after_next {rest : List Torrent} (hnodup : (ts.map Torrent.addr).Nodup)
    (h : after addr ts = t :: rest) : after t.addr ts = rest := by
  induction ts with
  | nil => cases h
  | cons x ts ih =>
    obtain ⟨hx, hnodup⟩ := List.nodup_cons.mp hnodup
    have hne : t ∈ ts → x.addr ≠ t.addr := fun ht heq => hx (heq ▸ List.mem_map_of_mem ht)
    unfold after at h ⊢
    split at h
    · subst h
      rw [if_neg (hne List.mem_cons_self)]
      unfold after
      rw [if_pos rfl]
    · have ht : t ∈ ts := mem_of_mem_after (h ▸ List.mem_cons_self)
      rw [if_neg (hne ht)]
      exact ih hnodup h

theorem after_of_remaining {rest : List Torrent} {current : Option Nat}
    (hnodup : (ts.map Torrent.addr).Nodup) (h : remaining ts current = t :: rest) :
    after t.addr ts = rest := by
  cases current with
  | none =>
    have h : ts = t :: rest := h
    rw [h]
    exact if_pos rfl
  | some addr => exact after_next hnodup h

theorem mem_of_mem_remaining {current : Option Nat} (h : t ∈ remaining ts current) : t ∈ ts := by
  cases current with
  | none => exact h
  | some addr => exact mem_of_mem_after h

/-! ## Entries -/

/-- The entry of an id was updated. -/
def Window.Marked (w : Window) (id : CString) : Prop := ∃ d ∈ w.downloads, d.id = id ∧ d.updated = true

theorem Window.marked_updateEntry (w : Window) (id name : CString) :
    (w.updateEntry id name).Marked id := by
  unfold Window.updateEntry
  split
  · rename_i hmem
    obtain ⟨d, hd, rfl⟩ := List.mem_map.mp hmem
    refine ⟨d.update d.id name, List.mem_map_of_mem hd, d.update_id _ name, ?_⟩
    rw [Download.update, if_pos rfl]
  · exact ⟨⟨id, name, true⟩, List.mem_cons_self, rfl, rfl⟩

theorem Window.Marked.updateEntry {id' : CString} (h : w.Marked id) :
    (w.updateEntry id' name).Marked id := by
  obtain ⟨d, hd, hid, hupdated⟩ := h
  unfold Window.updateEntry
  split
  · refine ⟨d.update id' name, List.mem_map_of_mem hd, (d.update_id _ name).trans hid, ?_⟩
    unfold Download.update
    split
    · rfl
    · exact hupdated
  · exact ⟨d, List.mem_cons_of_mem _ hd, hid, hupdated⟩

/-- An entry that is updated was updated before, or now. -/
theorem updated_updateEntry {d : Download} (hd : d ∈ (w.updateEntry id name).downloads)
    (hupdated : d.updated = true) : d.id = id ∨ ∃ d' ∈ w.downloads, d'.id = d.id ∧
      d'.updated = true := by
  unfold Window.updateEntry at hd
  split at hd
  · obtain ⟨d', hd', rfl⟩ := List.mem_map.mp hd
    rw [Download.update_id]
    unfold Download.update at hupdated
    split at hupdated
    · rename_i hid
      exact .inl hid
    · exact .inr ⟨d', hd', rfl, hupdated⟩
  · rcases List.mem_cons.mp hd with rfl | hold
    · exact .inl rfl
    · exact .inr ⟨d, hold, rfl, hupdated⟩

/-! ## The invariant -/

/-- If the current torrent is in the list, those that have been there all the time are done or come
    after it. -/
def Covers (torrents always : List Torrent) (addr : Nat) (P : Torrent → Prop) : Prop :=
  addr ∈ torrents.map Torrent.addr → ∀ t ∈ always, P t ∨ t ∈ after addr torrents

def Progress (s : State) : Pass → Prop
  | .clear | .next none => True
  | .next (some addr) => Covers s.torrents s.always addr fun t => s.window.Marked t.id
  | .update u => u ∈ s.ever ∧
    Covers s.torrents s.always u.addr fun t => t.id = u.id ∨ s.window.Marked t.id
  | .remove => ∀ t ∈ s.always, s.window.Marked t.id
  | .done => ∀ t ∈ s.always, t.id ∈ s.window.downloads.map Download.id

/-- The entries that count belong to torrents that were there. -/
def Seen (s : State) : Pass → Prop
  | .clear => True
  | .done => ∀ d ∈ s.window.downloads, ∃ t ∈ s.ever, t.id = d.id
  | _ => ∀ d ∈ s.window.downloads, d.updated = true → ∃ t ∈ s.ever, t.id = d.id

structure Inv (s : State) : Prop where
  addrs : (s.torrents.map Torrent.addr).Nodup
  always : ∀ t ∈ s.always, t ∈ s.torrents
  ever : ∀ t ∈ s.torrents, t ∈ s.ever
  progress : Progress s s.pass
  seen : Seen s s.pass

theorem init_inv (h : (ts.map Torrent.addr).Nodup) (w : Window) : Inv (init ts w) :=
  ⟨h, fun _ ht => ht, fun _ ht => ht, trivial, trivial⟩

variable {always : List Torrent} {P : Torrent → Prop}

/-- A new torrent comes first; when it has the address of the current one, all others come after
    it. -/
theorem Covers.add (h : Covers ts always addr P) (hsub : ∀ t ∈ always, t ∈ ts) :
    Covers (listAdd ts t) always addr P := by
  intro hmem u hu
  unfold listAdd after
  split
  · exact .inr (hsub u hu)
  · rename_i hne
    refine h ?_ u hu
    rcases List.mem_cons.mp hmem with heq | hold
    · exact absurd heq.symm hne
    · exact hold

theorem Covers.remove (h : Covers ts always addr P) (gone : Nat) :
    Covers (ts.filter fun t => t.addr ≠ gone) (always.filter fun t => t.addr ≠ gone) addr P := by
  intro hmem u hu
  obtain ⟨t, ht, rfl⟩ := List.mem_map.mp hmem
  obtain ⟨ht, hne⟩ := List.mem_filter.mp ht
  obtain ⟨hu, hgone⟩ := List.mem_filter.mp hu
  rcases h (List.mem_map_of_mem ht) u hu with hp | hafter
  · exact .inl hp
  · exact .inr (mem_after_filter hafter (of_decide_eq_true hgone)
      (Ne.symm (of_decide_eq_true hne)))

theorem Covers.next {rest : List Torrent} (hcover : ∀ t ∈ always, P t ∨ t ∈ u :: rest)
    (hafter : after u.addr ts = rest) :
    Covers ts always u.addr fun t => t.id = u.id ∨ P t := by
  intro _ t ht
  rcases hcover t ht with hp | hmem
  · exact .inl (.inr hp)
  · rcases List.mem_cons.mp hmem with rfl | hlater
    · exact .inl (.inl rfl)
    · exact .inr (hafter ▸ hlater)

theorem Inv.add (h : Inv s) (hnew : t.addr ∉ s.torrents.map Torrent.addr) :
    Inv { s with torrents := listAdd s.torrents t, ever := t :: s.ever } := by
  have hever : ∀ {u}, u ∈ s.ever → u ∈ t :: s.ever := fun hu => List.mem_cons_of_mem _ hu
  have hprogress := h.progress
  have hseen := h.seen
  refine ⟨List.nodup_cons.mpr ⟨hnew, h.addrs⟩, fun u hu => List.mem_cons_of_mem _ (h.always u hu),
    ?_, ?_, ?_⟩
  · exact List.forall_mem_cons.mpr ⟨List.mem_cons_self, fun u hu => hever (h.ever u hu)⟩
  · cases hpass : s.pass with
    | clear => trivial
    | next current =>
      rw [hpass] at hprogress
      cases current with
      | none => trivial
      | some addr => exact Covers.add hprogress h.always
    | update u =>
      rw [hpass] at hprogress
      exact ⟨hever hprogress.1, hprogress.2.add h.always⟩
    | remove | done =>
      rw [hpass] at hprogress
      exact hprogress
  · have hmono : ∀ {d : Download}, (∃ u ∈ s.ever, u.id = d.id) → ∃ u ∈ t :: s.ever, u.id = d.id :=
      fun ⟨u, hu, hid⟩ => ⟨u, hever hu, hid⟩
    cases hpass : s.pass with
    | clear => trivial
    | next _ | update _ | remove =>
      rw [hpass] at hseen
      exact fun d hd hupdated => hmono (hseen d hd hupdated)
    | done =>
      rw [hpass] at hseen
      exact fun d hd => hmono (hseen d hd)

theorem Inv.remove (h : Inv s) (gone : Nat) :
    Inv { s with
      torrents := s.torrents.filter fun t => t.addr ≠ gone
      always := s.always.filter fun t => t.addr ≠ gone } := by
  have hprogress := h.progress
  have hseen := h.seen
  refine ⟨(List.filter_sublist.map _).nodup h.addrs, fun u hu => ?_, fun u hu => ?_, ?_, ?_⟩
  · obtain ⟨hu, hne⟩ := List.mem_filter.mp hu
    exact List.mem_filter.mpr ⟨h.always u hu, hne⟩
  · exact h.ever u (List.mem_filter.mp hu).1
  · cases hpass : s.pass with
    | clear => trivial
    | next current =>
      rw [hpass] at hprogress
      cases current with
      | none => trivial
      | some addr => exact Covers.remove hprogress gone
    | update u =>
      rw [hpass] at hprogress
      exact ⟨hprogress.1, hprogress.2.remove gone⟩
    | remove | done =>
      rw [hpass] at hprogress
      exact fun u hu => hprogress u (List.mem_filter.mp hu).1
  · cases hpass : s.pass with
    | clear => trivial
    | next _ | update _ | remove | done =>
      rw [hpass] at hseen
      exact hseen

theorem Inv.pass (h : Inv s) (hstep : passStep s name = some s')
    (hlisted : ∀ addr, s.pass = .next (some addr) → addr ∈ s.torrents.map Torrent.addr) :
    Inv s' := by
  have hprogress := h.progress
  have hseen := h.seen
  unfold passStep at hstep
  cases hpass : s.pass with
  | clear =>
    rw [hpass] at hstep
    cases hstep
    refine ⟨h.addrs, h.always, h.ever, trivial, fun d hd hupdated => ?_⟩
    obtain ⟨d', -, rfl⟩ := List.mem_map.mp hd
    cases hupdated
  | next current =>
    rw [hpass] at hstep hprogress hseen
    have hcover : ∀ t ∈ s.always, s.window.Marked t.id ∨ t ∈ remaining s.torrents current := by
      cases current with
      | none => exact fun t ht => .inr (h.always t ht)
      | some addr => exact hprogress (hlisted addr hpass)
    dsimp only at hstep
    split at hstep
    · rename_i t hnext
      cases hstep
      obtain ⟨rest, hrest⟩ := List.head?_eq_some_iff.mp hnext
      have ht : t ∈ s.torrents := mem_of_mem_remaining (hrest ▸ List.mem_cons_self)
      rw [hrest] at hcover
      exact ⟨h.addrs, h.always, h.ever,
        ⟨h.ever t ht, Covers.next hcover (after_of_remaining h.addrs hrest)⟩, hseen⟩
    · rename_i hnext
      cases hstep
      rw [List.head?_eq_none_iff.mp hnext] at hcover
      refine ⟨h.addrs, h.always, h.ever, fun t ht => ?_, hseen⟩
      exact (hcover t ht).resolve_right List.not_mem_nil
  | update u =>
    rw [hpass] at hstep hprogress hseen
    cases hstep
    refine ⟨h.addrs, h.always, h.ever, fun hmem t ht => ?_, fun d hd hupdated => ?_⟩
    · rcases hprogress.2 hmem t ht with (hid | hmarked) | hafter
      · exact .inl (hid ▸ s.window.marked_updateEntry u.id name)
      · exact .inl hmarked.updateEntry
      · exact .inr hafter
    · rcases updated_updateEntry hd hupdated with hid | ⟨d', hd', hid, hupdated'⟩
      · exact ⟨u, hprogress.1, hid.symm⟩
      · exact hid ▸ hseen d' hd' hupdated'
  | remove =>
    rw [hpass] at hstep hprogress hseen
    cases hstep
    refine ⟨h.addrs, h.always, h.ever, fun t ht => ?_, fun d hd => ?_⟩
    · obtain ⟨d, hd, hid, hupdated⟩ := hprogress t ht
      refine List.mem_map.mpr ⟨{ d with updated := false }, ?_, hid⟩
      exact List.mem_map.mpr ⟨d, List.mem_filter.mpr ⟨hd, hupdated⟩, rfl⟩
    · obtain ⟨d', hd', rfl⟩ := List.mem_map.mp hd
      obtain ⟨hd', hupdated⟩ := List.mem_filter.mp hd'
      exact hseen d' hd' hupdated
  | done =>
    rw [hpass] at hstep
    cases hstep

theorem step_inv {e : Event} (h : Inv s) (hlisted : StillListed s e)
    (hstep : step s e = some (s', ())) : Inv s' := by
  cases e with
  | add t =>
    simp only [step] at hstep
    split at hstep
    · cases hstep
    · rename_i hnew
      cases hstep
      exact h.add hnew
  | remove gone =>
    cases hstep
    exact h.remove gone
  | pass name =>
    obtain ⟨t, ht, heq⟩ := Option.map_eq_some_iff.mp hstep
    cases heq
    exact h.pass ht hlisted

/-- **The downloads window shows every download**: whatever torrents are opened and destroyed
    between the steps of a pass, at its end there is one entry for each torrent that was there all
    the time, none for a torrent that was never there, and the items are the ids of the entries, if
    `avbox_torrent_next` always starts from a torrent that is still in the list. -/
theorem window_shows {torrents : List Torrent} {window : Window}
    (haddrs : (torrents.map Torrent.addr).Nodup) {tr : List (Event × Unit)} {s : State}
    (hrun : Run (Guarded step StillListed) (init torrents window) tr s) (hdone : s.pass = .done) :
    Shows s := by
  have hinv : Inv s := Run.invariant (init_inv haddrs window)
    (fun _ _ _ h hstep => step_inv h hstep.1 hstep.2) hrun
  have hprogress := hinv.progress
  have hseen := hinv.seen
  rw [hdone] at hprogress hseen
  exact ⟨fun t ht => List.count_eq_one_of_mem s.window.ids (hprogress t ht), hseen, s.window.shown⟩

instance (s : State) : (e : Event) → Decidable (StillListed s e)
  | .add _ | .remove _ => inferInstanceAs (Decidable True)
  | .pass _ =>
    match h : s.pass with
    | .next (some addr) => decidable_of_iff (addr ∈ s.torrents.map Torrent.addr)
        ⟨fun hmem a ha => by cases h.symm.trans ha; exact hmem, fun hall => hall addr h⟩
    | .next none | .clear | .update _ | .remove | .done =>
      isTrue fun a ha => by cases h.symm.trans ha

def noEntries : Window := ⟨[], [], List.nodup_nil, List.Perm.nil⟩

/-- A torrent is destroyed while another one is the current one. -/
theorem window_shows_two : ∃ tr s, Run (Guarded step StillListed)
      (init [⟨1, "a".toList⟩, ⟨2, "b".toList⟩, ⟨3, "c".toList⟩] noEntries) tr s ∧
    s.pass = .done ∧ s.always = [⟨1, "a".toList⟩, ⟨3, "c".toList⟩] ∧ Shows s := by
  have hexec : (exec (fun s e => if StillListed s e then step s e else none)
      (init [⟨1, "a".toList⟩, ⟨2, "b".toList⟩, ⟨3, "c".toList⟩] noEntries)
      [.pass [], .pass [], .pass "a (0%)".toList, .remove 2, .pass [], .pass "c (0%)".toList, .pass [],
        .pass []]).map (fun r => decide (r.1.pass = .done ∧
        r.1.always = [⟨1, "a".toList⟩, ⟨3, "c".toList⟩])) = some true := by
    decide +kernel
  obtain ⟨r, hr, hfacts⟩ := Option.map_eq_some_iff.mp hexec
  obtain ⟨hdone, halways⟩ := of_decide_eq_true hfacts
  have hrun := run_of_guarded_exec _ hr
  exact ⟨r.2, r.1, hrun, hdone, halways, window_shows (by decide) hrun hdone⟩

/-- The current torrent is destroyed: the one after it gets no entry. -/
theorem download_missing :
    ¬ ∀ (torrents : List Torrent) (window : Window) (tr : List (Event × Unit)) (s : State),
      (torrents.map Torrent.addr).Nodup → Run (Step step) (init torrents window) tr s →
      s.pass = .done → Shows s := by
  have hexec : (exec step (init [⟨1, "a".toList⟩, ⟨2, "b".toList⟩] noEntries)
      [.pass [], .pass [], .pass "a (0%)".toList, .remove 1, .pass [], .pass []]).map
      (fun r => decide (r.1.pass = .done ∧ ⟨2, "b".toList⟩ ∈ r.1.always ∧
        (r.1.window.downloads.map Download.id).count "b".toList = 0)) = some true := by
    decide +kernel
  obtain ⟨r, hr, hfacts⟩ := Option.map_eq_some_iff.mp hexec
  obtain ⟨hdone, halways, hcount⟩ := of_decide_eq_true hfacts
  intro hall
  have hone := (hall _ _ _ _ (by decide) (run_of_exec _ hr) hdone).each _ halways
  exact absurd (hcount.symm.trans hone) (by decide)

end Mediabox.Downloads
