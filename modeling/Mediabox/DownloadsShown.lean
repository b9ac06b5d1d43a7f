import Mediabox.DownloadsLife

/-!
# What the downloads window shows (`src/downloads.c`)

The window with its memory, its threads and its timer refines the one of `Downloads`, which goes
through the torrents in one pass and has the entries as a list: each step of the worker is a step of
that pass or none, also when the thread of the window has yet to run a delegate.

* `view` — an entry with the string of its id.
* `Swept` — the last loop of the worker, which is one step of the pass.
* `Rel` — what the pass is, where the worker is.
* `note` — the torrents that were there all the time since the last pass began, and those that were
  there at some time; they are not in the source.

Main result: `downloads_shown`.
-/

set_option autoImplicit false

namespace Mediabox.DownloadsLife

open Transition Outcome Library
open Downloads (Torrent torrentNext Window)

/-! ## The entries as a list -/

def view (ids : Addr → Option CString) (d : Download) : Downloads.Download :=
  ⟨(ids d.id).getD [], d.name.getD [], d.updated⟩

def viewItem (ids : Addr → Option CString) (i : Item) : Downloads.Item :=
  ⟨(ids i.data).getD [], i.name.getD []⟩

/-- `avbox_listview_setitemtext` on one item -/
def Item.retitle (id : Addr) (name : CString) (i : Item) : Item :=
  if i.data = id then { i with name := some name } else i

/-- The window shows these entries. -/
structure Same (s : State) (w : Window) : Prop where
  downloads : w.downloads = s.downloads.map (view s.ids)
  items : w.items = s.items.map (viewItem s.ids)

/-- The window without the entries that are going to be removed. -/
structure Swept (s : State) (w : Window) (todo gone : List Addr) : Prop where
  swept : ∀ d ∈ s.downloads, d.id ∈ gone ↔ d.id ∈ todo ∧ d.updated = false
  reset : ∀ d ∈ s.downloads, d.id ∉ todo → d.updated = false
  downloads : w.downloads = (s.downloads.filter fun d => d.id ∉ gone).map (fun d =>
    Downloads.Download.mk ((s.ids d.id).getD []) (d.name.getD []) false)
  items : w.items = (s.items.filter fun i => i.data ∉ gone).map (viewItem s.ids)

/-- What the pass is, where the worker is. -/
def Rel (s : State) (p : Downloads.State) : Option Worker → Prop
  | none | some .clear | some .refreshing | some .finished => p.pass = .done ∧ Same s p.window
  | some (.next current) => p.pass = .next current ∧ Same s p.window
  | some (.update t) => p.pass = .update t ∧ Same s p.window
  | some (.updating t id name) => p.pass = .next (some t.addr) ∧
    Same { s with items := s.items.map (Item.retitle id name) } p.window
  | some (.adding t id name) => p.pass = .next (some t.addr) ∧
    Same { s with items := s.items ++ [⟨id, some name⟩] } p.window
  | some (.sweep todo) => p.pass = .done ∧ ∃ gone, Swept s p.window todo gone
  | some (.removing id todo) | some (.removed id todo) =>
    p.pass = .done ∧ ∃ gone, id ∈ gone ∧ Swept s p.window (id :: todo) gone

/-- The torrent that the worker is at is still there. -/
def listed (s : State) : Bool :=
  match s.worker with
  | some (.next (some addr)) => s.torrents.any fun t => t.addr = addr
  | _ => true

/-- The worker asks for the torrent after one that is still there. -/
def StillListed (s : State) : Event → Prop
  | .worker _ => listed s = true
  | _ => True

/-- Nothing fails for the worker, and it asks for the torrent after one that is still there. -/
def Undisturbed (s : State) (e : Event) : Prop := Calm s e ∧ StillListed s e

/-- The torrents that were there all the time since a pass began, and those that were there at some
    time. -/
def note (m : List Torrent × List Torrent) (s : State) (e : Event) (_ : Result) (_ : State) :
    List Torrent × List Torrent :=
  match e with
  | .add t => (m.1, t :: m.2)
  | .remove addr => (m.1.filter fun t => t.addr ≠ addr, m.2)
  | .worker _ => if s.worker = some .clear then (s.torrents, s.torrents) else m
  | _ => m

/-- The ids that the rows stand for. -/
def titles (s : State) : List CString := s.items.map fun i => (s.ids i.data).getD []

/-! ## Addresses and strings -/

variable {s t u : State} {w : Window} {p : Downloads.State} {a : Addr} {id name : CString}
  {d : Download} {i : Item} {env : WorkerEnv}

theorem view_id {ids : Addr → Option CString} (h : ids d.id = some id) : (view ids d).id = id := by
  simp [view, h]

/-- An entry has the string of another one only if it has its address. -/
theorem view_inj (hw : w.downloads = s.downloads.map (view s.ids)) {d' : Download}
    (hd : d ∈ s.downloads) (hd' : d' ∈ s.downloads) :
    (view s.ids d').id = (view s.ids d).id ↔ d'.id = d.id := by
  constructor
  · intro heq
    have hnodup : (s.downloads.map fun d => (view s.ids d).id).Nodup := by
      have hids := w.ids
      rw [hw, List.map_map] at hids
      exact hids
    rw [List.inj_on_of_nodup_map hnodup hd' hd heq]
  · intro heq
    simp [view, heq]

theorem exists_entry (hk : Kept s) (hi : i ∈ s.items) : ∃ d ∈ s.downloads, d.id = i.data :=
  List.mem_map.mp (hk.listed i.data (List.mem_map_of_mem hi))

theorem viewItem_inj (hk : Kept s) (hw : w.downloads = s.downloads.map (view s.ids))
    (hd : d ∈ s.downloads) (hi : i ∈ s.items) :
    (viewItem s.ids i).id = (view s.ids d).id ↔ i.data = d.id := by
  obtain ⟨d', hd', hid⟩ := exists_entry hk hi
  rw [← hid, ← view_inj hw hd hd']
  simp [view, viewItem, hid]

/-! ## The steps of the worker -/

/-- **An entry that is found.** -/
theorem same_updateItem (hk : Kept s) (h : Same s w) (hd : d ∈ s.downloads)
    (hid : s.ids d.id = some id) (name : CString) {worker : Option Worker} :
    Same { s with
      downloads := s.downloads.map (Download.update d.id (some name))
      items := s.items.map (Item.retitle d.id name)
      worker := worker } (w.updateEntry id name) := by
  have hview : (view s.ids d).id = id := view_id hid
  have hmem : id ∈ w.downloads.map Downloads.Download.id := by
    rw [h.downloads, List.map_map]
    exact List.mem_map.mpr ⟨d, hd, hview⟩
  rw [Window.updateEntry, dif_pos hmem]
  constructor
  · show w.downloads.map _ = _
    rw [h.downloads, List.map_map, List.map_map]
    refine List.map_congr_left fun d' hd' => ?_
    have hinj := view_inj h.downloads hd hd'
    rw [hview] at hinj
    simp only [Function.comp, Downloads.Download.update, Download.update, hinj]
    split <;> simp [view]
  · show w.items.map _ = _
    rw [h.items, List.map_map, List.map_map]
    refine List.map_congr_left fun i hi => ?_
    have hinj := viewItem_inj hk h.downloads hd hi
    rw [hview] at hinj
    simp only [Function.comp, Downloads.Item.setText, Item.retitle, hinj]
    split <;> simp [viewItem]

/-- **A new entry.** -/
theorem same_addItem (hk : Kept s) (h : Same s w) (hnew : s.ids a = none)
    (hnot : ∀ d ∈ s.downloads, s.ids d.id ≠ some id) (name : CString) {worker : Option Worker} :
    Same { s with
      ids := Function.update s.ids a (some id)
      downloads := listAdd s.downloads ⟨a, some name, true⟩
      items := s.items ++ [⟨a, some name⟩]
      worker := worker } (w.updateEntry id name) := by
  have hfree : a ∉ entries s := fun hmem => (hk.live a).mpr hmem hnew
  have hmem : id ∉ w.downloads.map Downloads.Download.id := by
    rw [h.downloads, List.map_map]
    intro hmem
    obtain ⟨d, hd, heq⟩ := List.mem_map.mp hmem
    cases hstr : s.ids d.id with
    | none => exact (hk.live d.id).mpr (List.mem_map_of_mem hd) hstr
    | some str =>
      refine hnot d hd (hstr.trans (congrArg some ?_))
      rw [← heq]
      exact (view_id hstr).symm
  rw [Window.updateEntry, dif_neg hmem]
  constructor
  · show listAdd w.downloads _ = _
    simp only [listAdd, List.map_cons]
    refine congrArg₂ List.cons (by simp [view]) ?_
    rw [h.downloads]
    refine List.map_congr_left fun d hd => ?_
    have hne : d.id ≠ a := fun heq => hfree (heq ▸ List.mem_map_of_mem hd)
    simp [view, Function.update_of_ne hne]
  · show w.items ++ _ = _
    rw [h.items, List.map_append]
    refine congrArg₂ (· ++ ·) (List.map_congr_left fun i hi => ?_) (by simp [viewItem])
    have hne : i.data ≠ a := fun heq => hfree (heq ▸ hk.listed _ (List.mem_map_of_mem hi))
    simp [viewItem, Function.update_of_ne hne]

/-- **The first loop.** -/
theorem same_clear (h : Same s w) {worker : Option Worker} :
    Same { s with
      downloads := s.downloads.map fun d => { d with updated := false }
      worker := worker } w.clearUpdated := by
  constructor
  · show w.downloads.map _ = _
    rw [h.downloads, List.map_map, List.map_map]
    rfl
  · exact h.items

/-- **After the last torrent**, the entries that were not updated are going to be removed. -/
theorem swept_start (hk : Kept s) (h : Same s w) {worker : Option Worker} :
    Swept { s with worker := worker } w.removeStale (entries s)
      ((s.downloads.filter fun d => !d.updated).map Download.id) := by
  have hgone : ∀ d ∈ s.downloads,
      (d.id ∉ (s.downloads.filter fun d => !d.updated).map Download.id ↔ d.updated = true) := by
    intro d hd
    constructor
    · intro hnot
      by_contra hold
      exact hnot (List.mem_map_of_mem (List.mem_filter.mpr ⟨hd, by simpa using hold⟩))
    · intro hupdated hmem
      obtain ⟨d', hd', heq⟩ := List.mem_map.mp hmem
      obtain ⟨hd', hstale⟩ := List.mem_filter.mp hd'
      rw [List.inj_on_of_nodup_map hk.nodup hd' hd heq, hupdated] at hstale
      cases hstale
  refine ⟨fun d hd => ?_, fun d hd hnot => ?_, ?_, ?_⟩
  · have hmem : d.id ∈ entries s := List.mem_map_of_mem hd
    rw [← not_iff_not, hgone d hd]
    simp [hmem]
  · exact absurd (List.mem_map_of_mem hd) hnot
  · show (w.downloads.filter Downloads.Download.updated).map _ = _
    rw [h.downloads, List.filter_map, List.map_map]
    refine congrArg (List.map _) (List.filter_congr fun d hd => ?_)
    rw [Bool.eq_iff_iff]
    exact ((decide_eq_true_iff.trans (hgone d hd))).symm
  · show w.items.filter _ = _
    have hstale : ∀ i ∈ s.items, ((viewItem s.ids i).id ∉ w.stale ↔
        i.data ∉ (s.downloads.filter fun d => !d.updated).map Download.id) := by
      intro i hi
      obtain ⟨d, hd, hid⟩ := exists_entry hk hi
      have hview : (view s.ids d).id = (viewItem s.ids i).id := by
        simp [view, viewItem, hid]
      have hmem : view s.ids d ∈ w.downloads := h.downloads ▸ List.mem_map_of_mem hd
      rw [← hview, ← hid, w.notMem_stale hmem, hgone d hd]
      rfl
    rw [h.items, List.filter_map]
    refine congrArg (List.map _) (List.filter_congr fun i hi => ?_)
    rw [Bool.eq_iff_iff]
    exact decide_eq_true_iff.trans ((hstale i hi).trans decide_eq_true_iff.symm)

variable {todo gone : List Addr}

/-- **An entry that stays.** -/
theorem Swept.keep (h : Swept s w (a :: todo) gone) (hnot : a ∉ todo) (hfresh : stale s a = false)
    {worker : Option Worker} :
    Swept { s with downloads := s.downloads.map (Download.reset a), worker := worker } w todo
      gone := by
  have hupdated : ∀ d ∈ s.downloads, d.id = a → d.updated = true := by
    intro d hd hid
    have hany := List.any_eq_false.mp hfresh d hd
    simpa [hid] using hany
  refine ⟨fun d' hd' => ?_, fun d' hd' hdone => ?_, ?_, h.items⟩
  · obtain ⟨d, hd, rfl⟩ := List.mem_map.mp hd'
    rw [Download.reset_id, h.swept d hd, Download.reset]
    by_cases hid : d.id = a
    · simp [hid, hnot, hupdated d hd hid]
    · simp [hid]
  · obtain ⟨d, hd, rfl⟩ := List.mem_map.mp hd'
    rw [Download.reset_id] at hdone
    rw [Download.reset]
    split
    · rfl
    · rename_i hid
      exact h.reset d hd (by simpa [hid] using hdone)
  · show w.downloads = ((s.downloads.map (Download.reset a)).filter fun d => d.id ∉ gone).map _
    rw [h.downloads, List.filter_map, List.map_map]
    have hkeep : (fun d : Download => decide (d.id ∉ gone)) ∘ Download.reset a =
        fun d => decide (d.id ∉ gone) := by
      funext d
      simp only [Function.comp, Download.reset_id]
    rw [hkeep]
    refine List.map_congr_left fun d _ => ?_
    simp only [Function.comp, Download.reset_id]
    unfold Download.reset
    split <;> rfl

/-- **The row of an entry is removed.** -/
theorem Swept.removeRow (h : Swept s w (a :: todo) gone) (hgone : a ∈ gone)
    {worker : Option Worker} :
    Swept { s with items := s.items.filter (·.data ≠ a), worker := worker } w (a :: todo) gone := by
  refine ⟨h.swept, h.reset, h.downloads, ?_⟩
  show w.items = ((s.items.filter (·.data ≠ a)).filter fun i => i.data ∉ gone).map _
  rw [h.items, List.filter_filter]
  refine congrArg (List.map _) (List.filter_congr fun i _ => ?_)
  by_cases hid : i.data = a
  · simp [hid, hgone]
  · simp [hid]

/-- **An entry is freed.** -/
theorem Swept.free (h : Swept s w (a :: todo) gone) (hgone : a ∈ gone) {worker : Option Worker} :
    Swept { s with
      ids := Function.update s.ids a none
      downloads := s.downloads.filter (·.id ≠ a)
      worker := worker } w todo gone := by
  have hother : ∀ b, b ∉ gone → Function.update s.ids a none b = s.ids b :=
    fun b hb => Function.update_of_ne (fun heq : b = a => hb (heq ▸ hgone)) _ _
  refine ⟨fun d hd => ?_, fun d hd hdone => ?_, ?_, ?_⟩
  · obtain ⟨hd, hne⟩ := List.mem_filter.mp hd
    have hne : d.id ≠ a := by simpa using hne
    rw [h.swept d hd, List.mem_cons, or_iff_right hne]
  · obtain ⟨hd, hne⟩ := List.mem_filter.mp hd
    have hne : d.id ≠ a := by simpa using hne
    exact h.reset d hd (by simpa [hne] using hdone)
  · show w.downloads = ((s.downloads.filter (·.id ≠ a)).filter fun d => d.id ∉ gone).map _
    have hfilter : (s.downloads.filter (·.id ≠ a)).filter (fun d => d.id ∉ gone) =
        s.downloads.filter fun d => d.id ∉ gone := by
      rw [List.filter_filter]
      refine List.filter_congr fun d _ => ?_
      by_cases hid : d.id = a
      · simp [hid, hgone]
      · simp [hid]
    rw [h.downloads, hfilter]
    refine List.map_congr_left fun d hd => ?_
    have hd : d.id ∉ gone := of_decide_eq_true (List.mem_filter.mp hd).2
    show _ = Downloads.Download.mk ((Function.update s.ids a none d.id).getD []) _ _
    rw [hother d.id hd]
  · rw [h.items]
    refine List.map_congr_left fun i hi => ?_
    have hi : i.data ∉ gone := of_decide_eq_true (List.mem_filter.mp hi).2
    show _ = Downloads.Item.mk ((Function.update s.ids a none i.data).getD []) _
    rw [hother i.data hi]
    rfl

/-- **After the last entry.** -/
theorem Swept.same (hk : Kept s) (h : Swept s w [] gone) {worker : Option Worker} :
    Same { s with worker := worker } w := by
  have hgone : ∀ d ∈ s.downloads, d.id ∉ gone := by
    intro d hd hmem
    exact List.not_mem_nil ((h.swept d hd).mp hmem).1
  constructor
  · rw [h.downloads, List.filter_eq_self.mpr fun d hd => decide_eq_true (hgone d hd)]
    refine List.map_congr_left fun d hd => ?_
    rw [view, h.reset d hd List.not_mem_nil]
  · rw [h.items, List.filter_eq_self.mpr fun i hi => ?_]
    obtain ⟨d, hd, hid⟩ := exists_entry hk hi
    exact decide_eq_true (hid ▸ hgone d hd)

theorem setitemtext_eq (a : Addr) (name : CString) : ∀ {l : List Item}, (l.map Item.data).Nodup →
    Ensures (setitemtext a (some name) l) (· = l.map (Item.retitle a name)) fun _ => True
  | [], _ => rfl
  | i :: l, hnodup => by
    obtain ⟨hnot, hnodup⟩ := List.nodup_cons.mp hnodup
    unfold setitemtext
    rw [ensures_ite, List.map_cons]
    constructor
    · intro hid
      have hrest : l.map (Item.retitle a name) = l := by
        conv_rhs => rw [← List.map_id l]
        refine List.map_congr_left fun j hj => ?_
        have hne : j.data ≠ a := fun heq => hnot (by rw [hid, ← heq]; exact List.mem_map_of_mem hj)
        rw [Item.retitle, if_neg hne, id]
      rw [ensures_ite]
      refine ⟨fun _ => trivial, fun _ => ?_⟩
      rw [ensures_ok, hrest, Item.retitle, if_pos hid]
    · intro hid
      rw [ensures_map]
      refine (setitemtext_eq a name hnodup).imp fun l' hl' => ?_
      rw [hl', Item.retitle, if_neg hid]

/-! ## The pass -/

variable {m : List Torrent × List Torrent} {e : Event} {r : Result}

/-- The pass that the window is in. -/
structure Refines (s : State) (m : List Torrent × List Torrent) (p : Downloads.State) : Prop where
  inv : Downloads.Inv p
  torrents : p.torrents = s.torrents
  noted : (p.always, p.ever) = m
  rel : Rel s p s.worker

/-- A step of the pass only changes the window, and where it is. -/
theorem passStep_frame {p' : Downloads.State} (h : Downloads.passStep p name = some p') :
    p'.torrents = p.torrents ∧ (p'.always, p'.ever) = (p.always, p.ever) := by
  unfold Downloads.passStep at h
  split at h
  · cases h
    exact ⟨rfl, rfl⟩
  · split at h
    · cases h
      exact ⟨rfl, rfl⟩
    · cases h
      exact ⟨rfl, rfl⟩
  · cases h
    exact ⟨rfl, rfl⟩
  · cases h
    exact ⟨rfl, rfl⟩
  · cases h

/-- **A step of the worker that is one of the pass.** -/
theorem Refines.pass (h : Refines s m p) {p' : Downloads.State}
    (hstep : Downloads.passStep p name = some p')
    (hlisted : ∀ addr, p.pass = .next (some addr) → addr ∈ s.torrents.map Torrent.addr)
    (htorrents : u.torrents = s.torrents) (hrel : Rel u p' u.worker) : Refines u m p' := by
  obtain ⟨hsame, hnoted⟩ := passStep_frame hstep
  refine ⟨h.inv.pass hstep ?_, ?_, hnoted.trans h.noted, hrel⟩
  · rw [h.torrents]
    exact hlisted
  · rw [hsame, htorrents, h.torrents]

/-- **A step of the worker that is none of the pass.** -/
theorem Refines.stay (h : Refines s m p) (htorrents : u.torrents = s.torrents)
    (hrel : Rel u p u.worker) : Refines u m p :=
  ⟨h.inv, h.torrents.trans htorrents.symm, h.noted, hrel⟩

/-- **The pass begins.** -/
theorem Refines.clear (h : Refines s m p) (hw : s.worker = some .clear) :
    ∃ p', Refines { s with
      downloads := s.downloads.map fun d => { d with updated := false }
      worker := some (.next none) } (s.torrents, s.torrents) p' := by
  have hrel := h.rel
  rw [hw] at hrel
  have haddrs := h.inv.addrs
  rw [h.torrents] at haddrs
  refine ⟨{ Downloads.init s.torrents p.window with
    window := p.window.clearUpdated, pass := .next none }, ?_, rfl, rfl, rfl, same_clear hrel.2⟩
  refine (Downloads.init_inv haddrs p.window).pass (rfl : Downloads.passStep _ [] = _) fun addr hpass => ?_
  cases hpass

variable {k : Worker}

/-- What the worker does not change, and the other fields of the pass, do not matter. -/
theorem Rel.rest {o : Option Worker} (h : Rel s p o) {torrents torrents' always ever : List Torrent}
    {worker : Option Worker} {timerId : Option Nat} {destroying : Bool} :
    Rel { s with
      torrents := torrents, worker := worker, updateTimerId := timerId, destroying := destroying }
      { p with torrents := torrents', always := always, ever := ever } o := by
  cases o with
  | none => exact ⟨h.1, h.2.downloads, h.2.items⟩
  | some k =>
    cases k with
    | clear | next _ | update _ | refreshing | finished => exact ⟨h.1, h.2.downloads, h.2.items⟩
    | updating _ _ _ | adding _ _ _ => exact ⟨h.1, h.2.downloads, h.2.items⟩
    | sweep _ =>
      obtain ⟨hpass, gone, hswept⟩ := h
      exact ⟨hpass, gone, hswept.swept, hswept.reset, hswept.downloads, hswept.items⟩
    | removing _ _ | removed _ _ =>
      obtain ⟨hpass, gone, hgone, hswept⟩ := h
      exact ⟨hpass, gone, hgone, hswept.swept, hswept.reset, hswept.downloads, hswept.items⟩

/-- **A torrent is added or updated**, up to the wait for the delegate. -/
theorem Refines.updateentry (h : Refines s m p) (hk : Kept s) {t : Torrent}
    (hw : s.worker = some (.update t)) (hnew : s.ids env.id = none)
    (hcalm : Calm s (.worker env)) :
    Ensures (updateentry s t env) (fun u => ∃ p', Refines u m p') fun _ => True := by
  have hrel := h.rel
  rw [hw] at hrel
  obtain ⟨hpass, hsame⟩ := hrel
  obtain ⟨hmalloc, hid, hstrdup, hdelegate⟩ := hcalm
  have hstep : Downloads.passStep p env.name = some { p with
      window := p.window.updateEntry t.id env.name, pass := .next (some t.addr) } := by
    simp only [Downloads.passStep, hpass]
  have hlisted : ∀ addr, p.pass = .next (some addr) → addr ∈ s.torrents.map Torrent.addr := by
    intro addr haddr
    cases hpass.symm.trans haddr
  have hlive : ∀ d ∈ s.downloads, s.ids d.id ≠ none :=
    fun d hd => (hk.live d.id).mpr (List.mem_map_of_mem hd)
  have hfind := find_spec t.id hlive
  unfold DownloadsLife.updateentry
  cases hf : find s.ids t.id s.downloads with
  | error f => exact trivial
  | ok o =>
    rw [hf] at hfind
    cases o with
    | some d =>
      dsimp only
      rw [ensures_ite]
      refine ⟨fun _ => trivial, fun _ => ?_⟩
      rw [hstrdup, hdelegate]
      exact ⟨_, h.pass hstep hlisted rfl ⟨rfl, same_updateItem hk hsame hfind.1 hfind.2 env.name⟩⟩
    | none =>
      dsimp only
      rw [ensures_ite]
      refine ⟨fun hfail => ?_, fun _ => ?_⟩
      · simp [hmalloc, hid, hstrdup] at hfail
      · rw [hdelegate]
        exact ⟨_, h.pass hstep hlisted rfl ⟨rfl, same_addItem hk hsame hnew hfind env.name⟩⟩

/-- **The next torrent**, or none. -/
theorem Refines.next (h : Refines s m p) (hk : Kept s) {current : Option Nat}
    (hw : s.worker = some (.next current)) (hlisted : listed s = true) :
    Ensures (populatelistasync s env (.next current)) (fun u => ∃ p', Refines u m p')
      fun _ => True := by
  have hrel := h.rel
  rw [hw] at hrel
  obtain ⟨hpass, hsame⟩ := hrel
  have hlisted : ∀ addr, p.pass = .next (some addr) → addr ∈ s.torrents.map Torrent.addr := by
    intro addr haddr
    cases hpass.symm.trans haddr
    simp only [listed, hw, List.any_eq_true, decide_eq_true_eq] at hlisted
    exact List.mem_map.mpr hlisted
  simp only [populatelistasync]
  cases hnext : torrentNext s.torrents current with
  | some t =>
    have hstep : Downloads.passStep p [] = some { p with pass := .update t } := by
      simp only [Downloads.passStep, hpass, h.torrents, hnext]
    exact ⟨_, h.pass hstep hlisted rfl ⟨rfl, hsame.downloads, hsame.items⟩⟩
  | none =>
    have hstep : Downloads.passStep p [] = some { p with pass := .remove } := by
      simp only [Downloads.passStep, hpass, h.torrents, hnext]
    have hinv := h.inv.pass hstep (by rw [h.torrents]; exact hlisted)
    have hdone : Downloads.Inv { p with window := p.window.removeStale, pass := .done } :=
      hinv.pass (rfl : Downloads.passStep _ [] = _) fun addr haddr => by cases haddr
    exact ⟨_, hdone, h.torrents, h.noted, rfl, _, swept_start hk hsame⟩

/-- **A step of the worker** is a step of the pass, two steps, or none. -/
theorem Refines.worker (h : Refines s m p) (hk : Kept s) (hw : s.worker = some k)
    (hclear : k ≠ .clear) (hwaits : Waits s k) (hnew : s.ids env.id = none)
    (hok : Undisturbed s (.worker env)) :
    Ensures (populatelistasync s env k) (fun u => ∃ p', Refines u m p') fun _ => True := by
  obtain ⟨hcalm, hlisted⟩ := hok
  have hdelegate : env.delegate = true := hcalm.2.2.2
  have hrel := h.rel
  rw [hw] at hrel
  cases k with
  | clear => exact absurd rfl hclear
  | next current => exact h.next hk hw hlisted
  | update t => exact h.updateentry hk hw hnew hcalm
  | sweep todo =>
    obtain ⟨hpass, gone, hswept⟩ := hrel
    cases todo with
    | nil =>
      simp only [populatelistasync, hdelegate]
      exact ⟨p, h.stay rfl ⟨hpass, hswept.same hk⟩⟩
    | cons a todo =>
      have hnot : a ∉ todo := (List.nodup_cons.mp (hwaits.nodup hk.nodup)).1
      simp only [populatelistasync, hdelegate]
      rw [ensures_ite]
      refine ⟨fun hstale => ?_, fun hfresh => ?_⟩
      · obtain ⟨d, hd, hold⟩ := List.any_eq_true.mp hstale
        simp only [Bool.and_eq_true, decide_eq_true_eq, Bool.not_eq_true'] at hold
        have hgone : a ∈ gone :=
          hold.1 ▸ (hswept.swept d hd).mpr ⟨hold.1 ▸ List.mem_cons_self, hold.2⟩
        exact ⟨p, h.stay rfl ⟨hpass, gone, hgone, hswept.swept, hswept.reset, hswept.downloads,
          hswept.items⟩⟩
      · rw [Bool.not_eq_true] at hfresh
        exact ⟨p, h.stay rfl ⟨hpass, gone, hswept.keep hnot hfresh⟩⟩
  | removed a todo =>
    obtain ⟨hpass, gone, hgone, hswept⟩ := hrel
    simp only [populatelistasync, freeentry]
    cases s.ids a with
    | none => exact trivial
    | some _ => exact ⟨p, h.stay rfl ⟨hpass, gone, hswept.free hgone⟩⟩
  | updating _ _ _ | adding _ _ _ | removing _ _ | refreshing | finished =>
    simp only [populatelistasync]
    exact ⟨p, h⟩

/-- **A delegate** is no step of the pass. -/
theorem Refines.delegate (h : Refines s m p) (hk : Kept s) (hw : s.worker = some k)
    {x : Except Fault State} (hx : delegate s true k = some x) :
    Ensures x (fun u => ∃ p', Refines u m p') fun _ => True := by
  have hrel := h.rel
  rw [hw] at hrel
  cases k with
  | updating t a name =>
    cases hx
    rw [ensures_map]
    refine (setitemtext_eq a name hk.distinct).imp fun items hitems => ⟨p, h.stay rfl ?_⟩
    subst hitems
    exact ⟨hrel.1, hrel.2.downloads, hrel.2.items⟩
  | adding t a name | refreshing =>
    cases hx
    exact ⟨p, h.stay rfl ⟨hrel.1, hrel.2.downloads, hrel.2.items⟩⟩
  | removing a todo =>
    cases hx
    obtain ⟨hpass, gone, hgone, hswept⟩ := hrel
    exact ⟨p, h.stay rfl ⟨hpass, gone, hgone, hswept.removeRow hgone⟩⟩
  | clear | next _ | update _ | sweep _ | removed _ _ | finished => cases hx

/-! ## Runs -/

/-- **A step of the window** is one of the pass, two, or none. -/
theorem step_refines (hs : Inv s) (h : s.pc = .running → ∃ p, Refines s m p)
    (hok : Undisturbed s e) (hstep : step s e = some (t, r)) (hrun : t.pc = .running) :
    ∃ p, Refines t (note m s e r t) p := by
  cases e with
  | add u =>
    simp only [step] at hstep
    split at hstep
    · cases hstep
    · rename_i hnew
      cases hstep
      obtain ⟨p, hp⟩ := h hrun
      refine ⟨_, hp.inv.add (by rw [hp.torrents]; exact hnew), ?_, ?_, hp.rel.rest⟩
      · exact congrArg (listAdd · u) hp.torrents
      · rw [← hp.noted]
        rfl
  | remove addr =>
    cases hstep
    obtain ⟨p, hp⟩ := h hrun
    refine ⟨_, hp.inv.remove addr, ?_, ?_, hp.rel.rest⟩
    · exact congrArg (List.filter fun t => t.addr ≠ addr) hp.torrents
    · rw [← hp.noted]
      rfl
  | timer id workqueue register =>
    simp only [step] at hstep
    split at hstep
    · rename_i hbefore
      obtain ⟨p, hp⟩ := h hbefore
      obtain ⟨worker, timerId, heq, hworker⟩ := timer_eq s id workqueue register
      rw [heq] at hstep
      cases hstep
      have hrel : Rel s p worker := by
        obtain rfl | ⟨hidle, hnew⟩ := hworker
        · exact hp.rel
        · have hdone : Rel s p none := by
            have hold := hp.rel
            obtain hw | hw := WorkerWindow.idle_iff.mp hidle <;> rwa [hw] at hold
          obtain rfl | rfl := hnew <;> exact hdone
      exact ⟨p, hp.inv, hp.torrents, hp.noted, hrel.rest⟩
    · cases hstep
  | destroy =>
    simp only [step] at hstep
    split at hstep
    · rename_i hbefore
      obtain ⟨p, hp⟩ := h hbefore
      have hspec := destroy_spec (hs.kept hbefore)
      cases hd : destroy s with
      | error f =>
        rw [hd] at hspec
        exact hspec.elim
      | ok x =>
        rw [hd] at hspec hstep
        obtain rfl : x = (t, r) := Option.some.inj hstep
        obtain heq | ⟨-, hpc, -⟩ := hspec
        · cases heq
          exact ⟨p, hp.inv, hp.torrents, hp.noted, hp.rel.rest⟩
        · cases hpc.symm.trans hrun
    · cases hstep
  | cleanup =>
    simp only [step] at hstep
    split at hstep
    · cases hstep
      cases hrun
    · cases hstep
  | worker env =>
    simp only [step] at hstep
    split at hstep
    · rename_i k hw
      split at hstep
      · rename_i hcond
        simp only [Bool.and_eq_true, decide_eq_true_eq, Option.isNone_iff_eq_none] at hcond
        obtain ⟨⟨hstop, hruns⟩, hnew⟩ := hcond
        have hbefore := running_of_worker hs hw hruns hstop
        obtain ⟨p, hp⟩ := h hbefore
        by_cases hclear : k = .clear
        · subst hclear
          cases hstep
          rw [show note m s (.worker env) .done _ = (s.torrents, s.torrents) from if_pos hw]
          exact hp.clear hw
        · have hpost := hp.worker (hs.kept hbefore) hw hclear (hs.waits hbefore k hw) hnew hok
          cases hx : populatelistasync s env k with
          | error f =>
            rw [hx] at hstep
            cases hstep
            cases hrun
          | ok u =>
            rw [hx] at hstep hpost
            cases hstep
            have hne : s.worker ≠ some .clear := by
              rw [hw]
              simpa using hclear
            rw [show note m s (.worker env) .done t = m from if_neg hne]
            exact hpost
      · cases hstep
    · cases hstep
  | delegate memory =>
    simp only [step] at hstep
    split at hstep
    · rename_i hbefore
      obtain ⟨p, hp⟩ := h hbefore
      obtain ⟨x, hx, hf⟩ := Option.map_eq_some_iff.mp hstep
      obtain ⟨k, hw, hx⟩ := Option.bind_eq_some_iff.mp hx
      obtain rfl : memory = true := hok.1
      have hpost := hp.delegate (hs.kept hbefore) hw hx
      cases x with
      | error f =>
        cases hf
        cases hrun
      | ok u =>
        cases hf
        exact hpost
    · cases hstep

/-- When the worker is done, the rows are those of the pass. -/
theorem Refines.shows (h : Refines s m p) (hidle : idle s = true) :
    (∀ t ∈ m.1, (titles s).count t.id = 1) ∧ ∀ id ∈ titles s, ∃ t ∈ m.2, t.id = id := by
  have hrel : Rel s p none := by
    have hold := h.rel
    obtain hw | hw := WorkerWindow.idle_iff.mp hidle <;> rwa [hw] at hold
  obtain ⟨hpass, hsame⟩ := hrel
  have hprogress := h.inv.progress
  have hseen := h.inv.seen
  rw [hpass] at hprogress hseen
  have htitles : titles s = p.window.items.map Downloads.Item.id := by
    rw [hsame.items, List.map_map]
    rfl
  have hshown := p.window.shown
  rw [← htitles] at hshown
  have hnodup : (titles s).Nodup := hshown.nodup_iff.mpr p.window.ids
  rw [← h.noted]
  refine ⟨fun t ht => ?_, fun id hid => ?_⟩
  · exact List.count_eq_one_of_mem hnodup (hshown.mem_iff.mpr (hprogress t ht))
  · obtain ⟨d, hd, rfl⟩ := List.mem_map.mp (hshown.mem_iff.mp hid)
    exact hseen d hd

theorem refines_start {torrents : List Torrent} (haddrs : (torrents.map Torrent.addr).Nodup)
    (workqueue : Bool) (timerId : Option Nat) :
    ∃ p, Refines (start torrents workqueue timerId) ([], torrents) p := by
  refine ⟨⟨torrents, Downloads.noEntries, .done, [], torrents⟩, ?_, rfl, rfl, ?_⟩
  · refine ⟨haddrs, ?_, fun t ht => ht, ?_, ?_⟩
    · intro t ht
      cases ht
    · intro t ht
      cases ht
    · intro d hd
      cases hd
  · cases workqueue with
    | false | true => exact ⟨rfl, rfl, rfl⟩

variable {tr : List (Event × Result)}

/-- **The downloads window shows the downloads.**  Whenever its worker is done, whatever torrents
    have come and gone, each torrent that was there all the time since the last pass began has one
    row, and no row is that of a torrent that was not there since then, if nothing fails for the
    worker and it asks for the torrent after one that is still there. -/
theorem downloads_shown {torrents : List Torrent} (haddrs : (torrents.map Torrent.addr).Nodup)
    {workqueue : Bool} {timerId : Option Nat}
    (h : Run (Guarded (observed step note) fun x => Undisturbed x.1)
      (start torrents workqueue timerId, [], torrents) tr (s, m))
    (hrun : s.pc = .running) (hidle : idle s = true) :
    (∀ t ∈ m.1, (titles s).count t.id = 1) ∧ ∀ id ∈ titles s, ∃ t ∈ m.2, t.id = id := by
  have hinv : Inv s ∧ (s.pc = .running → ∃ p, Refines s m p) := by
    refine h.invariant (P := fun x => Inv x.1 ∧ (x.1.pc = .running → ∃ p, Refines x.1 x.2 p))
      ⟨.start torrents workqueue timerId, fun _ => refines_start haddrs workqueue timerId⟩ ?_
    intro x ⟨e, r⟩ y ⟨hs, hx⟩ ⟨hok, hstep⟩
    obtain ⟨hstep, hnote⟩ := step_observed.mp hstep
    refine ⟨(step_inv hs (posted_of_calm hok.1) hstep).1, fun hrun => ?_⟩
    rw [hnote]
    exact step_refines hs hx hok hstep hrun
  obtain ⟨p, hp⟩ := hinv.2 hrun
  exact hp.shows hidle

instance (s : State) : (e : Event) → Decidable (Calm s e)
  | .worker env => inferInstanceAs (Decidable (env.malloc = true ∧ env.id ≠ 0 ∧ env.strdup = true ∧
      env.delegate = true))
  | .delegate memory => inferInstanceAs (Decidable (memory = true))
  | .add _ | .remove _ | .timer _ _ _ | .destroy | .cleanup => inferInstanceAs (Decidable True)

instance (s : State) : (e : Event) → Decidable (StillListed s e)
  | .worker _ => inferInstanceAs (Decidable (listed s = true))
  | .add _ | .remove _ | .timer _ _ _ | .destroy | .cleanup | .delegate _ =>
    inferInstanceAs (Decidable True)

instance (s : State) (e : Event) : Decidable (Undisturbed s e) :=
  inferInstanceAs (Decidable (_ ∧ _))

/-- A torrent is destroyed during a pass, and another one opened. -/
def comings : List Event :=
  [.worker (supplied [] 1), .worker (supplied [] 1), .worker (supplied "a (0%)".toList 1),
    .delegate true, .remove 6, .worker (supplied [] 2), .worker (supplied "c (9%)".toList 2),
    .add ⟨8, "d".toList⟩, .delegate true, .worker (supplied [] 3), .worker (supplied [] 3),
    .worker (supplied [] 3), .worker (supplied [] 3), .delegate true]

theorem downloads_shown_comings : ∃ tr s m,
    Run (Guarded (observed step note) fun x => Undisturbed x.1)
      (start [⟨5, "a".toList⟩, ⟨6, "b".toList⟩, ⟨7, "c".toList⟩] true (some 7), [],
        [⟨5, "a".toList⟩, ⟨6, "b".toList⟩, ⟨7, "c".toList⟩]) tr (s, m) ∧
    m.1 = [⟨5, "a".toList⟩, ⟨7, "c".toList⟩] ∧ (∀ t ∈ m.1, (titles s).count t.id = 1) ∧
    ∀ id ∈ titles s, ∃ t ∈ m.2, t.id = id := by
  obtain ⟨r, hr, hpc, hidle, halways⟩ : ∃ r ∈ exec (fun x e =>
      if Undisturbed x.1 e then observed step note x e else none)
      (start [⟨5, "a".toList⟩, ⟨6, "b".toList⟩, ⟨7, "c".toList⟩] true (some 7), [],
        [⟨5, "a".toList⟩, ⟨6, "b".toList⟩, ⟨7, "c".toList⟩]) comings,
      r.1.1.pc = .running ∧ idle r.1.1 = true ∧ r.1.2.1 = [⟨5, "a".toList⟩, ⟨7, "c".toList⟩] := by
    decide +kernel
  have hrun := run_of_guarded_exec comings hr
  have hshown := downloads_shown (by decide) hrun hpc hidle
  exact ⟨r.2, r.1.1, r.1.2, hrun, halways, hshown⟩

end Mediabox.DownloadsLife
