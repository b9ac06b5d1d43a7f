import Mathlib.Logic.Function.Basic
import Mediabox.Downloads
import Mediabox.Lib.Outcome
import Mediabox.WorkerWindow

/-!
# The memory of the downloads window (`src/downloads.c`)

The thread of the window handles its messages and runs what the worker delegates to it; the worker
is `mbox_downloads_populatelistasync`, which a timer starts again and again.  The rows of the list
have the ids of the entries as their data.

* Memory: the ids of the entries (`ids`).  An entry is known by the address of its id.  The entries and
  their names are not freed with the window.
* A step is a message, a step of the worker, a delegate of the worker that the thread of the window
  runs, or a torrent that is opened or destroyed.
* `Kept` — the entries have ids of their own, and each row that of an entry.
* `Posted` — the delegate that removes a row is posted.  Otherwise the row stays when the id of its
  entry is freed.
* `Calm` — nothing fails for the worker.
* `SELECTED` is left out, which does nothing in a build with `NDEBUG`, the default.  A debug build
  reads the data of the selected row there, which dangles once that row was removed.

Main results: `downloads_memory_safe`, `downloads_frees`.
-/

set_option autoImplicit false

namespace Mediabox.DownloadsLife

open Transition Outcome Library
open WorkerWindow (Pc)
open Downloads (Torrent torrentNext)

/-! ## The code -/

/-- The address of an id; 0 is `NULL`. -/
abbrev Addr := Nat

/-- `struct mbox_download`; `name` is `none` after a `strdup` that failed. -/
structure Download where
  id : Addr
  name : Option CString
  updated : Bool
  deriving DecidableEq, Repr

/-- `struct avbox_listitem` -/
structure Item where
  data : Addr
  name : Option CString
  deriving DecidableEq, Repr

/-- Where `mbox_downloads_populatelistasync` is. -/
inductive Worker where
  | clear
  /-- before `mbox_dlman_next` -/
  | next (current : Option Nat)
  /-- before `mbox_downloads_updateentry` -/
  | update (t : Torrent)
  /-- waits for `mbox_downloads_updateitem` -/
  | updating (t : Torrent) (id : Addr) (name : CString)
  /-- waits for `mbox_downloads_additem` -/
  | adding (t : Torrent) (id : Addr) (name : CString)
  /-- in its last loop, with the entries to come -/
  | sweep (todo : List Addr)
  /-- waits for `mbox_downloads_removeitem` -/
  | removing (id : Addr) (todo : List Addr)
  | removed (id : Addr) (todo : List Addr)
  /-- waits for `mbox_downloads_updatewindow` -/
  | refreshing
  | finished
  deriving DecidableEq, Repr

/-- The torrents of the session, and `struct mbox_downloads`. -/
structure State where
  torrents : List Torrent
  ids : Addr → Option CString
  downloads : List Download
  /-- the items of `menu` -/
  items : List Item
  worker : Option Worker
  updateTimerId : Option Nat
  destroying : Bool
  pc : Pc

/-- `mbox_downloads_new` and `mbox_downloads_show`, with the answers of `avbox_workqueue_delegate` and
    `avbox_timer_register`. -/
def start (torrents : List Torrent) (workqueue : Bool) (timerId : Option Nat) : State where
  torrents := torrents
  ids := fun _ => none
  downloads := []
  items := []
  worker := if workqueue then some .clear else none
  updateTimerId := timerId
  destroying := false
  pc := .running

inductive Fault where
  /-- an id that was freed -/
  | freed
  | assert
  deriving DecidableEq, Repr

inductive Result where
  | done
  /-- `AVBOX_DISPATCH_CONTINUE`: the message is sent again -/
  | again
  | fault (f : Fault)
  deriving DecidableEq, Repr

def idle (s : State) : Bool := WorkerWindow.idle .finished s.worker

/-- `mbox_downloads_populatelist`; the result of a worker is always 0. -/
def populatelist (s : State) (workqueue : Bool) : State :=
  if s.destroying then s
  else
    match s.worker with
    | some .finished => { s with worker := none }
    | some _ => s
    | none => { s with worker := if workqueue then some .clear else none }

/-- `AVBOX_MESSAGETYPE_TIMER` -/
def timer (s : State) (id : Nat) (workqueue : Bool) (register : Option Nat) : State :=
  if s.updateTimerId = some id then
    if s.destroying then { s with updateTimerId := none }
    else { populatelist s workqueue with updateTimerId := register }
  else s

/-- `avbox_listview_enumitems` with `mbox_downloads_freeitems` -/
def freeitems (ids : Addr → Option CString) : List Addr → Except Fault (Addr → Option CString)
  | [] => .ok ids
  | a :: data =>
    match ids a with
    | none => .error .freed
    | some _ => freeitems (Function.update ids a none) data

/-- `AVBOX_MESSAGETYPE_DESTROY`; the list view clears its items without their data. -/
def destroy (s : State) : Except Fault (State × Result) :=
  let s := { s with destroying := true }
  if s.updateTimerId ≠ none then .ok (s, .again)
  else if !idle s then .ok (s, .again)
  else
    match freeitems s.ids (s.items.map Item.data) with
    | .ok ids => .ok ({ s with ids := ids, items := [], pc := .destroyed }, .done)
    | .error f => .error f

/-- What the worker gets from elsewhere: the text for a torrent, memory, and whether a delegate is
    posted; `id` is what `strdup` returns for the id of a new entry. -/
structure WorkerEnv where
  name : CString
  malloc : Bool
  id : Addr
  strdup : Bool
  delegate : Bool
  deriving DecidableEq, Repr

/-- The entry that `mbox_downloads_updateentry` finds. -/
def find (ids : Addr → Option CString) (id : CString) : List Download →
    Except Fault (Option Download)
  | [] => .ok none
  | d :: downloads =>
    match ids d.id with
    | none => .error .freed
    | some str => if str = id then .ok (some d) else find ids id downloads

/-- What an update makes of the entries. -/
def Download.update (id : Addr) (name : Option CString) (d : Download) : Download :=
  if d.id = id then { d with name := name, updated := true } else d

/-- `mbox_downloads_updateentry`, up to the wait for its delegate -/
def updateentry (s : State) (t : Torrent) (env : WorkerEnv) : Except Fault State :=
  match find s.ids t.id s.downloads with
  | .error f => .error f
  | .ok (some d) =>
    if d.name = none then .error .assert
    else .ok { s with
      downloads := s.downloads.map (Download.update d.id (if env.strdup then some env.name else none))
      worker := some (if env.delegate then .updating t d.id env.name else .next (some t.addr)) }
  | .ok none =>
    if !env.malloc || env.id = 0 || !env.strdup then
      .ok { s with worker := some (.next (some t.addr)) }
    else .ok { s with
      ids := Function.update s.ids env.id (some t.id)
      downloads := listAdd s.downloads ⟨env.id, some env.name, true⟩
      worker := some (if env.delegate then .adding t env.id env.name else .next (some t.addr)) }

/-- `LIST_REMOVE(dl)`, and the entry is freed. -/
def freeentry (s : State) (id : Addr) (todo : List Addr) : Except Fault State :=
  match s.ids id with
  | none => .error .freed
  | some _ => .ok { s with
      ids := Function.update s.ids id none
      downloads := s.downloads.filter (·.id ≠ id)
      worker := some (.sweep todo) }

/-- An entry that was not updated. -/
def stale (s : State) (id : Addr) : Bool := s.downloads.any fun d => d.id = id && !d.updated

def Download.reset (id : Addr) (d : Download) : Download :=
  if d.id = id then { d with updated := false } else d

/-- `mbox_downloads_populatelistasync`, from where it is on. -/
def populatelistasync (s : State) (env : WorkerEnv) : Worker → Except Fault State
  | .clear => .ok { s with
      downloads := s.downloads.map fun d => { d with updated := false }
      worker := some (.next none) }
  | .next current =>
    match torrentNext s.torrents current with
    | some t => .ok { s with worker := some (.update t) }
    | none => .ok { s with worker := some (.sweep (s.downloads.map Download.id)) }
  | .update t => updateentry s t env
  | .sweep [] => .ok { s with worker := some (if env.delegate then .refreshing else .finished) }
  | .sweep (id :: todo) =>
    if stale s id then
      if env.delegate then .ok { s with worker := some (.removing id todo) }
      else freeentry s id todo
    else .ok { s with
      downloads := s.downloads.map (Download.reset id)
      worker := some (.sweep todo) }
  | .removed id todo => freeentry s id todo
  | .updating _ _ _ | .adding _ _ _ | .removing _ _ | .refreshing | .finished => .ok s

/-- `avbox_listview_setitemtext` -/
def setitemtext (data : Addr) (name : Option CString) : List Item → Except Fault (List Item)
  | [] => .ok []
  | i :: items =>
    if i.data = data then
      if i.name = none then .error .assert else .ok ({ i with name := name } :: items)
    else (setitemtext data name items).map (i :: ·)

/-- A delegate of the worker; whether the list view has memory for the text, and for the row, comes
    with it. -/
def delegate (s : State) (memory : Bool) : Worker → Option (Except Fault State)
  | .updating t id name => some <|
    (setitemtext id (if memory then some name else none) s.items).map fun items =>
      { s with items := items, worker := some (.next (some t.addr)) }
  | .adding t id name => some <| .ok { s with
      items := if memory then s.items ++ [⟨id, some name⟩] else s.items
      worker := some (.next (some t.addr)) }
  | .removing id todo => some <| .ok { s with
      items := s.items.filter (·.data ≠ id)
      worker := some (.removed id todo) }
  | .refreshing => some <| .ok { s with worker := some .finished }
  | _ => none

inductive Event where
  /-- a torrent is opened -/
  | add (t : Torrent)
  /-- a torrent is destroyed -/
  | remove (addr : Nat)
  /-- a timer has fired; what `avbox_workqueue_delegate` and `avbox_timer_register` answer comes with
      it -/
  | timer (id : Nat) (workqueue : Bool) (register : Option Nat)
  | destroy
  | cleanup
  | worker (env : WorkerEnv)
  | delegate (memory : Bool)
  deriving DecidableEq, Repr

/-- The worker takes a step on its own. -/
def Worker.runs : Worker → Bool
  | .clear | .next _ | .update _ | .sweep _ | .removed _ _ => true
  | .updating _ _ _ | .adding _ _ _ | .removing _ _ | .refreshing | .finished => false

/-- What ends with the first fault. -/
def finish (s : State) (x : Except Fault (State × Result)) : State × Result :=
  settle (fun f => ({ s with pc := .stopped }, .fault f)) x

/-- `mbox_downloads_messagehandler`, the worker and its delegates, and the session of the torrents -/
def step (s : State) : Event → Option (State × Result)
  | .add t =>
    if t.addr ∈ s.torrents.map Torrent.addr then none
    else some ({ s with torrents := listAdd s.torrents t }, .done)
  | .remove addr =>
    some ({ s with torrents := s.torrents.filter fun t => t.addr ≠ addr }, .done)
  | .timer id workqueue register =>
    if s.pc = .running then some (timer s id workqueue register, .done) else none
  | .destroy => if s.pc = .running then some (finish s (destroy s)) else none
  | .cleanup => if s.pc = .destroyed then some ({ s with pc := .gone }, .done) else none
  | .worker env =>
    match s.worker with
    | some w =>
      if s.pc ≠ .stopped && w.runs && (s.ids env.id).isNone then
        some (finish s ((populatelistasync s env w).map (·, .done)))
      else none
    | none => none
  | .delegate memory =>
    if s.pc = .running then
      (s.worker.bind (delegate s memory)).map fun x => finish s (x.map (·, .done))
    else none

/-! ## What it is for -/

/-- The addresses of the ids of the entries. -/
def entries (s : State) : List Addr := s.downloads.map Download.id

/-- The data of the rows. -/
def rows (s : State) : List Addr := s.items.map Item.data

/-- The entries have ids of their own, and each row that of an entry. -/
structure Kept (s : State) : Prop where
  nodup : (entries s).Nodup
  live : ∀ a, s.ids a ≠ none ↔ a ∈ entries s
  distinct : (rows s).Nodup
  listed : ∀ a ∈ rows s, a ∈ entries s

/-- What the worker waits for, or is about to do. -/
def Waits (s : State) : Worker → Prop
  | .adding _ id _ => id ∈ entries s ∧ id ∉ rows s
  | .sweep todo => todo.Sublist (entries s)
  | .removing id todo => (id :: todo).Sublist (entries s)
  | .removed id todo => (id :: todo).Sublist (entries s) ∧ id ∉ rows s
  | _ => True

structure Inv (s : State) : Prop where
  kept : s.pc = .running → Kept s
  waits : s.pc = .running → ∀ w, s.worker = some w → Waits s w
  /-- nothing happens any more to a window that is destroyed -/
  ended : s.pc = .destroyed ∨ s.pc = .gone → idle s = true ∧ s.updateTimerId = none

/-- The delegate that removes a row is posted. -/
def Posted (s : State) : Event → Prop
  | .worker env => ∀ id todo, s.worker = some (.sweep (id :: todo)) → env.delegate = true
  | _ => True

/-- Nothing fails for the worker. -/
def Calm (_ : State) : Event → Prop
  | .worker env => env.malloc = true ∧ env.id ≠ 0 ∧ env.strdup = true ∧ env.delegate = true
  | .delegate memory => memory = true
  | _ => True

/-! ## The calls -/

variable {s t u : State} {w : Worker} {a : Addr} {id : CString} {ids : Addr → Option CString}
  {env : WorkerEnv}

theorem Download.update_id (a : Addr) (name : Option CString) (d : Download) :
    (d.update a name).id = d.id := by
  unfold Download.update
  split <;> rfl

theorem Download.reset_id (a : Addr) (d : Download) : (d.reset a).id = d.id := by
  unfold Download.reset
  split <;> rfl

theorem map_id_of_keeps {f : Download → Download} (hf : ∀ d, (f d).id = d.id) (l : List Download) :
    (l.map f).map Download.id = l.map Download.id := by
  rw [List.map_map]
  exact List.map_congr_left fun d _ => hf d

theorem map_id_filter (a : Addr) (l : List Download) :
    (l.filter (·.id ≠ a)).map Download.id = (l.map Download.id).filter (· ≠ a) := by
  rw [List.filter_map]
  rfl

theorem map_data_filter (a : Addr) (l : List Item) :
    (l.filter (·.data ≠ a)).map Item.data = (l.map Item.data).filter (· ≠ a) := by
  rw [List.filter_map]
  rfl

/-- What is found is the entry of the id. -/
theorem find_spec (id : CString) : ∀ {l : List Download}, (∀ d ∈ l, ids d.id ≠ none) →
    Ensures (find ids id l) (fun o => match o with
      | some d => d ∈ l ∧ ids d.id = some id
      | none => ∀ d ∈ l, ids d.id ≠ some id) fun _ => False
  | [], _ => by
    intro d hd
    cases hd
  | d :: l, h => by
    obtain ⟨hd, hl⟩ := List.forall_mem_cons.mp h
    have ih := find_spec id hl
    unfold find
    cases hstr : ids d.id with
    | none => exact absurd hstr hd
    | some str =>
      dsimp only
      rw [ensures_ite]
      constructor
      · rintro rfl
        exact ⟨List.mem_cons_self, hstr⟩
      · intro hne
        refine ih.imp fun o ho => ?_
        cases o with
        | some d' => exact ⟨List.mem_cons_of_mem _ ho.1, ho.2⟩
        | none => exact List.forall_mem_cons.mpr ⟨by rw [hstr]; simpa using hne, ho⟩

theorem freeitems_spec : ∀ {data : List Addr} {ids : Addr → Option CString}, data.Nodup →
    (∀ a ∈ data, ids a ≠ none) →
    Ensures (freeitems ids data) (fun ids' => ∀ a, ids' a = if a ∈ data then none else ids a)
      fun _ => False
  | [], ids, _, _ => fun a => by simp
  | b :: data, ids, hnodup, h => by
    obtain ⟨hb, hdata⟩ := List.forall_mem_cons.mp h
    obtain ⟨hnot, hnodup⟩ := List.nodup_cons.mp hnodup
    have hlive : ∀ a ∈ data, Function.update ids b none a ≠ none := by
      intro a ha
      rw [Function.update_of_ne fun heq : a = b => hnot (heq ▸ ha)]
      exact hdata a ha
    unfold freeitems
    cases hstr : ids b with
    | none => exact absurd hstr hb
    | some str =>
      refine (freeitems_spec hnodup hlive).imp fun ids' hids a => ?_
      rw [hids a]
      by_cases hab : a = b
      · simp [hab, Function.update_self]
      · simp [hab]

theorem setitemtext_data (a : Addr) (name : Option CString) : ∀ l : List Item,
    Ensures (setitemtext a name l) (fun l' => l'.map Item.data = l.map Item.data) (· = .assert)
  | [] => rfl
  | i :: l => by
    unfold setitemtext
    rw [ensures_ite]
    constructor
    · intro _
      rw [ensures_ite]
      exact ⟨fun _ => rfl, fun _ => rfl⟩
    · intro _
      rw [ensures_map]
      exact (setitemtext_data a name l).imp fun l' hl' => congrArg (i.data :: ·) hl'

/-! ## The invariant -/

theorem Kept.frame (h : Kept s) (hids : t.ids = s.ids) (hentries : entries t = entries s)
    (hrows : rows t = rows s) : Kept t := by
  constructor
  · rw [hentries]
    exact h.nodup
  · rw [hids, hentries]
    exact h.live
  · rw [hrows]
    exact h.distinct
  · rw [hrows, hentries]
    exact h.listed

/-- What the worker leaves alone. -/
def State.main (s : State) : Option Nat × Bool × Pc := (s.updateTimerId, s.destroying, s.pc)

/-- What a step of the worker, or of the main thread for it, leaves. -/
structure Good (s u : State) : Prop where
  kept : Kept u
  waits : ∀ w, u.worker = some w → Waits u w
  main : u.main = s.main

theorem Good.of_waits (hk : Kept u) (hw : u.worker = some w) (hwaits : Waits u w)
    (hmain : u.main = s.main) : Good s u where
  kept := hk
  waits := by
    intro w' hw'
    cases hw.symm.trans hw'
    exact hwaits
  main := hmain

/-- A new entry. -/
theorem Kept.push (h : Kept s) (hnew : s.ids a = none) (name : CString) {worker : Option Worker} :
    Kept { s with
      ids := Function.update s.ids a (some id)
      downloads := listAdd s.downloads ⟨a, some name, true⟩
      worker := worker } := by
  have hfree : a ∉ entries s := fun hmem => (h.live a).mpr hmem hnew
  constructor
  · exact List.nodup_cons.mpr ⟨hfree, h.nodup⟩
  · intro b
    show Function.update s.ids a (some id) b ≠ none ↔ b ∈ a :: entries s
    by_cases hb : b = a
    · simp [hb]
    · rw [Function.update_of_ne hb, h.live b, List.mem_cons]
      exact (or_iff_right hb).symm
  · exact h.distinct
  · exact fun b hb => List.mem_cons_of_mem _ (h.listed b hb)

theorem updateentry_good (h : Kept s) (hnew : s.ids env.id = none) (t : Torrent) :
    Ensures (updateentry s t env) (Good s) (· = .assert) := by
  have hlive : ∀ d ∈ s.downloads, s.ids d.id ≠ none :=
    fun d hd => (h.live d.id).mpr (List.mem_map_of_mem hd)
  have hfind := find_spec t.id hlive
  unfold updateentry
  cases hf : find s.ids t.id s.downloads with
  | error f =>
    rw [hf] at hfind
    exact hfind.elim
  | ok o =>
    cases o with
    | some d =>
      dsimp only
      rw [ensures_ite]
      refine ⟨fun _ => rfl, fun _ => ?_⟩
      refine .of_waits (h.frame rfl (map_id_of_keeps (Download.update_id _ _) _) rfl) rfl ?_ rfl
      cases env.delegate <;> trivial
    | none =>
      dsimp only
      rw [ensures_ite]
      refine ⟨fun _ => ?_, fun _ => ?_⟩
      · exact .of_waits (h.frame rfl rfl rfl) rfl trivial rfl
      · refine .of_waits (h.push hnew env.name) rfl ?_ rfl
        cases env.delegate with
        | false => trivial
        | true =>
          refine ⟨List.mem_cons_self, fun hmem => ?_⟩
          exact (h.live env.id).mpr (h.listed env.id hmem) hnew

theorem freeentry_good (h : Kept s) {todo : List Addr} (hsub : (a :: todo).Sublist (entries s))
    (hrow : a ∉ rows s) : Ensures (freeentry s a todo) (Good s) (· = .assert) := by
  have hmem : a ∈ entries s := hsub.subset List.mem_cons_self
  obtain ⟨hnot, -⟩ := List.nodup_cons.mp (hsub.nodup h.nodup)
  unfold freeentry
  cases hstr : s.ids a with
  | none => exact absurd hstr ((h.live a).mpr hmem)
  | some str =>
    have hentries : (s.downloads.filter (·.id ≠ a)).map Download.id = (entries s).filter (· ≠ a) :=
      map_id_filter a s.downloads
    refine .of_waits ?_ rfl ?_ rfl
    · constructor
      · show ((s.downloads.filter (·.id ≠ a)).map Download.id).Nodup
        rw [hentries]
        exact h.nodup.filter _
      · intro b
        show Function.update s.ids a none b ≠ none ↔ b ∈ (s.downloads.filter (·.id ≠ a)).map Download.id
        rw [hentries, List.mem_filter]
        by_cases hb : b = a
        · simp [hb]
        · rw [Function.update_of_ne hb, h.live b]
          simp [hb]
      · exact h.distinct
      · intro b hb
        show b ∈ (s.downloads.filter (·.id ≠ a)).map Download.id
        rw [hentries, List.mem_filter]
        refine ⟨h.listed b hb, ?_⟩
        simpa using fun heq : b = a => hrow (heq ▸ hb)
    · show todo.Sublist ((s.downloads.filter (·.id ≠ a)).map Download.id)
      rw [hentries]
      have hkeep : todo.filter (· ≠ a) = todo :=
        List.filter_eq_self.mpr fun b hb => by simpa using fun heq : b = a => hnot (heq ▸ hb)
      rw [← hkeep]
      exact (List.sublist_of_cons_sublist hsub).filter _

/-- **A step of the worker**, if the delegate that removes a row is posted. -/
theorem populatelistasync_good (h : Kept s) (hw : s.worker = some w) (hwaits : Waits s w)
    (hnew : s.ids env.id = none) (hposted : Posted s (.worker env)) :
    Ensures (populatelistasync s env w) (Good s) (· = .assert) := by
  cases w with
  | clear =>
    have hentries : (s.downloads.map fun d => { d with updated := false }).map Download.id =
        entries s := by
      rw [List.map_map]
      rfl
    exact .of_waits (h.frame rfl hentries rfl) rfl trivial rfl
  | next current =>
    simp only [populatelistasync]
    cases torrentNext s.torrents current with
    | some t => exact .of_waits (h.frame rfl rfl rfl) rfl trivial rfl
    | none => exact .of_waits (h.frame rfl rfl rfl) rfl (List.Sublist.refl _) rfl
  | update t => exact updateentry_good h hnew t
  | sweep todo =>
    cases todo with
    | nil =>
      refine .of_waits (h.frame rfl rfl rfl) rfl ?_ rfl
      cases env.delegate <;> trivial
    | cons a todo =>
      unfold populatelistasync
      rw [ensures_ite, hposted a todo hw]
      refine ⟨fun _ => ?_, fun _ => ?_⟩
      · exact .of_waits (h.frame rfl rfl rfl) rfl hwaits rfl
      · have hentries : (s.downloads.map (Download.reset a)).map Download.id = entries s :=
          map_id_of_keeps (Download.reset_id a) _
        refine .of_waits (h.frame rfl hentries rfl) rfl ?_ rfl
        show todo.Sublist ((s.downloads.map (Download.reset a)).map Download.id)
        rw [hentries]
        exact List.sublist_of_cons_sublist hwaits
  | removed a todo => exact freeentry_good h hwaits.1 hwaits.2
  | updating _ _ _ | adding _ _ _ | removing _ _ | refreshing | finished =>
    exact .of_waits (h.frame rfl rfl rfl) hw hwaits rfl

/-- **A delegate.** -/
theorem delegate_good (h : Kept s) (hwaits : Waits s w) {memory : Bool}
    {x : Except Fault State} (hx : delegate s memory w = some x) :
    Ensures x (Good s) (· = .assert) := by
  cases w with
  | updating t a name =>
    cases hx
    rw [ensures_map]
    exact (setitemtext_data _ _ s.items).imp fun items hitems =>
      .of_waits (h.frame rfl rfl hitems) rfl trivial rfl
  | adding t a name =>
    cases hx
    obtain ⟨hentry, hrow⟩ := hwaits
    rw [ensures_ok]
    refine .of_waits ?_ rfl trivial rfl
    cases memory with
    | false => exact h.frame rfl rfl rfl
    | true =>
      have hrows : (s.items ++ [Item.mk a (some name)]).map Item.data = rows s ++ [a] := by
        rw [List.map_append]
        rfl
      refine ⟨h.nodup, h.live, ?_, ?_⟩
      · show ((s.items ++ [Item.mk a (some name)]).map Item.data).Nodup
        rw [hrows]
        refine List.nodup_append.mpr ⟨h.distinct, List.nodup_singleton a, ?_⟩
        rintro b hb c hc rfl
        exact hrow (List.mem_singleton.mp hc ▸ hb)
      · intro b hb
        have hb : b ∈ rows s ++ [a] := hrows ▸ hb
        rcases List.mem_append.mp hb with hold | hnew
        · exact h.listed b hold
        · exact List.mem_singleton.mp hnew ▸ hentry
  | removing a todo =>
    cases hx
    have hrows : (s.items.filter (·.data ≠ a)).map Item.data = (rows s).filter (· ≠ a) :=
      map_data_filter a s.items
    rw [ensures_ok]
    refine .of_waits ⟨h.nodup, h.live, ?_, ?_⟩ rfl ⟨hwaits, ?_⟩ rfl
    · show ((s.items.filter (·.data ≠ a)).map Item.data).Nodup
      rw [hrows]
      exact h.distinct.filter _
    · intro b hb
      have hb : b ∈ (rows s).filter (· ≠ a) := hrows ▸ hb
      exact h.listed b (List.mem_filter.mp hb).1
    · intro hmem
      have hmem : a ∈ (rows s).filter (· ≠ a) := hrows ▸ hmem
      simpa using (List.mem_filter.mp hmem).2
  | refreshing =>
    cases hx
    exact .of_waits (h.frame rfl rfl rfl) rfl trivial rfl
  | clear | next _ | update _ | sweep _ | removed _ _ | finished => cases hx

/-! ## Runs -/

variable {e : Event} {r : Result} {tr : List (Event × Result)}

theorem Inv.of_good (hrun : s.pc = .running) (h : Good s u) : Inv u where
  kept := fun _ => h.kept
  waits := fun _ => h.waits
  ended := by
    have hpc : u.pc = s.pc := congrArg (·.2.2) h.main
    rw [hpc, hrun]
    rintro (hend | hend) <;> cases hend

theorem idle_of_running {w : Worker} (hw : s.worker = some w) (hruns : w.runs = true) :
    idle s = false := by
  cases w <;> simp_all [idle, Worker.runs]

theorem finish_good {x : Except Fault State} (hrun : s.pc = .running)
    (hx : Ensures x (Good s) (· = .assert)) (hf : finish s (x.map (·, .done)) = (t, r)) :
    Inv t ∧ r ≠ .fault .freed := by
  cases x with
  | ok u =>
    cases hf
    exact ⟨.of_good hrun hx, by simp⟩
  | error f =>
    cases hf
    cases hx
    refine ⟨⟨fun h => ?_, fun h => ?_, ?_⟩, by simp⟩
    · cases h
    · cases h
    · rintro (h | h) <;> cases h

/-- A timer starts a worker, or collects one that has finished. -/
theorem timer_eq (s : State) (id : Nat) (workqueue : Bool) (register : Option Nat) :
    ∃ worker timerId, timer s id workqueue register =
        { s with worker := worker, updateTimerId := timerId } ∧
      (worker = s.worker ∨ idle s = true ∧ (worker = none ∨ worker = some .clear)) := by
  have hpopulate : ∃ worker, populatelist s workqueue = { s with worker := worker } ∧
      (worker = s.worker ∨ idle s = true ∧ (worker = none ∨ worker = some .clear)) := by
    unfold populatelist
    split
    · exact ⟨s.worker, rfl, .inl rfl⟩
    · split
      · rename_i hw
        exact ⟨none, rfl, .inr ⟨by simp [idle, hw], .inl rfl⟩⟩
      · exact ⟨s.worker, rfl, .inl rfl⟩
      · rename_i hw
        refine ⟨_, rfl, .inr ⟨by simp [idle, hw], ?_⟩⟩
        cases workqueue with
        | false => exact .inl rfl
        | true => exact .inr rfl
  unfold timer
  split
  · split
    · exact ⟨s.worker, none, rfl, .inl rfl⟩
    · obtain ⟨worker, heq, hworker⟩ := hpopulate
      exact ⟨worker, register, by rw [heq], hworker⟩
  · exact ⟨s.worker, s.updateTimerId, rfl, .inl rfl⟩

/-- **`DESTROY`** is delayed, or the data of the rows is freed. -/
theorem destroy_spec (hk : Kept s) :
    Ensures (destroy s) (fun p => p = ({ s with destroying := true }, .again) ∨
      p.2 = .done ∧ p.1.pc = .destroyed ∧ p.1.worker = s.worker ∧ idle s = true ∧
        p.1.updateTimerId = none ∧ ∀ a, p.1.ids a = if a ∈ rows s then none else s.ids a) fun _ => False := by
  unfold destroy
  dsimp only
  rw [ensures_ite, ensures_ite]
  refine ⟨fun _ => .inl rfl, fun htimer => ⟨fun _ => .inl rfl, fun hidle => ?_⟩⟩
  have hlive : ∀ a ∈ rows s, s.ids a ≠ none := fun a ha => (hk.live a).mpr (hk.listed a ha)
  have hfree := freeitems_spec hk.distinct hlive
  cases hx : freeitems s.ids (s.items.map Item.data) with
  | error f =>
    rw [rows, hx] at hfree
    exact hfree.elim
  | ok ids =>
    rw [rows, hx] at hfree
    simp only [Bool.not_eq_true', Bool.not_eq_false] at hidle
    exact .inr ⟨rfl, rfl, rfl, hidle, not_not.mp htimer, hfree⟩

/-- A window that is destroyed has no worker that goes on. -/
theorem running_of_worker (h : Inv s) (hw : s.worker = some w) (hruns : w.runs = true)
    (hstop : s.pc ≠ .stopped) : s.pc = .running := by
  have hbusy := idle_of_running hw hruns
  cases hpc : s.pc with
  | running => rfl
  | destroyed => exact absurd ((h.ended (.inl hpc)).1.symm.trans hbusy) (by simp)
  | gone => exact absurd ((h.ended (.inr hpc)).1.symm.trans hbusy) (by simp)
  | stopped => exact absurd hpc hstop

theorem step_cases (h : Inv s) (hposted : Posted s e) (hstep : step s e = some (t, r)) :
    (∃ torrents worker timerId, t = { s with
        torrents := torrents, worker := worker, updateTimerId := timerId } ∧ r = .done ∧
      (worker = s.worker ∧ timerId = s.updateTimerId ∨ s.pc = .running ∧
        (worker = s.worker ∨ idle s = true ∧ (worker = none ∨ worker = some .clear)))) ∨
    (e = .destroy ∧ s.pc = .running ∧ finish s (destroy s) = (t, r)) ∨
    (s.pc = .destroyed ∧ t = { s with pc := .gone } ∧ r = .done) ∨
    ∃ x : Except Fault State, s.pc = .running ∧ Ensures x (Good s) (· = .assert) ∧
      finish s (x.map (·, .done)) = (t, r) ∧
      ((∃ env w, e = .worker env ∧ s.worker = some w ∧ s.ids env.id = none ∧
          x = populatelistasync s env w) ∨
        ∃ memory w, e = .delegate memory ∧ s.worker = some w ∧ delegate s memory w = some x) := by
  cases e with
  | add u =>
    simp only [step] at hstep
    split at hstep
    · cases hstep
    · cases hstep
      exact .inl ⟨_, _, _, rfl, rfl, .inl ⟨rfl, rfl⟩⟩
  | remove addr =>
    cases hstep
    exact .inl ⟨_, _, _, rfl, rfl, .inl ⟨rfl, rfl⟩⟩
  | timer id workqueue register =>
    simp only [step] at hstep
    split at hstep
    · rename_i hrun
      obtain ⟨worker, timerId, heq, hworker⟩ := timer_eq s id workqueue register
      rw [heq] at hstep
      cases hstep
      exact .inl ⟨_, _, _, rfl, rfl, .inr ⟨hrun, hworker⟩⟩
    · cases hstep
  | destroy =>
    simp only [step] at hstep
    split at hstep
    · rename_i hrun
      exact .inr (.inl ⟨rfl, hrun, Option.some.inj hstep⟩)
    · cases hstep
  | cleanup =>
    simp only [step] at hstep
    split at hstep
    · rename_i hpc
      cases hstep
      exact .inr (.inr (.inl ⟨hpc, rfl, rfl⟩))
    · cases hstep
  | worker env =>
    simp only [step] at hstep
    split at hstep
    · rename_i w hw
      split at hstep
      · rename_i hcond
        simp only [Bool.and_eq_true, decide_eq_true_eq, Option.isNone_iff_eq_none] at hcond
        obtain ⟨⟨hstop, hruns⟩, hnew⟩ := hcond
        have hrun := running_of_worker h hw hruns hstop
        refine .inr (.inr (.inr ⟨_, hrun, ?_, Option.some.inj hstep, .inl ⟨env, w, rfl, hw, hnew, rfl⟩⟩))
        exact populatelistasync_good (h.kept hrun) hw (h.waits hrun w hw) hnew hposted
      · cases hstep
    · cases hstep
  | delegate memory =>
    simp only [step] at hstep
    split at hstep
    · rename_i hrun
      obtain ⟨x, hx, hf⟩ := Option.map_eq_some_iff.mp hstep
      obtain ⟨w, hw, hx⟩ := Option.bind_eq_some_iff.mp hx
      refine .inr (.inr (.inr ⟨x, hrun, ?_, hf, .inr ⟨memory, w, rfl, hw, hx⟩⟩))
      exact delegate_good (h.kept hrun) (h.waits hrun w hw) hx
    · cases hstep

theorem Inv.rest (h : Inv s) {torrents : List Torrent} {worker : Option Worker}
    {timerId : Option Nat}
    (hworker : worker = s.worker ∧ timerId = s.updateTimerId ∨ s.pc = .running ∧
      (worker = s.worker ∨ idle s = true ∧ (worker = none ∨ worker = some .clear))) :
    Inv { s with torrents := torrents, worker := worker, updateTimerId := timerId } := by
  refine ⟨fun hrun => (h.kept hrun).frame rfl rfl rfl, fun hrun w hw => ?_, fun hend => ?_⟩
  · have hold : worker = s.worker ∨ worker = none ∨ worker = some .clear := by
      tauto
    obtain heq | rfl | rfl := hold
    · exact h.waits hrun w (heq.symm.trans hw)
    · cases hw
    · cases hw
      trivial
  · obtain ⟨rfl, rfl⟩ | ⟨hrun, -⟩ := hworker
    · exact h.ended hend
    · obtain hpc | hpc := hend
      · cases hrun.symm.trans hpc
      · cases hrun.symm.trans hpc

/-- **A step** keeps the invariant, and uses no id that was freed. -/
theorem step_inv (h : Inv s) (hposted : Posted s e) (hstep : step s e = some (t, r)) :
    Inv t ∧ r ≠ .fault .freed := by
  obtain ⟨_, _, _, rfl, rfl, hworker⟩ | ⟨-, hrun, hf⟩ | ⟨hpc, rfl, rfl⟩ | ⟨x, hrun, hx, hf, -⟩ :=
    step_cases h hposted hstep
  · exact ⟨h.rest hworker, by simp⟩
  · have hk := h.kept hrun
    have hspec := destroy_spec hk
    cases hd : destroy s with
    | error f =>
      rw [hd] at hspec
      exact hspec.elim
    | ok p =>
      rw [hd] at hspec hf
      obtain rfl : p = (t, r) := hf
      obtain heq | ⟨hr, hpc, hworker, hidle, htimer, -⟩ := hspec
      · cases heq
        exact ⟨⟨fun _ => hk.frame rfl rfl rfl, h.waits, h.ended⟩, by simp⟩
      · obtain rfl : r = .done := hr
        have hidle : idle t = true := by
          rw [← hidle, idle, hworker]
          rfl
        refine ⟨⟨fun hrun' => ?_, fun hrun' => ?_, fun _ => ⟨hidle, htimer⟩⟩, by simp⟩
        · cases hpc.symm.trans hrun'
        · cases hpc.symm.trans hrun'
  · refine ⟨⟨fun hrun => ?_, fun hrun => ?_, fun _ => h.ended (.inl hpc)⟩, by simp⟩
    · cases hrun
    · cases hrun
  · exact finish_good hrun hx hf

theorem Inv.start (torrents : List Torrent) (workqueue : Bool) (timerId : Option Nat) :
    Inv (start torrents workqueue timerId) := by
  refine ⟨fun _ => ⟨List.nodup_nil, fun a => ?_, List.nodup_nil, fun a ha => ?_⟩, fun _ w hw => ?_, ?_⟩
  · simp [DownloadsLife.start, entries]
  · cases ha
  · cases workqueue with
    | false => cases hw
    | true =>
      cases hw
      trivial
  · rintro (h | h) <;> cases h

/-- **The memory of the downloads window is safe.**  Whatever the order of messages, of steps of the
    worker and of torrents that come and go, no id is used or freed after it was freed, if the
    delegates that remove rows are posted; and a window that is destroyed has no worker and no timer
    left. -/
theorem downloads_memory_safe {torrents : List Torrent} {workqueue : Bool} {timerId : Option Nat}
    (h : Run (Guarded step Posted) (start torrents workqueue timerId) tr s) :
    (∀ a ∈ tr, a.2 ≠ .fault .freed) ∧
      (s.pc = .destroyed ∨ s.pc = .gone → idle s = true ∧ s.updateTimerId = none) := by
  have hinv : Inv s ∧ ∀ a ∈ tr, a.2 ≠ .fault .freed := by
    refine h.history (P := fun tr s => Inv s ∧ ∀ a ∈ tr, a.2 ≠ Result.fault .freed)
      ⟨.start torrents workqueue timerId, fun a ha => by cases ha⟩ ?_
    intro tr s a t ⟨hs, htr⟩ ⟨hposted, hstep⟩
    obtain ⟨ht, hr⟩ := step_inv hs hposted hstep
    refine ⟨ht, fun b hb => ?_⟩
    obtain hold | hlast := List.mem_append.mp hb
    · exact htr b hold
    · exact List.mem_singleton.mp hlast ▸ hr
  exact ⟨hinv.2, hinv.1.ended⟩

theorem posted_of_calm (h : Calm s e) : Posted s e := by
  cases e with
  | worker env => exact fun _ _ _ => h.2.2.2
  | add _ | remove _ | timer _ _ _ | destroy | cleanup | delegate _ => trivial

/-- Memory for a new entry, and delegates that are posted. -/
def supplied (name : CString) (id : Addr) : WorkerEnv := ⟨name, true, id, true, true⟩

/-- A torrent is listed, and its entry removed in the next pass; then the window is destroyed, after
    its timer has fired. -/
def visit : List Event :=
  [.worker (supplied [] 1), .worker (supplied [] 1), .worker (supplied "a (0%)".toList 1),
    .delegate true, .worker (supplied [] 2), .worker (supplied [] 2), .worker (supplied [] 2),
    .delegate true, .timer 7 true (some 8), .remove 5, .timer 8 true (some 9),
    .worker (supplied [] 2), .worker (supplied [] 2), .worker (supplied [] 2), .delegate true,
    .destroy, .worker (supplied [] 2), .worker (supplied [] 2), .delegate true, .timer 9 true none,
    .destroy, .cleanup]

theorem calm_visit : ∀ t, ∀ e ∈ visit, Calm t e := by
  intro t
  simp [visit, Calm, supplied]

theorem downloads_memory_safe_visit : ∃ tr s,
    Run (Guarded step Posted) (start [⟨5, "a".toList⟩] true (some 7)) tr s ∧ s.pc = .gone ∧
      idle s = true ∧ ∀ a ∈ tr, a.2 ≠ .fault .freed := by
  obtain ⟨r, hr, hpc⟩ : ∃ r ∈ exec step (start [⟨5, "a".toList⟩] true (some 7)) visit,
      r.1.pc = .gone := by decide +kernel
  have hposted : ∀ t, ∀ e ∈ visit, Posted t e := fun t e he => posted_of_calm (calm_visit t e he)
  have hrun := guarded_run_of_exec visit hposted hr
  have hsafe := downloads_memory_safe hrun
  exact ⟨r.2, r.1, hrun, hpc, (hsafe.2 (.inr hpc)).1, hsafe.1⟩

/-! ## What is freed in the end -/

/-- The entry without a row that the worker is about to give one, or to free. -/
def InFlight : Option Worker → Addr → Prop
  | some (.adding _ id _), a => a = id
  | some (.removed id _), a => a = id
  | _, _ => False

/-- The entries have their rows, and nothing is left of a window that is destroyed. -/
structure Full (s : State) : Prop where
  rows : s.pc = .running → ∀ a ∈ entries s, a ∈ DownloadsLife.rows s ∨ InFlight s.worker a
  freed : s.pc = .destroyed ∨ s.pc = .gone → ∀ a, s.ids a = none

/-- Each entry has a row, or is on its way. -/
def Covered (s : State) : Prop := ∀ a ∈ entries s, a ∈ rows s ∨ InFlight s.worker a

theorem Covered.rows (h : Covered s) (hidle : idle s = true) : ∀ a ∈ entries s, a ∈ rows s := by
  intro a ha
  obtain hrow | hflight := h a ha
  · exact hrow
  · obtain hw | hw := WorkerWindow.idle_iff.mp hidle
    · rw [hw] at hflight
      exact hflight.elim
    · rw [hw] at hflight
      exact hflight.elim

theorem updateentry_covered (h : ∀ a ∈ entries s, a ∈ rows s) (t : Torrent)
    (hcalm : Calm s (.worker env)) : Ensures (updateentry s t env) Covered fun _ => True := by
  obtain ⟨hmalloc, hid, hstrdup, hdelegate⟩ := hcalm
  unfold updateentry
  split
  · trivial
  · rw [ensures_ite]
    refine ⟨fun _ => trivial, fun _ a ha => .inl (h a ?_)⟩
    have ha : a ∈ (s.downloads.map (Download.update _ _)).map Download.id := ha
    rwa [map_id_of_keeps (Download.update_id _ _)] at ha
  · rw [ensures_ite]
    refine ⟨fun hfail => ?_, fun _ a ha => ?_⟩
    · simp [hmalloc, hid, hstrdup] at hfail
    · have ha : a ∈ env.id :: entries s := ha
      rw [hdelegate]
      obtain rfl | hold := List.mem_cons.mp ha
      · exact .inr rfl
      · exact .inl (h a hold)

theorem populatelistasync_covered (h : Covered s) (hw : s.worker = some w)
    (hcalm : Calm s (.worker env)) :
    Ensures (populatelistasync s env w) Covered fun _ => True := by
  have hfree (a : Addr) {todo : List Addr} (hrows : ∀ b ∈ entries s, b ∈ rows s ∨ b = a) :
      Ensures (freeentry s a todo) Covered fun _ => True := by
    unfold freeentry
    split
    · trivial
    · intro b hb
      have hb : b ∈ (s.downloads.filter (·.id ≠ a)).map Download.id := hb
      rw [map_id_filter, List.mem_filter] at hb
      obtain hrow | heq := hrows b hb.1
      · exact .inl hrow
      · exact absurd heq (by simpa using hb.2)
  rw [Covered, hw] at h
  cases w with
  | clear =>
    intro a ha
    have ha : a ∈ (s.downloads.map fun d => { d with updated := false }).map Download.id := ha
    rw [List.map_map] at ha
    exact .inl ((h a ha).resolve_right id)
  | next current =>
    simp only [populatelistasync]
    cases torrentNext s.torrents current with
    | some t | none => exact fun a ha => .inl ((h a ha).resolve_right id)
  | update t => exact updateentry_covered (fun a ha => (h a ha).resolve_right id) t hcalm
  | sweep todo =>
    cases todo with
    | nil =>
      simp only [populatelistasync, hcalm.2.2.2]
      exact fun a ha => .inl ((h a ha).resolve_right id)
    | cons b todo =>
      simp only [populatelistasync, hcalm.2.2.2]
      rw [ensures_ite]
      refine ⟨fun _ a ha => .inl ((h a ha).resolve_right id), fun _ a ha => ?_⟩
      have ha : a ∈ (s.downloads.map (Download.reset b)).map Download.id := ha
      rw [map_id_of_keeps (Download.reset_id b)] at ha
      exact .inl ((h a ha).resolve_right id)
  | removed a todo => exact hfree a h
  | updating _ _ _ | removing _ _ | refreshing | finished =>
    exact fun a ha => .inl ((h a ha).resolve_right id)
  | adding _ _ _ => exact fun a ha => hw ▸ h a ha

theorem delegate_covered (h : Covered s) (hw : s.worker = some w) {x : Except Fault State}
    (hx : delegate s true w = some x) : Ensures x Covered fun _ => True := by
  rw [Covered, hw] at h
  cases w with
  | updating t b name =>
    cases hx
    rw [ensures_map]
    refine (setitemtext_data _ _ s.items).mono (fun items hitems a ha => .inl ?_) fun _ _ => trivial
    show a ∈ items.map Item.data
    rw [hitems]
    exact (h a ha).resolve_right id
  | adding t b name =>
    cases hx
    intro a ha
    refine .inl (show a ∈ (s.items ++ [Item.mk b (some name)]).map Item.data from ?_)
    rw [List.map_append, List.mem_append]
    exact (h a ha).imp_right fun heq => List.mem_singleton.mpr heq
  | removing b todo =>
    cases hx
    intro a ha
    by_cases hab : a = b
    · exact .inr hab
    · refine .inl (show a ∈ (s.items.filter (·.data ≠ b)).map Item.data from ?_)
      rw [map_data_filter, List.mem_filter]
      exact ⟨(h a ha).resolve_right id, by simpa using hab⟩
  | refreshing =>
    cases hx
    exact fun a ha => .inl ((h a ha).resolve_right id)
  | clear | next _ | update _ | sweep _ | removed _ _ | finished => cases hx

theorem Full.step (h : Full s) (hs : Inv s) (hcalm : Calm s e) (hstep : step s e = some (t, r)) :
    Full t := by
  obtain ⟨_, worker, _, rfl, -, hworker⟩ | ⟨-, hrun, hf⟩ | ⟨hpc, rfl, -⟩ | ⟨x, hrun, hx, hf, hfrom⟩ :=
    step_cases hs (posted_of_calm hcalm) hstep
  · refine ⟨fun hrun a ha => ?_, h.freed⟩
    have hsame : worker = s.worker ∨ idle s = true := by
      tauto
    obtain rfl | hidle := hsame
    · exact h.rows hrun a ha
    · exact .inl (Covered.rows (h.rows hrun) hidle a ha)
  · have hk := hs.kept hrun
    have hspec := destroy_spec hk
    cases hd : destroy s with
    | error f =>
      rw [hd] at hspec
      exact hspec.elim
    | ok p =>
      rw [hd] at hspec hf
      obtain rfl : p = (t, r) := hf
      obtain heq | ⟨-, hpc, -, hidle, -, hids⟩ := hspec
      · cases heq
        exact ⟨h.rows, h.freed⟩
      · refine ⟨fun hrun' => ?_, fun _ a => ?_⟩
        · cases hpc.symm.trans hrun'
        · rw [hids a]
          split
          · rfl
          · rename_i hrow
            by_contra hlive
            exact hrow (Covered.rows (h.rows hrun) hidle a ((hk.live a).mp hlive))
  · refine ⟨fun hrun => ?_, fun _ => h.freed (.inl hpc)⟩
    cases hrun
  · have hcovered : Ensures x Covered fun _ => True := by
      obtain ⟨env, w, rfl, hw, -, rfl⟩ | ⟨memory, w, rfl, hw, hx'⟩ := hfrom
      · exact populatelistasync_covered (h.rows hrun) hw hcalm
      · obtain rfl : memory = true := hcalm
        exact delegate_covered (h.rows hrun) hw hx'
    cases x with
    | ok u =>
      cases hf
      have hpc : t.pc = .running := (congrArg (·.2.2) hx.main).trans hrun
      refine ⟨fun _ => hcovered, fun hend => ?_⟩
      obtain hend | hend := hend
      · cases hpc.symm.trans hend
      · cases hpc.symm.trans hend
    | error f =>
      cases hf
      refine ⟨fun hrun' => ?_, fun hend => ?_⟩
      · cases hrun'
      · obtain hend | hend := hend <;> cases hend

theorem Full.start (torrents : List Torrent) (workqueue : Bool) (timerId : Option Nat) :
    Full (start torrents workqueue timerId) := by
  refine ⟨fun _ a ha => ?_, fun hend => ?_⟩
  · cases ha
  · obtain hend | hend := hend <;> cases hend

/-- **What the downloads window frees.**  If nothing fails for the worker, no id of an entry is left
    when the window is destroyed. -/
theorem downloads_frees {torrents : List Torrent} {workqueue : Bool} {timerId : Option Nat}
    (h : Run (Guarded step Calm) (start torrents workqueue timerId) tr s)
    (hend : s.pc = .destroyed ∨ s.pc = .gone) (a : Addr) : s.ids a = none := by
  have hinv : Inv s ∧ Full s := by
    refine h.invariant (P := fun s => Inv s ∧ Full s)
      ⟨.start torrents workqueue timerId, .start torrents workqueue timerId⟩ ?_
    intro s ⟨e, r⟩ t ⟨hs, hfull⟩ ⟨hcalm, hstep⟩
    exact ⟨(step_inv hs (posted_of_calm hcalm) hstep).1, hfull.step hs hcalm hstep⟩
  exact hinv.2.freed hend a

theorem downloads_frees_visit : ∃ tr s,
    Run (Guarded step Calm) (start [⟨5, "a".toList⟩] true (some 7)) tr s ∧ s.pc = .gone ∧
      ∀ a, s.ids a = none := by
  obtain ⟨r, hr, hpc⟩ : ∃ r ∈ exec step (start [⟨5, "a".toList⟩] true (some 7)) visit,
      r.1.pc = .gone := by decide +kernel
  have hrun := guarded_run_of_exec visit calm_visit hr
  exact ⟨r.2, r.1, hrun, hpc, downloads_frees hrun (.inr hpc)⟩

end Mediabox.DownloadsLife
