import Mathlib.Data.List.Nodup
import Mathlib.Logic.Function.Basic
import Mediabox.Lib.Outcome
import Mediabox.Lib.Transition
import Mediabox.LibraryNames
import Mediabox.LinkedList
import Mediabox.WorkerWindow

/-!
# The library browser (`src/browser.c`)

The window that shows a directory of the library.  Its thread handles messages and runs what the
worker delegates to it; the worker is `__mbox_browser_loadlist`, which fills the list and the
playlist of the browser.

* Memory: the items that hang on the rows of the list (`items`), and those of the playlist
  (`files`).  A row of a file points into the playlist.
* A step is a message, a step of the worker, or a delegate of the worker that the thread of the
  window runs.  Messages come in any order; what the listview has selected, and what the directory
  and the allocator answer, comes with the step.
* `Kept` — the rows point to live items, and the rows of files into the playlist.

Main result: `browser_memory_safe`.
-/

set_option autoImplicit false

namespace Mediabox.Browser

open Transition Outcome Library
open WorkerWindow (Pc)

/-! ## The code -/

/-- The address of an item; 0 is `NULL`. -/
abbrev Addr := Nat

/-- `struct mbox_browser_playlist_item` -/
inductive LibraryItem where
  | dir (filepath : CString)
  | file (playlistItem : Addr)
  deriving DecidableEq, Repr

/-- `struct mbox_library_dirent` -/
structure Dirent where
  name : CString
  path : CString
  isdir : Bool
  deriving DecidableEq, Repr

/-- Where `__mbox_browser_loadlist` is. -/
inductive Worker where
  /-- in `mbox_browser_freeplaylist` -/
  | freeing (path : CString)
  /-- before the test of `inst->abort` -/
  | loop
  /-- waits for `mbox_browser_additem` -/
  | adding (title : CString) (item : Addr)
  /-- waits for `mbox_browser_updatewindow` -/
  | updating
  /-- after `end:` -/
  | closing
  | finished
  deriving DecidableEq, Repr

/-- `struct mbox_browser` and the memory of its items. -/
structure State where
  items : Addr → Option LibraryItem
  files : Addr → Option CString
  playlist : List Addr
  /-- the titles and the data of the rows of `menu` -/
  menu : List (CString × Addr)
  worker : Option Worker
  destroying : Bool
  selectTimerId : Option Nat
  dismissTimerId : Option Nat
  abort : Bool
  dotdot : Option CString
  pc : Pc

/-- `mbox_browser_new`, after `mbox_browser_loadlist(inst, "/")`. -/
def new (workqueue : Bool) : State where
  items := fun _ => none
  files := fun _ => none
  playlist := []
  menu := []
  worker := if workqueue then some (.freeing ['/']) else none
  destroying := false
  selectTimerId := none
  dismissTimerId := none
  abort := false
  dotdot := none
  pc := .running

inductive Fault where
  /-- the memory of an item that was freed -/
  | freed
  | assert
  /-- `abort()` -/
  | abort
  deriving DecidableEq, Repr

inductive Msg where
  | timer (id : Nat)
  | selected
  | dismissed
  | destroy
  | cleanup
  deriving DecidableEq, Repr

/-- What a handler gets from elsewhere. -/
structure Env where
  /-- the row that `avbox_listview_getselected` has -/
  row : Option Nat
  /-- `avbox_timer_register` -/
  timer : Option Nat
  /-- `mbox_shell_getactiveplayer` -/
  player : Bool
  /-- the allocations of `mbox_browser_loadlist` -/
  memory : Bool
  /-- `avbox_workqueue_delegate` -/
  workqueue : Bool
  deriving DecidableEq, Repr

inductive Result where
  /-- `AVBOX_DISPATCH_OK`, or a step of the worker -/
  | done
  /-- `AVBOX_DISPATCH_CONTINUE` -/
  | delayed
  /-- `SELECTED` is sent to the window again -/
  | selectAgain
  /-- `DISMISSED` is sent to the window again -/
  | dismissAgain
  /-- `DISMISSED` is sent to the parent -/
  | dismissed
  /-- `avbox_player_playlist`: the paths of the list, and the place of the selected item in it -/
  | play (paths : List CString) (selected : Option Nat)
  | fault (f : Fault)
  deriving DecidableEq, Repr

/-- `mbox_browser_freeitems`, called for each row. -/
def freeitems (s : State) : List (CString × Addr) → Except Fault State
  | [] => .ok s
  | (_, a) :: rows =>
    match s.items a with
    | none => .error .freed
    | some _ => freeitems { s with items := Function.update s.items a none } rows

/-- `mbox_browser_freeplaylistitem`, after `LIST_REMOVE`. -/
def freeplaylistitem (s : State) (a : Addr) : Except Fault State :=
  match s.files a with
  | none => .error .freed
  | some _ => .ok { s with
      files := Function.update s.files a none
      playlist := listRemove s.playlist a }

def freeplaylistLoop (s : State) : List Addr → Except Fault State
  | [] => .ok s
  | a :: l => do
    let s ← freeplaylistitem s a
    freeplaylistLoop s l

/-- `mbox_browser_freeplaylist` -/
def freeplaylist (s : State) : Except Fault State := freeplaylistLoop s s.playlist

/-- `mbox_browser_loadlist` -/
def loadlist (s : State) (path : CString) (env : Env) : Except Fault State :=
  if s.worker ≠ none then .error .assert
  else if s.destroying then .ok s
  else if !env.memory then .error .abort
  else do
    let s ← freeitems s s.menu
    .ok { s with
      menu := []
      abort := false
      worker := if env.workqueue then some (.freeing path) else none }

/-- The directory at `path` is loaded, after the worker; `again` does what is done while that is not
    finished. -/
def change (s : State) (path : CString) (env : Env) (again : State → State × Result) :
    Except Fault (State × Result) :=
  match s.worker with
  | none => do
    let s ← loadlist s path env
    .ok (s, .done)
  | some .finished => do
    let s ← loadlist { s with worker := none } path env
    .ok (s, .done)
  | some _ => .ok (again { s with abort := true })

/-- The paths of the playlist, which `avbox_player_playlist` copies. -/
def paths (s : State) : List Addr → Except Fault (List CString)
  | [] => .ok []
  | a :: l =>
    match s.files a with
    | none => .error .freed
    | some path => do
      let rest ← paths s l
      .ok (path :: rest)

/-- `avbox_player_playlist(player, &inst->playlist, playlist_item)`, which looks for the item in the
    list. -/
def play (s : State) (playlistItem : Addr) (env : Env) : Except Fault (State × Result) :=
  if playlistItem = 0 ∨ s.playlist = [] then .error .assert
  else if !env.player then .ok (s, .done)
  else do
    let l ← paths s s.playlist
    .ok (s, .play l (s.playlist.idxOf? playlistItem))

/-- A `SELECTED` or `DISMISSED` waits for its timer. -/
def pending (s : State) : Bool := s.selectTimerId.isSome || s.dismissTimerId.isSome

def timer (s : State) (id : Nat) : State × Result :=
  if s.selectTimerId = some id then ({ s with selectTimerId := none }, .selectAgain)
  else if s.dismissTimerId = some id then ({ s with dismissTimerId := none }, .dismissAgain)
  else (s, .done)

def selectLater (env : Env) (s : State) : State × Result :=
  match env.timer with
  | some id => ({ s with selectTimerId := some id }, .done)
  | none => (s, .selectAgain)

def dismissLater (env : Env) (s : State) : State × Result :=
  match env.timer with
  | some id => ({ s with dismissTimerId := some id }, .done)
  | none => (s, .dismissAgain)

def selected (s : State) (env : Env) : Except Fault (State × Result) :=
  match env.row.bind fun k => s.menu[k]? with
  | none => .ok (s, .done)
  | some (_, a) =>
    if pending s then .ok (s, .done)
    else
      match s.items a with
      | none => .error .freed
      | some (.dir filepath) => change s filepath env (selectLater env)
      | some (.file playlistItem) => play s playlistItem env

def dismissed (s : State) (env : Env) : Except Fault (State × Result) :=
  if pending s then .ok (s, .done)
  else
    match s.dotdot with
    | some path => change s path env (dismissLater env)
    | none => .ok (s, .dismissed)

def idle (s : State) : Bool := WorkerWindow.idle .finished s.worker

def destroy (s : State) : Except Fault (State × Result) :=
  let s := { s with destroying := true }
  if pending s then .ok (s, .delayed)
  else
    let s := { s with abort := s.abort || s.worker.isSome }
    if !idle s then .ok (s, .delayed)
    else do
      let s ← freeplaylist { s with dotdot := none }
      let s ← freeitems s s.menu
      .ok ({ s with menu := [], pc := .destroyed }, .done)

/-- `mbox_browser_messagehandler` -/
def messagehandler (s : State) (env : Env) : Msg → Except Fault (State × Result)
  | .timer id => .ok (timer s id)
  | .selected => selected s env
  | .dismissed => dismissed s env
  | .destroy => destroy s
  | .cleanup => .ok ({ s with pc := .gone }, .done)

/-- What `mbox_library_readdir` answers. -/
inductive Answer where
  | entry (ent : Dirent)
  /-- `errno == EAGAIN` -/
  | again
  | eof
  | error
  deriving DecidableEq, Repr

/-- What the worker gets from elsewhere; the addresses are what `malloc` returns for the item of the
    row and for the one of the playlist. -/
structure WorkerEnv where
  opendir : Bool
  readdir : Answer
  libraryItem : Addr
  playlistItem : Addr
  strdup : Bool
  /-- `avbox_application_delegate` -/
  delegate : Bool
  deriving DecidableEq, Repr

/-- `mbox_browser_addtoplaylist` -/
def addtoplaylist (s : State) (file : CString) (malloc : Addr) (strdup : Bool) : Option State :=
  if file.length = 0 then none
  else if malloc = 0 then none
  else if !strdup then none
  else some { s with
    files := Function.update s.files malloc (some file)
    playlist := listAdd s.playlist malloc }

/-- The row for an entry: its item is allocated, and `mbox_browser_additem` delegated. -/
def addentry (s : State) (ent : Dirent) (env : WorkerEnv) : State :=
  if env.libraryItem = 0 then { s with worker := some .closing }
  else if ent.isdir then
    if !env.strdup then { s with worker := some .closing }
    else { s with
      items := Function.update s.items env.libraryItem (some (.dir ent.path))
      worker := some (if env.delegate then .adding ent.name env.libraryItem else .loop) }
  else
    match addtoplaylist s ent.path env.playlistItem env.strdup with
    | none => { s with worker := some .closing }
    | some s => { s with
        items := Function.update s.items env.libraryItem (some (.file env.playlistItem))
        worker := some (if env.delegate then .adding ent.name env.libraryItem else .loop) }

/-- After the loop. -/
def updatewindow (s : State) (env : WorkerEnv) : State :=
  { s with worker := some (if env.delegate then .updating else .closing) }

/-- One round of the loop. -/
def readentry (s : State) (env : WorkerEnv) : State :=
  if s.abort then updatewindow s env
  else
    match env.readdir with
    | .again => s
    | .eof | .error => updatewindow s env
    | .entry ent =>
      if ent.name = ['.', '.'] then
        { s with dotdot := if env.strdup then some ent.path else none }
      else addentry s ent env

/-- `__mbox_browser_loadlist`, from where it is on. -/
def loadlistStep (s : State) (env : WorkerEnv) : Worker → Except Fault State
  | .freeing _ =>
    match s.playlist with
    | a :: _ => freeplaylistitem s a
    | [] =>
      if env.opendir then .ok { s with dotdot := none, worker := some .loop }
      else .ok { s with worker := some .closing }
  | .loop => .ok (readentry s env)
  | .closing => .ok { s with worker := some .finished }
  | .adding _ _ | .updating | .finished => .ok s

/-- A delegate of the worker; whether `avbox_listview_additem` has the memory for the row comes with
    it. -/
def delegate (s : State) (memory : Bool) : Worker → Option State
  | .adding title item => some { s with
      menu := if memory then s.menu ++ [(title, item)] else s.menu
      worker := some .loop }
  | .updating => some { s with worker := some .closing }
  | _ => none

inductive Event where
  | message (m : Msg) (env : Env)
  | worker (env : WorkerEnv)
  | delegate (memory : Bool)
  deriving DecidableEq, Repr

/-- The worker takes a step on its own. -/
def Worker.runs : Worker → Bool
  | .freeing _ | .loop | .closing => true
  | .adding _ _ | .updating | .finished => false

/-- The worker gets memory that is free. -/
def WorkerEnv.fresh (s : State) (env : WorkerEnv) : Bool :=
  (s.items env.libraryItem).isNone && (s.files env.playlistItem).isNone

/-- What ends with the first fault. -/
def finish (s : State) (x : Except Fault (State × Result)) : State × Result :=
  settle (fun f => ({ s with pc := .stopped }, .fault f)) x

def step (s : State) : Event → Option (State × Result)
  | .message m env =>
    if s.pc = (if m = .cleanup then .destroyed else .running) then
      some (finish s (messagehandler s env m))
    else none
  | .worker env =>
    match s.worker with
    | some w =>
      if s.pc ≠ .stopped && w.runs && env.fresh s then
        some (finish s ((loadlistStep s env w).map (·, .done)))
      else none
    | none => none
  | .delegate memory =>
    if s.pc = .stopped then none
    else (s.worker.bind (delegate s memory)).map (·, .done)

/-! ## What it is for -/

/-- The rows, with the one that the worker adds. -/
def rows (s : State) : List (CString × Addr) :=
  match s.worker with
  | some (.adding title item) => s.menu ++ [(title, item)]
  | _ => s.menu

/-- What the item points to is in the playlist. -/
def LibraryItem.Within (playlist : List Addr) : LibraryItem → Prop
  | .dir _ => True
  | .file a => a ∈ playlist

/-- The rows have items of their own, and the playlist has all files that are not freed. -/
structure Kept (s : State) : Prop where
  nodup : ((rows s).map Prod.snd).Nodup
  live : ∀ r ∈ rows s, ∃ item, s.items r.2 = some item ∧ item.Within s.playlist
  playlist : s.playlist.Nodup
  files : ∀ a, (∃ path, s.files a = some path) ↔ a ∈ s.playlist
  zero : 0 ∉ s.playlist

/-! ## The invariant -/

structure Inv (s : State) : Prop extends Kept s where
  freeing : ∀ path, s.worker = some (.freeing path) → s.menu = []
  alone : s.selectTimerId = none ∨ s.dismissTimerId = none
  waits : pending s = true → s.worker ≠ none ∧ s.abort = true
  bails : s.destroying = true → s.pc = .running → s.abort = true
  ended : s.pc = .destroyed ∨ s.pc = .gone →
    idle s = true ∧ s.playlist = [] ∧ s.menu = [] ∧ s.dotdot = none

variable {s t : State} {env : Env} {wenv : WorkerEnv} {a : Addr} {path : CString}

theorem Inv.new (workqueue : Bool) : Inv (new workqueue) := by
  have hrows : rows (Browser.new workqueue) = [] := by cases workqueue <;> rfl
  refine ⟨⟨?_, ?_, List.nodup_nil, fun a => ?_, List.not_mem_nil⟩, fun _ _ => rfl, .inl rfl, ?_,
    ?_, ?_⟩
  · rw [hrows]
    exact List.nodup_nil
  · rw [hrows]
    exact fun _ h => absurd h List.not_mem_nil
  · exact iff_of_false (fun ⟨_, h⟩ => absurd h (by simp [Browser.new])) List.not_mem_nil
  · exact fun h => absurd h (by simp [pending, Browser.new])
  · exact fun h => absurd h (by simp [Browser.new])
  · exact fun h => absurd h (by simp [Browser.new])

theorem rows_of_idle (h : idle s = true) : rows s = s.menu := by
  unfold rows
  rcases WorkerWindow.idle_iff.mp h with hw | hw <;> rw [hw]

/-! ## Freeing -/

theorem freeitems_eq {l : List (CString × Addr)} (hnodup : (l.map Prod.snd).Nodup)
    (hlive : ∀ r ∈ l, ∃ item, s.items r.2 = some item) : freeitems s l =
      .ok { s with items := fun a => if a ∈ l.map Prod.snd then none else s.items a } := by
  induction l generalizing s with
  | nil => simp [freeitems]
  | cons r l ih =>
    obtain ⟨title, a⟩ := r
    obtain ⟨item, hitem⟩ := hlive _ List.mem_cons_self
    obtain ⟨hnot, hnodup⟩ := List.nodup_cons.mp hnodup
    rw [freeitems, hitem]
    dsimp only
    rw [ih hnodup]
    · congr 2
      funext b
      by_cases hb : b = a
      · subst hb
        simp
      · simp only [List.map_cons, List.mem_cons, hb, false_or, Function.update_of_ne hb]
    · intro r hr
      have hne : r.2 ≠ a := fun heq => hnot (List.mem_map.mpr ⟨r, hr, heq⟩)
      dsimp only
      rw [Function.update_of_ne hne]
      exact hlive r (List.mem_cons_of_mem _ hr)

theorem freeplaylistitem_eq {l : List Addr} (h : Kept s) (hl : s.playlist = a :: l) :
    freeplaylistitem s a = .ok { s with files := Function.update s.files a none, playlist := l } := by
  obtain ⟨path, hpath⟩ := (h.files a).mpr (hl ▸ List.mem_cons_self)
  simp only [freeplaylistitem, hpath, listRemove, hl, List.erase_cons_head]

/-- The first file of the playlist is freed. -/
theorem Kept.tail {l : List Addr} (h : Kept s) (hl : s.playlist = a :: l) (hrows : rows s = []) :
    Kept { s with files := Function.update s.files a none, playlist := l } := by
  obtain ⟨hnot, hnodup⟩ := List.nodup_cons.mp (hl ▸ h.playlist)
  have hrows' : rows { s with files := Function.update s.files a none, playlist := l } = [] := hrows
  refine ⟨?_, ?_, hnodup, fun b => ?_, fun hmem => ?_⟩
  · rw [hrows']
    exact List.nodup_nil
  · rw [hrows']
    exact fun _ hr => absurd hr List.not_mem_nil
  · by_cases hb : b = a
    · subst hb
      simp [hnot]
    · dsimp only
      rw [Function.update_of_ne hb, h.files, hl, List.mem_cons]
      exact or_iff_right hb
  · exact h.zero (hl ▸ List.mem_cons_of_mem _ hmem)

theorem freeplaylistLoop_eq {l : List Addr} (hl : s.playlist = l) (hnodup : l.Nodup)
    (hfiles : ∀ a, (∃ path, s.files a = some path) ↔ a ∈ l) :
    freeplaylistLoop s l = .ok { s with files := fun _ => none, playlist := [] } := by
  induction l generalizing s with
  | nil =>
    have hnone : s.files = fun _ => none :=
      funext fun a => Option.eq_none_iff_forall_ne_some.mpr fun path hpath =>
        absurd ((hfiles a).mp ⟨path, hpath⟩) List.not_mem_nil
    rw [freeplaylistLoop, ← hnone, ← hl]
  | cons a l ih =>
    obtain ⟨path, hpath⟩ := (hfiles a).mpr List.mem_cons_self
    obtain ⟨hnot, hnodup⟩ := List.nodup_cons.mp hnodup
    rw [freeplaylistLoop]
    simp only [freeplaylistitem, hpath, listRemove, hl, List.erase_cons_head]
    refine ih rfl hnodup fun b => ?_
    by_cases hb : b = a
    · subst hb
      simp [hnot]
    · dsimp only
      rw [Function.update_of_ne hb, hfiles, List.mem_cons]
      exact or_iff_right hb

theorem freeplaylist_eq (h : Kept s) :
    freeplaylist s = .ok { s with files := fun _ => none, playlist := [] } :=
  freeplaylistLoop_eq rfl h.playlist h.files

theorem paths_ensures {l : List Addr} (hl : ∀ a ∈ l, ∃ path, s.files a = some path) :
    Ensures (paths s l) (fun ps => l.map s.files = ps.map some) fun _ => False := by
  induction l with
  | nil => rfl
  | cons a l ih =>
    obtain ⟨path, hpath⟩ := hl a List.mem_cons_self
    rw [paths, hpath]
    dsimp only
    rw [ensures_bind]
    refine (ih fun b hb => hl b (List.mem_cons_of_mem _ hb)).imp fun ps hps => ?_
    rw [ensures_ok, List.map_cons, List.map_cons, hpath, hps]

/-! ## The messages -/

theorem Inv.of_running (h : Kept t) (hfreeing : ∀ path, t.worker = some (.freeing path) → t.menu = [])
    (halone : t.selectTimerId = none ∨ t.dismissTimerId = none)
    (hwaits : pending t = true → t.worker ≠ none ∧ t.abort = true)
    (hbails : t.destroying = true → t.abort = true) (hrun : t.pc = .running) : Inv t :=
  ⟨h, hfreeing, halone, hwaits, fun hd _ => hbails hd, fun hend => by simp [hrun] at hend⟩

theorem Kept.frame (h : Kept s) (hrows : rows t = rows s) (hitems : t.items = s.items)
    (hfiles : t.files = s.files) (hplaylist : t.playlist = s.playlist) : Kept t := by
  refine ⟨hrows ▸ h.nodup, ?_, hplaylist ▸ h.playlist, ?_, hplaylist ▸ h.zero⟩
  · rw [hrows, hitems, hplaylist]
    exact h.live
  · rw [hfiles, hplaylist]
    exact h.files

theorem Kept.clear (h : Kept s) (hrows : rows t = []) (hfiles : t.files = s.files)
    (hplaylist : t.playlist = s.playlist) : Kept t := by
  refine ⟨?_, ?_, hplaylist ▸ h.playlist, ?_, hplaylist ▸ h.zero⟩
  · rw [hrows]
    exact List.nodup_nil
  · rw [hrows]
    exact fun _ hr => absurd hr List.not_mem_nil
  · rw [hfiles, hplaylist]
    exact h.files

theorem freeitems_menu (h : Kept s) (hidle : idle s = true) : freeitems s s.menu =
    .ok { s with items := fun a => if a ∈ s.menu.map Prod.snd then none else s.items a } := by
  have hrows := rows_of_idle hidle
  exact freeitems_eq (hrows ▸ h.nodup) fun r hr => (h.live r (hrows ▸ hr)).imp fun _ hi => hi.1

/-- What a handler may answer: an item that is played is in the list. -/
def Result.Found : Result → Prop
  | .play l k => ∃ i path, k = some i ∧ l[i]? = some path
  | .fault f => f = .abort
  | _ => True

/-- No item is new, and an item that is still there has its row if it had one. -/
def Moved (s t : State) : Prop :=
  ∀ a item, t.items a = some item →
    s.items a = some item ∧ (a ∈ (rows s).map Prod.snd → a ∈ (rows t).map Prod.snd)

theorem Moved.of_eq (hrows : rows t = rows s) (hitems : t.items = s.items) : Moved s t :=
  fun _ _ ha => ⟨hitems ▸ ha, fun hmem => hrows ▸ hmem⟩

theorem Moved.clear (hitems : t.items = fun a => if a ∈ (rows s).map Prod.snd then none else
    s.items a) : Moved s t := by
  intro a item ha
  rw [hitems] at ha
  dsimp only at ha
  split at ha
  · cases ha
  · rename_i hnot
    exact ⟨ha, fun hmem => absurd hmem hnot⟩

structure Good (s : State) (r : State × Result) : Prop where
  inv : Inv r.1
  found : r.2.Found
  moved : Moved s r.1

theorem loadlist_ensures (h : Inv s) (hrun : s.pc = .running) (hworker : s.worker = none)
    (hpending : pending s = false) :
    Ensures (loadlist s path env) (fun t => Inv t ∧ Moved s t) (· = .abort) := by
  have hidle : idle s = true := WorkerWindow.idle_iff.mpr (.inl hworker)
  rw [loadlist, if_neg (by simp [hworker]), ensures_ite]
  refine ⟨fun _ => ⟨h, Moved.of_eq rfl rfl⟩, fun hdest => ?_⟩
  rw [ensures_ite]
  refine ⟨fun _ => rfl, fun _ => ?_⟩
  rw [freeitems_menu h.toKept hidle]
  simp only [ensures_bind, ensures_ok]
  refine ⟨Inv.of_running (h.toKept.clear ?_ rfl rfl) (fun _ _ => rfl) h.alone ?_
    (fun hd => absurd hd hdest) hrun, Moved.clear ?_⟩
  · cases env.workqueue <;> rfl
  · exact fun hp => absurd (hp.symm.trans hpending) (by simp)
  · rw [rows_of_idle hidle]

/-- `AVBOX_DISPATCH_OK`, after a directory was changed to. -/
theorem change_ensures {again : State → State × Result} (h : Inv s) (hrun : s.pc = .running)
    (hpending : pending s = false)
    (hagain : ∀ s', Inv s' → s'.pc = .running → pending s' = false → s'.worker ≠ none →
      s'.abort = true → Good s' (again s')) :
    Ensures (change s path env again) (Good s) (· = .abort) := by
  unfold change
  split
  · rename_i hworker
    rw [ensures_bind]
    exact (loadlist_ensures h hrun hworker hpending).imp fun _ ht => ⟨ht.1, trivial, ht.2⟩
  · rename_i hworker
    have hrows : rows { s with worker := none } = rows s := by simp only [rows, hworker]
    have hfree : Inv { s with worker := none } := by
      refine Inv.of_running (h.toKept.frame hrows rfl rfl rfl) nofun h.alone ?_
        (fun hd => h.bails hd hrun) hrun
      exact fun hp => absurd (hp.symm.trans hpending) (by simp)
    rw [ensures_bind]
    refine (loadlist_ensures hfree hrun rfl hpending).imp fun t ht => ⟨ht.1, trivial, ?_⟩
    intro a item ha
    rw [← hrows]
    exact ht.2 a item ha
  · rename_i w _ hworker
    have hne : s.worker ≠ none := by rw [hworker]; simp
    have hsame : Inv { s with abort := true } :=
      Inv.of_running (h.toKept.frame rfl rfl rfl rfl) h.freeing h.alone (fun _ => ⟨hne, rfl⟩)
        (fun _ => rfl) hrun
    obtain ⟨hinv, hfound, hmoved⟩ := hagain _ hsame hrun hpending hne rfl
    exact ⟨hinv, hfound, hmoved⟩

theorem pending_eq_false : pending s = false ↔ s.selectTimerId = none ∧ s.dismissTimerId = none := by
  simp [pending]

theorem selectLater_found (h : Inv s) (hrun : s.pc = .running) (hpending : pending s = false)
    (hworker : s.worker ≠ none) (habort : s.abort = true) :
    Good s (selectLater env s) := by
  unfold selectLater
  split
  · exact ⟨Inv.of_running (h.toKept.frame rfl rfl rfl rfl) h.freeing
      (.inr (pending_eq_false.mp hpending).2) (fun _ => ⟨hworker, habort⟩) (fun _ => habort) hrun,
      trivial, Moved.of_eq rfl rfl⟩
  · exact ⟨h, trivial, Moved.of_eq rfl rfl⟩

theorem dismissLater_found (h : Inv s) (hrun : s.pc = .running) (hpending : pending s = false)
    (hworker : s.worker ≠ none) (habort : s.abort = true) :
    Good s (dismissLater env s) := by
  unfold dismissLater
  split
  · exact ⟨Inv.of_running (h.toKept.frame rfl rfl rfl rfl) h.freeing
      (.inl (pending_eq_false.mp hpending).1) (fun _ => ⟨hworker, habort⟩) (fun _ => habort) hrun,
      trivial, Moved.of_eq rfl rfl⟩
  · exact ⟨h, trivial, Moved.of_eq rfl rfl⟩

/-- **Playing** a file of a row: it is in the list that the player gets. -/
theorem play_ensures (h : Inv s) (ha : a ∈ s.playlist) :
    Ensures (play s a env) (Good s) (· = .abort) := by
  have hzero : a ≠ 0 := fun heq => h.zero (heq ▸ ha)
  rw [play, if_neg (not_or.mpr ⟨hzero, List.ne_nil_of_mem ha⟩), ensures_ite]
  refine ⟨fun _ => ⟨h, trivial, Moved.of_eq rfl rfl⟩, fun _ => ?_⟩
  rw [ensures_bind]
  refine (paths_ensures fun b hb => (h.files b).mpr hb).mono (fun l hl => ?_) fun _ hf => hf.elim
  obtain ⟨path, hpath⟩ := (h.files a).mpr ha
  obtain ⟨i, hi⟩ := Option.ne_none_iff_exists'.mp fun hnone =>
    List.idxOf?_eq_none_iff.mp hnone ha
  obtain ⟨hlt, hget, _⟩ := List.idxOf?_eq_some_iff.mp hi
  refine ⟨h, ⟨i, path, hi, ?_⟩, Moved.of_eq rfl rfl⟩
  have hat := congrArg (·[i]?) hl
  simpa [List.getElem?_map, List.getElem?_eq_getElem hlt, hget, hpath] using hat.symm

theorem timer_found (h : Inv s) (hrun : s.pc = .running) (id : Nat) :
    Good s (timer s id) := by
  have hbails (hd : s.destroying = true) : s.abort = true := h.bails hd hrun
  unfold timer
  split
  · rename_i hid
    refine ⟨Inv.of_running (h.toKept.frame rfl rfl rfl rfl) h.freeing (.inl rfl) ?_ hbails hrun,
      trivial, Moved.of_eq rfl rfl⟩
    exact fun _ => h.waits (by simp [pending, hid])
  split
  · rename_i hid
    refine ⟨Inv.of_running (h.toKept.frame rfl rfl rfl rfl) h.freeing (.inr rfl) ?_ hbails hrun,
      trivial, Moved.of_eq rfl rfl⟩
    exact fun _ => h.waits (by simp [pending, hid])
  · exact ⟨h, trivial, Moved.of_eq rfl rfl⟩

theorem selected_ensures (h : Inv s) (hrun : s.pc = .running) :
    Ensures (selected s env) (Good s) (· = .abort) := by
  unfold selected
  split
  · exact ⟨h, trivial, Moved.of_eq rfl rfl⟩
  rename_i title a hrow
  rw [ensures_ite]
  refine ⟨fun _ => ⟨h, trivial, Moved.of_eq rfl rfl⟩, fun hpending => ?_⟩
  have hpending : pending s = false := Bool.eq_false_iff.mpr hpending
  obtain ⟨k, -, hk⟩ := Option.bind_eq_some_iff.mp hrow
  have hmem : (title, a) ∈ rows s := by
    have hmenu := List.mem_of_getElem? hk
    unfold rows
    split
    · exact List.mem_append_left _ hmenu
    · exact hmenu
  obtain ⟨item, hitem, hwithin⟩ := h.live _ hmem
  rw [hitem]
  cases item with
  | dir filepath => exact change_ensures h hrun hpending fun _ h' hr hp hw ha =>
      selectLater_found h' hr hp hw ha
  | file playlistItem => exact play_ensures h hwithin

theorem dismissed_ensures (h : Inv s) (hrun : s.pc = .running) :
    Ensures (dismissed s env) (Good s) (· = .abort) := by
  rw [dismissed, ensures_ite]
  refine ⟨fun _ => ⟨h, trivial, Moved.of_eq rfl rfl⟩, fun hpending => ?_⟩
  have hpending : pending s = false := Bool.eq_false_iff.mpr hpending
  split
  · exact change_ensures h hrun hpending fun _ h' hr hp hw ha => dismissLater_found h' hr hp hw ha
  · exact ⟨h, trivial, Moved.of_eq rfl rfl⟩

/-- Where `DESTROY` is not delayed. -/
def closed (s : State) : State :=
  { s with
    items := fun a => if a ∈ s.menu.map Prod.snd then none else s.items a
    files := fun _ => none
    playlist := []
    menu := []
    destroying := true
    abort := s.abort || s.worker.isSome
    dotdot := none
    pc := .destroyed }

theorem destroy_eq (h : Kept s) (hpending : pending s = false) (hidle : idle s = true) :
    destroy s = .ok (closed s, .done) := by
  have hrows := rows_of_idle hidle
  have hfiles := freeplaylist_eq (s := { s with
    destroying := true
    abort := s.abort || s.worker.isSome
    dotdot := none }) (h.frame rfl rfl rfl rfl)
  have hitems := freeitems_eq (s := { s with
    files := fun _ => none
    playlist := []
    destroying := true
    abort := s.abort || s.worker.isSome
    dotdot := none }) (l := s.menu) (hrows ▸ h.nodup) fun r hr => (h.live r (hrows ▸ hr)).imp fun _ hi => hi.1
  have hnot : ¬(!idle s) = true := by simp [hidle]
  have hready : ¬pending s = true := by simp [hpending]
  unfold destroy
  rw [if_neg (by exact hready), if_neg (by exact hnot), hfiles]
  dsimp only [bind, Except.bind]
  rw [hitems]
  rfl

theorem destroy_ensures (h : Inv s) (hrun : s.pc = .running) :
    Ensures (destroy s) (Good s) (· = .abort) := by
  cases hpending : pending s with
  | true =>
    have habort := (h.waits hpending).2
    rw [destroy, if_pos (by exact hpending)]
    exact ⟨Inv.of_running (h.toKept.frame rfl rfl rfl rfl) h.freeing h.alone h.waits
      (fun _ => habort) hrun, trivial, Moved.of_eq rfl rfl⟩
  | false =>
    have hready (t : State) (ht : pending t = pending s) (hp : pending t = true) : False :=
      absurd (hp.symm.trans (ht.trans hpending)) (by simp)
    cases hidle : idle s with
    | false =>
      have hne : s.worker ≠ none := fun heq => by simp [idle, heq] at hidle
      rw [destroy, if_neg (by exact hready s rfl), if_pos (by exact congrArg (!·) hidle)]
      refine ⟨Inv.of_running (h.toKept.frame rfl rfl rfl rfl) h.freeing h.alone
        (fun hp => (hready _ rfl hp).elim) (fun _ => ?_) hrun, trivial, Moved.of_eq rfl rfl⟩
      simp [Option.isSome_iff_ne_none.mpr hne]
    | true =>
      rw [destroy_eq h.toKept hpending hidle]
      have hrows : rows (closed s) = [] := rows_of_idle (s := closed s) hidle
      refine ⟨⟨⟨?_, ?_, List.nodup_nil, fun b => ?_, List.not_mem_nil⟩, fun _ _ => rfl, h.alone,
        fun hp => (hready _ rfl hp).elim, nofun, fun _ => ⟨hidle, rfl, rfl, rfl⟩⟩, trivial,
        Moved.clear (by rw [rows_of_idle hidle]; rfl)⟩
      · rw [hrows]
        exact List.nodup_nil
      · rw [hrows]
        exact fun _ hr => absurd hr List.not_mem_nil
      · exact iff_of_false (fun ⟨_, hb⟩ => absurd hb (by simp [closed])) List.not_mem_nil

/-- **A message** leaves the invariant and reads nothing that was freed. -/
theorem messagehandler_ensures (h : Inv s) {m : Msg}
    (hpc : s.pc = if m = .cleanup then .destroyed else .running) :
    Ensures (messagehandler s env m) (Good s) (· = .abort) := by
  cases m with
  | timer id => exact timer_found h hpc id
  | selected => exact selected_ensures h hpc
  | dismissed => exact dismissed_ensures h hpc
  | destroy => exact destroy_ensures h hpc
  | cleanup =>
    refine ⟨⟨h.toKept.frame rfl rfl rfl rfl, h.freeing, h.alone, h.waits, nofun, fun _ => ?_⟩, trivial,
      Moved.of_eq rfl rfl⟩
    exact h.ended (.inl hpc)

/-! ## The worker -/

/-- What the worker leaves alone. -/
def State.main (s : State) : Option Nat × Option Nat × Bool × Bool × Pc :=
  (s.selectTimerId, s.dismissTimerId, s.abort, s.destroying, s.pc)

/-- A step of the worker. -/
theorem Inv.work (h : Inv s) (hbusy : idle s = false) (hkept : Kept t)
    (hfreeing : ∀ path, t.worker = some (.freeing path) → t.menu = []) (hworker : t.worker ≠ none)
    (hmain : t.main = s.main) : Inv t := by
  simp only [State.main, Prod.mk.injEq] at hmain
  obtain ⟨hselect, hdismiss, habort, hdest, hpc⟩ := hmain
  refine ⟨hkept, hfreeing, ?_, fun hp => ⟨hworker, ?_⟩, ?_, fun hend => ?_⟩
  · rw [hselect, hdismiss]
    exact h.alone
  · rw [habort]
    refine (h.waits ?_).2
    rwa [pending, hselect, hdismiss] at hp
  · rw [hdest, hpc, habort]
    exact h.bails
  · rw [hpc] at hend
    exact absurd ((h.ended hend).1.symm.trans hbusy) (by simp)

theorem Kept.push (h : Kept s) (hrows : rows s = s.menu) (hfresh : s.items a = none)
    {item : LibraryItem} (hwithin : item.Within s.playlist) (title : CString) (posted : Bool) :
    Kept { s with
      items := Function.update s.items a (some item)
      worker := some (if posted then .adding title a else .loop) } := by
  have hne (r : CString × Addr) (hr : r ∈ s.menu) : r.2 ≠ a := fun heq => by
    obtain ⟨_, hitem, _⟩ := h.live r (hrows ▸ hr)
    rw [heq, hfresh] at hitem
    cases hitem
  have hold (r : CString × Addr) (hr : r ∈ s.menu) :
      ∃ x, Function.update s.items a (some item) r.2 = some x ∧ x.Within s.playlist := by
    rw [Function.update_of_ne (hne r hr)]
    exact h.live r (hrows ▸ hr)
  have hnodup := hrows ▸ h.nodup
  cases posted with
  | false => exact ⟨hnodup, hold, h.playlist, h.files, h.zero⟩
  | true =>
    refine ⟨?_, fun r hr => ?_, h.playlist, h.files, h.zero⟩
    · show ((s.menu ++ [(title, a)]).map Prod.snd).Nodup
      rw [List.map_append, List.nodup_append]
      refine ⟨hnodup, List.nodup_singleton _, fun x hx y hy => ?_⟩
      obtain ⟨r, hr, rfl⟩ := List.mem_map.mp hx
      rw [List.mem_singleton.mp hy]
      exact hne r hr
    · rcases List.mem_append.mp hr with hr | hr
      · exact hold r hr
      · rw [List.mem_singleton.mp hr]
        exact ⟨item, Function.update_self .., hwithin⟩

/-- **`mbox_browser_addtoplaylist`** keeps the rows, and the new item is in the list. -/
theorem Kept.addtoplaylist (h : Kept s) {file : CString} {strdup : Bool}
    (hfresh : s.files a = none) (hadd : Browser.addtoplaylist s file a strdup = some t) :
    Kept t ∧ t = { s with files := t.files, playlist := a :: s.playlist } ∧ t.files a = some file := by
  simp only [Browser.addtoplaylist] at hadd
  split at hadd
  · cases hadd
  split at hadd
  · cases hadd
  rename_i hzero
  split at hadd
  · cases hadd
  cases hadd
  have hnot : a ∉ s.playlist := fun hmem => by
    obtain ⟨path, hpath⟩ := (h.files a).mpr hmem
    rw [hfresh] at hpath
    cases hpath
  refine ⟨⟨h.nodup, fun r hr => ?_, List.nodup_cons.mpr ⟨hnot, h.playlist⟩, fun b => ?_, ?_⟩, rfl,
    Function.update_self ..⟩
  · obtain ⟨item, hitem, hwithin⟩ := h.live r hr
    refine ⟨item, hitem, ?_⟩
    cases item with
    | dir _ => trivial
    | file b => exact List.mem_cons_of_mem _ hwithin
  · by_cases hb : b = a
    · subst hb
      simp [listAdd]
    · simp only [listAdd, Function.update_of_ne hb, h.files, List.mem_cons, hb, false_or]
  · simp only [listAdd, List.mem_cons, not_or]
    exact ⟨fun heq => hzero heq.symm, h.zero⟩

theorem WorkerEnv.fresh_iff : wenv.fresh s = true ↔
    s.items wenv.libraryItem = none ∧ s.files wenv.playlistItem = none := by
  simp [WorkerEnv.fresh]

theorem rows_of_loop (hloop : s.worker = some .loop) : rows s = s.menu := by
  unfold rows
  rw [hloop]

theorem addentry_inv (h : Inv s) (hloop : s.worker = some .loop) (hfresh : wenv.fresh s = true)
    (ent : Dirent) : Inv (addentry s ent wenv) := by
  obtain ⟨hitem, hfile⟩ := WorkerEnv.fresh_iff.mp hfresh
  have hbusy : idle s = false := by simp [idle, hloop]
  have hrows := rows_of_loop hloop
  have hclosing : Inv { s with worker := some .closing } :=
    h.work hbusy (h.toKept.frame hrows.symm rfl rfl rfl) nofun nofun rfl
  unfold addentry
  split
  · exact hclosing
  split
  · split
    · exact hclosing
    · refine h.work hbusy (h.toKept.push hrows hitem
        (show (LibraryItem.dir ent.path).Within s.playlist from trivial) ent.name wenv.delegate) ?_
        nofun rfl
      cases wenv.delegate <;> nofun
  split
  · exact hclosing
  · rename_i s' hadd
    obtain ⟨hkept, heq, -⟩ := h.toKept.addtoplaylist hfile hadd
    rw [heq] at hkept ⊢
    refine h.work hbusy (hkept.push hrows hitem List.mem_cons_self ent.name wenv.delegate) ?_ nofun
      rfl
    cases wenv.delegate <;> nofun

theorem updatewindow_inv (h : Inv s) (hloop : s.worker = some .loop) :
    Inv (updatewindow s wenv) := by
  refine h.work (by simp [idle, hloop]) (h.toKept.frame ?_ rfl rfl rfl) ?_ nofun rfl
  · rw [rows_of_loop hloop, updatewindow]
    cases wenv.delegate <;> rfl
  · unfold updatewindow
    cases wenv.delegate <;> nofun

theorem readentry_inv (h : Inv s) (hloop : s.worker = some .loop) (hfresh : wenv.fresh s = true) :
    Inv (readentry s wenv) := by
  unfold readentry
  split
  · exact updatewindow_inv h hloop
  split
  · exact h
  · exact updatewindow_inv h hloop
  · exact updatewindow_inv h hloop
  split
  · exact h.work (by simp [idle, hloop]) (h.toKept.frame rfl rfl rfl rfl) (fun path hp => by
      rw [hloop] at hp
      cases hp) (by rw [hloop]; nofun) rfl
  · exact addentry_inv h hloop hfresh _

/-- **A step of the worker** leaves the invariant, and frees only what is there. -/
theorem loadlistStep_ensures (h : Inv s) {w : Worker} (hw : s.worker = some w)
    (hruns : w.runs = true) (hfresh : wenv.fresh s = true) :
    Ensures (loadlistStep s wenv w) Inv fun _ => False := by
  have hbusy : idle s = false := by cases w <;> simp_all [idle, Worker.runs]
  cases w with
  | freeing path =>
    have hrows : rows s = [] := by
      unfold rows
      rw [hw, h.freeing path hw]
    simp only [loadlistStep]
    cases hl : s.playlist with
    | cons a l =>
      dsimp only
      rw [freeplaylistitem_eq h.toKept hl]
      exact h.work hbusy (h.toKept.tail hl hrows) (fun p _ => h.freeing path hw)
        (by rw [hw]; nofun) rfl
    | nil =>
      have hmenu := h.freeing path hw
      dsimp only
      rw [ensures_ite]
      exact ⟨fun _ => h.work hbusy (h.toKept.frame (hmenu.trans hrows.symm) rfl rfl hl.symm) nofun
          nofun rfl,
        fun _ => h.work hbusy (h.toKept.frame (hmenu.trans hrows.symm) rfl rfl hl.symm) nofun nofun
          rfl⟩
  | loop => exact readentry_inv h hw hfresh
  | closing =>
    have hrows : rows s = s.menu := by
      unfold rows
      rw [hw]
    exact h.work hbusy (h.toKept.frame hrows.symm rfl rfl rfl) nofun nofun rfl
  | adding _ _ | updating | finished => cases hruns

/-- **A delegate of the worker** leaves the invariant. -/
theorem delegate_inv (h : Inv s) {w : Worker} (hw : s.worker = some w) {memory : Bool}
    (ht : delegate s memory w = some t) : Inv t := by
  cases w with
  | adding title item =>
    cases ht
    have hrows : rows s = s.menu ++ [(title, item)] := by
      unfold rows
      rw [hw]
    refine h.work (by simp [idle, hw]) ?_ nofun nofun rfl
    cases memory with
    | true => exact h.toKept.frame hrows.symm rfl rfl rfl
    | false =>
      refine ⟨?_, fun r hr => h.live r (hrows ▸ List.mem_append_left _ hr), h.playlist, h.files, h.zero⟩
      have hnodup := hrows ▸ h.nodup
      rw [List.map_append, List.nodup_append] at hnodup
      exact hnodup.1
  | updating =>
    cases ht
    have hrows : rows s = s.menu := by
      unfold rows
      rw [hw]
    exact h.work (by simp [idle, hw]) (h.toKept.frame hrows.symm rfl rfl rfl) nofun nofun rfl
  | freeing _ | loop | closing | finished => cases ht

/-! ## Runs -/

variable {e : Event} {r : Result} {tr : List (Event × Result)} {workqueue : Bool}

theorem finish_eq {x : Except Fault (State × Result)} {Q : State × Result → Prop}
    {E : Fault → Prop} (hx : Ensures x Q E) (hs : finish s x = (t, r)) :
    (Q (t, r)) ∨ ∃ f, E f ∧ t = { s with pc := .stopped } ∧ r = .fault f := by
  have hend := hx.settle fun f => ({ s with pc := .stopped }, .fault f)
  rw [show settle _ x = (t, r) from hs] at hend
  exact hend.imp_right fun ⟨f, hf, heq⟩ => ⟨f, hf, congrArg Prod.fst heq, congrArg Prod.snd heq⟩

theorem Inv.stop (h : Inv s) : Inv { s with pc := .stopped } :=
  ⟨h.toKept.frame rfl rfl rfl rfl, h.freeing, h.alone, h.waits, fun _ hr => absurd hr (by simp),
    fun hend => absurd hend (by simp)⟩

/-- What a step is: a message, a step of the worker or one of its delegates. -/
theorem step_cases (h : step s e = some (t, r)) :
    (∃ m env, e = .message m env ∧ s.pc = (if m = .cleanup then .destroyed else .running) ∧
        finish s (messagehandler s env m) = (t, r)) ∨
      (∃ w wenv, e = .worker wenv ∧ s.worker = some w ∧ w.runs = true ∧ wenv.fresh s = true ∧
        finish s ((loadlistStep s wenv w).map (·, .done)) = (t, r)) ∨
      ∃ w memory, e = .delegate memory ∧ s.worker = some w ∧ delegate s memory w = some t ∧
        r = .done := by
  cases e with
  | message m env =>
    by_cases hpc : s.pc = (if m = .cleanup then .destroyed else .running)
    · rw [step, if_pos hpc] at h
      exact .inl ⟨m, env, rfl, hpc, Option.some.inj h⟩
    · rw [step, if_neg hpc] at h
      cases h
  | worker wenv =>
    simp only [step] at h
    split at h
    · rename_i w hw
      split at h
      · rename_i hok
        simp only [Bool.and_eq_true] at hok
        exact .inr (.inl ⟨w, wenv, rfl, hw, hok.1.2, hok.2, Option.some.inj h⟩)
      · cases h
    · cases h
  | delegate memory =>
    simp only [step] at h
    split at h
    · cases h
    obtain ⟨u, hu, heq⟩ := Option.map_eq_some_iff.mp h
    obtain ⟨w, hw, hdel⟩ := Option.bind_eq_some_iff.mp hu
    cases heq
    exact .inr (.inr ⟨w, memory, rfl, hw, hdel, rfl⟩)

theorem Inv.step (h : Inv s) (hstep : Browser.step s e = some (t, r)) : Inv t ∧ r.Found := by
  obtain ⟨m, env, rfl, hpc, hs⟩ | ⟨w, wenv, rfl, hw, hruns, hfresh, hs⟩ | ⟨w, memory, rfl, hw, ht, rfl⟩ :=
    step_cases hstep
  · rcases finish_eq (messagehandler_ensures h hpc) hs with hok | ⟨f, hf, rfl, rfl⟩
    · exact ⟨hok.inv, hok.found⟩
    · exact ⟨h.stop, hf⟩
  · have hx : Ensures ((loadlistStep s wenv w).map (·, Result.done))
        (fun p => Inv p.1 ∧ p.2.Found) fun _ => False :=
      ensures_map.mpr ((loadlistStep_ensures h hw hruns hfresh).imp fun _ hu => ⟨hu, trivial⟩)
    rcases finish_eq hx hs with hok | ⟨f, hf, -, -⟩
    · exact hok
    · exact hf.elim
  · exact ⟨delegate_inv h hw ht, trivial⟩

theorem Run.inv (h : Run (Step Browser.step) s tr t) (hs : Inv s) :
    Inv t ∧ ∀ a ∈ tr, a.2.Found := by
  refine h.history (P := fun tr t => Inv t ∧ ∀ a ∈ tr, a.2.Found)
    ⟨hs, fun _ ha => absurd ha List.not_mem_nil⟩ ?_
  rintro tr t ⟨e, r⟩ u ⟨ht, hpast⟩ hstep
  obtain ⟨hu, hr⟩ := ht.step hstep
  refine ⟨hu, fun a ha => ?_⟩
  rcases List.mem_append.mp ha with ha | ha
  · exact hpast a ha
  · rw [List.mem_singleton.mp ha]
    exact hr

/-- **The memory of the browser is safe**, in every order of messages, steps of the worker and
    delegates: the rows keep their items and the rows of files their places in the playlist, nothing
    is freed twice or read after it was freed, no assertion fails, and the player finds the selected
    file in the list that it gets. -/
theorem browser_memory_safe (h : Run (Step step) (new workqueue) tr s) :
    Kept s ∧ ∀ a ∈ tr, a.2 ≠ .fault .freed ∧ a.2 ≠ .fault .assert ∧
      ∀ l k, a.2 = .play l k → ∃ i path, k = some i ∧ l[i]? = some path := by
  obtain ⟨hinv, hpast⟩ := Run.inv h (Inv.new workqueue)
  refine ⟨hinv.toKept, fun a ha => ?_⟩
  have hfound := hpast a ha
  refine ⟨fun heq => ?_, fun heq => ?_, fun l k heq => ?_⟩
  · rw [heq] at hfound
    cases hfound
  · rw [heq] at hfound
    cases hfound
  · rw [heq] at hfound
    exact hfound

/-- A file is listed and played, and the browser destroyed when the worker is done. -/
def visit : List Event :=
  let answers (readdir : Answer) : WorkerEnv := ⟨true, readdir, 1, 1, true, true⟩
  let env : Env := ⟨some 0, some 7, true, true, true⟩
  [.worker (answers .eof), .worker (answers (.entry ⟨['a'], ['/', 'a'], false⟩)), .delegate true,
    .message .selected env, .message .destroy env, .worker ⟨true, .eof, 2, 2, true, true⟩,
    .delegate true, .worker ⟨true, .eof, 2, 2, true, true⟩, .message .destroy env]

theorem browser_memory_safe_visit : ∃ tr s, Run (Step step) (new true) tr s ∧
    tr.any (·.2 = .play [['/', 'a']] (some 0)) ∧ Kept s ∧
    ∀ a ∈ tr, a.2 ≠ .fault .freed ∧ a.2 ≠ .fault .assert ∧
      ∀ l k, a.2 = .play l k → ∃ i path, k = some i ∧ l[i]? = some path := by
  obtain ⟨tr, s, hrun, hplay⟩ := exists_run_of_exec step (new true)
    (fun tr _ => tr.any (·.2 = .play [['/', 'a']] (some 0))) visit (by decide +kernel)
  exact ⟨tr, s, hrun, hplay, browser_memory_safe hrun⟩

end Mediabox.Browser
