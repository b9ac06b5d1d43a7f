import Mathlib.Data.List.Basic
import Mediabox.Lib.Outcome
import Mediabox.Lib.Transition
import Mediabox.Player

/-!
# The shell and the status of the player (`src/shell.c`)

The control thread of the player posts each change of its status with `avbox_player_updatestatus`;
the main thread receives the changes in `mbox_shell_playerstatuschanged` and shows or hides the
welcome screen, its clock and the progress bar, while the user opens and closes the main menu.

* `playerstatuschanged` — the handler; what can be allocated comes with the message.
* `seen` — the status that the shell has seen last.
* `Shows` — the windows and the timer that belong to a status.
* `Supplied` — no message is lost, and there are windows and timers.

Main result: `shell_follows_player`.
-/

set_option autoImplicit false

namespace Mediabox.ShellStatus

open Transition Outcome
open Player (Status Path)

/-! ## The code -/

abbrev Addr := Nat

/-- A window and the pointer to it. -/
inductive Pointer where
  | null
  | live
  | freed
  deriving DecidableEq, Repr

/-- The variables of `shell.c`, and what they refer to. -/
structure Shell where
  /-- `clock_timer_id` -/
  clockTimerId : Int
  /-- the timers that are registered for the shell's clock -/
  timers : List Int
  /-- `main_window` is shown -/
  visible : Bool
  progress : Pointer
  progressbar : Pointer
  /-- `mainmenu`; 0 is `NULL` -/
  mainmenu : Addr
  /-- the menus that are not destroyed -/
  menus : List Addr
  /-- the setting `last_file` -/
  lastFile : Option Path
  deriving DecidableEq, Repr

inductive Fault where
  | freed
  | assert
  deriving DecidableEq, Repr

/-- What the handler gets from elsewhere. -/
structure Env where
  /-- `avbox_timer_register` -/
  register : Int
  /-- `avbox_window_new` -/
  window : Bool
  /-- `avbox_progressview_new` -/
  view : Bool
  /-- `avbox_player_getmediafile` -/
  mediaFile : Option Path
  deriving DecidableEq, Repr

/-- `mbox_shell_startclock` -/
def startclock (s : Shell) (env : Env) : Shell :=
  { s with
    clockTimerId := env.register
    timers := if env.register = -1 then s.timers else env.register :: s.timers }

/-- `mbox_shell_show` -/
def init (env : Env) : Shell :=
  startclock ⟨-1, [], true, .null, .null, 0, [], none⟩ env

/-- `avbox_object_destroy` of the window of the main menu, which is then forgotten. -/
def destroyMenu (s : Shell) : Except Fault Shell :=
  if s.mainmenu ∈ s.menus then .ok { s with mainmenu := 0, menus := s.menus.erase s.mainmenu }
  else .error .freed

/-- The main menu is closed when the player leaves `READY`. -/
def closeMenu (s : Shell) (status lastStatus : Status) (env : Env) : Except Fault Shell :=
  if lastStatus = .ready ∧ status ≠ .ready ∧ s.mainmenu ≠ 0 then
    destroyMenu { s with lastFile := env.mediaFile <|> s.lastFile }
  else .ok s

/-- `avbox_progressview_destroy` and `avbox_window_destroy` of the progress bar -/
def destroyProgress (s : Shell) : Except Fault Shell :=
  match s.progress, s.progressbar with
  | .null, _ => .ok s
  | _, .null => .error .assert
  | .live, .live => .ok { s with progress := .null, progressbar := .null }
  | _, _ => .error .freed

/-- The progress bar is closed when the player leaves `BUFFERING`. -/
def closeProgress (s : Shell) (status lastStatus : Status) : Except Fault Shell :=
  if lastStatus = .buffering ∧ status ≠ .buffering then destroyProgress s else .ok s

/-- Out of `READY` the welcome screen is hidden, and its clock cancelled. -/
def stopclock (s : Shell) (status : Status) : Shell :=
  if s.clockTimerId ≠ 0 ∧ status ≠ .ready then
    if s.clockTimerId ∈ s.timers then
      { s with
        visible := false
        timers := s.timers.erase s.clockTimerId
        clockTimerId := 0 }
    else { s with visible := false }
  else s

/-- `case MB_PLAYER_STATUS_READY` -/
def ready (s : Shell) (env : Env) : Except Fault Shell :=
  if s.clockTimerId = 0 then
    if s.visible then .error .assert
    else .ok (startclock { s with visible := true } env)
  else .ok s

/-- `case MB_PLAYER_STATUS_BUFFERING` -/
def buffering (s : Shell) (env : Env) : Except Fault Shell :=
  match s.progress, s.progressbar with
  | .null, .null =>
    if !env.window then .ok s
    else if !env.view then .ok { s with progress := .freed }
    else .ok { s with progress := .live, progressbar := .live }
  | .null, _ => .error .assert
  | _, .null => .error .assert
  | .live, .live => .ok s
  | _, _ => .error .freed

/-- The `switch` on the new status. -/
def enter (s : Shell) (status : Status) (env : Env) : Except Fault Shell :=
  match status with
  | .ready => ready s env
  | .buffering => buffering s env
  | .playing | .paused => if s.progress = .null then .ok s else .error .assert

/-- `mbox_shell_playerstatuschanged` -/
def playerstatuschanged (s : Shell) (status lastStatus : Status) (env : Env) :
    Except Fault Shell := do
  let s ← closeMenu s status lastStatus env
  let s ← closeProgress s status lastStatus
  enter (stopclock s status) status env

/-- `struct avbox_player_status_data` -/
structure StatusData where
  status : Status
  lastStatus : Status
  deriving DecidableEq, Repr

/-- The player, the messages on the way to the main thread, the oldest first, and the shell. -/
structure State where
  status : Status
  queue : List StatusData
  shell : Shell
  stopped : Bool
  deriving DecidableEq, Repr

def start (env : Env) : State := ⟨.ready, [], init env, false⟩

inductive Event where
  /-- `avbox_player_updatestatus`, and whether the message could be sent -/
  | updatestatus (status : Status) (sent : Bool)
  /-- the main thread handles the oldest message -/
  | receive (env : Env)
  /-- `MBI_EVENT_MENU`, with what `mbox_mainmenu_new` answers and whether the menu could be shown -/
  | menu (mainmenu : Addr) (shown : Bool)
  /-- `DISMISSED`, with its payload -/
  | dismissed (payload : Addr)
  deriving DecidableEq, Repr

inductive Result where
  | done
  | fault (f : Fault)
  deriving DecidableEq, Repr

def menu (s : Shell) (mainmenu : Addr) (shown : Bool) : Except Fault Shell :=
  if s.mainmenu ≠ 0 then .ok s
  else if mainmenu = 0 then .ok s
  else if shown then .ok { s with mainmenu := mainmenu, menus := mainmenu :: s.menus }
  else .ok { s with mainmenu := mainmenu }

/-- The shell after a call, or the end of the program. -/
def finish (s : State) : Except Fault Shell → State × Result
  | .ok shell => ({ s with shell := shell }, .done)
  | .error f => ({ s with stopped := true }, .fault f)

def step (s : State) (e : Event) : Option (State × Result) :=
  if s.stopped then none
  else
    match e with
    | .updatestatus status sent => some ({ s with
        status := status
        queue := if sent then s.queue ++ [⟨status, s.status⟩] else s.queue }, .done)
    | .receive env =>
      match s.queue with
      | [] => none
      | m :: queue => some (finish { s with queue := queue }
          (playerstatuschanged s.shell m.status m.lastStatus env))
    | .menu mainmenu shown =>
      if mainmenu ∈ s.shell.menus then none else some (finish s (menu s.shell mainmenu shown))
    | .dismissed payload =>
      some (finish s (if payload ≠ 0 ∧ payload = s.shell.mainmenu then destroyMenu s.shell
        else .ok s.shell))

/-! ## What it is for -/

/-- The status that the shell has seen last. -/
def seen (s : State) : Status :=
  match s.queue with
  | [] => s.status
  | m :: _ => m.lastStatus

/-- The welcome screen with one timer for its clock, the progress bar, and no menu but the one that
    is open. -/
structure Windows (s : Shell) (welcome bar : Bool) : Prop where
  visible : s.visible = welcome
  clock : s.timers = if welcome then [s.clockTimerId] else []
  timer : s.clockTimerId = 0 ↔ welcome = false
  progress : s.progress = if bar then .live else .null
  progressbar : s.progressbar = s.progress
  menu : s.menus = if s.mainmenu = 0 then [] else [s.mainmenu]

/-- The welcome screen is shown in `READY`, the progress bar in `BUFFERING`. -/
abbrev Shows (s : Shell) (status : Status) : Prop :=
  Windows s (status = .ready) (status = .buffering)

/-- The messages lead from one status to another. -/
def Leads : Status → List StatusData → Status → Prop
  | a, [], b => a = b
  | a, m :: l, b => m.lastStatus = a ∧ Leads m.status l b

def Env.Supplied (env : Env) : Prop := 0 < env.register ∧ env.window = true ∧ env.view = true

/-- Nothing fails. -/
def Supplied (_ : State) : Event → Prop
  | .updatestatus _ sent => sent = true
  | .receive env => env.Supplied
  | .menu _ shown => shown = true
  | .dismissed _ => True

instance (env : Env) : Decidable env.Supplied := inferInstanceAs (Decidable (_ ∧ _ ∧ _))

instance (s : State) : (e : Event) → Decidable (Supplied s e)
  | .updatestatus _ sent => inferInstanceAs (Decidable (sent = true))
  | .receive env => inferInstanceAs (Decidable env.Supplied)
  | .menu _ shown => inferInstanceAs (Decidable (shown = true))
  | .dismissed _ => isTrue trivial

/-! ## The handler -/

section Handler

variable {s : Shell} {status lastStatus : Status} {env : Env} {welcome bar : Bool}

theorem destroyMenu_windows (h : Windows s welcome bar) (hmenu : s.mainmenu ≠ 0) :
    Ensures (destroyMenu s) (fun t => Windows t welcome bar) fun _ => False := by
  have hmenus : s.menus = [s.mainmenu] := by rw [h.menu, if_neg hmenu]
  rw [destroyMenu, if_pos (hmenus ▸ List.mem_singleton_self _)]
  exact { h with menu := by simp [hmenus] }

theorem closeMenu_windows (h : Windows s welcome bar) :
    Ensures (closeMenu s status lastStatus env) (fun t => Windows t welcome bar)
      fun _ => False := by
  rw [closeMenu, ensures_ite]
  exact ⟨fun hmenu => destroyMenu_windows { h with } hmenu.2.2, fun _ => h⟩

theorem destroyProgress_windows (h : Windows s welcome bar) :
    Ensures (destroyProgress s) (fun t => Windows t welcome false) fun _ => False := by
  cases bar with
  | true =>
    have hprogress : s.progress = .live := h.progress
    have hbar : s.progressbar = .live := h.progressbar.trans hprogress
    simp only [destroyProgress, hprogress, hbar, ensures_ok]
    exact { h with progress := rfl, progressbar := rfl }
  | false =>
    have hprogress : s.progress = .null := h.progress
    simp only [destroyProgress, hprogress, ensures_ok]
    exact h

/-- The progress bar stays from one `BUFFERING` to another. -/
theorem closeProgress_windows (h : Shows s lastStatus) :
    Ensures (closeProgress s status lastStatus)
      (fun t => Windows t (lastStatus = .ready) (lastStatus = .buffering ∧ status = .buffering))
      fun _ => False := by
  rw [closeProgress, ensures_ite]
  constructor
  · intro hleft
    simpa [hleft.2] using destroyProgress_windows h
  · intro hstays
    rw [not_and_not_right] at hstays
    simpa [and_iff_left_of_imp hstays] using h

theorem stopclock_windows (h : Windows s welcome bar) :
    Windows (stopclock s status) (welcome && (status = .ready)) bar := by
  rw [stopclock]
  by_cases hstops : s.clockTimerId ≠ 0 ∧ status ≠ .ready
  · obtain ⟨htimer, hstatus⟩ := hstops
    have hwelcome : welcome = true := by
      simpa using fun hfalse => htimer (h.timer.mpr hfalse)
    have hclock : s.timers = [s.clockTimerId] := by rw [h.clock, if_pos hwelcome]
    rw [if_pos ⟨htimer, hstatus⟩, if_pos (hclock ▸ List.mem_singleton_self _)]
    exact { h with
      visible := by simp [hstatus]
      clock := by simp [hclock, hstatus]
      timer := by simp [hstatus] }
  · have hwelcome : (welcome && decide (status = .ready)) = welcome := by
      have htimer := h.timer
      cases welcome <;> simp_all
    rw [if_neg hstops, hwelcome]
    exact h

/-- The clock of a welcome screen that has just been shown. -/
theorem startclock_windows (h : Windows { s with clockTimerId := 0, visible := false } false bar)
    (hvisible : s.visible = true) (henv : env.Supplied) : Windows (startclock s env) true bar := by
  have hclock : s.timers = [] := h.clock
  have hpos := henv.1
  have hregister : env.register ≠ -1 := by omega
  have htimer : env.register ≠ 0 := by omega
  exact { h with
    visible := hvisible
    clock := by simp [startclock, hclock, hregister]
    timer := by simp [startclock, htimer] }

theorem ready_windows (h : Windows s welcome bar) (henv : env.Supplied) :
    Ensures (ready s env) (fun t => Windows t true bar) fun _ => False := by
  rw [ready, ensures_ite]
  constructor
  · intro htimer
    obtain rfl := h.timer.mp htimer
    rw [if_neg (by simp [h.visible])]
    exact startclock_windows { h with visible := rfl, timer := by simp } rfl henv
  · intro htimer
    have hwelcome : welcome = true := by
      simpa using fun hfalse => htimer (h.timer.mpr hfalse)
    exact hwelcome ▸ h

theorem buffering_windows (h : Windows s welcome bar) (henv : env.Supplied) :
    Ensures (buffering s env) (fun t => Windows t welcome true) fun _ => False := by
  obtain ⟨-, hwindow, hview⟩ := henv
  cases bar with
  | true =>
    have hprogress : s.progress = .live := h.progress
    have hbar : s.progressbar = .live := h.progressbar.trans hprogress
    simp only [buffering, hprogress, hbar, ensures_ok]
    exact h
  | false =>
    have hprogress : s.progress = .null := h.progress
    have hbar : s.progressbar = .null := h.progressbar.trans hprogress
    simp only [buffering, hprogress, hbar, hwindow, hview, Bool.not_true, Bool.false_eq_true,
      if_false, ensures_ok]
    exact { h with progress := rfl, progressbar := rfl }

theorem enter_shows
    (h : Windows s (lastStatus = .ready ∧ status = .ready)
      (lastStatus = .buffering ∧ status = .buffering)) (henv : env.Supplied) :
    Ensures (enter s status env) (fun t => Shows t status) fun _ => False := by
  cases status with
  | ready => simpa [enter, Shows] using ready_windows h henv
  | buffering => simpa [enter, Shows] using buffering_windows h henv
  | playing | paused =>
    have hprogress : s.progress = .null := by simpa using h.progress
    rw [enter, if_pos hprogress]
    simpa [Shows] using h

/-- **One message**: from the windows of the status before, the handler makes those of the status
    that it is told, and no assertion fails on the way. -/
theorem playerstatuschanged_shows (h : Shows s lastStatus) (henv : env.Supplied) :
    Ensures (playerstatuschanged s status lastStatus env) (fun t => Shows t status)
      fun _ => False := by
  simp only [playerstatuschanged, ensures_bind]
  refine (closeMenu_windows h).imp fun s h => ?_
  refine (closeProgress_windows h).imp fun s h => ?_
  exact enter_shows (by simpa using stopclock_windows h) henv

end Handler

/-! ## Whole runs -/

section Runs

variable {s t : State} {env : Env} {e : Event} {r : Result} {a b c : Status}

theorem Leads.snoc {l : List StatusData} (h : Leads a l b) : Leads a (l ++ [⟨c, b⟩]) c := by
  induction l generalizing a with
  | nil => exact ⟨h.symm, rfl⟩
  | cons m l ih => exact ⟨h.1, ih h.2⟩

/-- What holds of the player, the messages and the shell: the shell shows the status from which the
    messages lead to that of the player. -/
structure Inv (s : State) : Prop where
  shows : Shows s.shell (seen s)
  leads : Leads (seen s) s.queue s.status
  running : s.stopped = false

theorem start_inv (henv : env.Supplied) : Inv (start env) where
  shows := startclock_windows ⟨rfl, rfl, by simp, rfl, rfl, rfl⟩ rfl henv
  leads := rfl
  running := rfl

/-- What the shell makes of an event while the windows stay those of the same status. -/
theorem finish_inv {x : Except Fault Shell} (h : Inv s)
    (hx : Ensures x (fun shell => Shows shell (seen s)) fun _ => False)
    (hr : finish s x = (t, r)) : Inv t ∧ r = .done := by
  obtain ⟨shell, rfl, hshows⟩ := hx.exists_ok
  cases hr
  exact ⟨⟨hshows, h.leads, h.running⟩, rfl⟩

theorem menu_shows {shell : Shell} {mainmenu : Addr} (h : Shows shell a) :
    Ensures (menu shell mainmenu true) (fun t => Shows t a) fun _ => False := by
  rw [menu, ensures_ite]
  refine ⟨fun _ => h, fun hopen => ?_⟩
  have hmenus : shell.menus = [] := by simpa [not_not.mp hopen] using h.menu
  rw [ensures_ite]
  refine ⟨fun _ => h, fun hnew => ?_⟩
  rw [if_pos rfl]
  exact { h with menu := by simp [hmenus, hnew] }

/-- The oldest message is told from the status that the shell shows. -/
theorem receive_inv {m : StatusData} {queue : List StatusData} (h : Inv s)
    (hqueue : s.queue = m :: queue) (henv : env.Supplied)
    (hr : finish { s with queue := queue }
      (playerstatuschanged s.shell m.status m.lastStatus env) = (t, r)) : Inv t ∧ r = .done := by
  have hleads : Leads m.status queue s.status := by
    have hpast := h.leads
    rw [hqueue] at hpast
    exact hpast.2
  have hseen : ∀ shell, seen { s with queue := queue, shell := shell } = m.status := by
    intro shell
    cases queue with
    | nil => exact hleads.symm
    | cons m' queue => exact hleads.1
  have hshows : Shows s.shell m.lastStatus := by simpa [seen, hqueue] using h.shows
  have hcalled : Ensures (playerstatuschanged s.shell m.status m.lastStatus env)
      (fun t => Shows t m.status) fun _ => False := playerstatuschanged_shows hshows henv
  obtain ⟨shell, hshell, hnew⟩ := hcalled.exists_ok
  rw [hshell] at hr
  cases hr
  exact ⟨⟨(hseen shell).symm ▸ hnew, (hseen shell).symm ▸ hleads, h.running⟩, rfl⟩

theorem step_inv (h : Inv s) (hguard : Supplied s e) (hstep : step s e = some (t, r)) :
    Inv t ∧ r = .done := by
  have hrunning : ¬s.stopped = true := by simp [h.running]
  cases e with
  | updatestatus status sent =>
    obtain rfl : sent = true := hguard
    simp only [step, if_neg hrunning, if_pos, Option.some.injEq] at hstep
    cases hstep
    have hseen : seen { s with status := status, queue := s.queue ++ [⟨status, s.status⟩] } =
        seen s := by
      cases hqueue : s.queue <;> simp [seen, hqueue]
    refine ⟨⟨?_, ?_, h.running⟩, rfl⟩
    · simpa only [hseen] using h.shows
    · simpa only [hseen] using h.leads.snoc
  | receive env =>
    cases hqueue : s.queue with
    | nil => simp [step, hqueue] at hstep
    | cons m queue =>
      simp only [step, if_neg hrunning, hqueue, Option.some.injEq] at hstep
      exact receive_inv h hqueue hguard hstep
  | menu mainmenu shown =>
    obtain rfl : shown = true := hguard
    by_cases hused : mainmenu ∈ s.shell.menus
    · simp [step, hused] at hstep
    · simp only [step, if_neg hrunning, if_neg hused, Option.some.injEq] at hstep
      exact finish_inv h (menu_shows h.shows) hstep
  | dismissed payload =>
    simp only [step, if_neg hrunning, Option.some.injEq] at hstep
    refine finish_inv h ?_ hstep
    rw [ensures_ite]
    exact ⟨fun hmenu => destroyMenu_windows h.shows (hmenu.2 ▸ hmenu.1), fun _ => h.shows⟩

/-- **The shell follows the player**: along every run in which nothing fails, the windows are those
    of the status that the shell has seen last; the messages on the way lead from that status to
    the player's, so that with none on the way the windows are those of the player's status. -/
theorem shell_follows_player {tr : List (Event × Result)} (henv : env.Supplied)
    (h : Run (Guarded step Supplied) (start env) tr s) :
    Shows s.shell (seen s) ∧ Leads (seen s) s.queue s.status ∧
      (s.queue = [] → Shows s.shell s.status) ∧ ∀ a ∈ tr, a.2 = .done := by
  obtain ⟨hinv, hdone⟩ := Run.history (P := fun tr s => Inv s ∧ ∀ a ∈ tr, a.2 = .done)
    ⟨start_inv henv, by simp⟩
    (fun tr s a t hs hr => by
      obtain ⟨ht, hr⟩ := step_inv hs.1 hr.1 hr.2
      refine ⟨ht, fun b hb => ?_⟩
      rcases List.mem_append.mp hb with hpast | hlast
      · exact hs.2 b hpast
      · exact List.mem_singleton.mp hlast ▸ hr) h
  refine ⟨hinv.shows, hinv.leads, fun hqueue => ?_, hdone⟩
  simpa [seen, hqueue] using hinv.shows

/-- The menu is opened, a film is played, and ends while the shell still shows the progress bar. -/
def visit : List Event :=
  [.menu 7 true, .updatestatus .buffering true, .receive ⟨1, true, true, some ['a']⟩,
    .updatestatus .playing true, .updatestatus .ready true, .receive ⟨1, true, true, some ['a']⟩,
    .receive ⟨2, true, true, none⟩]

theorem shell_follows_player_visit : ∃ s : State,
    s.shell.timers = [2] ∧ s.shell.lastFile = some ['a'] ∧ Shows s.shell s.status := by
  have henv : Env.Supplied ⟨1, true, true, none⟩ := by decide
  obtain ⟨tr, s, hrun, htimers, hlast, hqueue⟩ := exists_run_of_guarded_exec step Supplied
    (start ⟨1, true, true, none⟩)
    (fun _ s => s.shell.timers = [2] ∧ s.shell.lastFile = some ['a'] ∧ s.queue = []) visit (by decide)
  exact ⟨s, htimers, hlast, (shell_follows_player henv hrun).2.2.1 hqueue⟩

end Runs

end Mediabox.ShellStatus
