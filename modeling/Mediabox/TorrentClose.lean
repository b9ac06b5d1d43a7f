import Mediabox.Lib.Mutex
import Mediabox.Lib.Tally
import Mediabox.Lib.Transition

/-!
# Closing a torrent stream (`src/lib/torrent_stream.cpp`)

`avbox_torrent_close` against threads that read and seek, and the read-ahead thread.  Of the
stream, only what the threads do to each other is here: `lock`, the two conditions, `closed`,
`user_waiting` and the length of `readahead_pieces`.  `Mediabox.TorrentStream` has the positions and
the bytes; here their tests may come out either way, with or without metadata.

* A step takes or releases `lock`, or is one piece of code under it.
* `pthread_cond_wait` releases `lock` and sleeps; a sleeping thread may wake up at any moment and
  then takes `lock` again.  A signal of `readahead_cond` wakes the read-ahead thread up if it
  sleeps; a signal of `user_cond` wakes up some reader, which is one of the moments above.
* Threads call `avbox_torrent_read` and `avbox_torrent_seek` again and again, also after a failure.

Main result: `close_clean`, for any number of threads.
-/

set_option autoImplicit false

namespace Mediabox.TorrentClose

open Transition Mutex

/-! ## Model -/

/-- Where a thread is in `avbox_torrent_read` or `avbox_torrent_seek`. -/
inductive UserPc where
  | idle
  /- `avbox_torrent_read` -/
  | reading
  | readTop
  /-- asleep in `pthread_cond_wait(&inst->user_cond, &inst->lock)` -/
  | waiting
  | waking
  | readWoken
  /-- at the code that uses `readahead_pieces` -/
  | copying
  | readLeave
  /- `avbox_torrent_seek` -/
  | seeking
  | seekTop
  /-- at the loop that empties `readahead_pieces` -/
  | clearing
  | seekLeave
deriving DecidableEq, Repr

/-- Where the read-ahead thread is. -/
inductive ReadaheadPc where
  | top
  | picking
  /-- asleep in `pthread_cond_wait(&inst->readahead_cond, &inst->lock)` -/
  | waiting
  | waking
  | woken
  | readLeave
  /-- reading the file -/
  | io
  | pushEnter
  /-- at the code that uses `readahead_pieces` -/
  | pushing
  | pushLeave
  | exitLeave
  | exited
deriving DecidableEq, Repr

/-- Where the thread is that runs `avbox_torrent_close`. -/
inductive CloserPc where
  | idle
  | entering
  | setting
  | polling
  | pollLeave
  | sleeping
  | closeLeave
  | signalling
  /-- in `avbox_delegate_wait` -/
  | joining
  /-- at the loop that empties `readahead_pieces` -/
  | emptying
  | finished
deriving DecidableEq, Repr

/-- Who holds `lock`; `other` are the threads of the session. -/
inductive Owner (τ : Type*) where
  | user (t : τ)
  | readahead
  | closer
  | other
deriving DecidableEq, Repr

structure State (τ : Type*) where
  users : τ → UserPc
  readahead : ReadaheadPc
  closer : CloserPc
  lock : Option (Owner τ)
  closed : Bool
  userWaiting : Nat
  /-- the length of `readahead_pieces` -/
  pieces : Nat
  /-- a thread of the session is inside `lock` -/
  session : Bool

/-- A stream that is open. -/
def init {τ : Type*} : State τ where
  users := fun _ => .idle
  readahead := .top
  closer := .idle
  lock := none
  closed := false
  userWaiting := 0
  pieces := 0
  session := false

/-- How a test of the positions comes out for a reader. -/
inductive Available where
  | eof
  | blocks
  /-- there is something to copy; whether the first piece is done with -/
  | copies (pops : Bool)
deriving DecidableEq, Repr

/-- How the tests of the read-ahead thread come out. -/
inductive Ahead where
  /-- there is nothing to read, or enough was read -/
  | waits
  | reads
  /-- the file cannot be read -/
  | fails
  /-- a seek came in between -/
  | drops
  | pushes
deriving DecidableEq, Repr

inductive Event (τ : Type*) where
  /-- a call of `avbox_torrent_read` -/
  | read (t : τ)
  /-- a call of `avbox_torrent_seek` -/
  | seek (t : τ)
  /-- the thread goes on -/
  | user (t : τ) (a : Available)
  /-- the reader wakes up -/
  | wakeUser (t : τ)
  | readahead (a : Ahead)
  | wakeReadahead
  /-- `avbox_torrent_close` is called, or goes on -/
  | close
  /-- a thread of the session takes or releases the lock, or reports a piece -/
  | take
  | give
  | alert
deriving DecidableEq, Repr

section Code

variable {τ : Type*} [DecidableEq τ]

/-- `pthread_cond_signal(&inst->readahead_cond)`. -/
def signal : ReadaheadPc → ReadaheadPc
  | .waiting => .waking
  | pc => pc

/-- `pthread_mutex_lock`, then go on with `s'`. -/
def acquire (s : State τ) (o : Owner τ) (s' : State τ) : Option (State τ) :=
  if s.lock = none then some { s' with lock := some o } else none

def State.setUser (s : State τ) (t : τ) (pc : UserPc) : State τ :=
  { s with users := Function.update s.users t pc }

/-- `avbox_torrent_read` and `avbox_torrent_seek`. -/
def userStep (s : State τ) (t : τ) (a : Available) : Option (State τ) :=
  match s.users t with
  | .idle | .waiting => none
  | .reading => acquire s (.user t) (s.setUser t .readTop)
  | .readTop =>
    if s.closed then some (s.setUser t .readLeave)
    else
      match a with
      | .eof => some (s.setUser t .readLeave)
      | .blocks =>
        some { s.setUser t .waiting with userWaiting := s.userWaiting + 1, lock := none }
      | .copies _ => some (s.setUser t .copying)
  | .waking => acquire s (.user t) (s.setUser t .readWoken)
  | .readWoken =>
    match a with
    | .eof | .blocks => some { s.setUser t .readLeave with userWaiting := s.userWaiting - 1 }
    | .copies _ => some { s.setUser t .copying with userWaiting := s.userWaiting - 1 }
  | .copying =>
    some { s.setUser t .readLeave with
      pieces := if a = .copies true then s.pieces - 1 else s.pieces
      readahead := signal s.readahead }
  | .readLeave => some { s.setUser t .idle with lock := none }
  | .seeking => acquire s (.user t) (s.setUser t .seekTop)
  | .seekTop => some (s.setUser t (if s.closed then .seekLeave else .clearing))
  | .clearing =>
    some { s.setUser t .seekLeave with pieces := 0, readahead := signal s.readahead }
  | .seekLeave => some { s.setUser t .idle with lock := none }

/-- `readahead`. -/
def readaheadStep (s : State τ) (a : Ahead) : Option (State τ) :=
  match s.readahead, a with
  | .top, _ => acquire s .readahead { s with readahead := .picking }
  | .picking, a =>
    if s.closed then some { s with readahead := .exitLeave }
    else
      match a with
      | .waits => some { s with readahead := .waiting, lock := none }
      | .reads => some { s with readahead := .readLeave }
      | _ => none
  | .waking, _ => acquire s .readahead { s with readahead := .woken }
  | .woken, _ => some { s with readahead := .top, lock := none }
  | .readLeave, _ => some { s with readahead := .io, lock := none }
  | .io, .fails => some { s with readahead := .top }
  | .io, .reads => some { s with readahead := .pushEnter }
  | .pushEnter, _ => acquire s .readahead { s with readahead := .pushing }
  | .pushing, .drops => some { s with readahead := .pushLeave }
  | .pushing, .pushes => some { s with readahead := .pushLeave, pieces := s.pieces + 1 }
  | .pushLeave, _ => some { s with readahead := .top, lock := none }
  | .exitLeave, _ => some { s with readahead := .exited, lock := none }
  | _, _ => none

/-- `avbox_torrent_close`. -/
def closeStep (s : State τ) : Option (State τ) :=
  match s.closer with
  | .idle => some { s with closer := .entering }
  | .entering => acquire s .closer { s with closer := .setting }
  | .setting => some { s with closer := .polling, closed := true }
  -- a signal to one reader, and a moment of sleep without the lock
  | .polling =>
    some { s with closer := if s.userWaiting ≠ 0 then .pollLeave else .closeLeave }
  | .pollLeave => some { s with closer := .sleeping, lock := none }
  | .sleeping => acquire s .closer { s with closer := .polling }
  | .closeLeave => some { s with closer := .signalling, lock := none }
  | .signalling => some { s with closer := .joining, readahead := signal s.readahead }
  | .joining => if s.readahead = .exited then some { s with closer := .emptying } else none
  | .emptying =>
    some (if s.pieces = 0 then { s with closer := .finished }
      else { s with pieces := s.pieces - 1 })
  | .finished => none

/-- One step. -/
def step (s : State τ) : Event τ → Option (State τ × Unit)
  | .read t => if s.users t = .idle then some (s.setUser t .reading, ()) else none
  | .seek t => if s.users t = .idle then some (s.setUser t .seeking, ()) else none
  | .user t a => (userStep s t a).map (·, ())
  | .wakeUser t => if s.users t = .waiting then some (s.setUser t .waking, ()) else none
  | .readahead a => (readaheadStep s a).map (·, ())
  | .wakeReadahead => some ({ s with readahead := signal s.readahead }, ())
  | .close => (closeStep s).map (·, ())
  | .take => (acquire s .other { s with session := true }).map (·, ())
  | .give => if s.session then some ({ s with session := false, lock := none }, ()) else none
  | .alert => some ({ s with readahead := signal s.readahead }, ())

end Code

/-! ## What is asked -/

/-- The thread is in a section that uses `readahead_pieces`. -/
def UserPc.touches : UserPc → Bool
  | .copying | .clearing => true
  | _ => false

def ReadaheadPc.touches : ReadaheadPc → Bool
  | .pushing => true
  | _ => false

/-- `readahead_pieces` is left to the closer. -/
def Untouched {τ : Type*} (s : State τ) : Prop :=
  (∀ t, (s.users t).touches = false) ∧ s.readahead.touches = false

/-- `avbox_torrent_close` empties the queue. -/
def CloserPc.empties : CloserPc → Bool
  | .emptying | .finished => true
  | _ => false

/-- While the closer empties the queue and afterwards no other thread uses it, and the closer does
    not wait for a read-ahead thread that sleeps. -/
structure Clean {τ : Type*} [DecidableEq τ] (s : State τ) : Prop where
  untouched : s.closer.empties = true → ∀ tr t, Run (Step step) s tr t → Untouched t
  wakes : s.closer = .joining → s.readahead ≠ .waiting


/-! ## The invariant -/

/-- The points that hold `lock`. -/
def UserPc.holds : UserPc → Bool
  | .readTop | .readWoken | .copying | .readLeave | .seekTop | .clearing | .seekLeave => true
  | .idle | .reading | .waiting | .waking | .seeking => false

def ReadaheadPc.holds : ReadaheadPc → Bool
  | .picking | .woken | .readLeave | .pushing | .pushLeave | .exitLeave => true
  | .top | .waiting | .waking | .io | .pushEnter | .exited => false

def CloserPc.holds : CloserPc → Bool
  | .setting | .polling | .pollLeave | .closeLeave => true
  | .idle | .entering | .sleeping | .signalling | .joining | .emptying | .finished => false

/-- Who holds `lock`, as the points say. -/
def State.holds {τ : Type*} (s : State τ) : Owner τ → Bool
  | .user t => (s.users t).holds
  | .readahead => s.readahead.holds
  | .closer => s.closer.holds
  | .other => s.session

/-- The thread is counted in `user_waiting`. -/
def UserPc.waits : UserPc → Nat
  | .waiting | .waking | .readWoken => 1
  | _ => 0

/-- The thread does not come to the queue without a look at `closed`. -/
def UserPc.quiet : UserPc → Bool
  | .waiting | .waking | .readWoken | .copying | .clearing => false
  | _ => true

/-- `closed` is set. -/
def CloserPc.closes : CloserPc → Bool
  | .idle | .entering | .setting => false
  | _ => true

/-- No reader was waiting. -/
def CloserPc.polled : CloserPc → Bool
  | .closeLeave | .signalling | .joining | .emptying | .finished => true
  | _ => false

/-- The read-ahead thread was signalled. -/
def CloserPc.signalled : CloserPc → Bool
  | .joining | .emptying | .finished => true
  | _ => false

structure Inv {τ : Type*} [Fintype τ] (s : State τ) : Prop where
  locked : Locked s.lock s.holds
  closed : s.closer.closes = true → s.closed = true
  count : s.userWaiting = ∑ t, (s.users t).waits
  quiet : s.closer.polled = true → ∀ t, (s.users t).quiet = true
  signalled : s.closer.signalled = true → s.readahead ≠ .waiting
  joined : s.closer.empties = true → s.readahead = .exited

theorem init_inv {τ : Type*} [Fintype τ] : Inv (init : State τ) := by
  refine ⟨fun o => ?_, nofun, ?_, nofun, nofun, nofun⟩
  · cases o <;> exact ⟨nofun, nofun⟩
  · exact (Finset.sum_eq_zero fun _ _ => rfl).symm

theorem signal_ne_waiting (pc : ReadaheadPc) : signal pc ≠ .waiting := by
  cases pc <;> exact nofun

theorem signal_holds (pc : ReadaheadPc) : (signal pc).holds = pc.holds := by
  cases pc <;> rfl

theorem signal_exited {pc : ReadaheadPc} (h : pc = .exited) : signal pc = .exited := by
  rw [h]
  rfl

section Users

variable {τ : Type*} [DecidableEq τ] {s : State τ} {t : τ} {pc : UserPc} {lock : Option (Owner τ)}
  {w pieces : Nat} {ra : ReadaheadPc}

/-- A thread moved to `pc`; it may have signalled the read-ahead thread. -/
def State.moved (s : State τ) (t : τ) (pc : UserPc) (lock : Option (Owner τ)) (w pieces : Nat)
    (ra : ReadaheadPc) : State τ :=
  { s with
    users := Function.update s.users t pc
    lock := lock
    userWaiting := w
    pieces := pieces
    readahead := ra }

theorem moved_holds_self : (s.moved t pc lock w pieces ra).holds (.user t) = pc.holds := by
  simp [State.moved, State.holds]

theorem moved_holds_other (hra : ra = s.readahead ∨ ra = signal s.readahead) (o : Owner τ)
    (ho : o ≠ .user t) : (s.moved t pc lock w pieces ra).holds o = s.holds o := by
  cases o with
  | user t' =>
    have hne : t' ≠ t := fun heq => ho (heq ▸ rfl)
    simp [State.moved, State.holds, Function.update_of_ne hne]
  | readahead =>
    rcases hra with rfl | rfl
    · rfl
    · exact signal_holds _
  | closer | other => rfl

theorem moved_inv [Fintype τ] (h : Inv s)
    (hlock : Locked lock (s.moved t pc lock w pieces ra).holds)
    (hcount : w + (s.users t).waits = s.userWaiting + pc.waits)
    (hquiet : s.closer.polled = true → pc.quiet = true)
    (hra : ra = s.readahead ∨ ra = signal s.readahead) : Inv (s.moved t pc lock w pieces ra) := by
  refine ⟨hlock, h.closed, ?_, fun hp t' => ?_, fun hs => ?_, fun he => ?_⟩
  · have hsum := Tally.sum_update UserPc.waits s.users t pc
    rw [← h.count] at hsum
    show w = ∑ t', (Function.update s.users t pc t').waits
    omega
  · show (Function.update s.users t pc t').quiet = true
    by_cases heq : t' = t
    · subst heq
      rw [Function.update_self]
      exact hquiet hp
    · rw [Function.update_of_ne heq]
      exact h.quiet hp t'
  · rcases hra with rfl | rfl
    · exact h.signalled hs
    · exact signal_ne_waiting _
  · rcases hra with rfl | rfl
    · exact h.joined he
    · exact signal_exited (h.joined he)

/-- The thread moves without a change of the lock. -/
theorem moved_keep [Fintype τ] (h : Inv s) (hholds : pc.holds = (s.users t).holds)
    (hcount : w + (s.users t).waits = s.userWaiting + pc.waits)
    (hquiet : s.closer.polled = true → pc.quiet = true)
    (hra : ra = s.readahead ∨ ra = signal s.readahead) : Inv (s.moved t pc s.lock w pieces ra) := by
  refine moved_inv h (h.locked.keep fun o => ?_) hcount hquiet hra
  by_cases ho : o = .user t
  · subst ho
    rw [moved_holds_self]
    exact hholds
  · exact moved_holds_other hra o ho

theorem moved_acquire [Fintype τ] (h : Inv s) (hfree : s.lock = none) (hholds : pc.holds = true)
    (hcount : (s.users t).waits = pc.waits) (hquiet : (s.users t).quiet = true → pc.quiet = true) :
    Inv (s.moved t pc (some (.user t)) s.userWaiting s.pieces s.readahead) := by
  refine moved_inv h (h.locked.acquire hfree ?_ fun o ho => moved_holds_other (.inl rfl) o ho)
    (by omega) (fun hp => hquiet (h.quiet hp t)) (.inl rfl)
  rw [moved_holds_self]
  exact hholds

theorem moved_release [Fintype τ] (h : Inv s) (hheld : (s.users t).holds = true)
    (hholds : pc.holds = false) (hcount : w + (s.users t).waits = s.userWaiting + pc.waits)
    (hquiet : s.closer.polled = true → pc.quiet = true) :
    Inv (s.moved t pc none w s.pieces s.readahead) := by
  refine moved_inv h (h.locked.release (o := .user t) hheld ?_ fun o ho =>
    moved_holds_other (.inl rfl) o ho) hcount hquiet (.inl rfl)
  rw [moved_holds_self]
  exact hholds

end Users


theorem polled_of_signalled {pc : CloserPc} (h : pc.signalled = true) : pc.polled = true := by
  cases pc with
  | joining | emptying | finished => rfl
  | _ => cases h

section Steps

variable {τ : Type*} [Fintype τ] {s s' : State τ} {t : τ}

/-- After `closed` was set, the polling left no thread on its way to the queue. -/
theorem Inv.not_polled (h : Inv s) (hopen : s.closed ≠ true) : s.closer.polled ≠ true := by
  intro hp
  apply hopen
  apply h.closed
  cases hc : s.closer with
  | closeLeave | signalling | joining | emptying | finished => rfl
  | _ =>
    rw [hc] at hp
    cases hp

theorem userStep_inv [DecidableEq τ] {a : Available} (h : Inv s) (hstep : userStep s t a = some s') :
    Inv s' := by
  unfold userStep at hstep
  cases hpc : s.users t with
  | idle | waiting =>
    simp only [hpc] at hstep
    cases hstep
  | reading | seeking =>
    simp only [hpc] at hstep
    obtain ⟨hfree, heq⟩ := Option.ite_none_right_eq_some.mp hstep
    cases heq
    exact moved_acquire h hfree rfl (by rw [hpc]; rfl) fun _ => rfl
  | waking =>
    simp only [hpc] at hstep
    obtain ⟨hfree, heq⟩ := Option.ite_none_right_eq_some.mp hstep
    cases heq
    refine moved_acquire h hfree rfl (by rw [hpc]; rfl) fun hq => ?_
    rw [hpc] at hq
    cases hq
  | readTop =>
    simp only [hpc] at hstep
    split at hstep
    · cases hstep
      exact moved_keep h (by rw [hpc]; rfl) (by rw [hpc]; rfl) (fun _ => rfl) (.inl rfl)
    · rename_i hopen
      have hpolled := h.not_polled hopen
      cases a with
      | eof =>
        cases hstep
        exact moved_keep h (by rw [hpc]; rfl) (by rw [hpc]; rfl) (fun _ => rfl) (.inl rfl)
      | blocks =>
        cases hstep
        exact moved_release h (by rw [hpc]; rfl) rfl (by rw [hpc]; rfl)
          fun hp => absurd hp hpolled
      | copies pops =>
        cases hstep
        exact moved_keep h (by rw [hpc]; rfl) (by rw [hpc]; rfl) (fun hp => absurd hp hpolled)
          (.inl rfl)
  | readWoken =>
    simp only [hpc] at hstep
    have hpolled : s.closer.polled ≠ true := fun hp => by
      have hq := h.quiet hp t
      rw [hpc] at hq
      cases hq
    have hone : 1 ≤ s.userWaiting := by
      have hle := Tally.le_sum UserPc.waits s.users t
      rw [hpc, ← h.count] at hle
      exact hle
    cases a with
    | eof | blocks =>
      cases hstep
      refine moved_keep h (by rw [hpc]; rfl) ?_ (fun _ => rfl) (.inl rfl)
      rw [hpc]
      exact Nat.sub_add_cancel hone
    | copies pops =>
      cases hstep
      refine moved_keep h (by rw [hpc]; rfl) ?_ (fun hp => absurd hp hpolled) (.inl rfl)
      rw [hpc]
      exact Nat.sub_add_cancel hone
  | copying | clearing =>
    simp only [hpc] at hstep
    cases hstep
    exact moved_keep h (by rw [hpc]; rfl) (by rw [hpc]; rfl) (fun _ => rfl) (.inr rfl)
  | readLeave | seekLeave =>
    simp only [hpc] at hstep
    cases hstep
    exact moved_release h (by rw [hpc]; rfl) rfl (by rw [hpc]; rfl) fun _ => rfl
  | seekTop =>
    simp only [hpc] at hstep
    cases hstep
    split
    · exact moved_keep h (by rw [hpc]; rfl) (by rw [hpc]; rfl) (fun _ => rfl) (.inl rfl)
    · rename_i hopen
      exact moved_keep h (by rw [hpc]; rfl) (by rw [hpc]; rfl)
        (fun hp => absurd hp (h.not_polled hopen)) (.inl rfl)

theorem ahead_inv {pc : ReadaheadPc} {lock : Option (Owner τ)} {pieces : Nat} (h : Inv s)
    (hlock : Locked lock
      ({ s with readahead := pc, lock := lock, pieces := pieces } : State τ).holds)
    (hsignalled : s.closer.signalled = true → pc ≠ .waiting) (hrun : s.readahead ≠ .exited) :
    Inv { s with readahead := pc, lock := lock, pieces := pieces } :=
  ⟨hlock, h.closed, h.count, h.quiet, hsignalled, fun he => absurd (h.joined he) hrun⟩

theorem ahead_keep {pc : ReadaheadPc} {pieces : Nat} (h : Inv s)
    (hholds : pc.holds = s.readahead.holds) (hwait : pc ≠ .waiting) (hrun : s.readahead ≠ .exited) :
    Inv { s with readahead := pc, pieces := pieces } := by
  refine ahead_inv h (h.locked.keep fun o => ?_) (fun _ => hwait) hrun
  cases o with
  | readahead => exact hholds
  | user | closer | other => rfl

theorem ahead_acquire {pc : ReadaheadPc} (h : Inv s) (hfree : s.lock = none)
    (hholds : pc.holds = true) (hwait : pc ≠ .waiting) (hrun : s.readahead ≠ .exited) :
    Inv { s with readahead := pc, lock := some .readahead } := by
  refine ahead_inv h (h.locked.acquire hfree hholds fun o ho => ?_) (fun _ => hwait) hrun
  cases o with
  | readahead => exact absurd rfl ho
  | user | closer | other => rfl

theorem ahead_release {pc : ReadaheadPc} (h : Inv s) (hheld : s.readahead.holds = true)
    (hholds : pc.holds = false) (hsignalled : s.closer.signalled = true → pc ≠ .waiting)
    (hrun : s.readahead ≠ .exited) : Inv { s with readahead := pc, lock := none } := by
  refine ahead_inv h (h.locked.release (o := .readahead) hheld hholds fun o ho => ?_) hsignalled
    hrun
  cases o with
  | readahead => exact absurd rfl ho
  | user | closer | other => rfl

theorem readaheadStep_inv {a : Ahead} (h : Inv s) (hstep : readaheadStep s a = some s') :
    Inv s' := by
  have hrun : s.readahead ≠ .exited := by
    intro hpc
    simp only [readaheadStep, hpc] at hstep
    cases hstep
  cases hpc : s.readahead with
  | top | waking | pushEnter =>
    simp only [readaheadStep, hpc] at hstep
    obtain ⟨hfree, heq⟩ := Option.ite_none_right_eq_some.mp hstep
    cases heq
    exact ahead_acquire (s := s) h hfree rfl nofun hrun
  | picking =>
    simp only [readaheadStep, hpc] at hstep
    split at hstep
    · cases hstep
      exact ahead_keep h (by rw [hpc]; rfl) nofun hrun
    · rename_i hopen
      cases a with
      | waits =>
        cases hstep
        refine ahead_release h (by rw [hpc]; rfl) rfl (fun hs => ?_) hrun
        exact absurd (polled_of_signalled hs) (h.not_polled hopen)
      | reads =>
        cases hstep
        exact ahead_keep h (by rw [hpc]; rfl) nofun hrun
      | fails | drops | pushes => cases hstep
  | woken | readLeave | pushLeave | exitLeave =>
    simp only [readaheadStep, hpc] at hstep
    cases hstep
    exact ahead_release h (by rw [hpc]; rfl) rfl (fun _ => nofun) hrun
  | io =>
    cases a with
    | reads | fails =>
      simp only [readaheadStep, hpc] at hstep
      cases hstep
      exact ahead_keep h (by rw [hpc]; rfl) nofun hrun
    | waits | drops | pushes =>
      simp only [readaheadStep, hpc] at hstep
      cases hstep
  | pushing =>
    cases a with
    | drops | pushes =>
      simp only [readaheadStep, hpc] at hstep
      cases hstep
      exact ahead_keep h (by rw [hpc]; rfl) nofun hrun
    | waits | reads | fails =>
      simp only [readaheadStep, hpc] at hstep
      cases hstep
  | waiting | exited =>
    simp only [readaheadStep, hpc] at hstep
    cases hstep

/-- A signal of `readahead_cond` that is not sent by a caller. -/
theorem signal_inv (h : Inv s) : Inv { s with readahead := signal s.readahead } := by
  refine ⟨h.locked.keep fun o => ?_, h.closed, h.count, h.quiet, fun _ => signal_ne_waiting _,
    fun he => signal_exited (h.joined he)⟩
  cases o with
  | readahead => exact signal_holds _
  | user | closer | other => rfl

end Steps


section Closing

variable {τ : Type*} [Fintype τ] {s s' : State τ}

/-- With the lock, the closer sees every reader that has not returned in `user_waiting`. -/
theorem Inv.quiet_of_none (h : Inv s) (hheld : s.closer.holds = true) (hzero : s.userWaiting = 0)
    (t : τ) : (s.users t).quiet = true := by
  have hwaits : (s.users t).waits = 0 := by
    have hle := Tally.le_sum UserPc.waits s.users t
    rw [← h.count] at hle
    omega
  have hout : (s.users t).holds ≠ true := fun hin => by
    have hsame := h.locked.unique (show s.holds (.user t) = true from hin)
      (show s.holds .closer = true from hheld)
    cases hsame
  cases hpc : s.users t with
  | waiting | waking | readWoken =>
    rw [hpc] at hwaits
    cases hwaits
  | copying | clearing =>
    rw [hpc] at hout
    exact absurd rfl hout
  | _ => rfl

theorem closer_keep {pc : CloserPc} {closed : Bool} {ra : ReadaheadPc} {pieces : Nat} (h : Inv s)
    (hholds : pc.holds = s.closer.holds) (hra : ra.holds = s.readahead.holds)
    (hclosed : pc.closes = true → closed = true)
    (hquiet : pc.polled = true → ∀ t, (s.users t).quiet = true)
    (hsignalled : pc.signalled = true → ra ≠ .waiting)
    (hjoined : pc.empties = true → ra = .exited) :
    Inv { s with closer := pc, closed := closed, readahead := ra, pieces := pieces } := by
  refine ⟨h.locked.keep fun o => ?_, hclosed, h.count, hquiet, hsignalled, hjoined⟩
  cases o with
  | closer => exact hholds
  | readahead => exact hra
  | user | other => rfl

theorem closer_acquire {pc : CloserPc} (h : Inv s) (hfree : s.lock = none)
    (hholds : pc.holds = true) (hclosed : pc.closes = true → s.closed = true)
    (hpolled : pc.polled = false) : Inv { s with closer := pc, lock := some .closer } := by
  have hearly : pc.signalled ≠ true ∧ pc.empties ≠ true := by
    cases pc with
    | idle | entering | setting | polling | pollLeave | sleeping => exact ⟨nofun, nofun⟩
    | _ => cases hpolled
  refine ⟨h.locked.acquire hfree hholds fun o ho => ?_, hclosed, h.count, fun hp => ?_,
    fun hs => absurd hs hearly.1, fun he => absurd he hearly.2⟩
  · cases o with
    | closer => exact absurd rfl ho
    | user | readahead | other => rfl
  · rw [hpolled] at hp
    cases hp

theorem closer_release {pc : CloserPc} (h : Inv s) (hheld : s.closer.holds = true)
    (hholds : pc.holds = false) (hclosed : s.closed = true)
    (hquiet : pc.polled = true → ∀ t, (s.users t).quiet = true) (hsignalled : pc.signalled = false)
    (hempties : pc.empties = false) : Inv { s with closer := pc, lock := none } := by
  refine ⟨h.locked.release (o := .closer) hheld hholds fun o ho => ?_, fun _ => hclosed, h.count,
    hquiet, fun hs => ?_, fun he => ?_⟩
  · cases o with
    | closer => exact absurd rfl ho
    | user | readahead | other => rfl
  · rw [hsignalled] at hs
    cases hs
  · rw [hempties] at he
    cases he

theorem closeStep_inv (h : Inv s) (hstep : closeStep s = some s') : Inv s' := by
  have hclosed := h.closed
  have hquiet := h.quiet
  have hsignalled := h.signalled
  have hjoined := h.joined
  cases hpc : s.closer with
  | idle =>
    simp only [closeStep, hpc] at hstep
    cases hstep
    exact closer_keep h (by rw [hpc]; rfl) rfl nofun nofun nofun nofun
  | entering =>
    simp only [closeStep, hpc] at hstep
    obtain ⟨hfree, heq⟩ := Option.ite_none_right_eq_some.mp hstep
    cases heq
    exact closer_acquire (s := s) h hfree rfl nofun rfl
  | setting =>
    simp only [closeStep, hpc] at hstep
    cases hstep
    exact closer_keep h (by rw [hpc]; rfl) rfl (fun _ => rfl) nofun nofun nofun
  | polling =>
    simp only [closeStep, hpc] at hstep
    cases hstep
    rw [hpc] at hclosed
    split
    · exact closer_keep h (by rw [hpc]; rfl) rfl (fun _ => hclosed rfl) nofun nofun nofun
    · rename_i hzero
      refine closer_keep h (by rw [hpc]; rfl) rfl (fun _ => hclosed rfl) (fun _ => ?_) nofun nofun
      exact h.quiet_of_none (by rw [hpc]; rfl) (by simpa using hzero)
  | pollLeave =>
    simp only [closeStep, hpc] at hstep
    cases hstep
    rw [hpc] at hclosed
    exact closer_release h (by rw [hpc]; rfl) rfl (hclosed rfl) nofun rfl rfl
  | sleeping =>
    simp only [closeStep, hpc] at hstep
    obtain ⟨hfree, heq⟩ := Option.ite_none_right_eq_some.mp hstep
    cases heq
    rw [hpc] at hclosed
    exact closer_acquire (s := s) h hfree rfl (fun _ => hclosed rfl) rfl
  | closeLeave =>
    simp only [closeStep, hpc] at hstep
    cases hstep
    rw [hpc] at hclosed hquiet
    exact closer_release h (by rw [hpc]; rfl) rfl (hclosed rfl) (fun _ => hquiet rfl) rfl rfl
  | signalling =>
    simp only [closeStep, hpc] at hstep
    cases hstep
    rw [hpc] at hclosed hquiet
    exact closer_keep h (by rw [hpc]; rfl) (signal_holds _) (fun _ => hclosed rfl)
      (fun _ => hquiet rfl) (fun _ => signal_ne_waiting _) nofun
  | joining =>
    simp only [closeStep, hpc] at hstep
    obtain ⟨hexited, heq⟩ := Option.ite_none_right_eq_some.mp hstep
    cases heq
    rw [hpc] at hclosed hquiet hsignalled
    exact closer_keep h (by rw [hpc]; rfl) rfl (fun _ => hclosed rfl) (fun _ => hquiet rfl)
      (fun _ => hsignalled rfl) fun _ => hexited
  | emptying =>
    simp only [closeStep, hpc] at hstep
    cases hstep
    rw [hpc] at hclosed hquiet hsignalled hjoined
    split
    · exact closer_keep h (by rw [hpc]; rfl) rfl (fun _ => hclosed rfl) (fun _ => hquiet rfl)
        (fun _ => hsignalled rfl) fun _ => hjoined rfl
    · exact closer_keep h (by rw [hpc]) rfl (fun _ => hclosed rfl) (fun _ => hquiet rfl)
        (fun _ => hsignalled rfl) fun _ => hjoined rfl
  | finished =>
    simp only [closeStep, hpc] at hstep
    cases hstep

/-- **Every step** of every thread keeps the invariant. -/
theorem step_inv [DecidableEq τ] {e : Event τ} (h : Inv s) (hstep : step s e = some (s', ())) :
    Inv s' := by
  cases e with
  | read t | seek t =>
    obtain ⟨hidle, heq⟩ := Option.ite_none_right_eq_some.mp hstep
    cases heq
    exact moved_keep h (by rw [hidle]; rfl) (by rw [hidle]; rfl) (fun _ => rfl) (.inl rfl)
  | user t a =>
    obtain ⟨_, hu, heq⟩ := Option.map_eq_some_iff.mp hstep
    cases heq
    exact userStep_inv h hu
  | wakeUser t =>
    obtain ⟨hwaiting, heq⟩ := Option.ite_none_right_eq_some.mp hstep
    cases heq
    refine moved_keep h (by rw [hwaiting]; rfl) (by rw [hwaiting]; rfl) (fun hp => ?_) (.inl rfl)
    have hq := h.quiet hp t
    rw [hwaiting] at hq
    cases hq
  | readahead a =>
    obtain ⟨_, hr, heq⟩ := Option.map_eq_some_iff.mp hstep
    cases heq
    exact readaheadStep_inv h hr
  | wakeReadahead | alert =>
    cases hstep
    exact signal_inv h
  | close =>
    obtain ⟨_, hc, heq⟩ := Option.map_eq_some_iff.mp hstep
    cases heq
    exact closeStep_inv h hc
  | take =>
    obtain ⟨_, ht, heq⟩ := Option.map_eq_some_iff.mp hstep
    cases heq
    obtain ⟨hfree, heq⟩ := Option.ite_none_right_eq_some.mp ht
    cases heq
    refine ⟨h.locked.acquire hfree rfl fun o ho => ?_, h.closed, h.count, h.quiet, h.signalled,
      h.joined⟩
    cases o with
    | other => exact absurd rfl ho
    | user | readahead | closer => rfl
  | give =>
    obtain ⟨hin, heq⟩ := Option.ite_none_right_eq_some.mp hstep
    cases heq
    refine ⟨h.locked.release (o := .other) hin rfl fun o ho => ?_, h.closed, h.count, h.quiet,
      h.signalled, h.joined⟩
    cases o with
    | other => exact absurd rfl ho
    | user | readahead | closer => rfl

/-! ## Runs -/

omit [Fintype τ] in
theorem userStep_closer [DecidableEq τ] {t : τ} {a : Available} (hstep : userStep s t a = some s') :
    s'.closer = s.closer := by
  unfold userStep acquire at hstep
  (repeat' split at hstep) <;> cases hstep <;> rfl

omit [Fintype τ] in
theorem readaheadStep_closer {a : Ahead} (hstep : readaheadStep s a = some s') :
    s'.closer = s.closer := by
  unfold readaheadStep acquire at hstep
  (repeat' split at hstep) <;> cases hstep <;> rfl

omit [Fintype τ] in
/-- The closer does not go back. -/
theorem closeStep_empties (hempties : s.closer.empties = true) (hstep : closeStep s = some s') :
    s'.closer.empties = true := by
  cases hpc : s.closer with
  | emptying =>
    simp only [closeStep, hpc] at hstep
    cases hstep
    split
    · rfl
    · rfl
  | finished =>
    simp only [closeStep, hpc] at hstep
    cases hstep
  | _ =>
    rw [hpc] at hempties
    cases hempties

omit [Fintype τ] in
theorem step_empties [DecidableEq τ] {e : Event τ} (hempties : s.closer.empties = true)
    (hstep : step s e = some (s', ())) : s'.closer.empties = true := by
  cases e with
  | user t a =>
    obtain ⟨_, hu, heq⟩ := Option.map_eq_some_iff.mp hstep
    cases heq
    rw [userStep_closer hu]
    exact hempties
  | readahead a =>
    obtain ⟨_, hr, heq⟩ := Option.map_eq_some_iff.mp hstep
    cases heq
    rw [readaheadStep_closer hr]
    exact hempties
  | close =>
    obtain ⟨_, hc, heq⟩ := Option.map_eq_some_iff.mp hstep
    cases heq
    exact closeStep_empties hempties hc
  | take =>
    obtain ⟨_, ht, heq⟩ := Option.map_eq_some_iff.mp hstep
    cases heq
    obtain ⟨_, heq⟩ := Option.ite_none_right_eq_some.mp ht
    cases heq
    exact hempties
  | read | seek | wakeUser | give =>
    obtain ⟨_, heq⟩ := Option.ite_none_right_eq_some.mp hstep
    cases heq
    exact hempties
  | wakeReadahead | alert =>
    cases hstep
    exact hempties

theorem Inv.untouched (h : Inv s) (hempties : s.closer.empties = true) : Untouched s := by
  have hpolled : s.closer.polled = true := by
    cases hc : s.closer with
    | emptying | finished => rfl
    | _ =>
      rw [hc] at hempties
      cases hempties
  refine ⟨fun t => ?_, by rw [h.joined hempties]; rfl⟩
  have hquiet := h.quiet hpolled t
  cases hpc : s.users t with
  | copying | clearing =>
    rw [hpc] at hquiet
    cases hquiet
  | _ => rfl

end Closing

/-- **Closing is clean**: in every interleaving of `avbox_torrent_close` with any threads that read
    and seek and with the read-ahead thread, no other thread uses `readahead_pieces` from the moment
    on when the closer empties it, and the closer does not wait for a read-ahead thread that
    sleeps. -/
theorem close_clean {τ : Type*} [DecidableEq τ] [Fintype τ] {tr : List (Event τ × Unit)}
    {s : State τ} (hrun : Run (Step step) init tr s) : Clean s := by
  have hinv : Inv s := Run.invariant init_inv (fun _ _ _ h hstep => step_inv h hstep) hrun
  refine ⟨fun hempties tr' t hrun' => ?_, fun hjoining => ?_⟩
  · have hlater : Inv t ∧ t.closer.empties = true :=
      Run.invariant (P := fun t => Inv t ∧ t.closer.empties = true) ⟨hinv, hempties⟩
        (fun _ _ _ h hstep => ⟨step_inv h.1 hstep, step_empties h.2 hstep⟩) hrun'
    exact hlater.1.untouched hlater.2
  · exact hinv.signalled (by rw [hjoining]; rfl)

/-- A reader waits, the read-ahead thread has queued a piece and sleeps, and the stream is closed:
    the reader gives up, the read-ahead thread exits, and the piece is freed. -/
theorem close_clean_waiting_reader : ∃ tr s, Run (Step step) (init : State Bool) tr s ∧
    s.closer = .finished ∧ s.pieces = 0 ∧ Clean s := by
  have hrun : Run (Step step) (init : State Bool) _ _ := run_of_exec
    [.readahead .waits, .readahead .reads, .readahead .waits, .readahead .reads, .readahead .waits,
      .readahead .pushes, .readahead .waits, .readahead .waits, .readahead .waits, .read true,
      .user true .blocks, .user true .blocks, .close, .close, .close, .close, .close,
      .wakeUser true, .user true .blocks, .user true .blocks, .user true .blocks, .close, .close,
      .close, .close, .readahead .waits, .readahead .waits, .readahead .waits, .readahead .waits,
      .readahead .waits, .close, .close, .close] rfl
  exact ⟨_, _, hrun, rfl, rfl, close_clean hrun⟩

end Mediabox.TorrentClose
