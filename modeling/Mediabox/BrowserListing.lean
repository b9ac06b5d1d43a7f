import Mediabox.Browser
import Mediabox.PlayerPlaylist

/-!
# What the library browser shows (`src/browser.c`)

The rows, the playlist and the directory to go back to are those of the entries that the worker has
read, whatever messages come while it reads them.

* `Calm` — no allocation and no delegate of the worker fails.
* `Listing` — the entries read, and what is made of them.
* `listing_shown` — the listing, in every state in which a directory is shown.
* `browser_plays_in_order` — a file that is selected is played, and the player goes on through the
  files of the directory in their order.
-/

set_option autoImplicit false

namespace Mediabox.Browser

open Transition Outcome Library

/-! ## What it is for -/

/-- The entry is the directory to go back to. -/
def Dirent.back (ent : Dirent) : Bool := ent.name = ['.', '.']

/-- What a row shows and what it stands for. -/
def Dirent.row (ent : Dirent) : CString × Bool × Option CString := (ent.name, ent.isdir, some ent.path)

/-- What a row of the list shows and what its item stands for. -/
def target (s : State) (r : CString × Addr) : Option (CString × Bool × Option CString) :=
  (s.items r.2).map fun
    | .dir filepath => (r.1, true, some filepath)
    | .file a => (r.1, false, s.files a)

/-- The files among the entries, in their order. -/
def files (l : List Dirent) : List CString :=
  (l.filter fun ent => !ent.back && !ent.isdir).map Dirent.path

/-- The entries have their rows, the files also their places in the playlist, which `LIST_ADD`
    fills from its end. -/
structure Listing (s : State) (l : List Dirent) : Prop where
  rows : (rows s).map (target s) = (l.filter (!·.back)).map (some ·.row)
  playlist : s.playlist.map s.files = (files l).reverse.map some
  dotdot : s.dotdot = (l.filter Dirent.back).getLast?.map Dirent.path

/-- Nothing fails for the worker. -/
def Calm (_ : State) : Event → Prop
  | .worker env => env.libraryItem ≠ 0 ∧ env.playlistItem ≠ 0 ∧ env.strdup = true ∧
      env.delegate = true ∧ (match env.readdir with
        | .entry ent => ent.path ≠ []
        | _ => True)
  | .delegate memory => memory = true
  | .message _ _ => True

instance (s : State) : (e : Event) → Decidable (Calm s e)
  | .worker ⟨_, .entry _, _, _, _, _⟩ => inferInstanceAs (Decidable (_ ∧ _ ∧ _ ∧ _ ∧ _))
  | .worker ⟨_, .again, _, _, _, _⟩ => inferInstanceAs (Decidable (_ ∧ _ ∧ _ ∧ _ ∧ True))
  | .worker ⟨_, .eof, _, _, _, _⟩ => inferInstanceAs (Decidable (_ ∧ _ ∧ _ ∧ _ ∧ True))
  | .worker ⟨_, .error, _, _, _, _⟩ => inferInstanceAs (Decidable (_ ∧ _ ∧ _ ∧ _ ∧ True))
  | .delegate memory => inferInstanceAs (Decidable (memory = true))
  | .message _ _ => isTrue trivial

/-- The entries that the worker has read from the directory that it has opened. -/
def note (l : Option (List Dirent)) (s : State) (e : Event) (_ : Result) (_ : State) :
    Option (List Dirent) :=
  match s.worker, e with
  | some (.freeing _), .worker env => if s.playlist = [] ∧ env.opendir = true then some [] else none
  | some .loop, .worker env =>
    match s.abort, env.readdir with
    | false, .entry ent => l.map (· ++ [ent])
    | _, _ => l
  | _, _ => l

/-- A directory is shown: its worker is past the old playlist. -/
def Shows (s : State) : Prop :=
  s.pc = .running ∧ ∃ w, s.worker = some w ∧ ∀ path, w ≠ .freeing path

/-! ## The messages -/

variable {s t : State} {env : Env} {wenv : WorkerEnv} {a : Addr} {path : CString} {l : List Dirent}
  {ent : Dirent}

/-- What the listing depends on. -/
def State.listed (s : State) : (Addr → Option LibraryItem) × (Addr → Option CString) × List Addr ×
    List (CString × Addr) × Option Worker × Option CString :=
  (s.items, s.files, s.playlist, s.menu, s.worker, s.dotdot)

theorem Listing.of_eq (h : Listing s l) (hrows : Browser.rows t = Browser.rows s)
    (hitems : t.items = s.items) (hfiles : t.files = s.files) (hplaylist : t.playlist = s.playlist)
    (hdotdot : t.dotdot = s.dotdot) : Listing t l := by
  have htarget : target t = target s := by
    funext r
    simp only [target, hitems, hfiles]
  refine ⟨?_, ?_, hdotdot.trans h.dotdot⟩
  · rw [hrows, htarget]
    exact h.rows
  · rw [hplaylist, hfiles]
    exact h.playlist

/-- A message leaves the listing, or ends it. -/
def Left (s : State) (p : State × Result) : Prop := p.1.listed = s.listed ∨ ¬Shows p.1

theorem loadlist_left : Ensures (loadlist s path env) (fun t => ¬Shows t) fun _ => True := by
  rw [loadlist, ensures_ite]
  refine ⟨fun _ => trivial, fun hworker => ?_⟩
  have hworker : s.worker = none := by simpa using hworker
  rw [ensures_ite]
  refine ⟨fun _ => ?_, fun _ => ?_⟩
  · rintro ⟨-, w, hw, -⟩
    rw [hworker] at hw
    cases hw
  rw [ensures_ite]
  refine ⟨fun _ => trivial, fun _ => ?_⟩
  rw [ensures_bind]
  cases freeitems s s.menu with
  | error _ => trivial
  | ok t =>
    rintro ⟨-, w, hw, hfreeing⟩
    dsimp only at hw
    split at hw
    · cases hw
      exact hfreeing path rfl
    · cases hw

theorem change_left {again : State → State × Result} (hagain : Left s (again { s with abort := true })) :
    Ensures (change s path env again) (Left s) fun _ => True := by
  unfold change
  split
  · rw [ensures_bind]
    exact loadlist_left.imp fun _ ht => .inr ht
  · rw [ensures_bind]
    exact loadlist_left.imp fun _ ht => .inr ht
  · exact hagain

theorem freeing_left (x : Except Fault State) :
    Ensures (x >>= fun s => freeitems s s.menu >>= fun s =>
      .ok ({ s with menu := [], pc := .destroyed }, Result.done)) (fun p => ¬Shows p.1)
      fun _ => True := by
  cases x with
  | error _ => trivial
  | ok s =>
    rw [ensures_bind, ensures_ok, ensures_bind]
    cases freeitems s s.menu with
    | error _ => trivial
    | ok t =>
      rintro ⟨hpc, -⟩
      cases hpc

theorem messagehandler_left {m : Msg} :
    Ensures (messagehandler s env m) (Left s) fun _ => True := by
  cases m with
  | timer id =>
    show Left s (timer s id)
    unfold timer
    split
    · exact .inl rfl
    split
    · exact .inl rfl
    · exact .inl rfl
  | selected =>
    show Ensures (selected s env) _ _
    unfold selected
    split
    · exact .inl rfl
    split
    · exact .inl rfl
    split
    · trivial
    · refine change_left ?_
      unfold selectLater
      split <;> exact .inl rfl
    · rw [play, ensures_ite]
      refine ⟨fun _ => trivial, fun _ => ?_⟩
      rw [ensures_ite]
      refine ⟨fun _ => .inl rfl, fun _ => ?_⟩
      rw [ensures_bind]
      cases paths s s.playlist with
      | ok l => exact .inl rfl
      | error _ => trivial
  | dismissed =>
    show Ensures (dismissed s env) _ _
    unfold dismissed
    split
    · exact .inl rfl
    split
    · refine change_left ?_
      unfold dismissLater
      split <;> exact .inl rfl
    · exact .inl rfl
  | destroy =>
    show Ensures (destroy s) _ _
    unfold destroy
    rw [ensures_ite]
    refine ⟨fun _ => .inl rfl, fun _ => ?_⟩
    rw [ensures_ite]
    refine ⟨fun _ => .inl rfl, fun _ => ?_⟩
    exact (freeing_left _).imp fun _ hp => Or.inr hp
  | cleanup =>
    refine .inr ?_
    rintro ⟨hpc, -⟩
    cases hpc

/-! ## The worker -/

/-- The rows and the playlist before a new item and a new file. -/
theorem target_frame (h : Kept s) {r : CString × Addr} (hr : r ∈ rows s)
    (hitems : ∀ b, b ∈ (rows s).map Prod.snd → t.items b = s.items b)
    (hfiles : ∀ b, b ∈ s.playlist → t.files b = s.files b) : target t r = target s r := by
  obtain ⟨item, hitem, hwithin⟩ := h.live r hr
  unfold target
  rw [hitems r.2 (List.mem_map_of_mem hr), hitem]
  cases item with
  | dir _ => rfl
  | file b => simp only [Option.map_some, hfiles b hwithin]

theorem files_append (hback : ent.back = false) :
    files (l ++ [ent]) = files l ++ if ent.isdir then [] else [ent.path] := by
  unfold files
  cases hdir : ent.isdir <;> simp [hback, hdir]

/-- **An entry** gets its row, and a file its place in the playlist. -/
theorem addentry_listing (hs : Inv s) (h : Listing s l) (hloop : s.worker = some .loop)
    (hfresh : wenv.fresh s = true) (hback : ent.back = false) (hitem : wenv.libraryItem ≠ 0)
    (hfile : wenv.playlistItem ≠ 0) (hdup : wenv.strdup = true) (hdelegate : wenv.delegate = true)
    (hpath : ent.path ≠ []) : Listing (addentry s ent wenv) (l ++ [ent]) := by
  obtain ⟨hfreshItem, hfreshFile⟩ := WorkerEnv.fresh_iff.mp hfresh
  have hrows := rows_of_loop hloop
  have hnotItem : wenv.libraryItem ∉ (rows s).map Prod.snd := fun hmem => by
    obtain ⟨r, hr, heq⟩ := List.mem_map.mp hmem
    obtain ⟨item, hlive, -⟩ := hs.live r hr
    rw [heq, hfreshItem] at hlive
    cases hlive
  have hnotFile : wenv.playlistItem ∉ s.playlist := fun hmem => by
    obtain ⟨path, hlive⟩ := (hs.files _).mpr hmem
    rw [hfreshFile] at hlive
    cases hlive
  have hne (b : Addr) (hb : b ∈ (rows s).map Prod.snd) : b ≠ wenv.libraryItem :=
    fun heq => hnotItem (heq ▸ hb)
  have hneFile (b : Addr) (hb : b ∈ s.playlist) : b ≠ wenv.playlistItem :=
    fun heq => hnotFile (heq ▸ hb)
  have hlast : (l ++ [ent]).filter (!·.back) = l.filter (!·.back) ++ [ent] := by simp [hback]
  have hdots : (l ++ [ent]).filter Dirent.back = l.filter Dirent.back := by simp [hback]
  have hpathLen : ¬ent.path.length = 0 := fun hlen => hpath (List.length_eq_zero_iff.mp hlen)
  rw [addentry, if_neg hitem]
  cases hdir : ent.isdir with
  | true =>
    simp only [↓reduceIte, hdup, hdelegate, Bool.not_true, Bool.false_eq_true]
    refine ⟨?_, ?_, by rw [hdots]; exact h.dotdot⟩
    · show (s.menu ++ [_]).map _ = _
      rw [List.map_append, hlast, List.map_append, ← hrows, ← h.rows]
      congr 1
      · exact List.map_congr_left fun r hr => target_frame hs.toKept hr
          (fun b hb => Function.update_of_ne (hne b hb) _ _) fun _ _ => rfl
      · simp [target, Dirent.row, hdir]
    · rw [files_append hback, hdir, if_pos rfl, List.append_nil]
      exact h.playlist
  | false =>
    simp only [Bool.false_eq_true, ↓reduceIte, addtoplaylist, hpathLen, hfile, hdup, hdelegate,
      Bool.not_true]
    refine ⟨?_, ?_, by rw [hdots]; exact h.dotdot⟩
    · show (s.menu ++ [_]).map _ = _
      rw [List.map_append, hlast, List.map_append, ← hrows, ← h.rows]
      congr 1
      · exact List.map_congr_left fun r hr => target_frame hs.toKept hr
          (fun b hb => Function.update_of_ne (hne b hb) _ _)
          fun b hb => Function.update_of_ne (hneFile b hb) _ _
      · simp [target, Dirent.row, hdir]
    · rw [files_append hback, hdir, if_neg (by simp), List.reverse_append, List.map_append,
        ← h.playlist]
      exact congrArg₂ List.cons (Function.update_self ..)
        (List.map_congr_left fun b hb => Function.update_of_ne (hneFile b hb) _ _)

theorem updatewindow_listing (h : Listing s l) (hloop : s.worker = some .loop) :
    Listing (updatewindow s wenv) l := by
  refine h.of_eq ?_ rfl rfl rfl rfl
  rw [rows_of_loop hloop, updatewindow]
  cases wenv.delegate <;> rfl

/-- **A round of the loop** adds what it reads. -/
theorem readentry_listing (hs : Inv s) (h : Listing s l) (hloop : s.worker = some .loop)
    (hfresh : wenv.fresh s = true) (hcalm : Calm s (.worker wenv)) (r : Result) :
    ∃ l', note (some l) s (.worker wenv) r t = some l' ∧ Listing (readentry s wenv) l' := by
  obtain ⟨hitem, hfile, hdup, hdelegate, hpath⟩ := hcalm
  simp only [note, hloop]
  unfold readentry
  cases habort : s.abort with
  | true => exact ⟨l, rfl, updatewindow_listing h hloop⟩
  | false =>
    rw [if_neg (by simp)]
    cases hread : wenv.readdir with
    | again => exact ⟨l, rfl, h⟩
    | eof | error => exact ⟨l, rfl, updatewindow_listing h hloop⟩
    | entry ent =>
      rw [hread] at hpath
      refine ⟨l ++ [ent], rfl, ?_⟩
      dsimp only
      cases hback : ent.back with
      | false =>
        have hname : ¬ent.name = ['.', '.'] := by simpa [Dirent.back] using hback
        rw [if_neg hname]
        exact addentry_listing hs h hloop hfresh hback hitem hfile hdup hdelegate hpath
      | true =>
        have hname : ent.name = ['.', '.'] := by simpa [Dirent.back] using hback
        rw [if_pos hname, if_pos hdup]
        refine ⟨?_, ?_, ?_⟩
        · rw [List.filter_append, List.filter_cons_of_neg (by simp [hback]), List.filter_nil,
            List.append_nil]
          exact h.rows
        · have hfiles : files (l ++ [ent]) = files l := by simp [files, hback]
          rw [hfiles]
          exact h.playlist
        · rw [List.filter_append, List.filter_cons_of_pos hback, List.filter_nil,
            List.getLast?_concat]
          rfl

/-! ## Runs -/

variable {e : Event} {r : Result} {tr : List (Event × Result)} {workqueue : Bool}

/-- What the observer has noted is shown. -/
def Noted (s : State) (l : Option (List Dirent)) : Prop := ∀ l', l = some l' → Shows s → Listing s l'

theorem Listing.of_listed (h : Listing s l) (heq : t.listed = s.listed) : Listing t l := by
  simp only [State.listed, Prod.mk.injEq] at heq
  obtain ⟨hitems, hfiles, hplaylist, hmenu, hworker, hdotdot⟩ := heq
  refine h.of_eq ?_ hitems hfiles hplaylist hdotdot
  unfold Browser.rows
  rw [hmenu, hworker]

/-- A directory was opened: nothing is read, and nothing is shown. -/
theorem Listing.opened (hrows : Browser.rows s = []) (hplaylist : s.playlist = [])
    (hdotdot : s.dotdot = none) : Listing s [] := by
  refine ⟨?_, ?_, hdotdot⟩
  · rw [hrows]
    rfl
  · rw [hplaylist]
    rfl

theorem loadlistStep_noted {m : Option (List Dirent)} {w : Worker} (hs : Inv s) (h : Noted s m)
    (hrun : s.pc = .running) (hw : s.worker = some w) (hfresh : wenv.fresh s = true)
    (hcalm : Calm s (.worker wenv)) :
    Ensures (loadlistStep s wenv w) (fun u => Noted u (note m s (.worker wenv) r t))
      fun _ => True := by
  have hshows (hne : ∀ path, w ≠ .freeing path) : Shows s := ⟨hrun, w, hw, hne⟩
  cases w with
  | freeing path =>
    simp only [loadlistStep, note, hw]
    cases hl : s.playlist with
    | cons a rest =>
      dsimp only
      rw [freeplaylistitem_eq hs.toKept hl]
      exact fun _ hnone => absurd hnone (by simp)
    | nil =>
      dsimp only
      rw [ensures_ite]
      refine ⟨fun hopen l' hl' _ => ?_, fun hopen l' hl' _ => ?_⟩
      · rw [if_pos ⟨rfl, hopen⟩] at hl'
        cases hl'
        exact .opened (hs.freeing path hw) rfl rfl
      · rw [if_neg fun hboth => hopen hboth.2] at hl'
        cases hl'
  | loop =>
    intro l' hl' _
    cases m with
    | none =>
      simp only [note, hw] at hl'
      split at hl' <;> cases hl'
    | some l =>
      have hlist : Listing s l := h l rfl (hshows fun _ hne => absurd hne (by simp))
      obtain ⟨l'', hl'', hlisting⟩ := readentry_listing hs hlist hw hfresh hcalm r (t := t)
      cases hl'.symm.trans hl''
      exact hlisting
  | closing =>
    simp only [note, hw]
    intro l' hl' _
    refine (h l' hl' (hshows fun _ hne => absurd hne (by simp))).of_eq ?_ rfl rfl rfl rfl
    simp only [rows, hw]
  | adding _ _ | updating | finished =>
    simp only [note, hw]
    exact h

theorem delegate_noted {m : Option (List Dirent)} {w : Worker} (h : Noted s m)
    (hrun : s.pc = .running) (hw : s.worker = some w) (ht : delegate s true w = some t) :
    Noted t (note m s (.delegate true) r t) := by
  have hnote : note m s (.delegate true) r t = m := by
    cases w <;> simp [note, hw]
  rw [hnote]
  cases w with
  | adding title item =>
    cases ht
    intro l' hl' _
    refine (h l' hl' ⟨hrun, _, hw, fun _ hne => absurd hne (by simp)⟩).of_eq ?_ rfl rfl rfl rfl
    simp only [rows, hw, ↓reduceIte]
  | updating =>
    cases ht
    intro l' hl' _
    refine (h l' hl' ⟨hrun, _, hw, fun _ hne => absurd hne (by simp)⟩).of_eq ?_ rfl rfl rfl rfl
    simp only [rows, hw]
  | freeing _ | loop | closing | finished => cases ht

theorem step_running (hs : Inv s) (hstep : step s e = some (t, r)) :
    s.pc = .running ∨ t.pc = .gone := by
  have hbusy (hne : idle s = false) (hstop : s.pc ≠ .stopped) : s.pc = .running := by
    cases hpc : s.pc with
    | running => rfl
    | destroyed => exact absurd ((hs.ended (.inl hpc)).1.symm.trans hne) (by simp)
    | gone => exact absurd ((hs.ended (.inr hpc)).1.symm.trans hne) (by simp)
    | stopped => exact absurd hpc hstop
  obtain ⟨msg, env, rfl, hpc, hf⟩ | ⟨w, wenv, rfl, hw, hruns, -, -⟩ | ⟨w, memory, rfl, hw, ht, -⟩ :=
    step_cases hstep
  · cases msg with
    | cleanup =>
      cases hf
      exact .inr rfl
    | timer _ | selected | dismissed | destroy => exact .inl hpc
  · refine .inl (hbusy ?_ fun hstop => by simp [step, hw, hstop] at hstep)
    cases w <;> simp_all [idle, Worker.runs]
  · refine .inl (hbusy ?_ fun hstop => by simp [step, hstop] at hstep)
    cases w <;> simp_all [idle, delegate]

theorem step_noted {m : Option (List Dirent)} (hs : Inv s) (h : Noted s m) (hcalm : Calm s e)
    (hstep : step s e = some (t, r)) : Noted t (note m s e r t) := by
  by_cases hrun : s.pc = .running
  · obtain ⟨msg, env, rfl, hpc, hf⟩ | ⟨w, wenv, rfl, hw, hruns, hfresh, hf⟩ |
      ⟨w, memory, rfl, hw, ht, rfl⟩ := step_cases hstep
    · have hnote : note m s (.message msg env) r t = m := by
        unfold note
        split <;> simp_all
      rw [hnote]
      intro l' hl' hshows
      have hhandled : Ensures (messagehandler s env msg) (Left s) fun _ => True :=
        messagehandler_left
      rcases finish_eq hhandled hf with hleft | ⟨f, -, rfl, -⟩
      · rcases hleft with heq | hend
        · refine (h l' hl' ?_).of_listed heq
          obtain ⟨-, w, hw, hfree⟩ := hshows
          simp only [State.listed, Prod.mk.injEq] at heq
          exact ⟨hrun, w, heq.2.2.2.2.1 ▸ hw, hfree⟩
        · exact absurd hshows hend
      · exact absurd hshows.1 (by simp)
    · have hx : Ensures ((loadlistStep s wenv w).map (·, Result.done))
          (fun p => Noted p.1 (note m s (.worker wenv) r t)) fun _ => True :=
        ensures_map.mpr (loadlistStep_noted hs h hrun hw hfresh hcalm)
      rcases finish_eq hx hf with hok | ⟨f, -, rfl, -⟩
      · exact hok
      · exact fun _ _ hshows => absurd hshows.1 (by simp)
    · obtain rfl : memory = true := hcalm
      exact delegate_noted h hrun hw ht
  · intro l' _ hshows
    rcases step_running hs hstep with hpc | hpc
    · exact absurd hpc hrun
    · exact absurd (hshows.1.symm.trans hpc) (by simp)

theorem observed_noted {y : State × Option (List Dirent)}
    (h : Run (Guarded (observed step note) fun x e => Calm x.1 e) (new workqueue, none) tr y) :
    Inv y.1 ∧ Noted y.1 y.2 := by
  refine h.invariant (P := fun y => Inv y.1 ∧ Noted y.1 y.2) ⟨Inv.new workqueue,
      fun _ hnone => absurd hnone (by simp)⟩ ?_
  rintro x ⟨e, r⟩ z ⟨hinv, hnoted⟩ ⟨hcalm, hstep⟩
  obtain ⟨hs, hnote⟩ := step_observed.mp hstep
  rw [hnote]
  exact ⟨(hinv.step hs).1, step_noted hinv hnoted hcalm hs⟩

/-- **The rows are what was read**: while the directory is loaded and from then on, in every order of
    messages, steps of the worker and delegates, the list has a row for each entry that was read but
    the one to go back, in their order and with what they stand for, the playlist has the files from
    the last to the first, and the directory to go back to is that of the last such entry. -/
theorem listing_shown {y : State × Option (List Dirent)}
    (h : Run (Guarded (observed step note) fun x e => Calm x.1 e) (new workqueue, none) tr y)
    (hread : y.2 = some l) (hshows : Shows y.1) : Listing y.1 l :=
  (observed_noted h).2 l hread hshows

/-- The way back, two files, and a directory between them. -/
def browsed : List Dirent :=
  [⟨['.', '.'], ['/'], true⟩, ⟨['a'], ['/', 'a'], false⟩, ⟨['d'], ['/', 'd'], true⟩,
    ⟨['b'], ['/', 'b'], false⟩]

/-- The directory is opened, and its entries are read one by one; the way back gets no row. -/
def browsing : List Event :=
  let found (k : Nat) (ent : Dirent) : List Event :=
    .worker ⟨true, .entry ent, k + 1, k + 1, true, true⟩ :: if ent.back then [] else [.delegate true]
  .worker ⟨true, .eof, 1, 1, true, true⟩ :: (browsed.mapIdx found).flatten

theorem listing_shown_browsed : ∃ (tr : List (Event × Result)) (y : State × Option (List Dirent)),
    Run (Guarded (observed step note) fun x e => Calm x.1 e) (new true, none) tr y ∧
      tr.map Prod.fst = browsing ∧ y.2 = some browsed ∧ Shows y.1 ∧
      y.1.menu.map Prod.fst = [['a'], ['d'], ['b']] ∧ Listing y.1 browsed := by
  obtain ⟨tr, y, hrun, hevents, hread, hpc, hw, hmenu⟩ := exists_run_of_guarded_exec
    (observed step note) (fun x e => Calm x.1 e) (new true, none)
    (fun tr y => tr.map Prod.fst = browsing ∧ y.2 = some browsed ∧ y.1.pc = .running ∧
      y.1.worker = some .loop ∧ y.1.menu.map Prod.fst = [['a'], ['d'], ['b']])
    browsing (by decide +kernel)
  have hshows : Shows y.1 := ⟨hpc, .loop, hw, by simp⟩
  exact ⟨tr, y, hrun, hevents, hread, hshows, hmenu, listing_shown hrun hread hshows⟩

/-! ## Playing -/

/-- The files of the playlist are read. -/
theorem paths_eq {ps : List CString} {as : List Addr} (h : paths s as = .ok ps) :
    as.map s.files = ps.map some := by
  induction as generalizing ps with
  | nil =>
    cases h
    rfl
  | cons a as ih =>
    rw [paths] at h
    cases hfile : s.files a with
    | none =>
      rw [hfile] at h
      cases h
    | some path =>
      rw [hfile] at h
      cases hrest : paths s as with
      | error _ =>
        rw [hrest] at h
        cases h
      | ok rest =>
        rw [hrest] at h
        cases h
        rw [List.map_cons, List.map_cons, hfile, ih hrest]

/-- A `SELECTED` that plays: the row, its item, and what the player gets. -/
theorem selected_play {ps : List CString} {k : Option Nat}
    (h : selected s env = .ok (t, .play ps k)) : ∃ n title item a, env.row = some n ∧
      s.menu[n]? = some (title, item) ∧ s.items item = some (.file a) ∧
      paths s s.playlist = .ok ps ∧ k = s.playlist.idxOf? a := by
  unfold selected at h
  split at h
  · cases h
  rename_i title item hrow
  obtain ⟨n, hn, hmenu⟩ := Option.bind_eq_some_iff.mp hrow
  split at h
  · cases h
  split at h
  · cases h
  · exfalso
    unfold change at h
    split at h
    · cases hload : loadlist s _ env with
      | ok u | error _ =>
        rw [hload] at h
        cases h
    · cases hload : loadlist { s with worker := none } _ env with
      | ok u | error _ =>
        rw [hload] at h
        cases h
    · unfold selectLater at h
      split at h <;> cases h
  · rename_i a hitem
    unfold play at h
    split at h
    · cases h
    split at h
    · cases h
    cases hpaths : paths s s.playlist with
    | error _ =>
      rw [hpaths] at h
      cases h
    | ok l =>
      rw [hpaths] at h
      cases h
      exact ⟨n, title, item, a, hn, hmenu, hitem, rfl, rfl⟩

theorem Listing.row_entry (h : Listing s l) {n : Nat} {r : CString × Addr}
    (hmenu : s.menu[n]? = some r) :
    ∃ ent, (l.filter (!·.back))[n]? = some ent ∧ target s r = some ent.row := by
  have hrow : (Browser.rows s)[n]? = some r := by
    unfold Browser.rows
    split
    · rw [List.getElem?_append_left (List.getElem?_eq_some_iff.mp hmenu).1, hmenu]
    · exact hmenu
  have hat := congrArg (·[n]?) h.rows
  simp only [List.getElem?_map, hrow, Option.map_some] at hat
  obtain ⟨ent, hent, heq⟩ := Option.map_eq_some_iff.mp hat.symm
  exact ⟨ent, hent, heq.symm⟩

/-- **Files are played in order**: a `SELECTED` that plays is that of the row of a file; the player
    then has the files that were read, in the order of the directory, is at the file of that row, and
    the `PLAY` of it waits. -/
theorem browser_plays_in_order {y : State × Option (List Dirent)} {ps : List CString}
    {k : Option Nat} {u : State}
    (h : Run (Guarded (observed step note) fun x e => Calm x.1 e) (new workqueue, none) tr y)
    (hread : y.2 = some l) (hshows : Shows y.1)
    (hstep : step y.1 (.message .selected env) = some (u, .play ps k)) :
    ∃ n ent i, env.row = some n ∧ (l.filter (!·.back))[n]? = some ent ∧ ent.isdir = false ∧
      k = some i ∧ ∀ P P' : Player.State, Player.startPlaylist P ps i = some P' →
        P'.playlist = files l ∧ P'.mailbox = P.mailbox ++ [.play (some ent.path)] ∧
        (P'.playlistItem.bind fun i => P'.playlist[i]?) = some ent.path := by
  obtain ⟨hinv, hnoted⟩ := observed_noted h
  have hlisting := hnoted l hread hshows
  have hhandler : selected y.1 env = .ok (u, .play ps k) := by
    simp only [step, messagehandler, reduceCtorEq, ↓reduceIte, hshows.1, Option.some.injEq] at hstep
    cases hsel : selected y.1 env with
    | ok p =>
      rw [hsel] at hstep
      exact congrArg _ hstep
    | error _ =>
      rw [hsel] at hstep
      cases hstep
  obtain ⟨n, title, item, a, hn, hmenu, hitem, hpaths, hk⟩ := selected_play hhandler
  obtain ⟨ent, hent, htarget⟩ := hlisting.row_entry hmenu
  have hrow : (title, false, y.1.files a) = ent.row := by
    rw [target, hitem] at htarget
    exact Option.some.inj htarget
  simp only [Dirent.row, Prod.mk.injEq] at hrow
  obtain ⟨-, hisdir, hfile⟩ := hrow
  obtain ⟨i, hi⟩ := Option.ne_none_iff_exists'.mp fun hnone =>
    List.idxOf?_eq_none_iff.mp hnone ((hinv.files a).mp ⟨_, hfile⟩)
  obtain ⟨hlt, hget, -⟩ := List.idxOf?_eq_some_iff.mp hi
  have hps := paths_eq hpaths
  have hpath : ps[i]? = some ent.path := by
    have hat := congrArg (·[i]?) hps
    simpa [List.getElem?_map, List.getElem?_eq_getElem hlt, hget, hfile] using hat.symm
  have hfiles : ps = (files l).reverse :=
    List.map_injective_iff.mpr (fun _ _ heq => Option.some.inj heq) (hps.symm.trans hlisting.playlist)
  refine ⟨n, ent, i, hn, hent, hisdir.symm, hk.trans hi, fun P P' hstart => ?_⟩
  obtain ⟨x, hx, rfl⟩ := Player.startPlaylist_eq hstart
  have hlength : i < ps.length := (List.getElem?_eq_some_iff.mp hpath).1
  have hsame : ps.reverse[ps.length - 1 - i]? = some ent.path := by
    rw [List.getElem?_reverse (by omega), ← hpath]
    congr 1
    omega
  cases hx.symm.trans hsame
  exact ⟨by rw [hfiles]; exact List.reverse_reverse _, rfl, hsame⟩

theorem browser_plays_in_order_second : ∃ (tr : List (Event × Result))
    (y : State × Option (List Dirent)) (u : State),
    Run (Guarded (observed step note) fun x e => Calm x.1 e) (new true, none) tr y ∧
      y.2 = some browsed ∧ Shows y.1 ∧
      step y.1 (.message .selected ⟨some 2, none, true, true, true⟩) =
        some (u, .play [['/', 'b'], ['/', 'a']] (some 0)) ∧
      ∃ n ent i, some 2 = some n ∧ (browsed.filter (!·.back))[n]? = some ent ∧ ent.isdir = false ∧
        some 0 = some i ∧
        ∀ P P' : Player.State, Player.startPlaylist P [['/', 'b'], ['/', 'a']] i = some P' →
          P'.playlist = files browsed ∧ P'.mailbox = P.mailbox ++ [.play (some ent.path)] ∧
          (P'.playlistItem.bind fun i => P'.playlist[i]?) = some ent.path := by
  obtain ⟨tr, y, hrun, hread, hpc, hw, hplay⟩ := exists_run_of_guarded_exec (observed step note)
    (fun x e => Calm x.1 e) (new true, none) (fun _ y =>
      y.2 = some browsed ∧ y.1.pc = .running ∧ y.1.worker = some .loop ∧
      (step y.1 (.message .selected ⟨some 2, none, true, true, true⟩)).map Prod.snd =
        some (.play [['/', 'b'], ['/', 'a']] (some 0)))
    browsing (by decide +kernel)
  obtain ⟨⟨u, r⟩, hstep, heq⟩ := Option.map_eq_some_iff.mp hplay
  subst heq
  have hshows : Shows y.1 := ⟨hpc, .loop, hw, by simp⟩
  exact ⟨tr, y, u, hrun, hread, hshows, hstep, browser_plays_in_order hrun hread hshows hstep⟩

end Mediabox.Browser
