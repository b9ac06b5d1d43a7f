import Mediabox.Browser

/-!
# The end of the library browser (`src/browser.c`)

`DESTROY` is answered with `AVBOX_DISPATCH_CONTINUE`, so that it comes again, as long as a timer is
pending or the worker is not finished.

* `browser_frees` — what was allocated for rows and for the playlist is freed.
* `destroy_completes` — the answer comes after at most `rank` steps of the worker.
-/

set_option autoImplicit false

namespace Mediabox.Browser

open Transition Outcome Library

variable {s t : State} {env : Env} {wenv : WorkerEnv} {a : Addr} {path : CString} {e : Event}
  {r : Result} {tr : List (Event × Result)} {workqueue : Bool}

/-! ## What is freed -/

/-- A row is found room for, and delegates are posted. -/
def Listed (_ : State) : Event → Prop
  | .worker env => env.delegate = true
  | .delegate memory => memory = true
  | .message _ _ => True

instance (s : State) : (e : Event) → Decidable (Listed s e)
  | .worker env => inferInstanceAs (Decidable (env.delegate = true))
  | .delegate memory => inferInstanceAs (Decidable (memory = true))
  | .message _ _ => isTrue trivial

/-- Every item that is not freed is that of a row. -/
def Exact (s : State) : Prop := ∀ a item, s.items a = some item → a ∈ (rows s).map Prod.snd

theorem Moved.exact (h : Moved s t) (hs : Exact s) : Exact t := fun a item ha =>
  (h a item ha).2 (hs a item (h a item ha).1)

theorem Exact.of_eq (h : Exact s) (hrows : rows t = rows s) (hitems : t.items = s.items) : Exact t :=
  (Moved.of_eq hrows hitems).exact h

/-- A new item, that of the row that the worker adds. -/
theorem Exact.push (h : Exact s) (hrows : rows s = s.menu) {title : CString} {item : LibraryItem} :
    Exact { s with
      items := Function.update s.items a (some item)
      worker := some (.adding title a) } := by
  intro b x hb
  show b ∈ (s.menu ++ [(title, a)]).map Prod.snd
  rw [List.map_append, List.mem_append]
  by_cases hba : b = a
  · exact .inr (List.mem_singleton.mpr hba)
  · dsimp only at hb
    rw [Function.update_of_ne hba] at hb
    exact .inl (hrows ▸ h b x hb)

theorem loadlistStep_exact (h : Exact s) {w : Worker} (hw : s.worker = some w)
    (hdelegate : wenv.delegate = true) :
    Ensures (loadlistStep s wenv w) Exact fun _ => True := by
  cases w with
  | freeing path =>
    have hrows : rows s = s.menu := by
      unfold rows
      rw [hw]
    simp only [loadlistStep]
    split
    · unfold freeplaylistitem
      split
      · trivial
      · exact h
    · rw [ensures_ite]
      exact ⟨fun _ => h.of_eq hrows.symm rfl, fun _ => h.of_eq hrows.symm rfl⟩
  | loop =>
    have hrows := rows_of_loop hw
    have hupdate : Exact (updatewindow s wenv) := by
      refine h.of_eq ?_ rfl
      rw [hrows, updatewindow, hdelegate]
      rfl
    show Exact (readentry s wenv)
    unfold readentry
    split
    · exact hupdate
    split
    · exact h
    · exact hupdate
    · exact hupdate
    split
    · exact h
    have hclosing : Exact { s with worker := some .closing } := h.of_eq hrows.symm rfl
    unfold addentry
    split
    · exact hclosing
    split
    · split
      · exact hclosing
      · exact h.push hrows
    split
    · exact hclosing
    · rename_i hadd
      simp only [addtoplaylist] at hadd
      split at hadd
      · cases hadd
      split at hadd
      · cases hadd
      split at hadd
      · cases hadd
      cases hadd
      exact Exact.push (s := { s with files := _, playlist := _ }) h hrows
  | closing =>
    refine h.of_eq ?_ rfl
    unfold rows
    rw [hw]
  | adding _ _ | updating | finished => exact h

theorem delegate_exact (h : Exact s) {w : Worker} (hw : s.worker = some w)
    (ht : delegate s true w = some t) : Exact t := by
  cases w with
  | adding title item =>
    cases ht
    refine h.of_eq ?_ rfl
    simp only [rows, hw, ↓reduceIte]
  | updating =>
    cases ht
    refine h.of_eq ?_ rfl
    simp only [rows, hw]
  | freeing _ | loop | closing | finished => cases ht

theorem Exact.step (h : Exact s) (hs : Inv s) (hlisted : Listed s e)
    (hstep : Browser.step s e = some (t, r)) : Exact t := by
  obtain ⟨m, env, rfl, hpc, hs'⟩ | ⟨w, wenv, rfl, hw, hruns, hfresh, hs'⟩ |
    ⟨w, memory, rfl, hw, ht, rfl⟩ := step_cases hstep
  · rcases finish_eq (messagehandler_ensures hs hpc) hs' with hok | ⟨f, hf, rfl, rfl⟩
    · exact hok.moved.exact h
    · exact h
  · have hx : Ensures ((loadlistStep s wenv w).map (·, Result.done)) (fun p => Exact p.1)
        fun _ => True := ensures_map.mpr (loadlistStep_exact h hw hlisted)
    rcases finish_eq hx hs' with hok | ⟨f, -, rfl, -⟩
    · exact hok
    · exact h
  · obtain rfl : memory = true := hlisted
    exact delegate_exact h hw ht

/-- **`DESTROY` frees everything**: when it was answered with `AVBOX_DISPATCH_OK` the worker is done,
    and no item of a row, no file of the playlist and no path to go back to is left, if every row that
    was read was added to the list. -/
theorem browser_frees (h : Run (Guarded step Listed) (new workqueue) tr s)
    (hdestroyed : s.pc = .destroyed) :
    idle s = true ∧ (∀ a, s.items a = none) ∧ (∀ a, s.files a = none) ∧ s.dotdot = none := by
  have hboth : Inv s ∧ Exact s := by
    refine h.invariant (P := fun s => Inv s ∧ Exact s)
      ⟨Inv.new workqueue, fun _ _ ha => absurd ha (by simp [new])⟩ ?_
    rintro t ⟨e, r⟩ u ⟨hinv, hexact⟩ ⟨hlisted, hstep⟩
    exact ⟨(hinv.step hstep).1, hexact.step hinv hlisted hstep⟩
  obtain ⟨hinv, hexact⟩ := hboth
  obtain ⟨hidle, hplaylist, hmenu, hdotdot⟩ := hinv.ended (.inl hdestroyed)
  refine ⟨hidle, fun a => ?_, fun a => ?_, hdotdot⟩
  · refine Option.eq_none_iff_forall_ne_some.mpr fun item ha => ?_
    have hmem := hexact a item ha
    rw [rows_of_idle hidle, hmenu] at hmem
    exact absurd hmem List.not_mem_nil
  · refine Option.eq_none_iff_forall_ne_some.mpr fun path ha => ?_
    have hmem := (hinv.files a).mp ⟨path, ha⟩
    rw [hplaylist] at hmem
    exact absurd hmem List.not_mem_nil

theorem browser_frees_visit : ∃ tr s, Run (Guarded step Listed) (new true) tr s ∧
    tr.map Prod.fst = visit ∧ s.pc = .destroyed ∧ idle s = true ∧ (∀ a, s.items a = none) ∧
    (∀ a, s.files a = none) ∧ s.dotdot = none := by
  obtain ⟨tr, s, hrun, hevents, hdestroyed⟩ := exists_run_of_guarded_exec step Listed (new true)
    (fun tr s => tr.map Prod.fst = visit ∧ s.pc = .destroyed) visit (by decide +kernel)
  exact ⟨tr, s, hrun, hevents, hdestroyed, browser_frees hrun hdestroyed⟩

/-! ## The end of a worker -/

/-- How many steps the worker has left once it shall abort. -/
def rank (s : State) : Nat :=
  match s.worker with
  | none | some .finished => 0
  | some .closing => 1
  | some .updating => 2
  | some .loop => 3
  | some (.adding _ _) => 4
  | some (.freeing _) => 4 + s.playlist.length

/-- A step of the worker, or of the main thread for it. -/
def Event.works : Event → Bool
  | .message _ _ => false
  | .worker _ | .delegate _ => true

/-- A message to a browser that is destroyed starts no worker. -/
def Quiet (s : State) (p : State × Result) : Prop :=
  p.1.destroying = true ∧ rank p.1 ≤ rank s

theorem Quiet.of_eq {p : State × Result} (hdest : p.1.destroying = true)
    (hworker : p.1.worker = s.worker) (hplaylist : p.1.playlist = s.playlist) : Quiet s p := by
  refine ⟨hdest, Nat.le_of_eq ?_⟩
  unfold rank
  rw [hworker, hplaylist]

theorem loadlist_destroying (hdest : s.destroying = true) :
    Ensures (loadlist s path env) (· = s) fun _ => True := by
  rw [loadlist, ensures_ite]
  refine ⟨fun _ => trivial, fun _ => ?_⟩
  rw [if_pos hdest]
  rfl

theorem change_quiet {again : State → State × Result} (hdest : s.destroying = true)
    (hagain : Quiet s (again { s with abort := true })) :
    Ensures (change s path env again) (Quiet s) fun _ => True := by
  unfold change
  split
  · rw [ensures_bind]
    refine (loadlist_destroying hdest).imp fun t ht => ?_
    subst ht
    exact .of_eq hdest rfl rfl
  · rw [ensures_bind]
    refine (loadlist_destroying (s := { s with worker := none }) hdest).imp fun t ht => ?_
    subst ht
    exact ⟨hdest, Nat.zero_le _⟩
  · exact hagain

theorem destroy_quiet (h : Kept s) :
    Ensures (destroy s) (Quiet s) fun _ => True := by
  cases hpending : pending s with
  | true =>
    rw [destroy, if_pos (by exact hpending)]
    exact .of_eq rfl rfl rfl
  | false =>
    cases hidle : idle s with
    | true =>
      rw [destroy_eq h hpending hidle]
      refine ⟨rfl, ?_⟩
      have hzero : rank (closed s) = 0 := by
        show rank { s with playlist := [] } = 0
        rcases WorkerWindow.idle_iff.mp hidle with hw | hw <;> simp [rank, hw]
      rw [hzero]
      exact Nat.zero_le _
    | false =>
      have hready : ¬pending s = true := by simp [hpending]
      rw [destroy, if_neg (by exact hready), if_pos (by exact congrArg (!·) hidle)]
      exact .of_eq rfl rfl rfl

theorem messagehandler_quiet (h : Kept s) (hdest : s.destroying = true) {m : Msg} :
    Ensures (messagehandler s env m) (Quiet s) fun _ => True := by
  cases m with
  | timer id =>
    show Quiet s (timer s id)
    unfold timer
    split
    · exact .of_eq hdest rfl rfl
    split
    · exact .of_eq hdest rfl rfl
    · exact .of_eq hdest rfl rfl
  | selected =>
    show Ensures (selected s env) _ _
    unfold selected
    split
    · exact .of_eq hdest rfl rfl
    split
    · exact .of_eq hdest rfl rfl
    split
    · trivial
    · refine change_quiet hdest ?_
      unfold selectLater
      split <;> exact .of_eq hdest rfl rfl
    · rw [play, ensures_ite]
      refine ⟨fun _ => trivial, fun _ => ?_⟩
      rw [ensures_ite]
      refine ⟨fun _ => .of_eq hdest rfl rfl, fun _ => ?_⟩
      rw [ensures_bind]
      cases paths s s.playlist with
      | ok l => exact .of_eq hdest rfl rfl
      | error _ => trivial
  | dismissed =>
    show Ensures (dismissed s env) _ _
    unfold dismissed
    split
    · exact .of_eq hdest rfl rfl
    split
    · refine change_quiet hdest ?_
      unfold dismissLater
      split <;> exact .of_eq hdest rfl rfl
    · exact .of_eq hdest rfl rfl
  | destroy => exact destroy_quiet h
  | cleanup => exact .of_eq hdest rfl rfl

/-- A worker that shall abort comes closer to its end with each step. -/
theorem loadlistStep_rank (habort : s.abort = true) {w : Worker} (hw : s.worker = some w)
    (hruns : w.runs = true) : Ensures (loadlistStep s wenv w)
      (fun t => rank t + 1 ≤ rank s ∧ t.destroying = s.destroying) fun _ => True := by
  cases w with
  | freeing path =>
    have hrank : rank s = 4 + s.playlist.length := by simp only [rank, hw]
    simp only [loadlistStep]
    cases hl : s.playlist with
    | cons a l =>
      simp only [freeplaylistitem]
      cases s.files a with
      | none => trivial
      | some _ =>
        refine ⟨?_, rfl⟩
        rw [hrank, hl]
        simp only [rank, hw, listRemove, List.erase_cons_head, List.length_cons]
        omega
    | nil =>
      dsimp only
      rw [ensures_ite, hrank, hl]
      exact ⟨fun _ => ⟨Nat.le_refl 4, rfl⟩, fun _ => ⟨show 1 + 1 ≤ 4 by decide, rfl⟩⟩
  | loop =>
    have hrank : rank s = 3 := by simp only [rank, hw]
    show rank (readentry s wenv) + 1 ≤ rank s ∧ _
    rw [readentry, if_pos habort, hrank]
    unfold updatewindow
    cases wenv.delegate with
    | true => exact ⟨Nat.le_refl 3, rfl⟩
    | false => exact ⟨show 1 + 1 ≤ 3 by decide, rfl⟩
  | closing =>
    have hrank : rank s = 1 := by simp only [rank, hw]
    refine ⟨?_, rfl⟩
    rw [hrank]
    exact Nat.le_refl 1
  | adding _ _ | updating | finished => cases hruns

theorem delegate_rank {w : Worker} (hw : s.worker = some w) {memory : Bool}
    (ht : delegate s memory w = some t) :
    rank t + 1 ≤ rank s ∧ t.destroying = s.destroying := by
  cases w with
  | adding title item =>
    cases ht
    exact ⟨by simp only [rank, hw]; exact Nat.le_refl 4, rfl⟩
  | updating =>
    cases ht
    exact ⟨by simp only [rank, hw]; exact Nat.le_refl 2, rfl⟩
  | freeing _ | loop | closing | finished => cases ht

theorem step_rank (h : Inv s) (hdest : s.destroying = true) (hstep : step s e = some (t, r)) :
    rank t + (if e.works then 1 else 0) ≤ rank s ∧ t.destroying = true := by
  obtain ⟨m, env, rfl, hpc, hs⟩ | ⟨w, wenv, rfl, hw, hruns, hfresh, hs⟩ | ⟨w, memory, rfl, hw, ht, rfl⟩ :=
    step_cases hstep
  · rcases finish_eq (messagehandler_quiet h.toKept hdest) hs with hok | ⟨f, -, rfl, rfl⟩
    · exact ⟨hok.2, hok.1⟩
    · exact ⟨Nat.le_refl _, hdest⟩
  · have habort : s.abort = true := by
      refine h.bails hdest ?_
      have hbusy : idle s ≠ true := by cases w <;> simp_all [idle, Worker.runs]
      cases hpc : s.pc with
      | running => rfl
      | destroyed => exact absurd (h.ended (.inl hpc)).1 hbusy
      | gone => exact absurd (h.ended (.inr hpc)).1 hbusy
      | stopped => simp [step, hw, hpc] at hstep
    have hx : Ensures ((loadlistStep s wenv w).map (·, Result.done))
        (fun p => rank p.1 + 1 ≤ rank s ∧ p.1.destroying = true) fun _ => False := by
      refine ensures_map.mpr (((loadlistStep_rank habort hw hruns).and
        (loadlistStep_ensures h hw hruns hfresh)).mono ?_ fun _ hf => hf.2)
      exact fun u hu => ⟨hu.1.1, hu.1.2.trans hdest⟩
    rcases finish_eq hx hs with hok | ⟨f, hf, -, -⟩
    · exact hok
    · exact hf.elim
  · obtain ⟨hle, hsame⟩ := delegate_rank hw ht
    exact ⟨hle, hsame.trans hdest⟩

/-- The worker is never stuck: it can move, or the main thread can run its delegate. -/
theorem worker_moves (hstop : s.pc ≠ .stopped) (hrank : rank s ≠ 0) :
    (∀ wenv : WorkerEnv, wenv.fresh s = true → ∃ p, step s (.worker wenv) = some p) ∨
      ∀ memory, ∃ p, step s (.delegate memory) = some p := by
  cases hw : s.worker with
  | none => exact absurd (by simp [rank, hw]) hrank
  | some w =>
    have hruns (hr : w.runs = true) (wenv : WorkerEnv) (hfresh : wenv.fresh s = true) :
        ∃ p, step s (.worker wenv) = some p := by
      simp only [step, hw, hr, hfresh, ne_eq, hstop, not_false_eq_true, decide_true, Bool.and_self,
        ↓reduceIte]
      exact ⟨_, rfl⟩
    cases w with
    | freeing _ | loop | closing => exact .inl (hruns rfl)
    | adding title item | updating =>
      refine .inr fun memory => ?_
      rw [step, if_neg hstop, hw]
      exact ⟨_, rfl⟩
    | finished => exact absurd (by simp [rank, hw]) hrank

theorem idle_of_rank (hrank : rank s = 0) : idle s = true := by
  refine WorkerWindow.idle_iff.mpr ?_
  unfold rank at hrank
  split at hrank
  · exact .inl ‹_›
  · exact .inr ‹_›
  all_goals omega

/-- **A browser that is destroyed comes to its end**: from the first `DESTROY` on at most `rank s`
    steps of the worker and its delegates are left, no message starts another worker, and one of
    these steps can always be taken until there are none; then `DESTROY` is answered with
    `AVBOX_DISPATCH_OK` as soon as no timer is pending. -/
theorem destroy_completes {tr' : List (Event × Result)} (hs : Run (Step step) (new workqueue) tr s)
    (hdest : s.destroying = true) (h : Run (Step step) s tr' t) :
    tr'.countP (·.1.works) + rank t ≤ rank s ∧
      (t.pc ≠ .stopped → rank t ≠ 0 →
        (∀ wenv : WorkerEnv, wenv.fresh t = true → ∃ p, step t (.worker wenv) = some p) ∨
          ∀ memory, ∃ p, step t (.delegate memory) = some p) ∧
      (t.pc = .running → rank t = 0 → pending t = false →
        ∀ env, step t (.message .destroy env) = some (closed t, .done)) := by
  have hrun : Inv t ∧ t.destroying = true ∧ tr'.countP (·.1.works) + rank t ≤ rank s := by
    refine h.history (P := fun tr' t => Inv t ∧ t.destroying = true ∧
      tr'.countP (·.1.works) + rank t ≤ rank s)
      ⟨(Run.inv hs (Inv.new workqueue)).1, hdest, by simp⟩ ?_
    rintro tr' t ⟨e, r⟩ u ⟨hinv, hd, hle⟩ hstep
    obtain ⟨hdown, hd'⟩ : rank u + (if e.works then 1 else 0) ≤ rank t ∧ u.destroying = true :=
      step_rank hinv hd hstep
    refine ⟨(hinv.step hstep).1, hd', ?_⟩
    have hlast : [(e, r)].countP (·.1.works) = if e.works then 1 else 0 := List.countP_singleton ..
    rw [List.countP_append, hlast]
    omega
  obtain ⟨hinv, -, hle⟩ := hrun
  refine ⟨hle, worker_moves, fun hrunning hrank hpending env => ?_⟩
  have hdestroy := destroy_eq hinv.toKept hpending (idle_of_rank hrank)
  simp only [step, messagehandler, hdestroy, reduceCtorEq, ↓reduceIte, hrunning]
  rfl

/-- `DESTROY` comes while the first entry is added. -/
theorem destroy_completes_visit : ∃ tr s tr' t, Run (Step step) (new true) tr s ∧
    Run (Step step) s tr' t ∧ s.destroying = true ∧ rank s = 3 ∧ tr'.countP (·.1.works) = 3 ∧
    rank t = 0 ∧ ∀ env, step t (.message .destroy env) = some (closed t, .done) := by
  obtain ⟨tr, s, hs, hdest, hrank, hrest⟩ := exists_run_of_exec step (new true)
    (fun _ s => s.destroying = true ∧ rank s = 3 ∧ ∃ p ∈ exec step s ((visit.drop 5).take 3),
      p.2.countP (·.1.works) = 3 ∧ rank p.1 = 0 ∧ p.1.pc = .running ∧ pending p.1 = false)
    (visit.take 5) (by decide +kernel)
  obtain ⟨tr', t, ht, hworks, hzero, hpc, hpending⟩ := exists_run_of_exec step s
    (fun tr' t => tr'.countP (·.1.works) = 3 ∧ rank t = 0 ∧ t.pc = .running ∧ pending t = false)
    ((visit.drop 5).take 3) hrest
  exact ⟨tr, s, tr', t, hs, ht, hdest, hrank, hworks, hzero,
    (destroy_completes hs hdest ht).2.2 hpc hzero hpending⟩

end Mediabox.Browser
