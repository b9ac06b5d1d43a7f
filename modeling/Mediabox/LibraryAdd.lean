import Mathlib.Data.Fintype.Basic
import Mediabox.Lib.Transition
import Mediabox.LibraryTable

/-!
# Adding videos to the library (`src/library.c`)

`mbox_library_addcontent` is called by the thread that scans the store and by the one that reads
the events of inotify.  It looks up the file, the directory of the series and the one of the season,
and inserts what it does not find.

* A step is one SQL statement, which succeeds or fails; the threads are the elements of `ι`, and a
  thread makes one call after the other.
* The file is a video.  Neither the name of a series nor the one of a season has a slash, so that
  `mbox_library_local_getid` is one statement, or none for the empty name.
* The parent ids that are bound to the statements come out of `int` variables.

Main result: `rows_unique` — the table keeps at most one row of a directory and of a file if no call
looks up a row that another call has found missing and not inserted yet, no lookup fails, and the
ids of the rows fit in an `int`.
-/

set_option autoImplicit false

namespace Mediabox.LibraryAdd

open Transition Library

/-! ## The code -/

/-- `MBOX_LIBRARY_LOCAL_DIRECTORY_MOVIES` -/
def directoryMovies : Int := 3

/-- `MBOX_LIBRARY_LOCAL_DIRECTORY_SERIES` -/
def directorySeries : Int := 4

/-- `mbox_library_local_mkdir` -/
def mkdir (t : Table) (ok : Bool) (name : CString) (parentId : Int) : Table × Int :=
  if ok then (t.insert parentId name [], int t.nextId) else (t, -1)

/-- A file of a series: `id` is what the lookup of its path gave. -/
structure Episode where
  path : CString
  id : Int
  serieName : CString
  season : CString
  episode : CString
deriving DecidableEq, Repr

/-- The statement that a call runs next. -/
inductive Call where
  | idle
  | getidByUri (path : CString)
  | getidSerie (v : Episode)
  | mkdirSerie (v : Episode)
  | getidSeason (v : Episode) (parentId : Int)
  | mkdirSeason (v : Episode) (parentId : Int)
  /-- the insertion, or the new name -/
  | store (path : CString) (id parentId : Int) (name : CString)
deriving DecidableEq, Repr

/-- `mbox_library_addcontent` up to its first statement -/
def addcontent (path : CString) : Call :=
  if path = [] ∨ path.drop (path.length - 3) = "sub".toList then .idle else .getidByUri path

/-- The call once it has the name. -/
def named (path : CString) (id parentId : Int) (name : CString) : Call :=
  if name = [] then .idle else .store path id parentId name

/-- `mbox_library_local_video_name` up to its first statement -/
def localVideoName (path : CString) (id : Int) : Call :=
  match videoName path with
  | .serie serieName season episode =>
    if serieName = [] then .getidSeason ⟨path, id, serieName, season, episode⟩ directorySeries
    else .getidSerie ⟨path, id, serieName, season, episode⟩
  | .movie name => named path id directoryMovies name

/-- The call after `mbox_library_local_mkdir` of the directory of the series. -/
def madeSerie (v : Episode) (parentId : Int) : Call :=
  if parentId = -1 then .idle else .getidSeason v parentId

/-- The call after `mbox_library_local_mkdir` of the directory of the season. -/
def madeSeason (v : Episode) (parentId : Int) : Call :=
  if parentId = -1 then .idle else named v.path v.id parentId v.episode

/-- The next statement of a call. -/
def runStatement (t : Table) (ok : Bool) : Call → Option (Table × Call)
  | .idle => none
  | .getidByUri path => some (t, localVideoName path (if ok then t.selectPath path else -1))
  | .getidSerie v =>
    let parentId := if ok then t.selectChild directorySeries v.serieName else -1
    some (t, if parentId = -1 then .mkdirSerie v else .getidSeason v parentId)
  | .mkdirSerie v =>
    let r := mkdir t ok v.serieName directorySeries
    some (r.1, madeSerie v r.2)
  | .getidSeason v parentId =>
    let id := if ok then t.selectChild parentId v.season else -1
    some (t, if id = -1 then .mkdirSeason v parentId else named v.path v.id id v.episode)
  | .mkdirSeason v parentId =>
    let r := mkdir t ok v.season parentId
    some (r.1, madeSeason v r.2)
  | .store path id parentId name =>
    some (if ok = false then t
      else if id = -1 then t.insert parentId name path else t.rename id name, .idle)

/-! ## The threads -/

variable {ι : Type} [DecidableEq ι]

structure State (ι : Type) where
  table : Table
  calls : ι → Call

inductive Event (ι : Type) where
  | addcontent (i : ι) (path : CString)
  | statement (i : ι) (ok : Bool)
deriving DecidableEq, Repr

def init (ι : Type) (t : Table) : State ι := ⟨t, fun _ => .idle⟩

def step (s : State ι) : Event ι → Option (State ι × Unit)
  | .addcontent i path =>
    if s.calls i = .idle then some (⟨s.table, Function.update s.calls i (addcontent path)⟩, ())
    else none
  | .statement i ok =>
    (runStatement s.table ok (s.calls i)).map fun r =>
      (⟨r.1, Function.update s.calls i r.2⟩, ())

/-! ## Rows found missing -/

/-- The file that a call found missing. -/
def missingFile (path : CString) (id : Int) : List Key := if id = -1 then [.file path] else []

/-- The rows that a call found missing and has not inserted yet. -/
def Call.missing : Call → List Key
  | .idle | .getidByUri _ => []
  | .getidSerie v => missingFile v.path v.id
  | .mkdirSerie v => .dir directorySeries v.serieName :: missingFile v.path v.id
  | .getidSeason v _ => missingFile v.path v.id
  | .mkdirSeason v parentId => .dir parentId v.season :: missingFile v.path v.id
  | .store path id _ _ => missingFile path id

/-- The row that a call looks up next. -/
def Call.lookup : Call → Option Key
  | .getidByUri path => some (.file path)
  | .getidSerie v => some (.dir directorySeries v.serieName)
  | .getidSeason v parentId => some (.dir parentId v.season)
  | _ => none

/-- A row is looked up while no other call has found it missing, and the lookup does not fail; the
    id of an inserted row fits in an `int`. -/
def StatementApart (s : State ι) (i : ι) (ok : Bool) : Option Key → Prop
  | some k => ok = true ∧ ∀ j, j ≠ i → k ∉ (s.calls j).missing
  | none => Fits s.table.nextId

def Apart (s : State ι) : Event ι → Prop
  | .addcontent _ _ => True
  | .statement i ok => StatementApart s i ok (s.calls i).lookup

instance [Fintype ι] (s : State ι) (i : ι) (ok : Bool) :
    (k : Option Key) → Decidable (StatementApart s i ok k)
  | some _ => inferInstanceAs (Decidable (_ ∧ _))
  | none => inferInstanceAs (Decidable (Fits _))

instance [Fintype ι] (s : State ι) : (e : Event ι) → Decidable (Apart s e)
  | .addcontent _ _ => inferInstanceAs (Decidable True)
  | .statement i ok => inferInstanceAs (Decidable (StatementApart s i ok (s.calls i).lookup))

/-! ## The invariant -/

/-- A file that a call has looked up: it has a path, and the id is the one of a file. -/
def Found (t : Table) (path : CString) (id : Int) : Prop :=
  path ≠ [] ∧ (id ≠ -1 → ∃ r ∈ t.rows, r.id = id ∧ r.path ≠ [])

def Call.Known (t : Table) : Call → Prop
  | .idle => True
  | .getidByUri path => path ≠ []
  | .getidSerie v | .mkdirSerie v | .getidSeason v _ | .mkdirSeason v _ => Found t v.path v.id
  | .store path id _ _ => Found t path id

/-- What a call found missing is missing, and is not what another call found missing. -/
structure Inv (s : State ι) : Prop where
  unique : s.table.Unique
  fits : s.table.Fits
  absent : ∀ i, ∀ k ∈ (s.calls i).missing, k ∉ s.table.keys
  apart : ∀ i j, i ≠ j → ∀ k ∈ (s.calls i).missing, k ∉ (s.calls j).missing
  known : ∀ i, (s.calls i).Known s.table

omit [DecidableEq ι] in
theorem init_inv {t : Table} (hunique : t.Unique) (hfits : t.Fits) : Inv (init ι t) :=
  ⟨hunique, hfits, fun _ _ hk => (nomatch hk), fun _ _ _ _ hk => (nomatch hk), fun _ => trivial⟩

variable {s s' : State ι} {t t' : Table} {c' : Call} {i : ι} {path name : CString}
  {id parentId : Int} {v : Episode}

theorem Found.keep (h : Found t path id) (hkeep : t.Keeps t') : Found t' path id := by
  refine ⟨h.1, fun hid => ?_⟩
  obtain ⟨r, hr, hrid, hfile⟩ := h.2 hid
  obtain ⟨r', hr', hid', hpath'⟩ := hkeep r hr
  exact ⟨r', hr', hid'.trans hrid, by rw [hpath']; exact hfile⟩

theorem Call.Known.keep {c : Call} (h : c.Known t) (hkeep : t.Keeps t') : c.Known t' := by
  cases c with
  | idle => trivial
  | getidByUri path => exact h
  | getidSerie v | mkdirSerie v | getidSeason v parentId | mkdirSeason v parentId
  | store path id parentId name => exact Found.keep h hkeep

/-- A call goes on: the rows it inserts are ones it had found missing. -/
theorem Inv.move (h : Inv s) (new : List Key) (hkeys : t'.keys = s.table.keys ++ new)
    (hnodup : new.Nodup) (hnew : ∀ k ∈ new, k ∈ (s.calls i).missing)
    (hfits : t'.Fits) (hkeep : s.table.Keeps t') (hknown : c'.Known t')
    (hmissing : ∀ k ∈ c'.missing,
      k ∉ s.table.keys ∧ k ∉ new ∧ ∀ j, j ≠ i → k ∉ (s.calls j).missing) :
    Inv ⟨t', Function.update s.calls i c'⟩ := by
  refine ⟨?_, hfits, fun j k hk => ?_, fun j l hjl k hk => ?_, fun j => ?_⟩
  · unfold Table.Unique
    rw [hkeys]
    refine List.Nodup.append h.unique hnodup fun k hold hk => ?_
    exact h.absent i k (hnew k hk) hold
  · dsimp only at hk ⊢
    rw [hkeys, List.mem_append, not_or]
    by_cases hj : j = i
    · rw [hj, Function.update_self] at hk
      exact ⟨(hmissing k hk).1, (hmissing k hk).2.1⟩
    · rw [Function.update_of_ne hj] at hk
      exact ⟨h.absent j k hk, fun hk' => h.apart j i hj k hk (hnew k hk')⟩
  · dsimp only at hk ⊢
    by_cases hj : j = i
    · rw [hj, Function.update_self] at hk
      rw [Function.update_of_ne (fun hl => hjl (hj.trans hl.symm))]
      exact (hmissing k hk).2.2 l fun hl => hjl (hj.trans hl.symm)
    · rw [Function.update_of_ne hj] at hk
      by_cases hl : l = i
      · rw [hl, Function.update_self]
        exact fun hk' => (hmissing k hk').2.2 j hj hk
      · rw [Function.update_of_ne hl]
        exact h.apart j l hjl k hk
  · dsimp only
    by_cases hj : j = i
    · rw [hj, Function.update_self]
      exact hknown
    · rw [Function.update_of_ne hj]
      exact (h.known j).keep hkeep

theorem Inv.stay (h : Inv s) (hknown : c'.Known s.table)
    (hmissing : ∀ k ∈ c'.missing, k ∉ s.table.keys ∧ ∀ j, j ≠ i → k ∉ (s.calls j).missing) :
    Inv ⟨s.table, Function.update s.calls i c'⟩ :=
  h.move [] (List.append_nil _).symm List.nodup_nil (fun _ hk => nomatch hk) h.fits
    (Table.Keeps.refl _) hknown
    fun k hk => ⟨(hmissing k hk).1, List.not_mem_nil, (hmissing k hk).2⟩

omit [DecidableEq ι] in
/-- What a call had found missing already. -/
theorem Inv.old_missing (h : Inv s) {k : Key} (hk : k ∈ (s.calls i).missing) :
    k ∉ s.table.keys ∧ ∀ j, j ≠ i → k ∉ (s.calls j).missing :=
  ⟨h.absent i k hk, fun j hj => h.apart i j (Ne.symm hj) k hk⟩

theorem named_missing {k : Key} (hk : k ∈ (named path id parentId name).missing) :
    k ∈ missingFile path id := by
  unfold named at hk
  split at hk
  · exact nomatch hk
  · exact hk

theorem named_known (h : Found t path id) : (named path id parentId name).Known t := by
  unfold named
  split
  · trivial
  · exact h

theorem localVideoName_missing {k : Key} (hk : k ∈ (localVideoName path id).missing) :
    k ∈ missingFile path id := by
  unfold localVideoName at hk
  split at hk
  · split at hk <;> exact hk
  · exact named_missing hk

theorem localVideoName_known (h : Found t path id) : (localVideoName path id).Known t := by
  unfold localVideoName
  split
  · split <;> exact h
  · exact named_known h

theorem dir_notMem_missingFile {k : Key} (hk : k ∈ missingFile path id) :
    k ≠ .dir parentId name := by
  unfold missingFile at hk
  split at hk
  · rw [List.mem_singleton.mp hk]
    exact fun h => nomatch h
  · exact nomatch hk

/-! ## The steps -/

theorem Inv.mkdir (h : Inv s) {ok : Bool} (hfits : Fits s.table.nextId)
    (hdir : Key.dir parentId name ∈ (s.calls i).missing)
    (hfile : ∀ k ∈ missingFile path id, k ∈ (s.calls i).missing)
    (hsub : ∀ k ∈ c'.missing, k ∈ missingFile path id)
    (hknown : ∀ t, s.table.Keeps t → c'.Known t) :
    Inv ⟨(LibraryAdd.mkdir s.table ok name parentId).1, Function.update s.calls i c'⟩ := by
  unfold LibraryAdd.mkdir
  split
  · refine h.move [.dir parentId name] ?_ (List.nodup_singleton _) ?_
      (Table.fits_insert h.fits hfits) (Table.keeps_insert _ _ _ _)
      (hknown _ (Table.keeps_insert _ _ _ _)) ?_
    · exact Table.keys_insert ..
    · intro k hk
      rw [List.mem_singleton.mp hk]
      exact hdir
    · intro k hk
      have hmem := hsub k hk
      obtain ⟨hkeys, hothers⟩ := h.old_missing (hfile k hmem)
      exact ⟨hkeys, fun hk' => dir_notMem_missingFile hmem (List.mem_singleton.mp hk'), hothers⟩
  · exact h.stay (hknown _ (Table.Keeps.refl _)) fun k hk => h.old_missing (hfile k (hsub k hk))

omit [DecidableEq ι] in
theorem Inv.lookup_missing (h : Inv s)
    (hselect : s.table.selectChild parentId name = -1)
    (hothers : ∀ j, j ≠ i → Key.dir parentId name ∉ (s.calls j).missing)
    (hfile : ∀ k ∈ missingFile path id, k ∈ (s.calls i).missing) :
    ∀ k ∈ Key.dir parentId name :: missingFile path id,
      k ∉ s.table.keys ∧ ∀ j, j ≠ i → k ∉ (s.calls j).missing := by
  intro k hk
  rcases List.mem_cons.mp hk with rfl | hmem
  · exact ⟨Table.notMem_keys_of_selectChild h.fits hselect, hothers⟩
  · exact h.old_missing (hfile k hmem)

theorem madeSerie_missing {k : Key} (hk : k ∈ (madeSerie v parentId).missing) :
    k ∈ missingFile v.path v.id := by
  unfold madeSerie at hk
  split at hk
  · exact nomatch hk
  · exact hk

theorem madeSerie_known (h : Found t v.path v.id) : (madeSerie v parentId).Known t := by
  unfold madeSerie
  split
  · trivial
  · exact h

theorem madeSeason_missing {k : Key} (hk : k ∈ (madeSeason v parentId).missing) :
    k ∈ missingFile v.path v.id := by
  unfold madeSeason at hk
  split at hk
  · exact nomatch hk
  · exact named_missing hk

theorem madeSeason_known (h : Found t v.path v.id) : (madeSeason v parentId).Known t := by
  unfold madeSeason
  split
  · trivial
  · exact named_known h

theorem Inv.getidByUri (h : Inv s) (hc : s.calls i = .getidByUri path)
    (hothers : ∀ j, j ≠ i → Key.file path ∉ (s.calls j).missing) :
    Inv ⟨s.table, Function.update s.calls i (localVideoName path (s.table.selectPath path))⟩ := by
  have hpath : path ≠ [] := by simpa [hc, Call.Known] using h.known i
  have hfound : Found s.table path (s.table.selectPath path) := by
    refine ⟨hpath, fun hid => ?_⟩
    rcases Table.selectPath_cases h.fits hpath with hnone | hsome
    · exact absurd hnone.1 hid
    · exact hsome.2
  refine h.stay (localVideoName_known hfound) fun k hk => ?_
  have hmem := localVideoName_missing hk
  unfold missingFile at hmem
  split at hmem
  · rename_i hid
    rw [List.mem_singleton.mp hmem]
    rcases Table.selectPath_cases h.fits hpath with hnone | hsome
    · exact ⟨hnone.2, hothers⟩
    · exact absurd hid hsome.1
  · exact nomatch hmem

theorem Inv.store (h : Inv s) {ok : Bool} (hc : s.calls i = .store path id parentId name)
    (hfits : Fits s.table.nextId) :
    Inv ⟨if ok = false then s.table
      else if id = -1 then s.table.insert parentId name path else s.table.rename id name,
      Function.update s.calls i .idle⟩ := by
  have hfound : Found s.table path id := by simpa [hc, Call.Known] using h.known i
  split
  · exact h.stay trivial fun k hk => nomatch hk
  · split
    · rename_i hid
      refine h.move [.file path] ?_ (List.nodup_singleton _) ?_ (Table.fits_insert h.fits hfits)
        (Table.keeps_insert _ _ _ _) trivial fun k hk => nomatch hk
      · rw [Table.keys_insert, if_neg hfound.1]
      · intro k hk
        rw [hc, Call.missing, missingFile, if_pos hid]
        exact hk
    · rename_i hid
      obtain ⟨r, hr, rfl, hfile⟩ := hfound.2 hid
      refine h.move [] ?_ List.nodup_nil (fun k hk => nomatch hk) (Table.fits_rename h.fits)
        (Table.keeps_rename _ _ _) trivial fun k hk => nomatch hk
      rw [List.append_nil]
      exact Table.keys_rename hr hfile

theorem step_inv {e : Event ι} (h : Inv s) (hapart : Apart s e) (hstep : step s e = some (s', ())) :
    Inv s' := by
  cases e with
  | addcontent i path =>
    simp only [step] at hstep
    split at hstep
    · cases hstep
      refine h.stay ?_ fun k hk => ?_
      · unfold addcontent
        split
        · trivial
        · rename_i hpath
          exact fun hnil => hpath (.inl hnil)
      · unfold addcontent at hk
        split at hk <;> exact nomatch hk
    · cases hstep
  | statement i ok =>
    have hknown := h.known i
    have hold : ∀ {k}, k ∈ (s.calls i).missing → _ := fun hk => h.old_missing hk
    simp only [step] at hstep
    simp only [Apart] at hapart
    cases hc : s.calls i with
    | idle =>
      rw [hc] at hstep
      cases hstep
    | getidByUri path =>
      rw [hc] at hstep hapart
      obtain ⟨rfl, hothers⟩ := hapart
      cases hstep
      exact h.getidByUri hc hothers
    | getidSerie v =>
      rw [hc] at hstep hapart hknown hold
      obtain ⟨rfl, hothers⟩ := hapart
      cases hstep
      simp only [if_true]
      split
      · rename_i hselect
        refine h.stay hknown (h.lookup_missing hselect hothers ?_)
        rw [hc]
        exact fun k hk => hk
      · exact h.stay hknown fun k hk => hold hk
    | mkdirSerie v =>
      rw [hc] at hstep hapart hknown
      cases hstep
      refine h.mkdir hapart ?_ ?_ (fun k => madeSerie_missing)
        fun t hkeep => madeSerie_known (Found.keep hknown hkeep)
      · rw [hc]
        exact List.mem_cons_self
      · rw [hc]
        exact fun k hk => List.mem_cons_of_mem _ hk
    | getidSeason v parentId =>
      rw [hc] at hstep hapart hknown hold
      obtain ⟨rfl, hothers⟩ := hapart
      cases hstep
      simp only [if_true]
      split
      · rename_i hselect
        refine h.stay hknown (h.lookup_missing hselect hothers ?_)
        rw [hc]
        exact fun k hk => hk
      · exact h.stay (named_known hknown) fun k hk => hold (named_missing hk)
    | mkdirSeason v parentId =>
      rw [hc] at hstep hapart hknown
      cases hstep
      refine h.mkdir hapart ?_ ?_ (fun k => madeSeason_missing)
        fun t hkeep => madeSeason_known (Found.keep hknown hkeep)
      · rw [hc]
        exact List.mem_cons_self
      · rw [hc]
        exact fun k hk => List.mem_cons_of_mem _ hk
    | store path id parentId name =>
      rw [hc] at hstep hapart
      cases hstep
      exact h.store hc hapart

/-- **No duplicate rows**: from a table without duplicates, whatever the order of the statements of
    any number of calls, the table has none if rows are looked up apart from the other calls. -/
theorem rows_unique {ι : Type} [DecidableEq ι] {t : Table} (hunique : t.Unique) (hfits : t.Fits)
    {tr : List (Event ι × Unit)} {s : State ι} (hrun : Run (Guarded step Apart) (init ι t) tr s) :
    s.table.Unique :=
  (Run.invariant (init_inv hunique hfits) (fun _ _ _ h hstep => step_inv h hstep.1 hstep.2)
    hrun).unique

def firstEpisode : CString := "/v/A.S01E01.mp4".toList

def secondEpisode : CString := "/v/A.S01E02.mp4".toList

/-- Two threads add two episodes: the second one looks up the series once the first one has made
    its directory, and the season likewise. -/
theorem rows_unique_two_episodes : newTable.Unique ∧ newTable.Fits ∧
    ∃ tr s, Run (Guarded step Apart) (init Bool newTable) tr s ∧ s.table.rows.length = 8 ∧
      s.table.Unique := by
  have hunique : newTable.Unique := by decide
  have hfits : newTable.Fits := by decide +kernel
  have hexec : (exec (fun s e => if Apart s e then step s e else none) (init Bool newTable)
      [.addcontent false firstEpisode, .addcontent true secondEpisode, .statement false true,
        .statement true true, .statement false true, .statement false true, .statement true true,
        .statement false true, .statement false true, .statement true true, .statement true true,
        .statement false true]).map (fun r => r.1.table.rows.length) = some 8 := by
    decide +kernel
  obtain ⟨r, hr, hlen⟩ := Option.map_eq_some_iff.mp hexec
  have hrun := run_of_guarded_exec _ hr
  exact ⟨hunique, hfits, r.2, r.1, hrun, hlen, rows_unique hunique hfits hrun⟩

/-- Both threads look up the series before one of them has made its directory. -/
theorem duplicate_series :
    ¬ ∀ (t : Table) (tr : List (Event Bool × Unit)) (s : State Bool), t.Unique →
      Run (Step step) (init Bool t) tr s → s.table.Unique := by
  have hexec : (exec step (init Bool newTable)
      [.addcontent false firstEpisode, .addcontent true secondEpisode, .statement false true,
        .statement true true, .statement false true, .statement true true, .statement false true,
        .statement true true]).map (fun r => decide r.1.table.Unique) = some false := by
    decide +kernel
  obtain ⟨r, hr, hdup⟩ := Option.map_eq_some_iff.mp hexec
  exact fun hall => of_decide_eq_false hdup (hall _ _ _ (by decide) (run_of_exec _ hr))

end Mediabox.LibraryAdd
