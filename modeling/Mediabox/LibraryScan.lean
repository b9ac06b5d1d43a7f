import Mathlib.Data.Fintype.Option
import Mediabox.LibraryShape

/-!
# The scan of the library (`src/library.c`)

`mbox_library_local_scan_library` goes through the stores with `mbox_library_scandir`, which calls
itself for the directories and `mbox_library_addcontent` for the files that it finds.

* `Dirents` — what `readdir` has yet to return of a directory, with what `stat` and libmagic say of
  it.  The files do not change while they are scanned, and memory is not exhausted.
* A frame is an activation of `mbox_library_scandir`.  A step is an entry of a directory, or one SQL
  statement of the scan or of another thread (`LibraryAdd`), or a deletion (`LibraryShape`).
* `videos` — the files of the stores that have a name in the library: those that libmagic takes for
  videos, in directories that are not hidden.

Main results: `scan_lists` — after a scan whose statements succeed every video is in its directory
under its name, and nothing else was added, but for what other threads were asked to add;
`scan_again` — a second scan changes nothing.
-/

set_option autoImplicit false

namespace Mediabox.LibraryScan

open Transition Library LibraryAdd LibraryShape

/-! ## The code -/

inductive Dirents where
  | nil
  /-- a file, and its MIME type if `magic_file` finds one -/
  | file (name : CString) (mime : Option CString) (rest : Dirents)
  | dir (name : CString) (entries rest : Dirents)
  /-- `stat` fails, or `opendir` -/
  | missing (name : CString) (rest : Dirents)
deriving DecidableEq, Repr

/-- An activation of `mbox_library_scandir`. -/
structure Frame where
  path : CString
  entries : Dirents
deriving DecidableEq, Repr

/-- The threads are the scan, `none`, and others. -/
structure State (ι : Type) where
  lib : LibraryAdd.State (Option ι)
  frames : List Frame

def hidden (name : CString) : Bool := name.head? = some '.'

def entpath (path name : CString) : CString := path ++ '/' :: name

/-- `!strncmp(mime, "video/", 6)` -/
def isVideo (mime : Option CString) : Bool := mime.any fun m => "video/".toList.isPrefixOf m

/-- What `mbox_library_scandir` does about a file. -/
def scanFile (path name : CString) (mime : Option CString) : Call :=
  if hidden name || !isVideo mime then .idle else addcontent (entpath path name)

/-- The next entry of the innermost directory. -/
def scandir : List Frame → Option (List Frame × Call)
  | [] => none
  | ⟨_, .nil⟩ :: frames => some (frames, .idle)
  | ⟨path, .missing _ rest⟩ :: frames => some (⟨path, rest⟩ :: frames, .idle)
  | ⟨path, .file name mime rest⟩ :: frames =>
    some (⟨path, rest⟩ :: frames, scanFile path name mime)
  | ⟨path, .dir name entries rest⟩ :: frames =>
    if hidden name then some (⟨path, rest⟩ :: frames, .idle)
    else some (⟨entpath path name, entries⟩ :: ⟨path, rest⟩ :: frames, .idle)

variable {ι : Type} [DecidableEq ι]

inductive Event (ι : Type) where
  /-- the scan goes on -/
  | readdir
  /-- a statement, a call of another thread, or a deletion -/
  | lib (e : LibraryShape.Event (Option ι))
deriving DecidableEq, Repr

/-- `mbox_library_local_scan_library`, with the stores that can be opened. -/
def start (ι : Type) (t : Table) (stores : List Frame) : State ι := ⟨init (Option ι) t, stores⟩

def step (s : State ι) : Event ι → Option (State ι × Unit)
  | .readdir =>
    if s.lib.calls none = .idle then
      (scandir s.frames).map fun r =>
        (⟨⟨s.lib.table, Function.update s.lib.calls none r.2⟩, r.1⟩, ())
    else none
  | .lib (.call (.addcontent none _)) => none
  | .lib e => (LibraryShape.step s.lib e).map fun r => (⟨r.1, s.frames⟩, ())

/-- `mbox_library_local_scan_library` has returned. -/
def Over (s : State ι) : Prop := s.frames = [] ∧ s.lib.calls none = .idle

instance (s : State ι) : Decidable (Over s) :=
  inferInstanceAs (Decidable (s.frames = [] ∧ s.lib.calls none = .idle))

/-! ## What it is for -/

/-- The name of a file in the library. -/
def title (path : CString) : CString :=
  match videoName path with
  | .movie title => title
  | .serie _ _ episode => episode

/-- The files that are offered to `mbox_library_addcontent` and looked up. -/
def offeredIn (path : CString) : Dirents → List CString
  | .nil => []
  | .missing _ rest => offeredIn path rest
  | .file name mime rest =>
    if scanFile path name mime = .idle then offeredIn path rest
    else entpath path name :: offeredIn path rest
  | .dir name entries rest =>
    (if hidden name then [] else offeredIn (entpath path name) entries) ++ offeredIn path rest

def offered (frames : List Frame) : List CString :=
  frames.flatMap fun f => offeredIn f.path f.entries

/-- The files that come into the library. -/
def videos (frames : List Frame) : List CString := (offered frames).filter fun p => title p ≠ []

/-- The file that a call is about. -/
def file? : Call → Option CString
  | .idle => none
  | .getidByUri path | .store path _ _ _ => some path
  | .getidSerie v | .mkdirSerie v | .getidSeason v _ | .mkdirSeason v _ => some v.path

/-! ## The directories -/

section Directories

variable {frames frames' : List Frame} {c : Call} {path name p : CString} {mime : Option CString}

theorem file?_addcontent (h : file? (addcontent path) = some p) : p = path := by
  unfold addcontent at h
  split at h
  · cases h
  · cases h
    rfl

/-- **An entry is not lost**: what is offered next is the call of the entry and what remains. -/
theorem scandir_offered (h : scandir frames = some (frames', c)) :
    offered frames = (file? c).toList ++ offered frames' := by
  cases frames with
  | nil => cases h
  | cons f frames =>
    obtain ⟨path, entries⟩ := f
    simp only [offered, List.flatMap_cons]
    cases entries with
    | nil | missing name rest =>
      cases h
      rfl
    | file name mime rest =>
      cases h
      rw [offeredIn, List.flatMap_cons]
      split
      · rename_i hidle
        rw [hidle]
        rfl
      · rename_i hbusy
        have hfile : file? (scanFile path name mime) = some (entpath path name) := by
          unfold scanFile at hbusy ⊢
          split
          · rename_i hskip
            exact absurd (if_pos hskip) hbusy
          · rename_i hvideo
            rw [if_neg hvideo] at hbusy
            unfold addcontent at hbusy ⊢
            split
            · rename_i hsub
              exact absurd (if_pos hsub) hbusy
            · rfl
        rw [hfile]
        rfl
    | dir name entries rest =>
      rw [scandir] at h
      rw [offeredIn]
      split at h
      · rename_i hhidden
        cases h
        rw [if_pos hhidden]
        rfl
      · rename_i hvisible
        cases h
        rw [if_neg hvisible, List.append_assoc]
        rfl

theorem offeredIn_ne_nil {entries : Dirents} (h : p ∈ offeredIn path entries) : p ≠ [] := by
  induction entries generalizing path with
  | nil => cases h
  | missing name rest ih => exact ih h
  | file name mime rest ih =>
    rw [offeredIn] at h
    split at h
    · exact ih h
    · rcases List.mem_cons.mp h with rfl | hrest
      · exact List.append_ne_nil_of_right_ne_nil _ (List.cons_ne_nil _ _)
      · exact ih hrest
  | dir name entries rest ihe ih =>
    rw [offeredIn] at h
    rcases List.mem_append.mp h with hentries | hrest
    · split at hentries
      · cases hentries
      · exact ihe hentries
    · exact ih hrest

theorem offered_ne_nil (h : p ∈ offered frames) : p ≠ [] := by
  obtain ⟨f, -, hf⟩ := List.mem_flatMap.mp h
  exact offeredIn_ne_nil hf

end Directories

/-! ## One statement -/

section Statements

variable {t t' : Table} {c c' : Call} {path name p : CString} {id parentId : Int} {ok : Bool}

/-- There is a row of a file. -/
def Has (t : Table) (p : CString) : Prop := ∃ r ∈ t.rows, r.path = p

theorem Has.mono (h : Has t p) (hrows : t.rows <+: t'.rows) : Has t' p := by
  obtain ⟨r, hr, hpath⟩ := h
  exact ⟨r, hrows.subset hr, hpath⟩

theorem stands_title (h : Stands t path parentId name) : name = title path := by
  unfold Stands at h
  unfold title
  cases hvideo : videoName path with
  | movie title | serie serie season episode =>
    rw [hvideo] at h
    exact h.2

theorem title_serie {v : Episode} (h : OfSerie t v) : title v.path = v.episode := by
  unfold title
  rw [h.1]

theorem file?_named (h : name ≠ []) : file? (named path id parentId name) = some path := by
  unfold named
  rw [if_neg h]
  rfl

theorem file?_localVideoName (h : title path ≠ []) :
    file? (localVideoName path id) = some path := by
  unfold title at h
  unfold localVideoName
  cases hvideo : videoName path with
  | movie title =>
    rw [hvideo] at h
    exact file?_named h
  | serie serieName season episode =>
    dsimp only
    split <;> rfl

/-- **A call goes on until there is a row of its file**, when its statements succeed. -/
theorem runStatement_pursues (hsound : Sound t c) (hnext : Fits t.nextId)
    (hrun : runStatement t true c = some (t', c')) (hp : file? c = some p)
    (htitle : title p ≠ []) : file? c' = some p ∨ Has t' p := by
  cases c with
  | idle => cases hp
  | getidByUri path =>
    cases hp
    cases hrun
    exact .inl (file?_localVideoName htitle)
  | getidSerie v =>
    cases hp
    cases hrun
    generalize (if true then t.selectChild directorySeries v.serieName else -1) = id
    split <;> exact .inl rfl
  | mkdirSerie v =>
    cases hp
    cases hrun
    refine .inl ?_
    show file? (madeSerie v (int t.nextId)) = _
    rw [hnext.1, madeSerie, if_neg hnext.2]
    rfl
  | getidSeason v parentId =>
    cases hp
    cases hrun
    generalize (if true then t.selectChild parentId v.season else -1) = id
    split
    · exact .inl rfl
    · exact .inl (file?_named (title_serie hsound.1 ▸ htitle))
  | mkdirSeason v parentId =>
    cases hp
    cases hrun
    refine .inl ?_
    show file? (madeSeason v (int t.nextId)) = _
    rw [hnext.1, madeSeason, if_neg hnext.2]
    exact file?_named (title_serie hsound.1 ▸ htitle)
  | store path id parentId name =>
    cases hp
    cases hrun
    refine .inr ?_
    rw [if_neg (Bool.false_ne_true ∘ Eq.symm)]
    split
    · exact ⟨_, mem_insert, rfl⟩
    · rename_i hid
      obtain ⟨r, hr, -, hpath⟩ := hsound.1.2 hid
      obtain ⟨r', hr', -, hpath'⟩ := Table.keeps_rename t id name r hr
      exact ⟨r', hr', hpath'.trans hpath⟩

theorem runStatement_file? (hrun : runStatement t ok c = some (t', c')) (hp : file? c' = some p) :
    file? c = some p := by
  have hnamed : ∀ {path id parentId name}, file? (named path id parentId name) = some p →
      path = p := by
    intro path id parentId name h
    unfold named at h
    split at h
    · cases h
    · exact Option.some.inj h
  cases c with
  | idle => cases hrun
  | getidByUri path =>
    cases hrun
    unfold localVideoName at hp
    split at hp
    · split at hp <;> exact hp
    · exact congrArg some (hnamed hp)
  | getidSerie v =>
    cases hrun
    generalize (if ok then t.selectChild directorySeries v.serieName else -1) = id at hp
    split at hp <;> exact hp
  | mkdirSerie v =>
    cases hrun
    unfold madeSerie at hp
    split at hp
    · cases hp
    · exact hp
  | getidSeason v parentId =>
    cases hrun
    generalize (if ok then t.selectChild parentId v.season else -1) = id at hp
    split at hp
    · exact hp
    · exact congrArg some (hnamed hp)
  | mkdirSeason v parentId =>
    cases hrun
    unfold madeSeason at hp
    split at hp
    · cases hp
    · exact congrArg some (hnamed hp)
  | store path id parentId name =>
    cases hrun
    cases hp

/-- The rows of files that there are after a statement: one may be that of the call. -/
theorem runStatement_rows (hsound : Sound t c) (hrun : runStatement t ok c = some (t', c'))
    (hp : Has t' p) (hpath : p ≠ []) : Has t p ∨ file? c = some p ∧ title p ≠ [] := by
  obtain ⟨r, hr, rfl⟩ := hp
  have hmkdir : ∀ {name parentId}, r ∈ (mkdir t ok name parentId).1.rows → Has t r.path := by
    intro name parentId hr
    unfold mkdir at hr
    split at hr
    · rcases List.mem_append.mp hr with hold | hnew
      · exact ⟨r, hold, rfl⟩
      · rw [List.mem_singleton.mp hnew] at hpath
        exact absurd rfl hpath
    · exact ⟨r, hr, rfl⟩
  cases c with
  | idle => cases hrun
  | getidByUri path | getidSerie v | getidSeason v parentId =>
    cases hrun
    exact .inl ⟨r, hr, rfl⟩
  | mkdirSerie v | mkdirSeason v parentId =>
    cases hrun
    exact .inl (hmkdir hr)
  | store path id parentId name =>
    cases hrun
    obtain ⟨-, hstands, hname⟩ := hsound
    split at hr
    · exact .inl ⟨r, hr, rfl⟩
    · split at hr
      · rcases List.mem_append.mp hr with hold | hnew
        · exact .inl ⟨r, hold, rfl⟩
        · rw [List.mem_singleton.mp hnew]
          exact .inr ⟨rfl, stands_title hstands ▸ hname⟩
      · obtain ⟨r', hr', rfl⟩ := List.mem_map.mp hr
        refine .inl ⟨r', hr', ?_⟩
        unfold Row.rename
        split <;> rfl

end Statements

/-! ## The scan among other threads -/

/-- The statements of the scan succeed, the ids fit in an `int`, and no video of the stores is
    deleted, nor a row that a call is going to name. -/
def Served (stores : List Frame) (s : State ι) : Event ι → Prop
  | .readdir | .lib (.call (.addcontent _ _)) => True
  | .lib (.call (.statement i ok)) => (i = none → ok = true) ∧ Fits s.lib.table.nextId
  | .lib (.delete path) => Clean s.lib (.delete path) ∧
      ∀ p ∈ videos stores, SqlLike.like (path ++ ['%']) p = false

instance [Fintype ι] (stores : List Frame) (s : State ι) :
    (e : Event ι) → Decidable (Served stores s e)
  | .readdir | .lib (.call (.addcontent _ _)) => isTrue trivial
  | .lib (.call (.statement i ok)) =>
    inferInstanceAs (Decidable ((i = none → ok = true) ∧ Fits s.lib.table.nextId))
  | .lib (.delete path) => inferInstanceAs (Decidable (Clean s.lib (.delete path) ∧
      ∀ p ∈ videos stores, SqlLike.like (path ++ ['%']) p = false))

/-- Another thread is asked to add a file. -/
def asked (i : ι) (p : CString) : Event ι × Unit := (.lib (.call (.addcontent (some i) p)), ())

section Runs

variable {t t' : Table} {stores : List Frame} {s s' : State ι} {e : Event ι} {p : CString}
  {tr tr' : List (Event ι × Unit)}

/-- What a step does. -/
theorem step_cases (h : step s e = some (s', ())) :
    (∃ frames c, e = .readdir ∧ scandir s.frames = some (frames, c) ∧
      s.lib.calls none = .idle ∧
      s' = ⟨⟨s.lib.table, Function.update s.lib.calls none c⟩, frames⟩) ∨
    (∃ i path, e = .lib (.call (.addcontent (some i) path)) ∧
      s' = ⟨⟨s.lib.table, Function.update s.lib.calls (some i) (addcontent path)⟩, s.frames⟩) ∨
    (∃ i ok t' c', e = .lib (.call (.statement i ok)) ∧
      runStatement s.lib.table ok (s.lib.calls i) = some (t', c') ∧
      s' = ⟨⟨t', Function.update s.lib.calls i c'⟩, s.frames⟩) ∨
    ∃ path, e = .lib (.delete path) ∧
      s' = ⟨⟨(LibraryEvents.Mask.delete.action path).delete s.lib.table, s.lib.calls⟩,
        s.frames⟩ := by
  cases e with
  | readdir =>
    simp only [step] at h
    split at h
    · rename_i hidle
      obtain ⟨⟨frames, c⟩, hscan, heq⟩ := Option.map_eq_some_iff.mp h
      cases heq
      exact .inl ⟨frames, c, rfl, hscan, hidle, rfl⟩
    · cases h
  | lib e =>
    cases e with
    | call e =>
      cases e with
      | addcontent i path =>
        cases i with
        | none => cases h
        | some i =>
          simp only [step, LibraryShape.step, LibraryAdd.step] at h
          split at h
          · cases h
            exact .inr (.inl ⟨i, path, rfl, rfl⟩)
          · cases h
      | statement i ok =>
        simp only [step, LibraryShape.step, LibraryAdd.step, Option.map_map] at h
        obtain ⟨⟨t', c'⟩, hrun, heq⟩ := Option.map_eq_some_iff.mp h
        cases heq
        exact .inr (.inr (.inl ⟨i, ok, t', c', rfl, hrun, rfl⟩))
    | delete path =>
      cases h
      exact .inr (.inr (.inr ⟨path, rfl, rfl⟩))

theorem scanFile_sound (t : Table) (path name : CString) (mime : Option CString) :
    Sound t (scanFile path name mime) := by
  unfold scanFile
  split
  · trivial
  · exact addcontent_sound _ _

theorem scandir_sound {frames frames' : List Frame} {c : Call} (t : Table)
    (h : scandir frames = some (frames', c)) : Sound t c := by
  unfold scandir at h
  split at h
  · cases h
  · cases h
    trivial
  · cases h
    trivial
  · cases h
    exact scanFile_sound _ _ _ _
  · split at h <;> (cases h; trivial)

theorem step_shape (h : LibraryShape.Inv s.lib) (hserved : Served stores s e)
    (hstep : step s e = some (s', ())) : LibraryShape.Inv s'.lib := by
  obtain ⟨frames, c, rfl, hscan, -, rfl⟩ | ⟨i, path, rfl, rfl⟩ | ⟨i, ok, t', c', rfl, hrun, rfl⟩ |
    ⟨path, rfl, rfl⟩ := step_cases hstep
  · exact ⟨h.shaped, h.fits, sound_update (scandir_sound _ hscan) h.sound⟩
  · exact ⟨h.shaped, h.fits, sound_update (addcontent_sound _ _) h.sound⟩
  · have hkept := runStatement_kept h.shaped h.fits hserved.2 (h.sound i) hrun
    exact ⟨hkept.shaped, hkept.fits,
      sound_update hkept.sound fun j => (h.sound j).mono hkept.rows⟩
  · exact LibraryShape.step_inv (e := .delete path) h hserved.1 rfl

/-- A video has a row, or is still to come, or the scan is at it. -/
def Reached (s : State ι) (p : CString) : Prop :=
  Has s.lib.table p ∨ p ∈ offered s.frames ∨ file? (s.lib.calls none) = some p

/-- **No video is lost** in a step. -/
theorem step_reached (h : LibraryShape.Inv s.lib) (hserved : Served stores s e)
    (hstep : step s e = some (s', ())) (hp : p ∈ videos stores) (hreached : Reached s p) :
    Reached s' p := by
  have htitle : title p ≠ [] := of_decide_eq_true (List.mem_filter.mp hp).2
  obtain ⟨frames, c, rfl, hscan, hidle, rfl⟩ | ⟨i, path, rfl, rfl⟩ |
    ⟨i, ok, t', c', rfl, hrun, rfl⟩ | ⟨path, rfl, rfl⟩ := step_cases hstep
  · rcases hreached with hhas | hoffered | hcall
    · exact .inl hhas
    · rw [scandir_offered hscan, List.mem_append, Option.mem_toList] at hoffered
      refine .inr (hoffered.symm.imp_right fun hc => ?_)
      dsimp only
      rwa [Function.update_self]
    · rw [hidle] at hcall
      cases hcall
  · refine hreached.imp_right (Or.imp_right fun hcall => ?_)
    dsimp only
    rwa [Function.update_of_ne (fun heq => Option.some_ne_none i heq.symm)]
  · have hkept := runStatement_kept h.shaped h.fits hserved.2 (h.sound i) hrun
    rcases hreached with hhas | hoffered | hcall
    · exact .inl (hhas.mono hkept.rows)
    · exact .inr (.inl hoffered)
    · cases i with
      | none =>
        obtain rfl := hserved.1 rfl
        rcases runStatement_pursues (h.sound none) hserved.2 hrun hcall htitle with hgoes | hhas
        · refine .inr (.inr ?_)
          dsimp only
          rwa [Function.update_self]
        · exact .inl hhas
      | some i =>
        refine .inr (.inr ?_)
        dsimp only
        rwa [Function.update_of_ne (fun heq => Option.some_ne_none i heq.symm)]
  · refine hreached.imp_left ?_
    rintro ⟨r, hr, rfl⟩
    refine ⟨r, List.mem_filter.mpr ⟨hr, ?_⟩, rfl⟩
    rw [Bool.not_eq_true']
    exact hserved.2 _ hp

/-- Where a file of the library comes from. -/
def Known (t : Table) (stores : List Frame) (tr : List (Event ι × Unit)) (p : CString) : Prop :=
  Has t p ∨ p ∈ videos stores ∨ ∃ i, asked i p ∈ tr

omit [DecidableEq ι] in
theorem Known.snoc (h : Known t stores tr p) (a : Event ι × Unit) :
    Known t stores (tr ++ [a]) p :=
  h.imp_right (Or.imp_right fun ⟨i, hi⟩ => ⟨i, List.mem_append_left _ hi⟩)

/-- Every call is about a file that it was given, and every file has come from somewhere. -/
structure Origin (t : Table) (stores : List Frame) (tr : List (Event ι × Unit)) (s : State ι) :
    Prop where
  rows : ∀ p, Has s.lib.table p → p ≠ [] → Known t stores tr p
  frames : ∀ p ∈ offered s.frames, p ∈ offered stores
  scan : ∀ p, file? (s.lib.calls none) = some p → p ∈ offered stores
  others : ∀ i p, file? (s.lib.calls (some i)) = some p → asked i p ∈ tr

omit [DecidableEq ι] in
theorem Origin.start (t : Table) (stores : List Frame) :
    Origin t stores [] (start ι t stores) where
  rows := fun _ hhas _ => .inl hhas
  frames := fun _ hp => hp
  scan := fun _ hp => absurd hp (Option.some_ne_none _).symm
  others := fun _ _ hp => absurd hp (Option.some_ne_none _).symm

theorem Origin.step (h : Origin t stores tr s) (hinv : LibraryShape.Inv s.lib)
    (hstep : LibraryScan.step s e = some (s', ())) : Origin t stores (tr ++ [(e, ())]) s' := by
  have hothers : ∀ i p, file? (s.lib.calls (some i)) = some p → asked i p ∈ tr ++ [(e, ())] :=
    fun i p hp => List.mem_append_left _ (h.others i p hp)
  have hrows : ∀ p, Has s.lib.table p → p ≠ [] → Known t stores (tr ++ [(e, ())]) p :=
    fun p hhas hpath => (h.rows p hhas hpath).snoc _
  obtain ⟨frames, c, rfl, hscan, -, rfl⟩ | ⟨i, path, rfl, rfl⟩ | ⟨i, ok, t', c', rfl, hrun, rfl⟩ |
    ⟨path, rfl, rfl⟩ := step_cases hstep
  · have hoffered := scandir_offered hscan
    refine ⟨hrows, fun p hp => ?_, fun p hp => ?_, fun i p hp => ?_⟩
    · exact h.frames p (hoffered ▸ List.mem_append_right _ hp)
    · dsimp only at hp
      rw [Function.update_self] at hp
      exact h.frames p (hoffered ▸ List.mem_append_left _ (Option.mem_toList.mpr hp))
    · dsimp only at hp
      rw [Function.update_of_ne (Option.some_ne_none i)] at hp
      exact hothers i p hp
  · refine ⟨hrows, h.frames, fun p hp => ?_, fun j p hp => ?_⟩
    · dsimp only at hp
      rw [Function.update_of_ne (fun heq => Option.some_ne_none i heq.symm)] at hp
      exact h.scan p hp
    · dsimp only at hp
      by_cases hj : some j = some i
      · cases hj
        rw [Function.update_self] at hp
        rw [file?_addcontent hp]
        exact List.mem_append_right _ List.mem_cons_self
      · rw [Function.update_of_ne hj] at hp
        exact hothers j p hp
  · have hfile : ∀ j p, file? (Function.update s.lib.calls i c' j) = some p →
        file? (s.lib.calls j) = some p := by
      intro j p hp
      by_cases hj : j = i
      · rw [hj, Function.update_self] at hp
        rw [hj]
        exact runStatement_file? hrun hp
      · rwa [Function.update_of_ne hj] at hp
    refine ⟨fun p hhas hpath => ?_, h.frames, fun p hp => h.scan p (hfile none p hp),
      fun j p hp => hothers j p (hfile (some j) p hp)⟩
    rcases runStatement_rows (hinv.sound i) hrun hhas hpath with hold | ⟨hcall, htitle⟩
    · exact hrows p hold hpath
    · refine .inr ?_
      cases i with
      | none =>
        exact .inl (List.mem_filter.mpr ⟨h.scan p hcall, decide_eq_true htitle⟩)
      | some i => exact .inr ⟨i, hothers i p hcall⟩
  · refine ⟨fun p hhas hpath => ?_, h.frames, h.scan, hothers⟩
    obtain ⟨r, hr, hpr⟩ := hhas
    exact hrows p ⟨r, (List.mem_filter.mp hr).1, hpr⟩ hpath

/-- **The scan lists the stores**: when it is over every video is in its directory under its name,
    whatever other threads did in the meantime, and every other file was in the library before or
    was given to another thread. -/
theorem scan_lists (hshaped : Shaped t) (hfits : t.Fits)
    (h : Run (Guarded step (Served stores)) (start ι t stores) tr s) (hover : Over s) :
    (∀ p ∈ videos stores, ∃ r ∈ s.lib.table.rows, r.path = p ∧
      Stands s.lib.table p r.parentId r.name) ∧
    ∀ r ∈ s.lib.table.rows, r.path ≠ [] → Known t stores tr r.path := by
  have hinv : (LibraryShape.Inv s.lib ∧ ∀ p ∈ videos stores, Reached s p) ∧
      Origin t stores tr s := by
    refine Run.history (P := fun tr s => (LibraryShape.Inv s.lib ∧
      ∀ p ∈ videos stores, Reached s p) ∧ Origin t stores tr s) ?_ ?_ h
    · exact ⟨⟨init_inv hshaped hfits, fun p hp => .inr (.inl (List.mem_filter.mp hp).1)⟩,
        Origin.start t stores⟩
    · rintro tr s ⟨e, ⟨⟩⟩ s' ⟨⟨hinv, hreached⟩, horigin⟩ ⟨hserved, hstep⟩
      exact ⟨⟨step_shape hinv hserved hstep,
        fun p hp => step_reached hinv hserved hstep hp (hreached p hp)⟩, horigin.step hinv hstep⟩
  obtain ⟨⟨hlib, hreached⟩, horigin⟩ := hinv
  refine ⟨fun p hp => ?_, fun r hr hpath => horigin.rows _ ⟨r, hr, rfl⟩ hpath⟩
  rcases hreached p hp with ⟨r, hr, rfl⟩ | hoffered | hcall
  · have hpath : r.path ≠ [] := offered_ne_nil (List.mem_filter.mp hp).1
    exact ⟨r, hr, rfl, (hlib.shaped.placed r hr).stands hpath⟩
  · rw [hover.1] at hoffered
    cases hoffered
  · rw [hover.2] at hcall
    cases hcall

end Runs

/-! ## What a second scan finds -/

section Lookups

variable {t t' : Table} {c c' : Call} {path name p : CString} {id parentId : Int} {v : Episode}

def serieId (t : Table) (serie : CString) : Int :=
  if serie = [] then directorySeries else t.selectChild directorySeries serie

/-- The directories of a file are found. -/
def HasDirs (t : Table) (p : CString) : Prop :=
  match videoName p with
  | .movie _ => True
  | .serie serie season _ =>
    serieId t serie ≠ -1 ∧ t.selectChild (serieId t serie) season ≠ -1

/-- All lookups for a file find something, or it has no name. -/
def Settled (t : Table) (p : CString) : Prop :=
  (title p = [] ∨ t.selectPath p ≠ -1) ∧ HasDirs t p

theorem selectChild_mono (hrows : t.rows <+: t'.rows) (h : t.selectChild parentId name ≠ -1) :
    t'.selectChild parentId name = t.selectChild parentId name := by
  obtain ⟨rest, hrest⟩ := hrows
  unfold Table.selectChild Table.child? at h ⊢
  rw [← hrest, List.find?_append]
  cases hfind : t.rows.find? fun r => r.parentId = parentId ∧ r.name = name with
  | none =>
    rw [hfind] at h
    exact absurd rfl h
  | some r => rfl

theorem selectPath_mono (hrows : t.rows <+: t'.rows) (h : t.selectPath path ≠ -1) :
    t'.selectPath path = t.selectPath path := by
  obtain ⟨rest, hrest⟩ := hrows
  unfold Table.selectPath at h ⊢
  rw [← hrest, List.find?_append]
  cases hfind : t.rows.find? fun r => r.path = path with
  | none =>
    rw [hfind] at h
    exact absurd rfl h
  | some r => rfl

theorem serieId_mono (hrows : t.rows <+: t'.rows) (h : serieId t name ≠ -1) :
    serieId t' name = serieId t name := by
  unfold serieId at h ⊢
  split
  · rfl
  · rename_i hname
    rw [if_neg hname] at h
    exact selectChild_mono hrows h

theorem HasDirs.mono (h : HasDirs t p) (hrows : t.rows <+: t'.rows) : HasDirs t' p := by
  unfold HasDirs at h ⊢
  split at h
  · trivial
  · rw [serieId_mono hrows h.1]
    exact ⟨h.1, (selectChild_mono hrows h.2).symm ▸ h.2⟩

theorem Settled.mono (h : Settled t p) (hrows : t.rows <+: t'.rows) : Settled t' p :=
  ⟨h.1.imp_right fun hpath => (selectPath_mono hrows hpath).symm ▸ hpath, h.2.mono hrows⟩

theorem insert_rows : (t.insert parentId name path).rows =
    t.rows ++ [⟨t.nextId, parentId, name, path⟩] := rfl

/-- A directory that was not found is found once it is inserted. -/
theorem selectChild_insert (hfits : t.Fits) (h : t.selectChild parentId name = -1) :
    (t.insert parentId name path).selectChild parentId name = int t.nextId := by
  unfold Table.selectChild Table.child? at h ⊢
  rw [insert_rows, List.find?_append]
  cases hfind : t.rows.find? fun r => r.parentId = parentId ∧ r.name = name with
  | none => simp
  | some r =>
    rw [hfind] at h
    have hfit := hfits r (List.mem_of_find?_eq_some hfind)
    exact absurd (hfit.1.symm.trans h) hfit.2

theorem selectPath_insert (hfits : t.Fits) (h : t.selectPath path = -1) :
    (t.insert parentId name path).selectPath path = int t.nextId := by
  unfold Table.selectPath at h ⊢
  rw [insert_rows, List.find?_append]
  cases hfind : t.rows.find? fun r => r.path = path with
  | none => simp
  | some r =>
    rw [hfind] at h
    have hfit := hfits r (List.mem_of_find?_eq_some hfind)
    exact absurd (hfit.1.symm.trans h) hfit.2

theorem selectPath_insert_dir (hpath : path ≠ []) :
    (t.insert parentId name []).selectPath path = t.selectPath path := by
  unfold Table.selectPath
  rw [insert_rows, List.find?_append]
  cases t.rows.find? fun r => r.path = path with
  | none => simp [Ne.symm hpath]
  | some r => rfl

/-- What a call knows from its lookups, when no other thread changes the table. -/
def Tracks (t : Table) : Call → Prop
  | .idle | .getidByUri _ => True
  | .getidSerie v => v.id = t.selectPath v.path
  | .mkdirSerie v =>
    v.id = t.selectPath v.path ∧ t.selectChild directorySeries v.serieName = -1
  | .getidSeason v parentId =>
    v.id = t.selectPath v.path ∧ parentId = serieId t v.serieName ∧ parentId ≠ -1
  | .mkdirSeason v parentId =>
    (v.id = t.selectPath v.path ∧ parentId = serieId t v.serieName ∧ parentId ≠ -1) ∧
      t.selectChild parentId v.season = -1
  | .store path id _ _ => id = t.selectPath path ∧ HasDirs t path

/-- The call goes on with its file, or it is over and the file is settled. -/
def Advances (t : Table) (c : Call) (p : CString) : Prop :=
  file? c = some p ∧ Tracks t c ∨ c = .idle ∧ Settled t p

theorem named_advances (hid : id = t.selectPath path) (hdirs : HasDirs t path)
    (hname : name = title path) : Advances t (named path id parentId name) path := by
  unfold named
  split
  · rename_i hnil
    exact .inr ⟨rfl, .inl (hname ▸ hnil), hdirs⟩
  · exact .inl ⟨rfl, hid, hdirs⟩

theorem localVideoName_advances : Advances t (localVideoName path (t.selectPath path)) path := by
  unfold localVideoName
  cases hvideo : videoName path with
  | movie name =>
    refine named_advances rfl ?_ ?_
    · unfold HasDirs
      rw [hvideo]
      trivial
    · unfold title
      rw [hvideo]
  | serie serieName season episode =>
    dsimp only
    split
    · rename_i hserie
      refine .inl ⟨rfl, rfl, ?_, by decide⟩
      exact (if_pos hserie).symm
    · exact .inl ⟨rfl, rfl⟩

theorem hasDirs_serie (hv : OfSerie t v) (hserie : serieId t v.serieName ≠ -1)
    (hseason : t.selectChild (serieId t v.serieName) v.season ≠ -1) : HasDirs t v.path := by
  unfold HasDirs
  rw [hv.1]
  exact ⟨hserie, hseason⟩

/-- **A call settles its file**, when its statements succeed and no other thread is at work. -/
theorem runStatement_advances (hshaped : Shaped t) (hfits : t.Fits) (hnext : Fits t.nextId)
    (hsound : Sound t c) (htracks : Tracks t c) (hrun : runStatement t true c = some (t', c'))
    (hp : file? c = some p) : Advances t' c' p := by
  cases c with
  | idle => cases hp
  | getidByUri path =>
    cases hp
    cases hrun
    exact localVideoName_advances
  | getidSerie v =>
    cases hp
    cases hrun
    show Advances t (if t.selectChild directorySeries v.serieName = -1 then .mkdirSerie v
      else .getidSeason v (t.selectChild directorySeries v.serieName)) v.path
    split
    · rename_i hid
      exact .inl ⟨rfl, htracks, hid⟩
    · rename_i hid
      exact .inl ⟨rfl, htracks, (if_neg hsound.2).symm, hid⟩
  | mkdirSerie v =>
    cases hp
    cases hrun
    obtain ⟨hid, hmissing⟩ := htracks
    have hmade : serieId (t.insert directorySeries v.serieName []) v.serieName = t.nextId := by
      rw [serieId, if_neg hsound.2, selectChild_insert hfits hmissing, hnext.1]
    show Advances (t.insert directorySeries v.serieName []) (madeSerie v (int t.nextId)) v.path
    rw [hnext.1, madeSerie, if_neg hnext.2]
    exact .inl ⟨rfl, hid.trans (selectPath_insert_dir hsound.1.2.1).symm, hmade.symm, hnext.2⟩
  | getidSeason v parentId =>
    cases hp
    cases hrun
    obtain ⟨hid, rfl, hserie⟩ := htracks
    show Advances t (if t.selectChild (serieId t v.serieName) v.season = -1 then
      .mkdirSeason v (serieId t v.serieName)
      else named v.path v.id (t.selectChild (serieId t v.serieName) v.season) v.episode) v.path
    split
    · rename_i hseason
      exact .inl ⟨rfl, ⟨hid, rfl, hserie⟩, hseason⟩
    · rename_i hseason
      exact named_advances hid (hasDirs_serie hsound.1 hserie hseason) (title_serie hsound.1).symm
  | mkdirSeason v parentId =>
    cases hp
    cases hrun
    obtain ⟨⟨hid, rfl, hserie⟩, hmissing⟩ := htracks
    have hrows : t.rows <+: (t.insert (serieId t v.serieName) v.season []).rows :=
      List.prefix_append _ _
    have hfound : (t.insert (serieId t v.serieName) v.season []).selectChild
        (serieId t v.serieName) v.season = int t.nextId := selectChild_insert hfits hmissing
    show Advances (t.insert (serieId t v.serieName) v.season []) (madeSeason v (int t.nextId))
      v.path
    rw [hnext.1, madeSeason, if_neg hnext.2]
    refine named_advances (hid.trans (selectPath_insert_dir hsound.1.2.1).symm) ?_
      (title_serie hsound.1).symm
    refine hasDirs_serie ⟨hsound.1.1, hsound.1.2.mono hrows⟩ ?_ ?_
    · rw [serieId_mono hrows hserie]
      exact hserie
    · rw [serieId_mono hrows hserie, hfound, hnext.1]
      exact hnext.2
  | store path id parentId name =>
    cases hp
    cases hrun
    obtain ⟨rfl, hdirs⟩ := htracks
    refine .inr ⟨rfl, ?_⟩
    rw [if_neg (Bool.false_ne_true ∘ Eq.symm)]
    split
    · rename_i hid
      refine ⟨.inr ?_, hdirs.mono (List.prefix_append _ _)⟩
      rw [selectPath_insert hfits hid, hnext.1]
      exact hnext.2
    · rename_i hid
      rw [hshaped.rename_eq hsound.1 hsound.2.1 hid]
      exact ⟨.inr hid, hdirs⟩

/-- **A settled file changes nothing.** -/
theorem runStatement_settled (hshaped : Shaped t) (hsound : Sound t c) (htracks : Tracks t c)
    (hrun : runStatement t true c = some (t', c')) (hp : file? c = some p) (h : Settled t p) :
    t' = t := by
  cases c with
  | idle => cases hp
  | getidByUri path | getidSerie v | getidSeason v parentId =>
    cases hrun
    rfl
  | mkdirSerie v =>
    cases hp
    have hdirs := h.2
    unfold HasDirs at hdirs
    rw [hsound.1.1] at hdirs
    have hserie := hdirs.1
    rw [serieId, if_neg hsound.2] at hserie
    exact absurd htracks.2 hserie
  | mkdirSeason v parentId =>
    cases hp
    have hdirs := h.2
    unfold HasDirs at hdirs
    rw [hsound.1.1] at hdirs
    obtain ⟨⟨-, rfl, -⟩, hmissing⟩ := htracks
    exact absurd hmissing hdirs.2
  | store path id parentId name =>
    cases hp
    cases hrun
    obtain ⟨hlooked, hstands, hname⟩ := hsound
    have hid : id ≠ -1 := by
      rw [htracks.1]
      exact h.1.resolve_left (stands_title hstands ▸ hname)
    rw [if_neg (Bool.false_ne_true ∘ Eq.symm), if_neg hid]
    exact hshaped.rename_eq hlooked hstands hid

end Lookups

/-! ## Scans one after the other -/

/-- Only the scan is at work, and its statements succeed. -/
def Alone (s : State ι) : Event ι → Prop
  | .readdir => True
  | .lib (.call (.statement none ok)) => ok = true ∧ Fits s.lib.table.nextId
  | .lib (.call (.statement (some _) _)) | .lib (.call (.addcontent _ _)) | .lib (.delete _) => False

instance (s : State ι) : (e : Event ι) → Decidable (Alone s e)
  | .readdir => isTrue trivial
  | .lib (.call (.statement none ok)) =>
    inferInstanceAs (Decidable (ok = true ∧ Fits s.lib.table.nextId))
  | .lib (.call (.statement (some _) _)) | .lib (.call (.addcontent _ _)) | .lib (.delete _) =>
    isFalse id

section Again

variable {t : Table} {stores : List Frame} {s s' : State ι} {e : Event ι} {p : CString}
  {tr tr' : List (Event ι × Unit)}

omit [DecidableEq ι] in
theorem Alone.served (h : Alone s e) : Served stores s e := by
  cases e with
  | readdir => trivial
  | lib e =>
    cases e with
    | delete path => exact h.elim
    | call e =>
      cases e with
      | addcontent i path => exact h.elim
      | statement i ok =>
        cases i with
        | none => exact ⟨fun _ => h.1, h.2⟩
        | some i => exact h.elim

/-- What a step of the scan does. -/
theorem alone_cases (halone : Alone s e) (h : step s e = some (s', ())) :
    (∃ frames c, scandir s.frames = some (frames, c) ∧ s.lib.calls none = .idle ∧
      s' = ⟨⟨s.lib.table, Function.update s.lib.calls none c⟩, frames⟩) ∨
    ∃ t' c', Fits s.lib.table.nextId ∧
      runStatement s.lib.table true (s.lib.calls none) = some (t', c') ∧
      s' = ⟨⟨t', Function.update s.lib.calls none c'⟩, s.frames⟩ := by
  obtain ⟨frames, c, rfl, hscan, hidle, hs'⟩ | ⟨i, path, rfl, -⟩ |
    ⟨i, ok, t', c', rfl, hrun, hs'⟩ | ⟨path, rfl, -⟩ := step_cases h
  · exact .inl ⟨frames, c, hscan, hidle, hs'⟩
  · exact halone.elim
  · cases i with
    | none =>
      obtain ⟨rfl, hnext⟩ := halone
      exact .inr ⟨t', c', hnext, hrun, hs'⟩
    | some i => exact halone.elim
  · exact halone.elim

/-- The scan is about files of the stores, and knows what it has looked up. -/
structure Working (stores : List Frame) (s : State ι) : Prop where
  inv : LibraryShape.Inv s.lib
  tracks : Tracks s.lib.table (s.lib.calls none)
  frames : ∀ p ∈ offered s.frames, p ∈ offered stores
  call : ∀ p, file? (s.lib.calls none) = some p → p ∈ offered stores

/-- The scan is over with a file, or has yet to come to it. -/
def SettledOr (s : State ι) (p : CString) : Prop :=
  Settled s.lib.table p ∨ p ∈ offered s.frames ∨ file? (s.lib.calls none) = some p

omit [DecidableEq ι] in
theorem Working.start (hshaped : Shaped t) (hfits : t.Fits) :
    Working stores (start ι t stores) where
  inv := init_inv hshaped hfits
  tracks := trivial
  frames := fun _ hp => hp
  call := fun _ hp => absurd hp (Option.some_ne_none _).symm

/-- The call that an entry of a directory starts knows nothing yet. -/
theorem scandir_tracks {frames frames' : List Frame} {c : Call}
    (h : scandir frames = some (frames', c)) : Tracks t c := by
  have haddcontent : ∀ path, Tracks t (addcontent path) := by
    intro path
    unfold addcontent
    split <;> trivial
  unfold scandir at h
  split at h
  · cases h
  · cases h
    trivial
  · cases h
    trivial
  · cases h
    unfold scanFile
    split
    · trivial
    · exact haddcontent _
  · split at h <;> (cases h; trivial)

theorem Advances.tracks {c : Call} (h : Advances t c p) : Tracks t c := by
  rcases h with ⟨-, htracks⟩ | ⟨rfl, -⟩
  · exact htracks
  · trivial

theorem exists_file? {t' : Table} {c c' : Call} {ok : Bool}
    (h : runStatement t ok c = some (t', c')) : ∃ p, file? c = some p := by
  cases c with
  | idle => cases h
  | getidByUri path | getidSerie v | mkdirSerie v | getidSeason v parentId | mkdirSeason v parentId
  | store path id parentId name => exact ⟨_, rfl⟩

theorem Working.step (h : Working stores s) (halone : Alone s e)
    (hstep : LibraryScan.step s e = some (s', ())) : Working stores s' := by
  have hserved : Served stores s e := halone.served
  have hinv : LibraryShape.Inv s'.lib := step_shape h.inv hserved hstep
  obtain ⟨frames, c, hscan, -, rfl⟩ | ⟨t', c', hnext, hrun, rfl⟩ := alone_cases halone hstep
  · have hoffered := scandir_offered hscan
    refine ⟨hinv, ?_, fun p hp => ?_, fun p hp => ?_⟩
    · dsimp only
      rw [Function.update_self]
      exact scandir_tracks hscan
    · exact h.frames p (hoffered ▸ List.mem_append_right _ hp)
    · dsimp only at hp
      rw [Function.update_self] at hp
      exact h.frames p (hoffered ▸ List.mem_append_left _ (Option.mem_toList.mpr hp))
  · obtain ⟨p, hp⟩ := exists_file? hrun
    have hadvances := runStatement_advances h.inv.shaped h.inv.fits hnext (h.inv.sound none)
      h.tracks hrun hp
    refine ⟨hinv, ?_, h.frames, fun p hp => ?_⟩
    · dsimp only
      rw [Function.update_self]
      exact hadvances.tracks
    · dsimp only at hp
      rw [Function.update_self] at hp
      exact h.call p (runStatement_file? hrun hp)

theorem SettledOr.step (h : SettledOr s p) (hworking : Working stores s) (halone : Alone s e)
    (hstep : LibraryScan.step s e = some (s', ())) : SettledOr s' p := by
  have hinv := hworking.inv
  obtain ⟨frames, c, hscan, hidle, rfl⟩ | ⟨t', c', hnext, hrun, rfl⟩ := alone_cases halone hstep
  · rcases h with hsettled | hoffered | hcall
    · exact .inl hsettled
    · rw [scandir_offered hscan, List.mem_append, Option.mem_toList] at hoffered
      refine .inr (hoffered.symm.imp_right fun hc => ?_)
      dsimp only
      rwa [Function.update_self]
    · rw [hidle] at hcall
      cases hcall
  · have hkept := runStatement_kept hinv.shaped hinv.fits hnext (hinv.sound none) hrun
    rcases h with hsettled | hoffered | hcall
    · exact .inl (hsettled.mono hkept.rows)
    · exact .inr (.inl hoffered)
    · have hadvances := runStatement_advances hinv.shaped hinv.fits hnext (hinv.sound none)
        hworking.tracks hrun hcall
      rcases hadvances with ⟨hgoes, -⟩ | ⟨-, hsettled⟩
      · refine .inr (.inr ?_)
        dsimp only
        rwa [Function.update_self]
      · exact .inl hsettled

/-- **A second scan changes nothing**: when the stores have been scanned by a thread that was alone,
    a further scan leaves every row as it is, and adds none, at any moment of it. -/
theorem scan_again {s₁ : State ι} (hshaped : Shaped t) (hfits : t.Fits)
    (h : Run (Guarded step Alone) (start ι t stores) tr s₁) (hover : Over s₁)
    (hagain : Run (Guarded step Alone) (start ι s₁.lib.table stores) tr' s) :
    s.lib.table = s₁.lib.table := by
  have hfirst : Working stores s₁ ∧ ∀ p ∈ offered stores, SettledOr s₁ p := by
    refine h.invariant (P := fun s => Working stores s ∧ ∀ p ∈ offered stores, SettledOr s p)
      ⟨Working.start hshaped hfits, fun p hp => .inr (.inl hp)⟩ ?_
    rintro s ⟨e, ⟨⟩⟩ s' ⟨hworking, hsettled⟩ ⟨halone, hstep⟩
    exact ⟨hworking.step halone hstep, fun p hp => (hsettled p hp).step hworking halone hstep⟩
  have hsettled : ∀ p ∈ offered stores, Settled s₁.lib.table p := by
    intro p hp
    rcases hfirst.2 p hp with hsettled | hoffered | hcall
    · exact hsettled
    · rw [hover.1] at hoffered
      cases hoffered
    · rw [hover.2] at hcall
      cases hcall
  have hsecond : Working stores s ∧ s.lib.table = s₁.lib.table := by
    refine hagain.invariant (P := fun s => Working stores s ∧ s.lib.table = s₁.lib.table)
      ⟨Working.start hfirst.1.inv.shaped hfirst.1.inv.fits, rfl⟩ ?_
    rintro s ⟨e, ⟨⟩⟩ s' ⟨hworking, htable⟩ ⟨halone, hstep⟩
    refine ⟨hworking.step halone hstep, ?_⟩
    obtain ⟨frames, c, -, -, rfl⟩ | ⟨t', c', -, hrun, rfl⟩ := alone_cases halone hstep
    · exact htable
    · obtain ⟨p, hp⟩ := exists_file? hrun
      have hinv := hworking.inv
      have hp' : Settled s.lib.table p := htable ▸ hsettled p (hworking.call p hp)
      exact (runStatement_settled hinv.shaped (hinv.sound none) hworking.tracks hrun hp hp').trans
        htable
  exact hsecond.2

/-- A store with an episode in a directory, a hidden file, a movie, and a text. -/
def twoVideos : List Frame :=
  [⟨"/v".toList, .dir "TV".toList (.file "A.S01E01.mp4".toList (some "video/mp4".toList) .nil)
    (.file ".B.mp4".toList (some "video/mp4".toList)
      (.file "Heat.mp4".toList (some "video/mp4".toList)
        (.file "Heat.txt".toList (some "text/plain".toList) .nil)))⟩]

/-- A statement of the scan. -/
def statement : Event Unit := .lib (.call (.statement none true))

def firstScan : List (Event Unit) :=
  [.readdir, .readdir] ++ List.replicate 6 statement ++
    [.readdir, .readdir, .readdir, statement, statement, .readdir, .readdir]

/-- During the scan another thread adds a file, which is deleted before the scan is over. -/
def busyScan : List (Event Unit) :=
  let other : CString := "/w/C.avi".toList
  .lib (.call (.addcontent (some ()) other)) :: firstScan.take 9 ++
    List.replicate 2 (.lib (.call (.statement (some ()) true))) ++ .lib (.delete other) ::
      firstScan.drop 9

theorem scan_lists_two : ∃ tr s,
    Run (Guarded step (Served twoVideos)) (start Unit newTable twoVideos) tr s ∧
      tr.map Prod.fst = busyScan ∧ Over s ∧ s.lib.table.rows.length = 8 ∧
      (∀ p ∈ videos twoVideos, ∃ r ∈ s.lib.table.rows, r.path = p ∧
        Stands s.lib.table p r.parentId r.name) ∧
      ∀ r ∈ s.lib.table.rows, r.path ≠ [] → Known newTable twoVideos tr r.path := by
  obtain ⟨tr, s, hrun, hevents, hover, hlength⟩ := exists_run_of_guarded_exec step
    (Served twoVideos) (start Unit newTable twoVideos)
    (fun tr s => tr.map Prod.fst = busyScan ∧ Over s ∧ s.lib.table.rows.length = 8) busyScan
    (by decide +kernel)
  exact ⟨tr, s, hrun, hevents, hover, hlength,
    scan_lists newTable_shaped (by decide +kernel) hrun hover⟩

/-- The second scan looks up the episode and its directories. -/
theorem scan_again_episode : ∃ tr s₁ tr' s,
    Run (Guarded step Alone) (start Unit newTable twoVideos) tr s₁ ∧ Over s₁ ∧
      s₁.lib.table.rows.length = 8 ∧
      Run (Guarded step Alone) (start Unit s₁.lib.table twoVideos) tr' s ∧ tr'.length = 5 ∧
      s.lib.calls none ≠ .idle ∧ s.lib.table = s₁.lib.table := by
  obtain ⟨tr, s₁, hrun, hover, hlength, hagain⟩ := exists_run_of_guarded_exec step Alone
    (start Unit newTable twoVideos) (fun _ s₁ => Over s₁ ∧ s₁.lib.table.rows.length = 8 ∧
      ∃ r ∈ exec (fun s e => if Alone s e then step s e else none)
        (start Unit s₁.lib.table twoVideos) ([.readdir, .readdir] ++ List.replicate 3 statement),
        r.2.length = 5 ∧ r.1.lib.calls none ≠ .idle) firstScan (by decide +kernel)
  obtain ⟨tr', s, hrun', hsteps, hbusy⟩ := exists_run_of_guarded_exec step Alone
    (start Unit s₁.lib.table twoVideos) (fun tr' s => tr'.length = 5 ∧ s.lib.calls none ≠ .idle)
    ([.readdir, .readdir] ++ List.replicate 3 statement) hagain
  exact ⟨tr, s₁, tr', s, hrun, hover, hlength, hrun', hsteps, hbusy,
    scan_again newTable_shaped (by decide +kernel) hrun hover hrun'⟩

end Again

end Mediabox.LibraryScan
