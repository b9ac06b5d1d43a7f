import Mediabox.LibraryAdd
import Mediabox.LibraryDelete
import Mediabox.LibrarySeries

/-!
# The shape of the library (`src/library.c`)

What the calls of `mbox_library_addcontent` make of `local_objects`, over every order of their
statements and of the deletions that `mbox_library_local_inotify` executes between them.

* `Stands` — where a file belongs: a movie in Movies, an episode in the directory of its season,
  which is in the directory of its series, which is in TV Shows.  A series without a name has no
  directory.
* `Shaped` — the rows of a new table come first, and every other row is the directory of a series or
  of a season, or a file that is where it belongs, under the name that its path gives.
* `Clean` — no row is deleted that a call has looked up and is going to name, and the ids of the
  rows fit in an `int`.

Main result: `library_shape`.
-/

set_option autoImplicit false

namespace Mediabox.LibraryShape

open Transition Library LibraryAdd LibraryEvents

/-! ## Names that keep their beginning -/

section Names

variable {pre what rep str ret ins title : CString} {rs : List (String × String)}

/-- No occurrence of a string begins in a prefix. -/
def Clear (pre what : CString) : Prop :=
  ∀ i < pre.length, ¬what <+: pre.drop i ∧ ¬pre.drop i <+: what

instance (pre what : CString) : Decidable (Clear pre what) :=
  inferInstanceAs (Decidable (∀ i < pre.length, _ ∧ _))

theorem strstr_clear (h : Clear pre what) (str : CString) :
    strstr (pre ++ str) what = (strstr str what).map (· + pre.length) := by
  induction pre with
  | nil => simp
  | cons c pre ih =>
    have hnot : ¬what <+: c :: (pre ++ str) := by
      intro hprefix
      have hfirst := h 0 (Nat.zero_lt_succ _)
      have hpre : c :: pre <+: c :: (pre ++ str) := List.prefix_append (c :: pre) str
      rcases List.prefix_or_prefix_of_prefix hprefix hpre with hp | hp
      · exact hfirst.1 hp
      · exact hfirst.2 hp
    have hrest : Clear pre what := fun i hi => h (i + 1) (Nat.succ_lt_succ hi)
    rw [List.cons_append, strstr, if_neg (fun hp => hnot (List.isPrefixOf_iff_prefix.mp hp)),
      ih hrest, Option.map_map]
    rfl

theorem prefix_strreplaceLoop (fuel : Nat) : ret <+: strreplaceLoop what rep fuel ret ins := by
  induction fuel generalizing ret ins with
  | zero => exact List.prefix_append _ _
  | succ fuel ih =>
    rw [strreplaceLoop]
    split
    · exact List.prefix_append _ _
    · rename_i sublen _
      rw [List.append_assoc]
      exact (List.prefix_append ret (ins.take sublen ++ rep)).trans ih

/-- A replacement keeps a beginning that it does not touch. -/
theorem prefix_strreplace (hclear : Clear pre what) (h : pre <+: str) :
    pre <+: strreplace str what rep := by
  obtain ⟨rest, rfl⟩ := h
  unfold strreplace
  split
  · exact List.prefix_append _ _
  · rw [strreplaceLoop, strstr_clear hclear]
    cases strstr rest what with
    | none => exact List.prefix_append _ _
    | some sublen =>
      have htake : pre <+: (pre ++ rest).take (sublen + pre.length) :=
        List.prefix_take_iff.mpr ⟨List.prefix_append _ _, Nat.le_add_left _ _⟩
      have hfirst : pre <+: [] ++ (pre ++ rest).take (sublen + pre.length) ++ rep :=
        htake.trans (List.prefix_append _ _)
      exact hfirst.trans (prefix_strreplaceLoop _)

theorem prefix_replaceAll (hclear : ∀ r ∈ rs, Clear pre r.1.toList) (h : pre <+: title) :
    pre <+: replaceAll title rs := by
  induction rs generalizing title with
  | nil => exact h
  | cons r rs ih =>
    obtain ⟨hr, hrs⟩ := List.forall_mem_cons.mp hclear
    exact ih hrs (prefix_strreplace hr h)

theorem prefix_squeezeBlanks (hclear : Clear pre "  ".toList) (fuel : Nat) (h : pre <+: title) :
    pre <+: squeezeBlanks fuel title := by
  induction fuel generalizing title with
  | zero => exact h
  | succ fuel ih =>
    unfold squeezeBlanks
    dsimp only
    split
    · exact prefix_strreplace hclear h
    · exact ih (prefix_strreplace hclear h)

theorem prefix_strtrim (hpre : pre ≠ []) (hfirst : ∀ c ∈ pre.head?, c ≠ ' ' ∧ c ≠ '\t')
    (hlast : ∀ c ∈ pre.reverse.head?, c ≠ ' ' ∧ c ≠ '\t') (h : pre <+: str) :
    pre <+: strtrim str := by
  obtain ⟨rest, rfl⟩ := h
  have hkeep : ∀ l x : CString, l ≠ [] → (∀ c ∈ l.head?, c ≠ ' ' ∧ c ≠ '\t') →
      (l ++ x).dropWhile (fun c => c = ' ' || c = '\t') = l ++ x := by
    intro l x hl hhead
    obtain ⟨c, l, rfl⟩ := List.exists_cons_of_ne_nil hl
    exact List.dropWhile_cons_of_neg (by simpa using hhead c rfl)
  have hend : ∃ rest', (((pre ++ rest).reverse.dropWhile fun c => c = ' ' || c = '\t').reverse) =
      pre ++ rest' := by
    rw [List.reverse_append, List.dropWhile_append]
    split
    · have hall := hkeep pre.reverse [] (by simpa using hpre) hlast
      rw [List.append_nil] at hall
      rw [hall, List.reverse_reverse]
      exact ⟨[], (List.append_nil _).symm⟩
    · rw [List.reverse_append, List.reverse_reverse]
      exact ⟨_, rfl⟩
  obtain ⟨rest', hrest'⟩ := hend
  unfold strtrim
  dsimp only
  rw [hrest', hkeep pre rest' hpre hfirst]
  exact List.prefix_append _ _

def seasonLabel : CString := "Season ".toList

def episodeLabel : CString := "Episode".toList

theorem prefix_transformVideoTitle (h : episodeLabel <+: title) :
    episodeLabel <+: transformVideoTitle title := by
  have hclear : ∀ r ∈ titleReplacements, Clear episodeLabel r.1.toList := by decide +kernel
  have hreplaced := prefix_replaceAll hclear h
  unfold transformVideoTitle
  dsimp only
  generalize (replaceAll title titleReplacements).length + 1 = fuel
  have hsqueezed := prefix_squeezeBlanks (by decide) fuel hreplaced
  have hbrackets : ∀ r ∈ [("[]", ""), ("[ ]", "")], Clear episodeLabel r.1.toList := by decide
  have hfirst : ∀ c ∈ episodeLabel.head?, c ≠ ' ' ∧ c ≠ '\t' := by
    intro c hc
    obtain rfl : 'E' = c := Option.some.inj hc
    decide
  have hlast : ∀ c ∈ episodeLabel.reverse.head?, c ≠ ' ' ∧ c ≠ '\t' := by
    intro c hc
    obtain rfl : 'e' = c := Option.some.inj hc
    decide
  have htrimmed := prefix_strtrim (by decide) hfirst hlast
    (prefix_replaceAll hbrackets hsqueezed)
  split
  · rename_i hcom
    rcases hcom with hcom | hcom <;> exact absurd (hcom ▸ htrimmed) (by decide)
  · exact htrimmed

/-- Bytes that are copied behind a beginning of a buffer. -/
theorem prefix_poke {buf bytes : List Char} {off : Nat} (h : pre <+: buf)
    (hoff : pre.length ≤ off) : pre <+: poke buf off bytes := by
  unfold poke
  rw [List.append_assoc]
  exact (List.prefix_take_iff.mpr ⟨h, hoff⟩).trans (List.prefix_append _ _)

theorem prefix_cstr {buf : List Char} (hnul : '\x00' ∉ pre) (h : pre <+: buf) :
    pre <+: cstr buf := by
  obtain ⟨rest, rfl⟩ := h
  rw [cstr_append hnul]
  exact List.prefix_append _ _

theorem prefix_strcpy {buf : List Char} : pre <+: strcpy buf pre := by
  rw [strcpy_eq]
  exact List.prefix_append _ _

theorem prefix_strncat {buf : List Char} {n : Nat} (hnul : '\x00' ∉ pre) (h : pre <+: buf) :
    pre <+: strncat buf str n :=
  prefix_poke h (prefix_cstr hnul h).length_le

/-- **The labels**: the name of a season and that of an episode begin with them. -/
theorem videoName_labels {path serie season episode : CString}
    (h : videoName path = .serie serie season episode) :
    seasonLabel <+: season ∧ episodeLabel <+: episode := by
  unfold videoName at h
  dsimp only at h
  split at h
  · rename_i before m hmatch
    simp only [serieStrings, VideoName.serie.injEq] at h
    obtain ⟨-, rfl, rfl⟩ := h
    have hseason : '\x00' ∉ "Season ".toList := by decide
    have hepisode : '\x00' ∉ "Episode ".toList := by decide
    constructor
    · refine prefix_cstr hseason (prefix_poke (prefix_strncat hseason prefix_strcpy) ?_)
      exact Nat.le_add_left 7 _
    · have hlabel : episodeLabel <+: "Episode ".toList := by decide
      refine prefix_transformVideoTitle (hlabel.trans (prefix_cstr hepisode ?_))
      refine prefix_poke (prefix_strncat hepisode (prefix_poke (prefix_strncat hepisode
        prefix_strcpy) (Nat.le_add_left 8 _))) ?_
      exact Nat.le_trans (by decide : 8 ≤ 9) (Nat.le_add_left 9 _)
  · cases h

end Names

/-! ## Where files belong -/

/-- The directory of a series, or TV Shows for a series without a name. -/
def SerieAt (t : Table) (serie : CString) (id : Int) : Prop :=
  if serie = [] then id = directorySeries
  else ∃ d ∈ t.rows, d.id = id ∧ d.path = [] ∧ d.parentId = directorySeries ∧ d.name = serie

/-- The directory of a season. -/
def SeasonAt (t : Table) (serie season : CString) (id : Int) : Prop :=
  ∃ d ∈ t.rows, d.id = id ∧ d.path = [] ∧ d.name = season ∧ SerieAt t serie d.parentId

/-- A file is in its directory, under its name. -/
def Stands (t : Table) (path : CString) (parentId : Int) (name : CString) : Prop :=
  match videoName path with
  | .movie title => parentId = directoryMovies ∧ name = title
  | .serie serie season episode => SeasonAt t serie season parentId ∧ name = episode

/-- What a row may be. -/
inductive Placed (t : Table) (r : Row) : Prop where
  | top : r ∈ newTable.rows → Placed t r
  | serie : r.path = [] → r.parentId = directorySeries → r.name ≠ [] → Placed t r
  | season {serie : CString} : r.path = [] → SerieAt t serie r.parentId → seasonLabel <+: r.name →
      Placed t r
  | file : r.path ≠ [] → Stands t r.path r.parentId r.name → Placed t r

structure Shaped (t : Table) : Prop where
  top : newTable.rows <+: t.rows
  placed : ∀ r ∈ t.rows, Placed t r

theorem newTable_shaped : Shaped newTable := ⟨List.prefix_refl _, fun _ hr => .top hr⟩

section Shape

variable {t t' : Table} {r : Row} {path name serie season : CString} {id parentId : Int}

/-- The directories of a table are still there. -/
def KeepsDirs (t t' : Table) : Prop := ∀ d ∈ t.rows, d.path = [] → d ∈ t'.rows

theorem SerieAt.mono (h : SerieAt t serie id) (hkeep : KeepsDirs t t') : SerieAt t' serie id := by
  unfold SerieAt at h ⊢
  split at h
  · rename_i hserie
    rw [if_pos hserie]
    exact h
  · rename_i hserie
    obtain ⟨d, hd, hid, hpath, hrest⟩ := h
    rw [if_neg hserie]
    exact ⟨d, hkeep d hd hpath, hid, hpath, hrest⟩

theorem SeasonAt.mono (h : SeasonAt t serie season id) (hkeep : KeepsDirs t t') :
    SeasonAt t' serie season id := by
  obtain ⟨d, hd, hid, hpath, hname, hserie⟩ := h
  exact ⟨d, hkeep d hd hpath, hid, hpath, hname, hserie.mono hkeep⟩

theorem Stands.mono (h : Stands t path parentId name) (hkeep : KeepsDirs t t') :
    Stands t' path parentId name := by
  unfold Stands at h ⊢
  split at h
  · exact h
  · exact ⟨h.1.mono hkeep, h.2⟩

theorem Placed.mono (h : Placed t r) (hkeep : KeepsDirs t t') : Placed t' r := by
  cases h with
  | top hr => exact .top hr
  | serie hpath hparent hname => exact .serie hpath hparent hname
  | season hpath hserie hname => exact .season hpath (hserie.mono hkeep) hname
  | file hpath hstands => exact .file hpath (hstands.mono hkeep)

/-- The name of a file comes from its path. -/
theorem Stands.name_eq {parentId' : Int} {name' : CString} (h : Stands t path parentId name)
    (h' : Stands t path parentId' name') : name = name' := by
  unfold Stands at h h'
  cases hvideo : videoName path with
  | movie title | serie serie season episode =>
    rw [hvideo] at h h'
    exact h.2.trans h'.2.symm

theorem newTable_path (h : r ∈ newTable.rows) : r.path = [] := by
  have hall : ∀ r ∈ newTable.rows, r.path = [] := by decide
  exact hall r h

theorem Placed.stands (h : Placed t r) (hpath : r.path ≠ []) :
    Stands t r.path r.parentId r.name := by
  cases h with
  | top hr => exact absurd (newTable_path hr) hpath
  | serie hnil _ _ | season hnil _ _ => exact absurd hnil hpath
  | file _ hstands => exact hstands

theorem Shaped.top_eq (h : Shaped t) {r' : Row} (hr' : r' ∈ newTable.rows) (hr : r ∈ t.rows)
    (hid : r.id = r'.id) : r = r' :=
  t.eq_of_id hr (h.top.subset hr') hid

/-- **No file is in TV Shows itself.** -/
theorem Shaped.dir_of_series (h : Shaped t) (hr : r ∈ t.rows)
    (hparent : r.parentId = directorySeries) : r.path = [] := by
  by_contra hpath
  have hstands := (h.placed r hr).stands hpath
  unfold Stands at hstands
  split at hstands
  · exact absurd (hparent.symm.trans hstands.1) (by decide)
  · rename_i serie season episode hvideo
    obtain ⟨d, hd, hid, -, hname, -⟩ := hstands.1
    have htop : (⟨4, 2, "TV Shows".toList, []⟩ : Row) ∈ newTable.rows := by decide
    have hrow := h.top_eq htop hd (hid.trans hparent)
    have hlabel := (videoName_labels hvideo).1
    rw [← hname, hrow] at hlabel
    exact absurd hlabel (by decide)

/-- **What is called like a season is no file**, in the directory of a series. -/
theorem Shaped.dir_of_season (h : Shaped t) (hr : r ∈ t.rows) (hserie : SerieAt t serie r.parentId)
    (hlabel : seasonLabel <+: r.name) : r.path = [] := by
  by_contra hpath
  have hstands := (h.placed r hr).stands hpath
  unfold Stands at hstands
  split at hstands
  · rw [hstands.1] at hserie
    unfold SerieAt at hserie
    split at hserie
    · exact absurd hserie (by decide)
    · obtain ⟨d, hd, hid, -, hparent, -⟩ := hserie
      have htop : (⟨3, 2, "Movies".toList, []⟩ : Row) ∈ newTable.rows := by decide
      have hrow := h.top_eq htop hd hid
      rw [hrow] at hparent
      exact absurd hparent (by decide)
  · rename_i serie' season episode hvideo
    have hepisode := (videoName_labels hvideo).2
    rw [← hstands.2] at hepisode
    rcases List.prefix_or_prefix_of_prefix hlabel hepisode with hp | hp <;>
      exact absurd hp (by decide)

/-! ## What the statements do -/

theorem selectChild_row (hfits : t.Fits) (h : t.selectChild parentId name ≠ -1) :
    ∃ r ∈ t.rows, r.id = t.selectChild parentId name ∧ r.parentId = parentId ∧ r.name = name := by
  unfold Table.selectChild at h ⊢
  split at h
  · rename_i r hchild
    have hr := List.mem_of_find?_eq_some hchild
    have hrow : r.parentId = parentId ∧ r.name = name := by simpa using List.find?_some hchild
    exact ⟨r, hr, (hfits r hr).1.symm, hrow⟩
  · exact absurd rfl h

theorem lookup_row (hfits : t.Fits) (ok : Bool) (parentId : Int) (name : CString) :
    (if ok then t.selectChild parentId name else -1) ≠ -1 → ∃ r ∈ t.rows,
      r.id = (if ok then t.selectChild parentId name else -1) ∧ r.parentId = parentId ∧
        r.name = name := by
  cases ok with
  | false => exact fun h => absurd rfl h
  | true => exact selectChild_row hfits

theorem selectPath_row (hfits : t.Fits) (h : t.selectPath path ≠ -1) :
    ∃ r ∈ t.rows, r.id = t.selectPath path ∧ r.path = path := by
  unfold Table.selectPath at h ⊢
  split at h
  · rename_i r hfind
    have hr := List.mem_of_find?_eq_some hfind
    exact ⟨r, hr, (hfits r hr).1.symm, by simpa using List.find?_some hfind⟩
  · exact absurd rfl h

/-- The id that a call has for the row of its file. -/
def Looked (t : Table) (path : CString) (id : Int) : Prop :=
  path ≠ [] ∧ (id ≠ -1 → ∃ r ∈ t.rows, r.id = id ∧ r.path = path)

def OfSerie (t : Table) (v : Episode) : Prop :=
  videoName v.path = .serie v.serieName v.season v.episode ∧ Looked t v.path v.id

/-- What a call has found out is so. -/
def Sound (t : Table) : Call → Prop
  | .idle => True
  | .getidByUri path => path ≠ []
  | .getidSerie v | .mkdirSerie v => OfSerie t v ∧ v.serieName ≠ []
  | .getidSeason v parentId | .mkdirSeason v parentId =>
    OfSerie t v ∧ SerieAt t v.serieName parentId
  | .store path id parentId name =>
    Looked t path id ∧ Stands t path parentId name ∧ name ≠ []

theorem keepsDirs_of_rows (h : t.rows <+: t'.rows) : KeepsDirs t t' := fun _ hd _ => h.subset hd

theorem Looked.mono (h : Looked t path id) (hrows : t.rows <+: t'.rows) : Looked t' path id := by
  refine ⟨h.1, fun hid => ?_⟩
  obtain ⟨r, hr, hrow⟩ := h.2 hid
  exact ⟨r, hrows.subset hr, hrow⟩

theorem Sound.mono {c : Call} (h : Sound t c) (hrows : t.rows <+: t'.rows) : Sound t' c := by
  have hkeep := keepsDirs_of_rows hrows
  cases c with
  | idle => trivial
  | getidByUri path => exact h
  | getidSerie v | mkdirSerie v => exact ⟨⟨h.1.1, h.1.2.mono hrows⟩, h.2⟩
  | getidSeason v parentId | mkdirSeason v parentId =>
    exact ⟨⟨h.1.1, h.1.2.mono hrows⟩, h.2.mono hkeep⟩
  | store path id parentId name => exact ⟨h.1.mono hrows, h.2.1.mono hkeep, h.2.2⟩

theorem named_sound (hlooked : Looked t path id) (hstands : Stands t path parentId name) :
    Sound t (named path id parentId name) := by
  unfold named
  split
  · trivial
  · rename_i hname
    exact ⟨hlooked, hstands, hname⟩

theorem localVideoName_sound (hlooked : Looked t path id) : Sound t (localVideoName path id) := by
  unfold localVideoName
  split
  · rename_i serieName season episode hvideo
    split
    · rename_i hserie
      exact ⟨⟨hvideo, hlooked⟩, (if_pos hserie).mpr rfl⟩
    · rename_i hserie
      exact ⟨⟨hvideo, hlooked⟩, hserie⟩
  · rename_i title hvideo
    refine named_sound hlooked ?_
    unfold Stands
    rw [hvideo]
    exact ⟨rfl, rfl⟩

theorem Shaped.insert (h : Shaped t) (hnew : Placed t ⟨t.nextId, parentId, name, path⟩) :
    Shaped (t.insert parentId name path) := by
  have hrows : t.rows <+: (t.insert parentId name path).rows := List.prefix_append _ _
  refine ⟨h.top.trans hrows, fun r hr => ?_⟩
  rcases List.mem_append.mp hr with hold | hadded
  · exact (h.placed r hold).mono (keepsDirs_of_rows hrows)
  · rw [List.mem_singleton.mp hadded]
    exact hnew.mono (keepsDirs_of_rows hrows)

/-- **A new name is the old one**: the path of a row has not changed. -/
theorem Shaped.rename_eq (h : Shaped t) (hlooked : Looked t path id)
    (hstands : Stands t path parentId name) (hid : id ≠ -1) : t.rename id name = t := by
  obtain ⟨r, hr, rfl, rfl⟩ := hlooked.2 hid
  have hname : r.name = name := ((h.placed r hr).stands hlooked.1).name_eq hstands
  have hrows : t.rows.map (Row.rename r.id name) = t.rows := by
    refine List.map_congr_left (fun r' hr' => ?_) |>.trans (List.map_id _)
    unfold Row.rename
    split
    · rename_i heq
      rw [t.eq_of_id hr' hr heq, ← hname]
      rfl
    · rfl
  cases t
  unfold Table.rename
  congr

/-- What a statement leaves: a table of the same shape, with the rows that there were, and a call
    that knows what is so. -/
structure Kept (t t' : Table) (c' : Call) : Prop where
  shaped : Shaped t'
  fits : t'.Fits
  rows : t.rows <+: t'.rows
  sound : Sound t' c'

theorem Kept.same {c' : Call} (h : Shaped t) (hfits : t.Fits) (hsound : Sound t c') : Kept t t c' :=
  ⟨h, hfits, List.prefix_refl _, hsound⟩

theorem Kept.insert {c' : Call} (h : Shaped t) (hfits : t.Fits) (hnext : Fits t.nextId)
    (hnew : Placed t ⟨t.nextId, parentId, name, path⟩)
    (hsound : Sound (t.insert parentId name path) c') : Kept t (t.insert parentId name path) c' :=
  ⟨h.insert hnew, Table.fits_insert hfits hnext, List.prefix_append _ _, hsound⟩

theorem mem_insert : ⟨t.nextId, parentId, name, path⟩ ∈ (t.insert parentId name path).rows :=
  List.mem_append_right _ List.mem_cons_self

/-- The directory of a series is made. -/
theorem mkdirSerie_kept {v : Episode} {ok : Bool} (h : Shaped t) (hfits : t.Fits)
    (hnext : Fits t.nextId) (hv : OfSerie t v) (hserie : v.serieName ≠ []) :
    Kept t (mkdir t ok v.serieName directorySeries).1
      (madeSerie v (mkdir t ok v.serieName directorySeries).2) := by
  unfold mkdir
  cases ok with
  | false => exact Kept.same h hfits trivial
  | true =>
    have hrows : t.rows <+: (t.insert directorySeries v.serieName []).rows := List.prefix_append _ _
    refine Kept.insert h hfits hnext (.serie rfl rfl hserie) ?_
    show Sound _ (madeSerie v (int t.nextId))
    rw [hnext.1, madeSerie, if_neg hnext.2]
    refine ⟨⟨hv.1, hv.2.mono hrows⟩, ?_⟩
    unfold SerieAt
    rw [if_neg hserie]
    exact ⟨_, mem_insert, rfl, rfl, rfl, rfl⟩

/-- The directory of a season is made, and the file can go there. -/
theorem mkdirSeason_kept {v : Episode} {ok : Bool} (h : Shaped t) (hfits : t.Fits)
    (hnext : Fits t.nextId) (hv : OfSerie t v) (hserie : SerieAt t v.serieName parentId) :
    Kept t (mkdir t ok v.season parentId).1 (madeSeason v (mkdir t ok v.season parentId).2) := by
  unfold mkdir
  cases ok with
  | false => exact Kept.same h hfits trivial
  | true =>
    have hrows : t.rows <+: (t.insert parentId v.season []).rows := List.prefix_append _ _
    refine Kept.insert h hfits hnext (.season rfl hserie (videoName_labels hv.1).1) ?_
    show Sound _ (madeSeason v (int t.nextId))
    rw [hnext.1, madeSeason, if_neg hnext.2]
    refine named_sound (hv.2.mono hrows) ?_
    unfold Stands
    rw [hv.1]
    exact ⟨⟨_, mem_insert, rfl, rfl, rfl, hserie.mono (keepsDirs_of_rows hrows)⟩, rfl⟩

/-- **A statement keeps the shape of the table**, whether it succeeds or fails. -/
theorem runStatement_kept {c c' : Call} {ok : Bool} (h : Shaped t) (hfits : t.Fits)
    (hnext : Fits t.nextId) (hsound : Sound t c) (hrun : runStatement t ok c = some (t', c')) :
    Kept t t' c' := by
  cases c with
  | idle => cases hrun
  | getidByUri path =>
    cases hrun
    refine Kept.same h hfits (localVideoName_sound ⟨hsound, fun hid => ?_⟩)
    cases ok with
    | false => exact absurd rfl hid
    | true => exact selectPath_row hfits hid
  | getidSerie v =>
    cases hrun
    obtain ⟨hv, hserie⟩ := hsound
    have hlookup := lookup_row hfits ok directorySeries v.serieName
    generalize (if ok then t.selectChild directorySeries v.serieName else -1) = id at hlookup ⊢
    refine Kept.same h hfits ?_
    split
    · exact ⟨hv, hserie⟩
    · rename_i hid
      obtain ⟨r, hr, hrow, hparent, hname⟩ := hlookup hid
      exact ⟨hv, (if_neg hserie).mpr ⟨r, hr, hrow, h.dir_of_series hr hparent, hparent, hname⟩⟩
  | mkdirSerie v =>
    cases hrun
    exact mkdirSerie_kept h hfits hnext hsound.1 hsound.2
  | getidSeason v parentId =>
    cases hrun
    obtain ⟨hv, hserie⟩ := hsound
    have hlookup := lookup_row hfits ok parentId v.season
    generalize (if ok then t.selectChild parentId v.season else -1) = id at hlookup ⊢
    refine Kept.same h hfits ?_
    split
    · exact ⟨hv, hserie⟩
    · rename_i hid
      obtain ⟨r, hr, hrow, rfl, hname⟩ := hlookup hid
      refine named_sound hv.2 ?_
      unfold Stands
      rw [hv.1]
      have hlabel : seasonLabel <+: r.name := hname ▸ (videoName_labels hv.1).1
      exact ⟨⟨r, hr, hrow, h.dir_of_season hr hserie hlabel, hname, hserie⟩, rfl⟩
  | mkdirSeason v parentId =>
    cases hrun
    exact mkdirSeason_kept h hfits hnext hsound.1 hsound.2
  | store path id parentId name =>
    cases hrun
    obtain ⟨hlooked, hstands, -⟩ := hsound
    split
    · exact Kept.same h hfits trivial
    · split
      · exact Kept.insert h hfits hnext (.file hlooked.1 hstands) trivial
      · rename_i hid
        rw [h.rename_eq hlooked hstands hid]
        exact Kept.same h hfits trivial

end Shape

/-! ## Whole runs -/

variable {ι : Type} [DecidableEq ι]

inductive Event (ι : Type) where
  | call (e : LibraryAdd.Event ι)
  /-- `mbox_library_local_inotify` deletes the rows of a path -/
  | delete (path : CString)
deriving DecidableEq, Repr

def step (s : State ι) : Event ι → Option (State ι × Unit)
  | .call e => LibraryAdd.step s e
  | .delete path => some ({ s with table := (Mask.delete.action path).delete s.table }, ())

/-- The row that a call is going to name. -/
def fileId : Call → Int
  | .getidSerie v | .mkdirSerie v | .getidSeason v _ | .mkdirSeason v _ => v.id
  | .store _ id _ _ => id
  | .idle | .getidByUri _ => -1

/-- The id of an inserted row fits in an `int`; a path that goes is absolute, and no call is going
    to name a row that goes with it. -/
def Clean (s : State ι) : Event ι → Prop
  | .call (.addcontent _ _) => True
  | .call (.statement _ _) => Fits s.table.nextId
  | .delete path => path.head? = some '/' ∧ ∀ i, ∀ r ∈ s.table.rows,
      SqlLike.like (path ++ ['%']) r.path = true → fileId (s.calls i) ≠ r.id

instance [Fintype ι] (s : State ι) : (e : Event ι) → Decidable (Clean s e)
  | .call (.addcontent _ _) => isTrue trivial
  | .call (.statement _ _) => inferInstanceAs (Decidable (Fits s.table.nextId))
  | .delete path => inferInstanceAs (Decidable (path.head? = some '/' ∧ ∀ i, ∀ r ∈ s.table.rows,
      SqlLike.like (path ++ ['%']) r.path = true → fileId (s.calls i) ≠ r.id))

structure Inv (s : State ι) : Prop where
  shaped : Shaped s.table
  fits : s.table.Fits
  sound : ∀ i, Sound s.table (s.calls i)

section Runs

variable {t : Table} {s s' : State ι} {e : Event ι} {path : CString} {tr : List (Event ι × Unit)}

/-- Directories are not deleted. -/
theorem keepsDirs_delete (hpath : path.head? = some '/') :
    KeepsDirs t ((Mask.delete.action path).delete t) := by
  intro d hd hdir
  refine List.mem_filter.mpr ⟨hd, ?_⟩
  obtain ⟨rest, rfl⟩ := List.head?_eq_some_iff.mp hpath
  rw [hdir]
  simp only [List.cons_append, SqlLike.like_end (by decide : '/' ≠ '%'), Bool.not_false]

theorem Shaped.delete (h : Shaped t) (hpath : path.head? = some '/') :
    Shaped ((Mask.delete.action path).delete t) := by
  refine ⟨?_, fun r hr => (h.placed r (List.mem_filter.mp hr).1).mono (keepsDirs_delete hpath)⟩
  obtain ⟨rest, hrows⟩ := h.top
  have hkeep := keepsDirs_delete (t := newTable) hpath
  have htop : newTable.rows.filter (fun r => !SqlLike.like (path ++ ['%']) r.path) =
      newTable.rows :=
    List.filter_eq_self.mpr fun r hr => (List.mem_filter.mp (hkeep r hr (newTable_path hr))).2
  show newTable.rows <+: t.rows.filter _
  rw [← hrows, List.filter_append, htop]
  exact List.prefix_append _ _

theorem Looked.delete {id : Int} {file : CString} (h : Looked t file id)
    (hclean : ∀ r ∈ t.rows, SqlLike.like (path ++ ['%']) r.path = true → id ≠ r.id) :
    Looked ((Mask.delete.action path).delete t) file id := by
  refine ⟨h.1, fun hid => ?_⟩
  obtain ⟨r, hr, hrow⟩ := h.2 hid
  refine ⟨r, List.mem_filter.mpr ⟨hr, ?_⟩, hrow⟩
  rw [Bool.not_eq_true', Bool.eq_false_iff]
  exact fun hlike => hclean r hr hlike hrow.1.symm

theorem Sound.delete {c : Call} (h : Sound t c) (hpath : path.head? = some '/')
    (hclean : ∀ r ∈ t.rows, SqlLike.like (path ++ ['%']) r.path = true → fileId c ≠ r.id) :
    Sound ((Mask.delete.action path).delete t) c := by
  have hkeep : KeepsDirs t _ := keepsDirs_delete hpath
  cases c with
  | idle => trivial
  | getidByUri file => exact h
  | getidSerie v | mkdirSerie v => exact ⟨⟨h.1.1, h.1.2.delete hclean⟩, h.2⟩
  | getidSeason v parentId | mkdirSeason v parentId =>
    exact ⟨⟨h.1.1, h.1.2.delete hclean⟩, h.2.mono hkeep⟩
  | store file id parentId name => exact ⟨h.1.delete hclean, h.2.1.mono hkeep, h.2.2⟩

theorem addcontent_sound (t : Table) (path : CString) : Sound t (addcontent path) := by
  unfold addcontent
  split
  · trivial
  · rename_i hpath
    exact fun hnil => hpath (.inl hnil)

theorem sound_update {c : Call} {i : ι} (hc : Sound t c) (h : ∀ j, Sound t (s.calls j)) (j : ι) :
    Sound t (Function.update s.calls i c j) := by
  by_cases hj : j = i
  · rw [hj, Function.update_self]
    exact hc
  · rw [Function.update_of_ne hj]
    exact h j

theorem step_inv (h : Inv s) (hclean : Clean s e) (hstep : step s e = some (s', ())) : Inv s' := by
  cases e with
  | call e =>
    cases e with
    | addcontent i path =>
      simp only [step, LibraryAdd.step] at hstep
      split at hstep
      · cases hstep
        exact ⟨h.shaped, h.fits, sound_update (addcontent_sound _ _) h.sound⟩
      · cases hstep
    | statement i ok =>
      obtain ⟨⟨t', c'⟩, hrun, heq⟩ := Option.map_eq_some_iff.mp hstep
      cases heq
      have hkept := runStatement_kept h.shaped h.fits hclean (h.sound i) hrun
      exact ⟨hkept.shaped, hkept.fits,
        sound_update hkept.sound fun j => (h.sound j).mono hkept.rows⟩
  | delete path =>
    cases hstep
    obtain ⟨hpath, hcalls⟩ := hclean
    exact ⟨h.shaped.delete hpath, fun r hr => h.fits r (List.mem_filter.mp hr).1,
      fun i => (h.sound i).delete hpath (hcalls i)⟩

omit [DecidableEq ι] in
theorem init_inv (h : Shaped t) (hfits : t.Fits) : Inv (init ι t) := ⟨h, hfits, fun _ => trivial⟩

/-- **The shape of the library**: whatever the order of the statements of any number of calls, which
    of them fail, and which paths are deleted between them, every row is a directory of a series or
    of a season, or a file that is in its directory and under its name. -/
theorem library_shape (hshaped : Shaped t) (hfits : t.Fits)
    (h : Run (Guarded step Clean) (init ι t) tr s) : Shaped s.table :=
  (Run.invariant (init_inv hshaped hfits)
    (fun _ _ _ hinv hstep => step_inv hinv hstep.1 hstep.2) h).shaped

/-- Two threads add an episode and a movie, and the movie is deleted. -/
theorem library_shape_two : newTable.Fits ∧ ∃ tr s,
    Run (Guarded step Clean) (init Bool newTable) tr s ∧ s.table.rows.length = 7 ∧
      Shaped s.table := by
  have hfits : newTable.Fits := by decide +kernel
  let movie : CString := "/v/Heat.1995.mp4".toList
  have hexec : (exec (fun s e => if Clean s e then step s e else none) (init Bool newTable)
      [.call (.addcontent false firstEpisode), .call (.addcontent true movie),
        .call (.statement false true), .call (.statement true true), .call (.statement false true),
        .call (.statement false true), .call (.statement true true), .call (.statement false true),
        .call (.statement false true), .call (.statement false true), .delete movie]).map
      (fun r => r.1.table.rows.length) = some 7 := by
    decide +kernel
  obtain ⟨r, hr, hlen⟩ := Option.map_eq_some_iff.mp hexec
  have hrun := run_of_guarded_exec _ hr
  exact ⟨hfits, r.2, r.1, hrun, hlen, library_shape newTable_shaped hfits hrun⟩

end Runs

end Mediabox.LibraryShape
