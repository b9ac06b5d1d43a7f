import Mathlib.Data.Char
import Mathlib.Data.List.Lex
import Mediabox.LibraryTable

/-!
# The paths of the local library (`src/library.c`)

`mbox_library_local_readdir` builds the paths of the directories in a directory and the one of its
parent; `mbox_library_local_opendir` looks a path up with `mbox_library_local_getid`, one level
after the other.

* A path is `joined ns`, each name with a slash before it, and may end with a slash;
  `Leads t i ns j` says that the names `ns` lead from the directory `i` to the row `j`.
* The statements succeed.  `mbox_library_local_readdir` is called until it has returned all entries.

Main result: `paths_round_trip` — every path that browsing builds is looked up to the directory it
was built for.
-/

set_option autoImplicit false

namespace Mediabox.Library

/-! ## The code -/

/-- `mbox_library_local_getid` -/
def getidLoop (t : Table) : Nat → CString → Int → Int
  | 0, _, startAt => startAt
  | fuel + 1, path, startAt =>
    let ppath := if path.head? = some '/' then path.drop 1 else path
    let name := ppath.takeWhile (· ≠ '/')
    if name = [] then startAt
    else
      let ppath := ppath.dropWhile (· ≠ '/')
      match t.child? startAt name with
      | some r => if ppath.length > 1 then getidLoop t fuel ppath (int r.id) else int r.id
      | none => -1

/-- `mbox_library_local_getid`: a level takes at least one byte of the path. -/
def getid (t : Table) (path : CString) (startAt : Int) : Int :=
  getidLoop t (path.length + 1) path startAt

/-- `mbox_library_local_opendir`: the id of the directory -/
def localOpendir (t : Table) (path : CString) : Option Int :=
  let id := getid t (path.drop 6) 0
  if id = -1 then none else some id

/-- `mbox_library_striplastlevel`, for a path with a slash in it -/
def striplastlevel (path : CString) : CString :=
  let path := path.reverse
  let path := if path.head? = some '/' then path.drop 1 else path
  (path.dropWhile (· ≠ '/')).reverse

/-- `struct mbox_library_dirent` -/
structure Dirent where
  name : CString
  path : CString
  isdir : Bool
deriving DecidableEq, Repr

/-- The entry of a row. -/
def rowDirent (dirPath : CString) (r : Row) : Dirent :=
  if r.path = [] then ⟨r.name, buildPath dirPath r.name, true⟩ else ⟨r.name, r.path, false⟩

/-- `mbox_library_local_readdir`, until the last row of the statement -/
def localReaddir (t : Table) (dirPath : CString) (id : Int) : List Dirent :=
  ⟨"..".toList, striplastlevel dirPath, true⟩ ::
    ((t.rows.filter fun r => r.parentId = id).mergeSort fun r r' => r.name ≤ r'.name).map
      (rowDirent dirPath)

/-- The entries of a directory. -/
def listDirectory (t : Table) (path : CString) : List Dirent :=
  match localOpendir t path with
  | some id => localReaddir t path id
  | none => []

/-- Paths that are reached by browsing, each also with a slash after it. -/
inductive Browse (t : Table) : CString → Prop
  | top : Browse t "/local".toList
  | enter {path : CString} {e : Dirent} : Browse t path → e ∈ listDirectory t path →
    e.isdir = true → e.path ≠ "/".toList → Browse t e.path
  | slash {path : CString} : Browse t path → path.getLast? ≠ some '/' → Browse t (path ++ ['/'])

/-- Names are not empty and have no slash, siblings have different names, and ids are numbers of 31
    bits; 0 is the root. -/
structure Table.IsTree (t : Table) : Prop where
  names : ∀ r ∈ t.rows, r.name ≠ [] ∧ '/' ∉ r.name
  siblings : ∀ r ∈ t.rows, ∀ r' ∈ t.rows, r.parentId = r'.parentId → r.name = r'.name → r = r'
  ids : ∀ r ∈ t.rows, 0 < r.id ∧ r.id < 2 ^ 31

/-! ## Names and paths -/

def IsName (n : CString) : Prop := n ≠ [] ∧ '/' ∉ n

/-- The names lead from one directory to another row. -/
inductive Leads (t : Table) : Int → List CString → Int → Prop
  | nil (i : Int) : Leads t i [] i
  | cons {r : Row} {ns : List CString} {i j : Int} {n : CString} : r ∈ t.rows →
    r.parentId = i → r.name = n → Leads t r.id ns j → Leads t i (n :: ns) j

variable {t : Table} {i j : Int} {ns : List CString} {n path rest s : CString}

theorem Leads.append {ms : List CString} {k : Int} (h : Leads t i ns j) (h' : Leads t j ms k) :
    Leads t i (ns ++ ms) k := by
  induction h with
  | nil => exact h'
  | cons hr hi hn _ ih => exact .cons hr hi hn (ih h')

theorem takeWhile_name (hn : '/' ∉ n) (hrest : rest = [] ∨ rest.head? = some '/') :
    (n ++ rest).takeWhile (· ≠ '/') = n ∧ (n ++ rest).dropWhile (· ≠ '/') = rest := by
  have hall : ∀ c ∈ n, decide (c ≠ '/') = true := fun c hc =>
    decide_eq_true fun heq => hn (heq ▸ hc)
  have hstop : rest.takeWhile (· ≠ '/') = [] ∧ rest.dropWhile (· ≠ '/') = rest := by
    rcases hrest with rfl | hhead
    · exact ⟨rfl, rfl⟩
    · obtain ⟨tail, rfl⟩ := List.head?_eq_some_iff.mp hhead
      exact ⟨rfl, rfl⟩
  rw [List.takeWhile_append_of_pos hall, List.dropWhile_append_of_pos hall, hstop.1, hstop.2,
    List.append_nil]
  exact ⟨rfl, rfl⟩

/-- What may stand after the names of a path. -/
def IsEnd (s : CString) : Prop := s = [] ∨ s = ['/']

theorem head_joined (ns : List CString) (hs : IsEnd s) :
    joined ns ++ s = [] ∨ (joined ns ++ s).head? = some '/' := by
  cases ns with
  | nil =>
    rcases hs with rfl | rfl
    · exact .inl rfl
    · exact .inr rfl
  | cons n ns => exact .inr rfl

theorem joined_append (ns ms : List CString) : joined (ns ++ ms) = joined ns ++ joined ms :=
  List.flatMap_append

theorem Table.IsTree.int_id (h : t.IsTree) {r : Row} (hr : r ∈ t.rows) : int r.id = r.id := by
  obtain ⟨hpos, hlt⟩ := h.ids r hr
  exact Int.bmod_eq_of_le (by omega) (by omega)

/-- A name is found in its directory. -/
theorem Table.IsTree.child_eq (h : t.IsTree) {r : Row} (hr : r ∈ t.rows) :
    t.child? r.parentId r.name = some r := by
  cases hfind : t.child? r.parentId r.name with
  | none => exact absurd (decide_eq_true ⟨rfl, rfl⟩) (List.find?_eq_none.mp hfind r hr)
  | some r' =>
    have hr' := List.mem_of_find?_eq_some hfind
    have hkey : r'.parentId = r.parentId ∧ r'.name = r.name := by
      simpa using List.find?_some hfind
    rw [h.siblings r' hr' r hr hkey.1 hkey.2]

/-- **A path is looked up**: names that lead to a row, with a slash before each of them and perhaps
    one at the end, give its id. -/
theorem getidLoop_joined (h : t.IsTree) (hleads : Leads t i ns j) (hs : IsEnd s) (fuel : Nat)
    (hfuel : (joined ns ++ s).length < fuel) : getidLoop t fuel (joined ns ++ s) i = j := by
  induction hleads generalizing fuel with
  | nil i =>
    obtain ⟨fuel, rfl⟩ := Nat.exists_eq_succ_of_ne_zero (Nat.ne_of_gt (Nat.zero_lt_of_lt hfuel))
    rcases hs with rfl | rfl <;> rfl
  | @cons r ns i j n hr hi hname hleads ih =>
    subst hi hname
    obtain ⟨fuel, rfl⟩ := Nat.exists_eq_succ_of_ne_zero (Nat.ne_of_gt (Nat.zero_lt_of_lt hfuel))
    obtain ⟨hne, hslash⟩ := h.names r hr
    have hpath : joined (r.name :: ns) ++ s = '/' :: (r.name ++ (joined ns ++ s)) := by
      simp [joined]
    obtain ⟨htake, hdrop⟩ := takeWhile_name hslash (head_joined ns hs)
    rw [hpath] at hfuel ⊢
    unfold getidLoop
    simp only [List.head?_cons, if_true, List.drop_one, List.tail_cons, htake, hdrop, if_neg hne,
      h.child_eq hr, h.int_id hr]
    cases ns with
    | nil =>
      -- the last level: at most the slash at the end is left
      cases hleads
      have hshort : ¬ (joined [] ++ s).length > 1 := by
        rcases hs with rfl | rfl <;> decide
      rw [if_neg hshort]
    | cons m ms =>
      cases hleads with
      | @cons r' _ _ _ _ hr' _ hname' _ =>
        have hlong : (joined (m :: ms) ++ s).length > 1 := by
          have hpos := List.length_pos_iff.mpr (h.names r' hr').1
          rw [hname'] at hpos
          simp only [joined, List.flatMap_cons, List.length_append, List.length_cons]
          omega
        rw [if_pos hlong]
        refine ih fuel ?_
        simp only [List.length_cons, List.length_append] at hfuel ⊢
        omega

theorem getid_joined (h : t.IsTree) (hleads : Leads t i ns j) (hs : IsEnd s) :
    getid t (joined ns ++ s) i = j :=
  getidLoop_joined h hleads hs _ (Nat.lt_succ_self _)

/-- The last byte of a path is the last one of a name. -/
theorem getLast_joined (hn : IsName n) : (joined (ns ++ [n])).getLast? ≠ some '/' := by
  have hlast : (joined (ns ++ [n])).getLast? = n.getLast? := by
    rw [joined_append, show joined [n] = '/' :: n from List.append_nil _, List.getLast?_append,
      List.getLast?_cons]
    cases hlast : n.getLast? with
    | none => exact absurd (List.getLast?_eq_none_iff.mp hlast) hn.1
    | some c => rfl
  rw [hlast]
  exact fun heq => hn.2 (List.mem_of_getLast? heq)

theorem buildPath_joined (ns : List CString) {m : CString} (hs : IsEnd s) (hm : IsName m) :
    buildPath (joined (ns ++ [m]) ++ s) n = joined (ns ++ [m] ++ [n]) := by
  have hjoin : joined (ns ++ [m] ++ [n]) = joined (ns ++ [m]) ++ ['/'] ++ n := by
    rw [joined_append (ns ++ [m]) [n], List.append_assoc]
    exact congrArg _ (List.append_nil _)
  unfold buildPath
  rw [hjoin]
  rcases hs with rfl | rfl
  · rw [List.append_nil, if_pos (getLast_joined hm)]
  · rw [List.getLast?_append, if_neg (fun hne => hne rfl)]

theorem striplastlevel_joined (ns : List CString) (hs : IsEnd s) (hn : IsName n) :
    striplastlevel (joined (ns ++ [n]) ++ s) = joined ns ++ ['/'] := by
  have hjoin : joined (ns ++ [n]) = joined ns ++ '/' :: n := by
    rw [joined_append]
    exact congrArg _ (List.append_nil _)
  have hrev : (joined (ns ++ [n])).reverse = n.reverse ++ '/' :: (joined ns).reverse := by
    rw [hjoin]
    simp
  have hdrop : ((joined (ns ++ [n])).reverse.dropWhile (· ≠ '/')).reverse = joined ns ++ ['/'] := by
    rw [hrev, (takeWhile_name (fun hmem => hn.2 (List.mem_reverse.mp hmem)) (.inr rfl)).2]
    simp
  unfold striplastlevel
  rcases hs with rfl | rfl
  · rw [List.append_nil]
    dsimp only
    rw [List.head?_reverse, if_neg (getLast_joined hn)]
    exact hdrop
  · rw [List.reverse_append]
    exact hdrop

/-! ## Browsing -/

/-- The path of a directory in the local library. -/
def localPath (ns : List CString) (s : CString) : CString := joined ("local".toList :: ns) ++ s

theorem isName_local : IsName "local".toList := ⟨by decide, by decide⟩

theorem Leads.nonneg (h : t.IsTree) (hleads : Leads t i ns j) (hi : 0 ≤ i) : 0 ≤ j := by
  induction hleads with
  | nil => exact hi
  | cons hr _ _ _ ih => exact ih (Int.le_of_lt (h.ids _ hr).1)

/-- The row that the last name leads to. -/
theorem Leads.last (hleads : Leads t i (ns ++ [n]) j) :
    ∃ r ∈ t.rows, r.id = j ∧ r.name = n ∧ Leads t i ns r.parentId := by
  generalize hl : ns ++ [n] = l at hleads
  induction hleads generalizing ns with
  | nil => exact absurd hl (by simp)
  | @cons r' ns' i j n' hr hi hn hleads ih =>
    cases ns with
    | nil =>
      cases hl
      cases hleads
      exact ⟨r', hr, rfl, hn, hi ▸ .nil _⟩
    | cons m ms =>
      cases hl
      obtain ⟨r, hmem, hid, hname, hbefore⟩ := ih rfl
      exact ⟨r, hmem, hid, hname, .cons hr hi hn hbefore⟩

theorem localOpendir_localPath (h : t.IsTree) (hleads : Leads t 0 ns j) (hs : IsEnd s) :
    localOpendir t (localPath ns s) = some j := by
  have hj := hleads.nonneg h (Int.le_refl 0)
  unfold localOpendir
  rw [show (localPath ns s).drop 6 = joined ns ++ s from rfl, getid_joined h hleads hs]
  exact if_neg (by omega)

theorem buildPath_localPath (h : t.IsTree) (hleads : Leads t 0 ns j) (hs : IsEnd s) :
    buildPath (localPath ns s) n = localPath (ns ++ [n]) [] := by
  rcases List.eq_nil_or_concat ns with rfl | ⟨ms, m, rfl⟩
  · exact (buildPath_joined [] hs isName_local).trans (List.append_nil _).symm
  · rw [List.concat_eq_append] at hleads ⊢
    obtain ⟨r, hr, -, rfl, -⟩ := hleads.last
    exact (buildPath_joined ("local".toList :: ms) hs (h.names r hr)).trans
      (List.append_nil _).symm

theorem striplastlevel_localPath (h : t.IsTree) (hleads : Leads t 0 (ns ++ [n]) j) (hs : IsEnd s) :
    striplastlevel (localPath (ns ++ [n]) s) = localPath ns ['/'] := by
  obtain ⟨r, hr, -, rfl, -⟩ := hleads.last
  exact striplastlevel_joined ("local".toList :: ns) hs (h.names r hr)

theorem striplastlevel_top (hs : IsEnd s) : striplastlevel (localPath [] s) = "/".toList :=
  striplastlevel_joined [] hs isName_local

theorem rowDirent_mem {r : Row} (hopen : localOpendir t path = some j) (hr : r ∈ t.rows)
    (hparent : r.parentId = j) : rowDirent path r ∈ listDirectory t path := by
  unfold listDirectory
  rw [hopen]
  refine List.mem_cons_of_mem _ (List.mem_map_of_mem (List.mem_mergeSort.mpr ?_))
  exact List.mem_filter.mpr ⟨hr, decide_eq_true hparent⟩

/-- Every path that is reached has the names that lead to its directory. -/
theorem Browse.located (h : t.IsTree) (hp : Browse t path) :
    ∃ ns s j, IsEnd s ∧ path = localPath ns s ∧ Leads t 0 ns j := by
  induction hp with
  | top => exact ⟨[], [], 0, .inl rfl, rfl, .nil 0⟩
  | slash _ hlast ih =>
    obtain ⟨ns, s, j, hs, rfl, hleads⟩ := ih
    rcases hs with rfl | rfl
    · refine ⟨ns, ['/'], j, .inr rfl, ?_, hleads⟩
      rw [localPath, List.append_nil]
      rfl
    · exact absurd (by rw [localPath, List.getLast?_append]; rfl) hlast
  | @enter path e _ he hdir hroot ih =>
    obtain ⟨ns, s, j, hs, rfl, hleads⟩ := ih
    unfold listDirectory at he
    rw [localOpendir_localPath h hleads hs] at he
    rcases List.mem_cons.mp he with rfl | hrow
    · -- the directory above
      rcases List.eq_nil_or_concat ns with rfl | ⟨ms, m, rfl⟩
      · exact absurd (striplastlevel_top hs) hroot
      · rw [List.concat_eq_append] at hleads ⊢
        obtain ⟨r, -, -, -, hbefore⟩ := hleads.last
        exact ⟨ms, ['/'], r.parentId, .inr rfl, striplastlevel_localPath h hleads hs, hbefore⟩
    · obtain ⟨r, hr, rfl⟩ := List.mem_map.mp hrow
      obtain ⟨hmem, hparent⟩ := List.mem_filter.mp (List.mem_mergeSort.mp hr)
      have hparent : r.parentId = j := of_decide_eq_true hparent
      unfold rowDirent at hdir ⊢
      split at hdir
      · rename_i hpath
        rw [if_pos hpath]
        exact ⟨ns ++ [r.name], [], r.id, .inl rfl, buildPath_localPath h hleads hs,
          hleads.append (.cons hmem hparent rfl (.nil _))⟩
      · cases hdir

/-- What a path that is reached, and the paths in its directory, are looked up to. -/
structure RoundTrip (t : Table) (path : CString) (id : Int) : Prop where
  opened : localOpendir t path = some id
  child : ∀ r ∈ t.rows, r.parentId = id → r.path = [] →
    rowDirent path r ∈ listDirectory t path ∧ getid t ((rowDirent path r).path.drop 6) 0 = r.id
  parent : (id = 0 ∧ striplastlevel path = "/".toList) ∨
    ∃ r ∈ t.rows, r.id = id ∧ getid t ((striplastlevel path).drop 6) 0 = r.parentId

/-- **Local paths round-trip**: in every directory reached by browsing, with a slash after its path
    or without, the path of a directory in it is looked up to its id, and the path of `..` to the id
    of the parent, or is `/` at the top. -/
theorem paths_round_trip (h : t.IsTree) (hp : Browse t path) : ∃ id, RoundTrip t path id := by
  obtain ⟨ns, s, j, hs, rfl, hleads⟩ := hp.located h
  have hopen := localOpendir_localPath h hleads hs
  refine ⟨j, hopen, fun r hr hparent hpath => ⟨rowDirent_mem hopen hr hparent, ?_⟩, ?_⟩
  · have hleads' := hleads.append (.cons hr hparent rfl (.nil _))
    rw [rowDirent, if_pos hpath]
    dsimp only
    rw [buildPath_localPath h hleads hs]
    exact getid_joined h hleads' (.inl rfl)
  · rcases List.eq_nil_or_concat ns with rfl | ⟨ms, m, rfl⟩
    · cases hleads
      exact .inl ⟨rfl, striplastlevel_top hs⟩
    · rw [List.concat_eq_append] at hleads ⊢
      obtain ⟨r, hr, hid, -, hbefore⟩ := hleads.last
      refine .inr ⟨r, hr, hid, ?_⟩
      rw [striplastlevel_localPath h hleads hs]
      exact getid_joined h hbefore (.inr rfl)

/-- The directories of a new database. -/
theorem paths_round_trip_video : newTable.IsTree ∧ Browse newTable "/local/Video".toList ∧
    ∃ id, RoundTrip newTable "/local/Video".toList id := by
  have htree : newTable.IsTree := ⟨by decide, by decide, by decide⟩
  have hopen : localOpendir newTable "/local".toList = some 0 := by decide +kernel
  have hmem := rowDirent_mem (r := ⟨2, 0, "Video".toList, []⟩) hopen (by decide) rfl
  have hbrowse : Browse newTable "/local/Video".toList := .enter .top hmem rfl (by decide)
  exact ⟨htree, hbrowse, paths_round_trip htree hbrowse⟩

end Mediabox.Library
