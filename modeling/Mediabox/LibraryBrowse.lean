import Mathlib.Data.Char
import Mediabox.Lib.Outcome
import Mediabox.Lib.Transition
import Mediabox.LibraryPaths

/-!
# Browsing the library (`src/library.c`, `src/browser.c`)

`mbox_library_opendir` opens the root of the library, the local library, the UPnP devices, the discs,
the Bluetooth devices or the tuners, by the first name of a path; `mbox_library_readdir` makes the
paths of their entries; the browser opens one of these, or the path that came with `..`.

* A path is a position, the names on the way to it, and may end with a slash (`At`).
* The statements and the allocations succeed.  `Supplied`: names are names of files; below the mount
  point of the UPnP devices there are no symbolic links, and a directory that is chosen there is
  still there; `isdir` of the entry that plays a disc, which the code does not set, is 0.
* The titles and the files to play are left out of the browser; `path` is the directory that it has
  opened last.

Main results: `browse_positions`, `back_returns`.
-/

set_option autoImplicit false

namespace Mediabox.LibraryBrowse

open Library Outcome Transition

/-! ## The code -/

inductive Fault where
  /-- `Invalid path!` -/
  | invalid
  /-- a pointer that was not initialised is freed -/
  | uninitialised
  | outOfBounds
  deriving DecidableEq, Repr

/-- An entry of a directory below the mount point of the UPnP devices: its name, and whether it is
    a directory if `stat` succeeds. -/
structure File where
  name : CString
  stat : Option Bool
  deriving DecidableEq, Repr

/-- `struct avbox_btdev` -/
structure BtDev where
  name : CString
  address : CString
  connected : Bool
  deriving DecidableEq, Repr

/-- `UPNP_ROOT` -/
def upnpRoot : CString := "/media/UPnP".toList

/-- What is found when a directory is opened. -/
structure Env where
  /-- the local library -/
  table : Table
  /-- `avbox_bluetooth_ready` -/
  bluetooth : Bool
  realpath : CString → Option CString
  opendir : CString → Option (List File)
  /-- `avbox_bluetooth_getdevices` -/
  devices : Option (List BtDev)
  /-- `udev_enumerate_new`, `udev_enumerate_scan_devices` -/
  udev : Bool

/-- The state of `struct mbox_library_dir`: what is left to read. -/
inductive DirState where
  | root (entries : List Dirent)
  | localDir (dotdotSent : Bool) (rows : List Row)
  | upnp (path : CString) (files : List File)
  | bluetooth (read : Bool) (devs : List BtDev)
  | dvd (read : Nat)
  | tv (read : Bool)
  deriving DecidableEq, Repr

/-- `struct mbox_library_dir` -/
structure Dir where
  path : CString
  state : DirState
  deriving DecidableEq, Repr

def rootEntries (env : Env) : List Dirent :=
  [⟨"Local Files".toList, "/local".toList, true⟩, ⟨"UPnP Devices".toList, "/upnp".toList, true⟩,
    ⟨"TV Tunners".toList, "/tv".toList, true⟩, ⟨"Optical Discs".toList, "/dvd".toList, true⟩] ++
  if env.bluetooth then [⟨"Bluetooth Devices".toList, "/bluetooth".toList, true⟩] else []

/-- The rows of the statement of `mbox_library_local_opendir`. -/
def rowsOf (t : Table) (id : Int) : List Row :=
  (t.rows.filter fun r => r.parentId = id).mergeSort fun r r' => r.name ≤ r'.name

/-- `rpath` in `mbox_library_opendir` -/
def rpath (path : CString) : CString :=
  let ppath := path.drop 5
  if ppath.getLast? ≠ some '/' then upnpRoot ++ ppath ++ ['/'] else upnpRoot ++ ppath

/-- The state of a directory that `mbox_library_opendir` opens; `none` where it returns `NULL`. -/
def opened (path : CString) (env : Env) : Except Fault (Option DirState) :=
  if path = "/".toList then .ok (some (.root (rootEntries env)))
  else if "/local".toList.isPrefixOf path then
    .ok ((localOpendir env.table path).map fun id => .localDir false (rowsOf env.table id))
  else if "/upnp".toList.isPrefixOf path then
    match env.realpath (rpath path), env.opendir (rpath path) with
    | some resolved, some files => .ok (some (.upnp resolved files))
    | _, _ => .error .uninitialised
  else if "/dvd".toList.isPrefixOf path then .ok (if env.udev then some (.dvd 0) else none)
  else if "/bluetooth".toList.isPrefixOf path then .ok (env.devices.map (.bluetooth false))
  else if "/tv".toList.isPrefixOf path then .ok (some (.tv false))
  else .error .invalid

/-- `mbox_library_opendir` -/
def opendir (path : CString) (env : Env) : Except Fault (Option Dir) :=
  (opened path env).map (Option.map (⟨path, ·⟩))

/-- `mbox_library_striplastlevel`, which looks for a slash before the last byte. -/
def strip (path : CString) : Except Fault CString :=
  if '/' ∈ path.dropLast then .ok (striplastlevel path) else .error .outOfBounds

/-- The extension that `mbox_library_stripext` returns. -/
def extension (filename : CString) : Option CString :=
  if filename = ['.', '.'] then none
  else if '.' ∈ filename then some (filename.reverse.takeWhile (· ≠ '.')).reverse
  else none

/-- Files with subtitles are not shown. -/
def subtitles (name : CString) : Bool :=
  (extension name).any fun ext =>
    let lower := ext.map Char.toLower
    lower = "srt".toList || lower = "sub".toList || lower = "idx".toList

/-- `case MBOX_LIBRARY_DIRTYPE_UPNP` of `mbox_library_readdir`, up to an entry that is shown -/
def readUpnp (dirPath resolved : CString) : List File → Except Fault (Option (Dirent × List File))
  | [] => .ok none
  | f :: files =>
    if f.name.head? = some '.' ∧ f.name ≠ "..".toList then readUpnp dirPath resolved files
    else if subtitles f.name then readUpnp dirPath resolved files
    else
      match f.stat with
      | none => readUpnp dirPath resolved files
      | some false => .ok (some (⟨f.name, resolved ++ '/' :: f.name, false⟩, files))
      | some true =>
        let filepath := resolved ++ '/' :: f.name ++ ['/']
        if filepath.length < upnpRoot.length then .error .outOfBounds
        else if f.name = "..".toList then do
          let path ← strip dirPath
          return some (⟨f.name, path, true⟩, files)
        else
          .ok (some (⟨f.name, "/upnp".toList ++ filepath.drop upnpRoot.length, true⟩, files))

/-- `mbox_library_dotdot` -/
def dotdot (dirPath : CString) : Except Fault Dirent := do
  let path ← strip dirPath
  return ⟨"..".toList, path, false⟩

/-- The first device that is connected. -/
def nextDevice : List BtDev → Option (BtDev × List BtDev)
  | [] => none
  | d :: devs => if d.connected then some (d, devs) else nextDevice devs

def BtDev.dirent (d : BtDev) : Dirent :=
  ⟨d.name ++ " (".toList ++ d.address ++ [')'], "a2dp:".toList ++ d.address, false⟩

/-- `mbox_library_readdir`; `malloc` is what is left in `isdir` of an entry. -/
def readdir (dir : Dir) (malloc : Bool) : Except Fault (Option (Dirent × DirState)) :=
  match dir.state with
  | .root [] => .ok none
  | .root (e :: entries) => .ok (some (e, .root entries))
  | .localDir false rows => do
    let path ← strip dir.path
    return some (⟨"..".toList, path, true⟩, .localDir true rows)
  | .localDir true [] => .ok none
  | .localDir true (r :: rows) => .ok (some (rowDirent dir.path r, .localDir true rows))
  | .upnp resolved files =>
    (readUpnp dir.path resolved files).map (Option.map fun x => (x.1, .upnp resolved x.2))
  | .bluetooth false devs => do return some (← dotdot dir.path, .bluetooth true devs)
  | .bluetooth true devs =>
    .ok ((nextDevice devs).map fun x => (x.1.dirent, .bluetooth true x.2))
  | .dvd 0 => do return some (← dotdot dir.path, .dvd 1)
  | .dvd 1 => .ok (some (⟨"Play DVD".toList, "dvd:/dev/sr0".toList, malloc⟩, .dvd 2))
  | .dvd _ => .ok none
  | .tv false => do return some (← dotdot dir.path, .tv true)
  | .tv true => .ok none

/-! ## The browser -/

/-- What the browser keeps of the library: the entries of its list, `dotdot`, and the directory that
    the worker has open. -/
structure State where
  path : CString
  items : List Dirent
  dotdot : Option CString
  dir : Option DirState
  deriving DecidableEq, Repr

inductive Event where
  /-- a directory of the list is selected -/
  | select (e : Dirent) (env : Env)
  /-- the list is left for `dotdot` -/
  | back (env : Env)
  /-- the worker reads an entry -/
  | read (malloc : Bool)
  /-- the worker is told to stop -/
  | abort

inductive Result where
  | opened
  | failed
  | entry
  | closed
  | fault (f : Fault)
  deriving DecidableEq, Repr

/-- `__mbox_browser_loadlist`, up to its loop -/
def load (s : State) (path : CString) (env : Env) : State × Result :=
  match opendir path env with
  | .ok (some dir) => (⟨dir.path, [], none, some dir.state⟩, .opened)
  | .ok none => ({ s with items := [] }, .failed)
  | .error f => (s, .fault f)

/-- One round of the loop. -/
def readEntry (s : State) (state : DirState) (malloc : Bool) : State × Result :=
  match readdir ⟨s.path, state⟩ malloc with
  | .ok none => ({ s with dir := none }, .closed)
  | .ok (some (e, state)) =>
    if e.name = "..".toList then ({ s with dotdot := some e.path, dir := some state }, .entry)
    else ({ s with items := s.items ++ [e], dir := some state }, .entry)
  | .error f => (s, .fault f)

def step (s : State) : Event → Option (State × Result)
  | .select e env =>
    if s.dir = none ∧ e ∈ s.items ∧ e.isdir = true then some (load s e.path env) else none
  | .back env =>
    match s.dir, s.dotdot with
    | none, some path => some (load s path env)
    | _, _ => none
  | .read malloc => s.dir.map fun state => readEntry s state malloc
  | .abort => s.dir.map fun _ => ({ s with dir := none }, .closed)

/-- The browser shows the root of the library. -/
def start (env : Env) : State := ⟨"/".toList, [], none, some (.root (rootEntries env))⟩

/-! ## Positions -/

/-- A name of a directory or of a file. -/
def IsPart (n : CString) : Prop := IsName n ∧ n ≠ ['.'] ∧ n ≠ "..".toList

/-- The first names of the paths. -/
def tops : List CString :=
  ["local".toList, "upnp".toList, "tv".toList, "dvd".toList, "bluetooth".toList]

/-- The names on the way from the root of the library. -/
def IsPosition : List CString → Prop
  | [] => True
  | top :: ns => top ∈ tops ∧ ∀ n ∈ ns, IsPart n

/-- The path of a position; it may have a slash at its end, and that of the root is `/`. -/
def At (path : CString) (pos : List CString) : Prop :=
  ∃ s, IsEnd s ∧ path = joined pos ++ s ∧ (pos = [] → s = ['/'])

/-- The rows on the way down from a row of the local library. -/
def walk (t : Table) : List CString → Int → Int
  | [], i => i
  | n :: ns, i =>
    match t.child? i n with
    | some r => walk t ns (int r.id)
    | none => -1

/-- The directory at a position. -/
def openedAt (env : Env) : List CString → Except Fault (Option DirState)
  | [] => .ok (some (.root (rootEntries env)))
  | top :: ns =>
    if top = "local".toList then
      let id := walk env.table ns 0
      .ok (if id = -1 then none else some (.localDir false (rowsOf env.table id)))
    else if top = "upnp".toList then
      match env.realpath (upnpRoot ++ joined ns ++ ['/']),
        env.opendir (upnpRoot ++ joined ns ++ ['/']) with
      | some resolved, some files => .ok (some (.upnp resolved files))
      | _, _ => .error .uninitialised
    else if top = "dvd".toList then .ok (if env.udev then some (.dvd 0) else none)
    else if top = "bluetooth".toList then .ok (env.devices.map (.bluetooth false))
    else .ok (some (.tv false))

section Positions

variable {t : Table} {env : Env} {path rest s n top : CString} {ns pos : List CString} {i : Int}

theorem getidLoop_walk (hns : ∀ n ∈ ns, IsName n) (hs : IsEnd s) (fuel : Nat)
    (hfuel : (joined ns ++ s).length < fuel) : getidLoop t fuel (joined ns ++ s) i = walk t ns i := by
  induction ns generalizing fuel i with
  | nil =>
    obtain ⟨fuel, rfl⟩ := Nat.exists_eq_succ_of_ne_zero (Nat.ne_of_gt (Nat.zero_lt_of_lt hfuel))
    rcases hs with rfl | rfl <;> rfl
  | cons n ns ih =>
    obtain ⟨fuel, rfl⟩ := Nat.exists_eq_succ_of_ne_zero (Nat.ne_of_gt (Nat.zero_lt_of_lt hfuel))
    obtain ⟨hne, hslash⟩ := hns n List.mem_cons_self
    have hpath : joined (n :: ns) ++ s = '/' :: (n ++ (joined ns ++ s)) := by simp [joined]
    obtain ⟨htake, hdrop⟩ := takeWhile_name hslash (head_joined ns hs)
    rw [hpath] at hfuel ⊢
    unfold getidLoop walk
    simp only [List.head?_cons, if_true, List.drop_one, List.tail_cons, htake, hdrop, if_neg hne]
    cases t.child? i n with
    | none => rfl
    | some r =>
      cases ns with
      | nil =>
        have hshort : ¬(joined [] ++ s).length > 1 := by
          rcases hs with rfl | rfl <;> decide
        exact if_neg hshort
      | cons m ms =>
        have hlong : (joined (m :: ms) ++ s).length > 1 := by
          have hpos := List.length_pos_iff.mpr (hns m (by simp)).1
          simp only [joined, List.flatMap_cons, List.length_append, List.length_cons]
          omega
        refine (if_pos hlong).trans ?_
        refine ih (fun k hk => hns k (List.mem_cons_of_mem n hk)) fuel ?_
        simp only [List.length_cons, List.length_append] at hfuel ⊢
        omega

theorem opened_local : opened ("/local".toList ++ rest) env =
    .ok ((localOpendir env.table ("/local".toList ++ rest)).map fun id =>
      .localDir false (rowsOf env.table id)) := rfl

theorem opened_upnp : opened ("/upnp".toList ++ rest) env =
    match env.realpath (rpath ("/upnp".toList ++ rest)),
      env.opendir (rpath ("/upnp".toList ++ rest)) with
    | some resolved, some files => .ok (some (.upnp resolved files))
    | _, _ => .error .uninitialised := rfl

theorem openedAt_upnp : openedAt env ("upnp".toList :: ns) =
    match env.realpath (upnpRoot ++ joined ns ++ ['/']),
      env.opendir (upnpRoot ++ joined ns ++ ['/']) with
    | some resolved, some files => .ok (some (.upnp resolved files))
    | _, _ => .error .uninitialised := rfl

theorem rpath_upnp (hns : ∀ n ∈ ns, IsName n) (hs : IsEnd s) :
    rpath ("/upnp".toList ++ (joined ns ++ s)) = upnpRoot ++ joined ns ++ ['/'] := by
  have hdrop : ("/upnp".toList ++ (joined ns ++ s)).drop 5 = joined ns ++ s := rfl
  unfold rpath
  rw [hdrop]
  rcases hs with rfl | rfl
  · rw [List.append_nil]
    refine if_pos ?_
    rcases List.eq_nil_or_concat ns with rfl | ⟨ms, m, rfl⟩
    · simp [joined]
    · rw [List.concat_eq_append]
      exact getLast_joined (hns m (by simp))
  · rw [if_neg (by simp), List.append_assoc]

/-- **A path is opened by its position**, whether it ends with a slash or not. -/
theorem opened_at (hpath : At path pos) (hpos : IsPosition pos) :
    opened path env = openedAt env pos := by
  obtain ⟨s, hs, rfl, hroot⟩ := hpath
  cases pos with
  | nil =>
    rw [hroot rfl]
    rfl
  | cons top ns =>
    obtain ⟨htop, hns⟩ := hpos
    have hnames : ∀ n ∈ ns, IsName n := fun n hn => (hns n hn).1
    have hpath : joined (top :: ns) ++ s = '/' :: top ++ (joined ns ++ s) := by simp [joined]
    rw [hpath]
    simp only [tops, List.mem_cons, List.not_mem_nil, or_false] at htop
    rcases htop with rfl | rfl | rfl | rfl | rfl
    · have hid : getid env.table (joined ns ++ s) 0 = walk env.table ns 0 :=
        getidLoop_walk hnames hs _ (Nat.lt_succ_self _)
      refine opened_local.trans ?_
      unfold localOpendir
      rw [show ("/local".toList ++ (joined ns ++ s)).drop 6 = joined ns ++ s from rfl, hid]
      by_cases hnone : walk env.table ns 0 = -1
      · simp [openedAt, hnone]
      · simp [openedAt, hnone]
    · refine opened_upnp.trans ?_
      rw [rpath_upnp hnames hs, openedAt_upnp]
    · rfl
    · rfl
    · rfl

theorem at_top (htop : top ∈ tops) : At ('/' :: top) [top] ∧ IsPosition [top] :=
  ⟨⟨[], .inl rfl, by simp [joined], by simp⟩, htop, by simp⟩

theorem IsPosition.append (hpos : IsPosition pos) (hne : pos ≠ []) (hn : IsPart n) :
    IsPosition (pos ++ [n]) := by
  cases pos with
  | nil => exact absurd rfl hne
  | cons top ns =>
    refine ⟨hpos.1, fun m hm => ?_⟩
    rcases List.mem_append.mp hm with hns | hlast
    · exact hpos.2 m hns
    · exact List.mem_singleton.mp hlast ▸ hn

theorem isName_of_top (htop : top ∈ tops) : IsName top := by
  simp only [tops, List.mem_cons, List.not_mem_nil, or_false] at htop
  rcases htop with rfl | rfl | rfl | rfl | rfl <;> exact ⟨by decide, by decide⟩

theorem IsPosition.last (hpos : IsPosition pos) (hne : pos ≠ []) :
    ∃ ms m, pos = ms ++ [m] ∧ IsName m := by
  obtain ⟨ms, m, rfl⟩ := (List.eq_nil_or_concat pos).resolve_left hne
  rw [List.concat_eq_append] at hpos ⊢
  refine ⟨ms, m, rfl, ?_⟩
  cases ms with
  | nil => exact isName_of_top hpos.1
  | cons top ms => exact (hpos.2 m (by simp)).1

/-- **The path of `..`** is that of the position above. -/
theorem strip_at (hpath : At path pos) (hpos : IsPosition pos) (hne : pos ≠ []) :
    ∃ q, strip path = .ok q ∧ At q pos.dropLast := by
  obtain ⟨s, hs, rfl, -⟩ := hpath
  obtain ⟨ms, m, rfl, hm⟩ := hpos.last hne
  have hslash : '/' ∈ (joined (ms ++ [m]) ++ s).dropLast := by
    have hlen := List.length_pos_iff.mpr hm.1
    obtain ⟨c, hc⟩ : ∃ c, joined (ms ++ [m]) ++ s = joined ms ++ '/' :: c ∧ c ≠ [] := by
      refine ⟨m ++ s, by simp [joined], ?_⟩
      simp [hm.1]
    rw [hc.1, List.dropLast_append_of_ne_nil (by simp), List.dropLast_cons_of_ne_nil hc.2]
    simp
  refine ⟨joined ms ++ ['/'], ?_, ['/'], .inr rfl, by simp, fun _ => rfl⟩
  rw [strip, if_pos hslash, striplastlevel_joined ms hs hm]

theorem buildPath_at (hpath : At path pos) (hpos : IsPosition pos) (hne : pos ≠ []) :
    At (buildPath path n) (pos ++ [n]) := by
  obtain ⟨s, hs, rfl, -⟩ := hpath
  obtain ⟨ms, m, rfl, hm⟩ := hpos.last hne
  exact ⟨[], .inl rfl, by rw [buildPath_joined ms hs hm, List.append_nil], by simp⟩

end Positions

/-! ## What is supplied -/

/-- What is found at a path: names of files, no links, and the directory itself. -/
structure Env.Supplied (env : Env) (path : CString) : Prop where
  rows : ∀ r ∈ env.table.rows, IsPart r.name
  files : ∀ p, ∀ l ∈ env.opendir p, ∀ f ∈ l, IsName f.name ∧
    (f.name = "..".toList → f.stat ≠ some false)
  real : ∀ ns, (∀ n ∈ ns, IsPart n) → ∀ q ∈ env.realpath (upnpRoot ++ joined ns ++ ['/']),
    q = upnpRoot ++ joined ns
  found : "/upnp".toList.isPrefixOf path = true →
    (env.realpath (rpath path)).isSome ∧ (env.opendir (rpath path)).isSome

def Supplied (s : State) : Event → Prop
  | .select e env => env.Supplied e.path
  | .back env => ∀ path ∈ s.dotdot, env.Supplied path
  | .read malloc => malloc = false
  | .abort => True

/-! ## The directories -/

/-- What is left to read of the directory at a position. -/
inductive Holds : List CString → DirState → Prop where
  | root (entries : List Dirent) (h : ∀ e ∈ entries, e.name ≠ "..".toList ∧
      ∃ top ∈ tops, e.path = '/' :: top) : Holds [] (.root entries)
  | localDir (ns : List CString) (sent : Bool) (rows : List Row) (h : ∀ r ∈ rows, IsPart r.name) :
      Holds ("local".toList :: ns) (.localDir sent rows)
  | upnp (ns : List CString) (files : List File) (h : ∀ f ∈ files, IsName f.name ∧
      (f.name = "..".toList → f.stat ≠ some false)) :
      Holds ("upnp".toList :: ns) (.upnp (upnpRoot ++ joined ns) files)
  | bluetooth (ns : List CString) (read : Bool) (devs : List BtDev) :
      Holds ("bluetooth".toList :: ns) (.bluetooth read devs)
  | dvd (ns : List CString) (read : Nat) : Holds ("dvd".toList :: ns) (.dvd read)
  | tv (ns : List CString) (read : Bool) : Holds ("tv".toList :: ns) (.tv read)

/-- An entry of the directory at a position: `..` has the path of the position above, another
    directory that of a position below. -/
structure Entry (pos : List CString) (e : Dirent) : Prop where
  up : e.name = "..".toList → pos ≠ [] ∧ At e.path pos.dropLast
  down : e.name ≠ "..".toList → e.isdir = true →
    ∃ n, At e.path (pos ++ [n]) ∧ IsPosition (pos ++ [n])

section Directories

variable {env : Env} {path : CString} {pos : List CString} {state : DirState}

theorem rootEntries_spec (env : Env) : ∀ e ∈ rootEntries env, e.name ≠ "..".toList ∧
    ∃ top ∈ tops, e.path = '/' :: top := by
  have hall : ∀ e ∈ rootEntries { env with bluetooth := true }, e.name ≠ "..".toList ∧
      ∃ top ∈ tops, e.path = '/' :: top := by
    intro e he
    simp only [rootEntries, if_true, List.cons_append, List.nil_append, List.mem_cons,
      List.not_mem_nil, or_false] at he
    rcases he with rfl | rfl | rfl | rfl | rfl
    · exact ⟨by decide, "local".toList, by decide, rfl⟩
    · exact ⟨by decide, "upnp".toList, by decide, rfl⟩
    · exact ⟨by decide, "tv".toList, by decide, rfl⟩
    · exact ⟨by decide, "dvd".toList, by decide, rfl⟩
    · exact ⟨by decide, "bluetooth".toList, by decide, rfl⟩
  intro e he
  refine hall e ?_
  unfold rootEntries at he ⊢
  rcases List.mem_append.mp he with hfixed | hready
  · exact List.mem_append_left _ hfixed
  · split at hready
    · exact List.mem_append_right _ hready
    · cases hready

/-- A directory that is opened is the one at its position. -/
theorem openedAt_holds (hpos : IsPosition pos) (hpath : At path pos) (henv : env.Supplied path) :
    Ensures (openedAt env pos) (fun x => ∀ state ∈ x, Holds pos state) fun _ => False := by
  cases pos with
  | nil =>
    intro state hstate
    cases hstate
    exact .root _ (rootEntries_spec env)
  | cons top ns =>
    obtain ⟨htop, hns⟩ := hpos
    simp only [tops, List.mem_cons, List.not_mem_nil, or_false] at htop
    rcases htop with rfl | rfl | rfl | rfl | rfl
    · intro state hstate
      obtain ⟨-, ⟨⟩⟩ := Option.ite_none_left_eq_some.mp hstate
      refine .localDir ns false _ fun r hr => henv.rows r ?_
      exact List.mem_of_mem_filter (List.mem_mergeSort.mp hr)
    · obtain ⟨s, hs, rfl, -⟩ := hpath
      have hpath : joined ("upnp".toList :: ns) ++ s = "/upnp".toList ++ (joined ns ++ s) := by
        simp [joined]
      have hfound := henv.found (by rw [hpath]; rfl)
      rw [hpath, rpath_upnp (fun n hn => (hns n hn).1) hs] at hfound
      obtain ⟨resolved, hresolved⟩ := Option.isSome_iff_exists.mp hfound.1
      obtain ⟨files, hfiles⟩ := Option.isSome_iff_exists.mp hfound.2
      rw [openedAt_upnp, hresolved, hfiles]
      intro state hstate
      cases hstate
      rw [henv.real ns hns resolved hresolved]
      exact .upnp ns files (henv.files _ files hfiles)
    · intro state hstate
      cases hstate
      exact .tv ns false
    · intro state hstate
      obtain ⟨-, ⟨⟩⟩ := Option.ite_none_right_eq_some.mp hstate
      exact .dvd ns 0
    · intro state hstate
      obtain ⟨devs, -, rfl⟩ := Option.map_eq_some_iff.mp hstate
      exact .bluetooth ns false devs

theorem dotdot_spec (hpos : IsPosition pos) (hpath : At path pos) (hne : pos ≠ []) :
    Ensures (dotdot path) (fun e => Entry pos e) fun _ => False := by
  obtain ⟨q, hq, hat⟩ := strip_at hpath hpos hne
  unfold dotdot
  rw [hq]
  exact ⟨fun _ => ⟨hne, hat⟩, fun hname => absurd rfl hname⟩

theorem entry_file {e : Dirent} (hname : e.name ≠ "..".toList) (hfile : e.isdir = false) :
    Entry pos e :=
  ⟨fun h => absurd h hname, fun _ hdir => absurd (hfile.symm.trans hdir) (by decide)⟩

theorem rowDirent_entry {ns : List CString} {r : Row} (hpos : IsPosition ("local".toList :: ns))
    (hpath : At path ("local".toList :: ns)) (hr : IsPart r.name) :
    Entry ("local".toList :: ns) (rowDirent path r) := by
  unfold rowDirent
  split
  · exact ⟨fun h => absurd h hr.2.2, fun _ _ =>
      ⟨r.name, buildPath_at hpath hpos (by simp), hpos.append (by simp) hr⟩⟩
  · exact entry_file hr.2.2 rfl

theorem readUpnp_spec {ns : List CString} (hpos : IsPosition ("upnp".toList :: ns))
    (hpath : At path ("upnp".toList :: ns)) (files : List File)
    (h : ∀ f ∈ files, IsName f.name ∧ (f.name = "..".toList → f.stat ≠ some false)) :
    Ensures (readUpnp path (upnpRoot ++ joined ns) files)
      (fun x => ∀ y ∈ x, Entry ("upnp".toList :: ns) y.1 ∧ ∀ f ∈ y.2, f ∈ files)
      fun _ => False := by
  induction files with
  | nil => exact fun y hy => by cases hy
  | cons f files ih =>
    obtain ⟨hname, hup⟩ := h f List.mem_cons_self
    have hskip : Ensures (readUpnp path (upnpRoot ++ joined ns) files)
        (fun x => ∀ y ∈ x, Entry ("upnp".toList :: ns) y.1 ∧ ∀ f' ∈ y.2, f' ∈ f :: files)
        fun _ => False :=
      (ih fun f' hf' => h f' (List.mem_cons_of_mem f hf')).imp fun x hx y hy =>
        ⟨(hx y hy).1, fun f' hf' => List.mem_cons_of_mem f ((hx y hy).2 f' hf')⟩
    unfold readUpnp
    rw [ensures_ite]
    refine ⟨fun _ => hskip, fun hhidden => ?_⟩
    rw [ensures_ite]
    refine ⟨fun _ => hskip, fun _ => ?_⟩
    cases hstat : f.stat with
    | none => exact hskip
    | some isdir =>
      cases isdir with
      | false =>
        intro y hy
        cases hy
        exact ⟨entry_file (fun heq => hup heq hstat) rfl, fun f' => List.mem_cons_of_mem f⟩
      | true =>
        have hpart (hne : f.name ≠ "..".toList) : IsPart f.name :=
          ⟨hname, fun heq => hhidden ⟨by rw [heq]; rfl, hne⟩, hne⟩
        dsimp only
        rw [ensures_ite]
        refine ⟨fun hshort => ?_, fun _ => ?_⟩
        · simp only [List.length_append] at hshort
          omega
        · rw [ensures_ite]
          refine ⟨fun heq => ?_, fun hne => ?_⟩
          · obtain ⟨q, hq, hat⟩ := strip_at hpath hpos (by simp)
            rw [hq]
            intro y hy
            cases hy
            exact ⟨⟨fun _ => ⟨by simp, hat⟩, fun hne => absurd heq hne⟩,
              fun f' => List.mem_cons_of_mem f⟩
          · intro y hy
            cases hy
            refine ⟨⟨fun heq => absurd heq hne, fun _ _ => ⟨f.name, ?_,
              hpos.append (by simp) (hpart hne)⟩⟩, fun f' => List.mem_cons_of_mem f⟩
            refine ⟨['/'], .inr rfl, ?_, by simp⟩
            simp [joined]

theorem nextDevice_name (d : BtDev) : d.dirent.name ≠ "..".toList := by
  intro h
  have hlast : d.dirent.name.getLast? = some ')' := List.getLast?_append
  rw [h] at hlast
  exact absurd hlast (by decide)

/-- **One entry** of a directory at its position. -/
theorem readdir_spec (hpos : IsPosition pos) (hpath : At path pos) (hstate : Holds pos state) :
    Ensures (readdir ⟨path, state⟩ false)
      (fun x => ∀ y ∈ x, Entry pos y.1 ∧ Holds pos y.2) fun _ => False := by
  cases hstate with
  | root entries h =>
    cases entries with
    | nil => exact fun y hy => by cases hy
    | cons e entries =>
      intro y hy
      cases hy
      obtain ⟨hname, top, htop, hetop⟩ := h e List.mem_cons_self
      refine ⟨⟨fun heq => absurd heq hname, fun _ _ => ⟨top, hetop ▸ at_top htop⟩⟩, ?_⟩
      exact .root entries fun e' he' => h e' (List.mem_cons_of_mem e he')
  | localDir ns sent rows h =>
    cases sent with
    | false =>
      obtain ⟨q, hq, hat⟩ := strip_at hpath hpos (by simp)
      unfold readdir
      rw [hq]
      intro y hy
      cases hy
      exact ⟨⟨fun _ => ⟨by simp, hat⟩, fun hname => absurd rfl hname⟩, .localDir ns true rows h⟩
    | true =>
      cases rows with
      | nil => exact fun y hy => by cases hy
      | cons r rows =>
        intro y hy
        cases hy
        exact ⟨rowDirent_entry hpos hpath (h r List.mem_cons_self),
          .localDir ns true rows fun r' hr' => h r' (List.mem_cons_of_mem r hr')⟩
  | upnp ns files h =>
    unfold readdir
    rw [ensures_map]
    refine (readUpnp_spec hpos hpath files h).imp fun x hx y hy => ?_
    obtain ⟨z, hz, rfl⟩ := Option.map_eq_some_iff.mp hy
    obtain ⟨hentry, hrest⟩ := hx z hz
    exact ⟨hentry, .upnp ns z.2 fun f hf => h f (hrest f hf)⟩
  | bluetooth ns read devs =>
    cases read with
    | false =>
      unfold readdir
      rw [ensures_bind]
      refine (dotdot_spec hpos hpath (by simp)).imp fun e he y hy => ?_
      cases hy
      exact ⟨he, .bluetooth ns true devs⟩
    | true =>
      intro y hy
      obtain ⟨z, -, rfl⟩ := Option.map_eq_some_iff.mp hy
      exact ⟨entry_file (nextDevice_name z.1) rfl, .bluetooth ns true z.2⟩
  | dvd ns read =>
    match read with
    | 0 =>
      change Ensures (dotdot path >>= fun e => pure (some (e, DirState.dvd 1))) _ _
      rw [ensures_bind]
      refine (dotdot_spec hpos hpath (by simp)).imp fun e he y hy => ?_
      cases hy
      exact ⟨he, .dvd ns 1⟩
    | 1 =>
      intro y hy
      cases hy
      exact ⟨entry_file (by decide) rfl, .dvd ns 2⟩
    | read + 2 => exact fun y hy => by cases hy
  | tv ns read =>
    cases read with
    | false =>
      unfold readdir
      rw [ensures_bind]
      refine (dotdot_spec hpos hpath (by simp)).imp fun e he y hy => ?_
      cases hy
      exact ⟨he, .tv ns true⟩
    | true => exact fun y hy => by cases hy

end Directories

/-! ## Runs -/

section Runs

variable {s t : State} {e : Event} {r : Result} {env : Env} {pos : List CString}
  {tr : List (Event × Result)}

/-- The browser shows the directory at a position. -/
structure Shows (s : State) (pos : List CString) : Prop where
  path : At s.path pos
  position : IsPosition pos
  items : ∀ e ∈ s.items, e.isdir = true → ∃ n, At e.path (pos ++ [n]) ∧ IsPosition (pos ++ [n])
  dotdot : ∀ q ∈ s.dotdot, pos ≠ [] ∧ At q pos.dropLast
  dir : ∀ state ∈ s.dir, Holds pos state

theorem IsPosition.dropLast (h : IsPosition pos) : IsPosition pos.dropLast := by
  cases pos with
  | nil => trivial
  | cons top ns =>
    cases ns with
    | nil => trivial
    | cons n ns => exact ⟨h.1, fun m hm => h.2 m (List.dropLast_subset _ hm)⟩

theorem start_shows (env : Env) : Shows (start env) [] where
  path := ⟨['/'], .inr rfl, rfl, fun _ => rfl⟩
  position := trivial
  items e he := by cases he
  dotdot q hq := by cases hq
  dir state hstate := by
    cases hstate
    exact .root _ (rootEntries_spec env)

/-- A directory is loaded: it is shown from then on, or the list is empty. -/
theorem load_shows {p : CString} {pos' : List CString} (h : Shows s pos) (hp : At p pos')
    (hpos : IsPosition pos') (henv : env.Supplied p) (hr : load s p env = (t, r)) :
    (r = .opened ∧ t.path = p ∧ Shows t pos') ∨ (r = .failed ∧ Shows t pos) := by
  have hopened := openedAt_holds hpos hp henv
  rw [← opened_at hp hpos] at hopened
  obtain ⟨x, hx, hstate⟩ := hopened.exists_ok
  unfold load opendir at hr
  rw [hx] at hr
  cases x with
  | none =>
    cases hr
    exact .inr ⟨rfl, { h with items := fun e he => absurd he List.not_mem_nil }⟩
  | some state =>
    cases hr
    refine .inl ⟨rfl, rfl, ?_⟩
    exact {
      path := hp
      position := hpos
      items := fun e he => absurd he List.not_mem_nil
      dotdot := fun q hq => absurd hq (by simp)
      dir := hstate }

/-- An entry that is read belongs to the directory that is shown. -/
theorem readEntry_shows {state : DirState} (h : Shows s pos) (hstate : s.dir = some state)
    (hr : readEntry s state false = (t, r)) :
    (∀ f, r ≠ .fault f) ∧ t.path = s.path ∧ Shows t pos := by
  have hspec := readdir_spec h.position h.path (h.dir state hstate)
  obtain ⟨x, hx, hentry⟩ := hspec.exists_ok
  unfold readEntry at hr
  rw [hx] at hr
  cases x with
  | none =>
    cases hr
    exact ⟨by simp, rfl, h.path, h.position, h.items, h.dotdot, fun _ hnone => by cases hnone⟩
  | some y =>
    obtain ⟨hy, hholds⟩ := hentry y rfl
    have hdir : ∀ state' ∈ some y.2, Holds pos state' := fun state' hs => by cases hs; exact hholds
    dsimp only at hr
    split at hr
    · rename_i hname
      cases hr
      exact ⟨by simp, rfl, h.path, h.position, h.items,
        fun q hq => by cases hq; exact hy.up hname, hdir⟩
    · rename_i hname
      cases hr
      refine ⟨by simp, rfl, h.path, h.position, fun e he => ?_, h.dotdot, hdir⟩
      rcases List.mem_append.mp he with hpast | hlast
      · exact h.items e hpast
      · rw [List.mem_singleton.mp hlast]
        exact hy.down hname

/-- The worker reads its directory, or is told to stop. -/
def Reading (_ : State) : Event → Prop
  | .read malloc => malloc = false
  | .abort => True
  | _ => False

theorem reading_shows (h : Shows s pos) (hguard : Reading s e) (hstep : step s e = some (t, r)) :
    (∀ f, r ≠ .fault f) ∧ t.path = s.path ∧ Shows t pos := by
  cases e with
  | select e env | back env => exact hguard.elim
  | read malloc =>
    obtain rfl : malloc = false := hguard
    obtain ⟨state, hstate, hr⟩ := Option.map_eq_some_iff.mp hstep
    exact readEntry_shows h hstate hr
  | abort =>
    obtain ⟨state, -, hr⟩ := Option.map_eq_some_iff.mp hstep
    cases hr
    exact ⟨by simp, rfl, h.path, h.position, h.items, h.dotdot, fun _ hnone => by cases hnone⟩

/-- **One step** leaves the browser at a position, which is that of the path it has opened. -/
theorem step_shows (h : Shows s pos) (hguard : Supplied s e) (hstep : step s e = some (t, r)) :
    (∀ f, r ≠ .fault f) ∧ ∃ pos', Shows t pos' ∧ (pos' = pos ∨ (∃ n, pos' = pos ++ [n]) ∨
      pos ≠ [] ∧ pos' = pos.dropLast) := by
  cases e with
  | select e env =>
    obtain ⟨⟨-, he, hisdir⟩, hload⟩ := Option.ite_none_right_eq_some.mp hstep
    obtain ⟨n, hat, hpos⟩ := h.items e he hisdir
    rcases load_shows h hat hpos hguard (Option.some.inj hload) with
      ⟨rfl, -, ht⟩ | ⟨rfl, ht⟩
    · exact ⟨by simp, _, ht, .inr (.inl ⟨n, rfl⟩)⟩
    · exact ⟨by simp, pos, ht, .inl rfl⟩
  | back env =>
    cases hdir : s.dir with
    | some state => simp [step, hdir] at hstep
    | none =>
      cases hback : s.dotdot with
      | none => simp [step, hdir, hback] at hstep
      | some q =>
        simp only [step, hdir, hback, Option.some.injEq] at hstep
        obtain ⟨hne, hat⟩ := h.dotdot q hback
        rcases load_shows h hat h.position.dropLast (hguard q hback) hstep with
          ⟨rfl, -, ht⟩ | ⟨rfl, ht⟩
        · exact ⟨by simp, _, ht, .inr (.inr ⟨hne, rfl⟩)⟩
        · exact ⟨by simp, pos, ht, .inl rfl⟩
  | read malloc =>
    obtain ⟨hfault, -, ht⟩ := reading_shows (e := .read malloc) h hguard hstep
    exact ⟨hfault, pos, ht, .inl rfl⟩
  | abort =>
    obtain ⟨hfault, -, ht⟩ := reading_shows (e := .abort) h hguard hstep
    exact ⟨hfault, pos, ht, .inl rfl⟩

theorem run_shows (h : Run (Guarded step Supplied) (start env) tr s) : ∃ pos, Shows s pos := by
  refine Run.invariant (P := fun s => ∃ pos, Shows s pos) ⟨[], start_shows env⟩ ?_ h
  rintro s a t ⟨pos, hs⟩ hr
  obtain ⟨-, pos', ht, -⟩ := step_shows hs hr.1 hr.2
  exact ⟨pos', ht⟩

/-- **Browsing stays in the library**: along every run the path that is open, those of the
    directories in the list and the one of `..` are paths of positions, below and above each other;
    no path is invalid, and none is read outside of its bytes. -/
theorem browse_positions (h : Run (Guarded step Supplied) (start env) tr s) :
    (∃ pos, Shows s pos) ∧ ∀ a ∈ tr, ∀ f, a.2 ≠ .fault f := by
  refine Run.history (P := fun tr s => (∃ pos, Shows s pos) ∧ ∀ a ∈ tr, ∀ f, a.2 ≠ .fault f)
    ⟨⟨[], start_shows env⟩, by simp⟩ ?_ h
  rintro tr s a t ⟨⟨pos, hs⟩, hfault⟩ hr
  obtain ⟨hlast, pos', ht, -⟩ := step_shows hs hr.1 hr.2
  refine ⟨⟨pos', ht⟩, fun b hb => ?_⟩
  rcases List.mem_append.mp hb with hpast | hb
  · exact hfault b hpast
  · exact List.mem_singleton.mp hb ▸ hlast

/-- Every UPnP directory has a directory `A`. -/
def mounted : Env where
  table := newTable
  bluetooth := false
  realpath path := some path.dropLast
  opendir _ := some [⟨"..".toList, some true⟩, ⟨['A'], some true⟩]
  devices := none
  udev := false

theorem mounted_supplied (path : CString) : mounted.Supplied path where
  rows := by
    have hall : ∀ r ∈ newTable.rows, (r.name ≠ [] ∧ '/' ∉ r.name) ∧ r.name ≠ ['.'] ∧
      r.name ≠ "..".toList := by decide
    exact hall
  files p l hl := by
    cases hl
    have hall : ∀ f ∈ [File.mk "..".toList (some true), ⟨['A'], some true⟩],
      (f.name ≠ [] ∧ '/' ∉ f.name) ∧ (f.name = "..".toList → f.stat ≠ some false) := by decide
    exact hall
  real ns hns q hq := by
    cases hq
    exact List.dropLast_concat
  found _ := ⟨rfl, rfl⟩

/-- The UPnP devices are opened, and read as a whole. -/
def toDevices : List Event :=
  [.read false, .read false, .abort, .select ⟨"UPnP Devices".toList, "/upnp".toList, true⟩ mounted,
    .read false, .read false, .read false]

theorem toDevices_supplied (s : State) : ∀ e ∈ toDevices, Supplied s e := by
  intro e he
  simp only [toDevices, List.mem_cons, List.not_mem_nil, or_false] at he
  rcases he with rfl | rfl | rfl | rfl | rfl | rfl | rfl
  · rfl
  · rfl
  · trivial
  · exact mounted_supplied _
  · rfl
  · rfl
  · rfl

/-- The browser with the list of the UPnP devices. -/
def devices : State :=
  ⟨"/upnp".toList, [⟨['A'], "/upnp/A/".toList, true⟩], some "/".toList, none⟩

theorem run_toDevices : ∃ tr, Run (Guarded step Supplied) (start mounted) tr devices ∧
    tr.map Prod.fst = toDevices := by
  obtain ⟨r, hr, hs⟩ : ∃ r ∈ exec step (start mounted) toDevices, r.1 = devices := by
    decide +kernel
  exact ⟨r.2, hs ▸ guarded_run_of_exec toDevices toDevices_supplied hr, exec_events toDevices hr⟩

theorem browse_positions_devices : ∃ tr, Run (Guarded step Supplied) (start mounted) tr devices ∧
    tr.map Prod.fst = toDevices ∧ ∃ pos, Shows devices pos := by
  obtain ⟨tr, hrun, hevents⟩ := run_toDevices
  exact ⟨tr, hrun, hevents, (browse_positions hrun).1⟩

/-- **`..` leads back**: after a directory has been selected, opened and read, in part or as a
    whole, the path that came with `..` opens the directory from which it was selected. -/
theorem back_returns {s₁ : State} {e : Dirent} {tr' : List (Event × Result)} {q : CString}
    (h : Run (Guarded step Supplied) (start env) tr s) {env₁ : Env}
    (hselect : Guarded step Supplied s (.select e env₁, .opened) s₁)
    (hread : Run (Guarded step Reading) s₁ tr' t) (hback : t.dotdot = some q) (env' : Env) :
    opened q env' = opened s.path env' := by
  obtain ⟨pos, hs⟩ := run_shows h
  obtain ⟨hguard, hstep⟩ := hselect
  obtain ⟨⟨-, he, hisdir⟩, hload⟩ := Option.ite_none_right_eq_some.mp hstep
  obtain ⟨n, hat, hpos⟩ := hs.items e he hisdir
  rcases load_shows hs hat hpos hguard (Option.some.inj hload) with ⟨-, -, ht⟩ | ⟨hfailed, -⟩
  · have hshows : Shows t (pos ++ [n]) := Run.invariant (P := fun u => Shows u (pos ++ [n])) ht
      (fun _ _ _ hu hr => (reading_shows hu hr.1 hr.2).2.2) hread
    have hq := (hshows.dotdot q hback).2
    rw [List.dropLast_concat] at hq
    rw [opened_at hq hs.position, opened_at hs.path hs.position]
  · cases hfailed

theorem back_returns_devices : ∃ tr s₁ tr' t,
    Run (Guarded step Supplied) (start mounted) tr devices ∧
      Guarded step Supplied devices (.select ⟨['A'], "/upnp/A/".toList, true⟩ mounted, .opened) s₁ ∧
      Run (Guarded step Reading) s₁ tr' t ∧ t.dotdot = some "/upnp/".toList ∧
      opened "/upnp/".toList mounted = opened "/upnp".toList mounted := by
  obtain ⟨tr, hrun, -⟩ := run_toDevices
  let inside : State := ⟨"/upnp/A/".toList, [], none, some (.upnp "/media/UPnP/A".toList
    [⟨"..".toList, some true⟩, ⟨['A'], some true⟩])⟩
  have hselect : step devices (.select ⟨['A'], "/upnp/A/".toList, true⟩ mounted) =
      some (inside, .opened) := by decide +kernel
  obtain ⟨r', hr', hback⟩ : ∃ r ∈ exec step inside [.read false],
      r.1.dotdot = some "/upnp/".toList := by decide +kernel
  have hread : Run (Guarded step Reading) inside r'.2 r'.1 :=
    guarded_run_of_exec [.read false] (fun _ e he => List.mem_singleton.mp he ▸ rfl) hr'
  exact ⟨tr, inside, r'.2, r'.1, hrun, ⟨mounted_supplied _, hselect⟩, hread, hback,
    back_returns hrun ⟨mounted_supplied _, hselect⟩ hread hback mounted⟩

end Runs

end Mediabox.LibraryBrowse
