import Mathlib.Data.List.Nodup
import Mediabox.Lib.Transition
import Mediabox.LibraryEvents

/-!
# The watches of the library (`src/library.c`)

`mbox_library_local_add_watch` adds a watch for a directory and for the directories below it;
`mbox_library_local_inotify` calls it for directories that are created or moved in.

* `FileSystem` has the directories with their present paths; a directory keeps its inode when it is
  moved.  `Kernel` adds the inotify instance: `inotify_add_watch` returns the descriptor that a
  directory has already, descriptors are not reused, and a directory that is removed loses its
  watch.
* A step is an operation on the file system or one system call of the thread (`stat` and the
  `inotify_add_watch` after it count as one).  A frame is an activation of
  `mbox_library_local_add_watch` after `inotify_add_watch`.
* The names that `readdir` returns, and which calls fail, are inputs; a `read` returns as many
  events as the kernel likes, of which the first is handled.

Main result: `watches_current` — the path that the event loop finds for a descriptor is the present
path of its directory in every run in which no watched directory is moved, nor one above it.
-/

set_option autoImplicit false

namespace Mediabox.LibraryWatch

open Transition Library LibraryEvents

/-! ## The file system -/

structure Dir where
  path : CString
  inode : Nat
deriving DecidableEq, Repr

/-- The part of a path after a directory, if it leads to the directory or below. -/
def below (dir path : CString) : Option CString :=
  if dir.isPrefixOf path then
    let rest := path.drop dir.length
    if rest = [] ∨ rest.head? = some '/' then some rest else none
  else none

/-- The directories, each with one path and one inode. -/
structure FileSystem where
  dirs : List Dir
  nextInode : Nat
  paths : (dirs.map Dir.path).Nodup
  inodes : (dirs.map Dir.inode).Nodup
  fresh : ∀ d ∈ dirs, d.inode < nextInode

def FileSystem.dirAt (fs : FileSystem) (path : CString) : Option Dir :=
  fs.dirs.find? fun d => d.path = path

/-- A new directory. -/
def FileSystem.mkdir (fs : FileSystem) (path : CString) (h : path ∉ fs.dirs.map Dir.path) :
    FileSystem where
  dirs := ⟨path, fs.nextInode⟩ :: fs.dirs
  nextInode := fs.nextInode + 1
  paths := List.nodup_cons.mpr ⟨h, fs.paths⟩
  inodes := by
    refine List.nodup_cons.mpr ⟨fun hmem => ?_, fs.inodes⟩
    obtain ⟨d, hd, heq⟩ := List.mem_map.mp hmem
    exact Nat.ne_of_lt (fs.fresh d hd) heq
  fresh := by
    refine List.forall_mem_cons.mpr ⟨Nat.lt_succ_self _, fun d hd => ?_⟩
    exact Nat.lt_succ_of_lt (fs.fresh d hd)

/-- A directory is removed. -/
def FileSystem.rmdir (fs : FileSystem) (path : CString) : FileSystem where
  dirs := fs.dirs.filter fun d => d.path ≠ path
  nextInode := fs.nextInode
  paths := (List.filter_sublist.map Dir.path).nodup fs.paths
  inodes := (List.filter_sublist.map Dir.inode).nodup fs.inodes
  fresh := fun d hd => fs.fresh d (List.mem_filter.mp hd).1

/-- A directory after `src` became `dst`. -/
def Dir.moved (src dst : CString) (d : Dir) : Dir :=
  match below src d.path with
  | some rest => { d with path := dst ++ rest }
  | none => d

theorem append_of_below {dir path rest : CString} (h : below dir path = some rest) :
    path = dir ++ rest := by
  unfold below at h
  split at h
  · rename_i hprefix
    dsimp only at h
    split at h
    · cases h
      exact (List.prefix_iff_eq_append.mp (List.isPrefixOf_iff_prefix.mp hprefix)).symm
    · cases h
  · cases h

theorem below_append {dir dir' path rest : CString} (h : below dir path = some rest) :
    below dir' (dir' ++ rest) = some rest := by
  unfold below at h ⊢
  split at h
  · dsimp only at h
    split at h
    · rename_i hrest
      cases h
      rw [if_pos (List.isPrefixOf_iff_prefix.mpr (List.prefix_append _ _))]
      simp only [List.drop_left, if_pos hrest]
    · cases h
  · cases h

theorem Dir.moved_inode (src dst : CString) (d : Dir) : (d.moved src dst).inode = d.inode := by
  unfold Dir.moved
  split <;> rfl

/-- Different paths stay different when nothing is at or below `dst`. -/
theorem Dir.path_of_moved {src dst : CString} {d d' : Dir} (h : below dst d.path = none)
    (h' : below dst d'.path = none) (heq : (d.moved src dst).path = (d'.moved src dst).path) :
    d.path = d'.path := by
  unfold Dir.moved at heq
  cases hb : below src d.path with
  | some rest =>
    cases hb' : below src d'.path with
    | some rest' =>
      rw [hb, hb'] at heq
      have heq : dst ++ rest = dst ++ rest' := heq
      rw [append_of_below hb, append_of_below hb', List.append_cancel_left heq]
    | none =>
      rw [hb, hb'] at heq
      have heq : dst ++ rest = d'.path := heq
      rw [← heq, below_append hb] at h'
      cases h'
  | none =>
    cases hb' : below src d'.path with
    | some rest' =>
      rw [hb, hb'] at heq
      have heq : d.path = dst ++ rest' := heq
      rw [heq, below_append hb'] at h
      cases h
    | none =>
      rw [hb, hb'] at heq
      exact heq

/-- The directory `src`, with all below it, becomes `dst`, which nothing is at or below. -/
def FileSystem.move (fs : FileSystem) (src dst : CString)
    (h : ∀ d ∈ fs.dirs, below dst d.path = none) : FileSystem where
  dirs := fs.dirs.map (Dir.moved src dst)
  nextInode := fs.nextInode
  paths := by
    rw [List.map_map]
    refine List.Nodup.map_on ?_ (List.Nodup.of_map _ fs.paths)
    intro d hd d' hd' heq
    exact List.inj_on_of_nodup_map fs.paths hd hd' (Dir.path_of_moved (h d hd) (h d' hd') heq)
  inodes := by
    rw [List.map_map, show Dir.inode ∘ Dir.moved src dst = Dir.inode from
      funext (Dir.moved_inode src dst)]
    exact fs.inodes
  fresh := by
    intro d hd
    obtain ⟨d', hd', rfl⟩ := List.mem_map.mp hd
    rw [Dir.moved_inode]
    exact fs.fresh d' hd'

/-! ## The kernel -/

/-- A watch of the inotify instance. -/
structure Watch where
  wd : Nat
  inode : Nat
deriving DecidableEq, Repr

structure Kernel where
  fs : FileSystem
  watches : List Watch
  nextWd : Nat
  queue : List InotifyEvent

/-- The event for the directory that something happened in, if it is watched. -/
def Kernel.notify (k : Kernel) (dir : CString) (mask : Mask) (name : CString) : Kernel :=
  match k.fs.dirAt dir with
  | none => k
  | some d =>
    match k.watches.find? fun w => w.inode = d.inode with
    | none => k
    | some w =>
      if h : name = [] then k else { k with queue := k.queue ++ [⟨w.wd, mask, name, h⟩] }

/-- `inotify_add_watch` on a directory -/
def Kernel.addWatch (k : Kernel) (inode : Nat) : Kernel × Nat :=
  match k.watches.find? fun w => w.inode = inode with
  | some w => (k, w.wd)
  | none => ({ k with watches := ⟨k.nextWd, inode⟩ :: k.watches, nextWd := k.nextWd + 1 }, k.nextWd)

/-- `inotify_rm_watch` -/
def Kernel.rmWatch (k : Kernel) (wd : Nat) : Kernel :=
  { k with watches := k.watches.filter fun w => w.wd ≠ wd }

/-- A directory goes away, and its watch with it. -/
def Kernel.remove (k : Kernel) (d : Dir) : Kernel :=
  { k with fs := k.fs.rmdir d.path, watches := k.watches.filter fun w => w.inode ≠ d.inode }

/-- The directory at a path goes away if there is one. -/
def Kernel.removeAt (k : Kernel) (path : CString) : Kernel :=
  match k.fs.dirAt path with
  | none => k
  | some d => k.remove d

/-- What happens in the file system. -/
inductive Change where
  | mkdir (dir name : CString)
  | rmdir (dir name : CString)
  | move (dir name dir' name' : CString)
  /-- an event of a file -/
  | file (dir name : CString) (mask : Mask)
deriving DecidableEq, Repr

/-- Paths are compared by their characters. -/
local instance lawfulBEq : LawfulBEq CString := inferInstance

/-- Nothing is below a directory. -/
def FileSystem.isEmpty (fs : FileSystem) (path : CString) : Bool :=
  fs.dirs.all fun d => d.path = path ∨ below path d.path = none

def Kernel.change (k : Kernel) : Change → Option Kernel
  | .mkdir dir name =>
    if (k.fs.dirAt dir).isSome then
      if h : buildPath dir name ∉ k.fs.dirs.map Dir.path then
        some ({ k with fs := k.fs.mkdir (buildPath dir name) h }.notify dir .create name)
      else none
    else none
  | .rmdir dir name =>
    match k.fs.dirAt (buildPath dir name) with
    | none => none
    | some d =>
      if k.fs.isEmpty (buildPath dir name) then some ((k.remove d).notify dir .delete name)
      else none
  | .move dir name dir' name' =>
    let src := buildPath dir name
    let dst := buildPath dir' name'
    if (k.fs.dirAt src).isSome ∧ (k.fs.dirAt dir').isSome ∧ below src dst = none then
      -- an empty directory at the new path is replaced
      let k := k.removeAt dst
      if h : ∀ d ∈ k.fs.dirs, below dst d.path = none then
        let k := { k with fs := k.fs.move src dst h }
        some ((k.notify dir .movedFrom name).notify dir' .movedTo name')
      else none
    else none
  | .file dir name mask => some (k.notify dir mask name)

/-! ## The code -/

/-- `mbox_library_local_add_watch` after `inotify_add_watch` -/
structure Frame where
  wd : Nat
  path : CString
  opened : Bool
deriving DecidableEq, Repr

structure State where
  kernel : Kernel
  /-- the directories that `mbox_library_local_init` has yet to add -/
  roots : List CString
  stack : List Frame
  /-- `local_inotify_watches` -/
  watches : List Watchdir
  /-- the thread was started -/
  looping : Bool
  /-- `mbox_library_local_init` returned -1 -/
  failed : Bool
  /-- the record at the start of `buf` -/
  buf : Option InotifyEvent

def init (fs : FileSystem) (roots : List CString) : State :=
  ⟨⟨fs, [], 1, []⟩, roots, [], [], false, false, none⟩

/-- `mbox_library_local_add_watch` up to `inotify_add_watch`; `ok` says whether the kernel has room
    for a watch -/
def addWatch (s : State) (path : CString) (ok : Bool) : Option State :=
  match s.kernel.fs.dirAt path with
  | some d =>
    if ok then
      let (k, wd) := s.kernel.addWatch d.inode
      some { s with kernel := k, stack := ⟨wd, path, false⟩ :: s.stack }
    else none
  | none => none

/-- The end of `mbox_library_local_add_watch` with -1. -/
def giveUp (s : State) (f : Frame) (stack : List Frame) : State :=
  { s with
    kernel := s.kernel.rmWatch f.wd
    stack
    failed := s.failed || (!s.looping && stack.isEmpty) }

/-- The event in `buf` is handled. -/
def handleEvent (s : State) (e : InotifyEvent) (ok : Bool) : State :=
  let s := { s with buf := some e }
  match findPath s.watches e.wd with
  | none => s
  | some dirPath =>
    match e.mask with
    | .create | .movedTo => (addWatch s (buildPath dirPath e.name) ok).getD s
    | _ => s

inductive Event where
  | change (c : Change)
  /-- `mbox_library_local_init` adds its next directory -/
  | root (ok : Bool)
  /-- `mbox_library_local_init` starts the thread -/
  | start
  /-- `read` returns an event and `more` others -/
  | read (more : Nat) (ok : Bool)
  | readFails (ok : Bool)
  | opendir (ok : Bool)
  | readdir (name : CString) (ok : Bool)
  | readdirEnd
  | readdirFails
deriving DecidableEq, Repr

def step (s : State) : Event → Option (State × Unit)
  | .change c => (s.kernel.change c).map fun k => ({ s with kernel := k }, ())
  | .root ok =>
    match s.roots, s.stack, s.failed with
    | path :: roots, [], false =>
      some ((addWatch { s with roots } path ok).getD { s with roots, failed := true }, ())
    | _, _, _ => none
  | .start =>
    if s.roots = [] ∧ s.stack = [] ∧ s.failed = false ∧ s.looping = false then
      some ({ s with looping := true }, ())
    else none
  | .read more ok =>
    match s.looping, s.stack, s.kernel.queue with
    | true, [], e :: queue =>
      if more ≤ queue.length then
        some (handleEvent { s with kernel := { s.kernel with queue := queue.drop more } } e ok, ())
      else none
    | _, _, _ => none
  | .readFails ok =>
    match s.looping, s.stack, s.buf with
    | true, [], some e => some (handleEvent s e ok, ())
    | _, _, _ => none
  | .opendir ok =>
    match s.stack with
    | ⟨wd, path, false⟩ :: stack =>
      if ok ∧ (s.kernel.fs.dirAt path).isSome then
        some ({ s with stack := ⟨wd, path, true⟩ :: stack }, ())
      else some (giveUp s ⟨wd, path, false⟩ stack, ())
    | _ => none
  | .readdir name ok =>
    match s.stack with
    | ⟨_, path, true⟩ :: _ =>
      if name.head? = some '.' ∨ name = "lost+found".toList then some (s, ())
      else some ((addWatch s (buildPath path name) ok).getD s, ())
    | _ => none
  | .readdirEnd =>
    match s.stack with
    | ⟨wd, path, true⟩ :: stack =>
      some ({ s with stack, watches := listAdd s.watches ⟨wd, path⟩ }, ())
    | _ => none
  | .readdirFails =>
    match s.stack with
    | ⟨wd, path, true⟩ :: stack => some (giveUp s ⟨wd, path, true⟩ stack, ())
    | _ => none

/-- The path that the event loop finds for a descriptor is the path of its directory. -/
def Current (s : State) : Prop :=
  ∀ w ∈ s.kernel.watches, ∀ path, findPath s.watches w.wd = some path →
    ∀ d ∈ s.kernel.fs.dirs, d.inode = w.inode → path = d.path

/-- No directory that is watched is moved, nor one above it. -/
def Still (s : State) : Event → Prop
  | .change (.move dir name _ _) =>
    ∀ d ∈ s.kernel.fs.dirs, (below (buildPath dir name) d.path).isSome →
      ∀ w ∈ s.kernel.watches, w.inode ≠ d.inode
  | _ => True

instance (s : State) : (e : Event) → Decidable (Still s e)
  | .change (.move dir name _ _) => inferInstanceAs (Decidable (∀ d ∈ s.kernel.fs.dirs,
      (below (buildPath dir name) d.path).isSome → ∀ w ∈ s.kernel.watches, w.inode ≠ d.inode))
  | .change (.mkdir _ _) | .change (.rmdir _ _) | .change (.file _ _ _) | .root _ | .start
  | .read _ _ | .readFails _ | .opendir _ | .readdir _ _ | .readdirEnd | .readdirFails =>
    inferInstanceAs (Decidable True)

/-! ## The invariant -/

/-- Every path kept for a descriptor that is still watched is the path of its directory. -/
structure Tracked (k : Kernel) (entries : List Watchdir) : Prop where
  inode_lt : ∀ w ∈ k.watches, w.inode < k.fs.nextInode
  wds : (k.watches.map Watch.wd).Nodup
  wd_lt : ∀ w ∈ k.watches, w.wd < k.nextWd
  entry_lt : ∀ e ∈ entries, e.watchFd < k.nextWd
  current : ∀ e ∈ entries, ∀ w ∈ k.watches, w.wd = e.watchFd →
    ∀ d ∈ k.fs.dirs, d.inode = w.inode → d.path = e.path

variable {k k' : Kernel} {entries entries' : List Watchdir} {s t : State} {path : CString}
  {ok : Bool}

/-- Watches and directories may go away. -/
theorem Tracked.mono (h : Tracked k entries) (hwatches : k'.watches.Sublist k.watches)
    (hdirs : ∀ d ∈ k'.fs.dirs, d ∈ k.fs.dirs) (hinode : k'.fs.nextInode = k.fs.nextInode)
    (hwd : k'.nextWd = k.nextWd) (hentries : entries' ⊆ entries) : Tracked k' entries' where
  inode_lt := fun w hw => hinode ▸ h.inode_lt w (hwatches.subset hw)
  wds := (hwatches.map Watch.wd).nodup h.wds
  wd_lt := fun w hw => hwd ▸ h.wd_lt w (hwatches.subset hw)
  entry_lt := fun e he => hwd ▸ h.entry_lt e (hentries he)
  current := fun e he w hw heq d hd hinode =>
    h.current e (hentries he) w (hwatches.subset hw) heq d (hdirs d hd) hinode

theorem notify_eq (k : Kernel) (dir : CString) (mask : Mask) (name : CString) :
    (k.notify dir mask name).fs = k.fs ∧ (k.notify dir mask name).watches = k.watches ∧
      (k.notify dir mask name).nextWd = k.nextWd := by
  unfold Kernel.notify
  split
  · exact ⟨rfl, rfl, rfl⟩
  · split
    · exact ⟨rfl, rfl, rfl⟩
    · split <;> exact ⟨rfl, rfl, rfl⟩

theorem Tracked.notify (h : Tracked k entries) (dir : CString) (mask : Mask) (name : CString) :
    Tracked (k.notify dir mask name) entries := by
  obtain ⟨hfs, hwatches, hwd⟩ := notify_eq k dir mask name
  refine h.mono ?_ ?_ (by rw [hfs]) hwd (List.Subset.refl _)
  · rw [hwatches]
  · rw [hfs]
    exact fun d hd => hd

theorem Tracked.mkdir (h : Tracked k entries) (hnew : path ∉ k.fs.dirs.map Dir.path) :
    Tracked { k with fs := k.fs.mkdir path hnew } entries := by
  refine ⟨fun w hw => ?_, h.wds, h.wd_lt, h.entry_lt, fun e he w hw heq d hd hinode => ?_⟩
  · exact Nat.lt_succ_of_lt (h.inode_lt w hw)
  · rcases List.mem_cons.mp hd with rfl | hold
    · exact absurd (h.inode_lt w hw) (by rw [← hinode]; exact Nat.lt_irrefl _)
    · exact h.current e he w hw heq d hold hinode

theorem Tracked.remove (h : Tracked k entries) (d : Dir) : Tracked (k.remove d) entries :=
  h.mono List.filter_sublist (fun _ hd => (List.mem_filter.mp hd).1) rfl rfl (List.Subset.refl _)

theorem Tracked.removeAt (h : Tracked k entries) (path : CString) :
    Tracked (k.removeAt path) entries := by
  unfold Kernel.removeAt
  split
  · exact h
  · exact h.remove _

theorem Tracked.rmWatch (h : Tracked k entries) (wd : Nat) : Tracked (k.rmWatch wd) entries :=
  h.mono List.filter_sublist (fun _ hd => hd) rfl rfl (List.Subset.refl _)

theorem Tracked.move {src dst : CString} (h : Tracked k entries)
    (hfree : ∀ d ∈ k.fs.dirs, below dst d.path = none)
    (hstill : ∀ d ∈ k.fs.dirs, (below src d.path).isSome → ∀ w ∈ k.watches, w.inode ≠ d.inode) :
    Tracked { k with fs := k.fs.move src dst hfree } entries := by
  refine ⟨h.inode_lt, h.wds, h.wd_lt, h.entry_lt, fun e he w hw heq d hd hinode => ?_⟩
  obtain ⟨d', hd', rfl⟩ := List.mem_map.mp hd
  rw [Dir.moved_inode] at hinode
  have hnot : below src d'.path = none := by
    rw [← Option.not_isSome_iff_eq_none]
    exact fun hbelow => hstill d' hd' hbelow w hw hinode.symm
  have hsame : d'.moved src dst = d' := by
    unfold Dir.moved
    rw [hnot]
  rw [hsame]
  exact h.current e he w hw heq d' hd' hinode

theorem removeAt_sub (k : Kernel) (path : CString) :
    (∀ d ∈ (k.removeAt path).fs.dirs, d ∈ k.fs.dirs) ∧
      ∀ w ∈ (k.removeAt path).watches, w ∈ k.watches := by
  unfold Kernel.removeAt
  split
  · exact ⟨fun _ hd => hd, fun _ hw => hw⟩
  · exact ⟨fun _ hd => (List.mem_filter.mp hd).1, fun _ hw => (List.mem_filter.mp hw).1⟩

theorem Tracked.change {c : Change} (h : Tracked k entries) (hstep : k.change c = some k')
    (hstill : ∀ dir name dir' name', c = .move dir name dir' name' →
      ∀ d ∈ k.fs.dirs, (below (buildPath dir name) d.path).isSome →
        ∀ w ∈ k.watches, w.inode ≠ d.inode) : Tracked k' entries := by
  cases c with
  | mkdir dir name =>
    simp only [Kernel.change] at hstep
    split at hstep
    · split at hstep
      · cases hstep
        exact (h.mkdir _).notify ..
      · cases hstep
    · cases hstep
  | rmdir dir name =>
    simp only [Kernel.change] at hstep
    split at hstep
    · cases hstep
    · split at hstep
      · cases hstep
        exact (h.remove _).notify ..
      · cases hstep
  | move dir name dir' name' =>
    simp only [Kernel.change] at hstep
    split at hstep
    · split at hstep
      · cases hstep
        obtain ⟨hdirs, hwatches⟩ := removeAt_sub k (buildPath dir' name')
        have hstill' := hstill dir name dir' name' rfl
        refine (((h.removeAt _).move _ fun d hd hbelow w hw => ?_).notify ..).notify ..
        exact hstill' d (hdirs d hd) hbelow w (hwatches w hw)
      · cases hstep
    · cases hstep
  | file dir name mask =>
    cases hstep
    exact h.notify ..

/-- The descriptor of a directory goes with its path. -/
theorem Tracked.addWatch {d : Dir} (h : Tracked k entries) (hd : d ∈ k.fs.dirs) :
    Tracked (k.addWatch d.inode).1 (⟨(k.addWatch d.inode).2, d.path⟩ :: entries) := by
  have hpath : ∀ d' ∈ k.fs.dirs, d'.inode = d.inode → d'.path = d.path := by
    intro d' hd' heq
    rw [List.inj_on_of_nodup_map k.fs.inodes hd' hd heq]
  unfold Kernel.addWatch
  split
  · rename_i w hfind
    have hw := List.mem_of_find?_eq_some hfind
    have hinode : w.inode = d.inode := by simpa using List.find?_some hfind
    refine ⟨h.inode_lt, h.wds, h.wd_lt, ?_, ?_⟩
    · exact List.forall_mem_cons.mpr ⟨h.wd_lt w hw, h.entry_lt⟩
    · refine List.forall_mem_cons.mpr ⟨fun w' hw' heq d' hd' hd'w => ?_, h.current⟩
      have hsame : w' = w := List.inj_on_of_nodup_map h.wds hw' hw heq
      exact hpath d' hd' (by rw [hd'w, hsame, hinode])
  · refine ⟨?_, ?_, ?_, ?_, ?_⟩
    · exact List.forall_mem_cons.mpr ⟨k.fs.fresh d hd, h.inode_lt⟩
    · refine List.nodup_cons.mpr ⟨fun hmem => ?_, h.wds⟩
      obtain ⟨w, hw, heq⟩ := List.mem_map.mp hmem
      exact Nat.ne_of_lt (h.wd_lt w hw) heq
    · exact List.forall_mem_cons.mpr
        ⟨Nat.lt_succ_self _, fun w hw => Nat.lt_succ_of_lt (h.wd_lt w hw)⟩
    · exact List.forall_mem_cons.mpr
        ⟨Nat.lt_succ_self _, fun e he => Nat.lt_succ_of_lt (h.entry_lt e he)⟩
    · refine List.forall_mem_cons.mpr ⟨fun w hw heq d' hd' hd'w => ?_, fun e he w hw heq => ?_⟩
      · rcases List.mem_cons.mp hw with rfl | hold
        · exact hpath d' hd' hd'w
        · exact absurd heq (Nat.ne_of_lt (h.wd_lt w hold))
      · rcases List.mem_cons.mp hw with rfl | hold
        · exact absurd heq (Nat.ne_of_gt (h.entry_lt e he))
        · exact h.current e he w hold heq

/-! ## The steps -/

def Frame.entry (f : Frame) : Watchdir := ⟨f.wd, f.path⟩

/-- The paths that are kept for descriptors. -/
def State.kept (s : State) : List Watchdir := s.stack.map Frame.entry ++ s.watches

def State.Tracked (s : State) : Prop := LibraryWatch.Tracked s.kernel s.kept

theorem tracked_addWatch (h : s.Tracked) (hadd : addWatch s path ok = some t) : t.Tracked := by
  unfold addWatch at hadd
  split at hadd
  · rename_i d hfind
    split at hadd
    · cases hadd
      have hpath : d.path = path := by simpa using List.find?_some hfind
      have hnew := LibraryWatch.Tracked.addWatch h (List.mem_of_find?_eq_some hfind)
      rw [hpath] at hnew
      exact hnew
    · cases hadd
  · cases hadd

theorem tracked_addWatch_getD (h : s.Tracked) (h' : t.Tracked) :
    ((addWatch s path ok).getD t).Tracked := by
  cases hadd : addWatch s path ok with
  | none => exact h'
  | some u => exact tracked_addWatch h hadd

theorem tracked_giveUp {f : Frame} {stack : List Frame} (h : s.Tracked)
    (hstack : s.stack = f :: stack) : (giveUp s f stack).Tracked := by
  refine (LibraryWatch.Tracked.rmWatch h f.wd).mono (List.Sublist.refl _) (fun _ hd => hd) rfl rfl ?_
  unfold State.kept
  rw [hstack]
  exact List.subset_cons_self _ _

theorem tracked_handleEvent (h : s.Tracked) (e : InotifyEvent) :
    (handleEvent s e ok).Tracked := by
  unfold handleEvent
  dsimp only
  split
  · exact h
  · split
    · exact tracked_addWatch_getD h h
    · exact tracked_addWatch_getD h h
    · exact h

/-- Every step in which no watched directory is moved keeps the paths current. -/
theorem step_tracked {e : Event} (h : s.Tracked) (hstill : Still s e)
    (hstep : step s e = some (t, ())) : t.Tracked := by
  cases e with
  | change c =>
    obtain ⟨k, hk, hkt⟩ := Option.map_eq_some_iff.mp hstep
    cases hkt
    refine LibraryWatch.Tracked.change h hk fun dir name dir' name' hc => ?_
    subst hc
    exact hstill
  | root ok =>
    simp only [step] at hstep
    split at hstep
    · cases hstep
      exact tracked_addWatch_getD h h
    · cases hstep
  | start =>
    simp only [step] at hstep
    split at hstep
    · cases hstep
      exact h
    · cases hstep
  | read more ok =>
    simp only [step] at hstep
    split at hstep
    · split at hstep
      · cases hstep
        refine tracked_handleEvent ?_ _
        exact h.mono (List.Sublist.refl _) (fun _ hd => hd) rfl rfl (List.Subset.refl _)
      · cases hstep
    · cases hstep
  | readFails ok =>
    simp only [step] at hstep
    split at hstep
    · cases hstep
      exact tracked_handleEvent h _
    · cases hstep
  | opendir ok =>
    simp only [step] at hstep
    split at hstep
    · rename_i wd path stack hstack
      split at hstep
      · cases hstep
        refine h.mono (List.Sublist.refl _) (fun _ hd => hd) rfl rfl ?_
        unfold State.kept
        rw [hstack]
        exact List.Subset.refl _
      · cases hstep
        exact tracked_giveUp h hstack
    · cases hstep
  | readdir name ok =>
    simp only [step] at hstep
    split at hstep
    · split at hstep
      · cases hstep
        exact h
      · cases hstep
        exact tracked_addWatch_getD h h
    · cases hstep
  | readdirEnd =>
    simp only [step] at hstep
    split at hstep
    · rename_i wd path stack hstack
      cases hstep
      refine h.mono (List.Sublist.refl _) (fun _ hd => hd) rfl rfl fun e he => ?_
      unfold State.kept at he ⊢
      rw [hstack]
      -- the entry leaves the stack and joins the list
      rcases List.mem_append.mp he with hold | hnew
      · exact List.mem_append_left _ (List.mem_cons_of_mem _ hold)
      · rcases List.mem_cons.mp hnew with rfl | hold
        · exact List.mem_append_left _ List.mem_cons_self
        · exact List.mem_append_right _ hold
    · cases hstep
  | readdirFails =>
    simp only [step] at hstep
    split at hstep
    · rename_i wd path stack hstack
      cases hstep
      exact tracked_giveUp h hstack
    · cases hstep

theorem init_tracked (fs : FileSystem) (roots : List CString) : (init fs roots).Tracked :=
  ⟨fun _ hw => (nomatch hw), List.nodup_nil, fun _ hw => (nomatch hw), fun _ he => (nomatch he),
    fun _ he => nomatch he⟩

/-- **The watch table stays current**: whatever happens in the file system and whatever the thread
    does, the path it finds for a descriptor is the present path of its directory, if no directory
    that is watched is moved, nor one above it. -/
theorem watches_current {fs : FileSystem} {roots : List CString} {tr : List (Event × Unit)}
    {s : State} (hrun : Run (Guarded step Still) (init fs roots) tr s) : Current s := by
  have htracked : s.Tracked := Run.invariant (init_tracked fs roots)
    (fun _ _ _ h hstep => step_tracked h hstep.1 hstep.2) hrun
  intro w hw path hfind d hd hinode
  exact (htracked.current _ (List.mem_append_right _ (mem_of_findPath hfind)) w hw rfl d hd
    hinode).symm

/-- A store with one directory. -/
def store : FileSystem where
  dirs := [⟨"/s".toList, 0⟩]
  nextInode := 1
  paths := by decide
  inodes := by decide
  fresh := by decide

/-- The directory of the store is watched. -/
def startUp : List Event := [.root true, .opendir true, .readdirEnd, .start]

/-- A directory is created in the store, gets a watch, and another one is created in it. -/
theorem watches_current_mkdir :
    ∃ tr s, Run (Guarded step Still) (init store ["/s".toList]) tr s ∧
      findPath s.watches 3 = some "/s/a/b".toList ∧ Current s := by
  obtain ⟨tr, s, hrun, hfind⟩ := exists_run_of_guarded_exec step Still (init store [['/', 's']])
    (fun _ s => findPath s.watches 3 = some ['/', 's', '/', 'a', '/', 'b'])
    (startUp ++ [Event.change (.mkdir ['/', 's'] ['a']), .read 0 true, .opendir true, .readdirEnd,
      .change (.mkdir ['/', 's', '/', 'a'] ['b']), .read 0 true, .opendir true, .readdirEnd])
    (by decide +kernel)
  exact ⟨tr, s, hrun, hfind, watches_current hrun⟩

/-- The directory is renamed: the loop goes on to its first entry, which has the old path. -/
theorem renamed_directory_stale :
    ¬ ∀ (fs : FileSystem) (roots : List CString) (tr : List (Event × Unit)) (s : State),
      Run (Step step) (init fs roots) tr s → s.kernel.queue = [] → s.stack = [] → Current s := by
  obtain ⟨tr, s, hrun, hqueue, hstack, hwatch, hfind, hdir⟩ := exists_run_of_exec step
    (init store [['/', 's']])
    (fun _ s => s.kernel.queue = [] ∧ s.stack = [] ∧ ⟨2, 1⟩ ∈ s.kernel.watches ∧
      findPath s.watches 2 = some ['/', 's', '/', 'a'] ∧
      ⟨['/', 's', '/', 'b'], 1⟩ ∈ s.kernel.fs.dirs)
    (startUp ++ [Event.change (.mkdir ['/', 's'] ['a']), .read 0 true, .opendir true, .readdirEnd,
      .change (.move ['/', 's'] ['a'] ['/', 's'] ['b']), .read 0 true, .read 0 true, .opendir true,
      .readdirEnd]) (by decide +kernel)
  intro hall
  have hcurrent := hall _ _ _ _ hrun hqueue hstack
  exact absurd (hcurrent _ hwatch _ hfind _ hdir rfl) (by decide)

end Mediabox.LibraryWatch
