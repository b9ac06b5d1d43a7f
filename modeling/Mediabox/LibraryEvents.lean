import Mathlib.Algebra.Order.Ring.Int
import Mediabox.LibraryNames
import Mediabox.LinkedList

/-!
# The events of the file system (`src/library.c`)

`mbox_library_local_inotify` reads events into a buffer of 1024 bytes and handles the record at its
start.

* A record has a name, so that `event->len` is not 0; the kernel groups consecutive records into the
  result of a `read`, as many as fit.
* `number` is the place of a record among all records read; it is not in the source.
* The watches that `mbox_library_local_add_watch` adds while an event is handled are an input
  here; `LibraryWatch` is about them.

Main result: `events_exact_iff` — every event is handled exactly once, in order and with a path of
its own descriptor, if and only if every `read` gives one record, of a descriptor in the list of
watches, and none fails.
-/

set_option autoImplicit false

namespace Mediabox.LibraryEvents

open Library

/-! ## The code -/

/-- `struct mbox_library_local_watchdir` -/
structure Watchdir where
  watchFd : Nat
  path : CString
deriving DecidableEq, Repr

/-- The bit of `mask` that says what happened. -/
inductive Mask where
  | create
  | movedTo
  | movedFrom
  | delete
  | closeWrite
deriving DecidableEq, Repr

/-- `struct inotify_event` -/
structure InotifyEvent where
  wd : Nat
  mask : Mask
  name : CString
  named : name ≠ []
deriving DecidableEq, Repr

/-- The bytes of a record: the name is padded to a multiple of 16 bytes. -/
def InotifyEvent.size (e : InotifyEvent) : Nat := 16 + (e.name.length / 16 + 1) * 16

/-- The loop over `local_inotify_watches`, which goes on after a match. -/
def findPath (watches : List Watchdir) (wd : Nat) : Option CString :=
  watches.foldl (fun dirPath w => if wd = w.watchFd then some w.path else dirPath) none

/-- What is done about an event. -/
inductive Action where
  /-- add the watches and the files of a directory that was moved in, or the file -/
  | movedIn (path : CString)
  /-- add the watches and the files of a new directory -/
  | created (path : CString)
  /-- `DELETE FROM local_objects WHERE path LIKE ?` -/
  | removed (pattern : CString)
  /-- `mbox_library_addcontent` -/
  | written (path : CString)
deriving DecidableEq, Repr

/-- The branches on `event->mask`. -/
def Mask.action : Mask → CString → Action
  | .movedTo, path => .movedIn path
  | .create, path => .created path
  | .delete, path | .movedFrom, path => .removed (path ++ ['%'])
  | .closeWrite, path => .written path

/-- The events of a successful `read`. -/
structure Group where
  first : InotifyEvent
  rest : List InotifyEvent
  fits : ((first :: rest).map InotifyEvent.size).sum ≤ 1024

/-- The result of `read`. -/
inductive Read where
  | events (group : Group)
  /-- -1 with `EAGAIN` or `EINTR` -/
  | again
  /-- -1 with another error -/
  | failed

/-- An event that is handled. -/
structure Handled where
  number : Nat
  event : InotifyEvent
  dirPath : CString
  action : Action
deriving DecidableEq, Repr

/-- The list of watches, the record at the start of `buf` and the number of records so far. -/
structure Loop where
  watches : List Watchdir
  buf : Option (Nat × InotifyEvent)
  count : Nat

/-- The watches after an event was handled. -/
def addWatches (watches added : List Watchdir) : Mask → List Watchdir
  | .create | .movedTo => added.foldl listAdd watches
  | _ => watches

/-- The event in `buf`, or `none` for what a buffer holds that nothing was read into. -/
def handle (l : Loop) (added : List Watchdir) : Loop × List (Option Handled) :=
  match l.buf with
  | none => (l, [none])
  | some (number, e) =>
    match findPath l.watches e.wd with
    | none => (l, [])
    | some dirPath =>
      ({ l with watches := addWatches l.watches added e.mask },
        [some ⟨number, e, dirPath, e.mask.action (buildPath dirPath e.name)⟩])

/-- The loop after `read` has filled `buf`. -/
def Loop.fill (l : Loop) (g : Group) : Loop :=
  { l with buf := some (l.count, g.first), count := l.count + (g.rest.length + 1) }

/-- A round of the loop of `mbox_library_local_inotify`. -/
def iterate (l : Loop) (added : List Watchdir) : Read → Loop × List (Option Handled)
  | .again => (l, [])
  | .failed => handle l added
  | .events g => handle (l.fill g) added

/-- `mbox_library_local_inotify`: the reads, with the watches added in each round. -/
def inotify (l : Loop) : List (Read × List Watchdir) → Loop × List (Option Handled)
  | [] => (l, [])
  | (r, added) :: reads =>
    let round := iterate l added r
    let rest := inotify round.1 reads
    (rest.1, round.2 ++ rest.2)

/-! ## What it is for -/

/-- The events of a read. -/
def Read.list : Read → List InotifyEvent
  | .events g => g.first :: g.rest
  | _ => []

/-- The events of the reads, numbered. -/
def numbered (count : Nat) : List (Read × List Watchdir) → List (InotifyEvent × Nat)
  | [] => []
  | (r, _) :: reads => r.list.zipIdx count ++ numbered (count + r.list.length) reads

/-- Every event is handled exactly once, in order, with a path of its own descriptor. -/
structure Exact (l : Loop) (reads : List (Read × List Watchdir)) (handled : List Handled) :
    Prop where
  all : (inotify l reads).2 = handled.map some
  once : handled.map (fun h => (h.event, h.number)) = numbered l.count reads
  own : ∀ h ∈ handled, ⟨h.event.wd, h.dirPath⟩ ∈ (inotify l reads).1.watches ∧
    h.action = h.event.mask.action (buildPath h.dirPath h.event.name)

/-- Every read gives one event, of a descriptor that has a watch, and none fails. -/
def OneByOne (l : Loop) : List (Read × List Watchdir) → Prop
  | [] => True
  | (r, added) :: reads =>
    (match r with
      | .again => True
      | .failed => False
      | .events g => g.rest = [] ∧ (findPath l.watches g.first.wd).isSome) ∧
    OneByOne (iterate l added r).1 reads

/-! ## The list of watches -/

variable {l : Loop} {watches : List Watchdir} {wd : Nat} {path : CString}

theorem findPath_from {acc : Option CString} (h : watches.foldl
      (fun dirPath w => if wd = w.watchFd then some w.path else dirPath) acc = some path) :
    acc = some path ∨ ⟨wd, path⟩ ∈ watches := by
  induction watches generalizing acc with
  | nil => exact .inl h
  | cons w watches ih =>
    rcases ih h with hacc | hmem
    · dsimp only at hacc
      by_cases hwd : wd = w.watchFd
      · rw [if_pos hwd] at hacc
        cases hacc
        rw [hwd]
        exact .inr List.mem_cons_self
      · rw [if_neg hwd] at hacc
        exact .inl hacc
    · exact .inr (List.mem_cons_of_mem _ hmem)

/-- The path that is found is one of the descriptor. -/
theorem mem_of_findPath (h : findPath watches wd = some path) : ⟨wd, path⟩ ∈ watches :=
  (findPath_from h).resolve_left fun hnone => nomatch hnone

theorem isSome_findPath_from {acc : Option CString}
    (h : acc.isSome ∨ ∃ w ∈ watches, w.watchFd = wd) : (watches.foldl
      (fun dirPath w => if wd = w.watchFd then some w.path else dirPath) acc).isSome := by
  induction watches generalizing acc with
  | nil => exact h.resolve_right fun ⟨_, hw, _⟩ => nomatch hw
  | cons w watches ih =>
    refine ih ?_
    dsimp only
    by_cases hwd : wd = w.watchFd
    · rw [if_pos hwd]
      exact .inl rfl
    · rw [if_neg hwd]
      rcases h with hacc | ⟨w', hw', hwd'⟩
      · exact .inl hacc
      · rcases List.mem_cons.mp hw' with rfl | hmem
        · exact absurd hwd'.symm hwd
        · exact .inr ⟨w', hmem, hwd'⟩

theorem isSome_findPath (h : ∃ w ∈ watches, w.watchFd = wd) : (findPath watches wd).isSome :=
  isSome_findPath_from (.inr h)

theorem subset_addWatches (watches added : List Watchdir) (mask : Mask) :
    watches ⊆ addWatches watches added mask := by
  have hfold : ∀ (added watches : List Watchdir), watches ⊆ added.foldl listAdd watches := by
    intro added
    induction added with
    | nil => exact fun watches => List.Subset.refl watches
    | cons w added ih =>
      intro watches
      exact List.Subset.trans (List.subset_cons_self w watches) (ih (listAdd watches w))
  cases mask with
  | create | movedTo => exact hfold added watches
  | movedFrom | delete | closeWrite => exact List.Subset.refl watches

/-! ## What a round handles -/

/-- The record in `buf` is of a descriptor that has a watch. -/
def Loop.Known (l : Loop) (number : Nat) : Prop :=
  ∃ e, l.buf = some (number, e) ∧ (findPath l.watches e.wd).isSome

/-- Nothing is done about a record of an unknown descriptor. -/
theorem handle_unknown {number : Nat} {e : InotifyEvent} (hbuf : l.buf = some (number, e))
    (hfind : findPath l.watches e.wd = none) (added : List Watchdir) :
    handle l added = (l, []) := by
  simp only [handle, hbuf, hfind]

theorem handle_known {number : Nat} {e : InotifyEvent} {dirPath : CString}
    (hbuf : l.buf = some (number, e)) (hfind : findPath l.watches e.wd = some dirPath)
    (added : List Watchdir) :
    handle l added = ({ l with watches := addWatches l.watches added e.mask },
      [some ⟨number, e, dirPath, e.mask.action (buildPath dirPath e.name)⟩]) := by
  simp only [handle, hbuf, hfind]

theorem handle_empty (hbuf : l.buf = none) (added : List Watchdir) :
    handle l added = (l, [none]) := by
  simp only [handle, hbuf]

theorem subset_handle (l : Loop) (added : List Watchdir) :
    l.watches ⊆ (handle l added).1.watches := by
  cases hbuf : l.buf with
  | none =>
    rw [handle_empty hbuf]
    exact List.Subset.refl _
  | some p =>
    cases hfind : findPath l.watches p.2.wd with
    | none =>
      rw [handle_unknown hbuf hfind]
      exact List.Subset.refl _
    | some dirPath =>
      rw [handle_known hbuf hfind]
      exact subset_addWatches l.watches added p.2.mask

theorem subset_iterate (l : Loop) (added : List Watchdir) (r : Read) :
    l.watches ⊆ (iterate l added r).1.watches := by
  cases r with
  | again => exact List.Subset.refl _
  | failed => exact subset_handle l added
  | events g => exact subset_handle (l.fill g) added

theorem subset_inotify (l : Loop) (reads : List (Read × List Watchdir)) :
    l.watches ⊆ (inotify l reads).1.watches := by
  induction reads generalizing l with
  | nil => exact List.Subset.refl _
  | cons r reads ih => exact List.Subset.trans (subset_iterate l r.2 r.1) (ih _)

theorem number_of_handle {h : Handled} {added : List Watchdir}
    (hmem : some h ∈ (handle l added).2) : l.Known h.number := by
  cases hbuf : l.buf with
  | none =>
    rw [handle_empty hbuf] at hmem
    exact nomatch List.mem_singleton.mp hmem
  | some p =>
    cases hfind : findPath l.watches p.2.wd with
    | none =>
      rw [handle_unknown hbuf hfind] at hmem
      exact nomatch hmem
    | some dirPath =>
      rw [handle_known hbuf hfind] at hmem
      cases List.mem_singleton.mp hmem
      exact ⟨p.2, hbuf, by rw [hfind]; rfl⟩

theorem known_of_handle {number : Nat} {added : List Watchdir}
    (h : (handle l added).1.Known number) : l.Known number := by
  cases hbuf : l.buf with
  | none =>
    rw [handle_empty hbuf] at h
    exact h
  | some p =>
    cases hfind : findPath l.watches p.2.wd with
    | none =>
      rw [handle_unknown hbuf hfind] at h
      exact h
    | some dirPath =>
      rw [handle_known hbuf hfind] at h
      obtain ⟨e, hbuf', -⟩ := h
      have heq : p = (number, e) := Option.some.inj (hbuf.symm.trans hbuf')
      exact ⟨p.2, by rw [hbuf, heq], by rw [hfind]; rfl⟩

theorem count_handle (l : Loop) (added : List Watchdir) :
    (handle l added).1.count = l.count ∧ (handle l added).1.buf = l.buf := by
  unfold handle
  split
  · exact ⟨rfl, rfl⟩
  · split <;> exact ⟨rfl, rfl⟩

theorem known_fill {g : Group} {number : Nat} (h : (l.fill g).Known number) :
    l.count ≤ number := by
  obtain ⟨e, hbuf, -⟩ := h
  exact Nat.le_of_eq (congrArg Prod.fst (Option.some.inj hbuf))

/-- What is handled from here on is the record in `buf`, if its descriptor is known, or a later
    one. -/
theorem number_of_inotify {reads : List (Read × List Watchdir)} {h : Handled}
    (hmem : some h ∈ (inotify l reads).2) : l.Known h.number ∨ l.count ≤ h.number := by
  induction reads generalizing l with
  | nil => exact nomatch hmem
  | cons r reads ih =>
    obtain ⟨r, added⟩ := r
    rcases List.mem_append.mp hmem with hnow | hlater
    · cases r with
      | again => exact nomatch hnow
      | failed => exact .inl (number_of_handle hnow)
      | events g =>
        exact .inr (known_fill (number_of_handle hnow))
    · rcases ih hlater with hknown | hle
      · cases r with
        | again => exact .inl hknown
        | failed => exact .inl (known_of_handle hknown)
        | events g =>
          exact .inr (known_fill (known_of_handle hknown))
      · cases r with
        | again => exact .inr hle
        | failed => exact .inr ((count_handle l added).1 ▸ hle)
        | events g =>
          have hcount : (l.fill g).count ≤ h.number := (count_handle (l.fill g) added).1 ▸ hle
          exact .inr (Nat.le_trans (Nat.le_add_right _ _) hcount)

theorem number_of_numbered {reads : List (Read × List Watchdir)} {count : Nat}
    {e : InotifyEvent × Nat} (h : e ∈ numbered count reads) : count ≤ e.2 := by
  induction reads generalizing count with
  | nil => exact nomatch h
  | cons r reads ih =>
    rcases List.mem_append.mp h with hnow | hlater
    · exact List.le_snd_of_mem_zipIdx hnow
    · exact Nat.le_trans (Nat.le_add_right _ _) (ih hlater)

/-! ## One event at a time -/

theorem exact_of_oneByOne {reads : List (Read × List Watchdir)} (h : OneByOne l reads) :
    ∃ handled, Exact l reads handled := by
  induction reads generalizing l with
  | nil => exact ⟨[], rfl, rfl, fun h hmem => nomatch hmem⟩
  | cons r reads ih =>
    obtain ⟨r, added⟩ := r
    obtain ⟨hr, hreads⟩ := h
    obtain ⟨handled, hexact⟩ := ih hreads
    cases r with
    | again => exact ⟨handled, hexact.all, hexact.once, hexact.own⟩
    | failed => exact nomatch hr
    | events g =>
      obtain ⟨hrest, hknown⟩ := hr
      obtain ⟨dirPath, hfind⟩ := Option.isSome_iff_exists.mp hknown
      have hhandle := handle_known (l := l.fill g) rfl hfind added
      refine ⟨⟨l.count, g.first, dirPath,
        g.first.mask.action (buildPath dirPath g.first.name)⟩ :: handled, ?_, ?_, ?_⟩
      · exact congrArg₂ (· ++ ·) (congrArg Prod.snd hhandle) hexact.all
      · have honce := hexact.once
        rw [show (iterate l added (.events g)).1.count = l.count + (g.rest.length + 1) from
          (count_handle (l.fill g) added).1] at honce
        simp only [List.map_cons, honce, numbered, Read.list, hrest, List.zipIdx_cons,
          List.zipIdx_nil, List.length_cons, List.length_nil, List.cons_append, List.nil_append]
      · refine List.forall_mem_cons.mpr ⟨⟨?_, rfl⟩, hexact.own⟩
        exact subset_inotify (iterate l added (.events g)).1 reads
          (subset_iterate l added (.events g) (mem_of_findPath hfind))

/-- The record in `buf` was handled before. -/
def Loop.Done (l : Loop) : Prop :=
  ∀ number e, l.buf = some (number, e) → number < l.count ∧ (findPath l.watches e.wd).isSome

/-- What is handled is what was read. -/
def Same (handled : List (Option Handled)) (events : List (InotifyEvent × Nat)) : Prop :=
  handled.map (Option.map fun h => (h.event, h.number)) = events.map some

theorem Same.read {handled : List (Option Handled)} {events : List (InotifyEvent × Nat)}
    {x : Option Handled} (h : Same handled events) (hx : x ∈ handled) :
    ∃ y, x = some y ∧ (y.event, y.number) ∈ events := by
  have hmem := List.mem_map_of_mem (f := Option.map fun h => (h.event, h.number)) hx
  rw [h] at hmem
  obtain ⟨e, he, heq⟩ := List.mem_map.mp hmem
  cases x with
  | none => exact nomatch heq
  | some y =>
    cases heq
    exact ⟨y, rfl, he⟩

theorem Same.handled {handled : List (Option Handled)} {events : List (InotifyEvent × Nat)}
    {e : InotifyEvent × Nat} (h : Same handled events) (he : e ∈ events) :
    ∃ y, some y ∈ handled ∧ y.number = e.2 := by
  have hmem := List.mem_map_of_mem (f := some) he
  rw [← h] at hmem
  obtain ⟨x, hx, heq⟩ := List.mem_map.mp hmem
  cases x with
  | none => exact nomatch heq
  | some y => exact ⟨y, hx, congrArg Prod.snd (Option.some.inj heq)⟩

/-- A read that fails hands out a record again, or one that was never read. -/
theorem not_same_failed {reads : List (Read × List Watchdir)} {added : List Watchdir}
    (hdone : l.Done) :
    ¬ Same (inotify l ((.failed, added) :: reads)).2 (numbered l.count reads) := by
  intro hsame
  cases hbuf : l.buf with
  | none =>
    have hmem : none ∈ (handle l added).2 := by
      rw [handle_empty hbuf]
      exact List.mem_cons_self
    obtain ⟨y, hy, -⟩ := hsame.read (List.mem_append_left _ hmem)
    exact nomatch hy
  | some p =>
    obtain ⟨hlt, hknown⟩ := hdone p.1 p.2 hbuf
    obtain ⟨dirPath, hfind⟩ := Option.isSome_iff_exists.mp hknown
    have hmem : some ⟨p.1, p.2, dirPath, p.2.mask.action (buildPath dirPath p.2.name)⟩ ∈
        (handle l added).2 := by
      rw [handle_known hbuf hfind]
      exact List.mem_cons_self
    obtain ⟨y, hy, hnum⟩ := hsame.read (List.mem_append_left _ hmem)
    cases hy
    exact absurd (number_of_numbered hnum) (Nat.not_le.mpr hlt)

theorem known_of_same {reads : List (Read × List Watchdir)} {added : List Watchdir} {g : Group}
    (hsame : Same (inotify l ((.events g, added) :: reads)).2
      (numbered l.count ((.events g, added) :: reads))) :
    (findPath l.watches g.first.wd).isSome := by
  have hknown : (l.fill g).Known l.count := by
    obtain ⟨y, hy, hnum⟩ := hsame.handled (e := (g.first, l.count)) List.mem_cons_self
    rw [← show y.number = l.count from hnum]
    rcases List.mem_append.mp hy with hnow | hlater
    · exact number_of_handle (l := l.fill g) hnow
    · rcases number_of_inotify hlater with hknown | hle
      · exact known_of_handle (l := l.fill g) hknown
      · have hle : (handle (l.fill g) added).1.count ≤ y.number := hle
        rw [(count_handle (l.fill g) added).1, show y.number = l.count from hnum] at hle
        exact absurd hle (by simp only [Loop.fill]; omega)
  obtain ⟨e, hbuf, he⟩ := hknown
  cases hbuf
  exact he

theorem rest_of_same {reads : List (Read × List Watchdir)} {added : List Watchdir} {g : Group}
    (hsame : Same (inotify l ((.events g, added) :: reads)).2
      (numbered l.count ((.events g, added) :: reads))) : g.rest = [] := by
  cases hrest : g.rest with
  | nil => rfl
  | cons e rest =>
    exfalso
    have hmem : (e, l.count + 1) ∈ numbered l.count ((.events g, added) :: reads) := by
      simp [numbered, Read.list, hrest]
    obtain ⟨y, hy, hnum⟩ := hsame.handled hmem
    have hbuf : ¬ (l.fill g).Known y.number := by
      rintro ⟨e', hbuf, -⟩
      have heq : l.count = y.number := congrArg Prod.fst (Option.some.inj hbuf)
      exact absurd (heq.trans hnum) (by dsimp only; omega)
    rcases List.mem_append.mp hy with hnow | hlater
    · exact hbuf (number_of_handle (l := l.fill g) hnow)
    · rcases number_of_inotify hlater with hknown | hle
      · exact hbuf (known_of_handle (l := l.fill g) hknown)
      · have hle : (handle (l.fill g) added).1.count ≤ y.number := hle
        rw [(count_handle (l.fill g) added).1, hnum] at hle
        exact absurd hle (by simp only [Loop.fill, hrest, List.length_cons]; omega)

theorem oneByOne_of_same {reads : List (Read × List Watchdir)} (hdone : l.Done)
    (hsame : Same (inotify l reads).2 (numbered l.count reads)) : OneByOne l reads := by
  induction reads generalizing l with
  | nil => trivial
  | cons r reads ih =>
    obtain ⟨r, added⟩ := r
    cases r with
    | again => exact ⟨trivial, ih hdone hsame⟩
    | failed => exact absurd hsame (not_same_failed hdone)
    | events g =>
      have hknown := known_of_same hsame
      have hrest := rest_of_same hsame
      obtain ⟨dirPath, hfind⟩ := Option.isSome_iff_exists.mp hknown
      have hhandle := handle_known (l := l.fill g) rfl hfind added
      have hcount := count_handle (l.fill g) added
      refine ⟨⟨hrest, hknown⟩, ih (l := (handle (l.fill g) added).1) ?_ ?_⟩
      · intro number e hbuf
        rw [hcount.2] at hbuf
        cases hbuf
        rw [hcount.1]
        refine ⟨?_, isSome_findPath ⟨_, subset_handle (l.fill g) added (mem_of_findPath hfind), rfl⟩⟩
        simp only [Loop.fill]
        omega
      · have htail : Same ((handle (l.fill g) added).2 ++
            (inotify (handle (l.fill g) added).1 reads).2)
            ((g.first, l.count) :: numbered (l.count + 1) reads) := by
          have hsame' := hsame
          simp only [numbered, Read.list, hrest] at hsame'
          exact hsame'
        rw [show (handle (l.fill g) added).1.count = l.count + 1 by
          rw [hcount.1]; simp only [Loop.fill, hrest, List.length_nil]]
        unfold Same at htail ⊢
        rw [congrArg Prod.snd hhandle] at htail
        exact (List.cons.inj htail).2

/-- **Events are handled exactly once**: whatever the events and however they are grouped, every
    event is handled once, in order and with a path of its own descriptor, if and only if every read
    gives one event of a descriptor that has a watch, and no read fails. -/
theorem events_exact_iff (watches : List Watchdir) (reads : List (Read × List Watchdir)) :
    (∃ handled, Exact ⟨watches, none, 0⟩ reads handled) ↔ OneByOne ⟨watches, none, 0⟩ reads := by
  constructor
  · rintro ⟨handled, hexact⟩
    refine oneByOne_of_same (fun _ _ hbuf => nomatch hbuf) ?_
    unfold Same
    rw [hexact.all, List.map_map, ← hexact.once, List.map_map]
    rfl
  · exact exact_of_oneByOne

/-- Two files that are closed before the thread reads. -/
def twoClosed : Group where
  first := ⟨1, .closeWrite, "a.mp4".toList, by decide⟩
  rest := [⟨1, .closeWrite, "b.mp4".toList, by decide⟩]
  fits := by decide

/-- One read returns both events, and the second one is never handled. -/
theorem second_event_lost :
    ¬ ∀ (watches : List Watchdir) (reads : List (Read × List Watchdir)),
      (∀ r ∈ reads, ∃ g, r.1 = .events g ∧
        ∀ e ∈ g.first :: g.rest, ∃ w ∈ watches, w.watchFd = e.wd) →
      ∃ handled, Exact ⟨watches, none, 0⟩ reads handled := by
  intro hall
  obtain ⟨handled, hexact⟩ := hall [⟨1, "/s/Video".toList⟩] [(.events twoClosed, [])] (by
    refine List.forall_mem_singleton.mpr ⟨twoClosed, rfl, ?_⟩
    decide)
  have hone : 1 = (handled.map some).length := congrArg List.length hexact.all
  have htwo : (handled.map fun h => (h.event, h.number)).length = 2 :=
    congrArg List.length hexact.once
  rw [List.length_map] at hone htwo
  omega

end Mediabox.LibraryEvents
