import Mathlib.Algebra.Order.Ring.Int
import Mathlib.Data.List.Nodup
import Mediabox.LibraryNames

/-!
# The table of the library (`src/library.c`)

The rows of `local_objects` and the statements that are run on them.

* A table has its rows in the order of their ids, the order in which a `SELECT` finds them.
* `INSERT` numbers the new row one above the last one.
* The ids go through `sqlite3_column_int` and through `int` variables, which keep 32 bits.

Main results: what a lookup says about the keys of the rows (`notMem_keys_of_selectChild`,
`selectPath_cases`), and what an insertion and a new name do to them (`keys_insert`,
`keys_rename`).
-/

set_option autoImplicit false

namespace Mediabox.Library

/-- A row of `local_objects`. -/
structure Row where
  id : Int
  parentId : Int
  name : CString
  path : CString
deriving DecidableEq, Repr

/-- What there may be one of. -/
inductive Key where
  | dir (parentId : Int) (name : CString)
  | file (path : CString)
deriving DecidableEq, Repr

/-- A directory has the empty path. -/
def Row.key (r : Row) : Key := if r.path = [] then .dir r.parentId r.name else .file r.path

/-- The table `local_objects`. -/
structure Table where
  rows : List Row
  ordered : rows.Pairwise (·.id < ·.id)

/-- The table of `mbox_library_create_db_if_not_exist`. -/
def newTable : Table where
  rows := [⟨1, 0, "Audio".toList, []⟩, ⟨2, 0, "Video".toList, []⟩, ⟨3, 2, "Movies".toList, []⟩,
    ⟨4, 2, "TV Shows".toList, []⟩]
  ordered := by decide

/-- The value of an `int` that a 64-bit integer is assigned to. -/
def int (x : Int) : Int := x.bmod (2 ^ 32)

/-! ## Statements -/

/-- `SELECT id FROM local_objects WHERE parent_id = ? AND name = ?`, the first row -/
def Table.child? (t : Table) (parentId : Int) (name : CString) : Option Row :=
  t.rows.find? fun r => r.parentId = parentId ∧ r.name = name

/-- The id of the first row, -1 if there is none. -/
def Table.selectChild (t : Table) (parentId : Int) (name : CString) : Int :=
  match t.child? parentId name with
  | some r => int r.id
  | none => -1

/-- `SELECT id FROM local_objects WHERE path = ? LIMIT 1`, -1 if none -/
def Table.selectPath (t : Table) (path : CString) : Int :=
  match t.rows.find? fun r => r.path = path with
  | some r => int r.id
  | none => -1

/-- The id of the next row. -/
def Table.nextId (t : Table) : Int :=
  match t.rows.getLast? with
  | some r => r.id + 1
  | none => 1

theorem Table.id_lt_nextId (t : Table) {r : Row} (hr : r ∈ t.rows) : r.id < t.nextId := by
  obtain ⟨front, last, hlast⟩ := List.eq_nil_or_concat t.rows |>.resolve_left fun hnil => by
    rw [hnil] at hr
    exact nomatch hr
  have hord := t.ordered
  unfold Table.nextId
  rw [hlast] at hr hord ⊢
  rw [List.concat_eq_append, List.getLast?_append, List.getLast?_singleton]
  rw [List.concat_eq_append, List.pairwise_append] at hord
  rcases List.mem_append.mp (List.concat_eq_append ▸ hr) with hfront | hl
  · have hlt := hord.2.2 r hfront last (List.mem_singleton_self last)
    exact Int.lt_trans hlt (Int.lt_succ last.id)
  · rw [List.mem_singleton.mp hl]
    exact Int.lt_succ last.id

/-- The ids of the rows are different. -/
theorem Table.eq_of_id (t : Table) {r r' : Row} (hr : r ∈ t.rows) (hr' : r' ∈ t.rows)
    (h : r.id = r'.id) : r = r' := by
  have hnodup : (t.rows.map Row.id).Nodup := List.pairwise_map.mpr (t.ordered.imp Int.ne_of_lt)
  exact List.inj_on_of_nodup_map hnodup hr hr' h

/-- `INSERT INTO local_objects (parent_id, name, path) VALUES (?, ?, ?)` -/
def Table.insert (t : Table) (parentId : Int) (name path : CString) : Table where
  rows := t.rows ++ [⟨t.nextId, parentId, name, path⟩]
  ordered := by
    rw [List.pairwise_append]
    refine ⟨t.ordered, List.pairwise_singleton _ _, fun r hr r' hr' => ?_⟩
    rw [List.mem_singleton.mp hr']
    exact t.id_lt_nextId hr

/-- The row with a new name, if it has the id. -/
def Row.rename (id : Int) (name : CString) (r : Row) : Row :=
  if r.id = id then { r with name } else r

@[simp] theorem Row.rename_id (id : Int) (name : CString) (r : Row) :
    (r.rename id name).id = r.id := by
  unfold Row.rename
  split <;> rfl

/-- `UPDATE local_objects SET name = ? WHERE id = ?` -/
def Table.rename (t : Table) (id : Int) (name : CString) : Table where
  rows := t.rows.map (Row.rename id name)
  ordered := by
    rw [List.pairwise_map]
    simp only [Row.rename_id]
    exact t.ordered

/-! ## The keys of the rows -/

/-- The keys of the rows. -/
def Table.keys (t : Table) : List Key := t.rows.map Row.key

/-- There is at most one directory of a name in a directory, and at most one row of a file. -/
def Table.Unique (t : Table) : Prop := t.keys.Nodup

instance (t : Table) : Decidable t.Unique := inferInstanceAs (Decidable t.keys.Nodup)

/-- An id that an `int` holds and that is not taken for a failure. -/
def Fits (id : Int) : Prop := int id = id ∧ id ≠ -1

instance (id : Int) : Decidable (Fits id) := inferInstanceAs (Decidable (_ ∧ _))

def Table.Fits (t : Table) : Prop := ∀ r ∈ t.rows, Library.Fits r.id

instance (t : Table) : Decidable t.Fits := inferInstanceAs (Decidable (∀ r ∈ t.rows, _))

variable {t : Table} {id parentId : Int} {name path : CString}

theorem Table.notMem_keys_of_selectChild (hfits : t.Fits)
    (h : t.selectChild parentId name = -1) : Key.dir parentId name ∉ t.keys := by
  unfold Table.selectChild at h
  intro hmem
  obtain ⟨r, hr, hkey⟩ := List.mem_map.mp hmem
  unfold Row.key at hkey
  split at hkey
  · cases hkey
    split at h
    · rename_i r' hfind
      have hfit := hfits r' (List.mem_of_find?_eq_some hfind)
      exact hfit.2 (hfit.1.symm.trans h)
    · rename_i hnone
      exact List.find?_eq_none.mp hnone r hr (decide_eq_true ⟨rfl, rfl⟩)
  · cases hkey

/-- Without a row of the path nothing is found; otherwise a row of it is. -/
theorem Table.selectPath_cases (hfits : t.Fits) (hpath : path ≠ []) :
    (t.selectPath path = -1 ∧ Key.file path ∉ t.keys) ∨
      (t.selectPath path ≠ -1 ∧ ∃ r ∈ t.rows, r.id = t.selectPath path ∧ r.path ≠ []) := by
  unfold Table.selectPath
  split
  · rename_i r hfind
    have hr := List.mem_of_find?_eq_some hfind
    have hfit := hfits r hr
    have hrow : r.path = path := by simpa using List.find?_some hfind
    rw [hfit.1]
    exact .inr ⟨hfit.2, r, hr, rfl, hrow ▸ hpath⟩
  · rename_i hnone
    refine .inl ⟨rfl, fun hmem => ?_⟩
    obtain ⟨r, hr, hkey⟩ := List.mem_map.mp hmem
    unfold Row.key at hkey
    split at hkey
    · cases hkey
    · cases hkey
      exact List.find?_eq_none.mp hnone r hr (decide_eq_true rfl)

theorem Table.keys_insert (t : Table) (parentId : Int) (name path : CString) :
    (t.insert parentId name path).keys =
      t.keys ++ [if path = [] then .dir parentId name else .file path] := by
  simp only [Table.keys, Table.insert, List.map_append, List.map_cons, List.map_nil, Row.key]

theorem Table.fits_insert (h : t.Fits) (hnext : Library.Fits t.nextId) :
    (t.insert parentId name path).Fits := by
  intro r hr
  rcases List.mem_append.mp hr with hold | hnew
  · exact h r hold
  · rw [List.mem_singleton.mp hnew]
    exact hnext

theorem Table.keys_rename {r : Row} (hr : r ∈ t.rows) (hfile : r.path ≠ []) :
    (t.rename r.id name).keys = t.keys := by
  unfold Table.keys Table.rename
  rw [List.map_map]
  refine List.map_congr_left fun r' hr' => ?_
  unfold Function.comp Row.rename
  split
  · rename_i hid
    have heq : r' = r := t.eq_of_id hr' hr hid
    unfold Row.key
    rw [if_neg (heq ▸ hfile), if_neg (heq ▸ hfile)]
  · rfl

theorem Table.fits_rename (h : t.Fits) : (t.rename id name).Fits := by
  intro r hr
  obtain ⟨r', hr', rfl⟩ := List.mem_map.mp hr
  rw [Row.rename_id]
  exact h r' hr'

/-- The rows of a table are still there, with their paths. -/
def Table.Keeps (t t' : Table) : Prop :=
  ∀ r ∈ t.rows, ∃ r' ∈ t'.rows, r'.id = r.id ∧ r'.path = r.path

theorem Table.Keeps.refl (t : Table) : t.Keeps t := fun r hr => ⟨r, hr, rfl, rfl⟩

theorem Table.keeps_insert (t : Table) (parentId : Int) (name path : CString) :
    t.Keeps (t.insert parentId name path) :=
  fun r hr => ⟨r, List.mem_append_left _ hr, rfl, rfl⟩

theorem Table.keeps_rename (t : Table) (id : Int) (name : CString) :
    t.Keeps (t.rename id name) := by
  intro r hr
  refine ⟨_, List.mem_map_of_mem hr, Row.rename_id id name r, ?_⟩
  unfold Row.rename
  split <;> rfl

end Mediabox.Library
