import Mediabox.Lib.SqlLike
import Mediabox.LibraryEvents
import Mediabox.LibraryTable

/-!
# Files that disappear (`mbox_library_local_inotify` in `src/library.c`)

The branch on `IN_DELETE` and `IN_MOVED_FROM` executes `DELETE FROM local_objects WHERE path LIKE ?`
with the path of the event and a `%` after it.

* A path is the list of its characters, as SQLite reads it.
* `gone_of_below` — the rows of the path and of what was in it are always removed.

Main result: `delete_exact_iff` — these and no others are removed if and only if no other row has a
path that begins with an instance of the path, which is a pattern here.
-/

set_option autoImplicit false

namespace Mediabox.LibraryEvents

open Library SqlLike

/-! ## The code -/

/-- `DELETE FROM local_objects WHERE path LIKE ?` -/
def deleteLike (t : Table) (pattern : CString) : Table where
  rows := t.rows.filter fun r => !like pattern r.path
  ordered := t.ordered.filter _

/-- What an event does to the table when its statement is executed. -/
def Action.delete (t : Table) : Action → Table
  | .removed pattern => deleteLike t pattern
  | _ => t

/-! ## What it is for -/

/-- The path of a file or a directory, or of something in it. -/
def Below (path x : CString) : Prop := x = path ∨ path ++ ['/'] <+: x

instance (path x : CString) : Decidable (Below path x) := inferInstanceAs (Decidable (_ ∨ _))

/-- No path of another row begins with an instance of this one. -/
def Alone (t : Table) (path : CString) : Prop :=
  ∀ r ∈ t.rows, ¬Below path r.path → ∀ u, u <+: r.path → ¬Matches path u

/-! ## What is removed -/

variable {t : Table} {path x : CString} {mask : Mask}

/-- **What must go**: the path matches itself, whatever its characters. -/
theorem gone_of_below (h : Below path x) : like (path ++ ['%']) x = true := by
  rw [like_iff, matches_concat_percent]
  rcases h with rfl | hprefix
  · exact ⟨x, List.prefix_refl x, Matches.refl x⟩
  · exact ⟨path, (List.prefix_append path ['/']).trans hprefix, Matches.refl path⟩

theorem action_removed (h : mask = .delete ∨ mask = .movedFrom) (path : CString) :
    mask.action path = .removed (path ++ ['%']) := by
  rcases h with rfl | rfl <;> rfl

theorem alone_iff : Alone t path ↔
    ∀ r ∈ t.rows, ¬Below path r.path → like (path ++ ['%']) r.path = false := by
  constructor
  · intro halone r hr hother
    rw [Bool.eq_false_iff]
    intro hlike
    obtain ⟨u, hu, hmatch⟩ := matches_concat_percent.mp (like_iff.mp hlike)
    exact halone r hr hother u hu hmatch
  · intro hno r hr hother u hu hmatch
    have hlike := like_iff.mpr (matches_concat_percent.mpr ⟨u, hu, hmatch⟩)
    rw [hno r hr hother] at hlike
    cases hlike

theorem filter_eq_iff {α : Type} {l : List α} {p q : α → Bool} :
    l.filter p = l.filter q ↔ ∀ x ∈ l, p x = q x := by
  constructor
  · intro h x hx
    have hp : x ∈ l.filter p ↔ p x = true := by rw [List.mem_filter, and_iff_right hx]
    have hq : x ∈ l.filter q ↔ q x = true := by rw [List.mem_filter, and_iff_right hx]
    rw [Bool.eq_iff_iff, ← hp, ← hq, h]
  · exact List.filter_congr

/-- **Exactly the right rows**: the event of a deleted or moved-out path removes the rows whose path
    equals it or is below it, and no other row, if and only if no other row has a path that begins
    with the path, or with it in other letter case or with something else for its `%` and `_`. -/
theorem delete_exact_iff (t : Table) (mask : Mask) (path : CString)
    (h : mask = .delete ∨ mask = .movedFrom) :
    ((mask.action path).delete t).rows = t.rows.filter (fun r => ¬Below path r.path) ↔
      Alone t path := by
  rw [action_removed h, alone_iff]
  show t.rows.filter (fun r => !like (path ++ ['%']) r.path) = _ ↔ _
  rw [filter_eq_iff]
  constructor
  · intro hexact r hr hother
    have hsame := hexact r hr
    rwa [decide_eq_true hother, Bool.not_eq_true'] at hsame
  · intro hno r hr
    by_cases hbelow : Below path r.path
    · simp [gone_of_below hbelow, hbelow]
    · simp [hno r hr hbelow, hbelow]

/-- A row that has nothing to do with the path. -/
def oneFilm : Table where
  rows := [⟨5, 3, "B".toList, "/v/b.mp4".toList⟩]
  ordered := by decide

/-- The directory `/v`, two rows below it and one beside it. -/
def threeFilms : Table where
  rows := [⟨5, 3, "V".toList, "/v".toList⟩, ⟨6, 5, "B".toList, "/v/b.mp4".toList⟩,
    ⟨7, 5, "C".toList, "/v/s_1/c.avi".toList⟩, ⟨8, 3, "D".toList, "/w/d.mp4".toList⟩]
  ordered := by decide

/-- The row of `/v` and those below it go, the one beside it stays. -/
theorem delete_exact_iff_directory :
    ((Mask.delete.action "/v".toList).delete threeFilms).rows =
      threeFilms.rows.filter (fun r => ¬Below "/v".toList r.path) ∧
    threeFilms.rows.filter (fun r => ¬Below "/v".toList r.path) =
      [⟨8, 3, "D".toList, "/w/d.mp4".toList⟩] :=
  ⟨(delete_exact_iff threeFilms .delete "/v".toList (Or.inl rfl)).mpr (alone_iff.mpr (by decide)),
    by decide⟩

/-- **A directory with a longer sibling**: when `/v/b` is deleted the row of `/v/b.mp4` goes. -/
theorem sibling_removed :
    ¬ ∀ (t : Table) (mask : Mask) (path : CString), mask = .delete ∨ mask = .movedFrom →
      ((mask.action path).delete t).rows = t.rows.filter (fun r => ¬Below path r.path) := by
  intro hall
  have hrows := hall oneFilm .delete "/v/b".toList (Or.inl rfl)
  exact absurd hrows (by decide)

end Mediabox.LibraryEvents
