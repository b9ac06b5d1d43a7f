import Mediabox.PlayerChapters

/-!
# Seeking by five minutes (`avbox_player_doseek` in `src/lib/ui/player.c`)

The seek by chapters in a file that has none: `nb_chapters` counts the marks every five minutes
before the end of the file, and the current chapter begins at the last one that is not after `pos`.

* `virtualLoop_eq` — what the loop finds, as long as an `int` counts the marks.
* Without any mark (the duration is unknown) `nb_chapters` is that of the file, so that a seek back
  that is not refused reads the chapters that do not exist.

Main result: `chapterTarget_virtual_iff` — the duration is known or the seek is refused, an `int`
counts the marks, a seek forwards does not start at an end on a mark, and one back from a late mark
starts more than five seconds after it.
-/

set_option autoImplicit false

namespace Mediabox.Player

open MachineInt

variable {duration pos incr : Int} {playlist : Bool}

/-- The number of virtual chapters: their starts lie before the end of the file. -/
def marks (duration : Int) : Int := (duration + chapterDuration - 1) / chapterDuration

/-- The current chapter: the last mark that is not after `pos`. -/
def currentMark (duration pos : Int) : Int := min (pos / chapterDuration) (marks duration - 1)

/-- The loop from the chapter `j` on: the last chapter that has started is the current one. -/
theorem virtualLoop_eq (pos : Int) {j : Int} (chapter chapterPos : Int)
    (hmarks : marks duration < 2147483648) (h0 : 0 ≤ j) (hj : j ≤ marks duration) :
    virtualLoop duration pos (j * chapterDuration) j chapter chapterPos =
      .ok (marks duration, if j * chapterDuration ≤ pos ∧ j < marks duration then
        (currentMark duration pos, wrap 32 (currentMark duration pos * chapterDuration))
        else (chapter, chapterPos)) := by
  obtain ⟨n, hn⟩ : ∃ n : Nat, marks duration = j + n := ⟨(marks duration - j).toNat, by omega⟩
  induction n generalizing j chapter chapterPos with
  | zero =>
    have hend : ¬j * chapterDuration < duration := by
      unfold marks chapterDuration at *
      omega
    rw [virtualLoop, if_neg hend, if_neg (by omega)]
    congr 2
    omega
  | succ n ih =>
    have hlt : j * chapterDuration < duration := by
      unfold marks chapterDuration at *
      omega
    have hnext : j * chapterDuration + chapterDuration = (j + 1) * chapterDuration := by
      unfold chapterDuration
      omega
    have hrange : InRange 64 ((j + 1) * chapterDuration) ∧ InRange 32 (j + 1) := by
      rw [inRange_64, inRange_32]
      unfold chapterDuration
      omega
    rw [virtualLoop, if_pos hlt, hnext, if_pos hrange]
    split
    · rename_i hle
      have hcurrent : j * chapterDuration ≤ pos ∧ j < marks duration := ⟨hle, by omega⟩
      rw [ih _ _ (by omega) (by omega) (by push_cast at hn; omega), if_pos hcurrent]
      split
      · rfl
      · rename_i hlast
        have hmark : currentMark duration pos = j := by
          unfold currentMark chapterDuration at *
          omega
        rw [hmark]
    · rename_i hgt
      have hcurrent : ¬(j * chapterDuration ≤ pos ∧ j < marks duration) := fun h => hgt h.1
      have hgt' : ¬((j + 1) * chapterDuration ≤ pos ∧ j + 1 < marks duration) := by
        unfold chapterDuration at *
        omega
      rw [ih _ _ (by omega) (by omega) (by push_cast at hn; omega), if_neg hgt', if_neg hcurrent]

theorem virtualLoop_overflow {j chapter chapterPos : Int} (hmarks : 2147483648 ≤ marks duration)
    (h0 : 0 ≤ j) (hj : j < 2147483648) :
    virtualLoop duration pos (j * chapterDuration) j chapter chapterPos = .error .overflow := by
  obtain ⟨n, hn⟩ : ∃ n : Nat, 2147483647 = j + n := ⟨(2147483647 - j).toNat, by omega⟩
  induction n generalizing j chapter chapterPos with
  | zero =>
    have hlt : j * chapterDuration < duration := by
      unfold marks chapterDuration at *
      omega
    rw [virtualLoop, if_pos hlt, if_neg]
    rintro ⟨-, hrange⟩
    rw [inRange_32] at hrange
    omega
  | succ n ih =>
    have hlt : j * chapterDuration < duration := by
      unfold marks chapterDuration at *
      omega
    have hnext : j * chapterDuration + chapterDuration = (j + 1) * chapterDuration := by
      unfold chapterDuration
      omega
    rw [virtualLoop, if_pos hlt, hnext]
    split
    · split
      · exact ih (by omega) (by push_cast at hn; omega) (by push_cast at hn; omega)
      · exact ih (by omega) (by push_cast at hn; omega) (by push_cast at hn; omega)
    · rfl

theorem findChapter_nil : findChapter ⟨[], duration⟩ pos = virtualLoop duration pos 0 0 0 0 := rfl

theorem findChapter_unknown (h : duration ≤ 0) : findChapter ⟨[], duration⟩ pos = .ok (0, 0, 0) := by
  rw [findChapter_nil, virtualLoop, if_neg (by omega)]

theorem findChapter_overflow (hmarks : 2147483648 ≤ marks duration) :
    findChapter ⟨[], duration⟩ pos = .error .overflow := by
  rw [findChapter_nil]
  exact virtualLoop_overflow (j := 0) hmarks (by decide) (by decide)

theorem findChapter_virtual (h : 0 < duration) (h0 : 0 ≤ pos)
    (hmarks : marks duration < 2147483648) :
    findChapter ⟨[], duration⟩ pos =
      .ok (marks duration, currentMark duration pos,
        wrap 32 (currentMark duration pos * chapterDuration)) := by
  have hsome : 0 < marks duration := by
    unfold marks chapterDuration
    omega
  have hloop := virtualLoop_eq pos 0 0 hmarks (Int.le_refl 0) (Int.le_of_lt hsome)
  rw [if_pos ⟨by omega, hsome⟩, Int.zero_mul] at hloop
  rw [findChapter_nil, hloop]

/-! ## The targets -/

theorem chapterStart_mark {mark : Int} (hmarks : 0 < marks duration) (h0 : 0 ≤ mark)
    (hle : mark ≤ marks duration) :
    chapterStart ⟨[], duration⟩ (marks duration) mark = .ok (.pos (mark * chapterDuration)) :=
  chapterStart_virtual (by dsimp only [List.length_nil]; omega) h0 hle

theorem target_forward (h : 0 < duration) (h0 : 0 ≤ pos) (hmarks : marks duration < 2147483648) :
    chapterTarget ⟨[], duration⟩ playlist pos 1 =
      if playlist ∧ currentMark duration pos = marks duration - 1 then .ok .nextItem
      else .ok (.pos ((currentMark duration pos + 1) * chapterDuration)) := by
  have hsome : 0 < marks duration := by
    unfold marks chapterDuration
    omega
  have hrange : 0 ≤ currentMark duration pos ∧ currentMark duration pos < marks duration := by
    unfold currentMark chapterDuration
    omega
  rw [chapterTarget_of_find (findChapter_virtual h h0 hmarks), seekFrom_forward,
    chapterStart_mark hsome (by omega) (by omega)]
  have hne : marks duration ≠ 0 := by omega
  simp [hne]

/-- Backwards to the current mark or to the one before, by the five seconds from the mark as an
`int`. -/
theorem target_back (h : 0 < duration) (h0 : 0 ≤ pos) (hpos : pos ≤ duration)
    (hmarks : marks duration < 2147483648) :
    chapterTarget ⟨[], duration⟩ playlist pos (-1) =
      if 5000000 < pos - wrap 32 (currentMark duration pos * chapterDuration) then
        .ok (.pos (currentMark duration pos * chapterDuration))
      else if currentMark duration pos = 0 then .ok (if playlist then .prevItem else .refused)
      else .ok (.pos ((currentMark duration pos - 1) * chapterDuration)) := by
  have hsome : 0 < marks duration := by
    unfold marks chapterDuration
    omega
  have hrange : 0 ≤ currentMark duration pos ∧ currentMark duration pos < marks duration := by
    unfold currentMark chapterDuration
    omega
  have hwrap := inRange_32.mp
    (wrap_inRange (by decide : 0 < 32) (currentMark duration pos * chapterDuration))
  have hint : InRange 64 (pos - wrap 32 (currentMark duration pos * chapterDuration)) := by
    rw [inRange_64]
    unfold marks chapterDuration at *
    omega
  rw [chapterTarget_of_find (findChapter_virtual h h0 hmarks)]
  split
  · rename_i hinto
    rw [seekFrom_start hint hinto hrange.1, chapterStart_mark hsome hrange.1 (by omega)]
  · rename_i hinto
    rw [seekFrom_back hint (Int.not_lt.mp hinto)]
    by_cases hzero : currentMark duration pos = 0
    · rw [hzero, chapterStart_refused (by omega)]
      cases playlist <;> simp
    · rw [chapterStart_mark hsome (by omega) (by omega)]
      simp [hzero]

theorem target_unknown (h : duration ≤ 0) :
    chapterTarget ⟨[], duration⟩ playlist pos 1 = .ok (if playlist then .nextItem else .refused) := by
  rw [chapterTarget_of_find (findChapter_unknown h), seekFrom_forward]
  cases playlist <;> simp [chapterStart]

/-- Backwards in a file of unknown duration, near its start. -/
theorem target_unknown_back (h : duration ≤ 0) (h0 : 0 ≤ pos) (hle : pos ≤ 5000000) :
    chapterTarget ⟨[], duration⟩ playlist pos (-1) =
      .ok (if playlist then .prevItem else .refused) := by
  rw [chapterTarget_of_find (findChapter_unknown h),
    seekFrom_back (inRange_64.mpr (by omega)) (by omega)]
  cases playlist <;> simp [chapterStart]

/-- Backwards in a file of unknown duration, further on: there is no chapter to read. -/
theorem target_unknown_outside (playlist : Bool) (h : duration ≤ 0) (hinto : 5000000 < pos) :
    ∃ e, chapterTarget ⟨[], duration⟩ playlist pos (-1) = .error e := by
  rw [chapterTarget_of_find (findChapter_unknown h)]
  by_cases hrange : InRange 64 (pos - 0)
  · exact ⟨.outside, (seekFrom_start hrange (by omega) (by omega)).trans rfl⟩
  · exact ⟨.overflow, seekFrom_overflow hrange⟩

/-! ## Main theorem -/

/-- The mark to go to: the next one; or the last one from more than five seconds after it, and else
the one before. -/
def expectedMark (pos incr : Int) : Int :=
  if incr = 1 then (pos / chapterDuration + 1) * chapterDuration
  else if 5000000 < pos % chapterDuration then pos / chapterDuration * chapterDuration
  else (pos / chapterDuration - 1) * chapterDuration

/-- It leads to that mark, is refused, or leads to the item on this side in the playlist. -/
def SeeksMark (pos incr : Int) : Except ChapterFault SeekTarget → Prop
  | .ok (.pos target) => 0 ≤ target ∧ target = expectedMark pos incr
  | .ok .refused => True
  | .ok .nextItem => incr = 1
  | .ok .prevItem => incr = -1
  | .error _ => False

/-- `pos` is the end of a file that ends on a mark. -/
def AtEndMark (duration pos : Int) : Prop := pos = duration ∧ duration % chapterDuration = 0

instance (duration pos : Int) : Decidable (AtEndMark duration pos) :=
  inferInstanceAs (Decidable (_ ∧ _))

/-- Where the seek leads as expected. -/
def SeekableMark (duration pos incr : Int) (playlist : Bool) : Prop :=
  (duration ≤ 0 → incr = -1 → pos ≤ 5000000) ∧
  (0 < duration → duration ≤ 2147483647 * chapterDuration ∧
    (incr = 1 → playlist = true ∨ ¬AtEndMark duration pos) ∧
    (incr = -1 → pos < 8 * chapterDuration ∨ 5000000 < pos % chapterDuration ∨
      AtEndMark duration pos))

instance (duration pos incr : Int) (playlist : Bool) :
    Decidable (SeekableMark duration pos incr playlist) :=
  inferInstanceAs (Decidable (_ ∧ _))

theorem marks_lt_iff (h : 0 < duration) :
    marks duration < 2147483648 ↔ duration ≤ 2147483647 * chapterDuration := by
  unfold marks chapterDuration
  omega

/-- The current chapter begins at the last mark, but for an end on a mark. -/
theorem currentMark_eq (h0 : 0 ≤ pos) (hpos : pos ≤ duration) :
    0 ≤ pos / chapterDuration ∧ currentMark duration pos =
      if AtEndMark duration pos then pos / chapterDuration - 1 else pos / chapterDuration := by
  refine ⟨Int.ediv_nonneg h0 (by decide), ?_⟩
  by_cases hend : AtEndMark duration pos
  · rw [if_pos hend]
    unfold AtEndMark currentMark marks chapterDuration at *
    omega
  · rw [if_neg hend]
    unfold AtEndMark currentMark marks chapterDuration at *
    omega

/-- **Forwards.** -/
theorem seeksMark_forward (h : 0 < duration) (h0 : 0 ≤ pos) (hpos : pos ≤ duration)
    (hmarks : marks duration < 2147483648) :
    SeeksMark pos 1 (chapterTarget ⟨[], duration⟩ playlist pos 1) ↔
      playlist = true ∨ ¬AtEndMark duration pos := by
  obtain ⟨hmark, hcurrent⟩ := currentMark_eq h0 hpos
  rw [target_forward h h0 hmarks]
  by_cases hend : AtEndMark duration pos
  · have hlast : currentMark duration pos = marks duration - 1 := by
      unfold AtEndMark currentMark marks chapterDuration at *
      omega
    rw [if_pos hend] at hcurrent
    cases playlist with
    | true => simp [hlast, SeeksMark]
    | false =>
      simp [SeeksMark, expectedMark, hend, hcurrent]
      unfold chapterDuration
      omega
  · rw [if_neg hend] at hcurrent
    refine iff_of_true ?_ (Or.inr hend)
    split
    · rfl
    · rw [hcurrent, SeeksMark, expectedMark, if_pos rfl]
      unfold chapterDuration at *
      omega

/-- From a mark that is no `int`, the way back is always longer than five seconds. -/
theorem late_mark {mark : Int} (h : 8 ≤ mark) (hle : mark * chapterDuration ≤ pos) :
    5000000 < pos - wrap 32 (mark * chapterDuration) := by
  have hlate : 2147483648 ≤ mark * chapterDuration := by
    unfold chapterDuration
    omega
  have hwrap := wrap_late hlate
  omega

theorem early_mark {mark : Int} (h0 : 0 ≤ mark) (h : mark < 8) :
    wrap 32 (mark * chapterDuration) = mark * chapterDuration := by
  apply wrap_of_inRange (by decide)
  rw [inRange_32]
  unfold chapterDuration
  omega

theorem seeksMark_end (h : 0 < duration) (hend : AtEndMark duration pos)
    (hmarks : marks duration < 2147483648) :
    SeeksMark pos (-1) (chapterTarget ⟨[], duration⟩ playlist pos (-1)) := by
  obtain ⟨rfl, hmod⟩ := hend
  have hcurrent := (currentMark_eq (Int.le_of_lt h) (Int.le_refl pos)).2
  rw [if_pos ⟨rfl, hmod⟩] at hcurrent
  have hinto : 5000000 < pos - wrap 32 (currentMark pos pos * chapterDuration) := by
    rw [hcurrent]
    by_cases hearly : pos / chapterDuration - 1 < 8
    · rw [early_mark (by unfold chapterDuration at *; omega) hearly]
      unfold chapterDuration at *
      omega
    · exact late_mark (Int.not_lt.mp hearly) (by unfold chapterDuration at *; omega)
  rw [target_back h (Int.le_of_lt h) (Int.le_refl pos) hmarks, if_pos hinto, hcurrent, SeeksMark,
    expectedMark, hmod]
  unfold chapterDuration at *
  simp
  omega

/-- **Backwards.** -/
theorem seeksMark_back (h : 0 < duration) (h0 : 0 ≤ pos) (hpos : pos ≤ duration)
    (hmarks : marks duration < 2147483648) :
    SeeksMark pos (-1) (chapterTarget ⟨[], duration⟩ playlist pos (-1)) ↔
      (pos < 8 * chapterDuration ∨ 5000000 < pos % chapterDuration ∨ AtEndMark duration pos) := by
  by_cases hend : AtEndMark duration pos
  · exact iff_of_true (seeksMark_end h hend hmarks) (Or.inr (Or.inr hend))
  · obtain ⟨hmark, hcurrent⟩ := currentMark_eq h0 hpos
    rw [if_neg hend] at hcurrent
    have hrest : pos - pos / chapterDuration * chapterDuration = pos % chapterDuration := by
      unfold chapterDuration
      omega
    rw [target_back h h0 hpos hmarks, hcurrent]
    by_cases hearly : pos < 8 * chapterDuration
    · refine iff_of_true ?_ (Or.inl hearly)
      rw [early_mark hmark (by unfold chapterDuration at *; omega), hrest]
      split
      · rename_i hinto
        rw [SeeksMark, expectedMark, if_neg (by decide), if_pos hinto]
        unfold chapterDuration at *
        omega
      · rename_i hinto
        split
        · cases playlist <;> simp [SeeksMark]
        · rw [SeeksMark, expectedMark, if_neg (by decide), if_neg hinto]
          unfold chapterDuration at *
          omega
    · rw [if_pos (late_mark (by unfold chapterDuration at *; omega)
        (by unfold chapterDuration at *; omega)), SeeksMark, expectedMark, if_neg (by decide)]
      unfold chapterDuration at *
      split <;> simp [hend] <;> omega

/-- **Seeking in a file without chapters.** -/
theorem chapterTarget_virtual_iff (h0 : 0 ≤ pos) (hpos : 0 < duration → pos ≤ duration)
    (hincr : incr = 1 ∨ incr = -1) :
    SeeksMark pos incr (chapterTarget ⟨[], duration⟩ playlist pos incr) ↔
      SeekableMark duration pos incr playlist := by
  unfold SeekableMark
  rcases Int.lt_or_le 0 duration with hknown | hknown
  · have hle := hpos hknown
    have hcount := marks_lt_iff hknown
    simp only [hknown, Int.not_le.mpr hknown, false_implies, true_and, forall_const]
    by_cases hmarks : marks duration < 2147483648
    · rcases hincr with rfl | rfl
      · simp [seeksMark_forward hknown h0 hle hmarks, hcount.mp hmarks]
      · simp [seeksMark_back hknown h0 hle hmarks, hcount.mp hmarks]
    · rw [chapterTarget, findChapter_overflow (Int.not_lt.mp hmarks)]
      simp [SeeksMark, mt hcount.mpr hmarks, bind, Except.bind]
  · simp only [hknown, Int.not_lt.mpr hknown, false_implies, and_true, forall_const]
    rcases hincr with rfl | rfl
    · rw [target_unknown hknown]
      cases playlist <;> simp [SeeksMark]
    · by_cases hle : pos ≤ 5000000
      · rw [target_unknown_back hknown h0 hle]
        cases playlist <;> simp [SeeksMark, hle]
      · obtain ⟨e, he⟩ := target_unknown_outside playlist hknown (Int.not_le.mp hle)
        rw [he]
        simp [SeeksMark, hle]

/-- Forwards in a file of ten minutes. -/
theorem chapterTarget_virtual_iff_ten_minutes :
    SeeksMark 100000000 1 (chapterTarget ⟨[], 600000000⟩ false 100000000 1) ↔
      SeekableMark 600000000 100000000 1 false :=
  chapterTarget_virtual_iff (by decide) (by decide) (Or.inl rfl)

/-- One second after the mark at forty minutes, the seek back goes to this mark, not to the one
before it. -/
theorem late_mark_repeats :
    ¬∀ (duration pos incr : Int) (playlist : Bool), 0 ≤ pos → (0 < duration → pos ≤ duration) →
      incr = 1 ∨ incr = -1 →
      SeeksMark pos incr (chapterTarget ⟨[], duration⟩ playlist pos incr) := by
  intro hclaim
  have hback := hclaim 3600000000 2401000000 (-1) false (by decide) (by decide) (Or.inr rfl)
  exact absurd ((seeksMark_back (by decide) (by decide) (by decide) (by decide)).mp hback)
    (by decide)

end Mediabox.Player
