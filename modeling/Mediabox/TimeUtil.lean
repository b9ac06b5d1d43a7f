import Mathlib.Tactic.Common

/-!
# Time arithmetic (`src/lib/time_util.c`)

`struct timespec` as a pair of integers and the functions on it that the timers use.  A value is
meant as the number of nanoseconds `ns`; on normalized values (`0 <= tv_nsec < 10^9`) the
comparisons, `timeadd` and `timediff` are those of the nanosecond counts.

Main result: `time_exact`.
-/

set_option autoImplicit false

namespace Mediabox

/-- `struct timespec`. -/
structure Timespec where
  sec : Int
  nsec : Int
  deriving DecidableEq, Repr

namespace Timespec

/-- The time in nanoseconds. -/
def ns (t : Timespec) : Int := t.sec * 1000000000 + t.nsec

def Normalized (t : Timespec) : Prop := 0 ≤ t.nsec ∧ t.nsec < 1000000000

instance (t : Timespec) : Decidable t.Normalized := inferInstanceAs (Decidable (_ ∧ _))

end Timespec

/-- `timelt`. -/
def timelt (time1 time2 : Timespec) : Bool :=
  if time1.sec < time2.sec then true
  else if time1.sec > time2.sec then false
  else if time1.nsec < time2.nsec then true
  else false

/-- `timelte`. -/
def timelte (time1 time2 : Timespec) : Bool :=
  if time1.sec = time2.sec ∧ time1.nsec = time2.nsec then true
  else timelt time1 time2

/-- `timegt`. -/
def timegt (time1 time2 : Timespec) : Bool := !timelte time1 time2

/-- `timegte`. -/
def timegte (time1 time2 : Timespec) : Bool := !timelt time1 time2

/-- `timeadd`. -/
def timeadd (time1 time2 : Timespec) : Timespec :=
  let nsec := time1.nsec + time2.nsec
  ⟨time1.sec + time2.sec + nsec.tdiv 1000000000, nsec.tmod 1000000000⟩

/-- `timediff`, for pointers that are not null: `end` minus `start`. -/
def timediff (start stop : Timespec) : Timespec :=
  if stop.nsec - start.nsec < 0 then
    ⟨(stop.sec - start.sec) - 1, 1000000000 + (stop.nsec - start.nsec)⟩
  else
    ⟨stop.sec - start.sec, stop.nsec - start.nsec⟩

/-- `timelt` compares the seconds first, whatever is in `tv_nsec`. -/
theorem timelt_iff_lex {a b : Timespec} :
    timelt a b = true ↔ a.sec < b.sec ∨ a.sec = b.sec ∧ a.nsec < b.nsec := by
  unfold timelt
  split
  · simp; omega
  · split
    · simp; omega
    · split <;> simp <;> omega

theorem timelte_iff_lex {a b : Timespec} :
    timelte a b = true ↔ a.sec < b.sec ∨ a.sec = b.sec ∧ a.nsec ≤ b.nsec := by
  unfold timelte
  split
  · simp; omega
  · rw [timelt_iff_lex]
    omega

theorem timelt_iff {a b : Timespec} (ha : a.Normalized) (hb : b.Normalized) :
    timelt a b = true ↔ a.ns < b.ns := by
  obtain ⟨ha0, ha1⟩ := ha
  obtain ⟨hb0, hb1⟩ := hb
  unfold timelt Timespec.ns
  split
  · simp; omega
  · split
    · simp; omega
    · split <;> simp <;> omega

theorem timegte_iff {a b : Timespec} (ha : a.Normalized) (hb : b.Normalized) :
    timegte a b = true ↔ b.ns ≤ a.ns := by
  rw [timegte, Bool.not_eq_true', Bool.eq_false_iff, ne_eq, timelt_iff ha hb, Int.not_lt]

theorem timelte_iff {a b : Timespec} (ha : a.Normalized) (hb : b.Normalized) :
    timelte a b = true ↔ a.ns ≤ b.ns := by
  unfold timelte
  split
  · rename_i heq
    simp [Timespec.ns, heq.1, heq.2]
  · rename_i hne
    rw [timelt_iff ha hb]
    obtain ⟨ha0, ha1⟩ := ha
    obtain ⟨hb0, hb1⟩ := hb
    have hns : a.ns ≠ b.ns := by
      intro heq
      unfold Timespec.ns at heq
      exact hne ⟨by omega, by omega⟩
    omega

theorem timegt_iff {a b : Timespec} (ha : a.Normalized) (hb : b.Normalized) :
    timegt a b = true ↔ b.ns < a.ns := by
  rw [timegt, Bool.not_eq_true', Bool.eq_false_iff, ne_eq, timelte_iff ha hb, Int.not_le]

theorem ns_timediff (a b : Timespec) : (timediff a b).ns = b.ns - a.ns := by
  unfold timediff Timespec.ns
  split <;> dsimp only <;> omega

theorem timediff_normalized {a b : Timespec} (ha : a.Normalized) (hb : b.Normalized) :
    (timediff a b).Normalized := by
  obtain ⟨ha0, ha1⟩ := ha
  obtain ⟨hb0, hb1⟩ := hb
  unfold timediff Timespec.Normalized
  split <;> dsimp only <;> omega

variable {a b : Timespec}

theorem Timespec.ns_inj (ha : a.Normalized) (hb : b.Normalized) (h : a.ns = b.ns) : a = b := by
  obtain ⟨ha0, ha1⟩ := ha
  obtain ⟨hb0, hb1⟩ := hb
  obtain ⟨asec, ansec⟩ := a
  obtain ⟨bsec, bnsec⟩ := b
  unfold ns at h
  dsimp only at *
  rw [Timespec.mk.injEq]
  omega

/-- The sum is exact: what the division takes from `tv_nsec` is added to `tv_sec`. -/
theorem ns_timeadd (a b : Timespec) : (timeadd a b).ns = a.ns + b.ns := by
  have hsplit := Int.mul_tdiv_add_tmod (a.nsec + b.nsec) 1000000000
  unfold timeadd Timespec.ns
  dsimp only
  omega

theorem timeadd_normalized (ha : 0 ≤ a.nsec) (hb : 0 ≤ b.nsec) : (timeadd a b).Normalized := by
  have hsum : 0 ≤ a.nsec + b.nsec := Int.add_nonneg ha hb
  exact ⟨Int.tmod_nonneg _ hsum, Int.tmod_lt_of_pos _ (by decide)⟩

/-- **Time arithmetic is exact**: on normalized values the comparisons are those of the nanosecond
    counts, sums and differences are theirs and normalized, and adding a difference gives back the
    later time. -/
theorem time_exact (ha : a.Normalized) (hb : b.Normalized) :
    ((timelt a b = true ↔ a.ns < b.ns) ∧ (timelte a b = true ↔ a.ns ≤ b.ns) ∧
      (timegt a b = true ↔ a.ns > b.ns) ∧ (timegte a b = true ↔ a.ns ≥ b.ns)) ∧
    ((timeadd a b).ns = a.ns + b.ns ∧ (timeadd a b).Normalized) ∧
    ((timediff a b).ns = b.ns - a.ns ∧ (timediff a b).Normalized) ∧
    timeadd a (timediff a b) = b := by
  have hdiff := timediff_normalized ha hb
  refine ⟨⟨timelt_iff ha hb, timelte_iff ha hb, timegt_iff ha hb, timegte_iff ha hb⟩,
    ⟨ns_timeadd a b, timeadd_normalized ha.1 hb.1⟩, ⟨ns_timediff a b, hdiff⟩, ?_⟩
  apply Timespec.ns_inj (timeadd_normalized ha.1 hdiff.1) hb
  rw [ns_timeadd, ns_timediff]
  omega

/-- A difference that is negative, with a borrow. -/
theorem time_exact_borrow :
    timediff ⟨5, 100⟩ ⟨3, 50⟩ = ⟨-3, 999999950⟩ ∧
      timeadd ⟨5, 100⟩ (timediff ⟨5, 100⟩ ⟨3, 50⟩) = ⟨3, 50⟩ :=
  ⟨by decide, (time_exact (a := ⟨5, 100⟩) (b := ⟨3, 50⟩) (by decide) (by decide)).2.2.2⟩

end Mediabox
