import Mathlib.Algebra.Order.Ring.Int
import Mediabox.Lib.Outcome

/-!
# Signed integers of a fixed width

Two's complement numbers of `w` bits as integers in a range.

* `wrap` — what a conversion to the type makes of an integer: the number in the range
  (`wrap_inRange`) that differs by a multiple of `2 ^ w` (`dvd_wrap_sub`), so the integer itself
  where it is in the range already (`wrap_eq_self_iff`).
* `arith` — the result of an operation on the type, for which leaving the range is a fault
  (`ensures_arith` is its postcondition).
* `quotient` — division in the type, truncated towards zero (`ensures_quotient`).
* `size` — what a conversion to `size_t` makes of an integer.
-/

set_option autoImplicit false

namespace MachineInt

inductive Fault where
  | divisor
  | overflow
  deriving DecidableEq, Repr

/-- The values of the signed type of `w` bits. -/
def InRange (w : Nat) (x : Int) : Prop := -2 ^ (w - 1) ≤ x ∧ x < 2 ^ (w - 1)

instance (w : Nat) (x : Int) : Decidable (InRange w x) := inferInstanceAs (Decidable (_ ∧ _))

/-- A conversion to the signed type of `w` bits. -/
def wrap (w : Nat) (x : Int) : Int := x.bmod (2 ^ w)

/-- The result `x` of an operation of the signed type of `w` bits, or the fault `e`. -/
def arith {ε : Type*} (w : Nat) (e : ε) (x : Int) : Except ε Int :=
  if InRange w x then .ok x else .error e

/-- The quotient of the signed type of `w` bits, truncated towards zero. -/
def quotient (w : Nat) (x y : Int) : Except Fault Int :=
  if y = 0 then .error .divisor else arith w .overflow (x.tdiv y)

variable {ε : Type*} {e : ε} {w : Nat} {x y : Int}

theorem inRange_32 : InRange 32 x ↔ -2147483648 ≤ x ∧ x < 2147483648 := Iff.rfl

theorem inRange_64 : InRange 64 x ↔ -9223372036854775808 ≤ x ∧ x < 9223372036854775808 := Iff.rfl

/-- The range is that of the balanced residues modulo `2 ^ w`. -/
theorem inRange_iff (hw : 0 < w) :
    InRange w x ↔ -(((2 ^ w : Nat) : Int) / 2) ≤ x ∧ x < (((2 ^ w : Nat) : Int) + 1) / 2 := by
  cases w with
  | zero => exact absurd hw (Nat.lt_irrefl 0)
  | succ n =>
    have hpow : ((2 ^ (n + 1) : Nat) : Int) = 2 * 2 ^ n := by
      rw [Nat.pow_succ, Nat.mul_comm]
      push_cast
      rfl
    rw [hpow, InRange, Nat.add_sub_cancel]
    omega

theorem wrap_inRange (hw : 0 < w) (x : Int) : InRange w (wrap w x) :=
  (inRange_iff hw).mpr ⟨Int.le_bmod (Nat.two_pow_pos w), Int.bmod_lt (Nat.two_pow_pos w)⟩

/-- A conversion changes a number by a multiple of `2 ^ w`. -/
theorem dvd_wrap_sub (w : Nat) (x : Int) : (2 ^ w : Int) ∣ wrap w x - x := by
  have h : ((2 ^ w : Nat) : Int) ∣ x.bmod (2 ^ w) - x := Int.dvd_bmod_sub_self
  push_cast at h
  exact h

theorem wrap_of_inRange (hw : 0 < w) (h : InRange w x) : wrap w x = x :=
  Int.bmod_eq_of_le ((inRange_iff hw).mp h).1 ((inRange_iff hw).mp h).2

theorem wrap_eq_self_iff (hw : 0 < w) : wrap w x = x ↔ InRange w x :=
  ⟨fun h => h ▸ wrap_inRange hw x, wrap_of_inRange hw⟩

theorem wrap_natCast_32 {n : Nat} (h : n < 2 ^ 31) : wrap 32 n = n :=
  wrap_of_inRange (by decide) (inRange_32.mpr (by omega))

/-- A conversion of a number above the range takes at least `2 ^ w` from it. -/
theorem wrap_add_le (hw : 0 < w) (h : 2 ^ (w - 1) ≤ x) : wrap w x + 2 ^ w ≤ x := by
  have hlt := (wrap_inRange hw x).2
  have hdvd : (2 ^ w : Int) ∣ x - wrap w x := by
    rw [← Int.neg_sub]
    exact Int.dvd_neg.mpr (dvd_wrap_sub w x)
  have hle := Int.le_of_dvd (by omega) hdvd
  omega

theorem wrap_le (hw : 0 < w) (h : 0 ≤ x) : wrap w x ≤ x := by
  have hpos : (0 : Int) ≤ 2 ^ w := Int.pow_nonneg (by decide)
  have hpos' : (0 : Int) ≤ 2 ^ (w - 1) := Int.pow_nonneg (by decide)
  by_cases hlt : x < 2 ^ (w - 1)
  · exact Int.le_of_eq (wrap_of_inRange hw ⟨by omega, hlt⟩)
  · have hle := wrap_add_le hw (Int.not_lt.mp hlt)
    omega

/-- A conversion to `size_t`. -/
def size (x : Int) : Nat := (x % 2 ^ 64).toNat

theorem size_natCast {n : Nat} (h : n < 2 ^ 64) : size n = n := by
  rw [size, Int.emod_eq_of_lt (by omega) (by omega), Int.toNat_natCast]

theorem arith_ok (h : InRange w x) : arith w e x = .ok x := if_pos h

/-- The quotient of numbers that are not negative is the integer part. -/
theorem quotient_ok (hx : 0 ≤ x) (hy : 0 < y) (h : InRange w (x / y)) :
    quotient w x y = .ok (x / y) := by
  rw [quotient, if_neg (by omega), Int.tdiv_eq_ediv_of_nonneg hx, arith_ok h]

theorem arith_error (h : ¬InRange w x) : arith w e x = .error e := if_neg h

theorem ensures_arith {R : Int → Prop} :
    Outcome.Ensures (arith w e x) R (fun _ => False) ↔ InRange w x ∧ R x := by
  unfold arith
  rw [Outcome.ensures_ite]
  by_cases hrange : InRange w x <;> simp [hrange]

theorem ensures_quotient {R : Int → Prop} :
    Outcome.Ensures (quotient w x y) R (fun _ => False) ↔
      y ≠ 0 ∧ InRange w (x.tdiv y) ∧ R (x.tdiv y) := by
  unfold quotient
  split
  · rename_i hzero
    simp [hzero]
  · rename_i hne
    simp [hne, ensures_arith]

end MachineInt
