import Mathlib.Data.Int.Log
import Mathlib.Data.Rat.Floor
import Mathlib.Tactic.Linarith
import Mathlib.Tactic.Positivity
import Mathlib.Tactic.FieldSimp
import Mathlib.Tactic.Ring

/-!
# Double precision numbers

The numbers of the type `double` are rationals, and the result of an operation is the exact one
rounded to 53 binary digits, to nearest and to even.  Exponents have no bounds here: the rules are
for numbers that are neither tiny nor huge.

* `round` — the rounding; `round_error` is its relative error.
* `round_natCast` — natural numbers below `2 ^ 53` are doubles.
* `floor_round_div` — the quotient of two natural numbers is not rounded up to the next whole number
  where the dividend is below `2 ^ 53`.
-/

set_option autoImplicit false

namespace Double

/-- The nearest integer, and between two of them the even one. -/
def roundEven (x : ℚ) : ℤ :=
  if x - ⌊x⌋ < 1 / 2 then ⌊x⌋
  else if 1 / 2 < x - ⌊x⌋ then ⌊x⌋ + 1
  else if ⌊x⌋ % 2 = 0 then ⌊x⌋ else ⌊x⌋ + 1

/-- What the last of the 53 digits counts. -/
def ulp (x : ℚ) : ℚ := 2 ^ (Int.log 2 |x| - 52)

/-- The double nearest to a number. -/
def round (x : ℚ) : ℚ := roundEven (x / ulp x) * ulp x

variable {x : ℚ} {a b n : ℕ}

theorem roundEven_intCast (n : ℤ) : roundEven n = n := by
  unfold roundEven
  rw [if_pos (by rw [Int.floor_intCast, sub_self]; norm_num), Int.floor_intCast]

theorem roundEven_sub_le (x : ℚ) : |(roundEven x : ℚ) - x| ≤ 1 / 2 := by
  have hle := Int.floor_le x
  have hlt := Int.lt_floor_add_one x
  unfold roundEven
  rw [abs_le]
  split
  · constructor <;> linarith
  · split
    · push_cast
      constructor <;> linarith
    · split
      · constructor <;> linarith
      · push_cast
        constructor <;> linarith

theorem ulp_pos (x : ℚ) : 0 < ulp x := zpow_pos (by norm_num) _

theorem ulp_le (hx : x ≠ 0) : ulp x ≤ |x| / 2 ^ 52 := by
  have hlog : ((2 : ℕ) : ℚ) ^ Int.log 2 |x| ≤ |x| :=
    Int.zpow_log_le_self (by norm_num) (abs_pos.mpr hx)
  rw [ulp, zpow_sub₀ (by norm_num)]
  push_cast at hlog
  gcongr
  norm_num

/-- **The relative error** of an operation. -/
theorem round_error (x : ℚ) : |round x - x| ≤ |x| / 2 ^ 53 := by
  rcases eq_or_ne x 0 with rfl | hx
  · have hzero : roundEven 0 = 0 := roundEven_intCast 0
    simp [round, hzero]
  · have hu := ulp_pos x
    have herror := roundEven_sub_le (x / ulp x)
    have hdiff : round x - x = (roundEven (x / ulp x) - x / ulp x) * ulp x := by
      unfold round
      field_simp
    calc |round x - x| = |(roundEven (x / ulp x) : ℚ) - x / ulp x| * ulp x := by
          rw [hdiff, abs_mul, abs_of_pos hu]
      _ ≤ 1 / 2 * (|x| / 2 ^ 52) := by
          gcongr
          exact ulp_le hx
      _ = |x| / 2 ^ 53 := by ring

theorem round_natCast (hn : n < 2 ^ 53) : round (n : ℚ) = n := by
  rcases Nat.eq_zero_or_pos n with rfl | hpos
  · have hzero : roundEven 0 = 0 := roundEven_intCast 0
    simp [round, hzero]
  · have hlog : Int.log 2 |(n : ℚ)| ≤ 52 := by
      rw [abs_of_nonneg (Nat.cast_nonneg n), Int.log_natCast]
      have hlt : Nat.log 2 n < 53 := Nat.log_lt_of_lt_pow (by omega) hn
      omega
    obtain ⟨k, hk⟩ : ∃ k : ℕ, 52 - Int.log 2 |(n : ℚ)| = k :=
      ⟨(52 - Int.log 2 |(n : ℚ)|).toNat, by omega⟩
    have hulp : ulp (n : ℚ) = (2 ^ k)⁻¹ := by
      rw [ulp, ← neg_sub, hk, zpow_neg, zpow_natCast]
    have hint : (n : ℚ) / ulp n = ((n * 2 ^ k : ℤ) : ℚ) := by
      rw [hulp, div_inv_eq_mul]
      push_cast
      rfl
    rw [round, hint, roundEven_intCast, hulp]
    push_cast
    field_simp

theorem half_le_round (hx : 0 ≤ x) : x / 2 ≤ round x := by
  have herror := (abs_le.mp (round_error x)).1
  rw [abs_of_nonneg hx] at herror
  have hsmall : x / 2 ^ 53 ≤ x / 2 := by gcongr; norm_num
  linarith

/-- **Quotients** are not rounded across a whole number. -/
theorem floor_round_div (ha : a < 2 ^ 53) (hb : 0 < b) :
    ⌊round ((a : ℚ) / b)⌋ = ((a / b : ℕ) : ℤ) := by
  have hbq : (0 : ℚ) < b := Nat.cast_pos.mpr hb
  have haq : (a : ℚ) < 2 ^ 53 := by exact_mod_cast ha
  have hq : (0 : ℚ) ≤ (a : ℚ) / b := by positivity
  -- the error is less than the distance to a whole number that is not the quotient
  have herror : |round ((a : ℚ) / b) - a / b| < 1 / b := by
    calc |round ((a : ℚ) / b) - a / b| ≤ |(a : ℚ) / b| / 2 ^ 53 := round_error _
      _ = (a / 2 ^ 53) / b := by
          rw [abs_of_nonneg hq]
          ring
      _ < 1 / b := by
          gcongr
          rw [div_lt_one (by norm_num)]
          exact haq
  obtain ⟨hlow, hhigh⟩ := abs_lt.mp herror
  have hsplit : (a : ℚ) = b * (a / b : ℕ) + (a % b : ℕ) := by
    exact_mod_cast (Nat.div_add_mod a b).symm
  have hquot : (a : ℚ) / b = (a / b : ℕ) + (a % b : ℕ) / b := by
    rw [div_eq_iff hbq.ne', add_mul, div_mul_cancel₀ _ hbq.ne', mul_comm]
    exact hsplit
  have hmod : ((a % b : ℕ) : ℚ) / b + 1 / b ≤ 1 := by
    rw [← add_div, div_le_one hbq]
    exact_mod_cast Nat.mod_lt a hb
  rw [Int.floor_eq_iff, Int.cast_natCast]
  constructor
  · rcases Nat.eq_zero_or_pos (a % b) with hzero | hpos
    · rw [hzero, Nat.cast_zero, zero_div, add_zero] at hquot
      rw [hquot, round_natCast (Nat.lt_of_le_of_lt (Nat.div_le_self a b) ha)]
    · have hrest : 1 / (b : ℚ) ≤ (a % b : ℕ) / b := by
        gcongr
        exact_mod_cast hpos
      linarith
  · linarith

end Double
