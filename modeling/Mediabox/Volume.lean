import Mathlib.Tactic.Linarith
import Mathlib.Tactic.Ring
import Mediabox.Lib.MachineInt

/-!
# The volume (`src/lib/volume.c`, `src/shell.c`)

Percents and raw volumes of the mixer, and the two keys that change the volume by five percent.
`long` has 64 bits.

* `Card` — the range that ALSA reports, and what it stores for a request; a request in the range is
  stored as it is.
* The element was found, and the calls of ALSA succeed.  The switch of the card, the message and the
  setting that is saved are left out.

Main result: `covers_iff`.
-/

set_option autoImplicit false

namespace Mediabox.Volume

open MachineInt

/-! ## The code -/

structure Card where
  min : Int
  max : Int
  lt : min < max
  inRange : InRange 64 min ∧ InRange 64 max
  /-- the raw volume after a request, and before -/
  store : Int → Int → Int
  store_inRange : ∀ request raw, min ≤ request → request ≤ max → store request raw = request

variable (card : Card)

/-- `avbox_volume_get` -/
def volumeGet (volume : Int) : Except Fault Int := do
  let scaled ← arith 64 .overflow (volume * 100)
  let percent ← quotient 64 scaled card.max
  .ok (wrap 32 percent)

/-- The raw volume that `avbox_volume_set` requests. -/
def request (volume : Int) : Except Fault Int := do
  let scaled ← arith 64 .overflow (volume * card.max)
  quotient 64 scaled 100

/-- `avbox_volume_set` -/
def volumeSet (raw volume : Int) : Except Fault Int := do
  let request ← request card volume
  .ok (card.store request raw)

/-- `MBI_EVENT_VOLUME_UP` -/
def volumeUp (raw : Int) : Except Fault Int := do
  let volume ← volumeGet card raw
  let volume ← arith 32 .overflow (volume + 5)
  volumeSet card raw (if volume > 100 then 100 else volume)

/-- `MBI_EVENT_VOLUME_DOWN` -/
def volumeDown (raw : Int) : Except Fault Int := do
  let volume ← volumeGet card raw
  let volume ← arith 32 .overflow (volume - 5)
  volumeSet card raw (if volume < 0 then 0 else volume)

/-- A key pressed so many times. -/
def presses (key : Int → Except Fault Int) : Nat → Int → Except Fault Int
  | 0, raw => .ok raw
  | n + 1, raw => do
    let raw ← key raw
    presses key n raw

/-! ## What it is for -/

/-- The percents cover the range of the mixer. -/
structure Covers : Prop where
  low : request card 0 = .ok card.min
  high : request card 100 = .ok card.max
  set : ∀ v, 0 ≤ v → v ≤ 100 → ∃ r, request card v = .ok r ∧ card.min ≤ r ∧ r ≤ card.max
  mono : ∀ v v' r r', 0 ≤ v → v ≤ v' → v' ≤ 100 → request card v = .ok r →
    request card v' = .ok r' → r ≤ r'
  get : ∀ raw, card.min ≤ raw → raw ≤ card.max →
    ∃ p, volumeGet card raw = .ok p ∧ 0 ≤ p ∧ p ≤ 100
  up : ∀ raw, card.min ≤ raw → raw ≤ card.max →
    ∃ n r, presses (volumeUp card) n raw = .ok r ∧ volumeGet card r = .ok 100
  down : ∀ raw, card.min ≤ raw → raw ≤ card.max →
    ∃ n r, presses (volumeDown card) n raw = .ok r ∧ volumeGet card r = .ok 0

variable {card} {M raw v : Int}

/-! ## Whole percents -/

/-- The percents of a raw volume. -/
def percentOf (M raw : Int) : Int := raw * 100 / M

/-- The raw volume of some percents. -/
def rawOf (M v : Int) : Int := v * M / 100

theorem percentOf_bounds (raw : Int) (hM : 0 < M) :
    percentOf M raw * M ≤ raw * 100 ∧ raw * 100 < percentOf M raw * M + M := by
  refine ⟨Int.ediv_mul_le _ hM.ne', ?_⟩
  have hlt := Int.lt_ediv_add_one_mul_self (raw * 100) hM
  rw [add_mul, one_mul] at hlt
  exact hlt

theorem percentOf_mem (hM : 0 < M) (h0 : 0 ≤ raw) (hle : raw ≤ M) :
    0 ≤ percentOf M raw ∧ percentOf M raw ≤ 100 := by
  refine ⟨Int.ediv_nonneg (by omega) hM.le, Int.lt_add_one_iff.mp ?_⟩
  rw [percentOf, Int.ediv_lt_iff_lt_mul hM]
  omega

theorem percentOf_max (hM : 0 < M) : percentOf M M = 100 := by
  rw [percentOf, mul_comm]
  exact Int.mul_ediv_cancel _ hM.ne'

theorem rawOf_mono (hM : 0 < M) {v' : Int} (h : v ≤ v') : rawOf M v ≤ rawOf M v' :=
  Int.ediv_le_ediv (by decide) (mul_le_mul_of_nonneg_right h hM.le)

theorem rawOf_hundred : rawOf M 100 = M := Int.mul_ediv_cancel_left _ (by decide)

theorem rawOf_zero : rawOf M 0 = 0 := by rw [rawOf, zero_mul, Int.zero_ediv]

theorem rawOf_mem (hM : 0 < M) (h0 : 0 ≤ v) (hle : v ≤ 100) : 0 ≤ rawOf M v ∧ rawOf M v ≤ M :=
  ⟨rawOf_zero.symm.le.trans (rawOf_mono hM h0), (rawOf_mono hM hle).trans rawOf_hundred.le⟩

/-- **A step up** on a card on which five percent are always enough for one raw volume. -/
theorem lt_rawOf_up (hM : M = 20 ∨ 24 ≤ M) : raw < rawOf M (percentOf M raw + 5) := by
  have hpos : 0 < M := by omega
  obtain ⟨hlo, hhi⟩ := percentOf_bounds raw hpos
  rw [← Int.add_one_le_iff, rawOf, Int.le_ediv_iff_mul_le (by decide), add_mul (percentOf M raw)]
  rcases hM with rfl | hM
  · omega
  · rcases hM.eq_or_lt with rfl | hM
    · omega
    · omega

/-- **A step down** on any card. -/
theorem rawOf_down_lt (hM : 0 < M) : rawOf M (percentOf M raw - 5) < raw := by
  obtain ⟨hlo, -⟩ := percentOf_bounds raw hM
  rw [rawOf, Int.ediv_lt_iff_lt_mul (by decide), sub_mul]
  omega

/-! ## Cards whose volumes begin at zero -/

/-- A range from zero to `M`, in which no product overflows. -/
structure FromZero (card : Card) (M : Int) : Prop where
  low : card.min = 0
  high : card.max = M
  pos : 0 < M
  product : 100 * M < 2 ^ 63

theorem FromZero.get (h : FromZero card M) (h0 : 0 ≤ raw) (hle : raw ≤ M) :
    volumeGet card raw = .ok (percentOf M raw) := by
  have hproduct := h.product
  have hmem := percentOf_mem h.pos h0 hle
  unfold percentOf at hmem ⊢
  rw [volumeGet, arith_ok (inRange_64.mpr (by omega)), h.high]
  simp only [bind, Except.bind]
  rw [quotient_ok (by omega) h.pos (inRange_64.mpr (by omega))]
  exact congrArg Except.ok (wrap_of_inRange (by decide) (inRange_32.mpr (by omega)))

theorem FromZero.request (h : FromZero card M) (h0 : 0 ≤ v) (hle : v ≤ 100) :
    request card v = .ok (rawOf M v) := by
  have hproduct := h.product
  have hpos := h.pos
  have hscaled : 0 ≤ v * M ∧ v * M ≤ 100 * M :=
    ⟨mul_nonneg h0 hpos.le, mul_le_mul_of_nonneg_right hle hpos.le⟩
  have hmem := rawOf_mem hpos h0 hle
  unfold rawOf at hmem ⊢
  rw [Volume.request, h.high, arith_ok (inRange_64.mpr (by omega))]
  simp only [bind, Except.bind]
  exact quotient_ok hscaled.1 (by decide) (inRange_64.mpr (by omega))

theorem FromZero.set (h : FromZero card M) (h0 : 0 ≤ v) (hle : v ≤ 100) :
    volumeSet card raw v = .ok (rawOf M v) := by
  have hmem := rawOf_mem h.pos h0 hle
  have hstore : card.store (rawOf M v) raw = rawOf M v :=
    card.store_inRange _ _ (h.low ▸ hmem.1) (h.high ▸ hmem.2)
  rw [volumeSet, h.request h0 hle]
  exact congrArg Except.ok hstore

theorem FromZero.up (h : FromZero card M) (h0 : 0 ≤ raw) (hle : raw ≤ M) :
    volumeUp card raw = .ok (rawOf M (min 100 (percentOf M raw + 5))) := by
  have hmem := percentOf_mem h.pos h0 hle
  rw [volumeUp, h.get h0 hle]
  simp only [bind, Except.bind]
  rw [arith_ok (inRange_32.mpr (by omega))]
  have hcapped : (if percentOf M raw + 5 > 100 then 100 else percentOf M raw + 5) =
      min 100 (percentOf M raw + 5) := by
    split <;> omega
  simp only [hcapped]
  exact h.set (by omega) (by omega)

theorem FromZero.down (h : FromZero card M) (h0 : 0 ≤ raw) (hle : raw ≤ M) :
    volumeDown card raw = .ok (rawOf M (max 0 (percentOf M raw - 5))) := by
  have hmem := percentOf_mem h.pos h0 hle
  rw [volumeDown, h.get h0 hle]
  simp only [bind, Except.bind]
  rw [arith_ok (inRange_32.mpr (by omega))]
  have hcapped : (if percentOf M raw - 5 < 0 then 0 else percentOf M raw - 5) =
      max 0 (percentOf M raw - 5) := by
    split <;> omega
  simp only [hcapped]
  exact h.set (by omega) (by omega)

/-- **Keys that make progress**: each press lowers the measure, until it is 0. -/
theorem presses_reach {key : Int → Except Fault Int} (measure : Int → Nat) (good : Int → Prop)
    (hkey : ∀ raw, good raw → 0 < measure raw →
      ∃ raw', key raw = .ok raw' ∧ good raw' ∧ measure raw' < measure raw)
    (raw : Int) (hraw : good raw) :
    ∃ n r, presses key n raw = .ok r ∧ good r ∧ measure r = 0 := by
  induction hm : measure raw using Nat.strong_induction_on generalizing raw with
  | _ m ih =>
    rcases Nat.eq_zero_or_pos m with rfl | hpos
    · exact ⟨0, raw, rfl, hraw, hm⟩
    · obtain ⟨raw', hpress, hgood, hlt⟩ := hkey raw hraw (hm ▸ hpos)
      obtain ⟨n, r, hn, hr⟩ := ih (measure raw') (hm ▸ hlt) raw' hgood rfl
      refine ⟨n + 1, r, ?_, hr⟩
      rw [presses, hpress]
      exact hn

theorem presses_stuck {key : Int → Except Fault Int} (h : key raw = .ok raw) (n : Nat) :
    presses key n raw = .ok raw := by
  induction n with
  | zero => rfl
  | succ n ih =>
    rw [presses, h]
    exact ih

/-! ## Which cards are covered -/

theorem FromZero.presses_up (h : FromZero card M) (hM : M = 20 ∨ 24 ≤ M) (h0 : 0 ≤ raw)
    (hle : raw ≤ M) : ∃ n, presses (volumeUp card) n raw = .ok M := by
  obtain ⟨n, r, hn, hr, hmeasure⟩ := presses_reach (fun raw => (M - raw).toNat)
    (fun raw => 0 ≤ raw ∧ raw ≤ M)
    (fun raw ⟨h0, hle⟩ hlt => by
      have hp := percentOf_mem h.pos h0 hle
      have hmem : 0 ≤ rawOf M (min 100 (percentOf M raw + 5)) ∧
          rawOf M (min 100 (percentOf M raw + 5)) ≤ M := rawOf_mem h.pos (by omega) (by omega)
      have hrises : raw < rawOf M (min 100 (percentOf M raw + 5)) := by
        rcases le_total (percentOf M raw + 5) 100 with hcap | hcap
        · rw [min_eq_right hcap]
          exact lt_rawOf_up hM
        · rw [min_eq_left hcap, rawOf_hundred]
          omega
      exact ⟨_, h.up h0 hle, hmem, by omega⟩) raw ⟨h0, hle⟩
  obtain rfl : r = M := by omega
  exact ⟨n, hn⟩

theorem FromZero.presses_down (h : FromZero card M) (h0 : 0 ≤ raw) (hle : raw ≤ M) :
    ∃ n, presses (volumeDown card) n raw = .ok 0 := by
  obtain ⟨n, r, hn, hr, hmeasure⟩ := presses_reach Int.toNat (fun raw => 0 ≤ raw ∧ raw ≤ M)
    (fun raw ⟨h0, hle⟩ hlt => by
      have hp := percentOf_mem h.pos h0 hle
      have hmem : 0 ≤ rawOf M (max 0 (percentOf M raw - 5)) ∧
          rawOf M (max 0 (percentOf M raw - 5)) ≤ M := rawOf_mem h.pos (by omega) (by omega)
      have hfalls : rawOf M (max 0 (percentOf M raw - 5)) < raw := by
        rcases le_total 0 (percentOf M raw - 5) with hcap | hcap
        · rw [max_eq_right hcap]
          exact rawOf_down_lt h.pos
        · rw [max_eq_left hcap, rawOf_zero]
          omega
      exact ⟨_, h.down h0 hle, hmem, by omega⟩) raw ⟨h0, hle⟩
  obtain rfl : r = 0 := by omega
  exact ⟨n, hn⟩

/-- On any other card a step up does nothing somewhere. -/
theorem exists_stuck (hpos : 0 < M) (hM : ¬(M = 20 ∨ 24 ≤ M)) :
    ∃ raw, 0 ≤ raw ∧ raw ≤ M ∧ rawOf M (min 100 (percentOf M raw + 5)) = raw ∧
      percentOf M raw ≠ 100 := by
  rcases lt_or_ge M 20 with hlt | hge
  · refine ⟨0, le_refl _, hpos.le, ?_, ?_⟩
    · rw [percentOf, zero_mul, Int.zero_ediv, zero_add, min_eq_right (by decide), rawOf]
      omega
    · rw [percentOf, zero_mul, Int.zero_ediv]
      decide
  · obtain rfl | rfl | rfl : M = 21 ∨ M = 22 ∨ M = 23 := by omega
    · exact ⟨1, by decide⟩
    · exact ⟨1, by decide⟩
    · exact ⟨20, by decide⟩

theorem request_zero (card : Card) : request card 0 = .ok 0 := by
  rw [request, zero_mul, arith_ok (by decide)]
  rfl

/-- **The volume**: the percents cover the range of a card if and only if the range begins at zero,
    a hundred times its end is a `long`, and its end is 20 or at least 24. -/
theorem covers_iff (card : Card) :
    Covers card ↔ card.min = 0 ∧ 100 * card.max < 2 ^ 63 ∧ (card.max = 20 ∨ 24 ≤ card.max) := by
  constructor
  · intro h
    have hmin : card.min = 0 := by
      have hlow := h.low
      rw [request_zero, Except.ok.injEq] at hlow
      exact hlow.symm
    have hpos : 0 < card.max := hmin ▸ card.lt
    have hproduct : InRange 64 (100 * card.max) := by
      by_contra hrange
      have hhigh := h.high
      rw [request, arith_error hrange] at hhigh
      cases hhigh
    rw [inRange_64] at hproduct
    have hzero : FromZero card card.max := ⟨hmin, rfl, hpos, by omega⟩
    refine ⟨hmin, hzero.product, ?_⟩
    by_contra hM
    obtain ⟨raw, h0, hle, hstuck, hpercent⟩ := exists_stuck hpos hM
    obtain ⟨n, r, hn, hget⟩ := h.up raw (hmin ▸ h0) hle
    have hkey : volumeUp card raw = .ok raw := (hzero.up h0 hle).trans (congrArg _ hstuck)
    rw [presses_stuck hkey n, Except.ok.injEq] at hn
    rw [← hn, hzero.get h0 hle, Except.ok.injEq] at hget
    exact hpercent hget
  · rintro ⟨hmin, hproduct, hM⟩
    have hpos : 0 < card.max := by omega
    have h : FromZero card card.max := ⟨hmin, rfl, hpos, hproduct⟩
    refine ⟨?_, ?_, ?_, ?_, ?_, ?_, ?_⟩
    · rw [request_zero, hmin]
    · rw [h.request (by decide) (by decide), rawOf_hundred]
    · intro v h0 hle
      exact ⟨_, h.request h0 hle, hmin ▸ (rawOf_mem hpos h0 hle).1, (rawOf_mem hpos h0 hle).2⟩
    · intro v v' r r' h0 hle hle' hr hr'
      rw [h.request h0 (hle.trans hle'), Except.ok.injEq] at hr
      rw [h.request (h0.trans hle) hle', Except.ok.injEq] at hr'
      exact hr ▸ hr' ▸ rawOf_mono hpos hle
    · intro raw h0 hle
      rw [hmin] at h0
      exact ⟨_, h.get h0 hle, percentOf_mem hpos h0 hle⟩
    · intro raw h0 hle
      obtain ⟨n, hn⟩ := h.presses_up hM (hmin ▸ h0) hle
      exact ⟨n, _, hn, by rw [h.get hpos.le (le_refl _), percentOf_max hpos]⟩
    · intro raw h0 hle
      obtain ⟨n, hn⟩ := h.presses_down (hmin ▸ h0) hle
      exact ⟨n, _, hn, by rw [h.get (le_refl _) hpos.le, percentOf, zero_mul, Int.zero_ediv]⟩

/-- A range of decibels in hundredths, from -102.39 to 4. -/
def decibels : Card where
  min := -10239
  max := 400
  lt := by decide
  inRange := by decide
  store request raw := if -10239 ≤ request ∧ request ≤ 400 then request else raw
  store_inRange request raw hlo hhi := if_pos ⟨hlo, hhi⟩

/-- A volume of 0 percent requests the raw volume 0 of a range that begins far below. -/
theorem decibels_not_covered : request decibels 0 = .ok 0 ∧ ¬Covers decibels :=
  ⟨by decide, fun h => by
    have hlow := h.low
    revert hlow
    decide⟩

end Mediabox.Volume
