import Mediabox.AudioLocks
import Mediabox.Lib.Double
import Mediabox.Lib.MachineInt
import Mediabox.TimeUtil

/-!
# How long the output thread waits (`src/lib/audio.c`, `src/lib/queue.c`, `src/lib/time_util.c`)

The frames in the device become a `double` of microseconds, an `int64_t`, and the deadline of
`pthread_cond_timedwait`; `avbox_queue_getnode` takes a timeout of 0 for none.

* `frames2time_eq` — the microseconds are those of the exact quotient, rounded down, where the
  frames times a million are below `2 ^ 53`: at 48 kHz that is more than two days of sound.
* `deadline_iff` — a wait has a deadline when the timeout is not 0 and its nanoseconds fit.
* The seconds of a clock do not leave a `time_t`.

Main result: `underrun_noticed_iff` — an underrun is noticed in time if and only if the sound in the
device lasts a microsecond.
-/

set_option autoImplicit false

namespace Mediabox.AudioTimeout

open AudioLocks MachineInt

/-- What ALSA says of the device. -/
structure Device where
  /-- `buffer_size`, an `unsigned long` -/
  bufferSize : Nat
  /-- `framerate`, an `unsigned int` -/
  framerate : Nat
  bufferSize_lt : bufferSize < 2 ^ 64
  framerate_lt : framerate < 2 ^ 32

/-- `struct timeval`, as `gettimeofday` fills it. -/
structure Timeval where
  sec : Int
  usec : Int
  usec_range : 0 ≤ usec ∧ usec < 1000000

/-- The clock in nanoseconds. -/
def Timeval.ns (now : Timeval) : Int := now.sec * 1000000000 + now.usec * 1000

/-! ## The code -/

/-- `FRAMES2TIME`, an expression in `double` that is infinite, or not a number, where the divisor
    is 0. -/
def frames2time (framerate frames : Nat) : Except Fault ℚ :=
  if framerate = 0 then .error .divisor
  else .ok (Double.round
    (Double.round (Double.round (Double.round frames * 1000) * 1000) / Double.round framerate))

/-- The conversion of a `double` to `int64_t`. -/
def toInt64 (x : ℚ) : Except Fault Int := arith 64 .overflow (if 0 ≤ x then ⌊x⌋ else ⌈x⌉)

/-- The frames that the device has not played: `buffer_size - avail`. -/
def left (dev : Device) (avail : Int) : Nat := (((dev.bufferSize : Int) - avail) % 2 ^ 64).toNat

/-- `timeout` -/
def timeout (dev : Device) (avail : Int) : Except Fault Int := do
  let time ← frames2time dev.framerate (left dev avail)
  toInt64 time

/-- The loop of `abstime`. -/
def abstimeLoop : Nat → Timespec → Timespec
  | 0, tv => tv
  | fuel + 1, tv =>
    if tv.nsec > 1000000000 then abstimeLoop fuel ⟨tv.sec + 1, tv.nsec - 1000000000⟩ else tv

/-- `abstime` -/
def abstime (now : Timeval) : Timespec := abstimeLoop now.usec.toNat ⟨now.sec, now.usec * 1000⟩

/-- `timeadd` -/
def timeadd (time1 time2 : Timespec) : Except Fault Timespec := do
  let nsec ← arith 64 .overflow (time1.nsec + time2.nsec)
  .ok ⟨time1.sec + time2.sec + nsec.tdiv 1000000000, nsec.tmod 1000000000⟩

/-- `delay2abstime` -/
def delay2abstime (tv : Timespec) (now : Timeval) : Except Fault Timespec :=
  timeadd tv (abstime now)

/-- How `avbox_queue_getnode` waits. -/
inductive Wait where
  /-- `pthread_cond_wait` -/
  | wait
  /-- `pthread_cond_timedwait` -/
  | timedwait (tv : Timespec)
  deriving DecidableEq, Repr

/-- The wait of `avbox_queue_getnode` in an empty queue that is open. -/
def getnodeWait (timeout : Int) (now : Timeval) : Except Fault Wait :=
  if timeout = 0 then .ok .wait
  else do
    let nsec ← arith 64 .overflow (timeout * 1000)
    let tv ← delay2abstime ⟨0, nsec⟩ now
    .ok (.timedwait tv)

/-- The wait of the output thread that is not in underrun. -/
def outputWait (dev : Device) (avail : Int) (now : Timeval) : Except Fault Wait := do
  let timeout ← timeout dev avail
  getnodeWait timeout now

/-- Where the thread goes after the wait. -/
inductive Next where
  /-- `usleep` and `continue` -/
  | again
  /-- `AVBOX_AUDIOSTREAM_UNDERRUN` -/
  | callback
  | ended
  deriving DecidableEq, Repr

/-- The branch on `EAGAIN`, with what `snd_pcm_avail`, `snd_pcm_recover` and `snd_pcm_state` say. -/
def afterTimeout (d : Data) (avail err : Int) (state : PcmState) : Next :=
  if avail < 0 ∧ err < 0 then .ended
  else if stillWaiting d state then .again
  else .callback

/-! ## What it is for -/

/-- An underrun is noticed: the wait ends when the device has played its frames, and the callback is
    reached when it has run dry by then. -/
structure Noticed (dev : Device) (avail : Int) (now : Timeval) : Prop where
  deadline : ∃ tv, outputWait dev avail now = .ok (.timedwait tv) ∧ tv.Normalized ∧
    (tv.ns - now.ns) * dev.framerate ≤ (dev.bufferSize - avail) * 1000000000
  callback : ∀ d avail' err state, (0 ≤ avail' ∨ 0 ≤ err) → stillWaiting d state = false →
    afterTimeout d avail' err state = .callback

/-- The microseconds of the frames in the device, with every operation rounded. -/
def rounded (dev : Device) (avail : Int) : Int :=
  ⌊Double.round (Double.round (Double.round (Double.round (dev.bufferSize - avail : Int) * 1000) *
    1000) / dev.framerate)⌋

/-- With so many frames the `double` matters: its microseconds are not more than the whole ones of
    the exact time, and their nanoseconds fit. -/
structure RoundsDown (dev : Device) (avail : Int) (now : Timeval) : Prop where
  le : rounded dev avail ≤ (dev.bufferSize - avail) * 1000000 / dev.framerate
  fits : rounded dev avail * 1000 + now.usec * 1000 < 2 ^ 63

/-- The sound in the device lasts a microsecond. -/
structure Lasts (dev : Device) (avail : Int) (now : Timeval) : Prop where
  framerate : 0 < dev.framerate
  microsecond : dev.framerate ≤ (dev.bufferSize - avail) * 1000000
  exact : (dev.bufferSize - avail) * 1000000 < 2 ^ 53 ∨ RoundsDown dev avail now

/-! ## The clock -/

section Clock

variable {now : Timeval} {t : Int}

theorem abstime_eq (now : Timeval) : abstime now = ⟨now.sec, now.usec * 1000⟩ := by
  have hrange := now.usec_range
  unfold abstime
  cases now.usec.toNat with
  | zero => rfl
  | succ n => exact if_neg (by dsimp only; omega)

/-- Where the nanoseconds fit it is the sum of two times. -/
theorem timeadd_ok {a b : Timespec} (h : InRange 64 (a.nsec + b.nsec)) :
    timeadd a b = .ok (Mediabox.timeadd a b) := by
  rw [timeadd, arith_ok h]
  rfl

/-- **The deadline**: it is normalized, and after the timeout. -/
theorem delay2abstime_eq (h0 : 0 ≤ t) (h : InRange 64 (t * 1000 + now.usec * 1000)) :
    ∃ tv, delay2abstime ⟨0, t * 1000⟩ now = .ok tv ∧ tv.Normalized ∧ tv.ns - now.ns = t * 1000 := by
  have hrange := now.usec_range
  refine ⟨Mediabox.timeadd ⟨0, t * 1000⟩ ⟨now.sec, now.usec * 1000⟩, ?_,
    timeadd_normalized (by dsimp only; omega) (by dsimp only; omega), ?_⟩
  · rw [delay2abstime, abstime_eq]
    exact timeadd_ok h
  · rw [ns_timeadd]
    simp only [Timespec.ns, Timeval.ns]
    omega

theorem getnodeWait_timed (hpos : 0 < t) (h : InRange 64 (t * 1000 + now.usec * 1000)) :
    ∃ tv, getnodeWait t now = .ok (.timedwait tv) ∧ tv.Normalized ∧ tv.ns - now.ns = t * 1000 := by
  have hrange := now.usec_range
  have hnsec : InRange 64 (t * 1000) := by
    rw [inRange_64] at h ⊢
    omega
  obtain ⟨tv, hdelay, hnorm, hns⟩ := delay2abstime_eq (Int.le_of_lt hpos) h
  refine ⟨tv, ?_, hnorm, hns⟩
  rw [getnodeWait, if_neg (by omega), arith_ok hnsec]
  simp only [bind, Except.bind, hdelay]

theorem getnodeWait_overflow (hne : t ≠ 0) (h : ¬InRange 64 (t * 1000 + now.usec * 1000))
    (w : Wait) :
    getnodeWait t now ≠ .ok w := by
  rw [getnodeWait, if_neg hne]
  unfold arith
  split
  · simp only [bind, Except.bind]
    rw [delay2abstime, abstime_eq]
    simp only [timeadd, arith_error h, bind, Except.bind]
    exact fun heq => nomatch heq
  · exact fun heq => nomatch heq

end Clock

/-! ## The timeout -/

section Timeout

variable {dev : Device} {avail time : Int} {now : Timeval} {n r : ℕ}

theorem left_eq (h0 : 0 ≤ avail) (hle : avail ≤ dev.bufferSize) :
    ((left dev avail : ℕ) : Int) = dev.bufferSize - avail := by
  have hlt := dev.bufferSize_lt
  unfold left
  rw [Int.emod_eq_of_lt (by omega) (by omega)]
  omega

/-- **Microseconds**: the products are exact, and only the quotient is rounded. -/
theorem frames2time_eq (hr : 0 < r) (hlt : r < 2 ^ 32) (h : n * 1000000 < 2 ^ 53) :
    frames2time r n = .ok (Double.round (((n * 1000000 : ℕ) : ℚ) / r)) := by
  have hn' : n * 1000 < 2 ^ 53 := Nat.lt_of_le_of_lt (Nat.mul_le_mul_left n (by norm_num)) h
  have hn : n < 2 ^ 53 := Nat.lt_of_le_of_lt (Nat.le_mul_of_pos_right n (by norm_num)) hn'
  have hthousand : Double.round n * 1000 = ((n * 1000 : ℕ) : ℚ) := by
    rw [Double.round_natCast hn]
    push_cast
    rfl
  have hmillion : Double.round (Double.round n * 1000) * 1000 = ((n * 1000000 : ℕ) : ℚ) := by
    rw [hthousand, Double.round_natCast hn']
    push_cast
    ring
  have hrate : Double.round r = r := Double.round_natCast (Nat.lt_trans hlt (by decide))
  rw [frames2time, if_neg (by omega), hmillion, Double.round_natCast h, hrate]

theorem timeout_of_frames2time {x : ℚ}
    (h : frames2time dev.framerate (left dev avail) = .ok x) : timeout dev avail = toInt64 x := by
  rw [timeout, h]
  simp only [bind, Except.bind]

/-- **The timeout** is the quotient of whole numbers. -/
theorem timeout_eq (hr : 0 < dev.framerate) (h : left dev avail * 1000000 < 2 ^ 53) :
    timeout dev avail = .ok ((left dev avail * 1000000 / dev.framerate : ℕ) : Int) := by
  have hquot : left dev avail * 1000000 / dev.framerate < 2 ^ 53 :=
    Nat.lt_of_le_of_lt (Nat.div_le_self _ _) h
  have hpos : 0 ≤ Double.round (((left dev avail * 1000000 : ℕ) : ℚ) / dev.framerate) :=
    le_trans (by positivity) (Double.half_le_round (by positivity))
  have hrange : InRange 64 ((left dev avail * 1000000 / dev.framerate : ℕ) : Int) := by
    generalize left dev avail * 1000000 / dev.framerate = time at hquot
    exact inRange_64.mpr (by omega)
  rw [timeout_of_frames2time (frames2time_eq hr dev.framerate_lt h), toInt64, if_pos hpos,
    Double.floor_round_div h hr, arith_ok hrange]

theorem toInt64_nonneg {x : ℚ} (hx : 0 ≤ x) (h : toInt64 x = .ok time) : time = ⌊x⌋ := by
  rw [toInt64, if_pos hx, arith] at h
  split at h
  · exact (Except.ok.inj h).symm
  · cases h

theorem sixteenth_le (hr : 0 < r) :
    (n : ℚ) * 1000000 / r / 16 ≤ Double.round
      (Double.round (Double.round (Double.round n * 1000) * 1000) / r) := by
  have hrq : (0 : ℚ) < r := Nat.cast_pos.mpr hr
  have hframes : (n : ℚ) / 2 ≤ Double.round n := Double.half_le_round (Nat.cast_nonneg n)
  have hpos : (0 : ℚ) ≤ Double.round n := le_trans (by positivity) hframes
  have hthousand := Double.half_le_round (x := Double.round n * 1000) (by positivity)
  have hpos' : 0 ≤ Double.round (Double.round n * 1000) := le_trans (by positivity) hthousand
  have hmillion := Double.half_le_round (x := Double.round (Double.round n * 1000) * 1000)
    (by positivity)
  have hquot := Double.half_le_round
    (x := Double.round (Double.round (Double.round n * 1000) * 1000) / r)
    (div_nonneg (le_trans (by positivity) hmillion) hrq.le)
  refine le_trans ?_ hquot
  have hle : (n : ℚ) * 1000000 / 8 ≤
      Double.round (Double.round (Double.round n * 1000) * 1000) := by
    linarith
  calc (n : ℚ) * 1000000 / r / 16 = n * 1000000 / 8 / r / 2 := by ring
    _ ≤ Double.round (Double.round (Double.round n * 1000) * 1000) / r / 2 := by gcongr

/-- A timeout is not negative, and that of very many frames is not 0. -/
theorem timeout_nonneg (h : timeout dev avail = .ok time) :
    0 < dev.framerate ∧ 0 ≤ time ∧ (2 ^ 53 ≤ left dev avail * 1000000 → 0 < time) := by
  have hlt := dev.framerate_lt
  by_cases hr : dev.framerate = 0
  · simp only [timeout, frames2time, if_pos hr, bind, Except.bind] at h
    cases h
  · have hpos : 0 < dev.framerate := Nat.pos_of_ne_zero hr
    have hrate : Double.round dev.framerate = dev.framerate :=
      Double.round_natCast (Nat.lt_trans hlt (by decide))
    have hlow := sixteenth_le (n := left dev avail) hpos
    simp only [timeout, frames2time, if_neg hr, bind, Except.bind, hrate] at h
    rw [toInt64_nonneg (le_trans (by positivity) hlow) h]
    refine ⟨hpos, Int.floor_nonneg.mpr (le_trans (by positivity) hlow), fun hmany => ?_⟩
    refine Int.floor_pos.mpr (le_trans ?_ hlow)
    have hmanyq : (2 ^ 53 : ℚ) ≤ left dev avail * 1000000 := by exact_mod_cast hmany
    have hrq : (dev.framerate : ℚ) ≤ 2 ^ 32 := by exact_mod_cast hlt.le
    calc (1 : ℚ) ≤ 2 ^ 53 / 2 ^ 32 / 16 := by norm_num
      _ ≤ left dev avail * 1000000 / dev.framerate / 16 := by gcongr

/-- **The timeout** is the number that is rounded at every operation, where it fits. -/
theorem timeout_rounded (hr : 0 < dev.framerate) (h0 : 0 ≤ avail) (hle : avail ≤ dev.bufferSize) :
    0 ≤ rounded dev avail ∧ timeout dev avail = arith 64 .overflow (rounded dev avail) := by
  have hrate : Double.round dev.framerate = dev.framerate :=
    Double.round_natCast (Nat.lt_trans dev.framerate_lt (by decide))
  have hframes : ((left dev avail : ℕ) : ℚ) = (dev.bufferSize - avail : Int) := by
    rw [← left_eq h0 hle]
    rfl
  have hlow := sixteenth_le (n := left dev avail) hr
  have hpos := le_trans (by positivity) hlow
  rw [hframes] at hpos
  refine ⟨Int.floor_nonneg.mpr hpos, ?_⟩
  rw [timeout, frames2time, if_neg hr.ne', hrate, hframes]
  simp only [bind, Except.bind, toInt64, if_pos hpos, rounded]

end Timeout

/-! ## When an underrun is noticed -/

section Noticed

variable {dev : Device} {avail : Int} {now : Timeval}

theorem afterTimeout_callback (d : Data) (avail err : Int) (state : PcmState)
    (h : 0 ≤ avail ∨ 0 ≤ err) (hdry : stillWaiting d state = false) :
    afterTimeout d avail err state = .callback := by
  have hmends : ¬(avail < 0 ∧ err < 0) := by omega
  rw [afterTimeout, if_neg hmends, hdry]
  rfl

/-- **A wait has a deadline in time** when the timeout is not 0, not above the time of the frames,
    and its nanoseconds fit. -/
theorem deadline_iff : Noticed dev avail now ↔
    ∃ time, timeout dev avail = .ok time ∧ 0 < time ∧
      time * dev.framerate ≤ (dev.bufferSize - avail) * 1000000 ∧
      InRange 64 (time * 1000 + now.usec * 1000) := by
  constructor
  · rintro ⟨⟨tv, hwait, -, hle⟩, -⟩
    cases htime : timeout dev avail with
    | error e =>
      simp only [outputWait, htime, bind, Except.bind] at hwait
      cases hwait
    | ok time =>
      obtain ⟨-, hnonneg, -⟩ := timeout_nonneg htime
      simp only [outputWait, htime, bind, Except.bind] at hwait
      have hne : time ≠ 0 := by
        rintro rfl
        cases hwait
      have hrange : InRange 64 (time * 1000 + now.usec * 1000) := by
        by_contra hout
        exact getnodeWait_overflow hne hout _ hwait
      obtain ⟨tv', hwait', -, hns⟩ := getnodeWait_timed (by omega) hrange
      cases hwait.symm.trans hwait'
      rw [hns] at hle
      exact ⟨time, rfl, by omega, by linarith, hrange⟩
  · rintro ⟨time, htime, hpos, hle, hrange⟩
    obtain ⟨tv, hwait, hnorm, hns⟩ := getnodeWait_timed hpos hrange
    refine ⟨⟨tv, ?_, hnorm, ?_⟩, afterTimeout_callback⟩
    · simp only [outputWait, htime, bind, Except.bind]
      exact hwait
    · rw [hns]
      linarith

end Noticed

/-- **Audio underruns are noticed**: the wait has a deadline, normalized and not after the end of
    the sound in the device, so that the callback is reached when the device has run dry, if and
    only if that sound lasts a microsecond. -/
theorem underrun_noticed_iff (dev : Device) (avail : Int) (now : Timeval) (h0 : 0 ≤ avail)
    (hle : avail ≤ dev.bufferSize) : Noticed dev avail now ↔ Lasts dev avail now := by
  have hleft := left_eq h0 hle
  have husec := now.usec_range
  have hrate := dev.framerate_lt
  rw [deadline_iff]
  constructor
  · rintro ⟨time, htime, hpos, htimes, hrange⟩
    obtain ⟨hr, -, -⟩ := timeout_nonneg htime
    obtain ⟨-, hrounded⟩ := timeout_rounded hr h0 hle
    have htime' : time = rounded dev avail := by
      rw [hrounded, arith] at htime
      split at htime
      · exact (Except.ok.inj htime).symm
      · cases htime
    have hone : (dev.framerate : Int) ≤ time * dev.framerate :=
      le_mul_of_one_le_left (Int.natCast_nonneg _) hpos
    refine ⟨hr, by omega, Or.inr ⟨?_, ?_⟩⟩
    · rw [← htime']
      exact Int.le_ediv_of_mul_le (by exact_mod_cast hr) htimes
    · rw [← htime']
      exact (inRange_64.mp hrange).2
  · rintro ⟨hr, hmicro, hexact⟩
    by_cases hsmall : left dev avail * 1000000 < 2 ^ 53
    · have hquot : 0 < left dev avail * 1000000 / dev.framerate := by
        refine Nat.div_pos ?_ hr
        omega
      have hmul := Nat.div_mul_le_self (left dev avail * 1000000) dev.framerate
      have hlt := Nat.lt_of_le_of_lt (Nat.div_le_self (left dev avail * 1000000) dev.framerate)
        hsmall
      refine ⟨_, timeout_eq hr hsmall, ?_, ?_, ?_⟩
      · exact_mod_cast hquot
      · rw [← hleft]
        exact_mod_cast hmul
      · rw [inRange_64]
        generalize left dev avail * 1000000 / dev.framerate = time at hlt
        omega
    · have hmany : ¬(dev.bufferSize - avail) * 1000000 < 2 ^ 53 := by omega
      obtain ⟨hdown, hfits⟩ := hexact.resolve_left hmany
      obtain ⟨hnonneg, hrounded⟩ := timeout_rounded hr h0 hle
      have hrange : InRange 64 (rounded dev avail) := inRange_64.mpr (by omega)
      have htime : timeout dev avail = .ok (rounded dev avail) := hrounded.trans (arith_ok hrange)
      obtain ⟨-, -, hpos⟩ := timeout_nonneg htime
      refine ⟨_, htime, hpos (Nat.not_lt.mp hsmall), ?_, inRange_64.mpr (by omega)⟩
      exact (Int.le_ediv_iff_mul_le (by exact_mod_cast hr)).mp hdown

/-- A device with a buffer of a third of a second. -/
def device : Device := ⟨16384, 48000, by decide, by decide⟩

def midnight : Timeval := ⟨0, 999999, by decide⟩

/-- One frame is left. -/
theorem underrun_noticed_iff_one : Noticed device 16383 midnight :=
  (underrun_noticed_iff device 16383 midnight (by decide) (by decide)).mpr
    ⟨by decide, by decide, Or.inl (by decide)⟩

/-- **A device that has just run dry**: no frame is left, the timeout is 0, and the wait has no
    deadline. -/
theorem dry_waits_forever :
    ¬ ∀ (dev : Device) (avail : Int) (now : Timeval), 0 ≤ avail → avail ≤ dev.bufferSize →
      Noticed dev avail now := by
  intro hall
  obtain ⟨time, htime, hpos, hle, -⟩ :=
    deadline_iff.mp (hall device 16384 midnight (by decide) (by decide))
  have hzero : (device.bufferSize : Int) - 16384 = 0 := rfl
  rw [hzero, Int.zero_mul] at hle
  have hrate : (0 : Int) < device.framerate := by decide
  exact absurd hle (Int.not_le.mpr (Int.mul_pos hpos hrate))

end Mediabox.AudioTimeout
