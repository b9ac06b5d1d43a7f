import Mathlib.Data.Nat.Digits.Defs
import Mediabox.Lib.MachineInt
import Mediabox.Lib.Outcome
import Mediabox.LibraryNames
import Mediabox.Queue

/-!
# The size of the decode cache (`--avbox:decode_cache_size` in `src/lib/ui/player.c`)

The loop of `avbox_player_new` over the command line, `strisdigit` of `src/lib/string_util.c` and
`atoi`, and the macros `AVBOX_BUFFER_VIDEO` and `AVBOX_BUFFER_AUDIO` that are expanded where the
queues are made and where `avbox_player_handle_underrun` computes its percentage.

* `atoi` of a number that is not an `int` is undefined, as the standard says.
* `atoi_of_strisdigit` — a string that passes the check is converted to the number that its digits
  write, `decimal`, or to 0 if it is empty.
* `works_iff` — the queue of the frames has a bound from 33 milliseconds on, and from 1001 on the
  inner quotient is 0.

Main results: `decode_cache_iff` — the sizes are computed and positive, the percentage has a divisor
and the queue stays bounded, if and only if the number is from 33 to 1000; `argsLoop_works` — the
same for all the arguments of a command line.
-/

set_option autoImplicit false

namespace Mediabox.Cache

open MachineInt Outcome Library

/-! ## The code -/

/-- `isdigit` -/
def isdigit (c : Char) : Bool := '0' ≤ c && c ≤ '9'

/-- `isspace` -/
def isspace (c : Char) : Bool := c = ' ' || ('\t' ≤ c && c ≤ '\r')

/-- `strisdigit` -/
def strisdigit : CString → Bool
  | [] => true
  | c :: str => if !isdigit c then false else strisdigit str

/-- What a digit stands for. -/
def digit (c : Char) : Nat := c.toNat - '0'.toNat

/-- The number that the digits at the start of a string write after `n`. -/
def leading : Nat → CString → Nat
  | n, [] => n
  | n, c :: str => if isdigit c then leading (10 * n + digit c) str else n

/-- `atoi` -/
def atoi (str : CString) : Except Fault Int :=
  match str.dropWhile isspace with
  | '-' :: str => arith 32 .overflow (-(leading 0 str : Int))
  | '+' :: str => arith 32 .overflow (leading 0 str)
  | str => arith 32 .overflow (leading 0 str)

def option : CString := "--avbox:decode_cache_size".toList

/-- `AVBOX_BUFFER_MSECS` -/
def bufferMsecs : Int := 300

/-- The loop of `avbox_player_new` over the arguments. -/
def argsLoop : List CString → Int → Except Fault Int
  | [], decodeCacheSize => .ok decodeCacheSize
  | arg :: argv, decodeCacheSize =>
    if arg = option then
      match argv with
      | [] => .ok decodeCacheSize
      | value :: argv =>
        if strisdigit value then do
          let decodeCacheSize ← atoi value
          argsLoop argv decodeCacheSize
        else argsLoop argv decodeCacheSize
    else argsLoop argv decodeCacheSize

/-- `AVBOX_BUFFER_VIDEO` -/
def bufferVideo (decodeCacheSize : Int) : Except Fault Int := do
  let second ← quotient 32 1000 decodeCacheSize
  quotient 32 30 second

/-- `AVBOX_BUFFER_AUDIO` -/
def bufferAudio (decodeCacheSize : Int) : Except Fault Int := do
  let second ← quotient 32 1000 decodeCacheSize
  quotient 32 48000 second

/-- The percentage of `avbox_player_handle_underrun`, with the frames in the queue. -/
def streamPercent (decodeCacheSize avail : Int) : Except Fault Int := do
  let wanted ← bufferVideo decodeCacheSize
  let avail100 ← arith 32 .overflow (avail * 100)
  let percent ← quotient 32 avail100 wanted
  let percent100 ← arith 32 .overflow (percent * 100)
  quotient 32 percent100 100

/-- The size that the queue of the frames gets while a track without sound is played. -/
def doubleVideo (decodeCacheSize : Int) : Except Fault Int := do
  let video ← bufferVideo decodeCacheSize
  arith 32 .overflow (video * 2)

/-! ## What it is for -/

/-- The number that a string of digits writes. -/
def decimal (str : CString) : Nat := Nat.ofDigits 10 (str.reverse.map digit)

/-- A size of the cache to work with: the two buffers are computed, at least 1, no percentage is a
    division by zero, and no size of the queue stands for no bound. -/
structure Works (size : Int) : Prop where
  buffers : ∃ video audio, bufferVideo size = .ok video ∧ bufferAudio size = .ok audio ∧
    1 ≤ video ∧ 1 ≤ audio
  percent : ∀ avail, streamPercent size avail ≠ .error .divisor
  bounded : ∃ video double, bufferVideo size = .ok video ∧ doubleVideo size = .ok double ∧
    ∀ mallocs, 0 < (Queue.new video.toNat mallocs).sz ∧ 0 < (Queue.new double.toNat mallocs).sz

/-- What becomes of the size on a command line: it stays, or it is the number of an argument that
    passes the check, unless such a number cannot be converted. -/
def FromArgs (argv : List CString) (size : Int) (result : Except Fault Int) : Prop :=
  Ensures result
    (fun size' => size' = size ∨ ∃ str ∈ argv, strisdigit str = true ∧ atoi str = .ok size')
    fun _ => ∃ str ∈ argv, strisdigit str = true ∧ ∀ size', atoi str ≠ .ok size'

theorem FromArgs.mono {argv argv' : List CString} {size : Int} {result : Except Fault Int}
    (h : FromArgs argv size result) (hsub : argv ⊆ argv') : FromArgs argv' size result :=
  Ensures.mono h (fun _ hok => hok.imp_right fun ⟨str, hstr, h⟩ => ⟨str, hsub hstr, h⟩)
    fun _ ⟨str, hstr, h⟩ => ⟨str, hsub hstr, h⟩

/-! ## The conversion -/

section Conversion

variable {c : Char} {str value : CString} {n : Nat}

theorem strisdigit_cons :
    strisdigit (c :: str) = true ↔ isdigit c = true ∧ strisdigit str = true := by
  rw [strisdigit]
  cases isdigit c <;> simp

theorem strisdigit_iff : strisdigit str = true ↔ ∀ c ∈ str, isdigit c = true := by
  induction str with
  | nil => simp [strisdigit]
  | cons c str ih => rw [strisdigit_cons, ih, List.forall_mem_cons]

/-- A digit is neither a blank nor a sign. -/
theorem isdigit_plain (h : isdigit c = true) : isspace c = false ∧ c ≠ '-' ∧ c ≠ '+' := by
  have hge : '0'.toNat ≤ c.toNat := by
    simp only [isdigit, Bool.and_eq_true, decide_eq_true_eq] at h
    exact h.1
  refine ⟨?_, ?_, ?_⟩
  · have hspace : c ≠ ' ' := fun hc => absurd (hc ▸ hge) (by decide)
    have hlate : ¬c ≤ '\r' := fun hle =>
      absurd (Nat.le_trans hge (show c.toNat ≤ '\r'.toNat from hle)) (by decide)
    simp [isspace, hspace, hlate]
  · exact fun hc => absurd (hc ▸ hge) (by decide)
  · exact fun hc => absurd (hc ▸ hge) (by decide)

theorem leading_eq (h : strisdigit str = true) :
    leading n str = Nat.ofDigits 10 (str.reverse.map digit) + 10 ^ str.length * n := by
  induction str generalizing n with
  | nil => simp [leading]
  | cons c str ih =>
    obtain ⟨hc, hstr⟩ := strisdigit_cons.mp h
    rw [leading, if_pos hc, ih hstr, List.reverse_cons, List.map_append, Nat.ofDigits_append]
    simp only [List.map_cons, List.map_nil, Nat.ofDigits_singleton, List.length_map,
      List.length_reverse, List.length_cons, Nat.pow_succ]
    grind

/-- **The conversion** of a string that passes the check. -/
theorem atoi_of_strisdigit (h : strisdigit str = true) :
    atoi str = arith 32 .overflow (decimal str) := by
  have hvalue : leading 0 str = decimal str := by simp [leading_eq h, decimal]
  rw [← hvalue]
  cases str with
  | nil => rfl
  | cons c str =>
    obtain ⟨hspace, hminus, hplus⟩ := isdigit_plain (strisdigit_cons.mp h).1
    rw [atoi, List.dropWhile_cons_of_neg (by simp [hspace])]
    split
    · exact absurd (List.cons_eq_cons.mp ‹_›).1 hminus
    · exact absurd (List.cons_eq_cons.mp ‹_›).1 hplus
    · rfl

theorem atoi_ok (h : strisdigit str = true) (hlt : decimal str < 2147483648) :
    atoi str = .ok (decimal str) :=
  (atoi_of_strisdigit h).trans (arith_ok (inRange_32.mpr (by omega)))

theorem ok_of_atoi {size : Int} (h : strisdigit str = true) (hsize : atoi str = .ok size) :
    size = decimal str := by
  rw [atoi_of_strisdigit h, arith] at hsize
  split at hsize
  · exact (Except.ok.inj hsize).symm
  · cases hsize

/-- **The command line**: the size is the one that the player starts with, or comes from an argument
    that passes the check. -/
theorem argsLoop_fromArgs (argv : List CString) (size : Int) :
    FromArgs argv size (argsLoop argv size) := by
  fun_induction argsLoop argv size with
  | case1 size | case2 size => exact Or.inl rfl
  | case3 size value argv hdigits ih =>
    have hmem : value ∈ option :: value :: argv := List.mem_cons_of_mem _ List.mem_cons_self
    cases hsize : atoi value with
    | error e => exact ⟨value, hmem, hdigits, fun size' h => nomatch hsize.symm.trans h⟩
    | ok size₁ =>
      refine Ensures.imp ((ih size₁).mono fun x hx => ?_) ?_
      · exact List.mem_cons_of_mem _ (List.mem_cons_of_mem _ hx)
      · rintro size' (rfl | hlater)
        · exact Or.inr ⟨value, hmem, hdigits, hsize⟩
        · exact Or.inr hlater
  | case4 size value argv hdigits ih =>
    exact ih.mono fun x hx => List.mem_cons_of_mem _ (List.mem_cons_of_mem _ hx)
  | case5 arg argv size hne ih => exact ih.mono fun x hx => List.mem_cons_of_mem _ hx

end Conversion

/-! ## The sizes -/

section Sizes

variable {size video : Int}

theorem arith_ensures (x : Int) :
    Ensures (arith 32 Fault.overflow x) (fun _ => True) (· ≠ .divisor) := by
  unfold arith
  split
  · trivial
  · exact fun h => nomatch h

theorem divide_ok {x y : Int} (hy : 0 < y) (hx : 0 ≤ x) (hmax : x < 2147483648) :
    quotient 32 x y = .ok (x / y) := by
  have hle : x / y ≤ x := Int.ediv_le_self y hx
  have hpos : 0 ≤ x / y := Int.ediv_nonneg hx (by omega)
  exact quotient_ok hx hy (inRange_32.mpr (by omega))

/-- Both macros, where a second has at least one cache in it. -/
theorem buffer_ok (h1 : 1 ≤ size) (h : size ≤ 1000) :
    bufferVideo size = .ok (30 / (1000 / size)) ∧
      bufferAudio size = .ok (48000 / (1000 / size)) := by
  have hsecond : 1 ≤ 1000 / size := by
    rw [Int.le_ediv_iff_mul_le (by omega)]
    omega
  have hdivide : quotient 32 1000 size = .ok (1000 / size) :=
    divide_ok (by omega) (by decide) (by decide)
  constructor
  · simp only [bufferVideo, hdivide, bind, Except.bind]
    exact divide_ok (by omega) (by decide) (by decide)
  · simp only [bufferAudio, hdivide, bind, Except.bind]
    exact divide_ok (by omega) (by decide) (by decide)

/-- Without a millisecond of cache, or with more than a second of it, there is nothing to divide
    by. -/
theorem buffer_divisor (h0 : 0 ≤ size) (h : size = 0 ∨ 1000 < size) :
    bufferVideo size = .error .divisor := by
  rcases h with rfl | h
  · rfl
  · have hdivide : quotient 32 1000 size = .ok 0 := by
      rw [divide_ok (by omega) (by decide) (by decide), Int.ediv_eq_zero_of_lt (by decide) h]
    simp only [bufferVideo, hdivide, bind, Except.bind]
    rfl

theorem bufferVideo_pos (h1 : 1 ≤ size) (h : size ≤ 1000) : 1 ≤ 30 / (1000 / size) ↔ 33 ≤ size := by
  have hsecond : 1 ≤ 1000 / size := by
    rw [Int.le_ediv_iff_mul_le (by omega)]
    omega
  have hlt : 1000 / size < 31 ↔ 1000 < 31 * size := Int.ediv_lt_iff_lt_mul (by omega)
  rw [Int.le_ediv_iff_mul_le (by omega)]
  omega

theorem bufferAudio_pos (h1 : 1 ≤ size) (h : size ≤ 1000) : 1 ≤ 48000 / (1000 / size) := by
  have hsecond : 1 ≤ 1000 / size := by
    rw [Int.le_ediv_iff_mul_le (by omega)]
    omega
  have hle : 1000 / size ≤ 1000 := Int.ediv_le_self size (by decide)
  rw [Int.le_ediv_iff_mul_le (by omega)]
  omega

theorem divide_ensures {x y : Int} (hy : y ≠ 0) :
    Ensures (quotient 32 x y) (fun _ => True) (· ≠ .divisor) := by
  rw [quotient, if_neg hy]
  exact arith_ensures _

theorem streamPercent_divisor (hvideo : bufferVideo size = .ok video) (h : video ≠ 0)
    (avail : Int) :
    streamPercent size avail ≠ .error .divisor := by
  have hends : Ensures (streamPercent size avail) (fun _ => True) (· ≠ .divisor) := by
    simp only [streamPercent, hvideo, ensures_bind, ensures_ok]
    refine (arith_ensures _).imp fun avail100 _ => (divide_ensures h).imp fun percent _ => ?_
    exact (arith_ensures _).imp fun percent100 _ => divide_ensures (by decide)
  intro herror
  rw [herror] at hends
  exact hends rfl

theorem queue_bounded {x : Int} (h : 1 ≤ x) (mallocs : List (Option Queue.NodeId)) :
    0 < (Queue.new x.toNat mallocs).sz := by
  show 0 < x.toNat
  omega

/-- **When a size works**: from 33 milliseconds to a second.  With 0 and from 1001 on there is a
    division by zero, and from 1 to 32 the queue of the frames has the size 0, which is no bound. -/
theorem works_iff (h0 : 0 ≤ size) : Works size ↔ 33 ≤ size ∧ size ≤ 1000 := by
  constructor
  · rintro ⟨⟨video, audio, hvideo, -, hpos, -⟩, -, -⟩
    by_cases hdivisor : size = 0 ∨ 1000 < size
    · exact nomatch hvideo.symm.trans (buffer_divisor h0 hdivisor)
    · cases hvideo.symm.trans (buffer_ok (by omega) (by omega)).1
      exact ⟨(bufferVideo_pos (by omega) (by omega)).mp hpos, by omega⟩
  · rintro ⟨h33, h⟩
    obtain ⟨hvideo, haudio⟩ := buffer_ok (by omega) h
    have hpos := (bufferVideo_pos (by omega) h).mpr h33
    have hle : 30 / (1000 / size) ≤ 30 := Int.ediv_le_self _ (by decide)
    have hdouble : doubleVideo size = .ok (30 / (1000 / size) * 2) := by
      simp only [doubleVideo, hvideo, bind, Except.bind]
      exact arith_ok (inRange_32.mpr (by omega))
    exact ⟨⟨_, _, hvideo, haudio, hpos, bufferAudio_pos (by omega) h⟩,
      streamPercent_divisor hvideo (by omega),
      _, _, hvideo, hdouble, fun mallocs =>
        ⟨queue_bounded hpos mallocs, queue_bounded (by omega) mallocs⟩⟩

end Sizes

/-! ## When the setting works -/

/-- **The decode cache setting**: the buffers are computed from an accepted string, positive, and
    the percentage has a divisor, if and only if its number is from 33 to 1000. -/
theorem decode_cache_iff (str : CString) (hdigits : strisdigit str = true) :
    (∃ size, atoi str = .ok size ∧ Works size) ↔ 33 ≤ decimal str ∧ decimal str ≤ 1000 := by
  constructor
  · rintro ⟨size, hsize, hworks⟩
    have hdec := ok_of_atoi hdigits hsize
    have hrange := (works_iff (by omega)).mp hworks
    omega
  · rintro ⟨h33, h1000⟩
    exact ⟨decimal str, atoi_ok hdigits (by omega), (works_iff (by omega)).mpr (by omega)⟩

/-- The default of 300 milliseconds, as a user may also ask for it. -/
theorem decode_cache_iff_default : ∃ size, atoi "300".toList = .ok size ∧ Works size :=
  (decode_cache_iff "300".toList (by decide)).mpr (by decide)

/-- **No cache at all**: "0" passes the check, and the first use of the size divides by zero. -/
theorem no_cache_divides :
    ¬ ∀ str : CString, strisdigit str = true → ∃ size, atoi str = .ok size ∧ Works size := by
  intro hall
  obtain ⟨size, hsize, hworks⟩ := hall ['0'] (by decide)
  have hzero : size = 0 := ok_of_atoi (by decide) hsize
  subst hzero
  exact hworks.percent 0 rfl

/-- **The whole command line**: the player starts with a size that works when every argument that
    passes the check has a number from 33 to 1000. -/
theorem argsLoop_works (argv : List CString)
    (h : ∀ str ∈ argv, strisdigit str = true → 33 ≤ decimal str ∧ decimal str ≤ 1000) :
    Ensures (argsLoop argv bufferMsecs) Works fun _ => False := by
  refine Ensures.mono (argsLoop_fromArgs argv bufferMsecs) ?_ ?_
  · rintro size (rfl | ⟨str, hstr, hdigits, hsize⟩)
    · exact (works_iff (by decide)).mpr (by decide)
    · obtain ⟨h33, h1000⟩ := h str hstr hdigits
      rw [ok_of_atoi hdigits hsize]
      exact (works_iff (by omega)).mpr (by omega)
  · rintro e ⟨str, hstr, hdigits, hno⟩
    obtain ⟨-, h1000⟩ := h str hstr hdigits
    exact hno _ (atoi_ok hdigits (by omega))

end Mediabox.Cache
