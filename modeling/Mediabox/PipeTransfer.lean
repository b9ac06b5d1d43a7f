import Mathlib.Data.List.Infix
import Mathlib.Data.List.Range
import Mediabox.Lib.MachineInt

/-!
# Full transfers over pipes (`src/lib/pipe_util.c`)

`write_or_die`, `read_or_die`, `read_or_eof` and `write_or_epipe` repeat a system call until the
requested length is transferred.  They are one loop, and differ in what they do at an end of file
and on an error.

* The results of the system calls are given; after the last one the loop waits for the next.
* A `size_t` is a number below 2^64, and its arithmetic wraps around: an offset of 2^64 - 1 is the
  byte before the buffer.

Main result: `transfers_iff`.
-/

set_option autoImplicit false

namespace Mediabox.PipeTransfer

open MachineInt

/-! ## The code -/

/-- `errno` -/
inductive Errno where
  | eintr
  | epipe
  | eagain
  | other (code : Nat)
  deriving DecidableEq, Repr

/-- What `read` or `write` returns: a count, or `-1`. -/
inductive Answer where
  | count (n : Nat)
  | failed (errno : Errno)
  deriving DecidableEq, Repr

/-- `ret` -/
def Answer.ret : Answer → Int
  | .count n => n
  | .failed _ => -1

/-- The offset in the buffer, and the length that remains. -/
structure Progress where
  offset : Nat
  left : Nat
  deriving DecidableEq, Repr

/-- A system call, and the variables before it and after its turn of the loop. -/
structure Call where
  before : Progress
  answer : Answer
  after : Progress
  deriving DecidableEq, Repr

inductive Result where
  /-- the end of the function, with the `int` that it returns -/
  | complete (value : Int)
  /-- `return 0` -/
  | closed
  | aborted
  /-- in a system call -/
  | waiting
  deriving DecidableEq, Repr

inductive Reaction where
  /-- `continue` -/
  | retry
  /-- `return 0` -/
  | close
  /-- `abort()` -/
  | abort
  /-- on to the two assignments at the end of the loop -/
  | advance
  deriving DecidableEq, Repr

/-- Where the four functions differ. -/
structure Reactions where
  /-- at an end of file after this many bytes -/
  eof : Nat → Reaction
  failed : Errno → Reaction

def Reactions.react (r : Reactions) (offset : Nat) : Answer → Reaction
  | .count n => if n = 0 then r.eof offset else .advance
  | .failed errno => r.failed errno

/-- The loop of the four functions. -/
def loop (r : Reactions) : List Answer → Progress → Result × List Call
  | [], _ => (.waiting, [])
  | a :: answers, p =>
    if size a.ret = p.left then (.complete (wrap 32 (p.offset + p.left)), [⟨p, a, p⟩])
    else
      match r.react p.offset a with
      | .retry =>
        let (result, calls) := loop r answers p
        (result, ⟨p, a, p⟩ :: calls)
      | .close => (.closed, [⟨p, a, p⟩])
      | .abort => (.aborted, [⟨p, a, p⟩])
      | .advance =>
        let p' : Progress := ⟨size (p.offset + a.ret), size (p.left - a.ret)⟩
        let (result, calls) := loop r answers p'
        (result, ⟨p, a, p'⟩ :: calls)

def dieReactions : Reactions where
  eof _ := .abort
  failed errno := if errno = .eintr then .retry else .abort

def eofReactions : Reactions where
  eof bytesRead := if bytesRead ≠ 0 then .abort else .close
  failed errno := if errno = .eintr then .retry else .abort

def epipeReactions : Reactions where
  eof _ := .abort
  failed errno :=
    if errno = .eintr then .retry
    else if errno = .epipe then .close
    -- there is no branch for the others
    else .advance

/-- `write_or_die`, which returns no value. -/
def writeOrDie (answers : List Answer) (len : Nat) : Result × List Call :=
  loop dieReactions answers ⟨0, len⟩

/-- `read_or_die`, which returns no value. -/
def readOrDie (answers : List Answer) (length : Nat) : Result × List Call :=
  loop dieReactions answers ⟨0, length⟩

/-- `read_or_eof` -/
def readOrEof (answers : List Answer) (length : Nat) : Result × List Call :=
  loop eofReactions answers ⟨0, length⟩

/-- `write_or_epipe` -/
def writeOrEpipe (answers : List Answer) (size : Nat) : Result × List Call :=
  loop epipeReactions answers ⟨0, size⟩

/-! ## What it is for -/

/-- The bytes that a call transfers. -/
def Call.moved (c : Call) : List Nat :=
  match c.answer with
  | .count n => List.range' c.before.offset n
  | .failed _ => []

def moved (calls : List Call) : List Nat := calls.flatMap Call.moved

/-- A full transfer from there on. -/
structure Transfers (p : Progress) (r : Result × List Call) : Prop where
  /-- a call is given bytes of the buffer only -/
  inside : ∀ c ∈ r.2, c.before.offset + c.before.left ≤ p.offset + p.left
  /-- every byte is transferred at most once, in order -/
  order : moved r.2 <+: List.range' p.offset p.left
  /-- at the end of the function all bytes are transferred -/
  full : ∀ value, r.1 = .complete value → moved r.2 = List.range' p.offset p.left
  /-- a call that fails changes no variable -/
  failed : ∀ c ∈ r.2, ∀ errno, c.answer = .failed errno → c.after = c.before

/-- Counts are at most what was requested: those that the loop can receive while `left` bytes
    remain. -/
def Valid : Nat → List Answer → Prop
  | _, [] => True
  | left, .count n :: answers => n ≤ left ∧ (0 < n → n < left → Valid (left - n) answers)
  | left, .failed errno :: answers => errno = .eintr → Valid left answers

/-- No call fails with an `errno` that is not handled, and none while 2^64 - 1 bytes remain, which
    is `-1` as a `size_t`. -/
def Handled (handled : Errno → Prop) : Nat → List Answer → Prop
  | _, [] => True
  | left, .count n :: answers => 0 < n → n < left → Handled handled (left - n) answers
  | left, .failed errno :: answers =>
    left ≠ 2 ^ 64 - 1 ∧ handled errno ∧ (errno = .eintr → Handled handled left answers)

variable {r : Reactions} {handled : Errno → Prop} {p p' : Progress} {a : Answer}
  {result : Result} {calls : List Call} {answers : List Answer}

/-! ## One turn -/

theorem size_neg_one : size (-1) = 2 ^ 64 - 1 := by decide

/-- **The last call** of a function that is not complete. -/
theorem transfers_singleton (hresult : ∀ value, result ≠ .complete value) (hmoved : a.ret ≤ 0) :
    Transfers p (result, [⟨p, a, p⟩]) := by
  have hnone : moved [⟨p, a, p⟩] = [] := by
    cases a with
    | count n =>
      obtain rfl : n = 0 := by simpa [Answer.ret] using hmoved
      rfl
    | failed errno => rfl
  refine ⟨fun c hc => ?_, hnone ▸ List.nil_prefix, fun v hv => absurd hv (hresult v),
    fun c hc _ _ => ?_⟩
  · rw [List.mem_singleton.mp hc]
  · rw [List.mem_singleton.mp hc]

/-- **The call that transfers the rest** completes the function. -/
theorem transfers_rest : Transfers p (result, [⟨p, .count p.left, p⟩]) := by
  have hall : moved [⟨p, .count p.left, p⟩] = List.range' p.offset p.left := List.append_nil _
  refine ⟨fun c hc => ?_, hall ▸ List.prefix_rfl, fun _ _ => hall, fun c hc _ _ => ?_⟩
  · rw [List.mem_singleton.mp hc]
  · rw [List.mem_singleton.mp hc]

/-- **A count** moves on. -/
theorem transfers_count {n : Nat} (hn : n ≤ p.left) :
    Transfers p (result, ⟨p, .count n, ⟨p.offset + n, p.left - n⟩⟩ :: calls) ↔
      Transfers ⟨p.offset + n, p.left - n⟩ (result, calls) := by
  have hend : p.offset + n + (p.left - n) = p.offset + p.left := by omega
  have hrange : List.range' p.offset p.left =
      List.range' p.offset n ++ List.range' (p.offset + n) (p.left - n) := by
    rw [List.range'_append_1, Nat.add_sub_cancel' hn]
  have hmoved : moved (⟨p, .count n, ⟨p.offset + n, p.left - n⟩⟩ :: calls) =
      List.range' p.offset n ++ moved calls := List.flatMap_cons
  constructor
  · intro h
    refine ⟨fun c hc => ?_, ?_, fun v hv => ?_,
      fun c hc => h.failed c (List.mem_cons_of_mem _ hc)⟩
    · exact hend ▸ h.inside c (List.mem_cons_of_mem _ hc)
    · exact (List.prefix_append_right_inj _).mp (hrange ▸ hmoved ▸ h.order)
    · exact List.append_cancel_left ((hmoved ▸ h.full v hv).trans hrange)
  · intro h
    refine ⟨fun c hc => ?_, ?_, fun v hv => ?_, fun c hc errno he => ?_⟩
    · rcases List.mem_cons.mp hc with rfl | hc
      · exact Nat.le_refl _
      · exact hend ▸ h.inside c hc
    · rw [hmoved, hrange]
      exact (List.prefix_append_right_inj _).mpr h.order
    · rw [hmoved, hrange]
      exact congrArg (List.range' p.offset n ++ ·) (h.full v hv)
    · rcases List.mem_cons.mp hc with rfl | hc
      · exact nomatch he
      · exact h.failed c hc errno he

/-- **A call that is repeated** changes nothing. -/
theorem transfers_retry {errno : Errno} :
    Transfers p (result, ⟨p, .failed errno, p⟩ :: calls) ↔ Transfers p (result, calls) := by
  constructor
  · intro h
    exact ⟨fun c hc => h.inside c (List.mem_cons_of_mem _ hc), h.order, h.full,
      fun c hc => h.failed c (List.mem_cons_of_mem _ hc)⟩
  · intro h
    refine ⟨fun c hc => ?_, h.order, h.full, fun c hc errno he => ?_⟩
    · rcases List.mem_cons.mp hc with rfl | hc
      · exact Nat.le_refl _
      · exact h.inside c hc
    · rcases List.mem_cons.mp hc with rfl | hc
      · rfl
      · exact h.failed c hc errno he

/-- **A failure that passes for progress** sets the offset back. -/
theorem not_transfers_advance {errno : Errno} {left : Nat} :
    ¬Transfers p (result, ⟨p, .failed errno, ⟨size (p.offset + -1), left⟩⟩ :: calls) := by
  intro h
  have hoffset : size (p.offset + -1) = p.offset :=
    congrArg Progress.offset (h.failed _ (List.mem_cons_self ..) errno rfl)
  rw [size] at hoffset
  omega

/-- **A failure that passes for the rest** transfers nothing. -/
theorem not_transfers_complete {errno : Errno} {value : Int} (hp : 0 < p.left) :
    ¬Transfers p (.complete value, [⟨p, .failed errno, p⟩]) := fun h => by
  have hnone : [] = List.range' p.offset p.left := h.full value rfl
  rw [← List.length_eq_zero_iff.mpr hnone.symm, List.length_range'] at hp
  exact Nat.lt_irrefl _ hp

/-! ## The loop -/

/-- What the four have in common: an interrupted call is repeated, an end of file is the end of the
    function, and what is handled is not taken for progress. -/
structure Reactions.Sane (r : Reactions) (handled : Errno → Prop) : Prop where
  eintr : r.failed .eintr = .retry
  retry : ∀ errno, r.failed errno = .retry → errno = .eintr
  eof : ∀ offset, r.eof offset = .close ∨ r.eof offset = .abort
  handled : ∀ errno, handled errno ↔ r.failed errno ≠ .advance

/-- **The loop**, by induction on the results of the calls. -/
theorem loop_transfers_iff (hr : r.Sane handled) (hp : p.offset + p.left < 2 ^ 64)
    (hvalid : Valid p.left answers) :
    Transfers p (loop r answers p) ↔ Handled handled p.left answers := by
  induction answers generalizing p with
  | nil =>
    exact iff_of_true ⟨nofun, List.nil_prefix, nofun, nofun⟩ trivial
  | cons a answers ih =>
    cases a with
    | count n =>
      obtain ⟨hn, hvalid⟩ := hvalid
      have hsize : size (Answer.count n).ret = n := size_natCast (by omega)
      rw [loop, hsize, Handled]
      by_cases hfull : n = p.left
      · rw [if_pos hfull]
        subst hfull
        exact iff_of_true transfers_rest fun _ hlt => absurd hlt (Nat.lt_irrefl _)
      · rw [if_neg hfull, Reactions.react]
        by_cases hzero : n = 0
        · rw [if_pos hzero]
          subst hzero
          refine iff_of_true ?_ fun hpos => absurd hpos (Nat.lt_irrefl 0)
          rcases hr.eof p.offset with heof | heof
          · rw [heof]
            exact transfers_singleton nofun (Int.le_refl 0)
          · rw [heof]
            exact transfers_singleton nofun (Int.le_refl 0)
        · have hpos : 0 < n := Nat.pos_of_ne_zero hzero
          have hlt : n < p.left := Nat.lt_of_le_of_ne hn hfull
          have hnext : (⟨size (p.offset + (Answer.count n).ret),
              size (p.left - (Answer.count n).ret)⟩ : Progress) = ⟨p.offset + n, p.left - n⟩ := by
            rw [Answer.ret, ← Int.natCast_add, ← Int.natCast_sub hn, size_natCast (by omega),
              size_natCast (by omega)]
          rw [if_neg hzero]
          dsimp only
          rw [hnext, transfers_count hn, ih (by dsimp only; omega) (hvalid hpos hlt)]
          exact ⟨fun h _ _ => h, fun h => h hpos hlt⟩
    | failed errno =>
      have hret : (Answer.failed errno).ret ≤ 0 := by
        rw [Answer.ret]
        decide
      rw [loop, Answer.ret, size_neg_one, Handled, hr.handled errno]
      by_cases hleft : 2 ^ 64 - 1 = p.left
      · rw [if_pos hleft]
        exact iff_of_false (not_transfers_complete (by omega)) fun h => h.1 hleft.symm
      · rw [if_neg hleft, Reactions.react]
        cases hreact : r.failed errno with
        | retry =>
          obtain rfl := hr.retry errno hreact
          dsimp only
          rw [transfers_retry, ih hp (hvalid rfl)]
          exact ⟨fun h => ⟨Ne.symm hleft, nofun, fun _ => h⟩, fun h => h.2.2 rfl⟩
        | close | abort =>
          refine iff_of_true (transfers_singleton nofun hret)
            ⟨Ne.symm hleft, nofun, ?_⟩
          rintro rfl
          exact nomatch hreact.symm.trans hr.eintr
        | advance =>
          exact iff_of_false not_transfers_advance fun h => h.2.1 rfl

theorem dieReactions_sane : dieReactions.Sane fun _ => True where
  eintr := rfl
  retry errno h := by
    by_contra hne
    exact nomatch (if_neg hne).symm.trans h
  eof _ := .inr rfl
  handled errno := by
    refine iff_of_true trivial ?_
    simp only [dieReactions]
    split <;> nofun

theorem eofReactions_sane : eofReactions.Sane fun _ => True where
  eintr := rfl
  retry errno h := by
    by_contra hne
    exact nomatch (if_neg hne).symm.trans h
  eof offset := by
    simp only [eofReactions]
    split
    · exact .inr rfl
    · exact .inl rfl
  handled errno := by
    refine iff_of_true trivial ?_
    simp only [eofReactions]
    split <;> nofun

theorem epipeReactions_sane :
    epipeReactions.Sane fun errno => errno = .eintr ∨ errno = .epipe where
  eintr := rfl
  retry errno h := by
    cases errno with
    | eintr => rfl
    | _ => exact nomatch h
  eof _ := .inr rfl
  handled errno := by
    cases errno with
    | eintr => exact iff_of_true (.inl rfl) nofun
    | epipe => exact iff_of_true (.inr rfl) nofun
    | eagain | other code => exact iff_of_false nofun fun h => h rfl

/-- **Full transfers**: the three that give up on an error make a full transfer unless a call fails
    while 2^64 - 1 bytes remain, and `write_or_epipe` unless one also fails with another error than
    `EINTR` and `EPIPE`. -/
theorem transfers_iff {length : Nat} (hlength : length < 2 ^ 64) (hvalid : Valid length answers) :
    (Transfers ⟨0, length⟩ (writeOrDie answers length) ↔
        Handled (fun _ => True) length answers) ∧
      (Transfers ⟨0, length⟩ (readOrDie answers length) ↔
        Handled (fun _ => True) length answers) ∧
      (Transfers ⟨0, length⟩ (readOrEof answers length) ↔
        Handled (fun _ => True) length answers) ∧
      (Transfers ⟨0, length⟩ (writeOrEpipe answers length) ↔
        Handled (fun errno => errno = .eintr ∨ errno = .epipe) length answers) := by
  have hp : (⟨0, length⟩ : Progress).offset + (⟨0, length⟩ : Progress).left < 2 ^ 64 := by
    rwa [Nat.zero_add]
  exact ⟨loop_transfers_iff dieReactions_sane hp hvalid,
    loop_transfers_iff dieReactions_sane hp hvalid,
    loop_transfers_iff eofReactions_sane hp hvalid,
    loop_transfers_iff epipeReactions_sane hp hvalid⟩

/-- Three bytes, with an interrupted call. -/
theorem transfers_iff_three :
    (Transfers ⟨0, 3⟩ (writeOrDie [.count 1, .failed .eintr, .count 2] 3) ↔
        Handled (fun _ => True) 3 [.count 1, .failed .eintr, .count 2]) ∧
      (Transfers ⟨0, 3⟩ (readOrDie [.count 1, .failed .eintr, .count 2] 3) ↔
        Handled (fun _ => True) 3 [.count 1, .failed .eintr, .count 2]) ∧
      (Transfers ⟨0, 3⟩ (readOrEof [.count 1, .failed .eintr, .count 2] 3) ↔
        Handled (fun _ => True) 3 [.count 1, .failed .eintr, .count 2]) ∧
      (Transfers ⟨0, 3⟩ (writeOrEpipe [.count 1, .failed .eintr, .count 2] 3) ↔
        Handled (fun errno => errno = .eintr ∨ errno = .epipe) 3
          [.count 1, .failed .eintr, .count 2]) :=
  transfers_iff (by decide) ⟨by decide, fun _ _ _ => ⟨by decide, fun _ h => absurd h (by decide)⟩⟩

/-- A pipe that is full for a moment: the first byte is written twice, and two bytes are
    reported. -/
theorem writeOrEpipe_repeats :
    Valid 2 [.count 1, .failed .eagain, .count 2] ∧
      (writeOrEpipe [.count 1, .failed .eagain, .count 2] 2).1 = .complete 2 ∧
      moved (writeOrEpipe [.count 1, .failed .eagain, .count 2] 2).2 = [0, 0, 1] ∧
      ¬Transfers ⟨0, 2⟩ (writeOrEpipe [.count 1, .failed .eagain, .count 2] 2) :=
  ⟨⟨by decide, fun _ _ => nofun⟩, by decide, by decide, fun h => absurd h.order (by decide)⟩

end Mediabox.PipeTransfer
