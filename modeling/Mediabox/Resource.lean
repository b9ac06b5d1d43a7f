import Mediabox.PipeTransfer

/-!
# Loading a resource (`src/lib/file_util.c`)

`avbox_get_resource` reads a whole file into memory.

* The results of `read` are given; after the last one the loop waits for the next.
* A failed `ASSERT` ends the function.  Pointers are offsets in the buffer.
* The name of the file, which is put together first, is left out.

Main result: `loads_iff`.
-/

set_option autoImplicit false

namespace Mediabox.Resource

open MachineInt
open PipeTransfer (Answer Errno)

/-! ## The code -/

inductive Result where
  /-- the buffer is returned -/
  | loaded
  /-- NULL is returned -/
  | null
  | assert
  /-- an `int` overflows -/
  | overflow
  /-- in a call of `read` -/
  | waiting
  deriving DecidableEq, Repr

/-- `bytes_to_read`, and the offset of `buf_p`. -/
structure Progress where
  toRead : Int
  offset : Int
  deriving DecidableEq, Repr

/-- A call of `read`. -/
structure Call where
  before : Progress
  answer : Answer
  deriving DecidableEq, Repr

/-- `EAGAIN` and `EINTR` -/
def retried : Answer → Bool
  | .failed .eagain => true
  | .failed .eintr => true
  | _ => false

/-- The loop. -/
def loop : List Answer → Progress → Result × List Call
  | [], p => if p.toRead > 0 then (.waiting, []) else (.loaded, [])
  | a :: answers, p =>
    if p.toRead > 0 then
      let bytesRead := wrap 32 a.ret
      if bytesRead < 0 ∧ retried a then
        let (result, calls) := loop answers p
        (result, ⟨p, a⟩ :: calls)
      else
        -- other errors get here, too
        let p' : Progress := ⟨p.toRead - bytesRead, p.offset + bytesRead⟩
        if ¬InRange 32 p'.toRead then (.overflow, [⟨p, a⟩])
        else if p'.toRead < 0 then (.assert, [⟨p, a⟩])
        else
          let (result, calls) := loop answers p'
          (result, ⟨p, a⟩ :: calls)
    else (.loaded, [])

/-- Reading the resource into memory. -/
def readResource (size : Nat) (answers : List Answer) : Result × List Call :=
  let bytesToRead := wrap 32 size
  if bytesToRead > 0 then loop answers ⟨bytesToRead, 0⟩ else (.assert, [])

/-- `avbox_get_resource`, with `*sz`: `stat` finds a file of some size, and `malloc` and `open` may
    fail. -/
def getResource (stat : Option Nat) (malloc opened : Bool) (answers : List Answer) :
    (Result × List Call) × Option Int :=
  match stat with
  | none => ((.null, []), none)
  | some size =>
    if !malloc then ((.null, []), none)
    else if !opened then ((.null, []), none)
    else
      let r := readResource size answers
      (r, if r.1 = .loaded then some (wrap 32 size) else none)

/-! ## What it is for -/

/-- A premature end of the file, or a hard error. -/
def spoils : Answer → Bool
  | .count n => n = 0
  | .failed errno => !retried (.failed errno)

/-- `n` bytes of the buffer. -/
def bytes (offset : Int) (n : Nat) : List Int := (List.range n).map fun i : Nat => offset + i

/-- The bytes that a call reads. -/
def Call.moved (c : Call) : List Int :=
  match c.answer with
  | .count n => bytes c.before.offset n
  | .failed _ => []

def moved (calls : List Call) : List Int := calls.flatMap Call.moved

/-- A file of this size is loaded, or the function gives up. -/
structure Loads (size : Nat) (r : Result × List Call) : Prop where
  inside : ∀ c ∈ r.2, 0 ≤ c.before.toRead ∧ c.before.toRead ≤ size ∧ 0 ≤ c.before.offset ∧
    c.before.offset + c.before.toRead ≤ size
  loaded : r.1 = .loaded → moved r.2 = bytes 0 size
  /-- after a premature end of the file or a hard error NULL is returned -/
  gaveUp : ∀ c ∈ r.2, spoils c.answer = true → r.1 = .null
  null : r.1 = .null → ∃ c ∈ r.2, spoils c.answer = true
  /-- it waits as long as bytes are missing -/
  ended : r.1 = .loaded ∨ r.1 = .null ∨ r.1 = .waiting ∧ (moved r.2).length < size

/-- Counts are at most what was requested, as long as no error was taken for a count. -/
def Valid : Nat → List Answer → Prop
  | _, [] => True
  | left, .count n :: answers => n ≤ left ∧ (n < left → Valid (left - n) answers)
  | left, .failed errno :: answers => retried (.failed errno) = true → Valid left answers

/-- No premature end of the file and no hard error before `left` bytes are read. -/
def Unspoilt : Nat → List Answer → Prop
  | _, [] => True
  | left, a :: answers =>
    spoils a = false ∧
      match a with
      | .count n => n < left → Unspoilt (left - n) answers
      | .failed _ => Unspoilt left answers

/-- The bytes of the results. -/
def total (answers : List Answer) : Nat :=
  (answers.map fun
    | .count n => n
    | .failed _ => 0).sum

/-- Nothing goes wrong, and the size is an `int`: otherwise the rest of the file is missing as soon
    as the results of `read` have reached the size that is left of it. -/
def Granted (size : Nat) (answers : List Answer) : Prop :=
  Unspoilt (wrap 32 size).toNat answers ∧
    (size < 2 ^ 31 ∨ 0 < wrap 32 size ∧ total answers < (wrap 32 size).toNat)

variable {p : Progress} {a : Answer} {answers : List Answer} {calls : List Call} {left : Nat}

/-! ## One turn -/

theorem bytes_add (offset : Int) (n m : Nat) :
    bytes offset (n + m) = bytes offset n ++ bytes (offset + n) m := by
  rw [bytes, List.range_add, List.map_append, List.map_map]
  refine congrArg _ (List.map_congr_left fun i _ => ?_)
  simp only [Function.comp, Int.natCast_add]
  omega

theorem length_bytes (offset : Int) (n : Nat) : (bytes offset n).length = n := by
  rw [bytes, List.length_map, List.length_range]

theorem loop_retry (hp : p.toRead > 0) (ha : retried a = true) :
    loop (a :: answers) p = ((loop answers p).1, ⟨p, a⟩ :: (loop answers p).2) := by
  have hret : wrap 32 a.ret = -1 := by
    cases a with
    | count n => exact nomatch ha
    | failed errno => rfl
  rw [loop, if_pos hp]
  dsimp only
  rw [hret, if_pos ⟨by decide, ha⟩]

theorem loop_count {n : Nat} (hp : p.toRead = left) (hleft : left < 2 ^ 31) (hpos : 0 < left)
    (hn : n ≤ left) :
    loop (.count n :: answers) p =
      ((loop answers ⟨(left - n : Nat), p.offset + n⟩).1,
        ⟨p, .count n⟩ :: (loop answers ⟨(left - n : Nat), p.offset + n⟩).2) := by
  have hret : wrap 32 (Answer.count n).ret = n :=
    wrap_of_inRange (by decide) (inRange_32.mpr (by rw [Answer.ret]; omega))
  have hnext : p.toRead - wrap 32 (Answer.count n).ret = (left - n : Nat) := by
    rw [hret, hp, Int.natCast_sub hn]
  rw [loop, if_pos (by omega)]
  dsimp only
  rw [hnext, hret, if_neg (by omega), if_neg (by rw [inRange_32]; omega), if_neg (by omega)]

/-- A call that is not repeated is the first of the loop. -/
theorem head_loop (a : Answer) (answers : List Answer) (hp : p.toRead > 0) :
    ∃ calls, (loop (a :: answers) p).2 = ⟨p, a⟩ :: calls := by
  rw [loop, if_pos hp]
  dsimp only
  repeat'
    split
  all_goals exact ⟨_, rfl⟩

/-! ## The loop -/

/-- **NULL is never returned** once the file is open. -/
theorem loop_ne_null (answers : List Answer) (p : Progress) : (loop answers p).1 ≠ .null := by
  induction answers generalizing p with
  | nil =>
    rw [loop]
    split <;> nofun
  | cons a answers ih =>
    rw [loop]
    dsimp only
    repeat'
      split
    all_goals first
      | exact ih _
      | nofun

/-- **Something goes wrong**: a call shows it. -/
theorem exists_spoilt (hp : p.toRead = left) (hleft : left < 2 ^ 31) (hpos : 0 < left)
    (hvalid : Valid left answers) (h : ¬Unspoilt left answers) :
    ∃ c ∈ (loop answers p).2, spoils c.answer = true := by
  induction answers generalizing p left with
  | nil => exact absurd trivial h
  | cons a answers ih =>
    by_cases hspoils : spoils a = true
    · obtain ⟨calls, hcalls⟩ := head_loop a answers (p := p) (by omega)
      exact ⟨⟨p, a⟩, hcalls ▸ List.mem_cons_self .., hspoils⟩
    · rw [Bool.not_eq_true] at hspoils
      cases a with
      | count n =>
        have hn : 0 < n := Nat.pos_of_ne_zero fun hn => by simp [spoils, hn] at hspoils
        simp only [Unspoilt, hspoils, true_and, Classical.not_imp] at h
        obtain ⟨c, hc, hbad⟩ := ih (p := ⟨(left - n : Nat), p.offset + n⟩) rfl (by omega)
          (by omega) (hvalid.2 h.1) h.2
        rw [loop_count hp hleft hpos hvalid.1]
        exact ⟨c, List.mem_cons_of_mem _ hc, hbad⟩
      | failed errno =>
        have hretried : retried (.failed errno) = true := by simpa [spoils] using hspoils
        simp only [Unspoilt, hspoils, true_and] at h
        obtain ⟨c, hc, hbad⟩ := ih hp hleft hpos (hvalid hretried) h
        rw [loop_retry (by omega) hretried]
        exact ⟨c, List.mem_cons_of_mem _ hc, hbad⟩

/-- What the loop does while nothing goes wrong. -/
structure Reads (p : Progress) (left : Nat) (answers : List Answer) (r : Result × List Call) :
    Prop where
  inside : ∀ c ∈ r.2, 0 ≤ c.before.toRead ∧ c.before.toRead ≤ left ∧
    p.offset ≤ c.before.offset ∧ c.before.offset + c.before.toRead = p.offset + left
  unspoilt : ∀ c ∈ r.2, spoils c.answer = false
  loaded : left ≤ total answers → r.1 = .loaded ∧ moved r.2 = bytes p.offset left
  waiting : total answers < left → r.1 = .waiting ∧ (moved r.2).length < left

/-- **A call before the others**: one that reads `n` bytes, or that is repeated. -/
theorem Reads.cons {p' : Progress} {n left' : Nat} {r : Result × List Call}
    (h : Reads p' left' answers r) (hp : p.toRead = left) (hspoils : spoils a = false)
    (hmoved : (⟨p, a⟩ : Call).moved = bytes p.offset n)
    (htotal : total (a :: answers) = n + total answers) (hoffset : p'.offset = p.offset + n)
    (hleft : n + left' = left) : Reads p left (a :: answers) (r.1, ⟨p, a⟩ :: r.2) where
  inside := by
    refine List.forall_mem_cons.mpr ⟨?_, fun c hc => ?_⟩
    · dsimp only
      omega
    · obtain ⟨h1, h2, h3, h4⟩ := h.inside c hc
      exact ⟨h1, by omega, by omega, by omega⟩
  unspoilt := List.forall_mem_cons.mpr ⟨hspoils, h.unspoilt⟩
  loaded hle := by
    obtain ⟨hloaded, hrange⟩ := h.loaded (by omega)
    refine ⟨hloaded, ?_⟩
    have hall : moved (⟨p, a⟩ :: r.2) = bytes p.offset n ++ moved r.2 := hmoved ▸ List.flatMap_cons
    rw [hall, hrange, hoffset, ← bytes_add, hleft]
  waiting hlt := by
    obtain ⟨hwaiting, hmissing⟩ := h.waiting (by omega)
    refine ⟨hwaiting, ?_⟩
    rw [moved, List.flatMap_cons, List.length_append, hmoved, length_bytes]
    exact hleft ▸ Nat.add_lt_add_left hmissing n

/-- **Nothing goes wrong**: the loop reads all bytes, or waits for more. -/
theorem loop_reads (hp : p.toRead = left) (hleft : left < 2 ^ 31) (hpos : 0 < left)
    (hvalid : Valid left answers) (h : Unspoilt left answers) :
    Reads p left answers (loop answers p) := by
  induction answers generalizing p left with
  | nil =>
    rw [loop, if_pos (by omega)]
    exact ⟨nofun, nofun, fun hle => absurd hle (Nat.not_le.mpr hpos), fun _ => ⟨rfl, hpos⟩⟩
  | cons a answers ih =>
    obtain ⟨hspoils, hrest⟩ := h
    cases a with
    | count n =>
      have hn : 0 < n := Nat.pos_of_ne_zero fun hn => by simp [spoils, hn] at hspoils
      have hreads : Reads ⟨(left - n : Nat), p.offset + n⟩ (left - n) answers
          (loop answers ⟨(left - n : Nat), p.offset + n⟩) := by
        by_cases hlt : n < left
        · exact ih rfl (by omega) (by omega) (hvalid.2 hlt) (hrest hlt)
        · -- the last call
          rw [Nat.sub_eq_zero_of_le (Nat.le_of_not_lt hlt)]
          have hend : loop answers ⟨(0 : Nat), p.offset + n⟩ = (.loaded, []) := by
            cases answers <;> rfl
          rw [hend]
          exact ⟨nofun, nofun, fun _ => ⟨rfl, rfl⟩, nofun⟩
      rw [loop_count hp hleft hpos hvalid.1]
      exact hreads.cons hp hspoils rfl List.sum_cons rfl (Nat.add_sub_cancel' hvalid.1)
    | failed errno =>
      have hretried : retried (.failed errno) = true := by simpa [spoils] using hspoils
      have hreads : Reads p left answers (loop answers p) :=
        ih hp hleft hpos (hvalid hretried) hrest
      rw [loop_retry (by omega) hretried]
      exact hreads.cons hp hspoils rfl List.sum_cons (Int.add_zero _).symm (Nat.zero_add left)

/-! ## The whole file -/

/-- What is made of a size is not more. -/
theorem wrap_size_le (size : Nat) : wrap 32 size < 2 ^ 31 ∧ wrap 32 size ≤ size :=
  ⟨(wrap_inRange (by decide) _).2, wrap_le (by decide) (Int.natCast_nonneg size)⟩

theorem Reads.loads {size : Nat} {r : Result × List Call} (h : Reads ⟨left, 0⟩ left answers r)
    (hle : left ≤ size) (hended : r.1 = .loaded ∨ r.1 = .waiting ∧ (moved r.2).length < left)
    (hloaded : r.1 = .loaded → moved r.2 = bytes 0 size) : Loads size r where
  inside c hc := by
    obtain ⟨h1, h2, h3, h4⟩ := h.inside c hc
    dsimp only at h3 h4
    exact ⟨h1, by omega, h3, by omega⟩
  loaded := hloaded
  gaveUp c hc hspoils := nomatch hspoils.symm.trans (h.unspoilt c hc)
  null hnull := by
    rw [hnull] at hended
    exact hended.elim nofun fun hwaiting => nomatch hwaiting.1
  ended := hended.imp_right fun ⟨hwaiting, hlt⟩ => .inr ⟨hwaiting, Nat.lt_of_lt_of_le hlt hle⟩

/-- **The loop that runs**: it loads the file if nothing goes wrong, and `left` is its size or has
    not been read yet. -/
theorem loop_loads_iff {size : Nat} (hpos : 0 < left) (hlt : left < 2 ^ 31) (hle : left ≤ size)
    (hint : size < 2 ^ 31 → left = size) (hvalid : Valid left answers) :
    Loads size (loop answers ⟨left, 0⟩) ↔
      Unspoilt left answers ∧ (size < 2 ^ 31 ∨ total answers < left) := by
  by_cases hunspoilt : Unspoilt left answers
  · have hreads : Reads ⟨left, 0⟩ left answers (loop answers ⟨left, 0⟩) :=
      loop_reads rfl hlt hpos hvalid hunspoilt
    by_cases htotal : total answers < left
    · have hwaiting := hreads.waiting htotal
      refine iff_of_true (hreads.loads hle (.inr hwaiting) fun hloaded => ?_)
        ⟨hunspoilt, .inr htotal⟩
      exact nomatch hwaiting.1.symm.trans hloaded
    · obtain ⟨hloaded, hmoved⟩ := hreads.loaded (Nat.le_of_not_lt htotal)
      by_cases hsmall : size < 2 ^ 31
      · obtain rfl : left = size := hint hsmall
        exact iff_of_true (hreads.loads (Nat.le_refl _) (.inl hloaded) fun _ => hmoved)
          ⟨hunspoilt, .inl hsmall⟩
      · refine iff_of_false (fun h => ?_) fun h => h.2.elim hsmall htotal
        have hlength := congrArg List.length (hmoved.symm.trans (h.loaded hloaded))
        rw [length_bytes, length_bytes] at hlength
        exact hsmall (hlength ▸ hlt)
  · obtain ⟨c, hc, hspoils⟩ := exists_spoilt (p := ⟨left, 0⟩) rfl hlt hpos hvalid hunspoilt
    exact iff_of_false (fun h => loop_ne_null _ _ (h.gaveUp c hc hspoils))
      fun h => hunspoilt h.1

/-- **Loading**: a file is loaded as a whole, or NULL is returned, if and only if its size is an
    `int` and neither a premature end nor a hard error is met before all of it is read. -/
theorem loads_iff {size : Nat} {answers : List Answer} (hsize : 0 < size)
    (hvalid : 0 < wrap 32 size → Valid (wrap 32 size).toNat answers) :
    Loads size (getResource (some size) true true answers).1 ↔ Granted size answers := by
  have hint : size < 2 ^ 31 → wrap 32 size = size := wrap_natCast_32
  obtain ⟨hlt, hle⟩ := wrap_size_le size
  simp only [getResource, Bool.not_true, Bool.false_eq_true, if_false]
  unfold readResource Granted
  dsimp only
  generalize wrap 32 size = bytesToRead at *
  by_cases hpos : bytesToRead > 0
  · obtain ⟨left, rfl⟩ := Int.eq_ofNat_of_zero_le (Int.le_of_lt hpos)
    rw [if_pos hpos, Int.toNat_natCast, and_iff_right hpos]
    rw [Int.toNat_natCast] at hvalid
    exact loop_loads_iff (by omega) (by omega) (by omega) (fun h => Int.ofNat_inj.mp (hint h))
      (hvalid hpos)
  · rw [if_neg hpos]
    refine iff_of_false (fun h => ?_) fun h => ?_
    · rcases h.ended with hended | hended | ⟨hended, -⟩
      all_goals exact nomatch hended
    · rcases h.2 with hsmall | ⟨hpos', -⟩
      · rw [hint hsmall] at hpos
        omega
      · exact hpos hpos'

/-- A short read, an interrupted one, and the rest. -/
theorem loads_iff_short :
    Loads 3 (getResource (some 3) true true [.count 1, .failed .eintr, .count 2]).1 ↔
      Granted 3 [.count 1, .failed .eintr, .count 2] :=
  loads_iff (by decide) fun _ => ⟨by decide, fun _ _ => ⟨by decide, fun h => absurd h (by decide)⟩⟩

/-- The file ends after one byte, and it is read again and again; after an error three bytes are
    read to the place before the buffer. -/
theorem endless_read :
    (Valid 2 [.count 1, .count 0, .count 0] ∧
      (getResource (some 2) true true [.count 1, .count 0, .count 0]).1 =
        (.waiting, [⟨⟨2, 0⟩, .count 1⟩, ⟨⟨1, 1⟩, .count 0⟩, ⟨⟨1, 1⟩, .count 0⟩]) ∧
      ¬Loads 2 (getResource (some 2) true true [.count 1, .count 0, .count 0]).1) ∧
      Valid 2 [.failed (.other 5), .count 3] ∧
      (getResource (some 2) true true [.failed (.other 5), .count 3]).1.2 =
        [⟨⟨2, 0⟩, .failed (.other 5)⟩, ⟨⟨3, -1⟩, .count 3⟩] ∧
      ¬Loads 2 (getResource (some 2) true true [.failed (.other 5), .count 3]).1 := by
  refine ⟨⟨⟨by decide, fun _ => ⟨by decide, fun _ => ⟨by decide, fun _ => trivial⟩⟩⟩, by decide,
    fun h => ?_⟩, nofun, by decide, fun h => ?_⟩
  · exact absurd (h.gaveUp ⟨⟨1, 1⟩, .count 0⟩ (by decide) rfl) (by decide)
  · exact absurd (h.inside ⟨⟨3, -1⟩, .count 3⟩ (by decide)) (by decide)

end Mediabox.Resource
