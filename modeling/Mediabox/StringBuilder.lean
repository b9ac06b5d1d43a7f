import Mediabox.Lib.Transition
import Mediabox.LibraryNames
import Mediabox.Lib.MachineInt

/-!
# The string builder (`src/lib/string_util.c`)

`avbox_stringbuilder_append` writes a string behind the one in the buffer, and first moves that one
to a larger buffer when the room is used up.

* A buffer is a number of bytes, and what is in those that were written.  A copy from or to a place
  outside is a fault.
* Each call is given with whether `malloc` succeeds, should the code get there.  The string is not
  in the buffer of the builder.

Main result: `stringbuilder_represents`.
-/

set_option autoImplicit false

namespace Mediabox.StringBuilder

open Library (CString)
open MachineInt Outcome Transition

/-! ## Memory -/

structure Buffer where
  room : Nat
  byte : Nat → Option Char

inductive Fault where
  /-- a copy from or to a place outside a buffer -/
  | outside
  deriving DecidableEq, Repr

/-- `malloc(n)` -/
def malloc (n : Nat) : Buffer := ⟨n, fun _ => none⟩

/-- A string with its NUL. -/
def stored (str : CString) : Buffer := ⟨str.length + 1, fun i => (str ++ ['\x00'])[i]?⟩

/-- `memcpy(dst + offset, src, n)` -/
def memcpy (dst : Buffer) (offset : Nat) (src : Buffer) (n : Nat) : Except Fault Buffer :=
  if offset + n ≤ dst.room ∧ n ≤ src.room then
    .ok ⟨dst.room, fun i => if offset ≤ i ∧ i < offset + n then src.byte (i - offset)
      else dst.byte i⟩
  else .error .outside

/-- The string that starts at `i`, of which `n` bytes may be read. -/
def read (byte : Nat → Option Char) : Nat → Nat → Option CString
  | _, 0 => none
  | i, n + 1 => (byte i).bind fun c =>
    if c = '\x00' then some [] else (read byte (i + 1) n).map (c :: ·)

/-! ## The code -/

/-- `struct avbox_stringbuilder` -/
structure Builder where
  buf : Buffer
  size : Nat
  capacity : Nat

/-- `AVBOX_STRINGBUILDER_EXTRA_ROOM` -/
def extraRoom : Nat := 512

/-- A call of `avbox_stringbuilder_append`. -/
structure Call where
  str : CString
  memory : Bool
  deriving DecidableEq, Repr

/-- `avbox_stringbuilder_cstr`, and what is found there. -/
def cstr (inst : Builder) : Option CString := read inst.buf.byte 0 inst.buf.room

/-- A larger buffer for a string of length `len`; nothing if there is no memory. -/
def grow (inst : Builder) (len : Nat) (memory : Bool) : Except Fault (Option Builder) :=
  if inst.capacity ≤ size (inst.size + len) then
    let capacity := wrap 32 (size (inst.size + len + extraRoom))
    if memory then do
      let buf ← memcpy (malloc (size capacity)) 0 inst.buf (inst.size + 1)
      .ok (some ⟨buf, inst.size, size capacity⟩)
    else .ok none
  else .ok (some inst)

/-- `avbox_stringbuilder_append` -/
def append (inst : Builder) (c : Call) : Except Fault (Builder × Int) := do
  match ← grow inst c.str.length c.memory with
  | none => .ok (inst, -1)
  | some inst =>
    let buf ← memcpy inst.buf inst.size (stored c.str) (c.str.length + 1)
    let total := size (inst.size + c.str.length)
    .ok (⟨buf, total, inst.capacity⟩, wrap 64 total)

/-- `avbox_stringbuilder_new`, with whether there is memory for the builder and for its buffer. -/
def new (capacity : Int) (memory : Bool × Bool) : Except Fault (Option Builder) :=
  if memory.1 then
    let capacity := if capacity = 0 then (extraRoom : Int) else capacity
    if memory.2 then do
      -- `inst->buf[0] = '\0'`
      let buf ← memcpy (malloc (size capacity)) 0 (stored []) 1
      .ok (some ⟨buf, 0, size capacity⟩)
    else .ok none
  else .ok none

/-! ## What it is for -/

def step (inst : Builder) (c : Call) : Option (Builder × Int) := (append inst c).toOption

abbrev Label := Call × Int

/-- The strings whose append did not return -1, one after the other. -/
def contents (tr : List Label) : CString :=
  tr.flatMap fun a => if a.2 = -1 then [] else a.1.str

/-- The length of all strings. -/
def total (tr : List Label) : Nat := (tr.map fun a => a.1.str.length).sum

structure Represents (inst : Builder) (s : CString) : Prop where
  cstr : cstr inst = some s
  size : inst.size = s.length
  room : inst.size < inst.capacity
  terminator : inst.buf.byte inst.size = some '\x00'
  allocated : inst.buf.room = inst.capacity

/-! ## Copies -/

/-- The string with its NUL is at the start of the buffer. -/
def Holds (b : Buffer) (s : CString) : Prop := ∀ i ≤ s.length, b.byte i = (s ++ ['\x00'])[i]?

variable {b d : Buffer} {s : CString} {inst inst' : Builder} {len : Nat} {memory : Bool}

theorem holds_stored (s : CString) : Holds (stored s) s := fun _ _ => rfl

/-- A string behind another one, over the NUL of that one. -/
theorem memcpy_behind (h : Holds b s) (str : CString) (hroom : s.length + str.length < b.room) :
    ∃ d, memcpy b s.length (stored str) (str.length + 1) = .ok d ∧ Holds d (s ++ str) ∧
      d.room = b.room := by
  refine ⟨_, if_pos ⟨by omega, Nat.le_refl _⟩, fun i hi => ?_, rfl⟩
  rw [List.length_append] at hi
  rw [List.append_assoc]
  dsimp only
  split
  · rename_i hbehind
    rw [List.getElem?_append_right hbehind.1]
    rfl
  · rename_i hbefore
    have hlt : i < s.length := by omega
    rw [h i (Nat.le_of_lt hlt), List.getElem?_append_left hlt, List.getElem?_append_left hlt]

theorem memcpy_start (h : Holds b s) (hb : s.length < b.room) (hd : s.length < d.room) :
    ∃ e, memcpy d 0 b (s.length + 1) = .ok e ∧ Holds e s ∧ e.room = d.room := by
  refine ⟨_, if_pos ⟨by omega, hb⟩, fun i hi => ?_, rfl⟩
  dsimp only
  rw [if_pos (by omega), Nat.sub_zero, h i hi]

theorem read_of_holds {byte : Nat → Option Char} {k n : Nat} (hnul : '\x00' ∉ s)
    (h : ∀ i ≤ s.length, byte (k + i) = (s ++ ['\x00'])[i]?) (hn : s.length < n) :
    read byte k n = some s := by
  induction s generalizing k n with
  | nil =>
    obtain ⟨n, rfl⟩ := Nat.exists_eq_succ_of_ne_zero (Nat.ne_of_gt hn)
    have hnil := h 0 (Nat.le_refl _)
    rw [Nat.add_zero] at hnil
    rw [read, hnil]
    rfl
  | cons c s ih =>
    obtain ⟨n, rfl⟩ := Nat.exists_eq_succ_of_ne_zero (Nat.ne_of_gt (Nat.zero_lt_of_lt hn))
    obtain ⟨hc, hs⟩ := not_or.mp (List.mem_cons.not.mp hnul)
    have hfirst := h 0 (Nat.zero_le _)
    rw [Nat.add_zero] at hfirst
    have hrest := ih hs (k := k + 1) (fun i hi => by
      rw [Nat.add_right_comm]
      exact h (i + 1) (Nat.succ_le_succ hi)) (Nat.lt_of_succ_lt_succ hn)
    rw [read, hfirst]
    simp [Ne.symm hc, hrest]

/-! ## One call -/

/-- The string is in the buffer, and with its NUL it is shorter than that. -/
structure Inv (inst : Builder) (s : CString) : Prop where
  holds : Holds inst.buf s
  size : inst.size = s.length
  room : s.length < inst.capacity
  allocated : inst.buf.room = inst.capacity

/-- The new capacity is large enough, also when it is not one of type `int`. -/
theorem lt_capacity {n : Nat} (h : n < 2 ^ 31) : n < size (wrap 32 (n + extraRoom : Nat)) := by
  rcases Nat.lt_or_ge (n + extraRoom) (2 ^ 31) with hlt | hge
  · rw [wrap_natCast_32 hlt, size_natCast (by omega), extraRoom]
    omega
  · have hlow := (wrap_inRange (w := 32) (by decide) (n + extraRoom : Nat)).1
    have hhigh : wrap 32 (n + extraRoom : Nat) + 2 ^ 32 ≤ (n + extraRoom : Nat) :=
      wrap_add_le (by decide) (by omega)
    rw [extraRoom] at *
    rw [size]
    omega

/-- **Growing** keeps the string, or fails and leaves everything as it is. -/
theorem grow_inv (h : Inv inst s) (hlen : s.length + len < 2 ^ 31) (memory : Bool) :
    grow inst len memory = .ok none ∨
      ∃ inst', grow inst len memory = .ok (some inst') ∧ Inv inst' s ∧
        s.length + len < inst'.capacity := by
  have hsum : size (inst.size + len) = s.length + len := by
    rw [h.size, ← Int.natCast_add, size_natCast (by omega)]
  unfold grow
  rw [hsum]
  split
  · have hcapacity : size (inst.size + len + extraRoom) = s.length + len + extraRoom := by
      rw [h.size, ← Int.natCast_add, ← Int.natCast_add,
        size_natCast (by rw [extraRoom]; omega)]
    rw [hcapacity]
    have hlarge := lt_capacity hlen
    dsimp only
    generalize size (wrap 32 (s.length + len + extraRoom : Nat)) = capacity at hlarge ⊢
    cases memory with
    | false => exact .inl rfl
    | true =>
      have hfits : s.length < (malloc capacity).room :=
        Nat.lt_of_le_of_lt (Nat.le_add_right _ len) hlarge
      obtain ⟨e, hcopy, hholds, hroom⟩ := memcpy_start h.holds (h.allocated ▸ h.room) hfits
      rw [h.size, if_pos rfl, hcopy]
      exact .inr ⟨⟨e, s.length, capacity⟩, rfl, ⟨hholds, rfl, hfits, hroom⟩, hlarge⟩
  · rename_i hroom
    exact .inr ⟨inst, rfl, h, Nat.not_le.mp hroom⟩

/-- **A call** adds its string and returns the new length, or returns -1 and changes nothing. -/
theorem append_inv (h : Inv inst s) (c : Call) (hlen : s.length + c.str.length < 2 ^ 31) :
    append inst c = .ok (inst, -1) ∨
      ∃ inst', append inst c = .ok (inst', (s.length + c.str.length : Nat)) ∧
        Inv inst' (s ++ c.str) := by
  unfold append
  rcases grow_inv h hlen c.memory with hgrow | ⟨inst', hgrow, h', hroom⟩
  · rw [hgrow]
    exact .inl rfl
  · obtain ⟨d, hcopy, hholds, hsame⟩ := memcpy_behind h'.holds c.str
      (h'.allocated ▸ hroom)
    have htotal : size (s.length + c.str.length) = s.length + c.str.length := by
      rw [← Int.natCast_add, size_natCast (by omega)]
    have hreturn : wrap 64 (s.length + c.str.length : Nat) = (s.length + c.str.length : Nat) :=
      wrap_of_inRange (by decide) (inRange_64.mpr (by omega))
    refine .inr ⟨⟨d, s.length + c.str.length, inst'.capacity⟩, ?_, hholds, ?_, ?_, ?_⟩
    · rw [hgrow, ← ensures_eq_iff, ensures_bind, ensures_ok]
      dsimp only
      rw [ensures_bind, h'.size, hcopy, ensures_ok, htotal, hreturn, ensures_ok]
    · exact (List.length_append).symm
    · rw [List.length_append]
      exact hroom
    · exact hsame.trans h'.allocated

/-! ## All calls -/

variable {capacity : Int} {tr : List Label}

theorem new_inv (hcapacity : 0 ≤ capacity) (hint : InRange 32 capacity) (memory : Bool × Bool) :
    new capacity memory = .ok none ∨ ∃ inst, new capacity memory = .ok (some inst) ∧ Inv inst [] := by
  obtain ⟨builder, buffer⟩ := memory
  rw [inRange_32] at hint
  have hpos : 0 < size (if capacity = 0 then (extraRoom : Int) else capacity) := by
    rw [size, extraRoom]
    split <;> omega
  unfold new
  dsimp only
  generalize size (if capacity = 0 then (extraRoom : Int) else capacity) = room at hpos ⊢
  cases builder with
  | false => exact .inl rfl
  | true =>
    cases buffer with
    | false => exact .inl rfl
    | true =>
      obtain ⟨d, hcopy, hholds, hsame⟩ :=
        memcpy_start (d := malloc room) (holds_stored []) Nat.zero_lt_one hpos
      refine .inr ⟨⟨d, 0, room⟩, ?_, hholds, rfl, hpos, hsame⟩
      rw [if_pos rfl, if_pos rfl]
      rw [List.length_nil] at hcopy
      rw [hcopy]
      rfl

theorem contents_append (tr : List Label) (a : Label) :
    contents (tr ++ [a]) = contents tr ++ if a.2 = -1 then [] else a.1.str := by
  simp [contents]

theorem total_append (tr : List Label) (a : Label) :
    total (tr ++ [a]) = total tr + a.1.str.length := by
  simp [total]

theorem length_contents_le (tr : List Label) : (contents tr).length ≤ total tr := by
  induction tr with
  | nil => exact Nat.le_refl _
  | cons a tr ih =>
    rw [contents, total] at *
    rw [List.flatMap_cons, List.length_append, List.map_cons, List.sum_cons]
    split
    · exact Nat.le_trans (by simp) (Nat.add_le_add_left ih _)
    · exact Nat.add_le_add_left ih _

theorem nul_not_mem_contents (h : ∀ a ∈ tr, '\x00' ∉ a.1.str) : '\x00' ∉ contents tr := by
  intro hmem
  obtain ⟨a, ha, hc⟩ := List.mem_flatMap.mp hmem
  split at hc
  · exact List.not_mem_nil hc
  · exact h a ha hc

theorem represents_of_inv (h : Inv inst s) (hnul : '\x00' ∉ s) : Represents inst s where
  cstr := read_of_holds hnul (fun i hi => by rw [Nat.zero_add]; exact h.holds i hi)
    (h.allocated ▸ h.room)
  size := h.size
  room := h.size ▸ h.room
  terminator := by
    rw [h.size, h.holds _ (Nat.le_refl _), List.getElem?_append_right (Nat.le_refl _),
      Nat.sub_self]
    rfl
  allocated := h.allocated

/-- **One more call** after others. -/
theorem append_contents (h : Inv inst (contents tr)) (c : Call)
    (hlen : total tr + c.str.length < 2 ^ 31) :
    ∃ inst' r, append inst c = .ok (inst', r) ∧ Inv inst' (contents (tr ++ [(c, r)])) ∧
      (r = -1 → inst' = inst) := by
  have hle := length_contents_le tr
  obtain hfailed | ⟨inst', hok, hinv⟩ := append_inv h c (by omega)
  · refine ⟨inst, -1, hfailed, ?_, fun _ => rfl⟩
    rw [contents_append, if_pos rfl, List.append_nil]
    exact h
  · have hne : (((contents tr).length + c.str.length : Nat) : Int) ≠ -1 := by omega
    refine ⟨inst', _, hok, ?_, fun hr => absurd hr hne⟩
    rw [contents_append, if_neg hne]
    exact hinv

/-- **All calls** leave the strings that were appended in the buffer. -/
theorem inv_of_run (h : Inv inst []) (hrun : Run (Step step) inst tr inst')
    (hlen : total tr < 2 ^ 31) : Inv inst' (contents tr) := by
  have hhistory : total tr < 2 ^ 31 → Inv inst' (contents tr) := by
    refine Run.history (P := fun tr inst => total tr < 2 ^ 31 → Inv inst (contents tr))
      (fun _ => h) (fun tr t a u ht hstep hsum => ?_) hrun
    obtain ⟨c, r⟩ := a
    rw [total_append] at hsum
    obtain ⟨u', r', hok, hinv, -⟩ := append_contents (ht (by omega)) c hsum
    have hsome : some (u', r') = some (u, r) := by
      rw [← hstep, step, hok]
      rfl
    cases hsome
    exact hinv
  exact hhistory hlen

/-- **The builder holds what was appended**: after any calls with less than 2^31 bytes in all, on a
    builder of any capacity, the string is that of the calls that did not fail, with its NUL inside
    the buffer; one more call has no fault, and changes nothing if it fails. -/
theorem stringbuilder_represents (capacity : Int) (hcapacity : 0 ≤ capacity)
    (hint : InRange 32 capacity) (memory : Bool × Bool) :
    ∃ made, new capacity memory = .ok made ∧
      ∀ inst ∈ made, ∀ tr inst', Run (Step step) inst tr inst' →
        (∀ a ∈ tr, '\x00' ∉ a.1.str) → total tr < 2 ^ 31 →
        Represents inst' (contents tr) ∧
        ∀ c : Call, total tr + c.str.length < 2 ^ 31 →
          ∃ after r, append inst' c = .ok (after, r) ∧ (r = -1 → after = inst') := by
  have hmade (inst : Builder) (h : Inv inst []) {tr : List Label} {inst' : Builder}
      (hrun : Run (Step step) inst tr inst') (hnul : ∀ a ∈ tr, '\x00' ∉ a.1.str)
      (hlen : total tr < 2 ^ 31) : Represents inst' (contents tr) ∧
        ∀ c : Call, total tr + c.str.length < 2 ^ 31 →
          ∃ after r, append inst' c = .ok (after, r) ∧ (r = -1 → after = inst') := by
    have hinv := inv_of_run h hrun hlen
    refine ⟨represents_of_inv hinv (nul_not_mem_contents hnul), fun c hc => ?_⟩
    obtain ⟨after, r, hok, -, hfailed⟩ := append_contents hinv c hc
    exact ⟨after, r, hok, hfailed⟩
  rcases new_inv hcapacity hint memory with hnone | ⟨inst, hnew, hinv⟩
  · exact ⟨none, hnone, fun inst hinst => nomatch hinst⟩
  · refine ⟨some inst, hnew, fun inst₀ hinst₀ tr inst' hrun hnul hlen => ?_⟩
    cases hinst₀
    exact hmade inst hinv hrun hnul hlen

/-- The second string fills the buffer and needs a larger one, for which there is no memory at
    first. -/
theorem represents_filled : ∃ inst tr inst', new 3 (true, true) = .ok (some inst) ∧
    Run (Step step) inst tr inst' ∧ tr.map Prod.snd = [2, -1, 3] ∧
    Represents inst' ['a', 'b', 'c'] := by
  obtain ⟨made, hnew, hall⟩ := stringbuilder_represents 3 (by decide) (by decide) (true, true)
  have hexec : ((new 3 (true, true)).toOption.join.bind fun inst =>
      (exec step inst [⟨['a', 'b'], true⟩, ⟨['c'], false⟩, ⟨['c'], true⟩]).map fun r => r.2) =
      some [(⟨['a', 'b'], true⟩, 2), (⟨['c'], false⟩, -1), (⟨['c'], true⟩, 3)] := by
    decide +kernel
  rw [hnew] at hexec
  cases made with
  | none => cases hexec
  | some inst =>
    obtain ⟨⟨inst', tr⟩, hr, rfl⟩ := Option.map_eq_some_iff.mp hexec
    have hrun : Run (Step step) inst _ inst' := run_of_exec _ hr
    dsimp only at hrun
    exact ⟨inst, _, inst', hnew, hrun, rfl, (hall inst rfl _ _ hrun (by decide) (by decide)).1⟩

end Mediabox.StringBuilder
