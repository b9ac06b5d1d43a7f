import Mathlib.Data.List.Forall2
import Mediabox.Lib.Outcome

/-!
# `urldecode` (`src/lib/url_util.c`)

A pointer into a string is the list of the bytes from there to the end of the memory that holds it,
so that a read past that memory shows.  A `char` is a `UInt8`: the arithmetic is the same modulo
2^8, and `isxdigit` refuses what is not ASCII.

Main result: `urldecode_inverts`.
-/

set_option autoImplicit false

namespace Mediabox.UrlDecode

open Outcome

/-! ## The code -/

inductive Fault where
  /-- a byte behind the memory is read -/
  | past
  deriving DecidableEq, Repr

/-- `src[i]` -/
def peek (src : List UInt8) (i : Nat) : Except Fault UInt8 :=
  match src[i]? with
  | some c => .ok c
  | none => .error .past

def isxdigit (c : UInt8) : Bool :=
  ('0'.toUInt8 ≤ c && c ≤ '9'.toUInt8) || ('A'.toUInt8 ≤ c && c ≤ 'F'.toUInt8) ||
    ('a'.toUInt8 ≤ c && c ≤ 'f'.toUInt8)

/-- What is done to `a` and to `b`. -/
def hexValue (a : UInt8) : UInt8 :=
  let a := if 'a'.toUInt8 ≤ a then a - ('a'.toUInt8 - 'A'.toUInt8) else a
  if 'A'.toUInt8 ≤ a then a - ('A'.toUInt8 - 10) else a - '0'.toUInt8

/-- The first condition, with `a` and `b` if it holds. -/
def hexDigits (src : List UInt8) : Except Fault (Option (UInt8 × UInt8)) := do
  if (← peek src 0) ≠ '%'.toUInt8 then .ok none
  else
    let a ← peek src 1
    if a = 0 then .ok none
    else
      let b ← peek src 2
      if b = 0 then .ok none
      else if isxdigit a && isxdigit b then .ok (some (a, b)) else .ok none

/-- `urldecode`: the bytes that are written to `dst`. -/
def urldecode : List UInt8 → Except Fault (List UInt8)
  | [] => .error .past
  | c :: src =>
    if c = 0 then .ok [0]
    else do
      match ← hexDigits (c :: src) with
      | some (a, b) =>
        let dst ← urldecode (src.drop 2)
        .ok ((16 * hexValue a + hexValue b) :: dst)
      | none =>
        let dst ← urldecode src
        .ok ((if c = '+'.toUInt8 then ' '.toUInt8 else c) :: dst)
termination_by src => src.length
decreasing_by
  · rw [List.length_drop, List.length_cons]
    omega
  · exact Nat.lt_succ_self _

/-! ## Encodings -/

/-- The hexadecimal digit of a number, in either case. -/
def digitsOf (n : Fin 16) : List UInt8 :=
  ["0123456789ABCDEF", "0123456789abcdef"].map fun digits => (digits.toList.getD n '0').toUInt8

/-- The ways to write a byte. -/
inductive Encodes : UInt8 → List UInt8 → Prop where
  | itself (c : UInt8) (hpercent : c ≠ '%'.toUInt8) (hplus : c ≠ '+'.toUInt8) : Encodes c [c]
  | plus : Encodes ' '.toUInt8 ['+'.toUInt8]
  | percent (x y : UInt8) (n m : Fin 16) (hx : x ∈ digitsOf n) (hy : y ∈ digitsOf m) :
    Encodes (UInt8.ofNat (16 * n + m)) ['%'.toUInt8, x, y]

/-- The ways to write a string, byte by byte. -/
def Encoding (s e : List UInt8) : Prop :=
  ∃ pieces, List.Forall₂ Encodes s pieces ∧ e = pieces.flatten

variable {c : UInt8} {s e piece src : List UInt8}

theorem digit_spec : ∀ n : Fin 16, ∀ x ∈ digitsOf n,
    x ≠ 0 ∧ isxdigit x = true ∧ hexValue x = UInt8.ofNat n := by
  simp only [digitsOf, List.map_cons, List.map_nil, List.forall_mem_cons]
  decide +kernel

theorem ofNat_digits : ∀ n m : Fin 16,
    16 * UInt8.ofNat n + UInt8.ofNat m = UInt8.ofNat (16 * n + m) := by
  decide +kernel

/-! ## One turn of the loop -/

theorem urldecode_terminator (src : List UInt8) : urldecode (0 :: src) = .ok [0] := by
  rw [urldecode, if_pos rfl]

/-- A byte that does not begin an escape. -/
theorem urldecode_plain (hc : c ≠ 0) (h : hexDigits (c :: src) = .ok none) :
    urldecode (c :: src) = (urldecode src).map
      ((if c = '+'.toUInt8 then ' '.toUInt8 else c) :: ·) := by
  rw [urldecode, if_neg hc, h]
  cases urldecode src <;> rfl

theorem urldecode_escape {a b : UInt8} (hc : c ≠ 0)
    (h : hexDigits (c :: src) = .ok (some (a, b))) :
    urldecode (c :: src) = (urldecode (src.drop 2)).map
      ((16 * hexValue a + hexValue b) :: ·) := by
  rw [urldecode, if_neg hc, h]
  cases urldecode (src.drop 2) <;> rfl

theorem hexDigits_of_ne (hc : c ≠ '%'.toUInt8) : hexDigits (c :: src) = .ok none := by
  simp only [hexDigits, peek, List.getElem?_cons_zero, bind, Except.bind, ne_eq, hc,
    not_false_eq_true, if_true]

/-- **One byte**: what encodes it is read as a whole, and gives it back. -/
theorem urldecode_piece (h : Encodes c piece) (hc : c ≠ 0) (rest : List UInt8) :
    urldecode (piece ++ rest) = (urldecode rest).map (c :: ·) := by
  cases h with
  | itself _ hpercent hplus =>
    rw [List.singleton_append, urldecode_plain hc (hexDigits_of_ne hpercent), if_neg hplus]
  | plus =>
    rw [List.singleton_append, urldecode_plain (by decide) (hexDigits_of_ne (by decide)),
      if_pos rfl]
  | percent x y n m hx hy =>
    obtain ⟨hx0, hxdigit, hxvalue⟩ := digit_spec n x hx
    obtain ⟨hy0, hydigit, hyvalue⟩ := digit_spec m y hy
    have hdigits : hexDigits (['%'.toUInt8, x, y] ++ rest) = .ok (some (x, y)) := by
      simp [hexDigits, peek, bind, Except.bind, hx0, hy0, hxdigit, hydigit]
    rw [List.cons_append] at hdigits ⊢
    rw [urldecode_escape (by decide) hdigits, hxvalue, hyvalue, ofNat_digits]
    rfl

/-- **A whole string**, by induction on its bytes. -/
theorem urldecode_pieces {pieces : List (List UInt8)} (h : List.Forall₂ Encodes s pieces)
    (hs : 0 ∉ s) : urldecode (pieces.flatten ++ [0]) = .ok (s ++ [0]) := by
  induction h with
  | nil => exact urldecode_terminator []
  | cons hpiece _ ih =>
    rw [List.mem_cons, not_or] at hs
    rw [List.flatten_cons, List.append_assoc, urldecode_piece hpiece (Ne.symm hs.1), ih hs.2]
    rfl

/-! ## Any string -/

/-- The condition reads no further than the terminator, and an escape ends before it. -/
theorem hexDigits_ensures (hsrc : 0 ∉ src) :
    Ensures (hexDigits (c :: src ++ [0])) (fun r => r ≠ none → 2 ≤ src.length) fun _ => False := by
  by_cases hpercent : c = '%'.toUInt8
  · match src with
    | [] => simp [hexDigits, peek, hpercent]
    | [a] =>
      have ha : a ≠ 0 := fun h => hsrc (h ▸ List.mem_singleton_self _)
      simp [hexDigits, peek, hpercent, ha]
    | a :: b :: src =>
      refine Ensures.imp (Q := fun _ => True) ?_ fun _ _ _ => Nat.le_add_left 2 _
      simp [hexDigits, peek, hpercent, ensures_ite]
  · rw [List.cons_append, hexDigits_of_ne hpercent]
    exact fun hne => absurd rfl hne

/-- **Any string**: it is read up to its terminator, and the output is not longer. -/
theorem urldecode_ensures : ∀ src : List UInt8, 0 ∉ src →
    Ensures (urldecode (src ++ [0])) (fun dst => ∃ out : List UInt8, dst = out ++ [0] ∧
      out.length ≤ src.length) fun _ => False
  | [], _ => by
    rw [List.nil_append, urldecode_terminator]
    exact ⟨[], rfl, Nat.zero_le _⟩
  | c :: src, hsrc => by
    rw [List.mem_cons, not_or] at hsrc
    have hc : c ≠ 0 := Ne.symm hsrc.1
    rw [List.cons_append, urldecode, if_neg hc, ensures_bind]
    refine (hexDigits_ensures hsrc.2).imp fun r hr => ?_
    cases r with
    | none =>
      rw [ensures_bind]
      refine (urldecode_ensures src hsrc.2).imp ?_
      rintro _ ⟨out, rfl, hout⟩
      exact ⟨_ :: out, rfl, Nat.succ_le_succ hout⟩
    | some ab =>
      have hlen : 2 ≤ src.length := hr nofun
      have hrest : 0 ∉ src.drop 2 := fun h => hsrc.2 (List.mem_of_mem_drop h)
      rw [ensures_bind, List.drop_append_of_le_length hlen]
      refine (urldecode_ensures (src.drop 2) hrest).imp ?_
      rintro _ ⟨out, rfl, hout⟩
      refine ⟨_ :: out, rfl, ?_⟩
      rw [List.length_drop] at hout
      rw [List.length_cons, List.length_cons]
      omega
termination_by src => src.length
decreasing_by
  · exact Nat.lt_succ_self _
  · rw [List.length_drop, List.length_cons]
    omega

/-- **Decoding inverts encoding**: every encoding of a string is decoded to it, and any string at
    all is decoded without a read past its terminator and to at most its length. -/
theorem urldecode_inverts (hs : 0 ∉ s) (he : Encoding s e) (hsrc : 0 ∉ src) :
    urldecode (e ++ [0]) = .ok (s ++ [0]) ∧
      Ensures (urldecode (src ++ [0])) (fun dst => ∃ out : List UInt8, dst = out ++ [0] ∧
        out.length ≤ src.length) fun _ => False := by
  obtain ⟨pieces, hpieces, rfl⟩ := he
  exact ⟨urldecode_pieces hpieces hs, urldecode_ensures src hsrc⟩

/-- A space and a letter, `+%6a`, and a string that ends within an escape. -/
theorem urldecode_inverts_space :
    urldecode (['+'.toUInt8, '%'.toUInt8, '6'.toUInt8, 'a'.toUInt8] ++ [0]) =
        .ok ([' '.toUInt8, 'j'.toUInt8] ++ [0]) ∧
      Ensures (urldecode (['%'.toUInt8, '6'.toUInt8] ++ [0])) (fun dst =>
        ∃ out : List UInt8, dst = out ++ [0] ∧ out.length ≤ ['%'.toUInt8, '6'.toUInt8].length)
        fun _ => False :=
  urldecode_inverts (by decide)
    ⟨[['+'.toUInt8], ['%'.toUInt8, '6'.toUInt8, 'a'.toUInt8]],
      .cons .plus (.cons (.percent _ _ 6 10 (by decide) (by decide)) .nil), rfl⟩
    (by decide)

end Mediabox.UrlDecode
