import Mathlib
import Mediabox.Lib.MachineInt
import Mediabox.Lib.Outcome
import Mediabox.TorrentPieces
import Mediabox.TorrentStream

/-!
# Seeking in a torrent (`src/lib/torrent_in.c`, `src/lib/torrent_stream.cpp`)

`avbox_torrentin_seek`, the callback that libavformat calls, computes the position of
`avbox_torrent_seek`, ignores what that returns, and returns the position of the stream.

* Offsets are `int64_t`, and the sum of the position and an offset wraps.
* `adjusts` says whether `adjust_priorities` returns for a stream; an assertion in it can fail for a
  position before the file.
* `torrentin_seek_eq` — the callback, for each `whence`: a seek to `asked`.
* With `SEEK_END` the offset is not used, and a seek that is refused reports the old position.

Main result: `torrentin_seek_iff` — the result is what the caller may rely on if and only if the
seek is refused at the position that was requested or at a negative one, or it is taken, the sum
does not wrap, an offset from the end is 0, and the position is not negative or stays.
-/

set_option autoImplicit false

namespace Mediabox.TorrentSeek

open MachineInt Outcome

/-- The part of `struct avbox_torrent` that seeking uses. -/
structure Torrent where
  pos : Int
  raPos : Int
  filesize : Int
  haveMetadata : Bool
  closed : Bool
  deriving DecidableEq, Repr

/-- `struct avbox_torrentin` -/
structure TorrentIn where
  closed : Bool
  stream : Torrent
  deriving DecidableEq, Repr

inductive Fault where
  /-- `ABORT`, or an assertion that fails -/
  | abort
  deriving DecidableEq, Repr

def avseekSize : BitVec 32 := 0x10000

def avseekForce : BitVec 32 := 0x20000

def avseekFlagFrame : BitVec 32 := 8

def seekCur : BitVec 32 := 1

def seekEnd : BitVec 32 := 2

/-! ## The code -/

section Code

variable (adjusts : Torrent → Bool)

/-- `avbox_torrent_tell` -/
def tell (inst : Torrent) : Int := inst.pos

/-- `avbox_torrent_seek`: the torrent after the call, and what it returns. -/
def torrentSeek (inst : Torrent) (pos : Int) : Except Fault (Torrent × Int) :=
  if pos > inst.filesize then .ok (inst, -1)
  else if inst.closed then .ok (inst, -1)
  else
    let inst := { inst with pos := pos, raPos := pos }
    if inst.haveMetadata = true ∧ adjusts inst = false then .error .abort else .ok (inst, 0)

/-- The end of `avbox_torrentin_seek`: what `avbox_torrent_seek` returns is not used. -/
def seekAndTell (inst : TorrentIn) (pos : Int) : Except Fault (TorrentIn × Int) := do
  let (stream, _) ← torrentSeek adjusts inst.stream pos
  return ({ inst with stream := stream }, tell stream)

/-- `avbox_torrentin_seek` -/
def torrentinSeek (inst : TorrentIn) (pos : Int) (flags : BitVec 32) :
    Except Fault (TorrentIn × Int) :=
  if inst.closed then .ok (inst, -1)
  else
    let flags := flags &&& ~~~avseekForce
    if flags &&& avseekFlagFrame ≠ 0 then .error .abort
    else if flags &&& avseekSize ≠ 0 then
      .ok (inst, TorrentPieces.size inst.stream.haveMetadata inst.stream.filesize)
    else if flags &&& seekCur ≠ 0 then
      seekAndTell adjusts inst (wrap 64 (tell inst.stream + pos))
    else if flags &&& seekEnd ≠ 0 then
      let ret := TorrentPieces.size inst.stream.haveMetadata inst.stream.filesize
      if ret = -1 then .ok (inst, -1) else seekAndTell adjusts inst ret
    else seekAndTell adjusts inst pos

end Code

/-- A `whence` for which the callback positions the stream. -/
inductive Whence where
  | set
  | cur
  | fromEnd
  deriving DecidableEq, Repr

/-- `flags`, with `AVSEEK_FORCE` or without. -/
def Whence.flags (whence : Whence) (force : Bool) : BitVec 32 :=
  (match whence with
    | .set => 0
    | .cur => seekCur
    | .fromEnd => seekEnd) ||| if force then avseekForce else 0

/-! ## What is asked of the torrent -/

section Seek

variable {adjusts : Torrent → Bool} {inst : TorrentIn} {s : Torrent} {whence : Whence}
  {offset pos : Int} {force : Bool}

/-- The absolute position that the caller requests. -/
def requested (s : Torrent) (whence : Whence) (offset : Int) : Int :=
  match whence with
  | .set => offset
  | .cur => s.pos + offset
  | .fromEnd => s.filesize + offset

/-- The position that the callback gives to `avbox_torrent_seek`. -/
def asked (s : Torrent) (whence : Whence) (offset : Int) : Int :=
  match whence with
  | .set => offset
  | .cur => wrap 64 (s.pos + offset)
  | .fromEnd => s.filesize

/-- **The callback**: one seek, unless it is closed or the size is asked for before it is known. -/
theorem torrentin_seek_eq (hsize : s.filesize ≠ -1) :
    torrentinSeek adjusts ⟨false, s⟩ offset (whence.flags force) =
      if whence = .fromEnd ∧ s.haveMetadata = false then .ok (⟨false, s⟩, -1)
      else seekAndTell adjusts ⟨false, s⟩ (asked s whence offset) := by
  cases whence with
  | set | cur => cases force <;> rfl
  | fromEnd =>
    have hflags : torrentinSeek adjusts ⟨false, s⟩ offset (Whence.fromEnd.flags force) =
        if TorrentPieces.size s.haveMetadata s.filesize = -1 then .ok (⟨false, s⟩, -1)
        else seekAndTell adjusts ⟨false, s⟩ (TorrentPieces.size s.haveMetadata s.filesize) := by
      cases force <;> rfl
    rw [hflags]
    unfold TorrentPieces.size asked
    cases s.haveMetadata with
    | false => rfl
    | true => exact if_neg hsize

/-- The torrent refuses the seek. -/
def Refused (s : Torrent) (pos : Int) : Prop := s.filesize < pos ∨ s.closed = true

/-- An assertion of `adjust_priorities` fails at that position. -/
def Stops (adjusts : Torrent → Bool) (s : Torrent) (pos : Int) : Prop :=
  s.haveMetadata = true ∧ adjusts { s with pos := pos, raPos := pos } = false

theorem torrentSeek_refused (h : Refused s pos) : torrentSeek adjusts s pos = .ok (s, -1) := by
  unfold torrentSeek
  rcases h with hpast | hclosed
  · exact if_pos hpast
  · rw [if_pos hclosed, ite_self]

theorem torrentSeek_taken (h : ¬Refused s pos) :
    torrentSeek adjusts s pos =
      if s.haveMetadata = true ∧ adjusts { s with pos := pos, raPos := pos } = false then
        .error .abort
      else .ok ({ s with pos := pos, raPos := pos }, 0) := by
  obtain ⟨hpast, hclosed⟩ := not_or.mp h
  unfold torrentSeek
  rw [if_neg hpast, if_neg hclosed]

/-- The torrent of a stream whose metadata is known. -/
def Torrent.of {τ α : Type*} (g : TorrentStream.Geometry) (s : TorrentStream.State τ α) : Torrent :=
  ⟨s.pos, s.raPos, g.filesize, true, s.closed⟩

/-- The seek is that of `TorrentStream.step`, where `adjust_priorities` returns. -/
theorem torrentSeek_of {τ α : Type*} (g : TorrentStream.Geometry) (s : TorrentStream.State τ α)
    (pos : Int) (hadjusts : ∀ t, adjusts t = true) :
    (torrentSeek adjusts (.of g s) pos).map Prod.fst =
      .ok (.of g (TorrentStream.seek g s pos).1) := by
  unfold TorrentStream.seek
  by_cases hrefused : Refused (.of g s) pos
  · rw [torrentSeek_refused hrefused]
    rcases hrefused with hpast | hclosed
    · rw [if_pos (show pos > g.filesize from hpast)]
      rfl
    · rw [if_pos (show s.closed = true from hclosed), ite_self]
      rfl
  · rw [torrentSeek_taken hrefused, if_neg (by simp [hadjusts])]
    obtain ⟨hpast, hclosed⟩ := not_or.mp hrefused
    rw [if_neg (show ¬pos > g.filesize from hpast), if_neg (show ¬s.closed = true from hclosed)]
    rfl

/-- What a caller relies on: a result that is not negative is the position that was requested, and
    that of the stream; a negative one leaves the stream where it was.  Nothing is promised of a
    call that does not return. -/
def Reliable (s : Torrent) (whence : Whence) (offset : Int)
    (x : Except Fault (TorrentIn × Int)) : Prop :=
  Ensures x
    (fun y => (0 ≤ y.2 → y.1.stream.pos = requested s whence offset ∧ y.1.stream.pos = y.2) ∧
      (y.2 < 0 → y.1.stream.pos = s.pos)) fun _ => True

/-- A seek that is refused reports the old position. -/
theorem reliable_refused (h : Refused s pos) :
    Reliable s whence offset (seekAndTell adjusts ⟨false, s⟩ pos) ↔
      s.pos < 0 ∨ s.pos = requested s whence offset := by
  unfold seekAndTell
  rw [torrentSeek_refused h]
  show (0 ≤ s.pos → s.pos = requested s whence offset ∧ s.pos = s.pos) ∧
    (s.pos < 0 → s.pos = s.pos) ↔ _
  omega

theorem reliable_taken (h : ¬Refused s pos) :
    Reliable s whence offset (seekAndTell adjusts ⟨false, s⟩ pos) ↔
      Stops adjusts s pos ∨
        (0 ≤ pos → pos = requested s whence offset) ∧ (pos < 0 → pos = s.pos) := by
  unfold seekAndTell Stops
  rw [torrentSeek_taken h]
  split
  · rename_i hstops
    exact iff_of_true trivial (.inl hstops)
  · rename_i hstays
    rw [or_iff_right hstays]
    show (0 ≤ pos → pos = requested s whence offset ∧ pos = pos) ∧ (pos < 0 → pos = s.pos) ↔ _
    omega

/-- The position and the offset are `int64_t`, and so is the size, which is not negative. -/
structure Wide (s : Torrent) (offset : Int) : Prop where
  pos : InRange 64 s.pos
  offset : InRange 64 offset
  filesize : 0 ≤ s.filesize

/-- The callback asks for the position that is requested: the sum does not wrap, and an offset from
    the end is 0. -/
def Passed (s : Torrent) (whence : Whence) (offset : Int) : Prop :=
  match whence with
  | .set => True
  | .cur => InRange 64 (s.pos + offset)
  | .fromEnd => offset = 0

theorem asked_eq_iff (s : Torrent) (whence : Whence) (offset : Int) :
    asked s whence offset = requested s whence offset ↔ Passed s whence offset := by
  cases whence with
  | set => exact iff_of_true rfl trivial
  | cur => exact wrap_eq_self_iff (by decide)
  | fromEnd =>
    show s.filesize = s.filesize + offset ↔ offset = 0
    omega

/-- A position that is not the requested one is not the old one either, if it is negative. -/
theorem asked_ne_pos (h : Wide s offset) (hnot : ¬Passed s whence offset)
    (hneg : asked s whence offset < 0) : asked s whence offset ≠ s.pos := by
  cases whence with
  | set => exact absurd trivial hnot
  | cur =>
    intro heq
    have hdvd := dvd_wrap_sub 64 (s.pos + offset)
    rw [show wrap 64 (s.pos + offset) = s.pos from heq] at hdvd
    have hoffset := inRange_64.mp h.offset
    have hzero : offset = 0 := by omega
    refine hnot ?_
    rw [Passed, hzero, Int.add_zero]
    exact h.pos
  | fromEnd => exact absurd h.filesize (Int.not_le.mpr hneg)

/-- When the callback can be relied on. -/
def Sought (adjusts : Torrent → Bool) (s : Torrent) (whence : Whence) (offset : Int) : Prop :=
  (Refused s (asked s whence offset) ∧ (s.pos < 0 ∨ s.pos = requested s whence offset)) ∨
    (¬Refused s (asked s whence offset) ∧ (Stops adjusts s (asked s whence offset) ∨
      Passed s whence offset ∧ (0 ≤ requested s whence offset ∨ requested s whence offset = s.pos)))

theorem reliable_seek_iff (h : Wide s offset) :
    Reliable s whence offset (seekAndTell adjusts ⟨false, s⟩ (asked s whence offset)) ↔
      Sought adjusts s whence offset := by
  unfold Sought
  by_cases hrefused : Refused s (asked s whence offset)
  · rw [reliable_refused hrefused, and_iff_right hrefused]
    exact (or_iff_left fun hno => hno.1 hrefused).symm
  · have hasked := asked_eq_iff s whence offset
    rw [reliable_taken hrefused]
    refine Iff.trans ?_ (or_iff_right fun hno => hrefused hno.1).symm
    rw [and_iff_right hrefused]
    refine or_congr_right ?_
    by_cases hpassed : Passed s whence offset
    · rw [and_iff_right hpassed, hasked.mpr hpassed]
      omega
    · have hne := mt hasked.mp hpassed
      have hpos := asked_ne_pos h hpassed
      refine iff_of_false (fun hreliable => ?_) fun hno => hpassed hno.1
      rcases Int.lt_or_le (asked s whence offset) 0 with hneg | hnn
      · exact hpos hneg (hreliable.2 hneg)
      · exact hne (hreliable.1 hnn)

/-- **Seeking**: the result of the callback can be relied on if and only if it is closed, or the end
    is asked for before the metadata, or the seek is refused or taken as `Sought` says. -/
theorem torrentin_seek_iff (adjusts : Torrent → Bool) (inst : TorrentIn) (whence : Whence)
    (force : Bool) (offset : Int) (h : Wide inst.stream offset) :
    Reliable inst.stream whence offset
        (torrentinSeek adjusts inst offset (whence.flags force)) ↔
      inst.closed = true ∨ (whence = .fromEnd ∧ inst.stream.haveMetadata = false) ∨
        Sought adjusts inst.stream whence offset := by
  obtain ⟨closed, s⟩ := inst
  have hsize := h.filesize
  have hrefuses : ∀ closed, Reliable s whence offset (.ok (⟨closed, s⟩, -1)) := fun _ =>
    ⟨fun hnn => absurd (show (0 : Int) ≤ -1 from hnn) (by decide), fun _ => rfl⟩
  cases closed with
  | true => exact iff_of_true (hrefuses true) (.inl rfl)
  | false =>
    rw [torrentin_seek_eq (show s.filesize ≠ -1 by dsimp only at hsize; omega)]
    by_cases hend : whence = .fromEnd ∧ s.haveMetadata = false
    · rw [if_pos hend]
      exact iff_of_true (hrefuses false) (.inr (.inl hend))
    · rw [if_neg hend, reliable_seek_iff h, or_iff_right Bool.false_ne_true, or_iff_right hend]

/-- A stream of 100 bytes at its start. -/
def atStart : TorrentIn := ⟨false, ⟨0, 0, 100, true, false⟩⟩

/-- A seek into the file. -/
theorem seek_inside :
    Reliable atStart.stream .set 50
      (torrentinSeek (fun _ => true) atStart 50 (Whence.set.flags false)) :=
  (torrentin_seek_iff (fun _ => true) atStart .set false 50 ⟨by decide, by decide, by decide⟩).mpr
    (.inr (.inr (.inr ⟨by unfold Refused; decide, .inr ⟨trivial, by decide⟩⟩)))

example : torrentinSeek (fun _ => true) atStart 200 (Whence.set.flags false) = .ok (atStart, 0) :=
  rfl

/-- **A seek past the end is refused and reports the old position.** -/
theorem seek_past_end :
    ¬∀ (adjusts : Torrent → Bool) (inst : TorrentIn) (whence : Whence) (force : Bool)
      (offset : Int), Wide inst.stream offset →
      Reliable inst.stream whence offset
        (torrentinSeek adjusts inst offset (whence.flags force)) := by
  intro hclaim
  have hreliable := hclaim (fun _ => true) atStart .set false 200 ⟨by decide, by decide, by decide⟩
  exact absurd (hreliable.1 (Int.le_refl 0)).1 (by decide)

end Seek

end Mediabox.TorrentSeek
