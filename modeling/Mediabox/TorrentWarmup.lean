import Mathlib.Algebra.Order.Ring.Int
import Mathlib.Data.Int.Range
import Mediabox.Lib.Loop
import Mediabox.TorrentPieces
import Mediabox.TorrentWake

/-!
# The warm-up of a torrent (`src/lib/torrent_stream.cpp`)

`get_torrent_pos`, `__warmed`, `avbox_torrent_bufferstate`, `adjust_priorities` and the piece that
the read-ahead thread picks, over the pieces of a torrent that was opened for streaming.

* A fault is an assertion on the index of a piece that fails, the assertion on `have_metadata`, or a
  null pointer that is read.  Each function tests `have_metadata` first, so that the same assertion
  cannot fail in the helpers it calls.
* The two counters of `__warmed` are values that are there or not (a null pointer).
* `int` is 32 bits wide, and sums and products of `int` wrap; offsets in the torrent are below
  `n_pieces * piece_size` and fit in `int64_t`.
* The deadlines of `adjust_priorities` are in `Mediabox.TorrentDeadlines`.

Main results, each with the exact condition: `torrent_pos_available_iff` — the bytes up to
`get_torrent_pos` are there; `warmed_agrees_iff` — the check and the count of `__warmed` agree;
`complete_warm_iff` — a complete torrent is warm; `indices_in_range_iff` — the indices of pieces are
in range.
-/

set_option autoImplicit false

namespace Mediabox.TorrentWarmup

open Loop
open TorrentPieces (int32)
open TorrentStream (Geometry)
open TorrentWake (readaheadTail index_range)

/-- The part of `struct avbox_torrent` that the warm-up uses. -/
structure Torrent where
  g : Geometry
  pos : Int
  raPos : Int
  readaheadMin : Int
  haveMetadata : Bool
  warmed : Bool
  /-- `piece_status::ready`; 0 for a piece that `avail_pieces` does not have yet -/
  ready : Int → Bool
  nPieces_lt : g.nPieces < 2 ^ 31
  pieceSize_lt : g.pieceSize < 2 ^ 31
  pos_nonneg : 0 ≤ pos
  pos_le : pos ≤ g.filesize
  raPos_nonneg : 0 ≤ raPos
  raPos_le : raPos ≤ g.filesize
  readaheadMin_int : -2 ^ 31 ≤ readaheadMin ∧ readaheadMin < 2 ^ 31

/-- Why the program stops. -/
inductive Fault where
  /-- `ASSERT(index >= 0 && index < inst->n_pieces)` -/
  | index
  /-- `ASSERT(inst->have_metadata)` -/
  | metadata
  /-- a null pointer is read -/
  | null
  deriving DecidableEq, Repr

/-- `*avail` and `*total`; a null pointer is `none`. -/
structure Counters where
  avail : Option Int
  total : Option Int
  deriving DecidableEq, Repr

namespace Counters

/-- Both pointers are null. -/
def null : Counters := ⟨none, none⟩

def reset (c : Counters) : Counters := ⟨c.avail.map fun _ => 0, c.total.map fun _ => 0⟩

def addAvail (c : Counters) (n : Int) : Counters := { c with avail := c.avail.map (· + n) }

def addTotal (c : Counters) (n : Int) : Counters := { c with total := c.total.map (· + n) }

end Counters

section Code

variable (inst : Torrent)

/-- `offset_to_piece_index` -/
def offsetToPieceIndex (offset : Int) : Int := int32 (inst.g.offsetToPieceIndex offset)

/-- `piece_size` -/
def pieceSize (index : Int) : Except Fault Int :=
  if 0 ≤ index ∧ index < inst.g.nPieces then .ok (inst.g.pieceSizeOf index) else .error .index

/-- `have_piece` -/
def havePiece (index : Int) : Except Fault Bool :=
  if 0 ≤ index ∧ index < inst.g.nPieces then .ok (inst.ready index) else .error .index

/-- The loop of `get_torrent_pos`, for at most `fuel` pieces. -/
def getTorrentPosFrom : Nat → Int → Int → Except Fault Int
  | 0, _, pos => .ok pos
  | fuel + 1, pieceIndex, pos =>
    if pieceIndex < inst.g.nPieces then do
      if ← havePiece inst pieceIndex then
        getTorrentPosFrom fuel (pieceIndex + 1) (pos + (← pieceSize inst pieceIndex))
      else return pos
    else .ok pos

/-- `get_torrent_pos` -/
def getTorrentPos : Except Fault Int :=
  let pieceIndex := offsetToPieceIndex inst inst.pos
  if inst.haveMetadata then
    getTorrentPosFrom inst (inst.g.nPieces - pieceIndex).toNat pieceIndex inst.pos
  else .error .metadata

/-- `stream_n_pieces` -/
def streamNPieces : Int := offsetToPieceIndex inst (inst.g.filesize - 1) + 1

/-- The first of the pieces at the end of the file. -/
def firstPiece : Int :=
  max 0 (streamNPieces inst -
    (int32 (readaheadTail + inst.g.pieceSize - 1)).tdiv inst.g.pieceSize - 1)

/-- `inst->readahead_min * 2` -/
def wanted : Int := int32 (inst.readaheadMin * 2)

/-- The body of the first loop of `__warmed`; the flag says that `__warmed` has returned 0 and the
    turns that are left do nothing. -/
def tailTurn (pieceIndex : Int) (x : Counters × Bool) : Except Fault (Counters × Bool) :=
  if x.2 then .ok x
  else do
    if ← havePiece inst pieceIndex then
      let c ← if x.1.avail.isSome then pure (x.1.addAvail (← pieceSize inst pieceIndex))
        else pure x.1
      let c ← if c.total.isSome then pure (c.addTotal (← pieceSize inst pieceIndex)) else pure c
      return (c, false)
    else if x.1.total.isNone then return (x.1, true)
    else return (x.1.addTotal (← pieceSize inst pieceIndex), false)

/-- The body of the second loop of `__warmed`. -/
def countTurn (pieceIndex : Int) (c : Counters) : Except Fault Counters := do
  let c ← if ← havePiece inst pieceIndex then pure (c.addAvail (← pieceSize inst pieceIndex))
    else pure c
  return c.addTotal (← pieceSize inst pieceIndex)

/-- The `last_piece` of `__warmed`. -/
def lastPiece : Int := offsetToPieceIndex inst (inst.pos + wanted inst - 1)

/-- `__warmed`: the torrent and the counters after the call, and what it returns. -/
def warmedWith (c : Counters) : Except Fault (Torrent × Counters × Bool) :=
  if inst.warmed then .ok (inst, c, true)
  else if inst.haveMetadata = false then .ok (inst, c, false)
  else do
    -- check that we have all the pieces at the end
    let (c, returned) ← forUp (tailTurn inst) (firstPiece inst) (streamNPieces inst) (c.reset, false)
    if returned then return (inst, c, false)
    else if (← getTorrentPos inst) - inst.pos < wanted inst then
      if c.avail.isSome ∧ c.total.isSome then
        let c ← forUp (countTurn inst) (offsetToPieceIndex inst inst.pos) (lastPiece inst) c
        return (inst, c, false)
      else return (inst, c, false)
    else
      match c.avail, c.total with
      | some avail, some total =>
        if avail < total then return (inst, c, false)
        else return ({ inst with warmed := true }, c, true)
      | _, _ => .error .null

/-- `warmed` -/
def warmed : Except Fault (Torrent × Counters × Bool) := warmedWith inst .null

/-- The body of the loop of `avbox_torrent_bufferstate`. -/
def bufferTurn (i count : Int) : Except Fault Int := do
  if ← havePiece inst i then return count + inst.g.pieceSize else return count

/-- `avbox_torrent_bufferstate` after `__warmed` returned 1: `*count` and `*capacity`. -/
def bufferWarmed : Except Fault Counters :=
  if inst.haveMetadata = false then .error .metadata
  else do
    let torrentPos ← getTorrentPos inst
    if torrentPos < inst.g.filesize ∧ inst.pos + inst.readaheadMin < inst.g.filesize then
      let lastPiece := offsetToPieceIndex inst (min inst.g.filesize (inst.pos + inst.readaheadMin))
      let count ← forUp (bufferTurn inst) (offsetToPieceIndex inst torrentPos) lastPiece
        (min inst.readaheadMin (torrentPos - inst.pos))
      return ⟨some (min count inst.readaheadMin), some inst.readaheadMin⟩
    else return ⟨some inst.readaheadMin, some inst.readaheadMin⟩

/-- `avbox_torrent_bufferstate` -/
def bufferstate (c : Counters) : Except Fault (Torrent × Counters) := do
  let (inst, c, warm) ← warmedWith inst c
  if warm then return (inst, ← bufferWarmed inst) else return (inst, c)

/-- The body of the three loops of `adjust_priorities`: a missing piece gets a deadline. -/
def priorityTurn (pieceIndex : Int) (given : List Int) : Except Fault (List Int) := do
  if ← havePiece inst pieceIndex then return given else return given ++ [pieceIndex]

/-- `adjust_priorities`: the pieces that get a deadline, in this order. -/
def adjustPriorities : Except Fault (List Int) :=
  if inst.haveMetadata = false then .error .metadata
  else do
    -- `piece_index >= 0` holds from the first turn on
    let given ← forUp (priorityTurn inst) (firstPiece inst) (streamNPieces inst) []
    if inst.pos < inst.g.filesize then
      let position := offsetToPieceIndex inst inst.pos
      let given ← forUp (priorityTurn inst) position (firstPiece inst) given
      -- with `first_piece > 0` not met there is no turn
      forUp (priorityTurn inst) 0 position given
    else forUp (priorityTurn inst) 0 (firstPiece inst) given

/-- The first section of a round of `readahead`: the torrent after it, and the piece that is read
    next with its size. -/
def readahead (userWaiting : Bool) : Except Fault (Torrent × Option (Int × Int)) :=
  if inst.haveMetadata ∧ inst.raPos - inst.pos > inst.readaheadMin then
    if userWaiting then do
      let (inst, _) ← warmed inst
      return (inst, none)
    else .ok (inst, none)
  else if inst.haveMetadata ∧ inst.raPos < inst.g.filesize then do
    let nextPiece := offsetToPieceIndex inst inst.raPos
    if ← havePiece inst nextPiece then return (inst, some (nextPiece, ← pieceSize inst nextPiece))
    else return (inst, none)
  else .ok (inst, none)

end Code

/-! ## Pieces and positions -/

section Positions

variable {inst : Torrent}

theorem int32_of_range {x : Int} (hge : -2 ^ 31 ≤ x) (hlt : x < 2 ^ 31) : int32 x = x := by
  unfold int32
  rw [Int.bmod_def]
  split
  · omega
  · omega

/-- The piece of a position of the file or of its end. -/
theorem index_le_nPieces {g : Geometry} {p : Int} (h0 : 0 ≤ p) (hle : p ≤ g.filesize) :
    0 ≤ g.offsetToPieceIndex p ∧ g.offsetToPieceIndex p ≤ g.nPieces := by
  rcases Int.lt_or_eq_of_le hle with hlt | rfl
  · obtain ⟨hnn, hn⟩ := index_range h0 hlt
    exact ⟨hnn, by omega⟩
  · have hoff := g.fileOffset_nonneg
    refine ⟨Int.tdiv_nonneg (by omega) (Int.le_of_lt g.pieceSize_pos), ?_⟩
    by_contra hgt
    have hstart := g.start_le_start (show g.nPieces + 1 ≤ g.offsetToPieceIndex g.filesize by omega)
    have hfile := g.start_index_le h0
    have hsucc := g.start_succ g.nPieces
    have hlast := g.start_succ (g.nPieces - 1)
    have hinside := g.inside
    have hsize := g.lastPieceSize_le
    have hpos := g.pieceSize_pos
    have hdef : g.start (g.nPieces - 1) = (g.nPieces - 1) * g.pieceSize - g.fileOffset := rfl
    rw [Int.sub_add_cancel] at hlast
    omega

theorem offsetToPieceIndex_eq {p : Int} (h0 : 0 ≤ p) (hle : p ≤ inst.g.filesize) :
    offsetToPieceIndex inst p = inst.g.offsetToPieceIndex p := by
  obtain ⟨hnn, hn⟩ := index_le_nPieces h0 hle
  have hint := inst.nPieces_lt
  exact int32_of_range (by omega) (by omega)

/-- Also an offset before the file has no piece past the end of the torrent. -/
theorem offsetToPieceIndex_le {p : Int} (hint : -2 ^ 31 ≤ p) (hle : p ≤ inst.g.filesize) :
    offsetToPieceIndex inst p ≤ inst.g.nPieces := by
  by_cases h0 : 0 ≤ p
  · rw [offsetToPieceIndex_eq h0 hle]
    exact (index_le_nPieces h0 hle).2
  have hsize := inst.g.pieceSize_pos
  have hfile := inst.g.filesize_pos
  have hoff := inst.g.fileOffset_nonneg
  have hzero := (index_le_nPieces (g := inst.g) (Int.le_refl 0) (by omega)).2
  have hmax := inst.nPieces_lt
  have hrange : -2 ^ 31 ≤ inst.g.offsetToPieceIndex p ∧
      inst.g.offsetToPieceIndex p ≤ inst.g.nPieces := by
    unfold Geometry.offsetToPieceIndex at hzero ⊢
    rcases Int.le_total 0 (p + inst.g.fileOffset) with hnn | hneg
    · have hmono := Int.ediv_le_ediv hsize
        (show p + inst.g.fileOffset ≤ 0 + inst.g.fileOffset by omega)
      have hquot := Int.ediv_nonneg hnn (Int.le_of_lt hsize)
      rw [Int.tdiv_eq_ediv_of_nonneg (by omega)] at hzero ⊢
      omega
    · have hquot : (-(p + inst.g.fileOffset)).tdiv inst.g.pieceSize ≤ -(p + inst.g.fileOffset) := by
        rw [Int.tdiv_eq_ediv_of_nonneg (by omega)]
        exact Int.ediv_le_self _ (by omega)
      have hpos := Int.tdiv_nonneg (show 0 ≤ -(p + inst.g.fileOffset) by omega) (Int.le_of_lt hsize)
      have hn := index_range (g := inst.g) (p := 0) (Int.le_refl 0) hfile
      rw [Int.neg_tdiv] at hquot hpos
      omega
  unfold offsetToPieceIndex
  rw [int32_of_range hrange.1 (by omega)]
  exact hrange.2

/-- Where piece `i` starts in the file, and where the torrent ends. -/
def edge (g : Geometry) (i : Int) : Int :=
  if i < g.nPieces then g.start i else g.stop (g.nPieces - 1)

theorem edge_succ {g : Geometry} {i : Int} (hn : i < g.nPieces) :
    edge g (i + 1) = edge g i + g.pieceSizeOf i := by
  unfold edge
  rw [if_pos hn]
  by_cases hlast : i + 1 < g.nPieces
  · rw [if_pos hlast, g.start_succ, Geometry.pieceSizeOf, if_pos (by omega)]
  · have heq : g.nPieces - 1 = i := by omega
    rw [if_neg hlast, heq]
    rfl

theorem pieceSizeOf_pos (g : Geometry) (i : Int) : 0 < g.pieceSizeOf i := by
  unfold Geometry.pieceSizeOf
  split
  · exact g.pieceSize_pos
  · exact g.lastPieceSize_pos

theorem edge_le_edge {g : Geometry} {i : Int} (k : Nat) (h : i + k ≤ g.nPieces) :
    edge g i ≤ edge g (i + k) := by
  induction k with
  | zero => simp
  | succ k ih =>
    have hsucc := edge_succ (g := g) (i := i + k) (by omega)
    have hpos := pieceSizeOf_pos g (i + k)
    have hle := ih (by omega)
    rw [Int.add_assoc] at hsucc
    push_cast
    omega

/-- The first piece from `i` on that is not ready, among `fuel` pieces. -/
def readyEnd (ready : Int → Bool) : Nat → Int → Int
  | 0, i => i
  | fuel + 1, i => if ready i then readyEnd ready fuel (i + 1) else i

theorem readyEnd_spec (ready : Int → Bool) (fuel : Nat) (i : Int) :
    i ≤ readyEnd ready fuel i ∧ readyEnd ready fuel i ≤ i + fuel ∧
      (∀ j, i ≤ j → j < readyEnd ready fuel i → ready j = true) ∧
      (readyEnd ready fuel i < i + fuel → ready (readyEnd ready fuel i) = false) := by
  induction fuel generalizing i with
  | zero =>
    refine ⟨Int.le_refl i, by simp [readyEnd], fun j hj hlt => ?_, fun hlt => ?_⟩
    · exact absurd hlt (Int.not_lt.mpr hj)
    · simp [readyEnd] at hlt
  | succ fuel ih =>
    unfold readyEnd
    split
    · rename_i hready
      obtain ⟨hlo, hhi, hall, hend⟩ := ih (i + 1)
      refine ⟨by omega, by omega, fun j hj hlt => ?_, fun hlt => hend (by omega)⟩
      by_cases heq : j = i
      · rw [heq]
        exact hready
      · exact hall j (by omega) hlt
    · rename_i hnot
      refine ⟨Int.le_refl i, by omega, fun j hj hlt => absurd hlt (Int.not_lt.mpr hj), fun _ => ?_⟩
      exact Bool.eq_false_iff.mpr hnot

theorem havePiece_ok {i : Int} (h0 : 0 ≤ i) (hn : i < inst.g.nPieces) :
    havePiece inst i = .ok (inst.ready i) := if_pos ⟨h0, hn⟩

theorem pieceSize_ok {i : Int} (h0 : 0 ≤ i) (hn : i < inst.g.nPieces) :
    pieceSize inst i = .ok (inst.g.pieceSizeOf i) := if_pos ⟨h0, hn⟩

theorem havePiece_past : havePiece inst inst.g.nPieces = .error .index :=
  if_neg fun h => Int.lt_irrefl _ h.2

/-- The piece of the stream position. -/
def position (inst : Torrent) : Int := inst.g.offsetToPieceIndex inst.pos

theorem position_range (inst : Torrent) : 0 ≤ position inst ∧ position inst ≤ inst.g.nPieces :=
  index_le_nPieces inst.pos_nonneg inst.pos_le

theorem offsetToPieceIndex_pos (inst : Torrent) :
    offsetToPieceIndex inst inst.pos = position inst :=
  offsetToPieceIndex_eq inst.pos_nonneg inst.pos_le

/-- The first piece from the stream position on that is not ready, or the end of the torrent. -/
def firstMissing (inst : Torrent) : Int :=
  readyEnd inst.ready (inst.g.nPieces - position inst).toNat (position inst)

/-- The bytes of the ready pieces from the one of the stream position on. -/
def ahead (inst : Torrent) : Int := edge inst.g (firstMissing inst) - edge inst.g (position inst)

theorem firstMissing_spec (inst : Torrent) :
    position inst ≤ firstMissing inst ∧ firstMissing inst ≤ inst.g.nPieces ∧
      (∀ j, position inst ≤ j → j < firstMissing inst → inst.ready j = true) ∧
      (firstMissing inst < inst.g.nPieces → inst.ready (firstMissing inst) = false) := by
  have hrange := position_range inst
  have hspec := readyEnd_spec inst.ready (inst.g.nPieces - position inst).toNat (position inst)
  rw [Int.toNat_of_nonneg (by omega)] at hspec
  obtain ⟨hlo, hhi, hall, hend⟩ := hspec
  refine ⟨hlo, ?_, hall, fun hlt => hend ?_⟩
  · unfold firstMissing
    omega
  · unfold firstMissing at hlt
    omega

theorem ahead_nonneg (inst : Torrent) : 0 ≤ ahead inst := by
  obtain ⟨hlo, hhi, -, -⟩ := firstMissing_spec inst
  have hle := edge_le_edge (g := inst.g) (i := position inst)
    (firstMissing inst - position inst).toNat (by omega)
  rw [Int.toNat_of_nonneg (by omega), show position inst + (firstMissing inst - position inst) =
    firstMissing inst by omega] at hle
  exact Int.sub_nonneg_of_le hle

theorem getTorrentPosFrom_eq {fuel : Nat} {i pos : Int} (h0 : 0 ≤ i)
    (hn : i + fuel = inst.g.nPieces) :
    getTorrentPosFrom inst fuel i pos =
      .ok (pos + (edge inst.g (readyEnd inst.ready fuel i) - edge inst.g i)) := by
  induction fuel generalizing i pos with
  | zero =>
    unfold getTorrentPosFrom readyEnd
    congr 1
    omega
  | succ fuel ih =>
    have hlt : i < inst.g.nPieces := by omega
    unfold getTorrentPosFrom readyEnd
    rw [if_pos hlt, havePiece_ok h0 hlt, pieceSize_ok h0 hlt]
    cases hready : inst.ready i with
    | false =>
      show Except.ok pos = _
      congr 1
      simp
    | true =>
      show getTorrentPosFrom inst fuel (i + 1) (pos + inst.g.pieceSizeOf i) = _
      rw [ih (by omega) (by omega), edge_succ hlt, if_pos rfl]
      congr 1
      omega

/-- `get_torrent_pos` meets no piece out of range. -/
theorem getTorrentPos_eq (hmeta : inst.haveMetadata = true) :
    getTorrentPos inst = .ok (inst.pos + ahead inst) := by
  have hrange := position_range inst
  unfold getTorrentPos
  rw [offsetToPieceIndex_pos, if_pos hmeta]
  exact getTorrentPosFrom_eq hrange.1 (by omega)

end Positions

/-! ## The range that is available -/

/-- A torrent of one file of `n` pieces of 4 MiB. -/
def oneFile (n : Int) (h : 0 < n) : Geometry where
  fileOffset := 0
  filesize := n * 4194304
  pieceSize := 4194304
  nPieces := n
  lastPieceSize := 4194304
  fileOffset_nonneg := le_rfl
  filesize_pos := by omega
  pieceSize_pos := by decide
  lastPieceSize_pos := by decide
  lastPieceSize_le := by decide
  inside := by omega

/-- Its stream at `pos`, before the end of the warm-up. -/
def streamAt (n : Int) (h : 0 < n) (hlt : n < 2 ^ 31) (pos : Int) (h0 : 0 ≤ pos)
    (hpos : pos ≤ n * 4194304) (ready : Int → Bool) : Torrent where
  g := oneFile n h
  pos := pos
  raPos := pos
  readaheadMin := TorrentWake.readaheadMin
  haveMetadata := true
  warmed := false
  ready := ready
  nPieces_lt := hlt
  pieceSize_lt := show (4194304 : Int) < 2 ^ 31 by decide
  pos_nonneg := h0
  pos_le := hpos
  raPos_nonneg := h0
  raPos_le := hpos
  readaheadMin_int := by decide

theorem edge_of_lt {g : Geometry} {i : Int} (h : i < g.nPieces) : edge g i = g.start i := if_pos h

/-- A byte of the file from the stream position on, and its piece. -/
theorem piece_of_byte {inst : Torrent} {b : Int} (hpos : inst.pos ≤ b) (hb : b < inst.g.filesize) :
    position inst ≤ inst.g.offsetToPieceIndex b ∧
      inst.g.offsetToPieceIndex b ≤ inst.g.lastIndex ∧
      havePiece inst (offsetToPieceIndex inst b) =
        .ok (inst.ready (inst.g.offsetToPieceIndex b)) := by
  have hb0 : 0 ≤ b := Int.le_trans inst.pos_nonneg hpos
  have hrange := index_range hb0 hb
  refine ⟨?_, inst.g.index_le_lastIndex hb0 hb, ?_⟩
  · by_contra hgt
    have hstart := inst.g.start_le_start
      (show inst.g.offsetToPieceIndex b + 1 ≤ position inst by omega)
    have hle := inst.g.start_index_le inst.pos_nonneg
    have hlt := inst.g.lt_start_index hb0
    unfold position at hstart
    omega
  · rw [offsetToPieceIndex_eq hb0 (Int.le_of_lt hb)]
    exact havePiece_ok hrange.1 hrange.2

/-- A piece that is missing inside the file shows when the position is inside its piece. -/
theorem missing_byte {inst : Torrent} (hready : inst.ready (position inst) = true)
    (hmid : inst.pos ≠ inst.g.start (position inst))
    (hlast : firstMissing inst ≤ inst.g.lastIndex) :
    ∃ b, inst.pos ≤ b ∧ b < inst.pos + ahead inst ∧ b < inst.g.filesize ∧
      havePiece inst (offsetToPieceIndex inst b) = .ok false := by
  obtain ⟨hlo, -, -, hend⟩ := firstMissing_spec inst
  have hn := inst.g.lastIndex_lt
  have hmissing := hend (by omega)
  have hne : firstMissing inst ≠ position inst := by
    intro heq
    rw [heq, hready] at hmissing
    cases hmissing
  have hstart := inst.g.start_index_le inst.pos_nonneg
  have hbefore := inst.g.lt_start_index inst.pos_nonneg
  have hafter := inst.g.start_le_start (show position inst + 1 ≤ firstMissing inst by omega)
  have hfile := inst.g.start_le_start hlast
  have hsize := inst.g.filesize_pos
  have hend := inst.g.start_index_le (show 0 ≤ inst.g.filesize - 1 by omega)
  have hsucc := inst.g.start_succ (firstMissing inst)
  have hsize := inst.g.pieceSize_pos
  have hpos := inst.pos_nonneg
  unfold Geometry.lastIndex at hfile
  unfold position at hafter hmid
  have hb : inst.g.start (firstMissing inst) < inst.g.filesize := by omega
  have hindex : inst.g.offsetToPieceIndex (inst.g.start (firstMissing inst)) = firstMissing inst :=
    (inst.g.index_eq_iff (by omega)).mpr ⟨Int.le_refl _, by omega⟩
  refine ⟨inst.g.start (firstMissing inst), by omega, ?_, hb, ?_⟩
  · unfold ahead
    rw [edge_of_lt (by omega), edge_of_lt (by omega)]
    unfold position
    omega
  · rw [(piece_of_byte (by omega) hb).2.2, hindex, hmissing]

/-- **The available range**: every byte of the file from the stream position to `get_torrent_pos` is
    in a ready piece, if and only if the position is at the start of its piece, its piece is not
    ready, or every piece from there to the last one of the file is. -/
theorem torrent_pos_available_iff {inst : Torrent} (hmeta : inst.haveMetadata = true)
    (hlt : inst.pos < inst.g.filesize) :
    (∃ p, getTorrentPos inst = .ok p ∧ ∀ b, inst.pos ≤ b → b < p → b < inst.g.filesize →
      havePiece inst (offsetToPieceIndex inst b) = .ok true) ↔
    inst.pos = inst.g.start (position inst) ∨ inst.ready (position inst) = false ∨
      ∀ i, position inst ≤ i → i ≤ inst.g.lastIndex → inst.ready i = true := by
  obtain ⟨hlo, hhi, hall, hend⟩ := firstMissing_spec inst
  have hlast := inst.g.lastIndex_lt
  have hin : position inst < inst.g.nPieces := (index_range inst.pos_nonneg hlt).2
  rw [getTorrentPos_eq hmeta]
  constructor
  · rintro ⟨p, hp, hbytes⟩
    cases hp
    by_contra hno
    simp only [not_or, not_forall, Bool.not_eq_false, Bool.not_eq_true] at hno
    obtain ⟨hmid, hready, i, hi, hile, hmissing⟩ := hno
    have hle : firstMissing inst ≤ i := by
      by_contra hgt
      rw [hall i hi (by omega)] at hmissing
      cases hmissing
    obtain ⟨b, hb, hbp, hbsize, hfalse⟩ := missing_byte hready hmid (by omega)
    rw [hbytes b hb hbp hbsize] at hfalse
    cases hfalse
  · intro h
    refine ⟨_, rfl, fun b hb hbp hbsize => ?_⟩
    obtain ⟨hfrom, hto, hpiece⟩ := piece_of_byte hb hbsize
    rw [hpiece]
    congr 1
    rcases h with hstart | hnot | hready
    · -- the sum of the sizes ends where the first missing piece starts
      refine hall _ hfrom ?_
      by_contra hge
      have hle := inst.g.start_le_start (show firstMissing inst ≤ _ from Int.not_lt.mp hge)
      have hbyte := inst.g.start_index_le (Int.le_trans inst.pos_nonneg hb)
      unfold ahead at hbp
      rw [edge_of_lt (by omega), edge_of_lt hin] at hbp
      omega
    · -- there is nothing before the first missing piece
      have heq : firstMissing inst = position inst := by
        by_contra hne
        rw [hall _ (Int.le_refl _) (by omega)] at hnot
        cases hnot
      unfold ahead at hbp
      rw [heq] at hbp
      omega
    · exact hready _ hfrom hto

/-- A file of 16 MiB with its first half there. -/
def halfFile (pos : Int) (h0 : 0 ≤ pos) (hpos : pos ≤ 4 * 4194304) : Torrent :=
  streamAt 4 four_pos (by decide) pos h0 hpos (· < 2)

def halfFileStart : Torrent := halfFile 0 le_rfl (by decide)

/-- At its start every available byte is there. -/
theorem torrent_pos_available_at_start :
    ∃ p, getTorrentPos halfFileStart = .ok p ∧ ∀ b, halfFileStart.pos ≤ b → b < p →
      b < halfFileStart.g.filesize →
      havePiece halfFileStart (offsetToPieceIndex halfFileStart b) = .ok true :=
  (torrent_pos_available_iff rfl (by decide)).mpr (Or.inl (by decide))

/-- **A position inside a piece**: `get_torrent_pos` adds the whole size of the first piece, and the
    first bytes of the third one, which is missing, count as available. -/
theorem torrent_pos_past_available :
    ¬∀ inst : Torrent, inst.haveMetadata = true → inst.pos < inst.g.filesize →
      ∃ p, getTorrentPos inst = .ok p ∧ ∀ b, inst.pos ≤ b → b < p → b < inst.g.filesize →
        havePiece inst (offsetToPieceIndex inst b) = .ok true := by
  intro hclaim
  let inst := halfFile 1000 (by decide) (by decide)
  rcases (torrent_pos_available_iff rfl (by decide)).mp (hclaim inst rfl (by decide)) with
    hstart | hnot | hall
  · exact absurd hstart (by decide)
  · exact absurd hnot (by decide)
  · exact absurd (hall 2 (by decide) (by decide)) (by decide)

/-! ## The loops of the warm-up -/

section Loops

variable {inst : Torrent}

theorem streamNPieces_eq (inst : Torrent) : streamNPieces inst = inst.g.lastIndex + 1 := by
  have hsize := inst.g.filesize_pos
  unfold streamNPieces Geometry.lastIndex
  rw [offsetToPieceIndex_eq (by omega) (by omega)]

theorem tail_quotient {size : Int} (hpos : 0 < size) (hlt : size < 2 ^ 31) :
    -1 ≤ (int32 (readaheadTail + size - 1)).tdiv size := by
  have hwrap : -(2 * size) < int32 (readaheadTail + size - 1) := by
    unfold int32 readaheadTail
    rw [Int.bmod_def]
    split
    · omega
    · omega
  rcases Int.le_total 0 (int32 (readaheadTail + size - 1)) with hnn | hneg
  · have := Int.tdiv_nonneg hnn (Int.le_of_lt hpos)
    omega
  · have hdiv : (-int32 (readaheadTail + size - 1)).tdiv size < 2 := by
      rw [Int.tdiv_eq_ediv_of_nonneg (by omega)]
      exact Int.ediv_lt_of_lt_mul hpos (by omega)
    rw [Int.neg_tdiv] at hdiv
    omega

/-- The pieces at the end of the file are pieces of the torrent, also where the sum of the tail and
    the piece size wraps. -/
theorem firstPiece_range (inst : Torrent) :
    0 ≤ firstPiece inst ∧ firstPiece inst ≤ streamNPieces inst ∧
      streamNPieces inst ≤ inst.g.nPieces := by
  have hlast := inst.g.lastIndex_lt
  have hfile := inst.g.filesize_pos
  have hnn : 0 ≤ inst.g.lastIndex := (index_range (by omega) (by omega)).1
  have hquot := tail_quotient inst.g.pieceSize_pos inst.pieceSize_lt
  rw [streamNPieces_eq]
  unfold firstPiece
  rw [streamNPieces_eq]
  omega

/-- The pieces from `first` to `i` are ready. -/
def ReadyTo (inst : Torrent) (i : Int) : Prop :=
  ∀ j, firstPiece inst ≤ j → j < i → inst.ready j = true

/-- The pieces at the end of the file are ready. -/
def TailReady (inst : Torrent) : Prop := ReadyTo inst (streamNPieces inst)

theorem readyTo_succ {i : Int} (hi : firstPiece inst ≤ i) :
    ReadyTo inst (i + 1) ↔ ReadyTo inst i ∧ inst.ready i = true := by
  constructor
  · exact fun h => ⟨fun j hj hlt => h j hj (by omega), h i hi (by omega)⟩
  · rintro ⟨h, hready⟩ j hj hlt
    by_cases heq : j = i
    · rw [heq]
      exact hready
    · exact h j hj (by omega)

/-- Before turn `i` of the first loop of `__warmed`. -/
structure TailCounted (inst : Torrent) (c : Counters) (i : Int) (x : Counters × Bool) : Prop where
  avail : x.1.avail.isSome = c.avail.isSome
  total : x.1.total.isSome = c.total.isSome
  returned : x.2 = true ↔ c.total = none ∧ ¬ReadyTo inst i
  counts : ∀ a b, x.1.avail = some a → x.1.total = some b → a ≤ b ∧ (a = b ↔ ReadyTo inst i)

theorem TailCounted.init (c : Counters) :
    TailCounted inst c (firstPiece inst) (c.reset, false) := by
  have hready : ReadyTo inst (firstPiece inst) := fun j hj hlt => absurd hlt (Int.not_lt.mpr hj)
  refine ⟨Option.isSome_map, Option.isSome_map, by simp [hready], ?_⟩
  intro a b ha hb
  obtain ⟨-, -, rfl⟩ := Option.map_eq_some_iff.mp ha
  obtain ⟨-, -, rfl⟩ := Option.map_eq_some_iff.mp hb
  exact ⟨Int.le_refl 0, fun _ => hready, fun _ => rfl⟩

theorem tailTurn_ready {i : Int} (h0 : 0 ≤ i) (hn : i < inst.g.nPieces)
    (hready : inst.ready i = true) (c : Counters) :
    tailTurn inst i (c, false) =
      .ok ((c.addAvail (inst.g.pieceSizeOf i)).addTotal (inst.g.pieceSizeOf i), false) := by
  obtain ⟨avail, total⟩ := c
  unfold tailTurn
  rw [havePiece_ok h0 hn, pieceSize_ok h0 hn, hready]
  cases avail with
  | none | some a => cases total <;> rfl

theorem tailTurn_missing {i : Int} (h0 : 0 ≤ i) (hn : i < inst.g.nPieces)
    (hready : inst.ready i = false) (c : Counters) :
    tailTurn inst i (c, false) = .ok (c.addTotal (inst.g.pieceSizeOf i), c.total.isNone) := by
  obtain ⟨avail, total⟩ := c
  unfold tailTurn
  rw [havePiece_ok h0 hn, pieceSize_ok h0 hn, hready]
  cases total <;> rfl

/-- One turn of the first loop. -/
theorem TailCounted.turn {c : Counters} {i : Int} {x : Counters × Bool}
    (h : TailCounted inst c i x) (hi : firstPiece inst ≤ i) (hn : i < streamNPieces inst) :
    ∃ x', tailTurn inst i x = .ok x' ∧ TailCounted inst c (i + 1) x' := by
  obtain ⟨hfirst, -, hpieces⟩ := firstPiece_range inst
  have h0 : 0 ≤ i := by omega
  have hlt : i < inst.g.nPieces := by omega
  have hpos := pieceSizeOf_pos inst.g i
  obtain ⟨x, returned⟩ := x
  obtain ⟨havail, htotal, hreturned, hcounts⟩ := h
  dsimp only at havail htotal hreturned hcounts
  cases returned with
  | true =>
    obtain ⟨hnull, hno⟩ := hreturned.mp rfl
    refine ⟨(x, true), rfl, havail, htotal, ?_, fun a b _ hb => ?_⟩
    · exact ⟨fun _ => ⟨hnull, fun hto => hno ((readyTo_succ hi).mp hto).1⟩, fun _ => rfl⟩
    · rw [hb, hnull] at htotal
      cases htotal
  | false =>
    have hto : c.total = none → ReadyTo inst i := by
      intro hnull
      by_contra hno
      cases hreturned.mpr ⟨hnull, hno⟩
    cases hready : inst.ready i with
    | true =>
      refine ⟨_, tailTurn_ready h0 hlt hready x, ?_, ?_, ?_, ?_⟩
      · rw [← havail]
        exact Option.isSome_map
      · rw [← htotal]
        exact Option.isSome_map
      · rw [readyTo_succ hi]
        exact ⟨nofun, fun hno => absurd ⟨hto hno.1, hready⟩ hno.2⟩
      · intro a b ha hb
        obtain ⟨a, ha', rfl⟩ := Option.map_eq_some_iff.mp ha
        obtain ⟨b, hb', rfl⟩ := Option.map_eq_some_iff.mp hb
        obtain ⟨hle, heq⟩ := hcounts a b ha' hb'
        rw [readyTo_succ hi, ← heq]
        exact ⟨by omega, fun h => ⟨by omega, hready⟩, fun h => by omega⟩
    | false =>
      have hno : ¬ReadyTo inst (i + 1) := by
        intro h
        rw [((readyTo_succ hi).mp h).2] at hready
        cases hready
      refine ⟨_, tailTurn_missing h0 hlt hready x, havail, ?_, ?_, ?_⟩
      · rw [← htotal]
        exact Option.isSome_map
      · rw [← Option.not_isSome, htotal]
        cases c.total <;> simp [hno]
      · intro a b ha hb
        obtain ⟨b, hb', rfl⟩ := Option.map_eq_some_iff.mp hb
        obtain ⟨hle, -⟩ := hcounts a b ha hb'
        exact ⟨by omega, fun h => by omega, fun h => absurd h hno⟩

theorem tail_loop (inst : Torrent) (c : Counters) :
    ∃ x, forUp (tailTurn inst) (firstPiece inst) (streamNPieces inst) (c.reset, false) = .ok x ∧
      TailCounted inst c (streamNPieces inst) x :=
  forUp_ok (TailCounted inst c) (firstPiece_range inst).2.1 (.init c)
    fun _ _ hi hn h => h.turn hi hn

theorem countTurn_ok {i : Int} (h0 : 0 ≤ i) (hn : i < inst.g.nPieces) (c : Counters) :
    ∃ c', countTurn inst i c = .ok c' := by
  unfold countTurn
  rw [havePiece_ok h0 hn, pieceSize_ok h0 hn]
  cases inst.ready i with
  | true | false => exact ⟨_, rfl⟩

theorem count_loop (inst : Torrent) (c : Counters) :
    (lastPiece inst ≤ inst.g.nPieces →
      ∃ c', forUp (countTurn inst) (position inst) (lastPiece inst) c = .ok c') ∧
    (inst.g.nPieces < lastPiece inst →
      forUp (countTurn inst) (position inst) (lastPiece inst) c = .error .index) := by
  obtain ⟨h0, hn⟩ := position_range inst
  constructor
  · intro hlast
    exact forUp_total fun i s hi hlt => countTurn_ok (by omega) (by omega) s
  · intro hlast
    refine forUp_error hn hlast (fun i s hi hlt => countTurn_ok (by omega) hlt s) fun s => ?_
    unfold countTurn
    rw [havePiece_past]
    rfl

/-- `__warmed` before the end of the warm-up. -/
theorem warmedWith_eq (hwarmed : inst.warmed = false) (hmeta : inst.haveMetadata = true)
    (c : Counters) :
    ∃ c' returned, forUp (tailTurn inst) (firstPiece inst) (streamNPieces inst) (c.reset, false) =
        .ok (c', returned) ∧
      TailCounted inst c (streamNPieces inst) (c', returned) ∧
      warmedWith inst c =
        if returned = true then .ok (inst, c', false)
        else if ahead inst < wanted inst then
          if c'.avail.isSome ∧ c'.total.isSome then
            (forUp (countTurn inst) (position inst) (lastPiece inst) c').map (inst, ·, false)
          else .ok (inst, c', false)
        else
          match c'.avail, c'.total with
          | some avail, some total =>
            if avail < total then .ok (inst, c', false)
            else .ok ({ inst with warmed := true }, c', true)
          | _, _ => .error .null := by
  obtain ⟨⟨c', returned⟩, hloop, htail⟩ := tail_loop inst c
  refine ⟨c', returned, hloop, htail, ?_⟩
  have hdiff : inst.pos + ahead inst - inst.pos = ahead inst := by omega
  unfold warmedWith
  rw [hwarmed, hmeta, hloop, getTorrentPos_eq hmeta, offsetToPieceIndex_pos]
  show (if returned = true then _ else if inst.pos + ahead inst - inst.pos < wanted inst then _
    else _) = _
  rw [hdiff]
  cases returned with
  | true => rfl
  | false =>
    by_cases hshort : ahead inst < wanted inst
    · simp only [if_pos hshort]
      by_cases hboth : c'.avail.isSome ∧ c'.total.isSome
      · simp only [if_pos hboth]
        cases forUp (countTurn inst) (position inst) (lastPiece inst) c' <;> rfl
      · simp only [if_neg hboth]
        rfl
    · simp only [if_neg hshort]
      rfl

/-- **`__warmed` without counters.** -/
theorem warmed_eq (hwarmed : inst.warmed = false) (hmeta : inst.haveMetadata = true) :
    (TailReady inst → wanted inst ≤ ahead inst → warmed inst = .error .null) ∧
    (¬TailReady inst ∨ ahead inst < wanted inst → warmed inst = .ok (inst, .null, false)) := by
  obtain ⟨c', returned, -, htail, heq⟩ := warmedWith_eq hwarmed hmeta .null
  have hnull : c' = .null := by
    obtain ⟨avail, total⟩ := c'
    have havail := htail.avail
    have htotal := htail.total
    cases avail with
    | some a => cases havail
    | none =>
      cases total with
      | some b => cases htotal
      | none => rfl
  have hreturned : returned = true ↔ ¬TailReady inst := by
    rw [htail.returned]
    exact ⟨fun h => h.2, fun h => ⟨rfl, h⟩⟩
  subst hnull
  unfold warmed
  rw [heq]
  constructor
  · intro hready hahead
    rw [if_neg (fun h => hreturned.mp h hready), if_neg (Int.not_lt.mpr hahead)]
    rfl
  · intro h
    by_cases hready : TailReady inst
    · have hshort : ahead inst < wanted inst := h.resolve_left fun hno => hno hready
      rw [if_neg (fun h => hreturned.mp h hready), if_pos hshort]
      rfl
    · rw [if_pos (hreturned.mpr hready)]

/-- **`__warmed` with counters.** -/
theorem warmedWith_counting (hwarmed : inst.warmed = false) (hmeta : inst.haveMetadata = true)
    (a b : Int) :
    (ahead inst < wanted inst → inst.g.nPieces < lastPiece inst →
      warmedWith inst ⟨some a, some b⟩ = .error .index) ∧
    (ahead inst < wanted inst → lastPiece inst ≤ inst.g.nPieces →
      ∃ c, warmedWith inst ⟨some a, some b⟩ = .ok (inst, c, false)) ∧
    (wanted inst ≤ ahead inst → ¬TailReady inst →
      ∃ c, warmedWith inst ⟨some a, some b⟩ = .ok (inst, c, false)) ∧
    (wanted inst ≤ ahead inst → TailReady inst →
      ∃ c, warmedWith inst ⟨some a, some b⟩ = .ok ({ inst with warmed := true }, c, true)) := by
  obtain ⟨⟨avail, total⟩, returned, -, htail, heq⟩ := warmedWith_eq hwarmed hmeta ⟨some a, some b⟩
  obtain ⟨a', rfl⟩ := Option.isSome_iff_exists.mp htail.avail
  obtain ⟨b', rfl⟩ := Option.isSome_iff_exists.mp htail.total
  have hgoes : returned = false := by
    cases returned with
    | false => rfl
    | true => cases (htail.returned.mp rfl).1
  obtain ⟨hle, hall⟩ := htail.counts a' b' rfl rfl
  obtain ⟨hin, hpast⟩ := count_loop inst ⟨some a', some b'⟩
  subst hgoes
  rw [heq, if_neg Bool.false_ne_true]
  refine ⟨fun hshort hlast => ?_, fun hshort hlast => ?_, fun hahead hno => ?_,
    fun hahead hready => ?_⟩
  · rw [if_pos hshort, if_pos ⟨rfl, rfl⟩, hpast hlast]
    rfl
  · obtain ⟨c, hc⟩ := hin hlast
    rw [if_pos hshort, if_pos ⟨rfl, rfl⟩, hc]
    exact ⟨c, rfl⟩
  · have hlt : a' < b' := Int.lt_iff_le_and_ne.mpr ⟨hle, fun h => hno (hall.mp h)⟩
    rw [if_neg (Int.not_lt.mpr hahead)]
    exact ⟨_, if_pos hlt⟩
  · have hnot : ¬a' < b' := by
      rw [hall.mpr hready]
      exact Int.lt_irrefl _
    rw [if_neg (Int.not_lt.mpr hahead)]
    exact ⟨_, if_neg hnot⟩

end Loops

/-! ## The check and the count -/

/-- `__warmed` without counters and with counters return the same and leave the same flag. -/
def Agrees (inst : Torrent) (avail total : Int) : Prop :=
  ∃ inst₁ c₁ inst₂ c₂ result, warmed inst = .ok (inst₁, c₁, result) ∧
    warmedWith inst ⟨some avail, some total⟩ = .ok (inst₂, c₂, result) ∧
    inst₁.warmed = inst₂.warmed

/-- **The check and the count agree**, and neither reads a null pointer or stops, if and only if the
    stream is warm, the metadata is not there, the ready pieces from the position on are less than
    twice `readahead_min` and the count ends inside the torrent, or they are enough and a piece at
    the end of the file is missing. -/
theorem warmed_agrees_iff (inst : Torrent) (avail total : Int) :
    Agrees inst avail total ↔
      inst.warmed = true ∨ inst.haveMetadata = false ∨
        (ahead inst < wanted inst ∧ lastPiece inst ≤ inst.g.nPieces) ∨
        (wanted inst ≤ ahead inst ∧ ¬TailReady inst) := by
  cases hwarmed : inst.warmed with
  | true =>
    refine ⟨fun _ => Or.inl rfl,
      fun _ => ⟨inst, .null, inst, ⟨some avail, some total⟩, true, ?_, ?_, rfl⟩⟩
    · exact if_pos hwarmed
    · exact if_pos hwarmed
  | false =>
    have hcold : ¬inst.warmed = true := by rw [hwarmed]; exact Bool.false_ne_true
    cases hmeta : inst.haveMetadata with
    | false =>
      refine ⟨fun _ => Or.inr (Or.inl rfl),
        fun _ => ⟨inst, .null, inst, ⟨some avail, some total⟩, false, ?_, ?_, rfl⟩⟩
      · exact (if_neg hcold).trans (if_pos hmeta)
      · exact (if_neg hcold).trans (if_pos hmeta)
    | true =>
      obtain ⟨hnull, hcheck⟩ := warmed_eq hwarmed hmeta
      obtain ⟨hpast, hshort, hmissing, -⟩ := warmedWith_counting hwarmed hmeta avail total
      constructor
      · rintro ⟨inst₁, c₁, inst₂, c₂, result, h₁, h₂, -⟩
        right
        right
        by_cases hahead : ahead inst < wanted inst
        · refine Or.inl ⟨hahead, Int.not_lt.mp fun hlast => ?_⟩
          rw [hpast hahead hlast] at h₂
          cases h₂
        · refine Or.inr ⟨Int.not_lt.mp hahead, fun hready => ?_⟩
          rw [hnull hready (Int.not_lt.mp hahead)] at h₁
          cases h₁
      · rintro (h | h | ⟨hahead, hlast⟩ | ⟨hahead, hno⟩)
        · cases h
        · cases h
        · obtain ⟨c, hc⟩ := hshort hahead hlast
          exact ⟨inst, _, inst, c, false, hcheck (Or.inr hahead), hc, rfl⟩
        · obtain ⟨c, hc⟩ := hmissing hahead hno
          exact ⟨inst, _, inst, c, false, hcheck (Or.inl hno), hc, rfl⟩

/-- **A null counter is read**: a complete file of 64 MiB at its start. -/
theorem warmed_reads_null :
    ¬∀ (inst : Torrent) (avail total : Int), Agrees inst avail total := by
  intro hclaim
  let inst := streamAt 16 (by decide) (by decide) 0 (by decide) (by decide) fun _ => true
  rcases (warmed_agrees_iff inst 0 0).mp (hclaim inst 0 0) with h | h | ⟨hahead, -⟩ | ⟨-, hno⟩
  · exact Bool.false_ne_true h
  · cases h
  · exact absurd hahead (by decide +kernel)
  · exact hno fun _ _ _ => rfl

/-! ## A complete torrent -/

/-- The bytes from the start of the piece of the stream position to the end of the torrent. -/
def rest (inst : Torrent) : Int :=
  edge inst.g inst.g.nPieces - edge inst.g (position inst)

/-- With every piece there, all these bytes are ahead of the position. -/
theorem ahead_of_complete {inst : Torrent}
    (hall : ∀ i, 0 ≤ i → i < inst.g.nPieces → inst.ready i = true) : ahead inst = rest inst := by
  obtain ⟨hlo, hhi, -, hend⟩ := firstMissing_spec inst
  have h0 := (position_range inst).1
  have heq : firstMissing inst = inst.g.nPieces := by
    by_contra hne
    have hmissing := hend (by omega)
    rw [hall _ (by omega) (by omega)] at hmissing
    cases hmissing
  unfold ahead rest
  rw [heq]

/-- **A complete torrent**: with every piece there, `__warmed` returns 1 if and only if the stream
    is warm already, or the bytes from the piece of the position to the end of the torrent are at
    least twice `readahead_min`. -/
theorem complete_warm_iff {inst : Torrent} (hmeta : inst.haveMetadata = true)
    (hall : ∀ i, 0 ≤ i → i < inst.g.nPieces → inst.ready i = true) (avail total : Int) :
    (∃ inst' c, warmedWith inst ⟨some avail, some total⟩ = .ok (inst', c, true)) ↔
      inst.warmed = true ∨ wanted inst ≤ rest inst := by
  have htail : TailReady inst := by
    obtain ⟨hfirst, -, hn⟩ := firstPiece_range inst
    exact fun j hj hlt => hall j (by omega) (by omega)
  cases hwarmed : inst.warmed with
  | true => exact ⟨fun _ => Or.inl rfl, fun _ => ⟨inst, _, if_pos hwarmed⟩⟩
  | false =>
    obtain ⟨hpast, hshort, -, hfull⟩ := warmedWith_counting hwarmed hmeta avail total
    rw [← ahead_of_complete hall]
    constructor
    · rintro ⟨inst', c, h⟩
      refine Or.inr (Int.not_lt.mp fun hlt => ?_)
      by_cases hlast : lastPiece inst ≤ inst.g.nPieces
      · obtain ⟨c', hc'⟩ := hshort hlt hlast
        rw [hc'] at h
        cases h
      · rw [hpast hlt (Int.not_le.mp hlast)] at h
        cases h
    · rintro (h | hle)
      · cases h
      · obtain ⟨c, hc⟩ := hfull hle htail
        exact ⟨_, c, hc⟩

/-- A complete file of 64 MiB. -/
theorem complete_warm_large :
    ∃ inst' c, warmedWith (streamAt 16 (by decide) (by decide) 0 (by decide) (by decide)
      fun _ => true) ⟨some 0, some 0⟩ = .ok (inst', c, true) :=
  (complete_warm_iff rfl (fun _ _ _ => rfl) 0 0).mpr (Or.inr (by decide +kernel))

/-- **A complete file of 16 MiB is never warm**: it has less than twice the 15 MiB of
    `readahead_min`. -/
theorem complete_never_warm :
    ¬∀ (inst : Torrent) (avail total : Int), inst.haveMetadata = true →
      (∀ i, 0 ≤ i → i < inst.g.nPieces → inst.ready i = true) →
      ∃ inst' c, warmedWith inst ⟨some avail, some total⟩ = .ok (inst', c, true) := by
  intro hclaim
  let inst := streamAt 4 (by decide) (by decide) 0 (by decide) (by decide) fun _ => true
  have hwarm := hclaim inst 0 0 rfl fun _ _ _ => rfl
  rcases (complete_warm_iff rfl (fun _ _ _ => rfl) 0 0).mp hwarm with h | h
  · cases h
  · exact absurd h (by decide +kernel)

/-! ## The missing pieces -/

section Missing

variable {inst : Torrent} {first last i : Int}

/-- The missing pieces from `first` up to `last`, ascending. -/
def missing (inst : Torrent) (first last : Int) : List Int :=
  (Int.range first last).filter fun i => !inst.ready i

theorem mem_missing :
    i ∈ missing inst first last ↔ first ≤ i ∧ i < last ∧ inst.ready i = false := by
  unfold missing
  rw [List.mem_filter, Int.mem_range_iff, Bool.not_eq_true', and_assoc]

theorem missing_empty (h : last ≤ first) : missing inst first last = [] := by
  rw [List.eq_nil_iff_forall_not_mem]
  intro i hi
  have hrange := mem_missing.mp hi
  omega

theorem range_succ (h : first ≤ last) :
    Int.range first (last + 1) = Int.range first last ++ [last] := by
  unfold Int.range
  rw [show (last + 1 - first).toNat = (last - first).toNat + 1 by omega, List.range_succ,
    List.map_append, List.map_singleton, Int.toNat_of_nonneg (by omega)]
  congr 2
  omega

theorem missing_succ (h : first ≤ last) :
    missing inst first (last + 1) =
      missing inst first last ++ if inst.ready last then [] else [last] := by
  unfold missing
  rw [range_succ h, List.filter_append, List.filter_singleton]
  cases inst.ready last <;> rfl

/-- A loop finds the missing pieces of its range. -/
theorem priority_loop_eq (h0 : 0 ≤ first) (hn : last ≤ inst.g.nPieces) (pieces : List Int) :
    forUp (priorityTurn inst) first last pieces = .ok (pieces ++ missing inst first last) := by
  rcases Int.le_total first last with hle | hge
  · have hturn : ∀ i s, first ≤ i → i < last → s = pieces ++ missing inst first i →
        ∃ s', priorityTurn inst i s = .ok s' ∧ s' = pieces ++ missing inst first (i + 1) := by
      rintro i s hi hlt rfl
      refine ⟨_, ?_, rfl⟩
      unfold priorityTurn
      rw [havePiece_ok (by omega) (by omega), missing_succ hi, ← List.append_assoc]
      cases inst.ready i with
      | true => exact congrArg Except.ok (List.append_nil _).symm
      | false => rfl
    obtain ⟨pieces', hloop, rfl⟩ := forUp_ok (fun i s => s = pieces ++ missing inst first i) hle
      (by rw [missing_empty (Int.le_refl first), List.append_nil]) hturn
    exact hloop
  · rw [forUp_empty hge, missing_empty hge, List.append_nil]

end Missing

/-! ## Indices in range -/

section InRange

variable {inst : Torrent} {α : Type}

/-- No assertion on an index fails. -/
def InRange (x : Except Fault α) : Prop := x ≠ .error .index

theorem InRange.ok (a : α) : InRange (.ok a) := nofun

/-- `__warmed` counts past the end of the torrent. -/
def CountsPast (inst : Torrent) : Prop :=
  inst.warmed = false ∧ inst.haveMetadata = true ∧ ahead inst < wanted inst ∧
    inst.g.nPieces < lastPiece inst

/-- Without both counters nothing is counted past the tail. -/
theorem warmedWith_inRange_of_null {c : Counters} (h : c.avail = none ∨ c.total = none) :
    InRange (warmedWith inst c) := by
  by_cases hwarmed : inst.warmed = true
  · rw [warmedWith, if_pos hwarmed]
    exact .ok _
  by_cases hmeta : inst.haveMetadata = false
  · rw [warmedWith, if_neg hwarmed, if_pos hmeta]
    exact .ok _
  obtain ⟨⟨avail, total⟩, returned, -, htail, heq⟩ :=
    warmedWith_eq (Bool.eq_false_iff.mpr hwarmed) (Bool.not_eq_false _ ▸ hmeta) c
  have hnull : avail = none ∨ total = none := by
    refine h.imp (fun h => ?_) fun h => ?_
    · simpa [h] using htail.avail
    · simpa [h] using htail.total
  have hboth : ¬(avail.isSome ∧ total.isSome) := by
    rcases hnull with rfl | rfl
    · exact fun h => Bool.false_ne_true h.1
    · exact fun h => Bool.false_ne_true h.2
  rw [heq, if_neg hboth]
  split
  · exact .ok _
  · split
    · exact .ok _
    · rcases hnull with rfl | rfl
      · exact nofun
      · cases avail <;> exact nofun

/-- With both counters the count is all that can pass the end. -/
theorem warmedWith_inRange_iff (inst : Torrent) (a b : Int) :
    InRange (warmedWith inst ⟨some a, some b⟩) ↔ ¬CountsPast inst := by
  by_cases hwarmed : inst.warmed = true
  · rw [warmedWith, if_pos hwarmed]
    exact ⟨fun _ h => Bool.false_ne_true (h.1.symm.trans hwarmed), fun _ => .ok _⟩
  have hcold := Bool.eq_false_iff.mpr hwarmed
  by_cases hmeta : inst.haveMetadata = true
  · obtain ⟨hpast, hshort, hmissing, hfull⟩ := warmedWith_counting hcold hmeta a b
    constructor
    · exact fun hin h => hin (hpast h.2.2.1 h.2.2.2)
    · intro hno
      by_cases hahead : ahead inst < wanted inst
      · have hlast : lastPiece inst ≤ inst.g.nPieces :=
          Int.not_lt.mp fun hlt => hno ⟨hcold, hmeta, hahead, hlt⟩
        obtain ⟨c, hc⟩ := hshort hahead hlast
        rw [hc]
        exact .ok _
      · by_cases hready : TailReady inst
        · obtain ⟨c, hc⟩ := hfull (Int.not_lt.mp hahead) hready
          rw [hc]
          exact .ok _
        · obtain ⟨c, hc⟩ := hmissing (Int.not_lt.mp hahead) hready
          rw [hc]
          exact .ok _
  · rw [warmedWith, if_neg hwarmed, if_pos (Bool.eq_false_iff.mpr hmeta)]
    exact ⟨fun _ h => hmeta h.2.1, fun _ => .ok _⟩

theorem adjustPriorities_inRange (inst : Torrent) : InRange (adjustPriorities inst) := by
  obtain ⟨hfirst, hle, hn⟩ := firstPiece_range inst
  obtain ⟨hpos, hposn⟩ := position_range inst
  unfold adjustPriorities
  by_cases hmeta : inst.haveMetadata = false
  · rw [if_pos hmeta]
    exact nofun
  · rw [if_neg hmeta, priority_loop_eq hfirst hn, offsetToPieceIndex_pos]
    show InRange (if inst.pos < inst.g.filesize then _ else _)
    split
    · rw [priority_loop_eq hpos (by omega)]
      show InRange (forUp _ _ _ _)
      rw [priority_loop_eq (Int.le_refl 0) hposn]
      exact .ok _
    · rw [priority_loop_eq (Int.le_refl 0) (by omega)]
      exact .ok _

theorem readahead_inRange (inst : Torrent) (userWaiting : Bool) :
    InRange (readahead inst userWaiting) := by
  unfold readahead
  split
  · cases userWaiting with
    | false => exact .ok _
    | true =>
      have hwarm : InRange (warmed inst) := warmedWith_inRange_of_null (Or.inl rfl)
      show InRange (warmed inst >>= _)
      cases hres : warmed inst with
      | ok r => exact .ok _
      | error f =>
        rw [hres] at hwarm
        exact fun h => hwarm (congrArg Except.error (Except.error.inj h))
  · split
    · rename_i hlt
      obtain ⟨h0, hn⟩ := index_range inst.raPos_nonneg hlt.2
      rw [offsetToPieceIndex_eq inst.raPos_nonneg inst.raPos_le]
      dsimp only
      rw [havePiece_ok h0 hn, pieceSize_ok h0 hn]
      cases inst.ready (inst.g.offsetToPieceIndex inst.raPos) with
      | true | false => exact .ok _
    · exact .ok _

theorem bufferTurn_ok {i : Int} (h0 : 0 ≤ i) (hn : i < inst.g.nPieces) (count : Int) :
    ∃ count', bufferTurn inst i count = .ok count' ∧ count ≤ count' := by
  have hsize := inst.g.pieceSize_pos
  unfold bufferTurn
  rw [havePiece_ok h0 hn]
  cases inst.ready i with
  | true => exact ⟨_, rfl, by omega⟩
  | false => exact ⟨_, rfl, Int.le_refl count⟩

theorem buffer_loop {first last : Int} (h0 : 0 ≤ first) (hn : last ≤ inst.g.nPieces)
    (count : Int) :
    ∃ count', forUp (bufferTurn inst) first last count = .ok count' ∧ count ≤ count' := by
  rcases Int.le_total first last with hle | hge
  · refine forUp_ok (fun _ count' => count ≤ count') hle (Int.le_refl count)
      fun i s hi hlt hs => ?_
    have hin : i < inst.g.nPieces := by omega
    obtain ⟨s', hturn, hs'⟩ := bufferTurn_ok (Int.le_trans h0 hi) hin s
    exact ⟨s', hturn, Int.le_trans hs hs'⟩
  · exact ⟨count, forUp_empty hge, Int.le_refl count⟩

/-- The buffer state of a warm stream: the capacity is `readahead_min`, the count at most that. -/
theorem bufferWarmed_eq (hmeta : inst.haveMetadata = true) :
    ∃ count, bufferWarmed inst = .ok ⟨some count, some inst.readaheadMin⟩ ∧
      count ≤ inst.readaheadMin ∧ (0 ≤ inst.readaheadMin → 0 ≤ count) := by
  have hpos := inst.pos_nonneg
  have hahead := ahead_nonneg inst
  have hint := inst.readaheadMin_int
  unfold bufferWarmed
  rw [if_neg (by rw [hmeta]; decide), getTorrentPos_eq hmeta]
  by_cases hinside : inst.pos + ahead inst < inst.g.filesize ∧
      inst.pos + inst.readaheadMin < inst.g.filesize
  · have hfirst := (index_range (g := inst.g) (p := inst.pos + ahead inst) (by omega) hinside.1).1
    have hlast : offsetToPieceIndex inst (min inst.g.filesize (inst.pos + inst.readaheadMin)) ≤
        inst.g.nPieces := offsetToPieceIndex_le (by omega) (by omega)
    have heq : offsetToPieceIndex inst (inst.pos + ahead inst) =
        inst.g.offsetToPieceIndex (inst.pos + ahead inst) :=
      offsetToPieceIndex_eq (by omega) (by omega)
    obtain ⟨count, hloop, hge⟩ := buffer_loop (heq ▸ hfirst) hlast
      (min inst.readaheadMin (inst.pos + ahead inst - inst.pos))
    refine ⟨min count inst.readaheadMin, ?_, by omega, by omega⟩
    show (if _ then _ else _) = _
    rw [if_pos hinside, hloop]
    rfl
  · exact ⟨inst.readaheadMin, if_neg hinside, Int.le_refl _, fun h => h⟩

theorem bufferWarmed_inRange (inst : Torrent) : InRange (bufferWarmed inst) := by
  by_cases hmeta : inst.haveMetadata = true
  · obtain ⟨count, heq, -⟩ := bufferWarmed_eq hmeta
    rw [heq]
    exact .ok _
  · rw [bufferWarmed, if_pos (Bool.eq_false_iff.mpr hmeta)]
    exact nofun

theorem bufferstate_inRange_iff (inst : Torrent) (c : Counters) :
    InRange (bufferstate inst c) ↔ InRange (warmedWith inst c) := by
  unfold bufferstate
  cases warmedWith inst c with
  | error f => exact ⟨fun h he => h (congrArg Except.error (Except.error.inj he)),
      fun h he => h (congrArg Except.error (Except.error.inj he))⟩
  | ok r =>
    obtain ⟨inst', c', warm⟩ := r
    refine ⟨fun _ => .ok _, fun _ => ?_⟩
    cases warm with
    | false => exact .ok _
    | true =>
      have hbuffer := bufferWarmed_inRange inst'
      show InRange (bufferWarmed inst' >>= _)
      cases hres : bufferWarmed inst' with
      | ok _ => exact .ok _
      | error f =>
        rw [hres] at hbuffer
        exact fun h => hbuffer (congrArg Except.error (Except.error.inj h))

/-- **The indices of pieces are in range** in `__warmed`, in `avbox_torrent_bufferstate`, in
    `adjust_priorities` and in the read-ahead loop, if and only if the stream is warm, the metadata
    is not there, the ready pieces from the position on are twice `readahead_min`, or the position
    that far ahead is in a piece of the torrent or right after it. -/
theorem indices_in_range_iff (inst : Torrent) :
    ((∀ c, InRange (warmedWith inst c)) ∧ (∀ c, InRange (bufferstate inst c)) ∧
      InRange (adjustPriorities inst) ∧ ∀ userWaiting, InRange (readahead inst userWaiting)) ↔
    inst.warmed = true ∨ inst.haveMetadata = false ∨ wanted inst ≤ ahead inst ∨
      lastPiece inst ≤ inst.g.nPieces := by
  have hcond : (inst.warmed = true ∨ inst.haveMetadata = false ∨ wanted inst ≤ ahead inst ∨
      lastPiece inst ≤ inst.g.nPieces) ↔ ¬CountsPast inst := by
    unfold CountsPast
    rw [not_and_or, not_and_or, not_and_or, Bool.not_eq_false, Bool.not_eq_true, Int.not_lt,
      Int.not_lt]
  rw [hcond]
  constructor
  · exact fun h => (warmedWith_inRange_iff inst 0 0).mp (h.1 ⟨some 0, some 0⟩)
  · intro hno
    have hwarmed : ∀ c, InRange (warmedWith inst c) := by
      rintro ⟨avail, total⟩
      cases avail with
      | none => exact warmedWith_inRange_of_null (Or.inl rfl)
      | some a =>
        cases total with
        | none => exact warmedWith_inRange_of_null (Or.inr rfl)
        | some b => exact (warmedWith_inRange_iff inst a b).mpr hno
    exact ⟨hwarmed, fun c => (bufferstate_inRange_iff inst c).mpr (hwarmed c),
      adjustPriorities_inRange inst, readahead_inRange inst⟩

/-- **The count passes the end of the torrent**: the buffer state of a file of 16 MiB is asked for
    before the file is there. -/
theorem count_past_end :
    ¬∀ inst : Torrent, (∀ c, InRange (warmedWith inst c)) ∧ (∀ c, InRange (bufferstate inst c)) ∧
      InRange (adjustPriorities inst) ∧ ∀ userWaiting, InRange (readahead inst userWaiting) := by
  intro hclaim
  let inst := streamAt 4 (by decide) (by decide) 0 (by decide) (by decide) fun _ => false
  rcases (indices_in_range_iff inst).mp (hclaim inst) with h | h | hahead | hlast
  · exact Bool.false_ne_true h
  · cases h
  · exact absurd hahead (by decide +kernel)
  · exact absurd hlast (by decide +kernel)

end InRange

end Mediabox.TorrentWarmup
