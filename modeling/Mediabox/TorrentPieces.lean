import Mathlib.Algebra.BigOperators.Group.Finset.Basic
import Mathlib.Algebra.BigOperators.Group.Finset.Piecewise
import Mathlib.Algebra.BigOperators.Ring.Finset
import Mathlib.Data.Finset.Card
import Mathlib.Data.List.GetD
import Mediabox.Lib.Transition

/-!
# The pieces of a torrent (`src/lib/torrent_stream.cpp`)

`alerts_observer_plugin::on_alert` and `metadata_received` keep a `struct piece_status` for each
piece and count the pieces that are ready.

* A step is one alert, or the section of `metadata_received` under `lock`.  The fields that
  `metadata_received` fills before it takes the lock are read by nobody until `have_metadata` is
  set, so they are filled in the same step.
* `blocks_finished` is a signed bit-field of 15 bits, and the arithmetic on `int` wraps around.
* `said` is what the alerts have reported so far; it is not in the source.  `allowed` is the
  order in which libtorrent reports.
* A step shows the assertions that fail in it, and goes on.  Waking the readahead thread is left
  out.

Main result: `pieces_ready_iff` — the ready pieces are the complete ones, and the counters agree
with them, in every run on a torrent, exactly if each of its pieces has at most 16383 blocks and
`size + block_size - 1` is an `int` for each of them.
-/

set_option autoImplicit false

namespace Mediabox.TorrentPieces

open Transition

/-- The pieces of a torrent and their blocks. -/
structure Geometry where
  nPieces : Nat
  pieceSize : Nat
  lastPieceSize : Nat
  blockSize : Nat
  nPieces_pos : 0 < nPieces
  nPieces_lt : nPieces < 2 ^ 31
  pieceSize_lt : pieceSize < 2 ^ 31
  lastPieceSize_pos : 0 < lastPieceSize
  lastPieceSize_le : lastPieceSize ≤ pieceSize
  blockSize_pos : 0 < blockSize
  blockSize_lt : blockSize < 2 ^ 31

/-- The size of a piece. -/
def Geometry.size (g : Geometry) (i : Nat) : Nat :=
  if i + 1 < g.nPieces then g.pieceSize else g.lastPieceSize

/-- The number of blocks that a piece is downloaded in. -/
def Geometry.blocks (g : Geometry) (i : Nat) : Nat :=
  (g.size i + g.blockSize - 1) / g.blockSize

/-! ## The code -/

/-- `struct piece_status` -/
structure PieceStatus where
  blocksFinished : BitVec 15
  checkPassed : Bool
  ready : Bool
deriving DecidableEq, Repr

def PieceStatus.zero : PieceStatus := ⟨0, false, false⟩

/-- The fields of `struct avbox_torrent` that are used here. -/
structure Torrent where
  nPieces : Int
  pieceSize : Int
  lastPieceSize : Int
  blockSize : Int
  blocksPerPiece : Int
  haveMetadata : Bool
  nAvailPieces : Int
  availPieces : List PieceStatus
deriving DecidableEq, Repr

def Torrent.new : Torrent := ⟨0, 0, 0, 0, 0, false, 0, []⟩

/-- The value of an `int` expression. -/
def int32 (x : Int) : Int := x.bmod (2 ^ 32)

/-- `(a + b - 1) / b` on `int` -/
def ceilDiv (a b : Int) : Int := (int32 (a + b - 1)).tdiv b

/-- `piece_size` -/
def Torrent.sizeOf (inst : Torrent) (index : Nat) : Int :=
  if index < inst.nPieces - 1 then inst.pieceSize else inst.lastPieceSize

/-- `blocks_in_piece` -/
def Torrent.blocksInPiece (inst : Torrent) (index : Nat) : Int :=
  if index < inst.nPieces - 1 then inst.blocksPerPiece
  else ceilDiv (inst.sizeOf index) inst.blockSize

/-- `avail_pieces.resize(n, { 0, 0 })`, for a vector that is not longer -/
def Torrent.resize (inst : Torrent) (n : Nat) : Torrent :=
  { inst with
    availPieces := inst.availPieces ++ List.replicate (n - inst.availPieces.length) .zero }

/-- `get_piece_status`: the vector after it. -/
def Torrent.getPieceStatus (inst : Torrent) (index : Nat) : Torrent :=
  if inst.availPieces.length ≤ index then inst.resize (index + 1) else inst

/-- The entry of a piece. -/
def Torrent.piece (inst : Torrent) (index : Nat) : PieceStatus :=
  inst.availPieces.getD index .zero

/-- An assignment to the entry that `get_piece_status` returns. -/
def Torrent.setPiece (inst : Torrent) (index : Nat) (piece : PieceStatus) : Torrent :=
  let inst := inst.getPieceStatus index
  { inst with availPieces := inst.availPieces.set index piece }

/-- `have_piece` -/
def Torrent.havePiece (inst : Torrent) (index : Nat) : Bool :=
  if inst.availPieces.length ≤ index then false else (inst.piece index).ready

/-- The assertions of these functions. -/
inductive Assertion where
  /-- `!piece.ready` -/
  | notReady
  /-- `inst->n_avail_pieces <= inst->n_pieces` -/
  | available
  /-- `!inst->have_metadata || piece.blocks_finished <= blocks_in_piece()` -/
  | blocks
  /-- `!piece.check_passed && piece.blocks_finished == blocks_in_piece()` -/
  | failed
deriving DecidableEq, Repr

/-- The assertion, when it fails. -/
def Assertion.check (a : Assertion) (holds : Bool) : List Assertion :=
  if holds then [] else [a]

/-- The test of `check_and_signal_piece_ready`. -/
def Torrent.isDue (inst : Torrent) (index : Nat) : Bool :=
  inst.haveMetadata && (inst.piece index).checkPassed &&
    !decide ((inst.piece index).blocksFinished.toInt < inst.blocksInPiece index)

/-- `check_and_signal_piece_ready` -/
def checkAndSignalPieceReady (inst : Torrent) (index : Nat) : Torrent × List Assertion :=
  let inst := inst.getPieceStatus index
  if inst.isDue index then
    let inst' := inst.setPiece index { inst.piece index with ready := true }
    ({ inst' with nAvailPieces := inst.nAvailPieces + 1 },
      Assertion.notReady.check (!(inst.piece index).ready) ++
        Assertion.available.check (inst.nAvailPieces + 1 ≤ inst.nPieces))
  else (inst, [])

/-- The alert for a block -/
def blockFinished (inst : Torrent) (index : Nat) : Torrent × List Assertion :=
  let piece := inst.piece index
  let inst := inst.setPiece index { piece with blocksFinished := piece.blocksFinished + 1 }
  let r := checkAndSignalPieceReady inst index
  (r.1, Assertion.blocks.check (!inst.haveMetadata ||
    (inst.piece index).blocksFinished.toInt ≤ inst.blocksInPiece index) ++ r.2)

/-- The alert for a piece that failed the hash check -/
def hashFailed (inst : Torrent) (index : Nat) : Torrent × List Assertion :=
  let piece := inst.piece index
  (inst.setPiece index { piece with blocksFinished := 0 },
    Assertion.failed.check (!piece.checkPassed &&
      piece.blocksFinished.toInt = inst.blocksInPiece index))

/-- The alert for a piece that passed the hash check -/
def pieceFinished (inst : Torrent) (index : Nat) : Torrent × List Assertion :=
  checkAndSignalPieceReady
    (inst.setPiece index { inst.piece index with checkPassed := true }) index

/-- The loop of `metadata_received` over the pieces below `n`. -/
def checkPieces (inst : Torrent) : Nat → Torrent × List Assertion
  | 0 => (inst, [])
  | n + 1 =>
    let r := checkPieces inst n
    let r' := checkAndSignalPieceReady r.1 n
    (r'.1, r.2 ++ r'.2)

/-- `metadata_received` up to the loop -/
def takeMetadata (g : Geometry) (inst : Torrent) : Torrent :=
  let inst := { inst with
    nPieces := g.nPieces
    pieceSize := g.pieceSize
    lastPieceSize := g.lastPieceSize
    blockSize := g.blockSize
    blocksPerPiece := ceilDiv g.pieceSize g.blockSize
    haveMetadata := true }
  if inst.availPieces.length < g.nPieces then inst.resize g.nPieces else inst

/-- `metadata_received` -/
def metadataReceived (g : Geometry) (inst : Torrent) : Torrent × List Assertion :=
  checkPieces (takeMetadata g inst) inst.availPieces.length

/-- `avbox_torrent_downloaded` -/
def downloaded (inst : Torrent) : Int :=
  if inst.haveMetadata = false then 0
  else inst.nAvailPieces * inst.pieceSize -
    (if inst.havePiece (inst.nPieces - 1).toNat then inst.pieceSize - inst.lastPieceSize else 0)

/-- `avbox_torrent_size` -/
def size (haveMetadata : Bool) (filesize : Int) : Int :=
  if haveMetadata = false then -1 else filesize

/-! ## The alerts -/

inductive Alert where
  | blockFinished (index block : Nat)
  | hashFailed (index : Nat)
  | pieceFinished (index : Nat)
  /-- the message that calls `metadata_received` -/
  | metadataReceived
deriving DecidableEq, Repr

/-- What was reported of the present attempt to download a piece. -/
structure Attempt where
  blocks : List Nat
  passed : Bool
deriving DecidableEq, Repr

structure State where
  inst : Torrent
  said : Nat → Attempt

def init : State := ⟨.new, fun _ => ⟨[], false⟩⟩

/-- What an alert reports. -/
def report (said : Nat → Attempt) : Alert → Nat → Attempt
  | .blockFinished i b =>
    Function.update said i { said i with blocks := b :: (said i).blocks }
  | .hashFailed i => Function.update said i { said i with blocks := [] }
  | .pieceFinished i => Function.update said i { said i with passed := true }
  | .metadataReceived => said

/-- `alerts_observer_plugin::on_alert`, and the message for the metadata -/
def onAlert (g : Geometry) (inst : Torrent) : Alert → Torrent × List Assertion
  | .blockFinished i _ => blockFinished inst i
  | .hashFailed i => hashFailed inst i
  | .pieceFinished i => pieceFinished inst i
  | .metadataReceived => metadataReceived g inst

def step (g : Geometry) (s : State) (a : Alert) : Option (State × List Assertion) :=
  some (⟨(onAlert g s.inst a).1, report s.said a⟩, (onAlert g s.inst a).2)

/-- All blocks of the present attempt were reported. -/
def State.AllBlocks (g : Geometry) (s : State) (i : Nat) : Prop :=
  ∀ b < g.blocks i, b ∈ (s.said i).blocks

/-- The successful verdict and all blocks of a piece were reported. -/
def State.Complete (g : Geometry) (s : State) (i : Nat) : Prop :=
  (s.said i).passed = true ∧ s.AllBlocks g i

/-- The order of the alerts: in each attempt every block is reported once; a failed verdict comes
    after all blocks and after the metadata, and the successful one comes once, before, between or
    after the blocks.  The metadata comes once. -/
def Allowed (g : Geometry) (s : State) : Alert → Prop
  | .blockFinished i b => i < g.nPieces ∧ b < g.blocks i ∧ b ∉ (s.said i).blocks
  | .hashFailed i => i < g.nPieces ∧ s.inst.haveMetadata = true ∧ (s.said i).passed = false ∧
    s.AllBlocks g i
  | .pieceFinished i => i < g.nPieces ∧ (s.said i).passed = false
  | .metadataReceived => s.inst.haveMetadata = false

/-- The pieces that are ready. -/
def State.readyPieces (g : Geometry) (s : State) : Finset Nat :=
  (Finset.range g.nPieces).filter fun i => s.inst.havePiece i = true

/-- Readiness and the counters agree with what was reported. -/
structure Agrees (g : Geometry) (tr : List (Alert × List Assertion)) (s : State) : Prop where
  ready : ∀ i < g.nPieces, s.inst.havePiece i = true ↔ s.Complete g i
  once : ∀ a ∈ tr, Assertion.notReady ∉ a.2
  avail : s.inst.nAvailPieces = (s.readyPieces g).card
  avail_le : s.inst.nAvailPieces ≤ s.inst.nPieces
  bytes : downloaded s.inst = ∑ i ∈ s.readyPieces g, (g.size i : Int)

/-! ## The entries of the pieces -/

variable {g : Geometry} {inst : Torrent} {s t : State} {i j : Nat} {p : PieceStatus}

theorem piece_resize (inst : Torrent) (n j : Nat) : (inst.resize n).piece j = inst.piece j := by
  unfold Torrent.piece Torrent.resize
  rcases Nat.lt_or_ge j inst.availPieces.length with hlt | hge
  · rw [List.getD_append _ _ _ _ hlt]
  · rw [List.getD_append_right _ _ _ _ hge, List.getD_eq_default _ _ hge]
    simp [List.getD_eq_getElem?_getD, List.getElem?_replicate]
    split <;> rfl

theorem piece_getPieceStatus (inst : Torrent) (i j : Nat) :
    (inst.getPieceStatus i).piece j = inst.piece j := by
  unfold Torrent.getPieceStatus
  split
  · exact piece_resize inst _ j
  · rfl

theorem lt_length_getPieceStatus (inst : Torrent) (i : Nat) :
    i < (inst.getPieceStatus i).availPieces.length := by
  unfold Torrent.getPieceStatus
  split
  · simp only [Torrent.resize, List.length_append, List.length_replicate]
    omega
  · omega

theorem piece_setPiece (inst : Torrent) (i j : Nat) (p : PieceStatus) :
    (inst.setPiece i p).piece j = if j = i then p else inst.piece j := by
  have hlen := lt_length_getPieceStatus inst i
  rw [← piece_getPieceStatus inst i j]
  unfold Torrent.setPiece Torrent.piece
  simp only [List.getD_eq_getElem?_getD, List.getElem?_set]
  split
  · rename_i heq
    subst heq
    rw [if_pos rfl, Option.getD_some]
  · rename_i hne
    rw [if_neg (Ne.symm hne)]

theorem havePiece_eq (inst : Torrent) (i : Nat) : inst.havePiece i = (inst.piece i).ready := by
  unfold Torrent.havePiece
  split
  · rename_i hge
    rw [Torrent.piece, List.getD_eq_default _ _ hge]
    rfl
  · rfl

/-- What the metadata fixes. -/
def Torrent.facts (inst : Torrent) : Int × Int × Int × Int × Int × Bool :=
  (inst.nPieces, inst.pieceSize, inst.lastPieceSize, inst.blockSize, inst.blocksPerPiece,
    inst.haveMetadata)

/-- What it fixes them to. -/
def Geometry.facts (g : Geometry) : Int × Int × Int × Int × Int × Bool :=
  (g.nPieces, g.pieceSize, g.lastPieceSize, g.blockSize, ceilDiv g.pieceSize g.blockSize, true)

theorem facts_getPieceStatus (inst : Torrent) (i : Nat) :
    (inst.getPieceStatus i).facts = inst.facts ∧
      (inst.getPieceStatus i).nAvailPieces = inst.nAvailPieces := by
  unfold Torrent.getPieceStatus
  split <;> exact ⟨rfl, rfl⟩

theorem facts_setPiece (inst : Torrent) (i : Nat) (p : PieceStatus) :
    (inst.setPiece i p).facts = inst.facts ∧
      (inst.setPiece i p).nAvailPieces = inst.nAvailPieces :=
  facts_getPieceStatus inst i

theorem haveMetadata_of_facts {inst' : Torrent} (h : inst'.facts = inst.facts) :
    inst'.haveMetadata = inst.haveMetadata :=
  congrArg (fun x => x.2.2.2.2.2) h

theorem blocksInPiece_of_facts {inst' : Torrent} (h : inst'.facts = inst.facts) (i : Nat) :
    inst'.blocksInPiece i = inst.blocksInPiece i := by
  simp only [Torrent.facts, Prod.mk.injEq] at h
  obtain ⟨h1, h2, h3, h4, h5, -⟩ := h
  simp only [Torrent.blocksInPiece, Torrent.sizeOf, h1, h2, h3, h4, h5]

theorem isDue_congr {inst' : Torrent} (h : inst'.facts = inst.facts)
    (hpiece : inst'.piece i = inst.piece i) : inst'.isDue i = inst.isDue i := by
  unfold Torrent.isDue
  rw [haveMetadata_of_facts h, hpiece, blocksInPiece_of_facts h]

theorem mem_check {a b : Assertion} {holds : Bool} (h : a ∈ b.check holds) : a = b := by
  unfold Assertion.check at h
  split at h
  · exact nomatch h
  · exact List.mem_singleton.mp h

/-- What `check_and_signal_piece_ready` does to the entries and to the count. -/
structure Checked (inst : Torrent) (i : Nat) (r : Torrent × List Assertion) : Prop where
  facts : r.1.facts = inst.facts
  piece : ∀ j, r.1.piece j =
    if j = i ∧ inst.isDue i = true then { inst.piece i with ready := true } else inst.piece j
  avail : r.1.nAvailPieces = inst.nAvailPieces + if inst.isDue i = true then 1 else 0
  failed : Assertion.notReady ∈ r.2 → inst.isDue i = true ∧ (inst.piece i).ready = true

theorem checked (inst : Torrent) (i : Nat) : Checked inst i (checkAndSignalPieceReady inst i) := by
  obtain ⟨hfacts, havail⟩ := facts_getPieceStatus inst i
  have hpiece := piece_getPieceStatus inst i
  have hdue : (inst.getPieceStatus i).isDue i = inst.isDue i := isDue_congr hfacts (hpiece i)
  unfold checkAndSignalPieceReady
  dsimp only
  split
  · rename_i h
    rw [hdue] at h
    obtain ⟨hfacts', havail'⟩ := facts_setPiece (inst.getPieceStatus i) i
      { (inst.getPieceStatus i).piece i with ready := true }
    refine ⟨hfacts'.trans hfacts, fun j => ?_, ?_, fun hmem => ⟨h, ?_⟩⟩
    · rw [if_congr (and_iff_left h) rfl rfl, ← hpiece i, ← hpiece j]
      exact piece_setPiece (inst.getPieceStatus i) i j _
    · rw [if_pos h, ← havail]
    · rw [hpiece] at hmem
      by_contra hnot
      simp [Assertion.check, hnot] at hmem
  · rename_i h
    rw [hdue] at h
    refine ⟨hfacts, fun j => ?_, ?_, fun hmem => nomatch hmem⟩
    · rw [hpiece, if_neg fun hj => h hj.2]
    · rw [if_neg h, Int.add_zero]
      exact havail

/-! ## What the entries say -/

/-- `check_passed` and `blocks_finished` of every entry are what was reported. -/
structure Tracks (g : Geometry) (s : State) : Prop where
  facts : s.inst.haveMetadata = true → s.inst.facts = g.facts
  finished : ∀ i, (s.inst.piece i).blocksFinished = BitVec.ofNat 15 (s.said i).blocks.length
  passed : ∀ i, (s.inst.piece i).checkPassed = (s.said i).passed
  nodup : ∀ i, (s.said i).blocks.Nodup
  below : ∀ i, ∀ b ∈ (s.said i).blocks, b < g.blocks i
  outside : ∀ i, g.nPieces ≤ i → (s.said i).passed = false

theorem init_tracks : Tracks g init :=
  ⟨nofun, fun _ => rfl, fun _ => rfl, fun _ => List.nodup_nil,
    (fun _ _ hb => nomatch hb), fun _ _ => rfl⟩

/-- Setting `ready` flags does not matter to it. -/
theorem Tracks.keep (h : Tracks g s) (hfacts : inst.facts = s.inst.facts)
    (hpiece : ∀ j, (inst.piece j).blocksFinished = (s.inst.piece j).blocksFinished ∧
      (inst.piece j).checkPassed = (s.inst.piece j).checkPassed) : Tracks g ⟨inst, s.said⟩ := by
  refine ⟨fun hmeta => ?_, fun j => ?_, fun j => ?_, h.nodup, h.below, h.outside⟩
  · exact hfacts.trans (h.facts ((haveMetadata_of_facts hfacts).symm.trans hmeta))
  · exact (hpiece j).1.trans (h.finished j)
  · exact (hpiece j).2.trans (h.passed j)

theorem Checked.tracks {r : Torrent × List Assertion} (hr : Checked s.inst i r)
    (h : Tracks g s) : Tracks g ⟨r.1, s.said⟩ := by
  refine h.keep hr.facts fun j => ?_
  rw [hr.piece]
  split
  · rename_i hj
    rw [hj.1]
    exact ⟨rfl, rfl⟩
  · exact ⟨rfl, rfl⟩

theorem Tracks.set (h : Tracks g s) {attempt : Attempt}
    (hfinished : p.blocksFinished = BitVec.ofNat 15 attempt.blocks.length)
    (hpassed : p.checkPassed = attempt.passed) (hnodup : attempt.blocks.Nodup)
    (hbelow : ∀ b ∈ attempt.blocks, b < g.blocks i)
    (houtside : g.nPieces ≤ i → attempt.passed = false) :
    Tracks g ⟨s.inst.setPiece i p, Function.update s.said i attempt⟩ := by
  have hfacts := (facts_setPiece s.inst i p).1
  refine ⟨fun hmeta => ?_, fun j => ?_, fun j => ?_, fun j => ?_, fun j => ?_, fun j => ?_⟩
  · exact hfacts.trans (h.facts ((haveMetadata_of_facts hfacts).symm.trans hmeta))
  · dsimp only
    rw [piece_setPiece, Function.update_apply]
    split
    · exact hfinished
    · exact h.finished j
  · dsimp only
    rw [piece_setPiece, Function.update_apply]
    split
    · exact hpassed
    · exact h.passed j
  · dsimp only
    rw [Function.update_apply]
    split
    · exact hnodup
    · exact h.nodup j
  · dsimp only
    rw [Function.update_apply]
    split
    · rename_i hj
      rw [hj]
      exact hbelow
    · exact h.below j
  · dsimp only
    rw [Function.update_apply]
    split
    · rename_i hj
      rw [hj]
      exact houtside
    · exact h.outside j

theorem Tracks.block {b : Nat} (h : Tracks g s) (hb : b < g.blocks i)
    (hnew : b ∉ (s.said i).blocks) :
    Tracks g ⟨s.inst.setPiece i { s.inst.piece i with
        blocksFinished := (s.inst.piece i).blocksFinished + 1 },
      report s.said (.blockFinished i b)⟩ := by
  refine h.set ?_ (h.passed i) ?_ ?_ (h.outside i)
  · rw [h.finished i, List.length_cons, BitVec.ofNat_add]
    rfl
  · exact List.nodup_cons.mpr ⟨hnew, h.nodup i⟩
  · exact List.forall_mem_cons.mpr ⟨hb, h.below i⟩

theorem Tracks.verdict (h : Tracks g s) (hi : i < g.nPieces) :
    Tracks g ⟨s.inst.setPiece i { s.inst.piece i with checkPassed := true },
      report s.said (.pieceFinished i)⟩ := by
  refine h.set (h.finished i) rfl (h.nodup i) (h.below i) fun hge => ?_
  exact absurd hi (Nat.not_lt.mpr hge)

theorem checkPieces_tracks (h : Tracks g s) (n : Nat) :
    Tracks g ⟨(checkPieces s.inst n).1, s.said⟩ := by
  induction n with
  | zero => exact h
  | succ n ih => exact (checked (checkPieces s.inst n).1 n).tracks (s := ⟨_, s.said⟩) ih

theorem facts_takeMetadata (g : Geometry) (inst : Torrent) :
    (takeMetadata g inst).facts = g.facts ∧
      (takeMetadata g inst).nAvailPieces = inst.nAvailPieces ∧
      ∀ j, (takeMetadata g inst).piece j = inst.piece j := by
  unfold takeMetadata
  dsimp only
  split
  · exact ⟨rfl, rfl, fun j => piece_resize _ _ j⟩
  · exact ⟨rfl, rfl, fun _ => rfl⟩

theorem Tracks.takeMetadata (h : Tracks g s) :
    Tracks g ⟨TorrentPieces.takeMetadata g s.inst, s.said⟩ := by
  obtain ⟨hfacts, -, hpiece⟩ := facts_takeMetadata g s.inst
  refine ⟨fun _ => hfacts, fun j => ?_, fun j => ?_, h.nodup, h.below, h.outside⟩
  · exact (congrArg PieceStatus.blocksFinished (hpiece j)).trans (h.finished j)
  · exact (congrArg PieceStatus.checkPassed (hpiece j)).trans (h.passed j)

theorem step_tracks {a : Alert} {o : List Assertion} (h : Tracks g s) (hok : Allowed g s a)
    (hstep : step g s a = some (t, o)) : Tracks g t := by
  cases hstep
  cases a with
  | blockFinished i b =>
    exact (checked _ i).tracks (s := ⟨_, _⟩) (h.block hok.2.1 hok.2.2)
  | hashFailed i =>
    exact h.set rfl (h.passed i) List.nodup_nil (fun _ hb => nomatch hb) (h.outside i)
  | pieceFinished i =>
    exact (checked _ i).tracks (s := ⟨_, _⟩) (h.verdict hok.1)
  | metadataReceived =>
    exact checkPieces_tracks (s := ⟨takeMetadata g s.inst, s.said⟩) h.takeMetadata _

/-! ## When a piece is due -/

/-- Every piece has at most 16383 blocks, and `size + block_size - 1` is an `int`. -/
def Geometry.Countable (g : Geometry) : Prop :=
  ∀ i < g.nPieces, g.blocks i ≤ 16383 ∧ g.size i + g.blockSize ≤ 2 ^ 31

theorem Geometry.size_pos (g : Geometry) (i : Nat) : 0 < g.size i := by
  have hlast := g.lastPieceSize_pos
  have hle := g.lastPieceSize_le
  unfold Geometry.size
  split <;> omega

theorem Geometry.size_lt (g : Geometry) (i : Nat) : g.size i < 2 ^ 31 := by
  have hlt := g.pieceSize_lt
  have hle := g.lastPieceSize_le
  unfold Geometry.size
  split <;> omega

theorem Geometry.blocks_pos (g : Geometry) (i : Nat) : 0 < g.blocks i := by
  have hsize := g.size_pos i
  exact Nat.div_pos (by omega) g.blockSize_pos

/-- `blocks_in_piece` once the metadata is there -/
theorem blocksInPiece_eq (h : inst.facts = g.facts) (hi : i < g.nPieces) :
    inst.blocksInPiece i = ceilDiv (g.size i) g.blockSize := by
  simp only [Torrent.facts, Geometry.facts, Prod.mk.injEq] at h
  obtain ⟨h1, h2, h3, h4, h5, -⟩ := h
  simp only [Torrent.blocksInPiece, Torrent.sizeOf, h1, h2, h3, h4, h5, Geometry.size]
  by_cases hlast : i + 1 < g.nPieces
  · rw [if_pos (by omega), if_pos hlast]
  · rw [if_neg (by omega), if_neg (by omega), if_neg hlast]

theorem ceilDiv_eq (hsize : g.size i + g.blockSize ≤ 2 ^ 31) :
    ceilDiv (g.size i) g.blockSize = g.blocks i := by
  have hpos := g.size_pos i
  have hcast : ((g.size i : Int) + g.blockSize - 1) = ((g.size i + g.blockSize - 1 : Nat) : Int) := by
    omega
  unfold ceilDiv int32 Geometry.blocks
  rw [hcast, Int.bmod_eq_of_le (by omega) (by omega)]
  rfl

/-- The sum wraps around to a number below zero. -/
theorem ceilDiv_nonpos (hsize : 2 ^ 31 < g.size i + g.blockSize) :
    ceilDiv (g.size i) g.blockSize ≤ 0 := by
  have hlt := g.size_lt i
  have hblock := g.blockSize_lt
  have hneg : int32 (g.size i + g.blockSize - 1) ≤ 0 := by
    unfold int32
    rw [Int.bmod_def]
    split <;> omega
  have hdiv : 0 ≤ (-int32 (g.size i + g.blockSize - 1)).tdiv g.blockSize :=
    Int.tdiv_nonneg (by omega) (by omega)
  rw [Int.neg_tdiv] at hdiv
  unfold ceilDiv
  omega

theorem Tracks.subset_range (h : Tracks g s) (i : Nat) :
    (s.said i).blocks.toFinset ⊆ Finset.range (g.blocks i) := by
  intro b hb
  exact Finset.mem_range.mpr (h.below i b (List.mem_toFinset.mp hb))

theorem Tracks.length_le (h : Tracks g s) (i : Nat) : (s.said i).blocks.length ≤ g.blocks i := by
  have hle := Finset.card_le_card (h.subset_range i)
  rw [Finset.card_range, List.toFinset_card_of_nodup (h.nodup i)] at hle
  exact hle

/-- All blocks were reported once as many were reported as there are. -/
theorem Tracks.allBlocks_iff (h : Tracks g s) (i : Nat) :
    s.AllBlocks g i ↔ g.blocks i ≤ (s.said i).blocks.length := by
  have hcard := List.toFinset_card_of_nodup (h.nodup i)
  constructor
  · intro hall
    have hsup : Finset.range (g.blocks i) ⊆ (s.said i).blocks.toFinset := by
      intro b hb
      exact List.mem_toFinset.mpr (hall b (Finset.mem_range.mp hb))
    have hle := Finset.card_le_card hsup
    rw [Finset.card_range, hcard] at hle
    exact hle
  · intro hle b hb
    have heq := Finset.eq_of_subset_of_card_le (h.subset_range i)
      (by rw [Finset.card_range, hcard]; exact hle)
    rw [← List.mem_toFinset, heq]
    exact Finset.mem_range.mpr hb

/-- A bit-field of 15 bits holds up to 16383 blocks. -/
theorem toInt_ofNat_of_le {n : Nat} (h : n ≤ 16383) : (BitVec.ofNat 15 n).toInt = n := by
  rw [BitVec.toInt_ofNat', Int.bmod_eq_of_le (by omega) (by omega)]

theorem Tracks.isDue_iff_le (h : Tracks g s) (hmeta : s.inst.haveMetadata = true)
    (hi : i < g.nPieces) :
    s.inst.isDue i = true ↔ (s.said i).passed = true ∧
      ceilDiv (g.size i) g.blockSize ≤ (BitVec.ofNat 15 (s.said i).blocks.length).toInt := by
  unfold Torrent.isDue
  rw [blocksInPiece_eq (h.facts hmeta) hi, h.finished i, h.passed i, hmeta]
  simp

/-- **Due pieces are complete**, on a torrent whose pieces can be counted. -/
theorem Tracks.isDue_iff (h : Tracks g s) (hg : g.Countable) (hi : i < g.nPieces) :
    s.inst.isDue i = true ↔ s.inst.haveMetadata = true ∧ s.Complete g i := by
  have hle := h.length_le i
  obtain ⟨hblocks, hsize⟩ := hg i hi
  cases hmeta : s.inst.haveMetadata with
  | false => simp [Torrent.isDue, hmeta]
  | true =>
    rw [h.isDue_iff_le hmeta hi, ceilDiv_eq hsize, toInt_ofNat_of_le (by omega), State.Complete,
      h.allBlocks_iff i, Int.ofNat_le]
    exact (and_iff_right rfl).symm

theorem Tracks.not_due (h : Tracks g s) (hi : g.nPieces ≤ i) : s.inst.isDue i = false := by
  unfold Torrent.isDue
  rw [h.passed i, h.outside i hi]
  simp

/-! ## Which pieces are ready -/

/-- The ready pieces are the complete ones, and they are counted. -/
structure Sound (g : Geometry) (s : State) : Prop where
  tracks : Tracks g s
  ready : ∀ i < g.nPieces,
    (s.inst.piece i).ready = true ↔ s.inst.haveMetadata = true ∧ s.Complete g i
  avail : s.inst.nAvailPieces = (s.readyPieces g).card

theorem mem_readyPieces : i ∈ s.readyPieces g ↔ i < g.nPieces ∧ (s.inst.piece i).ready = true := by
  rw [State.readyPieces, Finset.mem_filter, Finset.mem_range, havePiece_eq]

theorem init_sound : Sound g init := by
  refine ⟨init_tracks, fun i _ => ?_, ?_⟩
  · exact ⟨(fun h => nomatch h), fun h => nomatch h.1⟩
  · have hnone : init.readyPieces g = ∅ := by
      ext i
      rw [mem_readyPieces]
      exact ⟨(fun h => nomatch h.2), fun h => absurd h (Finset.notMem_empty i)⟩
    rw [hnone, Finset.card_empty]
    rfl

variable {said : Nat → Attempt} {r : Torrent × List Assertion}

theorem Checked.ready_iff (hr : Checked inst i r) (j : Nat) :
    (r.1.piece j).ready = true ↔
      (inst.piece j).ready = true ∨ (j = i ∧ inst.isDue i = true) := by
  rw [hr.piece]
  by_cases hdue : j = i ∧ inst.isDue i = true
  · rw [if_pos hdue]
    exact ⟨fun _ => .inr hdue, fun _ => rfl⟩
  · rw [if_neg hdue]
    exact ⟨.inl, fun h => h.resolve_right hdue⟩

/-- The count grows by the piece that becomes ready. -/
theorem Checked.counted (hr : Checked s.inst i r) (hi : i < g.nPieces)
    (hnot : (s.inst.piece i).ready = false)
    (havail : s.inst.nAvailPieces = (s.readyPieces g).card) :
    r.1.nAvailPieces = (State.readyPieces g ⟨r.1, said⟩).card := by
  rw [hr.avail, havail]
  by_cases hdue : s.inst.isDue i = true
  · have hset : State.readyPieces g ⟨r.1, said⟩ = insert i (s.readyPieces g) := by
      ext j
      rw [Finset.mem_insert, mem_readyPieces, mem_readyPieces, hr.ready_iff]
      constructor
      · rintro ⟨hj, hready | ⟨rfl, -⟩⟩
        · exact .inr ⟨hj, hready⟩
        · exact .inl rfl
      · rintro (rfl | ⟨hj, hready⟩)
        · exact ⟨hi, .inr ⟨rfl, hdue⟩⟩
        · exact ⟨hj, .inl hready⟩
    have hnew : i ∉ s.readyPieces g := by
      rw [mem_readyPieces, hnot]
      exact fun h => nomatch h.2
    rw [hset, Finset.card_insert_of_notMem hnew, if_pos hdue]
    norm_cast
  · have hset : State.readyPieces g ⟨r.1, said⟩ = s.readyPieces g := by
      ext j
      rw [mem_readyPieces, mem_readyPieces, hr.ready_iff]
      exact and_congr_right fun _ => or_iff_left fun h => hdue h.2
    rw [hset, if_neg hdue, Int.add_zero]

theorem Checked.no_failure (hr : Checked inst i r) (hnot : (inst.piece i).ready = false) :
    Assertion.notReady ∉ r.2 := by
  intro hmem
  exact absurd (hnot.symm.trans (hr.failed hmem).2) Bool.noConfusion

theorem complete_of_ne {attempt : Attempt} {inst' : Torrent} (hj : j ≠ i) :
    State.Complete g ⟨inst', Function.update s.said i attempt⟩ j ↔ s.Complete g j := by
  simp only [State.Complete, State.AllBlocks, Function.update_of_ne hj]

theorem readyPieces_setPiece (hp : p.ready = (s.inst.piece i).ready) :
    State.readyPieces g ⟨s.inst.setPiece i p, said⟩ = s.readyPieces g := by
  ext j
  rw [mem_readyPieces, mem_readyPieces]
  dsimp only
  rw [piece_setPiece]
  split
  · rename_i hj
    rw [hj, hp]
  · rfl

theorem Sound.not_ready (h : Sound g s) (hi : i < g.nPieces) (hnot : ¬ s.Complete g i) :
    (s.inst.piece i).ready = false := by
  rw [← Bool.not_eq_true]
  exact fun hready => hnot ((h.ready i hi).mp hready).2

theorem Sound.alert {attempt : Attempt} (h : Sound g s) (hg : g.Countable) (hi : i < g.nPieces)
    (hnot : ¬ s.Complete g i)
    (htracks : Tracks g ⟨s.inst.setPiece i p, Function.update s.said i attempt⟩)
    (hp : p.ready = (s.inst.piece i).ready) (hr : Checked (s.inst.setPiece i p) i r) :
    Sound g ⟨r.1, Function.update s.said i attempt⟩ ∧ Assertion.notReady ∉ r.2 := by
  have hmeta : (s.inst.setPiece i p).haveMetadata = s.inst.haveMetadata :=
    haveMetadata_of_facts (facts_setPiece s.inst i p).1
  have hready : ((s.inst.setPiece i p).piece i).ready = false := by
    rw [piece_setPiece, if_pos rfl, hp]
    exact h.not_ready hi hnot
  refine ⟨⟨hr.tracks htracks, fun j hj => ?_, ?_⟩, hr.no_failure hready⟩
  · dsimp only
    rw [hr.ready_iff, haveMetadata_of_facts hr.facts]
    by_cases hji : j = i
    · subst hji
      have hdue := htracks.isDue_iff hg hj
      constructor
      · rintro (hold | ⟨-, hd⟩)
        · exact absurd (hready.symm.trans hold) Bool.noConfusion
        · exact hdue.mp hd
      · exact fun hc => .inr ⟨rfl, hdue.mpr hc⟩
    · rw [piece_setPiece, if_neg hji, hmeta, complete_of_ne hji, h.ready j hj]
      exact or_iff_left fun hd => hji hd.1
  · have hset : (s.inst.setPiece i p).nAvailPieces =
        (State.readyPieces g ⟨s.inst.setPiece i p, s.said⟩).card := by
      rw [readyPieces_setPiece hp, ← h.avail]
      exact (facts_setPiece s.inst i p).2
    exact hr.counted (s := ⟨s.inst.setPiece i p, s.said⟩) hi hready hset

theorem Sound.hashFailed (h : Sound g s) (hi : i < g.nPieces) (hpassed : (s.said i).passed = false)
    (hp : p.ready = (s.inst.piece i).ready)
    (htracks : Tracks g ⟨s.inst.setPiece i p,
      Function.update s.said i { s.said i with blocks := [] }⟩) :
    Sound g ⟨s.inst.setPiece i p, Function.update s.said i { s.said i with blocks := [] }⟩ := by
  have hmeta : (s.inst.setPiece i p).haveMetadata = s.inst.haveMetadata :=
    haveMetadata_of_facts (facts_setPiece s.inst i p).1
  refine ⟨htracks, fun j hj => ?_, ?_⟩
  · dsimp only
    rw [piece_setPiece, hmeta]
    by_cases hji : j = i
    · subst hji
      have hready := h.not_ready hj fun hc => absurd (hpassed.symm.trans hc.1) Bool.noConfusion
      rw [if_pos rfl, hp, hready]
      constructor
      · exact fun hf => nomatch hf
      · rintro ⟨-, hc, -⟩
        simp only [Function.update_self] at hc
        exact absurd (hpassed.symm.trans hc) Bool.noConfusion
    · rw [if_neg hji, complete_of_ne hji, h.ready j hj]
  · dsimp only
    rw [readyPieces_setPiece hp, ← h.avail]
    exact (facts_setPiece s.inst i p).2

/-- The loop of `metadata_received` makes the complete pieces below `n` ready. -/
structure CheckedBelow (g : Geometry) (s : State) (n : Nat) (r : Torrent × List Assertion) :
    Prop where
  metadata : r.1.haveMetadata = true
  ready : ∀ i < g.nPieces, (r.1.piece i).ready = true ↔ i < n ∧ s.Complete g i
  avail : r.1.nAvailPieces = (State.readyPieces g ⟨r.1, s.said⟩).card
  no_failure : Assertion.notReady ∉ r.2

theorem checkPieces_below (hg : g.Countable) (h : Tracks g s) (hmeta : s.inst.haveMetadata = true)
    (hnone : ∀ i < g.nPieces, (s.inst.piece i).ready = false)
    (havail : s.inst.nAvailPieces = (s.readyPieces g).card) (n : Nat) :
    CheckedBelow g s n (checkPieces s.inst n) := by
  induction n with
  | zero =>
    refine ⟨hmeta, fun i hi => ?_, havail, fun hmem => nomatch hmem⟩
    rw [show (checkPieces s.inst 0).1 = s.inst from rfl, hnone i hi]
    exact ⟨(fun hf => nomatch hf), fun hlt => absurd hlt.1 (Nat.not_lt_zero i)⟩
  | succ n ih =>
    have htracks := checkPieces_tracks h n
    have hr := checked (checkPieces s.inst n).1 n
    have hmeta' := (haveMetadata_of_facts hr.facts).trans ih.metadata
    rcases Nat.lt_or_ge n g.nPieces with hn | hn
    · have hnot : ((checkPieces s.inst n).1.piece n).ready = false := by
        rw [← Bool.not_eq_true, ih.ready n hn]
        exact fun hlt => Nat.lt_irrefl n hlt.1
      have hdue := htracks.isDue_iff hg hn
      refine ⟨hmeta', fun i hi => ?_, hr.counted (s := ⟨_, s.said⟩) hn hnot ih.avail, ?_⟩
      · refine (hr.ready_iff i).trans ?_
        rw [ih.ready i hi, hdue, Nat.lt_succ_iff_lt_or_eq]
        constructor
        · rintro (⟨hlt, hc⟩ | ⟨rfl, -, hc⟩)
          · exact ⟨.inl hlt, hc⟩
          · exact ⟨.inr rfl, hc⟩
        · rintro ⟨hlt | rfl, hc⟩
          · exact .inl ⟨hlt, hc⟩
          · exact .inr ⟨rfl, ih.metadata, hc⟩
      · exact fun hmem => (List.mem_append.mp hmem).elim ih.no_failure (hr.no_failure hnot)
    -- an entry beyond the last piece never has `check_passed` set
    · have hdue := htracks.not_due hn
      have hready : ∀ j, ((checkPieces s.inst (n + 1)).1.piece j).ready = true ↔
          ((checkPieces s.inst n).1.piece j).ready = true := by
        intro j
        refine (hr.ready_iff j).trans (or_iff_left fun hd => ?_)
        exact absurd (hdue.symm.trans hd.2) Bool.noConfusion
      refine ⟨hmeta', fun i hi => ?_, ?_, ?_⟩
      · rw [hready, ih.ready i hi]
        exact and_congr_left fun _ => ⟨fun hlt => by omega, fun _ => by omega⟩
      · have hset : State.readyPieces g ⟨(checkPieces s.inst (n + 1)).1, s.said⟩ =
            State.readyPieces g ⟨(checkPieces s.inst n).1, s.said⟩ := by
          ext j
          rw [mem_readyPieces, mem_readyPieces]
          exact and_congr_right fun _ => hready j
        rw [hset, ← ih.avail]
        refine hr.avail.trans ?_
        rw [if_neg (by rw [hdue]; exact Bool.noConfusion), Int.add_zero]
      · intro hmem
        refine (List.mem_append.mp hmem).elim ih.no_failure fun hfail => ?_
        exact absurd (hdue.symm.trans (hr.failed hfail).1) Bool.noConfusion

/-- Nothing was reported of a piece without an entry. -/
theorem Tracks.not_complete (h : Tracks g s) (hi : s.inst.availPieces.length ≤ i) :
    ¬ s.Complete g i := by
  intro hc
  have hpassed := h.passed i
  rw [Torrent.piece, List.getD_eq_default _ _ hi, hc.1] at hpassed
  exact absurd hpassed Bool.noConfusion

theorem Sound.metadataReceived (h : Sound g s) (hg : g.Countable)
    (hmeta : s.inst.haveMetadata = false) :
    Sound g ⟨(TorrentPieces.metadataReceived g s.inst).1, s.said⟩ ∧
      Assertion.notReady ∉ (TorrentPieces.metadataReceived g s.inst).2 := by
  obtain ⟨hfacts, havail, hpiece⟩ := facts_takeMetadata g s.inst
  have hset : State.readyPieces g ⟨takeMetadata g s.inst, s.said⟩ = s.readyPieces g := by
    ext j
    rw [mem_readyPieces, mem_readyPieces]
    dsimp only
    rw [hpiece]
  have hnone : ∀ i < g.nPieces, ((takeMetadata g s.inst).piece i).ready = false := by
    intro i hi
    rw [hpiece, ← Bool.not_eq_true, h.ready i hi]
    exact fun hc => absurd (hmeta.symm.trans hc.1) Bool.noConfusion
  have hbelow := checkPieces_below (s := ⟨takeMetadata g s.inst, s.said⟩) hg h.tracks.takeMetadata
    (congrArg (fun x => x.2.2.2.2.2) hfacts) hnone (by rw [hset, ← h.avail]; exact havail)
    s.inst.availPieces.length
  refine ⟨⟨?_, fun i hi => ?_, hbelow.avail⟩, hbelow.no_failure⟩
  · exact checkPieces_tracks (s := ⟨takeMetadata g s.inst, s.said⟩) h.tracks.takeMetadata _
  refine (hbelow.ready i hi).trans ⟨fun hc => ⟨hbelow.metadata, hc.2⟩, fun hc => ⟨?_, hc.2⟩⟩
  rcases Nat.lt_or_ge i s.inst.availPieces.length with hlt | hge
  · exact hlt
  · exact absurd hc.2 (h.tracks.not_complete hge)

theorem step_sound {a : Alert} {o : List Assertion} (h : Sound g s) (hg : g.Countable)
    (hok : Allowed g s a) (hstep : step g s a = some (t, o)) :
    Sound g t ∧ Assertion.notReady ∉ o := by
  have htracks := step_tracks h.tracks hok hstep
  cases hstep
  cases a with
  | blockFinished i b =>
    obtain ⟨hi, hb, hnew⟩ := hok
    have hnot : ¬ s.Complete g i := fun hc => hnew (hc.2 b hb)
    have hsound := h.alert hg hi hnot (h.tracks.block hb hnew) rfl (checked _ i)
    refine ⟨hsound.1, fun hmem => (List.mem_append.mp hmem).elim (fun hblocks => ?_) hsound.2⟩
    exact absurd (mem_check hblocks) (by decide)
  | hashFailed i =>
    obtain ⟨hi, -, hpassed, -⟩ := hok
    refine ⟨h.hashFailed hi hpassed rfl htracks, fun hmem => ?_⟩
    exact absurd (mem_check hmem) (by decide)
  | pieceFinished i =>
    obtain ⟨hi, hpassed⟩ := hok
    have hnot : ¬ s.Complete g i := fun hc => absurd (hpassed.symm.trans hc.1) Bool.noConfusion
    exact h.alert hg hi hnot (h.tracks.verdict hi) rfl (checked _ i)
  | metadataReceived => exact h.metadataReceived hg hok

theorem sum_size (A : Finset Nat) (hA : ∀ i ∈ A, i < g.nPieces) :
    ∑ i ∈ A, (g.size i : Int) = A.card * g.pieceSize -
      if g.nPieces - 1 ∈ A then (g.pieceSize - g.lastPieceSize : Int) else 0 := by
  have hpos := g.nPieces_pos
  have hsize : ∀ i ∈ A, (g.size i : Int) =
      g.pieceSize - if g.nPieces - 1 = i then (g.pieceSize - g.lastPieceSize : Int) else 0 := by
    intro i hi
    have hlt := hA i hi
    unfold Geometry.size
    by_cases hlast : g.nPieces - 1 = i
    · rw [if_neg (by omega), if_pos hlast]
      omega
    · rw [if_pos (by omega), if_neg hlast]
      omega
  rw [Finset.sum_congr rfl hsize, Finset.sum_sub_distrib, Finset.sum_const, Finset.sum_ite_eq,
    nsmul_eq_mul]

theorem Sound.downloaded_eq (h : Sound g s) (hmeta : s.inst.haveMetadata = true) :
    downloaded s.inst = ∑ i ∈ s.readyPieces g, (g.size i : Int) := by
  have hfacts := h.tracks.facts hmeta
  simp only [Torrent.facts, Geometry.facts, Prod.mk.injEq] at hfacts
  obtain ⟨h1, h2, h3, -⟩ := hfacts
  have hpos := g.nPieces_pos
  have hlast : ((g.nPieces : Int) - 1).toNat = g.nPieces - 1 := by omega
  have hmem : g.nPieces - 1 ∈ s.readyPieces g ↔ s.inst.havePiece (g.nPieces - 1) = true := by
    rw [mem_readyPieces, havePiece_eq]
    exact and_iff_right (by omega)
  rw [sum_size _ fun i hi => (mem_readyPieces.mp hi).1, ← h.avail]
  simp only [downloaded, hmeta, h1, h2, h3, hlast, hmem]
  rfl

theorem run_sound {tr : List (Alert × List Assertion)} (hg : g.Countable)
    (hrun : Run (Guarded (step g) (Allowed g)) init tr s) :
    Sound g s ∧ ∀ a ∈ tr, Assertion.notReady ∉ a.2 := by
  refine Run.history (P := fun tr s => Sound g s ∧ ∀ a ∈ tr, Assertion.notReady ∉ a.2)
    ⟨init_sound, fun a ha => nomatch ha⟩ ?_ hrun
  rintro tr s a t ⟨hs, hpast⟩ ⟨hok, hstep⟩
  obtain ⟨ht, hfail⟩ := step_sound hs hg hok hstep
  refine ⟨ht, fun b hb => ?_⟩
  rcases List.mem_append.mp hb with hold | hlast
  · exact hpast b hold
  · rw [List.mem_singleton.mp hlast]
    exact hfail

theorem run_agrees {tr : List (Alert × List Assertion)} (hg : g.Countable)
    (hrun : Run (Guarded (step g) (Allowed g)) init tr s) (hmeta : s.inst.haveMetadata = true) :
    Agrees g tr s := by
  obtain ⟨hs, honce⟩ := run_sound hg hrun
  refine ⟨fun i hi => ?_, honce, hs.avail, ?_, hs.downloaded_eq hmeta⟩
  · rw [havePiece_eq, hs.ready i hi]
    exact and_iff_right hmeta
  · have hfacts := hs.tracks.facts hmeta
    simp only [Torrent.facts, Geometry.facts, Prod.mk.injEq] at hfacts
    have hcard := Finset.card_filter_le (Finset.range g.nPieces)
      fun i => s.inst.havePiece i = true
    rw [Finset.card_range] at hcard
    rw [hs.avail, hfacts.1]
    exact Int.ofNat_le.mpr hcard

/-! ## Torrents whose pieces cannot be counted -/

theorem run_alert {tr : List (Alert × List Assertion)} {a : Alert}
    (hrun : Run (Guarded (step g) (Allowed g)) init tr s) (hok : Allowed g s a) :
    Run (Guarded (step g) (Allowed g)) init (tr ++ [(a, (onAlert g s.inst a).2)])
      ⟨(onAlert g s.inst a).1, report s.said a⟩ :=
  hrun.snoc ⟨hok, rfl⟩

/-- After the metadata and the successful verdict of a piece: it is ready if no block is needed. -/
theorem start (hi : i < g.nPieces) :
    ∃ tr s, Run (Guarded (step g) (Allowed g)) init tr s ∧ Tracks g s ∧
      s.inst.haveMetadata = true ∧ s.said i = ⟨[], true⟩ ∧
      ((s.inst.piece i).ready = true ↔ ceilDiv (g.size i) g.blockSize ≤ 0) := by
  have hmeta : Guarded (step g) (Allowed g) init (.metadataReceived, [])
      ⟨takeMetadata g .new, init.said⟩ := ⟨rfl, rfl⟩
  have htracks := step_tracks init_tracks hmeta.1 hmeta.2
  obtain ⟨hfacts, -, hpiece⟩ := facts_takeMetadata g .new
  have hr := checked ((takeMetadata g .new).setPiece i
    { (takeMetadata g .new).piece i with checkPassed := true }) i
  have hset := htracks.verdict hi
  have hmeta' := haveMetadata_of_facts (facts_setPiece (takeMetadata g .new) i
    { (takeMetadata g .new).piece i with checkPassed := true }).1
  have hmeta'' := hmeta'.trans (congrArg (fun x => x.2.2.2.2.2) hfacts)
  have hsaid : report init.said (.pieceFinished i) i = ⟨[], true⟩ := Function.update_self ..
  have hrun := run_alert (a := .pieceFinished i) (Run.nil.snoc hmeta) ⟨hi, rfl⟩
  refine ⟨_, _, hrun, hr.tracks hset, (haveMetadata_of_facts hr.facts).trans hmeta'', hsaid, ?_⟩
  refine (hr.ready_iff i).trans ?_
  rw [hset.isDue_iff_le hmeta'' hi, piece_setPiece, if_pos rfl, hpiece]
  dsimp only
  rw [hsaid]
  constructor
  · rintro (hold | ⟨-, -, hle⟩)
    · exact nomatch hold
    · exact hle
  · exact fun hle => .inr ⟨rfl, rfl, hle⟩

/-- A piece of more than 16383 blocks is never due. -/
theorem Tracks.wide_not_due (h : Tracks g s) (hmeta : s.inst.haveMetadata = true)
    (hi : i < g.nPieces) (hsize : g.size i + g.blockSize ≤ 2 ^ 31) (hwide : 16383 < g.blocks i) :
    s.inst.isDue i = false := by
  have hlt := BitVec.two_mul_toInt_lt (x := BitVec.ofNat 15 (s.said i).blocks.length)
  rw [← Bool.not_eq_true, h.isDue_iff_le hmeta hi, ceilDiv_eq hsize]
  rintro ⟨-, hle⟩
  omega

/-- All its blocks are reported, one after the other, and it is not ready. -/
theorem wide_blocks (hi : i < g.nPieces) (hsize : g.size i + g.blockSize ≤ 2 ^ 31)
    (hwide : 16383 < g.blocks i) (k : Nat) (hk : k ≤ g.blocks i) :
    ∃ tr s, Run (Guarded (step g) (Allowed g)) init tr s ∧ Tracks g s ∧
      s.inst.haveMetadata = true ∧ (s.said i).passed = true ∧
      (∀ b, b ∈ (s.said i).blocks ↔ b < k) ∧ (s.inst.piece i).ready = false := by
  induction k with
  | zero =>
    obtain ⟨tr, s, hrun, htracks, hmeta, hsaid, hready⟩ := start hi
    refine ⟨tr, s, hrun, htracks, hmeta, by rw [hsaid], fun b => ?_, ?_⟩
    · rw [hsaid]
      exact ⟨(fun hb => nomatch hb), fun hb => absurd hb (Nat.not_lt_zero b)⟩
    · rw [← Bool.not_eq_true, hready, ceilDiv_eq hsize]
      omega
  | succ k ih =>
    obtain ⟨tr, s, hrun, htracks, hmeta, hpassed, hblocks, hready⟩ := ih (Nat.le_of_succ_le hk)
    have hnew : k ∉ (s.said i).blocks := fun hmem => Nat.lt_irrefl k ((hblocks k).mp hmem)
    have hset := htracks.block (Nat.lt_of_succ_le hk) hnew
    have hr := checked (s.inst.setPiece i { s.inst.piece i with
      blocksFinished := (s.inst.piece i).blocksFinished + 1 }) i
    have hmeta' := (haveMetadata_of_facts (facts_setPiece s.inst i { s.inst.piece i with
      blocksFinished := (s.inst.piece i).blocksFinished + 1 }).1).trans hmeta
    have hsaid : report s.said (.blockFinished i k) i =
        { s.said i with blocks := k :: (s.said i).blocks } := Function.update_self ..
    have hok : Allowed g s (.blockFinished i k) := ⟨hi, Nat.lt_of_succ_le hk, hnew⟩
    have hmeta := (haveMetadata_of_facts hr.facts).trans hmeta'
    refine ⟨_, _, run_alert hrun hok, step_tracks htracks hok rfl, hmeta, ?_, fun b => ?_, ?_⟩
    · exact (congrArg Attempt.passed hsaid).trans hpassed
    · dsimp only
      rw [hsaid, List.mem_cons, hblocks, Nat.lt_succ_iff_lt_or_eq, or_comm]
    · refine Bool.not_eq_true _ ▸ fun hnow => ?_
      rcases (hr.ready_iff i).mp hnow with hold | ⟨-, hdue⟩
      · rw [piece_setPiece, if_pos rfl] at hold
        exact absurd (hready.symm.trans hold) Bool.noConfusion
      · exact absurd ((hset.wide_not_due hmeta' hi hsize hwide).symm.trans hdue) Bool.noConfusion

/-- A run that ends with a piece of more than 16383 blocks complete and not ready. -/
theorem wide_piece_lost (hi : i < g.nPieces) (hsize : g.size i + g.blockSize ≤ 2 ^ 31)
    (hwide : 16383 < g.blocks i) :
    ∃ tr s, Run (Guarded (step g) (Allowed g)) init tr s ∧ s.inst.haveMetadata = true ∧
      s.Complete g i ∧ s.inst.havePiece i = false := by
  obtain ⟨tr, s, hrun, -, hmeta, hpassed, hblocks, hready⟩ :=
    wide_blocks hi hsize hwide (g.blocks i) le_rfl
  refine ⟨tr, s, hrun, hmeta, ⟨hpassed, fun b hb => (hblocks b).mpr hb⟩, ?_⟩
  rw [havePiece_eq]
  exact hready

/-- A run that ends with a piece ready of which no block was reported. -/
theorem empty_piece_ready (hi : i < g.nPieces) (hsize : 2 ^ 31 < g.size i + g.blockSize) :
    ∃ tr s, Run (Guarded (step g) (Allowed g)) init tr s ∧ s.inst.haveMetadata = true ∧
      ¬ s.Complete g i ∧ s.inst.havePiece i = true := by
  obtain ⟨tr, s, hrun, -, hmeta, hsaid, hready⟩ := start hi
  refine ⟨tr, s, hrun, hmeta, fun hc => ?_, ?_⟩
  · have hfirst := hc.2 0 (g.blocks_pos i)
    rw [hsaid] at hfirst
    exact nomatch hfirst
  · rw [havePiece_eq]
    exact hready.mpr (ceilDiv_nonpos hsize)

/-- **Piece readiness**: on a torrent, in every order of the alerts and of the metadata, the ready
    pieces are the complete ones, each becomes ready once and the counters agree with them, if and
    only if every piece has at most 16383 blocks and `size + block_size - 1` is an `int`. -/
theorem pieces_ready_iff (g : Geometry) :
    (∀ tr s, Run (Guarded (step g) (Allowed g)) init tr s → s.inst.haveMetadata = true →
      Agrees g tr s) ↔ g.Countable := by
  constructor
  · intro hagrees i hi
    by_contra hnot
    rcases Nat.lt_or_ge (2 ^ 31) (g.size i + g.blockSize) with hlarge | hsize
    · obtain ⟨tr, s, hrun, hmeta, hc, hready⟩ := empty_piece_ready hi hlarge
      exact hc (((hagrees tr s hrun hmeta).ready i hi).mp hready)
    · obtain ⟨tr, s, hrun, hmeta, hc, hready⟩ := wide_piece_lost hi hsize (by omega)
      exact absurd (((hagrees tr s hrun hmeta).ready i hi).mpr hc) (by rw [hready]; decide)
  · exact fun hg tr s hrun hmeta => run_agrees hg hrun hmeta

/-- One piece of 256 MiB in blocks of 16 KiB. -/
def largePiece : Geometry where
  nPieces := 1
  pieceSize := 2 ^ 28
  lastPieceSize := 2 ^ 28
  blockSize := 2 ^ 14
  nPieces_pos := by decide
  nPieces_lt := by decide
  pieceSize_lt := by decide
  lastPieceSize_pos := by decide
  lastPieceSize_le := by decide
  blockSize_pos := by decide
  blockSize_lt := by decide

/-- All 16384 blocks of its piece and the verdict are reported, and it is not ready. -/
theorem large_piece_not_ready :
    ¬ ∀ (g : Geometry) (tr : List (Alert × List Assertion)) (s : State),
      Run (Guarded (step g) (Allowed g)) init tr s → s.inst.haveMetadata = true →
      Agrees g tr s := by
  intro hall
  obtain ⟨tr, s, hrun, hmeta, hc, hready⟩ :=
    wide_piece_lost (g := largePiece) (i := 0) (by decide) (by decide) (by decide)
  exact absurd (((hall _ tr s hrun hmeta).ready 0 (by decide)).mpr hc) (by rw [hready]; decide)

end Mediabox.TorrentPieces
