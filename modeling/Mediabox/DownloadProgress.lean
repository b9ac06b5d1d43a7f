import Mathlib.Algebra.Order.BigOperators.Group.Finset
import Mathlib.Algebra.Order.BigOperators.Group.List
import Mathlib.Tactic.Linarith
import Mediabox.Lib.MachineInt
import Mediabox.TorrentPieces

/-!
# The progress of a download (`src/downloads-backend.c`, `src/lib/torrent_stream.cpp`)

`mbox_dlman_next` computes `percent` from `avbox_torrent_downloaded`, which counts the bytes of all
ready pieces, and `avbox_torrent_size`, the size of the biggest file.

* `biggestFile` — the loop of `metadata_received` that selects the file.
* The metadata come from libtorrent: the pieces cover the files, and some file is not empty.
* Arithmetic that leaves `int64_t` is a fault, and so is the conversion to `int` of a number that is
  not one.  Counts of bytes in pieces are below `2 ^ 62`.
* `size_biggestFile` — the selected file is the biggest one; `downloaded_eq` — the bytes that were
  downloaded are those of the ready pieces.

Main result: `download_percent_iff` — the number is a percentage if and only if the files that are
not selected are less than one percent of the selected one when all pieces are ready, and the ready
pieces have less bytes than it before.
-/

set_option autoImplicit false

namespace Mediabox.Progress

open MachineInt Outcome
open TorrentPieces (downloaded sum_size)

/-- The metadata of a torrent: the pieces, and the sizes of the files. -/
structure TorrentInfo extends TorrentPieces.Geometry where
  files : List Nat
  files_pos : ∃ size ∈ files, 0 < size
  files_le : files.sum ≤ (nPieces - 1) * pieceSize + lastPieceSize

/-! ## The code -/

namespace TorrentInfo

variable (ti : TorrentInfo)

/-- `file_size` -/
def fileSize (i : Nat) : Nat := ti.files.getD i 0

/-- The body of the loop of `metadata_received`; -1 is `none`. -/
def biggerFile (index : Option Nat) (i : Nat) : Option Nat :=
  match index with
  | none => some i
  | some k => if ti.fileSize i > ti.fileSize k then some i else some k

/-- `index` after the loop of `metadata_received`. -/
def biggestFile : Option Nat := (List.range ti.files.length).foldl ti.biggerFile none

/-- `inst->filesize` after `metadata_received`. -/
def filesize : Nat := (ti.biggestFile.map ti.fileSize).getD 0

/-- The bytes in all pieces. -/
def torrentSize : Nat := (ti.nPieces - 1) * ti.pieceSize + ti.lastPieceSize

end TorrentInfo

/-- `struct avbox_torrent`, with its file; no piece is ready before the metadata are there. -/
structure Torrent (ti : TorrentInfo) extends TorrentPieces.Torrent where
  filesize : Int
  facts_eq : haveMetadata = true → toTorrent.facts = ti.facts
  filesize_eq : haveMetadata = true → filesize = ti.filesize
  avail : nAvailPieces =
    ((Finset.range ti.nPieces).filter fun i => toTorrent.havePiece i = true).card
  before : haveMetadata = false → ∀ i, toTorrent.havePiece i = false

section Code

variable {ti : TorrentInfo} (inst : Torrent ti)

/-- `current->percent` after `mbox_dlman_next`. -/
def percent : Except Fault Int :=
  let totalBytes := TorrentPieces.size inst.haveMetadata inst.filesize
  if totalBytes ≠ -1 then do
    let downloadedBytes := downloaded inst.toTorrent
    let product ← arith 64 .overflow (downloadedBytes * 100)
    let ratio ← quotient 64 product totalBytes
    let product ← arith 64 .overflow (ratio * 100)
    let ratio ← quotient 64 product 100
    arith 32 .overflow ratio
  else .ok 0

end Code

/-! ## The pieces and the files -/

section Sizes

variable {ti : TorrentInfo} (inst : Torrent ti)

def Torrent.readyPieces : Finset Nat :=
  (Finset.range ti.nPieces).filter fun i => inst.toTorrent.havePiece i = true

def Torrent.AllReady : Prop := ∀ i < ti.nPieces, inst.toTorrent.havePiece i = true

/-- The bytes in the ready pieces. -/
def Torrent.readyBytes : Int := ∑ i ∈ inst.readyPieces, (ti.size i : Int)

variable {inst}

/-- The loop keeps the biggest of the files it has seen. -/
theorem biggest_of_first (ti : TorrentInfo) (n : Nat) :
    ∃ i ≤ n, (List.range (n + 1)).foldl ti.biggerFile none = some i ∧
      ∀ j ≤ n, ti.fileSize j ≤ ti.fileSize i := by
  induction n with
  | zero =>
    refine ⟨0, Nat.le_refl 0, rfl, fun j hj => ?_⟩
    rw [Nat.le_zero.mp hj]
  | succ n ih =>
    obtain ⟨i, hi, hloop, hmax⟩ := ih
    rw [List.range_succ, List.foldl_append, hloop]
    simp only [List.foldl_cons, List.foldl_nil, TorrentInfo.biggerFile]
    split
    · rename_i hgt
      refine ⟨n + 1, Nat.le_refl _, rfl, fun j hj => ?_⟩
      rcases Nat.lt_or_eq_of_le hj with hlt | rfl
      · have hle := hmax j (by omega)
        omega
      · exact Nat.le_refl _
    · rename_i hle
      refine ⟨i, by omega, rfl, fun j hj => ?_⟩
      rcases Nat.lt_or_eq_of_le hj with hlt | rfl
      · exact hmax j (by omega)
      · omega

theorem size_biggestFile (ti : TorrentInfo) :
    ∃ i < ti.files.length, ti.biggestFile = some i ∧ ti.filesize = ti.fileSize i ∧
      ∀ j < ti.files.length, ti.fileSize j ≤ ti.fileSize i := by
  obtain ⟨size, hmem, -⟩ := ti.files_pos
  have hlen := List.length_pos_of_mem hmem
  obtain ⟨n, hn⟩ : ∃ n, ti.files.length = n + 1 := ⟨ti.files.length - 1, by omega⟩
  obtain ⟨i, hi, hloop, hmax⟩ := biggest_of_first ti n
  have hindex : ti.biggestFile = some i := by
    unfold TorrentInfo.biggestFile
    rw [hn]
    exact hloop
  refine ⟨i, by omega, hindex, ?_, fun j hj => hmax j (by omega)⟩
  unfold TorrentInfo.filesize
  rw [hindex]
  rfl

theorem fileSize_eq {i : Nat} (hi : i < ti.files.length) : ti.fileSize i = ti.files[i] := by
  unfold TorrentInfo.fileSize
  rw [List.getD_eq_getElem?_getD, List.getElem?_eq_getElem hi, Option.getD_some]

theorem filesize_pos (ti : TorrentInfo) : 0 < ti.filesize := by
  obtain ⟨i, -, -, hsize, hmax⟩ := size_biggestFile ti
  obtain ⟨size, hmem, hpos⟩ := ti.files_pos
  obtain ⟨j, hj, rfl⟩ := List.getElem_of_mem hmem
  have hle := hmax j hj
  rw [fileSize_eq hj] at hle
  omega

theorem filesize_le (ti : TorrentInfo) : ti.filesize ≤ ti.torrentSize := by
  obtain ⟨i, hi, -, hsize, -⟩ := size_biggestFile ti
  have hsum := List.le_sum_of_mem (List.getElem_mem hi)
  rw [hsize, fileSize_eq hi]
  exact hsum.trans ti.files_le

theorem mem_readyPieces {i : Nat} :
    i ∈ inst.readyPieces ↔ i < ti.nPieces ∧ inst.toTorrent.havePiece i = true := by
  unfold Torrent.readyPieces
  rw [Finset.mem_filter, Finset.mem_range]

/-- `avbox_torrent_downloaded` counts the bytes of the ready pieces. -/
theorem downloaded_eq (hmeta : inst.haveMetadata = true) :
    downloaded inst.toTorrent = inst.readyBytes := by
  have hfacts := inst.facts_eq hmeta
  simp only [TorrentPieces.Torrent.facts, TorrentPieces.Geometry.facts, Prod.mk.injEq] at hfacts
  obtain ⟨h1, h2, h3, -⟩ := hfacts
  have hpos := ti.nPieces_pos
  have hlast : ((ti.nPieces : Int) - 1).toNat = ti.nPieces - 1 := by omega
  have hmem : ti.nPieces - 1 ∈ inst.readyPieces ↔
      inst.toTorrent.havePiece (ti.nPieces - 1) = true :=
    mem_readyPieces.trans (and_iff_right (by omega))
  have havail : inst.nAvailPieces = inst.readyPieces.card := inst.avail
  rw [Torrent.readyBytes, sum_size _ fun i hi => (mem_readyPieces.mp hi).1, ← havail]
  simp only [downloaded, hmeta, h1, h2, h3, hlast, hmem]
  rfl

theorem readyBytes_nonneg (inst : Torrent ti) : 0 ≤ inst.readyBytes :=
  Finset.sum_nonneg fun _ _ => Int.natCast_nonneg _

theorem readyBytes_all (hall : inst.AllReady) : inst.readyBytes = ti.torrentSize := by
  have hready : inst.readyPieces = Finset.range ti.nPieces :=
    Finset.filter_true_of_mem fun i hi => hall i (Finset.mem_range.mp hi)
  have hpos := ti.nPieces_pos
  have hle := ti.lastPieceSize_le
  have hmem : ti.nPieces - 1 ∈ Finset.range ti.nPieces := Finset.mem_range.mpr (by omega)
  rw [Torrent.readyBytes, hready, sum_size _ fun i hi => Finset.mem_range.mp hi, if_pos hmem,
    Finset.card_range, TorrentInfo.torrentSize]
  obtain ⟨n, hn⟩ : ∃ n, ti.nPieces = n + 1 := ⟨ti.nPieces - 1, by omega⟩
  rw [hn]
  push_cast
  linarith

end Sizes

/-! ## The percentage -/

section Percentage

variable {ti : TorrentInfo} (inst : Torrent ti)

/-- `percent` is computed and lies in [0, 100]; it is 100 when all pieces are ready, and only then.
    -/
def IsPercentage : Prop :=
  Ensures (percent inst)
    (fun percent => 0 ≤ percent ∧ percent ≤ 100 ∧ (percent = 100 ↔ inst.AllReady)) fun _ => False

/-- The selected file stands for the torrent: with all pieces ready the torrent is less than one
    percent bigger, and before the ready pieces have less bytes. -/
structure StandsForTorrent : Prop where
  product : 100 * inst.readyBytes < 2 ^ 63
  complete : inst.AllReady → 100 * ti.torrentSize < 101 * ti.filesize
  partly : ¬inst.AllReady → inst.readyBytes < ti.filesize

variable {inst}

/-- The whole percents of `y` in `x`. -/
theorem percents_lt {x y : Int} (hy : 0 < y) : 100 * x / y < 100 ↔ x < y := by
  rw [Int.ediv_lt_iff_lt_mul hy]
  omega

theorem percents_eq {x y : Int} (hy : 0 < y) (hle : y ≤ x) :
    100 * x / y = 100 ↔ 100 * x < 101 * y := by
  have hge : 100 ≤ 100 * x / y := (Int.le_ediv_iff_mul_le hy).mpr (by omega)
  have hlt : 100 * x / y < 101 ↔ 100 * x < 101 * y := Int.ediv_lt_iff_lt_mul hy
  omega

theorem ensures_percent (hmeta : inst.haveMetadata = true) {R : Int → Prop} :
    Ensures (percent inst) R (fun _ => False) ↔
      100 * inst.readyBytes < 2 ^ 63 ∧
        InRange 64 (100 * inst.readyBytes / ti.filesize * 100) ∧
        InRange 32 (100 * inst.readyBytes / ti.filesize) ∧
        R (100 * inst.readyBytes / ti.filesize) := by
  have hpos := filesize_pos ti
  have hnn : 0 ≤ 100 * inst.readyBytes := by
    have hready := readyBytes_nonneg inst
    omega
  have hsize : TorrentPieces.size inst.haveMetadata inst.filesize = ti.filesize := by
    unfold TorrentPieces.size
    rw [hmeta, inst.filesize_eq hmeta]
    rfl
  have hdiv : (100 * inst.readyBytes).tdiv ti.filesize = 100 * inst.readyBytes / ti.filesize :=
    Int.tdiv_eq_ediv_of_nonneg hnn
  have hquot := Int.ediv_nonneg hnn (Int.natCast_nonneg ti.filesize)
  have hle := Int.ediv_le_self (ti.filesize : Int) hnn
  unfold percent
  rw [hsize, if_pos (show (ti.filesize : Int) ≠ -1 by omega), downloaded_eq hmeta]
  simp only [ensures_bind, ensures_arith, ensures_quotient, mul_comm inst.readyBytes 100, hdiv]
  generalize 100 * inst.readyBytes / (ti.filesize : Int) = q at hquot hle ⊢
  rw [Int.mul_tdiv_cancel q (by decide), inRange_64, inRange_64, inRange_64, inRange_32]
  constructor
  · rintro ⟨hproduct, -, -, hscaled, -, -, hint, hR⟩
    exact ⟨by omega, hscaled, hint, hR⟩
  · rintro ⟨hproduct, hscaled, hint, hR⟩
    exact ⟨by omega, by omega, by omega, hscaled, by decide, by omega, hint, hR⟩

/-- **The percentage**: it is one if and only if the metadata are not there yet or the selected file
    stands for the torrent. -/
theorem download_percent_iff (ti : TorrentInfo) (inst : Torrent ti) :
    IsPercentage inst ↔ inst.haveMetadata = false ∨ StandsForTorrent inst := by
  unfold IsPercentage
  cases hmeta : inst.haveMetadata with
  | false =>
    have hnot : ¬inst.AllReady := fun hall =>
      absurd (hall 0 ti.nPieces_pos) (by rw [inst.before hmeta 0]; decide)
    have hsize : TorrentPieces.size inst.haveMetadata inst.filesize = -1 := if_pos hmeta
    unfold percent
    rw [hsize]
    simpa using hnot
  | true =>
    have hpos : (0 : Int) < ti.filesize := Int.natCast_pos.mpr (filesize_pos ti)
    have hnn : 0 ≤ 100 * inst.readyBytes / (ti.filesize : Int) :=
      Int.ediv_nonneg (by have := readyBytes_nonneg inst; omega) (Int.le_of_lt hpos)
    have hlt := percents_lt (x := inst.readyBytes) hpos
    have heq : inst.AllReady →
        (100 * inst.readyBytes / (ti.filesize : Int) = 100 ↔
          100 * (ti.torrentSize : Int) < 101 * ti.filesize) := fun hall => by
      rw [readyBytes_all hall]
      exact percents_eq hpos (Int.ofNat_le.mpr (filesize_le ti))
    rw [ensures_percent hmeta, inRange_64, inRange_32]
    constructor
    · rintro ⟨hproduct, -, -, -, hle, hall⟩
      refine .inr ⟨hproduct, fun h => ?_, fun h => ?_⟩
      · have hcomplete := (heq h).mp (hall.mpr h)
        omega
      · exact hlt.mp (by have hne := mt hall.mp h; omega)
    · rintro (hfalse | ⟨hproduct, hcomplete, hpartly⟩)
      · exact nomatch hfalse
      · by_cases hall : inst.AllReady
        · have hfull := (heq hall).mpr (by have h := hcomplete hall; omega)
          rw [hfull]
          exact ⟨hproduct, by decide, by decide, by decide, by decide, iff_of_true rfl hall⟩
        · have hless := hlt.mpr (hpartly hall)
          exact ⟨hproduct, by omega, by omega, hnn, by omega,
            iff_of_false (by omega) hall⟩

/-! ## Two files of one size -/

/-- Two files of 64 KiB in pieces of 16 KiB. -/
def twoFiles : TorrentInfo where
  nPieces := 8
  pieceSize := 16384
  lastPieceSize := 16384
  blockSize := 16384
  nPieces_pos := by decide
  nPieces_lt := by decide
  pieceSize_lt := by decide
  lastPieceSize_pos := by decide
  lastPieceSize_le := by decide
  blockSize_pos := by decide
  blockSize_lt := by decide
  files := [65536, 65536]
  files_pos := ⟨65536, by decide, by decide⟩
  files_le := by decide

/-- All of it is there. -/
def allReady : Torrent twoFiles where
  nPieces := 8
  pieceSize := 16384
  lastPieceSize := 16384
  blockSize := 16384
  blocksPerPiece := 1
  haveMetadata := true
  nAvailPieces := 8
  availPieces := List.replicate 8 ⟨1, true, true⟩
  filesize := 65536
  facts_eq := by decide
  filesize_eq := by decide
  avail := by decide
  before := nofun

example : percent allReady = .ok 200 := by decide

/-- The two files are 200 percent of the first one. -/
theorem two_files_no_percentage : ¬∀ (ti : TorrentInfo) (inst : Torrent ti), IsPercentage inst := by
  intro h
  have hpercent := h twoFiles allReady
  rw [IsPercentage, show percent allReady = .ok 200 by decide] at hpercent
  exact absurd hpercent.2.1 (by decide)

end Percentage

end Mediabox.Progress
