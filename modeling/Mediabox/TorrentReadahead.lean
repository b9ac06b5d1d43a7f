import Mathlib.Tactic.Common
import Mediabox.TorrentStream

/-!
# The read-ahead queue tiles the file

The queued pieces, in order, hold the bytes of the file from some position up to `ra_pos`, each
piece up to its own end or to the end of the file (`Tiles`); the stream position lies in the first
tile or at its end (`Covered`).  A read finds its bytes there:

* `read_returns_file` — in every run in which no piece is queued that was read at another offset
  than the one it is queued for, every byte read for position `p` is byte `p` of the file, and no
  assertion of a read fails.
* `seek_and_back_reads_wrong_bytes` — a seek before `pread` and one back after it go unnoticed.
* `readahead_within_file_iff` — when a round leaves `ra_pos` inside the file;
  `readahead_passes_end` — a whole piece is read past the end of the file.
-/

set_option autoImplicit false

namespace Mediabox.TorrentStream

open Transition

/-! ## Pieces and positions of the file -/

namespace Geometry

variable (g : Geometry)

/-- Position in the file of the first byte of piece `i` (negative in a piece that starts in another
    file). -/
def start (i : Int) : Int := i * g.pieceSize - g.fileOffset

/-- Position in the file of the end of piece `i`. -/
def stop (i : Int) : Int := g.start i + g.pieceSizeOf i

/-- The piece with the last byte of the file. -/
def lastIndex : Int := g.offsetToPieceIndex (g.filesize - 1)

theorem start_succ (i : Int) : g.start (i + 1) = g.start i + g.pieceSize := by
  unfold start
  rw [Int.add_mul, Int.one_mul]
  omega

theorem start_le_start {i j : Int} (h : i ≤ j) : g.start i ≤ g.start j := by
  have := Int.mul_le_mul_of_nonneg_right h (Int.le_of_lt g.pieceSize_pos)
  unfold start
  omega

/-- A byte of the file is in piece `i` exactly when it is between the starts of `i` and `i + 1`. -/
theorem index_eq_iff {p i : Int} (hp : 0 ≤ p) :
    g.offsetToPieceIndex p = i ↔ g.start i ≤ p ∧ p < g.start (i + 1) := by
  have hnn : 0 ≤ p + g.fileOffset := by
    have := g.fileOffset_nonneg
    omega
  have hpos := g.pieceSize_pos
  rw [offsetToPieceIndex, Int.tdiv_eq_ediv_of_nonneg hnn, Int.ediv_eq_iff_of_pos hpos, g.start_succ]
  unfold start
  omega

theorem start_index_le {p : Int} (hp : 0 ≤ p) : g.start (g.offsetToPieceIndex p) ≤ p :=
  ((g.index_eq_iff hp).mp rfl).1

theorem lt_start_index {p : Int} (hp : 0 ≤ p) : p < g.start (g.offsetToPieceIndex p + 1) :=
  ((g.index_eq_iff hp).mp rfl).2

theorem index_le_lastIndex {p : Int} (hp : 0 ≤ p) (hlt : p < g.filesize) :
    g.offsetToPieceIndex p ≤ g.lastIndex := by
  by_contra hgt
  have h1 := g.start_le_start (show g.lastIndex + 1 ≤ g.offsetToPieceIndex p by omega)
  have h2 := g.start_index_le hp
  have h3 := g.lt_start_index (show 0 ≤ g.filesize - 1 by omega)
  unfold lastIndex at h1
  omega

theorem lastIndex_lt : g.lastIndex < g.nPieces := by
  by_contra hge
  have hfs := g.filesize_pos
  have h1 := g.start_le_start (show g.nPieces ≤ g.lastIndex by omega)
  have h2 := g.start_index_le (show 0 ≤ g.filesize - 1 by omega)
  have h3 := g.start_succ (g.nPieces - 1)
  have h4 := g.inside
  have h5 := g.lastPieceSize_le
  have h6 : g.start (g.nPieces - 1) = (g.nPieces - 1) * g.pieceSize - g.fileOffset := rfl
  rw [Int.sub_add_cancel] at h3
  unfold lastIndex at h1
  omega

theorem pieceSizeOf_le (i : Int) : g.pieceSizeOf i ≤ g.pieceSize := by
  unfold pieceSizeOf
  split
  · exact Int.le_refl _
  · exact g.lastPieceSize_le

/-- A piece before the last one of the file ends where the next one starts, inside the file. -/
theorem stop_of_lt {i : Int} (h : i < g.lastIndex) :
    g.stop i = g.start (i + 1) ∧ g.stop i < g.filesize := by
  have hlt := g.lastIndex_lt
  have hfs := g.filesize_pos
  have hsz : g.pieceSizeOf i = g.pieceSize := if_pos (by omega)
  have h1 := g.start_succ i
  have h2 := g.start_le_start (show i + 1 ≤ g.lastIndex by omega)
  have h3 := g.start_index_le (show 0 ≤ g.filesize - 1 by omega)
  unfold lastIndex at h2
  unfold stop
  omega

theorem filesize_le_stop : g.filesize ≤ g.stop g.lastIndex := by
  have hlt := g.lastIndex_lt
  have hfs := g.filesize_pos
  have h1 := g.lt_start_index (show 0 ≤ g.filesize - 1 by omega)
  have h2 := g.start_succ g.lastIndex
  unfold stop pieceSizeOf
  split
  · unfold lastIndex at h2 ⊢
    omega
  · have heq : g.lastIndex = g.nPieces - 1 := by omega
    have h3 : g.start (g.nPieces - 1) = (g.nPieces - 1) * g.pieceSize - g.fileOffset := rfl
    have h4 := g.inside
    rw [heq]
    omega

theorem stop_le_start_succ (i : Int) : g.stop i ≤ g.start (i + 1) := by
  have h1 := g.start_succ i
  have h2 := g.pieceSizeOf_le i
  unfold stop
  omega

/-- A position before the end of its piece's bytes; used with the piece of another position. -/
theorem lt_stop_index {p : Int} (hp : 0 ≤ p) (hlt : p < g.filesize) :
    p < g.stop (g.offsetToPieceIndex p) := by
  rcases Int.lt_or_eq_of_le (g.index_le_lastIndex hp hlt) with hi | hi
  · rw [(g.stop_of_lt hi).1]
    exact g.lt_start_index hp
  · have := g.filesize_le_stop
    rw [hi]
    omega

end Geometry

variable {τ α : Type*} {g : Geometry} {file : Int → α}

/-! ## Tiles -/

/-- `piece` holds the bytes of the file from `lo` to `mid`, the end of the piece or of the file. -/
structure Tile (g : Geometry) (file : Int → α) (lo : Int) (piece : Piece α) (mid : Int) : Prop where
  nonneg : 0 ≤ lo
  lt : lo < g.filesize
  index : piece.index = g.offsetToPieceIndex lo
  size : piece.size = g.pieceSizeOf piece.index
  ends : mid = g.stop piece.index ∨ (mid = g.filesize ∧ piece.index = g.lastIndex)
  bytes : ∀ p, lo ≤ p → p < mid → piece.buffer (p - g.start piece.index) = some (file p)

/-- The pieces hold the bytes of the file from the first position to the second one. -/
inductive Tiles (g : Geometry) (file : Int → α) : Int → List (Piece α) → Int → Prop
  | nil (p : Int) : Tiles g file p [] p
  | cons {lo mid hi : Int} {piece : Piece α} {rest : List (Piece α)} :
      Tile g file lo piece mid → Tiles g file mid rest hi → Tiles g file lo (piece :: rest) hi

namespace Tile

variable {lo mid : Int} {piece : Piece α}

/-- A tile ends in the range of its piece, behind its start. -/
theorem lo_lt_mid (h : Tile g file lo piece mid) : lo < mid := by
  have hlt := g.lt_stop_index h.nonneg h.lt
  have := h.lt
  rcases h.ends with hm | ⟨hm, -⟩
  · rw [hm, h.index]; exact hlt
  · omega

theorem mid_le_stop (h : Tile g file lo piece mid) : mid ≤ g.stop piece.index := by
  rcases h.ends with hm | ⟨hm, hi⟩
  · omega
  · rw [hm, hi]; exact g.filesize_le_stop

theorem index_eq (h : Tile g file lo piece mid) {p : Int} (hlo : lo ≤ p) (hmid : p < mid) :
    g.offsetToPieceIndex p = piece.index := by
  have hnn := h.nonneg
  rw [g.index_eq_iff (by omega)]
  have h1 := g.start_index_le hnn
  have h2 := h.mid_le_stop
  have h3 := g.stop_le_start_succ piece.index
  rw [← h.index] at h1
  omega

/-- A tile that ends before the end of the file ends where the next piece starts. -/
theorem next_index (h : Tile g file lo piece mid) (hlt : mid < g.filesize) :
    g.offsetToPieceIndex mid = piece.index + 1 := by
  have hnn := h.nonneg
  have hlm := h.lo_lt_mid
  have hle : piece.index ≤ g.lastIndex := by
    rw [h.index]; exact g.index_le_lastIndex hnn h.lt
  have hstop : mid = g.stop piece.index := by
    rcases h.ends with hm | ⟨hm, -⟩
    · exact hm
    · omega
  have hne : piece.index ≠ g.lastIndex := by
    intro heq
    have := g.filesize_le_stop
    rw [heq] at hstop
    omega
  have h1 := (g.stop_of_lt (show piece.index < g.lastIndex by omega)).1
  have h2 := g.start_succ (piece.index + 1)
  have h3 := g.pieceSize_pos
  rw [g.index_eq_iff (by omega)]
  omega

end Tile

namespace Tiles

theorem le {lo hi : Int} {pieces : List (Piece α)} (h : Tiles g file lo pieces hi) : lo ≤ hi := by
  induction h with
  | nil => exact Int.le_refl _
  | cons htile _ ih =>
    have := htile.lo_lt_mid
    omega

theorem snoc {lo mid hi : Int} {pieces : List (Piece α)} {piece : Piece α}
    (h : Tiles g file lo pieces mid) (htile : Tile g file mid piece hi) :
    Tiles g file lo (pieces ++ [piece]) hi := by
  induction h with
  | nil => exact .cons htile (.nil _)
  | cons hfirst _ ih => exact .cons hfirst (ih htile)

end Tiles

/-! ## The invariant -/

/-- The stream position lies in the first tile or at its end. -/
inductive Covered (g : Geometry) (file : Int → α) (s : State τ α) : Prop
  | empty (hpieces : s.readaheadPieces = []) (hpos : s.pos = s.raPos)
  | front {piece : Piece α} {rest : List (Piece α)} {lo mid : Int}
      (hpieces : s.readaheadPieces = piece :: rest) (htile : Tile g file lo piece mid)
      (hrest : Tiles g file mid rest s.raPos) (hlo : lo ≤ s.pos) (hmid : s.pos ≤ mid)

/-- What the read-ahead thread has in hand between its sections. -/
def ReadaheadOk (g : Geometry) (file : Int → α) (s : State τ α) : Prop :=
  match s.readahead with
  | .pread oldRaPos realSz sz bufferOffset =>
    0 ≤ oldRaPos ∧ oldRaPos < g.filesize ∧ s.nextPiece = g.offsetToPieceIndex oldRaPos ∧
      realSz = g.pieceSizeOf s.nextPiece ∧ sz = g.stop s.nextPiece - oldRaPos ∧
      bufferOffset = oldRaPos - g.start s.nextPiece ∧
      (s.raPos = oldRaPos ∨ s.readaheadPieces = [])
  | .push oldRaPos realSz bytesRead buffer readAt =>
    (readAt = oldRaPos →
      Tile g file oldRaPos ⟨s.nextPiece, realSz, buffer⟩ (oldRaPos + bytesRead)) ∧
      (s.raPos = oldRaPos ∨ s.readaheadPieces = [])
  | _ => True

structure Inv (g : Geometry) (file : Int → α) (s : State τ α) : Prop where
  pos_nonneg : 0 ≤ s.pos
  pos_le : s.pos ≤ g.filesize
  covered : Covered g file s
  readahead : ReadaheadOk g file s

theorem Inv.pos_le_raPos {s : State τ α} (h : Inv g file s) : s.pos ≤ s.raPos := by
  cases h.covered with
  | empty _ hpos => omega
  | front _ _ hrest _ hmid =>
    have := hrest.le
    omega

theorem init_inv (readaheadMin : Int) : Inv g file (init readaheadMin : State τ α) :=
  ⟨Int.le_refl _, Int.le_of_lt g.filesize_pos, .empty rfl rfl, trivial⟩

/-! ## Reading -/

/-- What a read may answer in a state in order. -/
def CopyOk (g : Geometry) (file : Int → α) : Outcome α → Prop
  | .copied pos offset bytes =>
    bytes = (List.range bytes.length).map (fun i : Nat => some (file (pos + i))) ∧
      0 ≤ offset ∧ offset + bytes.length ≤ g.pieceSize
  | .abort => False
  | _ => True

/-- In the buffer, the stream position is counted from the start of its piece. -/
theorem bufferOffset_eq (s : State τ α) :
    bufferOffset g s = s.pos - g.start (g.offsetToPieceIndex s.pos) := by
  unfold bufferOffset Geometry.start
  omega

/-- A read from the front piece stays inside its tile, and inside the file. -/
theorem bytesToRead_bounds {s : State τ α} {front : Piece α} {lo mid : Int} (sz : Nat)
    (htile : Tile g file lo front mid) (hlo : lo ≤ s.pos) (hmid : s.pos < mid)
    (hlt : s.pos < g.filesize) :
    0 ≤ bytesToRead g s front sz ∧ s.pos + bytesToRead g s front sz ≤ mid ∧
      s.pos + bytesToRead g s front sz ≤ g.filesize := by
  have hstop : g.stop front.index = g.start front.index + front.size := by rw [htile.size]; rfl
  have hms := htile.mid_le_stop
  unfold bytesToRead
  rw [bufferOffset_eq, htile.index_eq hlo hmid]
  split
  · rename_i hlast
    have hfs := g.filesize_le_stop
    have : g.filesize ≤ mid := by
      rcases htile.ends with hm | ⟨hm, -⟩
      · rw [hm, hlast]; exact hfs
      · omega
    omega
  · rename_i hlast
    have hle : front.index ≤ g.lastIndex := by
      rw [htile.index]; exact g.index_le_lastIndex htile.nonneg htile.lt
    have hend := (g.stop_of_lt (Int.lt_iff_le_and_ne.mpr ⟨hle, hlast⟩)).2
    have hm : mid = g.stop front.index := by
      rcases htile.ends with hm | ⟨-, hl⟩
      · exact hm
      · exact absurd hl hlast
    omega

theorem copyFront_ok {s : State τ α} (hinv : Inv g file s) {front : Piece α}
    {rest : List (Piece α)} {lo mid : Int} {sz : Nat} (hpieces : s.readaheadPieces = front :: rest)
    (htile : Tile g file lo front mid) (hrest : Tiles g file mid rest s.raPos) (hlo : lo ≤ s.pos)
    (hmid : s.pos < mid) (hlt : s.pos < g.filesize) :
    Inv g file (copyFront g s front sz).1 ∧ CopyOk g file (copyFront g s front sz).2 := by
  obtain ⟨hn0, hnmid, hnfile⟩ := bytesToRead_bounds sz htile hlo hmid hlt
  have hoff : bufferOffset g s = s.pos - g.start front.index := by
    rw [bufferOffset_eq, htile.index_eq hlo hmid]
  have hstart := g.start_index_le hinv.pos_nonneg
  rw [htile.index_eq hlo hmid] at hstart
  unfold copyFront
  generalize bytesToRead g s front sz = n at hn0 hnmid hnfile
  dsimp only
  rw [if_pos hnfile, hoff]
  refine ⟨⟨?_, hnfile, .front hpieces htile hrest ?_ hnmid, hinv.readahead⟩, ?_, ?_, ?_⟩
  · have := hinv.pos_nonneg
    show 0 ≤ s.pos + n
    omega
  · show lo ≤ s.pos + n
    omega
  · rw [List.length_map, List.length_range]
    refine List.map_congr_left fun i hi => ?_
    have hin := List.mem_range.mp hi
    have := htile.bytes (s.pos + i) (by omega) (by omega)
    rwa [show s.pos - g.start front.index + (i : Int) = s.pos + i - g.start front.index by omega]
  · omega
  · have h1 := htile.mid_le_stop
    have h2 := g.stop_le_start_succ front.index
    have h3 := g.start_succ front.index
    rw [List.length_map, List.length_range]
    omega

/-- A read that found bytes available pops at most one piece and copies from the piece of `pos`. -/
theorem copyOut_ok {s : State τ α} (hinv : Inv g file s) (hne : s.pos ≠ s.raPos) (sz : Nat) :
    Inv g file (copyOut g s sz).1 ∧ CopyOk g file (copyOut g s sz).2 := by
  unfold copyOut
  split
  · exact ⟨hinv, trivial⟩
  · rename_i hlt
    have hlt : s.pos < g.filesize := by omega
    cases hinv.covered with
    | empty _ hpos => exact absurd hpos hne
    | @front piece rest lo mid hpieces htile hrest hlo hmid =>
      simp only [hpieces]
      rcases Int.lt_or_eq_of_le hmid with hin | hend
      · have hidx := htile.index_eq hlo hin
        rw [if_neg (by rw [hidx]; simp)]
        exact copyFront_ok hinv hpieces htile hrest hlo hin hlt
      · -- the front piece is used up: the position is the start of the next tile
        have hnext := htile.next_index (by omega)
        rw [← hend] at hnext
        rw [if_pos (by rw [hnext]; omega)]
        cases hrest with
        | nil => exact absurd hend hne
        | @cons _ mid₂ _ second rest₂ htile₂ hrest₂ =>
          have hidx₂ : second.index = g.offsetToPieceIndex s.pos := by rw [htile₂.index, hend]
          simp only [hidx₂, ↓reduceIte]
          have hlt₂ := htile₂.lo_lt_mid
          have hinv₂ : Inv g file { s with readaheadPieces := second :: rest₂ } := by
            refine ⟨hinv.pos_nonneg, hinv.pos_le, .front rfl htile₂ hrest₂ ?_ ?_, ?_⟩
            · show mid ≤ s.pos; omega
            · show s.pos ≤ mid₂; omega
            · have hra := hinv.readahead
              unfold ReadaheadOk at hra ⊢
              simp only [hpieces] at hra ⊢
              split at hra <;> simp_all
          exact copyFront_ok (s := { s with readaheadPieces := second :: rest₂ }) hinv₂ rfl htile₂
            hrest₂ (by show mid ≤ s.pos; omega) (by show s.pos < mid₂; omega) hlt

theorem not_blocked {s : State τ α} (h : blocked g s = false) : s.pos ≠ s.raPos := by
  intro heq
  simp [blocked, heq] at h

theorem Inv.congr {s s' : State τ α} (h : Inv g file s) (hpos : s'.pos = s.pos)
    (hra : s'.raPos = s.raPos) (hnext : s'.nextPiece = s.nextPiece)
    (hpieces : s'.readaheadPieces = s.readaheadPieces) (hpc : s'.readahead = s.readahead) :
    Inv g file s' := by
  refine ⟨hpos ▸ h.pos_nonneg, hpos ▸ h.pos_le, ?_, ?_⟩
  · cases h.covered with
    | empty hp hq => exact .empty (hpieces.trans hp) (by rw [hpos, hra, hq])
    | front hp htile hrest hlo hmid =>
      exact .front (hpieces.trans hp) htile (hra ▸ hrest) (hpos ▸ hlo) (hpos ▸ hmid)
  · have := h.readahead
    unfold ReadaheadOk at this ⊢
    rw [hpc, hra, hnext, hpieces]
    exact this

/-! ## Seeking and reading ahead -/

theorem seek_ok {s : State τ α} (hinv : Inv g file s) {pos : Int} (hpos : 0 ≤ pos) :
    Inv g file (seek g s pos).1 ∧ CopyOk g file (seek g s pos).2 := by
  unfold seek
  split
  · exact ⟨hinv, trivial⟩
  · split
    · exact ⟨hinv, trivial⟩
    · rename_i hle _
      refine ⟨⟨hpos, by show pos ≤ g.filesize; omega, .empty rfl rfl, ?_⟩, trivial⟩
      have := hinv.readahead
      unfold ReadaheadOk at this ⊢
      dsimp only at this ⊢
      split at this
      · obtain ⟨h1, h2, h3, h4, h5, h6, -⟩ := this
        exact ⟨h1, h2, h3, h4, h5, h6, Or.inr rfl⟩
      · exact ⟨this.1, Or.inr rfl⟩
      · trivial

theorem Inv.setReadahead {s : State τ α} (hinv : Inv g file s) (nextPiece : Int)
    (pc : ReadaheadPc α)
    (hpc : ReadaheadOk g file { s with nextPiece := nextPiece, readahead := pc }) :
    Inv g file { s with nextPiece := nextPiece, readahead := pc } := by
  refine ⟨hinv.pos_nonneg, hinv.pos_le, ?_, hpc⟩
  cases hinv.covered with
  | empty hp hq => exact .empty hp hq
  | front hp htile hrest hlo hmid => exact .front hp htile hrest hlo hmid

theorem readaheadPick_inv {s : State τ α} (hinv : Inv g file s) (havePiece : Bool) :
    Inv g file (readaheadPick g s havePiece) := by
  unfold readaheadPick
  split
  · exact hinv.setReadahead s.nextPiece _ trivial
  · split
    · exact hinv.setReadahead s.nextPiece _ trivial
    · split
      · rename_i hlt
        have hnn : 0 ≤ s.raPos := by
          have := hinv.pos_nonneg
          have := hinv.pos_le_raPos
          omega
        have hstart := g.start_index_le hnn
        have hdiff : s.raPos + g.fileOffset - g.offsetToPieceIndex s.raPos * g.pieceSize =
            s.raPos - g.start (g.offsetToPieceIndex s.raPos) := by
          unfold Geometry.start; omega
        dsimp only
        split
        · apply hinv.setReadahead _ _
          rw [hdiff]
          split
          · refine ⟨hnn, hlt, rfl, rfl, ?_, rfl, Or.inl rfl⟩
            show _ = g.stop (g.offsetToPieceIndex s.raPos) - s.raPos
            unfold Geometry.stop; omega
          · refine ⟨hnn, hlt, rfl, rfl, ?_, ?_, Or.inl rfl⟩
            · show _ = g.stop (g.offsetToPieceIndex s.raPos) - s.raPos
              unfold Geometry.stop; omega
            · show 0 = s.raPos - g.start (g.offsetToPieceIndex s.raPos)
              omega
        · exact hinv.setReadahead _ _ trivial
      · exact hinv.setReadahead s.nextPiece _ trivial

/-- What `pread` brought is a tile, when it was given the position the piece was picked for. -/
theorem fill_tile {oldRaPos realSz bufferOffset n nextPiece : Int} {bytes : Nat}
    (hnn : 0 ≤ oldRaPos) (hlt : oldRaPos < g.filesize)
    (hnext : nextPiece = g.offsetToPieceIndex oldRaPos) (hreal : realSz = g.pieceSizeOf nextPiece)
    (hoff : bufferOffset = oldRaPos - g.start nextPiece)
    (hend : oldRaPos + n = g.stop nextPiece ∨ (oldRaPos + n = g.filesize ∧ nextPiece = g.lastIndex))
    (hle : n ≤ bytes) :
    Tile g file oldRaPos ⟨nextPiece, realSz, fill file oldRaPos bufferOffset bytes⟩
      (oldRaPos + n) := by
  refine ⟨hnn, hlt, hnext, hreal, hend, ?_⟩
  intro p hlo hhi
  show fill file oldRaPos bufferOffset bytes (p - g.start nextPiece) = some (file p)
  unfold fill
  rw [if_pos (by omega), show oldRaPos + (p - g.start nextPiece - bufferOffset) = p by omega]

theorem readaheadRead_inv {s : State τ α} (hinv : Inv g file s)
    {oldRaPos realSz sz bufferOffset : Int} {bytes : Nat}
    (hpc : s.readahead = .pread oldRaPos realSz sz bufferOffset) (hbytes : (bytes : Int) ≤ sz) :
    Inv g file (readaheadRead g file s oldRaPos realSz sz bufferOffset bytes) := by
  have hra := hinv.readahead
  unfold ReadaheadOk at hra
  rw [hpc] at hra
  obtain ⟨hnn, hlt, hnext, hreal, hsz, hoff, hseek⟩ := hra
  unfold readaheadRead
  dsimp only
  split
  · split
    · rename_i hlast
      refine hinv.setReadahead s.nextPiece _ ⟨?_, hseek⟩
      intro heq
      have hend : oldRaPos + (g.filesize - oldRaPos) = g.filesize := by omega
      rw [heq] at hlast ⊢
      exact fill_tile hnn hlt hnext hreal hoff (Or.inr ⟨hend, hlast.1⟩) hlast.2
    · exact hinv.setReadahead s.nextPiece _ trivial
  · refine hinv.setReadahead s.nextPiece _ ⟨?_, hseek⟩
    intro heq
    have hend : oldRaPos + (bytes : Int) = g.stop s.nextPiece := by omega
    rw [heq]
    exact fill_tile hnn hlt hnext hreal hoff (Or.inl hend) (Int.le_refl _)

/-- A piece that was read where it is queued extends the tiles. -/
theorem readaheadPush_ok {s : State τ α} (hinv : Inv g file s)
    {oldRaPos realSz bytesRead readAt : Int} {buffer : Int → Option α}
    (hpc : s.readahead = .push oldRaPos realSz bytesRead buffer readAt)
    (hread : s.raPos = oldRaPos → readAt = oldRaPos) :
    Inv g file (readaheadPush g s oldRaPos realSz bytesRead buffer).1 ∧
      CopyOk g file (readaheadPush g s oldRaPos realSz bytesRead buffer).2 := by
  have hra := hinv.readahead
  unfold ReadaheadOk at hra
  rw [hpc] at hra
  obtain ⟨htile, hseek⟩ := hra
  unfold readaheadPush
  split
  · rename_i hne
    simp only [hseek.resolve_left hne]
    exact ⟨(hinv.setReadahead s.nextPiece .top trivial).congr rfl rfl rfl
      (hseek.resolve_left hne).symm rfl, trivial⟩
  · rename_i heq
    rw [not_not] at heq
    have htile' := htile (hread heq)
    rw [← heq] at htile'
    refine ⟨⟨hinv.pos_nonneg, hinv.pos_le, ?_, trivial⟩, trivial⟩
    cases hinv.covered with
    | empty hp hq =>
      have hlt := htile'.lo_lt_mid
      refine .front (by simp only [hp]; rfl) htile' (.nil _) ?_ ?_
      · show s.raPos ≤ s.pos; omega
      · show s.pos ≤ s.raPos + bytesRead; omega
    | front hp hfirst hrest hlo hmid =>
      exact .front (by simp only [hp]; rfl) hfirst (hrest.snoc htile') hlo hmid

/-! ## The end of the file -/

section Round

variable (g : Geometry) (file : Int → α)

/-- A round of `readahead` that nothing disturbs: the three sections one after the other, with
    `bytes` bytes read by `pread`. -/
def readaheadRound (s : State τ α) (havePiece : Bool) (bytes : Nat) : State τ α :=
  let picked := readaheadPick g s havePiece
  match picked.readahead with
  | .pread oldRaPos realSz sz bufferOffset =>
    let filled := readaheadRead g file picked oldRaPos realSz sz bufferOffset bytes
    match filled.readahead with
    | .push oldRaPos realSz bytesRead buffer _ =>
      (readaheadPush g filled oldRaPos realSz bytesRead buffer).1
    | _ => filled
  | _ => picked

/-- The number of bytes a round asks for, when it reads: those of the piece from `ra_pos` on. -/
def roundSize (s : State τ α) : Int := g.stop (g.offsetToPieceIndex s.raPos) - s.raPos

/-- The round comes to its `pread`. -/
def roundReads (s : State τ α) (havePiece : Bool) : Bool :=
  !s.closed && !decide (s.raPos - s.pos > s.readaheadMin) && havePiece

end Round

/-- The first section of a round of a position inside the file. -/
theorem readaheadPick_spec {s : State τ α} (h0 : 0 ≤ s.raPos) (hlt : s.raPos < g.filesize)
    (havePiece : Bool) :
    (roundReads s havePiece = true ∧ ∃ realSz bufferOffset, readaheadPick g s havePiece =
      { s with
        nextPiece := g.offsetToPieceIndex s.raPos
        readahead := .pread s.raPos realSz (roundSize g s) bufferOffset }) ∨
    (roundReads s havePiece = false ∧ (readaheadPick g s havePiece).raPos = s.raPos ∧
      ∀ oldRaPos realSz sz bufferOffset,
        (readaheadPick g s havePiece).readahead ≠ .pread oldRaPos realSz sz bufferOffset) := by
  have hstart := g.start_index_le h0
  unfold readaheadPick roundReads roundSize
  by_cases hclosed : s.closed = true
  · rw [if_pos hclosed, hclosed]
    exact Or.inr ⟨rfl, rfl, fun _ _ _ _ => nofun⟩
  rw [if_neg hclosed, Bool.eq_false_iff.mpr hclosed]
  by_cases hfull : s.raPos - s.pos > s.readaheadMin
  · rw [if_pos hfull, decide_eq_true hfull]
    exact Or.inr ⟨rfl, rfl, fun _ _ _ _ => nofun⟩
  rw [if_neg hfull, decide_eq_false hfull, if_pos hlt]
  cases havePiece with
  | false => exact Or.inr ⟨rfl, rfl, fun _ _ _ _ => nofun⟩
  | true =>
    refine Or.inl ⟨rfl, g.pieceSizeOf (g.offsetToPieceIndex s.raPos), ?_⟩
    unfold Geometry.stop
    unfold Geometry.start at hstart ⊢
    dsimp only
    rw [if_pos rfl]
    by_cases hdiff : s.raPos + g.fileOffset - g.offsetToPieceIndex s.raPos * g.pieceSize > 0
    · refine ⟨s.raPos + g.fileOffset - g.offsetToPieceIndex s.raPos * g.pieceSize, ?_⟩
      rw [if_pos hdiff]
      congr 2
      omega
    · refine ⟨0, ?_⟩
      rw [if_neg hdiff]
      congr 2
      omega

/-- A round that does not come to its `pread` is its first section. -/
theorem readaheadRound_idle {s : State τ α} {havePiece : Bool} {bytes : Nat}
    (hpc : ∀ oldRaPos realSz sz bufferOffset,
      (readaheadPick g s havePiece).readahead ≠ .pread oldRaPos realSz sz bufferOffset) :
    readaheadRound g file s havePiece bytes = readaheadPick g s havePiece := by
  unfold readaheadRound
  dsimp only
  split
  · rename_i hpread
    exact absurd hpread (hpc _ _ _ _)
  · rfl

theorem readaheadRound_raPos {s : State τ α} {havePiece : Bool} {bytes : Nat} (h0 : 0 ≤ s.raPos)
    (hlt : s.raPos < g.filesize) (hreads : roundReads s havePiece = true) :
    (readaheadRound g file s havePiece bytes).raPos =
      if (bytes : Int) < roundSize g s then
        if g.offsetToPieceIndex s.raPos = g.lastIndex ∧ (bytes : Int) ≥ g.filesize - s.raPos then
          g.filesize
        else s.raPos
      else s.raPos + bytes := by
  rcases readaheadPick_spec h0 hlt havePiece with ⟨-, realSz, bufferOffset, hpick⟩ | ⟨hno, -⟩
  · unfold readaheadRound
    rw [hpick]
    dsimp only
    unfold readaheadRead Geometry.lastIndex
    by_cases hshort : (bytes : Int) < roundSize g s
    · by_cases hend : g.offsetToPieceIndex s.raPos = g.offsetToPieceIndex (g.filesize - 1) ∧
          (bytes : Int) ≥ g.filesize - s.raPos
      · simp only [if_pos hshort, if_pos hend, readaheadPush, ne_eq, not_true_eq_false, if_false]
        omega
      · simp only [if_pos hshort, if_neg hend]
    · simp only [if_neg hshort, readaheadPush, ne_eq, not_true_eq_false, if_false]
  · rw [hreads] at hno
    cases hno

/-- **The read-ahead and the end of the file**: a round that nothing disturbs leaves `ra_pos` inside
    the file if and only if it does not come to its `pread`, the read is short, or the piece ends
    inside the file. -/
theorem readahead_within_file_iff {s : State τ α} {havePiece : Bool} {bytes : Nat}
    (h0 : 0 ≤ s.raPos) (hlt : s.raPos < g.filesize) (hbytes : (bytes : Int) ≤ roundSize g s) :
    (readaheadRound g file s havePiece bytes).raPos ≤ g.filesize ↔
      roundReads s havePiece = false ∨ (bytes : Int) < roundSize g s ∨
        g.stop (g.offsetToPieceIndex s.raPos) ≤ g.filesize := by
  by_cases hreads : roundReads s havePiece = true
  · rw [readaheadRound_raPos h0 hlt hreads, hreads]
    by_cases hshort : (bytes : Int) < roundSize g s
    · rw [if_pos hshort]
      split
      · exact ⟨fun _ => Or.inr (Or.inl hshort), fun _ => Int.le_refl _⟩
      · exact ⟨fun _ => Or.inr (Or.inl hshort), fun _ => by omega⟩
    · rw [if_neg hshort]
      have hfull : s.raPos + bytes = g.stop (g.offsetToPieceIndex s.raPos) := by
        unfold roundSize at hbytes hshort
        omega
      rw [hfull]
      constructor
      · exact fun hle => Or.inr (Or.inr hle)
      · rintro (hno | hlt | hle)
        · cases hno
        · exact absurd hlt hshort
        · exact hle
  · have hno := Bool.eq_false_iff.mpr hreads
    refine ⟨fun _ => Or.inl hno, fun _ => ?_⟩
    rcases readaheadPick_spec h0 hlt havePiece with ⟨hyes, -⟩ | ⟨-, hpos, hpc⟩
    · exact absurd hyes hreads
    · rw [readaheadRound_idle hpc, hpos]
      omega

/-- A file of ten bytes in the one piece of its torrent, with another file after it. -/
def sharedPiece : Geometry where
  fileOffset := 0
  filesize := 10
  pieceSize := 16
  nPieces := 1
  lastPieceSize := 16
  fileOffset_nonneg := by decide
  filesize_pos := by decide
  pieceSize_pos := by decide
  lastPieceSize_pos := by decide
  lastPieceSize_le := by decide
  inside := by decide

/-- A read of twelve bytes is corrected. -/
theorem readahead_within_file_short :
    (readaheadRound sharedPiece id (init 8 : State Unit Int) true 12).raPos ≤ 10 :=
  (readahead_within_file_iff (by decide) (by decide) (by decide)).mpr
    (Or.inr (Or.inl (by decide)))

/-- **A whole piece is read past the end of the file**: libtorrent made the file on disk as long as
    its piece, `pread` returns all sixteen bytes asked for, and nothing corrects them. -/
theorem readahead_passes_end :
    ¬∀ (g : Geometry) (file : Int → Int) (s : State Unit Int) (havePiece : Bool) (bytes : Nat),
      0 ≤ s.raPos → s.raPos < g.filesize → (bytes : Int) ≤ roundSize g s →
      (readaheadRound g file s havePiece bytes).raPos ≤ g.filesize := by
  intro hclaim
  exact absurd (hclaim sharedPiece id (init 8) true 16 (by decide) (by decide) (by decide))
    (by decide)

/-! ## Every step preserves the invariant -/

variable [DecidableEq τ]

theorem read_ok {s : State τ α} (hinv : Inv g file s) (t : τ) (sz : Nat) :
    Inv g file (read g s t sz).1 ∧ CopyOk g file (read g s t sz).2 := by
  unfold read
  split
  · exact ⟨hinv, trivial⟩
  · split
    · exact ⟨hinv, trivial⟩
    · split
      · exact ⟨hinv.congr rfl rfl rfl rfl rfl, trivial⟩
      · rename_i hfree
        exact copyOut_ok hinv (not_blocked (by simpa using hfree)) sz

theorem readWoken_ok {s : State τ α} (hinv : Inv g file s) (t : τ) (sz : Nat) :
    Inv g file (readWoken g s t sz).1 ∧ CopyOk g file (readWoken g s t sz).2 := by
  unfold readWoken
  dsimp only
  split
  · exact ⟨hinv.congr rfl rfl rfl rfl rfl, trivial⟩
  · rename_i hfree
    have hne := not_blocked (Bool.not_eq_true _ ▸ hfree)
    have hinv' : Inv g file { s with
        underrun := false
        userWaiting := s.userWaiting - 1
        readers := Function.update s.readers t none } := hinv.congr rfl rfl rfl rfl rfl
    exact copyOut_ok hinv' hne sz


theorem step_cases {s s' : State τ α} {e : Event τ} {out : Outcome α} (hinv : Inv g file s)
    (hseek : ∀ pos, e = .seek pos → 0 ≤ pos)
    (hpush : ∀ oldRaPos realSz bytesRead buffer readAt, e = .push →
      s.readahead = .push oldRaPos realSz bytesRead buffer readAt → s.raPos = oldRaPos →
      readAt = oldRaPos)
    (h : step g file s e = some (s', out)) : Inv g file s' ∧ CopyOk g file out := by
  cases e with
  | read t sz =>
    simp only [step] at h
    split at h
    · have hok := read_ok hinv t sz
      rw [Option.some.inj h] at hok
      exact hok
    · cases h
  | readWake t =>
    obtain ⟨sz, -, hs⟩ := Option.map_eq_some_iff.mp h
    have hok := readWoken_ok hinv t sz
    rw [hs] at hok
    exact hok
  | seek pos =>
    have hok := seek_ok hinv (hseek pos rfl)
    rw [Option.some.inj h] at hok
    exact hok
  | close | warm => cases h; exact ⟨hinv.congr rfl rfl rfl rfl rfl, trivial⟩
  | readahead havePiece =>
    simp only [step] at h
    split at h
    · cases h; exact ⟨readaheadPick_inv hinv havePiece, trivial⟩
    · cases h
  | readaheadWake =>
    simp only [step] at h
    split at h
    · cases h; exact ⟨hinv.setReadahead s.nextPiece .top trivial, trivial⟩
    · cases h
  | pread result =>
    simp only [step] at h
    split at h
    · cases h; exact ⟨hinv.setReadahead s.nextPiece .top trivial, trivial⟩
    · rename_i hpc
      split at h
      · rename_i hbytes
        cases h; exact ⟨readaheadRead_inv hinv hpc hbytes, trivial⟩
      · cases h
    · cases h
  | push =>
    simp only [step] at h
    split at h
    · rename_i hpc
      have hok := readaheadPush_ok hinv hpc (hpush _ _ _ _ _ rfl hpc)
      rw [Option.some.inj h] at hok
      exact hok
    · cases h

/-! ## What a read returns -/

/-- The offset of a seek. -/
def Event.seekTo : Event τ → Option Int
  | .seek pos => some pos
  | _ => none

/-- Seeks go to offsets in `[0, filesize]`. -/
def SeekInRange (g : Geometry) (e : Event τ) : Prop :=
  ∀ pos ∈ e.seekTo, 0 ≤ pos ∧ pos ≤ g.filesize

instance (e : Event τ) : Decidable (SeekInRange g e) :=
  inferInstanceAs (Decidable (∀ pos ∈ e.seekTo, _))

/-- The read-ahead thread is about to queue what `pread` read at another position than the one it
    was picked for. -/
def State.readElsewhere (s : State τ α) : Bool :=
  match s.readahead with
  | .push oldRaPos _ _ _ readAt => decide (s.raPos = oldRaPos) && decide (readAt ≠ oldRaPos)
  | _ => false

def ReadInPlace (s : State τ α) (e : Event τ) : Prop := e = .push → s.readElsewhere = false

instance (s : State τ α) (e : Event τ) : Decidable (ReadInPlace s e) :=
  inferInstanceAs (Decidable (_ → _))

/-- The bytes this step copied for stream position `pos` are those of the file from `pos` on. -/
def RightBytes (file : Int → α) (a : Event τ × Outcome α) : Prop :=
  ∀ pos offset bytes, a.2 = .copied pos offset bytes →
    bytes = (List.range bytes.length).map (fun i : Nat => some (file (pos + i)))

theorem guarded_inv {readaheadMin : Int} {tr : List (Event τ × Outcome α)} {s : State τ α}
    (hrun : Run (Guarded (step g file) fun s e => SeekInRange g e ∧ ReadInPlace s e)
      (init readaheadMin) tr s) : Inv g file s ∧ ∀ a ∈ tr, CopyOk g file a.2 := by
  refine hrun.history (P := fun tr s => Inv g file s ∧ ∀ a ∈ tr, CopyOk g file a.2)
    ⟨init_inv readaheadMin, fun a ha => nomatch ha⟩ ?_
  rintro tr s ⟨e, out⟩ s' ⟨hinv, hpast⟩ ⟨⟨hseek, hread⟩, hstep⟩
  have hplace : ∀ oldRaPos realSz bytesRead buffer readAt, e = .push →
      s.readahead = .push oldRaPos realSz bytesRead buffer readAt → s.raPos = oldRaPos →
      readAt = oldRaPos := by
    intro oldRaPos realSz bytesRead buffer readAt he hpc heq
    have := hread he
    simpa [State.readElsewhere, hpc, heq] using this
  have hpos : ∀ pos, e = .seek pos → 0 ≤ pos := by
    rintro pos rfl
    exact (hseek pos rfl).1
  obtain ⟨hinv', hok⟩ := step_cases hinv hpos hplace hstep
  refine ⟨hinv', ?_⟩
  intro a ha
  rcases List.mem_append.mp ha with hold | hnew
  · exact hpast a hold
  · rw [List.mem_singleton.mp hnew]
    exact hok

/-- **A read returns the bytes of the file**, in every run of reads, seeks in the file and
    read-ahead rounds in which no piece is queued whose `pread` was given another position than the
    one it was picked for. -/
theorem read_returns_file {readaheadMin : Int} {tr : List (Event τ × Outcome α)} {s : State τ α}
    (hrun : Run (Guarded (step g file) fun s e => SeekInRange g e ∧ ReadInPlace s e)
      (init readaheadMin) tr s) : ∀ a ∈ tr, RightBytes file a := by
  intro a ha pos offset bytes hout
  have hok := (guarded_inv hrun).2 a ha
  rw [hout] at hok
  exact hok.1

/-- Two pieces of four bytes, one file. -/
def smallGeometry : Geometry where
  fileOffset := 0
  filesize := 8
  pieceSize := 4
  nPieces := 2
  lastPieceSize := 4
  fileOffset_nonneg := by decide
  filesize_pos := by decide
  pieceSize_pos := by decide
  lastPieceSize_pos := by decide
  lastPieceSize_le := by decide
  inside := by decide

/-- The first piece is read ahead, a seek to the second piece comes before it is queued. -/
theorem read_returns_file_after_seek :
    ∃ (tr : List (Event Unit × Outcome Int)) (s : State Unit Int),
      Run (Guarded (step smallGeometry id) fun s e => SeekInRange smallGeometry e ∧ ReadInPlace s e)
        (init 8) tr s ∧ s.pos = 6 ∧ ∀ a ∈ tr, RightBytes id a :=
  have hrun := run_of_guarded_exec [.warm, .readahead true, .pread (some 4), .seek 4, .push,
    .readahead true, .pread (some 4), .push, .read () 2] rfl
  ⟨_, _, hrun, rfl, read_returns_file hrun⟩

/-- The first piece is picked; a seek to 4 comes before `pread`, and a seek back to 0 after it.  The
    read at 0 then returns bytes 4 and 5. -/
theorem seek_and_back_reads_wrong_bytes :
    ¬∀ (g : Geometry) (file : Int → Int) (readaheadMin : Int)
      (tr : List (Event Unit × Outcome Int)) (s : State Unit Int),
      Run (Guarded (step g file) fun _ e => SeekInRange g e) (init readaheadMin) tr s →
      ∀ a ∈ tr, RightBytes file a := by
  intro hclaim
  have hright := hclaim smallGeometry id 8 _ _ (run_of_guarded_exec [.warm, .readahead true,
    .seek 4, .pread (some 4), .seek 0, .push, .read () 2] rfl)
  have hbytes := hright _ (List.getLast_mem (List.cons_ne_nil _ _)) 0 0 _ rfl
  exact absurd hbytes (by decide)

/-- A round is a run of the sections of the read-ahead thread. -/
theorem readaheadRound_run {s : State τ α} {havePiece : Bool} {bytes : Nat}
    (htop : s.readahead = .top) (h0 : 0 ≤ s.raPos) (hlt : s.raPos < g.filesize)
    (hbytes : (bytes : Int) ≤ roundSize g s) :
    ∃ tr, Run (Step (step g file)) s tr (readaheadRound g file s havePiece bytes) := by
  have hpick : Step (step g file) s (.readahead havePiece, .done) (readaheadPick g s havePiece) := by
    unfold Step step
    rw [htop]
  rcases readaheadPick_spec h0 hlt havePiece with ⟨-, realSz, bufferOffset, heq⟩ | ⟨-, -, hpc⟩
  · have hat : (readaheadPick g s havePiece).readahead =
        .pread s.raPos realSz (roundSize g s) bufferOffset := by rw [heq]
    unfold readaheadRound
    simp only [hat]
    generalize hread : readaheadRead g file (readaheadPick g s havePiece) s.raPos realSz
      (roundSize g s) bufferOffset bytes = t
    have hpread : Step (step g file) (readaheadPick g s havePiece) (.pread (some bytes), .done) t := by
      unfold Step step
      simp only [hat, if_pos hbytes, hread]
    cases hpc : t.readahead with
    | push oldRaPos realSz bytesRead buffer readAt =>
      have hpush : Step (step g file) t
          (.push, (readaheadPush g t oldRaPos realSz bytesRead buffer).2)
          (readaheadPush g t oldRaPos realSz bytesRead buffer).1 := by
        unfold Step step
        rw [hpc]
      exact ⟨_, ((Run.nil.snoc hpick).snoc hpread).snoc hpush⟩
    | top | waiting | pread | exited => exact ⟨_, (Run.nil.snoc hpick).snoc hpread⟩
  · rw [readaheadRound_idle hpc]
    exact ⟨_, Run.nil.snoc hpick⟩

end Mediabox.TorrentStream
