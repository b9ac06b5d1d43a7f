import Mathlib.Data.List.Chain
import Mediabox.TorrentReadahead

/-!
# The read-ahead queue, between any two sections

In runs without a seek inside a round of the read-ahead thread, and with a `pread` that never goes
beyond the end of the file, the tiles of `TorrentReadahead` give the shape of the queue:

* `readahead_queue_inv` — `0 <= pos <= ra_pos <= filesize`; the queued pieces are consecutive and
  end with the piece of `ra_pos - 1`; the piece of `pos` is the first or the second of them; and no
  assertion fails, and no read leaves its buffer.
-/

set_option autoImplicit false

namespace Mediabox.TorrentStream

open Transition

variable {τ α : Type*} {g : Geometry} {file : Int → α}

/-! ## The shape of the queue -/

theorem Tiles.isChain {lo hi : Int} {pieces : List (Piece α)} (h : Tiles g file lo pieces hi) :
    pieces.IsChain fun a b => b.index = a.index + 1 := by
  induction h with
  | nil => exact List.IsChain.nil
  | cons htile hrest ih =>
    cases hrest with
    | nil => exact List.IsChain.singleton _
    | cons htile₂ _ =>
      refine List.IsChain.cons_cons ?_ ih
      rw [htile₂.index]
      exact htile.next_index htile₂.lt

theorem Tiles.getLast {lo hi : Int} {pieces : List (Piece α)} (h : Tiles g file lo pieces hi) :
    ∀ piece ∈ pieces.getLast?, piece.index = g.offsetToPieceIndex (hi - 1) := by
  induction h with
  | nil => exact fun piece hp => nomatch hp
  | @cons lo mid hi first rest htile hrest ih =>
    cases hrest with
    | nil =>
      intro piece hp
      simp only [List.getLast?_singleton, Option.mem_some_iff] at hp
      subst hp
      have := htile.lo_lt_mid
      exact (htile.index_eq (by omega) (by omega)).symm
    | cons htile₂ hrest₂ =>
      intro piece hp
      exact ih piece (by simpa [List.getLast?_cons_cons] using hp)

/-- The queue between two sections: its pieces are consecutive up to the last byte read ahead, and
    the piece of `pos` is its first or second entry. -/
structure QueueInv (g : Geometry) (s : State τ α) : Prop where
  pos_nonneg : 0 ≤ s.pos
  pos_le_raPos : s.pos ≤ s.raPos
  raPos_le : s.raPos ≤ g.filesize
  nonempty : s.pos < s.raPos → s.readaheadPieces ≠ []
  consecutive : s.pos < s.raPos → s.readaheadPieces.IsChain fun a b => b.index = a.index + 1
  ends : s.pos < s.raPos → ∀ piece ∈ s.readaheadPieces.getLast?,
    piece.index = g.offsetToPieceIndex (s.raPos - 1)
  front : s.pos < s.raPos → ∃ piece,
    (s.readaheadPieces[0]? = some piece ∨ s.readaheadPieces[1]? = some piece) ∧
      piece.index = g.offsetToPieceIndex s.pos

theorem Inv.queueInv {s : State τ α} (hinv : Inv g file s) (hle : s.raPos ≤ g.filesize) :
    QueueInv g s := by
  cases hinv.covered with
  | empty hpieces hpos =>
    have hnot : ¬s.pos < s.raPos := by omega
    exact ⟨hinv.pos_nonneg, hinv.pos_le_raPos, hle, fun h => absurd h hnot, fun h => absurd h hnot,
      fun h => absurd h hnot, fun h => absurd h hnot⟩
  | @front piece rest lo mid hpieces htile hrest hlo hmid =>
    have htiles : Tiles g file lo s.readaheadPieces s.raPos := hpieces ▸ .cons htile hrest
    refine ⟨hinv.pos_nonneg, hinv.pos_le_raPos, hle, fun _ => by simp [hpieces],
      fun _ => htiles.isChain, fun _ => htiles.getLast, fun hlt => ?_⟩
    rcases Int.lt_or_eq_of_le hmid with hin | hend
    · exact ⟨piece, Or.inl (by simp [hpieces]), (htile.index_eq hlo hin).symm⟩
    · cases hrest with
      | nil => omega
      | @cons _ _ _ second _ htile₂ _ =>
        exact ⟨second, Or.inr (by simp [hpieces]), by rw [htile₂.index, hend]⟩

/-- The read-ahead thread is between its two locked sections. -/
def State.reading (s : State τ α) : Bool :=
  match s.readahead with
  | .pread _ _ _ _ => true
  | .push _ _ _ _ _ => true
  | _ => false

/-- The number of bytes a successful `pread` returned. -/
def Event.bytesRead : Event τ → Option Nat
  | .pread result => result
  | _ => none

/-- No seek inside a round of `readahead`, and no `pread` beyond the end of the file. -/
def Undisturbed (g : Geometry) (s : State τ α) (e : Event τ) : Prop :=
  SeekInRange g e ∧ (e.seekTo.isSome → s.reading = false) ∧
    ∀ bytes ∈ e.bytesRead, s.raPos + bytes ≤ g.filesize

instance (s : State τ α) (e : Event τ) : Decidable (Undisturbed g s e) :=
  inferInstanceAs (Decidable (_ ∧ (_ → _) ∧ ∀ bytes ∈ e.bytesRead, _))

/-- In undisturbed runs the position has not moved while a piece is being read. -/
def Steady (g : Geometry) (s : State τ α) : Prop :=
  s.raPos ≤ g.filesize ∧
    match s.readahead with
    | .pread oldRaPos _ _ _ => s.raPos = oldRaPos
    | .push oldRaPos _ bytesRead _ readAt =>
      s.raPos = oldRaPos ∧ readAt = oldRaPos ∧ oldRaPos + bytesRead ≤ g.filesize
    | _ => True

theorem Steady.congr {s s' : State τ α} (h : Steady g s) (hra : s'.raPos = s.raPos)
    (hpc : s'.readahead = s.readahead) : Steady g s' := by
  unfold Steady at h ⊢
  rw [hra, hpc]
  exact h

/-- A read: it leaves the read-ahead alone and queues nothing. -/
def LeavesReadahead (s : State τ α) (r : State τ α × Outcome α) : Prop :=
  r.1.raPos = s.raPos ∧ r.1.readahead = s.readahead ∧ ∀ inRange, r.2 ≠ .queued inRange

theorem LeavesReadahead.steady {s : State τ α} {r : State τ α × Outcome α} (h : LeavesReadahead s r)
    (hsteady : Steady g s) : Steady g r.1 ∧ ∀ inRange, r.2 = .queued inRange → inRange = true :=
  ⟨hsteady.congr h.1 h.2.1, fun inRange hq => absurd hq (h.2.2 inRange)⟩

theorem copyFront_leaves (s : State τ α) (front : Piece α) (sz : Nat) :
    LeavesReadahead s (copyFront g s front sz) := by
  unfold copyFront
  dsimp only
  split <;> exact ⟨rfl, rfl, fun _ h => nomatch h⟩

theorem copyOut_leaves (s : State τ α) (sz : Nat) : LeavesReadahead s (copyOut g s sz) := by
  unfold copyOut
  split
  · exact ⟨rfl, rfl, fun _ h => nomatch h⟩
  · split
    · exact ⟨rfl, rfl, fun _ h => nomatch h⟩
    · split
      · split
        · exact ⟨rfl, rfl, fun _ h => nomatch h⟩
        · split
          · exact copyFront_leaves _ _ _
          · exact ⟨rfl, rfl, fun _ h => nomatch h⟩
      · exact copyFront_leaves _ _ _

/-- A seek outside of the rounds of the read-ahead thread. -/
theorem seek_steady {s : State τ α} (hsteady : Steady g s) (hidle : s.reading = false) (pos : Int) :
    Steady g (seek g s pos).1 ∧ ∀ inRange, (seek g s pos).2 = .queued inRange → inRange = true := by
  unfold seek
  split
  · exact ⟨hsteady, fun _ h => nomatch h⟩
  · split
    · exact ⟨hsteady, fun _ h => nomatch h⟩
    · rename_i hle _
      refine ⟨⟨by show pos ≤ g.filesize; omega, ?_⟩, fun _ h => nomatch h⟩
      unfold State.reading at hidle
      dsimp only
      split
      · rename_i hpc; rw [hpc] at hidle; cases hidle
      · rename_i hpc; rw [hpc] at hidle; cases hidle
      · trivial

theorem readaheadPick_steady {s : State τ α} (hsteady : Steady g s) (havePiece : Bool) :
    Steady g (readaheadPick g s havePiece) := by
  unfold readaheadPick
  split
  · exact ⟨hsteady.1, trivial⟩
  · split
    · exact ⟨hsteady.1, trivial⟩
    · split
      · dsimp only
        split
        · refine ⟨hsteady.1, ?_⟩
          by_cases hdiff : s.raPos + g.fileOffset - g.offsetToPieceIndex s.raPos * g.pieceSize > 0
          · simp only [if_pos hdiff]
          · simp only [if_neg hdiff]
        · exact ⟨hsteady.1, trivial⟩
      · exact ⟨hsteady.1, trivial⟩

theorem readaheadRead_steady {s : State τ α} (hsteady : Steady g s)
    {oldRaPos realSz sz bufferOffset : Int} {bytes : Nat}
    (hpc : s.readahead = .pread oldRaPos realSz sz bufferOffset)
    (hbytes : s.raPos + bytes ≤ g.filesize) :
    Steady g (readaheadRead g file s oldRaPos realSz sz bufferOffset bytes) := by
  obtain ⟨hle, hra⟩ := hsteady
  rw [hpc] at hra
  dsimp only at hra
  unfold readaheadRead
  dsimp only
  split
  · split
    · exact ⟨hle, hra, hra, by omega⟩
    · exact ⟨hle, trivial⟩
  · exact ⟨hle, hra, hra, by omega⟩

theorem readaheadPush_steady {s : State τ α} (hsteady : Steady g s)
    {oldRaPos realSz bytesRead readAt : Int} {buffer : Int → Option α}
    (hpc : s.readahead = .push oldRaPos realSz bytesRead buffer readAt) :
    Steady g (readaheadPush g s oldRaPos realSz bytesRead buffer).1 ∧
      ∀ inRange, (readaheadPush g s oldRaPos realSz bytesRead buffer).2 = .queued inRange →
        inRange = true := by
  obtain ⟨-, hra⟩ := hsteady
  rw [hpc] at hra
  obtain ⟨heq, -, hend⟩ := hra
  unfold readaheadPush
  rw [if_neg (by simpa using heq)]
  have hle : s.raPos + bytesRead ≤ g.filesize := by omega
  refine ⟨⟨hle, trivial⟩, ?_⟩
  intro inRange hq
  cases hq
  exact decide_eq_true hle

/-- No assertion failed in this step, and what it copied lies inside the buffer of a piece. -/
def SafeStep (g : Geometry) (a : Event τ × Outcome α) : Prop :=
  match a.2 with
  | .abort => False
  | .queued inRange => inRange = true
  | .copied _ offset bytes => 0 ≤ offset ∧ offset + bytes.length ≤ g.pieceSize
  | _ => True

theorem safeStep_of_copyOk {e : Event τ} {out : Outcome α} (hok : CopyOk g file out)
    (hq : ∀ inRange, out = .queued inRange → inRange = true) : SafeStep g (e, out) := by
  cases out with
  | abort => exact hok
  | queued inRange => exact hq inRange rfl
  | copied pos offset bytes => exact hok.2
  | _ => trivial

variable [DecidableEq τ]

theorem read_leaves (s : State τ α) (t : τ) (sz : Nat) : LeavesReadahead s (read g s t sz) := by
  unfold read
  split
  · exact ⟨rfl, rfl, fun _ h => nomatch h⟩
  · split
    · exact ⟨rfl, rfl, fun _ h => nomatch h⟩
    · split
      · exact ⟨rfl, rfl, fun _ h => nomatch h⟩
      · exact copyOut_leaves _ _

theorem readWoken_leaves (s : State τ α) (t : τ) (sz : Nat) :
    LeavesReadahead s (readWoken g s t sz) := by
  unfold readWoken
  dsimp only
  split
  · exact ⟨rfl, rfl, fun _ h => nomatch h⟩
  · exact copyOut_leaves _ _

/-- **One step of an undisturbed run.** -/
theorem step_steady {s s' : State τ α} {e : Event τ} {out : Outcome α} (hsteady : Steady g s)
    (hcond : Undisturbed g s e) (h : step g file s e = some (s', out)) :
    Steady g s' ∧ ∀ inRange, out = .queued inRange → inRange = true := by
  cases e with
  | read t sz =>
    simp only [step] at h
    split at h
    · have hok := (read_leaves (g := g) s t sz).steady hsteady
      rw [Option.some.inj h] at hok
      exact hok
    · cases h
  | readWake t =>
    obtain ⟨sz, -, hs⟩ := Option.map_eq_some_iff.mp h
    have hok := (readWoken_leaves (g := g) s t sz).steady hsteady
    rw [hs] at hok
    exact hok
  | seek pos =>
    have hok := seek_steady hsteady (hcond.2.1 rfl) pos
    rw [Option.some.inj h] at hok
    exact hok
  | close | warm => cases h; exact ⟨hsteady, fun _ hq => by cases hq⟩
  | readahead havePiece =>
    simp only [step] at h
    split at h
    · cases h; exact ⟨readaheadPick_steady hsteady havePiece, fun _ hq => by cases hq⟩
    · cases h
  | readaheadWake =>
    simp only [step] at h
    split at h
    · cases h; exact ⟨⟨hsteady.1, trivial⟩, fun _ hq => by cases hq⟩
    · cases h
  | pread result =>
    simp only [step] at h
    split at h
    · cases h; exact ⟨⟨hsteady.1, trivial⟩, fun _ hq => by cases hq⟩
    · rename_i hpc
      split at h
      · cases h
        exact ⟨readaheadRead_steady hsteady hpc (hcond.2.2 _ rfl), fun _ hq => by cases hq⟩
      · cases h
    · cases h
  | push =>
    simp only [step] at h
    split at h
    · rename_i hpc
      have hok := readaheadPush_steady hsteady hpc
      rw [Option.some.inj h] at hok
      exact hok
    · cases h

/-! ## Main theorem -/

/-- **The read-ahead queue.**  After every section of every undisturbed run the queue has the shape
    `QueueInv`; no assertion failed on the way, and no read left its buffer. -/
theorem readahead_queue_inv {readaheadMin : Int} {tr : List (Event τ × Outcome α)} {s : State τ α}
    (hrun : Run (Guarded (step g file) (Undisturbed g)) (init readaheadMin) tr s) :
    QueueInv g s ∧ ∀ a ∈ tr, SafeStep g a := by
  have hall := hrun.history (P := fun tr s => Inv g file s ∧ Steady g s ∧ ∀ a ∈ tr, SafeStep g a)
    ⟨init_inv readaheadMin, ⟨Int.le_of_lt g.filesize_pos, trivial⟩, fun a ha => nomatch ha⟩ ?_
  · exact ⟨hall.1.queueInv hall.2.1.1, hall.2.2⟩
  · rintro tr s ⟨e, out⟩ s' ⟨hinv, hsteady, hpast⟩ ⟨hcond, hstep⟩
    obtain ⟨hsteady', hqueued⟩ := step_steady hsteady hcond hstep
    have hseek : ∀ pos, e = .seek pos → 0 ≤ pos := by
      rintro pos rfl
      exact (hcond.1 pos rfl).1
    have hpush : ∀ oldRaPos realSz bytesRead buffer readAt, e = .push →
        s.readahead = .push oldRaPos realSz bytesRead buffer readAt → s.raPos = oldRaPos →
        readAt = oldRaPos := by
      intro oldRaPos realSz bytesRead buffer readAt _ hpc _
      have hra := hsteady.2
      rw [hpc] at hra
      exact hra.2.1
    obtain ⟨hinv', hok⟩ := step_cases hinv hseek hpush hstep
    refine ⟨hinv', hsteady', ?_⟩
    intro a ha
    rcases List.mem_append.mp ha with hold | hnew
    · exact hpast a hold
    · rw [List.mem_singleton.mp hnew]
      exact safeStep_of_copyOk hok hqueued

/-- Both pieces are read ahead, and the position moves from the first to the second one. -/
theorem readahead_queue_inv_two_pieces :
    ∃ (tr : List (Event Unit × Outcome Int)) (s : State Unit Int),
      Run (Guarded (step smallGeometry id) (Undisturbed smallGeometry)) (init 8) tr s ∧
      s.pos = 5 ∧ s.raPos = 8 ∧ QueueInv smallGeometry s ∧ ∀ a ∈ tr, SafeStep smallGeometry a :=
  have hrun := run_of_guarded_exec [.warm, .readahead true, .pread (some 4), .push,
    .readahead true, .pread (some 4), .push, .read () 9, .read () 1] rfl
  ⟨_, _, hrun, rfl, rfl, readahead_queue_inv hrun⟩

end Mediabox.TorrentStream
