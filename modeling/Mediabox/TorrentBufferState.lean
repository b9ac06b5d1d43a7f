import Mediabox.TorrentWarmup

/-!
# The buffer state of a torrent (`avbox_torrent_bufferstate` in `src/lib/torrent_stream.cpp`)

What the player reads after `avbox_torrent_bufferstate`: `avbox_player_isunderrun` compares `*count`
with `*capacity`, and `avbox_player_bufferstate` divides by `*capacity`.  The caller does not set
the two before the call.

* `tail_counted`, `count_counted` — the loops of `__warmed` keep the counters in order and count
  something as soon as they meet a piece.
* `before_metadata_unset` — `__warmed` returns before the metadata without writing the counters.

Main result: `bufferstate_meaningful_iff` — both are assigned and `0 <= count <= capacity` and
`capacity > 0` hold if and only if the metadata are there, a warm stream has a positive
`readahead_min`, and a count for the warm-up meets a piece and ends inside the torrent.
-/

set_option autoImplicit false

namespace Mediabox.TorrentWarmup

open Loop

/-- The buffer state does not depend on what was in the counters before, and is one to compare and
    to divide by. -/
def Meaningful (inst : Torrent) : Prop :=
  ∃ inst' count capacity, 0 ≤ count ∧ count ≤ capacity ∧ 0 < capacity ∧
    ∀ a b, bufferstate inst ⟨some a, some b⟩ = .ok (inst', ⟨some count, some capacity⟩)

/-- The stream is warm or gets warm now. -/
def IsWarm (inst : Torrent) : Prop :=
  inst.warmed = true ∨ (wanted inst ≤ ahead inst ∧ TailReady inst)

/-- When the buffer state is known. -/
structure BufferKnown (inst : Torrent) : Prop where
  metadata : inst.haveMetadata = true
  warm : IsWarm inst → 0 < inst.readaheadMin
  counted : inst.warmed = false → ahead inst < wanted inst → lastPiece inst ≤ inst.g.nPieces ∧
    (firstPiece inst < streamNPieces inst ∨ position inst < lastPiece inst)

/-! ## The counters -/

section Counting

variable {inst : Torrent} {c : Counters} {p : Prop}

/-- The counters are in order, and something is counted if and only if `p`. -/
def Counted (c : Counters) (p : Prop) : Prop :=
  ∃ a b, c = ⟨some a, some b⟩ ∧ 0 ≤ a ∧ a ≤ b ∧ (0 < b ↔ p)

theorem Counted.congr {q : Prop} (h : Counted c p) (hpq : p ↔ q) : Counted c q := by
  obtain ⟨a, b, hc, ha, hle, hp⟩ := h
  exact ⟨a, b, hc, ha, hle, hp.trans hpq⟩

theorem Counted.reset {a b : Int} (hno : ¬p) : Counted (Counters.reset ⟨some a, some b⟩) p :=
  ⟨0, 0, rfl, Int.le_refl 0, Int.le_refl 0, fun h => absurd h (Int.lt_irrefl 0),
    fun hp => absurd hp hno⟩

/-- A piece that is there counts in both. -/
theorem Counted.ready {size : Int} (h : Counted c p) (hsize : 0 < size) :
    Counted ((c.addAvail size).addTotal size) True := by
  obtain ⟨a, b, rfl, ha, hle, -⟩ := h
  exact ⟨a + size, b + size, rfl, by omega, by omega, by simp; omega⟩

/-- A missing piece counts in the total. -/
theorem Counted.missing {size : Int} (h : Counted c p) (hsize : 0 < size) :
    Counted (c.addTotal size) True := by
  obtain ⟨a, b, rfl, ha, hle, -⟩ := h
  exact ⟨a, b + size, rfl, ha, by omega, by simp; omega⟩

theorem tailTurn_counted {i : Int} (h0 : 0 ≤ i) (hn : i < inst.g.nPieces) (h : Counted c p) :
    ∃ c', tailTurn inst i (c, false) = .ok (c', false) ∧ Counted c' True := by
  have hsize := pieceSizeOf_pos inst.g i
  cases hready : inst.ready i with
  | true => exact ⟨_, tailTurn_ready h0 hn hready c, h.ready hsize⟩
  | false =>
    obtain ⟨a, b, rfl, -⟩ := id h
    exact ⟨_, tailTurn_missing h0 hn hready _, h.missing hsize⟩

theorem countTurn_counted {i : Int} (h0 : 0 ≤ i) (hn : i < inst.g.nPieces) (h : Counted c p) :
    ∃ c', countTurn inst i c = .ok c' ∧ Counted c' True := by
  have hsize := pieceSizeOf_pos inst.g i
  unfold countTurn
  rw [havePiece_ok h0 hn, pieceSize_ok h0 hn]
  cases inst.ready i with
  | true => exact ⟨_, rfl, h.ready hsize⟩
  | false => exact ⟨_, rfl, h.missing hsize⟩

/-- The first loop of `__warmed` counts the pieces at the end of the file. -/
theorem tail_counted (inst : Torrent) (a b : Int) :
    ∃ c, forUp (tailTurn inst) (firstPiece inst) (streamNPieces inst)
        (Counters.reset ⟨some a, some b⟩, false) = .ok (c, false) ∧
      Counted c (firstPiece inst < streamNPieces inst) := by
  obtain ⟨hfirst, hle, hn⟩ := firstPiece_range inst
  have hturn : ∀ i (x : Counters × Bool), firstPiece inst ≤ i → i < streamNPieces inst →
      x.2 = false ∧ Counted x.1 (firstPiece inst < i) →
      ∃ x', tailTurn inst i x = .ok x' ∧ x'.2 = false ∧ Counted x'.1 (firstPiece inst < i + 1) := by
    rintro i ⟨c, returned⟩ hi hlt ⟨rfl, hx⟩
    have h0 : 0 ≤ i := by omega
    have hin : i < inst.g.nPieces := by omega
    obtain ⟨c', hturn, hc'⟩ := tailTurn_counted h0 hin hx
    exact ⟨(c', false), hturn, rfl, hc'.congr (iff_of_true trivial (by omega))⟩
  obtain ⟨⟨c, returned⟩, hloop, rfl, hcounted⟩ := forUp_ok
    (fun i (x : Counters × Bool) => x.2 = false ∧ Counted x.1 (firstPiece inst < i)) hle
    (s := (Counters.reset ⟨some a, some b⟩, false)) ⟨rfl, .reset (Int.lt_irrefl _)⟩ hturn
  exact ⟨c, hloop, hcounted⟩

/-- The second one goes on with the pieces from the position on. -/
theorem count_counted (h : Counted c p) (hlast : lastPiece inst ≤ inst.g.nPieces) :
    ∃ c', forUp (countTurn inst) (position inst) (lastPiece inst) c = .ok c' ∧
      Counted c' (p ∨ position inst < lastPiece inst) := by
  have hpos := (position_range inst).1
  rcases Int.le_total (position inst) (lastPiece inst) with hle | hge
  · refine forUp_ok (fun i x => Counted x (p ∨ position inst < i)) hle
      (h.congr (or_iff_left (Int.lt_irrefl _)).symm) fun i x hi hlt hx => ?_
    have h0 : 0 ≤ i := by omega
    have hin : i < inst.g.nPieces := by omega
    obtain ⟨c', hturn, hc'⟩ := countTurn_counted h0 hin hx
    exact ⟨c', hturn, hc'.congr (iff_of_true trivial (.inr (by omega)))⟩
  · exact ⟨c, forUp_empty hge, h.congr (or_iff_left (Int.not_lt.mpr hge)).symm⟩

theorem warmedWith_reset (hcold : inst.warmed = false) (hmeta : inst.haveMetadata = true)
    (a b : Int) : warmedWith inst ⟨some a, some b⟩ = warmedWith inst ⟨some 0, some 0⟩ := by
  unfold warmedWith
  rw [hcold, hmeta]
  rfl

/-- What `__warmed` leaves in the counters when it returns 0. -/
theorem warmedWith_counted (hcold : inst.warmed = false) (hmeta : inst.haveMetadata = true) :
    (ahead inst < wanted inst → lastPiece inst ≤ inst.g.nPieces →
      ∃ c, Counted c (firstPiece inst < streamNPieces inst ∨ position inst < lastPiece inst) ∧
        ∀ a b, warmedWith inst ⟨some a, some b⟩ = .ok (inst, c, false)) ∧
    (wanted inst ≤ ahead inst → ¬TailReady inst →
      ∃ c, Counted c True ∧ ∀ a b, warmedWith inst ⟨some a, some b⟩ = .ok (inst, c, false)) := by
  obtain ⟨c, returned, hloop, htail, heq⟩ := warmedWith_eq hcold hmeta ⟨some 0, some 0⟩
  obtain ⟨c', hloop', hcounted⟩ := tail_counted inst 0 0
  obtain ⟨rfl, rfl⟩ := Prod.mk.inj (Except.ok.inj (hloop.symm.trans hloop'))
  obtain ⟨a, b, rfl, -⟩ := id hcounted
  rw [if_neg Bool.false_ne_true] at heq
  constructor
  · intro hshort hlast
    obtain ⟨c', hcount, hc'⟩ := count_counted hcounted hlast
    refine ⟨c', hc', fun a' b' => ?_⟩
    rw [warmedWith_reset hcold hmeta, heq, if_pos hshort, if_pos ⟨rfl, rfl⟩, hcount]
    rfl
  · intro hahead hmissing
    obtain ⟨hle, hall⟩ := htail.counts a b rfl rfl
    have hlt : a < b := Int.lt_iff_le_and_ne.mpr ⟨hle, fun h => hmissing (hall.mp h)⟩
    have htailed : firstPiece inst < streamNPieces inst := by
      by_contra hno
      exact hmissing fun j hj hlt => absurd hlt (by omega)
    refine ⟨_, hcounted.congr (iff_of_true htailed trivial), fun a' b' => ?_⟩
    rw [warmedWith_reset hcold hmeta, heq, if_neg (Int.not_lt.mpr hahead)]
    exact if_pos hlt

end Counting

/-! ## The buffer state -/

section BufferState

variable {inst : Torrent} {c : Counters} {p : Prop}

theorem meaningful_cold (hcounted : Counted c p)
    (hcold : ∀ a b, warmedWith inst ⟨some a, some b⟩ = .ok (inst, c, false)) :
    Meaningful inst ↔ p := by
  obtain ⟨a, b, rfl, ha, hle, hp⟩ := hcounted
  have hstate : ∀ a' b', bufferstate inst ⟨some a', some b'⟩ = .ok (inst, ⟨some a, some b⟩) := by
    intro a' b'
    unfold bufferstate
    rw [hcold]
    rfl
  constructor
  · rintro ⟨inst', count, capacity, -, -, hpos, h⟩
    have hsame := (hstate 0 0).symm.trans (h 0 0)
    cases hsame
    exact hp.mp hpos
  · exact fun h => ⟨inst, a, b, ha, hle, hp.mpr h, hstate⟩

theorem meaningful_warm (inst' : Torrent) (hmeta : inst'.haveMetadata = true)
    (hwarm : ∀ a b, ∃ c, warmedWith inst ⟨some a, some b⟩ = .ok (inst', c, true)) :
    Meaningful inst ↔ 0 < inst'.readaheadMin := by
  obtain ⟨count, hbuffer, hle, hnn⟩ := bufferWarmed_eq hmeta
  have hstate : ∀ a b, bufferstate inst ⟨some a, some b⟩ =
      .ok (inst', ⟨some count, some inst'.readaheadMin⟩) := by
    intro a b
    obtain ⟨c, hc⟩ := hwarm a b
    unfold bufferstate
    rw [hc]
    show (do return (inst', ← bufferWarmed inst')) = _
    rw [hbuffer]
    rfl
  constructor
  · rintro ⟨inst'', count', capacity, -, -, hpos, h⟩
    have hsame := (hstate 0 0).symm.trans (h 0 0)
    cases hsame
    exact hpos
  · exact fun h => ⟨inst', count, inst'.readaheadMin, hnn (Int.le_of_lt h), hle, h, hstate⟩

/-- Before the metadata the counters stay as they were, or an assertion fails. -/
theorem before_metadata_unset (hmeta : inst.haveMetadata = false) (a b : Int) :
    bufferstate inst ⟨some a, some b⟩ =
      if inst.warmed = true then .error .metadata else .ok (inst, ⟨some a, some b⟩) := by
  unfold bufferstate warmedWith
  cases inst.warmed with
  | true =>
    show (do return (inst, ← bufferWarmed inst)) = _
    rw [bufferWarmed, if_pos hmeta]
    rfl
  | false =>
    rw [hmeta]
    rfl

theorem not_meaningful_before_metadata (inst : Torrent) (hmeta : inst.haveMetadata = false) :
    ¬Meaningful inst := by
  rintro ⟨inst', count, capacity, -, -, hpos, h⟩
  have hstate := h 0 0
  rw [before_metadata_unset hmeta] at hstate
  split at hstate
  · cases hstate
  · cases hstate
    exact absurd hpos (Int.lt_irrefl 0)

/-- **The buffer state** can be compared and divided by if and only if it is known: with the
    metadata, with a positive `readahead_min` once the stream is warm, and with a count for the
    warm-up that meets a piece and ends inside the torrent. -/
theorem bufferstate_meaningful_iff (inst : Torrent) : Meaningful inst ↔ BufferKnown inst := by
  cases hmeta : inst.haveMetadata with
  | false =>
    refine iff_of_false (not_meaningful_before_metadata inst hmeta) fun h => ?_
    exact absurd h.metadata (by rw [hmeta]; decide)
  | true =>
    cases hcold : inst.warmed with
    | true =>
      rw [meaningful_warm inst hmeta fun a b => ⟨_, if_pos hcold⟩]
      constructor
      · exact fun h => ⟨hmeta, fun _ => h, fun hno => absurd (hno.symm.trans hcold) (by decide)⟩
      · exact fun h => h.warm (.inl hcold)
    | false =>
      obtain ⟨hpast, -, -, hfull⟩ := warmedWith_counting hcold hmeta 0 0
      obtain ⟨hshort, hmissing⟩ := warmedWith_counted hcold hmeta
      have hwarm : IsWarm inst ↔ wanted inst ≤ ahead inst ∧ TailReady inst :=
        or_iff_right (by rw [hcold]; decide)
      by_cases hahead : ahead inst < wanted inst
      · have hno : ¬IsWarm inst := fun h => by
          have hle := (hwarm.mp h).1
          omega
        by_cases hlast : lastPiece inst ≤ inst.g.nPieces
        · obtain ⟨c, hcounted, hc⟩ := hshort hahead hlast
          rw [meaningful_cold hcounted hc]
          exact ⟨fun h => ⟨hmeta, fun hyes => absurd hyes hno, fun _ _ => ⟨hlast, h⟩⟩,
            fun h => (h.counted hcold hahead).2⟩
        · refine iff_of_false ?_ fun h => hlast (h.counted hcold hahead).1
          rintro ⟨inst', count, capacity, -, -, -, h⟩
          have hstate := h 0 0
          rw [bufferstate, hpast hahead (Int.not_le.mp hlast)] at hstate
          cases hstate
      · by_cases htail : TailReady inst
        · rw [meaningful_warm { inst with warmed := true } hmeta fun a b =>
            (warmedWith_counting hcold hmeta a b).2.2.2 (Int.not_lt.mp hahead) htail]
          exact ⟨fun h => ⟨hmeta, fun _ => h, fun _ hlt => absurd hlt hahead⟩,
            fun h => h.warm (hwarm.mpr ⟨Int.not_lt.mp hahead, htail⟩)⟩
        · obtain ⟨c, hcounted, hc⟩ := hmissing (Int.not_lt.mp hahead) htail
          rw [meaningful_cold hcounted hc]
          exact iff_of_true trivial ⟨hmeta, fun h => absurd (hwarm.mp h).2 htail,
            fun _ hlt => absurd hlt hahead⟩

/-- **Before the metadata** the two numbers are not assigned. -/
theorem bufferstate_unset : ¬∀ inst : Torrent, Meaningful inst := by
  intro hclaim
  let inst := streamAt 1 (by decide) (by decide) 0 (by decide) (by decide) fun _ => false
  exact not_meaningful_before_metadata { inst with haveMetadata := false } rfl (hclaim _)

end BufferState

end Mediabox.TorrentWarmup
