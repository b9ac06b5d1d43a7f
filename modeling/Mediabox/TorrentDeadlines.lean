import Mathlib.Data.List.Nodup
import Mathlib.Data.List.Perm.Basic
import Mathlib.Tactic.Ring
import Mediabox.TorrentWarmup

/-!
# The deadlines of pieces (`adjust_priorities` in `src/lib/torrent_stream.cpp`)

The three loops of `adjust_priorities` with the deadlines that they give to libtorrent.  A deadline
is an `int`, and `deadline += piece_duration` wraps; `piece_duration` comes from floating point
numbers and is a parameter.

* `adjustPriorities_eq` — the deadlines are the multiples of `piece_duration`, in the order of
  `TorrentWarmup.adjustPriorities`.
* `order` — the order in which the missing pieces are wanted: the end of the file, then the pieces
  from the position on, then the others.
* `nodup_given_iff` — no piece gets two deadlines.  With the position in the tail `first_piece`
  becomes the piece of the position, and the last loop sets those of the tail before it again.

Main result: `deadlines_iff` — each missing piece has one deadline and they increase in that order
if and only if no piece is missing between the start of the tail and the position, and the last
deadline is an `int`.
-/

set_option autoImplicit false

namespace Mediabox.TorrentDeadlines

open Loop
open TorrentPieces (int32)
open TorrentWarmup hiding adjustPriorities

/-- `piece_duration` -/
structure PieceDuration where
  ms : Int
  pos : 0 < ms
  int : ms < 2 ^ 31

/-! ## The code -/

/-- The local `deadline`, and the deadlines that were set, in this order. -/
structure Plan where
  deadline : Int
  given : List (Int × Int)

section Code

variable (inst : Torrent) (pieceDuration : PieceDuration)

/-- The body of the three loops. -/
def deadlineTurn (pieceIndex : Int) (plan : Plan) : Except Fault Plan := do
  if ← havePiece inst pieceIndex then return plan
  else
    return ⟨int32 (plan.deadline + pieceDuration.ms), plan.given ++ [(pieceIndex, plan.deadline)]⟩

/-- `adjust_priorities` -/
def adjustPriorities : Except Fault (List (Int × Int)) :=
  if inst.haveMetadata = false then .error .metadata
  else do
    let lastPiece := firstPiece inst
    let plan ← forUp (deadlineTurn inst pieceDuration) lastPiece (streamNPieces inst)
      ⟨pieceDuration.ms, []⟩
    let (firstPiece, plan) ←
      if inst.pos < inst.g.filesize then do
        -- `first_piece` becomes the piece of the position
        let firstPiece := offsetToPieceIndex inst inst.pos
        pure (firstPiece, ← forUp (deadlineTurn inst pieceDuration) firstPiece lastPiece plan)
      else pure (lastPiece, plan)
    -- with `first_piece > 0` not met there is no turn
    let plan ← forUp (deadlineTurn inst pieceDuration) 0 firstPiece plan
    return plan.given

end Code

/-! ## The deadlines are multiples of the duration -/

section Numbered

variable {inst : Torrent} {pieceDuration : PieceDuration}

/-- Pieces with the multiples of the duration. -/
def numbered (pieceDuration : PieceDuration) (pieces : List Int) : List (Int × Int) :=
  pieces.zipIdx.map fun (i, k) => (i, int32 ((k + 1) * pieceDuration.ms))

/-- The plan after these pieces. -/
def planOf (pieceDuration : PieceDuration) (pieces : List Int) : Plan :=
  ⟨int32 ((pieces.length + 1) * pieceDuration.ms), numbered pieceDuration pieces⟩

theorem planOf_nil (pieceDuration : PieceDuration) :
    planOf pieceDuration [] = ⟨pieceDuration.ms, []⟩ := by
  have hpos := pieceDuration.pos
  unfold planOf numbered
  rw [List.length_nil, Int.natCast_zero, Int.zero_add, Int.one_mul,
    int32_of_range (by omega) pieceDuration.int]
  rfl

theorem numbered_snoc (pieceDuration : PieceDuration) (pieces : List Int) (i : Int) :
    numbered pieceDuration (pieces ++ [i]) =
      numbered pieceDuration pieces ++ [(i, int32 ((pieces.length + 1) * pieceDuration.ms))] := by
  unfold numbered
  rw [List.zipIdx_append, List.map_append]
  simp

/-- One turn gives the next multiple. -/
theorem deadlineTurn_planOf (i : Int) (pieces : List Int) :
    deadlineTurn inst pieceDuration i (planOf pieceDuration pieces) =
      (priorityTurn inst i pieces).map (planOf pieceDuration) := by
  unfold deadlineTurn priorityTurn
  cases havePiece inst i with
  | error e => rfl
  | ok ready =>
    cases ready with
    | true => rfl
    | false =>
      have hnext : int32 (int32 ((pieces.length + 1) * pieceDuration.ms) + pieceDuration.ms) =
          int32 (((pieces ++ [i]).length + 1) * pieceDuration.ms) := by
        unfold int32
        rw [Int.bmod_add_bmod, List.length_append, List.length_singleton]
        congr 1
        push_cast
        ring
      refine congrArg Except.ok ?_
      unfold planOf
      rw [numbered_snoc, ← hnext]

/-- The deadlines are the multiples of the duration, in the order in which the pieces are found. -/
theorem adjustPriorities_eq (inst : Torrent) (pieceDuration : PieceDuration) :
    adjustPriorities inst pieceDuration =
      (TorrentWarmup.adjustPriorities inst).map (numbered pieceDuration) := by
  have hloop : ∀ first last pieces,
      forUp (deadlineTurn inst pieceDuration) first last (planOf pieceDuration pieces) =
        (forUp (priorityTurn inst) first last pieces).map (planOf pieceDuration) :=
    forUp_map deadlineTurn_planOf
  unfold adjustPriorities TorrentWarmup.adjustPriorities
  split
  · rfl
  rw [← planOf_nil]
  dsimp only
  rw [hloop]
  cases forUp (priorityTurn inst) (firstPiece inst) (streamNPieces inst) [] with
  | error e => rfl
  | ok pieces =>
    by_cases hpos : inst.pos < inst.g.filesize
    · simp only [hpos, if_true, Except.map, bind, Except.bind, pure, Except.pure]
      rw [hloop]
      cases forUp (priorityTurn inst) (offsetToPieceIndex inst inst.pos) (firstPiece inst)
        pieces with
      | error e => rfl
      | ok pieces =>
        simp only [Except.map]
        rw [hloop]
        cases forUp (priorityTurn inst) 0 (offsetToPieceIndex inst inst.pos) pieces <;> rfl
    · simp only [hpos, if_false, Except.map, bind, Except.bind, pure, Except.pure]
      rw [hloop]
      cases forUp (priorityTurn inst) 0 (firstPiece inst) pieces <;> rfl

end Numbered

/-! ## The pieces that are set -/

section Order

variable {inst : Torrent} {first middle last i : Int}

theorem missing_nodup (inst : Torrent) (first last : Int) : (missing inst first last).Nodup := by
  refine (List.Nodup.map (fun a b hab => ?_) List.nodup_range).filter _
  omega

theorem missing_append (hle : first ≤ middle) (h : middle ≤ last) :
    missing inst first last = missing inst first middle ++ missing inst middle last := by
  induction last, h using Int.leInduction with
  | base => rw [missing_empty (Int.le_refl middle), List.append_nil]
  | succ last h ih =>
    rw [missing_succ (by omega), missing_succ h, ih, List.append_assoc]

/-- The first piece that is wanted after those of the tail: that of the position, up to the tail. At
    the end of the file there is none. -/
def start (inst : Torrent) : Int :=
  if inst.pos < inst.g.filesize then min (position inst) (firstPiece inst) else firstPiece inst

/-- **The order of the deadlines**: the tail, then from the position up to the tail, then the
    rest. -/
def order (inst : Torrent) : List Int :=
  missing inst (firstPiece inst) (streamNPieces inst) ++
    missing inst (start inst) (firstPiece inst) ++ missing inst 0 (start inst)

/-- The pieces in the order in which the code sets them. -/
def given (inst : Torrent) : List Int :=
  if inst.pos < inst.g.filesize then
    missing inst (firstPiece inst) (streamNPieces inst) ++
      missing inst (position inst) (firstPiece inst) ++ missing inst 0 (position inst)
  else missing inst (firstPiece inst) (streamNPieces inst) ++ missing inst 0 (firstPiece inst)

theorem start_range (inst : Torrent) : 0 ≤ start inst ∧ start inst ≤ firstPiece inst := by
  have hfirst := (firstPiece_range inst).1
  have hpos := (position_range inst).1
  unfold start
  split <;> omega

theorem mem_order :
    i ∈ order inst ↔ 0 ≤ i ∧ i < streamNPieces inst ∧ inst.ready i = false := by
  obtain ⟨hstart, hfirst⟩ := start_range inst
  obtain ⟨-, hle, -⟩ := firstPiece_range inst
  unfold order
  rw [List.mem_append, List.mem_append, mem_missing, mem_missing, mem_missing]
  constructor
  · rintro ((⟨hge, hlt, hready⟩ | ⟨hge, hlt, hready⟩) | ⟨hge, hlt, hready⟩) <;>
      exact ⟨by omega, by omega, hready⟩
  · rintro ⟨hge, hlt, hready⟩
    rcases Int.lt_or_le i (start inst) with h | h
    · exact .inr ⟨hge, h, hready⟩
    · rcases Int.lt_or_le i (firstPiece inst) with h' | h'
      · exact .inl (.inr ⟨h, h', hready⟩)
      · exact .inl (.inl ⟨h', hlt, hready⟩)

theorem order_nodup (inst : Torrent) : (order inst).Nodup := by
  obtain ⟨hstart, hfirst⟩ := start_range inst
  unfold order
  refine (List.Nodup.append (.append (missing_nodup ..) (missing_nodup ..) ?_)
    (missing_nodup ..) ?_)
  · intro i htail hmiddle
    have h1 := mem_missing.mp htail
    have h2 := mem_missing.mp hmiddle
    omega
  · intro i hi hrest
    have h2 := mem_missing.mp hrest
    rcases List.mem_append.mp hi with h | h
    · have h1 := mem_missing.mp h
      omega
    · have h1 := mem_missing.mp h
      omega

/-- The order lists the missing pieces of the file. -/
theorem length_order (inst : Torrent) :
    (order inst).length = (missing inst 0 (streamNPieces inst)).length := by
  have hperm := List.perm_ext_iff_of_nodup (order_nodup inst)
    (missing_nodup inst 0 (streamNPieces inst))
  refine (hperm.mpr fun i => ?_).length_eq
  rw [mem_order, mem_missing]

theorem adjustPriorities_given (hmeta : inst.haveMetadata = true) :
    TorrentWarmup.adjustPriorities inst = .ok (given inst) := by
  obtain ⟨hfirst, hle, hn⟩ := firstPiece_range inst
  obtain ⟨hpos, hposn⟩ := position_range inst
  unfold TorrentWarmup.adjustPriorities given
  rw [if_neg (by rw [hmeta]; decide), priority_loop_eq hfirst hn, offsetToPieceIndex_pos,
    List.nil_append]
  show (if inst.pos < inst.g.filesize then _ else _) = _
  split
  · rw [priority_loop_eq hpos (by omega)]
    exact priority_loop_eq (Int.le_refl 0) hposn _
  · exact priority_loop_eq (Int.le_refl 0) (by omega) _

/-- No piece is missing between the start of the tail and the position. -/
def ReadyBehind (inst : Torrent) : Prop :=
  inst.pos < inst.g.filesize → ReadyTo inst (position inst)

/-- The pieces are set in the order that is wanted if none before the position is in the tail. -/
theorem given_eq_order (h : ReadyBehind inst) : given inst = order inst := by
  have hfirst := (firstPiece_range inst).1
  unfold given order start
  split
  · rename_i hpos
    rcases Int.le_total (position inst) (firstPiece inst) with hle | hge
    · rw [min_eq_left hle]
    · have hready : missing inst (firstPiece inst) (position inst) = [] := by
        rw [List.eq_nil_iff_forall_not_mem]
        intro i hi
        obtain ⟨hfirst, hlt, hnot⟩ := mem_missing.mp hi
        exact absurd (h hpos i hfirst hlt) (by rw [hnot]; decide)
      rw [min_eq_right hge, missing_empty hge, missing_empty (Int.le_refl (firstPiece inst)),
        missing_append hfirst hge, hready, List.append_nil, List.append_nil]
  · rw [missing_empty (Int.le_refl (firstPiece inst)), List.append_nil]

/-- **No piece is set twice** if and only if none is missing between the start of the tail and the
    position. -/
theorem nodup_given_iff (inst : Torrent) : (given inst).Nodup ↔ ReadyBehind inst := by
  constructor
  · intro hnodup hpos i hfirst hlt
    have hlast := inst.g.index_le_lastIndex inst.pos_nonneg hpos
    have hstream := streamNPieces_eq inst
    have hrange := (firstPiece_range inst).1
    unfold position at hlt
    by_contra hready
    have hnot := Bool.eq_false_iff.mpr hready
    unfold given at hnodup
    rw [if_pos hpos] at hnodup
    have htail : i ∈ missing inst (firstPiece inst) (streamNPieces inst) :=
      mem_missing.mpr ⟨hfirst, by omega, hnot⟩
    have hrest : i ∈ missing inst 0 (position inst) := mem_missing.mpr ⟨by omega, hlt, hnot⟩
    exact List.disjoint_of_nodup_append hnodup (List.mem_append_left _ htail) hrest
  · intro h
    rw [given_eq_order h]
    exact order_nodup inst

end Order

/-! ## The deadlines -/

section Deadlines

variable {pieceDuration : PieceDuration} {pieces : List Int} {i d : Int}

theorem mem_numbered :
    (i, d) ∈ numbered pieceDuration pieces ↔
      ∃ k : Nat, pieces[k]? = some i ∧ d = int32 ((k + 1) * pieceDuration.ms) := by
  unfold numbered
  rw [List.mem_map]
  constructor
  · rintro ⟨⟨j, k⟩, hmem, heq⟩
    rw [List.mk_mem_zipIdx_iff_getElem?] at hmem
    obtain ⟨rfl, rfl⟩ := Prod.mk.inj heq
    exact ⟨k, hmem, rfl⟩
  · rintro ⟨k, hget, rfl⟩
    exact ⟨(i, k), List.mk_mem_zipIdx_iff_getElem?.mpr hget, rfl⟩

theorem map_fst_numbered (pieceDuration : PieceDuration) (pieces : List Int) :
    (numbered pieceDuration pieces).map Prod.fst = pieces := by
  unfold numbered
  rw [List.map_map]
  exact List.zipIdx_map_fst 0 pieces

/-- Every pair of deadlines given to a piece and to a later one is increasing. -/
def Increasing (given : List (Int × Int)) (pieces : List Int) : Prop :=
  pieces.Pairwise fun i j => ∀ d e, (i, d) ∈ given → (j, e) ∈ given → d < e

/-- A multiple of the duration that is an `int`. -/
theorem int32_multiple {k : Int} (h0 : 0 ≤ k) (hk : k * pieceDuration.ms < 2 ^ 31) :
    int32 (k * pieceDuration.ms) = k * pieceDuration.ms := by
  have hnn := Int.mul_nonneg h0 (Int.le_of_lt pieceDuration.pos)
  exact int32_of_range (by omega) hk

theorem int32_wrapped {x : Int} (hge : 2 ^ 31 ≤ x) (hlt : x < 2 ^ 32) : int32 x < 0 := by
  unfold int32
  rw [Int.bmod_def]
  split
  · omega
  · omega

/-- The multiples increase as long as they fit. -/
theorem numbered_increasing (hnodup : pieces.Nodup)
    (hfits : pieces.length * pieceDuration.ms < 2 ^ 31) :
    Increasing (numbered pieceDuration pieces) pieces := by
  have hpos := pieceDuration.pos
  have hdeadline : ∀ k (hk : k < pieces.length) d, (pieces[k], d) ∈ numbered pieceDuration pieces →
      d = (k + 1) * pieceDuration.ms := by
    intro k hk d hmem
    obtain ⟨k', hget, rfl⟩ := mem_numbered.mp hmem
    obtain ⟨hk', heq⟩ := List.getElem?_eq_some_iff.mp hget
    obtain rfl := (hnodup.getElem_inj_iff).mp heq
    have hle := Int.mul_le_mul_of_nonneg_right
      (show ((k' : Int) + 1) ≤ pieces.length by omega) (Int.le_of_lt hpos)
    exact int32_multiple (by omega) (by omega)
  refine List.pairwise_iff_getElem.mpr fun a b ha hb hab d e hd he => ?_
  rw [hdeadline a ha d hd, hdeadline b hb e he]
  exact Int.mul_lt_mul_of_pos_right (by omega) hpos

/-- The first multiple that is no `int` wraps to a negative one. -/
theorem numbered_wraps (hwide : 2 ^ 31 ≤ pieces.length * pieceDuration.ms) :
    ¬Increasing (numbered pieceDuration pieces) pieces := by
  intro h
  have hpos := pieceDuration.pos
  have hint := pieceDuration.int
  obtain ⟨m, hm⟩ := Int.eq_ofNat_of_zero_le
    (Int.ediv_nonneg (show (0 : Int) ≤ 2 ^ 31 - 1 by decide) (Int.le_of_lt hpos))
  have hfits : m * pieceDuration.ms ≤ 2 ^ 31 - 1 := hm ▸ Int.ediv_mul_le _ (by omega)
  have hnext : 2 ^ 31 - 1 < (m + 1) * pieceDuration.ms := hm ▸ Int.lt_ediv_add_one_mul_self _ hpos
  have hsucc : ((m : Int) + 1) * pieceDuration.ms = m * pieceDuration.ms + pieceDuration.ms := by
    rw [Int.add_mul, Int.one_mul]
  have hnn := Int.mul_nonneg (Int.natCast_nonneg m) (Int.le_of_lt hpos)
  have hlen : m < pieces.length := by
    by_contra hle
    have hmul := Int.mul_le_mul_of_nonneg_right
      (show (pieces.length : Int) ≤ m by omega) (Int.le_of_lt hpos)
    omega
  have hone : m ≠ 0 := by
    rintro rfl
    rw [Int.natCast_zero, Int.zero_mul] at hsucc
    omega
  have hlt := List.pairwise_iff_getElem.mp h (m - 1) m (by omega) hlen (by omega) _ _
    (mem_numbered.mpr ⟨m - 1, List.getElem?_eq_getElem (by omega), rfl⟩)
    (mem_numbered.mpr ⟨m, List.getElem?_eq_getElem hlen, rfl⟩)
  have hwrap := int32_wrapped (x := (m + 1) * pieceDuration.ms) (by omega) (by omega)
  rw [show ((m - 1 : Nat) : Int) + 1 = m by omega,
    int32_multiple (Int.natCast_nonneg m) (by omega)] at hlt
  omega

theorem increasing_iff (hnodup : pieces.Nodup) :
    Increasing (numbered pieceDuration pieces) pieces ↔
      pieces.length * pieceDuration.ms < 2 ^ 31 := by
  refine ⟨fun h => ?_, numbered_increasing hnodup⟩
  by_contra hwide
  exact numbered_wraps (Int.not_lt.mp hwide) h

/-- What the deadlines promise: one for each missing piece of the file and for no other, increasing
    in the order in which the pieces are wanted. -/
structure Scheduled (inst : Torrent) (given : List (Int × Int)) : Prop where
  once : (given.map Prod.fst).Nodup
  pieces : ∀ i, i ∈ given.map Prod.fst ↔
    0 ≤ i ∧ i < streamNPieces inst ∧ inst.ready i = false
  increasing : Increasing given (order inst)

/-- **The deadlines** are as they should be if and only if the metadata are there, no piece is
    missing between the start of the tail and the position, and the last deadline is an `int`. -/
theorem deadlines_iff (inst : Torrent) (pieceDuration : PieceDuration) :
    (∃ given, adjustPriorities inst pieceDuration = .ok given ∧ Scheduled inst given) ↔
      inst.haveMetadata = true ∧ ReadyBehind inst ∧
        (missing inst 0 (streamNPieces inst)).length * pieceDuration.ms < 2 ^ 31 := by
  rw [adjustPriorities_eq, ← length_order, ← increasing_iff (order_nodup inst)]
  constructor
  · rintro ⟨pieces, hrun, h⟩
    have hmeta : inst.haveMetadata = true := by
      by_contra hnot
      rw [TorrentWarmup.adjustPriorities, if_pos (Bool.eq_false_iff.mpr hnot)] at hrun
      cases hrun
    rw [adjustPriorities_given hmeta] at hrun
    obtain rfl := Except.ok.inj hrun
    have hready : ReadyBehind inst := by
      have honce := h.once
      rw [map_fst_numbered] at honce
      exact (nodup_given_iff inst).mp honce
    have hincreasing := h.increasing
    rw [given_eq_order hready] at hincreasing
    exact ⟨hmeta, hready, hincreasing⟩
  · rintro ⟨hmeta, hready, hincreasing⟩
    refine ⟨_, by rw [adjustPriorities_given hmeta, given_eq_order hready]; rfl, ?_, ?_,
      hincreasing⟩
    · rw [map_fst_numbered]
      exact order_nodup inst
    · intro i
      rw [map_fst_numbered]
      exact mem_order

/-- Two pieces that are missing, with the position in the second one. -/
def secondPiece : Torrent :=
  streamAt 2 (by decide) (by decide) 4194304 (by decide) (by decide) fun _ => false

example : adjustPriorities secondPiece ⟨1000, by decide, by decide⟩ =
    .ok [(0, 1000), (1, 2000), (0, 3000)] := by decide +kernel

/-- **A piece of the tail is set twice.** -/
theorem tail_piece_set_twice :
    ¬∀ (inst : Torrent) (pieceDuration : PieceDuration), inst.haveMetadata = true →
      ∃ given, adjustPriorities inst pieceDuration = .ok given ∧ Scheduled inst given := by
  intro hclaim
  obtain ⟨given, hrun, h⟩ := hclaim secondPiece ⟨1000, by decide, by decide⟩ rfl
  have hgiven : adjustPriorities secondPiece ⟨1000, by decide, by decide⟩ =
      .ok [(0, 1000), (1, 2000), (0, 3000)] := by decide +kernel
  obtain rfl := Except.ok.inj (hrun.symm.trans hgiven)
  exact absurd h.once (by decide)

end Deadlines

end Mediabox.TorrentDeadlines
