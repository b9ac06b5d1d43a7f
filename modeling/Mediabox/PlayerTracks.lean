import Mathlib.Data.List.Rotate
import Mathlib.Data.List.TakeWhile
import Mathlib.Data.Option.Basic
import Mediabox.PlayerLife

/-!
# The audio tracks (`AVBOX_PLAYERCTL_CHANGE_AUDIO_TRACK` in `src/lib/ui/player.c`)

The message without argument selects the audio stream after the active one, and the first one if
there is none.

* `tracks` — the indices of the audio streams; the loop of `avbox_player_control` looks for the
  active one among them (`change_next`).
* `nextTrack_getElem` — so that the successor of a track is the cyclic one.
* `visits_rotate`, `visits_self` — as many messages as there are tracks go once around.

Main result: `audio_tracks_cycle`.
-/

set_option autoImplicit false

namespace Mediabox.Player

/-! ## What it is for -/

/-- The audio streams of a file by their indices, in the streams from index `i` on. -/
def tracks : List AVStream → Nat → List Int
  | [], _ => []
  | stream :: streams, i =>
    if stream.audio then (i : Int) :: tracks streams (i + 1) else tracks streams (i + 1)

/-- The index of an audio stream of the file. -/
def IsTrack (streams : List AVStream) (index : Int) : Prop :=
  ∃ i stream, streams[i]? = some stream ∧ stream.audio = true ∧ index = (i : Nat)

/-- The player after each of so many messages. -/
def changes (s : State) : List Env → Except Fault (List State)
  | [] => .ok []
  | env :: envs => do
    let s ← control s (.changeAudioTrack none) env
    let rest ← changes s envs
    .ok (s :: rest)

/-- The tracks that are selected one after another: each of the audio streams once, in the cyclic
    order of the file, nothing else, and an active one last. -/
structure Cycles (streams : List AVStream) (active : Int) (selected : List Int) : Prop where
  once : selected.Nodup
  audio : ∀ index, index ∈ selected ↔ IsTrack streams index
  order : ∃ n, selected = (tracks streams 0).rotate n
  back : IsTrack streams active → selected.getLast? = some active

/-! ## The tracks of a file -/

section Tracks

variable {streams : List AVStream} {active : Int} {i : Nat}

theorem mem_tracks {index : Int} : index ∈ tracks streams i ↔
    ∃ k stream, streams[k]? = some stream ∧ stream.audio = true ∧ index = (i + k : Nat) := by
  induction streams generalizing i with
  | nil => simp [tracks]
  | cons stream streams ih =>
    have hrest : (∃ k st, (stream :: streams)[k]? = some st ∧ st.audio = true ∧
        index = (i + k : Nat)) ↔ (stream.audio = true ∧ index = i) ∨
          ∃ k st, streams[k]? = some st ∧ st.audio = true ∧ index = (i + 1 + k : Nat) := by
      constructor
      · rintro ⟨k, st, hk, haudio, hindex⟩
        cases k with
        | zero =>
          cases hk
          exact .inl ⟨haudio, hindex⟩
        | succ k => exact .inr ⟨k, st, hk, haudio, by omega⟩
      · rintro (⟨haudio, hindex⟩ | ⟨k, st, hk, haudio, hindex⟩)
        · exact ⟨0, stream, rfl, haudio, hindex⟩
        · exact ⟨k + 1, st, hk, haudio, by omega⟩
    rw [hrest, tracks]
    split
    · rename_i haudio
      rw [List.mem_cons, ih]
      simp [haudio]
    · rename_i haudio
      rw [ih]
      simp [haudio]

theorem isTrack_iff {index : Int} : IsTrack streams index ↔ index ∈ tracks streams 0 := by
  simp only [IsTrack, mem_tracks, Nat.zero_add]

theorem le_of_mem_tracks {index : Int} (h : index ∈ tracks streams i) : (i : Int) ≤ index := by
  obtain ⟨k, -, -, -, rfl⟩ := mem_tracks.mp h
  omega

theorem tracks_nodup (streams : List AVStream) (i : Nat) : (tracks streams i).Nodup := by
  induction streams generalizing i with
  | nil => exact List.nodup_nil
  | cons stream streams ih =>
    rw [tracks]
    split
    · refine List.nodup_cons.mpr ⟨fun hmem => ?_, ih (i + 1)⟩
      have hle := le_of_mem_tracks hmem
      omega
    · exact ih (i + 1)

/-- The tracks after one of them, and the first one. -/
def nextTrack (l : List Int) (active : Int) : Option Int :=
  (l.dropWhile (· ≠ active)).tail.head?.or l.head?

theorem firstTrack_eq : firstTrack streams i = (tracks streams i).head? := by
  induction streams generalizing i with
  | nil => rfl
  | cons stream streams ih =>
    rw [firstTrack, tracks]
    split
    · rfl
    · have h := @ih (i + 1)
      push_cast at h
      exact h

/-- Behind the active stream the loop stops at the next track. -/
theorem trackAfter_found (h : active < i) :
    trackAfter active streams i true = (tracks streams i).head? := by
  induction streams generalizing i with
  | nil => rfl
  | cons stream streams ih =>
    rw [trackAfter, tracks]
    have hrest := @ih (i + 1) (by omega)
    push_cast at hrest
    cases haudio : stream.audio with
    | false => simpa using hrest
    | true =>
      have hne : (i : Int) ≠ active := by omega
      simp [hne]

theorem trackAfter_eq : trackAfter active streams i false =
    ((tracks streams i).dropWhile (· ≠ active)).tail.head? := by
  induction streams generalizing i with
  | nil => rfl
  | cons stream streams ih =>
    rw [trackAfter, tracks]
    have hrest := @ih (i + 1)
    push_cast at hrest
    cases haudio : stream.audio with
    | false => simpa using hrest
    | true =>
      by_cases hactive : (i : Int) = active
      · have hfound : trackAfter active streams ((i + 1 : Nat) : Int) true = _ :=
          trackAfter_found (by omega)
        push_cast at hfound
        simpa [hactive] using hfound
      · simpa [hactive] using hrest

/-- The track that a message selects. -/
def selects (streams : List AVStream) (active : Int) : Int :=
  (nextTrack (tracks streams 0) active).getD active

def State.select (s : State) (track : Int) : State := { s with audioStreamIndex := track }

/-- **One message** selects the next of the tracks. -/
theorem change_next {s : State} (hctx : s.fmtCtx = some streams) (env : Env) :
    control s (.changeAudioTrack none) env =
      .ok (s.select (selects streams s.audioStreamIndex)) := by
  have hnext : (trackAfter s.audioStreamIndex streams 0 false).or (firstTrack streams 0) =
      nextTrack (tracks streams 0) s.audioStreamIndex := by
    have hafter : trackAfter s.audioStreamIndex streams (0 : Nat) false = _ := trackAfter_eq
    have hfirst : firstTrack streams (0 : Nat) = _ := firstTrack_eq
    rw [nextTrack, ← hafter, ← hfirst]
    rfl
  change changeAudioTrack s none = _
  rw [changeAudioTrack, hctx]
  dsimp only
  rw [hnext, selects]
  cases nextTrack (tracks streams 0) s.audioStreamIndex with
  | none => rfl
  | some next =>
    rw [State.select, hctx]
    rfl

end Tracks

/-! ## Once around -/

section Around

variable {l : List Int} {active : Int} {k : Nat}

/-- The track after the active one, and behind the last one the first. -/
theorem nextTrack_split {front rest : List Int} (h : active ∉ front) :
    nextTrack (front ++ active :: rest) active = rest.head?.or (front ++ active :: rest).head? := by
  have hfront : ∀ x ∈ front, decide (x ≠ active) = true :=
    fun x hx => decide_eq_true fun heq => h (heq ▸ hx)
  have hdrop : (front ++ active :: rest).dropWhile (· ≠ active) = active :: rest := by
    rw [List.dropWhile_append_of_pos hfront]
    exact List.dropWhile_cons_of_neg (by simp)
  rw [nextTrack, hdrop, List.tail_cons]

theorem nextTrack_getElem (hl : l.Nodup) (hk : k < l.length) :
    nextTrack l l[k] = l[(k + 1) % l.length]? := by
  have hsplit : l.take k ++ l[k] :: l.drop (k + 1) = l := by
    rw [← List.drop_eq_getElem_cons hk, List.take_append_drop]
  have hnot : l[k] ∉ l.take k := by
    intro hmem
    obtain ⟨j, hj, hget⟩ := List.mem_take_iff_getElem.mp hmem
    have hsame := hl.getElem_inj_iff.mp hget
    omega
  have hnext : nextTrack (l.take k ++ l[k] :: l.drop (k + 1)) l[k] = _ := nextTrack_split hnot
  rw [hsplit, List.head?_drop] at hnext
  rw [hnext, List.head?_eq_getElem?]
  by_cases hlast : k + 1 < l.length
  · rw [Nat.mod_eq_of_lt hlast, List.getElem?_eq_getElem hlast]
    rfl
  · have hwrap : k + 1 = l.length := by omega
    rw [hwrap, Nat.mod_self, List.getElem?_eq_none (Nat.le_refl _)]
    rfl

/-- Without an active track the first one is next. -/
theorem nextTrack_notMem (h : active ∉ l) : nextTrack l active = l.head? := by
  have hdrop : l.dropWhile (· ≠ active) = [] :=
    List.dropWhile_eq_nil_iff.mpr fun x hx => decide_eq_true fun heq => h (heq ▸ hx)
  rw [nextTrack, hdrop]
  rfl

/-- What so many steps visit. -/
def visits (next : Int → Int) : Nat → Int → List Int
  | 0, _ => []
  | n + 1, x => next x :: visits next n (next x)

/-- From a place in the list, the places behind it. -/
theorem visits_eq {next : Int → Int} (hne : 0 < l.length)
    (hnext : ∀ k (hk : k < l.length), some (next l[k]) = l[(k + 1) % l.length]?) (n : Nat)
    (hk : k < l.length) :
    (visits next n l[k]).map some = (List.range n).map fun j => l[(k + 1 + j) % l.length]? := by
  induction n generalizing k with
  | zero => rfl
  | succ n ih =>
    have hlt : (k + 1) % l.length < l.length := Nat.mod_lt _ hne
    have hhead : next l[k] = l[(k + 1) % l.length] := by
      have h := hnext k hk
      rw [List.getElem?_eq_getElem hlt] at h
      exact Option.some.inj h
    rw [visits, List.range_succ_eq_map, List.map_cons, List.map_cons, List.map_map, hhead, ih hlt,
      List.getElem?_eq_getElem hlt]
    refine congrArg₂ List.cons rfl (List.map_congr_left fun j _ => ?_)
    have hplace : ((k + 1) % l.length + 1 + j) % l.length = (k + 1 + (j + 1)) % l.length := by
      rw [Nat.add_assoc, Nat.mod_add_mod, Nat.add_comm 1 j]
    simp only [Function.comp_apply, hplace]

/-- **Once around**: as many steps as there are places give the rotated list. -/
theorem visits_rotate {next : Int → Int}
    (hnext : ∀ k (hk : k < l.length), some (next l[k]) = l[(k + 1) % l.length]?)
    (hk : k < l.length) : visits next l.length l[k] = l.rotate (k + 1) := by
  refine List.map_injective_iff.mpr (Option.some_injective Int) ?_
  rw [visits_eq (by omega) hnext l.length hk]
  refine List.ext_getElem (by simp) fun j hj hj' => ?_
  have hplace : (k + 1 + j) % l.length < l.length := Nat.mod_lt _ (by omega)
  simp only [List.getElem_map, List.getElem_range, List.getElem_rotate,
    List.getElem?_eq_getElem hplace, Nat.add_comm j (k + 1)]

/-- The last of the places is the one that the steps started from. -/
theorem getLast?_rotate (hk : k < l.length) : (l.rotate (k + 1)).getLast? = some l[k] := by
  have hback : (l.length - 1 + (k + 1)) % l.length = k := by
    have hsum : l.length - 1 + (k + 1) = k + l.length := by omega
    rw [hsum, Nat.add_mod_right, Nat.mod_eq_of_lt hk]
  rw [List.getLast?_eq_getElem?, List.length_rotate, List.getElem?_rotate (by omega), hback,
    List.getElem?_eq_getElem hk]

theorem visits_congr {next : Int → Int} {a b : Int} (h : next a = next b) (n : Nat) :
    visits next n a = visits next n b := by
  cases n with
  | zero => rfl
  | succ n => rw [visits, visits, h]

/-- From outside of the list, the list itself: the first step is that from its last place. -/
theorem visits_self {next : Int → Int} (hne : 0 < l.length)
    (hnext : ∀ k (hk : k < l.length), some (next l[k]) = l[(k + 1) % l.length]?)
    (hfirst : some (next active) = l.head?) : visits next l.length active = l := by
  have hlast : l.length - 1 < l.length := by omega
  have hsucc : l.length - 1 + 1 = l.length := by omega
  have hsame : next active = next l[l.length - 1] := by
    have h := hnext (l.length - 1) hlast
    rw [hsucc, Nat.mod_self, ← List.head?_eq_getElem?, ← hfirst] at h
    exact (Option.some.inj h).symm
  rw [visits_congr hsame, visits_rotate hnext hlast, hsucc, List.rotate_length]

end Around

/-! ## The messages -/

variable {s : State} {streams : List AVStream}

theorem selects_getElem (k : Nat) (hk : k < (tracks streams 0).length) :
    some (selects streams (tracks streams 0)[k]) =
      (tracks streams 0)[(k + 1) % (tracks streams 0).length]? := by
  have hlt : (k + 1) % (tracks streams 0).length < (tracks streams 0).length :=
    Nat.mod_lt _ (by omega)
  rw [selects, nextTrack_getElem (tracks_nodup streams 0) hk, List.getElem?_eq_getElem hlt]
  rfl

/-- **A run of messages** visits the tracks; nothing else changes. -/
theorem changes_eq (hctx : s.fmtCtx = some streams) (envs : List Env) :
    ∃ states, changes s envs = .ok states ∧
      states.map State.audioStreamIndex =
        visits (selects streams) envs.length s.audioStreamIndex := by
  induction envs generalizing s with
  | nil => exact ⟨[], rfl, rfl⟩
  | cons env envs ih =>
    obtain ⟨states, hstates, hmap⟩ :=
      @ih (s.select (selects streams s.audioStreamIndex)) hctx
    refine ⟨s.select (selects streams s.audioStreamIndex) :: states, ?_, ?_⟩
    · simp only [changes, change_next hctx, hstates, bind, Except.bind]
    · rw [List.map_cons, hmap]
      rfl

/-- **Audio track cycling**: in a file with audio streams, as many messages without argument as
    there are audio streams select each of them exactly once, in cyclic file order, and nothing
    else; the last one selects the stream that was active. -/
theorem audio_tracks_cycle (s : State) (streams : List AVStream) (envs : List Env)
    (hctx : s.fmtCtx = some streams) (hsome : ∃ index, IsTrack streams index)
    (hlen : envs.length = (tracks streams 0).length) :
    ∃ states, changes s envs = .ok states ∧
      Cycles streams s.audioStreamIndex (states.map State.audioStreamIndex) := by
  obtain ⟨states, hstates, hmap⟩ := changes_eq hctx envs
  obtain ⟨index, hindex⟩ := hsome
  have hne : 0 < (tracks streams 0).length := List.length_pos_of_mem (isTrack_iff.mp hindex)
  have hnodup := tracks_nodup streams 0
  refine ⟨states, hstates, ?_⟩
  rw [hmap, hlen]
  by_cases hactive : s.audioStreamIndex ∈ tracks streams 0
  · obtain ⟨k, hk, hget⟩ := List.getElem_of_mem hactive
    rw [← hget, visits_rotate selects_getElem hk]
    exact ⟨List.nodup_rotate.mpr hnodup, fun index => List.mem_rotate.trans isTrack_iff.symm,
      ⟨k + 1, rfl⟩, fun _ => getLast?_rotate hk⟩
  · have hfirst : some (selects streams s.audioStreamIndex) = (tracks streams 0).head? := by
      rw [selects, nextTrack_notMem hactive, List.head?_eq_getElem?, List.getElem?_eq_getElem hne]
      rfl
    rw [visits_self hne selects_getElem hfirst]
    exact ⟨hnodup, fun index => isTrack_iff.symm, ⟨0, (List.rotate_zero _).symm⟩,
      fun htrack => absurd (isTrack_iff.mp htrack) hactive⟩

/-- A picture, two sound tracks, and subtitles between them. -/
def twoTracks : List AVStream := [⟨false, 0⟩, ⟨true, 1⟩, ⟨false, 2⟩, ⟨true, 3⟩]

/-- From the last track over the first one and back. -/
theorem audio_tracks_cycle_two :
    ∃ states, changes { new with fmtCtx := some twoTracks, audioStreamIndex := 3 }
        [fullEnv 0, fullEnv 0] = .ok states ∧
      Cycles twoTracks 3 (states.map State.audioStreamIndex) :=
  audio_tracks_cycle { new with fmtCtx := some twoTracks, audioStreamIndex := 3 } twoTracks
    [fullEnv 0, fullEnv 0] rfl ⟨1, 1, ⟨true, 1⟩, rfl, rfl, rfl⟩ rfl

end Mediabox.Player
