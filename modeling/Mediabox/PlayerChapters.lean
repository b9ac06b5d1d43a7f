import Mediabox.Lib.MachineInt
import Mediabox.PlayerHalt

/-!
# Seeking by chapters (`avbox_player_doseek` in `src/lib/ui/player.c`)

Where a seek by one chapter forwards or back leads, from the chapters and the duration that FFmpeg
found in the file.  A file without chapters is divided into virtual ones of five minutes.

* A chapter is what FFmpeg's functions say of it: `start` is its start in microseconds
  (`av_rescale_q`), and `later pos` that it starts after `pos` (`av_compare_ts`).
* The chapter of `pos` is the one before the first that starts after `pos`: there is none before
  the first chapter, and in the last one the loop ends behind the array, with `chapter_pos` 0.
* `chapter_pos` is an `int`, so that the five seconds are counted from a wrong start where that is
  past 2147 seconds.

Main result: `chapterTarget_real_iff` — with chapters in the file, the seek leads where a listener
expects if and only if `pos` is not before the first chapter and, going back, not in the last one
nor at the start of a late one.
-/

set_option autoImplicit false

namespace Mediabox.Player

open MachineInt

/-! ## The code -/

/-- An `AVChapter`. -/
structure Chapter where
  start : Int
  later : Int → Bool

/-- What the seek reads in `fmt_ctx`. -/
structure FmtCtx where
  chapters : List Chapter
  duration : Int

/-- What is undefined: a read outside of `chapters`, and the overflow of a signed integer. -/
inductive ChapterFault where
  | outside
  | overflow
  deriving DecidableEq, Repr

/-- `chapter_duration` -/
def chapterDuration : Int := 60 * 5 * 1000 * 1000

/-- `fmt_ctx->chapters[chapter]` -/
def chapterAt (chapters : List Chapter) (chapter : Int) : Except ChapterFault Chapter :=
  if 0 ≤ chapter then
    match chapters[chapter.toNat]? with
    | some ch => .ok ch
    | none => .error .outside
  else .error .outside

/-- The loop over the virtual chapters: `nb_chapters`, `chapter` and `chapter_pos`. -/
def virtualLoop (duration pos p nbChapters chapter chapterPos : Int) :
    Except ChapterFault (Int × Int × Int) :=
  if p < duration then
    if InRange 64 (p + chapterDuration) ∧ InRange 32 (nbChapters + 1) then
      if p ≤ pos then
        virtualLoop duration pos (p + chapterDuration) (nbChapters + 1) nbChapters (wrap 32 p)
      else virtualLoop duration pos (p + chapterDuration) (nbChapters + 1) chapter chapterPos
    else .error .overflow
  else .ok (nbChapters, chapter, chapterPos)
termination_by (duration - p).toNat
decreasing_by all_goals unfold chapterDuration; omega

/-- The loop over the chapters of the file: `chapter` and `chapter_pos`. -/
def chapterLoop (chapters : List Chapter) (pos : Int) :
    List Chapter → Int → Except ChapterFault (Int × Int)
  | [], chapter => .ok (chapter, 0)
  | ch :: rest, chapter =>
    if ch.later pos then do
      let ch ← chapterAt chapters (chapter - 1)
      .ok (chapter - 1, wrap 32 ch.start)
    else chapterLoop chapters pos rest (chapter + 1)

/-- `nb_chapters`, and the current chapter and its start. -/
def findChapter (fmt : FmtCtx) (pos : Int) : Except ChapterFault (Int × Int × Int) :=
  if fmt.chapters.length = 0 then virtualLoop fmt.duration pos 0 0 0 0
  else do
    let found ← chapterLoop fmt.chapters pos fmt.chapters 0
    .ok (fmt.chapters.length, found)

/-- `chapter`, one further where a seek back leads to its own start. -/
def fiveSeconds (pos incr chapter chapterPos : Int) : Except ChapterFault Int :=
  if incr = -1 then do
    let into ← arith 64 .overflow (pos - chapterPos)
    .ok (if into > 5 * 1000 * 1000 then chapter + 1 else chapter)
  else .ok chapter

/-- The start of the chapter that is `incr` chapters away. -/
def chapterStart (fmt : FmtCtx) (nbChapters chapter : Int) : Except ChapterFault SeekTarget :=
  if chapter < 0 ∨ chapter > nbChapters then .ok .refused
  else if nbChapters = fmt.chapters.length then do
    let ch ← chapterAt fmt.chapters chapter
    .ok (.pos ch.start)
  else .ok (.pos (chapter * chapterDuration))

/-- `avbox_player_doseek` from where it knows the current chapter on; `playlist` says that there is
a `playlist_item`. -/
def seekFrom (fmt : FmtCtx) (playlist : Bool) (pos incr nbChapters current chapterPos : Int) :
    Except ChapterFault SeekTarget := do
  let chapter ← fiveSeconds pos incr current chapterPos
  if playlist ∧ incr > 0 ∧ (nbChapters = 0 ∨ chapter = nbChapters - 1) then .ok .nextItem
  else if playlist ∧ incr < 0 ∧ chapter = 0 then .ok .prevItem
  else chapterStart fmt nbChapters (chapter + incr)

/-- `avbox_player_doseek` for a seek by chapters. -/
def chapterTarget (fmt : FmtCtx) (playlist : Bool) (pos incr : Int) :
    Except ChapterFault SeekTarget := do
  let (nbChapters, current, chapterPos) ← findChapter fmt pos
  seekFrom fmt playlist pos incr nbChapters current chapterPos

/-! ## One chapter forwards or back -/

section Steps

variable {fmt : FmtCtx} {playlist : Bool} {pos nbChapters current chapterPos chapter : Int}

theorem chapterStart_refused (h : chapter < 0 ∨ nbChapters < chapter) :
    chapterStart fmt nbChapters chapter = .ok .refused := if_pos h

theorem chapterStart_virtual (hne : nbChapters ≠ fmt.chapters.length) (h0 : 0 ≤ chapter)
    (hle : chapter ≤ nbChapters) :
    chapterStart fmt nbChapters chapter = .ok (.pos (chapter * chapterDuration)) := by
  rw [chapterStart, if_neg (by omega), if_neg hne]

theorem seekFrom_forward :
    seekFrom fmt playlist pos 1 nbChapters current chapterPos =
      if playlist ∧ (nbChapters = 0 ∨ current = nbChapters - 1) then .ok .nextItem
      else chapterStart fmt nbChapters (current + 1) := by
  simp [seekFrom, fiveSeconds, bind, Except.bind]

theorem seekFrom_overflow (h : ¬InRange 64 (pos - chapterPos)) :
    seekFrom fmt playlist pos (-1) nbChapters current chapterPos = .error .overflow := by
  rw [seekFrom, fiveSeconds, if_pos rfl, arith_error h]
  rfl

/-- Back to the start of the current chapter. -/
theorem seekFrom_start (h : InRange 64 (pos - chapterPos)) (hinto : 5000000 < pos - chapterPos)
    (h0 : 0 ≤ current) :
    seekFrom fmt playlist pos (-1) nbChapters current chapterPos =
      chapterStart fmt nbChapters current := by
  have hnext : current + 1 ≠ 0 := by omega
  simp [seekFrom, fiveSeconds, arith_ok h, bind, Except.bind, hinto, hnext]

theorem seekFrom_back (h : InRange 64 (pos - chapterPos)) (hinto : pos - chapterPos ≤ 5000000) :
    seekFrom fmt playlist pos (-1) nbChapters current chapterPos =
      if playlist ∧ current = 0 then .ok .prevItem
      else chapterStart fmt nbChapters (current - 1) := by
  have hnot : ¬5000000 < pos - chapterPos := by omega
  have hminus : current - 1 = current + -1 := rfl
  simp [seekFrom, fiveSeconds, arith_ok h, bind, Except.bind, hnot, hminus]

theorem chapterTarget_of_find {incr : Int}
    (h : findChapter fmt pos = .ok (nbChapters, current, chapterPos)) :
    chapterTarget fmt playlist pos incr =
      seekFrom fmt playlist pos incr nbChapters current chapterPos := by
  rw [chapterTarget, h]
  rfl

/-- In a player that plays, `avbox_player_doseek` goes where the chapters say. -/
theorem doseek_chapterTarget {s : State} {env : Env} {flags : Nat} {incr target : Int}
    (hplays : s.status = .playing ∨ s.status = .paused) (hctx : s.fmtCtx ≠ none)
    (hprovider : ¬s.stream.any (·.hasSeek)) (hflags : flags &&& seekChapter ≠ 0)
    (henv : chapterTarget fmt s.playlistItem.isSome env.masterTime incr = .ok env.chapter)
    (htarget : chapterTarget fmt s.playlistItem.isSome env.masterTime incr = .ok (.pos target)) :
    doseek s flags incr env = seekTo s target env := by
  have hchapter : env.chapter = .pos target := Except.ok.inj (henv.symm.trans htarget)
  have hopen : ¬((s.status ≠ .playing ∧ s.status ≠ .paused) ∨ s.fmtCtx = none ∨
      s.stream.any (·.hasSeek)) := by
    rintro (⟨hplaying, hpaused⟩ | hnone | hseek)
    · exact hplays.elim hplaying hpaused
    · exact hctx hnone
    · exact hprovider hseek
  apply doseek_of_seekPos
  rw [seekPos, if_neg hopen, if_pos hflags, hchapter]

end Steps

/-! ## The chapters of the file -/

section Real

variable {pos incr duration : Int} {playlist : Bool} {cs front rest before after : List Chapter}
  {c d : Chapter}

/-- The chapters that do not start after `pos`. -/
def started (pos : Int) (cs : List Chapter) : List Chapter := cs.filter fun c => !c.later pos

/-- The chapters that start after `pos`. -/
def ahead (pos : Int) (cs : List Chapter) : List Chapter := cs.filter fun c => c.later pos

theorem not_later (h : started pos cs = before) : ∀ c ∈ before, c.later pos = false := by
  intro c hc
  rw [← h] at hc
  simpa using (List.mem_filter.mp hc).2

/-- The chapters are in order, from the start of the file on, and FFmpeg's two functions agree on
the chapters that have started. -/
structure Ordered (cs : List Chapter) : Prop where
  nonneg : ∀ c ∈ cs, 0 ≤ c.start
  starts : ∀ c ∈ cs, ∀ pos, c.later pos = false → c.start ≤ pos
  sorted : cs.Pairwise fun c d => ∀ pos, c.later pos = true → d.later pos = true

theorem Ordered.split (h : Ordered cs) (pos : Int) : started pos cs ++ ahead pos cs = cs := by
  obtain ⟨-, -, hsorted⟩ := h
  unfold started ahead
  induction cs with
  | nil => rfl
  | cons c cs ih =>
    obtain ⟨hhead, htail⟩ := List.pairwise_cons.mp hsorted
    cases hlater : c.later pos with
    | false => simp [hlater, ih htail]
    | true =>
      have hall : ∀ d ∈ cs, d.later pos = true := fun d hd => hhead d hd pos hlater
      have hnone : cs.filter (fun c => !c.later pos) = [] := by simpa using hall
      rw [List.filter_cons_of_neg (by simp [hlater]), hnone, List.nil_append,
        List.filter_eq_self.mpr (by simpa using ⟨hlater, hall⟩)]

theorem chapterAt_eq {i : Int} {n : Nat} (hi : i = n) (h : cs[n]? = some c) :
    chapterAt cs i = .ok c := by
  subst hi
  simp [chapterAt, h]

theorem chapterStart_ok {i : Int} {n : Nat} (hi : i = n) (h : cs[n]? = some c) :
    chapterStart ⟨cs, duration⟩ cs.length i = .ok (.pos c.start) := by
  have hlt : n < cs.length := (List.getElem?_eq_some_iff.mp h).1
  rw [chapterStart, if_neg (by omega), if_pos rfl, chapterAt_eq hi h]
  rfl

/-- Behind the last chapter. -/
theorem chapterStart_outside :
    chapterStart ⟨cs, duration⟩ cs.length cs.length = .error .outside := by
  rw [chapterStart, if_neg (by omega), if_pos rfl]
  simp [chapterAt, bind, Except.bind]

theorem chapterLoop_eq (cs : List Chapter) (hbefore : ∀ c ∈ before, c.later pos = false)
    (hafter : ∀ c ∈ after, c.later pos = true) (chapter : Int) :
    chapterLoop cs pos (before ++ after) chapter =
      if after = [] then .ok (chapter + before.length, 0)
      else (chapterAt cs (chapter + before.length - 1)).bind fun ch =>
        .ok (chapter + before.length - 1, wrap 32 ch.start) := by
  induction before generalizing chapter with
  | nil =>
    cases after with
    | nil => simp [chapterLoop]
    | cons d after =>
      rw [List.nil_append, chapterLoop, if_pos (hafter d List.mem_cons_self)]
      simp
      rfl
  | cons c before ih =>
    have hc := hbefore c List.mem_cons_self
    have hrest := ih (fun d hd => hbefore d (List.mem_cons_of_mem _ hd)) (chapter + 1)
    have hshift : chapter + 1 + (before.length : Int) = chapter + (c :: before).length := by
      rw [List.length_cons]
      omega
    rw [List.cons_append, chapterLoop, hc, if_neg Bool.false_ne_true, hrest, hshift]

theorem findChapter_first (hne : cs ≠ []) (hafter : ∀ c ∈ cs, c.later pos = true) :
    findChapter ⟨cs, duration⟩ pos = .error .outside := by
  have hnone : ∀ c ∈ ([] : List Chapter), c.later pos = false := nofun
  have hloop := chapterLoop_eq cs hnone hafter 0
  rw [List.nil_append, if_neg hne] at hloop
  have hlength : cs.length ≠ 0 := by simpa using hne
  rw [findChapter, if_neg hlength, hloop]
  simp [chapterAt]
  rfl

theorem findChapter_inside (hbefore : ∀ b ∈ front ++ [c], b.later pos = false)
    (hafter : ∀ b ∈ d :: rest, b.later pos = true) :
    findChapter ⟨front ++ c :: d :: rest, duration⟩ pos =
      .ok ((front ++ c :: d :: rest).length, front.length, wrap 32 c.start) := by
  have hloop := chapterLoop_eq (front ++ c :: d :: rest) hbefore hafter 0
  rw [if_neg (by simp), List.append_assoc, List.singleton_append] at hloop
  have hindex : (0 : Int) + ((front ++ [c]).length : Int) - 1 = (front.length : Int) := by
    rw [List.length_append, List.length_singleton]
    omega
  rw [hindex, chapterAt_eq rfl (c := c) (by simp)] at hloop
  rw [findChapter, if_neg (by simp), hloop]
  rfl

theorem findChapter_last (hbefore : ∀ b ∈ front ++ [c], b.later pos = false) :
    findChapter ⟨front ++ [c], duration⟩ pos =
      .ok ((front ++ [c]).length, (front ++ [c]).length, 0) := by
  have hnone : ∀ c ∈ ([] : List Chapter), c.later pos = true := nofun
  have hloop := chapterLoop_eq (front ++ [c]) hbefore hnone 0
  rw [if_pos rfl, List.append_nil, Int.zero_add] at hloop
  rw [findChapter, if_neg (by simp), hloop]
  rfl

/-! ### The targets -/

section Targets

variable (duration : Int) (playlist : Bool)

theorem chapterTarget_first (hne : cs ≠ []) (hafter : ∀ c ∈ cs, c.later pos = true) :
    chapterTarget ⟨cs, duration⟩ playlist pos incr = .error .outside := by
  rw [chapterTarget, findChapter_first hne hafter]
  rfl

theorem chapterTarget_next (hbefore : ∀ b ∈ front ++ [c], b.later pos = false)
    (hafter : ∀ b ∈ d :: rest, b.later pos = true) :
    chapterTarget ⟨front ++ c :: d :: rest, duration⟩ playlist pos 1 = .ok (.pos d.start) := by
  have hlength : (front ++ c :: d :: rest).length = front.length + rest.length + 2 := by
    simp
    omega
  rw [chapterTarget_of_find (findChapter_inside hbefore hafter), seekFrom_forward,
    if_neg (by omega)]
  exact chapterStart_ok (n := front.length + 1) rfl (by simp)

/-- Forwards from the last chapter. -/
theorem chapterTarget_end (hbefore : ∀ b ∈ front ++ [c], b.later pos = false) :
    chapterTarget ⟨front ++ [c], duration⟩ playlist pos 1 = .ok .refused := by
  have hlength : (front ++ [c]).length = front.length + 1 := by simp
  rw [chapterTarget_of_find (findChapter_last hbefore), seekFrom_forward, if_neg (by omega),
    chapterStart_refused (by omega)]

/-- Back inside a chapter, by the five seconds from its start as an `int`. -/
theorem chapterTarget_start (hbefore : ∀ b ∈ front ++ [c], b.later pos = false)
    (hafter : ∀ b ∈ d :: rest, b.later pos = true) (h : InRange 64 (pos - wrap 32 c.start))
    (hinto : 5000000 < pos - wrap 32 c.start) :
    chapterTarget ⟨front ++ c :: d :: rest, duration⟩ playlist pos (-1) = .ok (.pos c.start) := by
  rw [chapterTarget_of_find (findChapter_inside hbefore hafter),
    seekFrom_start h hinto (by omega)]
  exact chapterStart_ok rfl (by simp)

theorem chapterTarget_previous {b : Chapter}
    (hbefore : ∀ a ∈ front ++ [b] ++ [c], a.later pos = false)
    (hafter : ∀ a ∈ d :: rest, a.later pos = true) (h : InRange 64 (pos - wrap 32 c.start))
    (hinto : pos - wrap 32 c.start ≤ 5000000) :
    chapterTarget ⟨front ++ [b] ++ c :: d :: rest, duration⟩ playlist pos (-1) =
      .ok (.pos b.start) := by
  have hlength : (front ++ [b]).length = front.length + 1 := by simp
  have hprevious : ((front ++ [b]).length : Int) - 1 = front.length := by omega
  rw [chapterTarget_of_find (findChapter_inside hbefore hafter), seekFrom_back h hinto,
    if_neg (by omega), hprevious]
  exact chapterStart_ok rfl (by simp)

theorem chapterTarget_before (hbefore : ∀ a ∈ [c], a.later pos = false)
    (hafter : ∀ a ∈ d :: rest, a.later pos = true) (h : InRange 64 (pos - wrap 32 c.start))
    (hinto : pos - wrap 32 c.start ≤ 5000000) :
    chapterTarget ⟨c :: d :: rest, duration⟩ playlist pos (-1) =
      .ok (if playlist then .prevItem else .refused) := by
  have hfind : findChapter ⟨c :: d :: rest, duration⟩ pos =
      .ok ((c :: d :: rest).length, 0, wrap 32 c.start) :=
    findChapter_inside (List.nil_append [c] ▸ hbefore) hafter
  rw [chapterTarget_of_find hfind, seekFrom_back h hinto]
  cases playlist <;> simp [chapterStart]

/-- Back by more than the `int` says. -/
theorem chapterTarget_overflow (hbefore : ∀ b ∈ front ++ [c], b.later pos = false)
    (hafter : ∀ b ∈ d :: rest, b.later pos = true) (h : ¬InRange 64 (pos - wrap 32 c.start)) :
    chapterTarget ⟨front ++ c :: d :: rest, duration⟩ playlist pos (-1) = .error .overflow := by
  rw [chapterTarget_of_find (findChapter_inside hbefore hafter), seekFrom_overflow h]

/-- Back from the last chapter, far from the start of the file. -/
theorem chapterTarget_outside (hbefore : ∀ b ∈ front ++ [c], b.later pos = false)
    (hinto : 5000000 < pos) :
    ∃ e, chapterTarget ⟨front ++ [c], duration⟩ playlist pos (-1) = .error e := by
  rw [chapterTarget_of_find (findChapter_last hbefore)]
  by_cases hrange : InRange 64 (pos - 0)
  · rw [seekFrom_start hrange (by omega) (by omega)]
    exact ⟨.outside, chapterStart_outside⟩
  · exact ⟨.overflow, seekFrom_overflow hrange⟩

/-- Back from the last chapter, near the start of the file. -/
theorem chapterTarget_last (hbefore : ∀ b ∈ front ++ [c], b.later pos = false) (h0 : 0 ≤ pos)
    (hinto : pos ≤ 5000000) :
    chapterTarget ⟨front ++ [c], duration⟩ playlist pos (-1) = .ok (.pos c.start) := by
  have hlength : (front ++ [c]).length = front.length + 1 := by simp
  have hprevious : ((front ++ [c]).length : Int) - 1 = front.length := by omega
  rw [chapterTarget_of_find (findChapter_last hbefore),
    seekFrom_back (inRange_64.mpr (by omega)) (by omega), if_neg (by omega), hprevious]
  exact chapterStart_ok rfl (by simp)

end Targets

/-! ### The seek that is expected -/

/-- The chapter before the current one. -/
def previousChapter (cs : List Chapter) (pos : Int) : Option Chapter :=
  (started pos cs).dropLast.getLast?

/-- The chapter to go to: the next one; or the current one from more than five seconds into it, and
else the previous one. -/
def expectedChapter (cs : List Chapter) (pos incr : Int) : Option Chapter :=
  if incr = 1 then (ahead pos cs).head?
  else (started pos cs).getLast?.bind fun c =>
    if 5000000 < pos - c.start then some c else previousChapter cs pos

/-- It leads to the start of that chapter; where there is none, it is refused or leads to the item
on this side in the playlist. -/
def SeeksRight (cs : List Chapter) (pos incr : Int) (out : Except ChapterFault SeekTarget) : Prop :=
  match expectedChapter cs pos incr with
  | some c => out = .ok (.pos c.start)
  | none => out = .ok .refused ∨ out = .ok (if incr = 1 then .nextItem else .prevItem)

/-- The previous chapter starts with the current one. -/
def SamePrevious (cs : List Chapter) (pos : Int) (c : Chapter) : Prop :=
  ∃ b, previousChapter cs pos = some b ∧ b.start = c.start

/-- Where the seek leads as expected: from inside a chapter, and backwards not from the last one,
nor from the first five seconds of one whose start is no `int`.  Both do no harm where the previous
chapter has the same start and nothing overflows. -/
def Seekable (cs : List Chapter) (pos incr : Int) : Prop :=
  ∃ c, (started pos cs).getLast? = some c ∧ (incr = -1 →
    if ahead pos cs = [] then pos ≤ 5000000 ∧ SamePrevious cs pos c
    else c.start < 2147483648 ∨ pos - wrap 32 c.start < 9223372036854775808 ∧
      (5000000 < pos - c.start ∨ SamePrevious cs pos c))

/-- The start of a late chapter as an `int` is far too early. -/
theorem wrap_late {x : Int} (h : 2147483648 ≤ x) : wrap 32 x + 4294967296 ≤ x := by
  have hrange := inRange_32.mp (wrap_inRange (by decide : 0 < 32) x)
  have hdvd := dvd_wrap_sub 32 x
  omega

/-- **Forwards.** -/
theorem seeksRight_forward (h : Ordered cs) (hne : cs ≠ []) :
    SeeksRight cs pos 1 (chapterTarget ⟨cs, duration⟩ playlist pos 1) ↔
      ∃ c, (started pos cs).getLast? = some c := by
  have hsplit := h.split pos
  have hbefore := not_later (rfl : started pos cs = started pos cs)
  have hafter : ∀ c ∈ ahead pos cs, c.later pos = true := by simp [ahead]
  unfold SeeksRight expectedChapter
  rw [if_pos rfl]
  generalize started pos cs = before at *
  generalize ahead pos cs = after at *
  subst hsplit
  rcases List.eq_nil_or_concat' before with rfl | ⟨front, c, rfl⟩
  · rw [List.nil_append] at hne ⊢
    rw [chapterTarget_first duration playlist hne hafter]
    cases after with
    | nil => exact absurd rfl hne
    | cons d after => simp
  · cases after with
    | nil => simp [chapterTarget_end duration playlist hbefore]
    | cons d after =>
      have hnext := chapterTarget_next duration playlist hbefore hafter
      rw [List.append_assoc, List.singleton_append]
      simp [hnext]

/-- What is expected backwards, in the chapter `c`. -/
theorem seeksRight_back_iff {out : Except ChapterFault SeekTarget}
    (hstarted : started pos cs = front ++ [c]) :
    SeeksRight cs pos (-1) out ↔
      if 5000000 < pos - c.start then out = .ok (.pos c.start)
      else match front.getLast? with
        | some b => out = .ok (.pos b.start)
        | none => out = .ok .refused ∨ out = .ok .prevItem := by
  unfold SeeksRight expectedChapter previousChapter
  rw [if_neg (by decide), hstarted]
  by_cases hinto : 5000000 < pos - c.start
  · simp [hinto]
  · simp [hinto]

theorem samePrevious_iff (hstarted : started pos cs = front ++ [c]) :
    SamePrevious cs pos c ↔ ∃ b, front.getLast? = some b ∧ b.start = c.start := by
  unfold SamePrevious previousChapter
  rw [hstarted, List.dropLast_concat]

/-- **Backwards in the last chapter.** -/
theorem seeksRight_last (h : Ordered (front ++ [c])) (hstarted : started pos (front ++ [c]) =
    front ++ [c]) (h0 : 0 ≤ pos) :
    SeeksRight (front ++ [c]) pos (-1) (chapterTarget ⟨front ++ [c], duration⟩ playlist pos (-1)) ↔
      pos ≤ 5000000 ∧ SamePrevious (front ++ [c]) pos c := by
  have hbefore := not_later hstarted
  have hnonneg := h.nonneg c (by simp)
  rw [seeksRight_back_iff hstarted, samePrevious_iff hstarted]
  by_cases hinto : 5000000 < pos
  · obtain ⟨e, he⟩ := chapterTarget_outside duration playlist hbefore hinto
    rw [he]
    constructor
    · intro hright
      split at hright
      · cases hright
      · split at hright
        · cases hright
        · rcases hright with hright | hright <;> cases hright
    · rintro ⟨hle, -⟩
      omega
  · rw [chapterTarget_last duration playlist hbefore h0 (by omega), if_neg (by omega)]
    cases front.getLast? with
    | none => simp
    | some b => simp [Int.not_lt.mp hinto, eq_comm]

/-- **Backwards in another chapter.** -/
theorem seeksRight_inside (h : Ordered (front ++ c :: d :: rest))
    (hstarted : started pos (front ++ c :: d :: rest) = front ++ [c])
    (hafter : ∀ b ∈ d :: rest, b.later pos = true) (hpos : pos < 9223372036854775808) :
    SeeksRight (front ++ c :: d :: rest) pos (-1)
        (chapterTarget ⟨front ++ c :: d :: rest, duration⟩ playlist pos (-1)) ↔
      (c.start < 2147483648 ∨ pos - wrap 32 c.start < 9223372036854775808 ∧
        (5000000 < pos - c.start ∨ SamePrevious (front ++ c :: d :: rest) pos c)) := by
  have hbefore := not_later hstarted
  have hnonneg := h.nonneg c (by simp)
  have hstart := h.starts c (by simp) pos (hbefore c (by simp))
  rw [seeksRight_back_iff hstarted, samePrevious_iff hstarted]
  by_cases hint : c.start < 2147483648
  · have hwrap : wrap 32 c.start = c.start :=
      wrap_of_inRange (by decide) (inRange_32.mpr ⟨by omega, hint⟩)
    have hrange : InRange 64 (pos - wrap 32 c.start) := inRange_64.mpr (by omega)
    refine iff_of_true ?_ (Or.inl hint)
    by_cases hinto : 5000000 < pos - c.start
    · rw [if_pos hinto]
      exact chapterTarget_start duration playlist hbefore hafter hrange (by omega)
    · rw [if_neg hinto]
      rcases List.eq_nil_or_concat' front with rfl | ⟨front, b, rfl⟩
      · have hback := chapterTarget_before duration playlist hbefore hafter hrange (by omega)
        rw [List.nil_append, hback]
        cases playlist <;> simp
      · rw [List.getLast?_concat]
        exact chapterTarget_previous duration playlist hbefore hafter hrange (by omega)
  · have hlate := wrap_late (Int.not_lt.mp hint)
    have hwrapped := inRange_32.mp (wrap_inRange (by decide : 0 < 32) c.start)
    by_cases hrange : InRange 64 (pos - wrap 32 c.start)
    · have hlt := (inRange_64.mp hrange).2
      rw [chapterTarget_start duration playlist hbefore hafter hrange (by omega)]
      by_cases hinto : 5000000 < pos - c.start
      · simp [hinto, hlt]
      · cases front.getLast? with
        | none => simp [hinto, hint]
        | some b => simp [hinto, hint, hlt, eq_comm]
    · have hge : ¬pos - wrap 32 c.start < 9223372036854775808 := by
        rw [inRange_64] at hrange
        omega
      rw [chapterTarget_overflow duration playlist hbefore hafter hrange]
      refine iff_of_false ?_ (by simp [hint, hge])
      split
      · simp
      · split <;> simp

/-- **Seeking by the chapters of a file.** -/
theorem chapterTarget_real_iff (h : Ordered cs) (hne : cs ≠ []) (h0 : 0 ≤ pos)
    (hpos : pos < 9223372036854775808) (hincr : incr = 1 ∨ incr = -1) :
    SeeksRight cs pos incr (chapterTarget ⟨cs, duration⟩ playlist pos incr) ↔
      Seekable cs pos incr := by
  unfold Seekable
  rcases hincr with rfl | rfl
  · rw [seeksRight_forward h hne]
    simp
  · have hsplit := h.split pos
    have hafter : ∀ c ∈ ahead pos cs, c.later pos = true := by simp [ahead]
    rcases List.eq_nil_or_concat' (started pos cs) with hstarted | ⟨front, c, hstarted⟩
    · rw [hstarted, List.nil_append] at hsplit
      rw [chapterTarget_first duration playlist hne (hsplit ▸ hafter)]
      simp [SeeksRight, expectedChapter, hstarted]
    · rw [hstarted] at hsplit
      cases hahead : ahead pos cs with
      | nil =>
        rw [hahead, List.append_nil] at hsplit
        subst hsplit
        rw [seeksRight_last h hstarted h0, hstarted]
        simp
      | cons d rest =>
        rw [hahead, List.append_assoc, List.singleton_append] at hsplit
        rw [hahead] at hafter
        subst hsplit
        rw [seeksRight_inside h hstarted hafter hpos, hstarted]
        simp

/-- A chapter whose times are in microseconds already. -/
def chapterFrom (start : Int) : Chapter := ⟨start, fun pos => pos < start⟩

theorem ordered_map {starts : List Int} (hnonneg : ∀ x ∈ starts, 0 ≤ x)
    (hsorted : starts.Pairwise (· ≤ ·)) : Ordered (starts.map chapterFrom) where
  nonneg := by simpa [chapterFrom] using hnonneg
  starts := by simp [chapterFrom]
  sorted := by
    refine List.pairwise_map.mpr (hsorted.imp ?_)
    intro x y hxy pos hpos
    simp only [chapterFrom, decide_eq_true_eq] at hpos ⊢
    omega

/-- From the first of two chapters to the second. -/
theorem chapterTarget_real_iff_two :
    SeeksRight ([0, 600000000].map chapterFrom) 300000000 1
        (chapterTarget ⟨[0, 600000000].map chapterFrom, 1200000000⟩ false 300000000 1) ↔
      Seekable ([0, 600000000].map chapterFrom) 300000000 1 :=
  chapterTarget_real_iff (ordered_map (by decide) (by decide)) (by decide) (by decide) (by decide)
    (Or.inl rfl)

/-- From inside the last of two chapters back, the seek reads behind the chapters. -/
theorem last_chapter_outside :
    ¬∀ (cs : List Chapter) (duration pos incr : Int) (playlist : Bool), Ordered cs → cs ≠ [] →
      0 ≤ pos → pos < 9223372036854775808 → incr = 1 ∨ incr = -1 →
      SeeksRight cs pos incr (chapterTarget ⟨cs, duration⟩ playlist pos incr) := by
  intro hclaim
  have hordered : Ordered ([0, 600000000].map chapterFrom) :=
    ordered_map (by decide) (by decide)
  have hright := hclaim _ 1200000000 700000000 (-1) false hordered (by decide) (by decide)
    (by decide) (Or.inr rfl)
  have hstarted : started 700000000 ([chapterFrom 0] ++ [chapterFrom 600000000]) =
    [chapterFrom 0] ++ [chapterFrom 600000000] := rfl
  have hlast := (seeksRight_last hordered hstarted (by decide)).mp hright
  exact absurd hlast.1 (by decide)

end Real

end Mediabox.Player
