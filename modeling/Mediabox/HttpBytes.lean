import Mediabox.HttpPositions

/-!
# The bytes that an HTTP stream delivers

What the caller of `avbox_httpstream_read` and `avbox_httpstream_seek` sees, when the transfers end
without errors and seeks stay within the content.

* `position tr` — where the caller is: the last seek target plus the bytes returned since.
* `faultless` — cURL's calls succeed, a transfer ends with `CURLE_OK` once the whole content was
  delivered, and seek targets lie within the content.
* `Dead` — the handle was freed by `avbox_httpstream_fillbuf` (a transfer that was over was asked
  for more before it ever counted as connected); no byte comes out of it any more.
* `stream_exact` — when no seek finds bytes in the buffer of a worker that has ended, what reads
  return is the content at `position tr`.
-/

set_option autoImplicit false

namespace Mediabox.HttpStream

open Ring Transition

variable {content : List UInt8} {f g : File} {r r' : Reader} {w w' : Worker} {e : Event}
  {s t : State} {o : Output} {ptr n : Nat} {tr : List (Event × Output)} {out : List UInt8}
  {polls : List Poll} {ok : Bool}

/-! ## Where the caller is -/

/-- A seek sets the position of the caller, and returned bytes move it. -/
def moved (pos : Nat) : Event × Output → Nat
  | (.seek offset, _) => offset
  | (_, .returned bytes) => pos + bytes.length
  | (_, _) => pos

/-- The position of the caller after a run. -/
def position (tr : List (Event × Output)) : Nat := tr.foldl moved 0

/-- The position that the handle keeps for the caller. -/
def State.position (s : State) : Nat :=
  match s.reader with
  | .seeking => s.file.raSeekto.getD s.file.offset
  | _ => s.file.offset

theorem position_of_ne (hr : r ≠ .seeking) : State.position ⟨f, r, w⟩ = f.offset := by
  cases r <;> first | rfl | exact absurd rfl hr

/-- The worker leaves the position alone while it has no seek to serve. -/
theorem position_keep (hoff : g.offset = f.offset) (hto : g.raSeekto = f.raSeekto) :
    State.position ⟨g, r, w'⟩ = State.position ⟨f, r, w⟩ := by
  cases r <;> simp only [State.position, hoff, hto]

theorem position_reading (hr : r ≠ .seeking) (hr' : r' ≠ .seeking)
    (hoff : g.offset = moved f.offset (e, o)) :
    State.position ⟨g, r', w'⟩ = moved (State.position ⟨f, r, w⟩) (e, o) := by
  rw [position_of_ne hr, position_of_ne hr']
  exact hoff

theorem reader_position (hmove : ReaderMove f w r e t o) :
    t.position = moved (State.position ⟨f, r, w⟩) (e, o) := by
  cases hmove with
  | pick size got e he =>
    rcases he with rfl | rfl <;> exact position_reading (by rintro ⟨⟩) (by rintro ⟨⟩) rfl
  | seekRunning offset => simp only [State.position, moved, Option.getD_some]
  | seekNow offset => simp only [State.position, moved, doseek]
  | seeked hnone => simp only [State.position, moved, hnone, Option.getD_none]
  | _ => exact position_reading (by rintro ⟨⟩) (by rintro ⟨⟩) rfl

theorem worker_position (h : Control ⟨f, r, w⟩) (hmove : WorkerMove content f r w e t) :
    t.position = moved (State.position ⟨f, r, w⟩) (e, .quiet) := by
  cases hmove with
  | init =>
    obtain ⟨⟨size, hr⟩, -⟩ := h.starting rfl
    have hr : r = .starting size := hr
    subst hr
    have hoff : f.map.offset = f.offset := by
      unfold File.map
      split <;> rfl
    exact hoff
  | abort ptr | chunk ptr hpos | publish ptr n | exit ptr polls hnone => exact position_keep rfl rfl
  | fill ptr n polls g out hfill =>
    have hcore := fillbuf_core hfill
    have hoff : g.offset = f.offset := (congrArg File.offset hcore :)
    have hto : g.raSeekto = f.raSeekto := (congrArg File.raSeekto hcore :)
    obtain ⟨-, hadv⟩ | ⟨-, -, -, hadv⟩ | ⟨-, hadv⟩ :=
      advance_cases { g with raBuf := store g.raBuf ptr out } ptr out.length
    · rw [hadv]
      exact position_keep hoff hto
    · rw [hadv]
      exact position_keep hoff hto
    · rw [hadv]
      exact position_keep hoff hto
  | fillFailed ptr n polls g out hfill =>
    have hcore := fillbuf_core hfill
    have hoff : g.offset = f.offset := (congrArg File.offset hcore :)
    have hto : g.raSeekto = f.raSeekto := (congrArg File.raSeekto hcore :)
    obtain ⟨conn, retries, w', hfail, -, -⟩ :=
      fillFailed_cases { g with raBuf := store g.raBuf ptr out } ptr
    rw [hfail]
    exact position_keep hoff hto
  | inBuffer ptr polls target hseek =>
    have hr : r = .seeking := h.asked rfl (by rw [hseek]; exact nofun)
    subst hr
    simp [State.position, moved, hseek, inBufferSeek]
  | short ptr polls target g out hseek _ _ _ hfill
  | shortFailed ptr polls target g out hseek _ _ _ hfill =>
    have hr : r = .seeking := h.asked rfl (by rw [hseek]; exact nofun)
    subst hr
    have hcore := fillbuf_core hfill
    have hoff : g.offset = target := (congrArg File.offset hcore :)
    have hto : g.raSeekto = none := (congrArg File.raSeekto hcore :)
    simp [State.position, moved, hseek, hoff, hto]
  | full ptr polls target hseek =>
    have hr : r = .seeking := h.asked rfl (by rw [hseek]; exact nofun)
    subst hr
    simp [State.position, moved, hseek, readaheadInit, doseek]

/-- **Positions**: in every run the handle keeps the position of the caller. -/
theorem run_position (h : Run (Step (step content)) init tr s) :
    Control s ∧ s.position = position tr := by
  refine Run.history (P := fun tr s => Control s ∧ s.position = position tr) ⟨init_control, rfl⟩
    (fun tr t a u ht hstep => ?_) h
  obtain ⟨hcontrol, hpos⟩ := ht
  refine ⟨step_control hcontrol hstep, ?_⟩
  rw [position, List.foldl_append, ← position, ← hpos]
  obtain ⟨f, r, w⟩ := t
  obtain hmove | ⟨hmove, hquiet⟩ := step_move hstep
  · exact reader_position hmove
  · obtain ⟨e, o⟩ := a
    subst hquiet
    exact worker_position hcontrol hmove

/-! ## Transfers without errors -/

/-- The call succeeds, and a transfer that ends in it ends with `CURLE_OK`. -/
def Poll.faultless : Poll → Bool
  | .perform p => p.finish != some .couldntConnect && p.finish != some .other
  | _ => false

/-- A transfer that is over has delivered the whole content. -/
def Transfer.whole (content : List UInt8) : Transfer → Bool
  | .done pos => content.length ≤ pos
  | _ => true

/-- A call of `avbox_httpstream_fillbuf` without errors. -/
def cleanFill (content : List UInt8) (polls : List Poll) :
    Option (File × List UInt8 × Bool) → Bool
  | some (f, _, _) => polls.all Poll.faultless && f.transfer.whole content
  | none => true

/-- No transfer errors, and seek targets within the content. -/
def faultless (content : List UInt8) (s : State) : Event → Bool
  | .seek offset => offset ≤ content.length
  | .workerFill polls => match s.worker with
    | .filling _ n => cleanFill content polls (fillbuf content s.file n polls)
    | _ => true
  | .workerExit polls => match s.file.shortTarget with
    | some target =>
      cleanFill content polls
        (fillbuf content (shortSeek s.file target) (target - s.file.raOffset) polls)
    | none => true
  | _ => true

theorem cleanFill_spec
    (h : cleanFill content polls (some (g, out, ok)) = true) :
    (∀ poll ∈ polls, poll.isPerform = true) ∧ g.transfer.whole content = true := by
  simp only [cleanFill, Bool.and_eq_true, List.all_eq_true] at h
  refine ⟨fun poll hmem => ?_, h.2⟩
  have hpoll := h.1 poll hmem
  cases poll with
  | fdset | failed => cases hpoll
  | perform p => rfl

/-- A short seek within the content skips all its bytes, unless the handle is gone. -/
theorem skip_whole {size : Nat} (hsrc : Source content f f.raOffset) (hsize : 0 < size)
    (hin : f.raOffset + size ≤ content.length)
    (hfill : fillbuf content f size polls = some (g, out, ok))
    (hclean : cleanFill content polls (some (g, out, ok)) = true) :
    (out.length = size ∧ ok = true) ∨ (g.transfer = .gone ∧ g.bufcnt = 0 ∧ ok = false) := by
  obtain ⟨hpolls, hwhole⟩ := cleanFill_spec hclean
  obtain ⟨hlen, hok⟩ := fillbuf_ends hsrc hsize hpolls hfill
  have hle := fillbuf_length hfill
  obtain ⟨hsource, -⟩ := fillbuf_source hsrc hsize hfill
  have hnext := hsource.next
  have htrue : out.length = size → ok = true := by
    intro hall
    cases ok with
    | true => rfl
    | false =>
      have hnil := hok rfl
      rw [hnil, List.length_nil] at hall
      omega
  rcases hlen with hall | ⟨hover, hcnt⟩
  · exact .inl ⟨hall, htrue hall⟩
  · cases htransfer : g.transfer with
    | fresh | active pos => simp [Transfer.isOver, htransfer] at hover
    | done pos =>
      -- the transfer is over because the content is, so the target was reached
      simp only [Transfer.whole, htransfer, decide_eq_true_eq] at hwhole
      simp only [File.Next, htransfer] at hnext
      have hall : out.length = size := by omega
      exact .inl ⟨hall, htrue hall⟩
    | gone => exact .inr ⟨rfl, hcnt, (fillbuf_to_gone hsrc htransfer hfill).2⟩

/-! ## A handle that was freed -/

/-- The handle is gone, and nothing is left in the buffers. -/
structure Dead (s : State) : Prop where
  control : Control s
  gone : s.file.transfer = .gone
  left : s.file.bufcnt = 0
  avail : s.file.raAvail = 0
  pending : s.worker.pending = 0
  chunk : s.reader.chunk = 0
  taken : s.reader.taken = 0
  got : s.reader.got = []
  behind : s.file.raOffset ≤ s.file.offset

theorem reader_dead (h : Dead ⟨f, r, w⟩) (hmove : ReaderMove f w r e t o) : Dead t := by
  have hcontrol := reader_control h.control hmove
  have havail : f.raAvail = 0 := h.avail
  cases hmove with
  | readNone | wait size got => exact h
  | create size hrun =>
    exact ⟨hcontrol, h.gone, h.left, h.avail, rfl, rfl, rfl, rfl, h.behind⟩
  | pick size got =>
    have hchunk : f.readChunk size got = 0 := by
      simp [File.readChunk, havail]
    exact ⟨hcontrol, h.gone, h.left, h.avail, h.pending, hchunk, rfl, h.got, h.behind⟩
  | short size got | finish size got =>
    have hgot : got = [] := h.got
    subst hgot
    exact ⟨hcontrol, h.gone, h.left, h.avail, h.pending, rfl, rfl, rfl, h.behind⟩
  | copy size got c =>
    have hc : c = 0 := h.chunk
    have hgot : got = [] := h.got
    subst hc hgot
    exact ⟨hcontrol, h.gone, h.left, h.avail, h.pending, rfl, rfl, rfl, h.behind⟩
  | consume size got c =>
    have hc : c = 0 := h.taken
    subst hc
    have hsub : sub64 f.raAvail 0 = 0 := by
      rw [havail]
      exact sub64_of_le (Nat.le_refl 0)
    have heq : consumeRead ⟨f, .copied size got 0, w⟩ size got 0 =
        ⟨{ f with raAvail := 0, raWants := sub64 f.raWants 0 }, .reading size got, w⟩ := by
      simp only [consumeRead, hsub]
    rw [heq] at hcontrol ⊢
    exact ⟨hcontrol, h.gone, h.left, rfl, h.pending, rfl, rfl, h.got, h.behind⟩
  | seekNow offset =>
    have hgone : (doseek f offset).transfer = .gone := if_pos h.gone
    exact ⟨hcontrol, hgone, rfl, h.avail, h.pending, rfl, rfl, rfl, Nat.le_refl _⟩
  | read size | begin size | started size | ended size | failed size | seeked hnone =>
    exact ⟨hcontrol, h.gone, h.left, h.avail, h.pending, rfl, rfl, rfl, h.behind⟩
  | grow size got => exact ⟨hcontrol, h.gone, h.left, h.avail, h.pending, rfl, rfl, h.got, h.behind⟩
  | recheck size got =>
    exact ⟨hcontrol, h.gone, h.left, h.avail, h.pending, rfl, rfl, h.got, h.behind⟩
  | seekRunning offset =>
    exact ⟨hcontrol, h.gone, h.left, h.avail, h.pending, rfl, rfl, rfl, h.behind⟩

theorem worker_dead (h : Dead ⟨f, r, w⟩) (hmove : WorkerMove content f r w e t) : Dead t := by
  have hcontrol := worker_control h.control hmove
  cases hmove with
  | init =>
    have hmap : f.map.transfer = f.transfer ∧ f.map.bufcnt = f.bufcnt ∧
        f.map.raOffset = f.raOffset ∧ f.map.offset = f.offset := by
      unfold File.map
      split <;> exact ⟨rfl, rfl, rfl, rfl⟩
    refine ⟨hcontrol, hmap.1.trans h.gone, hmap.2.1.trans h.left, rfl, rfl, h.chunk, h.taken, h.got,
      ?_⟩
    show f.map.raOffset ≤ f.map.offset
    rw [hmap.2.2.1, hmap.2.2.2]
    exact h.behind
  | abort ptr => exact ⟨hcontrol, h.gone, h.left, h.avail, rfl, h.chunk, h.taken, h.got, h.behind⟩
  | chunk ptr hpos | exit ptr polls =>
    exact ⟨hcontrol, h.gone, h.left, h.avail, rfl, h.chunk, h.taken, h.got, h.behind⟩
  | fill ptr n polls g out hfill =>
    obtain ⟨-, -, -, hok⟩ := fillbuf_of_gone h.gone h.left hfill
    cases hok
  | fillFailed ptr n polls g out hfill =>
    obtain ⟨hgone, hleft, -, -⟩ := fillbuf_of_gone h.gone h.left hfill
    obtain ⟨-, -, -, havail, -, hoff, hraoff⟩ := fillbuf_fields hfill
    have hbehind : g.raOffset ≤ g.offset := by
      rw [hoff, hraoff]
      exact h.behind
    obtain ⟨conn, retries, w', hfail, -, hw⟩ :=
      fillFailed_cases { g with raBuf := store g.raBuf ptr out } ptr
    rw [hfail] at hcontrol ⊢
    have hpending : w'.pending = 0 := by
      rcases hw with rfl | rfl <;> rfl
    exact ⟨hcontrol, hgone, hleft, havail.trans h.avail, hpending, h.chunk, h.taken, h.got,
      hbehind⟩
  | publish ptr n =>
    have hn : n = 0 := h.pending
    subst hn
    exact ⟨hcontrol, h.gone, h.left, h.avail, rfl, h.chunk, h.taken, h.got, h.behind⟩
  | inBuffer ptr polls target hseek hlo hhi =>
    have hbehind : f.raOffset ≤ f.offset := h.behind
    omega
  | short ptr polls target g out _ _ _ _ hfill =>
    obtain ⟨-, -, -, hok⟩ := fillbuf_of_gone (f := shortSeek f target) h.gone h.left hfill
    cases hok
  | shortFailed ptr polls target g out _ hlo hhi _ hfill =>
    obtain ⟨hgone, hleft, -, -⟩ := fillbuf_of_gone (f := shortSeek f target) h.gone h.left hfill
    obtain ⟨-, -, -, havail, -, hoff, hraoff⟩ := fillbuf_fields hfill
    have hoff : g.offset = target := hoff
    have hraoff : g.raOffset = f.raOffset := hraoff
    exact ⟨hcontrol, hgone, hleft, havail, rfl, h.chunk, h.taken, h.got, by dsimp only; omega⟩
  | full ptr polls target =>
    have hgone : (doseek f target).transfer = .gone := if_pos h.gone
    exact ⟨hcontrol, hgone, rfl, rfl, rfl, h.chunk, h.taken, h.got, Nat.le_refl _⟩

/-! ## What reads return -/

/-- The targets that the worker is asked to seek to lie within the content. -/
def Within (content : List UInt8) (f : File) : Prop :=
  ∀ target, f.raSeekto = some target → target ≤ content.length

theorem reader_within (h : Within content f) (hclean : faultless content ⟨f, r, w⟩ e = true)
    (hmove : ReaderMove f w r e t o) : Within content t.file := by
  cases hmove with
  | seekRunning offset =>
    rintro _ ⟨⟩
    exact of_decide_eq_true hclean
  | _ => exact h

theorem worker_within (h : Within content f) (hmove : WorkerMove content f r w e t) :
    Within content t.file := by
  have hnone : ∀ {g : File}, g.raSeekto = none → Within content g := by
    intro g hg target htarget
    rw [hg] at htarget
    cases htarget
  have hsame : ∀ {g : File}, g.raSeekto = f.raSeekto → Within content g := by
    intro g hg target htarget
    rw [hg] at htarget
    exact h target htarget
  cases hmove with
  | init | inBuffer ptr polls target | full ptr polls target => exact hnone rfl
  | fill ptr n polls g out hfill =>
    have hto : g.raSeekto = f.raSeekto := (congrArg File.raSeekto (fillbuf_core hfill) :)
    obtain ⟨-, hadv⟩ | ⟨-, -, -, hadv⟩ | ⟨-, hadv⟩ :=
      advance_cases { g with raBuf := store g.raBuf ptr out } ptr out.length <;>
    · rw [hadv]
      exact hsame hto
  | fillFailed ptr n polls g out hfill =>
    have hto : g.raSeekto = f.raSeekto := (congrArg File.raSeekto (fillbuf_core hfill) :)
    obtain ⟨conn, retries, w', hfail, -, -⟩ :=
      fillFailed_cases { g with raBuf := store g.raBuf ptr out } ptr
    rw [hfail]
    exact hsame hto
  | short ptr polls target g out _ _ _ _ hfill | shortFailed ptr polls target g out _ _ _ _ hfill =>
    exact hnone (congrArg File.raSeekto (fillbuf_core hfill) :)
  | _ => exact h

/-- Without errors, a step of the worker keeps the invariant or finds the handle gone. -/
theorem worker_clean (h : Inv content ⟨f, r, w⟩) (hin : Within content f)
    (hclean : faultless content ⟨f, r, w⟩ e = true) (hmove : WorkerMove content f r w e t) :
    workerSound content ⟨f, r, w⟩ e = true ∨ Dead t := by
  have hcontrol := worker_control h.control hmove
  cases hmove with
  | fill ptr n polls g out hfill =>
    left
    simp [workerSound, hfill, lostNone]
  | fillFailed ptr n polls g out hfill =>
    left
    simp only [faultless, hfill] at hclean
    obtain ⟨hpolls, -⟩ := cleanFill_spec hclean
    have hout := (fillbuf_ends h.source (h.control.wants ptr n rfl) hpolls hfill).2 rfl
    simp [workerSound, hfill, lostNone, hout]
  | exit ptr polls hnone =>
    left
    have hnone : f.raSeekto = none := hnone
    simp [workerSound, File.shortTarget, hnone]
  | inBuffer ptr polls target hseek hlo hhi =>
    left
    have hshort : f.shortTarget = none := by
      simp only [File.shortTarget, hseek]
      exact if_neg (by omega)
    simp [workerSound, hshort]
  | short ptr polls target g out hseek hlo hhi hnear hfill =>
    have hshort := shortTarget_eq hseek hlo hhi hnear
    simp only [faultless, hshort, hfill] at hclean
    have hsrc : Source content (shortSeek f target) (shortSeek f target).raOffset :=
      h.source.keep rfl
    have hbound : f.raOffset + (target - f.raOffset) ≤ content.length := by
      have htarget := hin target hseek
      omega
    obtain ⟨hall, -⟩ | ⟨-, -, hok⟩ := skip_whole hsrc (Nat.sub_pos_of_lt hhi) hbound hfill hclean
    · left
      simp [workerSound, gotAll, hshort, hfill, hall]
    · cases hok
  | shortFailed ptr polls target g out hseek hlo hhi hnear hfill =>
    have hshort := shortTarget_eq hseek hlo hhi hnear
    simp only [faultless, hshort, hfill] at hclean
    have hsrc : Source content (shortSeek f target) (shortSeek f target).raOffset :=
      h.source.keep rfl
    have hbound : f.raOffset + (target - f.raOffset) ≤ content.length := by
      have htarget := hin target hseek
      omega
    obtain ⟨-, hok⟩ | ⟨hgone, hcnt, -⟩ :=
      skip_whole hsrc (Nat.sub_pos_of_lt hhi) hbound hfill hclean
    · cases hok
    · right
      have hr : r = .seeking := h.control.asked rfl (by rw [hseek]; rintro ⟨⟩)
      subst hr
      obtain ⟨-, -, -, havail, -, hoff, hraoff⟩ := fillbuf_fields hfill
      have hoff : g.offset = target := hoff
      have hraoff : g.raOffset = f.raOffset := hraoff
      exact ⟨hcontrol, hgone, hcnt, havail, rfl, rfl, rfl, rfl, by dsimp only; omega⟩
  | full ptr polls target hseek hfar =>
    left
    have hshort : f.shortTarget = none := by
      simp only [File.shortTarget, hseek]
      exact if_neg fun hnear => hfar ⟨hnear.1, hnear.2.2⟩
    simp [workerSound, hshort]
  | _ => exact .inl rfl

/-- What holds along the runs of `stream_exact`. -/
def Exact (content : List UInt8) (s : State) : Prop :=
  (Inv content s ∨ Dead s) ∧ Within content s.file

theorem step_exact (h : Exact content s) (hclean : faultless content s e = true)
    (hsound : readerSound s.file e = true) (hstep : step content s e = some (t, o)) :
    Exact content t := by
  obtain ⟨f, r, w⟩ := s
  obtain ⟨hstate, hin⟩ := h
  obtain hmove | ⟨hmove, -⟩ := step_move hstep
  · refine ⟨?_, reader_within hin hclean hmove⟩
    rcases hstate with hinv | hdead
    · exact .inl (reader_inv hinv hsound hmove)
    · exact .inr (reader_dead hdead hmove)
  · refine ⟨?_, worker_within hin hmove⟩
    rcases hstate with hinv | hdead
    · rcases worker_clean hinv hin hclean hmove with hworker | hdead
      · exact .inl (worker_inv hinv hworker hmove)
      · exact .inr hdead
    · exact .inr (worker_dead hdead hmove)

/-- A step of a run without errors whose seeks find no bytes in the buffer of an ended worker. -/
def exactStep (content : List UInt8) (s : State) (e : Event) : Bool :=
  faultless content s e && readerSound s.file e

theorem run_exact
    (h : Run (Guarded (step content) fun s e => exactStep content s e = true) init tr s) :
    Exact content s := by
  refine Run.invariant ⟨.inl init_inv, ?_⟩ (fun t a u ht hstep => ?_) h
  · rintro _ ⟨⟩
    exact Nat.zero_le _
  · obtain ⟨hclean, hsound⟩ := (Bool.and_eq_true _ _).mp hstep.1
    exact step_exact ht hclean hsound hstep.2

/-- **Exact bytes**: for every content, every way in which cURL hands it over, every sequence of
    reads and seeks and every interleaving of the two threads, without transfer errors and with
    targets within the content, what a read returns is the content from the last seek target on,
    behind what was returned since, if no seek meets a worker that has ended with bytes left in
    the readahead buffer. -/
theorem stream_exact {bs : List UInt8}
    (h : Run (Guarded (step content) fun s e => exactStep content s e = true) init
      (tr ++ [(e, .returned bs)]) s) :
    bs = (content.drop (position tr)).take bs.length := by
  obtain ⟨t, hrun, hstep⟩ := h.last
  obtain ⟨-, hpos⟩ := run_position hrun.of_guarded
  obtain ⟨hstate, -⟩ := run_exact hrun
  obtain ⟨f, r, w⟩ := t
  obtain hmove | ⟨-, hquiet⟩ := step_move hstep.2
  · have hgot := returned_got hmove
    have hoffset : position tr = f.offset := by
      rw [← hpos]
      cases hmove <;> rfl
    rw [hoffset, hgot]
    rcases hstate with hinv | hdead
    · exact List.prefix_iff_eq_take.mp hinv.got
    · have hnil : r.got = [] := hdead.got
      rw [hnil]
      rfl
  · cases hquiet

/-- A read of two bytes makes the worker fetch them all, and a seek to 4 finds the rest in the
    readahead buffer. -/
theorem stream_exact_in_buffer : ∃ tr s,
    Run (Guarded (step sixBytes) fun s e => exactStep sixBytes s e = true) init
      (tr ++ [(.finish, .returned [14, 15])]) s ∧ position tr = 4 ∧
      [14, 15] = (sixBytes.drop (position tr)).take 2 := by
  obtain ⟨tr, s, hrun, hpos, hlast⟩ : ∃ tr s,
      Run (Guarded (step sixBytes) fun s e => exactStep sixBytes s e = true) init tr s ∧
      position tr = 4 ∧ (exactStep sixBytes s .finish = true ∧
        (step sixBytes s .finish).map (·.2) = some (.returned [14, 15])) :=
    ⟨_, _, run_of_guarded_exec [.read 2, .begin, .workerInit, .started, .workerChunk,
      .workerFill [.perform ⟨[4], none⟩], .workerPublish, .workerChunk, .workerFill [],
      .workerPublish, .workerChunk, .workerFill [.perform ⟨[2], some .ok⟩], .workerPublish,
      .chunk, .copy, .consume, .finish, .seek 4, .workerAbort, .workerExit [], .seeked, .read 2,
      .begin, .chunk, .copy, .consume] rfl, rfl, rfl, rfl⟩
  obtain ⟨⟨t, o⟩, hstep, ho⟩ := Option.map_eq_some_iff.mp hlast.2
  cases ho
  have hmore := hrun.snoc (show Guarded _ _ s (.finish, .returned [14, 15]) t from
    ⟨hlast.1, hstep⟩)
  exact ⟨tr, t, hmore, hpos, stream_exact hmore⟩

/-- The worker has fetched all six bytes and ended when the reader has taken two; the seek back to 0
    leaves the other four in the readahead buffer, and the next read returns two of them. -/
theorem seek_reads_stale_bytes :
    ¬∀ (content : List UInt8) (tr : List (Event × Output)) (e : Event) (bs : List UInt8)
      (s : State), Run (Guarded (step content) fun s e => faultless content s e = true) init
        (tr ++ [(e, .returned bs)]) s →
      bs = (content.drop (position tr)).take bs.length := by
  intro hclaim
  obtain ⟨tr, s, hrun, hpos, hlast⟩ : ∃ tr s,
      Run (Guarded (step sixBytes) fun s e => faultless sixBytes s e = true) init tr s ∧
      position tr = 0 ∧ (faultless sixBytes s .finish = true ∧
        (step sixBytes s .finish).map (·.2) = some (.returned [12, 13])) :=
    ⟨_, _, run_of_guarded_exec [.read 2, .begin, .workerInit, .started, .workerChunk,
      .workerFill [.perform ⟨[4], none⟩], .workerPublish, .workerChunk, .workerFill [],
      .workerPublish, .workerChunk, .workerFill [.perform ⟨[2], some .ok⟩], .workerPublish,
      .workerChunk, .workerFill [.perform ⟨[], none⟩], .workerExit [], .chunk, .copy, .consume,
      .finish, .seek 0, .read 2, .begin, .chunk, .copy, .consume] rfl, rfl, rfl, rfl⟩
  obtain ⟨⟨t, o⟩, hstep, ho⟩ := Option.map_eq_some_iff.mp hlast.2
  cases ho
  have hmore := hrun.snoc (show Guarded _ _ s (.finish, .returned [12, 13]) t from
    ⟨hlast.1, hstep⟩)
  have hbytes := hclaim sixBytes tr .finish [12, 13] t hmore
  rw [hpos] at hbytes
  exact absurd hbytes (by decide)

end Mediabox.HttpStream
