import Mediabox.HttpMoves

/-!
# The positions of an HTTP stream

The readahead fields of a handle, over every interleaving of the reader and the worker, when
`avbox_httpstream_fillbuf` may return fewer bytes than asked or -1 at any call.

* `Control` — which thread may be where; it holds along every run.
* `Inv` — the counters tie up (`offset + ra_avail = ra_offset`, up to what the threads have in
  their hands), and the readahead buffer holds the content from `offset` on.
* `sound` — the steps that keep it: a seek without a worker finds no bytes in the buffer, the skip
  of a short seek gets all its bytes, and no bytes are lost in a failed call.
* `positions_consistent` — in runs of such steps the relation holds at rest, and what a read
  returns starts with the byte at `file->offset`.
-/

set_option autoImplicit false

namespace Mediabox.HttpStream

open Ring Transition

/-! ## What the threads have in their hands -/

/-- The worker is between `READAHEAD_INIT` and its end. -/
def Worker.running : Worker → Bool
  | .none => false
  | .starting => false
  | _ => true

/-- The write pointer of the worker. -/
def Worker.write : Worker → Option Nat
  | .none => Option.none
  | .starting => Option.none
  | .top ptr => some ptr
  | .filling ptr _ => some ptr
  | .filled ptr _ => some ptr
  | .exiting ptr => some ptr

/-- The bytes that the worker is about to write. -/
def Worker.room : Worker → Nat
  | .filling _ n => n
  | _ => 0

/-- The bytes that the worker has written and not added to `ra_avail`. -/
def Worker.pending : Worker → Nat
  | .filled _ n => n
  | _ => 0

/-- The bytes that the reader is about to copy. -/
def Reader.chunk : Reader → Nat
  | .copying _ _ c => c
  | _ => 0

/-- The bytes that the reader has copied and not taken off `ra_avail`. -/
def Reader.taken : Reader → Nat
  | .copied _ _ c => c
  | _ => 0

/-- The bytes of the call under way. -/
def Reader.got : Reader → List UInt8
  | .reading _ got => got
  | .full _ got => got
  | .copying _ got _ => got
  | .copied _ got _ => got
  | _ => []

/-- The reader is in the loop of `avbox_httpstream_read`. -/
def Reader.reads : Reader → Bool
  | .reading _ _ => true
  | .full _ _ => true
  | .copying _ _ _ => true
  | .copied _ _ _ => true
  | _ => false

/-- The bytes in the readahead buffer that the reader has not copied. -/
def State.held (s : State) : Nat :=
  s.file.raAvail - s.reader.taken + s.worker.pending

/-- Which thread may be where. -/
structure Control (s : State) : Prop where
  running : s.file.raRunning = s.worker.running
  starting : s.worker = .starting → (∃ size, s.reader = .starting size) ∧ s.file.raAvail = 0
  asked : s.worker.running = true → s.file.raSeekto ≠ none → s.reader = .seeking
  unmapped : s.file.raMapped = false → s.file.raAvail = 0 ∧ s.worker.running = false ∧
    s.reader.reads = false ∧ ∀ size, s.reader = .starting size → s.worker = .starting
  wants : ∀ ptr n, s.worker = .filling ptr n → 0 < n

theorem init_control : Control init :=
  ⟨rfl, nofun, nofun, fun _ => ⟨rfl, rfl, rfl, nofun⟩, nofun⟩

variable {content : List UInt8} {f g : File} {r r' : Reader} {w w' : Worker} {e : Event}
  {s t : State} {o : Output} {ptr n : Nat}

/-- What the threads tell each other through the handle. -/
def File.control (f : File) : Bool × Bool × Nat × Option Nat :=
  (f.raRunning, f.raMapped, f.raAvail, f.raSeekto)

theorem File.control_eq (h : g.control = f.control) :
    g.raRunning = f.raRunning ∧ g.raMapped = f.raMapped ∧ g.raAvail = f.raAvail ∧
      g.raSeekto = f.raSeekto := by
  simpa [File.control] using h

theorem Worker.running_ne (hw : w.running = true) : w ≠ .starting := by
  rintro rfl
  cases hw

theorem Control.mapped (h : Control ⟨f, r, w⟩) (hw : w.running = true) : f.raMapped = true := by
  cases hmap : f.raMapped with
  | true => rfl
  | false => exact absurd (hw.symm.trans (h.unmapped hmap).2.1) Bool.noConfusion

theorem Control.mapped_of_reads (h : Control ⟨f, r, w⟩) (hr : r.reads = true) :
    f.raMapped = true := by
  cases hmap : f.raMapped with
  | true => rfl
  | false => exact absurd (hr.symm.trans (h.unmapped hmap).2.2.1) Bool.noConfusion

/-- The reader is in a call of its own: no seek is being served, and no worker is starting. -/
theorem Control.no_seek (h : Control ⟨f, r, w⟩) (hr : r ≠ .seeking) (hw : w.running = true) :
    f.raSeekto = none := by
  by_contra hseek
  exact hr (h.asked hw hseek)

theorem Control.not_starting (h : Control ⟨f, r, w⟩) (hr : ∀ size, r ≠ .starting size) :
    w ≠ .starting := by
  intro hw
  obtain ⟨size, hsize⟩ := (h.starting hw).1
  exact hr size hsize

/-- The worker goes on to another place of its loop. -/
theorem Control.worker_goes (h : Control ⟨f, r, w⟩) (hw : w.running = true)
    (hw' : w'.running = true) (hrun : g.raRunning = f.raRunning) (hmap : g.raMapped = f.raMapped)
    (hseek : g.raSeekto = f.raSeekto ∨ g.raSeekto = none)
    (hwants : ∀ ptr n, w' = .filling ptr n → 0 < n) : Control ⟨g, r, w'⟩ := by
  refine ⟨?_, fun hs => absurd hs (Worker.running_ne hw'), fun _ hne => ?_, fun hmap' => ?_, hwants⟩
  · exact (hrun.trans h.running).trans (hw.trans hw'.symm)
  · rcases hseek with hsame | hnone
    · exact h.asked hw (hsame ▸ hne)
    · exact absurd hnone hne
  · exact absurd ((hmap.trans (h.mapped hw)).symm.trans hmap') Bool.noConfusion

/-- The reader goes on to another place, and no worker is starting. -/
theorem Control.reader_goes (h : Control ⟨f, r, w⟩) (hw : w ≠ .starting)
    (hrun : g.raRunning = f.raRunning) (hmap : g.raMapped = f.raMapped)
    (havail : f.raMapped = false → g.raAvail = 0)
    (hseek : w.running = true → g.raSeekto ≠ none → r' = .seeking)
    (hreads : f.raMapped = false → r'.reads = false ∧ ∀ size, r' ≠ .starting size) :
    Control ⟨g, r', w⟩ := by
  refine ⟨hrun.trans h.running, fun hs => absurd hs hw, hseek, fun hmap' => ?_, h.wants⟩
  have hun := hmap.symm.trans hmap'
  obtain ⟨hr, hs⟩ := hreads hun
  exact ⟨havail hun, (h.unmapped hun).2.1, hr, fun size heq => absurd heq (hs size)⟩

theorem advance_cases (f : File) (ptr n : Nat) :
    (n = 0 ∧ advance f ptr n = (f, .top ptr)) ∨
    (0 < n ∧ ptr + n = f.raBufend ∧ f.raBufend < BUFSZ_MAX ∧ advance f ptr n =
      ({ f with
          raOffset := f.raOffset + n, retries := 0, raBufend := f.raBufend + BUFSZ_STEP
          raGrowbuf := false }, .filled (ptr + n) n)) ∨
    (0 < n ∧ advance f ptr n =
      ({ f with raOffset := f.raOffset + n, retries := 0 },
        .filled (if ptr + n = f.raBufend then 0 else ptr + n) n)) := by
  unfold advance
  split
  · rename_i hn
    exact .inl ⟨hn, rfl⟩
  · rename_i hn
    have hpos : 0 < n := Nat.pos_of_ne_zero hn
    split
    · rename_i hend
      dsimp only
      split
      · rename_i hgrow
        exact .inr (.inl ⟨hpos, hend, hgrow.1, rfl⟩)
      · exact .inr (.inr ⟨hpos, rfl⟩)
    · exact .inr (.inr ⟨hpos, rfl⟩)

theorem fillFailed_cases (f : File) (ptr : Nat) :
    ∃ conn retries w, fillFailed f ptr = ({ f with connected := conn, retries := retries }, w) ∧
      (conn = f.connected ∨ conn = false) ∧ (w = .top ptr ∨ w = .exiting ptr) := by
  unfold fillFailed
  split
  · exact ⟨f.connected, f.retries, _, rfl, .inl rfl, .inr rfl⟩
  · split
    · exact ⟨false, _, _, rfl, .inr rfl, .inl rfl⟩
    · exact ⟨false, _, _, rfl, .inr rfl, .inr rfl⟩

/-- The reader goes on within a call that does not touch what the threads share. -/
theorem Control.reader_steps (h : Control ⟨f, r, w⟩) (hseek : r ≠ .seeking)
    (hstart : ∀ size, r ≠ .starting size) (hfile : g.control = f.control)
    (hreads : r'.reads = false ∨ r.reads = true) (hstart' : ∀ size, r' ≠ .starting size) :
    Control ⟨g, r', w⟩ := by
  obtain ⟨hrun, hmap, havail, hto⟩ := File.control_eq hfile
  refine h.reader_goes (h.not_starting hstart) hrun hmap (fun hm => ?_) (fun hw hne => ?_)
    fun hm => ⟨?_, hstart'⟩
  · exact havail.trans (h.unmapped hm).1
  · exact absurd (hto.trans (h.no_seek hseek hw)) hne
  · rcases hreads with hreads | hreads
    · exact hreads
    · exact absurd (hreads.symm.trans (h.unmapped hm).2.2.1) Bool.noConfusion

theorem reader_control (h : Control ⟨f, r, w⟩) (hmove : ReaderMove f w r e t o) : Control t := by
  cases hmove with
  | readNone | wait size got => exact h
  | create size hrun havail =>
    refine ⟨hrun, fun _ => ⟨⟨size, rfl⟩, havail⟩, by rintro ⟨⟩, fun hm => ?_, by rintro _ _ ⟨⟩⟩
    exact ⟨havail, rfl, rfl, fun _ _ => rfl⟩
  | begin size hsome =>
    refine h.reader_goes (h.not_starting (by rintro _ ⟨⟩)) rfl rfl (fun hm => (h.unmapped hm).1)
      (fun hw hne => absurd (h.no_seek (by rintro ⟨⟩) hw) hne) fun hm => ?_
    obtain ⟨havail, hw, -⟩ := h.unmapped hm
    exact absurd ⟨h.running.trans hw, havail⟩ hsome
  | started size hne =>
    refine h.reader_goes hne rfl rfl (fun hm => (h.unmapped hm).1)
      (fun hw hne => absurd (h.no_seek (by rintro ⟨⟩) hw) hne) fun hm => ?_
    exact absurd ((h.unmapped hm).2.2.2 size rfl) hne
  | consume size got c =>
    have hmap := h.mapped_of_reads rfl
    refine h.reader_goes (h.not_starting (by rintro _ ⟨⟩)) rfl rfl ?_
      (fun hw hne => absurd (h.no_seek (by rintro ⟨⟩) hw) hne) fun hm => ?_
    · exact fun hm => absurd (hmap.symm.trans hm) Bool.noConfusion
    · exact absurd (hmap.symm.trans hm) Bool.noConfusion
  | seekRunning offset =>
    exact h.reader_goes (h.not_starting (by rintro _ ⟨⟩)) rfl rfl (fun hm => (h.unmapped hm).1)
      (fun _ _ => rfl) fun _ => ⟨rfl, by rintro _ ⟨⟩⟩
  | seeked hnone =>
    exact h.reader_goes (h.not_starting (by rintro _ ⟨⟩)) rfl rfl (fun hm => (h.unmapped hm).1)
      (fun _ hne => absurd hnone hne) fun _ => ⟨rfl, by rintro _ ⟨⟩⟩
  | read | ended | failed | short | finish | seekNow =>
    exact h.reader_steps (by rintro ⟨⟩) (by rintro _ ⟨⟩) rfl (.inl rfl) (by rintro _ ⟨⟩)
  | pick | grow | recheck | copy =>
    exact h.reader_steps (by rintro ⟨⟩) (by rintro _ ⟨⟩) rfl (.inr rfl) (by rintro _ ⟨⟩)

theorem worker_control (h : Control ⟨f, r, w⟩) (hmove : WorkerMove content f r w e t) :
    Control t := by
  cases hmove with
  | init =>
    obtain ⟨⟨size, rfl⟩, -⟩ := h.starting rfl
    refine ⟨rfl, nofun, fun _ hne => absurd rfl hne, fun hm => ?_, nofun⟩
    have hmap : f.map.raMapped = true := by
      unfold File.map
      split
      · assumption
      · rfl
    exact absurd (hmap.symm.trans hm) Bool.noConfusion
  | abort ptr | publish ptr n => exact h.worker_goes rfl rfl rfl rfl (.inl rfl) nofun
  | chunk ptr hpos =>
    refine h.worker_goes rfl rfl rfl rfl (.inl rfl) ?_
    rintro _ _ ⟨⟩
    exact hpos
  | fill ptr n polls g out hfill =>
    obtain ⟨hrun, hmap, -, hto⟩ := File.control_eq (congrArg File.control (fillbuf_core hfill))
    obtain ⟨-, hadv⟩ | ⟨-, -, -, hadv⟩ | ⟨-, hadv⟩ :=
      advance_cases { g with raBuf := store g.raBuf ptr out } ptr out.length
    · rw [hadv]
      exact h.worker_goes rfl rfl hrun hmap (.inl hto) nofun
    · rw [hadv]
      exact h.worker_goes rfl rfl hrun hmap (.inl hto) nofun
    · rw [hadv]
      exact h.worker_goes rfl rfl hrun hmap (.inl hto) nofun
  | fillFailed ptr n polls g out hfill =>
    obtain ⟨hrun, hmap, -, hto⟩ := File.control_eq (congrArg File.control (fillbuf_core hfill))
    obtain ⟨conn, retries, w, hfail, -, rfl | rfl⟩ :=
      fillFailed_cases { g with raBuf := store g.raBuf ptr out } ptr
    · rw [hfail]
      exact h.worker_goes rfl rfl hrun hmap (.inl hto) nofun
    · rw [hfail]
      exact h.worker_goes rfl rfl hrun hmap (.inl hto) nofun
  | exit ptr polls hnone =>
    have hmap := h.mapped rfl
    refine ⟨rfl, nofun, nofun, fun hm => ?_, nofun⟩
    exact absurd (hmap.symm.trans hm) Bool.noConfusion
  | inBuffer ptr polls target => exact h.worker_goes rfl rfl rfl rfl (.inr rfl) nofun
  | short ptr polls target g out _ _ _ _ hfill | shortFailed ptr polls target g out _ _ _ _ hfill =>
    obtain ⟨hrun, hmap, -, hto⟩ := File.control_eq (congrArg File.control (fillbuf_core hfill))
    exact h.worker_goes rfl rfl hrun hmap (.inr hto) nofun
  | full ptr polls target =>
    have hrun : f.raRunning = true := h.running
    exact h.worker_goes rfl rfl hrun.symm rfl (.inr rfl) nofun

theorem step_control (h : Control s) (hstep : step content s e = some (t, o)) : Control t := by
  obtain ⟨f, r, w⟩ := s
  obtain hmove | ⟨hmove, -⟩ := step_move hstep
  · exact reader_control h hmove
  · exact worker_control h hmove

/-! ## The bytes in the readahead buffer -/

/-- The readahead buffer holds the `len` bytes of the content from offset `pos` on. -/
def Stored (content : List UInt8) (mem : Nat → UInt8) (size read len pos : Nat) : Prop :=
  ∃ xs, Holds mem size read xs ∧ xs.length = len ∧ xs <+: content.drop pos

variable {mem : Nat → UInt8} {size read len pos c : Nat} {out : List UInt8}

theorem Stored.none : Stored content mem size read 0 pos :=
  ⟨[], Holds.nil, rfl, List.nil_prefix⟩

/-- The reader copies a block. -/
theorem Stored.copy (h : Stored content mem size read len pos) (hend : read + c ≤ size)
    (hc : c ≤ len) : load mem read c <+: content.drop pos := by
  obtain ⟨xs, hholds, rfl, hxs⟩ := h
  rw [hholds.load hend hc]
  exact (List.take_prefix c xs).trans hxs

theorem Stored.drop (h : Stored content mem size read len pos) (hread : read < size)
    (hc : c ≤ len) : Stored content mem size (wrap size (read + c)) (len - c) (pos + c) := by
  obtain ⟨xs, hholds, rfl, hxs⟩ := h
  refine ⟨xs.drop c, hholds.drop hread hc, List.length_drop, ?_⟩
  rw [← List.drop_drop]
  exact drop_prefix_drop hxs hc

theorem Stored.append (h : Stored content mem size read len pos)
    (hend : wrap size (read + len) + out.length ≤ size) (hfits : len + out.length ≤ size)
    (hout : out <+: content.drop (pos + len)) :
    Stored content (store mem (wrap size (read + len)) out) size read (len + out.length) pos := by
  obtain ⟨xs, hholds, rfl, hxs⟩ := h
  refine ⟨xs ++ out, hholds.append hend hfits, List.length_append, ?_⟩
  apply prefix_append_drop hxs
  rw [List.drop_drop]
  exact hout

theorem Stored.grow (h : Stored content mem size read len pos) (hend : read + len = size)
    (more : Nat) : Stored content mem (size + more) read len pos := by
  obtain ⟨xs, hholds, rfl, hxs⟩ := h
  exact ⟨xs, hholds.grow hend more, rfl, hxs⟩

/-! ## The invariant -/

/-- The end of the readahead buffer is one of those that growing can reach. -/
def Grown (bufend : Nat) : Prop :=
  ∃ k ≤ 5, bufend = BUFSZ_START + k * BUFSZ_STEP

theorem Grown.bounds {bufend : Nat} (h : Grown bufend) : 0 < bufend ∧ bufend ≤ BUFSZ_MAX := by
  obtain ⟨k, hk, rfl⟩ := h
  simp only [BUFSZ_START, BUFSZ_STEP, BUFSZ_MAX]
  omega

theorem Grown.more {bufend : Nat} (h : Grown bufend) (hlt : bufend < BUFSZ_MAX) :
    Grown (bufend + BUFSZ_STEP) := by
  obtain ⟨k, hk, rfl⟩ := h
  simp only [BUFSZ_START, BUFSZ_STEP, BUFSZ_MAX] at hlt
  refine ⟨k + 1, by omega, ?_⟩
  simp only [BUFSZ_START, BUFSZ_STEP]
  omega

/-- The positions of the handle tie up, and the bytes in it are those at these positions. -/
structure Inv (content : List UInt8) (s : State) : Prop where
  control : Control s
  inside : s.file.raMapped = true → s.file.raPtr < s.file.raBufend
  grown : s.file.raMapped = true → Grown s.file.raBufend
  traffic : Traffic s.file.raBufend s.file.raPtr s.file.raAvail s.reader.taken s.worker.pending
    s.reader.chunk s.worker.room s.worker.write
  count : s.file.offset + s.reader.got.length + s.held = s.file.raOffset
  stored : Stored content s.file.raBuf s.file.raBufend s.file.raPtr s.held
    (s.file.offset + s.reader.got.length)
  got : s.reader.got <+: content.drop s.file.offset
  source : Source content s.file s.file.raOffset

theorem init_inv : Inv content init where
  control := init_control
  inside := nofun
  grown := nofun
  traffic := ⟨Nat.le_refl _, Nat.le_refl _, ⟨Nat.le_refl _, Nat.le_refl _⟩, Nat.le_refl _, nofun⟩
  count := rfl
  stored := Stored.none
  got := List.nil_prefix
  source := ⟨Nat.le_refl _, List.nil_prefix, rfl, rfl⟩

/-- What `Source` depends on. -/
def File.link (f : File) : Transfer × Bool × List UInt8 × Nat × Nat :=
  (f.transfer, f.connected, f.buf, f.ptr, f.bufcnt)

theorem Source.keep (h : Source content f pos) (hlink : g.link = f.link) :
    Source content g pos := by
  simp only [File.link, Prod.mk.injEq] at hlink
  obtain ⟨htransfer, hconn, hbuf, hptr, hcnt⟩ := hlink
  refine ⟨?_, ?_, ?_⟩
  · rw [hptr, hcnt, hbuf]
    exact h.room
  · rw [hptr, hcnt, hbuf]
    exact h.left
  · have hnext := h.next
    unfold File.Next at hnext ⊢
    rw [htransfer, hconn, hcnt]
    exact hnext

/-- A worker that does not run has nothing in its hands. -/
theorem Worker.idle_of_stopped (hw : w.running = false) :
    w.pending = 0 ∧ w.room = 0 ∧ w.write = Option.none := by
  cases w <;> first | exact ⟨rfl, rfl, rfl⟩ | cases hw

theorem readChunk_bounds (f : File) (size : Nat) (got : List UInt8) (hin : f.raPtr < f.raBufend) :
    f.readChunk size got ≤ f.raAvail ∧ f.raPtr + f.readChunk size got ≤ f.raBufend := by
  unfold File.readChunk
  omega

theorem Inv.copy {got : List UInt8} (h : Inv content ⟨f, .copying size got c, w⟩)
    (hcontrol : Control (copyRead ⟨f, .copying size got c, w⟩ size got c)) :
    Inv content (copyRead ⟨f, .copying size got c, w⟩ size got c) := by
  have hmap := h.control.mapped_of_reads rfl
  have hin : f.raPtr < f.raBufend := h.inside hmap
  have hblock : c ≤ f.raAvail ∧ f.raPtr + c ≤ f.raBufend := h.traffic.block
  have hptr : (if f.raPtr + c = f.raBufend then 0 else f.raPtr + c) =
      wrap f.raBufend (f.raPtr + c) := by
    unfold wrap
    split_ifs <;> omega
  have hheld : f.raAvail - 0 + w.pending - c = f.raAvail - c + w.pending := by omega
  have hcount : f.offset + got.length + (f.raAvail - 0 + w.pending) = f.raOffset := h.count
  have hload := h.stored.copy hblock.2 (show c ≤ f.raAvail - 0 + w.pending by omega)
  have hdrop := h.stored.drop hin (show c ≤ f.raAvail - 0 + w.pending by omega)
  have hlen : (got ++ load f.raBuf f.raPtr c).length = got.length + c := by
    rw [List.length_append, length_load]
  refine ⟨hcontrol, fun _ => ?_, h.grown, ?_, ?_, ?_, ?_, h.source.keep rfl⟩
  · show (if f.raPtr + c = f.raBufend then 0 else f.raPtr + c) < f.raBufend
    rw [hptr]
    exact wrap_lt (by omega)
  · show Traffic f.raBufend (if f.raPtr + c = f.raBufend then 0 else f.raPtr + c) f.raAvail c
      w.pending 0 w.room w.write
    rw [hptr]
    exact h.traffic.copy hin
  · show f.offset + (got ++ load f.raBuf f.raPtr c).length + (f.raAvail - c + w.pending) =
      f.raOffset
    rw [hlen]
    omega
  · show Stored content f.raBuf f.raBufend (if f.raPtr + c = f.raBufend then 0 else f.raPtr + c)
      (f.raAvail - c + w.pending) (f.offset + (got ++ load f.raBuf f.raPtr c).length)
    rw [hptr, hlen, ← hheld, ← Nat.add_assoc]
    exact hdrop
  · apply prefix_append_drop h.got
    rw [List.drop_drop]
    exact hload

theorem Inv.consume {got : List UInt8} (h : Inv content ⟨f, .copied size got c, w⟩)
    (hcontrol : Control (consumeRead ⟨f, .copied size got c, w⟩ size got c)) :
    Inv content (consumeRead ⟨f, .copied size got c, w⟩ size got c) := by
  have howed : c ≤ f.raAvail := h.traffic.owed
  have hsub : sub64 f.raAvail c = f.raAvail - c := sub64_of_le howed
  have heq : consumeRead ⟨f, .copied size got c, w⟩ size got c =
      ⟨{ f with raAvail := f.raAvail - c, raWants := sub64 f.raWants c }, .reading size got,
        w⟩ := by
    simp only [consumeRead, hsub]
  rw [heq] at hcontrol ⊢
  exact ⟨hcontrol, h.inside, h.grown, h.traffic.consume, h.count, h.stored, h.got,
    h.source.keep rfl⟩

theorem Inv.seekNow {offset : Nat} (h : Inv content ⟨f, .idle, w⟩)
    (hcontrol : Control ⟨doseek f offset, .idle, w⟩) (hrun : f.raRunning = false)
    (havail : f.raAvail = 0) : Inv content ⟨doseek f offset, .idle, w⟩ := by
  have hpending : w.pending = 0 :=
    (Worker.idle_of_stopped (h.control.running.symm.trans hrun)).1
  have hheld : f.raAvail - 0 + w.pending = 0 := by omega
  refine ⟨hcontrol, h.inside, h.grown, h.traffic, ?_, ?_, List.nil_prefix, source_doseek _ _ _⟩
  · show offset + 0 + (f.raAvail - 0 + w.pending) = offset
    omega
  · show Stored content f.raBuf f.raBufend f.raPtr (f.raAvail - 0 + w.pending) (offset + 0)
    rw [hheld]
    exact Stored.none

/-- What a step of the reader must meet: a seek without a worker finds an empty buffer. -/
def readerSound (f : File) : Event → Bool
  | .seek _ => f.raRunning || f.raAvail == 0
  | _ => true

theorem reader_inv (h : Inv content ⟨f, r, w⟩) (hsound : readerSound f e = true)
    (hmove : ReaderMove f w r e t o) : Inv content t := by
  have hcontrol := reader_control h.control hmove
  cases hmove with
  | readNone | wait size got => exact h
  | read size | begin size hsome | started size hne | ended size | failed size | grow size got
  | recheck size got | seekRunning offset | seeked hnone =>
    exact ⟨hcontrol, h.inside, h.grown, h.traffic, h.count, h.stored, h.got, h.source.keep rfl⟩
  | create size hrun havail =>
    obtain ⟨hpending, hroom, hwrite⟩ :=
      Worker.idle_of_stopped (h.control.running.symm.trans hrun)
    have htraffic := h.traffic
    have hcount := h.count
    have hstored := h.stored
    simp only [State.held, hpending, hroom, hwrite] at htraffic hcount hstored
    exact ⟨hcontrol, h.inside, h.grown, htraffic, hcount, hstored, h.got, h.source.keep rfl⟩
  | pick size got =>
    obtain ⟨havail, hend⟩ := readChunk_bounds f size got
      (h.inside (h.control.mapped_of_reads rfl))
    exact ⟨hcontrol, h.inside, h.grown, h.traffic.pick havail hend, h.count, h.stored, h.got,
      h.source.keep rfl⟩
  | short size got | finish size got =>
    exact ⟨hcontrol, h.inside, h.grown, h.traffic, h.count, h.stored, List.nil_prefix,
      h.source.keep rfl⟩
  | copy size got c => exact h.copy hcontrol
  | consume size got c => exact h.consume hcontrol
  | seekNow offset hrun =>
    have havail : f.raAvail = 0 := by
      simpa [readerSound, hrun] using hsound
    exact h.seekNow hcontrol hrun havail

/-- `READAHEAD_INIT` by a new worker. -/
theorem Inv.start (h : Inv content ⟨f, r, .starting⟩)
    (hcontrol : Control ⟨readaheadInit f.map, r, .top 0⟩) :
    Inv content ⟨readaheadInit f.map, r, .top 0⟩ := by
  obtain ⟨⟨size, hr⟩, havail⟩ := h.control.starting rfl
  have hr : r = .starting size := hr
  have havail : f.raAvail = 0 := havail
  subst hr
  have hgrown : Grown f.map.raBufend := by
    unfold File.map
    split
    · rename_i hmap
      exact h.grown hmap
    · exact ⟨0, Nat.zero_le _, rfl⟩
  have hlink : f.map.link = f.link := by
    unfold File.map
    split <;> rfl
  have hoffset : f.map.offset = f.offset ∧ f.map.raOffset = f.raOffset := by
    unfold File.map
    split <;> exact ⟨rfl, rfl⟩
  have hcount : f.offset + 0 + (f.raAvail - 0 + 0) = f.raOffset := h.count
  refine ⟨hcontrol, fun _ => hgrown.bounds.1, fun _ => hgrown, Traffic.start hgrown.bounds.1, ?_,
    Stored.none, List.nil_prefix, ?_⟩
  · show f.map.offset + 0 + (0 - 0 + 0) = f.map.raOffset
    omega
  · show Source content (readaheadInit f.map) f.map.raOffset
    rw [hoffset.2]
    exact h.source.keep hlink

theorem Inv.reserve (h : Inv content ⟨f, r, .top ptr⟩)
    (hcontrol : Control ⟨f, r, .filling ptr (f.fillChunk ptr)⟩) :
    Inv content ⟨f, r, .filling ptr (f.fillChunk ptr)⟩ := by
  have hchunk : f.fillChunk ptr ≤ f.raBufend - ptr ∧ f.fillChunk ptr ≤ f.raBufend - f.raAvail := by
    unfold File.fillChunk
    dsimp only
    split <;> omega
  have hend : ptr + 0 ≤ f.raBufend := (h.traffic.tail ptr rfl).1
  have hspace : f.raAvail + 0 ≤ f.raBufend := h.traffic.space
  have hroom : f.raAvail + f.fillChunk ptr ≤ f.raBufend ∧ ptr + f.fillChunk ptr ≤ f.raBufend := by
    omega
  exact ⟨hcontrol, h.inside, h.grown, h.traffic.reserve hroom.1 hroom.2, h.count, h.stored, h.got,
    h.source.keep rfl⟩

/-- What a call of `avbox_httpstream_fillbuf` leaves alone. -/
theorem fillbuf_fields {polls : List Poll} {ok : Bool}
    (hfill : fillbuf content f n polls = some (g, out, ok)) :
    g.raMapped = f.raMapped ∧ g.raPtr = f.raPtr ∧ g.raBufend = f.raBufend ∧
      g.raAvail = f.raAvail ∧ g.raBuf = f.raBuf ∧ g.offset = f.offset ∧
      g.raOffset = f.raOffset := by
  have hcore := fillbuf_core hfill
  exact ⟨(congrArg File.raMapped hcore :), (congrArg File.raPtr hcore :),
    (congrArg File.raBufend hcore :), (congrArg File.raAvail hcore :),
    (congrArg File.raBuf hcore :), (congrArg File.offset hcore :),
    (congrArg File.raOffset hcore :)⟩

/-- The worker after `avbox_httpstream_fillbuf` has put `out` at its write pointer. -/
structure Filled (content : List UInt8) (g : File) (r : Reader) (ptr n : Nat) (out : List UInt8) :
    Prop where
  inside : g.raPtr < g.raBufend
  grown : Grown g.raBufend
  traffic : Traffic g.raBufend g.raPtr g.raAvail r.taken 0 r.chunk n (some ptr)
  few : out.length ≤ n
  count : g.offset + r.got.length + (g.raAvail - r.taken) = g.raOffset
  stored : Stored content (store g.raBuf ptr out) g.raBufend g.raPtr
    (g.raAvail - r.taken + out.length) (g.offset + r.got.length)
  got : r.got <+: content.drop g.offset
  source : Source content g (g.raOffset + out.length)

theorem Inv.filled {polls : List Poll} {ok : Bool} (h : Inv content ⟨f, r, .filling ptr n⟩)
    (hfill : fillbuf content f n polls = some (g, out, ok)) : Filled content g r ptr n out := by
  obtain ⟨hmap, hptr, hend, havail, hbuf, hoff, hraoff⟩ := fillbuf_fields hfill
  have hlen := fillbuf_length hfill
  obtain ⟨hsource, hout⟩ := fillbuf_source h.source (h.control.wants ptr n rfl) hfill
  have hmapped := h.control.mapped rfl
  have hcount : f.offset + r.got.length + (f.raAvail - r.taken) = f.raOffset := h.count
  have hstored : Stored content f.raBuf f.raBufend f.raPtr (f.raAvail - r.taken)
    (f.offset + r.got.length) := h.stored
  have htail : ptr + n ≤ f.raBufend ∧ ptr = wrap f.raBufend (f.raPtr + (f.raAvail - r.taken)) :=
    h.traffic.tail ptr rfl
  have hspace : f.raAvail + n ≤ f.raBufend := h.traffic.space
  refine ⟨?_, ?_, ?_, hlen, ?_, ?_, ?_, ?_⟩
  · rw [hptr, hend]
    exact h.inside hmapped
  · rw [hend]
    exact h.grown hmapped
  · rw [hptr, hend, havail]
    exact h.traffic
  · rw [hoff, havail, hraoff]
    exact hcount
  · rw [hbuf, hend, hptr, havail, hoff]
    have hroom : wrap f.raBufend (f.raPtr + (f.raAvail - r.taken)) + out.length ≤ f.raBufend := by
      rw [← htail.2]
      omega
    have happend := hstored.append hroom (by omega) (by rw [hcount]; exact hout)
    rw [← htail.2] at happend
    exact happend
  · rw [hoff]
    exact h.got
  · rw [hraoff]
    exact hsource

/-- The worker moves its write pointer. -/
theorem Filled.advance (h : Filled content g r ptr n out)
    (hcontrol : Control
      ⟨(HttpStream.advance { g with raBuf := store g.raBuf ptr out } ptr out.length).1, r,
      (HttpStream.advance { g with raBuf := store g.raBuf ptr out } ptr out.length).2⟩) :
    Inv content ⟨(HttpStream.advance { g with raBuf := store g.raBuf ptr out } ptr out.length).1, r,
      (HttpStream.advance { g with raBuf := store g.raBuf ptr out } ptr out.length).2⟩ := by
  have hcount := h.count
  obtain ⟨hzero, hadv⟩ | ⟨hpos, hend, hlt, hadv⟩ | ⟨hpos, hadv⟩ :=
    advance_cases { g with raBuf := store g.raBuf ptr out } ptr out.length
  · rw [hadv] at hcontrol ⊢
    have hstored := h.stored
    have hsource := h.source
    rw [hzero] at hstored hsource
    exact ⟨hcontrol, fun _ => h.inside, fun _ => h.grown, h.traffic.release, hcount, hstored, h.got,
      hsource.keep rfl⟩
  · rw [hadv] at hcontrol ⊢
    have hcont := h.traffic.contiguous h.inside h.few hend
    refine ⟨hcontrol, fun _ => ?_, fun _ => h.grown.more hlt,
      h.traffic.grow h.inside h.few hend (by decide), ?_, h.stored.grow hcont _, h.got,
      h.source.keep rfl⟩
    · exact Nat.lt_add_right _ h.inside
    · show g.offset + r.got.length + (g.raAvail - r.taken + out.length) = g.raOffset + out.length
      omega
  · rw [hadv] at hcontrol ⊢
    have hptr : (if ptr + out.length = g.raBufend then 0 else ptr + out.length) =
        wrap g.raBufend (ptr + out.length) := by
      have hroom := (h.traffic.tail ptr rfl).1
      have hfew := h.few
      unfold wrap
      split_ifs <;> omega
    refine ⟨hcontrol, fun _ => h.inside, fun _ => h.grown, ?_, ?_, h.stored, h.got,
      h.source.keep rfl⟩
    · show Traffic g.raBufend g.raPtr g.raAvail r.taken out.length r.chunk 0
        (some (if ptr + out.length = g.raBufend then 0 else ptr + out.length))
      rw [hptr]
      exact h.traffic.advance h.inside h.few
    · show g.offset + r.got.length + (g.raAvail - r.taken + out.length) = g.raOffset + out.length
      omega

theorem Filled.failed {conn : Bool} {retries : Nat} (h : Filled content g r ptr n out)
    (hout : out = []) (hconn : conn = g.connected ∨ conn = false)
    (hw : w = .top ptr ∨ w = .exiting ptr)
    (hcontrol : Control ⟨{ g with
      raBuf := store g.raBuf ptr out, connected := conn, retries := retries }, r, w⟩) :
    Inv content ⟨{ g with
      raBuf := store g.raBuf ptr out, connected := conn, retries := retries }, r, w⟩ := by
  subst hout
  have hsource : Source content { g with connected := conn } g.raOffset := by
    refine ⟨h.source.room, h.source.left, ?_⟩
    have hnext := h.source.next
    unfold File.Next at hnext ⊢
    cases htransfer : g.transfer with
    | fresh =>
      simp only [htransfer] at hnext ⊢
      rcases hconn with hsame | hoff
      · exact ⟨hsame.trans hnext.1, hnext.2⟩
      · exact ⟨hoff, hnext.2⟩
    | active p | done p | gone => simpa [htransfer] using hnext
  rcases hw with rfl | rfl
  · exact ⟨hcontrol, fun _ => h.inside, fun _ => h.grown, h.traffic.release, h.count, h.stored,
      h.got, hsource.keep rfl⟩
  · exact ⟨hcontrol, fun _ => h.inside, fun _ => h.grown, h.traffic.release, h.count, h.stored,
      h.got, hsource.keep rfl⟩

theorem Inv.publish (h : Inv content ⟨f, r, .filled ptr n⟩)
    (hcontrol : Control ⟨{ f with raAvail := f.raAvail + n }, r, .top ptr⟩) :
    Inv content ⟨{ f with raAvail := f.raAvail + n }, r, .top ptr⟩ := by
  have howed : r.taken ≤ f.raAvail := h.traffic.owed
  have hheld : f.raAvail + n - r.taken + 0 = f.raAvail - r.taken + n := by omega
  refine ⟨hcontrol, h.inside, h.grown, h.traffic.publish, ?_, ?_, h.got, h.source.keep rfl⟩
  · show f.offset + r.got.length + (f.raAvail + n - r.taken + 0) = f.raOffset
    rw [hheld]
    exact h.count
  · show Stored content f.raBuf f.raBufend f.raPtr (f.raAvail + n - r.taken + 0)
      (f.offset + r.got.length)
    rw [hheld]
    exact h.stored

theorem Inv.inBuffer {target : Nat} (h : Inv content ⟨f, .seeking, .exiting ptr⟩)
    (hlo : f.offset < target) (hhi : target ≤ f.raOffset)
    (hcontrol : Control ⟨inBufferSeek f target, .seeking, .top ptr⟩) :
    Inv content ⟨inBufferSeek f target, .seeking, .top ptr⟩ := by
  have hin : f.raPtr < f.raBufend := h.inside (h.control.mapped rfl)
  have hcount : f.offset + 0 + (f.raAvail - 0 + 0) = f.raOffset := h.count
  have hskip : target - f.offset ≤ f.raAvail := by omega
  have hsub : sub64 f.raAvail (target - f.offset) = f.raAvail - (target - f.offset) :=
    sub64_of_le hskip
  have hptr : (if f.raBufend ≤ f.raPtr + (target - f.offset) then
      f.raPtr + (target - f.offset) - f.raBufend else f.raPtr + (target - f.offset)) =
      wrap f.raBufend (f.raPtr + (target - f.offset)) := by
    unfold wrap
    split_ifs <;> omega
  have heq : inBufferSeek f target =
      { f with
        raPtr := wrap f.raBufend (f.raPtr + (target - f.offset))
        raAvail := f.raAvail - (target - f.offset)
        offset := target, raSeekto := none, raAbort := false } := by
    simp only [inBufferSeek, hsub, hptr]
  rw [heq] at hcontrol ⊢
  have hfits : f.raAvail + 0 ≤ f.raBufend := h.traffic.fits
  have htarget : f.offset + 0 + (target - f.offset) = target := by omega
  have hdrop : Stored content f.raBuf f.raBufend (wrap f.raBufend (f.raPtr + (target - f.offset)))
      (f.raAvail - (target - f.offset)) (f.offset + 0 + (target - f.offset)) :=
    h.stored.drop hin hskip
  rw [htarget] at hdrop
  refine ⟨hcontrol, fun _ => wrap_lt ?_, h.grown, h.traffic.skip hin hskip, ?_, hdrop,
    List.nil_prefix, h.source.keep rfl⟩
  · show f.raPtr + (target - f.offset) < 2 * f.raBufend
    omega
  · show target + 0 + (f.raAvail - (target - f.offset) - 0 + 0) = f.raOffset
    omega

theorem Inv.short {target : Nat} {polls : List Poll}
    (h : Inv content ⟨f, .seeking, .exiting ptr⟩) (hlt : f.raOffset < target)
    (hfill : fillbuf content (shortSeek f target) (target - f.raOffset) polls =
      some (g, out, true))
    (hall : out.length = target - f.raOffset)
    (hcontrol : Control ⟨{ g with raOffset := g.raOffset + out.length }, .seeking, .top 0⟩) :
    Inv content ⟨{ g with raOffset := g.raOffset + out.length }, .seeking, .top 0⟩ := by
  obtain ⟨hmap, hptr, hend, havail, hbuf, hoff, hraoff⟩ := fillbuf_fields hfill
  have hsrc : Source content (shortSeek f target) (shortSeek f target).raOffset :=
    h.source.keep rfl
  obtain ⟨hsource, -⟩ := fillbuf_source hsrc (show 0 < target - f.raOffset by omega) hfill
  have hgrown : Grown g.raBufend := by
    rw [hend]
    exact h.grown (h.control.mapped rfl)
  have hptr : g.raPtr = 0 := hptr
  have havail : g.raAvail = 0 := havail
  have hoff : g.offset = target := hoff
  have hraoff : g.raOffset = f.raOffset := hraoff
  have hheld : g.raAvail - 0 + 0 = 0 := by omega
  refine ⟨hcontrol, fun _ => ?_, fun _ => hgrown, ?_, ?_, ?_, List.nil_prefix, ?_⟩
  · show g.raPtr < g.raBufend
    rw [hptr]
    exact hgrown.bounds.1
  · show Traffic g.raBufend g.raPtr g.raAvail 0 0 0 0 (some 0)
    rw [hptr, havail]
    exact Traffic.start hgrown.bounds.1
  · show g.offset + 0 + (g.raAvail - 0 + 0) = g.raOffset + out.length
    omega
  · show Stored content g.raBuf g.raBufend g.raPtr (g.raAvail - 0 + 0) (g.offset + 0)
    rw [hheld]
    exact Stored.none
  · show Source content { g with raOffset := g.raOffset + out.length } (g.raOffset + out.length)
    rw [hraoff]
    exact hsource.keep rfl

theorem Inv.full {target : Nat} (h : Inv content ⟨f, .seeking, .exiting ptr⟩)
    (hcontrol : Control ⟨readaheadInit (doseek f target), .seeking, .top 0⟩) :
    Inv content ⟨readaheadInit (doseek f target), .seeking, .top 0⟩ := by
  have hgrown := h.grown (h.control.mapped rfl)
  exact ⟨hcontrol, fun _ => hgrown.bounds.1, fun _ => hgrown, Traffic.start hgrown.bounds.1, rfl,
    Stored.none, List.nil_prefix, (source_doseek content f target).keep rfl⟩

/-! ## The steps that keep it -/

/-- The offset of a short seek that the worker at `THREAD_EXIT` is about to do. -/
def File.shortTarget (f : File) : Option Nat :=
  match f.raSeekto with
  | none => none
  | some target =>
    if f.offset < target ∧ f.raOffset < target ∧ target - f.raOffset < FSEEK_MAX then some target
    else none

/-- The call got all the bytes it asked for. -/
def gotAll (size : Nat) : Option (File × List UInt8 × Bool) → Bool
  | some (_, out, ok) => ok && out.length == size
  | none => true

/-- The call did not fail with bytes in its hands. -/
def lostNone : Option (File × List UInt8 × Bool) → Bool
  | some (_, out, ok) => ok || out.isEmpty
  | none => true

/-- What a step of the worker must meet. -/
def workerSound (content : List UInt8) (s : State) : Event → Bool
  | .workerFill polls => match s.worker with
    | .filling _ n => lostNone (fillbuf content s.file n polls)
    | _ => true
  | .workerExit polls => match s.file.shortTarget with
    | some target =>
      gotAll (target - s.file.raOffset)
        (fillbuf content (shortSeek s.file target) (target - s.file.raOffset) polls)
    | none => true
  | _ => true

/-- **The condition**: a seek without a worker finds no bytes in the readahead buffer, no call of
    `avbox_httpstream_fillbuf` fails with bytes in its hands, and the skip of a short seek gets all
    its bytes. -/
def sound (content : List UInt8) (s : State) (e : Event) : Bool :=
  readerSound s.file e && workerSound content s e

theorem shortTarget_eq {target : Nat} (hseek : f.raSeekto = some target) (hlo : f.offset < target)
    (hhi : f.raOffset < target) (hnear : target - f.raOffset < FSEEK_MAX) :
    f.shortTarget = some target := by
  simp only [File.shortTarget, hseek]
  exact if_pos ⟨hlo, hhi, hnear⟩

theorem worker_inv (h : Inv content ⟨f, r, w⟩) (hsound : workerSound content ⟨f, r, w⟩ e = true)
    (hmove : WorkerMove content f r w e t) : Inv content t := by
  have hcontrol := worker_control h.control hmove
  cases hmove with
  | init => exact h.start hcontrol
  | abort ptr =>
    exact ⟨hcontrol, h.inside, h.grown, h.traffic, h.count, h.stored, h.got, h.source.keep rfl⟩
  | chunk ptr hpos => exact h.reserve hcontrol
  | fill ptr n polls g out hfill => exact (h.filled hfill).advance hcontrol
  | fillFailed ptr n polls g out hfill =>
    have hout : out = [] := by
      simpa [workerSound, lostNone, hfill] using hsound
    obtain ⟨conn, retries, w', hfail, hconn, hw⟩ :=
      fillFailed_cases { g with raBuf := store g.raBuf ptr out } ptr
    rw [hfail] at hcontrol ⊢
    exact (h.filled hfill).failed hout hconn hw hcontrol
  | publish ptr n => exact h.publish hcontrol
  | exit ptr polls hnone =>
    exact ⟨hcontrol, h.inside, h.grown, h.traffic.stop, h.count, h.stored, h.got,
      h.source.keep rfl⟩
  | inBuffer ptr polls target hseek hlo hhi =>
    have hr : r = .seeking := h.control.asked rfl (by rw [hseek]; exact nofun)
    subst hr
    exact h.inBuffer hlo hhi hcontrol
  | short ptr polls target g out hseek hlo hhi hnear hfill =>
    have hr : r = .seeking := h.control.asked rfl (by rw [hseek]; exact nofun)
    subst hr
    have hall : out.length = target - f.raOffset := by
      simpa [workerSound, gotAll, shortTarget_eq hseek hlo hhi hnear, hfill] using hsound
    exact h.short hhi hfill hall hcontrol
  | shortFailed ptr polls target g out hseek hlo hhi hnear hfill =>
    simp [workerSound, gotAll, shortTarget_eq hseek hlo hhi hnear, hfill] at hsound
  | full ptr polls target hseek =>
    have hr : r = .seeking := h.control.asked rfl (by rw [hseek]; exact nofun)
    subst hr
    exact h.full hcontrol

theorem step_inv (h : Inv content s) (hsound : sound content s e = true)
    (hstep : step content s e = some (t, o)) : Inv content t := by
  obtain ⟨f, r, w⟩ := s
  obtain ⟨hreader, hworker⟩ := (Bool.and_eq_true _ _).mp hsound
  obtain hmove | ⟨hmove, -⟩ := step_move hstep
  · exact reader_inv h hreader hmove
  · exact worker_inv h hworker hmove

variable {tr : List (Event × Output)}

theorem run_inv (h : Run (Guarded (step content) fun s e => sound content s e = true) init tr s) :
    Inv content s := by
  refine Run.invariant init_inv (fun t a u ht hstep => ?_) h
  exact step_inv ht hstep.1 hstep.2

/-- What a call of `avbox_httpstream_read` returns was there before its last step. -/
theorem returned_got {bs : List UInt8} (hmove : ReaderMove f w r e t (.returned bs)) :
    bs = r.got := by
  cases hmove <;> rfl

/-- No operation is in progress: no call of the reader, and no bytes in the hands of the worker. -/
def AtRest (s : State) : Prop :=
  s.reader = .idle ∧ s.worker.pending = 0

/-- **The positions of a stream**: in every run in which the condition is met, however few bytes
    each call of `avbox_httpstream_fillbuf` returns and whether it fails, `offset + ra_avail` is
    `ra_offset` whenever no operation is in progress, and the bytes that the next return from
    `avbox_httpstream_read` hands over are those of the content at `file->offset`. -/
theorem positions_consistent
    (h : Run (Guarded (step content) fun s e => sound content s e = true) init tr s) :
    (AtRest s → s.file.offset + s.file.raAvail = s.file.raOffset) ∧
      ∀ e bs t, step content s e = some (t, .returned bs) →
        bs = (content.drop s.file.offset).take bs.length := by
  have hinv := run_inv h
  constructor
  · rintro ⟨hreader, hpending⟩
    have hcount := hinv.count
    simp only [State.held, hreader, hpending] at hcount
    exact hcount
  · intro e bs t hstep
    obtain ⟨f, r, w⟩ := s
    obtain hmove | ⟨-, hquiet⟩ := step_move hstep
    · rw [returned_got hmove]
      exact List.prefix_iff_eq_take.mp hinv.got
    · cases hquiet

/-- A small remote file. -/
def sixBytes : List UInt8 := [10, 11, 12, 13, 14, 15]

/-- The transfer breaks off behind the third byte, and the worker gives up after its retries: the
    byte that was read ahead is still counted. -/
theorem positions_consistent_after_error : ∃ tr s,
    Run (Guarded (step sixBytes) fun s e => sound sixBytes s e = true) init tr s ∧
      AtRest s ∧ s.worker = .none ∧ s.file.raAvail = 1 ∧
      s.file.offset + s.file.raAvail = s.file.raOffset := by
  have hrun : Run (Guarded (step sixBytes) fun s e => sound sixBytes s e = true) init _ _ :=
    run_of_guarded_exec [.read 2, .begin, .workerInit, .started, .workerChunk,
      .workerFill [.perform ⟨[3], none⟩], .workerPublish, .workerChunk,
      .workerFill [.perform ⟨[], some .other⟩], .workerPublish, .workerChunk,
      .workerFill [.perform ⟨[], none⟩], .workerChunk, .workerFill [.failed], .workerChunk,
      .workerFill [.failed], .workerChunk, .workerFill [.failed], .workerChunk,
      .workerFill [.failed], .workerExit [], .chunk, .copy, .consume, .finish] rfl
  exact ⟨_, _, hrun, ⟨rfl, rfl⟩, rfl, rfl, (positions_consistent hrun).1 ⟨rfl, rfl⟩⟩

/-- A short seek from 2 to 5 whose skip gets one byte of three: the handle stands at offset 5, and
    the next byte that arrives is the one at offset 3. -/
theorem short_seek_falls_short :
    ¬∀ (content : List UInt8) (tr : List (Event × Output)) (s : State),
      Run (Step (step content)) init tr s → AtRest s →
        s.file.offset + s.file.raAvail = s.file.raOffset := by
  intro hclaim
  have hrest := hclaim sixBytes _ _ (run_of_exec [.read 2, .begin, .workerInit, .started,
    .workerChunk, .workerFill [.perform ⟨[2], none⟩], .workerPublish, .chunk, .copy, .consume,
    .finish, .seek 5, .workerAbort, .workerExit [.perform ⟨[1], some .other⟩], .seeked] rfl)
    ⟨rfl, rfl⟩
  exact absurd hrest (by decide)

end Mediabox.HttpStream
