import Mediabox.HttpFill

/-!
# The steps of an HTTP stream, one by one

`step` as a relation with one constructor for each branch that the two threads can take, so that
each invariant is proved by cases on what happened and not on the code.
-/

set_option autoImplicit false

namespace Mediabox.HttpStream

open Ring

/-- What the reader does. -/
inductive ReaderMove (f : File) (w : Worker) : Reader → Event → State → Output → Prop where
  | readNone : ReaderMove f w .idle (.read 0) ⟨f, .idle, w⟩ (.returned [])
  | read (size : Nat) :
      ReaderMove f w .idle (.read size)
        ⟨{ f with raWants := min size (2 ^ 63 - 1) }, .wanting (min size (2 ^ 63 - 1)), w⟩ .quiet
  | create (size : Nat) : f.raRunning = false → f.raAvail = 0 →
      ReaderMove f w (.wanting size) .begin ⟨f, .starting size, .starting⟩ .quiet
  | begin (size : Nat) : ¬ (f.raRunning = false ∧ f.raAvail = 0) →
      ReaderMove f w (.wanting size) .begin ⟨f, .reading size [], w⟩ .quiet
  | started (size : Nat) : w ≠ .starting →
      ReaderMove f w (.starting size) .started ⟨f, .reading size [], w⟩ .quiet
  | pick (size : Nat) (got : List UInt8) (e : Event) : e = .chunk ∨ e = .check →
      ReaderMove f w (.reading size got) e ⟨f, .copying size got (f.readChunk size got), w⟩ .quiet
  | ended (size : Nat) : f.raRunning = false →
      ReaderMove f w (.reading size []) .check ⟨{ f with eof := true }, .idle, w⟩ (.returned [])
  | failed (size : Nat) : f.raRunning = false →
      ReaderMove f w (.reading size []) .check ⟨f, .idle, w⟩ .failed
  | short (size : Nat) (got : List UInt8) : f.raRunning = false →
      ReaderMove f w (.reading size got) .check
        ⟨{ f with offset := f.offset + got.length }, .idle, w⟩ (.returned got)
  | wait (size : Nat) (got : List UInt8) :
      ReaderMove f w (.reading size got) .check ⟨f, .reading size got, w⟩ .quiet
  | grow (size : Nat) (got : List UInt8) :
      ReaderMove f w (.reading size got) .check
        ⟨{ f with raGrowbuf := true }, .full size got, w⟩ .quiet
  | recheck (size : Nat) (got : List UInt8) :
      ReaderMove f w (.full size got) .recheck ⟨f, .reading size got, w⟩ .quiet
  | copy (size : Nat) (got : List UInt8) (c : Nat) :
      ReaderMove f w (.copying size got c) .copy
        (copyRead ⟨f, .copying size got c, w⟩ size got c) .quiet
  | consume (size : Nat) (got : List UInt8) (c : Nat) :
      ReaderMove f w (.copied size got c) .consume
        (consumeRead ⟨f, .copied size got c, w⟩ size got c) .quiet
  | finish (size : Nat) (got : List UInt8) :
      ReaderMove f w (.reading size got) .finish
        (finishRead ⟨f, .reading size got, w⟩ got) (.returned got)
  | seekRunning (offset : Nat) : f.raRunning = true →
      ReaderMove f w .idle (.seek offset)
        ⟨{ f with raAbort := true, raSeekto := some offset }, .seeking, w⟩ .quiet
  | seekNow (offset : Nat) : f.raRunning = false →
      ReaderMove f w .idle (.seek offset) ⟨doseek f offset, .idle, w⟩ .quiet
  | seeked : f.raSeekto = none → ReaderMove f w .seeking .seeked ⟨f, .idle, w⟩ .quiet

/-- What the worker does. -/
inductive WorkerMove (content : List UInt8) (f : File) (r : Reader) :
    Worker → Event → State → Prop where
  | init : WorkerMove content f r .starting .workerInit ⟨readaheadInit f.map, r, .top 0⟩
  | abort (ptr : Nat) : WorkerMove content f r (.top ptr) .workerAbort ⟨f, r, .exiting ptr⟩
  | chunk (ptr : Nat) : 0 < f.fillChunk ptr →
      WorkerMove content f r (.top ptr) .workerChunk ⟨f, r, .filling ptr (f.fillChunk ptr)⟩
  | fill (ptr n : Nat) (polls : List Poll) (g : File) (out : List UInt8) :
      fillbuf content f n polls = some (g, out, true) →
      WorkerMove content f r (.filling ptr n) (.workerFill polls)
        ⟨(advance { g with raBuf := store g.raBuf ptr out } ptr out.length).1, r,
          (advance { g with raBuf := store g.raBuf ptr out } ptr out.length).2⟩
  | fillFailed (ptr n : Nat) (polls : List Poll) (g : File) (out : List UInt8) :
      fillbuf content f n polls = some (g, out, false) →
      WorkerMove content f r (.filling ptr n) (.workerFill polls)
        ⟨(fillFailed { g with raBuf := store g.raBuf ptr out } ptr).1, r,
          (fillFailed { g with raBuf := store g.raBuf ptr out } ptr).2⟩
  | publish (ptr n : Nat) :
      WorkerMove content f r (.filled ptr n) .workerPublish
        ⟨{ f with raAvail := f.raAvail + n }, r, .top ptr⟩
  | exit (ptr : Nat) (polls : List Poll) : f.raSeekto = none →
      WorkerMove content f r (.exiting ptr) (.workerExit polls)
        ⟨{ f with raAbort := false, raRunning := false, raReads := 0 }, r, .none⟩
  | inBuffer (ptr : Nat) (polls : List Poll) (target : Nat) : f.raSeekto = some target →
      f.offset < target → target ≤ f.raOffset →
      WorkerMove content f r (.exiting ptr) (.workerExit polls)
        ⟨inBufferSeek f target, r, .top ptr⟩
  | short (ptr : Nat) (polls : List Poll) (target : Nat) (g : File) (out : List UInt8) :
      f.raSeekto = some target → f.offset < target → f.raOffset < target →
      target - f.raOffset < FSEEK_MAX →
      fillbuf content (shortSeek f target) (target - f.raOffset) polls = some (g, out, true) →
      WorkerMove content f r (.exiting ptr) (.workerExit polls)
        ⟨{ g with raOffset := g.raOffset + out.length }, r, .top 0⟩
  | shortFailed (ptr : Nat) (polls : List Poll) (target : Nat) (g : File) (out : List UInt8) :
      f.raSeekto = some target → f.offset < target → f.raOffset < target →
      target - f.raOffset < FSEEK_MAX →
      fillbuf content (shortSeek f target) (target - f.raOffset) polls = some (g, out, false) →
      WorkerMove content f r (.exiting ptr) (.workerExit polls) ⟨g, r, .exiting 0⟩
  | full (ptr : Nat) (polls : List Poll) (target : Nat) : f.raSeekto = some target →
      ¬ (f.offset < target ∧ target - f.raOffset < FSEEK_MAX) →
      WorkerMove content f r (.exiting ptr) (.workerExit polls)
        ⟨readaheadInit (doseek f target), r, .top 0⟩

variable {content : List UInt8} {f : File} {r : Reader} {w : Worker} {e : Event} {t : State}
  {o : Output}

theorem checkRead_move {size : Nat} {got : List UInt8}
    (h : checkRead ⟨f, .reading size got, w⟩ size got = (t, o)) :
    ReaderMove f w (.reading size got) .check t o := by
  unfold checkRead at h
  dsimp only at h
  split at h
  · cases h
    exact .pick size got .check (.inr rfl)
  · split at h
    · rename_i hrunning
      split at h
      · rename_i hgot
        subst hgot
        split at h
        · cases h
          exact .ended size hrunning
        · cases h
          exact .failed size hrunning
      · cases h
        exact .short size got hrunning
    · split at h
      · cases h
        exact .grow size got
      · cases h
        exact .wait size got

theorem workerFill_move {ptr n : Nat} {polls : List Poll}
    (h : workerFill content ⟨f, r, .filling ptr n⟩ ptr n polls = some t) :
    WorkerMove content f r (.filling ptr n) (.workerFill polls) t := by
  unfold workerFill at h
  dsimp only at h
  split at h
  · cases h
  · rename_i g out ok hfill
    cases ok with
    | true =>
      cases h
      exact .fill ptr n polls g out hfill
    | false =>
      cases h
      exact .fillFailed ptr n polls g out hfill

theorem workerExit_move {ptr : Nat} {polls : List Poll}
    (h : workerExit content ⟨f, r, .exiting ptr⟩ ptr polls = some t) :
    WorkerMove content f r (.exiting ptr) (.workerExit polls) t := by
  unfold workerExit at h
  dsimp only at h
  split at h
  · rename_i hseek
    cases h
    exact .exit ptr polls hseek
  · rename_i target hseek
    split at h
    · rename_i hin
      cases h
      exact .inBuffer ptr polls target hseek hin.1 hin.2
    · rename_i hout
      split at h
      · rename_i hshort
        have hbehind : f.raOffset < target := by
          have hnot : ¬ target ≤ f.raOffset := fun hle => hout ⟨hshort.1, hle⟩
          omega
        split at h
        · cases h
        · rename_i g out ok hfill
          split at h
          · rename_i hok
            subst hok
            cases h
            exact .short ptr polls target g out hseek hshort.1 hbehind hshort.2 hfill
          · rename_i hok
            rw [Bool.not_eq_true] at hok
            subst hok
            cases h
            exact .shortFailed ptr polls target g out hseek hshort.1 hbehind hshort.2 hfill
      · rename_i hfar
        cases h
        exact .full ptr polls target hseek hfar

/-- Every step is a move of one of the threads. -/
theorem step_move (h : step content ⟨f, r, w⟩ e = some (t, o)) :
    ReaderMove f w r e t o ∨ (WorkerMove content f r w e t ∧ o = .quiet) := by
  cases e with
  | read size =>
    cases r <;> try cases h
    simp only [step, callRead, Option.some.injEq] at h
    split at h
    · rename_i hsize
      subst hsize
      cases h
      exact .inl .readNone
    · cases h
      exact .inl (.read size)
  | begin =>
    cases r <;> try cases h
    rename_i size
    simp only [step] at h
    split at h
    · rename_i hnone
      cases h
      exact .inl (.create size hnone.1 hnone.2)
    · rename_i hsome
      cases h
      exact .inl (.begin size hsome)
  | started =>
    cases r <;> try cases h
    rename_i size
    simp only [step] at h
    split at h
    · cases h
    · rename_i hne
      cases h
      exact .inl (.started size hne)
  | chunk =>
    cases r <;> try cases h
    rename_i size got
    simp only [step] at h
    split at h
    · cases h
      exact .inl (.pick size got .chunk (.inl rfl))
    · cases h
  | check =>
    cases r <;> try cases h
    rename_i size got
    simp only [step] at h
    split at h
    · exact .inl (checkRead_move (Option.some.inj h))
    · cases h
  | recheck =>
    cases r <;> try cases h
    rename_i size got
    simp only [step] at h
    split at h
    · cases h
    · cases h
      exact .inl (.recheck size got)
  | copy =>
    cases r <;> try cases h
    exact .inl (.copy _ _ _)
  | consume =>
    cases r <;> try cases h
    exact .inl (.consume _ _ _)
  | finish =>
    cases r <;> try cases h
    rename_i size got
    simp only [step] at h
    split at h
    · cases h
    · cases h
      exact .inl (.finish size got)
  | seek offset =>
    cases r <;> try cases h
    unfold callSeek
    split
    · rename_i hrunning
      exact .inl (.seekRunning offset hrunning)
    · rename_i hrunning
      rw [Bool.not_eq_true] at hrunning
      exact .inl (.seekNow offset hrunning)
  | seeked =>
    cases r <;> try cases h
    simp only [step] at h
    split at h
    · rename_i hseek
      cases h
      exact .inl (.seeked hseek)
    · cases h
  | workerInit =>
    cases w <;> try cases h
    exact .inr ⟨.init, rfl⟩
  | workerAbort =>
    cases w <;> try cases h
    simp only [step] at h
    split at h
    · cases h
      exact .inr ⟨.abort _, rfl⟩
    · cases h
  | workerChunk =>
    cases w <;> try cases h
    simp only [step] at h
    split at h
    · rename_i hchunk
      cases h
      exact .inr ⟨.chunk _ hchunk.2, rfl⟩
    · cases h
  | workerFill polls =>
    cases w <;> try cases h
    obtain ⟨t', hfill, hcast⟩ := Option.map_eq_some_iff.mp h
    cases hcast
    exact .inr ⟨workerFill_move hfill, rfl⟩
  | workerPublish =>
    cases w <;> try cases h
    exact .inr ⟨.publish _ _, rfl⟩
  | workerExit polls =>
    cases w <;> try cases h
    obtain ⟨t', hexit, hcast⟩ := Option.map_eq_some_iff.mp h
    cases hcast
    exact .inr ⟨workerExit_move hexit, rfl⟩

end Mediabox.HttpStream
