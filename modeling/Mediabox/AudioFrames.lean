import Mediabox.AudioDrop

/-!
# Audio frames are played once, in order

What the PCM device received, against what was put on the queue, for a stream that is written and
whose clock is set by any number of threads and that nobody drops.

* `Faithful` — the condition on the device, the queue and the writers: no repaired error code is
  taken for a count of frames, no counted packet is lost on its way to the queue, and
  `queued_frames` stays within an `int`.
* `Conserved` — what was heard followed by what is still to be heard is what was queued; `frames`
  counts from the last clock reset; `queued_frames` is exact; no packet leaves its buffer.
* `frames_conserved` — these hold along every faithful run.

`repaired_error_rewinds` is the run in which the device reports one error that `snd_pcm_recover`
repairs: the packet grows by the error code.
-/

set_option autoImplicit false

namespace Mediabox.Audio

open Transition

variable {tr : List (Event × Outcome)} {s s' : State} {o : Outcome}

/-! ## What is queued and what is heard -/

/-- A frame, by the call that wrote it and its address, or a reset of the clock. -/
inductive Mark where
  | frame (serial : Nat) (data : Int)
  | clockSet (serial : Nat) (value : Int)
deriving DecidableEq, Repr

/-- `n` frames of 4 bytes from `data` on. -/
def framesFrom (serial : Nat) (data : Int) : Nat → List Mark
  | 0 => []
  | n + 1 => .frame serial data :: framesFrom serial (data + 4) n

/-- What is still to be heard of a packet. -/
def Packet.marks (k : Packet) : List Mark :=
  match k.type with
  | .dataPacket => framesFrom k.serial k.data k.nFrames
  | .clockSet => [.clockSet k.serial k.value]

/-- What was put on the queue, in order. -/
def queuedMarks (tr : List (Event × Outcome)) : List Mark :=
  tr.flatMap fun a => match a.2 with
    | .queued k => k.marks
    | _ => []

/-- What the device received, in order. -/
def heard (tr : List (Event × Outcome)) : List Mark :=
  tr.flatMap fun a => match a.2 with
    | .played serial data k => framesFrom serial data k.toNat
    | .clockSet serial value => [.clockSet serial value]
    | _ => []

/-- The packets of which something is to be heard.  A clock packet stays at the head of the queue
    for a moment after its clock was set. -/
def State.waiting (s : State) : List Addr :=
  match s.output with
  | .clockSet _ => s.queue.tail
  | _ => s.queue

/-- What is queued and was not heard. -/
def State.unheard (s : State) : List Mark := s.waiting.flatMap fun p => (s.mem p).marks

/-- The number of frames. -/
def frameCount (l : List Mark) : Nat :=
  l.countP fun m => match m with
    | .frame .. => true
    | .clockSet .. => false

/-- The number of frames after the last reset of the clock. -/
def sinceClock (l : List Mark) : Nat :=
  l.foldl (fun n m => match m with
    | .frame .. => n + 1
    | .clockSet .. => 0) 0

/-- What the stream is written with, and what the device answers: the packets are accepted by the
    queue, the count of frames fits an `int`, and no negative code is repaired.  Nobody drops. -/
def Faithful (s : State) : Event → Prop
  | .writer (.write _ n _) =>
    n.toNat = 0 ∨ s.maxFrames < s.queuedFrames ∨ s.queuedFrames + n.toNat < 2 ^ 31
  | .writer (.put p accepted) => accepted = true ∨ p ∉ s.writing
  | .output (.writei k recovered) => 0 ≤ k ∨ recovered = false
  | .drop _ => False
  | _ => True

instance (s : State) (e : Event) : Decidable (Faithful s e) := by
  unfold Faithful
  cases e with
  | writer e => cases e <;> infer_instance
  | output e => cases e <;> infer_instance
  | _ => infer_instance

/-- The rest of a data packet is the end of its buffer. -/
def Packet.Within (k : Packet) : Prop :=
  k.type = .dataPacket → k.nFrames ≤ k.buffer.nFrames ∧ k.nFrames < 2 ^ 64 ∧
    k.data = k.buffer.data + 4 * (k.buffer.nFrames - k.nFrames)

/-- The run invariant of a stream that nobody drops. -/
structure Conserved (tr : List (Event × Outcome)) (s : State) : Prop where
  steady : Steady tr s
  undropped : s.drop = .idle
  headed : ∀ p, s.output.pointer = some p → s.queue.head? = some p
  within : ∀ p ∈ s.live, (s.mem p).Within
  forward : 0 ≤ s.output.pending
  exact : s.queuedFrames = s.outstanding
  order : s.frames = sinceClock (heard tr) ∧ heard tr ++ s.unheard = queuedMarks tr

/-! ## Lists of frames -/

theorem framesFrom_add (serial : Nat) (data : Int) (k n : Nat) :
    framesFrom serial data (k + n) =
      framesFrom serial data k ++ framesFrom serial (data + 4 * k) n := by
  induction k generalizing data with
  | zero => simp [framesFrom]
  | succ k ih =>
    rw [Nat.add_right_comm, framesFrom, framesFrom, ih, List.cons_append]
    have hdata : data + 4 + 4 * (k : Int) = data + 4 * ((k + 1 : Nat) : Int) := by omega
    rw [hdata]

theorem frameCount_append (l m : List Mark) : frameCount (l ++ m) = frameCount l + frameCount m := by
  simp [frameCount]

theorem frameCount_framesFrom (serial : Nat) (data : Int) (n : Nat) :
    frameCount (framesFrom serial data n) = n := by
  induction n generalizing data with
  | zero => rfl
  | succ n ih =>
    have hrest := ih (data + 4)
    simp only [frameCount, framesFrom, List.countP_cons, if_true] at hrest ⊢
    omega

theorem sinceClock_append_frames (l : List Mark) (serial : Nat) (data : Int) (n : Nat) :
    sinceClock (l ++ framesFrom serial data n) = sinceClock l + n := by
  induction n generalizing l data with
  | zero => simp [framesFrom]
  | succ n ih =>
    have hone : sinceClock (l ++ [Mark.frame serial data]) = sinceClock l + 1 := by
      simp [sinceClock]
    have hrest := ih (l ++ [Mark.frame serial data]) (data + 4)
    rw [List.append_assoc, List.singleton_append] at hrest
    rw [framesFrom, hrest, hone]
    omega

theorem sinceClock_append_clock (l : List Mark) (serial : Nat) (value : Int) :
    sinceClock (l ++ [Mark.clockSet serial value]) = 0 := by
  simp [sinceClock]

theorem heard_append (tr : List (Event × Outcome)) (a : Event × Outcome) :
    heard (tr ++ [a]) = heard tr ++ heard [a] := by
  simp [heard]

theorem queuedMarks_append (tr : List (Event × Outcome)) (a : Event × Outcome) :
    queuedMarks (tr ++ [a]) = queuedMarks tr ++ queuedMarks [a] := by
  simp [queuedMarks]

/-- The frames left in a packet are its weight. -/
theorem frameCount_marks (mem : Addr → Packet) (p : Addr) :
    (frameCount (mem p).marks : Int) = weight mem p := by
  unfold Packet.marks weight
  cases ht : (mem p).type with
  | dataPacket => simp [frameCount_framesFrom]
  | clockSet => simp [frameCount]

theorem frameCount_flatMap (mem : Addr → Packet) (l : List Addr) :
    (frameCount (l.flatMap fun p => (mem p).marks) : Int) = framesIn mem l := by
  induction l with
  | nil => rfl
  | cons p l ih =>
    rw [List.flatMap_cons, frameCount_append, Int.natCast_add, ih, frameCount_marks, framesIn_cons]

/-! ## One step -/

/-- A faithful step of a stream that nobody drops is undisturbed. -/
theorem Conserved.undisturbed {e : Event} (h : Conserved tr s) (hok : Faithful s e) :
    Undisturbed s e := by
  have hrec : s.recycles = false := by
    by_contra hr
    simp only [State.recycles, Bool.not_eq_false, Bool.and_eq_true, Option.isSome_iff_exists,
      beq_iff_eq] at hr
    obtain ⟨⟨p, hp⟩, htail⟩ := hr
    obtain ⟨l, hl⟩ := listTail_eq_some.mp (htail.trans hp)
    have hqueue := List.mem_of_head? (h.headed p hp)
    exact (List.nodup_append.mp h.steady.placed.nodup).2.2 p (by simp [hl]) p
      (by simp [State.live, hqueue]) rfl
  cases e with
  | writer e =>
    cases e with
    | write data n malloc =>
      rcases hok with hz | hfull | hfit
      · exact Or.inl hz
      · exact Or.inr (Or.inl hfull)
      · exact Or.inr (Or.inr ⟨hrec, by rw [h.undropped]; rfl⟩)
    | setclock value malloc => exact hrec
    | put p accepted => exact hok
  | output e => trivial
  | drop e => exact hok.elim

theorem waiting_subset {p : Addr} (hp : p ∈ s.waiting) : p ∈ s.queue := by
  unfold State.waiting at hp
  split at hp
  · exact List.mem_of_mem_tail hp
  · exact hp

/-- Packets outside of the queue may change: the same is still to be heard. -/
theorem unheard_congr (hwait : s'.waiting = s.waiting) (hmem : ∀ p ∈ s.queue, s'.mem p = s.mem p) :
    s'.unheard = s.unheard := by
  unfold State.unheard
  rw [hwait]
  simp only [List.flatMap]
  congr 1
  exact List.map_congr_left fun p hp => by rw [hmem p (waiting_subset hp)]

theorem waiting_put {p : Addr} (hpt : Pointing s) (hout : s'.output = s.output)
    (hq : s'.queue = s.queue ++ [p]) : s'.waiting = s.waiting ++ [p] := by
  unfold State.waiting
  rw [hout, hq]
  split
  · rename_i q ho
    unfold Pointing at hpt
    simp only [ho] at hpt
    obtain ⟨rest, hrest⟩ := List.head?_eq_some_iff.mp hpt.1
    simp [hrest]
  · rfl

theorem weight_nonneg (mem : Addr → Packet) (p : Addr) : 0 ≤ weight mem p := by
  unfold weight
  split <;> omega

theorem framesIn_nonneg (mem : Addr → Packet) (l : List Addr) : 0 ≤ framesIn mem l := by
  induction l with
  | nil => simp
  | cons p l ih =>
    have := weight_nonneg mem p
    rw [framesIn_cons]
    omega

theorem Conserved.outstanding_eq (h : Conserved tr s) :
    s.outstanding = framesIn s.mem s.queue + framesIn s.mem s.writing + s.output.pending := by
  simp [State.outstanding, h.undropped, Drop.held]

/-- `queued_frames` stays exact as long as what it stands for fits an `int`. -/
theorem exact_of_counted (h : Counted s) (hd : s.drop = .idle) (hforward : 0 ≤ s.output.pending)
    (hlt : s.outstanding < 2 ^ 31) : s.queuedFrames = s.outstanding := by
  have hrange := h.range
  have htotal := h.total
  have hqueue := framesIn_nonneg s.mem s.queue
  have hwriting := framesIn_nonneg s.mem s.writing
  simp only [State.outstanding, hd, Drop.held] at htotal hlt ⊢
  omega

theorem Packet.Within.of_clock {k : Packet} (h : k.type = .clockSet) : k.Within := by
  intro hd
  rw [h] at hd
  cases hd

theorem stepWriter_within {e : WriterEvent} (h : ∀ p ∈ s.live, (s.mem p).Within)
    (hstep : WriterStep s e s' o) : ∀ p ∈ s'.live, (s'.mem p).Within := by
  intro q hq
  have heffect := stepWriter_effect hstep
  -- a packet that is not being filled in was live before
  cases hstep with
  | refused => exact h q hq
  | @write data n malloc p pool allocated hfrom hn hroom =>
    by_cases hqp : q = p
    · subst hqp
      simp only [State.fillData, Function.update_self]
      exact fun _ => ⟨Nat.le_refl _, UInt64.toNat_lt n, by simp [Packet.nFrames]⟩
    · have hold : q ∈ s.live := by
        simp only [State.live, State.fillData, List.mem_append, List.mem_cons, hqp, false_or] at hq ⊢
        exact hq
      simpa [State.fillData, hqp] using h q hold
  | @setclock value malloc p pool allocated hfrom =>
    by_cases hqp : q = p
    · subst hqp
      exact Packet.Within.of_clock (by simp [State.fillClock])
    · have hold : q ∈ s.live := by
        simp only [State.live, State.fillClock, List.mem_append, List.mem_cons, hqp, false_or]
          at hq ⊢
        exact hq
      simpa [State.fillClock, hqp] using h q hold
  | putData | putClock | loseData | loseClock =>
    cases heffect with
    | keep _ hlive => exact h q (hlive.mem_iff.mp hq)
    | fill _ _ _ hcalls => simp at hcalls
    | release _ hlive => exact h q (hlive.mem_iff.mpr (List.mem_cons_of_mem _ hq))

/-- A call adds what it puts to the end of what is to be heard. -/
theorem stepWriter_unheard {e : WriterEvent} (hsteady : Steady tr s) (hstep : WriterStep s e s' o) :
    s'.unheard = s.unheard ++ queuedMarks [(.writer e, o)] := by
  have hfill : ∀ {p : Addr} {pool allocated : List Addr} (k : Packet),
      Allocated s p pool allocated → ∀ q ∈ s.queue, Function.update s.mem p k q = s.mem q := by
    intro p pool allocated k hfrom q hq
    refine Function.update_of_ne ?_ _ _
    rintro rfl
    exact hsteady.placed.not_live hfrom (by simp [State.live, hq])
  have hput : ∀ {p : Addr}, s'.output = s.output → s'.queue = s.queue ++ [p] → s'.mem = s.mem →
      s'.unheard = s.unheard ++ (s.mem p).marks := by
    intro p ho hq hm
    simp only [State.unheard, waiting_put hsteady.pointing ho hq, hm, List.flatMap_append,
      List.flatMap_cons, List.flatMap_nil, List.append_nil]
  cases hstep with
  | refused ho => cases o <;> simp_all [queuedMarks, Outcome.quiet]
  | write hfrom | setclock hfrom =>
    simp only [queuedMarks, List.flatMap_cons, List.flatMap_nil, List.append_nil]
    exact unheard_congr rfl (hfill _ hfrom)
  | putData | putClock =>
    simp only [queuedMarks, List.flatMap_cons, List.flatMap_nil, List.append_nil]
    exact hput rfl rfl rfl
  | loseData | loseClock =>
    simp only [queuedMarks, List.flatMap_cons, List.flatMap_nil, List.append_nil]
    exact unheard_congr rfl fun _ _ => rfl

theorem stepWriter_conserved {e : WriterEvent} (h : Conserved tr s)
    (hok : Faithful s (.writer e)) (hs : stepWriter s e = some (s', o)) :
    Conserved (tr ++ [(Event.writer e, o)]) s' := by
  have hund := h.undisturbed hok
  have hplaced := h.steady.placed
  have hnd : s.pool.Nodup := (List.nodup_append.mp hplaced.nodup).1
  have hstep := stepWriter_cases hnd hs
  have hsteady := step_steady h.steady hund (show step s (.writer e) = _ from hs)
  have hdrop : s'.drop = s.drop := by cases hstep <;> rfl
  have hout : s'.output = s.output := by cases hstep <;> rfl
  have hforward : 0 ≤ s'.output.pending := by rw [hout]; exact h.forward
  have hhead : ∀ p, s.queue.head? = some p → s'.queue.head? = some p := by
    intro p hp
    cases hstep with
    | putData | putClock => simp [List.head?_append, hp]
    | refused | write | setclock | loseData | loseClock => exact hp
  refine ⟨hsteady, hdrop.trans h.undropped, ?_, stepWriter_within h.within hstep, hforward, ?_, ?_⟩
  · intro p hp
    rw [hout] at hp
    exact hhead p (h.headed p hp)
  · refine exact_of_counted hsteady.counted (hdrop.trans h.undropped) hforward ?_
    have hrange := h.steady.counted.range
    have hexact := h.exact
    rcases stepWriter_outstanding hplaced h.steady.counted hund hstep with
      ⟨-, hsame⟩ | ⟨_, n, _, rfl, hn, hroom, -, hmore⟩
    · omega
    · rcases hok with hz | hfull | hfit <;> omega
  · -- the device hears nothing of a call
    have hsilent : heard [(.writer e, o)] = [] := by
      cases hstep with
      | refused ho => cases o <;> simp_all [heard, Outcome.quiet]
      | write | setclock | putData | putClock | loseData | loseClock => rfl
    have hframes : s'.frames = s.frames := by cases hstep <;> rfl
    obtain ⟨hclock, horder⟩ := h.order
    rw [heard_append, queuedMarks_append, hsilent, List.append_nil, hframes,
      stepWriter_unheard h.steady hstep, ← List.append_assoc, horder]
    exact ⟨hclock, rfl⟩

theorem sizeSub_of_le {n : Nat} {k : Int} (h0 : 0 ≤ k) (h1 : k ≤ n) (h2 : n < 2 ^ 64) :
    sizeSub n k = n - k.toNat := by
  unfold sizeSub
  omega

theorem marks_advance {k : Packet} {frames : Int} (ht : k.type = .dataPacket) (hw : k.Within)
    (h0 : 0 ≤ frames) (h1 : frames ≤ k.nFrames) :
    framesFrom k.serial k.data frames.toNat ++ (k.advance frames).marks = k.marks := by
  obtain ⟨-, hlt, -⟩ := hw ht
  have hsub := sizeSub_of_le h0 h1 hlt
  have hsplit := framesFrom_add k.serial k.data frames.toNat (k.nFrames - frames.toNat)
  have hcast : ((frames.toNat : Nat) : Int) = frames := Int.toNat_of_nonneg h0
  have hn : frames.toNat + (k.nFrames - frames.toNat) = k.nFrames := by omega
  rw [hn, hcast] at hsplit
  simp only [Packet.marks, Packet.advance, ht, Packet.nFrames, frames2size] at hsplit hsub ⊢
  rw [hsub, Int.mul_comm frames 4]
  exact hsplit.symm

theorem within_advance {k : Packet} {frames : Int} (hw : k.Within) (h0 : 0 ≤ frames)
    (h1 : frames ≤ k.nFrames) : (k.advance frames).Within := by
  intro ht
  obtain ⟨hle, hlt, hdata⟩ := hw ht
  have hsub := sizeSub_of_le h0 h1 hlt
  simp only [Packet.advance, Packet.nFrames, frames2size] at hle hlt hdata hsub h1 ⊢
  rw [hsub]
  refine ⟨by omega, by omega, by omega⟩

/-- A faithful device accepts at most what is left of the packet at the head of the queue. -/
theorem Conserved.writei_bounds {p : Addr} {n : Nat} {k : Int} {recovered : Bool}
    (h : Conserved tr s) (hok : Faithful s (.output (.writei k recovered)))
    (ho : s.output = .sized p n) (hq : s.queue.head? = some p) (hk : k ≤ n)
    (hrec : k < 0 → recovered = true) :
    0 ≤ k ∧ (s.mem p).type = .dataPacket ∧ k ≤ (s.mem p).nFrames := by
  have h0 : 0 ≤ k := by
    rcases hok with h0 | hr
    · exact h0
    · by_contra hneg
      rw [hrec (Int.not_le.mp hneg)] at hr
      cases hr
  obtain ⟨ht, hn⟩ := h.steady.pointing.of_sized ho hq
  exact ⟨h0, ht, by omega⟩

/-- The output thread works through the head of the queue: what it plays comes off the front of what
    is to be heard. -/
theorem stepOutput_unheard {e : OutputEvent} (h : Conserved tr s) (hok : Faithful s (.output e))
    (hstep : OutputStep s e s' o) :
    heard [(Event.output e, o)] ++ s'.unheard = s.unheard ∧ queuedMarks [(.output e, o)] = [] ∧
      s'.frames = sinceClock (heard tr ++ heard [(.output e, o)]) := by
  have hpt := h.steady.pointing
  obtain ⟨hclock, -⟩ := h.order
  unfold Pointing at hpt
  cases hstep with
  | peek ho | readData ho | readClock ho | readSize ho | account ho | spent ho | more ho
  | release ho =>
    refine ⟨?_, rfl, by simpa [heard] using hclock⟩
    refine unheard_congr ?_ fun _ _ => rfl
    simp only [State.waiting, ho]
  | leave ho hout =>
    refine ⟨?_, rfl, by simpa [heard] using hclock⟩
    refine unheard_congr ?_ fun _ _ => rfl
    rcases ho with ho | ⟨p, n, ho⟩ <;> rcases hout with rfl | rfl <;> simp only [State.waiting, ho]
  | @resetClock p ho hd =>
    simp only [ho] at hpt
    obtain ⟨rest, hrest⟩ := List.head?_eq_some_iff.mp hpt.1
    refine ⟨?_, rfl, ?_⟩
    · simp [heard, State.unheard, State.waiting, ho, hrest, Packet.marks, hpt.2]
    · simp [heard, sinceClock_append_clock]
  | @writei p n k recovered ho hd hq hk hrec =>
    obtain ⟨h0, ht, hle⟩ := h.writei_bounds hok ho hq hk hrec
    obtain ⟨rest, hrest⟩ := List.head?_eq_some_iff.mp hq
    have hnd : p ∉ rest := by
      have hnd := (List.nodup_append.mp h.steady.placed.nodup).2.1
      simp only [State.live, hrest, List.append_assoc, List.cons_append, List.nodup_cons,
        List.mem_append, not_or] at hnd
      exact hnd.1.1
    have hsame : (rest.flatMap fun q => (Function.update s.mem p ((s.mem p).advance k) q).marks) =
        rest.flatMap fun q => (s.mem q).marks := by
      simp only [List.flatMap]
      congr 1
      refine List.map_congr_left fun q hqr => ?_
      rw [Function.update_of_ne]
      rintro rfl
      exact hnd hqr
    have hmarks := marks_advance ht (h.within p (by simp [State.live, hrest])) h0 hle
    refine ⟨?_, rfl, ?_⟩
    · simp only [heard, State.unheard, State.waiting, ho, hrest, List.flatMap_cons, List.flatMap_nil,
        List.append_nil, Function.update_self, hsame]
      rw [← List.append_assoc, hmarks]
    · simp only [heard, List.flatMap_cons, List.flatMap_nil, List.append_nil]
      have hcast : ((k.toNat : Nat) : Int) = k := Int.toNat_of_nonneg h0
      have hadd := sinceClock_append_frames (heard tr) (s.mem p).serial (s.mem p).data k.toNat
      simp only [heard] at hadd hclock
      rw [hadd, Int.natCast_add, hcast, hclock]
  | @get p rest ho hq =>
    refine ⟨?_, rfl, by simpa [heard] using hclock⟩
    rcases ho with ho | ho <;> simp only [ho] at hpt
    · simp [heard, State.unheard, State.waiting, ho, hq]
    · simp [heard, State.unheard, State.waiting, ho, hq, Packet.marks, hpt.2.1, hpt.2.2, framesFrom]
  | @abort p q rest ho hq hne =>
    rcases ho with ho | ho
    all_goals
      simp only [ho, hq, List.head?_cons, Option.some.injEq] at hpt
      exact absurd hpt.1 hne

theorem stepOutput_within {e : OutputEvent} (h : Conserved tr s) (hok : Faithful s (.output e))
    (hstep : OutputStep s e s' o) : ∀ p ∈ s'.live, (s'.mem p).Within := by
  intro q hq
  have heffect := stepOutput_effect hstep
  have hold : q ∈ s.live := by
    cases heffect with
    | keep _ hlive => exact hlive.mem_iff.mp hq
    | fill _ _ _ hcalls => cases hstep <;> simp at hcalls
    | release _ hlive => exact hlive.mem_iff.mpr (List.mem_cons_of_mem _ hq)
  cases hstep with
  | @writei p n k recovered ho hd hhead hk hrec =>
    obtain ⟨h0, -, hle⟩ := h.writei_bounds hok ho hhead hk hrec
    by_cases hqp : q = p
    · subst hqp
      simpa using within_advance (h.within q hold) h0 hle
    · simpa [hqp] using h.within q hold
  | peek | readData | readClock | resetClock | readSize | leave | account | spent | more | get
  | abort | release => exact h.within q hold

theorem stepOutput_headed {e : OutputEvent} (h : Conserved tr s) (hstep : OutputStep s e s' o) :
    ∀ p, s'.output.pointer = some p → s'.queue.head? = some p := by
  intro q hq
  cases hstep with
  | peek ho hqueue =>
    cases hq
    simp [hqueue]
  | readData ho | readSize ho =>
    cases hq
    exact h.headed _ (by rw [ho]; rfl)
  | leave ho hout => rcases hout with rfl | rfl <;> cases hq
  | readClock | resetClock | writei | account | spent | more | get | abort | release => cases hq

theorem stepOutput_conserved {e : OutputEvent} (h : Conserved tr s)
    (hok : Faithful s (.output e)) (hs : stepOutput s e = some (s', o)) :
    Conserved (tr ++ [(Event.output e, o)]) s' := by
  have hund := h.undisturbed hok
  have hplaced := h.steady.placed
  have hstep := stepOutput_cases hs
  have hsteady := step_steady h.steady hund (show step s (.output e) = _ from hs)
  have hdrop : s'.drop = s.drop := by cases hstep <;> rfl
  have hforward : 0 ≤ s'.output.pending := by
    cases hstep with
    | writei ho hd hq hk hrec => exact (h.writei_bounds hok ho hq hk hrec).1
    | leave ho hout => rcases hout with rfl | rfl <;> exact Int.le_refl 0
    | peek | readData | readClock | resetClock | readSize | account | spent | more | get | abort
    | release => exact Int.le_refl 0
  obtain ⟨hplayed, hnone, hclock⟩ := stepOutput_unheard h hok hstep
  refine ⟨hsteady, hdrop.trans h.undropped, stepOutput_headed h hstep, stepOutput_within h hok hstep,
    hforward, ?_, ?_, ?_⟩
  · refine exact_of_counted hsteady.counted (hdrop.trans h.undropped) hforward ?_
    have hrange := h.steady.counted.range
    have hexact := h.exact
    rcases stepOutput_outstanding hplaced h.steady.pointing hstep with
      ⟨-, hsame⟩ | ⟨p, k, ho, -, hless⟩ | ⟨p, n, k, ho, ho', hk, hq, -, hsame⟩
    · omega
    · have hk : 0 ≤ k := by simpa [ho, Output.pending] using h.forward
      omega
    · have h0 : 0 ≤ k := by simpa [ho', Output.pending] using hforward
      obtain ⟨ht, hn⟩ := h.steady.pointing.of_sized ho hq
      have hlt := (h.within p (by simp [State.live, List.mem_of_head? hq]) ht).2.1
      rw [sizeSub_of_le h0 (by omega) hlt] at hsame
      omega
  · rw [heard_append]
    exact hclock
  · rw [heard_append, queuedMarks_append, List.append_assoc, hplayed, hnone, List.append_nil]
    exact h.order.2

theorem init_conserved (maxFrames : Int) (period : Nat) : Conserved [] (init maxFrames period) := by
  refine ⟨init_steady maxFrames period, rfl, ?_, ?_, Int.le_refl 0, rfl, rfl, rfl⟩
  · intro p hp; cases hp
  · intro p hp; cases hp

theorem run_conserved {maxFrames : Int} {period : Nat}
    (h : Run (Guarded step Faithful) (init maxFrames period) tr s) : Conserved tr s := by
  refine Run.history (init_conserved maxFrames period) (fun tr t a u ht hstep => ?_) h
  obtain ⟨e, o⟩ := a
  obtain ⟨hok, hstep⟩ := hstep
  cases e with
  | writer e => exact stepWriter_conserved ht hok hstep
  | output e => exact stepOutput_conserved ht hok hstep
  | drop e => exact hok.elim

/-! ## Whole runs -/

/-- **Audio frames are conserved**: along every faithful run of a stream that nobody drops, what the
    device received followed by what is queued is what was queued, in order; no packet's data
    pointer leaves its buffer; `frames` counts the frames accepted since the last reset of the
    clock; and `queued_frames` counts the queued frames that were not accepted, where the frames of
    a writer that has not put its packet yet and a fragment that is not subtracted yet count. -/
theorem frames_conserved {maxFrames : Int} {period : Nat}
    (h : Run (Guarded step Faithful) (init maxFrames period) tr s) :
    heard tr ++ s.unheard = queuedMarks tr ∧
      (∀ p ∈ s.live, (s.mem p).type = .dataPacket → (s.mem p).buffer.data ≤ (s.mem p).data ∧
        (s.mem p).data ≤ (s.mem p).buffer.data + 4 * (s.mem p).buffer.nFrames) ∧
      s.frames = sinceClock (heard tr) ∧
      s.queuedFrames =
        frameCount s.unheard + framesIn s.mem s.writing + s.output.pending := by
  have hc := run_conserved h
  refine ⟨hc.order.2, fun p hp ht => ?_, hc.order.1, ?_⟩
  · obtain ⟨hle, -, hdata⟩ := hc.within p hp ht
    constructor <;> omega
  · -- the packet of a clock that is set holds no frames
    have hcount : (frameCount s.unheard : Int) = framesIn s.mem s.queue := by
      have hpt := hc.steady.pointing
      rw [State.unheard, frameCount_flatMap]
      unfold State.waiting
      split
      · rename_i p ho
        simp only [Pointing, ho] at hpt
        obtain ⟨rest, hrest⟩ := List.head?_eq_some_iff.mp hpt.1
        simp [hrest, weight, hpt.2]
      · rfl
    rw [hcount, hc.exact]
    exact hc.outstanding_eq

/-- A packet is played in two fragments after the clock was set. -/
theorem frames_conserved_fragments : ∃ tr s, Run (Guarded step Faithful) (init 100 4) tr s ∧
    heard tr = .clockSet 0 7 :: framesFrom 1 64 6 ∧ s.frames = 6 ∧ s.queue = [] ∧
      heard tr ++ s.unheard = queuedMarks tr := by
  have hrun : Run (Guarded step Faithful) (init 100 4) _ _ :=
    run_of_guarded_exec [.writer (.setclock 7 (some 1)), .writer (.put 1 true),
      .writer (.write 64 6 (some 2)), .writer (.put 2 true), .output .peek, .output .readType,
      .output .resetClock, .output .get, .output .release, .output .peek, .output .readType,
      .output .readSize, .output (.writei 4 false), .output .account, .output .readLeft,
      .output .peek, .output .readType, .output .readSize, .output (.writei 2 false),
      .output .account, .output .readLeft, .output .get] rfl
  exact ⟨_, _, hrun, by decide +kernel, rfl, rfl, (frames_conserved hrun).1⟩

/-- The device reports an underrun (`-EPIPE`) that `snd_pcm_recover` repairs: the code is counted as
    frames.  The packet of 4 frames at address 64 now starts 32 frames before its buffer, and the
    stream believes that it accepted -32 frames and has 36 queued. -/
theorem repaired_error_rewinds : ∃ tr s, Run (Step step) (init 100 4) tr s ∧ heard tr = [] ∧
    queuedMarks tr = framesFrom 0 64 4 ∧ s.frames = -32 ∧ s.queuedFrames = 36 ∧ s.writing = [] ∧
      s.output = .idle ∧ s.queue = [1] ∧ (s.mem 1).data = -64 := by
  have hrun : Run (Step step) (init 100 4) _ _ :=
    run_of_exec [.writer (.write 64 4 (some 1)), .writer (.put 1 true), .output .peek,
      .output .readType, .output .readSize, .output (.writei (-32) true), .output .account,
      .output .readLeft] rfl
  exact ⟨_, _, hrun, rfl, rfl, rfl, by decide +kernel, rfl, rfl, rfl, rfl⟩

end Mediabox.Audio
