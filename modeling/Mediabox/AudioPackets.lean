import Mathlib.Data.List.Perm.Basic
import Mediabox.Audio
import Mediabox.Lib.Circulation

/-!
# Where the packets of an audio stream are

A packet is in the pool, in the queue, or in the hands of one party.  This holds under every
interleaving, whatever the device answers and whatever the parties do wrong with the counters:

* `step_effect` — what a step can do to the places: nothing, a packet leaves the pool and is filled
  in, or a packet goes back to the pool.
* `Placed` / `run_placed` — the places are disjoint, and each filling of a packet is either still
  under way or was released exactly once.
-/

set_option autoImplicit false

namespace Mediabox.Audio

open Transition Circulation

/-- The packet in the hands of the output thread. -/
def Output.hand : Output → List Addr
  | .taken p | .aborted p => [p]
  | _ => []

/-- The packet in the hands of the thread inside `avbox_audiostream_drop`. -/
def Drop.hand : Drop → List Addr
  | .took p | .loaded p _ | .releasing p => [p]
  | _ => []

/-- The packets that are filled in and not released. -/
def State.live (s : State) : List Addr :=
  s.queue ++ s.writing ++ s.setting ++ s.output.hand ++ s.drop.hand

/-- The fillings of packets that were released, in order. -/
def released (tr : List (Event × Outcome)) : List Nat :=
  tr.filterMap fun a => match a.2 with
    | .released serial => some serial
    | _ => none

theorem released_append (tr : List (Event × Outcome)) (a : Event × Outcome) :
    released (tr ++ [a]) = released tr ++ released [a] := by
  simp [released]

/-- The places of the packets after the labels `tr`. -/
structure Placed (tr : List (Event × Outcome)) (s : State) : Prop where
  nodup : (s.pool ++ s.live).Nodup
  allocated : ∀ p ∈ s.pool ++ s.live, p ∈ s.allocated
  once : ∀ i, (released tr).count i + (s.live.map fun p => (s.mem p).serial).count i =
    if i < s.calls then 1 else 0

/-- What one step can do to the places of the packets. -/
inductive Effect (s s' : State) (o : Outcome) : Prop
  | keep (hpool : s'.pool = s.pool) (hlive : s'.live.Perm s.live)
      (halloc : s'.allocated = s.allocated) (hcalls : s'.calls = s.calls)
      (hserial : ∀ p, (s'.mem p).serial = (s.mem p).serial)
      (hout : ∀ i, o ≠ .released i)
  | fill (p : Addr) (hlive : s'.live.Perm (p :: s.live))
      (hfrom : (s.pool = s'.pool ++ [p] ∧ s'.allocated = s.allocated) ∨
        (s'.pool = s.pool ∧ p ∉ s.allocated ∧ s'.allocated = p :: s.allocated))
      (hcalls : s'.calls = s.calls + 1) (hnew : (s'.mem p).serial = s.calls)
      (hserial : ∀ q, q ≠ p → (s'.mem q).serial = (s.mem q).serial)
      (hout : ∀ i, o ≠ .released i)
  | release (p : Addr) (hlive : s.live.Perm (p :: s'.live)) (hpool : s'.pool = p :: s.pool)
      (halloc : s'.allocated = s.allocated) (hcalls : s'.calls = s.calls)
      (hserial : ∀ q, (s'.mem q).serial = (s.mem q).serial)
      (hout : o = .released (s.mem p).serial)

variable {tr : List (Event × Outcome)} {s s' : State} {o : Outcome}

/-! ## What each party can do -/

/-- Where a packet that `alloc_packet` returned comes from: the tail of the pool or `malloc`. -/
def Allocated (s : State) (p : Addr) (pool allocated : List Addr) : Prop :=
  (s.pool = pool ++ [p] ∧ allocated = s.allocated) ∨
    (pool = s.pool ∧ p ∉ s.allocated ∧ allocated = p :: s.allocated)

theorem allocPacket_some {malloc : Option Addr} {p : Addr} (hnd : s.pool.Nodup)
    (hmay : s.mayMalloc malloc = true) (h : allocPacket s malloc = (some p, s')) :
    Allocated s p s'.pool s'.allocated ∧
      s' = { s with pool := s'.pool, allocated := s'.allocated } := by
  unfold allocPacket at h
  split at h
  · rename_i q hq
    obtain ⟨l, hl⟩ := listTail_eq_some.mp hq
    cases h
    rw [hl] at hnd
    exact ⟨Or.inl ⟨by simp [hl, listRemove_tail hnd], rfl⟩, rfl⟩
  · split at h
    · cases h
      exact ⟨Or.inr ⟨rfl, by simpa [State.mayMalloc] using hmay, rfl⟩, rfl⟩
    · cases h

theorem allocPacket_none {malloc : Option Addr} (h : allocPacket s malloc = (none, s')) :
    s' = s := by
  unfold allocPacket at h
  split at h
  · cases h
  · split at h <;> cases h
    rfl

/-- The outcome neither puts nor releases a packet, and the device hears nothing. -/
def Outcome.quiet : Outcome → Bool
  | .silent | .returned _ | .eagain | .enomem => true
  | _ => false

/-- The steps of a call that writes or sets the clock. -/
inductive WriterStep (s : State) : WriterEvent → State → Outcome → Prop
  | refused {e : WriterEvent} {o : Outcome} (ho : o.quiet = true) : WriterStep s e s o
  | write {data : Int} {n : UInt64} {malloc : Option Addr} {p : Addr} {pool allocated : List Addr}
      (hfrom : Allocated s p pool allocated) (hn : n.toNat ≠ 0)
      (hroom : s.queuedFrames ≤ s.maxFrames) :
      WriterStep s (.write data n malloc)
        { s.fillData p data n.toNat with
          pool := pool, allocated := allocated, writing := p :: s.writing
          queuedFrames := int32 (s.queuedFrames + n.toNat) } .silent
  | setclock {value : Int} {malloc : Option Addr} {p : Addr} {pool allocated : List Addr}
      (hfrom : Allocated s p pool allocated) :
      WriterStep s (.setclock value malloc)
        { s.fillClock p value with
          pool := pool, allocated := allocated, setting := p :: s.setting } .silent
  | putData {p : Addr} (hp : p ∈ s.writing) :
      WriterStep s (.put p true)
        { s with queue := s.queue ++ [p], writing := s.writing.erase p } (.queued (s.mem p))
  | putClock {p : Addr} (hw : p ∉ s.writing) (hp : p ∈ s.setting) :
      WriterStep s (.put p true)
        { s with queue := s.queue ++ [p], setting := s.setting.erase p } (.queued (s.mem p))
  | loseData {p : Addr} (hp : p ∈ s.writing) :
      WriterStep s (.put p false)
        { s with pool := p :: s.pool, writing := s.writing.erase p } (.released (s.mem p).serial)
  | loseClock {p : Addr} (hw : p ∉ s.writing) (hp : p ∈ s.setting) :
      WriterStep s (.put p false)
        { s with pool := p :: s.pool, setting := s.setting.erase p } (.released (s.mem p).serial)

theorem stepWriter_cases {e : WriterEvent} (hnd : s.pool.Nodup)
    (h : stepWriter s e = some (s', o)) : WriterStep s e s' o := by
  cases e with
  | write data n malloc =>
    simp only [stepWriter] at h
    split at h
    · cases h
    rename_i hmay
    split at h
    · cases h
      exact .refused rfl
    rename_i hn
    split at h
    · cases h
      exact .refused rfl
    rename_i hroom
    split at h
    · rename_i t ha
      cases h
      rw [allocPacket_none ha]
      exact .refused rfl
    · rename_i p t ha
      cases h
      obtain ⟨hfrom, ht⟩ := allocPacket_some hnd (by simpa using hmay) ha
      rw [ht]
      exact .write hfrom hn (Int.not_lt.mp hroom)
  | setclock value malloc =>
    simp only [stepWriter] at h
    split at h
    · cases h
    rename_i hmay
    split at h
    · rename_i t ha
      cases h
      rw [allocPacket_none ha]
      exact .refused rfl
    · rename_i p t ha
      cases h
      obtain ⟨hfrom, ht⟩ := allocPacket_some hnd (by simpa using hmay) ha
      rw [ht]
      exact .setclock hfrom
  | put p accepted =>
    simp only [stepWriter] at h
    split at h
    · rename_i hp
      cases accepted <;> cases h
      · exact .loseData hp
      · exact .putData hp
    split at h
    · rename_i hw hp
      cases accepted <;> cases h
      · exact .loseClock hw hp
      · exact .putClock hw hp
    · cases h

/-- The sections of the output thread.  `leave` is every way back to the top of the loop, or out of
    it, that touches no packet. -/
inductive OutputStep (s : State) : OutputEvent → State → Outcome → Prop
  | peek {p : Addr} {rest : List Addr} (ho : s.output = .idle) (hq : s.queue = p :: rest) :
      OutputStep s .peek { s with output := .peeked p } .silent
  | readData {p : Addr} (ho : s.output = .peeked p) (ht : (s.mem p).type = .dataPacket) :
      OutputStep s .readType { s with output := .data p } .silent
  | readClock {p : Addr} (ho : s.output = .peeked p) (ht : (s.mem p).type = .clockSet) :
      OutputStep s .readType { s with output := .clock p } .silent
  | resetClock {p : Addr} (ho : s.output = .clock p) (hd : s.drop = .idle) :
      OutputStep s .resetClock
        { s with output := .clockSet p, clockStart := (s.mem p).value, frames := 0 }
        (.clockSet (s.mem p).serial (s.mem p).value)
  | readSize {p : Addr} (ho : s.output = .data p) :
      OutputStep s .readSize
        { s with output := .sized p (min s.period (s.mem p).nFrames) } .silent
  | leave {e : OutputEvent} {out : Output} (ho : s.output = .idle ∨ ∃ p n, s.output = .sized p n)
      (hout : out = .idle ∨ out = .ended) : OutputStep s e { s with output := out } .silent
  | writei {p : Addr} {n : Nat} {k : Int} {recovered : Bool} (ho : s.output = .sized p n)
      (hd : s.drop = .idle) (hq : s.queue.head? = some p) (hk : k ≤ n)
      (hrec : k < 0 → recovered = true) :
      OutputStep s (.writei k recovered)
        { s with
          output := .wrote p k, frames := s.frames + k
          mem := Function.update s.mem p ((s.mem p).advance k) }
        (.played (s.mem p).serial (s.mem p).data k)
  | account {p : Addr} {k : Int} (ho : s.output = .wrote p k) :
      OutputStep s .account
        { s with output := .counted p, queuedFrames := int32 (s.queuedFrames - k) } .silent
  | spent {p : Addr} (ho : s.output = .counted p) (hn : (s.mem p).nFrames = 0) :
      OutputStep s .readLeft { s with output := .spent p } .silent
  | more {p : Addr} (ho : s.output = .counted p) (hn : (s.mem p).nFrames ≠ 0) :
      OutputStep s .readLeft { s with output := .idle } .silent
  | get {p : Addr} {rest : List Addr} (ho : s.output = .clockSet p ∨ s.output = .spent p)
      (hq : s.queue = p :: rest) :
      OutputStep s .get { s with queue := rest, output := .taken p } .silent
  | abort {p q : Addr} {rest : List Addr} (ho : s.output = .clockSet p ∨ s.output = .spent p)
      (hq : s.queue = q :: rest) (hne : q ≠ p) :
      OutputStep s .get { s with queue := rest, output := .aborted q } .silent
  | release {p : Addr} (ho : s.output = .taken p) :
      OutputStep s .release { s with pool := p :: s.pool, output := .idle }
        (.released (s.mem p).serial)

theorem stepOutput_get {p : Addr} (ho : s.output = .clockSet p ∨ s.output = .spent p)
    (h : (match s.queue with
      | [] => none
      | q :: rest => some ({ s with
          queue := rest
          output := if q = p then .taken p else .aborted q }, .silent)) = some (s', o)) :
    OutputStep s .get s' o := by
  split at h
  · cases h
  · rename_i q rest hq
    cases h
    by_cases hqp : q = p
    · subst hqp
      simpa using OutputStep.get ho hq
    · simpa [hqp] using OutputStep.abort ho hq hqp

theorem stepOutput_cases {e : OutputEvent} (h : stepOutput s e = some (s', o)) :
    OutputStep s e s' o := by
  unfold stepOutput at h
  split at h
  · rename_i ho
    split at h
    · cases h
    · rename_i hq
      cases h
      exact .peek ho hq
  · rename_i p ho
    cases h
    cases ht : (s.mem p).type with
    | dataPacket => simpa [ht] using OutputStep.readData ho ht
    | clockSet => simpa [ht] using OutputStep.readClock ho ht
  · rename_i ho
    split at h
    · rename_i hd
      cases h
      exact .resetClock ho hd
    · cases h
  · rename_i ho
    cases h
    exact .readSize ho
  · rename_i ho
    cases h
    exact .leave (Or.inr ⟨_, _, ho⟩) (Or.inl rfl)
  · rename_i ho
    split at h
    · cases h
    rename_i hd
    split at h
    · cases h
      exact .leave (Or.inr ⟨_, _, ho⟩) (Or.inl rfl)
    rename_i hq
    split at h
    · cases h
    rename_i hk
    split at h
    · cases h
      exact .leave (Or.inr ⟨_, _, ho⟩) (Or.inr rfl)
    · rename_i hrec
      cases h
      exact .writei ho (not_not.mp hd) (not_not.mp hq) (Int.not_lt.mp hk) (by simpa using hrec)
  · rename_i ho
    cases h
    exact .account ho
  · rename_i p ho
    cases h
    by_cases hn : (s.mem p).nFrames = 0
    · simpa [hn] using OutputStep.spent ho hn
    · simpa [hn] using OutputStep.more ho hn
  · rename_i ho
    exact stepOutput_get (Or.inl ho) h
  · rename_i ho
    exact stepOutput_get (Or.inr ho) h
  · rename_i ho
    cases h
    exact .release ho
  · rename_i ho
    cases h
    exact .leave (Or.inl ho) (Or.inr rfl)
  · rename_i ho
    cases h
    exact .leave (Or.inr ⟨_, _, ho⟩) (Or.inr rfl)
  · cases h

/-- The steps of the thread inside `avbox_audiostream_drop`. -/
inductive DropStep (s : State) : DropEvent → State → Outcome → Prop
  | lock (hd : s.drop = .idle) : DropStep s .lock { s with drop := .counting } .silent
  | countEmpty (hd : s.drop = .counting) (hq : s.queue = []) :
      DropStep s .count { s with drop := .checking } .silent
  | countMore (hd : s.drop = .counting) (hq : s.queue ≠ []) :
      DropStep s .count { s with drop := .taking } .silent
  | take {p : Addr} {rest : List Addr} (hd : s.drop = .taking) (hq : s.queue = p :: rest) :
      DropStep s .take { s with queue := rest, drop := .took p } .silent
  | loadData {p : Addr} (hd : s.drop = .took p) (ht : (s.mem p).type = .dataPacket) :
      DropStep s .load { s with drop := .loaded p s.queuedFrames } .silent
  | loadClock {p : Addr} (hd : s.drop = .took p) (ht : (s.mem p).type ≠ .dataPacket) :
      DropStep s .load { s with drop := .releasing p } .silent
  | store {p : Addr} {v : Int} (hd : s.drop = .loaded p v) :
      DropStep s .store
        { s with drop := .releasing p, queuedFrames := int32 (v - (s.mem p).nFrames) } .silent
  | release {p : Addr} (hd : s.drop = .releasing p) :
      DropStep s .release { s with pool := p :: s.pool, drop := .counting }
        (.released (s.mem p).serial)
  | checkOk (hd : s.drop = .checking) (hz : s.queuedFrames = 0) :
      DropStep s .check { s with drop := .idle } .silent
  | checkFailed (hd : s.drop = .checking) (hz : s.queuedFrames ≠ 0) :
      DropStep s .check { s with drop := .failed } .silent

theorem stepDrop_cases {e : DropEvent} (h : stepDrop s e = some (s', o)) : DropStep s e s' o := by
  unfold stepDrop at h
  split at h
  · rename_i hd
    cases h
    exact .lock hd
  · rename_i hd
    cases h
    by_cases hq : s.queue = []
    · simpa [hq] using DropStep.countEmpty hd hq
    · simpa [hq] using DropStep.countMore hd hq
  · rename_i hd
    split at h
    · cases h
    · rename_i hq
      cases h
      exact .take hd hq
  · rename_i p hd
    cases h
    by_cases ht : (s.mem p).type = .dataPacket
    · simpa [ht] using DropStep.loadData hd ht
    · simpa [ht] using DropStep.loadClock hd ht
  · rename_i hd
    cases h
    exact .store hd
  · rename_i hd
    cases h
    exact .release hd
  · rename_i hd
    cases h
    by_cases hz : s.queuedFrames = 0
    · simpa [hz] using DropStep.checkOk hd hz
    · simpa [hz] using DropStep.checkFailed hd hz
  · cases h

/-! ## One step -/

/-- Taking one occurrence out of a list, seen from the whole. -/
theorem perm_erase_append {p : Addr} {l m : List Addr} (hp : p ∈ m) (r : List Addr) :
    (l ++ m ++ r).Perm (p :: (l ++ m.erase p ++ r)) := by
  refine List.Perm.trans (((List.perm_cons_erase hp).append_left l).append_right r) ?_
  rw [List.append_assoc, List.append_assoc]
  exact List.perm_middle

theorem stepWriter_effect {e : WriterEvent} (h : WriterStep s e s' o) : Effect s s' o := by
  cases h with
  | refused ho => exact .keep rfl (.refl _) rfl rfl (fun _ => rfl) (by rintro i rfl; cases ho)
  | @write data n malloc p pool allocated hfrom =>
    refine .fill p ?_ hfrom rfl (by simp [State.fillData]) (fun q hq => ?_) (by simp)
    · simp only [State.live, State.fillData, List.append_assoc]
      exact List.perm_middle
    · simp [State.fillData, hq]
  | @setclock value malloc p pool allocated hfrom =>
    refine .fill p ?_ hfrom rfl (by simp [State.fillClock]) (fun q hq => ?_) (by simp)
    · simp only [State.live, State.fillClock, List.append_assoc]
      rw [← List.append_assoc, ← List.append_assoc s.queue s.writing]
      exact List.perm_middle
    · simp [State.fillClock, hq]
  | @putData p hp =>
    have hperm := perm_erase_append (l := s.queue) hp (s.setting ++ s.output.hand ++ s.drop.hand)
    simp only [← List.append_assoc] at hperm
    refine .keep rfl (.trans ?_ hperm.symm) rfl rfl (fun _ => rfl) (by simp)
    simp only [State.live, List.append_assoc]
    exact List.perm_middle
  | @putClock p hw hp =>
    have hperm := perm_erase_append (l := s.queue ++ s.writing) hp (s.output.hand ++ s.drop.hand)
    simp only [← List.append_assoc] at hperm
    refine .keep rfl (.trans ?_ hperm.symm) rfl rfl (fun _ => rfl) (by simp)
    simp only [State.live, List.append_assoc]
    exact List.perm_middle
  | @loseData p hp =>
    have hperm := perm_erase_append (l := s.queue) hp (s.setting ++ s.output.hand ++ s.drop.hand)
    simp only [← List.append_assoc] at hperm
    exact .release p hperm rfl rfl rfl (fun _ => rfl) rfl
  | @loseClock p hw hp =>
    have hperm := perm_erase_append (l := s.queue ++ s.writing) hp (s.output.hand ++ s.drop.hand)
    simp only [← List.append_assoc] at hperm
    exact .release p hperm rfl rfl rfl (fun _ => rfl) rfl

/-- A step of one party that moves no packet: the lists stay, and the hands too. -/
theorem Effect.still (hpool : s'.pool = s.pool) (hlive : s'.live = s.live)
    (halloc : s'.allocated = s.allocated) (hcalls : s'.calls = s.calls)
    (hserial : ∀ p, (s'.mem p).serial = (s.mem p).serial) (hout : ∀ i, o ≠ .released i) :
    Effect s s' o :=
  .keep hpool (hlive ▸ .refl _) halloc hcalls hserial hout

theorem Effect.output (ho : s.output.hand = []) {out : Output} (hout : out.hand = [])
    {queuedFrames frames clockStart : Int} (hquiet : ∀ i, o ≠ .released i) :
    Effect s { s with
      output := out, queuedFrames := queuedFrames, frames := frames, clockStart := clockStart } o :=
  .still rfl (by simp [State.live, ho, hout]) rfl rfl (fun _ => rfl) hquiet

theorem Effect.got {p : Addr} {rest : List Addr} {out : Output} (ho : s.output.hand = [])
    (hq : s.queue = p :: rest) (hout : out.hand = [p]) :
    Effect s { s with queue := rest, output := out } .silent := by
  refine .keep rfl (List.perm_iff_count.mpr fun a => ?_) rfl rfl (fun _ => rfl) (by simp)
  simp only [State.live, hq, ho, hout, List.count_append, List.count_cons]
  omega

theorem stepOutput_effect {e : OutputEvent} (h : OutputStep s e s' o) : Effect s s' o := by
  cases h with
  | peek ho | readData ho | readClock ho | resetClock ho | readSize ho | account ho | spent ho
  | more ho =>
    exact Effect.output (by rw [ho]; rfl) rfl (by simp)
  | leave ho hout =>
    have hold : s.output.hand = [] := by
      rcases ho with ho | ⟨p, n, ho⟩ <;> rw [ho] <;> rfl
    rcases hout with rfl | rfl <;> exact Effect.output hold rfl (by simp)
  | @writei p n k recovered ho hd hq hk hrec =>
    refine .still rfl (by simp [State.live, ho, Output.hand]) rfl rfl (fun q => ?_) (by simp)
    by_cases hqp : q = p
    · subst hqp; simp [Packet.advance]
    · simp [hqp]
  | get ho hq | abort ho hq =>
    exact Effect.got (by rcases ho with ho | ho <;> rw [ho] <;> rfl) hq rfl
  | @release p ho =>
    refine .release p (List.perm_iff_count.mpr fun a => ?_) rfl rfl rfl (fun _ => rfl) rfl
    simp only [State.live, ho, Output.hand, List.count_append, List.count_cons]
    omega

theorem stepDrop_effect {e : DropEvent} (h : DropStep s e s' o) : Effect s s' o := by
  cases h with
  | lock hd | countEmpty hd | countMore hd | loadData hd | loadClock hd | store hd | checkOk hd
  | checkFailed hd =>
    exact .still rfl (by simp [State.live, hd, Drop.hand]) rfl rfl (fun _ => rfl) (by simp)
  | take hd hq =>
    refine .keep rfl (List.perm_iff_count.mpr fun a => ?_) rfl rfl (fun _ => rfl) (by simp)
    simp only [State.live, hq, hd, Drop.hand, List.count_append, List.count_cons]
    omega
  | @release p hd =>
    refine .release p (List.perm_iff_count.mpr fun a => ?_) rfl rfl rfl (fun _ => rfl) rfl
    simp only [State.live, hd, Drop.hand, List.count_append, List.count_cons]
    omega

theorem step_effect {e : Event} (hnd : s.pool.Nodup) (h : step s e = some (s', o)) :
    Effect s s' o := by
  cases e with
  | writer e => exact stepWriter_effect (stepWriter_cases hnd h)
  | output e => exact stepOutput_effect (stepOutput_cases h)
  | drop e => exact stepDrop_effect (stepDrop_cases h)

/-! ## Whole runs -/

theorem init_placed (maxFrames : Int) (period : Nat) : Placed [] (init maxFrames period) := by
  constructor
  · exact List.nodup_nil
  · intro p hp; cases hp
  · intro i
    simp [released, State.live, init, Output.hand, Drop.hand]

theorem placed_iff : Placed tr s ↔
    Accounted s.pool s.live s.allocated (fun p => (s.mem p).serial) s.calls (released tr) [] := by
  constructor
  · intro hp
    exact ⟨hp.nodup, hp.allocated, hp.once⟩
  · intro ha
    exact ⟨ha.nodup, ha.allocated, ha.once⟩

theorem Placed.not_live {p : Addr} {pool allocated : List Addr} (hp : Placed tr s)
    (hfrom : Allocated s p pool allocated) : p ∉ s.live :=
  (placed_iff.mp hp).not_live hfrom

theorem step_placed {e : Event} (hp : Placed tr s) (h : step s e = some (s', o)) :
    Placed (tr ++ [(e, o)]) s' := by
  have hnd : s.pool.Nodup := (List.nodup_append.mp hp.nodup).1
  have hquiet : (∀ i, o ≠ .released i) → released (tr ++ [(e, o)]) = released tr := by
    intro ho
    rw [released_append]
    cases o <;> simp_all [released]
  have ha := placed_iff.mp hp
  refine placed_iff.mpr ?_
  cases step_effect hnd h with
  | keep hpool hlive halloc hcalls hserial hout =>
    rw [hpool, halloc, hcalls, hquiet hout, funext hserial]
    exact ha.perm hlive
  | fill p hlive hfrom hcalls hnew hserial hout =>
    rw [hcalls, hquiet hout]
    exact ha.take hfrom hlive hnew hserial
  | release p hlive hpool halloc hcalls hserial hout =>
    rw [hpool, halloc, hcalls, funext hserial, released_append, hout]
    exact ha.release hlive

theorem run_placed {maxFrames : Int} {period : Nat}
    (h : Run (Step step) (init maxFrames period) tr s) : Placed tr s :=
  Run.history (init_placed maxFrames period) (fun _ _ _ _ hp hstep => step_placed hp hstep) h

end Mediabox.Audio
