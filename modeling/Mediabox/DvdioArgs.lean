import Mediabox.DvdioLocks

/-!
# The arguments of synchronous requests

The stream thread has at most one argument on its stack that is not answered.  The answer to it is
owed in one place: by a message in the queue, by the control thread in the loop of FLUSH or
STILL_FRAME, or by the timer of a still frame.

* `Attended` — no message is lost, `pthread_cond_wait` returns after the signal only, the block of
  an indefinite still frame is left after the control thread has taken its message, and `Apart`.
* `Owing` — the run invariant, kept by such steps (`step_owing`).
-/

set_option autoImplicit false

namespace Mediabox.Dvdio

open Transition

/-- The message points to this argument. -/
def Msg.asks (arg : Nat) : Msg → Bool
  | .request a _ => a = arg
  | _ => false

/-- The control thread answers this argument after its loop. -/
def ControlPc.handles (arg : Nat) : ControlPc → Bool
  | .flushing a => a = arg
  | .presenting a length => a = arg && length ≠ 0xFF
  | _ => false

/-- The timer of the still frame answers this argument. -/
def Talk.parks (v : Talk) (arg : Nat) : Bool := v.timerId.isSome && v.waiter = some arg

/-- The answers to an argument that are to come. -/
def Talk.owed (v : Talk) (arg : Nat) : Nat :=
  v.queue.countP (Msg.asks arg) + (v.control.handles arg).toNat + (v.parks arg).toNat

/-- The argument that is alive and not answered. -/
def StreamPc.unanswered : StreamPc → Option Nat
  | .waiting arg _ _ false => some arg
  | .leaving arg => some arg
  | _ => none

/-- The condition under which the arguments are used as they should. -/
def Attended (s : State) (e : Event) : Prop :=
  Apart s e ∧
    match e with
    | .stream (.send ok) => ok = true
    | .stream .wake => s.stream.awaits = false
    | .stream .leave =>
      match s.stream with
      | .leaving arg => ∀ m ∈ s.queue, m.asks arg = false
      | _ => True
    | .control (.take _ sent) => s.queue.head? = some .update → sent = true
    | .fire _ sent => sent = true
    | _ => True

instance (s : State) (e : Event) : Decidable (Attended s e) := by
  unfold Attended
  refine @instDecidableAnd _ _ inferInstance ?_
  cases e with
  | stream e =>
    cases e with
    | leave => cases s.stream <;> infer_instance
    | _ => infer_instance
  | control e => cases e <;> infer_instance
  | _ => infer_instance

/-- The run invariant. -/
structure Owing (v : Talk) : Prop where
  asked : ∀ arg, 0 < v.owed arg → v.stream.unanswered = some arg
  once : ∀ arg, v.owed arg ≤ 1
  waiting : ∀ arg, v.stream.awaits = true → v.stream.unanswered = some arg → v.owed arg = 1
  kind : ∀ arg r, .request arg r ∈ v.queue → r.waits = v.stream.awaits
  held : ∀ arg, v.control.handles arg = true ∨ v.parks arg = true → v.stream.awaits = true
  showing : ∀ arg, v.control = .presenting arg 0xFF → v.timerId = none
  timer : ∀ id, v.timerId = some id →
    v.still = true ∧ v.waiter ≠ none ∧ (v.timers = [id] ∨ .timer id ∈ v.queue)
  timers : v.timers = [] ∨ ∃ id, v.timerId = some id ∧ v.timers = [id]
  fresh : ∀ arg, v.stream.arg = some arg → arg < v.nextArg
  sent : v.control ≠ .updating false

theorem init_owing : Owing init.talk where
  asked := fun _ h => (nomatch h)
  once := fun _ => Nat.zero_le _
  waiting := fun _ h => (nomatch h)
  kind := fun _ _ h => (nomatch h)
  held := fun _ h => (nomatch h)
  showing := fun _ h => (nomatch h)
  timer := fun _ h => (nomatch h)
  timers := Or.inl rfl
  fresh := fun _ h => (nomatch h)
  sent := nofun

variable {v v' : Talk} {e : Event} {acts : List Act}

theorem awaits_of_unanswered {pc : StreamPc} (h : pc.unanswered = none) : pc.awaits = false := by
  cases pc with
  | waiting arg rest fin answered =>
    cases answered with
    | true => rfl
    | false => cases h
  | _ => rfl

theorem owed_request {arg : Nat} {r : Request} (h : .request arg r ∈ v.queue) : 0 < v.owed arg := by
  have hpos : 0 < v.queue.countP (Msg.asks arg) :=
    List.countP_pos_iff.mpr ⟨_, h, by simp [Msg.asks]⟩
  unfold Talk.owed
  omega

theorem owed_handles {arg : Nat} (h : v.control.handles arg = true) : 0 < v.owed arg := by
  unfold Talk.owed
  rw [h, Bool.toNat_true]
  omega

theorem owed_parks {arg : Nat} (h : v.parks arg = true) : 0 < v.owed arg := by
  unfold Talk.owed
  rw [h, Bool.toNat_true]
  omega

theorem owed_post {m : Msg} {ok : Bool} {arg : Nat} (hm : m.asks arg = false) :
    (v.post m ok).owed arg = v.owed arg := by
  cases ok with
  | false => rfl
  | true => simp [Talk.owed, Talk.post, Talk.parks, hm]

theorem Owing.owed_zero (h : Owing v) (hun : v.stream.unanswered = none) (arg : Nat) :
    v.owed arg = 0 := by
  have hasked := h.asked arg
  rw [hun] at hasked
  by_contra hne
  cases hasked (Nat.pos_of_ne_zero hne)

/-- A still frame timer is that of the argument that is waited for. -/
theorem Owing.parked (h : Owing v) {id : Nat} (hid : v.timerId = some id) :
    ∃ arg, v.waiter = some arg ∧ v.parks arg = true ∧ v.stream.unanswered = some arg := by
  obtain ⟨arg, harg⟩ := Option.ne_none_iff_exists'.mp (h.timer id hid).2.1
  have hparks : v.parks arg = true := by simp [Talk.parks, hid, harg]
  exact ⟨arg, harg, hparks, h.asked arg (owed_parks hparks)⟩

/-- Nothing is owed: it is enough to look at the timer. -/
theorem Owing.of_none (hnone : ∀ arg, v.owed arg = 0) (hun : v.stream.unanswered = none)
    (hid : v.timerId = none) (htimers : v.timers = [])
    (hfresh : ∀ arg, v.stream.arg = some arg → arg < v.nextArg)
    (hsent : v.control ≠ .updating false) : Owing v where
  asked := fun arg hpos => absurd (hnone arg) (Nat.ne_of_gt hpos)
  once := fun arg => by rw [hnone arg]; exact Nat.zero_le 1
  waiting := fun arg hs => by rw [awaits_of_unanswered hun] at hs; cases hs
  kind := fun arg r hmem => absurd (hnone arg) (Nat.ne_of_gt (owed_request hmem))
  held := fun arg hor => absurd (hnone arg)
    (Nat.ne_of_gt (hor.elim owed_handles owed_parks))
  showing := fun _ _ => hid
  timer := fun id h => by rw [hid] at h; cases h
  timers := Or.inl htimers
  fresh := hfresh
  sent := hsent

/-- The stream thread stays where it is: what is owed stays, or belongs to nobody who waits. -/
theorem Owing.of_same (h : Owing v) (hs : v'.stream = v.stream) (hnext : v'.nextArg = v.nextArg)
    (howed : ∀ arg, v'.owed arg ≤ v.owed arg ∧
      (v.stream.awaits = true → v'.owed arg = v.owed arg))
    (hkind : ∀ arg r, .request arg r ∈ v'.queue → .request arg r ∈ v.queue)
    (hheld : ∀ arg, v'.control.handles arg = true ∨ v'.parks arg = true →
      v.stream.awaits = true)
    (hshow : ∀ arg, v'.control = .presenting arg 0xFF → v'.timerId = none)
    (htimer : ∀ id, v'.timerId = some id →
      v'.still = true ∧ v'.waiter ≠ none ∧ (v'.timers = [id] ∨ .timer id ∈ v'.queue))
    (htimers : v'.timers = [] ∨ ∃ id, v'.timerId = some id ∧ v'.timers = [id])
    (hsent : v'.control ≠ .updating false) : Owing v' where
  asked := fun arg hpos => by
    rw [hs]
    exact h.asked arg (Nat.lt_of_lt_of_le hpos (howed arg).1)
  once := fun arg => Nat.le_trans (howed arg).1 (h.once arg)
  waiting := fun arg hw hun => by
    rw [hs] at hw hun
    rw [(howed arg).2 hw]
    exact h.waiting arg hw hun
  kind := fun arg r hmem => by
    rw [hs]
    exact h.kind arg r (hkind arg r hmem)
  held := fun arg hor => by
    rw [hs]
    exact hheld arg hor
  showing := hshow
  timer := htimer
  timers := htimers
  fresh := fun arg harg => by
    rw [hs] at harg
    rw [hnext]
    exact h.fresh arg harg
  sent := hsent

/-! ## Timers -/

/-- A timer that has fired is not registered, and the ids are fresh. -/
structure Ticking (v : Talk) : Prop where
  nodup : v.timers.Nodup
  before : ∀ id ∈ v.timers, id < v.nextTimer
  past : ∀ id, .timer id ∈ v.queue → id < v.nextTimer ∧ id ∉ v.timers

theorem init_ticking : Ticking init.talk :=
  ⟨List.nodup_nil, fun _ h => (nomatch h), fun _ h => (nomatch h)⟩

/-- Timers and messages are only removed. -/
theorem Ticking.mono (h : Ticking v) (htimers : List.Sublist v'.timers v.timers)
    (hqueue : ∀ id, .timer id ∈ v'.queue → .timer id ∈ v.queue)
    (hnext : v'.nextTimer = v.nextTimer) : Ticking v' where
  nodup := htimers.nodup h.nodup
  before := fun id hid => hnext ▸ h.before id (htimers.subset hid)
  past := fun id hmem =>
    ⟨hnext ▸ (h.past id (hqueue id hmem)).1, fun hid => (h.past id (hqueue id hmem)).2
      (htimers.subset hid)⟩

theorem timers_answerWaiter (v : Talk) : v.answerWaiter.1.timers = v.timers ∧
    v.answerWaiter.1.queue = v.queue ∧ v.answerWaiter.1.nextTimer = v.nextTimer := by
  unfold Talk.answerWaiter
  split <;> exact ⟨rfl, rfl, rfl⟩

theorem timers_clear (v : Talk) : List.Sublist v.clear.1.timers v.timers ∧
    v.clear.1.queue = v.queue ∧ v.clear.1.nextTimer = v.nextTimer := by
  unfold Talk.clear
  split
  · split
    · obtain ⟨htimers, hqueue, hnext⟩ := timers_answerWaiter { v with
        timers := v.timers.erase _, still := false, timerId := none }
      refine ⟨?_, hqueue, hnext⟩
      rw [htimers]
      exact List.erase_sublist
    · exact ⟨List.Sublist.refl _, rfl, rfl⟩
  · exact ⟨List.Sublist.refl _, rfl, rfl⟩

theorem Take.timers {sent : Bool} {m : Msg} (h : Take v sent acts m v') :
    List.Sublist v'.timers v.timers ∧ v'.queue = v.queue ∧ v'.nextTimer = v.nextTimer := by
  cases h with
  | timer =>
    obtain ⟨htimers, hqueue, hnext⟩ := timers_answerWaiter v.noStill
    exact ⟨htimers ▸ List.Sublist.refl _, hqueue, hnext⟩
  | drop => exact timers_clear { v with audio := 0, frames := 0 }
  | _ => exact ⟨List.Sublist.refl _, rfl, rfl⟩

theorem move_ticking (h : Move v e acts v') (ht : Ticking v) : Ticking v' := by
  have hpost : ∀ {w : Talk} {m : Msg} {ok : Bool}, Ticking w → (∀ id, m ≠ .timer id) →
      Ticking (w.post m ok) := by
    intro w m ok hw hm
    refine hw.mono (List.Sublist.refl _) (fun id hmem => ?_) rfl
    cases ok with
    | false => exact hmem
    | true => simpa [Talk.post, (hm id).symm] using hmem
  cases h with
  | roam | leave | wake | hold | unpark | play | key | delegate | frame | put | sound | shown =>
    exact ⟨ht.nodup, ht.before, ht.past⟩
  | begin | send | input => exact hpost ⟨ht.nodup, ht.before, ht.past⟩ (by rintro _ ⟨⟩)
  | take _ hqueue h =>
    obtain ⟨htimers, hrest, hnext⟩ := h.timers
    refine ht.mono htimers (fun id hmem => ?_) hnext
    rw [hqueue]
    rw [hrest] at hmem
    exact List.mem_cons_of_mem _ hmem
  | again => exact ht
  | flushed =>
    obtain ⟨htimers, hqueue, hnext⟩ := timers_clear { v with control := .idle }
    exact ht.mono htimers (fun id hmem => hqueue ▸ hmem) hnext
  | park =>
    have hnew : ∀ id ∈ v.timers, ∀ i ∈ [v.nextTimer], id ≠ i := by
      intro id hid i hi
      have hlt := ht.before id hid
      have heq := List.mem_singleton.mp hi
      omega
    refine ⟨?_, fun id hid => ?_, fun id hmem => ⟨?_, fun hid => ?_⟩⟩
    · exact List.nodup_append.mpr ⟨ht.nodup, by simp, hnew⟩
    · show id < v.nextTimer + 1
      rcases List.mem_append.mp hid with hold | hnew
      · have hlt := ht.before id hold
        omega
      · have heq := List.mem_singleton.mp hnew
        omega
    · have hlt := (ht.past id hmem).1
      show id < v.nextTimer + 1
      omega
    · rcases List.mem_append.mp hid with hold | hnew
      · exact (ht.past id hmem).2 hold
      · have hlt := (ht.past id hmem).1
        rw [List.mem_singleton.mp hnew] at hlt
        exact Nat.lt_irrefl _ hlt
  | fire hid =>
    rename_i id sent
    have hrest : Ticking { v with timers := v.timers.erase id } :=
      ht.mono List.erase_sublist (fun _ hmem => hmem) rfl
    cases sent with
    | false => exact hrest
    | true =>
      refine ⟨hrest.nodup, hrest.before, fun i hmem => ?_⟩
      rcases List.mem_append.mp hmem with hold | hnew
      · exact hrest.past i hold
      · cases List.mem_singleton.mp hnew
        exact ⟨ht.before _ hid, fun hmem' => (ht.nodup.mem_erase_iff.mp hmem').1 rfl⟩
  | post =>
    refine ht.mono (List.Sublist.refl _) (fun id hmem => ?_) rfl
    simpa using hmem

/-! ## The stream thread -/

theorem waits_stillFrame (length : UInt8) :
    (Request.stillFrame length).waits = decide (length ≠ 0xFF) := by
  have hle : length.toNat < 256 := length.toNat_lt
  have heq : length = 0xFF ↔ length.toNat = 255 := UInt8.toNat_inj.symm
  have hlt : length < 0xFF ↔ length.toNat < 255 := UInt8.lt_iff_toNat_lt
  show decide (length < 0xFF) = decide (length ≠ 0xFF)
  rw [decide_eq_decide, hlt, Ne, heq]
  omega

theorem quiet_unanswered {pc : StreamPc} (h : pc.quiet = true) : pc.unanswered = none := by
  cases pc with
  | waiting | leaving => cases h
  | _ => rfl

theorem arg_quiet {pc : StreamPc} (h : pc.quiet = true) : pc.arg = none := by
  cases pc with
  | waiting | leaving => cases h
  | _ => rfl

theorem unanswered_of_arg {pc : StreamPc} (h : pc.arg = none) : pc.unanswered = none := by
  cases pc with
  | waiting | leaving => cases h
  | _ => rfl

theorem Owing.no_timer (h : Owing v) (hzero : ∀ arg, v.owed arg = 0) :
    v.timerId = none ∧ v.timers = [] := by
  have hnone : v.timerId = none := by
    by_contra hne
    obtain ⟨id, hid⟩ := Option.ne_none_iff_exists'.mp hne
    obtain ⟨arg, -, hparks, -⟩ := h.parked hid
    exact absurd (hzero arg) (Nat.ne_of_gt (owed_parks hparks))
  refine ⟨hnone, h.timers.resolve_right ?_⟩
  rintro ⟨id, hid, -⟩
  rw [hnone] at hid
  cases hid

theorem Owing.goes_on (h : Owing v) (hzero : ∀ arg, v.owed arg = 0) {pc : StreamPc}
    (hpc : pc.arg = none) (ok : Bool) :
    Owing (Talk.post { v with stream := pc } .update ok) := by
  obtain ⟨hid, htimers⟩ := h.no_timer hzero
  refine .of_none (fun arg => ?_) (unanswered_of_arg hpc) hid htimers (fun arg harg => ?_) h.sent
  · rw [owed_post rfl]
    exact hzero arg
  · rw [show pc.arg = some arg from harg] at hpc
    cases hpc

theorem Owing.sends (h : Owing v) (hzero : ∀ arg, v.owed arg = 0) {pc : StreamPc} {r : Request}
    (hun : pc.unanswered = some v.nextArg) (hawaits : pc.awaits = r.waits)
    (hnew : pc.arg = some v.nextArg) :
    Owing (Talk.post { v with stream := pc, nextArg := v.nextArg + 1 } (.request v.nextArg r)
      true) := by
  obtain ⟨hid, htimers⟩ := h.no_timer hzero
  have howed : ∀ arg, Talk.owed (Talk.post { v with stream := pc, nextArg := v.nextArg + 1 }
      (.request v.nextArg r) true) arg = (decide (v.nextArg = arg)).toNat := by
    intro arg
    have hv := hzero arg
    unfold Talk.owed at hv
    simp only [Talk.owed, Talk.post, Talk.parks, if_true, List.countP_append,
      List.countP_singleton, Msg.asks] at hv ⊢
    by_cases harg : v.nextArg = arg
    · simp only [harg, decide_true, if_true, Bool.toNat_true]
      omega
    · simp only [harg, decide_false, Bool.toNat_false]
      simpa using hv
  constructor
  case asked =>
    intro arg hpos
    rw [howed] at hpos
    by_cases harg : v.nextArg = arg
    · subst harg
      exact hun
    · simp [harg] at hpos
  case once =>
    intro arg
    rw [howed]
    exact Bool.toNat_le _
  case waiting =>
    intro arg _ harg
    have heq : v.nextArg = arg := Option.some.inj (hun.symm.trans harg)
    rw [howed]
    simp [heq]
  case kind =>
    intro arg r' hmem
    rcases List.mem_append.mp hmem with hold | hnew
    · exact absurd (hzero arg) (Nat.ne_of_gt (owed_request hold))
    · cases List.mem_singleton.mp hnew
      exact hawaits.symm
  case held =>
    intro arg hor
    have hold : v.control.handles arg = true ∨ v.parks arg = true := hor
    exact absurd (hzero arg) (Nat.ne_of_gt (hold.elim owed_handles owed_parks))
  case showing => exact fun _ _ => hid
  case timer =>
    intro id hsome
    rw [show v.timerId = some id from hsome] at hid
    cases hid
  case timers => exact Or.inl htimers
  case fresh =>
    intro arg harg
    have heq : v.nextArg = arg := Option.some.inj (hnew.symm.trans harg)
    show arg < v.nextArg + 1
    omega
  case sent => exact h.sent

/-! ## The control thread -/

theorem waiting_of_awaits {pc : StreamPc} {arg : Nat} (hun : pc.unanswered = some arg)
    (hawaits : pc.awaits = true) : ∃ rest fin, pc = .waiting arg rest fin false := by
  cases pc with
  | waiting a rest fin answered =>
    cases answered with
    | true => cases hawaits
    | false =>
      cases hun
      exact ⟨rest, fin, rfl⟩
  | _ => cases hawaits

@[simp]
theorem handles_idle (arg : Nat) : ControlPc.idle.handles arg = false := rfl

theorem answerWaiter_some {arg : Nat} (hw : v.waiter = some arg) :
    v.answerWaiter = (v.answer arg, [.returned arg]) := by
  unfold Talk.answerWaiter
  rw [hw]

theorem clear_none (hid : v.timerId = none) : v.clear = ({ v with still := false }, []) := by
  obtain ⟨_, _, _, _, _, _, still, _, timerId, _, _, _, _, _, _, _⟩ := v
  cases hid
  cases still with
  | true | false => rfl

theorem clear_some {id arg : Nat} (hstill : v.still = true) (hid : v.timerId = some id)
    (hw : v.waiter = some arg) :
    v.clear = (Talk.answer { v with
      timers := v.timers.erase id, still := false, timerId := none } arg, [.returned arg]) := by
  unfold Talk.clear
  rw [hid, if_pos hstill]
  exact answerWaiter_some hw

theorem Owing.owed_other (h : Owing v) {arg a : Nat} (hun : v.stream.unanswered = some arg)
    (hne : a ≠ arg) : v.owed a = 0 := by
  by_contra hpos
  have ha := h.asked a (Nat.pos_of_ne_zero hpos)
  rw [hun] at ha
  exact hne (Option.some.inj ha).symm

/-- What the queue or the control thread owes is not owed by a timer. -/
theorem Owing.unparked (h : Owing v) (arg : Nat)
    (hpos : 0 < v.queue.countP (Msg.asks arg) + (v.control.handles arg).toNat) :
    v.timerId = none ∧ v.timers = [] := by
  have howed : 0 < v.owed arg := by
    unfold Talk.owed
    omega
  have hnone : v.timerId = none := by
    by_contra hne
    obtain ⟨id, hid⟩ := Option.ne_none_iff_exists'.mp hne
    obtain ⟨a, -, hparks, hun⟩ := h.parked hid
    have ha : a = arg := Option.some.inj (hun.symm.trans (h.asked arg howed))
    subst ha
    have honce := h.once a
    unfold Talk.owed at honce
    rw [hparks, Bool.toNat_true] at honce
    omega
  refine ⟨hnone, h.timers.resolve_right ?_⟩
  rintro ⟨id, hid, -⟩
  rw [hnone] at hid
  cases hid

theorem Owing.answered (h : Owing v) {arg : Nat} (hun : v.stream.unanswered = some arg)
    (hawaits : v.stream.awaits = true) (hs : v'.stream = v.stream.answer arg)
    (hnext : v'.nextArg = v.nextArg) (hle : ∀ a, v'.owed a ≤ v.owed a) (hlt : v'.owed arg = 0)
    (hid : v'.timerId = none) (htimers : v'.timers = []) (hsent : v'.control ≠ .updating false) :
    Owing v' := by
  obtain ⟨rest, fin, hpc⟩ := waiting_of_awaits hun hawaits
  have hnew : v'.stream = .waiting arg rest fin true := by
    rw [hs, hpc]
    simp [StreamPc.answer]
  refine .of_none (fun a => ?_) (by rw [hnew]; rfl) hid htimers (fun a ha => ?_) hsent
  · by_cases hne : a = arg
    · rw [hne]
      exact hlt
    · have hzero := h.owed_other hun hne
      have ha := hle a
      omega
  · rw [hnext]
    apply h.fresh
    rw [hnew] at ha
    rw [hpc]
    exact ha

theorem owed_cons {m : Msg} {queue : List Msg} (hqueue : v.queue = m :: queue) (arg : Nat) :
    v.owed arg = Talk.owed { v with queue := queue } arg + (m.asks arg).toNat := by
  unfold Talk.owed
  rw [hqueue, List.countP_cons]
  cases m.asks arg with
  | true =>
    simp only [if_true, Bool.toNat_true, Talk.parks]
    omega
  | false => simp [Talk.parks]

/-- The timer of the still frame after a message was taken that is not its own. -/
theorem Owing.timer_rest (h : Owing v) {m : Msg} {queue : List Msg} (hqueue : v.queue = m :: queue)
    (hm : ∀ id, v.timerId = some id → m ≠ .timer id) :
    ∀ id, v.timerId = some id →
      v.still = true ∧ v.waiter ≠ none ∧ (v.timers = [id] ∨ .timer id ∈ queue) := by
  intro id hid
  obtain ⟨hstill, hw, hwhere⟩ := h.timer id hid
  refine ⟨hstill, hw, hwhere.imp_right fun hmem => ?_⟩
  rw [hqueue] at hmem
  exact (List.mem_cons.mp hmem).resolve_left fun heq => hm id hid heq.symm

theorem Owing.taken (h : Owing v) {m : Msg} {queue : List Msg} {pc : ControlPc}
    (hidle : v.control = .idle) (hqueue : v.queue = m :: queue) (hasks : ∀ arg, m.asks arg = false)
    (hm : ∀ id, v.timerId = some id → m ≠ .timer id) (hno : ∀ arg, pc.handles arg = false)
    (hshow : ∀ arg, pc ≠ .presenting arg 0xFF) (hsent : pc ≠ .updating false) :
    Owing { v with queue := queue, control := pc } := by
  have howed : ∀ arg, Talk.owed { v with queue := queue, control := pc } arg = v.owed arg := by
    intro arg
    rw [owed_cons hqueue, hasks arg]
    simp [Talk.owed, Talk.parks, hno arg, hidle]
  refine h.of_same rfl rfl (fun arg => ⟨Nat.le_of_eq (howed arg), fun _ => howed arg⟩) ?_ ?_ ?_ ?_ h.timers
    hsent
  · intro arg r hmem
    rw [hqueue]
    exact List.mem_cons_of_mem m hmem
  · intro arg hor
    refine h.held arg (hor.imp_left fun hhandles => ?_)
    rw [hno arg] at hhandles
    cases hhandles
  · exact fun arg heq => absurd heq (hshow arg)
  · exact h.timer_rest hqueue hm

theorem Owing.taken_request (h : Owing v) {arg : Nat} {r : Request} {queue : List Msg}
    {pc : ControlPc} (hidle : v.control = .idle) (hqueue : v.queue = .request arg r :: queue)
    (hr : r.waits = true) (hpc : ∀ a, pc.handles a = decide (arg = a))
    (hshow : ∀ a, pc ≠ .presenting a 0xFF) (hsent : pc ≠ .updating false) :
    Owing { v with queue := queue, control := pc } := by
  have hmem : .request arg r ∈ v.queue := by
    rw [hqueue]
    exact List.mem_cons_self
  have howed : ∀ a, Talk.owed { v with queue := queue, control := pc } a = v.owed a := by
    intro a
    rw [owed_cons hqueue]
    simp only [Talk.owed, Talk.parks, hpc a, hidle, handles_idle, Msg.asks, Bool.toNat_false]
    omega
  refine h.of_same rfl rfl (fun a => ⟨Nat.le_of_eq (howed a), fun _ => howed a⟩) ?_ ?_ ?_ ?_ h.timers hsent
  · intro a r' hmem'
    rw [hqueue]
    exact List.mem_cons_of_mem _ hmem'
  · exact fun a _ => (h.kind arg r hmem).symm.trans hr
  · exact fun a heq => absurd heq (hshow a)
  · exact h.timer_rest hqueue nofun

theorem Owing.taken_still (h : Owing v) {arg : Nat} {queue : List Msg} {pc : ControlPc}
    (hqueue : v.queue = .request arg (.stillFrame 0xFF) :: queue)
    (hno : ∀ a, pc.handles a = false) (hshow : ∀ a, pc = .presenting a 0xFF → v.still = false)
    (hsent : pc ≠ .updating false) : Owing { v with queue := queue, control := pc } := by
  have hmem : .request arg (.stillFrame 0xFF) ∈ v.queue := by
    rw [hqueue]
    exact List.mem_cons_self
  have hawaits : v.stream.awaits = false := (h.kind arg _ hmem).symm
  refine h.of_same rfl rfl (fun a => ⟨?_, fun hs => ?_⟩) ?_ ?_ ?_ ?_ h.timers hsent
  · rw [owed_cons hqueue]
    simp only [Talk.owed, Talk.parks, hno a, Bool.toNat_false]
    omega
  · rw [hawaits] at hs
    cases hs
  · intro a r' hmem'
    rw [hqueue]
    exact List.mem_cons_of_mem _ hmem'
  · intro a hor
    refine h.held a (hor.imp_left fun hhandles => ?_)
    rw [hno a] at hhandles
    cases hhandles
  · intro a heq
    by_contra hne
    obtain ⟨id, hid⟩ := Option.ne_none_iff_exists'.mp hne
    have hstill := (h.timer id hid).1
    rw [hshow a heq] at hstill
    cases hstill
  · exact h.timer_rest hqueue nofun

theorem Owing.unparks (h : Owing v) {m : Msg} {queue : List Msg} {id arg : Nat} {timers : List Nat}
    (hqueue : v.queue = m :: queue) (hid : v.timerId = some id) (hw : v.waiter = some arg)
    (htimers : timers = []) :
    Owing (Talk.answer { v with
      queue := queue, timers := timers, still := false, timerId := none } arg) := by
  have hparks : v.parks arg = true := by simp [Talk.parks, hid, hw]
  have hun := h.asked arg (owed_parks hparks)
  have hle : ∀ a, Talk.owed (Talk.answer { v with
      queue := queue, timers := timers, still := false, timerId := none } arg) a +
        (v.parks a).toNat ≤ v.owed a := by
    intro a
    rw [owed_cons hqueue]
    simp only [Talk.owed, Talk.answer, Talk.parks, Option.isSome_none, Bool.false_and,
      Bool.toNat_false]
    omega
  refine h.answered hun (h.held arg (Or.inr hparks)) rfl rfl (fun a => ?_) ?_ rfl htimers h.sent
  · have ha := hle a
    omega
  · have ha := hle arg
    have honce := h.once arg
    rw [hparks, Bool.toNat_true] at ha
    omega

theorem Owing.erase_timers (h : Owing v) {id : Nat} (hid : v.timerId = some id) :
    v.timers.erase id = [] := by
  rcases h.timers with hnil | ⟨id', hid', hone⟩
  · rw [hnil]
    rfl
  · have heq : id' = id := Option.some.inj (hid'.symm.trans hid)
    rw [hone, heq, List.erase_cons_head]

theorem Owing.pipeline (h : Owing v) (audio frames : Nat) (delegated paused : Bool) : Owing { v with
    audio := audio, frames := frames, delegated := delegated, paused := paused } := { h with }

theorem Owing.no_still (h : Owing v) (hid : v.timerId = none) : Owing { v with still := false } :=
  { h with
    timer := fun id hsome => by
      rw [show v.timerId = some id from hsome] at hid
      cases hid }

theorem take_owing {m : Msg} {queue : List Msg} {sent : Bool} (h : Owing v) (hticks : Ticking v)
    (hidle : v.control = .idle) (hqueue : v.queue = m :: queue) (hsent : m = .update → sent = true)
    (ht : Take { v with queue := queue } sent acts m v') : Owing v' := by
  have hrest : (∀ arg, m.asks arg = false) → (∀ id, v.timerId = some id → m ≠ .timer id) →
      Owing { v with queue := queue } := by
    intro hasks hm
    have howing : Owing { v with queue := queue, control := .idle } :=
      h.taken hidle hqueue hasks hm handles_idle nofun nofun
    rw [← hidle] at howing
    exact howing
  cases ht with
  | update =>
    rw [hsent rfl]
    exact h.taken hidle hqueue (fun _ => rfl) nofun (fun _ => rfl) nofun nofun
  | noUpdate | other => exact hrest (fun _ => rfl) nofun
  | flush => exact h.taken_request hidle hqueue rfl (fun _ => rfl) nofun nofun
  | still hcond =>
    rename_i arg length
    by_cases hlength : length = 0xFF
    · subst hlength
      have hstill : v.still = false := hcond.resolve_left fun hne => hne rfl
      exact h.taken_still hqueue (fun a => by simp [ControlPc.handles]) (fun _ _ => hstill) nofun
    · have hwaits : (Request.stillFrame length).waits = true := by simp [waits_stillFrame, hlength]
      refine h.taken_request hidle hqueue hwaits (fun a => ?_) (fun a heq => ?_) nofun
      · simp [ControlPc.handles, hlength]
      · cases heq
        exact hlength rfl
  | skip hlength =>
    subst hlength
    have howing : Owing { v with queue := queue, control := .idle } :=
      h.taken_still hqueue handles_idle nofun nofun
    rw [← hidle] at howing
    exact howing
  | quick hr =>
    rename_i arg r
    have hmem : .request arg r ∈ v.queue := by
      rw [hqueue]
      exact List.mem_cons_self
    have hasks : (Msg.request arg r).asks arg = true := by simp [Msg.asks]
    have hcons := owed_cons hqueue
    obtain ⟨hid, htimers⟩ := h.unparked arg (by
      have hpos : 0 < v.queue.countP (Msg.asks arg) := List.countP_pos_iff.mpr ⟨_, hmem, hasks⟩
      omega)
    refine h.answered (h.asked arg (owed_request hmem)) ((h.kind arg r hmem).symm.trans hr) rfl rfl
      (fun a => ?_) ?_ hid htimers h.sent
    · have ha := hcons a
      show Talk.owed { v with queue := queue } a ≤ v.owed a
      omega
    · have ha := hcons arg
      have honce := h.once arg
      rw [hasks, Bool.toNat_true] at ha
      show Talk.owed { v with queue := queue } arg = 0
      omega
  | timer hid =>
    rename_i id
    obtain ⟨arg, hw, -, -⟩ := h.parked hid
    have hgone : id ∉ v.timers := by
      apply (hticks.past id _).2
      rw [hqueue]
      exact List.mem_cons_self
    have htimers : v.timers = [] := by
      rw [← List.erase_of_not_mem hgone]
      exact h.erase_timers hid
    have hw' : (Talk.noStill { v with queue := queue }).waiter = some arg := hw
    rw [answerWaiter_some hw']
    exact h.unparks hqueue hid hw htimers
  | noTimer hid =>
    refine hrest (fun _ => rfl) ?_
    rintro id hid' heq
    cases heq
    exact hid hid'
  | ready => exact h.taken hidle hqueue (fun _ => rfl) nofun (fun _ => rfl) nofun nofun
  | drop =>
    have hempty := h.pipeline 0 0 v.delegated v.paused
    rcases Option.eq_none_or_eq_some v.timerId with hid | ⟨id, hid⟩
    · rw [clear_none (v := { v with queue := queue, audio := 0, frames := 0 }) hid]
      exact ((hrest (fun _ => rfl) nofun).pipeline 0 0 v.delegated v.paused).no_still hid
    · obtain ⟨arg, hw, -, -⟩ := h.parked hid
      rw [clear_some (v := { v with queue := queue, audio := 0, frames := 0 }) (h.timer id hid).1
        hid hw]
      exact hempty.unparks hqueue hid hw (h.erase_timers hid)
  | pausing =>
    exact (hrest (fun _ => rfl) nofun).pipeline v.audio v.frames v.delegated _

/-! ## Every step -/

/-- Nothing changes in the requests, the control thread or the still frame. -/
theorem Owing.aside (h : Owing v) (hs : v'.stream = v.stream) (hnext : v'.nextArg = v.nextArg)
    (hcontrol : v'.control = v.control ∨ v'.control = .idle ∧ ∀ arg, v.control.handles arg = false)
    (hstill : v'.still = v.still ∧ v'.waiter = v.waiter ∧ v'.timerId = v.timerId ∧
      v'.timers = v.timers)
    (hqueue : v'.queue = v.queue ∨ ∃ m, v'.queue = v.queue ++ [m] ∧ (∀ arg, m.asks arg = false)) :
    Owing v' := by
  obtain ⟨hstill, hwaiter, hid, htimers⟩ := hstill
  have hhandles : ∀ arg, v'.control.handles arg = v.control.handles arg := by
    intro arg
    rcases hcontrol with heq | ⟨heq, hno⟩
    · rw [heq]
    · rw [heq, hno arg]
      rfl
  have hparks : ∀ arg, v'.parks arg = v.parks arg := by
    intro arg
    unfold Talk.parks
    rw [hid, hwaiter]
  have hcount : ∀ arg, v'.queue.countP (Msg.asks arg) = v.queue.countP (Msg.asks arg) := by
    intro arg
    rcases hqueue with heq | ⟨m, heq, hm⟩
    · rw [heq]
    · rw [heq]
      simp [hm arg]
  have howed : ∀ arg, v'.owed arg = v.owed arg := by
    intro arg
    unfold Talk.owed
    rw [hcount, hhandles, hparks]
  refine h.of_same hs hnext (fun arg => ⟨Nat.le_of_eq (howed arg), fun _ => howed arg⟩) ?_ ?_ ?_ ?_
    ?_ ?_
  · intro arg r hmem
    rcases hqueue with heq | ⟨m, heq, hm⟩
    · rwa [heq] at hmem
    · rw [heq] at hmem
      refine (List.mem_append.mp hmem).resolve_right fun hnew => ?_
      have hasks := hm arg
      rw [← List.mem_singleton.mp hnew] at hasks
      simp [Msg.asks] at hasks
  · intro arg hor
    rw [hhandles, hparks] at hor
    exact h.held arg hor
  · intro arg hpc
    rw [hid]
    rcases hcontrol with heq | ⟨heq, -⟩
    · exact h.showing arg (heq.symm.trans hpc)
    · rw [heq] at hpc
      cases hpc
  · intro id hid'
    rw [hid] at hid'
    obtain ⟨h₁, h₂, h₃⟩ := h.timer id hid'
    refine ⟨hstill.trans h₁, hwaiter ▸ h₂, ?_⟩
    rw [htimers]
    refine h₃.imp_right fun hmem => ?_
    rcases hqueue with heq | ⟨m, heq, -⟩
    · rwa [heq]
    · rw [heq]
      exact List.mem_append_left _ hmem
  · rw [htimers, hid]
    exact h.timers
  · rcases hcontrol with heq | ⟨heq, -⟩
    · rw [heq]
      exact h.sent
    · rw [heq]
      exact nofun

theorem Owing.handled (h : Owing v) {arg : Nat} (hhandles : v.control.handles arg = true)
    (hs : v'.stream = v.stream.answer arg) (hnext : v'.nextArg = v.nextArg)
    (hcontrol : v'.control = .idle) (hqueue : v'.queue = v.queue) (hid : v'.timerId = none)
    (htimers : v'.timers = v.timers) : Owing v' := by
  have hle : ∀ a, v'.owed a + (v.control.handles a).toNat ≤ v.owed a := by
    intro a
    simp only [Talk.owed, Talk.parks, hqueue, hcontrol, hid, handles_idle, Bool.toNat_false,
      Option.isSome_none, Bool.false_and]
    omega
  obtain ⟨-, hnone⟩ := h.unparked arg (by rw [hhandles, Bool.toNat_true]; omega)
  refine h.answered (h.asked arg (owed_handles hhandles)) (h.held arg (Or.inl hhandles)) hs hnext
    (fun a => ?_) ?_ hid (htimers.trans hnone) (by rw [hcontrol]; exact nofun)
  · have ha := hle a
    omega
  · have ha := hle arg
    have honce := h.once arg
    rw [hhandles, Bool.toNat_true] at ha
    omega

theorem Owing.park (h : Owing v) {arg : Nat} {length : UInt8}
    (hpc : v.control = .presenting arg length) (hlength : length ≠ 0xFF) :
    Owing { v with
      control := .idle
      still := true
      waiter := some arg
      timerId := some v.nextTimer
      timers := v.timers ++ [v.nextTimer]
      nextTimer := v.nextTimer + 1 } := by
  have hhandles : v.control.handles arg = true := by simp [hpc, ControlPc.handles, hlength]
  obtain ⟨hid, hnone⟩ := h.unparked arg (by rw [hhandles, Bool.toNat_true]; omega)
  have howed : ∀ a, Talk.owed { v with
      control := .idle
      still := true
      waiter := some arg
      timerId := some v.nextTimer
      timers := v.timers ++ [v.nextTimer]
      nextTimer := v.nextTimer + 1 } a = v.owed a := by
    intro a
    simp [Talk.owed, Talk.parks, hid, hpc, ControlPc.handles, hlength]
  refine h.of_same rfl rfl (fun a => ⟨Nat.le_of_eq (howed a), fun _ => howed a⟩)
    (fun _ _ hmem => hmem) (fun _ _ => h.held arg (Or.inl hhandles)) nofun ?_ ?_ nofun
  · intro id hsome
    cases hsome
    refine ⟨rfl, nofun, Or.inl ?_⟩
    show v.timers ++ [v.nextTimer] = [v.nextTimer]
    rw [hnone]
    rfl
  · refine Or.inr ⟨v.nextTimer, rfl, ?_⟩
    show v.timers ++ [v.nextTimer] = [v.nextTimer]
    rw [hnone]
    rfl

theorem Owing.shown (h : Owing v) {arg : Nat} (hpc : v.control = .presenting arg 0xFF) :
    Owing { v with control := .idle, still := true, waiter := some arg } := by
  have hid := h.showing arg hpc
  have hno : ∀ a, v.control.handles a = false := by
    intro a
    simp [hpc, ControlPc.handles]
  have hparks : ∀ a, Talk.parks { v with control := .idle, still := true, waiter := some arg } a =
      false := by
    intro a
    simp [Talk.parks, hid]
  have howed : ∀ a, Talk.owed { v with control := .idle, still := true, waiter := some arg } a =
      v.owed a := by
    intro a
    simp [Talk.owed, Talk.parks, hid, hno a]
  refine h.of_same rfl rfl (fun a => ⟨Nat.le_of_eq (howed a), fun _ => howed a⟩)
    (fun _ _ hmem => hmem) (fun a hor => ?_) nofun ?_ h.timers nofun
  · rw [hparks a] at hor
    rcases hor with hor | hor <;> cases hor
  · intro id hsome
    rw [show v.timerId = some id from hsome] at hid
    cases hid

theorem Owing.fires (h : Owing v) {id : Nat} (hmem : id ∈ v.timers) :
    Owing (Talk.post { v with timers := v.timers.erase id } (.timer id) true) := by
  obtain ⟨id', hid, hone⟩ := h.timers.resolve_left (List.ne_nil_of_mem hmem)
  have heq : id = id' := by
    rw [hone] at hmem
    exact List.mem_singleton.mp hmem
  subst heq
  have hnil : v.timers.erase id = [] := h.erase_timers hid
  have howed : ∀ a, Talk.owed (Talk.post { v with timers := v.timers.erase id } (.timer id) true) a =
      v.owed a := fun a => owed_post rfl
  refine h.of_same rfl rfl (fun a => ⟨Nat.le_of_eq (howed a), fun _ => howed a⟩) ?_ h.held h.showing
    ?_ (Or.inl hnil) h.sent
  · intro a r hr
    simpa [Talk.post] using hr
  · intro i hi
    have hii : i = id := Option.some.inj (hi.symm.trans hid)
    obtain ⟨hstill, hw, -⟩ := h.timer id hid
    refine ⟨hstill, hw, Or.inr ?_⟩
    rw [hii]
    exact List.mem_append_right _ (List.mem_singleton_self _)

theorem step_owing {s : State} (hmove : Move s.talk e acts v') (hok : Attended s e)
    (h : Owing s.talk) (ht : Ticking s.talk) : Owing v' := by
  cases hmove with
  | roam hpc hnew =>
    exact h.goes_on (h.owed_zero (quiet_unanswered hpc)) (arg_quiet hnew) false
  | begin hpc =>
    refine h.goes_on (h.owed_zero ?_) rfl _
    rw [hpc]
    rfl
  | send hpc =>
    rename_i ok r rest fin
    have hsent : ok = true := hok.2
    subst hsent
    have hzero := h.owed_zero (by rw [hpc]; rfl)
    cases hr : r.waits with
    | true | false => exact h.sends hzero rfl hr.symm rfl
  | leave hpc =>
    rename_i arg
    -- its message was taken, and only a waiting argument is owed elsewhere
    have hqueue : ∀ m ∈ s.talk.queue, m.asks arg = false := by
      have hleave := hok.2
      simp only [show s.stream = .leaving arg from hpc] at hleave
      exact hleave
    have hawaits : s.talk.stream.awaits = false := by
      rw [hpc]
      rfl
    have hzero : ∀ a, s.talk.owed a = 0 := by
      intro a
      by_cases ha : a = arg
      · subst ha
        have hcount : s.talk.queue.countP (Msg.asks a) = 0 :=
          List.countP_eq_zero.mpr fun m hm => by simp [hqueue m hm]
        have hheld := h.held a
        rw [hawaits] at hheld
        unfold Talk.owed
        rw [hcount]
        cases hc : s.talk.control.handles a with
        | true => cases hheld (Or.inl hc)
        | false =>
          cases hp : s.talk.parks a with
          | true => cases hheld (Or.inr hp)
          | false => rfl
      · exact h.owed_other (by rw [hpc]; rfl) ha
    exact h.goes_on hzero rfl false
  | wake hpc hnew =>
    rename_i arg rest fin answered pc
    have hanswered : s.stream.awaits = false := hok.2
    rw [show s.stream = _ from hpc] at hanswered
    cases answered with
    | false => cases hanswered
    | true =>
      have hzero := h.owed_zero (by rw [hpc]; rfl)
      obtain rfl | ⟨r, rest', rfl⟩ := hnew
      · exact h.goes_on hzero rfl false
      · exact h.goes_on hzero rfl false
  | take hpc hqueue htake =>
    refine take_owing h ht hpc hqueue (fun hm => ?_) htake
    subst hm
    apply hok.2
    rw [show s.queue = _ from hqueue]
    rfl
  | again => exact h
  | flushed hpc =>
    rename_i arg
    have hhandles : s.talk.control.handles arg = true := by simp [hpc, ControlPc.handles]
    obtain ⟨hid, -⟩ := h.unparked arg (by rw [hhandles, Bool.toNat_true]; omega)
    rw [clear_none (v := { s.talk with control := .idle }) hid]
    exact h.handled hhandles rfl rfl rfl rfl hid rfl
  | hold hpc => exact h.shown hpc
  | park hpc hlength => exact h.park hpc hlength
  | unpark hpc hlength =>
    exact h.handled (by simp [hpc, ControlPc.handles, hlength]) rfl rfl rfl rfl rfl rfl
  | play hpc =>
    refine h.aside rfl rfl (Or.inr ⟨rfl, fun arg => ?_⟩) ⟨rfl, rfl, rfl, rfl⟩ (Or.inl rfl)
    rw [hpc]
    rfl
  | key => exact h.aside rfl rfl (Or.inl rfl) ⟨rfl, rfl, rfl, rfl⟩ (Or.inl rfl)
  | input =>
    rename_i update _ _ _ _ _
    refine h.aside rfl rfl (Or.inl rfl) ⟨rfl, rfl, rfl, rfl⟩ ?_
    cases update with
    | false => exact Or.inl rfl
    | true => exact Or.inr ⟨.update, rfl, fun _ => rfl⟩
  | delegate hpc hcontrol =>
    refine h.aside rfl rfl (Or.inr ⟨rfl, fun arg => ?_⟩) ⟨rfl, rfl, rfl, rfl⟩ (Or.inl rfl)
    rw [hcontrol]
    rfl
  | frame => exact h.pipeline s.audio s.frames false s.paused
  | put => exact h.pipeline _ _ s.delegated s.paused
  | sound => exact h.pipeline _ s.frames s.delegated s.paused
  | shown => exact h.pipeline s.audio _ _ s.paused
  | fire hid =>
    have hsent := hok.2
    simp only at hsent
    subst hsent
    exact h.fires hid
  | post =>
    rename_i p _
    exact h.aside rfl rfl (Or.inl rfl) ⟨rfl, rfl, rfl, rfl⟩ (Or.inr ⟨.posted p, rfl, fun _ => rfl⟩)

end Mediabox.Dvdio
