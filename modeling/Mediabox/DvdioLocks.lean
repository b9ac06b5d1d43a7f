import Mathlib.Logic.Relation
import Mathlib.Order.Basic
import Mediabox.DvdioTalk

/-!
# Who waits for whom while a DVD is played

The stream thread keeps `inst->lock` while it waits for the answer to a request; the control thread
waits for the main thread in an UPDATE; the main thread waits for `inst->lock` with a key.

* `Apart` — an UPDATE that is queued or handled, a request without answer and a key that is handled
  do not come together.
* `never_circular` — in runs of such steps the threads never wait for each other in a circle.
* `key_during_update` — a navigation packet with a new highlight, and a key.
-/

set_option autoImplicit false

namespace Mediabox.Dvdio

open Transition

inductive Tid where
  | stream
  | control
  | main
  deriving DecidableEq, Repr

/-- In `avbox_syncarg_wait`, without an answer. -/
def StreamPc.awaits : StreamPc → Bool
  | .waiting _ _ _ false => true
  | _ => false

/-- The next step is a request with an answer. -/
def StreamPc.asks : StreamPc → Bool
  | .sending r _ _ => r.waits
  | _ => false

/-- In an UPDATE. -/
def ControlPc.updates : ControlPc → Bool
  | .updating _ => true
  | _ => false

/-- Before `inst->lock`. -/
def MainPc.wants : MainPc → Bool
  | .locking _ => true
  | .idle => false

/-- A thread waits for another one: for its answer, for its part of an UPDATE, or for the lock that
    it has. -/
def WaitsFor (s : State) : Tid → Tid → Prop
  | .stream, .control => s.stream.awaits = true
  | .control, .main => s.control.updates = true
  | .control, .stream => s.control = .starting ∧ s.stream.holds = true
  | .main, .stream => s.main.wants = true ∧ s.stream.holds = true
  | _, _ => False

/-- An UPDATE is queued or handled. -/
def Talk.updatePending (v : Talk) : Prop := .update ∈ v.queue ∨ v.control.updates = true

instance (v : Talk) : Decidable v.updatePending := inferInstanceAs (Decidable (_ ∨ _))

/-- The condition under which there is no deadlock: with an UPDATE pending, no key is taken while a
    request waits, and no request is sent while a key waits. -/
def Apart (s : State) : Event → Prop
  | .main (.key _) => s.stream.awaits = true → ¬ s.talk.updatePending
  | .stream (.send _) => s.stream.asks = true → s.main.wants = true → ¬ s.talk.updatePending
  | _ => True

instance (s : State) (e : Event) : Decidable (Apart s e) := by
  unfold Apart
  split <;> infer_instance

/-! ## What a step leaves alone -/

/-- Nothing changes but the still frame and that requests are answered. -/
structure Answers (v v' : Talk) : Prop where
  queue : v'.queue = v.queue
  control : v'.control = v.control
  main : v'.main = v.main
  playing : v'.playing = v.playing
  ready : v'.ready = v.ready
  frames : v'.frames = v.frames
  delegated : v'.delegated = v.delegated
  paused : v'.paused = v.paused
  quiet : v'.stream.quiet = v.stream.quiet
  awaits : v'.stream.awaits = true → v.stream.awaits = true

theorem Answers.trans {v₁ v₂ v₃ : Talk} (h₁ : Answers v₁ v₂) (h₂ : Answers v₂ v₃) :
    Answers v₁ v₃ where
  queue := h₂.queue.trans h₁.queue
  control := h₂.control.trans h₁.control
  main := h₂.main.trans h₁.main
  playing := h₂.playing.trans h₁.playing
  ready := h₂.ready.trans h₁.ready
  frames := h₂.frames.trans h₁.frames
  delegated := h₂.delegated.trans h₁.delegated
  paused := h₂.paused.trans h₁.paused
  quiet := h₂.quiet.trans h₁.quiet
  awaits := fun h => h₁.awaits (h₂.awaits h)

theorem Answers.refl (v : Talk) : Answers v v :=
  ⟨rfl, rfl, rfl, rfl, rfl, rfl, rfl, rfl, rfl, id⟩

/-- The still frame has no part in it. -/
theorem Answers.of_still {v v' : Talk} (timers : List Nat) (still : Bool) (timerId : Option Nat)
    (h : Answers { v with timers := timers, still := still, timerId := timerId } v') :
    Answers v v' := { h with }

theorem quiet_answer (pc : StreamPc) (arg : Nat) : (pc.answer arg).quiet = pc.quiet := by
  unfold StreamPc.answer
  split
  · split <;> rfl
  · rfl

theorem awaits_quiet {pc : StreamPc} (h : pc.quiet = true) : pc.awaits = false := by
  cases pc with
  | waiting => cases h
  | _ => rfl

theorem awaits_answer {pc : StreamPc} {arg : Nat} (h : (pc.answer arg).awaits = true) :
    pc.awaits = true := by
  unfold StreamPc.answer at h
  split at h
  · split at h
    · cases h
    · exact h
  · exact h

theorem answers_answer (v : Talk) (arg : Nat) : Answers v (v.answer arg) :=
  ⟨rfl, rfl, rfl, rfl, rfl, rfl, rfl, rfl, quiet_answer v.stream arg, awaits_answer⟩

theorem answers_answerWaiter (v : Talk) : Answers v v.answerWaiter.1 := by
  unfold Talk.answerWaiter
  split
  · exact answers_answer v _
  · exact .refl v

theorem answers_clear (v : Talk) : Answers v v.clear.1 := by
  unfold Talk.clear
  split
  · split
    · exact (answers_answerWaiter _).of_still _ _ _
    · exact (Answers.refl _).of_still _ _ _
  · exact .refl v

theorem answers_flush (v : Talk) (arg : Nat) : Answers v (v.clear.1.answer arg) :=
  (answers_clear v).trans (answers_answer _ arg)

/-! ## The playback begins once -/

/-- VIDEOOUT_READY, from its sending to the playback. -/
def Talk.starts (v : Talk) : Nat :=
  v.queue.count (.posted .videoOutReady) + (decide (v.control = .starting)).toNat + v.playing.toNat

/-- The run invariant. -/
structure Orderly (v : Talk) : Prop where
  once : v.starts ≤ v.ready.toNat
  /-- requests are sent after the playback has begun -/
  plays : v.stream.quiet = false → v.playing = true
  apart : v.stream.awaits = true → v.main.wants = true → ¬ v.updatePending

theorem init_orderly : Orderly init.talk :=
  ⟨by decide, nofun, nofun⟩

variable {v v' : Talk} {e : Event} {acts : List Act}

theorem post_once {m : Msg} {ok : Bool} (hm : m ≠ .posted .videoOutReady)
    (ho : v.starts ≤ v.ready.toNat) : (v.post m ok).starts ≤ (v.post m ok).ready.toNat := by
  cases ok with
  | false => exact ho
  | true => simpa [Talk.starts, Talk.post, List.count_append, hm] using ho

theorem Answers.starts (h : Answers v v') : v'.starts = v.starts := by
  unfold Talk.starts
  rw [h.queue, h.control, h.playing]

theorem Take.starts_le {sent : Bool} {m : Msg} {queue : List Msg} (hpc : v.control = .idle)
    (hqueue : v.queue = m :: queue) (h : Take { v with queue := queue } sent acts m v') :
    v'.starts ≤ v.starts ∧ v'.ready = v.ready := by
  have hrest : Talk.starts { v with queue := queue } ≤ v.starts := by
    unfold Talk.starts
    rw [hqueue, List.count_cons]
    dsimp only
    omega
  have hbusy : ∀ pc, pc ≠ .starting →
      Talk.starts { v with queue := queue, control := pc } ≤ v.starts := by
    intro pc hne
    refine Nat.le_trans ?_ hrest
    simp [Talk.starts, hne]
  cases h with
  | update | flush | still => exact ⟨hbusy _ nofun, rfl⟩
  | noUpdate | skip | noTimer | pausing | other => exact ⟨hrest, rfl⟩
  | quick => exact ⟨(answers_answer _ _).starts.trans_le hrest, rfl⟩
  | timer =>
    have hans := answers_answerWaiter (Talk.noStill { v with queue := queue })
    exact ⟨hans.starts.trans_le hrest, hans.ready⟩
  | ready =>
    refine ⟨?_, rfl⟩
    unfold Talk.starts
    rw [hqueue, hpc]
    simp
  | drop =>
    have hans := answers_clear { v with queue := queue, audio := 0, frames := 0 }
    exact ⟨hans.starts.trans_le hrest, hans.ready⟩

theorem move_once (h : Move v e acts v') (ho : v.starts ≤ v.ready.toNat) :
    v'.starts ≤ v'.ready.toNat := by
  cases h with
  | roam | leave | wake | again | key | frame | put | sound | shown => exact ho
  | begin | send | input | fire => exact post_once nofun ho
  | take hpc hqueue h =>
    obtain ⟨hle, hready⟩ := h.starts_le hpc hqueue
    rw [hready]
    exact Nat.le_trans hle ho
  | flushed hpc =>
    rename_i arg
    have hans := answers_flush { v with control := .idle } arg
    rw [hans.starts, hans.ready]
    refine Nat.le_trans ?_ ho
    simp [Talk.starts]
  | hold hpc | park hpc | delegate =>
    refine Nat.le_trans ?_ ho
    simp [Talk.starts]
  | unpark hpc =>
    refine Nat.le_trans ?_ ho
    rw [(answers_answer _ _).starts]
    simp [Talk.starts]
  | play hpc =>
    -- what was begun is finished
    refine Nat.le_trans ?_ ho
    simp [Talk.starts, hpc]
  | post hready =>
    rename_i p
    by_cases hp : p = .videoOutReady
    · subst hp
      have hnone : v.starts ≤ 0 := by
        rw [hready rfl] at ho
        exact ho
      unfold Talk.starts at hnone ⊢
      simp only [List.count_append, List.count_singleton_self, decide_true, Bool.or_true,
        Bool.toNat_true]
      omega
    · simpa [Talk.starts, List.count_append, hp] using ho

theorem Take.plays {sent : Bool} {m : Msg} (h : Take v sent acts m v') :
    v'.stream.quiet = v.stream.quiet ∧ v'.playing = v.playing := by
  cases h with
  | quick => exact ⟨quiet_answer _ _, rfl⟩
  | timer => exact ⟨(answers_answerWaiter _).quiet, (answers_answerWaiter _).playing⟩
  | drop => exact ⟨(answers_clear _).quiet, (answers_clear _).playing⟩
  | _ => exact ⟨rfl, rfl⟩

theorem move_plays (h : Move v e acts v') (hp : v.stream.quiet = false → v.playing = true) :
    v'.stream.quiet = false → v'.playing = true := by
  intro hbusy
  cases h with
  | roam _ hnew =>
    rw [hnew] at hbusy
    cases hbusy
  | begin _ hplay => exact hplay
  | send hpc | wake hpc => exact hp (by rw [hpc]; rfl)
  | leave => cases hbusy
  | take _ _ h =>
    obtain ⟨hquiet, hplaying⟩ := h.plays
    rw [hplaying]
    exact hp (hquiet.symm.trans hbusy)
  | flushed =>
    rename_i arg _
    have hans := answers_flush { v with control := .idle } arg
    rw [hans.playing]
    exact hp (hans.quiet.symm.trans hbusy)
  | unpark => exact hp ((quiet_answer _ _).symm.trans hbusy)
  | play => rfl
  | _ => exact hp hbusy

/-! ## A pending UPDATE -/

/-- Nothing is added to what the threads wait for. -/
structure Eases (v v' : Talk) : Prop where
  awaits : v'.stream.awaits = true → v.stream.awaits = true
  wants : v'.main.wants = true → v.main.wants = true
  pending : v'.updatePending → v.updatePending

theorem Eases.apart (h : Eases v v')
    (ha : v.stream.awaits = true → v.main.wants = true → ¬ v.updatePending) :
    v'.stream.awaits = true → v'.main.wants = true → ¬ v'.updatePending :=
  fun hs hm hp => ha (h.awaits hs) (h.wants hm) (h.pending hp)

theorem updatePending_post {m : Msg} {ok : Bool} (h : (v.post m ok).updatePending)
    (hm : m ≠ .update) : v.updatePending := by
  refine h.imp_left fun hmem => ?_
  cases ok with
  | false => exact hmem
  | true => simpa [Talk.post, hm.symm] using hmem

theorem Answers.eases (h : Answers v v') : Eases v v' where
  awaits := h.awaits
  wants := fun hm => h.main ▸ hm
  pending := fun hp => by
    unfold Talk.updatePending at hp ⊢
    rw [h.queue, h.control] at hp
    exact hp

/-- A message is taken: an UPDATE is still pending, and nothing else becomes so. -/
theorem Take.eases {sent : Bool} {m : Msg} {queue : List Msg} (hqueue : v.queue = m :: queue)
    (h : Take { v with queue := queue } sent acts m v') : Eases v v' := by
  have hmem : .update ∈ queue → v.updatePending := by
    intro hm
    apply Or.inl
    rw [hqueue]
    exact List.mem_cons_of_mem m hm
  have hrest : Eases v { v with queue := queue } :=
    ⟨id, id, fun hp => hp.elim hmem Or.inr⟩
  have hbusy : ∀ pc : ControlPc, pc.updates = false →
      Eases v { v with queue := queue, control := pc } := by
    refine fun pc hno => ⟨id, id, fun hp => hp.elim hmem fun hupd => ?_⟩
    rw [hno] at hupd
    cases hupd
  have hans : ∀ v₁, Eases v v₁ → Answers v₁ v' → Eases v v' := fun v₁ h₁ h₂ =>
    ⟨fun hs => h₁.awaits (h₂.awaits hs), fun hm => h₁.wants (h₂.eases.wants hm),
      fun hp => h₁.pending (h₂.eases.pending hp)⟩
  cases h with
  | update =>
    refine ⟨id, id, fun _ => Or.inl ?_⟩
    rw [hqueue]
    exact List.mem_cons_self
  | noUpdate | skip | noTimer | other => exact hrest
  | flush | still | ready => exact hbusy _ rfl
  | quick => exact hans _ hrest (answers_answer _ _)
  | timer =>
    exact hans (Talk.noStill { v with queue := queue }) ⟨id, id, hrest.pending⟩
      (answers_answerWaiter _)
  | drop =>
    exact hans { v with queue := queue, audio := 0, frames := 0 } ⟨id, id, hrest.pending⟩
      (answers_clear _)
  | pausing => exact ⟨id, id, hrest.pending⟩

theorem step_apart {s s' : State} (h : Move s.talk e acts s'.talk) (hok : Apart s e)
    (ha : s.talk.stream.awaits = true → s.talk.main.wants = true → ¬ s.talk.updatePending) :
    s'.talk.stream.awaits = true → s'.talk.main.wants = true → ¬ s'.talk.updatePending := by
  generalize s'.talk = v' at h
  cases h with
  | roam _ hnew =>
    intro hs
    rw [awaits_quiet hnew] at hs
    cases hs
  | begin | leave => exact nofun
  | send hpc =>
    rename_i r _ _
    intro hs hm hp
    have hasks : s.stream.asks = true := by
      rw [show s.stream = _ from hpc]
      cases hr : r.waits with
      | true => exact hr
      | false => simp [hr, Talk.post, StreamPc.awaits] at hs
    have hpend := updatePending_post hp nofun
    exact hok hasks hm hpend
  | wake _ hnew =>
    obtain rfl | ⟨r, rest, rfl⟩ := hnew
    · exact nofun
    · exact nofun
  | take _ hqueue h => exact (h.eases hqueue).apart ha
  | again | frame | put | sound | shown => exact ha
  | flushed hpc =>
    refine (answers_flush { s.talk with control := .idle } _).eases.apart fun hs hm hp => ha hs hm ?_
    exact hp.elim Or.inl nofun
  | hold | park | play | delegate => exact fun hs hm hp => ha hs hm (hp.elim Or.inl nofun)
  | unpark =>
    refine (answers_answer _ _).eases.apart fun hs hm hp => ha hs hm ?_
    exact hp.elim Or.inl nofun
  | key => exact fun hs _ hp => hok hs hp
  | input => exact fun _ hm => nomatch hm
  | fire =>
    intro hs hm hp
    have hpend := updatePending_post hp nofun
    exact ha hs hm hpend
  | post =>
    refine fun hs hm hp => ha hs hm (hp.imp_left fun hmem => ?_)
    simpa using hmem

theorem run_orderly {tr : List (Event × List Act)} {s : State}
    (h : Run (Guarded step Apart) init tr s) : Orderly s.talk := by
  refine h.invariant (P := fun s => Orderly s.talk) init_orderly ?_
  rintro s ⟨e, acts⟩ s' ho ⟨hok, hstep⟩
  have hmove := step_move hstep
  exact ⟨move_once hmove ho.once, move_plays hmove ho.plays, step_apart hmove hok ho.apart⟩

/-! ## No circle -/

/-- Where a thread stands among those that wait: each waits for lower ones only. -/
def rank (s : State) : Tid → Nat
  | .stream => if s.stream.awaits then (if s.control.updates then 2 else 1) else 0
  | .control => if s.stream.awaits then (if s.control.updates then 1 else 0) else 2
  | .main => if s.stream.awaits then (if s.control.updates then 0 else 2) else 1

/-- The control thread is not before the lock while a request waits: requests are sent after the
    playback has begun, and it begins once. -/
theorem Orderly.not_starting {s : State} (ho : Orderly s.talk) (hs : s.stream.awaits = true) :
    s.control ≠ .starting := by
  intro hstart
  have hbusy : s.stream.quiet = false := by
    rw [← Bool.not_eq_true]
    intro hquiet
    rw [awaits_quiet hquiet] at hs
    cases hs
  have hplay : s.io.playing = true := ho.plays hbusy
  have honce := ho.once
  have hle : s.ready.toNat ≤ 1 := Bool.toNat_le _
  simp only [Talk.starts, State.talk, hstart, hplay, decide_true, Bool.toNat_true] at honce
  omega

theorem Orderly.rank_lt {s : State} (ho : Orderly s.talk) {t u : Tid} (h : WaitsFor s t u) :
    rank s u < rank s t := by
  cases t <;> cases u <;> try exact h.elim
  · have hs : s.stream.awaits = true := h
    simp only [rank, hs, if_true]
    split <;> omega
  · have hs : s.stream.awaits = false :=
      Bool.not_eq_true _ ▸ fun hs => ho.not_starting hs h.1
    simp [rank, hs]
  · have hupd : s.control.updates = true := h
    simp only [rank, hupd, if_true]
    split <;> omega
  · obtain ⟨hm, -⟩ := h
    by_cases hs : s.stream.awaits = true
    · have hno : s.control.updates = false :=
        Bool.not_eq_true _ ▸ fun hupd => ho.apart hs hm (Or.inr hupd)
      simp [rank, hs, hno]
    · simp [rank, hs]

/-- **No deadlock of the three threads**: in every run whose steps meet the condition, in every
    state that is reached, no thread waits for itself through the others. -/
theorem never_circular {tr : List (Event × List Act)} {s : State}
    (h : Run (Guarded step Apart) init tr s) (t : Tid) : ¬ Relation.TransGen (WaitsFor s) t t := by
  have ho := run_orderly h
  intro hcircle
  have hlower : ∀ t u, WaitsFor s t u → rank s t > rank s u := fun t u hw => ho.rank_lt hw
  have hlt : Relation.TransGen (fun m n : Nat => m > n) (rank s t) (rank s t) :=
    hcircle.lift (rank s) hlower
  rw [Relation.transGen_eq_self] at hlt
  exact Nat.lt_irrefl _ hlt

/-- The playback begins, and a navigation packet comes with a menu: an UPDATE and a request are
    sent. -/
def packetWithMenu : List Event :=
  [.post .videoOutReady, .control (.take true true), .control (.play true), .stream (.read 8192),
    .stream .lock, .stream (.turn (some (.navPacket ⟨3, 1, 10, 20, 30⟩ 0)) true),
    .stream (.send true)]

/-- The UPDATE is done before a key is taken: the request is answered, and then the key is handled
    when the lock is free. -/
theorem never_circular_key :
    ∃ tr s, Run (Guarded step Apart) init tr s ∧ WaitsFor s .main .stream ∧
      WaitsFor s .stream .control ∧ ¬ Relation.TransGen (WaitsFor s) .main .main := by
  obtain ⟨tr, s, hrun, hmain, hstream⟩ := exists_run_of_guarded_exec step Apart init
    (fun _ s => (s.main.wants = true ∧ s.stream.holds = true) ∧ s.stream.awaits = true)
    (packetWithMenu ++ [Event.control (.take true true), .main .delegate, .main (.key .enter)])
    (by decide +kernel)
  exact ⟨tr, s, hrun, hmain, hstream, never_circular hrun .main⟩

/-- **A key during an UPDATE**: the stream thread waits for the position with the lock, the control
    thread for the UPDATE before it, and the main thread for the lock. -/
theorem key_during_update :
    ∃ tr s, Run (Step step) init tr s ∧ Relation.TransGen (WaitsFor s) .stream .stream := by
  obtain ⟨tr, s, hrun, hstream, hcontrol, hmain⟩ := exists_run_of_exec step init
    (fun _ s => s.stream.awaits = true ∧ s.control.updates = true ∧
      s.main.wants = true ∧ s.stream.holds = true)
    (packetWithMenu ++ [Event.control (.take true true), .main (.key .enter)]) (by decide +kernel)
  have hanswer : WaitsFor s .stream .control := hstream
  have hupdate : WaitsFor s .control .main := hcontrol
  have hlock : WaitsFor s .main .stream := hmain
  exact ⟨tr, s, hrun, ((Relation.TransGen.single hanswer).tail hupdate).tail hlock⟩

end Mediabox.Dvdio
