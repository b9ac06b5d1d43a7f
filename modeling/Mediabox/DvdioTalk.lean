import Mediabox.Dvdio

/-!
# How the threads talk while a DVD is played

What the threads do to each other is decided by where they stand, by the messages and by the still
frame; the menus, titles and positions have no part in it.

* `Talk` — this part of the state.
* `Move` — every step, as it is seen in it; `step_move` is the simulation.
-/

set_option autoImplicit false

namespace Mediabox.Dvdio

open Transition

/-- The part of the state that the threads wait for each other in. -/
structure Talk where
  stream : StreamPc
  control : ControlPc
  main : MainPc
  queue : List Msg
  playing : Bool
  ready : Bool
  still : Bool
  waiter : Option Nat
  timerId : Option Nat
  timers : List Nat
  nextTimer : Nat
  nextArg : Nat
  audio : Nat
  frames : Nat
  delegated : Bool
  paused : Bool

def State.talk (s : State) : Talk where
  stream := s.stream
  control := s.control
  main := s.main
  queue := s.queue
  playing := s.io.playing
  ready := s.ready
  still := s.player.stillFrame
  waiter := s.player.stillFrameWaiter
  timerId := s.player.stillFrameTimerId
  timers := s.timers
  nextTimer := s.nextTimer
  nextArg := s.nextArg
  audio := s.audio
  frames := s.frames
  delegated := s.delegated
  paused := s.paused

/-- The stream thread is neither in a request nor before one. -/
def StreamPc.quiet : StreamPc → Bool
  | .idle | .locking | .loop | .dozing => true
  | _ => false

/-- The argument that is used. -/
def Act.arg : Act → Option Nat
  | .read arg | .returned arg | .woke arg => some arg
  | _ => none

/-- No argument is used. -/
def Quiet (acts : List Act) : Prop := ∀ a ∈ acts, a.arg = none

/-- A message that may not have been sent. -/
def Talk.post (v : Talk) (m : Msg) (ok : Bool) : Talk :=
  { v with queue := if ok then v.queue ++ [m] else v.queue }

def Talk.answer (v : Talk) (arg : Nat) : Talk := { v with stream := v.stream.answer arg }

def Talk.answerWaiter (v : Talk) : Talk × List Act :=
  match v.waiter with
  | some arg => (v.answer arg, [.returned arg])
  | none => (v, [])

/-- The still frame is over. -/
def Talk.noStill (v : Talk) : Talk := { v with still := false, timerId := none }

def Talk.clear (v : Talk) : Talk × List Act :=
  if v.still then
    match v.timerId with
    | some id => Talk.answerWaiter { v with timers := v.timers.erase id, still := false, timerId := none }
    | none => ({ v with still := false }, [])
  else (v, [])

/-- The next message is taken. -/
inductive Take (v : Talk) : Bool → List Act → Msg → Talk → Prop
  | update {sent : Bool} : Take v sent [] .update { v with control := .updating sent }
  | noUpdate {sent : Bool} : Take v sent [] .update v
  | flush {sent : Bool} {arg : Nat} :
      Take v sent [] (.request arg .flush) { v with control := .flushing arg }
  | still {sent : Bool} {arg : Nat} {length : UInt8} (h : length ≠ 0xFF ∨ v.still = false) :
      Take v sent [.read arg] (.request arg (.stillFrame length))
        { v with control := .presenting arg length }
  | skip {sent : Bool} {arg : Nat} {length : UInt8} (h : length = 0xFF) :
      Take v sent [.read arg] (.request arg (.stillFrame length)) v
  | quick {sent : Bool} {arg : Nat} {r : Request} (hr : r.waits = true) :
      Take v sent [.read arg, .returned arg] (.request arg r) (v.answer arg)
  | timer {sent : Bool} {id : Nat} (h : v.timerId = some id) :
      Take v sent v.noStill.answerWaiter.2 (.timer id) v.noStill.answerWaiter.1
  | noTimer {sent : Bool} {id : Nat} (h : v.timerId ≠ some id) : Take v sent [] (.timer id) v
  | ready {sent : Bool} :
      Take v sent [] (.posted .videoOutReady) { v with control := .starting }
  | drop {sent : Bool} : Take v sent (Talk.clear { v with audio := 0, frames := 0 }).2
      (.posted .drop) (Talk.clear { v with audio := 0, frames := 0 }).1
  | pausing {sent paused : Bool} :
      Take v sent [] (.posted (.pausing paused)) { v with paused := paused }
  | other {sent : Bool} {p : Posted} (hp : p = .stop ∨ p = .other) : Take v sent [] (.posted p) v

/-- The steps. -/
inductive Move (v : Talk) : Event → List Act → Talk → Prop
  | roam {e : StreamEvent} {pc : StreamPc} {acts : List Act} (hpc : v.stream.quiet = true)
      (hnew : pc.quiet = true) (hacts : Quiet acts) :
      Move v (.stream e) acts { v with stream := pc }
  | begin {e : StreamEvent} {r : Request} {rest : List Request} {fin : Finish} {update : Bool}
      (hpc : v.stream = .loop) (hplay : v.playing = true) :
      Move v (.stream e) [] (Talk.post { v with stream := .sending r rest fin } .update update)
  | send {ok : Bool} {r : Request} {rest : List Request} {fin : Finish}
      (hpc : v.stream = .sending r rest fin) :
      Move v (.stream (.send ok)) [] (Talk.post { v with
        stream := if r.waits then .waiting v.nextArg rest fin false else .leaving v.nextArg
        nextArg := v.nextArg + 1 } (.request v.nextArg r) ok)
  | leave {arg : Nat} (hpc : v.stream = .leaving arg) :
      Move v (.stream .leave) [] { v with stream := .loop }
  | wake {arg : Nat} {rest : List Request} {fin : Finish} {answered : Bool} {pc : StreamPc}
      (hpc : v.stream = .waiting arg rest fin answered)
      (hnew : pc = .loop ∨ ∃ r rest', pc = .sending r rest' fin) :
      Move v (.stream .wake) [.woke arg] { v with stream := pc }
  | take {alloc sent : Bool} {m : Msg} {queue : List Msg} {acts : List Act} {v' : Talk}
      (hpc : v.control = .idle) (hqueue : v.queue = m :: queue)
      (h : Take { v with queue := queue } sent acts m v') :
      Move v (.control (.take alloc sent)) acts v'
  | again {e : ControlEvent} (h : e = .flush false ∨ ∃ timer, e = .present false timer) :
      Move v (.control e) [] v
  | flushed {arg : Nat} (hpc : v.control = .flushing arg) :
      Move v (.control (.flush true))
        ((Talk.clear { v with control := .idle }).2 ++ [Act.returned arg])
        ((Talk.clear { v with control := .idle }).1.answer arg)
  | hold {timer : Bool} {arg : Nat} (hpc : v.control = .presenting arg 0xFF) :
      Move v (.control (.present true timer)) []
        { v with control := .idle, still := true, waiter := some arg }
  | park {arg : Nat} {length : UInt8} (hpc : v.control = .presenting arg length)
      (h : length ≠ 0xFF) :
      Move v (.control (.present true true)) [] { v with
        control := .idle
        still := true
        waiter := some arg
        timerId := some v.nextTimer
        timers := v.timers ++ [v.nextTimer]
        nextTimer := v.nextTimer + 1 }
  | unpark {arg : Nat} {length : UInt8} (hpc : v.control = .presenting arg length)
      (h : length ≠ 0xFF) :
      Move v (.control (.present true false)) [.returned arg]
        (Talk.answer { v with control := .idle, still := true, waiter := some arg, timerId := none }
          arg)
  | play {grabbed : Bool} (hpc : v.control = .starting) (hfree : v.stream.holds = false) :
      Move v (.control (.play grabbed)) []
        { v with control := .idle, playing := true, paused := true }
  | key {key : Key} (hpc : v.main = .idle) :
      Move v (.main (.key key)) [] { v with main := .locking key }
  | input {inMenu sent update : Bool} {menu : Menu} {key : Key} {acts : List Act}
      (hpc : v.main = .locking key) (hfree : v.stream.holds = false) (hacts : Quiet acts) :
      Move v (.main (.input inMenu menu sent)) acts
        (Talk.post { v with main := .idle } .update update)
  | delegate (hpc : v.main = .idle) (hcontrol : v.control = .updating true) :
      Move v (.main .delegate) [] { v with control := .idle }
  | frame (hpc : v.main = .idle) (hdelegated : v.delegated = true) :
      Move v (.main .frame) [] { v with delegated := false }
  | put {audio frames : Nat} (hpc : v.stream = .idle) :
      Move v (.output (.put audio frames)) []
        { v with audio := v.audio + audio, frames := v.frames + frames }
  | sound (haudio : 0 < v.audio) : Move v (.output .play) [] { v with audio := v.audio - 1 }
  | shown {e : OutputEvent} {delegated : Bool} (hframes : 0 < v.frames)
      (hdelegated : delegated = v.delegated ∨ v.delegated = false) :
      Move v (.output e) [] { v with frames := v.frames - 1, delegated := delegated }
  | fire {id : Nat} {sent : Bool} (hid : id ∈ v.timers) :
      Move v (.fire id sent) [] (Talk.post { v with timers := v.timers.erase id } (.timer id) sent)
  | post {p : Posted} (h : p = .videoOutReady → v.ready = false) :
      Move v (.post p) [] { v with
        queue := v.queue ++ [Msg.posted p], ready := v.ready || p = .videoOutReady }

/-! ## Every step is such a move -/

@[simp]
theorem talk_sendctl (s : State) (m : Msg) (ok : Bool) :
    (s.sendctl m ok).talk = s.talk.post m ok := by
  cases ok <;> rfl

theorem talk_returnWaiter (s : State) :
    ((returnWaiter s).1.talk, (returnWaiter s).2) = s.talk.answerWaiter := by
  unfold returnWaiter Talk.answerWaiter
  rw [show s.talk.waiter = s.player.stillFrameWaiter from rfl]
  cases s.player.stillFrameWaiter with
  | none | some arg => rfl

theorem talk_clearStillFrame (s : State) :
    ((clearStillFrame s).1.talk, (clearStillFrame s).2) = s.talk.clear := by
  obtain ⟨io, ⟨still, waiter, timerId, _, _, _, _⟩, _, _, _, _, _, _, _, _, _, _, _, _, _⟩ := s
  cases still with
  | false => rfl
  | true =>
    cases timerId with
    | some id => exact talk_returnWaiter _
    | none => rfl

/-- The answer of a part of the step is the answer of the step. -/
theorem move_of_part {v : Talk} {s' : State} {e : Event} {acts : List Act} {part : State × List Act}
    (h : some part = some (s', acts)) (hmove : Move v e part.2 part.1.talk) :
    Move v e acts s'.talk := by
  cases h
  exact hmove

theorem quiet_nil : Quiet [] := fun _ h => nomatch h

theorem copyBlock_move {s : State} {blen : Nat} {e : StreamEvent} (hpc : s.stream.quiet = true) :
    Move s.talk (.stream e) (copyBlock s blen).2 (copyBlock s blen).1.talk := by
  unfold copyBlock
  split
  · exact .roam hpc rfl (by simp [State.ret, Quiet, Act.arg])
  · exact .roam hpc rfl (by simp [State.ret, Quiet, Act.arg])

theorem navEvent_move {s : State} {sent : Bool} {event : NavEvent} {e : StreamEvent}
    (hpc : s.stream = .loop) :
    Move s.talk (.stream e) (navEvent s sent event).2 (navEvent s sent event).1.talk := by
  have hquiet : s.talk.stream.quiet = true := by
    rw [show s.talk.stream = s.stream from rfl, hpc]
    rfl
  have hroam : ∀ pc : StreamPc, pc.quiet = true →
      Move s.talk (.stream e) [] { s.talk with stream := pc } :=
    fun pc hnew => .roam hquiet hnew quiet_nil
  have hbegin : s.io.playing = true → ∀ r rest fin,
      Move s.talk (.stream e) [] (Talk.post { s.talk with stream := .sending r rest fin } .update
        false) :=
    fun hplay r rest fin => .begin hpc hplay
  cases event with
  | blockOk len => exact copyBlock_move hquiet
  | nop | stop | cellChange | spuClutChange | spuStreamChange | highlight => exact hroam .loop rfl
  | hopChannel | wait | vtsChange title info =>
    dsimp only [navEvent]
    split
    · exact hbegin ‹_› _ _ _
    · exact hroam .loop rfl
  | stillFrame length =>
    dsimp only [navEvent]
    split
    · exact hroam .dozing rfl
    · split
      · exact hbegin ‹_› _ _ _
      · exact hroam .loop rfl
  | audioStreamChange stream ch fmt =>
    dsimp only [navEvent]
    split
    · rename_i hcond
      exact hbegin hcond.1 _ _ _
    · exact hroam .loop rfl
  | navPacket menu time =>
    dsimp only [navEvent]
    split
    · rw [talk_sendctl]
      exact .begin hpc ‹_›
    · exact hroam .loop rfl

theorem stream_move {s s' : State} {e : StreamEvent} {acts : List Act}
    (h : stepStream s e = some (s', acts)) : Move s.talk (.stream e) acts s'.talk := by
  have hquiet : s.stream.quiet = true → s.talk.stream.quiet = true := fun hpc => hpc
  unfold stepStream at h
  split at h
  · rename_i hpc
    cases h
    exact .roam (hquiet (by rw [hpc]; rfl)) rfl quiet_nil
  · rename_i hpc
    cases h
    exact .roam (hquiet (by rw [hpc]; rfl)) rfl quiet_nil
  · rename_i hpc
    have hloop : s.talk.stream.quiet = true := hquiet (by rw [hpc]; rfl)
    split at h
    · cases h
      exact .roam hloop rfl (by simp [Quiet, Act.arg])
    · split at h
      · exact move_of_part h (copyBlock_move hloop)
      · cases h
        exact .roam hloop rfl (by simp [Quiet, Act.arg])
      · exact move_of_part h (navEvent_move hpc)
  · rename_i hpc
    cases h
    rw [talk_sendctl]
    exact .send hpc
  · rename_i hpc
    cases h
    exact .leave hpc
  · rename_i rest fin _ hpc
    cases h
    unfold State.resume
    split
    · exact .wake hpc (Or.inr ⟨_, _, rfl⟩)
    · exact .wake hpc (Or.inl rfl)
    · exact .wake hpc (Or.inl rfl)
    · exact .wake hpc (Or.inl rfl)
  · rename_i hpc
    cases h
    exact .roam (hquiet (by rw [hpc]; rfl)) rfl quiet_nil
  · cases h

theorem takeRequest_take {s : State} {arg : Nat} {alloc sent : Bool} {r : Request} :
    Take s.talk sent (takeRequest s arg alloc r).2 (.request arg r)
      (takeRequest s arg alloc r).1.talk := by
  cases r with
  | flush => exact .flush
  | stillFrame length =>
    dsimp only [takeRequest]
    split
    · exact .still ‹_›
    · rename_i hcond
      exact .skip (not_not.mp (not_or.mp hcond).1)
  | setTitle title | setDuration duration | setPosition pos | changeAudioTrack streamId =>
    exact .quick rfl

theorem takeMessage_take {s : State} {alloc sent : Bool} {m : Msg} :
    Take s.talk sent (takeMessage s alloc sent m).2 m (takeMessage s alloc sent m).1.talk := by
  cases m with
  | update =>
    dsimp only [takeMessage]
    split
    · exact .update
    · exact .noUpdate
  | request arg r => exact takeRequest_take
  | timer id =>
    dsimp only [takeMessage]
    split
    · have hreturn := talk_returnWaiter { s with player := s.player.noStill }
      have htake : Take s.talk sent _ (.timer id) _ := .timer ‹_›
      rw [show s.talk.noStill = State.talk { s with player := s.player.noStill } from rfl,
        ← hreturn] at htake
      exact htake
    · exact .noTimer ‹_›
  | posted p =>
    cases p with
    | videoOutReady => exact .ready
    | stop =>
      dsimp only [takeMessage]
      unfold close
      split
      · exact .other (Or.inl rfl)
      · exact .other (Or.inl rfl)
    | drop =>
      have hclear := talk_clearStillFrame { s with audio := 0, frames := 0 }
      have htake : Take s.talk sent _ (.posted .drop) _ := .drop
      rw [show ({ s.talk with audio := 0, frames := 0 } : Talk) =
        State.talk { s with audio := 0, frames := 0 } from rfl, ← hclear] at htake
      exact htake
    | pausing paused => exact .pausing
    | other => exact .other (Or.inr rfl)

theorem stillFrame_move {s : State} {arg : Nat} {length : UInt8} {timer : Bool}
    (hpc : s.control = .presenting arg length) :
    Move s.talk (.control (.present true timer))
      (stillFrame { s with control := .idle } arg length timer).2
      (stillFrame { s with control := .idle } arg length timer).1.talk := by
  unfold stillFrame
  dsimp only
  split
  · rename_i hlength
    subst hlength
    exact .hold hpc
  · rename_i hlength
    cases timer with
    | true => exact .park hpc hlength
    | false => exact .unpark hpc hlength

theorem control_move {s s' : State} {e : ControlEvent} {acts : List Act}
    (h : stepControl s e = some (s', acts)) : Move s.talk (.control e) acts s'.talk := by
  unfold stepControl at h
  split at h
  · rename_i hpc
    split at h
    · cases h
    · rename_i queue hqueue
      exact move_of_part h (.take hpc hqueue (takeMessage_take (s := { s with queue := queue })))
  · rename_i done hpc
    cases done with
    | true =>
      simp only [if_true] at h
      split at h
      · cases h
        have hmove : Move s.talk (.control (.flush true)) _ _ := .flushed hpc
        rw [show ({ s.talk with control := .idle } : Talk) = State.talk { s with control := .idle }
          from rfl, ← talk_clearStillFrame] at hmove
        exact hmove
      · cases h
    | false =>
      cases h
      exact .again (Or.inl rfl)
  · rename_i done timer hpc
    cases done with
    | true =>
      simp only [if_true] at h
      split at h
      · exact move_of_part h (stillFrame_move hpc)
      · cases h
    | false =>
      cases h
      exact .again (Or.inr ⟨timer, rfl⟩)
  · rename_i hpc
    split at h
    · cases h
    · rename_i hfree
      cases h
      exact .play hpc (Bool.not_eq_true _ ▸ hfree)
  · cases h

theorem playing_handleKey (io : Inst) (key : Key) (inMenu : Bool) (menu : Menu) :
    (handleKey io key inMenu menu).1.playing = io.playing := by
  cases key <;> cases inMenu <;> rfl

theorem main_move {s s' : State} {e : MainEvent} {acts : List Act}
    (h : stepMain s e = some (s', acts)) : Move s.talk (.main e) acts s'.talk := by
  unfold stepMain at h
  split at h
  · rename_i hpc
    split at h
    · cases h
      exact .key hpc
    · cases h
  · rename_i hpc
    split at h
    · cases h
      exact .delegate hpc ‹_›
    · cases h
  · rename_i hpc
    split at h
    · cases h
      exact .frame hpc ‹_›
    · cases h
  · rename_i key inMenu menu sent hpc
    split at h
    · cases h
    · rename_i hfree
      have hplay := playing_handleKey s.io key inMenu menu
      generalize handleKey s.io key inMenu menu = result at h hplay
      obtain ⟨io, update, ok⟩ := result
      cases h
      rw [talk_sendctl]
      have htalk : State.talk { s with io := io, main := .idle } =
          { s.talk with main := .idle } := by
        unfold State.talk
        rw [show io.playing = s.io.playing from hplay]
      rw [htalk]
      exact .input hpc (Bool.not_eq_true _ ▸ hfree) (by simp [Quiet, Act.arg])
  · cases h

theorem sendFrame_move {s s' : State} {e : OutputEvent} {sent : Bool} {acts : List Act}
    (h : sendFrame s sent = some (s', acts)) : Move s.talk (.output e) acts s'.talk := by
  unfold sendFrame at h
  split at h
  · rename_i hcond
    cases h
    exact .shown hcond.1 (Or.inr hcond.2)
  · cases h

theorem output_move {s s' : State} {e : OutputEvent} {acts : List Act}
    (h : stepOutput s e = some (s', acts)) : Move s.talk (.output e) acts s'.talk := by
  cases e with
  | put audio frames =>
    dsimp only [stepOutput] at h
    split at h
    · cases h
      exact .put ‹_›
    · cases h
  | play =>
    dsimp only [stepOutput] at h
    split at h
    · rename_i hcond
      cases h
      exact .sound hcond.1
    · cases h
  | present sent =>
    dsimp only [stepOutput] at h
    split at h
    · cases h
    · exact sendFrame_move h
  | force sent =>
    dsimp only [stepOutput] at h
    split at h
    · exact sendFrame_move h
    · cases h
  | skip =>
    dsimp only [stepOutput] at h
    split at h
    · cases h
      exact .shown ‹_› (Or.inl rfl)
    · cases h

theorem step_move {s s' : State} {e : Event} {acts : List Act}
    (h : step s e = some (s', acts)) : Move s.talk e acts s'.talk := by
  cases e with
  | stream e => exact stream_move h
  | control e => exact control_move h
  | main e => exact main_move h
  | output e => exact output_move h
  | fire id sent =>
    dsimp only [step] at h
    split at h
    · cases h
      rw [talk_sendctl]
      exact .fire ‹_›
    · cases h
  | post p =>
    dsimp only [step] at h
    split at h
    · cases h
    · rename_i hcond
      cases h
      refine .post fun hp => ?_
      rw [← Bool.not_eq_true]
      exact fun hready => hcond ⟨hp, hready⟩

end Mediabox.Dvdio
