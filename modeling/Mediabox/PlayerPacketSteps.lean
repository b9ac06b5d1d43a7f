import Mediabox.PlayerPackets

/-!
# What one step does to the packets of the player

`ParserStep`, `DecoderStep` and `ControlStep` list what a step of each thread can do; `step_cases`
says that there is nothing else.
-/

set_option autoImplicit false

namespace Mediabox.PlayerPackets

open Transition
open Player (PlayState AVStream videoRuns)

variable {s s' : State}

/-- What `avbox_player_stream_parse` leaves of a pipe that it creates a queue for. -/
def Pipe.Opened (p p' : Pipe) : Prop :=
  p'.decoder = p.decoder ∧ p'.checkpoint = p.checkpoint ∧ (p'.queue = p.queue ∨ p'.queue = some [])

/-- Steps of `avbox_player_stream_parse`. -/
inductive ParserStep (s : State) : ParserEvent → Outcome → State → Prop
  | openFails (hpc : s.parser = .opening) :
      ParserStep s .openFails .done { s with parser := .exiting }
  | opens {streams : List AVStream} {audio video a v : Int} {q₁ q₂ q₃ : Bool} {pipe : Side → Pipe}
      {checkpoint : Nat} {pc : ParserPc} (hpc : s.parser = .opening)
      (hpipe : ∀ side, (s.pipe side).Opened (pipe side))
      (hto : pc = .exiting ∧ checkpoint = s.checkpoint ∨
        pc = .loop ∧ checkpoint = s.checkpoint + 1) :
      ParserStep s (.opens streams audio video q₁ q₂ q₃) .done
        { s with
          streams := streams
          audioStreamIndex := a
          videoStreamIndex := v
          pipe := pipe
          checkpoint := checkpoint
          parser := pc }
  | quits (hpc : s.parser = .loop) : ParserStep s .next .done { s with parser := .exiting }
  | halts (hpc : s.parser = .loop) (hheld : s.checkpoint ≠ 0) :
      ParserStep s .next .done { s with parser := .checkpoint }
  | passes (hpc : s.parser = .loop ∨ s.parser = .checkpoint) (hfree : s.checkpoint = 0) :
      ParserStep s .next .done { s with parser := .acquiring }
  | acquire {malloc : Option Addr} {packet : Addr} {t : State} (hpc : s.parser = .acquiring)
      (hacquire : acquireAvPacket s malloc = some (t, packet)) :
      ParserStep s (.acquire malloc) (.acquired (t.turn packet))
        { t with parser := .reading packet }
  | route {packet : Addr} {stream : Nat} {a : Int} {pc : ParserPc}
      (hpc : s.parser = .reading packet)
      (hto : (∃ side, pc = .putting side packet ∧ (side = .video → s.videoStreamIndex ≠ -1)) ∨
        pc = .releasing packet false) :
      ParserStep s (.read (.packet stream)) .done
        { s with audioStreamIndex := a, parser := pc }
  | lost {packet : Addr} {r : Read} (hpc : s.parser = .reading packet)
      (hr : r = .eof ∨ r = .error) :
      ParserStep s (.read r) (.lost (s.turn packet)) { s with parser := .exiting }
  | put {side : Side} {packet : Addr} {l : List Addr} (hpc : s.parser = .putting side packet)
      (hq : (s.pipe side).queue = some l) :
      ParserStep s (.put .ok) .done
        { s.setQueue side (some (packet :: l)) with parser := .loop }
  | again {side : Side} {packet : Addr} (hpc : s.parser = .putting side packet) :
      ParserStep s (.put .eagain) .done s
  | refused {side : Side} {packet : Addr} (hpc : s.parser = .putting side packet) :
      ParserStep s (.put .refused) .done { s with parser := .releasing packet true }
  | release {packet : Addr} {exit : Bool} {pc : ParserPc} (hpc : s.parser = .releasing packet exit)
      (hto : pc = .exiting ∨ pc = .loop) :
      ParserStep s .release (.released (s.turn packet))
        { releaseAvPacket s packet with parser := pc }
  | exit (hpc : s.parser = .exiting) :
      ParserStep s .exit .done { s with parser := .returned, streamQuit := true }

/-- A decoder goes on with no packet in its hands. -/
inductive DecoderPc.Moves (checkpoint : Nat) : DecoderPc → DecoderPc → Prop
  | ready : Moves checkpoint .starting .loop
  | startFails : Moves checkpoint .starting .returned
  | halts (hheld : checkpoint ≠ 0) : Moves checkpoint .loop .checkpoint
  | passes (hfree : checkpoint = 0) : Moves checkpoint .loop .peeking
  | leaves (hfree : checkpoint = 0) : Moves checkpoint .checkpoint .leaving
  | left : Moves checkpoint .leaving .peeking
  | again : Moves checkpoint .peeking .loop
  | noPacket : Moves checkpoint .peeking (.decoding none)
  | peekFails : Moves checkpoint .peeking .returned
  | decodeFails {packet : Option Addr} : Moves checkpoint (.decoding packet) .returned
  | missing {packet : Addr} : Moves checkpoint (.decoding (some packet)) .returned
  | skip : Moves checkpoint (.decoding none) .loop

/-- Steps of a decoder. -/
inductive DecoderStep (s : State) (side : Side) : DecoderEvent → Outcome → State → Prop
  | moves {e : DecoderEvent} {pc : DecoderPc}
      (hmove : (s.pipe side).decoder.Moves (s.pipe side).checkpoint pc) :
      DecoderStep s side e .done (s.setDecoder side pc)
  | peek {packet : Addr} {l : List Addr} (hpc : (s.pipe side).decoder = .peeking)
      (hq : (s.pipe side).queue = some (l ++ [packet])) :
      DecoderStep s side (.peek .packet) .done (s.setDecoder side (.decoding (some packet)))
  | get {packet q : Addr} {l : List Addr} (hpc : (s.pipe side).decoder = .decoding (some packet))
      (hq : (s.pipe side).queue = some (l ++ [q])) :
      DecoderStep s side .get .done
        (s.setPipe side { s.pipe side with
          queue := some l
          decoder := if q = packet then .dequeued packet else .returned })
  | release {packet : Addr} (hpc : (s.pipe side).decoder = .dequeued packet) :
      DecoderStep s side .release (.released (s.turn packet))
        ((releaseAvPacket s packet).setDecoder side .loop)

/-- Steps of the control thread. -/
inductive ControlStep (s : State) : ControlEvent → Outcome → State → Prop
  | play (hpc : s.control = .idle) (hready : s.playState = .ready) :
      ControlStep s .play .done
        { s with playState := .stream, parser := .opening, streamQuit := false }
  | streamReady {worker : Bool} {pipe : Side → Pipe} (hpc : s.control = .idle)
      (hstream : s.playState = .stream) (hopened : s.parser ≠ .idle ∧ s.parser ≠ .opening)
      (hpipe : pipe = s.pipe ∨ pipe = (s.setDecoder .audio .starting).pipe) :
      ControlStep s (.stage worker) .done { s with playState := .audioDec, pipe := pipe }
  | audioDecReady {worker : Bool} {pipe : Side → Pipe} (hpc : s.control = .idle)
      (haudio : s.playState = .audioDec)
      (hpipe : pipe = s.pipe ∨
        s.videoStreamIndex ≠ -1 ∧ pipe = (s.setDecoder .video .starting).pipe) :
      ControlStep s (.stage worker) .done { s with playState := .videoDec, pipe := pipe }
  | outReady {worker : Bool} {p : PlayState} (hpc : s.control = .idle)
      (hnext : s.playState = .videoDec ∧ p = .audioOut ∨ s.playState = .audioOut ∧ p = .videoOut) :
      ControlStep s (.stage worker) .done { s with playState := p }
  | playing {worker : Bool} (hpc : s.control = .idle) (hout : s.playState = .videoOut) :
      ControlStep s (.stage worker) .done
        { s with playState := .playing, checkpoint := s.checkpoint - 1 }
  | sets {e : ControlEvent} {stopping streamQuit : Bool} {a i : Int} (hpc : s.control = .idle) :
      ControlStep s e .done
        { s with
          stopping := stopping
          streamQuit := streamQuit
          audioStreamIndex := a
          audioStreamId := i }
  | flush {e : ControlEvent} {exit : Bool} (hpc : s.control = .idle)
      (hplaying : s.playState = .playing) (hexit : exit = true → s.parser = .returned) :
      ControlStep s e .done (beginFlush s exit)
  | seek (hpc : s.control = .idle) (hready : s.playState ≠ .ready) :
      ControlStep s .seek .done (drop { s with checkpoint := s.checkpoint + 1 } .seek)
  | stopped (hpc : s.control = .idle) (hparser : s.parser = .returned)
      (hready : s.playState ≠ .ready) :
      ControlStep s .streamExit .done (drop s .streamExit)
  | unstarted (hpc : s.control = .idle) (hparser : s.parser = .returned)
      (hstream : s.playState = .stream) :
      ControlStep s .streamExit .done { s with control := .joining }
  | videoHalted {caller : Caller} (hpc : s.control = .halting caller .video)
      (hhalted : (s.pipe .video).decoder.halted = true) :
      ControlStep s .halted .done (haltAudio s caller)
  | audioHalted {caller : Caller} (hpc : s.control = .halting caller .audio)
      (hhalted : (s.pipe .audio).decoder.halted = true) :
      ControlStep s .halted .done (dropQueues s caller)
  | take {caller : Caller} {side : Side} {packet : Addr} {l : List Addr}
      (hpc : s.control = .dropping caller side) (hq : (s.pipe side).queue = some (l ++ [packet])) :
      ControlStep s .take .done
        { s.setQueue side (some l) with control := .dequeued caller side packet }
  | release {caller : Caller} {side : Side} {packet : Addr}
      (hpc : s.control = .dequeued caller side packet) :
      ControlStep s .release (.released (s.turn packet))
        { releaseAvPacket s packet with control := .dropping caller side }
  | videoDropped {caller : Caller} (hpc : s.control = .dropping caller .video)
      (hempty : (s.pipe .video).queue = some []) :
      ControlStep s .next .done { s with control := .frames caller }
  | letVideo {caller : Caller} {n : Nat} (hpc : s.control = .frames caller)
      (hcount : (s.pipe .video).checkpoint = n + 1) :
      ControlStep s .letGo .done
        { s.setPipe .video { s.pipe .video with checkpoint := n } with
          control := .yielding caller .video }
  | haltVideo {caller : Caller} (hpc : s.control = .yielding caller .video) :
      ControlStep s .haltAgain .done
        { haltDecoder s .video with control := .frames caller }
  | framesDropped {caller : Caller} (hpc : s.control = .frames caller) :
      ControlStep s .next .done { s with control := .dropping caller .audio }
  | letAudio {caller : Caller} {n : Nat} (hpc : s.control = .dropping caller .audio)
      (hcount : (s.pipe .audio).checkpoint = n + 1) :
      ControlStep s .letGo .done
        { s.setPipe .audio { s.pipe .audio with checkpoint := n } with
          control := .yielding caller .audio }
  | haltAudio {caller : Caller} (hpc : s.control = .yielding caller .audio) :
      ControlStep s .haltAgain .done
        { haltDecoder s .audio with control := .redoing caller }
  | haltedAgain {caller : Caller} (hpc : s.control = .redoing caller)
      (hhalted : (s.pipe .audio).decoder.halted = true) :
      ControlStep s .halted .done { s with control := .dropping caller .audio }
  | dropped {caller : Caller} {t : State} (hpc : s.control = .dropping caller .audio)
      (hempty : (s.pipe .audio).queue.getD [] = []) (hend : endDrop s caller = some t) :
      ControlStep s .next .done t
  | flushed {exit : Bool} (hpc : s.control = .flushing exit) (hempty : exit = true → s.flushed) :
      ControlStep s .flushed .done
        { s with
          flushing := false
          checkpoint := s.checkpoint - 1
          control := if exit then .joining else .idle }
  | delay (hpc : s.control = .flushing true) :
      ControlStep s .delay .done { s with control := .idle }
  | join (hpc : s.control = .joining) (hjoins : s.joins) :
      ControlStep s .join .done (PlayerPackets.join s)

/-- A step of some thread. -/
inductive Steps (s : State) : Event → Outcome → State → Prop
  | parser {e : ParserEvent} {out : Outcome} {s' : State} (h : ParserStep s e out s') :
      Steps s (.parser e) out s'
  | decoder {side : Side} {e : DecoderEvent} {out : Outcome} {s' : State}
      (h : DecoderStep s side e out s') : Steps s (.decoder side e) out s'
  | control {e : ControlEvent} {out : Outcome} {s' : State} (h : ControlStep s e out s') :
      Steps s (.control e) out s'

theorem streamOpened_cases (s : State) : ∃ pc n,
    streamOpened s = { s with checkpoint := n, parser := pc } ∧
      (pc = .exiting ∧ n = s.checkpoint ∨ pc = .loop ∧ n = s.checkpoint + 1) := by
  unfold streamOpened
  split
  · exact ⟨_, _, rfl, Or.inl ⟨rfl, rfl⟩⟩
  · exact ⟨_, _, rfl, Or.inr ⟨rfl, rfl⟩⟩

theorem Pipe.opened_refl (p : Pipe) : p.Opened p := ⟨rfl, rfl, Or.inl rfl⟩

theorem Pipe.Opened.trans {p q r : Pipe} (h : p.Opened q) (h' : q.Opened r) : p.Opened r := by
  refine ⟨h'.1.trans h.1, h'.2.1.trans h.2.1, ?_⟩
  rcases h'.2.2 with hsame | hnew
  · rw [hsame]
    exact h.2.2
  · exact Or.inr hnew

theorem setQueue_opened (s : State) (side i : Side) :
    (s.pipe i).Opened ((s.setQueue side (some [])).pipe i) := by
  by_cases hi : i = side
  · subst hi
    rw [setQueue_self]
    exact ⟨rfl, rfl, Or.inr rfl⟩
  · rw [State.setQueue, setPipe_of_ne s _ hi]
    exact Pipe.opened_refl _

theorem opensVideo_cases (s : State) (q₁ q₂ : Bool) : ∃ pipe pc n,
    opensVideo s q₁ q₂ = { s with pipe := pipe, checkpoint := n, parser := pc } ∧
      (∀ side, (s.pipe side).Opened (pipe side)) ∧
      (pc = .exiting ∧ n = s.checkpoint ∨ pc = .loop ∧ n = s.checkpoint + 1) := by
  have hsame : ∀ side, (s.pipe side).Opened (s.pipe side) := fun side => Pipe.opened_refl _
  unfold opensVideo
  split
  · obtain ⟨pc, n, heq, hto⟩ := streamOpened_cases s
    exact ⟨_, pc, n, heq, hsame, hto⟩
  · split
    · exact ⟨_, _, _, rfl, hsame, Or.inl ⟨rfl, rfl⟩⟩
    · split
      · exact ⟨_, _, _, rfl, setQueue_opened s .video, Or.inl ⟨rfl, rfl⟩⟩
      · obtain ⟨pc, n, heq, hto⟩ := streamOpened_cases (s.setQueue .video (some []))
        exact ⟨_, pc, n, heq, setQueue_opened s .video, hto⟩

theorem opens_cases (hpc : s.parser = .opening) (streams : List AVStream) (audio video : Int)
    (q₁ q₂ q₃ : Bool) :
    ParserStep s (.opens streams audio video q₁ q₂ q₃) .done
      (opens s streams audio video q₁ q₂ q₃) := by
  unfold opens
  split
  · exact .opens hpc (fun side => Pipe.opened_refl _) (Or.inl ⟨rfl, rfl⟩)
  · obtain ⟨pipe, pc, n, heq, hpipe, hto⟩ := opensVideo_cases
      { s.setQueue .audio (some []) with
        streams := streams
        audioStreamIndex := if 0 ≤ audio then audio else -1
        videoStreamIndex := video } q₂ q₃
    rw [heq]
    exact .opens hpc (fun side => (setQueue_opened s .audio side).trans (hpipe side)) hto

theorem selectAudio_cases (s : State) (stream : Nat) (st : AVStream) :
    ∃ a, selectAudio s stream st = { s with audioStreamIndex := a } := by
  unfold selectAudio
  split
  · split
    · split
      · exact ⟨_, rfl⟩
      · exact ⟨s.audioStreamIndex, rfl⟩
    · exact ⟨_, rfl⟩
  · exact ⟨s.audioStreamIndex, rfl⟩

theorem route_cases {packet : Addr} {stream : Nat} (hpc : s.parser = .reading packet)
    (st : AVStream) :
    ParserStep s (.read (.packet stream)) .done (route s packet stream st) := by
  obtain ⟨a, ha⟩ := selectAudio_cases s stream st
  unfold route
  split
  · rename_i hvideo
    refine .route hpc (Or.inl ⟨.video, rfl, fun _ hnone => ?_⟩)
    rw [hnone] at hvideo
    exact absurd hvideo (by simp)
  · split
    · rw [ha]
      dsimp only
      split
      · exact .route hpc (Or.inl ⟨.audio, rfl, nofun⟩)
      · exact .route hpc (Or.inr rfl)
    · exact .route hpc (Or.inr rfl)

theorem parser_cases {e : ParserEvent} {out : Outcome} (h : stepParser s e = some (s', out)) :
    ParserStep s e out s' := by
  unfold stepParser at h
  split at h
  · cases h
    exact .openFails ‹_›
  · cases h
    exact opens_cases ‹_› ..
  · rename_i hpc
    split at h
    · cases h
      exact .quits hpc
    · split at h
      · cases h
        exact .passes (Or.inl hpc) ‹_›
      · cases h
        exact .halts hpc ‹_›
  · rename_i hpc
    split at h
    · cases h
      exact .passes (Or.inr hpc) ‹_›
    · cases h
  · obtain ⟨⟨t, packet⟩, hacquire, hr⟩ := Option.map_eq_some_iff.mp h
    cases hr
    exact .acquire ‹_› hacquire
  · obtain ⟨st, -, hr⟩ := Option.map_eq_some_iff.mp h
    cases hr
    exact route_cases ‹_› st
  · rename_i r hno hpc
    cases h
    refine .lost hpc ?_
    cases r with
    | packet stream => exact absurd rfl (hno stream)
    | eof => exact Or.inl rfl
    | error => exact Or.inr rfl
  · obtain ⟨l, hq, hr⟩ := Option.map_eq_some_iff.mp h
    cases hr
    exact .put ‹_› hq
  · cases h
    exact .again ‹_›
  · cases h
    exact .refused ‹_›
  · rename_i packet exit hpc
    cases h
    refine .release hpc ?_
    cases exit
    · exact Or.inr rfl
    · exact Or.inl rfl
  · split at h
    · cases h
    · cases h
      exact .exit ‹_›
  · cases h

theorem decoder_cases {side : Side} {e : DecoderEvent} {out : Outcome}
    (h : stepDecoder s side e = some (s', out)) : DecoderStep s side e out s' := by
  have hmoves : ∀ {pc pc' : DecoderPc}, (s.pipe side).decoder = pc →
      pc.Moves (s.pipe side).checkpoint pc' → out = .done → s' = s.setDecoder side pc' →
      DecoderStep s side e out s' := by
    rintro pc pc' rfl hmove rfl rfl
    exact .moves hmove
  unfold stepDecoder at h
  dsimp only at h
  split at h
  · cases h
    exact hmoves ‹_› .ready rfl rfl
  · cases h
    exact hmoves ‹_› .startFails rfl rfl
  · split at h
    · cases h
      exact hmoves ‹_› (.passes ‹_›) rfl rfl
    · cases h
      exact hmoves ‹_› (.halts ‹_›) rfl rfl
  · split at h
    · cases h
      exact hmoves ‹_› (.leaves ‹_›) rfl rfl
    · cases h
  · cases h
    exact hmoves ‹_› .left rfl rfl
  · rename_i hpc
    obtain ⟨l, hq, hl⟩ := Option.bind_eq_some_iff.mp h
    split at hl
    · cases hl
      exact hmoves hpc .again rfl rfl
    · rename_i htail
      obtain ⟨l', rfl⟩ := listTail_eq_some.mp htail
      cases hl
      exact .peek hpc hq
    · cases hl
      exact hmoves hpc .noPacket rfl rfl
    · cases hl
      exact hmoves hpc .peekFails rfl rfl
    · cases hl
  · cases h
    exact hmoves ‹_› .decodeFails rfl rfl
  · cases h
    exact hmoves ‹_› .skip rfl rfl
  · rename_i hpc
    obtain ⟨l, hq, hl⟩ := Option.bind_eq_some_iff.mp h
    split at hl
    · cases hl
      exact hmoves hpc .missing rfl rfl
    · rename_i htail
      obtain ⟨l', rfl⟩ := listTail_eq_some.mp htail
      cases hl
      rw [List.dropLast_concat]
      exact .get hpc hq
  · cases h
    exact .release ‹_›
  · cases h

theorem continueParser_cases {t : State} (h : continueParser s = some t) :
    s.checkpoint ≠ 0 ∧ t = { s with checkpoint := s.checkpoint - 1 } := by
  unfold continueParser at h
  split at h
  · cases h
  · cases h
    exact ⟨‹_›, rfl⟩

theorem continueDecoder_cases {side : Side} {t : State} (h : continueDecoder s side = some t) :
    ∃ n, (s.pipe side).checkpoint = n + 1 ∧
      t = s.setPipe side { s.pipe side with checkpoint := n } := by
  unfold continueDecoder at h
  split at h
  · cases h
  · rename_i hne
    obtain ⟨n, hn⟩ := Nat.exists_eq_succ_of_ne_zero hne
    cases h
    rw [hn]
    exact ⟨n, rfl, rfl⟩

theorem stage_cases {worker : Bool} {t : State} (hpc : s.control = .idle)
    (h : stage s worker = some t) : ControlStep s (.stage worker) .done t := by
  unfold stage at h
  split at h
  · cases h
  · rename_i hstream
    split at h
    · cases h
    · rename_i hopened
      rw [not_or] at hopened
      dsimp only at h
      split at h
      · cases h
        exact .streamReady hpc hstream hopened (Or.inl rfl)
      · split at h
        · cases h
          exact .streamReady hpc hstream hopened (Or.inr rfl)
        · cases h
  · rename_i haudio
    cases h
    split
    · rename_i hvideo
      exact .audioDecReady hpc haudio (Or.inr ⟨hvideo.1, rfl⟩)
    · exact .audioDecReady hpc haudio (Or.inl rfl)
  · cases h
    exact .outReady hpc (Or.inl ⟨‹_›, rfl⟩)
  · cases h
    exact .outReady hpc (Or.inr ⟨‹_›, rfl⟩)
  · rename_i hout
    obtain ⟨-, rfl⟩ := continueParser_cases h
    exact .playing hpc hout
  · cases h

theorem streamExit_cases {t : State} (hpc : s.control = .idle) (h : streamExit s = some t) :
    ControlStep s .streamExit .done t := by
  unfold streamExit at h
  split at h
  · rename_i hexit
    split at h
    · cases h
      exact .stopped hpc hexit.1 hexit.2
    · split at h
      · rename_i hplaying
        cases h
        exact .flush hpc hplaying fun _ => hexit.1
      · split at h
        · rename_i hstream
          cases h
          exact .unstarted hpc hexit.1 hstream
        · cases h
  · cases h

theorem control_cases {e : ControlEvent} {out : Outcome} (h : stepControl s e = some (s', out)) :
    ControlStep s e out s' := by
  unfold stepControl at h
  dsimp only at h
  split at h
  · rename_i hpc
    split at h
    · cases h
      exact .play hpc ‹_›
    · cases h
  · rename_i hpc
    obtain ⟨t, hstage, hr⟩ := Option.map_eq_some_iff.mp h
    cases hr
    exact stage_cases hpc hstage
  · cases h
    exact .sets ‹_›
  · cases h
    exact .sets ‹_›
  · cases h
    exact .sets ‹_›
  · rename_i hpc
    split at h
    · cases h
      exact .flush hpc ‹_› nofun
    · cases h
  · rename_i hpc
    split at h
    · cases h
    · cases h
      exact .seek hpc ‹_›
  · rename_i hpc
    obtain ⟨t, hexit, hr⟩ := Option.map_eq_some_iff.mp h
    cases hr
    exact streamExit_cases hpc hexit
  · rename_i hpc
    split at h
    · cases h
      exact .videoHalted hpc ‹_›
    · cases h
  · rename_i hpc
    split at h
    · cases h
      exact .audioHalted hpc ‹_›
    · cases h
  · rename_i hpc
    obtain ⟨l, hq, h⟩ := Option.bind_eq_some_iff.mp h
    obtain ⟨packet, htail, hr⟩ := Option.map_eq_some_iff.mp h
    obtain ⟨l', rfl⟩ := listTail_eq_some.mp htail
    cases hr
    rw [List.dropLast_concat]
    exact .take hpc hq
  · cases h
    exact .release ‹_›
  · rename_i hpc
    split at h
    · cases h
      exact .videoDropped hpc ‹_›
    · cases h
  · rename_i hpc
    obtain ⟨t, hcontinue, hr⟩ := Option.map_eq_some_iff.mp h
    obtain ⟨n, hn, rfl⟩ := continueDecoder_cases hcontinue
    cases hr
    exact .letVideo hpc hn
  · cases h
    exact .haltVideo ‹_›
  · cases h
    exact .framesDropped ‹_›
  · rename_i hpc
    split at h
    · obtain ⟨t, hcontinue, hr⟩ := Option.map_eq_some_iff.mp h
      obtain ⟨n, hn, rfl⟩ := continueDecoder_cases hcontinue
      cases hr
      exact .letAudio hpc hn
    · cases h
  · cases h
    exact .haltAudio ‹_›
  · rename_i hpc
    split at h
    · cases h
      exact .haltedAgain hpc ‹_›
    · cases h
  · rename_i hpc
    split at h
    · obtain ⟨t, hend, hr⟩ := Option.map_eq_some_iff.mp h
      cases hr
      exact .dropped hpc ‹_› hend
    · cases h
  · rename_i hpc
    split at h
    · obtain ⟨t, hcontinue, hr⟩ := Option.map_eq_some_iff.mp h
      obtain ⟨-, rfl⟩ := continueParser_cases hcontinue
      cases hr
      exact .flushed hpc ‹_›
    · cases h
  · cases h
    exact .delay ‹_›
  · rename_i hpc
    split at h
    · cases h
      exact .join hpc ‹_›
    · cases h
  · cases h

/-- There is no other step. -/
theorem step_cases {e : Event} {out : Outcome} (h : step s e = some (s', out)) :
    Steps s e out s' := by
  cases e with
  | parser e => exact .parser (parser_cases h)
  | decoder side e => exact .decoder (decoder_cases h)
  | control e => exact .control (control_cases h)

end Mediabox.PlayerPackets
