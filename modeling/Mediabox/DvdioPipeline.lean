import Mediabox.DvdioArgs

/-!
# Waiting for the pipeline

FLUSH and STILL_FRAME are answered when the pipeline has played what it holds.  The audio and the
clock of the video stand still while the playback is paused, and the control thread resumes it only
when it is out of its loop; the video output needs the main thread, which may be waiting for the
lock of the sender.

* `Drained` — a FLUSH or STILL_FRAME is sent when the playback will run, or when nothing is left to
  play; and with one of them pending, no key is taken while a request waits, unless the last frame
  can be sent to the main thread without waiting for it.
* `Flowing` — the run invariant, kept by such steps (`step_flowing`).
-/

set_option autoImplicit false

namespace Mediabox.Dvdio

open Transition

/-! ## The condition -/

/-- FLUSH and STILL_FRAME. -/
def Request.drains : Request → Bool
  | .flush | .stillFrame _ => true
  | _ => false

def Msg.drains : Msg → Bool
  | .request _ r => r.drains
  | _ => false

/-- Whether the playback is paused after the message. -/
def Msg.pauses (paused : Bool) : Msg → Bool
  | .posted .videoOutReady => true
  | .posted (.pausing p) => p
  | _ => paused

/-- A FLUSH or STILL_FRAME is queued or handled. -/
def Talk.draining (v : Talk) : Prop :=
  (∃ m ∈ v.queue, m.drains = true) ∨ v.control.drains = true

instance (v : Talk) : Decidable v.draining := inferInstanceAs (Decidable (_ ∨ _))

/-- The frames that the main thread has to present before the last one is sent. -/
def Talk.ahead (v : Talk) : Nat := v.frames + v.delegated.toNat - 1

/-- Nothing is left in the pipeline that the request would wait for. -/
def Talk.emptyFor (v : Talk) (r : Request) : Prop := v.frames = 0 ∧ (r = .flush → v.audio = 0)

instance (v : Talk) (r : Request) : Decidable (v.emptyFor r) :=
  inferInstanceAs (Decidable (_ ∧ (_ → _)))

/-- Whether a request may be sent. -/
def Sends (v : Talk) (r : Request) : Prop :=
  (r.waits = true → v.main.wants = true → r.drains = true ∨ v.draining → v.ahead = 0) ∧
    (r.drains = true → v.queue.foldl Msg.pauses v.paused = false ∨ r.waits = true ∧ v.emptyFor r)

instance (v : Talk) (r : Request) : Decidable (Sends v r) :=
  inferInstanceAs (Decidable ((_ → _ → _ → _) ∧ (_ → _ ∨ _)))

/-- The same for the stream thread, which may be about to send one. -/
def StreamPc.Sends (v : Talk) : StreamPc → Prop
  | .sending r _ _ => Dvdio.Sends v r
  | _ => True

instance (v : Talk) : ∀ pc : StreamPc, Decidable (pc.Sends v)
  | .sending r _ _ => inferInstanceAs (Decidable (Dvdio.Sends v r))
  | .idle | .locking | .loop | .waiting _ _ _ _ | .leaving _ | .dozing => .isTrue trivial

/-- The condition under which the pipeline gets empty. -/
def Drained (s : State) : Event → Prop
  | .main (.key _) => s.stream.awaits = true → s.talk.draining → s.talk.ahead = 0
  | .stream (.send _) => s.stream.Sends s.talk
  | _ => True

instance (s : State) : ∀ e, Decidable (Drained s e)
  | .main (.key _) => inferInstanceAs (Decidable (_ → _ → _))
  | .stream (.send _) => inferInstanceAs (Decidable (s.stream.Sends s.talk))
  | .main (.input _ _ _) | .main .delegate | .main .frame | .stream (.read _) | .stream .lock
  | .stream (.turn _ _) | .stream .leave | .stream .wake | .stream .rouse | .control _ | .output _
  | .fire _ _ | .post _ => .isTrue trivial

/-! ## The messages ahead -/

/-- Nothing is left to play for this request, which is waited for. -/
def Talk.idles (v : Talk) (arg : Nat) (r : Request) : Prop :=
  v.stream.awaits = true ∧ v.stream.unanswered = some arg ∧ v.emptyFor r

/-- Each FLUSH and STILL_FRAME is taken when the playback runs, or when nothing is left to play. -/
def Flows (idles : Nat → Request → Prop) : Bool → List Msg → Prop
  | _, [] => True
  | paused, m :: ms =>
    (m.drains = true → paused = false ∨ ∃ arg r, m = .request arg r ∧ idles arg r) ∧
      Flows idles (m.pauses paused) ms

variable {idles idles' : Nat → Request → Prop} {paused : Bool} {ms : List Msg} {m : Msg}

theorem Flows.mono (h : Flows idles paused ms)
    (hidles : ∀ arg r, .request arg r ∈ ms → idles arg r → idles' arg r) :
    Flows idles' paused ms := by
  induction ms generalizing paused with
  | nil => trivial
  | cons m ms ih =>
    refine ⟨fun hm => (h.1 hm).imp_right ?_, ih h.2 fun arg r hr =>
      hidles arg r (List.mem_cons_of_mem _ hr)⟩
    rintro ⟨arg, r, rfl, hidle⟩
    exact ⟨arg, r, rfl, hidles arg r List.mem_cons_self hidle⟩

theorem Flows.snoc (h : Flows idles paused ms)
    (hm : m.drains = true →
      ms.foldl Msg.pauses paused = false ∨ ∃ arg r, m = .request arg r ∧ idles arg r) :
    Flows idles paused (ms ++ [m]) := by
  induction ms generalizing paused with
  | nil => exact ⟨hm, trivial⟩
  | cons m' ms ih => exact ⟨h.1, ih h.2 hm⟩

theorem flows_of_none (h : ∀ m ∈ ms, m.drains = false) : Flows idles paused ms := by
  induction ms generalizing paused with
  | nil => trivial
  | cons m ms ih =>
    refine ⟨fun hm => ?_, ih fun m' hm' => h m' (List.mem_cons_of_mem _ hm')⟩
    rw [h m List.mem_cons_self] at hm
    cases hm

/-- What may be taken under a pause may be taken without one. -/
theorem Flows.resumed (h : Flows idles true ms) : Flows idles paused ms := by
  induction ms generalizing paused with
  | nil => trivial
  | cons m ms ih =>
    refine ⟨fun hm => (h.1 hm).imp_left fun hfalse => (nomatch hfalse), ?_⟩
    cases hp : m.pauses true with
    | true =>
      have hrest := h.2
      rw [hp] at hrest
      exact ih hrest
    | false =>
      have hsame : m.pauses paused = m.pauses true := by
        cases m with
        | posted p => cases p <;> first | rfl | cases hp
        | _ => cases hp
      rw [hsame]
      exact h.2

/-! ## The invariant -/

/-- The request that is handled in a loop. -/
def ControlPc.request : ControlPc → Option Request
  | .flushing _ => some .flush
  | .presenting _ length => some (.stillFrame length)
  | _ => none

/-- The run invariant. -/
structure Flowing (v : Talk) : Prop where
  room : v.stream.awaits = true → v.main.wants = true → v.draining → v.ahead = 0
  queue : Flows v.idles v.paused v.queue
  control : ∀ r, v.control.request = some r →
    v.paused = false ∨ (∃ arg, v.control.handles arg = true) ∧ v.emptyFor r

theorem init_flowing : Flowing init.talk := ⟨nofun, trivial, nofun⟩

variable {v v' : Talk} {e : Event} {acts : List Act}

theorem ControlPc.drains_of_request {pc : ControlPc} {r : Request} (h : pc.request = some r) :
    pc.drains = true := by
  cases pc with
  | flushing | presenting => rfl
  | _ => cases h

theorem Talk.emptyFor.mono {r : Request} (h : v.emptyFor r) (haudio : v'.audio ≤ v.audio)
    (hframes : v'.frames ≤ v.frames) : v'.emptyFor r :=
  ⟨Nat.le_zero.mp (h.1 ▸ hframes), fun hr => Nat.le_zero.mp (h.2 hr ▸ haudio)⟩

/-- A request in the queue is still waited for. -/
theorem Owing.idles_of_mem (h : Owing v) (h' : Owing v') {arg : Nat} {r : Request}
    (hold : .request arg r ∈ v.queue) (hnew : .request arg r ∈ v'.queue)
    (hle : v.stream.awaits = true → v'.audio ≤ v.audio ∧ v'.frames ≤ v.frames)
    (hidle : v.idles arg r) : v'.idles arg r := by
  obtain ⟨hawaits, -, hempty⟩ := hidle
  refine ⟨?_, h'.asked arg (owed_request hnew), hempty.mono (hle hawaits).1 (hle hawaits).2⟩
  rw [← h'.kind arg r hnew, h.kind arg r hold]
  exact hawaits

theorem Flowing.control_same (h : Flowing v) (ho : Owing v) (hcontrol : v'.control = v.control)
    (hpaused : v'.paused = v.paused)
    (hle : v.stream.awaits = true → v'.audio ≤ v.audio ∧ v'.frames ≤ v.frames) {r : Request}
    (hr : v'.control.request = some r) :
    v'.paused = false ∨ (∃ arg, v'.control.handles arg = true) ∧ v'.emptyFor r := by
  rw [hcontrol] at hr
  rw [hpaused, hcontrol]
  refine (h.control r hr).imp_right ?_
  rintro ⟨⟨arg, hhandles⟩, hempty⟩
  obtain ⟨haudio, hframes⟩ := hle (ho.held arg (Or.inl hhandles))
  exact ⟨⟨arg, hhandles⟩, hempty.mono haudio hframes⟩

/-- No FLUSH or STILL_FRAME is added or taken, and nothing is added to the pipeline while a request
    waits. -/
theorem Flowing.aside (h : Flowing v) (ho : Owing v) (ho' : Owing v')
    (hawaits : v'.stream.awaits = true → v.stream.awaits = true)
    (hwants : v'.main.wants = true → v.main.wants = true)
    (hqueue : ∃ ms, v'.queue = v.queue ++ ms ∧ ms.length ≤ 1 ∧ ∀ m ∈ ms, m.drains = false)
    (hcontrol : v'.control = v.control ∨ v'.control.drains = false) (hpaused : v'.paused = v.paused)
    (hempty : v.stream.awaits = true →
      v'.audio ≤ v.audio ∧ v'.frames ≤ v.frames ∧ v'.ahead ≤ v.ahead) : Flowing v' := by
  have hle : v.stream.awaits = true → v'.audio ≤ v.audio ∧ v'.frames ≤ v.frames :=
    fun hs => ⟨(hempty hs).1, (hempty hs).2.1⟩
  obtain ⟨ms, heq, hone, hnone⟩ := hqueue
  refine ⟨fun hs hm hd => ?_, ?_, fun r hr => ?_⟩
  · have hd' : v.draining := by
      rcases hd with ⟨m, hmem, hdrains⟩ | hdrains
      · rw [heq] at hmem
        refine Or.inl ⟨m, (List.mem_append.mp hmem).resolve_right fun hnew => ?_, hdrains⟩
        rw [hnone m hnew] at hdrains
        cases hdrains
      · rcases hcontrol with hsame | hno
        · exact Or.inr (hsame ▸ hdrains)
        · rw [hno] at hdrains
          cases hdrains
    have hle := (hempty (hawaits hs)).2.2
    have hzero := h.room (hawaits hs) (hwants hm) hd'
    omega
  · have hold : Flows v'.idles v.paused v.queue := by
      refine h.queue.mono fun arg r hr => ho.idles_of_mem ho' hr ?_ hle
      rw [heq]
      exact List.mem_append_left _ hr
    rw [heq, hpaused]
    match ms, hone with
    | [], _ => rwa [List.append_nil]
    | [m], _ =>
      refine hold.snoc fun hdrains => ?_
      rw [hnone m (List.mem_singleton_self m)] at hdrains
      cases hdrains
  · rcases hcontrol with hsame | hno
    · exact h.control_same ho hsame hpaused hle hr
    · exact absurd ((ControlPc.drains_of_request hr).symm.trans hno) (by simp)

/-! ## Messages -/

/-- What the taking of a message does to the pipeline, and to the threads that wait for it. -/
structure Takes (v : Talk) (m : Msg) (v' : Talk) : Prop where
  queue : v'.queue = v.queue
  main : v'.main = v.main
  awaits : v'.stream.awaits = true → v.stream.awaits = true
  audio : v'.audio ≤ v.audio
  frames : v'.frames ≤ v.frames
  delegated : v'.delegated = v.delegated
  /-- the pause that comes with VIDEOOUT_READY is still to come -/
  paused : v'.paused = m.pauses v.paused ∨ m.pauses v.paused = true
  control : v'.control.drains = true → ∃ arg r, m = .request arg r ∧ r.drains = true ∧
    v'.control.request = some r ∧ (r.waits = true → v'.control.handles arg = true)

theorem audio_answerWaiter (v : Talk) : v.answerWaiter.1.audio = v.audio := by
  unfold Talk.answerWaiter
  split <;> rfl

theorem audio_clear (v : Talk) : v.clear.1.audio = v.audio := by
  unfold Talk.clear
  split
  · split
    · exact audio_answerWaiter _
    · rfl
  · rfl

theorem Answers.takes {v₁ : Talk} (h : Answers v₁ v') (hv : v.control.drains = false)
    (hqueue : v₁.queue = v.queue) (hcontrol : v₁.control = v.control) (hmain : v₁.main = v.main)
    (hstream : v₁.stream = v.stream) (haudio : v'.audio ≤ v.audio) (hframes : v₁.frames ≤ v.frames)
    (hdelegated : v₁.delegated = v.delegated) (hpaused : v₁.paused = m.pauses v.paused) :
    Takes v m v' where
  queue := h.queue.trans hqueue
  main := h.main.trans hmain
  awaits := fun hs => hstream ▸ h.awaits hs
  audio := haudio
  frames := h.frames ▸ hframes
  delegated := h.delegated.trans hdelegated
  paused := Or.inl (h.paused.trans hpaused)
  control := fun hdrains => by
    rw [h.control, hcontrol, hv] at hdrains
    cases hdrains

theorem Take.takes {sent : Bool} (hidle : v.control = .idle) (h : Take v sent acts m v') :
    Takes v m v' := by
  have hno : v.control.drains = false := by
    rw [hidle]
    rfl
  have hsame {v₁ : Talk} (hans : Answers v₁ v') := hans.takes (m := m) hno
  have hbusy : ∀ pc : ControlPc, (pc.drains = true → ∃ arg r, m = .request arg r ∧
      r.drains = true ∧ pc.request = some r ∧ (r.waits = true → pc.handles arg = true)) →
      m.pauses v.paused = v.paused →
      Takes v m { v with control := pc } := fun pc hpc hp =>
    ⟨rfl, rfl, id, Nat.le_refl _, Nat.le_refl _, rfl, Or.inl hp.symm, hpc⟩
  cases h with
  | update => exact hbusy _ (fun hdrains => by cases hdrains) rfl
  | noUpdate | skip | noTimer =>
    exact hsame (.refl v) rfl rfl rfl rfl (Nat.le_refl _) (Nat.le_refl _) rfl rfl
  | flush =>
    exact hbusy _ (fun _ => ⟨_, _, rfl, rfl, rfl, fun _ => by simp [ControlPc.handles]⟩) rfl
  | still =>
    refine hbusy _ (fun _ => ⟨_, _, rfl, rfl, rfl, fun hwaits => ?_⟩) rfl
    simpa [ControlPc.handles, waits_stillFrame] using hwaits
  | quick =>
    exact hsame (answers_answer v _) rfl rfl rfl rfl (Nat.le_refl _) (Nat.le_refl _) rfl rfl
  | timer =>
    exact hsame (answers_answerWaiter v.noStill) rfl rfl rfl rfl
      (Nat.le_of_eq (audio_answerWaiter v.noStill)) (Nat.le_refl _) rfl rfl
  | ready =>
    refine ⟨rfl, rfl, id, Nat.le_refl _, Nat.le_refl _, rfl, Or.inr rfl, fun hdrains => ?_⟩
    cases hdrains
  | drop =>
    refine hsame (answers_clear _) rfl rfl rfl rfl ?_ (Nat.zero_le _) rfl rfl
    rw [audio_clear]
    exact Nat.zero_le _
  | pausing =>
    exact hsame (.refl _) rfl rfl rfl rfl (Nat.le_refl _) (Nat.le_refl _) rfl rfl
  | other hp =>
    refine hsame (.refl v) rfl rfl rfl rfl (Nat.le_refl _) (Nat.le_refl _) rfl ?_
    rcases hp with rfl | rfl <;> rfl

theorem Flowing.take {sent : Bool} {queue : List Msg} (h : Flowing v) (ho : Owing v)
    (ho' : Owing v') (hidle : v.control = .idle) (hqueue : v.queue = m :: queue)
    (ht : Take { v with queue := queue } sent acts m v') : Flowing v' := by
  have htakes : Takes { v with queue := queue } m v' := Take.takes hidle ht
  have hrest : v'.queue = queue := htakes.queue
  have hle : v.stream.awaits = true → v'.audio ≤ v.audio ∧ v'.frames ≤ v.frames :=
    fun _ => ⟨htakes.audio, htakes.frames⟩
  obtain ⟨hhead, htail⟩ : (m.drains = true →
      v.paused = false ∨ ∃ arg r, m = .request arg r ∧ v.idles arg r) ∧
        Flows v.idles (m.pauses v.paused) queue := by
    have hflows := h.queue
    rw [hqueue] at hflows
    exact hflows
  refine ⟨fun hs hm hd => ?_, ?_, fun r hr => ?_⟩
  · have hd' : v.draining := by
      left
      rw [hqueue]
      rcases hd with ⟨m', hmem, hdrains⟩ | hdrains
      · exact ⟨m', List.mem_cons_of_mem m (hrest ▸ hmem), hdrains⟩
      · obtain ⟨_, _, rfl, hr, -⟩ := htakes.control hdrains
        exact ⟨_, List.mem_cons_self, hr⟩
    have hwants : v.main.wants = true := by
      rw [← hm, htakes.main]
    have hzero := h.room (htakes.awaits hs) hwants hd'
    have hframes := htakes.frames
    unfold Talk.ahead at hzero ⊢
    rw [htakes.delegated]
    dsimp only at hframes ⊢
    omega
  · have hflows : Flows v'.idles (m.pauses v.paused) queue := by
      refine htail.mono fun arg r hr => ho.idles_of_mem ho' ?_ (hrest ▸ hr) hle
      rw [hqueue]
      exact List.mem_cons_of_mem m hr
    rw [hrest]
    rcases htakes.paused with hsame | htrue
    · rw [hsame]
      exact hflows
    · rw [htrue] at hflows
      exact hflows.resumed
  · obtain ⟨arg, r', rfl, hdrains, hr', hhandles⟩ :=
      htakes.control (ControlPc.drains_of_request hr)
    have hsame : r = r' := Option.some.inj (hr.symm.trans hr')
    subst hsame
    have hpaused : v'.paused = v.paused := by cases ht <;> rfl
    rw [hpaused]
    refine (hhead hdrains).imp_right ?_
    rintro ⟨a, _, heq, hawaits, -, hempty⟩
    cases heq
    have hwaits : r.waits = true :=
      (ho.kind arg r (by rw [hqueue]; exact List.mem_cons_self)).trans hawaits
    exact ⟨⟨arg, hhandles hwaits⟩, hempty.mono htakes.audio htakes.frames⟩

/-! ## Every step -/

/-- A request is sent. -/
theorem Flowing.send (h : Flowing v) {r : Request} {pc : StreamPc}
    (hpc : v.stream.awaits = false) (hawaits : pc.awaits = r.waits)
    (hun : pc.unanswered = some v.nextArg) (hok : Sends v r) :
    Flowing (Talk.post { v with stream := pc, nextArg := v.nextArg + 1 } (.request v.nextArg r)
      true) := by
  have hnobody : ∀ arg r, ¬ v.idles arg r := by
    intro arg r hidle
    exact absurd (hpc.symm.trans hidle.1) (by simp)
  refine ⟨fun hs hm hd => ?_, ?_, h.control⟩
  · refine hok.1 (hawaits ▸ hs) hm ?_
    rcases hd with ⟨m, hmem, hdrains⟩ | hdrains
    · rcases List.mem_append.mp hmem with hold | hnew
      · exact Or.inr (Or.inl ⟨m, hold, hdrains⟩)
      · rw [List.mem_singleton.mp hnew] at hdrains
        exact Or.inl hdrains
    · exact Or.inr (Or.inr hdrains)
  · refine (h.queue.mono fun arg r _ hidle => absurd hidle (hnobody arg r)).snoc fun hdrains => ?_
    refine (hok.2 hdrains).imp_right ?_
    rintro ⟨hwaits, hempty⟩
    exact ⟨v.nextArg, r, rfl, hawaits.trans hwaits, hun, hempty⟩

/-- While VIDEOOUT_READY is handled no request is there: requests are sent after the playback has
    begun, and it begins once. -/
theorem Orderly.no_request (ho : Orderly v) (how : Owing v) (hstart : v.control = .starting) :
    ∀ m ∈ v.queue, m.drains = false := by
  intro m hmem
  cases m with
  | request arg r =>
    have hun := how.asked arg (owed_request hmem)
    have hbusy : v.stream.quiet = false := by
      rw [← Bool.not_eq_true]
      intro hquiet
      rw [quiet_unanswered hquiet] at hun
      cases hun
    have hplay := ho.plays hbusy
    have honce := ho.once
    have hle : v.ready.toNat ≤ 1 := Bool.toNat_le _
    simp only [Talk.starts, hstart, hplay, decide_true, Bool.toNat_true] at honce
    omega
  | _ => rfl

theorem step_flowing {s : State} (hmove : Move s.talk e acts v') (hok : Attended s e)
    (hdrained : Drained s e) (h : Flowing s.talk) (hord : Orderly s.talk) (ho : Owing s.talk)
    (ho' : Owing v') : Flowing v' := by
  have hnone : ∀ v' : Talk, v'.queue = s.talk.queue →
      ∃ ms, v'.queue = s.talk.queue ++ ms ∧ ms.length ≤ 1 ∧ ∀ m ∈ ms, m.drains = false :=
    fun v' heq => ⟨[], by rw [List.append_nil, heq], Nat.zero_le 1,
      fun _ hm => (List.not_mem_nil hm).elim⟩
  have hsame : s.talk.stream.awaits = true → s.talk.audio ≤ s.talk.audio ∧
      s.talk.frames ≤ s.talk.frames ∧ s.talk.ahead ≤ s.talk.ahead :=
    fun _ => ⟨Nat.le_refl _, Nat.le_refl _, Nat.le_refl _⟩
  have hpost : ∀ (w : Talk) (m : Msg) (ok : Bool), w.queue = s.talk.queue → m.drains = false →
      ∃ ms, (w.post m ok).queue = s.talk.queue ++ ms ∧ ms.length ≤ 1 ∧
        ∀ m ∈ ms, m.drains = false := by
    intro w m ok heq hm
    cases ok with
    | false => exact hnone _ heq
    | true =>
      refine ⟨[m], by simp [Talk.post, heq], Nat.le_refl 1, fun m' hm' => ?_⟩
      rw [List.mem_singleton.mp hm']
      exact hm
  cases hmove with
  | roam _ hnew =>
    refine h.aside ho ho' (fun hs => ?_) id (hnone _ rfl) (Or.inl rfl) rfl hsame
    rw [awaits_quiet hnew] at hs
    cases hs
  | begin =>
    refine h.aside ho ho' (fun hs => ?_) id (hpost _ _ _ rfl rfl) (Or.inl rfl) rfl hsame
    cases hs
  | send hpc =>
    rename_i ok r rest fin
    have hsent : ok = true := hok.2
    subst hsent
    have hsends : Sends s.talk r := by
      have hd := hdrained
      simp only [Drained, show s.stream = .sending r rest fin from hpc] at hd
      exact hd
    refine h.send (by rw [hpc]; rfl) ?_ ?_ hsends <;> cases r.waits <;> rfl
  | leave =>
    refine h.aside ho ho' (fun hs => ?_) id (hnone _ rfl) (Or.inl rfl) rfl hsame
    cases hs
  | wake _ hnew =>
    refine h.aside ho ho' (fun hs => ?_) id (hnone _ rfl) (Or.inl rfl) rfl hsame
    obtain rfl | ⟨r, rest, rfl⟩ := hnew
    · cases hs
    · cases hs
  | take hpc hqueue htake => exact h.take ho ho' hpc hqueue htake
  | again => exact h
  | flushed =>
    rename_i arg _
    have hans := answers_flush { s.talk with control := .idle } arg
    refine h.aside ho ho' hans.awaits (fun hm => hans.main ▸ hm) (hnone _ hans.queue)
      (Or.inr ?_) hans.paused fun _ => ⟨?_, Nat.le_of_eq hans.frames, ?_⟩
    · rw [hans.control]
      rfl
    · exact Nat.le_of_eq (audio_clear { s.talk with control := .idle })
    · unfold Talk.ahead
      rw [hans.frames, hans.delegated]
  | hold | park | delegate => exact h.aside ho ho' id id (hnone _ rfl) (Or.inr rfl) rfl hsame
  | unpark => exact h.aside ho ho' awaits_answer id (hnone _ rfl) (Or.inr rfl) rfl hsame
  | play hpc =>
    refine ⟨fun hs hm hd => h.room hs hm (hd.imp_right fun hdrains => ?_),
      flows_of_none (hord.no_request ho hpc), fun r hr => ?_⟩
    · cases hdrains
    · cases hr
  | key => exact ⟨fun hs _ hd => hdrained hs hd, h.queue, h.control⟩
  | input =>
    refine h.aside ho ho' id (fun hm => ?_) (hpost _ _ _ rfl rfl) (Or.inl rfl) rfl hsame
    cases hm
  | frame =>
    refine h.aside ho ho' id id (hnone _ rfl) (Or.inl rfl) rfl fun _ =>
      ⟨Nat.le_refl _, Nat.le_refl _, ?_⟩
    simp only [Talk.ahead, Bool.toNat_false]
    omega
  | put hpc =>
    refine h.aside ho ho' id id (hnone _ rfl) (Or.inl rfl) rfl fun hs => ?_
    rw [hpc] at hs
    cases hs
  | sound =>
    exact h.aside ho ho' id id (hnone _ rfl) (Or.inl rfl) rfl fun _ =>
      ⟨Nat.sub_le _ 1, Nat.le_refl _, Nat.le_refl _⟩
  | shown hframes hdelegated =>
    rename_i delegated
    refine h.aside ho ho' id id (hnone _ rfl) (Or.inl rfl) rfl fun _ =>
      ⟨Nat.le_refl _, Nat.sub_le _ 1, ?_⟩
    have hle : delegated.toNat ≤ 1 := Bool.toNat_le _
    simp only [Talk.ahead]
    rcases hdelegated with rfl | hfree
    · omega
    · rw [hfree, Bool.toNat_false]
      omega
  | fire => exact h.aside ho ho' id id (hpost _ _ _ rfl rfl) (Or.inl rfl) rfl hsame
  | post =>
    rename_i p _
    refine h.aside ho ho' id id ⟨[.posted p], rfl, Nat.le_refl 1, fun m hm => ?_⟩ (Or.inl rfl) rfl
      hsame
    rw [List.mem_singleton.mp hm]
    rfl

end Mediabox.Dvdio
