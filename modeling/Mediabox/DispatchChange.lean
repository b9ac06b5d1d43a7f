import Mediabox.DispatchRefs

/-!
# What one step of the dispatcher does to the objects

`step_change` sorts the steps by what they do to the objects and to the handlers that run: a step
may create an object, call a handler, return from one, or take the retry timer of an object for
DESTROY; every other step changes neither a `destroyed` flag nor a `destroy_timer_id`.  The results
about the life of an object are derived from this alone.
-/

set_option autoImplicit false

namespace Mediabox.Dispatch

open Transition

variable {τ : Type*} [Fintype τ] [DecidableEq τ]

/-- The handler that a thread is in. -/
def Thread.call (th : Thread) : Option (Addr × MessageType) :=
  match th.frame with
  | some ⟨msg, o :: _, true⟩ => some (o, msg.id)
  | _ => none

/-- No object appears, and none changes its `destroyed` flag or its retry timer. -/
def Kept (s s' : State τ) : Prop :=
  ∀ o y, s'.heap o = some y → ∃ x, s.heap o = some x ∧ y.destroyed = x.destroyed ∧
    y.destroyTimerId = x.destroyTimerId

section

omit [Fintype τ] [DecidableEq τ]

theorem Kept.refl (s : State τ) : Kept s s := fun _ y hy => ⟨y, hy, rfl, rfl⟩

theorem setObject_heap {s : State τ} {o p : Addr} {y z : Object τ}
    (hz : (s.setObject o y).heap p = some z) : (p = o ∧ z = y) ∨ (p ≠ o ∧ s.heap p = some z) := by
  by_cases hp : p = o
  · subst hp
    exact Or.inl ⟨rfl, by simpa [State.setObject] using hz.symm⟩
  · exact Or.inr ⟨hp, by simpa [State.setObject, Function.update_of_ne hp] using hz⟩

theorem Kept.setObject {s : State τ} {o : Addr} {x y : Object τ} (hx : s.heap o = some x)
    (hd : y.destroyed = x.destroyed) (ht : y.destroyTimerId = x.destroyTimerId) :
    Kept s (s.setObject o y) := by
  intro p z hz
  rcases setObject_heap hz with ⟨rfl, rfl⟩ | ⟨-, hz⟩
  · exact ⟨x, hx, hd, ht⟩
  · exact ⟨z, hz, rfl, rfl⟩

theorem Kept.unrefs {s s' : State τ} {os : List Addr} (hc : Counted s.heap)
    (hu : os.foldlM objectUnref s.heap = some s'.heap) : Kept s s' := by
  intro o y hy
  obtain ⟨x, hx, hyx⟩ := (unrefs_spec hc hu).2.2 o y hy
  exact ⟨x, hx, by rw [hyx], by rw [hyx]⟩

end

omit [Fintype τ] in
theorem Kept.sent {s s' : State τ} {dest : List Addr} {id : MessageType} {flags : Nat} {ok : Bool}
    (h : Sent s dest id flags s' ok) : Kept s s' := by
  intro o y hy
  cases h with
  | null => exact ⟨y, hy, rfl, rfl⟩
  | message =>
    obtain ⟨x, hx, rfl⟩ := Option.map_eq_some_iff.mp hy
    exact ⟨x, hx, rfl, rfl⟩

omit [Fintype τ] in
theorem Sent.owned {s s' : State τ} {dest : List Addr} {id : MessageType} {flags : Nat} {ok : Bool}
    (h : Sent s dest id flags s' ok) : s'.owned = s.owned := by
  cases h <;> rfl

/-- The label shows neither a new object nor a handler that is to be called or that returned. -/
def still : Event τ → Outcome → Bool
  | .new _ _, .object _ => false
  | .deliver .., _ => false
  | .handled .., _ => false
  | _, _ => true

/-- What one step does to the objects and to the handlers that run. -/
inductive Change (s : State τ) : Event τ → Outcome → State τ → Prop
  | quiet {e : Event τ} {out : Outcome} {s' : State τ} (hstill : still e out = true)
      (hkept : Kept s s') (howned : s'.owned = s.owned)
      (hcalls : ∀ t, (s'.threads t).call = (s.threads t).call) : Change s e out s'
  | born {t : τ} {malloc : Option Addr} {o : Addr} {s' : State τ}
      (hfree : s.heap o = none)
      (hnew : ∀ x, s'.heap o = some x → x.destroyed = false ∧ x.destroyTimerId = -1)
      (hkept : ∀ p, p ≠ o → s'.heap p = s.heap p)
      (howned : ∀ p, p ≠ o → s'.owned p = s.owned p) (hthreads : s'.threads = s.threads) :
      Change s (.new t malloc) (.object o) s'
  | skipped {t : τ} {m : Mallocs} {o : Addr} {x : Object τ} {msg : Message} {todo : List Addr}
      {s' : State τ} (hf : (s.threads t).frame = some ⟨msg, o :: todo, false⟩)
      (hx : s.heap o = some x) (hdes : x.destroyed = true) (hkept : Kept s s')
      (howned : s'.owned = s.owned) (hcalls : ∀ t, (s'.threads t).call = (s.threads t).call) :
      Change s (.deliver t m) .done s'
  | retried {t : τ} {m : Mallocs} {o : Addr} {x : Object τ} {msg : Message} {todo : List Addr}
      {s' : State τ} (hf : (s.threads t).frame = some ⟨msg, o :: todo, false⟩)
      (hx : s.heap o = some x) (hid : msg.id = .timer) (hpayload : msg.payload = some x.destroyTimerId)
      (hdes : x.destroyed = false)
      (hheap : ∀ p y, s'.heap p = some y → ∃ z, s.heap p = some z ∧ y.destroyed = z.destroyed ∧
        y.destroyTimerId = if p = o then -1 else z.destroyTimerId)
      (howned : s'.owned = s.owned) (hcalls : ∀ t, (s'.threads t).call = (s.threads t).call) :
      Change s (.deliver t m) .done s'
  | called {t : τ} {m : Mallocs} {o : Addr} {id : MessageType} {x : Object τ} {s' : State τ}
      (hx : s.heap o = some x) (hlock : x.lock = none)
      (hdes : x.destroyed = false ∨ id = .cleanup) (hclean : id = .cleanup → 0 < cleanups s o)
      (hkept : Kept s s') (howned : s'.owned = s.owned)
      (hcall : (s'.threads t).call = some (o, id)) (hidle : (s.threads t).call = none)
      (hother : ∀ u, u ≠ t → s'.threads u = s.threads u) :
      Change s (.deliver t m) (.called o id) s'
  | answered {t : τ} {res : HandlerResult} {m : Mallocs} {timer : Int} {o : Addr}
      {id : MessageType} {x : Object τ} {s' : State τ}
      (hx : s.heap o = some x) (hcall : (s.threads t).call = some (o, id))
      (hdes : id ≠ .cleanup → x.destroyed = false)
      (hheap : ∀ p y, s'.heap p = some y → ∃ z, s.heap p = some z ∧
        (y.destroyed = if p = o ∧ id = .destroy ∧ res = .ok then true else z.destroyed) ∧
        y.destroyTimerId =
          if p = o ∧ id = .destroy ∧ res = .continue then timer else z.destroyTimerId)
      (howned : s'.owned = if id = .cleanup then Function.update s.owned o false else s.owned)
      (hidle : (s'.threads t).call = none)
      (hother : ∀ u, u ≠ t → (s'.threads u).call = (s.threads u).call) :
      Change s (.handled t res m timer) .done s'

theorem call_congr {th th' : Thread} (h : th'.frame = th.frame) : th'.call = th.call := by
  unfold Thread.call
  rw [h]

omit [Fintype τ] in
theorem call_setThread {s : State τ} {t : τ} {th : Thread} (h : th.call = (s.threads t).call)
    (u : τ) : ((s.setThread t th).threads u).call = (s.threads u).call := by
  by_cases hu : u = t
  · subst hu
    simpa [State.setThread] using h
  · rw [setThread_of_ne s th hu]

omit [DecidableEq τ] in
/-- A CLEANUP message in dispatch is a delivery still to come. -/
theorem cleanups_frame {s : State τ} {t : τ} {f : Frame} (hf : (s.threads t).frame = some f)
    (hid : f.msg.id = .cleanup) (o : Addr) : f.todo.count o ≤ cleanups s o := by
  have := Tally.le_sum (Thread.weigh
    (fun msg => if msg.id = .cleanup then msg.dest.objects.count o else 0)
    (fun f => if f.msg.id = .cleanup then f.todo.count o else 0)) s.threads t
  simp only [Thread.weigh, hf, Option.map_some, Option.getD_some, hid, ↓reduceIte] at this
  unfold cleanups tally Thread.weigh
  omega

omit [Fintype τ] in
theorem leave_kept {s s' : State τ} {t : τ} {f : Frame} {o : Addr} {res : HandlerResult}
    (h : leave s t f o res = some s') : Kept s s' ∧ s'.owned = s.owned ∧
      (s'.threads t).call = none ∧ ∀ u, u ≠ t → s'.threads u = s.threads u := by
  obtain ⟨x, hx, rfl⟩ := Option.map_eq_some_iff.mp h
  refine ⟨Kept.setObject hx rfl rfl, rfl, ?_, fun u hu => setThread_of_ne _ _ hu⟩
  have hcalling := f.next_calling res
  unfold Thread.call
  rw [setFrame_frame]
  split
  · rename_i heq
    rw [Option.some.inj heq] at hcalling
    cases hcalling
  · rfl

theorem deliver_change {s s' : State τ} (hinv : Inv s) {t : τ} {msg : Message} {o : Addr}
    {todo : List Addr} {m : Mallocs} {out : Outcome}
    (hf : (s.threads t).frame = some ⟨msg, o :: todo, false⟩)
    (h : deliver s t ⟨msg, o :: todo, false⟩ o m = some (s', out)) :
    Change s (.deliver t m) out s' := by
  have hidle : (s.threads t).call = none := by simp [Thread.call, hf]
  unfold Dispatch.deliver at h
  simp only [Option.bind_eq_bind, Option.bind_eq_some_iff] at h
  obtain ⟨x, hx, h⟩ := h
  split at h
  · cases h
  rename_i hlock
  rw [not_not] at hlock
  split at h
  · rename_i hdes
    split at h
    · cases h
    split at h
    · -- the destructor timer
      rename_i htimer
      simp only [Option.bind_eq_some_iff] at h
      obtain ⟨⟨s₁, ok⟩, hsend, x₁, hx₁, s₂, hleave, hout⟩ := h
      cases hout
      have hsent := sendmsg_sent hinv.counts.counted hsend
      obtain ⟨hkept, howned, hcall, hother⟩ := leave_kept hleave
      refine .retried hf hx htimer.1 htimer.2 (hdes.resolve_right (by simp [htimer.1])) ?_
        (howned.trans hsent.owned) (fun u => ?_)
      · intro p y hy
        obtain ⟨z, hz, hyz, hyz'⟩ := hkept p y hy
        rcases setObject_heap hz with ⟨rfl, rfl⟩ | ⟨hp, hz⟩
        · obtain ⟨x₂, hx₂, hd, -⟩ := Kept.sent hsent p x₁ hx₁
          exact ⟨x₂, hx₂, hyz.trans hd, by rw [if_pos rfl]; exact hyz'⟩
        · obtain ⟨z', hz', hd, ht⟩ := Kept.sent hsent p z hz
          exact ⟨z', hz', hyz.trans hd, by rw [if_neg hp]; exact hyz'.trans ht⟩
      · by_cases hu : u = t
        · rw [hu, hcall, hidle]
        · rw [hother u hu]
          exact call_congr (hsent.frame u)
    · cases h
      refine .called hx hlock hdes (fun hid => ?_) (Kept.setObject hx rfl rfl) rfl ?_ hidle
        fun u hu => setThread_of_ne _ _ hu
      · have := cleanups_frame hf hid o
        simp only [List.count_cons_self] at this
        omega
      · unfold Thread.call
        rw [setFrame_frame]
  · -- the target has been destroyed
    rename_i hdes
    cases h
    rw [not_or, Bool.not_eq_false] at hdes
    refine .skipped hf hx hdes.1 (Kept.refl s) rfl (call_setThread ?_)
    simp [Thread.call, hf]

theorem handled_change {s s₁ s' : State τ} (hinv : Inv s) {t : τ} {msg : Message} {o : Addr}
    {todo : List Addr} {x : Object τ} {res res' : HandlerResult} {m : Mallocs} {timer : Int}
    (hf : (s.threads t).frame = some ⟨msg, o :: todo, true⟩) (hx : s.heap o = some x)
    (h : objectHandler s o x msg.id res m timer = some (s₁, res'))
    (hleave : leave s₁ t ⟨msg, o :: todo, true⟩ o res' = some s') :
    Change s (.handled t res m timer) .done s' := by
  obtain ⟨hkept, howned, hcall, hother⟩ := leave_kept hleave
  have hdes : msg.id ≠ .cleanup → x.destroyed = false := by
    obtain ⟨o', todo', x', htodo, hx', -, hdes⟩ := (hinv.frames t _ hf).2 rfl
    cases htodo
    rw [hx] at hx'
    cases hx'
    exact hdes
  have hcalling : (s.threads t).call = some (o, msg.id) := by simp [Thread.call, hf]
  -- what the object handler did to the objects, before the destination was left
  suffices hs₁ : (∀ p y, s₁.heap p = some y → ∃ z, s.heap p = some z ∧
      (y.destroyed = if p = o ∧ msg.id = .destroy ∧ res = .ok then true else z.destroyed) ∧
      y.destroyTimerId =
        if p = o ∧ msg.id = .destroy ∧ res = .continue then timer else z.destroyTimerId) ∧
      (s₁.owned = if msg.id = .cleanup then Function.update s.owned o false else s.owned) ∧
      ∀ u, (s₁.threads u).frame = (s.threads u).frame by
    obtain ⟨hheap₁, howned₁, hframes₁⟩ := hs₁
    refine .answered hx hcalling hdes ?_ (howned.trans howned₁) hcall
      (fun u hu => by rw [hother u hu]; exact call_congr (hframes₁ u))
    intro p y hy
    obtain ⟨z, hz, hyz, hyz'⟩ := hkept p y hy
    obtain ⟨z', hz', hd, ht⟩ := hheap₁ p z hz
    exact ⟨z', hz', hyz.trans hd, hyz'.trans ht⟩
  -- a change of `o` alone, with a message sent after it or not
  have hchange : ∀ {y : Object τ} {s₂ : State τ}, Kept (s.setObject o y) s₂ →
      msg.id = .destroy → y.destroyed = (if res = .ok then true else x.destroyed) →
      y.destroyTimerId = (if res = .continue then timer else x.destroyTimerId) →
      ∀ p z, s₂.heap p = some z → ∃ z', s.heap p = some z' ∧
        (z.destroyed = if p = o ∧ msg.id = .destroy ∧ res = .ok then true else z'.destroyed) ∧
        z.destroyTimerId =
          if p = o ∧ msg.id = .destroy ∧ res = .continue then timer else z'.destroyTimerId := by
    intro y s₂ hk hid hd ht p z hz
    obtain ⟨z', hz', hzd, hzt⟩ := hk p z hz
    rcases setObject_heap hz' with ⟨rfl, rfl⟩ | ⟨hp, hz'⟩
    · exact ⟨x, hx, by simp [hzd, hd, hid], by simp [hzt, ht, hid]⟩
    · exact ⟨z', hz', by simp [hzd, hp], by simp [hzt, hp]⟩
  have hsame : ∀ {s₂ : State τ}, Kept s s₂ → msg.id ≠ .destroy →
      ∀ p z, s₂.heap p = some z → ∃ z', s.heap p = some z' ∧
        (z.destroyed = if p = o ∧ msg.id = .destroy ∧ res = .ok then true else z'.destroyed) ∧
        z.destroyTimerId =
          if p = o ∧ msg.id = .destroy ∧ res = .continue then timer else z'.destroyTimerId := by
    intro s₂ hk hid p z hz
    obtain ⟨z', hz', hzd, hzt⟩ := hk p z hz
    exact ⟨z', hz', by simp [hzd, hid], by simp [hzt, hid]⟩
  unfold objectHandler at h
  split at h
  · rename_i hid
    have hne : msg.id ≠ .cleanup := by rw [hid]; decide
    split at h
    · obtain ⟨⟨s₂, ok⟩, hs, hr⟩ := Option.map_eq_some_iff.mp h
      cases hr
      have hc₁ := hinv.counts.setObject (y := { x with destroyed := true }) hx rfl
        (fun hd => nomatch hd)
      have hsent := sendmsg_sent hc₁.counted hs
      exact ⟨hchange (Kept.sent hsent) hid (by simp) (by simp),
        by rw [if_neg hne]; exact hsent.owned, hsent.frame⟩
    · have hc₁ := hinv.counts.setObject (y := { x with destroyTimerId := timer }) hx rfl id
      dsimp only at h
      split at h
      · obtain ⟨⟨s₂, ok⟩, hs, hr⟩ := Option.map_eq_some_iff.mp h
        cases hr
        have hsent := sendmsg_sent hc₁.counted hs
        exact ⟨hchange (Kept.sent hsent) hid (by simp) (by simp),
          by rw [if_neg hne]; exact hsent.owned, hsent.frame⟩
      · cases h
        exact ⟨hchange (Kept.refl _) hid (by simp) (by simp), by rw [if_neg hne]; rfl, fun _ => rfl⟩
  · rename_i hid
    obtain ⟨heap, hu, hr⟩ := Option.map_eq_some_iff.mp h
    cases hr
    have hfold : [o].foldlM objectUnref s.heap = some heap := by simpa using hu
    exact ⟨hsame (Kept.unrefs hinv.counts.counted hfold) (by simp [hid]), by rw [if_pos hid],
      fun _ => rfl⟩
  · rename_i hd hc
    cases h
    exact ⟨hsame (Kept.refl s) hd, by rw [if_neg hc], fun _ => rfl⟩

theorem step_change {s s' : State τ} {e : Event τ} {out : Outcome} (hinv : Inv s)
    (h : step s e = some (s', out)) : Change s e out s' := by
  cases e with
  | init t =>
    simp only [step] at h
    split at h
    · cases h
      exact .quiet rfl (Kept.refl s) rfl fun _ => rfl
    · cases h
      exact .quiet rfl (Kept.refl s) rfl (call_setThread (call_congr rfl))
  | new t malloc =>
    simp only [step] at h
    split at h
    · rename_i o _
      split at h
      · rename_i ho
        cases h
        refine .born ho (fun x hx => ?_) (fun p hp => ?_) (fun p hp => ?_) rfl
        · obtain rfl : ⟨none, 1, false, -1, t⟩ = x := by simpa [State.setObject] using hx
          exact ⟨rfl, rfl⟩
        · simp [State.setObject, Function.update_of_ne hp]
        · simp [Function.update_of_ne hp]
      · cases h
    · cases h
      exact .quiet rfl (Kept.refl s) rfl fun _ => rfl
  | ref o =>
    obtain ⟨heap, hr, hs⟩ := Option.map_eq_some_iff.mp h
    cases hs
    refine .quiet rfl (fun p y hy => ?_) rfl fun _ => rfl
    obtain ⟨rfl, -⟩ := objectRef_eq hr
    obtain ⟨x, hx, rfl⟩ := Option.map_eq_some_iff.mp hy
    exact ⟨x, hx, rfl, rfl⟩
  | unref o =>
    simp only [step] at h
    split at h
    · cases h
    · obtain ⟨heap, hu, hs⟩ := Option.map_eq_some_iff.mp h
      cases hs
      have hfold : [o].foldlM objectUnref s.heap = some heap := by simpa using hu
      exact .quiet rfl (Kept.unrefs hinv.counts.counted hfold) rfl fun _ => rfl
  | send dest id flags payload m =>
    simp only [step] at h
    split at h
    · cases h
    · obtain ⟨⟨s₁, ok⟩, hsend, hs⟩ := Option.map_eq_some_iff.mp h
      cases hs
      have hsent := sendmsg_sent hinv.counts.counted hsend
      exact .quiet rfl (Kept.sent hsent) hsent.owned fun u => call_congr (hsent.frame u)
  | close t =>
    simp only [step] at h
    split at h
    · cases h
    · cases h
      exact .quiet rfl (Kept.refl s) rfl (call_setThread (call_congr rfl))
  | get t =>
    simp only [step] at h
    split at h
    · rename_i hq hf
      cases h
      refine .quiet rfl (Kept.refl s) rfl (call_setThread ?_)
      simp [Thread.call, hf]
    · cases h
  | deliver t m =>
    simp only [step] at h
    split at h
    · rename_i hf
      exact deliver_change hinv hf h
    · cases h
  | handled t res m timer =>
    simp only [step] at h
    split at h
    · rename_i msg o todo hf
      simp only [Option.bind_eq_bind, Option.bind_eq_some_iff] at h
      obtain ⟨x, hx, ⟨s₁, res'⟩, hh, s₂, hleave, hs⟩ := h
      cases hs
      exact handled_change hinv hf hx hh hleave
    · cases h
  | finish t =>
    simp only [step] at h
    split at h
    · rename_i hf
      obtain ⟨heap, hu, hs⟩ := Option.map_eq_some_iff.mp h
      cases hs
      rw [freemsg_eq] at hu
      refine .quiet rfl (Kept.unrefs hinv.counts.counted hu) rfl (call_setThread ?_)
      simp [Thread.call, hf]
    · cases h
  | flush t =>
    simp only [step] at h
    split at h
    · rename_i hq hf
      obtain ⟨heap, hu, hs⟩ := Option.map_eq_some_iff.mp h
      cases hs
      rw [freemsg_eq] at hu
      refine .quiet rfl (Kept.unrefs hinv.counts.counted hu) rfl (call_setThread ?_)
      simp [Thread.call, hf]
    · cases h

end Mediabox.Dispatch
