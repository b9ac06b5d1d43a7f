import Mediabox.Lib.Transition
import Mediabox.ListMacros

/-!
# The stack of windows (`src/lib/ui/video.c`, `linkedlist.h`)

`window_stack` as the ring of nodes that it is: its head, the node of the root window and those
that lie inside the windows, each with the two pointers that the list macros write.

* `avbox_window_show`, `avbox_window_hide` and `avbox_window_tofront` write to the ring whatever
  `visible` says: a window shown twice or hidden twice is worth a line in the debug log.
* A node keeps its pointers when it is taken out.  A window that is created has none yet
  (`malloc`), and the memory of a window is gone after its cleanup: what the macros do with such
  pointers is undefined.

Main result: `stack_well_formed` — while no visible window is shown, no hidden one is raised or
freed after being shown again, and a hidden one is hidden only where its old pointers do no harm,
the stack is a ring of the root entry and the visible windows.
-/

set_option autoImplicit false

namespace Mediabox.WindowStack

open Transition LinkRing
open ListMacros (listAppendOf listRemoveOf)

/-- What has a `struct __listhead` in the ring. -/
inductive Node (ω : Type*) where
  /-- `window_stack` -/
  | head
  /-- `root_window.stack_node` -/
  | root
  /-- `window->stack_node` -/
  | window (w : ω)
  deriving DecidableEq, Repr

/-- The memory of a window. -/
inductive Stage where
  | absent
  | live
  /-- after `__avbox_window_destroy` and before `__avbox_window_cleanup` -/
  | destroyed
  deriving DecidableEq, Repr

structure State (ω : Type*) where
  links : Links (Node ω)
  visible : ω → Bool
  stage : ω → Stage

inductive Event (ω : Type*) where
  | new (w : ω)
  | show (w : ω)
  | hide (w : ω)
  | tofront (w : ω)
  | destroy (w : ω)
  | cleanup (w : ω)
  deriving DecidableEq, Repr

inductive Outcome where
  | done
  | undefined
  deriving DecidableEq, Repr

variable {ω : Type*} [DecidableEq ω]

namespace State

/-- `LIST_INIT(&window_stack)` and `LIST_APPEND(&window_stack, &root_window.stack_node)` -/
def init : State ω where
  links :=
    let empty : Links (Node ω) :=
      ⟨fun a => if a = .head then some .head else none,
        fun a => if a = .head then some .head else none⟩
    empty.insert .root .head .head
  visible _ := false
  stage _ := .absent

variable (s : State ω)

def allocated : Node ω → Bool
  | .window w => s.stage w ≠ .absent
  | _ => true

/-- `LIST_APPEND(&window_stack, item)` -/
def listAppend (item : Node ω) : Option (State ω) :=
  (listAppendOf s.allocated s.links .head item).map fun links => { s with links }

/-- `LIST_REMOVE(item)` -/
def listRemove (item : Node ω) : Option (State ω) :=
  (listRemoveOf s.allocated s.links item).map fun links => { s with links }

def setVisible (w : ω) (visible : Bool) : State ω :=
  { s with visible := Function.update s.visible w visible }

def setStage (w : ω) (stage : Stage) : State ω :=
  { s with stage := Function.update s.stage w stage }

variable {s} in
@[simp] theorem setVisible_visible {w u : ω} {visible : Bool} :
    (s.setVisible w visible).visible u = if u = w then visible else s.visible u :=
  Function.update_apply ..

variable {s} in
@[simp] theorem setStage_stage {w u : ω} {stage : Stage} :
    (s.setStage w stage).stage u = if u = w then stage else s.stage u :=
  Function.update_apply ..

/-- `avbox_window_new`: what `malloc` returns has no pointers of its own. -/
def new (w : ω) : State ω where
  links :=
    ⟨Function.update s.links.next (.window w) none, Function.update s.links.prev (.window w) none⟩
  visible := Function.update s.visible w false
  stage := Function.update s.stage w .live

/-- `avbox_window_show` -/
def windowShow (w : ω) : Option (State ω) :=
  if s.stage w = .absent then none else do
    let t ← s.listAppend (.window w)
    some (t.setVisible w true)

/-- `avbox_window_hide` -/
def windowHide (w : ω) : Option (State ω) :=
  if s.stage w = .absent then none else do
    let t ← s.listRemove (.window w)
    some (t.setVisible w false)

/-- `avbox_window_tofront` -/
def windowTofront (w : ω) : Option (State ω) :=
  if s.stage w = .absent then none else do
    let t ← s.listRemove (.window w)
    t.listAppend (.window w)

/-- `__avbox_window_destroy` of a top-level window; a second one frees `window->node` twice. -/
def windowDestroy (w : ω) : Option (State ω) :=
  if s.stage w = .live then do
    let t ← if s.visible w then s.windowHide w else some s
    some (t.setStage w .destroyed)
  else none

/-- `__avbox_window_cleanup` -/
def windowCleanup (w : ω) : Option (State ω) :=
  if s.stage w = .destroyed then some (s.setStage w .absent) else none

/-- What is left of a call. -/
def after : Option (State ω) → State ω × Outcome
  | some t => (t, .done)
  | none => (s, .undefined)

end State

/-- One call; `malloc` does not return memory that is in use. -/
def step (s : State ω) : Event ω → Option (State ω × Outcome)
  | .new w => if s.stage w = .absent then some (s.new w, .done) else none
  | .show w => some (s.after (s.windowShow w))
  | .hide w => some (s.after (s.windowHide w))
  | .tofront w => some (s.after (s.windowTofront w))
  | .destroy w => some (s.after (s.windowDestroy w))
  | .cleanup w => some (s.after (s.windowCleanup w))

/-! ## The property -/

/-- The ring is well formed and has the root entry and the windows that are visible, each once. -/
def StackOk (s : State ω) : Prop :=
  ∃ l fuel, s.links.walk .head fuel (s.links.next .head) = some l ∧ (Node.head :: l).Nodup ∧
    (∀ a ∈ Node.head :: l, (∃ b ∈ Node.head :: l, s.links.next a = some b) ∧
      ∃ b ∈ Node.head :: l, s.links.prev a = some b) ∧
    (∀ a ∈ Node.head :: l, ∀ b ∈ Node.head :: l,
      s.links.next a = some b ↔ s.links.prev b = some a) ∧
    .root ∈ l ∧ ∀ w, .window w ∈ l ↔ s.visible w = true

/-- The node of a window that is not visible. -/
def State.hidden (s : State ω) : Node ω → Bool
  | .window w => !s.visible w
  | _ => false

/-- The pointers that a hidden window kept do no harm: what they point to is in memory, and its
nodes are neighbours anyway, or both out of the ring. -/
def Harmless (s : State ω) (w : ω) : Prop :=
  ∃ p ∈ s.links.prev (.window w), ∃ n ∈ s.links.next (.window w),
    s.allocated p = true ∧ s.allocated n = true ∧
      (s.links.next p = some n ∧ s.links.prev n = some p ∨ s.hidden p = true ∧ s.hidden n = true)

instance (s : State ω) (w : ω) : Decidable (Harmless s w) :=
  inferInstanceAs (Decidable (∃ p ∈ _, ∃ n ∈ _, _))

/-- The calls that leave the ring what it is. -/
def Careful (s : State ω) : Event ω → Prop
  | .new _ => True
  | .show w => s.stage w ≠ .absent ∧ s.visible w = false
  | .hide w => s.stage w ≠ .absent ∧ (s.visible w = true ∨ Harmless s w)
  | .tofront w => s.stage w ≠ .absent ∧ s.visible w = true
  | .destroy w => s.stage w = .live
  | .cleanup w => s.stage w = .destroyed ∧ s.visible w = false

instance (s : State ω) : ∀ e, Decidable (Careful s e)
  | .new _ => inferInstanceAs (Decidable True)
  | .show _ | .hide _ | .tofront _ | .cleanup _ => inferInstanceAs (Decidable (_ ∧ _))
  | .destroy _ => inferInstanceAs (Decidable (_ = _))

/-! ## The invariant -/

/-- The nodes of the ring, in order from the bottom. -/
structure Inv (s : State ω) (l : List (Node ω)) : Prop where
  ring : IsRing s.links .head l
  root : .root ∈ l
  shown : ∀ w, .window w ∈ l ↔ s.visible w = true
  present : ∀ w, s.visible w = true → s.stage w ≠ .absent

variable {s : State ω} {l : List (Node ω)} {w : ω}

omit [DecidableEq ω] in
theorem Inv.allocated (h : Inv s l) {a : Node ω} (ha : a ∈ Node.head :: l) :
    s.allocated a = true := by
  cases a with
  | head | root => rfl
  | window w =>
    have hmem : Node.window w ∈ l := by simpa using ha
    exact decide_eq_true (h.present w ((h.shown w).mp hmem))

theorem Inv.stackOk (h : Inv s l) : StackOk s := by
  refine ⟨l, l.length + 1, h.ring.traverse, h.ring.nodup, ?_, ?_, h.root, h.shown⟩
  · intro a ha
    obtain ⟨n, hn, hnext, -⟩ := h.ring.exists_next ha
    obtain ⟨p, hp, -, hprev⟩ := h.ring.exists_prev ha
    exact ⟨⟨n, hn, hnext⟩, p, hp, hprev⟩
  · intro a ha b hb
    exact h.ring.next_iff_prev ha hb

theorem Inv.init : Inv (State.init : State ω) [.root] where
  ring := by
    refine ⟨by simp, ?_⟩
    simp [Links.Linked, State.init, Links.insert]
  root := by simp
  shown := by simp [State.init]
  present := by simp [State.init]

/-! ## The macros on the ring -/

/-- `LIST_APPEND` of a node that is out of the ring. -/
theorem listAppend_ring {a : Node ω} (hring : IsRing s.links .head l)
    (hmem : ∀ b ∈ Node.head :: l, s.allocated b = true) (ha : a ∉ Node.head :: l) :
    ∃ k, s.listAppend a = some { s with links := k } ∧ IsRing k .head (l ++ [a]) := by
  obtain ⟨p, hp, hprev, hring'⟩ := hring.append ha
  exact ⟨_, by simp [State.listAppend, listAppendOf, ListMacros.listAppend, hprev, hmem p hp], hring'⟩

theorem listRemove_ring {l₁ l₂ : List (Node ω)} {a : Node ω}
    (hring : IsRing s.links .head (l₁ ++ a :: l₂))
    (hmem : ∀ b ∈ Node.head :: (l₁ ++ a :: l₂), s.allocated b = true) :
    ∃ k, s.listRemove a = some { s with links := k } ∧ IsRing k .head (l₁ ++ l₂) := by
  obtain ⟨p, hp, n, hn, hprev, hnext, hring'⟩ := hring.remove
  refine ⟨_, ?_, hring'⟩
  simp [State.listRemove, listRemoveOf, ListMacros.listRemove, hprev, hnext, hmem p hp, hmem n hn]

/-- `LIST_REMOVE` of a node that was taken out and whose pointers do no harm. -/
theorem listRemove_harmless (h : Inv s l) (hw : Harmless s w) :
    ∃ k, s.listRemove (.window w) = some { s with links := k } ∧ IsRing k .head l := by
  obtain ⟨p, hprev, n, hnext, hp, hn, hcase⟩ := hw
  refine ⟨s.links.unlink p n, ?_, ?_⟩
  · rw [Option.mem_def] at hprev hnext
    simp [State.listRemove, listRemoveOf, ListMacros.listRemove, hprev, hnext, hp, hn]
  · rcases hcase with hlinked | ⟨hhp, hhn⟩
    · rw [Links.Linked.unlink hlinked]
      exact h.ring
    · -- a hidden window is no node of the ring
      have hout : ∀ {a b : Node ω}, s.hidden a = true → b ∈ Node.head :: l → b ≠ a := by
        rintro a b ha hb rfl
        cases b with
        | head | root => exact absurd ha (by simp [State.hidden])
        | window u =>
          have hvisible := (h.shown u).mp (by simpa using hb)
          simp [State.hidden, hvisible] at ha
      apply h.ring.congr
      · intro a ha
        exact Function.update_of_ne (hout hhp ha) _ _
      · intro b hb
        exact Function.update_of_ne (hout hhn hb) _ _

/-! ## The calls -/

omit [DecidableEq ω] in
theorem Inv.split (h : Inv s l) (hv : s.visible w = true) :
    ∃ l₁ l₂, l = l₁ ++ Node.window w :: l₂ ∧ Node.window w ∉ Node.head :: (l₁ ++ l₂) ∧
      ∀ a ≠ Node.window w, a ∈ l₁ ++ l₂ ↔ a ∈ l := by
  obtain ⟨l₁, l₂, rfl⟩ := List.append_of_mem ((h.shown w).mpr hv)
  refine ⟨l₁, l₂, rfl, ?_, ?_⟩
  · have hnodup := (List.nodup_cons.mp h.ring.nodup).2
    simpa using (List.nodup_cons.mp (List.perm_middle.nodup_iff.mp hnodup)).1
  · intro a ha
    simp [ha]

theorem Inv.new (h : Inv s l) (hw : s.stage w = .absent) : Inv (s.new w) l where
  ring := by
    have hout : Node.window w ∉ Node.head :: l := fun hmem =>
      h.present w ((h.shown w).mp (by simpa using hmem)) hw
    apply h.ring.congr
    · intro a ha
      have haw : a ≠ .window w := fun haw => hout (haw ▸ ha)
      exact Function.update_of_ne haw _ _
    · intro b hb
      have hbw : b ≠ .window w := fun hbw => hout (hbw ▸ hb)
      exact Function.update_of_ne hbw _ _
  root := h.root
  shown u := by
    rcases eq_or_ne u w with rfl | hu
    · have hhidden : ¬ s.visible u = true := fun hv => h.present u hv hw
      simp [State.new, h.shown u, hhidden]
    · simp [State.new, hu, h.shown u]
  present u hu := by
    rcases eq_or_ne u w with rfl | hne
    · simp [State.new]
    · simp only [State.new, Function.update_of_ne hne] at hu ⊢
      exact h.present u hu

theorem Inv.windowShow (h : Inv s l) (hw : s.stage w ≠ .absent) (hv : s.visible w = false) :
    ∃ t, s.windowShow w = some t ∧ Inv t (l ++ [Node.window w]) := by
  have hout : Node.window w ∉ Node.head :: l := by simp [h.shown, hv]
  obtain ⟨k, hk, hring⟩ := listAppend_ring h.ring (fun _ => h.allocated) hout
  refine ⟨_, by simp only [State.windowShow, if_neg hw, hk]; rfl, hring, ?_, ?_, ?_⟩
  · exact List.mem_append_left _ h.root
  · intro u
    rcases eq_or_ne u w with rfl | hu
    · simp
    · simp [hu, h.shown u]
  · intro u hu
    rcases eq_or_ne u w with rfl | hne
    · exact hw
    · rw [State.setVisible_visible, if_neg hne] at hu
      exact h.present u hu

theorem Inv.setVisible (h : Inv s l) {k : Links (Node ω)} {l' : List (Node ω)}
    (hring : IsRing k .head l') (hout : .window w ∉ l')
    (hmem : ∀ a ≠ Node.window w, a ∈ l' ↔ a ∈ l) :
    Inv ({ s with links := k }.setVisible w false) l' where
  ring := hring
  root := (hmem .root (by simp)).mpr h.root
  shown u := by
    rcases eq_or_ne u w with rfl | hu
    · simp [hout]
    · rw [State.setVisible_visible, if_neg hu, hmem _ (by simpa using hu), h.shown u]
  present u hu := by
    rcases eq_or_ne u w with rfl | hne
    · simp at hu
    · rw [State.setVisible_visible, if_neg hne] at hu
      exact h.present u hu

theorem Inv.windowHide (h : Inv s l) (hw : s.stage w ≠ .absent)
    (hcase : s.visible w = true ∨ Harmless s w) :
    ∃ t l', s.windowHide w = some t ∧ Inv t l' := by
  by_cases hv : s.visible w = true
  · obtain ⟨l₁, l₂, rfl, hout, hmem⟩ := h.split hv
    obtain ⟨k, hk, hring⟩ := listRemove_ring h.ring fun _ => h.allocated
    refine ⟨_, l₁ ++ l₂, by simp only [State.windowHide, if_neg hw, hk]; rfl, ?_⟩
    exact h.setVisible hring (fun hin => hout (List.mem_cons_of_mem _ hin)) hmem
  · obtain ⟨k, hk, hring⟩ := listRemove_harmless h (hcase.resolve_left hv)
    refine ⟨_, l, by simp only [State.windowHide, if_neg hw, hk]; rfl, ?_⟩
    exact h.setVisible hring (fun hin => hv ((h.shown w).mp hin)) fun _ _ => Iff.rfl

theorem Inv.windowTofront (h : Inv s l) (hw : s.stage w ≠ .absent) (hv : s.visible w = true) :
    ∃ t l', s.windowTofront w = some t ∧ Inv t l' := by
  obtain ⟨l₁, l₂, rfl, hout, hmem⟩ := h.split hv
  obtain ⟨k, hk, hring⟩ := listRemove_ring h.ring fun _ => h.allocated
  have hallocated : ∀ b ∈ Node.head :: (l₁ ++ l₂),
      ({ s with links := k } : State ω).allocated b = true := by
    intro b hb
    exact h.allocated (a := b) (by grind)
  obtain ⟨k', hk', hring'⟩ := listAppend_ring (s := { s with links := k }) hring hallocated hout
  refine ⟨{ s with links := k' }, l₁ ++ l₂ ++ [Node.window w], ?_, hring', ?_, ?_, h.present⟩
  · simp only [State.windowTofront, if_neg hw, hk]
    exact hk'
  · exact List.mem_append_left _ ((hmem .root (by simp)).mpr h.root)
  · intro u
    rcases eq_or_ne u w with rfl | hu
    · simp [hv]
    · have hne : Node.window u ≠ .window w := by simpa using hu
      rw [← h.shown u, ← hmem _ hne]
      simp [hu]

theorem Inv.setStage (h : Inv s l) {stage : Stage}
    (hstage : s.visible w = true → stage ≠ .absent) : Inv (s.setStage w stage) l where
  ring := h.ring
  root := h.root
  shown := h.shown
  present u hu := by
    rcases eq_or_ne u w with rfl | hne
    · rw [State.setStage_stage, if_pos rfl]
      exact hstage hu
    · rw [State.setStage_stage, if_neg hne]
      exact h.present u hu

theorem Inv.windowDestroy (h : Inv s l) (hw : s.stage w = .live) :
    ∃ t l', s.windowDestroy w = some t ∧ Inv t l' := by
  rw [State.windowDestroy, if_pos hw]
  by_cases hv : s.visible w = true
  · obtain ⟨t, l', ht, hinv⟩ := h.windowHide (by simp [hw]) (.inl hv)
    exact ⟨_, l', by simp only [if_pos hv, ht]; rfl, hinv.setStage (by simp)⟩
  · exact ⟨_, l, by simp only [if_neg hv]; rfl, h.setStage (by simp)⟩

/-! ## Runs -/

theorem Inv.step {t : State ω} {a : Event ω × Outcome} (h : Inv s l)
    (hstep : Guarded step Careful s a t) : a.2 = .done ∧ ∃ l', Inv t l' := by
  obtain ⟨e, out⟩ := a
  obtain ⟨hcareful, hstep⟩ := hstep
  have hdone : ∀ {r : Option (State ω)}, some (s.after r) = some (t, out) →
      (∃ u l', r = some u ∧ Inv u l') → out = .done ∧ ∃ l', Inv t l' := by
    rintro r hr ⟨u, l', rfl, hinv⟩
    obtain ⟨rfl, rfl⟩ := Prod.mk.inj (Option.some.inj hr)
    exact ⟨rfl, l', hinv⟩
  cases e with
  | new w =>
    by_cases hw : s.stage w = .absent
    · have hnew : some (s.new w, Outcome.done) = some (t, out) := (if_pos hw).symm.trans hstep
      obtain ⟨rfl, rfl⟩ := Prod.mk.inj (Option.some.inj hnew)
      exact ⟨rfl, l, h.new hw⟩
    · exact nomatch (if_neg hw).symm.trans hstep
  | «show» w =>
    obtain ⟨u, hu, hinv⟩ := h.windowShow hcareful.1 hcareful.2
    exact hdone hstep ⟨u, _, hu, hinv⟩
  | hide w => exact hdone hstep (h.windowHide hcareful.1 hcareful.2)
  | tofront w => exact hdone hstep (h.windowTofront hcareful.1 hcareful.2)
  | destroy w => exact hdone hstep (h.windowDestroy hcareful)
  | cleanup w =>
    refine hdone hstep ⟨s.setStage w .absent, l, if_pos hcareful.1, h.setStage ?_⟩
    simp [hcareful.2]

/-- **The stack of windows**: in every run of careful calls the ring is well formed and has the
root entry and the visible windows, each once, and no call is undefined. -/
theorem stack_well_formed {tr : List (Event ω × Outcome)}
    (h : Run (Guarded step Careful) State.init tr s) :
    StackOk s ∧ ∀ a ∈ tr, a.2 = .done := by
  have hinv : (∃ l, Inv s l) ∧ ∀ a ∈ tr, a.2 = .done := by
    apply Run.history (P := fun tr s => (∃ l, Inv s l) ∧ ∀ a ∈ tr, a.2 = .done) _ _ h
    · exact ⟨⟨_, Inv.init⟩, by simp⟩
    · rintro tr t a u ⟨⟨l, hl⟩, hpast⟩ hstep
      obtain ⟨hdone, hinv⟩ := hl.step hstep
      refine ⟨hinv, fun b hb => ?_⟩
      rcases List.mem_append.mp hb with hb | hb
      · exact hpast b hb
      · rw [List.mem_singleton.mp hb]
        exact hdone
  obtain ⟨⟨l, hl⟩, hdone⟩ := hinv
  exact ⟨hl.stackOk, hdone⟩

/-- Two windows: one is raised, hidden twice and destroyed. -/
theorem stack_well_formed_two :
    ∃ tr, ∃ s : State Bool, Run (Guarded step Careful) State.init tr s ∧
      s.visible true = true ∧ StackOk s ∧ ∀ a ∈ tr, a.2 = .done := by
  obtain ⟨tr, s, hrun, hv⟩ := exists_run_of_guarded_exec step Careful (State.init : State Bool)
    (fun _ s => s.visible true = true)
    [Event.new false, .new true, .show false, .show true, .tofront false, .hide false,
      .hide false, .destroy false, .cleanup false] (by decide +kernel)
  exact ⟨tr, s, hrun, hv, stack_well_formed hrun⟩

/-- A window shown twice: its node points to itself, and what is below it still to the node. -/
theorem shown_twice : ∃ tr, ∃ s : State Nat, Run (Step step) State.init tr s ∧ ¬ StackOk s := by
  obtain ⟨tr, s, hrun, hv, hnext, hprev⟩ := exists_run_of_exec step (State.init : State Nat)
    (fun _ s => s.visible 0 = true ∧ s.links.next .root = some (.window 0) ∧
      s.links.prev (.window 0) = some (.window 0))
    [Event.new 0, .show 0, .show 0] (by decide +kernel)
  refine ⟨tr, s, hrun, ?_⟩
  rintro ⟨l, fuel, -, -, -, hinverse, hroot, hshown⟩
  have hwindow : Node.window 0 ∈ Node.head :: l := List.mem_cons_of_mem _ ((hshown 0).mpr hv)
  have hback := (hinverse .root (List.mem_cons_of_mem _ hroot) _ hwindow).mp hnext
  rw [hprev] at hback
  cases hback

end Mediabox.WindowStack
