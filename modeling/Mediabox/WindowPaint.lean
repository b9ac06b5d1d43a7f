import Mathlib.Data.List.Infix
import Mediabox.Rect

/-!
# Painting the windows (`src/lib/ui/video.c`)

`avbox_window_paint` over the root window, the top-level windows and their subwindows, as the
sequence of `surface_update` calls that it makes.

* The loops and the calls of `avbox_window_paint` are counted with fuel: the loop over the windows
  above goes to the next one only where `avbox_rect_overlaps` says yes, so that its end is a fact to
  prove.
* `window_stack` is a list, from the bottom, without its root entry; each window is in it once
  (`Screen.nodup`), and it has the top-level windows whose flag `visible` is set (`Screen.shown`).
* A paint handler draws; the surfaces it updates are those of subwindows (`drawn`).

Main result: `painters_order` — painting ends; every blit of a window is followed by one of each
window above it that is not covered, no covered window is blitted, and painting the root blits every
window that is not covered.
-/

set_option autoImplicit false

namespace Mediabox.WindowPaint

/-! ## Sequences -/

section Followed

variable {α : Type*} {l m : List α} {a b c : α}

/-- Every `a` in the list has a `b` after it. -/
def FollowedBy (l : List α) (a b : α) : Prop := ∀ pre post, l = pre ++ a :: post → b ∈ post

theorem FollowedBy.of_not_mem (h : a ∉ l) : FollowedBy l a b := by
  intro pre post hl
  apply absurd _ h
  rw [hl]
  simp

theorem FollowedBy.append (hl : FollowedBy l a b) (hm : FollowedBy m a b) :
    FollowedBy (l ++ m) a b := by
  intro pre post h
  rcases List.append_eq_append_iff.mp h with ⟨mid, -, hmid⟩ | ⟨mid, hpre, hmid⟩
  · exact hm mid post hmid
  · cases mid with
    | nil => exact hm [] post hmid.symm
    | cons x mid =>
      obtain ⟨rfl, rfl⟩ := List.cons.inj hmid
      exact List.mem_append_left m (hl pre mid hpre)

/-- The only `a` is the first element. -/
theorem FollowedBy.head (hb : b ∈ l) (ha : a ∉ l) : FollowedBy (a :: l) a b := by
  intro pre post h
  cases pre with
  | nil =>
    obtain ⟨-, rfl⟩ := List.cons.inj h
    exact hb
  | cons x pre =>
    obtain ⟨-, rfl⟩ := List.cons.inj h
    simp at ha

theorem FollowedBy.cons_ne (hne : c ≠ a) (h : FollowedBy l a b) : FollowedBy (c :: l) a b := by
  have hsingle : FollowedBy [c] a b := .of_not_mem (by simpa using hne.symm)
  exact hsingle.append h

end Followed

/-! ## Windows -/

/-- A surface that is updated. -/
inductive Surface (ω : Type*) where
  | root
  | top (window : ω)
  | sub (id : Nat)
  deriving DecidableEq, Repr

/-- A window whose parent is not the root window. -/
inductive Subwindow where
  | mk (surface : Nat) (visible : Bool) (drawn : List Nat) (children : List Subwindow)

/-- A window whose parent is the root window. -/
structure Window where
  rect : Rect
  visible : Bool
  /-- the surfaces that its paint handler updates -/
  drawn : List Nat
  children : List Subwindow

/-- The root window, its children and the stack. -/
structure Screen (ω : Type*) where
  window : ω → Window
  /-- `window_stack` above its root entry -/
  stack : List ω
  /-- `root_window.children` -/
  children : List ω
  drawn : List Nat
  nodup : stack.Nodup
  shown : ∀ w ∈ children, (window w).visible = true ↔ w ∈ stack
  listed : ∀ w ∈ stack, w ∈ children

variable {ω : Type*}

mutual

/-- `avbox_window_paint` of a subwindow: nothing covers it, and nothing is repaired above it. -/
def Subwindow.paint : Subwindow → List (Surface ω)
  | .mk surface visible drawn children =>
    if visible then drawn.map .sub ++ paintSubwindows children ++ [.sub surface] else []

def paintSubwindows : List Subwindow → List (Surface ω)
  | [] => []
  | child :: children => child.paint ++ paintSubwindows children

end

namespace Screen

variable (s : Screen ω)

/-- One of these windows covers `w`. -/
def coveredBy (w : ω) (windows : List ω) : Bool :=
  windows.any fun u => rectCovers (s.window u).rect (s.window w).rect

variable [DecidableEq ω]

/-- The windows above one in the stack. -/
def above (w : ω) : List ω := (s.stack.dropWhile (· ≠ w)).tail

/-- `avbox_window_reallyvisible` of a top-level window -/
def reallyvisible (w : ω) : Bool := !s.coveredBy w (s.above w)

/-- What is updated before the surface of the window itself. -/
def inside (w : ω) : List (Surface ω) :=
  (s.window w).drawn.map .sub ++ paintSubwindows (s.window w).children

mutual

/-- `avbox_window_paint` of a top-level window -/
def windowPaint : Nat → ω → Option (List (Surface ω))
  | 0, _ => none
  | fuel + 1, w =>
    if !(s.window w).visible || !s.reallyvisible w then some []
    else (paintDamaged fuel w (s.above w)).map fun damaged => s.inside w ++ .top w :: damaged

/-- The loop of `avbox_window_paint` over the windows above. -/
def paintDamaged : Nat → ω → List ω → Option (List (Surface ω))
  | 0, _, _ => none
  | _ + 1, _, [] => some []
  | fuel + 1, w, damagedWindow :: rest =>
    if rectOverlaps (s.window w).rect (s.window damagedWindow).rect then do
      let painted ← windowPaint fuel damagedWindow
      if rectCovers (s.window damagedWindow).rect (s.window w).rect then return painted
      else return painted ++ (← paintDamaged fuel w rest)
    else paintDamaged fuel w (damagedWindow :: rest)

end

/-- The loop over the children of the root window. -/
def paintChildren (fuel : Nat) : List ω → Option (List (Surface ω))
  | [] => some []
  | child :: children => do return (← s.windowPaint fuel child) ++ (← paintChildren fuel children)

/-- `avbox_window_paint` of the root window -/
def rootPaint (fuel : Nat) : Option (List (Surface ω)) :=
  (s.paintChildren fuel s.children).map fun painted => s.drawn.map .sub ++ painted ++ [Surface.root]

end Screen

/-! ## The order of the blits -/

mutual

/-- A subwindow blits no top-level window. -/
theorem top_not_mem_paint (w : ω) : ∀ x : Subwindow, Surface.top w ∉ (x.paint : List (Surface ω))
  | .mk surface visible drawn children => by
    unfold Subwindow.paint
    have hchildren := top_not_mem_paintSubwindows w children
    split <;> simp [hchildren]

theorem top_not_mem_paintSubwindows (w : ω) :
    ∀ children : List Subwindow, Surface.top w ∉ (paintSubwindows children : List (Surface ω))
  | [] => by simp [paintSubwindows]
  | child :: children => by
    unfold paintSubwindows
    have hchild := top_not_mem_paint w child
    have hchildren := top_not_mem_paintSubwindows w children
    simp [hchild, hchildren]

end

namespace Screen

section Repairs

variable (s : Screen ω)

/-- What painting a window makes, with these windows above it; `repaired` is what painting all of
    those makes, from the bottom. -/
def painted (w : ω) (windows : List ω) (repaired : List (Surface ω)) : List (Surface ω) :=
  if s.coveredBy w windows then [] else s.inside w ++ .top w :: repaired

/-- What painting each of these windows makes, one after the other. -/
def repairs : List ω → List (Surface ω)
  | [] => []
  | u :: rest => s.painted u rest (repairs rest) ++ repairs rest

variable {s}

theorem top_not_mem_inside (a w : ω) : Surface.top a ∉ s.inside w := by
  unfold inside
  simp [top_not_mem_paintSubwindows a]

/-- A window that is blitted is one of those painted, and none above covers it. -/
theorem suffix_of_top_mem {a : ω} {windows : List ω} (h : Surface.top a ∈ s.repairs windows) :
    ∃ rest, a :: rest <:+ windows ∧ s.coveredBy a rest = false := by
  induction windows with
  | nil => simp [repairs] at h
  | cons u windows ih =>
    unfold repairs painted at h
    rcases List.mem_append.mp h with hpainted | hrest
    · split at hpainted
      · simp at hpainted
      · rename_i hcovered
        simp only [List.mem_append, top_not_mem_inside, List.mem_cons, Surface.top.injEq,
          false_or] at hpainted
        rcases hpainted with rfl | hrest
        · exact ⟨windows, List.suffix_rfl, by simpa using hcovered⟩
        · obtain ⟨rest, hsuffix, hfree⟩ := ih hrest
          exact ⟨rest, hsuffix.trans (List.suffix_cons u windows), hfree⟩
    · obtain ⟨rest, hsuffix, hfree⟩ := ih hrest
      exact ⟨rest, hsuffix.trans (List.suffix_cons u windows), hfree⟩

theorem top_mem_repairs {b : ω} {rest windows : List ω} (h : b :: rest <:+ windows)
    (hfree : s.coveredBy b rest = false) : Surface.top b ∈ s.repairs windows := by
  induction windows with
  | nil => simp at h
  | cons u windows ih =>
    unfold repairs painted
    rcases List.suffix_cons_iff.mp h with heq | hsuffix
    · obtain ⟨rfl, rfl⟩ := List.cons.inj heq
      simp [hfree]
    · simp [ih hsuffix]

/-- Painting a window, when the order is right for those above it. -/
theorem painted_followed {a b u : ω} {rest afterB windows : List ω} (hnodup : (u :: windows).Nodup)
    (ha : a :: rest <:+ u :: windows) (hb : b :: afterB <:+ rest)
    (hfree : s.coveredBy b afterB = false)
    (hrepairs : a :: rest <:+ windows → FollowedBy (s.repairs windows) (.top a) (.top b)) :
    FollowedBy (s.painted u windows (s.repairs windows)) (.top a) (.top b) := by
  unfold painted
  split
  · exact .of_not_mem (by simp)
  · apply (FollowedBy.of_not_mem (top_not_mem_inside a u)).append
    rcases List.suffix_cons_iff.mp ha with heq | hsuffix
    · obtain ⟨rfl, rfl⟩ := List.cons.inj heq
      apply FollowedBy.head (top_mem_repairs hb hfree)
      intro hmem
      obtain ⟨tail, htail, -⟩ := suffix_of_top_mem hmem
      exact (List.nodup_cons.mp hnodup).1 (htail.subset List.mem_cons_self)
    · have hne : a ≠ u := by
        rintro rfl
        exact (List.nodup_cons.mp hnodup).1 (hsuffix.subset List.mem_cons_self)
      exact (hrepairs hsuffix).cons_ne (by simpa using hne.symm)

/-- **Painting from the bottom**: every blit is followed by one of each free window above. -/
theorem repairs_followed {a b : ω} {rest afterB windows : List ω} (hnodup : windows.Nodup)
    (ha : a :: rest <:+ windows) (hb : b :: afterB <:+ rest)
    (hfree : s.coveredBy b afterB = false) :
    FollowedBy (s.repairs windows) (.top a) (.top b) := by
  induction windows with
  | nil => simp at ha
  | cons u windows ih =>
    have hrest := (List.nodup_cons.mp hnodup).2
    have hpainted := painted_followed hnodup ha hb hfree (ih hrest)
    unfold repairs
    apply hpainted.append
    rcases List.suffix_cons_iff.mp ha with heq | hsuffix
    · obtain ⟨rfl, rfl⟩ := List.cons.inj heq
      apply FollowedBy.of_not_mem
      intro hmem
      obtain ⟨tail, htail, -⟩ := suffix_of_top_mem hmem
      exact (List.nodup_cons.mp hnodup).1 (htail.subset List.mem_cons_self)
    · exact ih hrest hsuffix

end Repairs

end Screen

/-! ## Painting ends -/

namespace Screen

variable [DecidableEq ω] {s : Screen ω}

theorem above_eq {w : ω} {rest : List ω} (h : w :: rest <:+ s.stack) : s.above w = rest := by
  obtain ⟨front, hfront⟩ := h
  have hnodup := s.nodup
  rw [← hfront] at hnodup
  have hnot : ∀ x ∈ front, x ≠ w := by
    intro x hx
    exact (List.nodup_append.mp hnodup).2.2 x hx w List.mem_cons_self
  unfold above
  rw [← hfront, List.dropWhile_append_of_pos (by simpa using hnot)]
  simp

omit [DecidableEq ω] in
theorem visible_of_mem {w : ω} (h : w ∈ s.stack) : (s.window w).visible = true :=
  (s.shown w (s.listed w h)).mpr h

/-- The call that paints one window, when the loop over those above it ends. -/
theorem windowPaint_eq {w : ω} {rest : List ω} {fuel : Nat} (h : w :: rest <:+ s.stack)
    (hloop : s.coveredBy w rest = false → s.paintDamaged fuel w rest = some (s.repairs rest)) :
    s.windowPaint (fuel + 1) w = some (s.painted w rest (s.repairs rest)) := by
  have hvisible := visible_of_mem (h.subset List.mem_cons_self)
  unfold windowPaint reallyvisible painted
  rw [above_eq h, hvisible]
  cases hcovered : s.coveredBy w rest with
  | true => rfl
  | false => simp [hloop hcovered]

/-- **The loop ends**, and it never stops early: no window above covers the one that is painted. -/
theorem paintDamaged_eq {rest : List ω} (h : rest <:+ s.stack) {w : ω}
    (hcovered : s.coveredBy w rest = false) {fuel : Nat} (hfuel : 2 * rest.length + 1 ≤ fuel) :
    s.paintDamaged fuel w rest = some (s.repairs rest) := by
  induction rest generalizing w fuel with
  | nil =>
    obtain ⟨fuel, rfl⟩ : ∃ n, fuel = n + 1 := ⟨fuel - 1, by simp at hfuel; omega⟩
    rfl
  | cons u rest ih =>
    obtain ⟨fuel, rfl⟩ : ∃ n, fuel = n + 2 := ⟨fuel - 2, by simp at hfuel; omega⟩
    have hrest : rest <:+ s.stack := (List.suffix_cons u rest).trans h
    simp only [List.length_cons] at hfuel
    simp only [coveredBy, List.any_cons, Bool.or_eq_false_iff] at hcovered
    have hpaint : s.windowPaint (fuel + 1) u = some (s.painted u rest (s.repairs rest)) :=
      windowPaint_eq h fun hu => ih hrest hu (by omega)
    have hloop : s.paintDamaged (fuel + 1) w rest = some (s.repairs rest) :=
      ih hrest hcovered.2 (by omega)
    unfold paintDamaged repairs
    simp [rectOverlaps, hpaint, hcovered.1, hloop]

/-- Enough fuel for every call. -/
def enough (s : Screen ω) : Nat := 2 * s.stack.length + 2

/-- What painting a child of the root window makes. -/
def paintedChild (s : Screen ω) (w : ω) : List (Surface ω) :=
  if w ∈ s.stack then s.painted w (s.above w) (s.repairs (s.above w)) else []

theorem exists_suffix {w : ω} (h : w ∈ s.stack) : w :: s.above w <:+ s.stack := by
  obtain ⟨front, rest, hsplit⟩ := List.append_of_mem h
  have hsuffix : w :: rest <:+ s.stack := ⟨front, hsplit.symm⟩
  rwa [above_eq hsuffix]

theorem windowPaint_child {w : ω} (h : w ∈ s.children) {fuel : Nat} (hfuel : s.enough ≤ fuel) :
    s.windowPaint fuel w = some (s.paintedChild w) := by
  obtain ⟨fuel, rfl⟩ : ∃ n, fuel = n + 1 := ⟨fuel - 1, by unfold enough at hfuel; omega⟩
  unfold paintedChild
  split
  · rename_i hmem
    have hsuffix := exists_suffix hmem
    have hlen := hsuffix.length_le
    simp only [List.length_cons] at hlen
    unfold enough at hfuel
    apply windowPaint_eq hsuffix
    intro hcovered
    exact paintDamaged_eq ((List.suffix_cons _ _).trans hsuffix) hcovered (by omega)
  · rename_i hmem
    have hhidden : (s.window w).visible = false := by
      rw [← Bool.not_eq_true, s.shown w h]
      exact hmem
    unfold windowPaint
    simp [hhidden]

theorem paintChildren_eq {children : List ω} (h : ∀ w ∈ children, w ∈ s.children) {fuel : Nat}
    (hfuel : s.enough ≤ fuel) :
    s.paintChildren fuel children = some (children.flatMap s.paintedChild) := by
  induction children with
  | nil => rfl
  | cons w children ih =>
    have hpaint := windowPaint_child (h w List.mem_cons_self) hfuel
    have hrest := ih fun u hu => h u (List.mem_cons_of_mem w hu)
    unfold paintChildren
    simp [hpaint, hrest]

/-! ## Painter's order -/

/-- A window that is painted. -/
inductive Target (s : Screen ω) where
  | root
  | child (w : ω) (h : w ∈ s.children)
  | subwindow (x : Subwindow)

/-- `avbox_window_paint` -/
def paint (s : Screen ω) (fuel : Nat) : Target s → Option (List (Surface ω))
  | .root => s.rootPaint fuel
  | .child w _ => s.windowPaint fuel w
  | .subwindow x => some x.paint

theorem reallyvisible_iff {w : ω} {rest : List ω} (h : w :: rest <:+ s.stack) :
    s.reallyvisible w = true ↔ s.coveredBy w rest = false := by
  unfold reallyvisible
  rw [above_eq h]
  simp

/-- A window that is blitted when `w` is painted is `w` or above it, and is not covered. -/
theorem suffix_of_painted {a w : ω} (hw : w ∈ s.stack)
    (h : Surface.top a ∈ s.painted w (s.above w) (s.repairs (s.above w))) :
    a :: s.above a <:+ w :: s.above w ∧ s.reallyvisible a = true := by
  have hmem : Surface.top a ∈ s.repairs (w :: s.above w) := by
    unfold repairs
    exact List.mem_append_left _ h
  obtain ⟨rest, hsuffix, hfree⟩ := suffix_of_top_mem hmem
  have hstack := hsuffix.trans (exists_suffix hw)
  rw [above_eq hstack, reallyvisible_iff hstack]
  exact ⟨hsuffix, hfree⟩

theorem paintedChild_followed {a b w : ω} (ha : a ∈ s.stack) (hb : b ∈ s.above a)
    (hfree : s.reallyvisible b = true) : FollowedBy (s.paintedChild w) (.top a) (.top b) := by
  unfold paintedChild
  split
  · rename_i hw
    have hsuffix := exists_suffix hw
    have hnodup := s.nodup.sublist hsuffix.sublist
    obtain ⟨front, afterB, hsplit⟩ := List.append_of_mem hb
    have hbsuffix : b :: afterB <:+ s.above a := ⟨front, hsplit.symm⟩
    have hbstack := hbsuffix.trans ((List.suffix_cons a _).trans (exists_suffix ha))
    rw [reallyvisible_iff hbstack] at hfree
    by_cases hin : a :: s.above a <:+ w :: s.above w
    · apply painted_followed hnodup hin hbsuffix hfree
      intro hrest
      exact repairs_followed (List.nodup_cons.mp hnodup).2 hrest hbsuffix hfree
    · -- `a` is below `w` in the stack, and is not painted
      apply FollowedBy.of_not_mem
      intro hmem
      exact hin (suffix_of_painted hw hmem).1
  · exact .of_not_mem (by simp)

theorem reallyvisible_of_paintedChild {a w : ω} (h : Surface.top a ∈ s.paintedChild w) :
    s.reallyvisible a = true := by
  unfold paintedChild at h
  split at h
  · rename_i hw
    exact (suffix_of_painted hw h).2
  · simp at h

theorem top_mem_paintedChild {a : ω} (ha : a ∈ s.stack) (hfree : s.reallyvisible a = true) :
    Surface.top a ∈ s.paintedChild a := by
  rw [reallyvisible_iff (exists_suffix ha)] at hfree
  unfold paintedChild painted
  simp [ha, hfree]

/-- The loop over the children keeps the order of each of them. -/
theorem flatMap_followed {a b : ω} (ha : a ∈ s.stack) (hb : b ∈ s.above a)
    (hfree : s.reallyvisible b = true) (children : List ω) :
    FollowedBy (children.flatMap s.paintedChild) (.top a) (.top b) := by
  induction children with
  | nil => exact .of_not_mem (by simp)
  | cons w children ih =>
    rw [List.flatMap_cons]
    exact (paintedChild_followed ha hb hfree).append ih

/-- What is updated when a window is painted. -/
def updates (s : Screen ω) : Target s → List (Surface ω)
  | .root => s.drawn.map .sub ++ s.children.flatMap s.paintedChild ++ [Surface.root]
  | .child w _ => s.paintedChild w
  | .subwindow x => x.paint

/-- **Painting ends.** -/
theorem paint_eq (t : Target s) {fuel : Nat} (hfuel : s.enough ≤ fuel) :
    s.paint fuel t = some (s.updates t) := by
  cases t with
  | root =>
    unfold paint rootPaint
    rw [paintChildren_eq (fun _ hw => hw) hfuel]
    rfl
  | child w h => exact windowPaint_child h hfuel
  | subwindow x => rfl

theorem updates_followed {a b : ω} (ha : a ∈ s.stack) (hb : b ∈ s.above a)
    (hfree : s.reallyvisible b = true) (t : Target s) :
    FollowedBy (s.updates t) (.top a) (.top b) := by
  cases t with
  | root =>
    have hdrawn : FollowedBy (s.drawn.map Surface.sub) (.top a) (.top b) := .of_not_mem (by simp)
    have hroot : FollowedBy [Surface.root] (.top a) (.top b) := .of_not_mem (by simp)
    exact (hdrawn.append (flatMap_followed ha hb hfree s.children)).append hroot
  | child w h => exact paintedChild_followed ha hb hfree
  | subwindow x => exact .of_not_mem (top_not_mem_paint a x)

theorem reallyvisible_of_updated {a : ω} (t : Target s) (h : Surface.top a ∈ s.updates t) :
    s.reallyvisible a = true := by
  cases t with
  | root =>
    simp only [updates, List.mem_append, List.mem_map, reduceCtorEq, and_false, exists_const,
      List.mem_flatMap, List.mem_singleton, false_or, or_false] at h
    obtain ⟨w, -, hmem⟩ := h
    exact reallyvisible_of_paintedChild hmem
  | child w hw => exact reallyvisible_of_paintedChild h
  | subwindow x => exact absurd h (top_not_mem_paint a x)

/-- **Painter's order.**  For every stack, every order of the children of the root window and every
    window that is painted: painting ends; in the sequence of updates every blit of a window `a` is
    followed by a blit of each window above `a` that no window above it covers; no window that is
    covered is blitted; and painting the root window blits every window that is not covered. -/
theorem painters_order (s : Screen ω) (t : Target s) :
    ∃ blits, (∀ fuel, s.enough ≤ fuel → s.paint fuel t = some blits) ∧
      (∀ a ∈ s.stack, ∀ b ∈ s.above a, s.reallyvisible b = true →
        FollowedBy blits (.top a) (.top b)) ∧
      (∀ a, .top a ∈ blits → s.reallyvisible a = true) ∧
      (t = .root → ∀ a ∈ s.stack, s.reallyvisible a = true → .top a ∈ blits) := by
  refine ⟨s.updates t, fun fuel hfuel => paint_eq t hfuel, ?_, ?_, ?_⟩
  · intro a ha b hb hfree
    exact updates_followed ha hb hfree t
  · intro a hmem
    exact reallyvisible_of_updated t hmem
  · rintro rfl a ha hfree
    have hmem := top_mem_paintedChild ha hfree
    simp only [updates, List.mem_append, List.mem_flatMap]
    exact Or.inl (Or.inr ⟨a, s.listed a ha, hmem⟩)

end Screen

end Mediabox.WindowPaint
