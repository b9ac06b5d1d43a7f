import Mediabox.Lib.NameTable
import Mediabox.SoftwareSurface

/-!
# The surfaces of the OpenGL renderer (`src/lib/ui/video-opengl.c`)

A surface without a parent has a texture and a buffer; its sub-surfaces have the same texture and
point into the buffer.

* Surfaces are named by the order in which they were made.  A name of GL or an address is used again
  once what had it was deleted.
* `buf` is 0 where `posix_memalign` left NULL; its result is never -1.
* Framebuffers, which only surfaces without a parent have, and lock flags are left out.

Main result: `textures_owned`.
-/

set_option autoImplicit false

namespace Mediabox.OpenglSurface

open NameTable Nesting Transition
open SoftwareSurface (alignedPitch Sized)

/-! ## The code -/

/-- `struct mbv_surface` -/
structure Surface where
  parent : Option Nat
  real : Nat
  texture : Nat
  bufsz : Nat
  pitch : Nat
  realx : Nat
  realy : Nat
  x : Nat
  y : Nat
  w : Nat
  h : Nat
  buf : Nat
  deriving DecidableEq, Repr

structure State where
  surfaces : List Surface
  destroyed : List Nat
  /-- the names of textures in use, and the surfaces that they were made for -/
  textures : Nat → Option Nat
  /-- the buffers that are allocated, and the surfaces that they were made for -/
  buffers : Nat → Option Nat

def init : State := ⟨[], [], fun _ => none, fun _ => none⟩

/-- `surface_new` without a parent: its texture and its buffer are new. -/
def newTop (s : State) (x y w h texture buf : Nat) : State where
  surfaces := s.surfaces ++ [⟨none, s.surfaces.length, texture, alignedPitch w * h, alignedPitch w,
    0, 0, x, y, w, h, buf⟩]
  destroyed := s.destroyed
  textures := Function.update s.textures texture (some s.surfaces.length)
  buffers := if buf = 0 then s.buffers
    else Function.update s.buffers buf (some s.surfaces.length)

/-- `surface_new` with a parent -/
def newSub (s : State) (parent : Nat) (p : Surface) (x y w h : Nat) : State :=
  { s with surfaces := s.surfaces ++ [⟨some parent, p.real, p.texture, 0, p.pitch, p.realx + x,
      p.realy + y, x, y, w, h, p.buf + p.pitch * y + x * 4⟩] }

/-- The surfaces whose textures and buffers a call deletes. -/
structure Deleted where
  textures : List Nat
  buffers : List Nat
  deriving DecidableEq, Repr

/-- `surface_destroy` -/
def destroy (s : State) (inst : Nat) (f : Surface) : State × Deleted :=
  let frees := f.bufsz ≠ 0
  ({ s with
    destroyed := inst :: s.destroyed
    textures := Function.update s.textures f.texture none
    buffers := if frees then Function.update s.buffers f.buf none else s.buffers },
    ⟨(s.textures f.texture).toList, if frees then (s.buffers f.buf).toList else []⟩)

inductive Event where
  /-- with what `glGenTextures` and `posix_memalign` give -/
  | newTop (x y w h texture buf : Nat)
  | newSub (parent x y w h : Nat)
  | destroy (inst : Nat)
  deriving DecidableEq, Repr

/-- A surface that can be used. -/
def State.live (s : State) (inst : Nat) : Option Surface :=
  if inst ∈ s.destroyed then none else s.surfaces[inst]?

/-- One step; the offset and the size of a sub-surface are inside of its parent. -/
def step (s : State) : Event → Option (State × Deleted)
  | .newTop x y w h texture buf =>
    if Sized w h ∧ s.textures texture = none ∧ s.buffers buf = none then
      some (newTop s x y w h texture buf, ⟨[], []⟩)
    else none
  | .newSub parent x y w h => do
    let p ← s.live parent
    if x + w ≤ p.w ∧ y + h ≤ p.h then some (newSub s parent p x y w h, ⟨[], []⟩) else none
  | .destroy inst => (s.live inst).map (destroy s inst)

/-! ## What it is for -/

def Surface.frame (f : Surface) : Frame := ⟨f.parent, f.x, f.y⟩

/-- What a call should delete: what was made for the surface. -/
def owned (surfaces : List Surface) : Event → Deleted
  | .destroy inst =>
    match surfaces[inst]? with
    | some f => if f.parent = none then ⟨[inst], if f.buf = 0 then [] else [inst]⟩ else ⟨[], []⟩
    | none => ⟨[], []⟩
  | _ => ⟨[], []⟩

/-- What holds when these calls have led to the state. -/
structure Kept (tr : List (Event × Deleted)) (s : State) : Prop where
  /-- each call has deleted what it should -/
  deleted : ∀ a ∈ tr, a.2 = owned s.surfaces a.1
  /-- surfaces are destroyed once -/
  once : s.destroyed.Nodup
  /-- a surface can be drawn as long as its root was not destroyed -/
  drawable : ∀ inst r X Y, Path Surface.frame s.surfaces inst r X Y → r ∉ s.destroyed →
    ∃ f, s.surfaces[inst]? = some f ∧ s.textures f.texture = some r
  buffer : ∀ (r : Nat) (f : Surface), s.surfaces[r]? = some f → f.parent = none →
    r ∉ s.destroyed → f.buf ≠ 0 → s.buffers f.buf = some r
  /-- nothing is left of a surface that was destroyed -/
  gone : ∀ r ∈ s.destroyed, (∀ id, s.textures id ≠ some r) ∧ ∀ buf, s.buffers buf ≠ some r

/-- The steps that keep it so: a sub-surface is destroyed while no texture has its name, any other
    surface has a buffer with a size or none. -/
def Clear (s : State) : Event → Prop
  | .destroy inst => ∀ f ∈ s.surfaces[inst]?,
    if f.parent = none then f.bufsz ≠ 0 ∨ f.buf = 0 else s.textures f.texture = none
  | _ => True

instance (s : State) (e : Event) : Decidable (Clear s e) :=
  match e with
  | .newTop _ _ _ _ _ _ => inferInstanceAs (Decidable True)
  | .newSub _ _ _ _ _ => inferInstanceAs (Decidable True)
  | .destroy _ => inferInstanceAs (Decidable (∀ f ∈ _, _))

variable {s t : State} {surfaces : List Surface} {destroyed : List Nat} {f g : Surface}
  {key : Surface → Nat} {inst r id : Nat} {e : Event} {tr : List (Event × Deleted)}

/-! ## Who owns what -/

/-- The surface has no parent and was not destroyed, and this is its texture or its buffer. -/
def Owns (surfaces : List Surface) (destroyed : List Nat) (key : Surface → Nat) (r id : Nat) :
    Prop :=
  ∃ f, surfaces[r]? = some f ∧ f.parent = none ∧ r ∉ destroyed ∧ key f = id

theorem owns_append (hnew : surfaces.length ∉ destroyed) :
    Owns (surfaces ++ [f]) destroyed key r id ↔
      Owns surfaces destroyed key r id ∨ f.parent = none ∧ r = surfaces.length ∧ id = key f := by
  constructor
  · rintro ⟨g, hg, hparent, hr, hkey⟩
    rcases getElem?_of_append hg with hg | ⟨rfl, rfl⟩
    · exact .inl ⟨g, hg, hparent, hr, hkey⟩
    · exact .inr ⟨hparent, rfl, hkey.symm⟩
  · rintro (⟨g, hg, hrest⟩ | ⟨hparent, rfl, rfl⟩)
    · exact ⟨g, getElem?_append_of hg, hrest⟩
    · exact ⟨f, List.getElem?_concat_length, hparent, hnew, rfl⟩

theorem owns_destroy :
    Owns surfaces (inst :: destroyed) key r id ↔ Owns surfaces destroyed key r id ∧ r ≠ inst := by
  simp only [Owns, List.mem_cons, not_or]
  constructor
  · rintro ⟨f, hf, hparent, ⟨hne, hr⟩, hkey⟩
    exact ⟨⟨f, hf, hparent, hr, hkey⟩, hne⟩
  · rintro ⟨⟨f, hf, hparent, hr, hkey⟩, hne⟩
    exact ⟨f, hf, hparent, ⟨hne, hr⟩, hkey⟩

theorem Owns.key_eq (h : Owns surfaces destroyed key r id) (hf : surfaces[r]? = some f) :
    id = key f := by
  obtain ⟨g, hg, -, -, rfl⟩ := h
  rw [Option.some.inj (hf.symm.trans hg)]

/-- A surface that is a sub-surface owns nothing. -/
theorem Owns.parent_none (h : Owns surfaces destroyed key r id) (hf : surfaces[r]? = some f) :
    f.parent = none := by
  obtain ⟨g, hg, hparent, -⟩ := h
  rw [Option.some.inj (hf.symm.trans hg), hparent]

/-! ## The invariant -/

/-- A surface without a parent begins at its own beginning. -/
structure Top (r : Nat) (f : Surface) : Prop where
  real : f.real = r
  realx : f.realx = 0
  realy : f.realy = 0
  pitch : 4 * f.w ≤ f.pitch

/-- A sub-surface has the texture of its parent and lies inside of it. -/
structure Linked (f pf : Surface) : Prop where
  real : f.real = pf.real
  texture : f.texture = pf.texture
  bufsz : f.bufsz = 0
  pitch : f.pitch = pf.pitch
  realx : f.realx = pf.realx + f.x
  realy : f.realy = pf.realy + f.y
  buf : f.buf = pf.buf + pf.pitch * f.y + f.x * 4
  inside : f.x + f.w ≤ pf.w ∧ f.y + f.h ≤ pf.h

structure Inv (tr : List (Event × Deleted)) (s : State) : Prop where
  grown : Grown Surface.frame Top Linked s.surfaces
  textures : Names s.textures (Owns s.surfaces s.destroyed Surface.texture)
  buffers : Names s.buffers fun r buf => Owns s.surfaces s.destroyed Surface.buf r buf ∧ buf ≠ 0
  once : s.destroyed.Nodup
  known : ∀ r ∈ s.destroyed, r < s.surfaces.length
  calls : ∀ a ∈ tr, ∀ inst, a.1 = .destroy inst → inst < s.surfaces.length
  deleted : ∀ a ∈ tr, a.2 = owned s.surfaces a.1

theorem Inv.init : Inv [] init where
  grown := Grown.nil
  textures _ _ := iff_of_false nofun fun ⟨_, hf, _⟩ => nomatch hf
  buffers _ _ := iff_of_false nofun fun ⟨⟨_, hf, _⟩, _⟩ => nomatch hf
  once := List.nodup_nil
  known := nofun
  calls := nofun
  deleted := nofun

theorem Inv.length_new (h : Inv tr s) : s.surfaces.length ∉ s.destroyed :=
  fun hmem => Nat.lt_irrefl _ (h.known _ hmem)

/-- A new surface changes nothing about the old ones. -/
theorem owned_append (he : ∀ inst, e = .destroy inst → inst < surfaces.length) :
    owned (surfaces ++ [f]) e = owned surfaces e := by
  cases e with
  | newTop | newSub => rfl
  | destroy inst => simp only [owned, List.getElem?_append_left (he inst rfl)]

/-- **A new surface**: it deletes nothing, and its texture and buffer are free names. -/
theorem Inv.append {t : Nat → Option Nat} {b : Nat → Option Nat} (h : Inv tr s)
    (hcall : ∀ inst, e ≠ .destroy inst)
    (hgrown : Grown Surface.frame Top Linked (s.surfaces ++ [f]))
    (htextures : Names t fun r id => Owns s.surfaces s.destroyed Surface.texture r id ∨
      f.parent = none ∧ r = s.surfaces.length ∧ id = f.texture)
    (hbuffers : Names b fun r buf => Owns s.surfaces s.destroyed Surface.buf r buf ∧ buf ≠ 0 ∨
      (f.parent = none ∧ r = s.surfaces.length ∧ buf = f.buf) ∧ buf ≠ 0) :
    Inv (tr ++ [(e, ⟨[], []⟩)]) ⟨s.surfaces ++ [f], s.destroyed, t, b⟩ := by
  have hlen : s.surfaces.length < (s.surfaces ++ [f]).length := by simp
  refine ⟨hgrown, ?_, ?_, h.once, fun r hr => (h.known r hr).trans hlen, ?_, ?_⟩
  · exact htextures.congr fun r id => (owns_append h.length_new).symm
  · refine hbuffers.congr fun r buf => ?_
    rw [owns_append h.length_new, or_and_right]
  · rw [List.forall_mem_append, List.forall_mem_singleton]
    exact ⟨fun a ha inst hinst => (h.calls a ha inst hinst).trans hlen,
      fun inst hinst => absurd hinst (hcall inst)⟩
  · rw [List.forall_mem_append, List.forall_mem_singleton]
    refine ⟨fun a ha => (h.deleted a ha).trans (owned_append (h.calls a ha)).symm, ?_⟩
    cases e with
    | newTop | newSub => rfl
    | destroy inst => exact absurd rfl (hcall inst)

theorem update_none {table : Nat → Option Nat} (h : table id = none) :
    Function.update table id none = table := by
  rw [← h, Function.update_eq_self]

/-- **A destroyed surface**: it deletes what it owns, and what is left belongs to the others. -/
theorem Inv.destroy_live (h : Inv tr s) (hlive : inst ∉ s.destroyed)
    (hf : s.surfaces[inst]? = some f)
    (hclear : if f.parent = none then f.bufsz ≠ 0 ∨ f.buf = 0 else s.textures f.texture = none) :
    Inv (tr ++ [(Event.destroy inst, (destroy s inst f).2)]) (destroy s inst f).1 := by
  have hlen : inst < s.surfaces.length := (List.getElem?_eq_some_iff.mp hf).1
  have hrest : (destroy s inst f).2 = owned s.surfaces (.destroy inst) ∧
      Names (destroy s inst f).1.textures
        (fun r id => Owns s.surfaces s.destroyed Surface.texture r id ∧ r ≠ inst) ∧
      Names (destroy s inst f).1.buffers fun r buf =>
        (Owns s.surfaces s.destroyed Surface.buf r buf ∧ buf ≠ 0) ∧ r ≠ inst := by
    cases hparent : f.parent with
    | none =>
      rw [if_pos hparent] at hclear
      have htexture : Owns s.surfaces s.destroyed Surface.texture inst f.texture :=
        ⟨f, hf, hparent, hlive, rfl⟩
      have hnull : s.buffers 0 = none :=
        Option.eq_none_iff_forall_ne_some.mpr fun r hr => ((h.buffers 0 r).mp hr).2 rfl
      rcases eq_or_ne f.buf 0 with hbuf | hbuf
      · -- there is no buffer
        have hsame : (destroy s inst f).1.buffers = s.buffers := by
          simp only [destroy, hbuf, update_none hnull, ite_self]
        refine ⟨?_, h.textures.take htexture fun other ho => ho.key_eq hf, ?_⟩
        · simp [destroy, owned, hf, hparent, (h.textures _ _).mpr htexture, hbuf,
            hnull]
        · rw [hsame]
          refine h.buffers.congr fun r buf => (and_iff_left_of_imp ?_).symm
          rintro ⟨ho, hne⟩ rfl
          exact hne ((ho.key_eq hf).trans hbuf)
      · have hsize := hclear.resolve_right hbuf
        have hbuffer : Owns s.surfaces s.destroyed Surface.buf inst f.buf ∧ f.buf ≠ 0 :=
          ⟨⟨f, hf, hparent, hlive, rfl⟩, hbuf⟩
        refine ⟨?_, h.textures.take htexture fun other ho => ho.key_eq hf, ?_⟩
        · simp [destroy, owned, hf, hparent, (h.textures _ _).mpr htexture, hbuf,
            hsize, (h.buffers _ _).mpr hbuffer]
        · simp only [destroy, if_pos hsize]
          exact h.buffers.take hbuffer fun other ho => ho.1.key_eq hf
    | some p =>
      rw [if_neg (by rw [hparent]; nofun)] at hclear
      obtain ⟨pf, -, hlink⟩ := h.grown.sub inst f p hf hparent
      have hnot {key : Surface → Nat} {r id : Nat}
          (ho : Owns s.surfaces s.destroyed key r id) : r ≠ inst := by
        rintro rfl
        rw [ho.parent_none hf] at hparent
        cases hparent
      refine ⟨?_, ?_, ?_⟩
      · simp [destroy, owned, hf, hparent, hclear, hlink.bufsz]
      · simp only [destroy, update_none hclear]
        exact h.textures.congr fun r id => (and_iff_left_of_imp hnot).symm
      · simp only [destroy, hlink.bufsz, ne_eq, not_true_eq_false, if_false]
        exact h.buffers.congr fun r buf => (and_iff_left_of_imp fun ho => hnot ho.1).symm
  obtain ⟨hdeleted, htextures, hbuffers⟩ := hrest
  refine ⟨h.grown, ?_, ?_, List.nodup_cons.mpr ⟨hlive, h.once⟩, ?_, ?_, ?_⟩
  · exact htextures.congr fun r id => owns_destroy.symm
  · refine hbuffers.congr fun r buf => ?_
    rw [and_right_comm, ← owns_destroy]
    rfl
  · exact List.forall_mem_cons.mpr ⟨hlen, h.known⟩
  · rw [List.forall_mem_append, List.forall_mem_singleton]
    exact ⟨h.calls, fun i hi => by cases hi; exact hlen⟩
  · rw [List.forall_mem_append, List.forall_mem_singleton]
    exact ⟨h.deleted, hdeleted⟩

theorem live_eq_some (h : s.live inst = some f) :
    inst ∉ s.destroyed ∧ s.surfaces[inst]? = some f := by
  unfold State.live at h
  split at h
  · cases h
  · exact ⟨‹_›, h⟩

theorem Inv.buffers_give (h : Inv tr s) {buf n : Nat} (hfree : s.buffers buf = none) :
    Names (if buf = 0 then s.buffers else Function.update s.buffers buf (some n)) fun r other =>
      Owns s.surfaces s.destroyed Surface.buf r other ∧ other ≠ 0 ∨
        (r = n ∧ other = buf) ∧ other ≠ 0 := by
  split
  · rename_i hbuf
    refine h.buffers.congr fun r other => (or_iff_left ?_).symm
    rintro ⟨⟨-, rfl⟩, hne⟩
    exact hne hbuf
  · rename_i hbuf
    refine (h.buffers.give hfree n).congr fun r other => or_congr Iff.rfl ?_
    refine (and_iff_left_of_imp ?_).symm
    rintro ⟨-, rfl⟩
    exact hbuf

theorem step_grown {a : Event × Deleted} (h : Grown Surface.frame Top Linked s.surfaces)
    (hs : Step step s a t) : Grown Surface.frame Top Linked t.surfaces := by
  obtain ⟨e, out⟩ := a
  cases e with
  | newTop x y w h' texture buf =>
    simp only [Step, OpenglSurface.step] at hs
    split at hs
    · cases hs
      refine h.append (fun _ => ⟨rfl, rfl, rfl, ?_⟩) nofun
      simp only [alignedPitch]
      omega
    · cases hs
  | newSub parent x y w h' =>
    obtain ⟨p, hp, hs⟩ := Option.bind_eq_some_iff.mp hs
    obtain ⟨hinside, ⟨⟩⟩ := Option.ite_none_right_eq_some.mp hs
    refine h.append nofun fun q hq => ?_
    cases hq
    exact ⟨p, (live_eq_some hp).2, rfl, rfl, rfl, rfl, rfl, rfl, rfl, hinside⟩
  | destroy inst =>
    obtain ⟨f, -, hs⟩ := Option.map_eq_some_iff.mp hs
    obtain ⟨rfl, -⟩ := Prod.ext_iff.mp hs
    exact h

/-- **A step** that is clear keeps the invariant. -/
theorem Inv.step {a : Event × Deleted} (h : Inv tr s) (hs : Guarded step Clear s a t) :
    Inv (tr ++ [a]) t := by
  obtain ⟨e, out⟩ := a
  obtain ⟨hclear, hs⟩ := hs
  have hgrown := step_grown h.grown hs
  cases e with
  | newTop x y w h' texture buf =>
    simp only [Step, OpenglSurface.step] at hs
    split at hs
    · rename_i hfree
      obtain ⟨hsized, htexture, hbuf⟩ := hfree
      cases hs
      refine h.append nofun hgrown ?_ ?_
      · exact (h.textures.give htexture _).congr fun r id => or_congr Iff.rfl
          ⟨fun hr => ⟨rfl, hr⟩, fun hr => hr.2⟩
      · exact (h.buffers_give hbuf).congr fun r id => or_congr Iff.rfl
          (and_congr_left' ⟨fun hr => ⟨rfl, hr⟩, fun hr => hr.2⟩)
    · cases hs
  | newSub parent x y w h' =>
    obtain ⟨p, hp, hs⟩ := Option.bind_eq_some_iff.mp hs
    obtain ⟨-, ⟨⟩⟩ := Option.ite_none_right_eq_some.mp hs
    refine h.append nofun hgrown ?_ ?_
    · exact h.textures.congr fun r id => (or_iff_left fun hc => nomatch hc.1).symm
    · exact h.buffers.congr fun r id => (or_iff_left fun hc => nomatch hc.1.1).symm
  | destroy inst =>
    obtain ⟨f, hf, hs⟩ := Option.map_eq_some_iff.mp hs
    obtain ⟨hlive, hf⟩ := live_eq_some hf
    obtain ⟨rfl, rfl⟩ := Prod.ext_iff.mp hs
    exact h.destroy_live hlive hf (hclear f hf)

/-! ## Runs -/

theorem Inv.texture_root (h : Inv tr s) {X Y : Nat}
    (hpath : Path Surface.frame s.surfaces inst r X Y) :
    ∃ f root, s.surfaces[inst]? = some f ∧ s.surfaces[r]? = some root ∧ root.parent = none ∧
      Top r root ∧ f.texture = root.texture :=
  h.grown.along (P := fun f _ root _ _ => f.texture = root.texture) hpath (fun _ _ _ => rfl)
    fun _ _ _ _ _ _ hlink hP => hlink.texture.trans hP

/-- **Textures are owned**: in every run that destroys a sub-surface only while no texture has its
    name, and no surface whose buffer has no size, each call deletes the texture and the buffer that
    were made for its surface and no others. -/
theorem textures_owned (hrun : Run (Guarded step Clear) init tr s) : Kept tr s := by
  have h : Inv tr s := Run.history (P := Inv) Inv.init (fun _ _ _ _ ht hs => ht.step hs) hrun
  refine ⟨h.deleted, h.once, fun inst r X Y hpath hr => ?_, fun r f hf hparent hr hbuf => ?_,
    fun r hr => ⟨fun id hid => ?_, fun buf hbuf => ?_⟩⟩
  · obtain ⟨f, root, hf, hroot, hparent, -, htexture⟩ := h.texture_root hpath
    exact ⟨f, hf, (h.textures _ _).mpr ⟨root, hroot, hparent, hr, htexture.symm⟩⟩
  · exact (h.buffers _ _).mpr ⟨⟨f, hf, hparent, hr, rfl⟩, hbuf⟩
  · obtain ⟨f, -, -, hnot, -⟩ := (h.textures id r).mp hid
    exact hnot hr
  · obtain ⟨⟨f, -, -, hnot, -⟩, -⟩ := (h.buffers buf r).mp hbuf
    exact hnot hr

/-- A window with a sub-surface in a sub-surface, destroyed from the outside in. -/
theorem textures_owned_nested :
    ∃ tr s, Run (Guarded step Clear) init tr s ∧ s.destroyed = [2, 1, 0] ∧ Kept tr s := by
  obtain ⟨tr, s, hrun, hdestroyed⟩ := exists_run_of_guarded_exec step Clear init
    (fun _ s => s.destroyed = [2, 1, 0])
    [.newTop 0 0 64 32 1 4096, .newSub 0 8 8 16 16, .newSub 1 4 4 8 8, .destroy 0, .destroy 1,
      .destroy 2] (by decide +kernel)
  exact ⟨tr, s, hrun, hdestroyed, textures_owned hrun⟩

theorem Kept.not_of_mem {a : Event × Deleted} (ha : a ∈ tr) (hne : a.2 ≠ owned s.surfaces a.1) :
    ¬Kept tr s :=
  fun hk => hne (hk.deleted a ha)

/-- A sub-surface that is destroyed takes the texture of its parent; when the name was given again
    after its parent was destroyed, that of another window; and the buffer of a window without lines
    is not freed. -/
theorem textures_stolen :
    (∃ tr s, Run (Step step) init tr s ∧ 0 ∉ s.destroyed ∧ s.textures 1 = none ∧ ¬Kept tr s) ∧
      (∃ tr s, Run (Step step) init tr s ∧ (.destroy 1, ⟨[2], []⟩) ∈ tr ∧ ¬Kept tr s) ∧
      ∃ tr s, Run (Step step) init tr s ∧ (.destroy 0, ⟨[0], []⟩) ∈ tr ∧ ¬Kept tr s := by
  refine ⟨?_, ?_, ?_⟩
  · obtain ⟨tr, s, hrun, hlive, hname, hmem, hne⟩ := exists_run_of_exec step init
      (fun tr s => 0 ∉ s.destroyed ∧ s.textures 1 = none ∧ (.destroy 1, ⟨[0], []⟩) ∈ tr ∧
        ⟨[0], []⟩ ≠ owned s.surfaces (.destroy 1))
      [.newTop 0 0 64 32 1 4096, .newSub 0 8 8 16 16, .destroy 1] (by decide +kernel)
    exact ⟨tr, s, hrun, hlive, hname, Kept.not_of_mem hmem hne⟩
  · obtain ⟨tr, s, hrun, hmem, hne⟩ := exists_run_of_exec step init
      (fun tr s => (.destroy 1, ⟨[2], []⟩) ∈ tr ∧ ⟨[2], []⟩ ≠ owned s.surfaces (.destroy 1))
      [.newTop 0 0 64 32 1 4096, .newSub 0 8 8 16 16, .destroy 0, .newTop 0 0 64 32 1 4096,
        .destroy 1] (by decide +kernel)
    exact ⟨tr, s, hrun, hmem, Kept.not_of_mem hmem hne⟩
  · obtain ⟨tr, s, hrun, hmem, hne⟩ := exists_run_of_exec step init
      (fun tr s => (.destroy 0, ⟨[0], []⟩) ∈ tr ∧ ⟨[0], []⟩ ≠ owned s.surfaces (.destroy 0))
      [.newTop 0 0 64 0 1 4096, .destroy 0] (by decide +kernel)
    exact ⟨tr, s, hrun, hmem, Kept.not_of_mem hmem hne⟩

end Mediabox.OpenglSurface
