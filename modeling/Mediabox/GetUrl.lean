import Mathlib.Data.List.Basic

/-!
# Downloading to memory (`src/lib/url_util.c`)

`avbox_net_geturl` collects what curl delivers in a buffer that a callback enlarges for every chunk.

* `curl_easy_perform` hands over the chunks in order and stops with an error when the callback does
  not return the length of the chunk.  A chunk may be empty, as that of an empty file is.
* The bytes that are allocated and not written are `none`.  A buffer that no pointer is left to is
  lost.

Main result: `geturl_bounded_iff`.
-/

set_option autoImplicit false

namespace Mediabox.GetUrl

/-! ## The code -/

abbrev Bytes := List (Option UInt8)

/-- `struct MemoryStruct`, and the buffers that were freed and lost.  `memory` is the first `size`
    bytes of the buffer; a NUL comes after them. -/
structure MemoryStruct where
  memory : Option Bytes
  size : Nat
  limit : Nat
  freed : Nat
  lost : Nat
  deriving DecidableEq, Repr

/-- A chunk, and whether `realloc` succeeds for it. -/
structure Arrival where
  contents : List UInt8
  realloc : Bool
  deriving DecidableEq, Repr

/-- `WriteMemoryCallback` -/
def writeMemoryCallback (mem : MemoryStruct) (a : Arrival) : MemoryStruct × Nat :=
  let realsize := a.contents.length
  if !a.realloc then
    ({ mem with memory := none, lost := mem.lost + if mem.memory.isSome then 1 else 0 }, 0)
  else
    let memory := mem.memory.getD (List.replicate mem.size none)
    ({ mem with
      memory := some (memory ++ a.contents.map some)
      size := mem.size + realsize }, realsize)

/-- `curl_easy_perform`, and whether all chunks were accepted. -/
def perform : MemoryStruct → List Arrival → MemoryStruct × Bool
  | mem, [] => (mem, true)
  | mem, a :: arrivals =>
    let (mem, n) := writeMemoryCallback mem a
    if n = a.contents.length then perform mem arrivals else (mem, false)

/-- What the function meets outside. -/
structure Env where
  malloc : Bool
  /-- `curl_easy_init` -/
  session : Bool
  arrivals : List Arrival
  /-- there is no other error of curl -/
  completed : Bool
  deriving DecidableEq, Repr

/-- What the function leaves; `none` is a `*dest` that was not written. -/
structure Result where
  ret : Int
  dest : Option (Option Bytes)
  size : Nat
  freed : Nat
  lost : Nat
  deriving DecidableEq, Repr

/-- `free` -/
def free (mem : MemoryStruct) : MemoryStruct :=
  { mem with memory := none, freed := mem.freed + if mem.memory.isSome then 1 else 0 }

/-- `avbox_net_geturl` -/
def geturl (env : Env) (size : Nat) : Result :=
  let limit := if size > 0 then size else 0
  if !env.malloc then ⟨-1, none, size, 0, 0⟩
  else
    let chunk : MemoryStruct := ⟨some [], 0, limit, 0, 0⟩
    if !env.session then
      let chunk := free chunk
      ⟨-1, none, size, chunk.freed, chunk.lost⟩
    else
      let (chunk, accepted) := perform chunk env.arrivals
      if !(accepted && env.completed) then
        let chunk := free chunk
        ⟨-1, none, size, chunk.freed, chunk.lost⟩
      else ⟨0, some chunk.memory, chunk.size, chunk.freed, chunk.lost⟩

/-! ## What it is for -/

/-- The chunks together. -/
def content (arrivals : List Arrival) : List UInt8 := arrivals.flatMap Arrival.contents

structure Bounded (env : Env) (size : Nat) (r : Result) : Prop where
  ret : r.ret = 0 ∨ r.ret = -1
  dest : r.ret = 0 → r.dest = some (some ((content env.arrivals).map some))
  length : r.ret = 0 → r.size = (content env.arrivals).length
  limit : r.ret = 0 → 0 < size → r.size ≤ size
  unchanged : r.ret = -1 → r.dest = none ∧ r.size = size
  /-- the buffer, if there was one, is freed once -/
  freed : r.ret = -1 → env.malloc = true → r.freed = 1 ∧ r.lost = 0

/-- Where `realloc` fails, nothing has arrived yet, and it succeeds for a later chunk. -/
def Harmless : List Arrival → Prop
  | [] => True
  | a :: arrivals =>
    if a.contents = [] then
      (a.realloc = true ∨ ∃ b ∈ arrivals, b.realloc = true) ∧ Harmless arrivals
    else ∀ b ∈ a :: arrivals, b.realloc = true

/-- Every chunk gets its memory or is empty, so that the callback returns its length. -/
def Accepted (arrivals : List Arrival) : Prop :=
  ∀ a ∈ arrivals, a.realloc = true ∨ a.contents = []

/-- A download that completes does not lose what has arrived and is within the limit, and memory is
    not exhausted in one that does not. -/
def Granted (env : Env) (size : Nat) : Prop :=
  env.malloc = true → env.session = true →
    (env.completed = true ∧ Accepted env.arrivals →
      Harmless env.arrivals ∧ (size = 0 ∨ (content env.arrivals).length ≤ size)) ∧
    (¬(env.completed = true ∧ Accepted env.arrivals) → ∀ a ∈ env.arrivals, a.realloc = true)

variable {mem : MemoryStruct} {arrivals : List Arrival} {bytes : List UInt8}

/-! ## The buffer -/

/-- The buffer holds these bytes. -/
def Holds (mem : MemoryStruct) (bytes : List UInt8) : Prop :=
  mem.memory = some (bytes.map some) ∧ mem.size = bytes.length

/-- Bytes that have arrived are lost. -/
def Spoilt (mem : MemoryStruct) : Prop :=
  0 < mem.size ∧ ∀ memory, mem.memory = some memory → memory.head? = some none

theorem Spoilt.not_holds (h : Spoilt mem) (bytes : List UInt8) : ¬Holds mem bytes := by
  rintro ⟨hmem, hsize⟩
  have hhead := h.2 _ hmem
  cases bytes with
  | nil | cons b bytes => exact nomatch hhead

/-- **Lost bytes** do not come back. -/
theorem Spoilt.perform (h : Spoilt mem) (arrivals : List Arrival) :
    Spoilt (perform mem arrivals).1 := by
  induction arrivals generalizing mem with
  | nil => exact h
  | cons a arrivals ih =>
    have hnext : Spoilt (writeMemoryCallback mem a).1 := by
      unfold writeMemoryCallback
      split
      · exact ⟨h.1, nofun⟩
      · refine ⟨Nat.lt_of_lt_of_le h.1 (Nat.le_add_right ..), ?_⟩
        rintro _ ⟨⟩
        cases hmem : mem.memory with
        | none =>
          obtain ⟨n, hn⟩ := Nat.exists_eq_succ_of_ne_zero (Nat.ne_of_gt h.1)
          simp [hn, List.replicate_succ]
        | some memory =>
          have hhead := h.2 memory hmem
          cases memory with
          | nil => exact nomatch hhead
          | cons b memory => exact hhead
    unfold GetUrl.perform
    dsimp only
    split
    · exact ih hnext
    · exact hnext

/-- Nothing has arrived yet, and the buffer may be lost already. -/
def Blank (mem : MemoryStruct) : Prop :=
  mem.size = 0 ∧ (mem.memory = none ∨ mem.memory = some [])

/-! ## The callback -/

theorem perform_ok {a : Arrival} (ha : a.realloc = true) :
    perform mem (a :: arrivals) = perform { mem with
      memory := some (mem.memory.getD (List.replicate mem.size none) ++ a.contents.map some)
      size := mem.size + a.contents.length } arrivals := by
  simp only [perform, writeMemoryCallback, ha, Bool.not_true, Bool.false_eq_true, if_false, if_true]

theorem perform_failed {a : Arrival} (ha : a.realloc = false) :
    perform mem (a :: arrivals) =
      let mem := { mem with
        memory := none
        lost := mem.lost + if mem.memory.isSome then 1 else 0 }
      if a.contents = [] then perform mem arrivals else (mem, false) := by
  simp only [perform, writeMemoryCallback, ha, Bool.not_false, if_true, eq_comm (a := 0),
    List.length_eq_zero_iff]

/-- **The chunks are accepted** when each gets its memory or is empty. -/
theorem accepted_iff : (perform mem arrivals).2 = true ↔ Accepted arrivals := by
  induction arrivals generalizing mem with
  | nil => exact iff_of_true rfl nofun
  | cons a arrivals ih =>
    rw [Accepted, List.forall_mem_cons]
    cases ha : a.realloc with
    | true =>
      rw [perform_ok ha, ih]
      exact (and_iff_right (.inl rfl)).symm
    | false =>
      rw [perform_failed ha]
      dsimp only
      split
      · rename_i hempty
        rw [ih]
        exact (and_iff_right (.inr hempty)).symm
      · rename_i hempty
        exact iff_of_false nofun fun h => h.1.elim nofun hempty

/-- **Memory is not exhausted**: the chunks are collected, and nothing is lost. -/
theorem Holds.perform (h : Holds mem bytes) (hok : ∀ a ∈ arrivals, a.realloc = true) :
    Holds (perform mem arrivals).1 (bytes ++ content arrivals) := by
  induction arrivals generalizing mem bytes with
  | nil =>
    rw [content, List.flatMap_nil, List.append_nil]
    exact h
  | cons a arrivals ih =>
    rw [List.forall_mem_cons] at hok
    rw [perform_ok hok.1, content, List.flatMap_cons, ← List.append_assoc]
    refine ih ⟨?_, ?_⟩ hok.2
    · rw [h.1, Option.getD_some, List.map_append]
    · rw [h.2, List.length_append]

theorem freed_perform : (perform mem arrivals).1.freed = mem.freed := by
  induction arrivals generalizing mem with
  | nil => rfl
  | cons a arrivals ih =>
    cases ha : a.realloc with
    | true =>
      rw [perform_ok ha, ih]
    | false =>
      rw [perform_failed ha]
      dsimp only
      split
      · exact ih
      · rfl

theorem lost_le_perform : mem.lost ≤ (perform mem arrivals).1.lost := by
  induction arrivals generalizing mem with
  | nil => exact Nat.le_refl _
  | cons a arrivals ih =>
    cases ha : a.realloc with
    | true =>
      rw [perform_ok ha]
      refine Nat.le_trans ?_ ih
      exact Nat.le_refl _
    | false =>
      rw [perform_failed ha]
      dsimp only
      split
      · refine Nat.le_trans ?_ ih
        exact Nat.le_add_right ..
      · exact Nat.le_add_right ..

/-- **The buffer is lost** when `realloc` fails. -/
theorem lost_perform_iff (h : mem.memory.isSome) :
    (perform mem arrivals).1.lost = mem.lost ↔ ∀ a ∈ arrivals, a.realloc = true := by
  induction arrivals generalizing mem with
  | nil => exact iff_of_true rfl nofun
  | cons a arrivals ih =>
    rw [List.forall_mem_cons]
    cases ha : a.realloc with
    | true =>
      rw [perform_ok ha, ih rfl]
      exact (and_iff_right rfl).symm
    | false =>
      rw [perform_failed ha, if_pos h]
      refine iff_of_false ?_ fun h => nomatch h.1
      dsimp only
      split
      · refine Nat.ne_of_gt (Nat.lt_of_lt_of_le ?_ lost_le_perform)
        exact Nat.lt_succ_self _
      · exact Nat.ne_of_gt (Nat.lt_succ_self _)

/-! ## What is left of the chunks -/

/-- **After the first byte** every `realloc` that fails is fatal. -/
theorem Holds.perform_iff (h : Holds mem bytes) (hbytes : bytes ≠ []) (hacc : Accepted arrivals) :
    Holds (GetUrl.perform mem arrivals).1 (bytes ++ content arrivals) ↔
      ∀ a ∈ arrivals, a.realloc = true := by
  refine ⟨fun hend a ha => ?_, h.perform⟩
  induction arrivals generalizing mem bytes with
  | nil => exact nomatch ha
  | cons b arrivals ih =>
    rw [Accepted, List.forall_mem_cons] at hacc
    cases hb : b.realloc with
    | true =>
      rw [perform_ok hb, content, List.flatMap_cons, ← List.append_assoc] at hend
      rcases List.mem_cons.mp ha with rfl | ha
      · exact hb
      · refine ih ⟨?_, ?_⟩ (List.append_ne_nil_of_left_ne_nil hbytes _) hacc.2 hend ha
        · rw [h.1, Option.getD_some, List.map_append]
        · rw [h.2, List.length_append]
    | false =>
      have hempty : b.contents = [] := hacc.1.resolve_left (by simp [hb])
      rw [perform_failed hb] at hend
      dsimp only at hend
      rw [if_pos hempty] at hend
      have hspoilt : Spoilt { mem with
          memory := none
          lost := mem.lost + if mem.memory.isSome then 1 else 0 } :=
        ⟨h.2 ▸ List.length_pos_iff.mpr hbytes, nofun⟩
      exact absurd hend ((hspoilt.perform arrivals).not_holds _)

/-- **Before the first byte** a `realloc` may fail, if another one follows. -/
theorem Blank.perform_iff (h : Blank mem) (hacc : Accepted arrivals) :
    Holds (perform mem arrivals).1 (content arrivals) ↔
      Harmless arrivals ∧ (mem.memory = none → ∃ a ∈ arrivals, a.realloc = true) := by
  induction arrivals generalizing mem with
  | nil =>
    refine ⟨fun hend => ⟨trivial, fun hnone => nomatch hnone.symm.trans hend.1⟩, fun hend => ?_⟩
    rcases h.2 with hnone | hsome
    · obtain ⟨a, ha, -⟩ := hend.2 hnone
      exact nomatch ha
    · exact ⟨hsome, h.1⟩
  | cons a arrivals ih =>
    rw [Accepted, List.forall_mem_cons] at hacc
    have hdefault : mem.memory.getD (List.replicate mem.size none) = [] := by
      rcases h.2 with hnone | hsome
      · rw [hnone, Option.getD_none, h.1, List.replicate_zero]
      · rw [hsome, Option.getD_some]
    rw [content, List.flatMap_cons, Harmless]
    cases ha : a.realloc with
    | true =>
      rw [perform_ok ha, hdefault, h.1, List.nil_append, Nat.zero_add]
      split
      · rename_i hempty
        rw [hempty, List.nil_append]
        refine (ih ⟨rfl, .inr rfl⟩ hacc.2).trans ⟨fun hend => ?_, fun hend => ⟨hend.1.2, nofun⟩⟩
        exact ⟨⟨.inl rfl, hend.1⟩, fun _ => ⟨a, List.mem_cons_self .., ha⟩⟩
      · rename_i hempty
        rw [List.forall_mem_cons]
        have hholds : Holds { mem with
            memory := some (a.contents.map some)
            size := a.contents.length } a.contents := ⟨rfl, rfl⟩
        refine (hholds.perform_iff hempty hacc.2).trans
          ⟨fun hend => ⟨⟨ha, hend⟩, fun _ => ⟨a, List.mem_cons_self .., ha⟩⟩, fun hend => hend.1.2⟩
    | false =>
      have hempty : a.contents = [] := hacc.1.resolve_left (by simp [ha])
      rw [perform_failed ha, if_pos hempty, if_pos hempty, hempty, List.nil_append]
      have hblank : Blank { mem with
          memory := none
          lost := mem.lost + if mem.memory.isSome then 1 else 0 } := ⟨h.1, .inl rfl⟩
      refine (ih hblank hacc.2).trans ⟨fun hend => ?_, fun hend => ?_⟩
      · obtain ⟨b, hb, hok⟩ := hend.2 rfl
        exact ⟨⟨.inr ⟨b, hb, hok⟩, hend.1⟩, fun _ => ⟨b, List.mem_cons_of_mem _ hb, hok⟩⟩
      · exact ⟨hend.1.2, fun _ => hend.1.1.resolve_left nofun⟩

/-- What `perform` makes of the empty buffer. -/
structure Performed (arrivals : List Arrival) (r : MemoryStruct × Bool) : Prop where
  accepted : r.2 = true ↔ Accepted arrivals
  freed : r.1.freed = 0
  lost : r.1.lost = 0 ↔ ∀ a ∈ arrivals, a.realloc = true
  kept : (∀ a ∈ arrivals, a.realloc = true) → r.1.memory.isSome = true
  holds : Accepted arrivals → (Holds r.1 (content arrivals) ↔ Harmless arrivals)

theorem performed (limit : Nat) (arrivals : List Arrival) :
    Performed arrivals (perform ⟨some [], 0, limit, 0, 0⟩ arrivals) where
  accepted := accepted_iff
  freed := freed_perform
  lost := lost_perform_iff rfl
  kept hok := by
    have hend : Holds (perform ⟨some [], 0, limit, 0, 0⟩ arrivals).1 ([] ++ content arrivals) :=
      Holds.perform ⟨rfl, rfl⟩ hok
    rw [hend.1, Option.isSome_some]
  holds hacc := by
    have hblank : Blank ⟨some [], 0, limit, 0, 0⟩ := ⟨rfl, .inr rfl⟩
    exact (hblank.perform_iff hacc).trans (and_iff_left nofun)

variable {env : Env} {size : Nat} {r : MemoryStruct × Bool}

/-- A download that completes. -/
theorem Performed.completed_iff (hr : Performed env.arrivals r) (hacc : Accepted env.arrivals) :
    Bounded env size ⟨0, some r.1.memory, r.1.size, r.1.freed, r.1.lost⟩ ↔
      Harmless env.arrivals ∧ (size = 0 ∨ (content env.arrivals).length ≤ size) := by
  rw [← hr.holds hacc]
  constructor
  · intro h
    have hmem : some r.1.memory = some (some ((content env.arrivals).map some)) := h.dest rfl
    have hlen : r.1.size = (content env.arrivals).length := h.length rfl
    refine ⟨⟨Option.some.inj hmem, hlen⟩, ?_⟩
    by_cases hsize : size = 0
    · exact .inl hsize
    · exact .inr (hlen ▸ h.limit rfl (Nat.pos_of_ne_zero hsize))
  · rintro ⟨hholds, hlimit⟩
    refine ⟨.inl rfl, fun _ => congrArg some hholds.1, fun _ => hholds.2, fun _ hsize => ?_,
      nofun, nofun⟩
    exact hholds.2.symm ▸ hlimit.resolve_left (Nat.ne_of_gt hsize)

theorem Performed.failed_iff (hr : Performed env.arrivals r) (hmalloc : env.malloc = true) :
    Bounded env size ⟨-1, none, size, (free r.1).freed, (free r.1).lost⟩ ↔
      ∀ a ∈ env.arrivals, a.realloc = true := by
  constructor
  · intro h
    exact hr.lost.mp (h.freed rfl hmalloc).2
  · intro hok
    refine ⟨.inr rfl, nofun, nofun, nofun, fun _ => ⟨rfl, rfl⟩, fun _ _ => ⟨?_, ?_⟩⟩
    · simp only [free, hr.freed, hr.kept hok, if_true]
    · exact hr.lost.mpr hok

/-- **Downloads**: a download ends as it is meant to if and only if one that completes has lost
    nothing and is within the limit, and memory is not exhausted in one that does not. -/
theorem geturl_bounded_iff (env : Env) (size : Nat) :
    Bounded env size (geturl env size) ↔ Granted env size := by
  unfold Granted geturl
  cases hmalloc : env.malloc with
  | false =>
    exact iff_of_true ⟨.inr rfl, nofun, nofun, nofun, fun _ => ⟨rfl, rfl⟩, fun _ h =>
      nomatch hmalloc.symm.trans h⟩ nofun
  | true =>
    cases hsession : env.session with
    | false =>
      exact iff_of_true ⟨.inr rfl, nofun, nofun, nofun, fun _ => ⟨rfl, rfl⟩, fun _ _ => ⟨rfl, rfl⟩⟩
        fun _ => nofun
    | true =>
      simp only [Bool.not_true, Bool.false_eq_true, if_false, forall_const]
      have hr : Performed env.arrivals _ := performed (if size > 0 then size else 0) env.arrivals
      generalize perform _ env.arrivals = r at hr
      by_cases hdone : env.completed = true ∧ Accepted env.arrivals
      · rw [if_neg (by simp [hdone.1, hr.accepted.mpr hdone.2])]
        refine (hr.completed_iff hdone.2).trans ⟨fun h => ?_, fun h => h.1 hdone⟩
        exact ⟨fun _ => h, fun hnot => absurd hdone hnot⟩
      · have hnot : (r.2 && env.completed) = false := by
          rw [← Bool.not_eq_true, Bool.and_eq_true, hr.accepted, and_comm]
          exact hdone
        rw [if_pos (by rw [hnot]; rfl)]
        refine (hr.failed_iff hmalloc).trans ⟨fun h => ?_, fun h => h.2 hdone⟩
        exact ⟨fun hyes => absurd hyes hdone, fun _ => h⟩

/-- Three bytes are delivered although the limit is two, and the only buffer is lost when there is
    no memory for the second byte. -/
theorem unbounded_download :
    (geturl ⟨true, true, [⟨[1, 2, 3], true⟩], true⟩ 2 =
        ⟨0, some (some [some 1, some 2, some 3]), 3, 0, 0⟩ ∧
      ¬Bounded ⟨true, true, [⟨[1, 2, 3], true⟩], true⟩ 2
        (geturl ⟨true, true, [⟨[1, 2, 3], true⟩], true⟩ 2)) ∧
      geturl ⟨true, true, [⟨[1], true⟩, ⟨[2], false⟩], true⟩ 0 = ⟨-1, none, 0, 0, 1⟩ ∧
      ¬Bounded ⟨true, true, [⟨[1], true⟩, ⟨[2], false⟩], true⟩ 0
        (geturl ⟨true, true, [⟨[1], true⟩, ⟨[2], false⟩], true⟩ 0) := by
  refine ⟨⟨by decide, fun h => ?_⟩, by decide, fun h => ?_⟩
  · exact absurd (h.limit (by decide) (by decide)) (by decide)
  · exact absurd (h.freed (by decide) rfl).1 (by decide)

end Mediabox.GetUrl
