import Mediabox.Queue
import Mediabox.Lib.Ownership

/-!
# The queue is a FIFO and owns its nodes, under every interleaving

Principal results, for every number of threads and every order of their critical sections:

* `step_effect` — what one section can do: nothing to the nodes (`keep`), or move exactly one
  node between the item list, the pool and the hands of a thread inside `avbox_queue_put`.
* `Inv` / `run_inv` — the node lists are duplicate free and disjoint, every allocated node is
  accounted for, `cnt` is the length of the item list and stays within the limit, and the values
  put so far are the values got so far followed by the values still queued.
* `queue_run_safe` — the contract of the queue along whole runs.
-/

set_option autoImplicit false

namespace Mediabox.Queue

open Transition Ownership

variable {τ α : Type*}

/-- The nodes in the hands of the threads. -/
def State.hands (s : State τ α) : τ → Option NodeId := fun t => (s.pc t).node?

/-- The queued values, oldest first. -/
def State.queued (s : State τ α) : List (Option α) := (s.q.items.map s.value).reverse

/-- Values whose put succeeded, in put order. -/
def puts (tr : List (Event τ α × Outcome α)) : List α :=
  tr.filterMap fun a => match a.2 with
    | .putOk item => some item
    | _ => none

/-- Values returned by successful gets, in order. -/
def gets (tr : List (Event τ α × Outcome α)) : List α :=
  tr.filterMap fun a => match a.2 with
    | .got value => some value
    | _ => none

/-- The event is a section of `avbox_queue_put`. -/
def Event.isPut : Event τ α → Bool
  | .put .. | .putLock _ | .putWake _ => true
  | _ => false

/-- An outcome that reports no dequeued and no enqueued value. -/
def Outcome.quiet : Outcome α → Bool
  | .putOk _ | .got _ => false
  | _ => true

/-! ## The invariant -/

/-- The run invariant of a queue created with limit `sz`. -/
structure Inv (sz : Nat) (tr : List (Event τ α × Outcome α)) (s : State τ α) : Prop where
  sz_eq : s.q.sz = sz
  cnt_eq : s.q.cnt = s.q.items.length
  cnt_le : 0 < sz → s.q.cnt ≤ sz
  owned : Owned (s.q.items ++ s.q.nodesPool) s.allocated s.hands
  fifo : (puts tr).map some = (gets tr).map some ++ s.queued

/-- Node `n` is in exactly one of the item list, the pool and the hands of one put. -/
def State.InOnePlace (s : State τ α) (n : NodeId) : Prop :=
  (s.q.items.count n = 1 ∧ n ∉ s.q.nodesPool ∧ ∀ t, s.hands t ≠ some n) ∨
  (n ∉ s.q.items ∧ s.q.nodesPool.count n = 1 ∧ ∀ t, s.hands t ≠ some n) ∨
  (n ∉ s.q.items ∧ n ∉ s.q.nodesPool ∧ ∃! t, s.hands t = some n)

theorem quiet_labels (tr : List (Event τ α × Outcome α)) (e : Event τ α) {o : Outcome α}
    (h : o.quiet = true) : puts (tr ++ [(e, o)]) = puts tr ∧ gets (tr ++ [(e, o)]) = gets tr := by
  cases o <;> simp_all [puts, gets, Outcome.quiet]

theorem putOk_labels (tr : List (Event τ α × Outcome α)) (e : Event τ α) (item : α) :
    puts (tr ++ [(e, Outcome.putOk item)]) = puts tr ++ [item] ∧
      gets (tr ++ [(e, Outcome.putOk item)]) = gets tr := by
  simp [puts, gets]

theorem got_labels (tr : List (Event τ α × Outcome α)) (e : Event τ α) (v : α) :
    puts (tr ++ [(e, Outcome.got v)]) = puts tr ∧ gets (tr ++ [(e, Outcome.got v)]) = gets tr ++ [v] := by
  simp [puts, gets]

/-- The queued values only depend on the item list and on the memory of its nodes. -/
theorem queued_congr {s s' : State τ α} (hi : s'.q.items = s.q.items) (hv : s'.value = s.value) :
    s'.queued = s.queued := by
  simp [State.queued, hi, hv]

/-- Writing the value of a node outside of the item list changes no queued value. -/
theorem queued_enqueue {s s' : State τ α} {node : NodeId} {item : α}
    (hi : s'.q.items = node :: s.q.items) (hn : node ∉ s.q.items)
    (hv : s'.value = Function.update s.value node (some item)) :
    s'.queued = s.queued ++ [some item] := by
  have hmap : s.q.items.map (Function.update s.value node (some item)) =
      s.q.items.map s.value := by
    refine List.map_congr_left fun x hx => Function.update_of_ne ?_ _ _
    rintro rfl
    exact hn hx
  simp [State.queued, hi, hv, hmap]

/-- The tail of the item list holds the oldest value. -/
theorem queued_dequeue {s s' : State τ α} {node : NodeId} {l : List NodeId} {v : α}
    (hl : s.q.items = l ++ [node]) (hi : s'.q.items = l) (hval : s.value node = some v)
    (hv : s'.value = s.value) : s.queued = some v :: s'.queued := by
  simp [State.queued, hl, hi, hv, hval]

theorem foldl_preallocate (ms : List (Option NodeId)) (pool : List NodeId) :
    ms.foldl (fun pool m => m.elim pool (listAdd pool)) pool =
      (ms.filterMap id).reverse ++ pool := by
  induction ms generalizing pool with
  | nil => rfl
  | cons m ms ih =>
      cases m with
      | none => simpa using ih pool
      | some n => simpa [listAdd] using ih (n :: pool)

theorem init_inv (sz : Nat) (mallocs : List (Option NodeId)) (hm : (mallocs.filterMap id).Nodup) :
    Inv sz [] (init τ α sz mallocs) := by
  have hnd : (preallocate (mallocs.take sz)).Nodup := by
    unfold preallocate
    rw [foldl_preallocate, List.append_nil, List.nodup_reverse]
    exact hm.sublist ((List.take_sublist sz mallocs).filterMap id)
  refine ⟨rfl, rfl, fun _ => Nat.zero_le _, ⟨hnd, fun _ hx => hx, ?_, ?_, ?_⟩, rfl⟩
  · intro t x hx; cases hx
  · intro t u x hx; cases hx
  · intro x hx; exact Or.inl hx

theorem Inv.inOnePlace {sz : Nat} {tr : List (Event τ α × Outcome α)} {s : State τ α}
    (hinv : Inv sz tr s) {n : NodeId} (hn : n ∈ s.allocated) : s.InOnePlace n := by
  obtain ⟨hi, hp, hdisj⟩ := List.nodup_append.mp hinv.owned.nodup
  have hhand : n ∈ s.q.items ++ s.q.nodesPool → ∀ t, s.hands t ≠ some n :=
    fun hm t ht => (hinv.owned.hand_mem t n ht).2 hm
  rcases hinv.owned.cover n hn with hl | ⟨t, ht⟩
  · rcases List.mem_append.mp hl with hm | hm
    · exact Or.inl ⟨List.count_eq_one_of_mem hi hm, fun hm' => hdisj n hm n hm' rfl, hhand hl⟩
    · exact Or.inr (Or.inl
        ⟨fun hm' => hdisj n hm' n hm rfl, List.count_eq_one_of_mem hp hm, hhand hl⟩)
  · have hnot := (hinv.owned.hand_mem t n ht).2
    exact Or.inr (Or.inr ⟨fun hm => hnot (List.mem_append_left _ hm),
      fun hm => hnot (List.mem_append_right _ hm), t, ht,
      fun u hu => hinv.owned.hand_inj u t n hu ht⟩)

/-! ## What one section does -/

variable [DecidableEq τ]

/-- What a section of thread `t` does to the nodes, the counter and the node memory. -/
inductive Effect (s s' : State τ α) (t : τ) : Outcome α → Prop
  /-- Nothing moves. -/
  | keep {o : Outcome α} (hsz : s'.q.sz = s.q.sz) (hq : s'.q.items = s.q.items ∧
      s'.q.nodesPool = s.q.nodesPool ∧ s'.q.cnt = s.q.cnt) (hv : s'.value = s.value)
    (ha : s'.allocated = s.allocated)
      (hh : s'.hands = s.hands) (ho : o.quiet = true) : Effect s s' t o
  /-- `acquire_node` takes the tail of the pool. -/
  | acquire {node : NodeId} (hsz : s'.q.sz = s.q.sz)
      (hq : s'.q.items = s.q.items ∧ s'.q.cnt = s.q.cnt)
      (hp : ∃ l, s.q.nodesPool = l ++ [node]) (hp' : s'.q.nodesPool = listRemove s.q.nodesPool node)
      (hv : s'.value = s.value) (ht : s.hands t = none)
      (ha : s'.allocated = if node ∈ s.allocated then s.allocated else node :: s.allocated)
      (hh : s'.hands = Function.update s.hands t (some node)) : Effect s s' t .pending
  /-- `acquire_node` obtains a new node. -/
  | malloc {node : NodeId} (hsz : s'.q.sz = s.q.sz) (hq : s'.q.items = s.q.items ∧
      s'.q.nodesPool = s.q.nodesPool ∧ s'.q.cnt = s.q.cnt) (hn : node ∉ s.allocated)
    (hv : s'.value = s.value)
      (ht : s.hands t = none) (ha : s'.allocated = node :: s.allocated)
      (hh : s'.hands = Function.update s.hands t (some node)) : Effect s s' t .pending
  /-- A failed put returns its node to the pool. -/
  | release {node : NodeId} {errno : Errno} (hsz : s'.q.sz = s.q.sz)
      (hq : s'.q.items = s.q.items ∧ s'.q.cnt = s.q.cnt)
      (hp : s'.q.nodesPool = node :: s.q.nodesPool) (hv : s'.value = s.value)
      (ha : s'.allocated = s.allocated) (ht : s.hands t = some node)
      (hh : s'.hands = Function.update s.hands t none) : Effect s s' t (.putErr errno)
  /-- A successful put. -/
  | enqueue {node : NodeId} {item : α} (hsz : s'.q.sz = s.q.sz)
      (hq : s'.q.items = node :: s.q.items ∧ s'.q.nodesPool = s.q.nodesPool ∧ s'.q.cnt = s.q.cnt + 1)
      (hroom : 0 < s.q.sz → s.q.cnt < s.q.sz)
      (hv : s'.value = Function.update s.value node (some item))
      (ha : s'.allocated = s.allocated) (ht : s.hands t = some node)
      (hh : s'.hands = Function.update s.hands t none) : Effect s s' t (.putOk item)
  /-- A successful get. -/
  | dequeue {node : NodeId} {v : α} (hsz : s'.q.sz = s.q.sz) (hi : ∃ l, s.q.items = l ++ [node])
      (hq : s'.q.items = listRemove s.q.items node ∧ s'.q.nodesPool = node :: s.q.nodesPool ∧
        s'.q.cnt = s.q.cnt - 1) (hval : s.value node = some v) (hv : s'.value = s.value)
      (ha : s'.allocated = s.allocated) (hh : s'.hands = s.hands) : Effect s s' t (.got v)

@[simp] theorem goto_q (s : State τ α) (t : τ) (pc : Pc α) (q : AvboxQueue) :
    (s.goto t pc q).q = q := rfl

@[simp] theorem goto_value (s : State τ α) (t : τ) (pc : Pc α) (q : AvboxQueue) :
    (s.goto t pc q).value = s.value := rfl

@[simp] theorem goto_allocated (s : State τ α) (t : τ) (pc : Pc α) (q : AvboxQueue) :
    (s.goto t pc q).allocated = s.allocated := rfl

/-- Moving a thread changes only its own hands. -/
theorem hands_update (pc : τ → Pc α) (t : τ) (p : Pc α) :
    (fun u => (Function.update pc t p u).node?) =
      Function.update (fun u => (pc u).node?) t p.node? := by
  funext u
  by_cases h : u = t
  · subst h; simp
  · simp [Function.update_of_ne h]

theorem goto_hands (s : State τ α) (t : τ) (pc : Pc α) (q : AvboxQueue) :
    (s.goto t pc q).hands = Function.update s.hands t pc.node? := hands_update s.pc t pc

theorem goto_hands_same {s : State τ α} {t : τ} {pc : Pc α} (q : AvboxQueue)
    (h : pc.node? = (s.pc t).node?) : (s.goto t pc q).hands = s.hands := by
  rw [goto_hands, h]
  exact Function.update_eq_self t s.hands

theorem getnode_node {q : AvboxQueue} {block : Bool} {node : NodeId}
    (h : getnode q block = .node node) : ∃ l, q.items = l ++ [node] := by
  unfold getnode at h
  split at h
  · rename_i n hn
    cases h
    exact listTail_eq_some.mp hn
  · split at h
    · cases h
    · split at h <;> cases h

theorem getnodeWoken_node {q : AvboxQueue} {node : NodeId} (h : getnodeWoken q = .node node) :
    ∃ l, q.items = l ++ [node] := by
  unfold getnodeWoken at h
  split at h
  · rename_i n hn
    cases h
    exact listTail_eq_some.mp hn
  · cases h

/-- A section of `avbox_queue_get`, run on the queue of `s` up to `waiters`. -/
theorem getSection_effect {s s' : State τ α} {t : τ} {q : AvboxQueue} {r : GetNode}
    {o : Outcome α} (hsz : q.sz = s.q.sz)
    (hq : q.items = s.q.items ∧ q.nodesPool = s.q.nodesPool ∧ q.cnt = s.q.cnt)
    (hr : ∀ node, r = .node node → ∃ l, s.q.items = l ++ [node]) (ht : (s.pc t).node? = none)
    (h : getSection s t q r = some (s', o)) : Effect s s' t o := by
  unfold getSection at h
  split at h
  · cases h
    exact .keep hsz hq rfl rfl (goto_hands_same _ ht.symm) rfl
  · cases h
    exact .keep hsz hq rfl rfl (goto_hands_same _ ht.symm) rfl
  · rename_i node
    split at h
    · rename_i v hval
      cases h
      refine .dequeue hsz (hr node rfl) ⟨?_, ?_, ?_⟩ hval rfl rfl (goto_hands_same _ ht.symm)
      · simp [dequeue, releaseNode, hq.1]
      · simp [dequeue, releaseNode, listAdd, hq.2.1]
      · simp [dequeue, releaseNode, hq.2.2]
    · cases h

/-- A section of a peek, run on the queue of `s` up to `waiters`. -/
theorem peekSection_effect {s s' : State τ α} {t : τ} {wait : Pc α} {q : AvboxQueue} {r : GetNode}
    {o : Outcome α} (hsz : q.sz = s.q.sz)
    (hq : q.items = s.q.items ∧ q.nodesPool = s.q.nodesPool ∧ q.cnt = s.q.cnt)
    (ht : (s.pc t).node? = none) (hw : wait.node? = none)
    (h : peekSection s t wait q r = some (s', o)) : Effect s s' t o := by
  unfold peekSection at h
  split at h
  · cases h
    exact .keep hsz hq rfl rfl (goto_hands_same _ (hw.trans ht.symm)) rfl
  · cases h
    exact .keep hsz hq rfl rfl (goto_hands_same _ ht.symm) rfl
  · split at h
    · cases h
      exact .keep hsz hq rfl rfl (goto_hands_same _ ht.symm) rfl
    · cases h

/-- The last section of a successful put, run on the queue of `s` up to `waiters`. -/
theorem putSection_effect {s : State τ α} {t : τ} {q : AvboxQueue} {node : NodeId} {item : α}
    (hsz : q.sz = s.q.sz)
    (hq : q.items = s.q.items ∧ q.nodesPool = s.q.nodesPool ∧ q.cnt = s.q.cnt)
    (ht : (s.pc t).node? = some node) (hroom : 0 < s.q.sz → s.q.cnt < s.q.sz) :
    Effect s (putSection s t q node item).1 t (putSection s t q node item).2 := by
  refine .enqueue hsz ⟨?_, hq.2.1, ?_⟩ hroom rfl rfl ht (hands_update s.pc t .idle)
  · simp [putSection, enqueue, listAdd, hq.1]
  · simp [putSection, enqueue, hq.2.2]

/-- **The effect of one critical section.** -/
theorem step_effect {s s' : State τ α} {e : Event τ α} {o : Outcome α}
    (h : step s e = some (s', o)) : ∃ t, Effect s s' t o := by
  cases e with
  | put t item malloc =>
      refine ⟨t, ?_⟩
      simp only [step] at h
      split at h
      · rename_i hpc
        have ht : s.hands t = none := by simp [State.hands, hpc, Pc.node?]
        split at h
        · cases h
        rename_i hfresh
        split at h
        · cases h
          exact .keep rfl ⟨rfl, rfl, rfl⟩ rfl rfl rfl rfl
        · rename_i node q hacq
          cases h
          unfold acquireNode at hacq
          split at hacq
          · rename_i n htail
            cases hacq
            exact .acquire rfl ⟨rfl, rfl⟩ (listTail_eq_some.mp htail) rfl rfl ht rfl
              (hands_update s.pc t _)
          · obtain ⟨n, hn, hq⟩ := Option.map_eq_some_iff.mp hacq
            cases hq
            have hnode : node ∉ s.allocated := by simpa [hn] using hfresh
            exact .malloc rfl ⟨rfl, rfl, rfl⟩ hnode rfl ht (by simp [hnode]) (hands_update s.pc t _)
      · cases h
  | putLock t =>
      refine ⟨t, ?_⟩
      simp only [step] at h
      split at h
      · rename_i node item hpc
        have ht : (s.pc t).node? = some node := by simp [hpc, Pc.node?]
        split at h
        · split at h
          · cases h
            exact .release rfl ⟨rfl, rfl⟩ rfl rfl rfl ht (goto_hands s t .idle _)
          · cases h
            exact .keep rfl ⟨rfl, rfl, rfl⟩ rfl rfl (goto_hands_same _ ht.symm) rfl
        · rename_i hfull
          cases h
          exact putSection_effect rfl ⟨rfl, rfl, rfl⟩ ht (fun hsz => by omega)
      · cases h
  | putWake t =>
      refine ⟨t, ?_⟩
      simp only [step] at h
      split at h
      · rename_i node item hpc
        have ht : (s.pc t).node? = some node := by simp [hpc, Pc.node?]
        split at h
        · cases h
          exact .release rfl ⟨rfl, rfl⟩ rfl rfl rfl ht (goto_hands s t .idle _)
        · rename_i hfull
          cases h
          exact putSection_effect rfl ⟨rfl, rfl, rfl⟩ ht (fun _ => by omega)
      · cases h
  | get t =>
      refine ⟨t, ?_⟩
      simp only [step] at h
      split at h
      · rename_i hpc
        exact getSection_effect rfl ⟨rfl, rfl, rfl⟩ (fun _ hr => getnode_node hr)
          (by simp [hpc, Pc.node?]) h
      · cases h
  | getWake t =>
      refine ⟨t, ?_⟩
      simp only [step] at h
      split at h
      · rename_i hpc
        exact getSection_effect (q := leave s.q) rfl ⟨rfl, rfl, rfl⟩
          (fun _ hr => getnodeWoken_node hr)
          (by simp [hpc, Pc.node?]) h
      · cases h
  | peek t block | timedpeek t timeout =>
      refine ⟨t, ?_⟩
      simp only [step] at h
      split at h
      · rename_i hpc
        exact peekSection_effect rfl ⟨rfl, rfl, rfl⟩ (by simp [hpc, Pc.node?]) rfl h
      · cases h
  | peekWake t | timedpeekWake t =>
      refine ⟨t, ?_⟩
      simp only [step] at h
      split at h
      · rename_i hpc
        exact peekSection_effect (q := leave s.q) rfl ⟨rfl, rfl, rfl⟩ (by simp [hpc, Pc.node?])
          rfl h
      · cases h
  | close t | closeWake t =>
      refine ⟨t, ?_⟩
      simp only [step] at h
      split at h
      · rename_i hpc
        cases h
        exact .keep rfl ⟨rfl, rfl, rfl⟩ rfl rfl (goto_hands_same _ (by simp [hpc, Pc.node?])) rfl
      · cases h

/-! ## Whole runs -/

/-- **Every section preserves the invariant.** -/
theorem step_inv {sz : Nat} {tr : List (Event τ α × Outcome α)} {s s' : State τ α}
    {e : Event τ α} {o : Outcome α} (hinv : Inv sz tr s) (h : step s e = some (s', o)) :
    Inv sz (tr ++ [(e, o)]) s' := by
  obtain ⟨t, heff⟩ := step_effect h
  cases heff with
  | keep hsz hq hv ha hh ho =>
      obtain ⟨hi, hp, hc⟩ := hq
      obtain ⟨hputs, hgets⟩ := quiet_labels tr e ho
      refine ⟨hsz.trans hinv.sz_eq, by rw [hc, hi]; exact hinv.cnt_eq,
        by rw [hc]; exact hinv.cnt_le, by rw [hi, hp, ha, hh]; exact hinv.owned, ?_⟩
      rw [hputs, hgets, queued_congr hi hv]
      exact hinv.fifo
  | @acquire node hsz hq hp hp' hv ht ha hh =>
      obtain ⟨hi, hc⟩ := hq
      obtain ⟨l, hl⟩ := hp
      have hnd : (l ++ [node]).Nodup := hl ▸ (List.nodup_append.mp hinv.owned.nodup).2.1
      have hmem : node ∈ s.allocated := hinv.owned.listed_mem node (by simp [hl])
      obtain ⟨hputs, hgets⟩ := quiet_labels tr e (o := .pending) rfl
      refine ⟨hsz.trans hinv.sz_eq, by rw [hc, hi]; exact hinv.cnt_eq,
        by rw [hc]; exact hinv.cnt_le, ?_, ?_⟩
      · rw [hi, hp', hl, listRemove_tail hnd, ha, if_pos hmem, hh]
        refine hinv.owned.take ?_ ht
        rw [hl, ← List.append_assoc]
        exact List.perm_append_singleton node _
      · rw [hputs, hgets, queued_congr hi hv]
        exact hinv.fifo
  | malloc hsz hq hn hv ht ha hh =>
      obtain ⟨hi, hp, hc⟩ := hq
      obtain ⟨hputs, hgets⟩ := quiet_labels tr e (o := .pending) rfl
      refine ⟨hsz.trans hinv.sz_eq, by rw [hc, hi]; exact hinv.cnt_eq,
        by rw [hc]; exact hinv.cnt_le, by rw [hi, hp, ha, hh]; exact hinv.owned.fresh hn ht, ?_⟩
      rw [hputs, hgets, queued_congr hi hv]
      exact hinv.fifo
  | @release node errno hsz hq hp hv ha ht hh =>
      obtain ⟨hi, hc⟩ := hq
      obtain ⟨hputs, hgets⟩ := quiet_labels tr e (o := .putErr errno) rfl
      refine ⟨hsz.trans hinv.sz_eq, by rw [hc, hi]; exact hinv.cnt_eq,
        by rw [hc]; exact hinv.cnt_le, ?_, ?_⟩
      · rw [hi, hp, ha, hh]
        exact hinv.owned.give List.perm_middle ht
      · rw [hputs, hgets, queued_congr hi hv]
        exact hinv.fifo
  | @enqueue node item hsz hq hroom hv ha ht hh =>
      obtain ⟨hi, hp, hc⟩ := hq
      have hn : node ∉ s.q.items := fun hm =>
        (hinv.owned.hand_mem t node ht).2 (List.mem_append_left _ hm)
      obtain ⟨hputs, hgets⟩ := putOk_labels tr e item
      refine ⟨hsz.trans hinv.sz_eq, by rw [hc, hi, hinv.cnt_eq]; rfl, ?_, ?_, ?_⟩
      · intro hpos
        have := hroom (by rw [hinv.sz_eq]; exact hpos)
        rw [hinv.sz_eq] at this
        omega
      · rw [hi, hp, ha, hh]
        exact hinv.owned.give (List.Perm.refl _) ht
      · rw [hputs, hgets, queued_enqueue hi hn hv, List.map_append, hinv.fifo]
        simp
  | @dequeue node v hsz hl hq hval hv ha hh =>
      obtain ⟨l, hl⟩ := hl
      obtain ⟨hi, hp, hc⟩ := hq
      have hnd : (l ++ [node]).Nodup := hl ▸ (List.nodup_append.mp hinv.owned.nodup).1
      rw [hl, listRemove_tail hnd] at hi
      have hcnt := hinv.cnt_eq
      rw [hl, List.length_append, List.length_singleton] at hcnt
      obtain ⟨hputs, hgets⟩ := got_labels tr e v
      refine ⟨hsz.trans hinv.sz_eq, by rw [hc, hi]; omega,
        fun hpos => by have := hinv.cnt_le hpos; omega, ?_, ?_⟩
      · rw [hi, hp, ha, hh]
        -- the node moves from the end of one list to the head of the other
        have hown := hinv.owned
        rwa [hl, List.append_assoc] at hown
      · rw [hputs, hgets, hinv.fifo, queued_dequeue hl hi hval hv, List.map_append]
        simp

/-- **The invariant holds along every run.** -/
theorem run_inv {sz : Nat} {mallocs : List (Option NodeId)} {tr : List (Event τ α × Outcome α)}
    {s : State τ α} (hm : (mallocs.filterMap id).Nodup)
    (hrun : Run (Step step) (init τ α sz mallocs) tr s) : Inv sz tr s :=
  hrun.history (init_inv sz mallocs hm) fun _ _ _ _ hinv hstep => step_inv hinv hstep

theorem put_unchanged {s s' : State τ α} {e : Event τ α} {o : Outcome α}
    (h : step s e = some (s', o)) (he : e.isPut = true) (ho : ∀ item, o ≠ .putOk item) :
    s'.q.items = s.q.items ∧ s'.q.cnt = s.q.cnt := by
  have hgot : ∀ v, o ≠ .got v := by
    rintro v rfl
    cases e <;> simp only [step, Event.isPut, Bool.false_eq_true] at h he <;> grind [putSection]
  obtain ⟨t, heff⟩ := step_effect h
  cases heff with
  | keep _ hq | malloc _ hq => exact ⟨hq.1, hq.2.2⟩
  | acquire _ hq | release _ hq => exact hq
  | enqueue => exact absurd rfl (ho _)
  | dequeue => exact absurd rfl (hgot _)

/-- **The contract of the queue.**  Along every run of any number of threads over a queue of fixed
    limit `sz`: gets return a prefix of the values put, in put order; `cnt` is the length of the
    item list and respects the limit; the sections of a put that fails leave the item list and
    `cnt` unchanged; and every node ever allocated is in exactly one place. -/
theorem queue_run_safe {sz : Nat} {mallocs : List (Option NodeId)}
    {tr : List (Event τ α × Outcome α)} {s : State τ α} (hm : (mallocs.filterMap id).Nodup)
    (hrun : Run (Step step) (init τ α sz mallocs) tr s) :
    gets tr <+: puts tr ∧ s.q.cnt = s.q.items.length ∧ (0 < sz → s.q.cnt ≤ sz) ∧
    (∀ e o s', step s e = some (s', o) → e.isPut = true → (∀ item, o ≠ .putOk item) →
      s'.q.items = s.q.items ∧ s'.q.cnt = s.q.cnt) ∧
    ∀ n ∈ s.allocated, s.InOnePlace n := by
  have hinv := run_inv hm hrun
  refine ⟨?_, hinv.cnt_eq, hinv.cnt_le, fun e o s' h he ho => put_unchanged h he ho,
    fun n hn => hinv.inOnePlace hn⟩
  -- `some` is injective, so the prefix relation of the images is the one of the values
  have hpre : (gets tr).map some <+: (puts tr).map some := ⟨s.queued, hinv.fifo.symm⟩
  rw [List.prefix_iff_eq_take, List.length_map, ← List.map_take] at hpre
  rw [List.prefix_iff_eq_take]
  exact List.map_injective_iff.mpr (fun _ _ h => Option.some.inj h) hpre

/-- A reader waits for the first of two items; the third one takes the node of the first. -/
theorem queue_run_safe_put_get :
    ∃ (tr : List (Event Nat Nat × Outcome Nat)) (s : State Nat Nat),
      Run (Step step) (init Nat Nat 2 [some 0, some 1]) tr s ∧ puts tr = [7, 8, 9] ∧
        gets tr = [7, 8] ∧ gets tr <+: puts tr :=
  have hrun := run_of_exec [.get 1, .put 0 7 none, .put 2 8 none, .putLock 0, .putLock 2,
    .getWake 1, .put 0 9 none, .putLock 0, .get 1] rfl
  ⟨_, _, hrun, rfl, rfl, (queue_run_safe (by decide) hrun).1⟩

end Mediabox.Queue
