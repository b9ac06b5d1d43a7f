import Mathlib.Algebra.Order.Ring.Int
import Mediabox.Lib.Outcome
import Mediabox.Lib.Transition

/-!
# The send loop of the MMAL decoder (`avbox_mmal_decode`, `src/lib/ui/mmaldecode.c`)

A packet is sent in as many buffers as its size takes.  What is left of it is kept in `packet_copy`,
a size of 0 there says that no packet is being sent.

* A step is one access of the decoder to `video_packets_q` or one round of its loop, one return of a
  buffer through `avbox_mmal_input_port_cb`, or one access of the player to the queue.  The player
  takes packets from it while the decoder is halted at its checkpoint, before it has peeked one.
* Sizes are `int`s that are not negative and only shrink; they are natural numbers here.
* `in_decoder` and `video_decoder_flushed`, which the loop does not read, and the flush of the port,
  which returns buffers like any other, are left out.  `Mediabox.MmalTransit` has the frames.

Main result: `packets_whole`.
-/

set_option autoImplicit false

namespace Mediabox.MmalPackets

open Outcome Transition

/-! ## Data -/

/-- `AVPacket` -/
structure AVPacket where
  data : Nat
  size : Nat
  pts : Int
  dts : Int
  deriving DecidableEq, Repr

/-- A `struct avbox_av_packet` and its `avpacket`. -/
structure Packet where
  address : Nat
  avpacket : AVPacket
  deriving DecidableEq, Repr

/-- `MMAL_BUFFER_HEADER_T` -/
structure Header where
  cmd : Nat
  pts : Int
  dts : Int
  allocSize : Nat
  length : Nat
  offset : Nat
  data : Nat
  /-- `MMAL_BUFFER_HEADER_FLAG_FRAME_START` in `flags` -/
  frameStart : Bool
  /-- `MMAL_BUFFER_HEADER_FLAG_FRAME_END` in `flags` -/
  frameEnd : Bool
  userData : Option Packet
  deriving DecidableEq, Repr

/-- What MMAL and libav give: the size of a buffer of the port, the buffers of a new pool,
    `mmal_buffer_header_reset`, and `av_rescale_q` to microseconds. -/
structure Mmal where
  bufferSize : Nat
  bufferSize_pos : 0 < bufferSize
  headers : List Header
  headers_userData : ∀ h ∈ headers, h.userData = none
  reset : Header → Header
  reset_offset : ∀ h, (reset h).offset = 0
  reset_userData : ∀ h, h.userData = none → (reset h).userData = none
  rescale : Int → Int

inductive Fault where
  /-- `ASSERT(packet_copy.data == ...)` -/
  | assert
  /-- `avbox_queue_get` returned another packet, or none -/
  | unexpected
  /-- `mmal_port_send_buffer` failed -/
  | refused
  deriving DecidableEq, Repr

structure State where
  /-- `video_packets_q`, the oldest packet first -/
  queue : List Packet
  /-- `input_pool->queue` -/
  pool : List Header
  /-- the buffers that the port has -/
  sent : List Header
  avPacket : Option Packet
  packetCopy : AVPacket
  failed : Option Fault
  deriving DecidableEq, Repr

/-- Before the loop. -/
def init (m : Mmal) : State := ⟨[], m.headers, [], none, ⟨0, 0, 0, 0⟩, none⟩

/-! ## The code -/

/-- `AV_NOPTS_VALUE` -/
def noPts : Int := -2 ^ 63

/-- `MMAL_TIME_UNKNOWN` -/
def timeUnknown : Int := -2 ^ 63

def stamp (m : Mmal) (t : Int) : Int := if t = noPts then timeUnknown else m.rescale t

/-- The copy that a round goes on with. -/
def current (s : State) (p : Packet) : Except Fault AVPacket :=
  if s.packetCopy.size = 0 then .ok p.avpacket
  else if (s.packetCopy.data : Int) = p.avpacket.data + (p.avpacket.size - s.packetCopy.size) then
    .ok s.packetCopy
  else .error .assert

/-- `buffer->length` -/
def portion (m : Mmal) (copy : AVPacket) : Nat :=
  if copy.size > m.bufferSize then m.bufferSize else copy.size

def fill (m : Mmal) (p : Packet) (copy : AVPacket) (buffer : Header) : Header :=
  { m.reset buffer with
    cmd := 0
    pts := stamp m copy.pts
    dts := stamp m copy.dts
    allocSize := m.bufferSize
    length := portion m copy
    data := copy.data
    frameStart := copy.size = p.avpacket.size
    frameEnd := false }

/-- `buffer->flags |= MMAL_BUFFER_HEADER_FLAG_FRAME_END`, `buffer->user_data = av_packet` -/
def finish (p : Packet) (buffer : Header) : Header :=
  { buffer with frameEnd := true, userData := some p }

/-- `packet_copy.data += buffer->length`, `packet_copy.size -= buffer->length` -/
def advance (m : Mmal) (copy : AVPacket) : AVPacket :=
  { copy with data := copy.data + portion m copy, size := copy.size - portion m copy }

/-- `avbox_queue_get`, compared with the packet that was peeked. -/
def dequeue (s : State) (p : Packet) : Except Fault State :=
  match s.queue with
  | [] => .error .unexpected
  | q :: queue =>
    if q.address = p.address then .ok { s with queue, avPacket := none } else .error .unexpected

inductive Event where
  /-- `avbox_queue_put` of the stream parser -/
  | put (p : Packet)
  /-- the player takes the oldest packet -/
  | drop
  /-- `avbox_queue_peek` of the decoder -/
  | peek
  /-- a round of the loop: the buffer that `mmal_queue_timedwait` gives, `none` when it times out,
      and whether `mmal_port_send_buffer` succeeds -/
  | round (buffer : Option Nat) (accepted : Bool)
  /-- `avbox_mmal_input_port_cb` with a buffer that was sent -/
  | callback (buffer : Nat)
  deriving DecidableEq, Repr

inductive Result where
  | done
  | dropped (p : Packet)
  | peeked (p : Option Packet)
  | timedOut
  /-- the buffer that was sent, and what `avbox_queue_get` returned before -/
  | sent (h : Header) (got : Option Packet)
  /-- the packet that was released -/
  | released (p : Option Packet)
  | failed (f : Fault)
  deriving DecidableEq, Repr

/-- The rest of a round with a buffer, which is no longer in the pool. -/
def send (m : Mmal) (s : State) (p : Packet) (copy : AVPacket) (buffer : Header)
    (accepted : Bool) : Except Fault (State × Result) := do
  let h := fill m p copy buffer
  let s := { s with packetCopy := advance m copy }
  let (s, h, got) ← if s.packetCopy.size = 0 then do
      let s ← dequeue s p
      .ok (s, finish p h, some p)
    else .ok (s, h, none)
  if accepted then .ok ({ s with sent := s.sent ++ [h] }, .sent h got) else .error .refused

/-- `while (av_packet != NULL)`, one round. -/
def round (m : Mmal) (s : State) (p : Packet) (buffer : Option Nat) (accepted : Bool) :
    Except Fault (State × Result) := do
  let copy ← current s p
  match buffer.bind fun i => s.pool[i]?.map (i, ·) with
  | some (i, b) => send m { s with pool := s.pool.eraseIdx i } p copy b accepted
  | none => .ok ({ s with packetCopy := copy }, .timedOut)

/-- One step, as long as the program has not been aborted. -/
def step (m : Mmal) (s : State) (e : Event) : Option (State × Result) :=
  if s.failed.isSome then none
  else
    match e with
    | .put p => some ({ s with queue := s.queue ++ [p] }, .done)
    | .drop =>
      match s.avPacket, s.queue with
      | none, p :: queue => some ({ s with queue }, .dropped p)
      | _, _ => none
    | .peek =>
      match s.avPacket with
      | none => some ({ s with avPacket := s.queue.head? }, .peeked s.queue.head?)
      | some _ => none
    | .round buffer accepted =>
      s.avPacket.map fun p =>
        match round m s p buffer accepted with
        | .ok r => r
        | .error f => ({ s with failed := some f }, .failed f)
    | .callback i =>
      s.sent[i]?.map fun h =>
        ({ s with sent := s.sent.eraseIdx i, pool := s.pool ++ [{ h with userData := none }] },
          .released h.userData)

/-! ## What it is for -/

/-- A packet that was peeked, and the buffers sent since then. -/
structure Delivery where
  packet : Packet
  buffers : List Header
  deriving DecidableEq, Repr

/-- The deliveries that are over, the oldest first, and the one that is not. -/
structure Log where
  ended : List Delivery
  current : Option Delivery
  deriving DecidableEq, Repr

def Log.note (l : Log) : Event × Result → Log
  | (_, .peeked (some p)) => { l with current := some ⟨p, []⟩ }
  | (_, .sent h got) =>
    match l.current, got with
    | some d, none => { l with current := some { d with buffers := d.buffers ++ [h] } }
    | some d, some _ => ⟨l.ended ++ [{ d with buffers := d.buffers ++ [h] }], none⟩
    | none, _ => l
  | _ => l

def log (tr : List (Event × Result)) : Log := tr.foldl Log.note ⟨[], none⟩

/-- The buffers of the deliveries in the log. -/
def Log.buffers (l : Log) : List Header :=
  l.ended.flatMap Delivery.buffers ++ (l.current.map Delivery.buffers).getD []

/-- The packets that were put into the queue. -/
def puts (tr : List (Event × Result)) : List Packet :=
  tr.filterMap fun | (.put p, .done) => some p | _ => none

/-- The packets that were taken from it. -/
def takes (tr : List (Event × Result)) : List Packet :=
  tr.filterMap fun | (_, .dropped p) | (_, .sent _ (some p)) => some p | _ => none

/-- The packets that the decoder took from it. -/
def gets (tr : List (Event × Result)) : List Packet :=
  tr.filterMap fun | (_, .sent _ (some p)) => some p | _ => none

/-- The buffers that were sent. -/
def sends (tr : List (Event × Result)) : List Header :=
  tr.filterMap fun | (_, .sent h _) => some h | _ => none

/-- The bytes in a range of the memory. -/
def bytes (mem : Nat → UInt8) (a n : Nat) : List UInt8 := (List.range' a n).map mem

/-- The bytes that a buffer gives to the decoder. -/
def Header.content (mem : Nat → UInt8) (h : Header) : List UInt8 :=
  bytes mem (h.data + h.offset) h.length

/-- How many buffers a packet takes. -/
def pieces (size bufferSize : Nat) : Nat := max 1 ((size + bufferSize - 1) / bufferSize)

variable (m : Mmal)

/-- What holds of the buffers of a packet that was sent. -/
structure Whole (d : Delivery) : Prop where
  length : ∀ h ∈ d.buffers, h.length ≤ m.bufferSize
  content : ∀ mem, d.buffers.flatMap (Header.content mem) =
    bytes mem d.packet.avpacket.data d.packet.avpacket.size
  start : ∀ i h, d.buffers[i]? = some h → (h.frameStart = true ↔ i = 0)
  last : ∀ i h, d.buffers[i]? = some h → (h.frameEnd = true ↔ i + 1 = d.buffers.length)
  userData : ∀ i h, d.buffers[i]? = some h →
    h.userData = if i + 1 = d.buffers.length then some d.packet else none
  count : d.buffers.length = pieces d.packet.avpacket.size m.bufferSize

/-- What holds of the buffers of a packet that is being sent. -/
structure Begun (d : Delivery) : Prop where
  length : ∀ h ∈ d.buffers, h.length ≤ m.bufferSize
  content : ∀ mem, d.buffers.flatMap (Header.content mem) <+:
    bytes mem d.packet.avpacket.data d.packet.avpacket.size
  start : ∀ i h, d.buffers[i]? = some h → (h.frameStart = true ↔ i = 0)
  last : ∀ h ∈ d.buffers, h.frameEnd = false
  userData : ∀ h ∈ d.buffers, h.userData = none
  count : d.buffers.length < pieces d.packet.avpacket.size m.bufferSize

/-- What holds when these steps have led to the state. -/
structure Kept (tr : List (Event × Result)) (s : State) : Prop where
  ended : ∀ d ∈ (log tr).ended, Whole m d
  current : ∀ d, (log tr).current = some d → s.avPacket = some d.packet ∧ Begun m d
  /-- every buffer belongs to one delivery -/
  sends : sends tr = (log tr).buffers
  /-- a packet is dequeued once, with its last buffer -/
  gets : gets tr = (log tr).ended.map Delivery.packet
  /-- and in the order in which packets were put -/
  takes : puts tr = takes tr ++ s.queue
  /-- nothing but a send that fails ends the program -/
  failed : ∀ f, s.failed = some f → f = .refused

variable {m : Mmal} {d : Delivery} {p : Packet} {copy : AVPacket} {h : Header} {s t : State}
  {tr : List (Event × Result)}

/-! ## Ranges -/

theorem bytes_add (mem : Nat → UInt8) (a n k : Nat) :
    bytes mem a (n + k) = bytes mem a n ++ bytes mem (a + n) k := by
  rw [bytes, ← List.range'_append_1, List.map_append]
  rfl

theorem bytes_initial (mem : Nat → UInt8) (a : Nat) {n k : Nat} (hle : n ≤ k) :
    bytes mem a n <+: bytes mem a k := by
  obtain ⟨r, rfl⟩ := Nat.exists_eq_add_of_le hle
  rw [bytes_add]
  exact List.prefix_append _ _

/-- Fewer buffers than a packet takes do not hold it. -/
theorem lt_pieces {n size bufferSize : Nat} (hpos : 0 < bufferSize)
    (h : n = 0 ∨ n * bufferSize < size) : n < pieces size bufferSize := by
  rcases h with rfl | h
  · exact Nat.lt_of_lt_of_le Nat.one_pos (Nat.le_max_left _ _)
  · refine Nat.lt_of_lt_of_le ?_ (Nat.le_max_right _ _)
    rw [Nat.lt_iff_add_one_le, Nat.le_div_iff_mul_le hpos, Nat.add_mul, Nat.one_mul]
    omega

theorem pieces_eq {n k bufferSize : Nat} (hk : k ≤ bufferSize) (h : n = 0 ∨ 0 < k) :
    n + 1 = pieces (n * bufferSize + k) bufferSize := by
  rcases Nat.eq_zero_or_pos k with rfl | hpos
  · obtain rfl : n = 0 := by omega
    rcases Nat.eq_zero_or_pos bufferSize with rfl | hb
    · rfl
    · rw [pieces, Nat.zero_mul, Nat.add_zero, Nat.zero_add, Nat.div_eq_of_lt (by omega)]
      rfl
  · have hlast : n * bufferSize + k + bufferSize - 1 = k - 1 + (n + 1) * bufferSize := by
      rw [Nat.add_mul, Nat.one_mul]
      omega
    rw [pieces, hlast, Nat.add_mul_div_right _ _ (by omega), Nat.div_eq_of_lt (by omega)]
    omega

/-- What holds of each element of a list and of the one behind it. -/
theorem forall_concat {α : Type*} {l : List α} {x : α} {P : Nat → α → Prop}
    (h : ∀ i a, l[i]? = some a → P i a) (hx : P l.length x) :
    ∀ i a, (l ++ [x])[i]? = some a → P i a := by
  intro i a hi
  rcases Nat.lt_trichotomy i l.length with hlt | rfl | hgt
  · rw [List.getElem?_append_left hlt] at hi
    exact h i a hi
  · rw [List.getElem?_concat_length, Option.some.injEq] at hi
    exact hi ▸ hx
  · rw [List.getElem?_eq_none (by simpa using Nat.succ_le_of_lt hgt)] at hi
    cases hi

/-! ## The buffers of one packet -/

/-- The buffers so far hold the packet up to the copy. -/
structure Parts (m : Mmal) (d : Delivery) (copy : AVPacket) : Prop where
  length : ∀ h ∈ d.buffers, h.length ≤ m.bufferSize
  content : ∀ mem, d.buffers.flatMap (Header.content mem) =
    bytes mem d.packet.avpacket.data (d.buffers.length * m.bufferSize)
  start : ∀ i h, d.buffers[i]? = some h → (h.frameStart = true ↔ i = 0)
  last : ∀ h ∈ d.buffers, h.frameEnd = false
  userData : ∀ h ∈ d.buffers, h.userData = none
  data : copy.data = d.packet.avpacket.data + d.buffers.length * m.bufferSize
  size : d.buffers.length * m.bufferSize + copy.size = d.packet.avpacket.size
  left : d.buffers.length = 0 ∨ 0 < copy.size

theorem Parts.begun (hd : Parts m d copy) : Begun m d where
  length := hd.length
  content mem := by
    rw [hd.content]
    exact bytes_initial mem _ (Nat.le.intro hd.size)
  start := hd.start
  last := hd.last
  userData := hd.userData
  count := by
    refine lt_pieces m.bufferSize_pos (hd.left.imp_right fun hpos => ?_)
    have hsize := hd.size
    omega

/-- The packet was peeked. -/
theorem Parts.peeked (p : Packet) : Parts m ⟨p, []⟩ p.avpacket where
  length := List.forall_mem_nil _
  content mem := by simp [bytes]
  start _ _ h := absurd h (by simp)
  last := List.forall_mem_nil _
  userData := List.forall_mem_nil _
  data := by simp
  size := by simp
  left := .inl rfl

theorem portion_le (m : Mmal) (copy : AVPacket) :
    portion m copy ≤ m.bufferSize ∧ portion m copy ≤ copy.size := by
  unfold portion
  split <;> omega

/-- The first buffer is the one with which nothing was sent before. -/
theorem Parts.start_iff (hd : Parts m d copy) :
    copy.size = d.packet.avpacket.size ↔ d.buffers.length = 0 := by
  rw [← hd.size, eq_comm, Nat.add_eq_right, Nat.mul_eq_zero]
  exact or_iff_left (Nat.ne_of_gt m.bufferSize_pos)

theorem fill_content (mem : Nat → UInt8) (b : Header) :
    (fill m p copy b).content mem = bytes mem copy.data (portion m copy) := by
  simp only [Header.content, fill, m.reset_offset, Nat.add_zero]

theorem Parts.content_append (hd : Parts m d copy) {b : Header}
    (hb : ∀ mem, b.content mem = bytes mem copy.data (portion m copy)) (mem : Nat → UInt8) :
    (d.buffers ++ [b]).flatMap (Header.content mem) =
      bytes mem d.packet.avpacket.data (d.buffers.length * m.bufferSize + portion m copy) := by
  rw [List.flatMap_append, List.flatMap_singleton, hd.content, hb, hd.data, bytes_add]

/-- **A buffer that is not the last**: it is full, and the copy stands behind it. -/
theorem Parts.append (hd : Parts m d copy) {b : Header} (hclean : b.userData = none)
    (hmore : (advance m copy).size ≠ 0) :
    Parts m { d with buffers := d.buffers ++ [fill m d.packet copy b] } (advance m copy) := by
  have hfull : portion m copy = m.bufferSize ∧ m.bufferSize < copy.size := by
    simp only [advance, portion] at hmore ⊢
    split <;> rename_i hsize
    · rw [if_pos hsize] at hmore
      omega
    · rw [if_neg hsize] at hmore
      omega
  have hlength : (d.buffers ++ [fill m d.packet copy b]).length * m.bufferSize =
      d.buffers.length * m.bufferSize + portion m copy := by
    rw [List.length_append, List.length_singleton, Nat.add_mul, Nat.one_mul, hfull.1]
  have hsize := hd.size
  have hdata := hd.data
  refine ⟨?_, ?_, ?_, ?_, ?_, ?_, ?_, .inr (Nat.pos_of_ne_zero hmore)⟩
  · rw [List.forall_mem_append, List.forall_mem_singleton]
    exact ⟨hd.length, (portion_le m copy).1⟩
  · intro mem
    rw [hlength]
    exact hd.content_append (fun mem => fill_content mem b) mem
  · exact forall_concat hd.start (decide_eq_true_iff.trans hd.start_iff)
  · rw [List.forall_mem_append, List.forall_mem_singleton]
    exact ⟨hd.last, rfl⟩
  · rw [List.forall_mem_append, List.forall_mem_singleton]
    exact ⟨hd.userData, m.reset_userData b hclean⟩
  · simp only [hlength, advance]
    omega
  · simp only [hlength, advance]
    omega

/-- **The last buffer**: it holds the rest of the packet. -/
theorem Parts.finished (hd : Parts m d copy) {b : Header} (hnone : (advance m copy).size = 0) :
    Whole m { d with buffers := d.buffers ++ [finish d.packet (fill m d.packet copy b)] } := by
  have hle := portion_le m copy
  have hrest : portion m copy = copy.size := by
    simp only [advance] at hnone
    omega
  have hlt {i : Nat} {h : Header} (hi : d.buffers[i]? = some h) : i < d.buffers.length :=
    (List.getElem?_eq_some_iff.mp hi).1
  refine ⟨?_, ?_, ?_, ?_, ?_, ?_⟩
  · rw [List.forall_mem_append, List.forall_mem_singleton]
    exact ⟨hd.length, hle.1⟩
  · intro mem
    have hb (mem : Nat → UInt8) : (finish d.packet (fill m d.packet copy b)).content mem =
        bytes mem copy.data (portion m copy) := fill_content (p := d.packet) mem b
    exact (hd.content_append hb mem).trans (by rw [hrest, hd.size])
  · exact forall_concat hd.start (decide_eq_true_iff.trans hd.start_iff)
  · rw [List.length_append, List.length_singleton]
    refine forall_concat (fun i h hi => ?_) (iff_of_true rfl rfl)
    rw [hd.last h (List.mem_of_getElem? hi)]
    exact iff_of_false nofun (by have := hlt hi; omega)
  · rw [List.length_append, List.length_singleton]
    refine forall_concat (fun i h hi => ?_) (if_pos rfl).symm
    rw [hd.userData h (List.mem_of_getElem? hi), if_neg (by have := hlt hi; omega)]
  · rw [List.length_append, List.length_singleton, ← hd.size, ← hrest]
    exact pieces_eq hle.1 (hrest ▸ hd.left)

/-! ## The invariant -/

/-- The packet is the oldest one of the queue, and the copy is what is left of it. -/
def Sending (m : Mmal) (s : State) (p : Packet) (d : Delivery) : Prop :=
  d.packet = p ∧ s.queue.head? = some p ∧
    ∃ copy, MmalPackets.current s p = .ok copy ∧ Parts m d copy

structure Inv (m : Mmal) (tr : List (Event × Result)) (s : State) : Prop where
  ended : ∀ d ∈ (log tr).ended, Whole m d
  idle : s.avPacket = none → (log tr).current = none ∧ s.packetCopy.size = 0
  busy : ∀ p, s.avPacket = some p → ∃ d, (log tr).current = some d ∧ Sending m s p d
  clean : ∀ h ∈ s.pool, h.userData = none
  sent : sends tr = (log tr).buffers
  got : gets tr = (log tr).ended.map Delivery.packet
  taken : puts tr = takes tr ++ s.queue

theorem Inv.init (m : Mmal) : Inv m [] (init m) where
  ended := nofun
  idle _ := ⟨rfl, rfl⟩
  busy := nofun
  clean := m.headers_userData
  sent := rfl
  got := rfl
  taken := rfl

theorem log_append (tr : List (Event × Result)) (a : Event × Result) :
    log (tr ++ [a]) = (log tr).note a := by
  rw [log, List.foldl_append]
  rfl

/-- A label that is neither a peek nor a send says nothing about a delivery. -/
def Quiet : Result → Prop
  | .peeked (some _) | .sent _ _ => False
  | _ => True

theorem Quiet.note {r : Result} (hq : Quiet r) (l : Log) (e : Event) : l.note (e, r) = l := by
  cases r with
  | peeked p =>
    cases p with
    | none => rfl
    | some p => exact absurd hq id
  | sent h got => exact absurd hq id
  | done | dropped p | timedOut | released p | failed f => rfl

/-- **A quiet step**: the deliveries stay, where the packet being sent and the copy do. -/
theorem Inv.quiet {e : Event} {r : Result} (hi : Inv m tr s) (hq : Quiet r)
    (hpacket : t.avPacket = s.avPacket) (hidle : s.avPacket = none → t.packetCopy = s.packetCopy)
    (hbusy : ∀ p d, s.avPacket = some p → Sending m s p d → Sending m t p d)
    (hclean : ∀ h ∈ t.pool, h.userData = none)
    (htaken : puts (tr ++ [(e, r)]) = takes (tr ++ [(e, r)]) ++ t.queue) :
    Inv m (tr ++ [(e, r)]) t := by
  have hlog : log (tr ++ [(e, r)]) = log tr := (log_append tr (e, r)).trans (hq.note _ e)
  have hsends : sends (tr ++ [(e, r)]) = sends tr := by
    cases r with
    | sent h got => exact absurd hq id
    | _ => simp [sends]
  have hgets : gets (tr ++ [(e, r)]) = gets tr := by
    cases r with
    | sent h got => exact absurd hq id
    | _ => simp [gets]
  refine ⟨hlog ▸ hi.ended, fun hnone => ?_, fun p hp => ?_, hclean, ?_, ?_, htaken⟩
  · rw [hlog, hidle (hpacket ▸ hnone)]
    exact hi.idle (hpacket ▸ hnone)
  · obtain ⟨d, hd, hsending⟩ := hi.busy p (hpacket ▸ hp)
    exact ⟨d, hlog ▸ hd, hbusy p d (hpacket ▸ hp) hsending⟩
  · rw [hsends, hlog, hi.sent]
  · rw [hgets, hlog, hi.got]

/-! ## A round of the loop -/

/-- What a round leaves. -/
inductive Round (m : Mmal) (s : State) (p : Packet) (copy : AVPacket) : State × Result → Prop
  | timedOut : Round m s p copy ({ s with packetCopy := copy }, .timedOut)
  | more (i : Nat) (b : Header) (hb : s.pool[i]? = some b) (hmore : (advance m copy).size ≠ 0) :
    Round m s p copy ({ s with
      pool := s.pool.eraseIdx i
      packetCopy := advance m copy
      sent := s.sent ++ [fill m p copy b] }, .sent (fill m p copy b) none)
  | last (i : Nat) (b : Header) (queue : List Packet) (hb : s.pool[i]? = some b)
      (hlast : (advance m copy).size = 0) (hq : s.queue = p :: queue) :
    Round m s p copy ({ s with
      pool := s.pool.eraseIdx i
      packetCopy := advance m copy
      queue := queue
      avPacket := none
      sent := s.sent ++ [finish p (fill m p copy b)] },
      .sent (finish p (fill m p copy b)) (some p))

theorem round_ensures (hs : Sending m s p d) (hcopy : current s p = .ok copy)
    (buffer : Option Nat) (accepted : Bool) :
    Ensures (round m s p buffer accepted) (Round m s p copy) (· = .refused) := by
  obtain ⟨-, hhead, -⟩ := hs
  obtain ⟨queue, hq⟩ := List.head?_eq_some_iff.mp hhead
  rw [round, hcopy, ensures_bind, ensures_ok]
  cases hbuffer : buffer.bind fun i => s.pool[i]?.map (i, ·) with
  | none => exact .timedOut
  | some ib =>
    obtain ⟨i, -, hib⟩ := Option.bind_eq_some_iff.mp hbuffer
    obtain ⟨b, hb, rfl⟩ := Option.map_eq_some_iff.mp hib
    simp only [send]
    by_cases hlast : (advance m copy).size = 0
    · simp only [if_pos hlast, dequeue, hq, if_true, bind, Except.bind]
      cases accepted with
      | true => exact .last i b queue hb hlast hq
      | false => rfl
    · simp only [if_neg hlast, bind, Except.bind]
      cases accepted with
      | true => exact .more i b hb hlast
      | false => rfl

/-- The copy that the loop keeps is the one it goes on with. -/
theorem current_self (copy : AVPacket) (hcopy : current s p = .ok copy) :
    current { s with packetCopy := copy } p = .ok copy := by
  unfold current at hcopy ⊢
  split at hcopy
  · cases hcopy
    dsimp only
    split
    · rfl
    · rw [if_pos (by omega)]
  · rename_i hsize
    split at hcopy
    · rename_i hdata
      cases hcopy
      rw [if_neg hsize, if_pos hdata]
    · cases hcopy

/-- A copy that stands behind some of the buffers passes the assertion. -/
theorem Parts.current (hd : Parts m d copy) (hpos : copy.size ≠ 0) (hs : s.packetCopy = copy) :
    MmalPackets.current s d.packet = .ok copy := by
  have hsize := hd.size
  have hdata := hd.data
  rw [MmalPackets.current, hs, if_neg hpos, if_pos (by omega)]

theorem clean_erase {pool : List Header} (hclean : ∀ h ∈ pool, h.userData = none) (i : Nat) :
    ∀ h ∈ pool.eraseIdx i, h.userData = none :=
  fun h hh => hclean h (List.mem_of_mem_eraseIdx hh)

/-- The events that put nothing into the queue leave what was put. -/
theorem puts_append {e : Event} (he : ∀ p, e ≠ .put p) (r : Result) :
    puts (tr ++ [(e, r)]) = puts tr := by
  rw [puts, List.filterMap_append]
  cases e with
  | put p => exact absurd rfl (he p)
  | drop | peek | round buffer accepted | callback i => exact List.append_nil _

theorem sends_append (tr : List (Event × Result)) (e : Event) (h : Header) (got : Option Packet) :
    sends (tr ++ [(e, .sent h got)]) = sends tr ++ [h] := by
  rw [sends, List.filterMap_append]
  rfl

/-- **A round**: it keeps the invariant. -/
theorem Inv.round {r : State × Result} {e : Event} (hi : Inv m tr s) (he : ∀ p, e ≠ .put p)
    (hd : (log tr).current = some d) (hs : Sending m s p d) (hp : s.avPacket = some p)
    (hcopy : current s p = .ok copy) (hparts : Parts m d copy) (hr : Round m s p copy r) :
    Inv m (tr ++ [(e, r.2)]) r.1 := by
  obtain ⟨rfl, hhead, -⟩ := hs
  cases hr with
  | timedOut =>
    refine hi.quiet trivial rfl (fun hnone => ?_) (fun p' d' hp' hs' => ?_) hi.clean ?_
    · rw [hp] at hnone
      cases hnone
    · obtain rfl : d.packet = p' := Option.some.inj (hp.symm.trans hp')
      obtain ⟨hpacket, hhead', copy', hcopy', hparts'⟩ := hs'
      obtain rfl : copy = copy' := Except.ok.inj (hcopy.symm.trans hcopy')
      exact ⟨hpacket, hhead', copy, current_self copy hcopy, hparts'⟩
    · rw [puts_append he, hi.taken]
      simp [takes]
  | more i b hb hmore =>
    have hnext := hparts.append (hi.clean b (List.mem_of_getElem? hb)) hmore
    have hlog : log (tr ++ [(e, .sent (fill m d.packet copy b) none)]) = { log tr with
        current := some { d with buffers := d.buffers ++ [fill m d.packet copy b] } } := by
      simp only [log_append, Log.note, hd]
    refine ⟨?_, fun hnone => ?_, fun p' hp' => ?_, clean_erase hi.clean i, ?_, ?_, ?_⟩
    · rw [hlog]
      exact hi.ended
    · rw [hp] at hnone
      cases hnone
    · obtain rfl : d.packet = p' := Option.some.inj (hp.symm.trans hp')
      rw [hlog]
      exact ⟨_, rfl, rfl, hhead, _, hnext.current hmore rfl, hnext⟩
    · rw [sends_append, hi.sent, hlog]
      simp [Log.buffers, hd]
    · rw [hlog, ← hi.got]
      simp [gets]
    · rw [puts_append he, hi.taken]
      simp [takes]
  | last i b queue hb hlast hq =>
    have hwhole := hparts.finished (b := b) hlast
    have hlog : log (tr ++ [(e, .sent (finish d.packet (fill m d.packet copy b))
        (some d.packet))]) = ⟨(log tr).ended ++ [{ d with buffers := d.buffers ++
          [finish d.packet (fill m d.packet copy b)] }], none⟩ := by
      simp only [log_append, Log.note, hd]
    refine ⟨?_, fun _ => ⟨?_, hlast⟩, nofun, clean_erase hi.clean i, ?_, ?_, ?_⟩
    · rw [hlog, List.forall_mem_append, List.forall_mem_singleton]
      exact ⟨hi.ended, hwhole⟩
    · rw [hlog]
    · rw [sends_append, hi.sent, hlog]
      simp [Log.buffers, hd]
    · rw [hlog, List.map_append, ← hi.got]
      simp [gets]
    · rw [puts_append he, hi.taken, hq]
      simp [takes]

theorem Round.failed {r : State × Result} (hr : Round m s p copy r) : r.1.failed = s.failed := by
  cases hr <;> rfl

/-- **A packet is peeked**: nothing of it was sent. -/
theorem Inv.peek (hi : Inv m tr s) (hnone : s.avPacket = none) (hhead : s.queue.head? = some p) :
    Inv m (tr ++ [(Event.peek, Result.peeked (some p))]) { s with avPacket := some p } := by
  obtain ⟨hcurrent, hsize⟩ := hi.idle hnone
  have hlog : log (tr ++ [(Event.peek, Result.peeked (some p))]) = ⟨(log tr).ended, some ⟨p, []⟩⟩ := by
    rw [log_append]
    rfl
  refine ⟨hlog ▸ hi.ended, nofun, fun p' hp' => ?_, hi.clean, ?_, ?_, ?_⟩
  · obtain rfl : p = p' := Option.some.inj hp'
    exact ⟨_, hlog ▸ rfl, rfl, hhead, p.avpacket, if_pos hsize, Parts.peeked p⟩
  · have hsends : sends (tr ++ [(Event.peek, Result.peeked (some p))]) = sends tr := by simp [sends]
    rw [hsends, hi.sent, hlog, Log.buffers, hcurrent]
    rfl
  · rw [hlog, ← hi.got]
    simp [gets]
  · rw [puts_append (fun _ h => by cases h), hi.taken]
    simp [takes]

/-! ## Runs -/

/-- **A step**: it keeps the invariant, and a send that fails is the only fault. -/
theorem Inv.step {a : Event × Result} (hi : Inv m tr s) (hs : Step (step m) s a t) :
    Inv m (tr ++ [a]) t ∧ ∀ f, t.failed = some f → f = .refused := by
  obtain ⟨e, r⟩ := a
  simp only [Step, MmalPackets.step] at hs
  split at hs
  · cases hs
  rename_i hfailed
  have hfine (f : Fault) (hf : s.failed = some f) : f = .refused := by
    rw [hf] at hfailed
    exact absurd rfl hfailed
  cases e with
  | put p =>
    cases hs
    refine ⟨hi.quiet trivial rfl (fun _ => rfl) (fun p' d _ ⟨hpacket, hhead, hcopy⟩ =>
      ⟨hpacket, ?_, hcopy⟩) hi.clean ?_, hfine⟩
    · rw [List.head?_append, hhead]
      rfl
    · have hputs : puts (tr ++ [(Event.put p, Result.done)]) = puts tr ++ [p] := by simp [puts]
      rw [hputs, hi.taken]
      simp [takes]
  | drop =>
    dsimp only at hs
    split at hs
    · rename_i p queue hnone hq
      cases hs
      refine ⟨hi.quiet trivial rfl (fun _ => rfl) (fun p' d hp' _ => ?_) hi.clean ?_, hfine⟩
      · rw [hnone] at hp'
        cases hp'
      · rw [puts_append (fun _ h => by cases h), hi.taken, hq]
        simp [takes]
    · cases hs
  | peek =>
    dsimp only at hs
    split at hs
    · rename_i hnone
      cases hs
      cases hhead : s.queue.head? with
      | none =>
        refine ⟨hi.quiet trivial hnone.symm (fun _ => rfl) (fun p d hp _ => ?_) hi.clean ?_, hfine⟩
        · rw [hnone] at hp
          cases hp
        · rw [puts_append (fun _ h => by cases h), hi.taken]
          simp [takes]
      | some p => exact ⟨hi.peek hnone hhead, hfine⟩
    · cases hs
  | round buffer accepted =>
    obtain ⟨p, hp, hres⟩ := Option.map_eq_some_iff.mp hs
    obtain ⟨d, hd, hsending⟩ := hi.busy p hp
    obtain ⟨-, -, copy, hcopy, hparts⟩ := id hsending
    have hround := round_ensures hsending hcopy buffer accepted
    cases hr : MmalPackets.round m s p buffer accepted with
    | ok r' =>
      rw [hr, ensures_ok] at hround
      simp only [hr] at hres
      subst hres
      exact ⟨hi.round (fun _ h => by cases h) hd hsending hp hcopy hparts hround,
        hround.failed ▸ hfine⟩
    | error f =>
      rw [hr, ensures_error] at hround
      simp only [hr] at hres
      cases hres
      refine ⟨hi.quiet trivial rfl (fun _ => rfl) (fun p d _ hd => hd) hi.clean ?_, ?_⟩
      · rw [puts_append (fun _ h => by cases h), hi.taken]
        simp [takes]
      · rintro g ⟨⟩
        exact hround
  | callback i =>
    obtain ⟨h, hh, hres⟩ := Option.map_eq_some_iff.mp hs
    cases hres
    refine ⟨hi.quiet trivial rfl (fun _ => rfl) (fun p d _ hd => hd) ?_ ?_, hfine⟩
    · rw [List.forall_mem_append, List.forall_mem_singleton]
      exact ⟨hi.clean, rfl⟩
    · rw [puts_append (fun _ h => by cases h), hi.taken]
      simp [takes]

/-- **Packets are sent whole**: in every run each packet that the decoder dequeues was sent in buffers
    that hold its bytes in order, the first and the last marked as such and the last with the packet;
    and of the packet that is being sent, the buffers so far hold a beginning. -/
theorem packets_whole (h : Run (Step (step m)) (init m) tr s) : Kept m tr s := by
  obtain ⟨hi, hfailed⟩ := Run.history (P := fun tr s => Inv m tr s ∧
    ∀ f, s.failed = some f → f = .refused) ⟨Inv.init m, nofun⟩
    (fun _ _ _ _ ht hstep => ht.1.step hstep) h
  refine ⟨hi.ended, fun d hd => ?_, hi.sent, hi.got, hi.taken, hfailed⟩
  cases hp : s.avPacket with
  | none =>
    rw [(hi.idle hp).1] at hd
    cases hd
  | some p =>
    obtain ⟨d', hd', rfl, -, copy, -, hparts⟩ := hi.busy p hp
    obtain rfl : d' = d := Option.some.inj (hd'.symm.trans hd)
    exact ⟨rfl, hparts.begun⟩

/-- Buffers of four bytes, two of them, and `mmal_buffer_header_reset` as MMAL has it. -/
def fourBytes : Mmal where
  bufferSize := 4
  bufferSize_pos := by decide
  headers := List.replicate 2 ⟨0, timeUnknown, timeUnknown, 0, 0, 0, 0, false, false, none⟩
  headers_userData h hh := by rw [List.eq_of_mem_replicate hh]
  reset h := { h with
    length := 0
    offset := 0
    frameStart := false
    frameEnd := false
    pts := timeUnknown
    dts := timeUnknown }
  reset_offset _ := rfl
  reset_userData _ h := h
  rescale t := t

/-- A packet of ten bytes, a time-out among its buffers, and an empty one. -/
theorem packets_whole_two :
    ∃ tr s, Run (Step (step fourBytes)) (init fourBytes) tr s ∧
      (log tr).ended.map (fun d => d.buffers.map Header.length) = [[4, 4, 2], [0]] ∧
      Kept fourBytes tr s := by
  obtain ⟨tr, s, hrun, hlengths⟩ := exists_run_of_exec (step fourBytes) (init fourBytes)
    (fun tr _ => (log tr).ended.map (fun d => d.buffers.map Header.length) = [[4, 4, 2], [0]])
    [.put ⟨1, 100, 10, 0, 0⟩, .put ⟨2, 0, 0, 1, 1⟩, .peek, .round (some 0) true,
      .round (some 0) true, .round none true, .callback 0, .round (some 0) true, .peek,
      .round none true, .callback 0, .round (some 0) true] (by decide +kernel)
  exact ⟨tr, s, hrun, hlengths, packets_whole hrun⟩

end Mediabox.MmalPackets
