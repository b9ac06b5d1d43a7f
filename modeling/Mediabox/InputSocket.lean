import Mathlib.Data.List.Find
import Mathlib.Data.List.Forall2
import Mathlib.Data.List.Induction
import Mathlib.Data.List.Nodup
import Mathlib.Data.List.TakeWhile
import Mediabox.Lib.Chunks
import Mediabox.Lib.LongestPrefix
import Mediabox.Lib.Transition

/-!
# The socket remote (`src/lib/ui/input-socket.c`)

The loop of `avbox_input_socket_connect`: it reads a line into a buffer, one byte at a time, and
compares it with the commands.  A step is one turn of the outer loop up to the line, or one turn of
the inner loop; the one that reads the end of a line, or fills the buffer, ends with what is sent.

* `buffer` keeps what is left of earlier lines.
* `memory` says whether `strdup` gives a copy, in case the byte that was read completes a command
  with a link.
* `Means` — what should be sent for a line: the event of the longest keyword with which it starts.

Main result: `decided_iff`.
-/

set_option autoImplicit false

namespace Mediabox.InputSocket

open Chunks LongestPrefix Transition

/-! ## The code -/

/-- `enum avbox_input_event`, as far as it is sent; `kbd` are `MBI_EVENT_KBD_A` to
    `MBI_EVENT_KBD_Z`. -/
inductive InputEvent where
  | play
  | stop
  | menu
  | back
  | enter
  | next
  | prev
  | arrowUp
  | arrowDown
  | arrowLeft
  | arrowRight
  | clear
  | info
  | volumeUp
  | volumeDown
  | kbd (x : Char)
  | kbdSpace
  | url
  | download
  | context
  | track
  | trackLong
  deriving DecidableEq, Repr

/-- What `avbox_input_sendevent` is called with. -/
structure Sent where
  event : InputEvent
  payload : Option (List UInt8)
  deriving DecidableEq, Repr

/-- The bytes of a string constant. -/
def bytes (s : String) : List UInt8 := s.toList.map fun c => c.toNat.toUInt8

/-- `!strncmp(s, p, n)` for a string constant `s` -/
def strncmp : List UInt8 → List UInt8 → Nat → Bool
  | _, _, 0 => true
  | s, p, n + 1 => s.headD 0 == p.headD 0 && (p.headD 0 == 0 || strncmp s.tail p.tail n)

/-- `strdup(p)` -/
def strdup (p : List UInt8) (memory : Bool) : Option (List UInt8) :=
  if memory then some (p.takeWhile (· != 0)) else none

/-- What is done for a command: its event is sent, with what comes after it as a link or not, or
    that is a key. -/
inductive Action where
  | send (event : InputEvent)
  | link (event : InputEvent)
  | key
  deriving DecidableEq, Repr

/-- One test of the command, which compares `n` bytes. -/
structure Command where
  keyword : List UInt8
  n : Nat
  action : Action
  deriving DecidableEq, Repr

/-- The commands, in the order of the tests. -/
def commands : List Command :=
  [⟨bytes "DOWNLOAD:", 9, .link .download⟩,
    ⟨bytes "MENU_LONG", 9, .send .context⟩,
    ⟨bytes "MENU", 4, .send .menu⟩,
    ⟨bytes "LEFT", 4, .send .arrowLeft⟩,
    ⟨bytes "RIGHT", 5, .send .arrowRight⟩,
    ⟨bytes "UP", 2, .send .arrowUp⟩,
    ⟨bytes "DOWN", 4, .send .arrowDown⟩,
    ⟨bytes "ENTER", 5, .send .enter⟩,
    ⟨bytes "BACK", 4, .send .back⟩,
    ⟨bytes "PLAY", 4, .send .play⟩,
    ⟨bytes "STOP", 4, .send .stop⟩,
    ⟨bytes "CLEAR", 5, .send .clear⟩,
    ⟨bytes "PREV", 4, .send .prev⟩,
    ⟨bytes "NEXT", 4, .send .next⟩,
    ⟨bytes "INFO", 4, .send .info⟩,
    ⟨bytes "VOLUP", 5, .send .volumeUp⟩,
    ⟨bytes "VOLDOWN", 7, .send .volumeDown⟩,
    ⟨bytes "KEY:", 4, .key⟩,
    ⟨bytes "URL:", 4, .link .url⟩,
    ⟨bytes "TRACK", 5, .send .track⟩,
    ⟨bytes "TRACK_LONG", 10, .send .trackLong⟩]

/-- `ELIF_KEY` -/
def elifKey (x : Char) : UInt8 × InputEvent := (x.toNat.toUInt8, .kbd x)

def keys : List (UInt8 × InputEvent) :=
  (32, .kbdSpace) :: "ABCDEFGHIJKLMNOPQRSTUVWXYZ".toList.map elifKey

/-- A command, with what comes after it in the buffer. -/
def act (rest : List UInt8) (memory : Bool) : Action → Option Sent
  | .send event => some ⟨event, none⟩
  | .link event => (strdup rest memory).map fun url => ⟨event, some url⟩
  | .key => (keys.find? fun k => strncmp [k.1] rest 1).map fun k => ⟨k.2, none⟩

/-- What is sent for the line in the buffer. -/
def process (buffer : List UInt8) (memory : Bool) : Option Sent :=
  (commands.find? fun c => strncmp c.keyword buffer c.n).bind fun c =>
    act (buffer.drop c.n) memory c.action

inductive Pc where
  | select
  | read
  | ended
  deriving DecidableEq, Repr

/-- The variables of the loop; `pbuf` is `buffer + n`. -/
structure State where
  pc : Pc
  n : Nat
  buffer : List UInt8

/-- `sizeof(buffer)` -/
def bufferSize : Nat := 4096

def init : State := ⟨.select, 0, List.replicate bufferSize 0⟩

/-- What `select` answers. -/
inductive Ready where
  | timeout
  | interrupted
  | failed
  /-- with `FD_ISSET` or without it -/
  | ready (isset : Bool)
  deriving DecidableEq, Repr

/-- What `read` answers. -/
inductive Got where
  /-- `EAGAIN` or `EINTR` -/
  | again
  | failed
  | eof
  | byte (b : UInt8) (memory : Bool)
  deriving DecidableEq, Repr

inductive Event where
  /-- with `ctx->quit`, and whether `fcntl` fails -/
  | select (quit broken : Bool) (n : Ready)
  | read (quit : Bool) (ret : Got)
  deriving DecidableEq, Repr

/-- A byte is stored at `pbuf`; the second part of the result is what is decided for a line. -/
def store (s : State) (b : UInt8) (memory : Bool) : State × Option (Option Sent) :=
  let buffer := s.buffer.set s.n b
  if b = 10 then
    let buffer := buffer.set s.n 0
    (⟨.select, s.n, buffer⟩, some (process buffer memory))
  else if s.n + 1 < bufferSize - 1 then (⟨.read, s.n + 1, buffer⟩, none)
  else (⟨.select, s.n + 1, buffer⟩, some (process buffer memory))

def step (s : State) : Event → Option (State × Option (Option Sent))
  | .select quit broken n =>
    if s.pc ≠ .select then none
    else if quit || broken then some ({ s with pc := .ended }, none)
    else
      match n with
      | .timeout | .interrupted | .ready false => some (s, none)
      | .failed => some ({ s with pc := .ended }, none)
      | .ready true => some ({ s with pc := .read, n := 0 }, none)
  | .read quit ret =>
    if s.pc ≠ .read then none
    else if quit then some ({ s with pc := .ended }, none)
    else
      match ret with
      | .again => some (s, none)
      | .failed | .eof => some ({ s with pc := .ended }, none)
      | .byte b memory => some (store s b memory)

/-! ## What it is for -/

/-- The keywords of a command, with their events and whether what comes after them is the link. -/
def Command.keywords (c : Command) : List (List UInt8 × InputEvent × Bool) :=
  match c.action with
  | .send event => [(c.keyword, event, false)]
  | .link event => [(c.keyword, event, true)]
  | .key => keys.map fun k => (c.keyword ++ [k.1], k.2, false)

def keywords : List (List UInt8 × InputEvent × Bool) := commands.flatMap Command.keywords

/-- What should be sent for a line. -/
def Means (line : List UInt8) : Option Sent → Prop
  | none => ∀ k ∈ keywords, ¬k.1 <+: line
  | some sent => ∃ k, Longest keywords line k ∧
      sent = ⟨k.2.1, if k.2.2 then some (line.drop k.1.length) else none⟩

abbrev Label := Event × Option (Option Sent)

/-- The bytes that `read` has returned. -/
def received (tr : List Label) : List (UInt8 × Bool) :=
  tr.filterMap fun a =>
    match a.1 with
    | .read false (.byte b memory) => some (b, memory)
    | _ => none

/-- The end of a line, among the bytes that were returned. -/
abbrev Ends (a : UInt8 × Bool) : Prop := a.1 = 10

def decisions (tr : List Label) : List (Option Sent) := tr.filterMap Prod.snd

/-- The lines that were received, each with the end of the line apart. -/
def lines (tr : List Label) : List (List (UInt8 × Bool) × UInt8 × Bool) :=
  (chunks Ends 0 (received tr)).1

/-- One decision for each line, in order, and the right one. -/
def Decided (tr : List Label) : Prop :=
  List.Forall₂ (fun line sent => Means (line.1.map Prod.fst) sent) (lines tr) (decisions tr)

/-- The lines whose command is not lost: it is not shadowed, and a link has a copy and no null
    byte. -/
structure Clear (line : List UInt8) (memory : Bool) : Prop where
  shadowed : ¬bytes "TRACK_LONG" <+: line
  link : ∀ k ∈ keywords, k.2.2 = true → k.1 <+: line →
    memory = true ∧ 0 ∉ line.drop k.1.length

/-- All lines, and what is left, are shorter than the buffer, and no command is lost. -/
structure Clean (tr : List Label) : Prop where
  fits : Fits Ends (bufferSize - 1) (received tr)
  clear : ∀ line ∈ lines tr, Clear (line.1.map Prod.fst) line.2.2

/-! ## The commands -/

/-- What the tables hold, evaluated at once. -/
theorem commands_table :
    (∀ c ∈ commands, c.n = c.keyword.length ∧ 0 ∉ c.keyword) ∧ (∀ k ∈ keys, k.1 ≠ 0) ∧
    commands.Pairwise (fun c c' => c.action = .key →
      ∀ e ∈ c'.keywords, ¬e.1 <+: c.keyword ∧ ¬c.keyword <+: e.1) := by decide +kernel

theorem keywords_table :
    keywords.Pairwise (fun a b => a.1 <+: b.1 → b.1 = bytes "TRACK_LONG") ∧
    (keywords.map fun a => a.2.1).Nodup ∧
    (∀ a ∈ keywords, ∀ b ∈ keywords, a.2.2 = true → a.1 <+: b.1 → b = a) ∧
    (∀ k ∈ keywords, bytes "TRACK_LONG" <+: k.1 → k = (bytes "TRACK_LONG", .trackLong, false)) := by
  decide +kernel

theorem keywords_trackLong_table :
    keywords = keywords.take 45 ++
      (bytes "TRACK", InputEvent.track, false) :: [(bytes "TRACK_LONG", .trackLong, false)] ∧
    (bytes "TRACK_LONG", InputEvent.trackLong, false) ∉ keywords.take 45 ∧
    bytes "TRACK" <+: bytes "TRACK_LONG" := by decide +kernel

theorem commands_n : ∀ c ∈ commands, c.n = c.keyword.length ∧ 0 ∉ c.keyword := commands_table.1

theorem keys_ne_zero : ∀ k ∈ keys, k.1 ≠ 0 := commands_table.2.1

/-- After the only command that may find nothing, no other one that starts the line comes. -/
theorem commands_key : commands.Pairwise fun c c' => c.action = .key →
    ∀ e ∈ c'.keywords, ¬e.1 <+: c.keyword ∧ ¬c.keyword <+: e.1 := commands_table.2.2

theorem keywords_shadowed :
    keywords.Pairwise fun a b => a.1 <+: b.1 → b.1 = bytes "TRACK_LONG" := keywords_table.1

theorem keywords_event : ∀ a ∈ keywords, ∀ b ∈ keywords, a.2.1 = b.2.1 → a = b := by
  have hnodup : (keywords.map fun a => a.2.1).Nodup := keywords_table.2.1
  exact fun a ha b hb => List.inj_on_of_nodup_map hnodup ha hb

theorem keywords_link : ∀ a ∈ keywords, ∀ b ∈ keywords, a.2.2 = true → a.1 <+: b.1 → b = a :=
  keywords_table.2.2.1

theorem keywords_eq : keywords = keywords.take 45 ++
    (bytes "TRACK", InputEvent.track, false) :: [(bytes "TRACK_LONG", .trackLong, false)] :=
  keywords_trackLong_table.1

theorem keywords_trackLong : ∀ k ∈ keywords, bytes "TRACK_LONG" <+: k.1 →
    k = (bytes "TRACK_LONG", .trackLong, false) :=
  keywords_table.2.2.2

theorem trackLong_not_mem : (bytes "TRACK_LONG", .trackLong, false) ∉ keywords.take 45 :=
  keywords_trackLong_table.2.1

variable {line rest : List UInt8} {memory : Bool}

/-! ## A line in the buffer -/

/-- A comparison ends at the end of the line. -/
theorem strncmp_iff {keyword : List UInt8} (h : 0 ∉ keyword) :
    strncmp keyword (line ++ 0 :: rest) keyword.length = true ↔ keyword <+: line := by
  induction keyword generalizing line with
  | nil => simp [strncmp]
  | cons c keyword ih =>
    obtain ⟨hc, hkeyword⟩ := not_or.mp (List.mem_cons.not.mp h)
    cases line with
    | nil => simp [strncmp, Ne.symm hc]
    | cons d line =>
      rw [List.cons_prefix_cons, ← ih hkeyword]
      simp only [List.length_cons, strncmp, List.cons_append, List.headD_cons, List.tail_cons,
        Bool.and_eq_true, Bool.or_eq_true, beq_iff_eq]
      refine and_congr_right fun heq => or_iff_right ?_
      rw [← heq]
      exact Ne.symm hc

theorem takeWhile_line : (line ++ 0 :: rest).takeWhile (· != 0) = line.takeWhile (· != 0) := by
  induction line with
  | nil => rfl
  | cons c line ih => simp only [List.cons_append, List.takeWhile_cons, ih]

theorem takeWhile_eq_self_iff : line.takeWhile (· != 0) = line ↔ 0 ∉ line := by
  rw [List.takeWhile_eq_self_iff]
  constructor
  · intro h hmem
    exact absurd (h 0 hmem) (by decide)
  · exact fun h c hc => bne_iff_ne.mpr fun heq => h (heq ▸ hc)

/-- The keyword that a command finds in a line. -/
def Command.choose (line : List UInt8) (c : Command) : Option (List UInt8 × InputEvent × Bool) :=
  match c.action with
  | .send event => some (c.keyword, event, false)
  | .link event => some (c.keyword, event, true)
  | .key => (keys.find? fun k => [k.1] <+: line.drop c.n).map fun k =>
      (c.keyword ++ [k.1], k.2, false)

/-- What is sent for a keyword. -/
def respond (line : List UInt8) (memory : Bool) (k : List UInt8 × InputEvent × Bool) :
    Option Sent :=
  if k.2.2 then
    if memory then some ⟨k.2.1, some ((line.drop k.1.length).takeWhile (· != 0))⟩ else none
  else some ⟨k.2.1, none⟩

theorem find?_keywords (c : Command) (hn : c.n = c.keyword.length) :
    (c.keywords.find? fun e => e.1 <+: line) =
      if c.keyword <+: line then c.choose line else none := by
  obtain ⟨keyword, n, action⟩ := c
  obtain rfl : n = keyword.length := hn
  cases action with
  | send event | link event =>
    simp only [Command.keywords, Command.choose, List.find?_cons, List.find?_nil]
    split <;> simp_all
  | key =>
    simp only [Command.keywords, Command.choose, List.find?_map]
    split
    · rename_i hstart
      obtain ⟨after, rfl⟩ := hstart
      congr 2
      funext k
      simp
    · rename_i hnot
      rw [Option.map_eq_none_iff, List.find?_eq_none]
      intro k _ hk
      exact hnot ((List.prefix_append keyword [k.1]).trans (by simpa using hk))

/-- What is done for a command is sent for the keyword that it finds. -/
theorem act_eq (c : Command) (hn : c.n = c.keyword.length) (hstart : c.keyword <+: line) :
    act ((line ++ 0 :: rest).drop c.n) memory c.action =
      (c.choose line).bind (respond line memory) := by
  obtain ⟨keyword, n, action⟩ := c
  obtain rfl : n = keyword.length := hn
  have hdrop : (line ++ 0 :: rest).drop keyword.length = line.drop keyword.length ++ 0 :: rest :=
    List.drop_append_of_le_length hstart.length_le
  cases action with
  | send event => rfl
  | link event =>
    simp only [act, strdup, Command.choose, respond, hdrop, takeWhile_line, Option.bind_some]
    split <;> rfl
  | key =>
    have hkey : ∀ k ∈ keys, strncmp [k.1] (line.drop keyword.length ++ 0 :: rest) 1 =
        decide ([k.1] <+: line.drop keyword.length) := fun k hk => by
      rw [Bool.eq_iff_iff, decide_eq_true_iff]
      exact strncmp_iff (by simpa using (keys_ne_zero k hk).symm)
    simp only [act, Command.choose, hdrop, List.find?_congr hkey, Option.bind_map]
    exact Option.map_eq_bind

variable (rest) in
/-- **The tests** find the first of the keywords. -/
theorem process_eq :
    process (line ++ 0 :: rest) memory = (first keywords line).bind (respond line memory) := by
  have htest : ∀ c ∈ commands, strncmp c.keyword (line ++ 0 :: rest) c.n =
      decide (c.keyword <+: line) := fun c hc => by
    rw [Bool.eq_iff_iff, decide_eq_true_iff, (commands_n c hc).1]
    exact strncmp_iff (commands_n c hc).2
  have hfirst : first keywords line =
      (commands.find? fun c => c.keyword <+: line).bind (Command.choose line) := by
    refine find?_flatMap (fun c hc => ?_) ?_
    · rw [find?_keywords c (commands_n c hc).1]
      simp only [decide_eq_true_eq]
    · refine commands_key.imp fun {c c'} hkey hstart hnone e he hstart' => ?_
      rw [decide_eq_true_eq] at hstart hstart'
      have haction : c.action = .key := by
        cases haction : c.action <;> simp [Command.choose, haction] at hnone ⊢
      obtain ⟨hshort, hlong⟩ := hkey haction e he
      exact (List.prefix_or_prefix_of_prefix hstart' hstart).elim hshort hlong
  rw [process, List.find?_congr htest, hfirst, Option.bind_assoc]
  refine Option.bind_congr fun c hc => act_eq c ?_ ?_
  · exact (commands_n c (List.mem_of_find?_eq_some hc)).1
  · simpa using List.find?_some hc

/-! ## What is sent -/

theorem trackLong_mem : (bytes "TRACK_LONG", .trackLong, false) ∈ keywords := by
  rw [keywords_eq]
  simp

/-- The first keyword is a longest one unless the line starts with the one that is shadowed. -/
theorem longest_first_iff {k : List UInt8 × InputEvent × Bool} (hk : first keywords line = some k) :
    Longest keywords line k ↔ ¬bytes "TRACK_LONG" <+: line := by
  constructor
  · intro hlongest hstart
    have hkeyword := keywords_trackLong k hlongest.mem
      (hlongest.isPrefix_of_isPrefix trackLong_mem hstart)
    rw [hkeyword] at hk
    exact first_ne_of_shadowed keywords_eq keywords_trackLong_table.2.2 (by decide) trackLong_not_mem hk
  · intro hnot
    refine longest_of_first (keywords_shadowed.imp fun {a b} hshadowed hab hb => ?_) hk
    exact hnot (hshadowed hab ▸ hb)

/-- **A keyword is right** if it is a longest one, and its link is copied as a whole. -/
theorem means_respond_iff {k : List UInt8 × InputEvent × Bool} (hk : k ∈ keywords)
    (hstart : k.1 <+: line) :
    Means line (respond line memory k) ↔ Longest keywords line k ∧
      (k.2.2 = true → memory = true ∧ 0 ∉ line.drop k.1.length) := by
  cases hlink : k.2.2 with
  | false =>
    simp only [respond, hlink, Bool.false_eq_true, if_false, false_imp_iff, and_true]
    constructor
    · rintro ⟨k', hlongest, hsent⟩
      have hevent := congrArg Sent.event hsent
      rwa [keywords_event k hk k' hlongest.mem hevent]
    · exact fun hlongest => ⟨k, hlongest, by rw [hlink]; rfl⟩
  | true =>
    cases memory with
    | false =>
      simp only [respond, hlink, if_true, Bool.false_eq_true, if_false, false_and, imp_false,
        not_true_eq_false, and_false, iff_false]
      exact fun hnone => hnone k hk hstart
    | true =>
      simp only [respond, hlink, if_true, true_and, true_imp_iff, ← takeWhile_eq_self_iff]
      constructor
      · rintro ⟨k', hlongest, hsent⟩
        obtain rfl := keywords_event k hk k' hlongest.mem (congrArg Sent.event hsent)
        rw [hlink] at hsent
        exact ⟨hlongest, Option.some.inj (congrArg Sent.payload hsent)⟩
      · rintro ⟨hlongest, hwhole⟩
        exact ⟨k, hlongest, by rw [hlink, hwhole]; rfl⟩

/-- **A line** is decided right if its command is not lost, and only then. -/
theorem means_process_iff :
    Means line (process (line ++ 0 :: rest) memory) ↔ Clear line memory := by
  rw [process_eq]
  cases hk : first keywords line with
  | none =>
    have hnone := first_eq_none_iff.mp hk
    exact iff_of_true hnone ⟨hnone _ trackLong_mem, fun k hmem _ hstart =>
      absurd hstart (hnone k hmem)⟩
  | some k =>
    obtain ⟨hmem, hstart⟩ := mem_of_first hk
    rw [Option.bind_some, means_respond_iff hmem hstart, longest_first_iff hk]
    constructor
    · rintro ⟨hnot, hlink⟩
      refine ⟨hnot, fun k' hk' hlink' hstart' => ?_⟩
      have hlongest := (longest_first_iff hk).mpr hnot
      obtain rfl := keywords_link k' hk' k hmem hlink'
        (hlongest.isPrefix_of_isPrefix hk' hstart')
      exact hlink hlink'
    · rintro ⟨hnot, hlink⟩
      exact ⟨hnot, fun hlink' => hlink k hmem hlink' hstart⟩

/-! ## Runs -/

/-- What the buffer has of a piece that was cut off. -/
def content (c : List (UInt8 × Bool) × UInt8 × Bool) : List UInt8 :=
  c.1.map Prod.fst ++ if Ends c.2 then [] else [c.2.1]

/-- What is sent for a piece. -/
def decision (c : List (UInt8 × Bool) × UInt8 × Bool) : Option Sent :=
  (first keywords (content c)).bind (respond (content c) c.2.2)

/-- What the loop has read, and what it has sent. -/
structure Inv (tr : List Label) (s : State) : Prop where
  decisions : decisions tr = (chunks Ends (bufferSize - 1) (received tr)).1.map decision
  /-- after what was read of a line the buffer has what is left of others, and ends with a zero -/
  read : s.pc = .read → s.n = (chunks Ends (bufferSize - 1) (received tr)).2.length ∧
    ∃ x old, s.buffer = (chunks Ends (bufferSize - 1) (received tr)).2.map Prod.fst ++
      x :: (old ++ [0]) ∧ s.n + 1 + old.length = bufferSize - 1
  select : s.pc = .select → (chunks Ends (bufferSize - 1) (received tr)).2 = [] ∧
    ∃ old, s.buffer = old ++ [0] ∧ old.length = bufferSize - 1

variable {s t : State} {tr : List Label} {a : Label} {b : UInt8}

theorem Inv.init : Inv [] init where
  decisions := rfl
  read := nofun
  select _ := ⟨rfl, List.replicate (bufferSize - 1) 0, List.replicate_succ', List.length_replicate⟩

/-- A turn that reads nothing. -/
theorem Inv.idle {e : Event} (h : Inv tr s) (he : received (tr ++ [(e, none)]) = received tr)
    (hread : t.pc = .read → s.pc = .read ∧ t = s ∨ s.pc = .select ∧ t = ⟨.read, 0, s.buffer⟩)
    (hselect : t.pc = .select → t = s) : Inv (tr ++ [(e, none)]) t := by
  have hdecisions : InputSocket.decisions (tr ++ [(e, none)]) = InputSocket.decisions tr := by
    simp [InputSocket.decisions]
  refine ⟨by rw [hdecisions, he]; exact h.decisions, fun hpc => ?_, fun hpc => ?_⟩
  · rw [he]
    rcases hread hpc with ⟨hs, rfl⟩ | ⟨hs, rfl⟩
    · exact h.read hs
    · obtain ⟨hnil, old, hbuffer, hlen⟩ := h.select hs
      have hpos : 0 < old.length := hlen.symm ▸ by decide
      obtain ⟨x, old, rfl⟩ := List.exists_cons_of_length_pos hpos
      rw [hnil]
      refine ⟨rfl, x, old, hbuffer, ?_⟩
      rw [List.length_cons] at hlen
      simp only
      omega
  · rw [he]
    obtain rfl := hselect hpc
    exact h.select hpc

theorem received_byte {o : Option (Option Sent)} {memory : Bool} :
    received (tr ++ [(Event.read false (.byte b memory), o)]) = received tr ++ [(b, memory)] := by
  simp [received]

theorem Inv.cut {sent : Option Sent} {memory : Bool} (h : Inv tr s)
    (hcut : chunks Ends (bufferSize - 1) (received tr ++ [(b, memory)]) =
      ((chunks Ends (bufferSize - 1) (received tr)).1 ++
        [((chunks Ends (bufferSize - 1) (received tr)).2, (b, memory))], []))
    (hsent : sent = decision ((chunks Ends (bufferSize - 1) (received tr)).2, (b, memory)))
    (hpc : t.pc = .select) (hbuffer : ∃ old, t.buffer = old ++ [0] ∧ old.length = bufferSize - 1) :
    Inv (tr ++ [(Event.read false (.byte b memory), some sent)]) t := by
  refine ⟨?_, fun hread => ?_, fun _ => ?_⟩
  · rw [received_byte, hcut, List.map_append, ← h.decisions, List.map_singleton, ← hsent]
    simp [InputSocket.decisions]
  · rw [hpc] at hread
    cases hread
  · rw [received_byte, hcut]
    exact ⟨rfl, hbuffer⟩

/-- **A byte**: it is the next one of a line, or the line is decided. -/
theorem Inv.store (h : Inv tr s) (hpc : s.pc = .read) (memory : Bool) :
    Inv (tr ++ [(Event.read false (.byte b memory), (store s b memory).2)]) (store s b memory).1 := by
  obtain ⟨hn, x, old, hbuffer, hlen⟩ := h.read hpc
  have hset (c : UInt8) : s.buffer.set s.n c =
      (chunks Ends (bufferSize - 1) (received tr)).2.map Prod.fst ++ c :: (old ++ [0]) := by
    rw [hbuffer, hn, List.set_append_right _ _ (by simp)]
    simp
  by_cases hb : b = 10
  · simp only [InputSocket.store, if_pos hb, List.set_set]
    simp only [hset]
    refine h.cut (chunks_cut (.inl hb)) ?_ rfl
      ⟨(chunks Ends (bufferSize - 1) (received tr)).2.map Prod.fst ++ 0 :: old, by simp, ?_⟩
    · rw [process_eq, decision, content, if_pos hb, List.append_nil]
    · rw [List.length_append, List.length_map, List.length_cons, ← hn]
      omega
  · by_cases hfull : s.n + 1 < bufferSize - 1
    · simp only [InputSocket.store, if_neg hb, if_pos hfull, hset]
      obtain ⟨y, old, rfl⟩ := List.exists_cons_of_length_pos (by omega : 0 < old.length)
      have hkeep : chunks Ends (bufferSize - 1) (received tr ++ [(b, memory)]) =
          ((chunks Ends (bufferSize - 1) (received tr)).1,
            (chunks Ends (bufferSize - 1) (received tr)).2 ++ [(b, memory)]) :=
        chunks_keep hb (by omega)
      refine ⟨?_, fun _ => ?_, by rintro ⟨⟩⟩
      · rw [received_byte, hkeep, ← h.decisions]
        simp [InputSocket.decisions]
      · rw [received_byte, hkeep]
        refine ⟨by simp [hn], y, old, by simp, ?_⟩
        rw [List.length_cons] at hlen
        simp only
        omega
    · simp only [InputSocket.store, if_neg hb, if_neg hfull, hset]
      obtain rfl : old = [] := List.eq_nil_of_length_eq_zero (by omega)
      refine h.cut (chunks_cut (.inr (by simp only [List.length_nil] at hlen; omega))) ?_ rfl
        ⟨(chunks Ends (bufferSize - 1) (received tr)).2.map Prod.fst ++ [b], by simp, ?_⟩
      · rw [decision, content, if_neg hb, ← process_eq []]
        simp
      · rw [List.length_append, List.length_map, List.length_singleton, ← hn]
        simp only [List.length_nil] at hlen
        omega

theorem Inv.step (h : Inv tr s) (hs : Step step s a t) : Inv (tr ++ [a]) t := by
  obtain ⟨e, o⟩ := a
  cases e with
  | select quit broken n =>
    have hnothing (o : Option (Option Sent)) :
        received (tr ++ [(Event.select quit broken n, o)]) = received tr := by simp [received]
    simp only [Step, InputSocket.step] at hs
    split at hs
    · cases hs
    rename_i hpc
    rw [not_not] at hpc
    split at hs
    · cases hs
      exact h.idle (hnothing none) nofun nofun
    · split at hs <;> cases hs
      · exact h.idle (hnothing none) (fun hread => .inl ⟨hread, rfl⟩) fun _ => rfl
      · exact h.idle (hnothing none) (fun hread => .inl ⟨hread, rfl⟩) fun _ => rfl
      · exact h.idle (hnothing none) (fun hread => .inl ⟨hread, rfl⟩) fun _ => rfl
      · exact h.idle (hnothing none) nofun nofun
      · exact h.idle (hnothing none) (fun _ => .inr ⟨hpc, rfl⟩) nofun
  | read quit ret =>
    simp only [Step, InputSocket.step] at hs
    split at hs
    · cases hs
    rename_i hpc
    rw [not_not] at hpc
    split at hs
    · rename_i hquit
      cases hs
      exact h.idle (by simp [received, hquit]) nofun nofun
    · rename_i hquit
      rw [Bool.not_eq_true] at hquit
      subst hquit
      split at hs
      · cases hs
        exact h.idle (by simp [received]) (fun hread => .inl ⟨hread, rfl⟩) fun _ => rfl
      · cases hs
        exact h.idle (by simp [received]) nofun nofun
      · cases hs
        exact h.idle (by simp [received]) nofun nofun
      · obtain ⟨rfl, rfl⟩ := Prod.ext_iff.mp (Option.some.inj hs)
        exact h.store hpc _

/-- **Without a bound** every piece is a line, which is decided right if its command is not lost. -/
theorem Inv.decided_iff_clean (h : Inv tr s) : Decided tr ↔ Clean tr := by
  rcases chunks_eq_or_lt Ends (by decide : 0 < bufferSize - 1) (received tr)
    with ⟨heq, hfits⟩ | ⟨hlt, hfits⟩
  · have hlines : InputSocket.decisions tr = (lines tr).map decision := by
      rw [h.decisions, heq, lines]
    have hmeans : ∀ line ∈ lines tr, (Means (line.1.map Prod.fst) (decision line) ↔
        Clear (line.1.map Prod.fst) line.2.2) := fun line hline => by
      rw [decision, content, if_pos (sep_of_mem_lines line hline), List.append_nil,
        ← process_eq [], means_process_iff]
    rw [Decided, hlines, List.forall₂_map_right_iff, List.forall₂_same]
    constructor
    · exact fun hall => ⟨hfits, fun line hline => (hmeans line hline).mp (hall line hline)⟩
    · exact fun hclean line hline => (hmeans line hline).mpr (hclean.clear line hline)
  · refine iff_of_false (fun hdecided => ?_) fun hclean => hfits hclean.fits
    have hlen := hdecided.length_eq
    rw [h.decisions, List.length_map] at hlen
    exact absurd hlen (Nat.ne_of_lt hlt)

theorem store_pc (b : UInt8) (memory : Bool) : (store s b memory).1.pc ≠ .ended := by
  unfold store
  split
  · nofun
  · split <;> nofun

/-- **Every stream** can be received. -/
theorem exists_run_received (l : List (UInt8 × Bool)) :
    ∃ tr s, Run (Step step) init tr s ∧ received tr = l ∧ s.pc ≠ .ended := by
  induction l using List.reverseRecOn with
  | nil => exact ⟨[], init, Run.nil, rfl, nofun⟩
  | append_singleton l a ih =>
    obtain ⟨b, memory⟩ := a
    have hready : ∃ tr s, Run (Step step) init tr s ∧ received tr = l ∧ s.pc = .read := by
      obtain ⟨tr, s, hrun, hreceived, hpc⟩ := ih
      cases hs : s.pc with
      | select =>
        have hstep : Step step s (.select false false (.ready true), none)
            { s with pc := .read, n := 0 } := by simp [Step, step, hs]
        exact ⟨_, _, hrun.snoc hstep, by simpa [received] using hreceived, rfl⟩
      | read => exact ⟨tr, s, hrun, hreceived, hs⟩
      | ended => exact absurd hs hpc
    obtain ⟨tr, s, hrun, hreceived, hpc⟩ := hready
    have hstep : Step step s (.read false (.byte b memory), (store s b memory).2)
        (store s b memory).1 := by simp [Step, step, hpc]
    exact ⟨_, _, hrun.snoc hstep, by rw [received_byte, hreceived], store_pc b memory⟩

/-- **Commands are decided**: in every run there is one decision for each line, in order, that sends
    the event of the longest keyword with which the line starts, if and only if all lines and what
    is left are shorter than the buffer, no line starts with the keyword that is shadowed, and links
    are copied and have no null byte. -/
theorem decided_iff (h : Run (Step step) init tr s) : Decided tr ↔ Clean tr :=
  (h.history (P := Inv) Inv.init fun _ _ _ _ ht hs => ht.step hs).decided_iff_clean

instance (line : List UInt8) (memory : Bool) : Decidable (Clear line memory) :=
  decidable_of_iff (¬bytes "TRACK_LONG" <+: line ∧ ∀ k ∈ keywords, k.2.2 = true → k.1 <+: line →
    memory = true ∧ 0 ∉ line.drop k.1.length) ⟨fun h => ⟨h.1, h.2⟩, fun h => ⟨h.1, h.2⟩⟩

instance (tr : List Label) : Decidable (Clean tr) :=
  decidable_of_iff (((∀ c ∈ lines tr, c.1.length < bufferSize - 1) ∧
      (chunks Ends 0 (received tr)).2.length < bufferSize - 1) ∧
    ∀ line ∈ lines tr, Clear (line.1.map Prod.fst) line.2.2)
    ⟨fun h => ⟨⟨h.1.1, h.1.2⟩, h.2⟩, fun h => ⟨⟨h.1.line, h.1.rest⟩, h.2⟩⟩

/-- The turns of the loop that read these bytes after `select` has answered. -/
def reading (line : List UInt8) : List Event :=
  .select false false (.ready true) :: line.map fun b => .read false (.byte b true)

/-- A link, a key in two reads, and an unknown command. -/
theorem decided_links :
    ∃ tr s, Run (Step step) init tr s ∧
      decisions tr = [some ⟨.url, some (bytes "a")⟩, some ⟨.kbd 'Z', none⟩, none] ∧ Decided tr := by
  obtain ⟨tr, s, hrun, hsent, hclean⟩ := exists_run_of_exec step init
    (fun tr _ => decisions tr = [some ⟨.url, some (bytes "a")⟩, some ⟨.kbd 'Z', none⟩, none] ∧
      Clean tr)
    (reading (bytes "URL:a" ++ [10]) ++ reading (bytes "KEY:") ++ [Event.read false .again] ++
      (bytes "Z" ++ [10]).map (fun b => .read false (.byte b true)) ++
      reading (bytes "JUMP" ++ [10]))
    (by decide +kernel)
  exact ⟨tr, s, hrun, hsent, (decided_iff hrun).mpr hclean⟩

/-- The keyword of a long press on the track key is not found. -/
theorem decided_shadowed :
    ∃ tr s, Run (Step step) init tr s ∧ decisions tr = [some ⟨.track, none⟩] ∧ ¬Decided tr := by
  obtain ⟨tr, s, hrun, hsent, hclean⟩ := exists_run_of_exec step init
    (fun tr _ => decisions tr = [some ⟨.track, none⟩] ∧ ¬Clean tr)
    (reading (bytes "TRACK_LONG" ++ [10])) (by decide +kernel)
  have hinv : Inv tr s := hrun.history (P := Inv) Inv.init fun _ _ _ _ ht hs => ht.step hs
  exact ⟨tr, s, hrun, hsent, fun hdecided => hclean (hinv.decided_iff_clean.mp hdecided)⟩

end Mediabox.InputSocket
