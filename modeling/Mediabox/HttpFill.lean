import Mediabox.HttpStream

/-!
# Filling a buffer of the HTTP stream

What `avbox_httpstream_fillbuf` does, for every way in which cURL hands over the content.

* `fillbuf_core`, `fillbuf_length` — it leaves the readahead fields alone and takes at most `size`
  bytes, whatever the state of the handle.
* `Source content f pos` — what the handle has still to give starts at offset `pos`: first the
  bytes left over in `buf`, then those of the transfer.
* `fillbuf_source` — the bytes taken are those at `pos`, and the handle goes on behind them.
* `fillbuf_ends` — without errors the call takes `size` bytes or the transfer is over.
-/

set_option autoImplicit false

namespace Mediabox.HttpStream

open Ring

variable {content : List UInt8} {f f' g : File} {cb cb' : Cbdata} {out : List UInt8} {ok : Bool}
  {polls : List Poll} {size : Nat}

/-! ## What it leaves alone -/

/-- The handle without the fields that belong to the transfer. -/
def File.core (f : File) : File :=
  { f with
    transfer := .fresh, resume := 0, result := .ok, connected := false, buf := [], ptr := 0
    bufcnt := 0 }

/-- What `curl_multi_perform` keeps, the loop keeps. -/
theorem pollLoop_rule {P : File → Cbdata → Prop}
    (hperform : ∀ f cb p, P f cb →
      P (multiPerform content f cb p).file (multiPerform content f cb p).cb)
    (hresult : ∀ f cb result, P f cb → P { f with result := result } cb) :
    ∀ {polls f cb still}, P f cb → pollLoop content polls f cb still = some (f', out, ok) →
      ∃ cb', P f' cb' ∧ cb'.out = out ∧ (ok = true → out ≠ []) := by
  intro polls
  induction polls with
  | nil => exact fun _ h => nomatch h
  | cons poll polls ih =>
    intro f cb still hP h
    cases poll with
    | fdset =>
      cases h
      exact ⟨cb, hP, rfl, fun hok => nomatch hok⟩
    | failed =>
      rw [pollLoop] at h
      split at h
      · exact ih hP h
      · cases h
        exact ⟨cb, hP, rfl, by simp⟩
    | perform p =>
      rw [pollLoop] at h
      split at h
      · exact ih (hresult _ _ _ (hperform _ _ p hP)) h
      · cases h
        exact ⟨_, hresult _ _ _ (hperform _ _ p hP), rfl, by simp⟩

theorem connected_cases {still : Bool}
    (h : connected content polls f cb still = some (f', out, ok)) :
    (still = false ∧ cb.out = [] ∧ out = [] ∧ ok = false ∧
      f' = { f with connected := false, transfer := .gone, result := .couldntConnect }) ∨
    (f' = { f with connected := still } ∧ out = cb.out ∧ ok = true ∧
      (still = false ∧ cb.out ≠ [] ∨ still = true ∧ cb.rem = 0)) ∨
    (still = true ∧ pollLoop content polls { f with connected := true } cb true =
      some (f', out, ok)) := by
  unfold connected at h
  split at h
  · rename_i hstill
    subst hstill
    split at h
    · rename_i hout
      cases h
      exact .inl ⟨rfl, hout, rfl, rfl, rfl⟩
    · rename_i hout
      cases h
      exact .inr (.inl ⟨rfl, rfl, rfl, .inl ⟨rfl, hout⟩⟩)
  · rename_i hstill
    rw [Bool.not_eq_false] at hstill
    subst hstill
    split at h
    · rename_i hrem
      cases h
      exact .inr (.inl ⟨rfl, rfl, rfl, .inr ⟨rfl, hrem⟩⟩)
    · exact .inr (.inr ⟨rfl, h⟩)

/-- The first call of `curl_multi_perform` and what it leaves. -/
theorem connect_cases (h : connect content f cb polls = some (f', out, ok)) :
    (∃ p rest, polls = .perform p :: rest ∧
      let r := multiPerform content f.setResume cb p
      connected content rest r.file r.cb r.still = some (f', out, ok)) ∨
    (∃ rest, polls = .failed :: rest ∧
      connected content rest f.setResume cb false = some (f', out, ok)) := by
  unfold connect at h
  split at h
  · rename_i p rest
    exact .inl ⟨p, rest, rfl, h⟩
  · rename_i rest
    exact .inr ⟨rest, rfl, h⟩
  · cases h

theorem fillbuf_cases (h : fillbuf content f size polls = some (f', out, ok)) :
    (0 < min f.bufcnt size ∧ size ≤ f.bufcnt ∧ f' = f.dropLeft size ∧
      out = (f.takeLeft size).out ∧ ok = true) ∨
    ((0 < min f.bufcnt size → f.bufcnt < size) ∧ f.connected = true ∧
      pollLoop content polls (f.emptied size) (f.takeLeft size) false =
        some (f', out, ok)) ∨
    ((0 < min f.bufcnt size → f.bufcnt < size) ∧ f.connected = false ∧
      connect content (f.emptied size) (f.takeLeft size) polls =
        some (f', out, ok)) := by
  unfold fillbuf at h
  split at h
  · rename_i hfull
    cases h
    have hrem : size - min f.bufcnt size = 0 := hfull.2
    exact .inl ⟨hfull.1, by omega, rfl, rfl, rfl⟩
  · rename_i hmore
    have hlt : 0 < min f.bufcnt size → f.bufcnt < size := by
      intro hpos
      have hrem : ¬ size - min f.bufcnt size = 0 := fun h0 => hmore ⟨hpos, h0⟩
      omega
    split at h
    · rename_i hconn
      exact .inr (.inl ⟨hlt, hconn, h⟩)
    · rename_i hconn
      exact .inr (.inr ⟨hlt, by simpa using hconn, h⟩)

/-- What taking bytes off the transfer keeps of the handle `f`, for a call that asks for `size`. -/
def Kept (f : File) (size : Nat) (g : File) (cb : Cbdata) : Prop :=
  g.core = f.core ∧ cb.out.length + cb.rem ≤ size

theorem writecb_kept {h : File} (hkept : Kept h size g cb) (data : List UInt8) :
    Kept h size (writecb g cb data).1 (writecb g cb data).2 := by
  obtain ⟨hcore, hlen⟩ := hkept
  refine ⟨hcore, ?_⟩
  simp only [writecb, List.length_append, List.length_take]
  omega

theorem deliver_kept {h : File} (content : List UInt8) (sizes : List Nat) :
    ∀ {g : File} {cb : Cbdata} (pos : Nat), Kept h size g cb →
      Kept h size (deliver content sizes g cb pos).1 (deliver content sizes g cb pos).2.1 := by
  induction sizes with
  | nil => exact fun _ hkept => hkept
  | cons _ _ ih => exact fun _ hkept => ih _ (writecb_kept hkept _)

theorem multiPerform_kept {h : File} (hkept : Kept h size g cb) (p : Perform) :
    Kept h size (multiPerform content g cb p).file (multiPerform content g cb p).cb := by
  unfold multiPerform
  split
  · exact hkept
  · rename_i start _
    have hdel := deliver_kept content p.writes start hkept
    dsimp only
    split <;> exact hdel

theorem connected_kept {h : File} {still : Bool} (hkept : Kept h size g cb)
    (hconn : connected content polls g cb still = some (f', out, ok)) :
    f'.core = h.core ∧ out.length ≤ size := by
  obtain ⟨hcore, hlen⟩ := hkept
  obtain ⟨-, -, rfl, -, rfl⟩ | ⟨rfl, rfl, -⟩ | ⟨-, hloop⟩ := connected_cases hconn
  · exact ⟨hcore, Nat.zero_le _⟩
  · exact ⟨hcore, by omega⟩
  · obtain ⟨cb', ⟨hcore', hlen'⟩, rfl, -⟩ := pollLoop_rule (P := Kept h size)
      (fun _ _ p hk => multiPerform_kept hk p) (fun _ _ _ hk => hk)
      (show Kept h size { g with connected := true } cb from ⟨hcore, hlen⟩) hloop
    exact ⟨hcore', by omega⟩

theorem fillbuf_kept (h : fillbuf content f size polls = some (f', out, ok)) :
    f'.core = f.core ∧ out.length ≤ size := by
  have hleft : Kept f size (f.emptied size) (f.takeLeft size) := by
    refine ⟨rfl, ?_⟩
    simp only [File.takeLeft, List.length_take]
    omega
  obtain ⟨-, -, rfl, rfl, -⟩ | ⟨-, -, hloop⟩ | ⟨-, -, hconn⟩ := fillbuf_cases h
  · refine ⟨rfl, ?_⟩
    simp only [File.takeLeft, List.length_take]
    omega
  · obtain ⟨cb', ⟨hcore, hlen⟩, rfl, -⟩ := pollLoop_rule (P := Kept f size)
      (fun _ _ p hk => multiPerform_kept hk p) (fun _ _ _ hk => hk) hleft hloop
    exact ⟨hcore, by omega⟩
  · have hset : Kept f size (f.emptied size).setResume (f.takeLeft size) := hleft
    obtain ⟨p, rest, -, hconn⟩ | ⟨rest, -, hconn⟩ := connect_cases hconn
    · exact connected_kept (multiPerform_kept hset p) hconn
    · exact connected_kept hset hconn

theorem fillbuf_core (h : fillbuf content f size polls = some (f', out, ok)) : f'.core = f.core :=
  (fillbuf_kept h).1

theorem fillbuf_length (h : fillbuf content f size polls = some (f', out, ok)) :
    out.length ≤ size :=
  (fillbuf_kept h).2

/-! ## Which bytes it takes -/

/-- The transfer goes on behind the bytes that are left over from offset `pos` on. -/
def File.Next (f : File) (pos : Nat) : Prop :=
  match f.transfer with
  | .fresh => f.connected = false ∧ f.bufcnt = 0
  | .active p => p = pos + f.bufcnt
  | .done p => p = pos + f.bufcnt
  | .gone => f.bufcnt = 0

/-- What the handle has still to give starts at offset `pos`. -/
structure Source (content : List UInt8) (f : File) (pos : Nat) : Prop where
  room : f.ptr + f.bufcnt ≤ f.buf.length
  left : (f.buf.drop f.ptr).take f.bufcnt <+: content.drop pos
  next : f.Next pos

theorem source_doseek (content : List UInt8) (f : File) (offset : Nat) :
    Source content (doseek f offset) offset := by
  refine ⟨Nat.zero_le _, List.nil_prefix, ?_⟩
  unfold File.Next doseek
  by_cases hgone : f.transfer = .gone
  · simp [hgone]
  · simp [hgone]

/-- A call for `size` bytes from offset `base` on, when the next write callback gets the byte at
    offset `pos`. -/
structure Taking (content : List UInt8) (base size : Nat) (f : File) (cb : Cbdata) (pos : Nat) :
    Prop where
  front : f.ptr = 0
  room : f.bufcnt ≤ f.buf.length
  left : f.buf.take f.bufcnt <+: content.drop (base + cb.out.length)
  out : cb.out <+: content.drop base
  whole : cb.out.length + cb.rem = size
  empty : 0 < cb.rem → f.bufcnt = 0
  here : pos = base + cb.out.length + f.bufcnt

variable {base pos : Nat} {data : List UInt8}

/-- It depends on the bytes left over alone. -/
theorem Taking.keep (h : Taking content base size f cb pos) (hbuf : g.buf = f.buf)
    (hptr : g.ptr = f.ptr) (hcnt : g.bufcnt = f.bufcnt) : Taking content base size g cb pos := by
  refine ⟨hptr.trans h.front, ?_, ?_, h.out, h.whole, fun hrem => hcnt.trans (h.empty hrem), ?_⟩
  · rw [hbuf, hcnt]
    exact h.room
  · rw [hbuf, hcnt]
    exact h.left
  · rw [hcnt]
    exact h.here

theorem Taking.at_here (h : Taking content base size f cb pos) :
    Taking content base size f cb (base + cb.out.length + f.bufcnt) := by
  rw [← h.here]
  exact h

theorem writecb_spare (h : Taking content base size f cb pos) (hdata : data <+: content.drop pos)
    (hrem : cb.rem = 0) :
    Taking content base size (writecb f cb data).1 (writecb f cb data).2 (pos + data.length) := by
  have hlen : (f.buf.take f.bufcnt).length = f.bufcnt := by
    rw [List.length_take]
    exact Nat.min_eq_left h.room
  have hleft : f.buf.take f.bufcnt ++ data <+: content.drop (base + cb.out.length) := by
    apply prefix_append_drop h.left
    rw [hlen, List.drop_drop, ← h.here]
    exact hdata
  have hwhole := h.whole
  simp only [writecb, hrem, Nat.min_zero, List.drop_zero, List.take_zero, List.append_nil]
  refine ⟨h.front, ?_, ?_, h.out, ?_, ?_, ?_⟩
  · simp only [List.length_append, hlen]
    omega
  · rw [List.take_append_of_le_length (by rw [List.length_append, hlen]),
      List.take_of_length_le (by rw [List.length_append, hlen])]
    exact hleft
  · dsimp only
    omega
  · intro hpos
    exact absurd hpos (Nat.lt_irrefl 0)
  · have hhere := h.here
    dsimp only
    omega

theorem writecb_wanted (h : Taking content base size f cb pos) (hdata : data <+: content.drop pos)
    (hrem : 0 < cb.rem) :
    Taking content base size (writecb f cb data).1 (writecb f cb data).2 (pos + data.length) := by
  have hcnt := h.empty hrem
  have hhere := h.here
  have hwhole := h.whole
  have hpos : pos = base + cb.out.length := by omega
  have hle : min data.length cb.rem ≤ data.length := Nat.min_le_left _ _
  have htake : (data.take (min data.length cb.rem)).length = min data.length cb.rem := by
    rw [List.length_take]
    omega
  have hout : cb.out ++ data.take (min data.length cb.rem) <+: content.drop base := by
    apply prefix_append_drop h.out
    rw [List.drop_drop, ← hpos]
    exact (List.take_prefix _ _).trans hdata
  have hrest : data.drop (min data.length cb.rem) <+:
      content.drop (base + (cb.out.length + min data.length cb.rem)) := by
    rw [← Nat.add_assoc, ← hpos, ← List.drop_drop]
    exact drop_prefix_drop hdata hle
  refine ⟨h.front, ?_, ?_, hout, ?_, ?_, ?_⟩
  · simp only [writecb, hcnt, List.length_append, List.take_zero, List.length_nil]
    omega
  · simp only [writecb, hcnt, List.take_zero, List.nil_append, Nat.zero_add, List.length_append,
      htake, List.take_left]
    exact hrest
  · simp only [writecb, List.length_append, htake]
    omega
  · intro hmore
    simp only [writecb, hcnt, List.length_drop] at hmore ⊢
    omega
  · simp only [writecb, hcnt, List.length_append, htake, List.length_drop]
    omega

theorem writecb_taking (h : Taking content base size f cb pos)
    (hdata : data <+: content.drop pos) :
    Taking content base size (writecb f cb data).1 (writecb f cb data).2 (pos + data.length) := by
  rcases Nat.eq_zero_or_pos cb.rem with hrem | hrem
  · exact writecb_spare h hdata hrem
  · exact writecb_wanted h hdata hrem

theorem deliver_taking (sizes : List Nat) :
    ∀ {f : File} {cb : Cbdata} {pos : Nat}, Taking content base size f cb pos →
      let r := deliver content sizes f cb pos
      Taking content base size r.1 r.2.1 r.2.2 := by
  induction sizes with
  | nil => exact fun h => h
  | cons n sizes ih => exact fun h => ih (writecb_taking h (List.take_prefix n _))

/-- A call under way, with the transfer where it should be. -/
def Underway (content : List UInt8) (base size : Nat) (f : File) (cb : Cbdata) : Prop :=
  Taking content base size f cb (base + cb.out.length + f.bufcnt) ∧
    f.Next (base + cb.out.length) ∧ (f.transfer = .fresh → f.resume = base ∧ cb.out = [])

theorem Underway.source (h : Underway content base size f cb) :
    Source content f (base + cb.out.length) := by
  obtain ⟨htaking, hnext, -⟩ := h
  refine ⟨?_, ?_, hnext⟩
  · rw [htaking.front, Nat.zero_add]
    exact htaking.room
  · rw [htaking.front, List.drop_zero]
    exact htaking.left

/-- The next byte that cURL delivers is the one behind those taken and left over. -/
theorem Underway.start (h : Underway content base size f cb) {start : Nat}
    (hstart : f.start = some start) : start = base + cb.out.length + f.bufcnt := by
  obtain ⟨-, hnext, hfresh⟩ := h
  unfold File.start at hstart
  unfold File.Next at hnext
  split at hstart
  · rename_i htransfer
    obtain ⟨hresume, hout⟩ := hfresh htransfer
    simp only [htransfer] at hnext
    cases hstart
    simp [hresume, hout, hnext.2]
  · rename_i htransfer
    simp only [htransfer] at hnext
    cases hstart
    exact hnext
  · cases hstart
  · cases hstart

theorem multiPerform_underway (h : Underway content base size f cb) (p : Perform) :
    Underway content base size (multiPerform content f cb p).file
      (multiPerform content f cb p).cb := by
  unfold multiPerform
  split
  · exact h
  · rename_i start hstart
    have htaking := h.1
    rw [← h.start hstart] at htaking
    have hdel := (deliver_taking p.writes htaking).at_here
    have hhere := (deliver_taking p.writes htaking).here
    dsimp only
    split
    · exact ⟨hdel.keep rfl rfl rfl, hhere, fun hfresh => nomatch hfresh⟩
    · exact ⟨hdel.keep rfl rfl rfl, hhere, fun hfresh => nomatch hfresh⟩

theorem pollLoop_source {still : Bool} (h : Underway content base size f cb)
    (hloop : pollLoop content polls f cb still = some (f', out, ok)) :
    Source content f' (base + out.length) ∧ out <+: content.drop base := by
  obtain ⟨cb', hunder, rfl, -⟩ := pollLoop_rule (P := Underway content base size)
    (fun _ _ p hk => multiPerform_underway hk p)
    (fun _ _ _ hk => ⟨hk.1.keep rfl rfl rfl, hk.2⟩) h hloop
  exact ⟨hunder.source, hunder.1.out⟩

theorem Underway.setConnected {still : Bool} (h : Underway content base size f cb)
    (hstarted : f.transfer ≠ .fresh ∨ still = false) :
    Underway content base size { f with connected := still } cb := by
  obtain ⟨htaking, hnext, hfresh⟩ := h
  refine ⟨htaking.keep rfl rfl rfl, ?_, hfresh⟩
  unfold File.Next at hnext ⊢
  cases htransfer : f.transfer with
  | fresh =>
    simp only [htransfer] at hnext ⊢
    rcases hstarted with hne | hstill
    · exact absurd htransfer hne
    · exact ⟨hstill, hnext.2⟩
  | active p | done p | gone => simpa [htransfer] using hnext

theorem Underway.nothing_left (h : Underway content base size f cb) (hsize : 0 < size)
    (hout : cb.out = []) : f.bufcnt = 0 := by
  have hwhole := h.1.whole
  rw [hout, List.length_nil] at hwhole
  exact h.1.empty (by omega)

theorem multiPerform_started (p : Perform) :
    (multiPerform content f cb p).file.transfer ≠ .fresh := by
  unfold multiPerform
  split
  · rename_i hstart
    intro hfresh
    have hsome : f.start = some f.resume := by
      unfold File.start
      rw [show f.transfer = .fresh from hfresh]
    rw [hsome] at hstart
    cases hstart
  · dsimp only
    split <;> exact fun hfresh => nomatch hfresh

/-- The rest of the call after its first `curl_multi_perform`. -/
theorem connected_source {still : Bool} (h : Underway content base size f cb) (hsize : 0 < size)
    (hstarted : f.transfer ≠ .fresh ∨ still = false)
    (hconn : connected content polls f cb still = some (f', out, ok)) :
    Source content f' (base + out.length) ∧ out <+: content.drop base := by
  obtain ⟨-, hout, rfl, -, rfl⟩ | ⟨rfl, rfl, -⟩ | ⟨rfl, hloop⟩ := connected_cases hconn
  · have hcnt := h.nothing_left hsize hout
    refine ⟨⟨h.source.room, ?_, hcnt⟩, List.nil_prefix⟩
    dsimp only
    rw [hcnt, List.take_zero]
    exact List.nil_prefix
  · exact ⟨(h.setConnected hstarted).source, h.1.out⟩
  · exact pollLoop_source (h.setConnected hstarted) hloop

theorem Source.dropLeft (h : Source content f base) (hle : size ≤ f.bufcnt) :
    Source content (f.dropLeft size) (base + (f.takeLeft size).out.length) ∧
      (f.takeLeft size).out <+: content.drop base := by
  have hroom := h.room
  have hmin : min f.bufcnt size = size := Nat.min_eq_right hle
  have hlen : ((f.buf.drop f.ptr).take size).length = size := by
    rw [List.length_take, List.length_drop]
    omega
  have hleft := h.left
  simp only [File.dropLeft, File.takeLeft, hmin, hlen]
  refine ⟨⟨?_, ?_, ?_⟩, ?_⟩
  · dsimp only
    omega
  · have hdrop := drop_prefix_drop hleft (n := size) (by
      rw [List.length_take, List.length_drop]
      omega)
    rw [List.drop_take, List.drop_drop, List.drop_drop] at hdrop
    exact hdrop
  · have hnext := h.next
    unfold File.Next at hnext ⊢
    cases htransfer : f.transfer with
    | fresh =>
      simp only [htransfer] at hnext ⊢
      exact ⟨hnext.1, by omega⟩
    | active p | done p | gone =>
      simp only [htransfer] at hnext ⊢
      omega
  · refine List.IsPrefix.trans ?_ hleft
    exact List.take_prefix_take_left hle

/-- The call after the bytes left over were taken and were not enough. -/
theorem Source.emptied (h : Source content f base) (hlt : f.bufcnt < size) :
    Taking content base size (f.emptied size) (f.takeLeft size)
        (base + (f.takeLeft size).out.length + (f.emptied size).bufcnt) ∧
      (f.emptied size).Next (base + (f.takeLeft size).out.length) ∧
      (f.transfer = .fresh → (f.takeLeft size).out = []) := by
  have hmin : min f.bufcnt size = f.bufcnt := Nat.min_eq_left hlt.le
  have hcnt : (f.emptied size).bufcnt = 0 := by
    simp [File.emptied, File.dropLeft, hmin]
  have hout : (f.takeLeft size).out = (f.buf.drop f.ptr).take f.bufcnt := by
    rw [File.takeLeft, hmin]
  have hlen : (f.takeLeft size).out.length = f.bufcnt := by
    have hroom := h.room
    rw [hout, List.length_take, List.length_drop]
    omega
  have hrem : (f.takeLeft size).rem = size - f.bufcnt := by
    rw [File.takeLeft, hmin]
  refine ⟨⟨rfl, ?_, ?_, ?_, ?_, fun _ => hcnt, rfl⟩, ?_, ?_⟩
  · rw [hcnt]
    exact Nat.zero_le _
  · rw [hcnt, List.take_zero]
    exact List.nil_prefix
  · rw [hout]
    exact h.left
  · rw [hlen, hrem]
    omega
  · have hnext := h.next
    unfold File.Next at hnext ⊢
    rw [hcnt, hlen, Nat.add_zero]
    cases htransfer : f.transfer with
    | fresh =>
      simp only [htransfer] at hnext
      simpa [File.emptied, File.dropLeft, htransfer] using hnext.1
    | active p | done p => simpa [File.emptied, File.dropLeft, htransfer] using hnext
    | gone => simp [File.emptied, File.dropLeft, htransfer]
  · intro hfresh
    have hnext := h.next
    simp only [File.Next, hfresh] at hnext
    rw [hout, hnext.2, List.take_zero]

theorem Source.connected_underway (h : Source content f f.raOffset) (hconn : f.connected = true)
    (hlt : f.bufcnt < size) :
    Underway content f.raOffset size (f.emptied size) (f.takeLeft size) := by
  obtain ⟨htaking, hnext, -⟩ := h.emptied hlt
  refine ⟨htaking, hnext, fun hfresh => ?_⟩
  simp only [File.Next, hfresh] at hnext
  exact absurd (hconn.symm.trans hnext.1) Bool.noConfusion

/-- A handle that is not connected starts at `ra_offset`, unless it has started before. -/
theorem Source.setResume_underway (h : Source content f f.raOffset) (hlt : f.bufcnt < size) :
    Underway content f.raOffset size (f.emptied size).setResume (f.takeLeft size) := by
  obtain ⟨htaking, hnext, hfresh⟩ := h.emptied hlt
  exact ⟨htaking.keep rfl rfl rfl, hnext, fun hf => ⟨rfl, hfresh hf⟩⟩

/-- **Filling a buffer**: the bytes taken are those at `ra_offset`, and the handle goes on behind
    them. -/
theorem fillbuf_source (hsrc : Source content f f.raOffset) (hsize : 0 < size)
    (h : fillbuf content f size polls = some (f', out, ok)) :
    Source content f' (f.raOffset + out.length) ∧ out <+: content.drop f.raOffset := by
  obtain ⟨-, hle, rfl, rfl, -⟩ | ⟨hlt, hconn, hloop⟩ | ⟨hlt, -, hconn⟩ := fillbuf_cases h
  · exact hsrc.dropLeft hle
  · exact pollLoop_source (hsrc.connected_underway hconn (by omega)) hloop
  · have hunder := hsrc.setResume_underway (show f.bufcnt < size by omega)
    obtain ⟨p, rest, -, hconn⟩ | ⟨rest, -, hconn⟩ := connect_cases hconn
    · exact connected_source (multiPerform_underway hunder p) hsize
        (.inl (multiPerform_started p)) hconn
    · exact connected_source hunder hsize (.inr rfl) hconn

/-! ## When it ends -/

/-- cURL works: no call fails. -/
def Poll.isPerform : Poll → Bool
  | .perform _ => true
  | _ => false

/-- The transfer delivers nothing any more. -/
def Transfer.isOver : Transfer → Bool
  | .done _ => true
  | .gone => true
  | _ => false

theorem multiPerform_over {p : Perform} (hstill : (multiPerform content f cb p).still = false) :
    (multiPerform content f cb p).file.transfer.isOver = true := by
  unfold multiPerform at hstill ⊢
  split
  · rename_i hstart
    cases htransfer : f.transfer with
    | fresh | active pos => simp [File.start, htransfer] at hstart
    | done pos | gone => rfl
  · rename_i start hstart
    simp only [hstart] at hstill
    split at hstill
    · cases hstill
    · rfl

/-- How a call without errors ends: it has all the bytes it was asked for, or the transfer is over
    and nothing is left over; and it fails only with no bytes in its hands. -/
def Ends (f : File) (size : Nat) (out : List UInt8) (ok : Bool) : Prop :=
  (out.length = size ∨ f.transfer.isOver = true ∧ f.bufcnt = 0) ∧ (ok = false → out = [])

/-- The bytes are complete, or nothing can be left over. -/
theorem Underway.ends (h : Underway content base size f cb) (hok : ok = false → cb.out = [])
    (hover : cb.rem ≠ 0 → f.transfer.isOver = true) : Ends f size cb.out ok := by
  refine ⟨?_, hok⟩
  have hwhole := h.1.whole
  by_cases hrem : cb.rem = 0
  · exact .inl (by omega)
  · exact .inr ⟨hover hrem, h.1.empty (by omega)⟩

theorem pollLoop_ends {still : Bool} (hpolls : ∀ poll ∈ polls, poll.isPerform = true)
    (h : Underway content base size f cb)
    (hloop : pollLoop content polls f cb still = some (f', out, ok)) : Ends f' size out ok := by
  induction polls generalizing f cb still with
  | nil => cases hloop
  | cons poll polls ih =>
    cases poll with
    | fdset | failed => exact absurd (hpolls _ List.mem_cons_self) Bool.noConfusion
    | perform p =>
      have hstep := multiPerform_underway h p
      have hinfo : Underway content base size (multiPerform content f cb p).readInfo
        (multiPerform content f cb p).cb := ⟨hstep.1.keep rfl rfl rfl, hstep.2⟩
      rw [pollLoop] at hloop
      split at hloop
      · exact ih (fun poll hmem => hpolls poll (List.mem_cons_of_mem _ hmem)) hinfo hloop
      · rename_i hstop
        cases hloop
        refine hinfo.ends (by simp) fun hrem => multiPerform_over ?_
        cases hstill : (multiPerform content f cb p).still with
        | false => rfl
        | true => exact absurd ⟨hstill, by omega⟩ hstop

theorem connected_ends {still : Bool} (hpolls : ∀ poll ∈ polls, poll.isPerform = true)
    (h : Underway content base size f cb) (hsize : 0 < size)
    (hstarted : f.transfer ≠ .fresh ∨ still = false)
    (hover : still = false → f.transfer.isOver = true)
    (hconn : connected content polls f cb still = some (f', out, ok)) : Ends f' size out ok := by
  obtain ⟨-, hout, rfl, rfl, rfl⟩ | ⟨rfl, rfl, rfl, hlast⟩ | ⟨rfl, hloop⟩ := connected_cases hconn
  · exact ⟨.inr ⟨rfl, h.nothing_left hsize hout⟩, fun _ => rfl⟩
  · refine (h.setConnected hstarted).ends (fun hok => nomatch hok) fun hrem => ?_
    rcases hlast with ⟨hstill, -⟩ | ⟨-, hzero⟩
    · exact hover hstill
    · exact absurd hzero hrem
  · exact pollLoop_ends hpolls (h.setConnected hstarted) hloop

/-- **A call without errors** takes all the bytes it was asked for, or the transfer is over. -/
theorem fillbuf_ends (hsrc : Source content f f.raOffset) (hsize : 0 < size)
    (hpolls : ∀ poll ∈ polls, poll.isPerform = true)
    (h : fillbuf content f size polls = some (f', out, ok)) : Ends f' size out ok := by
  obtain ⟨-, hle, -, rfl, rfl⟩ | ⟨hlt, hconn, hloop⟩ | ⟨hlt, -, hconn⟩ := fillbuf_cases h
  · have hroom := hsrc.room
    refine ⟨.inl ?_, fun hok => nomatch hok⟩
    simp only [File.takeLeft, Nat.min_eq_right hle, List.length_take, List.length_drop]
    omega
  · exact pollLoop_ends hpolls (hsrc.connected_underway hconn (by omega)) hloop
  · have hunder := hsrc.setResume_underway (show f.bufcnt < size by omega)
    obtain ⟨p, rest, rfl, hconn⟩ | ⟨rest, rfl, hconn⟩ := connect_cases hconn
    · exact connected_ends (fun poll hmem => hpolls poll (List.mem_cons_of_mem _ hmem))
        (multiPerform_underway hunder p) hsize (.inl (multiPerform_started p)) multiPerform_over
        hconn
    · exact absurd (hpolls _ List.mem_cons_self) Bool.noConfusion

/-! ## Without a handle -/

theorem multiPerform_of_gone (hgone : f.transfer = .gone) (p : Perform) :
    multiPerform content f cb p = ⟨f, cb, false, none⟩ := by
  simp [multiPerform, File.start, hgone]

theorem multiPerform_not_gone (hne : f.transfer ≠ .gone) (p : Perform) :
    (multiPerform content f cb p).file.transfer ≠ .gone := by
  unfold multiPerform
  split
  · exact hne
  · dsimp only
    split <;> exact fun hgone => nomatch hgone

theorem fillbuf_of_gone (hgone : f.transfer = .gone) (hcnt : f.bufcnt = 0)
    (h : fillbuf content f size polls = some (f', out, ok)) :
    f'.transfer = .gone ∧ f'.bufcnt = 0 ∧ out = [] ∧ ok = false := by
  have hleft : (f.takeLeft size).out = [] := by
    simp [File.takeLeft, hcnt]
  have hzero : (f.emptied size).bufcnt = 0 := by
    simp [File.emptied, File.dropLeft, hcnt]
  have hconn : ∀ {g : File} {cb : Cbdata} {rest : List Poll}, g.bufcnt = 0 → cb.out = [] →
      connected content rest g cb false = some (f', out, ok) →
      f'.transfer = .gone ∧ f'.bufcnt = 0 ∧ out = [] ∧ ok = false := by
    intro g cb rest hg hout hc
    obtain ⟨-, -, rfl, rfl, rfl⟩ | ⟨-, -, -, ⟨-, hne⟩ | ⟨hstill, -⟩⟩ | ⟨hstill, -⟩ :=
      connected_cases hc
    · exact ⟨rfl, hg, rfl, rfl⟩
    · exact absurd hout hne
    · cases hstill
    · cases hstill
  obtain ⟨hpos, -⟩ | ⟨-, -, hloop⟩ | ⟨-, -, hc⟩ := fillbuf_cases h
  · omega
  · have hkeep : ∀ g cb p, g.transfer = .gone ∧ g.bufcnt = 0 ∧ cb.out = [] →
        (multiPerform content g cb p).file.transfer = .gone ∧
          (multiPerform content g cb p).file.bufcnt = 0 ∧
          (multiPerform content g cb p).cb.out = [] := by
      intro g cb p hk
      rw [multiPerform_of_gone hk.1 p]
      exact hk
    obtain ⟨cb', ⟨hgone', hcnt', hout⟩, rfl, hok⟩ := pollLoop_rule
      (P := fun g cb => g.transfer = .gone ∧ g.bufcnt = 0 ∧ cb.out = []) hkeep
      (fun _ _ _ hk => hk) (f := f.emptied size) ⟨hgone, hzero, hleft⟩ hloop
    refine ⟨hgone', hcnt', hout, ?_⟩
    cases ok with
    | false => rfl
    | true => exact absurd hout (hok rfl)
  · obtain ⟨p, rest, -, hc⟩ | ⟨rest, -, hc⟩ := connect_cases hc
    · have hset : (f.emptied size).setResume.transfer = .gone := hgone
      rw [multiPerform_of_gone hset p] at hc
      exact hconn (g := (f.emptied size).setResume) hzero hleft hc
    · exact hconn (g := (f.emptied size).setResume) hzero hleft hc

theorem fillbuf_to_gone (hsrc : Source content f f.raOffset) (hgone : f'.transfer = .gone)
    (h : fillbuf content f size polls = some (f', out, ok)) : out = [] ∧ ok = false := by
  by_cases hold : f.transfer = .gone
  · have hnext := hsrc.next
    simp only [File.Next, hold] at hnext
    exact (fillbuf_of_gone hold hnext h).2.2
  · have hloop_ne : ∀ {g : File} {cb : Cbdata} {rest : List Poll} {still : Bool},
        g.transfer ≠ .gone → pollLoop content rest g cb still = some (f', out, ok) → False := by
      intro g cb rest still hne hloop
      obtain ⟨-, hne', -⟩ := pollLoop_rule (P := fun g _ => g.transfer ≠ .gone)
        (fun _ _ p hk => multiPerform_not_gone hk p) (fun _ _ _ hk => hk) hne hloop
      exact hne' hgone
    have hconn : ∀ {g : File} {cb : Cbdata} {rest : List Poll} {still : Bool},
        g.transfer ≠ .gone → connected content rest g cb still = some (f', out, ok) →
        out = [] ∧ ok = false := by
      intro g cb rest still hne hc
      obtain ⟨-, -, rfl, rfl, -⟩ | ⟨rfl, -⟩ | ⟨-, hloop⟩ := connected_cases hc
      · exact ⟨rfl, rfl⟩
      · exact absurd hgone hne
      · exact (hloop_ne (g := { g with connected := true }) hne hloop).elim
    obtain ⟨-, -, rfl, -⟩ | ⟨-, -, hloop⟩ | ⟨-, -, hc⟩ := fillbuf_cases h
    · exact absurd hgone hold
    · exact (hloop_ne (g := f.emptied size) hold hloop).elim
    · obtain ⟨p, rest, -, hc⟩ | ⟨rest, -, hc⟩ := connect_cases hc
      · exact hconn (multiPerform_not_gone (f := (f.emptied size).setResume) hold p) hc
      · exact hconn (g := (f.emptied size).setResume) hold hc

end Mediabox.HttpStream
