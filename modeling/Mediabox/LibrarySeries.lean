import Mediabox.LibraryNames

/-!
# The names of an episode (`mbox_library_local_video_name` in `src/library.c`)

The series, the season and the episode are written one after another into one buffer of 1024 bytes,
and the name of the episode is not terminated.

* `strcpy_eq`, `strncat_eq` — a buffer is the string in it, the terminator, and what earlier strings
  left behind.
* `serieStrings_eq` — the three strings: the end of the series follows the episode where it reaches
  beyond it.

Main result: `serie_names_iff` — the three names are those of the groups if and only if there is
nothing after the number of the episode, or the series is not longer than the name of the episode.
-/

set_option autoImplicit false

namespace Mediabox.Library

/-! ## The groups -/

section Groups

variable {α : Type} {match? : CString → Option α} {name before after : CString} {a : α} {m : Groups}

/-- The name is what precedes the match and the match. -/
theorem lastMatch_split (h : lastMatch match? name = some (before, a)) :
    ∃ after, name = before ++ after ∧ match? after = some a := by
  induction name generalizing before with
  | nil =>
    obtain ⟨a', ha, heq⟩ := Option.map_eq_some_iff.mp h
    cases heq
    exact ⟨[], rfl, ha⟩
  | cons c cs ih =>
    rw [lastMatch] at h
    split at h
    · rename_i before' a' hlater
      cases h
      obtain ⟨after, rfl, hafter⟩ := ih hlater
      exact ⟨after, rfl, hafter⟩
    · obtain ⟨a', ha, heq⟩ := Option.map_eq_some_iff.mp h
      cases heq
      exact ⟨c :: cs, rfl, ha⟩

/-- **The first pattern**: `S`, two digits, `E`, two digits and the rest. -/
theorem matchEpisode_split (h : matchEpisode after = some m) :
    ∃ s d₁ d₂ e d₃ d₄, after = s :: d₁ :: d₂ :: e :: d₃ :: d₄ :: m.fourth ∧
      m.season = [d₁, d₂] ∧ m.third = [d₃, d₄] := by
  unfold matchEpisode at h
  split at h
  · rename_i s d₁ d₂ e d₃ d₄ rest
    split at h
    · cases h
      exact ⟨s, d₁, d₂, e, d₃, d₄, rfl, rfl, rfl⟩
    · cases h
  · cases h

theorem basename_subset {c : Char} {path : CString} (h : c ∈ basename path) :
    c ∈ path ∨ c = '.' ∨ c = '/' := by
  unfold basename at h
  split at h
  · exact Or.inr (Or.inl (List.mem_singleton.mp h))
  · dsimp only at h
    split at h
    · exact Or.inr (Or.inr (List.mem_singleton.mp h))
    · have htake := (List.takeWhile_sublist _).mem (List.mem_reverse.mp h)
      exact Or.inl (List.mem_reverse.mp ((List.dropWhile_sublist _).mem htake))

theorem stripext_sublist (name : CString) : (stripext name).Sublist name := by
  unfold stripext
  split
  · exact List.Sublist.refl _
  · split
    · have hdrop : ((name.reverse.dropWhile (· ≠ '.')).drop 1).Sublist name.reverse :=
        (List.drop_sublist _ _).trans (List.dropWhile_sublist _)
      have hreverse := hdrop.reverse
      rwa [List.reverse_reverse] at hreverse
    · exact List.Sublist.refl _

end Groups

/-! ## The buffer -/

section Buffer

variable {str str' rest rest' bytes : List Char}

theorem cstr_append (h : '\x00' ∉ str) : cstr (str ++ rest) = str ++ cstr rest := by
  unfold cstr
  rw [List.takeWhile_append_of_pos]
  intro c hc
  have hne : c ≠ '\x00' := fun heq => h (heq ▸ hc)
  exact decide_eq_true hne

theorem cstr_nul : cstr ('\x00' :: rest) = [] := rfl

theorem poke_append :
    poke (str ++ rest) str.length bytes = str ++ (bytes ++ rest.drop bytes.length) := by
  have htake : (str ++ rest).take str.length = str := List.take_left
  have hdrop : (str ++ rest).drop (str.length + bytes.length) = rest.drop bytes.length := by
    rw [← List.drop_drop, List.drop_left]
  rw [poke, htake, hdrop, List.append_assoc]

theorem poke_nul {off : Nat} (h : off = str.length) :
    poke (str ++ '\x00' :: rest) off ['\x00'] = str ++ '\x00' :: rest := by
  rw [h, poke_append]
  rfl

theorem strcpy_eq : strcpy rest str = str ++ '\x00' :: rest.drop (str.length + 1) := by
  rw [strcpy, poke]
  simp

theorem strncat_eq {n : Nat} (h : '\x00' ∉ str) (hn : str'.length = n) :
    strncat (str ++ '\x00' :: rest) str' n = (str ++ str') ++ '\x00' :: rest.drop n := by
  have hlen : (cstr (str ++ '\x00' :: rest)).length = str.length := by
    rw [cstr_append h, cstr_nul, List.append_nil]
  rw [strncat, hlen, poke_append, List.take_of_length_le (Nat.le_of_eq hn)]
  simp [hn]

/-- A label, a group after it, and the terminator. -/
theorem labelled_eq {label group : List Char} {n k : Nat} (h : '\x00' ∉ label)
    (hn : label.length = n)
    (hk : group.length = k) :
    poke (strncat (strcpy rest label) group k) (k + n) ['\x00'] =
      (label ++ group) ++ '\x00' :: rest.drop (n + 1 + k) := by
  rw [strcpy_eq, strncat_eq h hk, List.drop_drop, hn]
  exact poke_nul (by rw [List.length_append, hn, hk, Nat.add_comm])

/-- What lies behind a string and its terminator stays. -/
theorem drop_behind {n k : Nat} (hk : str.length + 1 = k) (h : k ≤ n) :
    (str ++ '\x00' :: rest.drop k).drop n = rest.drop n := by
  obtain ⟨j, rfl⟩ : ∃ j, n = k + j := ⟨n - k, by omega⟩
  have hsucc : str.length + 1 + j = str.length + (j + 1) := by omega
  rw [← hk, hsucc, ← List.drop_drop, List.drop_left, List.drop_succ_cons, List.drop_drop, hsucc]

/-- What is in the buffer after a first string. -/
theorem cstr_first (h : '\x00' ∉ str) (n k : Nat) :
    cstr ((str ++ List.replicate k '\x00').drop n) = str.drop n := by
  have hdrop : '\x00' ∉ str.drop n := fun hmem => h (List.mem_of_mem_drop hmem)
  have hnuls : ∀ j, cstr (List.replicate j '\x00') = []
    | 0 => rfl
    | _ + 1 => rfl
  rw [List.drop_append, cstr_append hdrop, List.drop_replicate, hnuls, List.append_nil]

/-- The buffer after the first string. -/
theorem poke_first (h : str.length < 1024) :
    poke (poke (List.replicate 1024 '\x00') 0 str) str.length ['\x00'] =
      str ++ List.replicate (1024 - str.length) '\x00' := by
  obtain ⟨k, hk⟩ : ∃ k, 1024 - str.length = k + 1 := ⟨1023 - str.length, by omega⟩
  have hpoke : poke (List.replicate 1024 '\x00') 0 str =
      str ++ List.replicate (1024 - str.length) '\x00' := by
    have hempty : poke ([] ++ List.replicate 1024 '\x00') 0 str = _ := poke_append
    rwa [List.drop_replicate] at hempty
  rw [hpoke, hk, List.replicate_succ]
  exact poke_nul rfl

/-- **The three strings** that are written into the buffer: where the series reaches beyond the end
    of the episode, the bytes that follow are read as a part of it. -/
theorem serieStrings_eq {before : CString} {m : Groups} (hbefore : '\x00' ∉ before)
    (hm : '\x00' ∉ m.season ++ m.third ++ m.fourth) (hseason : m.season.length = 2)
    (hthird : m.third.length = 2) (hlen : before.length < 1024) :
    serieStrings before m = (before, "Season ".toList ++ m.season,
      "Episode ".toList ++ m.third ++ " ".toList ++ m.fourth ++
        if m.fourth = [] then [] else before.drop (m.fourth.length + 11)) := by
  simp only [List.mem_append, not_or] at hm
  obtain ⟨⟨hnseason, hnthird⟩, hnfourth⟩ := hm
  generalize hfirst : before ++ List.replicate (1024 - before.length) '\x00' = buf
  have hstr : ∀ n, cstr (buf.drop n) = before.drop n := fun n => hfirst ▸ cstr_first hbefore n _
  have hlseason : '\x00' ∉ "Season ".toList ++ m.season := by
    rw [List.mem_append, not_or]
    exact ⟨by decide, hnseason⟩
  have hlepisode : '\x00' ∉ "Episode ".toList ++ m.third := by
    rw [List.mem_append, not_or]
    exact ⟨by decide, hnthird⟩
  have hltitle : '\x00' ∉ "Episode ".toList ++ m.third ++ " ".toList ++ m.fourth := by
    rw [List.mem_append, List.mem_append, not_or, not_or]
    exact ⟨⟨hlepisode, by decide⟩, hnfourth⟩
  -- the season, and below it what the series left behind
  have hseason' : poke (strncat (strcpy buf "Season ".toList) m.season 2) (2 + 7) ['\x00'] =
      ("Season ".toList ++ m.season) ++ '\x00' :: buf.drop 10 :=
    labelled_eq (by decide) rfl hseason
  have hbelow : (("Season ".toList ++ m.season) ++ '\x00' :: buf.drop 10).drop 11 = buf.drop 11 :=
    drop_behind (by rw [List.length_append, hseason]; rfl) (by decide)
  have hthird' : poke (strncat (strcpy (("Season ".toList ++ m.season) ++ '\x00' :: buf.drop 10)
      "Episode ".toList) m.third 2) (2 + 8) ['\x00'] =
      ("Episode ".toList ++ m.third) ++ '\x00' :: buf.drop 11 := by
    have height : "Episode ".toList.length = 8 := rfl
    rw [labelled_eq (by decide) height hthird, hbelow]
  have htitle : strncat (("Episode ".toList ++ m.third) ++ '\x00' :: buf.drop 11) " ".toList 1 =
      ("Episode ".toList ++ m.third ++ " ".toList) ++ '\x00' :: buf.drop 12 := by
    have hone : " ".toList.length = 1 := rfl
    rw [strncat_eq hlepisode hone, List.drop_drop]
  have hpoke : poke (("Episode ".toList ++ m.third ++ " ".toList) ++ '\x00' :: buf.drop 12) (2 + 9)
      m.fourth = ("Episode ".toList ++ m.third ++ " ".toList ++ m.fourth) ++
        ('\x00' :: buf.drop 12).drop m.fourth.length := by
    have hlength : 2 + 9 = ("Episode ".toList ++ m.third ++ " ".toList).length := by
      simp [hthird]
    rw [hlength, poke_append]
    exact (List.append_assoc _ _ _).symm
  -- the byte after the copied ones is the terminator only if none was copied
  have htail : cstr (('\x00' :: buf.drop 12).drop m.fourth.length) =
      if m.fourth = [] then [] else before.drop (m.fourth.length + 11) := by
    cases hfourth : m.fourth with
    | nil => rfl
    | cons c cs =>
      rw [List.length_cons, List.drop_succ_cons, List.drop_drop, hstr,
        if_neg (List.cons_ne_nil c cs)]
      congr 1
      omega
  simp only [serieStrings, hseason, hthird, poke_first hlen, hfirst, hseason', hthird', htitle,
    hpoke]
  rw [cstr_append hlseason, cstr_append hltitle, htail, cstr_nul, List.append_nil]
  rw [← List.drop_zero (l := buf), hstr, List.drop_zero]

end Buffer

/-! ## The names -/

/-- **Series episodes**: the strings built from the name of a file are the series, the season, and
    the episode with the rest of the name, if and only if there is no rest or the series does not
    reach beyond it. -/
theorem serie_names_iff (path before : CString) (m : Groups) (hnul : '\x00' ∉ path)
    (hlen : (basename path).length ≤ 255)
    (hmatch : lastMatch matchEpisode (stripext (basename path)) = some (before, m)) :
    serieStrings before m = (before, "Season ".toList ++ m.season,
        "Episode ".toList ++ m.third ++ " ".toList ++ m.fourth) ↔
      m.fourth = [] ∨ before.length ≤ m.fourth.length + 11 := by
  obtain ⟨after, hname, hafter⟩ := lastMatch_split hmatch
  obtain ⟨s, d₁, d₂, e, d₃, d₄, hsplit, hseason, hthird⟩ := matchEpisode_split hafter
  have hsub := stripext_sublist (basename path)
  have hbytes : ∀ c ∈ stripext (basename path), c ≠ '\x00' := by
    rintro c hc rfl
    rcases basename_subset (hsub.mem hc) with hpath | hdot | hslash
    · exact hnul hpath
    · exact absurd hdot (by decide)
    · exact absurd hslash (by decide)
  have hshort := hsub.length_le
  rw [hname] at hbytes hshort
  rw [List.length_append] at hshort
  have hbefore : '\x00' ∉ before := fun hmem => hbytes _ (List.mem_append_left _ hmem) rfl
  have hgroups : '\x00' ∉ m.season ++ m.third ++ m.fourth := by
    intro hmem
    refine hbytes _ (List.mem_append_right _ ?_) rfl
    rw [hsplit]
    simp only [hseason, hthird, List.mem_append, List.mem_cons, List.not_mem_nil, or_false]
      at hmem ⊢
    tauto
  rw [serieStrings_eq hbefore hgroups (by rw [hseason]; rfl) (by rw [hthird]; rfl) (by omega)]
  simp only [Prod.mk.injEq, true_and, List.append_right_eq_self]
  by_cases hrest : m.fourth = []
  · simp [hrest]
  · rw [if_neg hrest, List.drop_eq_nil_iff]
    exact ⟨Or.inr, fun h => h.resolve_left hrest⟩

/-- A long series with a long title. -/
theorem serie_names_iff_wire :
    serieStrings "The Wire ".toList ⟨"01".toList, "02".toList, " The Detail".toList⟩ =
      ("The Wire ".toList, "Season 01".toList, "Episode 02  The Detail".toList) :=
  (serie_names_iff "/v/The Wire S01E02 The Detail.avi".toList "The Wire ".toList
    ⟨"01".toList, "02".toList, " The Detail".toList⟩ (by decide) (by decide) (by decide)).mpr
    (by decide)

/-- **A long series with a short title**: the end of the series is read after the title. -/
theorem series_after_title :
    ¬ ∀ (path before : CString) (m : Groups), '\x00' ∉ path → (basename path).length ≤ 255 →
      lastMatch matchEpisode (stripext (basename path)) = some (before, m) →
      serieStrings before m = (before, "Season ".toList ++ m.season,
        "Episode ".toList ++ m.third ++ " ".toList ++ m.fourth) := by
  intro hall
  have h := hall "/v/Battlestar Galactica S01E02 33.mkv".toList "Battlestar Galactica ".toList
    ⟨"01".toList, "02".toList, " 33".toList⟩ (by decide) (by decide) (by decide)
  rw [serieStrings_eq (by decide) (by decide) rfl rfl (by decide)] at h
  exact absurd h (by decide)

end Mediabox.Library
