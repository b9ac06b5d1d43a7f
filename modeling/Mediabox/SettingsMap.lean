import Mathlib.Tactic.IntervalCases
import Mediabox.Settings

/-!
# The settings store as a map

What the statements of `settings.c` are after they were cut to the buffer, and when the store
behaves as a map.

* `select_cut`, `insert_cut`, `update_cut` — the statement that SQLite sees, for every length of the
  escaped key and value.  A cut `INSERT` is rejected or unchanged.  A cut `SELECT` may read another
  key.  A cut `UPDATE` may lose its condition, or get another one.
* `BadCut` — the cuts of an `UPDATE` that leave a complete statement that is not the one meant.
* `setstring_map_iff` — for every key and value, the store behaves as a map on every table exactly
  when no such cut happens.
-/

set_option autoImplicit false

namespace Mediabox.Settings

open SqlText

theorem escapesql_eq (s : Text) : escapesql s = escape s := by
  induction s with
  | nil => rfl
  | cons c s ih =>
    rw [escapesql, escape_cons, ih]
    by_cases hc : c = '\''
    · simp [hc]
    · simp [hc]

/-! ## Statements that were cut -/

/-- The statement read from the rest of a text. -/
def stmtFrom (l : Lex) (text : Text) : Option Stmt := (lexFrom l text).finish.bind parse

theorem exec_eq (truthy : Text → Bool) (sql : Text) (table : List Row) :
    exec truthy sql table = (stmtFrom start sql).map (Stmt.run truthy table) := rfl

theorem stmtFrom_append (l : Lex) (s t : Text) : stmtFrom l (s ++ t) = stmtFrom (lexFrom l s) t := by
  unfold stmtFrom
  rw [lexFrom_append]

theorem stmtFrom_escape (ts : List Token) (s t : Text) :
    stmtFrom ⟨ts, .quoted []⟩ (escape s ++ t) = stmtFrom ⟨ts, .quoted s⟩ t := by
  rw [stmtFrom_append, lexFrom_escape, List.nil_append]

/-- A text that is cut inside an escaped string. -/
theorem stmtFrom_cut (ts : List Token) (s : Text) {n : Nat} (hn : n ≤ (escape s).length) :
    (∃ p, CutsQuote s n p ∧ stmtFrom ⟨ts, .quoted []⟩ ((escape s).take n) = parse (ts ++ [Token.str p])) ∨
    ((∀ p, ¬CutsQuote s n p) ∧ stmtFrom ⟨ts, .quoted []⟩ ((escape s).take n) = none) := by
  unfold stmtFrom
  rcases lexFrom_cut ts [] s n hn with ⟨p, hp, hlex⟩ | ⟨hno, b, hlex⟩
  · exact Or.inl ⟨p, hp, by rw [hlex]; rfl⟩
  · exact Or.inr ⟨hno, by rw [hlex]; rfl⟩

theorem take_append_of_le {n : Nat} {a b : Text} (h : a.length ≤ n) :
    (a ++ b).take n = a ++ b.take (n - a.length) := by
  rw [List.take_append, List.take_of_length_le h]

theorem take_append_of_ge {n : Nat} {a b : Text} (h : n ≤ a.length) :
    (a ++ b).take n = a.take n :=
  List.take_append_of_le_length h

/-- `SELECT value FROM settings WHERE key = '` -/
theorem lex_select (t : Text) :
    stmtFrom start ("SELECT value FROM settings WHERE key = '".toList ++ t) =
      stmtFrom ⟨selectHead, .quoted []⟩ t := by
  rw [stmtFrom_append]
  rfl

/-- The end of a `SELECT`, cut. -/
theorem select_tail (k : Text) (j : Nat) :
    stmtFrom ⟨selectHead, .quoted k⟩ ("' LIMIT 1;".toList.take j) =
      if j = 1 ∨ j = 2 then some (.select k false)
      else if 9 ≤ j then some (.select k true) else none := by
  by_cases hj : j ≤ 10
  · interval_cases j <;> rfl
  · rw [List.take_of_length_le (by simp; omega), if_neg (by omega), if_pos (by omega)]
    rfl

/-- The `SELECT` for the key is still a complete statement when it comes out of the buffer. -/
def Readable (k : Text) : Prop :=
  (escape k).length ≤ 974 ∨ (escape k).length = 981 ∨ (escape k).length = 982 ∨
    ∃ p, CutsQuote k 983 p

/-- **The `SELECT` that SQLite sees**: the one meant, the same without its limit, one for another
    key, or no statement. -/
theorem select_cut (k : Text) {S : Option Stmt}
    (hS : S = stmtFrom start (snprintf sqlbuflen (selectText (escapesql k)))) :
    ((escape k).length ≤ 974 ∧ S = some (.select k true)) ∨
    (((escape k).length = 981 ∨ (escape k).length = 982) ∧ S = some (.select k false)) ∨
    (∃ p, CutsQuote k 983 p ∧ S = some (.select p false)) ∨ (¬Readable k ∧ S = none) := by
  have hhead : "SELECT value FROM settings WHERE key = '".toList.length = 40 := rfl
  have htext : snprintf sqlbuflen (selectText (escapesql k)) =
      "SELECT value FROM settings WHERE key = '".toList ++
        (escape k ++ "' LIMIT 1;".toList).take 983 := by
    unfold snprintf selectText
    rw [escapesql_eq, List.append_assoc, take_append_of_le (by rw [hhead]; decide), hhead]
    rfl
  rw [htext, lex_select] at hS
  by_cases hlen : (escape k).length ≤ 982
  · rw [take_append_of_le (by omega), stmtFrom_escape, select_tail] at hS
    by_cases hshort : (escape k).length ≤ 974
    · rw [if_neg (by omega), if_pos (by omega)] at hS
      exact Or.inl ⟨hshort, hS⟩
    · by_cases hquote : (escape k).length = 981 ∨ (escape k).length = 982
      · rw [if_pos (by omega)] at hS
        exact Or.inr (Or.inl ⟨hquote, hS⟩)
      · rw [if_neg (by omega), if_neg (by omega)] at hS
        refine Or.inr (Or.inr (Or.inr ⟨?_, hS⟩))
        rintro (h | h | h | ⟨p, hp⟩)
        · exact hshort h
        · exact hquote (Or.inl h)
        · exact hquote (Or.inr h)
        · have := hp.lt
          omega
  · rw [take_append_of_ge (by omega)] at hS
    rcases stmtFrom_cut selectHead k (n := 983) (by omega) with ⟨p, hp, heq⟩ | ⟨hno, heq⟩
    · exact Or.inr (Or.inr (Or.inl ⟨p, hp, hS.trans heq⟩))
    · refine Or.inr (Or.inr (Or.inr ⟨?_, hS.trans heq⟩))
      rintro (h | h | h | ⟨p, hp⟩)
      · omega
      · omega
      · omega
      · exact hno p hp

/-- `INSERT INTO settings (key, value) VALUES ('` -/
theorem lex_insert (t : Text) :
    stmtFrom start ("INSERT INTO settings (key, value) VALUES ('".toList ++ t) =
      stmtFrom ⟨insertHead, .quoted []⟩ t := by
  rw [stmtFrom_append]
  rfl

/-- **A cut `INSERT` is rejected or means the same.** -/
theorem insert_cut (k v : Text) :
    stmtFrom start (snprintf sqlbuflen (insertText (escapesql k) (escapesql v))) =
      if (escape k).length + (escape v).length ≤ 974 then some (.insert k v) else none := by
  have hhead : "INSERT INTO settings (key, value) VALUES ('".toList.length = 43 := rfl
  have hmid : "', '".toList.length = 4 := rfl
  have htext : snprintf sqlbuflen (insertText (escapesql k) (escapesql v)) =
      "INSERT INTO settings (key, value) VALUES ('".toList ++
        (escape k ++ ("', '".toList ++ (escape v ++ "');".toList))).take 980 := by
    unfold snprintf insertText
    rw [escapesql_eq, escapesql_eq, List.append_assoc, List.append_assoc, List.append_assoc,
      take_append_of_le (by rw [hhead]; decide), hhead]
    rfl
  rw [htext, lex_insert]
  by_cases hk : (escape k).length ≤ 980
  · rw [take_append_of_le hk, stmtFrom_escape]
    by_cases hm : 4 ≤ 980 - (escape k).length
    · rw [take_append_of_le (by rw [hmid]; exact hm), hmid]
      have hlex (t : Text) : stmtFrom ⟨insertHead, .quoted k⟩ ("', '".toList ++ t) =
          stmtFrom ⟨insertHead ++ [Token.str k, .sym ','], .quoted []⟩ t := by
        rw [stmtFrom_append]
        rfl
      rw [hlex]
      by_cases hv : (escape v).length ≤ 980 - (escape k).length - 4
      · rw [take_append_of_le hv, stmtFrom_escape]
        have htail (j : Nat) :
            stmtFrom ⟨insertHead ++ [Token.str k, .sym ','], .quoted v⟩ ("');".toList.take j) =
              if 2 ≤ j then some (.insert k v) else none := by
          by_cases hj : j ≤ 3
          · interval_cases j <;> rfl
          · rw [List.take_of_length_le (by simp; omega), if_pos (by omega)]
            rfl
        rw [htail]
        by_cases hfits : (escape k).length + (escape v).length ≤ 974
        · rw [if_pos hfits, if_pos (by omega)]
        · rw [if_neg hfits, if_neg (by omega)]
      · rw [take_append_of_ge (by omega), if_neg (by omega)]
        rcases stmtFrom_cut (insertHead ++ [Token.str k, .sym ',']) v
          (n := 980 - (escape k).length - 4) (by omega) with ⟨p, _, heq⟩ | ⟨_, heq⟩
        · rw [heq]
          rfl
        · exact heq
    · rw [if_neg (by omega), take_append_of_ge (by rw [hmid]; omega)]
      have htail (j : Nat) (hj : j < 4) :
          stmtFrom ⟨insertHead, .quoted k⟩ ("', '".toList.take j) = none := by
        interval_cases j <;> rfl
      exact htail _ (by omega)
  · rw [take_append_of_ge (by omega), if_neg (by omega)]
    rcases stmtFrom_cut insertHead k (n := 980) (by omega) with ⟨p, _, heq⟩ | ⟨_, heq⟩
    · rw [heq]
      rfl
    · exact heq

/-- `UPDATE settings SET value = '` -/
theorem lex_update (t : Text) :
    stmtFrom start ("UPDATE settings SET value = '".toList ++ t) =
      stmtFrom ⟨updateHead, .quoted []⟩ t := by
  rw [stmtFrom_append]
  rfl

/-- The middle of an `UPDATE`, cut. -/
theorem update_middle (v : Text) {j : Nat} (hj : j < 15) :
    stmtFrom ⟨updateHead, .quoted v⟩ ("' WHERE key = '".toList.take j) =
      if j = 1 ∨ j = 2 then some (.update v .all)
      else if j = 11 ∨ j = 12 then some (.update v .truthy) else none := by
  interval_cases j <;> rfl

/-- The cuts that leave a complete `UPDATE` that is not the one meant: inside a doubled quote of the
    key or of the value, right after the value, and right after `WHERE key`. -/
def Miscut (k v : Text) : Prop :=
  (∃ p, CutsQuote k (979 - (escape v).length) p) ∨
    ((escape v).length = 982 ∨ (escape v).length = 983) ∨
    ((escape v).length = 992 ∨ (escape v).length = 993) ∨ ∃ p, CutsQuote v 994 p

/-- The end of an `UPDATE`, cut: from its quote on nothing is missing. -/
theorem update_tail (v k : Text) (j : Nat) :
    stmtFrom ⟨updateHead ++ [Token.str v] ++ whereKey ++ [Token.sym '='], .quoted k⟩ ("';".toList.take j) =
      if 1 ≤ j then some (.update v (.key k)) else none := by
  by_cases hj : j ≤ 2
  · interval_cases j <;> rfl
  · rw [List.take_of_length_le (by simp; omega), if_pos (by omega)]
    rfl

/-- A key that is cut, in a text where the value is whole. -/
theorem not_miscut_of_short {k v : Text} (hv : (escape v).length ≤ 979)
    (hk : ∀ p, ¬CutsQuote k (979 - (escape v).length) p) : ¬Miscut k v := by
  rintro (⟨p, hp⟩ | h | h | ⟨p, hp⟩)
  · exact hk p hp
  · omega
  · omega
  · have := hp.lt
    omega

/-- **The `UPDATE` that SQLite sees.** -/
theorem update_cut (k v : Text) {S : Option Stmt}
    (hS : S = stmtFrom start (snprintf sqlbuflen (updateText (escapesql v) (escapesql k)))) :
    ((escape v).length + (escape k).length ≤ 978 ∧ S = some (.update v (.key k))) ∨
    (∃ p, CutsQuote k (979 - (escape v).length) p ∧ S = some (.update v (.key p))) ∨
    (((escape v).length = 982 ∨ (escape v).length = 983) ∧ S = some (.update v .truthy)) ∨
    (((escape v).length = 992 ∨ (escape v).length = 993) ∧ S = some (.update v .all)) ∨
    (∃ p, CutsQuote v 994 p ∧ S = some (.update p .all)) ∨ (¬Miscut k v ∧ S = none) := by
  have hhead : "UPDATE settings SET value = '".toList.length = 29 := rfl
  have hmid : "' WHERE key = '".toList.length = 15 := rfl
  have htext : snprintf sqlbuflen (updateText (escapesql v) (escapesql k)) =
      "UPDATE settings SET value = '".toList ++
        (escape v ++ ("' WHERE key = '".toList ++ (escape k ++ "';".toList))).take 994 := by
    unfold snprintf updateText
    rw [escapesql_eq, escapesql_eq, List.append_assoc, List.append_assoc, List.append_assoc,
      take_append_of_le (by rw [hhead]; decide), hhead]
    rfl
  rw [htext, lex_update] at hS
  by_cases hv : (escape v).length ≤ 994
  · rw [take_append_of_le hv, stmtFrom_escape] at hS
    by_cases hm : 15 ≤ 994 - (escape v).length
    · rw [take_append_of_le (by rw [hmid]; exact hm), hmid] at hS
      have hlex (t : Text) : stmtFrom ⟨updateHead, .quoted v⟩ ("' WHERE key = '".toList ++ t) =
          stmtFrom ⟨updateHead ++ [Token.str v] ++ whereKey ++ [Token.sym '='], .quoted []⟩ t := by
        rw [stmtFrom_append]
        rfl
      rw [hlex, show 994 - (escape v).length - 15 = 979 - (escape v).length by omega] at hS
      by_cases hk : (escape k).length ≤ 979 - (escape v).length
      · rw [take_append_of_le hk, stmtFrom_escape, update_tail] at hS
        by_cases hfits : (escape v).length + (escape k).length ≤ 978
        · rw [if_pos (by omega)] at hS
          exact Or.inl ⟨hfits, hS⟩
        · rw [if_neg (by omega)] at hS
          refine Or.inr (Or.inr (Or.inr (Or.inr (Or.inr ⟨?_, hS⟩))))
          apply not_miscut_of_short (by omega)
          intro p hp
          have := hp.lt
          omega
      · rw [take_append_of_ge (by omega)] at hS
        rcases stmtFrom_cut (updateHead ++ [Token.str v] ++ whereKey ++ [Token.sym '=']) k
          (n := 979 - (escape v).length) (by omega) with ⟨p, hp, heq⟩ | ⟨hno, heq⟩
        · exact Or.inr (Or.inl ⟨p, hp, hS.trans heq⟩)
        · exact Or.inr (Or.inr (Or.inr (Or.inr (Or.inr
            ⟨not_miscut_of_short (by omega) hno, hS.trans heq⟩))))
    · rw [take_append_of_ge (by rw [hmid]; omega), update_middle v (by omega)] at hS
      by_cases hall : (escape v).length = 992 ∨ (escape v).length = 993
      · rw [if_pos (by omega)] at hS
        exact Or.inr (Or.inr (Or.inr (Or.inl ⟨hall, hS⟩)))
      · rw [if_neg (by omega)] at hS
        by_cases htruthy : (escape v).length = 982 ∨ (escape v).length = 983
        · rw [if_pos (by omega)] at hS
          exact Or.inr (Or.inr (Or.inl ⟨htruthy, hS⟩))
        · rw [if_neg (by omega)] at hS
          refine Or.inr (Or.inr (Or.inr (Or.inr (Or.inr ⟨?_, hS⟩))))
          rintro (⟨p, _, _, hp⟩ | h | h | ⟨p, hp⟩)
          · omega
          · exact htruthy h
          · exact hall h
          · have := hp.lt
            omega
  · rw [take_append_of_ge (by omega)] at hS
    rcases stmtFrom_cut updateHead v (n := 994) (by omega) with ⟨p, hp, heq⟩ | ⟨hno, heq⟩
    · exact Or.inr (Or.inr (Or.inr (Or.inr (Or.inl ⟨p, hp, hS.trans heq⟩))))
    · refine Or.inr (Or.inr (Or.inr (Or.inr (Or.inr ⟨?_, hS.trans heq⟩))))
      rintro (⟨p, _, _, hp⟩ | h | h | ⟨p, hp⟩)
      · omega
      · omega
      · omega
      · exact hno p hp

/-! ## What a call does to the table -/

/-- The values under a key, in the order of a scan. -/
def values (table : List Row) (k : Text) : List Text :=
  (table.filter fun r => r.key = k).map (·.value)

theorem values_insert {table : List Row} {k q v : Text} :
    values (table ++ [⟨k, v⟩]) q = values table q ++ if k = q then [v] else [] := by
  by_cases h : k = q
  · simp [values, h]
  · simp [values, h]

theorem values_update_other {truthy : Text → Bool} {table : List Row} {k q v : Text} (h : q ≠ k) :
    values (Stmt.run truthy table (.update v (.key k))).1 q = values table q := by
  induction table with
  | nil => rfl
  | cons r table ih =>
    simp only [values, Stmt.run, Filter.holds, List.map_cons, List.filter_cons] at ih ⊢
    by_cases hr : r.key = k
    · have : r.key ≠ q := by
        rw [hr]
        exact h.symm
      simp_all
    · by_cases hq : r.key = q <;> simp_all

theorem values_update_same {truthy : Text → Bool} {table : List Row} {k v : Text} :
    values (Stmt.run truthy table (.update v (.key k))).1 k = (values table k).map fun _ => v := by
  induction table with
  | nil => rfl
  | cons r table ih =>
    simp only [values, Stmt.run, Filter.holds, List.map_cons, List.filter_cons] at ih ⊢
    by_cases hr : r.key = k <;> simp_all

theorem foldl_callback (vs : List Text) (a : Option Text) :
    vs.foldl (getstringCallback .ok) a = vs.getLast?.or a := by
  induction vs generalizing a with
  | nil => rfl
  | cons v vs ih =>
    rw [List.foldl_cons, ih, List.getLast?_cons]
    cases vs.getLast? <;> rfl

/-- The key whose value `avbox_settings_getstring` returns. -/
def ReadsAs (k q : Text) : Prop := q = k ∨ CutsQuote k 983 q

/-- **`avbox_settings_getstring`, when nothing fails outside.** -/
theorem getstring_spec (truthy : Text → Bool) (k : Text) :
    ((escape k).length ≤ 974 ∧
      ∀ table, getstring truthy .ok table k = (values table k).head?) ∨
    (Readable k ∧ 975 ≤ (escape k).length ∧ ∃ q, ReadsAs k q ∧
      ∀ table, getstring truthy .ok table k = (values table q).getLast?) ∨
    (¬Readable k ∧ ∀ table, getstring truthy .ok table k = none) := by
  have hget (table : List Row) : getstring truthy .ok table k =
      match stmtFrom start (snprintf sqlbuflen (selectText (escapesql k))) with
      | none => none
      | some stmt => (stmt.run truthy table).2.foldl (getstringCallback .ok) none := by
    unfold getstring
    simp only [ReadEnv.ok, Bool.not_true, Bool.false_eq_true, ↓reduceIte]
    rw [exec_eq]
    cases stmtFrom start (snprintf sqlbuflen (selectText (escapesql k))) <;> rfl
  rcases select_cut k rfl with ⟨hlen, hS⟩ | ⟨hlen, hS⟩ | ⟨p, hp, hS⟩ | ⟨hno, hS⟩
  · refine Or.inl ⟨hlen, fun table => ?_⟩
    rw [hget, hS]
    show ((values table k).take 1).foldl (getstringCallback .ok) none = _
    cases values table k <;> rfl
  · refine Or.inr (Or.inl ⟨?_, by omega, k, Or.inl rfl, fun table => ?_⟩)
    · rcases hlen with h | h
      · exact Or.inr (Or.inl h)
      · exact Or.inr (Or.inr (Or.inl h))
    rw [hget, hS]
    show (values table k).foldl (getstringCallback .ok) none = _
    rw [foldl_callback, Option.or_none]
  · have hlt := hp.lt
    refine Or.inr (Or.inl ⟨Or.inr (Or.inr (Or.inr ⟨p, hp⟩)), by omega, p, Or.inr hp,
      fun table => ?_⟩)
    rw [hget, hS]
    show (values table p).foldl (getstringCallback .ok) none = _
    rw [foldl_callback, Option.or_none]
  · refine Or.inr (Or.inr ⟨hno, fun table => ?_⟩)
    rw [hget, hS]

theorem getstring_fails (truthy : Text → Bool) {env : ReadEnv} (h : env ≠ .ok)
    (table : List Row) (k : Text) : getstring truthy env table k = none := by
  have hfold (vs : List Text) (hs : env.strdup = false) :
      vs.foldl (getstringCallback env) none = none := by
    induction vs with
    | nil => rfl
    | cons v vs ih =>
      rw [List.foldl_cons, getstringCallback, hs]
      exact ih
  obtain ⟨escape, filename, opens, strdup⟩ := env
  unfold getstring
  cases escape
  · rfl
  · cases filename
    · rfl
    · cases opens
      · rfl
      · cases strdup
        · simp only [Bool.not_true, Bool.false_eq_true, ↓reduceIte]
          split
          · rfl
          · exact hfold _ rfl
        · exact absurd rfl h

/-- Nothing fails outside when `avbox_settings_setstring` writes. -/
def Env.writes (env : Env) : Prop :=
  env.escapeKey = true ∧ env.escapeValue = true ∧ env.filename = true ∧ env.opens = true

instance (env : Env) : Decidable env.writes := inferInstanceAs (Decidable (_ ∧ _))

/-- The statement that `avbox_settings_setstring` builds, as SQLite sees it. -/
def setStmt (existing : Option Text) (key value : Text) : Option Stmt :=
  stmtFrom start <| snprintf sqlbuflen <|
    match existing with
    | none => insertText (escapesql key) (escapesql value)
    | some _ => updateText (escapesql value) (escapesql key)

/-- **`avbox_settings_setstring`** runs one statement, or leaves the table. -/
theorem setstring_spec (truthy : Text → Bool) (env : Env) (table : List Row) (key value : Text) :
    setstring truthy env table key value =
      if env.writes then
        match setStmt (getstring truthy env.read table key) key value with
        | none => (table, false)
        | some stmt => ((stmt.run truthy table).1, true)
      else (table, false) := by
  obtain ⟨escapeKey, escapeValue, read, filename, opens⟩ := env
  unfold setstring Env.writes setStmt
  cases escapeKey
  · rfl
  · cases escapeValue
    · rfl
    · cases filename
      · rfl
      · cases opens
        · rfl
        · simp only [Bool.not_true, Bool.or_self, Bool.false_eq_true, ↓reduceIte, and_self]
          rw [exec_eq]
          generalize stmtFrom start _ = stmt
          cases stmt <;> rfl

/-! ## The contract of a map -/

/-- What a map promises of one call. -/
structure MapContract (truthy : Text → Bool) (env : Env) (table : List Row) (key value : Text) :
    Prop where
  /-- after a success the key has the value -/
  stored : (setstring truthy env table key value).2 = true →
    getstring truthy .ok (setstring truthy env table key value).1 key = some value
  /-- and every other key has the value it had -/
  others : (setstring truthy env table key value).2 = true → ∀ k, k ≠ key →
    getstring truthy .ok (setstring truthy env table key value).1 k = getstring truthy .ok table k
  /-- a failure leaves the table -/
  failed : (setstring truthy env table key value).2 = false →
    (setstring truthy env table key value).1 = table

theorem MapContract.of_failed {truthy : Text → Bool} {env : Env} {table : List Row}
    {key value : Text} (h : setstring truthy env table key value = (table, false)) :
    MapContract truthy env table key value := by
  constructor <;> rw [h]
  · intro hret
    exact absurd hret (by simp)
  · intro hret
    exact absurd hret (by simp)
  · intro _
    rfl

/-- A key that the code can write is not read in the place of another. -/
theorem getstring_congr {truthy : Text → Bool} {table table' : List Row} {key k : Text}
    (hkey : (escape key).length ≤ 978) (hk : k ≠ key)
    (hvalues : ∀ q, q ≠ key → values table' q = values table q) :
    getstring truthy .ok table' k = getstring truthy .ok table k := by
  rcases getstring_spec truthy k with ⟨_, hget⟩ | ⟨_, hlen, q, hq, hget⟩ | ⟨_, hget⟩
  · rw [hget, hget, hvalues k hk]
  · have hne : q ≠ key := by
      rcases hq with rfl | ⟨rest, _, hn⟩
      · exact hk
      · rintro rfl
        omega
    rw [hget, hget, hvalues q hne]
  · rw [hget, hget]

theorem MapContract.of_insert {truthy : Text → Bool} {env : Env} {table : List Row}
    {key value : Text} (hlen : (escape key).length ≤ 974)
    (hnone : getstring truthy .ok table key = none)
    (h : setstring truthy env table key value = (table ++ [⟨key, value⟩], true)) :
    MapContract truthy env table key value := by
  constructor <;> rw [h]
  · intro _
    rcases getstring_spec truthy key with ⟨_, hget⟩ | ⟨_, hlong, _⟩ | ⟨hno, _⟩
    · rw [hget, List.head?_eq_none_iff] at hnone
      rw [hget, values_insert, hnone, if_pos rfl]
      rfl
    · omega
    · exact absurd (Or.inl hlen) hno
  · intro _ k hk
    apply getstring_congr (by omega) hk
    intro q hq
    rw [values_insert, if_neg hq.symm, List.append_nil]
  · intro hret
    exact absurd hret (by simp)

theorem MapContract.of_update {truthy : Text → Bool} {env : Env} {table : List Row}
    {key value old : Text} (hlen : (escape key).length ≤ 978)
    (hsome : getstring truthy .ok table key = some old)
    (h : setstring truthy env table key value =
      ((Stmt.run truthy table (.update value (.key key))).1, true)) :
    MapContract truthy env table key value := by
  constructor <;> rw [h]
  · intro _
    rcases getstring_spec truthy key with ⟨_, hget⟩ | ⟨_, hlong, q, hq, hget⟩ | ⟨_, hget⟩
    · rw [hget] at hsome
      rw [hget, values_update_same, List.head?_map, hsome]
      rfl
    · rcases hq with rfl | hq
      · rw [hget] at hsome
        rw [hget, values_update_same, List.getLast?_map, hsome]
        rfl
      · have := hq.lt
        omega
    · rw [hget] at hsome
      cases hsome
  · intro _ k hk
    apply getstring_congr hlen hk
    intro q hq
    exact values_update_other hq
  · intro hret
    exact absurd hret (by simp)

/-! ## Where it breaks -/

/-- The key is read from the table, and the `UPDATE` for it is miscut. -/
def BadCut (key value : Text) : Prop := Readable key ∧ Miscut key value

/-- A miscut statement had no room. -/
theorem Miscut.no_room {k v : Text} (h : Miscut k v) :
    978 < (escape v).length + (escape k).length := by
  rcases h with ⟨p, hp⟩ | h | h | ⟨p, hp⟩
  · have := hp.lt
    omega
  · omega
  · omega
  · have := hp.lt
    omega

theorem getstring_short (truthy : Text → Bool) {k : Text} (h : (escape k).length ≤ 974)
    (table : List Row) : getstring truthy .ok table k = (values table k).head? := by
  rcases getstring_spec truthy k with ⟨_, hget⟩ | ⟨_, hlen, _⟩ | ⟨hno, _⟩
  · exact hget table
  · omega
  · exact absurd (Or.inl h) hno

theorem Readable.reads {k : Text} (h : Readable k) (truthy : Text → Bool) :
    ∃ q, ReadsAs k q ∧
      ∀ table w, values table q = [w] → getstring truthy .ok table k = some w := by
  rcases getstring_spec truthy k with ⟨_, hget⟩ | ⟨_, _, q, hq, hget⟩ | ⟨hno, _⟩
  · refine ⟨k, Or.inl rfl, fun table w hw => ?_⟩
    rw [hget, hw]
    rfl
  · refine ⟨q, hq, fun table w hw => ?_⟩
    rw [hget, hw]
    rfl
  · exact absurd h hno

/-- A second key, which is true as a condition. -/
def bystander (key : Text) : Text := if key = ['1'] then ['2'] else ['1']

theorem bystander_ne (key : Text) : bystander key ≠ key := by
  unfold bystander
  split
  · rename_i h
    rw [h]
    decide
  · rename_i h
    exact Ne.symm h

theorem escape_bystander (key : Text) : (escape (bystander key)).length = 1 := by
  unfold bystander
  split <;> rfl

theorem bystander_truthy {truthy : Text → Bool} (h₁ : truthy ['1'] = true)
    (h₂ : truthy ['2'] = true) (key : Text) : truthy (bystander key) = true := by
  unfold bystander
  split
  · exact h₂
  · exact h₁

theorem bystander_ne_read {key q : Text} (hq : ReadsAs key q) : q ≠ bystander key := by
  rintro rfl
  rcases hq with h | ⟨rest, _, hn⟩
  · exact bystander_ne key h
  · rw [escape_bystander] at hn
    omega

theorem append_x_ne (value : Text) : value ++ ['x'] ≠ value := by
  intro h
  have hlen := congrArg List.length h
  rw [List.length_append, List.length_singleton] at hlen
  omega

section Broken

variable {truthy : Text → Bool} {env : Env} {key value q w : Text}

theorem values_pair_left (h : q ≠ bystander key) :
    values [⟨q, w⟩, ⟨bystander key, w⟩] q = [w] := by
  simp [values, h.symm]

theorem values_pair_right (h : q ≠ bystander key) :
    values [⟨q, w⟩, ⟨bystander key, w⟩] (bystander key) = [w] := by
  simp [values, h]

/-- An `UPDATE` without its condition reaches the bystander. -/
theorem values_bystander (f : Filter) (hf : f = .all ∨ f = .truthy ∧ truthy (bystander key) = true)
    (h : q ≠ bystander key) (v : Text) :
    values (Stmt.run truthy [⟨q, w⟩, ⟨bystander key, w⟩] (.update v f)).1 (bystander key) = [v] := by
  rcases hf with rfl | ⟨rfl, ht⟩
  · simp [values, Stmt.run, Filter.holds, h]
  · by_cases hq : truthy q = true <;> simp [values, Stmt.run, Filter.holds, h, ht, hq]

/-- An `UPDATE` without its condition changes what the bystander has. -/
theorem not_contract_of_wide (f : Filter)
    (hf : f = .all ∨ f = .truthy ∧ truthy (bystander key) = true) (hq : q ≠ bystander key)
    (h : setstring truthy env [⟨q, value ++ ['x']⟩, ⟨bystander key, value ++ ['x']⟩] key value =
      ((Stmt.run truthy [⟨q, value ++ ['x']⟩, ⟨bystander key, value ++ ['x']⟩]
        (.update value f)).1, true)) :
    ¬MapContract truthy env [⟨q, value ++ ['x']⟩, ⟨bystander key, value ++ ['x']⟩] key value := by
  intro hmap
  have hothers := hmap.others (by rw [h]) (bystander key) (bystander_ne key)
  rw [h, getstring_short _ (by rw [escape_bystander]; decide),
    getstring_short _ (by rw [escape_bystander]; decide), values_bystander f hf hq,
    values_pair_right hq] at hothers
  exact append_x_ne value (Option.some.inj hothers).symm

/-- **A miscut `UPDATE` breaks the map**, on a table with two rows. -/
theorem badCut_breaks (h₁ : truthy ['1'] = true) (h₂ : truthy ['2'] = true) (hw : env.writes)
    (hok : env.read = .ok) (hbad : BadCut key value) :
    ∃ table, ¬MapContract truthy env table key value := by
  obtain ⟨hread, hcut⟩ := hbad
  have hroom := hcut.no_room
  obtain ⟨q, hq, hget⟩ := hread.reads truthy
  have hne : q ≠ bystander key := bystander_ne_read hq
  refine ⟨[⟨q, value ++ ['x']⟩, ⟨bystander key, value ++ ['x']⟩], ?_⟩
  have hset := setstring_spec truthy env
    [⟨q, value ++ ['x']⟩, ⟨bystander key, value ++ ['x']⟩] key value
  rw [if_pos hw, hok, hget _ _ (values_pair_left hne)] at hset
  rcases update_cut key value (S := setStmt (some (value ++ ['x'])) key value) rfl with
    ⟨hfits, _⟩ | ⟨p, hp, hS⟩ | ⟨_, hS⟩ | ⟨_, hS⟩ | ⟨p, hp, hS⟩ | ⟨hno, _⟩
  · omega
  · -- the condition is about another key: nothing is stored
    rw [hS] at hset
    intro hmap
    have hstored := hmap.stored (by rw [hset])
    have hpq : q ≠ p := by
      rcases hq with rfl | ⟨_, _, hn⟩
      · exact hp.ne.symm
      · rintro rfl
        obtain ⟨_, _, hm⟩ := hp
        omega
    rw [hset, hget _ (value ++ ['x']) (by rw [values_update_other hpq, values_pair_left hne])]
      at hstored
    exact append_x_ne value (Option.some.inj hstored)
  · rw [hS] at hset
    exact not_contract_of_wide .truthy (Or.inr ⟨rfl, bystander_truthy h₁ h₂ key⟩) hne hset
  · rw [hS] at hset
    exact not_contract_of_wide .all (Or.inl rfl) hne hset
  · -- the value itself was cut
    rw [hS] at hset
    intro hmap
    have hstored := hmap.stored (by rw [hset])
    have hvalues : values (Stmt.run truthy
        [⟨q, value ++ ['x']⟩, ⟨bystander key, value ++ ['x']⟩] (.update p .all)).1 q = [p] := by
      simp [values, Stmt.run, Filter.holds, hne.symm]
    rw [hset, hget _ p hvalues] at hstored
    exact hp.ne (Option.some.inj hstored)
  · exact absurd hcut hno

/-- **A failed read breaks the map**: a key that is there is inserted once more, behind its old
    value. -/
theorem failed_read_breaks (hw : env.writes) (hfail : env.read ≠ .ok)
    (hroom : (escape key).length + (escape value).length ≤ 974) :
    ∃ table, ¬MapContract truthy env table key value := by
  refine ⟨[⟨key, value ++ ['x']⟩], fun hmap => ?_⟩
  have hset := setstring_spec truthy env [⟨key, value ++ ['x']⟩] key value
  rw [if_pos hw, getstring_fails truthy hfail] at hset
  have hS : setStmt none key value = some (.insert key value) := by
    exact (insert_cut key value).trans (if_pos hroom)
  rw [hS] at hset
  have hstored := hmap.stored (by rw [hset])
  rw [hset, getstring_short _ (by omega)] at hstored
  have hhead : (values ((Stmt.run truthy [⟨key, value ++ ['x']⟩] (.insert key value)).1) key).head? =
      some (value ++ ['x']) := by
    simp [values, Stmt.run]
  rw [hhead] at hstored
  exact append_x_ne value (Option.some.inj hstored)

end Broken

/-- The inputs for which the store is a map: what was meant is stored, or nothing is. -/
def KeepsMap (env : Env) (key value : Text) : Prop :=
  if env.read = .ok then ¬BadCut key value
  else 974 < (escape key).length + (escape value).length

/-- A call that keeps to the conditions. -/
theorem MapContract.of_keeps (truthy : Text → Bool) (env : Env) (table : List Row)
    (key value : Text) (h : env.writes → KeepsMap env key value) :
    MapContract truthy env table key value := by
  have hset := setstring_spec truthy env table key value
  by_cases hw : env.writes
  · rw [if_pos hw] at hset
    have hkeeps := h hw
    unfold KeepsMap at hkeeps
    cases hex : getstring truthy env.read table key with
    | none =>
      have hS : setStmt none key value = _ := insert_cut key value
      rw [hex, hS] at hset
      by_cases hroom : (escape key).length + (escape value).length ≤ 974
      · rw [if_pos hroom] at hset
        have hok : env.read = .ok := by
          by_contra hfail
          rw [if_neg hfail] at hkeeps
          omega
        rw [hok] at hex
        exact .of_insert (by omega) hex hset
      · rw [if_neg hroom] at hset
        exact .of_failed hset
    | some old =>
      have hok : env.read = .ok := by
        by_contra hfail
        rw [getstring_fails truthy hfail] at hex
        cases hex
      rw [if_pos hok] at hkeeps
      rw [hex] at hset
      rw [hok] at hex
      have hread : Readable key := by
        by_contra hno
        rcases getstring_spec truthy key with ⟨hlen, _⟩ | ⟨hyes, _⟩ | ⟨_, hget⟩
        · exact hno (Or.inl hlen)
        · exact hno hyes
        · rw [hget] at hex
          cases hex
      have hcut : ¬Miscut key value := fun hcut => hkeeps ⟨hread, hcut⟩
      rcases update_cut key value (S := setStmt (some old) key value) rfl with
        ⟨hfits, hS⟩ | ⟨p, hp, _⟩ | ⟨hlen, _⟩ | ⟨hlen, _⟩ | ⟨p, hp, _⟩ | ⟨_, hS⟩
      · rw [hS] at hset
        exact .of_update (by omega) hex hset
      · exact absurd (Or.inl ⟨p, hp⟩) hcut
      · exact absurd (Or.inr (Or.inl hlen)) hcut
      · exact absurd (Or.inr (Or.inr (Or.inl hlen))) hcut
      · exact absurd (Or.inr (Or.inr (Or.inr ⟨p, hp⟩))) hcut
      · rw [hS] at hset
        exact .of_failed hset
  · rw [if_neg hw] at hset
    exact .of_failed hset

/-- **The settings store as a map.**  For every key and value, and whatever fails outside, the store
    behaves as a map on every table if and only if no `UPDATE` is miscut and no failed read is
    followed by an `INSERT` that fits.  SQLite takes the texts `1` and `2` as true. -/
theorem setstring_map_iff {truthy : Text → Bool} (h₁ : truthy ['1'] = true)
    (h₂ : truthy ['2'] = true) (env : Env) (key value : Text) :
    (∀ table, MapContract truthy env table key value) ↔ (env.writes → KeepsMap env key value) := by
  constructor
  · intro hall hw
    unfold KeepsMap
    by_cases hok : env.read = .ok
    · rw [if_pos hok]
      intro hbad
      obtain ⟨table, hnot⟩ := badCut_breaks h₁ h₂ hw hok hbad
      exact hnot (hall table)
    · rw [if_neg hok]
      by_contra hroom
      obtain ⟨table, hnot⟩ := failed_read_breaks hw hok (Nat.le_of_not_lt hroom)
      exact hnot (hall table)
  · intro h table
    exact .of_keeps truthy env table key value h

/-- The conditions of SQLite on texts of digits. -/
def digitsTruthy (text : Text) : Bool := (text.takeWhile Char.isDigit).any (· ≠ '0')

/-- Nothing fails. -/
def Env.ok : Env := ⟨true, true, .ok, true, true⟩

theorem setstring_map_iff_quote :
    MapContract digitsTruthy .ok [⟨"volume".toList, "80".toList⟩] "volume".toList "it's".toList := by
  apply (setstring_map_iff rfl rfl .ok "volume".toList "it's".toList).mpr _ _
  intro _
  show ¬BadCut _ _
  rintro ⟨_, hcut⟩
  have hroom := hcut.no_room
  have hlen : (escape "it's".toList).length + (escape "volume".toList).length = 11 := rfl
  omega

/-- An `UPDATE` that is cut right after its value. -/
theorem setStmt_without_where {old key value : Text} (hlen : (escape value).length = 993) :
    setStmt (some old) key value = some (.update value .all) := by
  rcases update_cut key value (S := setStmt (some old) key value) rfl with
    ⟨hfits, _⟩ | ⟨p, ⟨_, _, hn⟩, _⟩ | ⟨h, _⟩ | ⟨_, hS⟩ | ⟨p, hp, _⟩ | ⟨hno, _⟩
  · omega
  · omega
  · omega
  · exact hS
  · have := hp.lt
    omega
  · exact absurd (Or.inr (Or.inr (Or.inl (Or.inr hlen)))) hno

/-- A key that is there, a second one, and a value of 993 chars: the second one is changed too. -/
theorem setstring_without_where {truthy : Text → Bool} {value : Text}
    (hlen : (escape value).length = 993) :
    setstring truthy .ok [⟨['a'], ['x']⟩, ⟨['b'], ['y']⟩] ['a'] value =
      ([⟨['a'], value⟩, ⟨['b'], value⟩], true) := by
  have hold : getstring truthy Env.ok.read [⟨['a'], ['x']⟩, ⟨['b'], ['y']⟩] ['a'] = some ['x'] :=
    getstring_short _ (by decide) _
  rw [setstring_spec, if_pos (by decide), hold, setStmt_without_where hlen]
  rfl

/-- A value of 993 chars for the key `a`: the cut `UPDATE` ends after the value, is a success, and
    changes the key `b`. -/
theorem setstring_overwrites_other :
    (setstring digitsTruthy .ok [⟨['a'], ['x']⟩, ⟨['b'], ['y']⟩] ['a']
        (List.replicate 993 'v')).2 = true ∧
      getstring digitsTruthy .ok [⟨['a'], ['x']⟩, ⟨['b'], ['y']⟩] ['b'] = some ['y'] ∧
      getstring digitsTruthy .ok (setstring digitsTruthy .ok [⟨['a'], ['x']⟩, ⟨['b'], ['y']⟩] ['a']
        (List.replicate 993 'v')).1 ['b'] = some (List.replicate 993 'v') ∧
      ¬∀ env table key value, MapContract digitsTruthy env table key value := by
  generalize hv : List.replicate 993 'v' = value
  have hlen : (escape value).length = 993 := by
    rw [escape_of_no_quote, ← hv, List.length_replicate]
    rw [← hv]
    intro hmem
    exact absurd (List.eq_of_mem_replicate hmem) (by decide)
  have hset := @setstring_without_where digitsTruthy value hlen
  have hb : (escape ['b']).length ≤ 974 := by decide
  have hbefore : getstring digitsTruthy .ok [⟨['a'], ['x']⟩, ⟨['b'], ['y']⟩] ['b'] = some ['y'] :=
    getstring_short _ hb _
  have hafter : getstring digitsTruthy .ok [⟨['a'], value⟩, ⟨['b'], value⟩] ['b'] = some value :=
    getstring_short _ hb _
  rw [hset]
  refine ⟨rfl, hbefore, hafter, fun hall => ?_⟩
  have hothers := (hall .ok [⟨['a'], ['x']⟩, ⟨['b'], ['y']⟩] ['a'] value).others
    (by rw [hset]) ['b'] (by decide)
  rw [hset, hafter, hbefore] at hothers
  rw [Option.some.inj hothers] at hlen
  exact absurd hlen (by decide)

end Mediabox.Settings
