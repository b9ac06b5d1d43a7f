import Mediabox.Lib.Transition
import Mediabox.PlayerCache
import Mediabox.SettingsMap

/-!
# Settings that are numbers (`src/lib/settings.c`)

`avbox_settings_setint` and `avbox_settings_setbool` store numbers as texts, which
`avbox_settings_getint` and `avbox_settings_getbool` convert back.  They are called with
`avbox_settings_setstring` and `avbox_settings_getstring`, by any thread and in any order.

* A step is one call: `avbox_settings_setstring` holds `dblock`, and a read is one statement.
* A run begins with the table that `avbox_settings_createdb` creates; its own two calls are the first
  steps.  The table outlives the program.
* `Value` — what a key was given.
* `stored` — what each key was given last, by a call that returned 0.
* `Fits` — no statement is miscut, and no key is written after its read has failed.

Main result: `settings_hold_values`.
-/

set_option autoImplicit false

namespace Mediabox.Settings

open SqlText Transition MachineInt

/-! ## The code -/

inductive Fault where
  | assert
  /-- `abort()`, for a text that is neither `0` nor `1` -/
  | abort
  /-- the text is not that of an `int` -/
  | overflow
  deriving DecidableEq, Repr

/-- `sprintf(svalue, "%d", value)` -/
def sprintf (value : Int) : Text :=
  if value < 0 then '-' :: Nat.toDigits 10 value.natAbs else Nat.toDigits 10 value.natAbs

/-- `atoi`, as `Cache.atoi` has it. -/
def atoi (svalue : Text) : Except Fault Int :=
  match Cache.atoi svalue with
  | .ok value => .ok value
  | .error _ => .error .overflow

section Calls

variable (truthy : Text → Bool)

/-- `avbox_settings_setint` -/
def setint (env : Env) (table : List Row) (key : Text) (value : Int) : List Row × Bool :=
  setstring truthy env table key (sprintf value)

/-- `avbox_settings_setbool` -/
def setbool (env : Env) (table : List Row) (key : Text) (value : Int) :
    Except Fault (List Row × Bool) :=
  if ¬(value = 0 ∨ value = 1) then .error .assert
  else if value = 0 then .ok (setstring truthy env table key ['0'])
  else .ok (setstring truthy env table key ['1'])

/-- `avbox_settings_getint` -/
def getint (env : ReadEnv) (table : List Row) (key : Text) (defvalue : Int) : Except Fault Int :=
  match getstring truthy env table key with
  | none => .ok defvalue
  | some svalue => atoi svalue

/-- `avbox_settings_getbool` -/
def getbool (env : ReadEnv) (table : List Row) (key : Text) : Except Fault Int :=
  match getstring truthy env table key with
  | none => .ok 0
  | some str => if str = ['0'] then .ok 0 else if str = ['1'] then .ok 1 else .error .abort

structure State where
  table : List Row
  stopped : Bool
  deriving DecidableEq, Repr

/-- After `CREATE TABLE settings`. -/
def created : State := ⟨[], false⟩

inductive Event where
  | setstring (env : Env) (key value : Text)
  | setint (env : Env) (key : Text) (value : Int)
  | setbool (env : Env) (key : Text) (value : Int)
  | getstring (env : ReadEnv) (key : Text)
  | getint (env : ReadEnv) (key : Text) (defvalue : Int)
  | getbool (env : ReadEnv) (key : Text)
  deriving DecidableEq, Repr

inductive Result where
  /-- what a setter returns, whether it is 0 -/
  | wrote (success : Bool)
  | string (value : Option Text)
  | int (value : Int)
  | fault (f : Fault)
  deriving DecidableEq, Repr

def State.wrote (r : List Row × Bool) : State × Result := (⟨r.1, false⟩, .wrote r.2)

/-- What a call answers, or the end of the program. -/
def State.read (s : State) : Except Fault Int → State × Result
  | .ok value => (s, .int value)
  | .error f => ({ s with stopped := true }, .fault f)

def step (s : State) (e : Event) : Option (State × Result) :=
  if s.stopped then none
  else
    match e with
    | .setstring env key value => some (State.wrote (setstring truthy env s.table key value))
    | .setint env key value => some (State.wrote (setint truthy env s.table key value))
    | .setbool env key value =>
      match setbool truthy env s.table key value with
      | .ok r => some (State.wrote r)
      | .error f => some (⟨s.table, true⟩, .fault f)
    | .getstring env key => some (s, .string (getstring truthy env s.table key))
    | .getint env key defvalue => some (s.read (getint truthy env s.table key defvalue))
    | .getbool env key => some (s.read (getbool truthy env s.table key))

end Calls

/-! ## What it is for -/

/-- What a key is given. -/
inductive Value where
  | string (value : Text)
  | int (value : Int)
  | bool (value : Bool)
  deriving DecidableEq, Repr

def Value.text : Value → Text
  | .string value => value
  | .int value => sprintf value
  | .bool value => if value then ['1'] else ['0']

/-- A value, read as an `int`: a truth value is 0 or 1, and a string is converted. -/
def Value.toInt : Value → Except Fault Int
  | .string value => atoi value
  | .int value => .ok value
  | .bool value => .ok (if value then 1 else 0)

/-- A value, read as a truth value: the numbers 0 and 1 are truth values, and so are the strings that
    write them. -/
def Value.toBool : Value → Except Fault Int
  | .string value =>
    if value = ['0'] then .ok 0 else if value = ['1'] then .ok 1 else .error .abort
  | .int value => if value = 0 ∨ value = 1 then .ok value else .error .abort
  | .bool value => .ok (if value then 1 else 0)

/-- What a call stores, if it returns 0. -/
def Event.stores : Event → Option (Env × Text × Value)
  | .setstring env key value => some (env, key, .string value)
  | .setint env key value => some (env, key, .int value)
  | .setbool env key value => some (env, key, .bool (value ≠ 0))
  | _ => none

/-- The values after a call. -/
def store (values : Text → Option Value) (a : Event × Result) : Text → Option Value :=
  match a.1.stores, a.2 with
  | some (_, key, value), .wrote true => Function.update values key (some value)
  | _, _ => values

/-- What each key was given last. -/
def stored (tr : List (Event × Result)) : Text → Option Value := tr.foldl store fun _ => none

/-- The call is one for which the store is a map, and the argument of `avbox_settings_setint` is an
    `int`. -/
def Fits (_ : State) (e : Event) : Prop :=
  (∀ env key value, e.stores = some (env, key, value) → env.writes → KeepsMap env key value.text) ∧
    ∀ env key value, e = .setint env key value → InRange 32 value

/-- What the reads answer when the keys have these values. -/
structure Holds (truthy : Text → Bool) (table : List Row) (values : Text → Option Value) : Prop where
  string : ∀ key, getstring truthy .ok table key = (values key).map Value.text
  int : ∀ key defvalue, getint truthy .ok table key defvalue =
    ((values key).map Value.toInt).getD (.ok defvalue)
  bool : ∀ key, getbool truthy .ok table key = ((values key).map Value.toBool).getD (.ok 0)
  /-- a read that fails gives the default -/
  failed : ∀ env, env ≠ .ok → ∀ key, getstring truthy env table key = none ∧
    (∀ defvalue, getint truthy env table key defvalue = .ok defvalue) ∧
    getbool truthy env table key = .ok 0

/-! ## The round trip of a number -/

theorem strisdigit_toDigits (n : Nat) : Cache.strisdigit (Nat.toDigits 10 n) = true := by
  refine Cache.strisdigit_iff.mpr fun c hc => ?_
  have hdigit : c.isDigit = true := Nat.isDigit_of_mem_toDigits (by decide) (by decide) hc
  simp only [Char.isDigit, Bool.and_eq_true, decide_eq_true_eq] at hdigit
  simp only [Cache.isdigit, Bool.and_eq_true, decide_eq_true_eq]
  exact hdigit

theorem leading_eq_ofDigitChars {str : Text} (h : Cache.strisdigit str = true) (n : Nat) :
    Cache.leading n str = Nat.ofDigitChars 10 str n := by
  induction str generalizing n with
  | nil => simp [Cache.leading]
  | cons c str ih =>
    obtain ⟨hc, hstr⟩ := Cache.strisdigit_cons.mp h
    rw [Cache.leading, if_pos hc, ih hstr, Nat.ofDigitChars_cons]
    rfl

theorem leading_toDigits (n : Nat) : Cache.leading 0 (Nat.toDigits 10 n) = n := by
  rw [leading_eq_ofDigitChars (strisdigit_toDigits n), Nat.ofDigitChars_ten_toDigits]

/-- An `int` is what its text is converted to. -/
theorem atoi_sprintf {value : Int} (h : InRange 32 value) : atoi (sprintf value) = .ok value := by
  have hatoi : Cache.atoi (sprintf value) = .ok value := by
    unfold sprintf
    split
    · have hneg : -((Cache.leading 0 (Nat.toDigits 10 value.natAbs) : Nat) : Int) = value := by
        rw [leading_toDigits]
        omega
      show arith 32 _ _ = _
      rw [hneg]
      exact arith_ok h
    · have hdecimal : ((Cache.decimal (Nat.toDigits 10 value.natAbs) : Nat) : Int) = value := by
        have hlead := Cache.leading_eq (n := 0) (strisdigit_toDigits value.natAbs)
        rw [leading_toDigits] at hlead
        unfold Cache.decimal
        omega
      rw [Cache.atoi_of_strisdigit (strisdigit_toDigits _), hdecimal]
      exact arith_ok h
  unfold atoi
  rw [hatoi]

/-- The text of a number is `0` or `1` for these numbers only. -/
theorem sprintf_eq_iff {value : Int} (h : InRange 32 value) :
    (sprintf value = ['0'] ↔ value = 0) ∧ (sprintf value = ['1'] ↔ value = 1) := by
  have hinj : ∀ value', InRange 32 value' → sprintf value = sprintf value' → value = value' := by
    intro value' h' heq
    have hok := (atoi_sprintf h).symm.trans ((congrArg atoi heq).trans (atoi_sprintf h'))
    exact Except.ok.inj hok
  refine ⟨⟨fun heq => ?_, ?_⟩, ⟨fun heq => ?_, ?_⟩⟩
  · exact hinj 0 (by decide) heq
  · rintro rfl
    rfl
  · exact hinj 1 (by decide) heq
  · rintro rfl
    rfl

theorem escape_sprintf {value : Int} (h : InRange 32 value) :
    (escape (sprintf value)).length ≤ 11 := by
  have hdigits : ∀ c ∈ Nat.toDigits 10 value.natAbs, c ≠ '\'' := by
    rintro c hc rfl
    exact absurd (Nat.isDigit_of_mem_toDigits (by decide) (by decide) hc) (by decide)
  have hlen : (Nat.toDigits 10 value.natAbs).length ≤ 10 := by
    rw [Nat.length_toDigits_le_iff (by decide) (by decide)]
    have := inRange_32.mp h
    omega
  unfold sprintf
  split
  · rw [escape_of_no_quote]
    · exact Nat.succ_le_succ hlen
    · intro hmem
      obtain heq | hmem := List.mem_cons.mp hmem
      · exact absurd heq (by decide)
      · exact hdigits _ hmem rfl
  · rw [escape_of_no_quote fun hmem => hdigits _ hmem rfl]
    omega

theorem fits_setint {env : Env} {key : Text} {value : Int} (hread : env.read = .ok)
    (hkey : (escape key).length ≤ 967) (h : InRange 32 value) (s : State) :
    Fits s (.setint env key value) := by
  constructor
  · rintro _ _ _ ⟨⟩ _
    unfold KeepsMap
    rw [if_pos hread]
    rintro ⟨_, hcut⟩
    have hroom := hcut.no_room
    have hvalue : (escape (Value.int value).text).length ≤ 11 := escape_sprintf h
    omega
  · rintro _ _ _ ⟨⟩
    exact h

/-! ## What the reads answer -/

section Reads

variable {truthy : Text → Bool} {table : List Row} {key : Text} {v : Value}

/-- The value of an `avbox_settings_setint` is an `int`. -/
def Value.Fits : Value → Prop
  | .int value => InRange 32 value
  | _ => True

theorem atoi_text (h : v.Fits) : atoi v.text = v.toInt := by
  cases v with
  | string value => rfl
  | int value => exact atoi_sprintf h
  | bool value => cases value <;> rfl

theorem getbool_text (h : v.Fits) :
    (if v.text = ['0'] then .ok 0 else if v.text = ['1'] then .ok 1 else .error .abort) =
      v.toBool := by
  cases v with
  | string value => rfl
  | bool value => cases value <;> rfl
  | int value =>
    have hzero : (Value.int value).text = ['0'] ↔ value = 0 := (sprintf_eq_iff h).1
    have hone : (Value.int value).text = ['1'] ↔ value = 1 := (sprintf_eq_iff h).2
    show _ = if value = 0 ∨ value = 1 then _ else _
    by_cases h0 : value = 0
    · rw [if_pos (hzero.mpr h0), if_pos (Or.inl h0), h0]
    · rw [if_neg (mt hzero.mp h0)]
      by_cases h1 : value = 1
      · rw [if_pos (hone.mpr h1), if_pos (Or.inr h1), h1]
      · rw [if_neg (mt hone.mp h1), if_neg (not_or.mpr ⟨h0, h1⟩)]

/-- What the strings are decides what the other reads answer. -/
theorem Holds.of_string {values : Text → Option Value}
    (hfits : ∀ key v, values key = some v → v.Fits)
    (hstring : ∀ key, getstring truthy .ok table key = (values key).map Value.text) :
    Holds truthy table values where
  string := hstring
  int := by
    intro key defvalue
    unfold getint
    rw [hstring]
    cases hv : values key with
    | none => rfl
    | some v => exact atoi_text (hfits key v hv)
  bool := by
    intro key
    unfold getbool
    rw [hstring]
    cases hv : values key with
    | none => rfl
    | some v => exact getbool_text (hfits key v hv)
  failed := by
    intro env henv key
    have hnone := getstring_fails truthy henv table key
    refine ⟨hnone, fun defvalue => ?_, ?_⟩
    · rw [getint, hnone]
    · rw [getbool, hnone]

end Reads

/-! ## The store over runs -/

section Runs

variable {truthy : Text → Bool} {s t : State} {a : Event × Result} {values : Text → Option Value}

theorem State.read_table (s : State) (x : Except Fault Int) : (s.read x).1.table = s.table := by
  cases x <;> rfl

theorem step_cases (h : Step (step truthy) s a t) :
    (t.table = s.table ∧ ∀ values, store values a = values) ∨
    ∃ env key v, a.1.stores = some (env, key, v) ∧
      t.table = (setstring truthy env s.table key v.text).1 ∧
      a.2 = .wrote (setstring truthy env s.table key v.text).2 := by
  obtain ⟨e, r⟩ := a
  simp only [Step, step] at h
  split at h
  · cases h
  · cases e with
    | setstring env key value =>
      cases h
      exact .inr ⟨env, key, .string value, rfl, rfl, rfl⟩
    | setint env key value =>
      cases h
      exact .inr ⟨env, key, .int value, rfl, rfl, rfl⟩
    | setbool env key value =>
      simp only [setbool] at h
      by_cases hbool : value = 0 ∨ value = 1
      · right
        refine ⟨env, key, .bool (value ≠ 0), rfl, ?_⟩
        obtain rfl | rfl := hbool
        · cases h
          exact ⟨rfl, rfl⟩
        · cases h
          exact ⟨rfl, rfl⟩
      · rw [if_pos hbool] at h
        cases h
        exact .inl ⟨rfl, fun _ => rfl⟩
    | getstring env key =>
      cases h
      exact .inl ⟨rfl, fun _ => rfl⟩
    | getint env key defvalue =>
      have hread : (s.read (getint truthy env s.table key defvalue)).1 = t :=
        congrArg Prod.fst (Option.some.inj h)
      exact .inl ⟨hread ▸ s.read_table _, fun _ => rfl⟩
    | getbool env key =>
      have hread : (s.read (getbool truthy env s.table key)).1 = t :=
        congrArg Prod.fst (Option.some.inj h)
      exact .inl ⟨hread ▸ s.read_table _, fun _ => rfl⟩

/-- The strings of the table are those of the values, and the numbers among these are `int`s. -/
structure Stores (truthy : Text → Bool) (table : List Row) (values : Text → Option Value) : Prop where
  fits : ∀ key v, values key = some v → v.Fits
  strings : ∀ key, getstring truthy .ok table key = (values key).map Value.text

/-- **A call of `avbox_settings_setstring`** keeps the strings, or gives one key its value. -/
theorem Stores.write (h : Stores truthy s.table values) {env : Env} {key : Text} {v : Value}
    (hstores : a.1.stores = some (env, key, v)) (hfits : Fits s a.1)
    (htable : t.table = (setstring truthy env s.table key v.text).1)
    (hret : a.2 = .wrote (setstring truthy env s.table key v.text).2) :
    Stores truthy t.table (store values a) := by
  have hmap := MapContract.of_keeps truthy env s.table key v.text (hfits.1 env key v hstores)
  cases hsuccess : (setstring truthy env s.table key v.text).2 with
  | false =>
    have hvalues : store values a = values := by
      simp [store, hstores, hret, hsuccess]
    rw [hvalues, htable, hmap.failed hsuccess]
    exact h
  | true =>
    have hvalues : store values a = Function.update values key (some v) := by
      simp [store, hstores, hret, hsuccess]
    have hv : v.Fits := by
      obtain ⟨e, r⟩ := a
      cases e <;> cases hstores
      · trivial
      · exact hfits.2 _ _ _ rfl
      · trivial
    rw [hvalues, htable]
    constructor
    · intro k w hw
      by_cases hk : k = key
      · rw [hk, Function.update_self] at hw
        cases hw
        exact hv
      · rw [Function.update_of_ne hk] at hw
        exact h.fits k w hw
    · intro k
      by_cases hk : k = key
      · rw [hk, Function.update_self]
        exact hmap.stored hsuccess
      · rw [Function.update_of_ne hk, hmap.others hsuccess k hk]
        exact h.strings k

theorem Stores.step (h : Stores truthy s.table values)
    (hstep : Guarded (Settings.step truthy) Fits s a t) : Stores truthy t.table (store values a) := by
  obtain ⟨hfits, hstep⟩ := hstep
  obtain ⟨htable, hvalues⟩ | ⟨env, key, v, hstores, htable, hret⟩ := step_cases hstep
  · rw [htable, hvalues]
    exact h
  · exact h.write hstores hfits htable hret

theorem stores_created : Stores truthy created.table fun _ => none where
  fits := by
    intro key v hv
    cases hv
  strings := by
    intro key
    rcases getstring_spec truthy key with ⟨_, hget⟩ | ⟨_, _, q, _, hget⟩ | ⟨_, hget⟩
    · exact hget []
    · exact hget []
    · exact hget []

/-- **The settings hold their values.**  In every run of calls, each read answers what the key was
    given last by a call that returned 0: a number that was stored is read as this number, a truth
    value as this truth value, and the default is answered for keys that were never given a value. -/
theorem settings_hold_values {tr : List (Event × Result)}
    (h : Run (Guarded (step truthy) Fits) created tr s) : Holds truthy s.table (stored tr) := by
  have hstores : Stores truthy s.table (stored tr) := by
    refine h.history (P := fun tr s => Stores truthy s.table (stored tr)) stores_created ?_
    intro tr s a t hs hstep
    have hnext : stored (tr ++ [a]) = store (stored tr) a := by
      simp [stored, List.foldl_append]
    rw [hnext]
    exact hs.step hstep
  exact .of_string hstores.fits hstores.strings

end Runs

/-- The volume is set, and set again. -/
def volumes : List Event :=
  [.setint .ok "volume".toList 60, .setint .ok "volume".toList 75]

theorem settings_hold_values_volume : ∃ tr s,
    Run (Guarded (step digitsTruthy) Fits) created tr s ∧ Holds digitsTruthy s.table (stored tr) ∧
      getint digitsTruthy .ok s.table "volume".toList 60 = .ok 75 := by
  obtain ⟨r, hr, hval⟩ : ∃ r ∈ Transition.exec (step digitsTruthy) created volumes,
      stored r.2 "volume".toList = some (.int 75) := by decide +kernel
  have hfits : ∀ s, ∀ e ∈ volumes, Fits s e := by
    intro s e he
    simp only [volumes, List.mem_cons, List.not_mem_nil, or_false] at he
    obtain rfl | rfl := he
    · exact fits_setint rfl (by decide) (by decide) s
    · exact fits_setint rfl (by decide) (by decide) s
  have hrun := guarded_run_of_exec volumes hfits hr
  have hholds := settings_hold_values hrun
  refine ⟨r.2, r.1, hrun, hholds, ?_⟩
  rw [hholds.int, hval]
  rfl

end Mediabox.Settings
