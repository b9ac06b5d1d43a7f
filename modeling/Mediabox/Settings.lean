import Mediabox.Lib.SqlText

/-!
# The settings store (`src/lib/settings.c`, `src/lib/db_util.c`)

`avbox_settings_getstring` and `avbox_settings_setstring` paste the escaped key and value into a
statement, cut it to a buffer of 1024 chars, and give it to SQLite.

* A C string is the list of its chars before the terminating NUL.
* `exec` is SQLite on the table `settings`: it executes the complete statements that can come out of
  the buffer and rejects everything else.  A statement needs no semicolon at its end.  `truthy` says
  which texts count as true where a condition is expected (`WHERE key`).
* Rows are in the order of a scan; `INSERT` adds at the end.
* What may fail outside comes with the call (`ReadEnv`, `Env`).
* A `value` of `NULL` is not here: `avbox_dbutil_escapesql` would follow it.
-/

set_option autoImplicit false

namespace Mediabox.Settings

open SqlText

/-! ## SQLite -/

/-- A row of the table `settings`. -/
structure Row where
  key : Text
  value : Text
  deriving DecidableEq, Repr

/-- The rows that a statement is about. -/
inductive Filter where
  | all
  /-- `WHERE key` -/
  | truthy
  /-- `WHERE key = '...'` -/
  | key (k : Text)
  deriving DecidableEq, Repr

inductive Stmt where
  | insert (key value : Text)
  | update (value : Text) (filter : Filter)
  /-- with or without `LIMIT 1` -/
  | select (key : Text) (limit : Bool)
  deriving DecidableEq, Repr

def word (w : String) : Token := .word w.toList

def insertHead : List Token :=
  [word "INSERT", word "INTO", word "settings", .sym '(', word "key", .sym ',', word "value",
    .sym ')', word "VALUES", .sym '(']

def updateHead : List Token :=
  [word "UPDATE", word "settings", word "SET", word "value", .sym '=']

def selectHead : List Token :=
  [word "SELECT", word "value", word "FROM", word "settings", word "WHERE", word "key", .sym '=']

def whereKey : List Token := [word "WHERE", word "key"]

/-- What comes after the given beginning. -/
def after (head tokens : List Token) : Option (List Token) :=
  if head.isPrefixOf tokens then some (tokens.drop head.length) else none

def parseInsert : List Token → Option Stmt
  | [.str k, .sym ',', .str v, .sym ')'] => some (.insert k v)
  | [.str k, .sym ',', .str v, .sym ')', .sym ';'] => some (.insert k v)
  | _ => none

def parseFilter : List Token → Option Filter
  | [] => some .truthy
  | [.sym '=', .str k] => some (.key k)
  | [.sym '=', .str k, .sym ';'] => some (.key k)
  | _ => none

def parseUpdate : List Token → Option Stmt
  | [.str v] => some (.update v .all)
  | .str v :: rest => (after whereKey rest).bind fun rest => (parseFilter rest).map (.update v)
  | _ => none

def parseSelect : List Token → Option Stmt
  | [.str k] => some (.select k false)
  | [.str k, limit, one] =>
    if limit = word "LIMIT" ∧ one = word "1" then some (.select k true) else none
  | [.str k, limit, one, .sym ';'] =>
    if limit = word "LIMIT" ∧ one = word "1" then some (.select k true) else none
  | _ => none

/-- The statements that begin like the ones the code builds. -/
def parse (tokens : List Token) : Option Stmt :=
  match after insertHead tokens with
  | some rest => parseInsert rest
  | none =>
    match after updateHead tokens with
    | some rest => parseUpdate rest
    | none => (after selectHead tokens).bind parseSelect

def Filter.holds (truthy : Text → Bool) (f : Filter) (r : Row) : Bool :=
  match f with
  | .all => true
  | .truthy => truthy r.key
  | .key k => r.key = k

/-- A statement on the table: the table after it, and the values that are given to the callback. -/
def Stmt.run (truthy : Text → Bool) (table : List Row) : Stmt → List Row × List Text
  | .insert k v => (table ++ [⟨k, v⟩], [])
  | .update v f => (table.map fun r => if f.holds truthy r then { r with value := v } else r, [])
  | .select k limit =>
    let values := (table.filter fun r => r.key = k).map (·.value)
    (table, if limit then values.take 1 else values)

/-- `sqlite3_exec`; `none` is anything but `SQLITE_OK`. -/
def exec (truthy : Text → Bool) (sql : Text) (table : List Row) : Option (List Row × List Text) :=
  ((tokenize sql).bind parse).map (Stmt.run truthy table)

/-! ## `db_util.c` -/

/-- `avbox_dbutil_escapesql`. -/
def escapesql : Text → Text
  | [] => []
  | c :: sql => if c = '\'' then '\'' :: c :: escapesql sql else c :: escapesql sql

/-! ## `settings.c` -/

/-- `SQLBUFLEN`. -/
def sqlbuflen : Nat := 1024

/-- `snprintf` into a buffer of this length. -/
def snprintf (len : Nat) (text : Text) : Text := text.take (len - 1)

def selectText (safekey : Text) : Text :=
  "SELECT value FROM settings WHERE key = '".toList ++ safekey ++ "' LIMIT 1;".toList

def insertText (safekey safevalue : Text) : Text :=
  "INSERT INTO settings (key, value) VALUES ('".toList ++ safekey ++ "', '".toList ++ safevalue ++
    "');".toList

def updateText (safevalue safekey : Text) : Text :=
  "UPDATE settings SET value = '".toList ++ safevalue ++ "' WHERE key = '".toList ++ safekey ++
    "';".toList

/-- What `avbox_settings_getstring` finds outside. -/
structure ReadEnv where
  /-- `avbox_dbutil_escapesql` -/
  escape : Bool
  /-- `avbox_dbutil_getdbfile` -/
  filename : Bool
  /-- `sqlite3_open_v2` -/
  opens : Bool
  /-- `strdup` in the callback -/
  strdup : Bool
  deriving DecidableEq, Repr

/-- Nothing fails. -/
def ReadEnv.ok : ReadEnv := ⟨true, true, true, true⟩

/-- `avbox_settings_getstring_callback`, called for each row. -/
def getstringCallback (env : ReadEnv) (_value : Option Text) (argv0 : Text) : Option Text :=
  if env.strdup then some argv0 else none

/-- `avbox_settings_getstring`; `none` is `NULL`. -/
def getstring (truthy : Text → Bool) (env : ReadEnv) (table : List Row) (key : Text) :
    Option Text :=
  if !env.escape then none
  else if !env.filename then none
  else
    let sql := snprintf sqlbuflen (selectText (escapesql key))
    if !env.opens then none
    else
      match exec truthy sql table with
      | none => none
      | some (_, rows) => rows.foldl (getstringCallback env) none

/-- What `avbox_settings_setstring` finds outside; `read` is for its own call of
    `avbox_settings_getstring`. -/
structure Env where
  escapeKey : Bool
  escapeValue : Bool
  read : ReadEnv
  filename : Bool
  opens : Bool
  deriving DecidableEq, Repr

/-- `avbox_settings_setstring`: the table after it, and whether it returns 0.  When the database
    cannot be opened the statement is given to SQLite all the same, which refuses it. -/
def setstring (truthy : Text → Bool) (env : Env) (table : List Row) (key value : Text) :
    List Row × Bool :=
  if !env.escapeKey || !env.escapeValue then (table, false)
  else
    let sql := snprintf sqlbuflen <|
      match getstring truthy env.read table key with
      | none => insertText (escapesql key) (escapesql value)
      | some _ => updateText (escapesql value) (escapesql key)
    if !env.filename then (table, false)
    else if !env.opens then (table, false)
    else
      match exec truthy sql table with
      | none => (table, false)
      | some (table', _) => (table', true)

end Mediabox.Settings
