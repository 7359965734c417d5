import SmartDesk.Lib.Sqlite
import SmartDesk.Profiles.Models

/-!
# Migrations and the verification of the schema

`storage/sqlite.py`, what `_start_sync` does with its connection, statement by statement.

* `profilesSchema`, `heightCacheSchema` — the tables that the migrations create.
* `migrateToVersion1`, `migrateToVersion2` — each in a transaction of its own.
* `verifyVersion2Schema` — rows that have to be accepted, and rows that have to be refused, in
  savepoints that are undone.
* `start` — all of it, with the errors that `start()` raises.
-/

namespace SmartDesk.Storage

open Sqlite Effect Effect.Eff PyText
open Profiles (upperHexDigits)

/-! ## The tables -/

/-- `length(text)`: a U+0000 ends the text. -/
def sqlLength (text : List Char) : ℕ := (text.takeWhile (· != '\x00')).length

/-- `trim(text)`. -/
def sqlTrim (text : List Char) : List Char := stripWhere (· == ' ') text

/-- `text GLOB '*[^0-9A-F]*'`: here too a U+0000 ends the text. -/
def globNoUpperHex (text : List Char) : Bool :=
  (text.takeWhile (· != '\x00')).any fun c => !upperHexDigits.contains c

/-- The `CHECK` of `led_color`, for `NULL` and for texts. -/
def ledCheck : Option (List Char) → Bool
  | none => true
  | some text => sqlLength text == 6 && !globNoUpperHex text

/-- `typeof(value) = 'text' AND length(trim(value)) > 0` -/
def isFilled : Value → Bool
  | .text s => decide (0 < sqlLength (sqlTrim s.toList))
  | _ => false

/-- `typeof(value) IN ('integer', 'real') AND value BETWEEN low AND high` -/
def isBetween (low high : ℚ) : Value → Bool
  | .integer n => decide (low ≤ n ∧ n ≤ high)
  | .real q => decide (low ≤ q ∧ q ≤ high)
  | _ => false

/-- `value IS NULL OR (typeof(value) = 'text' AND length(value) = 6 AND value NOT GLOB …)` -/
def isColor : Value → Bool
  | .null => ledCheck none
  | .text s => ledCheck (some s.toList)
  | _ => false

def checked (ok : Bool) : Except SqlError Unit := if ok then .ok () else .error .integrity

/-- A row with the key of another one; a `NULL` is no key. -/
def sameKey (row other : Row) : Bool := row.head? = other.head? && row.head? ≠ some .null

/-- The primary key is the first column. -/
def storeKeyed (rows : List Row) (row : Row) : Except SqlError (List Row) :=
  if rows.any (sameKey row) then .error .integrity else .ok (rows ++ [row])

theorem storeKeyed_nil (row : Row) : storeKeyed [] row = .ok [row] := rfl

/-- `CREATE TABLE profiles (…)`, for rows as they would be stored. -/
def profilesSchema : Schema where
  columns :=
    [⟨"id", "TEXT", 0, 1⟩, ⟨"name", "TEXT", 1, 0⟩, ⟨"sitting_height_cm", "REAL", 1, 0⟩,
      ⟨"standing_height_cm", "REAL", 1, 0⟩, ⟨"led_color", "TEXT", 0, 0⟩]
  check
    | [_, name, sitting, standing, color] =>
        checked (isFilled name && isBetween 75 115 sitting && isBetween 75 115 standing &&
          isColor color)
    | _ => .error (.other false)
  store := storeKeyed
  store_nil := storeKeyed_nil

/-- `CREATE TABLE desk_height_cache (…)` -/
def heightCacheSchema : Schema where
  columns := [⟨"id", "INTEGER", 0, 1⟩, ⟨"height_cm", "REAL", 1, 0⟩, ⟨"observed_at", "TEXT", 1, 0⟩]
  check
    | [id, height, observed] =>
        checked (id = .integer 1 && isBetween 73 118 height && isFilled observed)
    | _ => .error (.other false)
  store := storeKeyed
  store_nil := storeKeyed_nil

/-! ## Errors -/

/-- `StorageCorruptedError`, `StorageVersionError`, `StorageOperationError` -/
inductive StorageError where
  | corrupted (text : String)
  | version (text : String)
  | operation (text : String)
  deriving DecidableEq

abbrev Sync (α : Type) : Type := Sqlite.Op StorageError α

def raiseStorage {α : Type} (e : StorageError) : Sync α := raise (.own e)

/-- `if not holds: raise e` -/
def demand (holds : Bool) (e : StorageError) : Sync Unit :=
  if holds then pure () else raiseStorage e

/-! ## Migrations -/

/-- `ROLLBACK`; a failure is logged. -/
def rollbackMigration : Sync Unit := onSqlError (statement Conn.rollback) fun _ => pure ()

/-- `BEGIN IMMEDIATE`, a new table, the new version, `COMMIT`; rolled back on an error. -/
def migrate (name : String) (schema : Schema) (version : ℤ) : Sync Unit := do
  statement Conn.begin
  onError
    (do
      statement (Conn.change · fun db => db.createTable name schema)
      statement (Conn.change · fun db => .ok (db.setUserVersion version))
      statement Conn.commit)
    rollbackMigration

/-- `_migrate_to_version_1(connection)` -/
def migrateToVersion1 : Sync Unit := migrate "profiles" profilesSchema 1

/-- `_migrate_to_version_2(connection)` -/
def migrateToVersion2 : Sync Unit := migrate "desk_height_cache" heightCacheSchema 2

/-! ## Verification -/

def insert (table : String) (row : Row) : Sync Unit :=
  statement (Conn.change · fun db => db.insert table row)

/-- `try: INSERT … except sqlite3.IntegrityError` -/
def rejects (table : String) (row : Row) : Sync Bool :=
  onSqlError (do insert table row; pure false) fun e =>
    if e = .integrity then pure true else raise (.sql e)

/-- `for row in rows: …`: each row has to be refused. -/
def probe (table : String) (text : String) : List Row → Sync Unit
  | [] => pure ()
  | row :: rows => do
      let rejected ← rejects table row
      demand rejected (.version text)
      probe table text rows

def validFirst : Row :=
  [.text "__schema_check_1__", .text "schema check", .real 115, .real 75, .text "A0B1C2"]

def validSecond : Row :=
  [.text "__schema_check_2__", .text "schema check", .real 75, .real 115, .null]

def invalidRows : List Row :=
  [[.text "__schema_check_3__", .text "   ", .real 80, .real 100, .null],
    [.text "__schema_check_4__", .text "low sitting", .real (749 / 10), .real 100, .null],
    [.text "__schema_check_5__", .text "high standing", .real 80, .real (1151 / 10), .null],
    [.text "__schema_check_6__", .text "lowercase led", .real 80, .real 100, .text "a0b1c2"]]

def validHeight : Row := [.integer 1, .real 80, .text "2026-08-15T00:00:00Z"]

def invalidHeights : List Row :=
  [[.integer 2, .real 80, .text "valid"], [.integer 1, .real (729 / 10), .text "valid"],
    [.integer 1, .real (1181 / 10), .text "valid"]]

/-- The part of `_verify_profile_constraints` inside its savepoint. -/
def probeProfiles : Sync Unit := do
  onSqlError (do insert "profiles" validFirst; insert "profiles" validSecond) fun _ =>
    raiseStorage (.version "SQLite version 1 profiles schema 제약이 호환되지 않습니다.")
  probe "profiles" "SQLite version 1 profiles schema 제약이 누락되었습니다." invalidRows

/-- `_verify_profile_constraints(connection)` -/
def verifyProfileConstraints : Sync Unit := do
  statement (Conn.savepoint · "validate_profiles_schema")
  tryFinally probeProfiles (undo "validate_profiles_schema")

/-- The part of `_verify_height_cache_schema` inside its savepoint. -/
def probeHeights : Sync Unit := do
  statement (Conn.change · fun db => db.deleteAll "desk_height_cache")
  insert "desk_height_cache" validHeight
  probe "desk_height_cache" "SQLite version 2 height cache 제약이 누락되었습니다." invalidHeights

/-- `_verify_height_cache_schema(connection)` -/
def verifyHeightCacheSchema : Sync Unit := do
  let columns ← statement (Conn.query · fun db => db.tableInfo "desk_height_cache")
  demand (columns = heightCacheSchema.columns)
    (.version "SQLite version 2 height cache schema가 올바르지 않습니다.")
  statement (Conn.savepoint · "validate_height_cache_schema")
  tryFinally probeHeights (undo "validate_height_cache_schema")

/-- `tables != {"profiles", "desk_height_cache"}` -/
def hasTables (names : List String) : Bool :=
  names.contains "profiles" && names.contains "desk_height_cache" &&
    names.all fun name => name = "profiles" || name = "desk_height_cache"

/-- `_verify_version_2_schema(connection)` -/
def verifyVersion2Schema : Sync Unit := do
  let version ← statement (Conn.query · Db.userVersion)
  demand (version = 2) (.version "지원하지 않는 SQLite schema version입니다.")
  let names ← statement (Conn.query · Db.tableNames)
  demand (hasTables names) (.version "SQLite version 2 table 구성이 올바르지 않습니다.")
  let columns ← statement (Conn.query · fun db => db.tableInfo "profiles")
  demand (columns = profilesSchema.columns)
    (.version "SQLite version 2 profiles schema가 올바르지 않습니다.")
  verifyProfileConstraints
  verifyHeightCacheSchema

/-! ## The start -/

/-- `_connect()`: two pragmas that change no file. -/
def connect : Sync Unit := do
  statement (Conn.query · fun _ => ())
  statement (Conn.query · fun _ => ())

/-- `_verify_quick_check(connection)` -/
def verifyQuickCheck : Sync Unit := do
  let sound ← statement (Conn.query · Db.sound)
  demand sound (.corrupted "SQLite quick check에 실패했습니다.")

/-- The migrations that a version needs. -/
def migrateFrom (version : ℤ) : Sync Unit :=
  if version = 0 then do
    migrateToVersion1
    migrateToVersion2
  else if version = 1 then migrateToVersion2
  else pure ()

/-- `_start_sync()` -/
def startSync : Sync Unit := do
  connect
  verifyQuickCheck
  let version ← statement (Conn.query · Db.userVersion)
  demand (version ≤ 2) (.version "현재 코드보다 새로운 SQLite schema version입니다.")
  migrateFrom version
  verifyVersion2Schema

/-- `_is_corruption_error(error)` -/
def isCorruptionError : SqlError → Bool
  | .integrity => false
  | .other corruption => corruption

/-- `start()` of a database that is not started: what it does and raises. -/
def start : Sync Unit :=
  onSqlError startSync fun e =>
    if isCorruptionError e then
      raiseStorage (.corrupted "SQLite 데이터베이스가 손상되었거나 올바른 형식이 아닙니다.")
    else raiseStorage (.operation "SQLite 데이터베이스를 시작하지 못했습니다.")

end SmartDesk.Storage
