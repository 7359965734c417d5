import SmartDesk.Storage.Database
import SmartDesk.Storage.Migration

/-!
# The profile repository

`modules/profiles/repository.py`: the statements on the table `profiles`, with the
constraints of `_migrate_to_version_1`, and the callbacks that run them.

* `Row.check` — the constraints of the table.
* `insertRow`, `updateRows`, `deleteRows`, `selectById`, `selectAll` — the statements.
* `Call.operation` — what a worker thread does for a call.
-/

namespace SmartDesk.Profiles

open PyText Storage

/-! ## The table -/

structure Row where
  id : List Char
  name : List Char
  sittingHeightCm : Ieee
  standingHeightCm : Ieee
  ledColor : Option (List Char)
  deriving DecidableEq

/-- The rows in the order of their rowids. -/
abbrev Table : Type := List Row

/-- `BETWEEN 75 AND 115`. -/
def betweenHeights (height : Ieee) : Bool :=
  Ieee.leb (.finite 75) height && Ieee.leb height (.finite 115)

/-- The `CHECK` constraints. -/
def Row.check (row : Row) : Bool :=
  decide (0 < sqlLength (sqlTrim row.name)) && betweenHeights row.sittingHeightCm &&
    betweenHeights row.standingHeightCm && ledCheck row.ledColor

/-- What a statement raises: an `IntegrityError`, with whether it is that of the primary
key, another `sqlite3.Error`, or a `UnicodeEncodeError` of a parameter. -/
inductive SqlError where
  | integrity (primaryKey : Bool)
  | operational
  | unicodeEncode
  deriving DecidableEq

/-- A parameter that may be `NULL`. -/
def encodeNullable : Option PyStr → Option (Option (List Char))
  | none => some none
  | some text => (encode text).map some

/-- `INSERT INTO profiles`. -/
def insertRow (id : PyStr) (values : ProfileValues) (table : Table) : Except SqlError Table :=
  match encode id, encode values.name, encodeNullable values.ledColor with
  | some id, some name, some led =>
      let row : Row := ⟨id, name, values.sittingHeightCm, values.standingHeightCm, led⟩
      if !row.check then .error (.integrity false)
      else if table.any fun other => other.id == id then .error (.integrity true)
      else .ok (table ++ [row])
  | _, _, _ => .error .unicodeEncode

/-- A `column = ?` with its parameter. -/
inductive Assignment where
  | name (value : PyStr)
  | sittingHeightCm (value : Ieee)
  | standingHeightCm (value : Ieee)
  | ledColor (value : Option PyStr)

/-- The parameter is bound. -/
def Assignment.bind : Assignment → Option (Row → Row)
  | .name value => (encode value).map fun name row => { row with name := name }
  | .sittingHeightCm value => some fun row => { row with sittingHeightCm := value }
  | .standingHeightCm value => some fun row => { row with standingHeightCm := value }
  | .ledColor value => (encodeNullable value).map fun led row => { row with ledColor := led }

def bindAll : List Assignment → Option (Row → Row)
  | [] => some id
  | a :: rest => do
      let set ← a.bind
      let sets ← bindAll rest
      return fun row => sets (set row)

/-- `UPDATE profiles SET … WHERE id = ?`, with its row count. -/
def updateRows (assignments : List Assignment) (id : PyStr) (table : Table) :
    Except SqlError (Table × ℕ) :=
  if assignments.isEmpty then .error .operational
  else
    match bindAll assignments, encode id with
    | some set, some id =>
        if table.any fun row => row.id == id && !(set row).check then .error (.integrity false)
        else .ok (table.map fun row => if row.id = id then set row else row,
          table.countP fun row => row.id == id)
    | _, _ => .error .unicodeEncode

/-- `DELETE FROM profiles WHERE id = ?`, with its row count. -/
def deleteRows (id : PyStr) (table : Table) : Except SqlError (Table × ℕ) :=
  match encode id with
  | some id => .ok (table.filter (·.id != id), table.countP fun row => row.id == id)
  | none => .error .unicodeEncode

/-- `SELECT … WHERE id = ?`. -/
def selectById (id : PyStr) (table : Table) : Except SqlError (Option Row) :=
  match encode id with
  | some id => .ok (table.find? fun row => row.id == id)
  | none => .error .unicodeEncode

/-- The bytes of UTF-8. -/
def utf8 (text : List Char) : List ℕ := (text.flatMap String.utf8EncodeChar).map UInt8.toNat

/-- `UpperToLower` of SQLite, on a byte. -/
def foldCase (byte : ℕ) : ℕ := if 65 ≤ byte && byte ≤ 90 then byte + 32 else byte

/-- The bytes that differ first, up to a U+0000. -/
def compareNoCase : List ℕ → List ℕ → Ordering
  | a :: as, b :: bs =>
      if a ≠ 0 ∧ foldCase a = foldCase b then compareNoCase as bs
      else compare (foldCase a) (foldCase b)
  | _, _ => .eq

/-- `ORDER BY name COLLATE NOCASE, id`. -/
def Row.le (a b : Row) : Bool :=
  ((compareNoCase (utf8 a.name) (utf8 b.name)).then
    ((compare (utf8 a.name).length (utf8 b.name).length).then
      (compare (utf8 a.id) (utf8 b.id)))).isLE

/-- `SELECT … ORDER BY`. -/
def selectAll (table : Table) : List Row := table.mergeSort Row.le

/-! ## The callbacks -/

/-- What the callbacks raise that is no `sqlite3.Error`. -/
inductive ProfileError where
  | notFound
  | conflict
  | validation
  | unicodeEncode
  deriving DecidableEq

/-- What the calls return. -/
inductive Returned where
  | none
  | profile (profile : Profile)
  | profiles (profiles : List Profile)
  deriving DecidableEq

abbrev Outcome (V : Type) : Type := Except (Raised ProfileError) V

/-- None of the errors of a statement is one of corruption. -/
def SqlError.raised : SqlError → Raised ProfileError
  | .integrity _ => .sqlite false
  | .operational => .sqlite false
  | .unicodeEncode => .other .unicodeEncode

/-- The values of a row. -/
def Row.values (row : Row) : ProfileValues where
  name := decode row.name
  sittingHeightCm := row.sittingHeightCm
  standingHeightCm := row.standingHeightCm
  ledColor := row.ledColor.map decode

/-- `_profile_from_row`. -/
def profileFromRow (row : Row) : Outcome Profile :=
  match Profile.modelValidate (decode row.id) row.values with
  | some profile => .ok profile
  | none => .error (.other .validation)

/-- `_get_profile_or_raise`. -/
def getProfileOrRaise (id : PyStr) (table : Table) : Outcome Profile :=
  match selectById id table with
  | .error e => .error e.raised
  | .ok none => .error (.other .notFound)
  | .ok (some row) => profileFromRow row

/-- `insert`. -/
def insert (id : PyStr) (create : ProfileValues) : DatabaseOperation Table Returned ProfileError :=
  fun table =>
    match insertRow id create table with
    | .error (.integrity true) => (.error (.other .conflict), table)
    | .error e => (.error e.raised, table)
    | .ok table => ((getProfileOrRaise id table).map .profile, table)

/-- The assignments in the order of `PROFILE_UPDATE_COLUMNS`. -/
def ProfileChanges.assignments (changes : ProfileChanges) : List Assignment :=
  (changes.name.map Assignment.name).toList ++
    (changes.sittingHeightCm.map Assignment.sittingHeightCm).toList ++
    (changes.standingHeightCm.map Assignment.standingHeightCm).toList ++
    (changes.ledColor.map Assignment.ledColor).toList

/-- `update_row`. -/
def updateRow (id : PyStr) (changes : ProfileChanges) :
    DatabaseOperation Table Returned ProfileError :=
  fun table =>
    match updateRows changes.assignments id table with
    | .error e => (.error e.raised, table)
    | .ok (table, rowcount) =>
        if rowcount = 0 then (.error (.other .notFound), table)
        else ((getProfileOrRaise id table).map .profile, table)

/-- `delete_row`. -/
def deleteRow (id : PyStr) : DatabaseOperation Table Returned ProfileError :=
  fun table =>
    match deleteRows id table with
    | .error e => (.error e.raised, table)
    | .ok (table, rowcount) =>
        if rowcount = 0 then (.error (.other .notFound), table) else (.ok .none, table)

/-- `get_row`. -/
def getRow (id : PyStr) : DatabaseOperation Table Returned ProfileError :=
  fun table => ((getProfileOrRaise id table).map .profile, table)

/-- `list_rows`. -/
def listRows : DatabaseOperation Table Returned ProfileError :=
  fun table => (((selectAll table).mapM profileFromRow).map .profiles, table)

/-! ## The calls -/

/-- A call of the repository; the ID of a new profile is that of `_id_factory`. -/
inductive Call where
  | create (id : ProfileId) (fields : ProfileCreate)
  | update (id : PyStr) (fields : ProfileUpdate)
  | delete (id : PyStr)
  | get (id : PyStr)
  | list

/-- The callback of a call. -/
def Call.operation : Call → DatabaseOperation Table Returned ProfileError
  | .create id fields => insert id.id fields.values
  | .update id fields => updateRow id fields.changes
  | .delete id => deleteRow id
  | .get id => getRow id
  | .list => listRows

/-- The calls that write. -/
def Call.writes : Call → Bool
  | .create _ _ => true
  | .update _ _ => true
  | .delete _ => true
  | .get _ => false
  | .list => false

/-- The coroutine that a call awaits. -/
def Call.job (call : Call) : Job Table Returned ProfileError :=
  if call.writes then .write call.operation else .read call.operation

end SmartDesk.Profiles
