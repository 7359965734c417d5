import SmartDesk.Desk.Models
import SmartDesk.Lib.FlatJson
import SmartDesk.Lib.PyText
import SmartDesk.Mqtt.Client

/-!
# The relay status on the host

`RelayStatusMessage` of `modules/desk/messages.py`, and what the `RelayClient` of
`modules/desk/relay.py` keeps of it.  How `pydantic` reads JSON, and what it says of values of the
wrong kind, is a parameter.

* `RelayStatusMessage.validate` — the fields in their order, with the first error.
* `handleStatus`, `receiveAll` — the snapshot after a message, and after any number of them.
* `receiveAll_live` — **the snapshot is the last valid live message**; a retained one changes
  nothing, and an invalid one only the error.
-/

namespace SmartDesk.Wire

open SmartDesk.Desk SmartDesk.Mqtt PyText

/-! ## Validation -/

/-- A JSON value, as far as a status message asks. -/
inductive JsonInput where
  | null
  | string (text : List Char)
  | object (members : List (List Char × JsonInput))
  /-- A number, a boolean or an array. -/
  | other

/-- What is wrong with a payload or with a field. -/
inductive Problem where
  | json
  | noObject
  | missing
  | noMember (values : List String)
  | noString
  | emptyText
  | noFirmware
  deriving DecidableEq

/-- `ValidationError.errors()[0]` -/
structure ValidationError where
  location : Option String
  problem : Problem
  deriving DecidableEq

/-- The parts of `pydantic`. -/
structure Pydantic where
  readJson : List UInt8 → Option JsonInput
  message : Problem → String

/-- The `msg` of an error. -/
def Problem.text (py : Pydantic) : Problem → String
  | .emptyText => "Value error, ESP32 상태 문자열은 비어 있을 수 없습니다."
  | .noFirmware => "Value error, ESP32 live 상태에는 firmware가 필요합니다."
  | p => py.message p

/-- The members of `RelayEvent` with their values. -/
def relayEvents : List (String × RelayEvent) :=
  [("online", .online), ("heartbeat", .heartbeat), ("moving", .moving), ("stopped", .stopped),
    ("rejected", .rejected), ("offline", .offline)]

/-- The members of `RelayState` with their values. -/
def relayStates : List (String × RelayState) := [("UP", .up), ("DOWN", .down), ("STOP", .stop)]

/-- The last member of that name. -/
def field (name : String) (members : List (List Char × JsonInput)) : Option JsonInput :=
  (members.reverse.find? fun m => m.1 = name.toList).map Prod.snd

/-- A field that is an enumeration. -/
def enumField {α : Type} (values : List (String × α)) : Option JsonInput → Except Problem α
  | none => .error .missing
  | some (.string text) =>
      match values.find? fun v => v.1.toList = text with
      | some v => .ok v.2
      | none => .error (.noMember (values.map Prod.fst))
  | some _ => .error (.noMember (values.map Prod.fst))

/-- `normalize_optional_text(value)` -/
def normalizeOptionalText : Option (List Char) → Except Problem (Option String)
  | none => .ok none
  | some value =>
      let normalized := stripWhere isSpace value
      if normalized = [] then .error .emptyText else .ok (some (String.ofList normalized))

/-- A field of type `StrictStr | None`; its default is not validated. -/
def textField : Option JsonInput → Except Problem (Option String)
  | none => .ok none
  | some .null => normalizeOptionalText none
  | some (.string text) => normalizeOptionalText (some text)
  | some _ => .error .noString

structure RelayStatusMessage where
  event : RelayEvent
  state : RelayState
  firmware : Option String
  code : Option String
  detail : Option String
  deriving DecidableEq

namespace RelayStatusMessage

/-- A field, with its name in the error. -/
def checked {α : Type} (name : String) (check : Option JsonInput → Except Problem α)
    (members : List (List Char × JsonInput)) : Except ValidationError α :=
  match check (field name members) with
  | .ok a => .ok a
  | .error p => .error ⟨some name, p⟩

/-- `require_live_firmware` -/
def requireLiveFirmware (m : RelayStatusMessage) : Except ValidationError RelayStatusMessage :=
  if m.event ≠ .offline ∧ m.firmware = none then .error ⟨none, .noFirmware⟩ else .ok m

/-- The fields in their order. -/
def ofMembers (members : List (List Char × JsonInput)) :
    Except ValidationError RelayStatusMessage := do
  let event ← checked "event" (enumField relayEvents) members
  let state ← checked "state" (enumField relayStates) members
  let firmware ← checked "firmware" textField members
  let code ← checked "code" textField members
  let detail ← checked "detail" textField members
  requireLiveFirmware ⟨event, state, firmware, code, detail⟩

/-- `RelayStatusMessage.model_validate_json(payload)` -/
def validate (py : Pydantic) (payload : List UInt8) :
    Except ValidationError RelayStatusMessage :=
  match py.readJson payload with
  | none => .error ⟨none, .json⟩
  | some (.object members) => ofMembers members
  | some _ => .error ⟨none, .noObject⟩

end RelayStatusMessage

/-! ## The snapshot -/

namespace RelayClient

/-- `_summarize_validation_error(error)` -/
def summarizeValidationError (py : Pydantic) (error : ValidationError) : String :=
  match error.location with
  | some location => location ++ ": " ++ error.problem.text py
  | none => error.problem.text py

/-- `handle_status(message)` -/
def handleStatus (py : Pydantic) (snapshot : RelaySnapshot) (message : MqttMessage) :
    RelaySnapshot :=
  if message.retained then snapshot
  else
    match RelayStatusMessage.validate py message.payload with
    | .error error => { snapshot with lastError := some (summarizeValidationError py error) }
    | .ok status =>
        { event := some status.event, state := some status.state, firmware := status.firmware
          code := status.code, detail := status.detail, receivedAt := some message.receivedAt
          lastError := none }

/-- The snapshot of a new client. -/
def created : RelaySnapshot := ⟨none, none, none, none, none, none, none⟩

/-- The snapshot after any number of messages. -/
def receiveAll (py : Pydantic) (messages : List MqttMessage) : RelaySnapshot :=
  messages.foldl (handleStatus py) created

/-- The message is live and valid. -/
def Accepts (py : Pydantic) (message : MqttMessage) (status : RelayStatusMessage) : Prop :=
  message.retained = false ∧ RelayStatusMessage.validate py message.payload = .ok status

/-- The message is retained or invalid. -/
def Refuses (py : Pydantic) (message : MqttMessage) : Prop :=
  message.retained = true ∨ ∃ error, RelayStatusMessage.validate py message.payload = .error error

/-- The snapshot has the fields of a status. -/
structure Shows (snapshot : RelaySnapshot) (status : RelayStatusMessage) (receivedAt : Instant) :
    Prop where
  event : snapshot.event = some status.event
  state : snapshot.state = some status.state
  firmware : snapshot.firmware = status.firmware
  code : snapshot.code = status.code
  detail : snapshot.detail = status.detail
  receivedAt : snapshot.receivedAt = some receivedAt

section Messages

variable {py : Pydantic} {snapshot : RelaySnapshot} {message : MqttMessage}
  {status : RelayStatusMessage} {receivedAt : Instant}

theorem handleStatus_accepts (h : Accepts py message status) :
    Shows (handleStatus py snapshot message) status message.receivedAt ∧
      (handleStatus py snapshot message).lastError = none := by
  obtain ⟨hlive, hvalid⟩ := h
  unfold handleStatus
  rw [hlive, hvalid]
  exact ⟨⟨rfl, rfl, rfl, rfl, rfl, rfl⟩, rfl⟩

/-- What is refused leaves the status as it is. -/
theorem handleStatus_refuses (h : Refuses py message) (hshows : Shows snapshot status receivedAt) :
    Shows (handleStatus py snapshot message) status receivedAt ∧
      ((handleStatus py snapshot message).lastError = none ↔
        snapshot.lastError = none ∧ message.retained = true) := by
  unfold handleStatus
  split
  · next hretained => exact ⟨hshows, fun h => ⟨h, hretained⟩, fun h => h.1⟩
  · next hlive =>
    obtain ⟨error, herror⟩ := h.resolve_left hlive
    rw [herror]
    refine ⟨⟨hshows.event, hshows.state, hshows.firmware, hshows.code, hshows.detail,
      hshows.receivedAt⟩, (fun h => by cases h), fun h => absurd h.2 hlive⟩

theorem shows_of_refused {messages : List MqttMessage} (hall : ∀ m ∈ messages, Refuses py m)
    (hshows : Shows snapshot status receivedAt) :
    Shows (messages.foldl (handleStatus py) snapshot) status receivedAt ∧
      ((messages.foldl (handleStatus py) snapshot).lastError = none ↔
        snapshot.lastError = none ∧ ∀ m ∈ messages, m.retained = true) := by
  induction messages generalizing snapshot with
  | nil => simp [hshows]
  | cons m messages ih =>
    obtain ⟨hm, hrest⟩ := List.forall_mem_cons.mp hall
    obtain ⟨hnext, herror⟩ := handleStatus_refuses hm hshows
    obtain ⟨hlast, herrors⟩ := ih hrest hnext
    refine ⟨hlast, ?_⟩
    rw [List.foldl_cons, herrors, herror, List.forall_mem_cons, and_assoc]

/-- **The snapshot is the last valid live message**, whatever came before it. -/
theorem receiveAll_live {before after : List MqttMessage} (h : Accepts py message status)
    (hafter : ∀ m ∈ after, Refuses py m) :
    Shows (receiveAll py (before ++ message :: after)) status message.receivedAt ∧
      ((receiveAll py (before ++ message :: after)).lastError = none ↔
        ∀ m ∈ after, m.retained = true) := by
  obtain ⟨hshows, herror⟩ : Shows (handleStatus py (receiveAll py before) message) status
      message.receivedAt ∧ (handleStatus py (receiveAll py before) message).lastError = none :=
    handleStatus_accepts h
  obtain ⟨hlast, herrors⟩ := shows_of_refused hafter hshows
  unfold receiveAll at *
  rw [List.foldl_append, List.foldl_cons]
  exact ⟨hlast, herrors.trans (and_iff_right herror)⟩

end Messages

end RelayClient

end SmartDesk.Wire
