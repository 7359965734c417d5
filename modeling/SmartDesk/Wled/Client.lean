import SmartDesk.Lib.Effect
import SmartDesk.Wled.Models

/-!
# WLED client

`modules/wled/client.py`: the operations of a client, each a computation on the client and the
device that it asks.  The request lock serialises them, so they follow one another.

* `World` — the client, what the device is going to answer, and what it was asked so far.
* `snapshotFromState` — how a state response is classified.
* `verifyResponse` — what a command response has to say before an operation succeeds.
* `refreshState`, …, `setEffect` — the operations.
-/

namespace SmartDesk.Wled

open Effect Effect.Eff PyText

/-! ## Errors -/

/-- What an operation raises. -/
inductive Exc where
  | notStarted
  | unavailable (text : String)
  | protocol (text : String)
  | unsupported (text : String)
  /-- `KeyError` -/
  | keyError (name : String)
  /-- `RecursionError` of the JSON decoder. -/
  | recursionError
  deriving DecidableEq

/-- `isinstance(error, WledError)` -/
def Exc.isWled : Exc → Bool
  | .keyError _ => false
  | .recursionError => false
  | _ => true

/-- `str(error)` -/
def Exc.text : Exc → String
  | .notStarted => "WLED client가 시작되지 않았습니다."
  | .unavailable text => text
  | .protocol text => text
  | .unsupported text => text
  | .keyError name => "'" ++ name ++ "'"
  | .recursionError => "maximum recursion depth exceeded"

/-! ## Requests and responses -/

/-- What `response.json()` does. -/
inductive Body where
  | json (value : Json)
  /-- The text is not JSON, not in its encoding, or has too long a number. -/
  | valueError
  /-- The text nests deeper than the decoder follows. -/
  | recursionError

inductive HttpOutcome where
  /-- An `httpx.HTTPError`. -/
  | httpError
  | response (status : ℕ) (body : Body)

/-- The values that a command asks of each segment. -/
structure Wanted where
  fx : ℤ
  pal : ℤ
  sx : Option ℤ
  ix : Option ℤ
  col : Option (List ℤ)
  deriving DecidableEq

/-- The body of a `POST /json/state`; each has `"v": True` as well. -/
inductive Payload where
  | power (on : Bool)
  | brightness (value : ℤ)
  | segments (ids : List ℤ) (wanted : Wanted)
  deriving DecidableEq

inductive Request where
  /-- `GET /json` -/
  | getAll
  /-- `GET /json/state` -/
  | getState
  | postState (payload : Payload)
  deriving DecidableEq

structure Exchange where
  request : Request
  outcome : HttpOutcome

/-- `_response_object(response)` -/
def responseObject (status : ℕ) (body : Body) : Except Exc JsonObject :=
  if 500 ≤ status then .error (.unavailable "WLED 장치를 현재 사용할 수 없습니다.")
  else if ¬ (200 ≤ status ∧ status ≤ 299) then
    .error (.protocol "WLED가 올바르지 않은 응답을 반환했습니다.")
  else
    match body with
    | .valueError => .error (.protocol "WLED 응답이 JSON이 아닙니다.")
    | .recursionError => .error .recursionError
    | .json (.dict members) => .ok members
    | .json _ => .error (.protocol "WLED 응답 형식이 올바르지 않습니다.")

/-- What `_get_json` and `_post_state` return or raise after the request. -/
def HttpOutcome.object : HttpOutcome → Except Exc JsonObject
  | .httpError => .error (.unavailable "WLED 장치에 연결할 수 없습니다.")
  | .response status body => responseObject status body

/-! ## Reading a state -/

structure Segment where
  id : ℤ
  object : JsonObject

/-- `isinstance(item.get("start"), int) and … or isinstance(item.get("len"), int) and …` -/
def hasExtent (item : JsonObject) : Bool :=
  match (item.get "start").bind Json.int?, (item.get "stop").bind Json.int?,
    (item.get "len").bind Json.int? with
  | some start, some stop, some len => decide (start < stop) || decide (0 < len)
  | some start, some stop, none => decide (start < stop)
  | _, _, some len => decide (0 < len)
  | _, _, none => false

def validSegment? (item : Json) : Option Segment := do
  let object ← item.dict?
  let id ← (object.get "id").bind Json.int?
  if 0 ≤ id ∧ hasExtent object then some ⟨id, object⟩ else none

/-- `_valid_segments(state)` -/
def validSegments (state : JsonObject) : Except Exc (List Segment) :=
  match (state.get "seg").bind Json.list? with
  | none => .error (.protocol "WLED segment 목록이 올바르지 않습니다.")
  | some items =>
      let valid := items.filterMap validSegment?
      if valid.isEmpty then .error (.protocol "WLED에 유효한 segment가 없습니다.") else .ok valid

/-- `_hex(rgb)` -/
def hex (value : Json) : Option PyStr := value.list?.bind fun items => hexText (items.map Json.int?)

/-- `_segment_color(segment)` -/
def segmentColor (segment : JsonObject) : Option PyStr :=
  ((segment.get "col").bind Json.list?).bind fun colors => colors.head?.bind hex

structure SegmentValues where
  fx : ℤ
  pal : ℤ
  sx : Option ℤ
  ix : Option ℤ
  color : Option PyStr
  deriving DecidableEq

/-- `value is not None and not isinstance(value, int)` -/
def notInt (value : Option Json) : Bool := value.isSome && (value.bind Json.int?).isNone

/-- `_segment_values(segment)` -/
def segmentValues (segment : JsonObject) : Except Exc SegmentValues :=
  match (segment.get "fx").bind Json.int?, (segment.get "pal").bind Json.int? with
  | some fx, some pal =>
      if notInt (segment.get "sx") || notInt (segment.get "ix") then
        .error (.protocol "WLED effect 설정이 올바르지 않습니다.")
      else
        .ok ⟨fx, pal, (segment.get "sx").bind Json.int?, (segment.get "ix").bind Json.int?,
          segmentColor segment⟩
  | _, _ => .error (.protocol "WLED segment 설정이 올바르지 않습니다.")

/-- `value[:4]` -/
def SegmentValues.effect (v : SegmentValues) : ℤ × ℤ × Option ℤ × Option ℤ :=
  (v.fx, v.pal, v.sx, v.ix)

/-- What a snapshot says about segments that are on; `first` is `values[0]`. -/
def classify (capabilities : Option WledCapabilities) (now : Instant) (brightness : ℤ)
    (first : SegmentValues) (rest : List SegmentValues) : Observed :=
  let sameColor := rest.all fun v => v.color = first.color
  if (first :: rest).all (fun v => v.fx = 0) && sameColor then
    ⟨some true, some brightness, some .solid, first.color, some 0, some (key "Solid"),
      some first.pal, first.sx, first.ix, some now⟩
  else if rest.all (fun v => v.effect = first.effect) && first.fx ≠ 0 then
    let effects := (capabilities.map WledCapabilities.effects).getD []
    ⟨some true, some brightness, some .effect, if sameColor then first.color else none,
      some first.fx, (effects.find? fun item => item.id = first.fx).map WledCatalogItem.name,
      some first.pal, first.sx, first.ix, some now⟩
  else
    ⟨some true, some brightness, some .mixed, none, none, none, none, none, none, some now⟩

def Observed.online (observed : Observed) : WledSnapshot := ⟨observed, .online, none⟩

/-- What a snapshot says about the values of segments that are on. -/
def summary (capabilities : Option WledCapabilities) (now : Instant) (brightness : ℤ) :
    List SegmentValues → Except Exc WledSnapshot
  | [] => .error (.protocol "WLED에 유효한 segment가 없습니다.")
  | first :: rest => .ok (classify capabilities now brightness first rest).online

/-- `_snapshot_from_state(state)` -/
def snapshotFromState (capabilities : Option WledCapabilities) (now : Instant)
    (state : JsonObject) : Except Exc WledSnapshot :=
  match (state.get "on").bind Json.bool?, (state.get "bri").bind Json.int? with
  | none, _ => .error (.protocol "WLED 전원 상태가 올바르지 않습니다.")
  | some _, none => .error (.protocol "WLED 밝기 상태가 올바르지 않습니다.")
  | some on, some brightness =>
      if ¬ (0 ≤ brightness ∧ brightness ≤ 255) then
        .error (.protocol "WLED 밝기 상태가 올바르지 않습니다.")
      else do
        let segments ← validSegments state
        if on then
          (segments.mapM fun segment => segmentValues segment.object) >>=
            summary capabilities now brightness
        else
          pure (Observed.online ⟨some false, some brightness, some .off, none, none, none, none,
            none, none, some now⟩)

/-- One segment of a response against the values that were asked for. -/
def matchesWanted (wanted : Wanted) (actual : SegmentValues) : Bool :=
  actual.fx = wanted.fx && actual.pal = wanted.pal &&
    (wanted.sx.isNone || actual.sx = wanted.sx) && (wanted.ix.isNone || actual.ix = wanted.ix) &&
    (wanted.col.isNone || actual.color = wanted.col.bind fun col => hexText (col.map some))

/-- `found.get(item_id)`: the last segment with the id. -/
def foundSegment (segments : List Segment) (id : ℤ) : Option Segment :=
  segments.reverse.find? fun segment => segment.id = id

def verifySegment (segments : List Segment) (wanted : Wanted) (id : ℤ) : Except Exc Unit :=
  match foundSegment segments id with
  | none => .error (.protocol "WLED 응답에 적용한 segment가 없습니다.")
  | some segment => do
      let actual ← segmentValues segment.object
      if matchesWanted wanted actual then pure ()
      else throw (.protocol "WLED가 요청한 설정을 확인하지 못했습니다.")

/-- `_verify_response(response, expected)`; `expected` has the same values for each id. -/
def verifyResponse (response : JsonObject) (ids : List ℤ) (wanted : Wanted) : Except Exc Unit :=
  if (response.get "on").bind Json.bool? ≠ some true then
    .error (.protocol "WLED가 조명을 켜지 못했습니다.")
  else do
    let segments ← validSegments response
    ids.forM (verifySegment segments wanted)

/-- `enumerate(values)` with the items that are texts `keep` says, without the blanks at their
ends. -/
def catalog (keep : PyStr → Bool) (values : List Json) : List WledCatalogItem :=
  values.zipIdx.filterMap fun (value, index) =>
    (value.str?.map strip).bind fun name =>
      if !name.isEmpty && keep name then some ⟨index, name⟩ else none

/-- `_parse_capabilities(data)` -/
def parseCapabilities (now : Instant) (data : JsonObject) : Except Exc WledCapabilities :=
  match (data.get "state").bind Json.dict?, (data.get "info").bind Json.dict?,
    (data.get "effects").bind Json.list?, (data.get "palettes").bind Json.list? with
  | some _, some info, some effects, some palettes =>
      match (info.get "name").bind Json.str?, (info.get "ver").bind Json.str? with
      | some name, some version =>
          .ok ⟨name, version,
            catalog (fun name => name ≠ key "RSVD" && name ≠ key "-") effects,
            catalog (fun _ => true) palettes, now⟩
      | _, _ => .error (.protocol "WLED 장치 정보가 올바르지 않습니다.")
  | _, _, _, _ => .error (.protocol "WLED capabilities 응답 형식이 올바르지 않습니다.")

/-- `_normalize_color(color)` -/
def normalizeColor (color : PyStr) : Except Exc PyStr :=
  match normalizeColor? color with
  | some normalized => .ok normalized
  | none => .error (.protocol "색상 형식이 올바르지 않습니다.")

/-! ## The client -/

/-- A client and its surroundings. -/
structure World where
  /-- `self._client is not None` -/
  started : Bool
  snapshot : WledSnapshot
  capabilities : Option WledCapabilities
  /-- What comes of the requests, in their order. -/
  device : ℕ → HttpOutcome
  /-- The clock after so many requests. -/
  now : ℕ → Instant
  /-- The requests so far. -/
  asked : List Exchange

abbrev Op (α : Type) : Type := Eff Exc World α

def World.clock (w : World) : Instant := w.now w.asked.length

/-- A client after `start()`. -/
def World.fresh (device : ℕ → HttpOutcome) (now : ℕ → Instant) : World where
  started := true
  snapshot := ⟨Observed.empty, .unknown, none⟩
  capabilities := none
  device := device
  now := now
  asked := []

def World.setSnapshot (snapshot : WledSnapshot) (w : World) : World :=
  { w with snapshot := snapshot }

def World.setCapabilities (capabilities : WledCapabilities) (w : World) : World :=
  { w with capabilities := some capabilities }

/-- The device is asked, and answers. -/
def World.exchange (request : Request) (w : World) : World :=
  { w with asked := w.asked ++ [⟨request, w.device w.asked.length⟩] }

/-- `_require_client()` -/
def requireClient : Op Unit := do
  let w ← get
  if w.started then pure () else raise .notStarted

/-- `_get_json(path)` and `_post_state(payload)`: the response to a request, as an object. -/
def fetch (request : Request) : Op JsonObject := do
  requireClient
  let w ← get
  modify (World.exchange request)
  lift (w.device w.asked.length).object

theorem fetch_eq (request : Request) (w : World) :
    fetch request w =
      if w.started then ((w.device w.asked.length).object, w.exchange request)
      else (.error .notStarted, w) := by
  obtain ⟨started, _⟩ := w
  cases started <;> rfl

/-- `_record_failure(error)` -/
def World.recordFailure (error : Exc) (w : World) : World :=
  w.setSnapshot ⟨w.snapshot.toObserved, .error, some error.text⟩

/-- What a handler of `WledError`s does with an error. -/
def record (error : Exc) : Op Unit :=
  if error.isWled then modify (World.recordFailure error) else pure ()

/-- `except WledError as error: self._record_failure(error); raise` -/
def recording {α : Type} (body : Op α) : Op α :=
  attempt body fun error => do
    record error
    raise error

/-- `_snapshot_from_state(response)` with the client's capabilities and the clock. -/
def readSnapshot (response : JsonObject) : Op WledSnapshot := do
  let w ← get
  lift (snapshotFromState w.capabilities w.clock response)

/-- `self._snapshot = self._snapshot_from_state(response)` -/
def showResponse (response : JsonObject) : Op WledSnapshot := do
  let snapshot ← readSnapshot response
  modify (World.setSnapshot snapshot)
  pure snapshot

/-! ## The operations -/

def readCapabilities : Op WledCapabilities := do
  let payload ← fetch .getAll
  let w ← get
  lift (parseCapabilities w.clock payload)

/-- `refresh_capabilities()` -/
def refreshCapabilities : Op WledCapabilities := do
  let capabilities ← recording readCapabilities
  modify (World.setCapabilities capabilities)
  pure capabilities

/-- `refresh_state()` -/
def refreshState : Op WledSnapshot := do
  let snapshot ← recording (do readSnapshot (← fetch .getState))
  modify (World.setSnapshot snapshot)
  pure snapshot

/-- `if not confirmed: raise WledProtocolError(text)` -/
def confirm (confirmed : Bool) (text : String) : Except Exc Unit :=
  if confirmed then .ok () else .error (.protocol text)

/-- A command without segments, and the check of its response. -/
def command (payload : Payload) (confirmed : JsonObject → Bool) (text : String) :
    Op WledSnapshot :=
  recording do
    let response ← fetch (.postState payload)
    lift (confirm (confirmed response) text)
    showResponse response

/-- `turn_off()` -/
def turnOff : Op WledSnapshot :=
  command (.power false) (fun response => (response.get "on").bind Json.bool? = some false)
    "WLED가 전원 끄기를 확인하지 못했습니다."

/-- `turn_on()` -/
def turnOn : Op WledSnapshot :=
  command (.power true) (fun response => (response.get "on").bind Json.bool? = some true)
    "WLED가 전원 켜기를 확인하지 못했습니다."

/-- `set_brightness(brightness)` -/
def setBrightness (brightness : ℤ) : Op WledSnapshot :=
  if ¬ (0 ≤ brightness ∧ brightness ≤ 255) then
    raise (.protocol "밝기는 0에서 255 사이의 정수여야 합니다.")
  else
    command (.brightness brightness)
      (fun response => (response.get "bri").any (Json.equals brightness))
      "WLED가 요청한 밝기를 확인하지 못했습니다."

/-- `state[name]` -/
def member (state : JsonObject) (name : String) : Except Exc Json :=
  match state.lookup (key name) with
  | none => .error (.keyError name)
  | some value => .ok value

/-- `if on is False: await self._post_state(…)` -/
def powerUp : Json → Op Unit
  | .bool false => do
      let _ ← fetch (.postState (.power true))
      pure ()
  | _ => pure ()

/-- The segments of the state, with the power turned on: what `set_solid` and `set_effect` do
between `state = await self._get_json("/json/state")` and their command. -/
def lightSegments : Op (List Segment) := do
  let state ← fetch .getState
  let segments ← lift (validSegments state)
  let on ← lift (member state "on")
  powerUp on
  pure segments

/-- The command to the segments, and its verification. -/
def commandSegments (segments : List Segment) (wanted : Wanted) : Op WledSnapshot := do
  let ids := (segments.map Segment.id).eraseDups
  let response ← fetch (.postState (.segments ids wanted))
  lift (verifyResponse response ids wanted)
  showResponse response

/-- `{"fx": 0, "pal": 0, "col": rgb}` -/
def Wanted.solid (normalized : PyStr) : Wanted := ⟨0, 0, none, none, some (rgb normalized)⟩

/-- `set_solid(color)` -/
def setSolid (color : PyStr) : Op WledSnapshot := do
  let normalized ← lift (normalizeColor color)
  recording do
    let segments ← lightSegments
    commandSegments segments (.solid normalized)

structure EffectArguments where
  effectId : ℤ
  paletteId : ℤ
  speed : ℤ
  intensity : ℤ
  color : Option PyStr

def supports (capabilities : WledCapabilities) (effectId paletteId : ℤ) : Bool :=
  capabilities.effects.any (fun item => item.id = effectId) &&
    capabilities.palettes.any fun item => item.id = paletteId

/-- `self._capabilities or self._parse_capabilities(await self._get_json("/json"))` -/
def knownCapabilities : Op WledCapabilities := do
  let w ← get
  match w.capabilities with
  | some capabilities => pure capabilities
  | none => readCapabilities

/-- `_validate_effect(effect_id, palette_id)` -/
def validateEffect (effectId paletteId : ℤ) : Op Unit := do
  let capabilities ← knownCapabilities
  modify (World.setCapabilities capabilities)
  if supports capabilities effectId paletteId then pure ()
  else do
    let capabilities ← readCapabilities
    modify (World.setCapabilities capabilities)
    if supports capabilities effectId paletteId then pure ()
    else raise (.unsupported "WLED가 요청한 effect 또는 palette를 지원하지 않습니다.")

/-- `self._normalize_color(color) if color is not None else None` -/
def normalizeOptional : Option PyStr → Except Exc (Option PyStr)
  | none => .ok none
  | some color => (normalizeColor color).map some

def Wanted.effect (args : EffectArguments) (normalized : Option PyStr) : Wanted :=
  ⟨args.effectId, args.paletteId, some args.speed, some args.intensity, normalized.map rgb⟩

/-- `set_effect(effect_id, palette_id, speed, intensity, color)` -/
def setEffect (args : EffectArguments) : Op WledSnapshot :=
  recording do
    validateEffect args.effectId args.paletteId
    let segments ← lightSegments
    let normalized ← lift (normalizeOptional args.color)
    commandSegments segments (.effect args normalized)

end SmartDesk.Wled
