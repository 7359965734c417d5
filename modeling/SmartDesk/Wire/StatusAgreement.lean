import SmartDesk.Firmware.Statuses
import SmartDesk.Wire.RelayStatus

/-!
# The two sides of a status message

The firmware writes its messages with `ArduinoJson`, the broker keeps another one for the case that
the firmware vanishes, and the host reads both with `pydantic`.

* `Serializes`, `ReadsFlat` — what the two JSON libraries are documented to do with flat objects.
* `carries_of_announced` — each message of the firmware is valid, with the fields it was given.
* `relay_agreement` — **the snapshot of the host is the last message that arrived live**, and
  `stopped` and `rejected` are only shown with a relay that is off.
-/

namespace SmartDesk.Wire

open SmartDesk.Desk SmartDesk.Firmware SmartDesk.Mqtt PyText

variable {P : Platform} {py : Pydantic}

/-! ## JSON libraries -/

/-- The bytes of a text in UTF-8. -/
def utf8Bytes (text : List Char) : Bytes := text.flatMap String.utf8EncodeChar

/-- The members of a status message. -/
def statusObject (s : Status) : FlatJson.Object :=
  [("event".toList, .string s.event.toList), ("state".toList, .string s.state.toList),
    ("firmware".toList, .string s.firmware.toList), ("code".toList, .string s.code.toList),
    ("detail".toList, .string s.detail.toList)]

/-- Texts that need no escapes are written as they are, without any space between them. -/
def Serializes (P : Platform) : Prop :=
  ∀ s, FlatJson.Plain (statusObject s) →
    P.serializeJson s = utf8Bytes (FlatJson.render (statusObject s))

/-- A value of a flat object. -/
def inputOf : FlatJson.Value → JsonInput
  | .string text => .string text
  | _ => .other

/-- A flat object whose keys differ is read as its members. -/
def ReadsFlat (py : Pydantic) : Prop :=
  ∀ o : FlatJson.Object, FlatJson.Plain o → (o.map Prod.fst).Nodup →
    py.readJson (utf8Bytes (FlatJson.render o)) =
      some (.object (o.map fun m => (m.1, inputOf m.2)))

/-- The message that `connectMqtt` leaves with the broker. -/
def willText : String :=
  "\x7b\"event\":\"offline\",\"state\":\"STOP\"," ++
  "\"firmware\":\"smartdesk-fin-relay-1.0.0\"," ++
  "\"code\":\"mqtt_disconnected\"," ++
  "\"detail\":\"ESP32 MQTT 연결이 끊겼습니다.\"\x7d"

/-- What it says. -/
def will : Status :=
  { event := "offline", state := "STOP", firmware := firmwareVersion, code := "mqtt_disconnected"
    detail := "ESP32 MQTT 연결이 끊겼습니다." }

/-- The text that is written out in the source is the one that the library would write. -/
theorem willText_eq : willText.toList = FlatJson.render (statusObject will) := by decide +kernel

/-! ## Reading a message -/

/-- The fields of a message are those of a status. -/
structure Carries (m : RelayStatusMessage) (s : Status) : Prop where
  event : (s.event, m.event) ∈ relayEvents
  state : (s.state, m.state) ∈ relayStates
  firmware : m.firmware = some s.firmware
  code : m.code = some s.code
  detail : m.detail = some s.detail

/-- A tidy text is read as it is. -/
theorem textField_tidy {text : String} (h : Tidy text) :
    textField (some (.string text.toList)) = .ok (some text) := by
  unfold textField normalizeOptionalText
  dsimp only
  rw [h.strip, if_neg h.nonempty, String.ofList_toList]

theorem enumField_relayEvents {v : String × RelayEvent} (h : v ∈ relayEvents) :
    enumField relayEvents (some (.string v.1.toList)) = .ok v.2 := by
  simp only [relayEvents, List.mem_cons, List.not_mem_nil, or_false] at h
  rcases h with rfl | rfl | rfl | rfl | rfl | rfl <;> rfl

theorem enumField_relayStates {v : String × RelayState} (h : v ∈ relayStates) :
    enumField relayStates (some (.string v.1.toList)) = .ok v.2 := by
  simp only [relayStates, List.mem_cons, List.not_mem_nil, or_false] at h
  rcases h with rfl | rfl | rfl <;> rfl

/-- **A message with valid texts is valid**, with the fields it was given. -/
theorem ofMembers_status {s : Status} {event : RelayEvent} {state : RelayState}
    (hevent : (s.event, event) ∈ relayEvents) (hstate : (s.state, state) ∈ relayStates)
    (hfirmware : Tidy s.firmware) (hcode : Tidy s.code) (hdetail : Tidy s.detail) :
    RelayStatusMessage.ofMembers ((statusObject s).map fun m => (m.1, inputOf m.2)) =
      .ok ⟨event, state, some s.firmware, some s.code, some s.detail⟩ := by
  have hmembers : (statusObject s).map (fun m => (m.1, inputOf m.2)) =
      [("event".toList, .string s.event.toList), ("state".toList, .string s.state.toList),
        ("firmware".toList, .string s.firmware.toList), ("code".toList, .string s.code.toList),
        ("detail".toList, .string s.detail.toList)] := rfl
  have hread {α : Type} {name : String} {text : String} {check : Option JsonInput →
      Except Problem α} {a : α} {members : List (List Char × JsonInput)}
      (hfield : field name members = some (.string text.toList))
      (h : check (some (.string text.toList)) = .ok a) :
      RelayStatusMessage.checked name check members = .ok a := by
    unfold RelayStatusMessage.checked
    rw [hfield, h]
  rw [hmembers]
  unfold RelayStatusMessage.ofMembers
  rw [hread rfl (enumField_relayEvents hevent), hread rfl (enumField_relayStates hstate),
    hread rfl (textField_tidy hfirmware), hread rfl (textField_tidy hcode),
    hread rfl (textField_tidy hdetail)]
  exact if_neg fun h => by cases h.2

/-! ## Messages of the firmware -/

/-- The bytes with which a message of the firmware, or the one that it leaves with the broker,
arrives. -/
def Emitted (env : ℕ → Reading P) (s : Status) (payload : Bytes) : Prop :=
  (∃ n, s ∈ (World.afterLoops n (World.setup env)).statuses ∧ payload = P.serializeJson s) ∨
    (s = will ∧ payload = utf8Bytes willText.toList)

/-- The event of a message is one that the host knows. -/
theorem exists_event {s : Status} (h : s.event ∈ liveEvents) :
    ∃ event, (s.event, event) ∈ relayEvents ∧ event ≠ .offline := by
  simp only [liveEvents, List.mem_cons, List.not_mem_nil, or_false] at h
  rcases h with h | h | h | h | h <;> rw [h]
  · exact ⟨.online, by decide, by decide⟩
  · exact ⟨.heartbeat, by decide, by decide⟩
  · exact ⟨.moving, by decide, by decide⟩
  · exact ⟨.stopped, by decide, by decide⟩
  · exact ⟨.rejected, by decide, by decide⟩

theorem exists_state {s : Status} (h : ∃ d : RelayDirection, s.state = d.name) :
    ∃ state, (s.state, state) ∈ relayStates := by
  obtain ⟨d, hd⟩ := h
  rw [hd]
  cases d with
  | stop => exact ⟨.stop, by decide⟩
  | up => exact ⟨.up, by decide⟩
  | down => exact ⟨.down, by decide⟩

theorem halting_of_event {v : String × RelayEvent} (h : v ∈ relayEvents)
    (hhalting : v.2 = .stopped ∨ v.2 = .rejected) : Halting v.1 := by
  simp only [relayEvents, List.mem_cons, List.not_mem_nil, or_false] at h
  rcases h with rfl | rfl | rfl | rfl | rfl | rfl
  · exact absurd hhalting (by decide)
  · exact absurd hhalting (by decide)
  · exact absurd hhalting (by decide)
  · exact .inl rfl
  · exact .inr rfl
  · exact absurd hhalting (by decide)

theorem state_of_stop {v : String × RelayState} (h : v ∈ relayStates) (hstop : v.1 = "STOP") :
    v.2 = .stop := by
  simp only [relayStates, List.mem_cons, List.not_mem_nil, or_false] at h
  rcases h with rfl | rfl | rfl
  · exact absurd hstop (by decide)
  · exact absurd hstop (by decide)
  · rfl

theorem tidy_firmware : Tidy firmwareVersion := tidy_iff.mp (by decide)

/-- Both enumerations are written without escapes. -/
theorem plain_event {v : String × RelayEvent} (h : v ∈ relayEvents) :
    FlatJson.PlainString v.1.toList := by
  simp only [relayEvents, List.mem_cons, List.not_mem_nil, or_false] at h
  rcases h with rfl | rfl | rfl | rfl | rfl | rfl <;> decide

theorem plain_state {v : String × RelayState} (h : v ∈ relayStates) :
    FlatJson.PlainString v.1.toList := by
  simp only [relayStates, List.mem_cons, List.not_mem_nil, or_false] at h
  rcases h with rfl | rfl | rfl <;> decide

theorem plain_status {s : Status} {event : RelayEvent} {state : RelayState}
    (hevent : (s.event, event) ∈ relayEvents) (hstate : (s.state, state) ∈ relayStates)
    (hfirmware : Tidy s.firmware) (hcode : Tidy s.code) (hdetail : Tidy s.detail) :
    FlatJson.Plain (statusObject s) := by
  simp only [FlatJson.Plain, statusObject, List.forall_mem_cons]
  exact ⟨⟨by decide, plain_event hevent⟩, ⟨by decide, plain_state hstate⟩,
    ⟨by decide, hfirmware.plain⟩, ⟨by decide, hcode.plain⟩, ⟨by decide, hdetail.plain⟩, nofun⟩

theorem nodup_status (s : Status) : ((statusObject s).map Prod.fst).Nodup := by
  show ["event".toList, "state".toList, "firmware".toList, "code".toList, "detail".toList].Nodup
  decide

/-- What the host reads of a message. -/
structure ReadAs (py : Pydantic) (s : Status) (payload : Bytes) (m : RelayStatusMessage) :
    Prop extends Carries m s where
  valid : RelayStatusMessage.validate py payload = .ok m
  halting : m.event = .stopped ∨ m.event = .rejected → m.state = .stop

/-- Texts that the library writes are read back. -/
theorem validate_render (hpy : ReadsFlat py) {s : Status} {event : RelayEvent} {state : RelayState}
    (hevent : (s.event, event) ∈ relayEvents) (hstate : (s.state, state) ∈ relayStates)
    (hfirmware : Tidy s.firmware) (hcode : Tidy s.code) (hdetail : Tidy s.detail) :
    RelayStatusMessage.validate py (utf8Bytes (FlatJson.render (statusObject s))) =
      .ok ⟨event, state, some s.firmware, some s.code, some s.detail⟩ := by
  have hplain := plain_status hevent hstate hfirmware hcode hdetail
  unfold RelayStatusMessage.validate
  rw [hpy (statusObject s) hplain (nodup_status s)]
  exact ofMembers_status hevent hstate hfirmware hcode hdetail

/-- **Each message of the firmware is understood.** -/
theorem readAs_of_announced (hP : Serializes P) (hpy : ReadsFlat py) {s : Status}
    (h : Announced s) :
    ∃ m, ReadAs py s (P.serializeJson s) m ∧ m.event ≠ .offline := by
  obtain ⟨event, hevent, hlive⟩ := exists_event h.event
  obtain ⟨state, hstate⟩ := exists_state h.state
  have hfirmware : Tidy s.firmware := h.firmware ▸ tidy_firmware
  refine ⟨⟨event, state, some s.firmware, some s.code, some s.detail⟩,
    ⟨⟨hevent, hstate, rfl, rfl, rfl⟩, ?_, ?_⟩, hlive⟩
  · rw [hP s (plain_status hevent hstate hfirmware h.code h.detail)]
    exact validate_render hpy hevent hstate hfirmware h.code h.detail
  · intro hhalting
    exact state_of_stop hstate (h.halting (halting_of_event hevent hhalting))

/-- So is the one that it leaves with the broker. -/
theorem readAs_will (hpy : ReadsFlat py) :
    ∃ m, ReadAs py will (utf8Bytes willText.toList) m ∧ m.event = .offline := by
  have hevent : (will.event, RelayEvent.offline) ∈ relayEvents := by decide
  have hstate : (will.state, RelayState.stop) ∈ relayStates := by decide
  refine ⟨⟨.offline, .stop, some will.firmware, some will.code, some will.detail⟩,
    ⟨⟨hevent, hstate, rfl, rfl, rfl⟩, ?_, fun _ => rfl⟩, rfl⟩
  rw [willText_eq]
  exact validate_render hpy hevent hstate tidy_firmware (tidy_iff.mp (by decide))
    (tidy_iff.mp (by decide))

/-- **The host shows the last message of the firmware that arrived live**, as it was sent, whatever
came before it and whatever retained or unreadable messages followed; a relay that it shows as
stopped was off. -/
theorem relay_agreement (hP : Serializes P) (hpy : ReadsFlat py) {env : ℕ → Reading P} {s : Status}
    {message : MqttMessage} {before after : List MqttMessage}
    (hs : Emitted env s message.payload) (hlive : message.retained = false)
    (hafter : ∀ m ∈ after, RelayClient.Refuses py m) :
    ∃ m, Carries m s ∧ (m.event = .offline ↔ s = will) ∧
      (m.event = .stopped ∨ m.event = .rejected → m.state = .stop) ∧
      RelayClient.Shows (RelayClient.receiveAll py (before ++ message :: after)) m
        message.receivedAt ∧
      ((RelayClient.receiveAll py (before ++ message :: after)).lastError = none ↔
        ∀ m ∈ after, m.retained = true) := by
  rcases hs with ⟨n, hs, hpayload⟩ | ⟨rfl, hpayload⟩
  · obtain ⟨m, hm, hevent⟩ := readAs_of_announced hP hpy (announced_of_loops env n s hs)
    refine ⟨m, hm.toCarries, iff_of_false hevent ?_, hm.halting,
      RelayClient.receiveAll_live ⟨hlive, ?_⟩ hafter⟩
    · rintro rfl
      exact absurd (announced_of_loops env n will hs).event (by decide)
    · rw [hpayload]
      exact hm.valid
  · obtain ⟨m, hm, hevent⟩ := readAs_will hpy
    refine ⟨m, hm.toCarries, iff_of_true hevent rfl, hm.halting,
      RelayClient.receiveAll_live ⟨hlive, ?_⟩ hafter⟩
    rw [hpayload]
    exact hm.valid

/-! ## Concrete libraries -/

theorem serializes_flatPlatform : Serializes flatPlatform := fun _ _ => rfl

/-- A reader of flat objects. -/
def flatPydantic : Pydantic where
  readJson := fun payload =>
    payload.toByteArray.utf8Decode?.bind fun chars =>
      (FlatJson.parse chars.toList).map fun o => .object (o.map fun m => (m.1, inputOf m.2))
  message := fun _ => "Input is invalid"

theorem readsFlat_flatPydantic : ReadsFlat flatPydantic := by
  intro o ho _
  have hdecode : (utf8Bytes (FlatJson.render o)).toByteArray.utf8Decode? =
      some (FlatJson.render o).toArray := List.utf8Decode?_utf8Encode
  have hread : flatPydantic.readJson (utf8Bytes (FlatJson.render o)) =
      (utf8Bytes (FlatJson.render o)).toByteArray.utf8Decode?.bind fun chars =>
        (FlatJson.parse chars.toList).map fun o => .object (o.map fun m => (m.1, inputOf m.2)) :=
    rfl
  rw [hread, hdecode, Option.bind_some, List.toList_toArray, FlatJson.parse_render ho]
  rfl

/-- What the firmware says when it starts to move. -/
def movingStatus : Status :=
  { event := "moving", state := "UP", firmware := firmwareVersion, code := "command_started"
    detail := "릴레이 이동 deadline을 적용했습니다." }

/-- The message in which it arrives. -/
def movingMessage : MqttMessage :=
  ⟨decode mqttStatusTopic.toList, flatPlatform.serializeJson movingStatus, 0, false, 5⟩

/-- An older message that the broker has kept follows. -/
def keptMessage : MqttMessage :=
  ⟨decode mqttStatusTopic.toList, flatPlatform.serializeJson will, 0, true, 6⟩

/-- The host sees the relay move. -/
theorem relay_agreement_moving :
    (RelayClient.receiveAll flatPydantic [movingMessage, keptMessage]).state = some .up ∧
      (RelayClient.receiveAll flatPydantic [movingMessage, keptMessage]).lastError = none := by
  have hsaid : movingStatus ∈ (World.afterLoops 4 (World.setup movingEnv)).statuses := by
    decide +kernel
  have hkept : ∀ m ∈ [keptMessage], m.retained = true := fun m hm => by
    rw [List.mem_singleton.mp hm]
    rfl
  obtain ⟨m, hm, -, -, hshows, herror⟩ := @relay_agreement flatPlatform flatPydantic
    serializes_flatPlatform readsFlat_flatPydantic movingEnv movingStatus movingMessage []
    [keptMessage] (.inl ⟨4, hsaid, rfl⟩) rfl fun m hm => .inl (hkept m hm)
  have hstate : m.state = .up := by
    have hmem := hm.state
    simp only [relayStates, List.mem_cons, Prod.mk.injEq, List.not_mem_nil, or_false] at hmem
    rcases hmem with h | h | h
    · exact h.2
    · exact absurd h.1 (by decide)
    · exact absurd h.1 (by decide)
  exact ⟨hshows.state.trans (congrArg some hstate), herror.mpr hkept⟩

end SmartDesk.Wire
