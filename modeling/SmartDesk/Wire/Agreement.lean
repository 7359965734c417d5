import SmartDesk.Wire.Messages

/-!
# What the firmware understands of the host's commands

The host writes three commands, the firmware reads two: `parseControl` knows
STOP, UP and DOWN, but not WAKE.

* `StandsFor` — a firmware command that asks for the same as a host command.
* `Understood` — the payload of a host command is accepted, denotes it, and is
  told apart from all others.
* `received_pulse`, `received_stop`, `received_wake` — what the
  parser returns on each payload, whatever JSON library reads it.
* `understood_iff_not_wake` — **exactly the commands other than WAKE are
  understood.**
-/

namespace SmartDesk.Wire

open SmartDesk.Desk SmartDesk.Firmware

/-- The command type of a direction. -/
def commandType : Direction → CommandType
  | .up => .up
  | .down => .down

/-- A firmware command that asks for the same: the same kind, direction and hold. -/
def StandsFor (command : Command) : HostCommand → Prop
  | .pulse direction holdMs => command.type = commandType direction ∧ (command.holdMs : ℤ) = holdMs
  | .stop => command.type = .stop
  | .wake _ _ => False

/-- WAKE commands. -/
def HostCommand.IsWake : HostCommand → Prop
  | .wake _ _ => True
  | _ => False

variable (deserializeJson : Bytes → Option JsonDocument)

/-- What the firmware makes of a text. -/
def received (text : List Char) : Parsed Command :=
  parseControl deserializeJson (ascii text) maxControlPayloadBytes {}

/-- The text of a host command is accepted as that command, and no other
command has a text that is accepted as the same one. -/
def Understood (command : HostCommand) (text : List Char) : Prop :=
  ∃ c, received deserializeJson text = .ok c ∧ StandsFor c command ∧
    ∀ other text', other.publish = .ok text' → other ≠ command →
      received deserializeJson text' ≠ .ok c

variable {deserializeJson}

/-! ## The three payloads -/

/-- A text that fits is deserialised and handed to `parseCommand`. -/
theorem received_render (hd : Deserializes deserializeJson) {o : FlatJson.Object}
    (ho : WireObject o) (hlen : (FlatJson.render o).length ≤ 160)
    (hne : FlatJson.render o ≠ []) :
    ∃ members, received deserializeJson (FlatJson.render o) = parseCommand members {} ∧
      List.Forall₂ (fun m j => j.1 = ascii m.1 ∧ Denotes m.2 j.2) o members := by
  obtain ⟨members, hread, hmembers⟩ := hd o ho
  refine ⟨members, ?_, hmembers⟩
  have hpos : (ascii (FlatJson.render o)).length ≠ 0 := by
    simpa [ascii] using hne
  have hfit : ¬ maxControlPayloadBytes < (ascii (FlatJson.render o)).length := by
    simpa [ascii, maxControlPayloadBytes] using hlen
  rw [received, parseControl, if_neg (by tauto), hread]

/-- **STOP is read as STOP.** -/
theorem received_stop (hd : Deserializes deserializeJson) :
    received deserializeJson (FlatJson.render stopMessage) =
      .ok { type := .stop, holdMs := 0 } := by
  obtain ⟨members, heq, hmembers⟩ := received_render hd wireObject_stop (by decide) (by decide)
  cases hmembers with
  | @cons _ command _ _ hcommand hrest =>
    cases hrest
    obtain ⟨key, value⟩ := command
    obtain ⟨rfl, rfl⟩ : key = _ ∧ value = _ := hcommand
    rw [heq]
    rfl

/-- The members of a pulse are read as they were written. -/
theorem parseCommand_pulse (direction : Direction) {holdMs : ℤ}
    (hhold : holdAllowed holdMs = true) (hlong : (JsonScalar.integer holdMs).asLong = some holdMs) :
    parseCommand [(ascii "command".toList, .string (ascii direction.value.toList)),
        (ascii "source".toList, .string (ascii "desk_service".toList)),
        (ascii "hold_ms".toList, .integer holdMs)] {} =
      .ok { type := commandType direction, holdMs := holdMs.toNat } := by
  have hmotion (type : CommandType) (command : Bytes) :
      parseMotion type [(ascii "command".toList, .string command),
          (ascii "source".toList, .string (ascii "desk_service".toList)),
          (ascii "hold_ms".toList, .integer holdMs)] {} =
        .ok { type := type, holdMs := holdMs.toNat } := by
    have hkeys : hasExactKeys [(ascii "command".toList, .string command),
        (ascii "source".toList, .string (ascii "desk_service".toList)),
        (ascii "hold_ms".toList, .integer holdMs)]
        [literal "command", literal "source", literal "hold_ms"] = true := rfl
    have hsource : (lookup [(ascii "command".toList, .string command),
        (ascii "source".toList, .string (ascii "desk_service".toList)),
        (ascii "hold_ms".toList, .integer holdMs)] (literal "source")).asCString =
        some (literal "desk_service") := rfl
    have hvalue : lookup [(ascii "command".toList, .string command),
        (ascii "source".toList, .string (ascii "desk_service".toList)),
        (ascii "hold_ms".toList, .integer holdMs)] (literal "hold_ms") = .integer holdMs := rfl
    rw [parseMotion, hvalue, hlong, if_neg (fun h => h hkeys), if_neg (fun h => h hsource)]
    exact if_neg fun h => h hhold
  cases direction with
  | up => exact hmotion .up (ascii "UP".toList)
  | down => exact hmotion .down (ascii "DOWN".toList)

/-- **A pulse is read with its direction and its hold.** -/
theorem received_pulse (hd : Deserializes deserializeJson) (direction : Direction) {holdMs : ℤ}
    (hlow : 50 ≤ holdMs) (hhigh : holdMs ≤ 500) :
    received deserializeJson (FlatJson.render (pulseMessage direction holdMs)) =
      .ok { type := commandType direction, holdMs := holdMs.toNat } := by
  obtain ⟨members, heq, hmembers⟩ := received_render hd (wireObject_pulse hlow hhigh)
    (le_trans (length_pulse hlow hhigh) (by decide)) (by simp [pulseMessage, FlatJson.render])
  cases hmembers with
  | @cons _ command _ _ hcommand hmembers =>
  cases hmembers with
  | @cons _ source _ _ hsource hmembers =>
  cases hmembers with
  | @cons _ hold _ _ hhold hmembers =>
    cases hmembers
    obtain ⟨commandKey, commandValue⟩ := command
    obtain ⟨sourceKey, sourceValue⟩ := source
    obtain ⟨holdKey, holdValue⟩ := hold
    obtain ⟨rfl, rfl⟩ : commandKey = _ ∧ commandValue = _ := hcommand
    obtain ⟨rfl, rfl⟩ : sourceKey = _ ∧ sourceValue = _ := hsource
    obtain ⟨rfl, hvalue⟩ : holdKey = _ ∧ Denotes (.integer holdMs) holdValue := hhold
    obtain rfl : holdValue = .integer holdMs := hvalue (by omega)
    rw [heq]
    exact parseCommand_pulse direction (holdAllowed_iff.mpr ⟨hlow, hhigh⟩)
      (if_pos ⟨by omega, by omega⟩)

/-- **WAKE is rejected**, whatever its direction and its basis height. -/
theorem received_wake (hd : Deserializes deserializeJson) (direction : Direction) {q : ℚ}
    (hlow : 73 ≤ q) (hhigh : q ≤ 118) :
    received deserializeJson (FlatJson.render (wakeMessage direction q)) =
      .error (.invalidCommand, {}) := by
  obtain ⟨members, heq, hmembers⟩ := received_render hd (wireObject_wake hlow hhigh)
    (length_wake hlow hhigh) (by simp [wakeMessage, FlatJson.render])
  cases hmembers with
  | @cons _ command _ rest hcommand hmembers =>
    obtain ⟨key, value⟩ := command
    obtain ⟨rfl, rfl⟩ : key = _ ∧ value = _ := hcommand
    rw [heq]
    rfl

/-! ## Agreement -/

theorem publish_cases {command : HostCommand} {text : List Char}
    (h : command.publish = .ok text) :
    (∃ direction holdMs, command = .pulse direction holdMs ∧ 50 ≤ holdMs ∧ holdMs ≤ 500 ∧
      text = FlatJson.render (pulseMessage direction holdMs)) ∨
    (command = .stop ∧ text = FlatJson.render stopMessage) ∨
    (∃ direction q, command = .wake direction (.finite q) ∧ 73 ≤ q ∧ q ≤ 118 ∧
      text = FlatJson.render (wakeMessage direction q)) := by
  cases command with
  | pulse direction holdMs =>
    simp only [HostCommand.publish, RelayClient.pulse] at h
    split_ifs at h with hrange
    cases h
    exact .inl ⟨direction, holdMs, rfl, hrange.1, hrange.2, rfl⟩
  | stop =>
    cases h
    exact .inr (.inl ⟨rfl, rfl⟩)
  | wake direction basis =>
    cases basis with
    | nan => cases h
    | inf negative => cases h
    | finite q =>
      simp only [HostCommand.publish, RelayClient.wake] at h
      split_ifs at h with hrange
      cases h
      exact .inr (.inr ⟨direction, q, rfl, hrange.1, hrange.2, rfl⟩)

/-- What is accepted as a command stands for the command that was published. -/
theorem standsFor_of_received (hd : Deserializes deserializeJson) {command : HostCommand}
    {text : List Char} (h : command.publish = .ok text) {c : Command}
    (hc : received deserializeJson text = .ok c) : StandsFor c command := by
  rcases publish_cases h with ⟨d, holdMs, rfl, hlow, hhigh, rfl⟩ | ⟨rfl, rfl⟩ |
    ⟨d, q, rfl, hlow, hhigh, rfl⟩
  · rw [received_pulse hd d hlow hhigh] at hc
    cases hc
    exact ⟨rfl, by simp only; omega⟩
  · rw [received_stop hd] at hc
    cases hc
    rfl
  · rw [received_wake hd d hlow hhigh] at hc
    cases hc

/-- A firmware command stands for at most one host command. -/
theorem eq_of_standsFor {c : Command} {a b : HostCommand} (ha : StandsFor c a)
    (hb : StandsFor c b) : a = b := by
  cases a with
  | pulse d holdMs =>
    cases b with
    | pulse d' holdMs' =>
      obtain ⟨htype, hhold⟩ := ha
      obtain ⟨htype', hhold'⟩ := hb
      have hdir : d = d' := by
        rw [htype] at htype'
        cases d <;> cases d' <;> simp_all [commandType]
      rw [hdir, ← hhold, hhold']
    | stop =>
      have hstop : c.type = .stop := hb
      rw [ha.1] at hstop
      cases d <;> cases hstop
    | wake d' q => exact absurd hb id
  | stop =>
    cases b with
    | pulse d' holdMs' =>
      have hstop : c.type = .stop := ha
      rw [hb.1] at hstop
      cases d' <;> cases hstop
    | stop => rfl
    | wake d' q => exact absurd hb id
  | wake d q => exact absurd ha id

/-- **The two sides agree on exactly the commands other than WAKE.**  With any
JSON library that reads flat objects as their members, the payload of a command
that the client publishes is accepted as that command and told apart from the
payloads of all others, if and only if the command is not WAKE. -/
theorem understood_iff_not_wake (hd : Deserializes deserializeJson) (command : HostCommand)
    (text : List Char) (h : command.publish = .ok text) :
    Understood deserializeJson command text ↔ ¬ command.IsWake := by
  constructor
  · rintro ⟨c, _, hstands, _⟩ hwake
    cases command with
    | pulse d holdMs => exact hwake
    | stop => exact hwake
    | wake d q => exact hstands
  · intro hwake
    obtain ⟨c, hc⟩ : ∃ c, received deserializeJson text = .ok c := by
      rcases publish_cases h with ⟨d, holdMs, rfl, hlow, hhigh, rfl⟩ | ⟨rfl, rfl⟩ |
        ⟨d, q, rfl, _, _, rfl⟩
      · exact ⟨_, received_pulse hd d hlow hhigh⟩
      · exact ⟨_, received_stop hd⟩
      · exact absurd trivial hwake
    have hstands := standsFor_of_received hd h hc
    refine ⟨c, hc, hstands, fun other text' hother hne hsame => hne ?_⟩
    exact eq_of_standsFor (standsFor_of_received hd hother hsame) hstands

/-- A pulse of 100 ms is understood. -/
theorem understood_pulse_up :
    Understood deserializeFlat (.pulse .up 100) (FlatJson.render (pulseMessage .up 100)) :=
  (understood_iff_not_wake deserializes_deserializeFlat (.pulse .up 100) _ rfl).mpr id

/-- WAKE at 80 cm is published, and the firmware rejects it. -/
theorem wake_not_understood :
    ¬ ∀ (command : HostCommand) (text : List Char), command.publish = .ok text →
      Understood deserializeFlat command text := by
  intro h
  obtain ⟨c, hc, _⟩ := h (.wake .up (.finite 80)) (FlatJson.render (wakeMessage .up 80))
    (by decide +kernel)
  have hreject : received deserializeFlat (FlatJson.render (wakeMessage .up 80)) =
      .error (.invalidCommand, {}) := by decide +kernel
  rw [hreject] at hc
  cases hc

end SmartDesk.Wire
