import SmartDesk.Firmware.Protocol

/-!
# The third-party code

The firmware is linked with a JSON library and with the MQTT client
`PubSubClient`.  Neither is part of the repository: they are a parameter, and
what the firmware relies on is a hypothesis about it.

* `Status`, `Platform` — a status message, and the functions the firmware calls.
* `Platform.Documented` — the documented behaviour of the client.
* `flatPlatform`, `documented_flatPlatform` — a client that keeps one flag, with
  the reader and the writer of flat objects, is such a platform.
-/

namespace SmartDesk.Firmware

/-- A status message. -/
structure Status where
  event : String
  state : String
  firmware : String
  code : String
  detail : String
  deriving DecidableEq, Repr

/-- The third-party parts: the two JSON functions and `PubSubClient`.  `Net` is
what the network does during one call. -/
structure Platform where
  deserializeJson : Bytes → Option JsonDocument
  serializeJson : Status → Bytes
  Client : Type
  Net : Type
  /-- A client as it is constructed. -/
  initial : Client
  /-- `state()`; zero is `MQTT_CONNECTED`. -/
  state : Client → ℤ
  connected : Net → Client → Bool × Client
  publish : Net → (topic payload : Bytes) → Client → Bool × Client
  subscribe : Net → (topic : Bytes) → Client → Bool × Client
  connect : Net → Client → Bool × Client
  disconnect : Client → Client
  /-- The next message that `loop()` hands to the callback. -/
  incoming : Net → Client → Option (Bytes × Bytes) × Client
  /-- What `loop()` returns when no message is left. -/
  endLoop : Net → Client → Bool × Client

/-- The documented behaviour of `PubSubClient`: `connected()` tells whether the
client is connected, a client that is not connected stays so until `connect()`
succeeds, and it hands no message to the callback. -/
structure Platform.Documented (P : Platform) : Prop where
  initial_state : P.state P.initial ≠ 0
  connected_false : ∀ net c, (P.connected net c).1 = false → P.state (P.connected net c).2 ≠ 0
  connected_true : ∀ net c, (P.connected net c).1 = true → P.state c = 0
  connected_keeps : ∀ net c, P.state c ≠ 0 → P.state (P.connected net c).2 ≠ 0
  publish_keeps : ∀ net topic payload c, P.state c ≠ 0 →
    P.state (P.publish net topic payload c).2 ≠ 0
  subscribe_keeps : ∀ net topic c, P.state c ≠ 0 → P.state (P.subscribe net topic c).2 ≠ 0
  connect_false : ∀ net c, (P.connect net c).1 = false → P.state (P.connect net c).2 ≠ 0
  disconnect_state : ∀ c, P.state (P.disconnect c) ≠ 0
  incoming_some : ∀ net c, (P.incoming net c).1.isSome → P.state c = 0
  incoming_keeps : ∀ net c, P.state c ≠ 0 → P.state (P.incoming net c).2 ≠ 0
  endLoop_keeps : ∀ net c, P.state c ≠ 0 → P.state (P.endLoop net c).2 ≠ 0

/-! ## A concrete platform -/

/-- The network of the concrete platform: whether the link is up, whether the
broker takes what is sent, and what it delivers. -/
structure FlatNet where
  link : Bool
  accepts : Bool
  delivers : Option (Bytes × Bytes)

/-- The text of a status message. -/
def statusText (s : Status) : List Char :=
  FlatJson.render
    [("event".toList, .string s.event.toList), ("state".toList, .string s.state.toList),
      ("firmware".toList, .string s.firmware.toList), ("code".toList, .string s.code.toList),
      ("detail".toList, .string s.detail.toList)]

/-- A client that is a flag: it is cleared when the link is found down. -/
def flatPlatform : Platform :=
  { deserializeJson := deserializeFlat
    serializeJson := fun s => (statusText s).flatMap String.utf8EncodeChar
    Client := Bool
    Net := FlatNet
    initial := false
    state := fun c => if c then 0 else -1
    connected := fun net c => (c && net.link, c && net.link)
    publish := fun net _ _ c => (c && net.link && net.accepts, c && net.link)
    subscribe := fun net _ c => (c && net.link && net.accepts, c && net.link)
    connect := fun net _ => (net.link && net.accepts, net.link && net.accepts)
    disconnect := fun _ => false
    incoming := fun net c => (if c && net.link then net.delivers else none, c && net.link)
    endLoop := fun net c => (c && net.link, c && net.link) }

theorem documented_flatPlatform : flatPlatform.Documented where
  initial_state := by simp [flatPlatform]
  connected_false := by
    intro net c h
    simp_all [flatPlatform]
  connected_true := by
    intro net c h
    cases c
    · simp [flatPlatform] at h
    · rfl
  connected_keeps := by
    intro net c h
    simp_all [flatPlatform]
  publish_keeps := by
    intro net topic payload c h
    simp_all [flatPlatform]
  subscribe_keeps := by
    intro net topic c h
    simp_all [flatPlatform]
  connect_false := by
    intro net c h
    simp_all [flatPlatform]
  disconnect_state := by
    intro c
    simp [flatPlatform]
  incoming_some := by
    intro net c h
    cases c
    · simp [flatPlatform] at h
    · simp [flatPlatform]
  incoming_keeps := by
    intro net c h
    simp_all [flatPlatform]
  endLoop_keeps := by
    intro net c h
    simp_all [flatPlatform]

end SmartDesk.Firmware
