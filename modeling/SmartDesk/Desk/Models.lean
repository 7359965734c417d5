import SmartDesk.Lib.Ieee

/-!
# Shared models

`modules/desk/models.py`: the enumerations and the snapshots that the height
monitor and the relay client hand to the controller.  A Python `float` is an
`Ieee`, a UTC instant is a number of microseconds.

* `Direction`, `HeightStatus`, `RelayEvent`, `RelayState`, `DeskState` — the
  enumerations.
* `HeightSnapshot`, `RelaySnapshot` — what the controller reads.
-/

namespace SmartDesk.Desk

/-- A timezone-aware UTC instant, in microseconds. -/
abbrev Instant := ℤ

inductive Direction where
  | up
  | down
  deriving DecidableEq, Repr

/-- The value of the enumeration member. -/
def Direction.value : Direction → String
  | .up => "UP"
  | .down => "DOWN"

inductive HeightStatus where
  | stopped
  | waiting
  | online
  | stale
  | error
  | sensorSleeping
  deriving DecidableEq, Repr

/-- The last height and what it may be used for. -/
structure HeightSnapshot where
  heightCm : Option Ieee
  observedAt : Option Instant
  status : HeightStatus
  deriving DecidableEq

inductive RelayEvent where
  | online
  | heartbeat
  | moving
  | stopped
  | rejected
  | offline
  deriving DecidableEq, Repr

/-- The direction that the relay reports. -/
inductive RelayState where
  | up
  | down
  | stop
  deriving DecidableEq, Repr

/-- `RelayState(direction.value)`. -/
def Direction.toRelayState : Direction → RelayState
  | .up => .up
  | .down => .down

/-- The last live status, when it arrived, and the error of the last payload. -/
structure RelaySnapshot where
  event : Option RelayEvent
  state : Option RelayState
  firmware : Option String
  code : Option String
  detail : Option String
  receivedAt : Option Instant
  lastError : Option String
  deriving DecidableEq

inductive DeskState where
  | idle
  | moving
  | manual
  | stopped
  | error
  | waking
  deriving DecidableEq, Repr

end SmartDesk.Desk
