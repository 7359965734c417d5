import SmartDesk.Lib.Ieee
import SmartDesk.Lib.FlatJson
import SmartDesk.Lib.Transition
import SmartDesk.Lib.Effect
import SmartDesk.Lib.Sqlite
import SmartDesk.Lib.Script
import SmartDesk.Lib.PyText
import SmartDesk.Lib.PyJson
import SmartDesk.Lib.JsonLimits
import SmartDesk.Lib.LoadsFlat
import SmartDesk.Firmware.Policy
import SmartDesk.Firmware.Protocol
import SmartDesk.Firmware.Relay
import SmartDesk.Firmware.RelaySafety
import SmartDesk.Firmware.Platform
import SmartDesk.Firmware.Handler
import SmartDesk.Firmware.RelayRuns
import SmartDesk.Firmware.Loop
import SmartDesk.Firmware.LoopSafety
import SmartDesk.Firmware.Grammar
import SmartDesk.Desk.Models
import SmartDesk.Wire.Messages
import SmartDesk.Wire.Agreement
import SmartDesk.Wire.HeightLease
import SmartDesk.Lib.Coroutine
import SmartDesk.Lib.RelyGuarantee
import SmartDesk.Lib.Contract
import SmartDesk.Lib.Continuation
import SmartDesk.Desk.Settings
import SmartDesk.Desk.Control
import SmartDesk.Desk.Operations
import SmartDesk.Desk.Runner
import SmartDesk.Desk.Guarantee
import SmartDesk.Desk.Rules
import SmartDesk.Desk.Exchange
import SmartDesk.Desk.Guards
import SmartDesk.Desk.Intents
import SmartDesk.Desk.Lifecycle
import SmartDesk.Desk.RunnerSafety
import SmartDesk.Desk.Tasks
import SmartDesk.Desk.Coherence
import SmartDesk.Desk.PulseSafety
import SmartDesk.Desk.StopLatch
import SmartDesk.Desk.HandOver
import SmartDesk.Desk.Superseded
import SmartDesk.Desk.StopReturned
import SmartDesk.Desk.WakeGate
import SmartDesk.Desk.RunnerSurvival
import SmartDesk.Desk.Contracts
import SmartDesk.Desk.Watchdog
import SmartDesk.Desk.InvalidTarget
import SmartDesk.Desk.Segment
import SmartDesk.Desk.HeightMonitor
import SmartDesk.Display.Reader
import SmartDesk.Display.Height
import SmartDesk.Wire.HeightAgreement
import SmartDesk.Core.TaskManager
import SmartDesk.Core.Lifecycle
import SmartDesk.Storage.Database
import SmartDesk.Storage.Serialised
import SmartDesk.Profiles.Models
import SmartDesk.Profiles.Repository
import SmartDesk.Profiles.FiniteMap
import SmartDesk.Profiles.Runs
import SmartDesk.Storage.Migration
import SmartDesk.Storage.SchemaCheck
import SmartDesk.Storage.Resume
import SmartDesk.Storage.Refusal
import SmartDesk.Assistant.Service
import SmartDesk.Assistant.Replay
import SmartDesk.Assistant.History
import SmartDesk.Voice.Models
import SmartDesk.Voice.AudioInput
import SmartDesk.Voice.Recorder
import SmartDesk.Voice.Utterance
import SmartDesk.Voice.Candidate
import SmartDesk.Voice.WakeWord
import SmartDesk.Voice.Playback
import SmartDesk.Voice.Service
import SmartDesk.Voice.FollowupWindow
import SmartDesk.Voice.TurnErrors
import SmartDesk.Voice.HalfDuplex
import SmartDesk.Voice.SpeechTimeout
import SmartDesk.Wled.Models
import SmartDesk.Wled.Client
import SmartDesk.Wled.Failures
import SmartDesk.Wled.Confirmation
import SmartDesk.Serial.Source
import SmartDesk.Serial.Ownership
import SmartDesk.Mqtt.Client
import SmartDesk.Mqtt.Connection
import SmartDesk.Wire.RelayStatus
import SmartDesk.Firmware.Statuses
import SmartDesk.Wire.StatusAgreement
import SmartDesk.Dashboard.HoldButtons
import SmartDesk.Dashboard.Routes
import SmartDesk.Dashboard.Session
