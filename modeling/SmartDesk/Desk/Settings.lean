import SmartDesk.Lib.Ieee

/-!
# Desk settings

`DeskSettings` of `config/settings.py`.  All its numbers are finite, so a `float`
is the rational that it stands for; a value of the structure has passed the
validators.

* `DeskSettings` — the settings with what the validators ensure.
* `DeskSettings.default` — the defaults pass.
-/

namespace SmartDesk.Desk

def deskPhysicalMinCm : ℚ := 73

def deskPhysicalMaxCm : ℚ := 118

def deskControlMinCm : ℚ := 75

def deskControlMaxCm : ℚ := 115

/-- A number with a positive lower and an inclusive upper bound. -/
abbrev UpTo (bound : ℚ) (x : ℚ) : Prop := 0 < x ∧ x ≤ bound

/-- A hold of 50 ms to 500 ms. -/
abbrev HoldMs (n : ℤ) : Prop := 50 ≤ n ∧ n ≤ 500

/-- Accepted settings. -/
structure DeskSettings where
  measurementMinCm : ℚ
  measurementMaxCm : ℚ
  operationMinCm : ℚ
  operationMaxCm : ℚ
  heightStaleAfterSeconds : ℚ
  continuousHoldMs : ℤ
  manualHoldMs : ℤ
  fineHoldMs : ℤ
  pulseRefreshIntervalSeconds : ℚ
  controlPollIntervalSeconds : ℚ
  manualWatchdogSeconds : ℚ
  targetTimeoutSeconds : ℚ
  targetToleranceCm : ℚ
  fineApproachDistanceCm : ℚ
  fineSettleSeconds : ℚ
  relayStaleAfterSeconds : ℚ
  relayAckTimeoutSeconds : ℚ
  wakeTimeoutSeconds : ℚ
  heightStaleAfter_range : UpTo 30 heightStaleAfterSeconds := by decide +kernel
  continuousHold_range : HoldMs continuousHoldMs := by decide +kernel
  manualHold_range : HoldMs manualHoldMs := by decide +kernel
  fineHold_range : HoldMs fineHoldMs := by decide +kernel
  pulseRefresh_range : UpTo (1 / 2) pulseRefreshIntervalSeconds := by decide +kernel
  controlPoll_range : UpTo (1 / 2) controlPollIntervalSeconds := by decide +kernel
  manualWatchdog_range : UpTo 5 manualWatchdogSeconds := by decide +kernel
  targetTimeout_range : UpTo 300 targetTimeoutSeconds := by decide +kernel
  targetTolerance_range : UpTo 2 targetToleranceCm := by decide +kernel
  fineApproach_range : UpTo 10 fineApproachDistanceCm := by decide +kernel
  fineSettle_range : UpTo 10 fineSettleSeconds := by decide +kernel
  relayStaleAfter_range : UpTo 60 relayStaleAfterSeconds := by decide +kernel
  relayAckTimeout_range : UpTo 10 relayAckTimeoutSeconds := by decide +kernel
  wakeTimeout_range : UpTo 30 wakeTimeoutSeconds := by decide +kernel
  measurement_lt : measurementMinCm < measurementMaxCm := by decide +kernel
  measurement_low : deskPhysicalMinCm ≤ measurementMinCm := by decide +kernel
  measurement_high : measurementMaxCm ≤ deskPhysicalMaxCm := by decide +kernel
  operation_lt : operationMinCm < operationMaxCm := by decide +kernel
  operation_low : deskControlMinCm ≤ operationMinCm := by decide +kernel
  operation_high : operationMaxCm ≤ deskControlMaxCm := by decide +kernel
  operation_low_measured : measurementMinCm ≤ operationMinCm := by decide +kernel
  operation_high_measured : operationMaxCm ≤ measurementMaxCm := by decide +kernel
  refresh_continuous : Ieee.double (pulseRefreshIntervalSeconds * 1000) < continuousHoldMs := by
    decide +kernel
  refresh_manual : Ieee.double (pulseRefreshIntervalSeconds * 1000) < manualHoldMs := by
    decide +kernel
  poll_le_refresh : controlPollIntervalSeconds ≤ pulseRefreshIntervalSeconds := by decide +kernel
  poll_lt_watchdog : controlPollIntervalSeconds < manualWatchdogSeconds := by decide +kernel
  tolerance_lt_fine : targetToleranceCm < fineApproachDistanceCm := by decide +kernel
  ack_lt_stale : relayAckTimeoutSeconds < relayStaleAfterSeconds := by decide +kernel
  poll_lt_wake : controlPollIntervalSeconds < wakeTimeoutSeconds := by decide +kernel

/-- **The defaults pass the validators.** -/
def DeskSettings.default : DeskSettings where
  measurementMinCm := deskPhysicalMinCm
  measurementMaxCm := deskPhysicalMaxCm
  operationMinCm := deskControlMinCm
  operationMaxCm := deskControlMaxCm
  heightStaleAfterSeconds := 1
  continuousHoldMs := 500
  manualHoldMs := 500
  fineHoldMs := 100
  pulseRefreshIntervalSeconds := Ieee.double (1 / 10)
  controlPollIntervalSeconds := Ieee.double (5 / 100)
  manualWatchdogSeconds := Ieee.double (6 / 10)
  targetTimeoutSeconds := 120
  targetToleranceCm := Ieee.double (2 / 10)
  fineApproachDistanceCm := Ieee.double (15 / 10)
  fineSettleSeconds := 1
  relayStaleAfterSeconds := 15
  relayAckTimeoutSeconds := 1
  wakeTimeoutSeconds := 3

end SmartDesk.Desk
