import SmartDesk.Lib.Ieee

/-!
# Firmware policy and constants

`firmware/relay-controller/include/policy.h` and the constants of `config.h`
that the control path reads.  Heights are binary32 values, times are unsigned
32-bit millisecond counters that wrap.

* `elapsed` — elapsed time modulo `2 ^ 32`.
* `holdAllowed`, `measuredHeightAllowed`, `directionAllowed` — the admission
  bounds.
* `directionAllowed_up`, `directionAllowed_down` — what the boundary test says of
  a measured height.
-/

namespace SmartDesk.Firmware

/-! ## Constants -/

def minHoldMs : ℤ := 50
def maxHoldMs : ℤ := 500
def minMeasuredHeightCm : Ieee := .finite 73
def maxMeasuredHeightCm : Ieee := .finite 118
def minControlHeightCm : Ieee := .finite 75
def maxControlHeightCm : Ieee := .finite 115

def firmwareVersion : String := "smartdesk-fin-relay-1.0.0"
def mqttControlTopic : String := "/desk_ctl"
def mqttStatusTopic : String := "/desk_ctl_status"
def mqttHeightTopic : String := "/smartdesk/desk/height"

def heightLeaseMs : UInt32 := 1500
def controlArmDelayMs : UInt32 := 500
def breakBeforeMakeMs : ℕ := 30
def statusHeartbeatMs : UInt32 := 5000
def wifiRetryMs : UInt32 := 5000
def mqttRetryMs : UInt32 := 5000
def maxControlPayloadBytes : ℕ := 160
def maxHeightPayloadBytes : ℕ := 192
def maxObservedAtBytes : ℕ := 40
def mqttBufferBytes : ℕ := 384

/-! ## Tests -/

/-- `elapsed(now, since, interval)`: the subtraction wraps. -/
def elapsed (now since interval : UInt32) : Bool := decide (interval ≤ now - since)

/-- `holdAllowed(holdMs)`. -/
def holdAllowed (holdMs : ℤ) : Bool := decide (minHoldMs ≤ holdMs) && decide (holdMs ≤ maxHoldMs)

/-- `measuredHeightAllowed(heightCm)`. -/
def measuredHeightAllowed (heightCm : Ieee) : Bool :=
  heightCm.isFinite && decide (minMeasuredHeightCm ≤ heightCm) &&
    decide (heightCm ≤ maxMeasuredHeightCm)

/-- `directionAllowed(heightCm, up)`. -/
def directionAllowed (heightCm : Ieee) (up : Bool) : Bool :=
  measuredHeightAllowed heightCm &&
    (if up then decide (heightCm < maxControlHeightCm) else decide (minControlHeightCm < heightCm))

theorem holdAllowed_iff {holdMs : ℤ} : holdAllowed holdMs = true ↔ 50 ≤ holdMs ∧ holdMs ≤ 500 := by
  rw [holdAllowed, Bool.and_eq_true, decide_eq_true_iff, decide_eq_true_iff]
  rfl

/-- For a measured height the boundary test of UP is exactly `height < 115`. -/
theorem directionAllowed_up {h : Ieee} (hm : measuredHeightAllowed h = true) :
    directionAllowed h true = true ↔ ¬ maxControlHeightCm ≤ h := by
  have hfin : h.isFinite = true := by simp [measuredHeightAllowed] at hm; exact hm.1.1
  obtain ⟨q, rfl⟩ := Ieee.exists_of_isFinite hfin
  simp [directionAllowed, hm, maxControlHeightCm]

/-- For a measured height the boundary test of DOWN is exactly `75 < height`. -/
theorem directionAllowed_down {h : Ieee} (hm : measuredHeightAllowed h = true) :
    directionAllowed h false = true ↔ ¬ h ≤ minControlHeightCm := by
  have hfin : h.isFinite = true := by simp [measuredHeightAllowed] at hm; exact hm.1.1
  obtain ⟨q, rfl⟩ := Ieee.exists_of_isFinite hfin
  simp [directionAllowed, hm, minControlHeightCm]

/-- A measured height is a number between 73 and 118. -/
theorem measuredHeightAllowed_iff {h : Ieee} :
    measuredHeightAllowed h = true ↔ ∃ q : ℚ, h = .finite q ∧ 73 ≤ q ∧ q ≤ 118 := by
  constructor
  · intro hm
    have hfin : h.isFinite = true := by simp [measuredHeightAllowed] at hm; exact hm.1.1
    obtain ⟨q, rfl⟩ := Ieee.exists_of_isFinite hfin
    refine ⟨q, rfl, ?_⟩
    simpa [measuredHeightAllowed, minMeasuredHeightCm, maxMeasuredHeightCm] using hm
  · rintro ⟨q, rfl, h₁, h₂⟩
    simp [measuredHeightAllowed, minMeasuredHeightCm, maxMeasuredHeightCm, h₁, h₂]

example : elapsed 4 (0 - 11) 15 = true ∧ elapsed 3 (0 - 11) 15 = false := by decide

end SmartDesk.Firmware
