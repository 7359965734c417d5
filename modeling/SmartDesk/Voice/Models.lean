import SmartDesk.Lib.Ieee

/-!
# Voice models

`modules/voice/models.py` and the `VoiceSettings` of `config/settings.py`, as far as the
recording and the microphone use them.  All numbers of the settings are finite, so a
`float` is the rational that it stands for.

* `AudioChunk`, `RecordingEnd` — a frame of the microphone, and why a recording ended.
* `VoiceSettings` — the settings with what the validators ensure.
* `VoiceSettings.default` — the defaults pass.
-/

namespace SmartDesk.Voice

def inputSampleRate : ℕ := 24000

def inputFrameSamples : ℕ := 1920

/-- `INPUT_FRAME_BYTES`: samples of two bytes. -/
def inputFrameBytes : ℕ := inputFrameSamples * 2

/-- `INPUT_FRAME_SECONDS`, a `float`. -/
def inputFrameSeconds : ℚ := Ieee.double (inputFrameSamples / inputSampleRate)

/-- A frame of the microphone; the time of its callback is a finite `float`. -/
structure AudioChunk where
  pcm : List UInt8
  capturedAt : ℚ
  length_pcm : pcm.length = inputFrameBytes
  captured_nonneg : 0 ≤ capturedAt
  deriving DecidableEq

inductive RecordingEnd where
  | silence
  | maxDuration
  | speechStartTimeout
  | tooShort
  deriving DecidableEq, Repr

/-- `ceil(seconds / INPUT_FRAME_SECONDS)`. -/
def framesOf (seconds : ℚ) : ℕ := ⌈Ieee.double (seconds / inputFrameSeconds)⌉₊

/-- Accepted settings. -/
structure VoiceSettings where
  silenceRmsThreshold : ℚ
  speechStartConsecutiveFrames : ℕ
  silenceDurationSeconds : ℚ
  speechStartTimeoutSeconds : ℚ
  minUtteranceSeconds : ℚ
  maxUtteranceSeconds : ℚ
  followupEnabled : Bool
  followupTimeoutSeconds : ℚ
  followupPrerollSeconds : ℚ
  postPlaybackGuardSeconds : ℚ
  inputQueueFrames : ℕ
  threshold_range : 0 < silenceRmsThreshold ∧ silenceRmsThreshold ≤ 32767 := by decide +kernel
  startFrames_range : 1 ≤ speechStartConsecutiveFrames ∧ speechStartConsecutiveFrames ≤ 5 := by
    decide +kernel
  silence_range : Ieee.double (24 / 100) ≤ silenceDurationSeconds ∧ silenceDurationSeconds ≤ 3 := by
    decide +kernel
  startTimeout_range : 0 < speechStartTimeoutSeconds ∧ speechStartTimeoutSeconds ≤ 15 := by
    decide +kernel
  minUtterance_range : Ieee.double (16 / 100) ≤ minUtteranceSeconds ∧ minUtteranceSeconds ≤ 2 := by
    decide +kernel
  maxUtterance_range : 0 < maxUtteranceSeconds ∧ maxUtteranceSeconds ≤ 30 := by decide +kernel
  followupTimeout_range : 0 < followupTimeoutSeconds ∧ followupTimeoutSeconds ≤ 30 := by
    decide +kernel
  preroll_range : Ieee.double (8 / 100) ≤ followupPrerollSeconds ∧ followupPrerollSeconds ≤ 1 := by
    decide +kernel
  guard_range : 0 ≤ postPlaybackGuardSeconds ∧ postPlaybackGuardSeconds ≤ 2 := by decide +kernel
  queue_range : 8 ≤ inputQueueFrames ∧ inputQueueFrames ≤ 256 := by decide +kernel
  min_lt_max : minUtteranceSeconds < maxUtteranceSeconds := by decide +kernel
  silence_lt_max : silenceDurationSeconds < maxUtteranceSeconds := by decide +kernel
  preroll_lt_queue : framesOf followupPrerollSeconds < inputQueueFrames := by decide +kernel
  guard_lt_followup : followupEnabled = true → postPlaybackGuardSeconds < followupTimeoutSeconds := by
    decide +kernel

/-- **The defaults pass the validators.** -/
def VoiceSettings.default : VoiceSettings where
  silenceRmsThreshold := 500
  speechStartConsecutiveFrames := 2
  silenceDurationSeconds := Ieee.double (6 / 10)
  speechStartTimeoutSeconds := 3
  minUtteranceSeconds := Ieee.double (24 / 100)
  maxUtteranceSeconds := 10
  followupEnabled := true
  followupTimeoutSeconds := 4
  followupPrerollSeconds := Ieee.double (3 / 10)
  postPlaybackGuardSeconds := 1 / 4
  inputQueueFrames := 64

namespace VoiceSettings

/-- `self._preroll_frames` of the recorder, and the length of the follow-up pre-roll. -/
def prerollFrames (settings : VoiceSettings) : ℕ := framesOf settings.followupPrerollSeconds

/-- `self._max_frames`. -/
def maxFrames (settings : VoiceSettings) : ℕ := framesOf settings.maxUtteranceSeconds

end VoiceSettings

end SmartDesk.Voice
