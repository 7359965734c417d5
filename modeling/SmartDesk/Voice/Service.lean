import SmartDesk.Assistant.Service
import SmartDesk.Lib.Ieee
import SmartDesk.Lib.Script
import SmartDesk.Voice.AudioInput
import SmartDesk.Voice.Recorder

/-!
# The voice service

`VoiceService` of `modules/voice/service.py` over `LocalAudioInput`.  `start()`, the task of the
main loop and `stop()` follow one another, statement by statement: a `stop()` first ends the main
loop, by a cancellation at any of its calls.  What the other components do is not modelled: they
return or raise anything.  Time passes between any two statements; any read can time out.

* `VoiceVars` — the fields of the service, its microphone and the clock.
* `VoiceCall`, `VoiceHead` — what the service waits for, and its loops.
* `voiceService` — the programs, and what happens around them: time and the callbacks of the audio
  thread at any time, calls on the event loop while the service waits.
-/

namespace SmartDesk.Voice

open PyText Script Assistant

/-! ## Data -/

inductive VoiceState where
  | disabled
  | waitingWake
  | waitingFollowup
  | recording
  | processing
  | speaking
  | error
  deriving DecidableEq

inductive RecordingTrigger where
  | wakeWord
  | followup
  deriving DecidableEq

inductive EffectName where
  | acknowledgement
  | error
  deriving DecidableEq

/-- `VoiceFatalError`, `OpenAiTurnError`, `TimeoutError`, `CancelledError` and every other
exception. -/
inductive VoiceError where
  | fatal (code : String)
  | turn (code : String)
  | timeout
  | cancelled
  | other
  deriving DecidableEq

/-- `DEVICE_RETRY_INTERVAL_SECONDS` -/
def deviceRetryIntervalSeconds : ℚ := 2

/-- `RECOVERABLE_DEVICE_ERRORS` -/
def recoverableDeviceErrors : List String :=
  ["input_device_name_invalid", "microphone_inactive", "microphone_open_failed",
    "output_device_name_invalid", "speaker_open_failed"]

/-- Who waits for a chunk: the main loop, or the recorder, before or after speech has started. -/
inductive Reader where
  | wake
  | followup
  | recorder (trigger : RecordingTrigger) (speechStarted : Bool)
  deriving DecidableEq

inductive VoiceCall where
  | wakewordStart
  | wakewordDetect (pcm : List UInt8)
  | wakewordStop
  | audioStart
  | read (reader : Reader)
  | audioStop
  | playbackStart
  | playEffect (effect : EffectName)
  | playSpeech (spokenText : PyStr)
  | stopSpeech
  | playbackStop
  | transcribe (utterance : AudioUtterance)
  | reply (transcript : PyStr)
  | gatewayClose
  /-- The first step of the task of the main loop. -/
  | mainTask
  | sleep (seconds : ℚ)
  deriving DecidableEq

inductive VoiceValue where
  | none
  | chunk (c : AudioChunk)
  | detected (hit : Bool)
  | text (value : PyStr)
  | replied (reply : AssistantReply)
  deriving DecidableEq

/-- How a call ends. -/
inductive VoiceAnswer where
  | returned
  /-- `read` takes the oldest frame. -/
  | chunk
  | detected (hit : Bool)
  | text (value : PyStr)
  | replied (reply : AssistantReply)
  | raised (e : VoiceError)
  /-- A cancellation that was asked for is delivered. -/
  | cancelled
  deriving DecidableEq

/-- What happens around the service. -/
inductive VoiceEvent where
  | tick (seconds : ℚ)
  | callback (pcm : List UInt8) (capturedAt : ℚ) (inputOverflow : Bool)
  | callbackFails
  | enqueueFromLoop
  /-- A `stop()` during the main loop. -/
  | stop
  /-- The task that runs is cancelled from outside. -/
  | cancel
  deriving DecidableEq

/-- The variables of a `record()` that was called by `_run_turn`. -/
structure RecordLoop where
  trigger : RecordingTrigger
  originalFollowupDeadline : Option ℚ
  speechStartDeadline : ℚ
  state : RecorderState

/-- The methods that are called from outside, and the loops. -/
inductive VoiceHead where
  | start
  | stop
  /-- `stop` after the end of the main loop. -/
  | stopTail
  /-- The task of `_supervise(needs_start)`. -/
  | main (needsStart : Bool)
  | supervise (needsStart : Bool)
  | run
  | followup (deadline : ℚ) (preroll : List AudioChunk)
  | record (r : RecordLoop)

/-- The service, its microphone and its clock. -/
structure VoiceVars where
  state : VoiceState := .disabled
  /-- `last_error` and `followup_expires_at` of the snapshot. -/
  lastError : Option String := none
  expiresAt : Option ℚ := none
  followupDeadline : Option ℚ := none
  followupExpiresAt : Option ℚ := none
  /-- A task of the main loop was created, and neither `start` nor `stop` was called since. -/
  mainTask : Bool := false
  stopping : Bool := false
  detectorStarted : Bool := false
  playbackStarted : Bool := false
  inputStarted : Bool := false
  gatewayClosed : Bool := false
  audio : LocalAudioInput := {}
  /-- `_stream` of the microphone is not None. -/
  stream : Bool := false
  now : ℚ := 0
  /-- The last value of `time.monotonic()`, if nothing was awaited since. -/
  clock : Option ℚ := none
  /-- A cancellation of the running task was asked for; a main loop starts without one. -/
  cancelRequested : Bool := false
  /-- A `stop()` has not returned yet. -/
  stopCalled : Bool := false
  /-- The wake-word detector has got no frame since its last `reset()`. -/
  wakewordReset : Bool := false
  /-- A `play_effect` or a `play_speech` is on its way. -/
  playing : Bool := false
  /-- A `play_speech` has returned, and nothing else was called since but `sleep`. -/
  drained : Bool := false
  /-- The callbacks that ran while something was played or the state was `PROCESSING`, `SPEAKING`
  or `ERROR`, and whether the service was waiting. -/
  barred : List (ℕ × Bool) := []

/-- The programs of the service. -/
abbrev VoiceSignature : Signature where
  Vars := VoiceVars
  Reading := ℚ
  Call := VoiceCall
  Value := VoiceValue
  Answer := VoiceAnswer
  Err := VoiceError
  Head := VoiceHead
  Event := VoiceEvent

abbrev VoiceProg (α : Type) : Type := Prog VoiceSignature α

/-! ## Statements -/

namespace VoiceVars

variable (s : VoiceVars)

/-- `_transition(state, followup_expires_at, last_error, clear_error)`; the codes are those of the
service's components, which the snapshot accepts. -/
def transition (state : VoiceState) (followupExpiresAt : Option ℚ) (lastError : Option String)
    (clearError : Bool) : VoiceVars :=
  let retainedError := if clearError then none else s.lastError
  { s with
    state := state
    expiresAt := if state = .waitingFollowup then followupExpiresAt.or s.followupExpiresAt else none
    lastError := lastError.or retainedError }

def setAccepting (enabled : Bool) : VoiceVars :=
  { s with audio := { s.audio with accepting := enabled } }

def discardPending : VoiceVars := { s with audio := s.audio.discardPending }

def resetWakeword : VoiceVars := { s with wakewordReset := true }

/-- What `audio.start()` does after it has opened a stream. -/
def startAudio : VoiceVars :=
  if s.stream then s else { s.discardPending.setAccepting true with stream := true }

/-- What `audio.stop()` does before it closes the stream. -/
def stopAudio : VoiceVars := { (s.setAccepting false).discardPending with stream := false }

/-- `stop` before its first call. -/
def beginStop : VoiceVars :=
  { ({ s with stopping := true }.setAccepting false).discardPending with
    mainTask := false, stopCalled := true }

/-- An effect or speech is played, or the service neither waits nor records. -/
def bars : Bool :=
  s.playing || s.state = .processing || s.state = .speaking || s.state = .error

def callback (waiting : Bool) (pcm : List UInt8) (capturedAt : ℚ) (inputOverflow : Bool) :
    VoiceVars :=
  { s with
    audio := s.audio.callback pcm capturedAt inputOverflow
    barred := if s.bars then s.barred ++ [(s.audio.callbacks, waiting)] else s.barred }

end VoiceVars

/-! ## Programs -/

namespace VoiceProg

def modify (f : VoiceVars → VoiceVars) : VoiceProg Unit := Prog.modify f

def gets {α : Type} (f : VoiceVars → α) : VoiceProg α := Prog.gets f

def await (c : VoiceCall) : VoiceProg VoiceValue := Prog.await c

def raise {α : Type} (e : VoiceError) : VoiceProg α := Prog.raise e

def goto (h : VoiceHead) : VoiceProg Unit := Prog.goto h

/-- `time.monotonic()` -/
def monotonic : VoiceProg ℚ := do
  let now ← gets fun s => Ieee.double s.now
  modify fun s => { s with clock := some now }
  pure now

def transition (state : VoiceState) (lastError : Option String) (clearError : Bool) :
    VoiceProg Unit :=
  modify fun s => s.transition state none lastError clearError

def setAccepting (enabled : Bool) : VoiceProg Unit := modify fun s => s.setAccepting enabled

def discardPending : VoiceProg Unit := modify fun s => s.discardPending

/-- `_cleanup_call(method)` -/
def cleanupCall (c : VoiceCall) : VoiceProg Unit :=
  (await c >>= fun _ => pure ()).attempt fun
    | .cancelled => raise .cancelled
    | _ => pure ()

/-- `if self._flag: ...` -/
def guarded (flag : VoiceVars → Bool) (body : VoiceProg Unit) : VoiceProg Unit := do
  let b ← gets flag
  if b then body else pure ()

/-- `if self._flag: await self._cleanup_call(method); self._flag = False` -/
def stopComponent (flag : VoiceVars → Bool) (c : VoiceCall) (clear : VoiceVars → VoiceVars) :
    VoiceProg Unit :=
  guarded flag do
    cleanupCall c
    modify clear

def stopInput : VoiceProg Unit :=
  stopComponent (·.inputStarted) .audioStop fun s => { s with inputStarted := false }

def stopPlayback : VoiceProg Unit :=
  stopComponent (·.playbackStarted) .playbackStop fun s => { s with playbackStarted := false }

def stopDetector : VoiceProg Unit :=
  stopComponent (·.detectorStarted) .wakewordStop fun s => { s with detectorStarted := false }

/-- `_cleanup_started_resources(close_gateway=False, partial_start=True)` -/
def cleanupPartialStart : VoiceProg Unit := do
  stopInput
  stopPlayback
  stopDetector

/-- `_cleanup_started_resources(close_gateway=True)` -/
def cleanupStartedResources : VoiceProg Unit := do
  stopInput
  stopDetector
  stopPlayback
  stopComponent (fun s => !s.gatewayClosed) .gatewayClose fun s => { s with gatewayClosed := true }

/-- `_enter_waiting_wake(clear_followup=True, last_error, clear_error)` -/
def enterWaitingWake (lastError : Option String) (clearError : Bool) : VoiceProg Unit := do
  modify fun s => { s with followupDeadline := none }
  modify fun s => { s with followupExpiresAt := none }
  discardPending
  setAccepting true
  modify fun s => s.resetWakeword
  transition .waitingWake lastError clearError

/-- `_start_components` -/
def startComponents : VoiceProg Unit := do
  let _ ← await .wakewordStart
  modify fun s => { s with detectorStarted := true }
  let _ ← await .audioStart
  modify fun s => { s with inputStarted := true }
  let _ ← await .playbackStart
  modify fun s => { s with playbackStarted := true }
  discardPending
  modify fun s => s.resetWakeword
  enterWaitingWake none true

/-- `_transition_device_retry(code)` -/
def transitionDeviceRetry (code : String) : VoiceProg Unit :=
  guarded (fun s => s.state ≠ .error || s.lastError ≠ some code) do
    transition .error (some code) false

/-- What `start` and `_supervise` do with an exception: whether the components are to be started
again. -/
def recoverDevice : VoiceError → VoiceProg Bool
  | .cancelled => raise .cancelled
  | .fatal code => do
      cleanupPartialStart
      if code ∈ recoverableDeviceErrors then do
        transitionDeviceRetry code
        pure true
      else do
        transition .error (some code) false
        pure false
  | _ => do
      cleanupPartialStart
      transition .error (some "voice_start_failed") false
      pure false

/-- The `except` clauses around the body of the loop of `_supervise`. -/
def supervised (body : VoiceProg Unit) : VoiceProg Unit :=
  body.attempt fun e => do
    let again ← recoverDevice e
    if again then goto (.supervise true) else pure ()

def supervise (needsStart : Bool) : VoiceProg Unit := do
  let stopping ← gets (·.stopping)
  if stopping then pure ()
  else if needsStart then
    supervised do
      let _ ← await (.sleep deviceRetryIntervalSeconds)
      startComponents
      goto .run
  else goto .run

/-- `start`; for a cancellation the components are stopped as well. -/
def start : VoiceProg Unit := do
  modify fun s => { s with mainTask := false, stopping := false }
  let main ← (startComponents >>= fun _ => pure (some false)).attempt fun e =>
    match e with
    | .cancelled => do
        cleanupPartialStart
        raise .cancelled
    | e => do
        let again ← recoverDevice e
        if again then pure (some true) else pure none
  match main with
  | none => pure ()
  | some needsStart => do
      modify fun s => { s with mainTask := true, cancelRequested := false }
      goto (.main needsStart)

def main (needsStart : Bool) : VoiceProg Unit := do
  let _ ← await .mainTask
  goto (.supervise needsStart)

def stopTail : VoiceProg Unit := do
  cleanupCall .stopSpeech
  cleanupStartedResources
  modify fun s => { s with followupDeadline := none }
  modify fun s => { s with followupExpiresAt := none }
  transition .disabled none true
  modify fun s => { s with stopCalled := false }

def stop : VoiceProg Unit :=
  guarded (fun s => !(s.stopping && s.state = .disabled)) do
    modify fun s => s.beginStop
    stopTail

/-! ## The main loop -/

section Main

variable (settings : VoiceSettings) (nfkc : PyStr → PyStr)

/-- `await self._audio.read(timeout_seconds)`; none is a `TimeoutError`. -/
def read (reader : Reader) : VoiceProg (Option AudioChunk) :=
  (await (.read reader) >>= fun v =>
    match v with
    | .chunk c => pure (some c)
    | _ => pure none).attempt fun e =>
      match e with
      | .timeout => pure none
      | e => raise e

/-- `_play_error_effect` -/
def playErrorEffect : VoiceProg Unit := do
  setAccepting false
  discardPending
  let _ ← await (.playEffect .error)
  discardPending

/-- `_recover_turn_error(code)` -/
def recoverTurnError (code : String) : VoiceProg Unit := do
  playErrorEffect
  enterWaitingWake (some code) false

/-- Back to `WAITING_FOLLOWUP` before the deadline, else to `WAITING_WAKE`. -/
def resumeFollowup (originalFollowupDeadline : Option ℚ) : VoiceProg Unit := do
  let now ← monotonic
  if originalFollowupDeadline.any (now < ·) then transition .waitingFollowup none false
  else enterWaitingWake none false

/-- `_recover_empty_transcript(original_followup_deadline)` -/
def recoverEmptyTranscript (originalFollowupDeadline : Option ℚ) : VoiceProg Unit := do
  playErrorEffect
  discardPending
  setAccepting true
  resumeFollowup originalFollowupDeadline

/-- `_return_after_empty_recording(trigger, end, original_followup_deadline)` -/
def returnAfterEmptyRecording (trigger : RecordingTrigger)
    (originalFollowupDeadline : Option ℚ) : VoiceProg Unit :=
  match trigger with
  | .followup => resumeFollowup originalFollowupDeadline
  | .wakeWord => enterWaitingWake none false

/-- `_open_followup_window` -/
def openFollowupWindow : VoiceProg Unit := do
  let timeout := settings.followupTimeoutSeconds
  let now ← monotonic
  modify fun s => { s with followupDeadline := some (Ieee.double (now + timeout)) }
  let utc ← (Prog.reading : VoiceProg ℚ)
  modify fun s => { s with followupExpiresAt := some (utc + timeout) }
  modify fun s => s.transition .waitingFollowup (some (utc + timeout)) none true

/-- `_after_successful_playback(next_action)` -/
def afterSuccessfulPlayback (nextAction : AssistantNextAction) : VoiceProg Unit := do
  setAccepting false
  discardPending
  let _ ← await (.sleep settings.postPlaybackGuardSeconds)
  discardPending
  if settings.followupEnabled && nextAction = .waitForFollowup then do
    setAccepting true
    openFollowupWindow settings
  else enterWaitingWake none true

/-- `try: value = await call; except OpenAiTurnError: ...; return`, and what follows. -/
def turnStep (call : VoiceCall) (next : VoiceValue → VoiceProg Unit) : VoiceProg Unit := do
  let r ← (await call >>= fun v => pure (Except.ok v)).attempt fun e =>
    match e with
    | .turn code => pure (Except.error code)
    | e => raise e
  match r with
  | .ok v => next v
  | .error code => recoverTurnError code

def speak : VoiceValue → VoiceProg Unit
  | .replied reply => do
      transition .speaking none false
      turnStep (.playSpeech reply.spokenText) fun _ =>
        afterSuccessfulPlayback settings reply.nextAction
  | _ => pure ()

def processTranscript (originalFollowupDeadline : Option ℚ) : VoiceValue → VoiceProg Unit
  | .text value =>
      let transcript := normalizeText nfkc value
      if transcript = [] then recoverEmptyTranscript originalFollowupDeadline
      else turnStep (.reply transcript) (speak settings)
  | _ => pure ()

/-- `_run_turn` after the recording. -/
def processRecording (r : RecordLoop) (utterance : Option AudioUtterance) : VoiceProg Unit :=
  match utterance with
  | none => returnAfterEmptyRecording r.trigger r.originalFollowupDeadline
  | some utterance => do
      setAccepting false
      discardPending
      transition .processing none false
      turnStep (.transcribe utterance)
        (processTranscript settings nfkc r.originalFollowupDeadline)

/-- The acknowledgement of the wake word. -/
def acknowledge : RecordingTrigger → VoiceProg Unit
  | .followup => pure ()
  | .wakeWord => do
      setAccepting false
      discardPending
      let _ ← await (.playEffect .acknowledgement)
      discardPending
      setAccepting true

/-- `_run_turn(trigger, initial_chunks, initial_above_threshold_frames,
original_followup_deadline)` up to the recording. -/
def runTurn (trigger : RecordingTrigger) (initialChunks : List AudioChunk)
    (initialAboveThresholdFrames : ℕ) (originalFollowupDeadline : Option ℚ) : VoiceProg Unit := do
  transition .recording none false
  acknowledge trigger
  let started ← monotonic
  let speechStartDeadline :=
    match trigger with
    | .followup => originalFollowupDeadline
    | .wakeWord => some (Ieee.double (started + settings.speechStartTimeoutSeconds))
  match speechStartDeadline with
  | none => raise (.fatal "followup_deadline_missing")
  | some deadline =>
      goto (.record
        { trigger := trigger
          originalFollowupDeadline := originalFollowupDeadline
          speechStartDeadline := deadline
          state := settings.recorder.initial initialChunks initialAboveThresholdFrames })

/-- The recorder has started a recording. -/
def speechStarted (r : RecordLoop) : Bool :=
  match r.state with
  | .detecting _ => false
  | .recording _ => true

/-- A round of `record`. -/
def record (r : RecordLoop) : VoiceProg Unit := do
  let now ← monotonic
  if RmsRecorder.expired r.speechStartDeadline now r.state then do
    processRecording settings nfkc r none
    goto .run
  else do
    let chunk ← read (.recorder r.trigger (speechStarted r))
    match settings.recorder.round r.state chunk with
    | .continue state => goto (.record { r with state := state })
    | .return result => do
        processRecording settings nfkc r result.1
        goto .run

/-- A round of `_wait_for_followup_candidate`, and what `_run` does with its result. -/
def followup (deadline : ℚ) (preroll : List AudioChunk) : VoiceProg Unit := do
  let now ← monotonic
  -- The float difference has the sign of the exact one.
  if deadline - now ≤ 0 then do
    enterWaitingWake none false
    goto .run
  else do
    let chunk ← read .followup
    match chunk with
    | none => do
        enterWaitingWake none false
        goto .run
    | some c =>
        let preroll := (preroll ++ [c]).rtake settings.prerollFrames
        if settings.silenceRmsThreshold ≤ calculateRms c.pcm then do
          let original ← gets (·.followupDeadline)
          runTurn settings .followup preroll 1 original
        else goto (.followup deadline preroll)

/-- `WAITING_WAKE` in `_run`. -/
def waitForWakeWord : VoiceProg Unit := do
  let chunk ← read .wake
  match chunk with
  | none => goto .run
  | some c => do
      let v ← await (.wakewordDetect c.pcm)
      if v = .detected true then runTurn settings .wakeWord [] 0 none else goto .run

/-- `WAITING_FOLLOWUP` in `_run`. -/
def waitForFollowup : VoiceProg Unit := do
  let deadline ← gets (·.followupDeadline)
  match deadline with
  | none => raise (.fatal "followup_deadline_missing")
  | some d => goto (.followup d [])

/-- The loop of `_run`. -/
def run : VoiceProg Unit := do
  let stopping ← gets (·.stopping)
  if stopping then pure ()
  else do
    let state ← gets (·.state)
    match state with
    | .waitingWake => waitForWakeWord settings
    | .waitingFollowup => waitForFollowup
    | _ => raise (.fatal "voice_state_invalid")

end Main

end VoiceProg

/-! ## The system -/

/-- What a call does before it waits. -/
def VoiceVars.begin (s : VoiceVars) (c : VoiceCall) : VoiceVars :=
  let s := { s with
    clock := none
    drained := match c with
      | .sleep _ => s.drained
      | _ => false }
  match c with
  | .audioStop => s.stopAudio
  | .playEffect _ => { s with playing := true }
  | .playSpeech _ => { s with playing := true }
  | .wakewordDetect _ => { s with wakewordReset := false }
  | _ => s

/-- A frame as an `AudioChunk`. -/
def Frame.chunk (f : Frame) : Option AudioChunk :=
  if h : f.pcm.length = inputFrameBytes ∧ 0 ≤ f.capturedAt then
    some ⟨f.pcm, f.capturedAt, h.1, h.2⟩
  else none

/-- The end of a call. -/
def VoiceVars.answer (c : VoiceCall) (a : VoiceAnswer) (s : VoiceVars) :
    Option (Except VoiceError VoiceValue × VoiceVars) :=
  let silent := { s with playing := false }
  match c, a with
  | _, .raised e => some (.error e, silent)
  | _, .cancelled => if s.cancelRequested then some (.error .cancelled, silent) else none
  | .read _, .chunk =>
      match s.audio.queue with
      | [] => none
      | f :: _ => f.chunk.map fun c => (.ok (.chunk c), { s with audio := s.audio.get 0 })
  | .wakewordDetect _, .detected hit => some (.ok (.detected hit), s)
  | .transcribe _, .text value => some (.ok (.text value), s)
  | .reply _, .replied reply => some (.ok (.replied reply), s)
  | .playSpeech _, .returned => some (.ok .none, { silent with drained := true })
  | .audioStart, .returned => some (.ok .none, s.startAudio)
  | .read _, _ => none
  | .wakewordDetect _, _ => none
  | .transcribe _, _ => none
  | .reply _, _ => none
  | _, .returned => some (.ok .none, silent)
  | _, _ => none

/-- An event.  The event loop runs other calls only while the service waits, or is not running. -/
def VoiceVars.disturb (settings : VoiceSettings) (mode : Mode) (e : VoiceEvent) (s : VoiceVars) :
    Option VoiceVars :=
  match e with
  | .tick seconds => if 0 ≤ seconds then some { s with now := s.now + seconds } else none
  | .callback pcm capturedAt inputOverflow =>
      some (s.callback (mode ≠ .running) pcm capturedAt inputOverflow)
  | .callbackFails =>
      some { s with audio := { s.audio with callbackErrors := s.audio.callbackErrors + 1 } }
  | .enqueueFromLoop =>
      if mode = .running then none
      else
        match s.audio.deferred with
        | [] => none
        | d :: rest =>
            some { s with audio :=
              { s.audio with deferred := rest }.enqueueFromLoop settings.inputQueueFrames d }
  | .stop =>
      if mode = .waiting ∧ s.mainTask = true then some { s.beginStop with cancelRequested := true }
      else none
  | .cancel => if mode = .waiting then some { s with cancelRequested := true } else none

/-- What an event does. -/
inductive Happens (settings : VoiceSettings) (mode : Mode) (s : VoiceVars) : VoiceVars → Prop where
  | tick (seconds : ℚ) : Happens settings mode s { s with now := s.now + seconds }
  | callback (pcm : List UInt8) (capturedAt : ℚ) (inputOverflow : Bool) :
      Happens settings mode s (s.callback (mode ≠ .running) pcm capturedAt inputOverflow)
  | callbackFails : Happens settings mode s
      { s with audio := { s.audio with callbackErrors := s.audio.callbackErrors + 1 } }
  | enqueueFromLoop {d : Deferred} {rest : List Deferred} (hmode : mode ≠ .running)
      (hdeferred : s.audio.deferred = d :: rest) : Happens settings mode s
      { s with audio :=
        { s.audio with deferred := rest }.enqueueFromLoop settings.inputQueueFrames d }
  | stop (hmode : mode = .waiting) (hmain : s.mainTask = true) :
      Happens settings mode s { s.beginStop with cancelRequested := true }
  | cancel (hmode : mode = .waiting) : Happens settings mode s { s with cancelRequested := true }

theorem happens_of_disturb {settings : VoiceSettings} {mode : Mode} {e : VoiceEvent}
    {s s' : VoiceVars} (h : s.disturb settings mode e = some s') : Happens settings mode s s' := by
  cases e with
  | tick seconds =>
    simp only [VoiceVars.disturb] at h
    split at h
    · cases h
      exact .tick seconds
    · cases h
  | callback pcm capturedAt inputOverflow =>
    cases h
    exact .callback pcm capturedAt inputOverflow
  | callbackFails =>
    cases h
    exact .callbackFails
  | enqueueFromLoop =>
    simp only [VoiceVars.disturb] at h
    split at h
    · cases h
    · next hmode =>
      split at h
      · cases h
      · next hdeferred =>
        cases h
        exact .enqueueFromLoop hmode hdeferred
  | stop =>
    simp only [VoiceVars.disturb] at h
    split at h
    · next hmain =>
      cases h
      exact .stop hmain.1 hmain.2
    · cases h
  | cancel =>
    simp only [VoiceVars.disturb] at h
    split at h
    · next hmode =>
      cases h
      exact .cancel hmode
    · cases h

/-- A call that returns nothing and starts nothing. -/
def VoiceCall.isSilent : VoiceCall → Bool
  | .read _ | .wakewordDetect _ | .transcribe _ | .reply _ | .playSpeech _ | .audioStart => false
  | _ => true

/-- What the end of a call does. -/
inductive Completes (s : VoiceVars) :
    VoiceCall → VoiceAnswer → Except VoiceError VoiceValue → VoiceVars → Prop where
  | raised (c : VoiceCall) (e : VoiceError) :
      Completes s c (.raised e) (.error e) { s with playing := false }
  | cancelled (c : VoiceCall) (hrequested : s.cancelRequested = true) :
      Completes s c .cancelled (.error .cancelled) { s with playing := false }
  | chunk (reader : Reader) (chunk : AudioChunk) :
      Completes s (.read reader) .chunk (.ok (.chunk chunk)) { s with audio := s.audio.get 0 }
  | detected (pcm : List UInt8) (hit : Bool) :
      Completes s (.wakewordDetect pcm) (.detected hit) (.ok (.detected hit)) s
  | text (utterance : AudioUtterance) (value : PyStr) :
      Completes s (.transcribe utterance) (.text value) (.ok (.text value)) s
  | replied (transcript : PyStr) (reply : AssistantReply) :
      Completes s (.reply transcript) (.replied reply) (.ok (.replied reply)) s
  | spoken (spokenText : PyStr) : Completes s (.playSpeech spokenText) .returned (.ok .none)
      { s with playing := false, drained := true }
  | started : Completes s .audioStart .returned (.ok .none) s.startAudio
  | silent {c : VoiceCall} (hc : c.isSilent = true) :
      Completes s c .returned (.ok .none) { s with playing := false }

theorem completes_of_answer {c : VoiceCall} {a : VoiceAnswer} {s t : VoiceVars}
    {r : Except VoiceError VoiceValue} (h : VoiceVars.answer c a s = some (r, t)) :
    Completes s c a r t := by
  cases a with
  | raised e =>
    cases c <;> (cases h; exact .raised _ e)
  | cancelled =>
    have hanswer : VoiceVars.answer c .cancelled s = if s.cancelRequested then
        some (.error .cancelled, { s with playing := false }) else none := by
      cases c <;> rfl
    rw [hanswer] at h
    split at h
    · next hrequested =>
      cases h
      exact .cancelled c hrequested
    · cases h
  | chunk =>
    cases c with
    | read reader =>
      simp only [VoiceVars.answer] at h
      split at h
      · cases h
      · obtain ⟨chunk, -, heq⟩ := Option.map_eq_some_iff.mp h
        cases heq
        exact .chunk reader chunk
    | _ => cases h
  | detected hit =>
    cases c with
    | wakewordDetect pcm =>
      cases h
      exact .detected pcm hit
    | _ => cases h
  | text value =>
    cases c with
    | transcribe utterance =>
      cases h
      exact .text utterance value
    | _ => cases h
  | replied reply =>
    cases c with
    | reply transcript =>
      cases h
      exact .replied transcript reply
    | _ => cases h
  | returned =>
    cases c with
    | read reader => cases h
    | wakewordDetect pcm => cases h
    | transcribe utterance => cases h
    | reply transcript => cases h
    | playSpeech spokenText =>
      cases h
      exact .spoken spokenText
    | audioStart =>
      cases h
      exact .started
    | _ =>
      cases h
      exact .silent rfl

/-- `start` and `stop` are not called during one another. -/
def VoiceVars.callable : VoiceHead → VoiceVars → Bool
  | .start, s => !s.stopCalled
  | .stop, s => !s.stopCalled
  | .stopTail, s => s.stopCalled
  | _, _ => false

def voiceService (settings : VoiceSettings) (nfkc : PyStr → PyStr) : System VoiceSignature where
  body
    | .start => VoiceProg.start
    | .stop => VoiceProg.stop
    | .stopTail => VoiceProg.stopTail
    | .main needsStart => VoiceProg.main needsStart
    | .supervise needsStart => VoiceProg.supervise needsStart
    | .run => VoiceProg.supervised (VoiceProg.run settings)
    | .followup deadline preroll =>
        VoiceProg.supervised (VoiceProg.followup settings deadline preroll)
    | .record r => VoiceProg.supervised (VoiceProg.record settings nfkc r)
  begin := fun c s => s.begin c
  answer := VoiceVars.answer
  disturb := VoiceVars.disturb settings
  callable := VoiceVars.callable

end SmartDesk.Voice
