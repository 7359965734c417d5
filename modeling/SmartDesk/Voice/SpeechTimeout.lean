import SmartDesk.Lib.Script

/-!
# A deadline inside a generator

`OpenAiGateway.synthesize` of `modules/assistant/openai.py` and `play_speech` of
`modules/voice/playback.py` take turns in one task.  The generator is inside of `asyncio.timeout`,
also while it is suspended at `yield`: its deadline cancels the task wherever it waits.  What the
SDK and the speaker do is not modelled; the speaker passes a cancellation on, the SDK need not.

* `SpeechProg.fetch` — the generator up to its next `yield`, and what is done with the chunk.
* `speech` — the two of them; the deadline is the only event.
* `Suspended`, `Caught` — where the generator stands, and what `play_speech` catches.
* `escapes_iff` — **the deadline leaves `play_speech` as a `CancelledError` if and only if it meets
  a write and the abort behind it succeeds, or it meets the abort behind a failed write.**
-/

namespace SmartDesk.Voice

open Script

/-! ## Data -/

inductive SpeechError where
  | cancelled
  /-- `TimeoutError` -/
  | timeout
  /-- `OpenAiTurnError(stage="tts", code=code)` -/
  | turn (code : String)
  | valueError
  /-- A `VoiceFatalError`, or any other exception. -/
  | other (n : ℕ)
  deriving DecidableEq

/-- What the task waits for: the output lock, the SDK, the speaker. -/
inductive SpeechCall where
  | lock
  | connect
  | next
  | close
  | write (pcm : List UInt8)
  | drain
  | abort
  deriving DecidableEq

inductive SpeechValue where
  | none
  | chunk (bytes : List UInt8)

inductive SpeechAnswer where
  | returned
  | chunk (bytes : List UInt8)
  | exhausted
  | raised (e : SpeechError)
  deriving DecidableEq

/-- A call of the SDK. -/
def SpeechCall.sdk : SpeechCall → Bool
  | .connect | .next | .close => true
  | _ => false

/-- `asyncio.timeout`, and the cancellation that it asks for. -/
structure SpeechVars where
  /-- `_started` and not `_stopping` -/
  playable : Bool := true
  begun : Bool := false
  entered : Bool := false
  /-- The deadline has passed since. -/
  expiring : Bool := false
  /-- The call that is waited for does not know yet. -/
  cancelling : Bool := false
  /-- The call that the deadline has met. -/
  hit : Option SpeechCall := none
  abortFailed : Bool := false
  deriving DecidableEq

inductive SpeechHead where
  | play
  | start
  | fetch (remainder : List UInt8)

abbrev SpeechSignature : Signature where
  Vars := SpeechVars
  Reading := Unit
  Call := SpeechCall
  Value := SpeechValue
  Answer := SpeechAnswer
  Err := SpeechError
  Head := SpeechHead
  Event := Unit

abbrev SpeechProg (α : Type) : Type := Prog SpeechSignature α

/-! ## The two programs -/

namespace SpeechProg

def modify (f : SpeechVars → SpeechVars) : SpeechProg Unit := Prog.modify f

def gets {α : Type} (f : SpeechVars → α) : SpeechProg α := Prog.gets f

def await (c : SpeechCall) : SpeechProg SpeechValue := Prog.await c

def raise {α : Type} (e : SpeechError) : SpeechProg α := Prog.raise e

def goto (h : SpeechHead) : SpeechProg Unit := Prog.goto h

/-- `except asyncio.CancelledError`, `except Exception` of `play_speech`. -/
def aborting (body : SpeechProg Unit) : SpeechProg Unit :=
  body.attempt fun e => do
    let _ ← await .abort
    raise e

/-- The end of `asyncio.timeout`. -/
def leave : SpeechProg Unit := modify fun s => { s with entered := false, expiring := false }

/-- What the `except` clauses of the generator make of an exception. -/
def turnError : SpeechError → SpeechError
  | .cancelled => .cancelled
  | .timeout => .turn "tts_timeout"
  | .turn code => .turn code
  | _ => .turn "tts_stream_failed"

/-- The end of `asyncio.timeout` for an exception: its own cancellation becomes a `TimeoutError`. -/
def guarded {α : Type} (body : SpeechProg α) : SpeechProg α :=
  body.attempt fun e => do
    let expiring ← gets (·.expiring)
    leave
    raise (turnError (if expiring && e = .cancelled then .timeout else e))

/-- The end of the response for an exception. -/
def closing {α : Type} (body : SpeechProg α) : SpeechProg α :=
  body.attempt fun e => do
    let _ ← await .close
    raise e

/-- `play_speech(chunks)` up to the first chunk. -/
def play : SpeechProg Unit := do
  modify fun s => { s with begun := true }
  let playable ← gets (·.playable)
  if playable then
    aborting do
      let _ ← await .lock
      goto .start
  else raise (.other 0)

/-- The generator up to `async for`. -/
def start : SpeechProg Unit :=
  aborting do
    modify fun s => { s with entered := true }
    guarded do
      let _ ← await .connect
    goto (.fetch [])

/-- A chunk of the generator. -/
def consume (remainder chunk : List UInt8) : SpeechProg Unit := do
  let combined := remainder ++ chunk
  let alignedLength := combined.length - combined.length % 2
  if alignedLength ≠ 0 then do
    let _ ← await (.write (combined.take alignedLength))
    goto (.fetch (combined.drop alignedLength))
  else goto (.fetch (combined.drop alignedLength))

/-- The end of the generator, and of `play_speech`. -/
def finish (remainder : List UInt8) : SpeechProg Unit := do
  guarded do
    let _ ← await .close
  leave
  if remainder = [] then do
    let _ ← await .drain
  else raise .valueError

/-- `async for chunk in response.iter_bytes(...)` -/
def fetch (remainder : List UInt8) : SpeechProg Unit :=
  aborting do
    let v ← guarded (closing (await .next))
    match v with
    | .chunk bytes => if bytes = [] then goto (.fetch remainder) else consume remainder bytes
    | .none => finish remainder

end SpeechProg

/-- The end of a call.  Nobody else cancels the task. -/
def SpeechVars.answer (c : SpeechCall) (a : SpeechAnswer) (s : SpeechVars) :
    Option (Except SpeechError SpeechValue × SpeechVars) :=
  if s.cancelling then
    let s := { s with cancelling := false, hit := some c }
    match c, a with
    | _, .raised .cancelled => some (.error .cancelled, s)
    | c, .raised e => if c.sdk then some (.error e, s) else none
    | .connect, .returned => some (.ok .none, s)
    | .next, .chunk bytes => some (.ok (.chunk bytes), s)
    | .next, .exhausted => some (.ok .none, s)
    | .close, .returned => some (.ok .none, s)
    | _, _ => none
  else
    match c, a with
    | _, .raised .cancelled => none
    | c, .raised e => some (.error e, { s with abortFailed := s.abortFailed || c = .abort })
    | .next, .chunk bytes => some (.ok (.chunk bytes), s)
    | .next, .exhausted => some (.ok .none, s)
    | .next, .returned => none
    | _, .returned => some (.ok .none, s)
    | _, _ => none

/-- The deadline: `_on_timeout` cancels the task, once. -/
def SpeechVars.expire (mode : Mode) (s : SpeechVars) : Option SpeechVars :=
  if mode = .waiting ∧ s.entered = true ∧ s.expiring = false then
    some { s with expiring := true, cancelling := true }
  else none

def speech : System SpeechSignature where
  body
    | .play => SpeechProg.play
    | .start => SpeechProg.start
    | .fetch remainder => SpeechProg.fetch remainder
  begin := fun _ s => s
  answer := SpeechVars.answer
  disturb := fun mode _ s => s.expire mode
  callable
    | .play, s => !s.begun
    | _, _ => false

/-! ## The deadline -/

section Deadline

variable {s t u : SpeechVars} {α β : Type}

/-- The deadline has passed, and the task does not know yet. -/
def SpeechVars.expired (s : SpeechVars) : SpeechVars :=
  { s with expiring := true, cancelling := true }

/-- **Nothing happens to a task that waits, or the deadline**, once. -/
theorem waited (h : Disturbed speech .all .waiting s u) :
    u = s ∨ s.entered = true ∧ s.expiring = false ∧ u = s.expired := by
  refine h.keeps (P := fun u => u = s ∨ s.entered = true ∧ s.expiring = false ∧ u = s.expired)
    ?_ (.inl rfl)
  intro e v w _ hstep hv
  have hexpire : v.expire .waiting = some w := hstep
  simp only [SpeechVars.expire, Option.ite_none_right_eq_some, Option.some.injEq] at hexpire
  obtain ⟨⟨-, hentered, hexpiring⟩, rfl⟩ := hexpire
  rcases hv with rfl | ⟨-, -, rfl⟩
  · exact .inr ⟨hentered, hexpiring, rfl⟩
  · cases hexpiring

theorem uninterrupted_speech : Uninterrupted speech := fun _ _ => rfl

/-- A call that nobody has cancelled. -/
theorem answer_calm {c : SpeechCall} {a : SpeechAnswer} {r : Except SpeechError SpeechValue}
    (hs : s.cancelling = false) (h : SpeechVars.answer c a s = some (r, t)) :
    (∃ v, r = .ok v ∧ t = s) ∨
      ∃ e, e ≠ .cancelled ∧ r = .error e ∧
        t = { s with abortFailed := s.abortFailed || c = .abort } := by
  unfold SpeechVars.answer at h
  rw [if_neg (by rw [hs]; decide)] at h
  split at h
  · cases h
  · next e he =>
    cases h
    exact .inr ⟨e, fun hcancelled => he (by rw [hcancelled]), rfl, rfl⟩
  all_goals cases h
  all_goals exact .inl ⟨_, rfl, rfl⟩

/-- What is left of a cancellation that a call has met. -/
def SpeechVars.met (c : SpeechCall) (s : SpeechVars) : SpeechVars :=
  { s with cancelling := false, hit := some c }

/-- A cancelled call: the speaker passes the cancellation on. -/
theorem answer_cancelled {c : SpeechCall} {a : SpeechAnswer}
    {r : Except SpeechError SpeechValue} (hs : s.cancelling = true)
    (h : SpeechVars.answer c a s = some (r, t)) :
    t = s.met c ∧ (r = .error .cancelled ∨ c.sdk = true) := by
  unfold SpeechVars.answer at h
  rw [if_pos hs] at h
  dsimp only at h
  split at h
  · cases h
    exact ⟨rfl, .inl rfl⟩
  · split at h
    · next hsdk =>
      cases h
      exact ⟨rfl, .inr hsdk⟩
    · cases h
  all_goals cases h
  all_goals exact ⟨rfl, .inr rfl⟩

/-! ## Where the generator stands -/

/-- The generator waits, or is suspended; the deadline has met nothing but the SDK. -/
structure Suspended (s : SpeechVars) : Prop where
  begun : s.begun = true
  entered : s.entered = true
  cancelling : s.cancelling = false
  abortFailed : s.abortFailed = false
  expiring : s.expiring = s.hit.isSome
  hit : ∀ c ∈ s.hit, c.sdk = true

/-- The generator has not begun, or it has ended. -/
structure Outside (s : SpeechVars) : Prop where
  begun : s.begun = true
  entered : s.entered = false
  cancelling : s.cancelling = false
  abortFailed : s.abortFailed = false
  hit : ∀ c ∈ s.hit, c.sdk = true

/-- The deadline has met a write. -/
def HitWrite (s : SpeechVars) : Prop := ∃ pcm, s.hit = some (.write pcm)

/-- What `play_speech` catches. -/
structure Caught (e : SpeechError) (s : SpeechVars) : Prop where
  begun : s.begun = true
  cancelling : s.cancelling = false
  abortFailed : s.abortFailed = false
  expiring : s.entered = true → s.expiring = s.hit.isSome
  hit : ∀ c ∈ s.hit, c.sdk = true ∨ HitWrite s
  cancelled : e = .cancelled ↔ HitWrite s

/-- The deadline leaves `play_speech` as a cancellation. -/
def Escapes (s : SpeechVars) : Prop :=
  s.hit = some .abort ∨ HitWrite s ∧ s.abortFailed = false

/-- What a call of `play_speech` ends with. -/
structure SpeechEnded (s : SpeechVars) (r : Except SpeechError Unit) : Prop where
  escapes : r = .error .cancelled ↔ Escapes s
  lock : s.hit ≠ some .lock
  drain : s.hit ≠ some .drain

def speechLaw : Law SpeechSignature where
  act _ _ := True
  begin _ _ := True
  answer _ _ _ := True
  pre
    | .play, s => s = { playable := s.playable }
    | .start, s => Outside s ∧ s.hit = none ∧ s.expiring = false
    | .fetch _, s => Suspended s
  finish s r :=
    if s.begun = true then SpeechEnded s r else r = .ok () ∧ s = { playable := s.playable }

abbrev Contained (p : SpeechProg α) (s : SpeechVars)
    (Q : SpeechVars → Except SpeechError α → Prop) : Prop := Safe speech .all speechLaw p s Q

theorem HitWrite.not_sdk (h : HitWrite s) : ¬ ∀ c ∈ s.hit, c.sdk = true := by
  obtain ⟨pcm, hpcm⟩ := h
  exact fun hall => by cases hall (.write pcm) hpcm

theorem Suspended.caught {e : SpeechError} (h : Suspended s) (he : e ≠ .cancelled) :
    Caught e s where
  begun := h.begun
  cancelling := h.cancelling
  abortFailed := h.abortFailed
  expiring := fun _ => h.expiring
  hit := fun c hc => .inl (h.hit c hc)
  cancelled := iff_of_false he fun hwrite => hwrite.not_sdk h.hit

theorem Outside.caught {e : SpeechError} (h : Outside s) (he : e ≠ .cancelled) :
    Caught e s where
  begun := h.begun
  cancelling := h.cancelling
  abortFailed := h.abortFailed
  expiring := fun hentered => absurd (h.entered.symm.trans hentered) (by decide)
  hit := fun c hc => .inl (h.hit c hc)
  cancelled := iff_of_false he fun hwrite => hwrite.not_sdk h.hit

/-! ## The generator -/

/-- Inside of the generator: a cancellation is the one of the deadline. -/
def Inside (s t : SpeechVars) (r : Except SpeechError α) : Prop :=
  Suspended t ∧ (s.expiring = true → t.expiring = true) ∧
    (r = .error .cancelled → t.expiring = true)

theorem contained_sdk {c : SpeechCall} (hc : c.sdk = true) (hs : Suspended s) :
    Contained (SpeechProg.await c) s (Inside s) := by
  refine safe_call uninterrupted_speech trivial fun u hu a r t _ hr => ⟨trivial, ?_⟩
  have hwaited : u = s ∨ s.entered = true ∧ s.expiring = false ∧ u = s.expired := waited hu
  rcases hwaited with rfl | ⟨-, -, rfl⟩
  · rcases answer_calm hs.cancelling hr with ⟨v, rfl, rfl⟩ | ⟨e, he, rfl, rfl⟩
    · exact ⟨hs, id, fun h => by cases h⟩
    · have hnever : (u.abortFailed || decide (c = .abort)) = false := by
        rw [hs.abortFailed, Bool.false_or]
        exact decide_eq_false fun h => by rw [h] at hc; cases hc
      exact ⟨⟨hs.begun, hs.entered, hs.cancelling, hnever, hs.expiring, hs.hit⟩, id,
        fun h => absurd (Except.error.inj h) he⟩
  · obtain ⟨rfl, -⟩ := answer_cancelled (s := s.expired) rfl hr
    refine ⟨⟨hs.begun, hs.entered, rfl, hs.abortFailed, rfl, ?_⟩, fun _ => rfl, fun _ => rfl⟩
    rintro c' ⟨⟩
    exact hc

theorem contained_closing {body : SpeechProg α} (h : Contained body s (Inside s)) :
    Contained (SpeechProg.closing body) s (Inside s) := by
  refine safe_attempt.mpr (h.mono fun t r ht => ?_)
  cases r with
  | ok v => exact ht
  | error e =>
    refine safe_bind.mpr ((contained_sdk rfl ht.1).mono fun u r hu => ?_)
    have hlater := fun h => hu.2.1 (ht.2.1 h)
    cases r with
    | ok v => exact ⟨hu.1, hlater, fun he => hu.2.1 (ht.2.2 he)⟩
    | error e' => exact ⟨hu.1, hlater, fun he => hu.2.2 (by rw [Except.error.inj he])⟩

/-- **No cancellation leaves the generator while it runs.** -/
theorem contained_guarded {body : SpeechProg α} (h : Contained body s (Inside s)) :
    Contained (SpeechProg.guarded body) s fun t r =>
      (∃ v, r = .ok v ∧ Suspended t) ∨ ∃ e, r = .error e ∧ e ≠ .cancelled ∧ Outside t := by
  refine safe_attempt.mpr (h.mono fun t r ht => ?_)
  cases r with
  | ok v => exact .inl ⟨v, rfl, ht.1⟩
  | error e =>
    refine safe_gets uninterrupted_speech (safe_bind.mpr (safe_modify uninterrupted_speech trivial
      (.inr ⟨_, rfl, ?_, ht.1.begun, rfl, ht.1.cancelling, ht.1.abortFailed, ht.1.hit⟩)))
    cases e with
    | cancelled =>
      rw [ht.2.2 rfl]
      decide
    | _ => simp [SpeechProg.turnError]

/-! ## The consumer -/

/-- What `play_speech` gets to where it catches exceptions. -/
def Body (t : SpeechVars) (r : Except SpeechError Unit) : Prop :=
  (r = .ok () ∧ Outside t) ∨ ∃ e, r = .error e ∧ Caught e t

theorem Caught.not_abort {e : SpeechError} (h : Caught e s) : s.hit ≠ some .abort := by
  intro hhit
  rcases h.hit .abort hhit with hsdk | ⟨pcm, hpcm⟩
  · cases hsdk
  · rw [hhit] at hpcm
    cases hpcm

/-- Neither the lock nor the drain is ever met. -/
theorem not_met {c : SpeechCall} (hall : ∀ c ∈ s.hit, c.sdk = true ∨ HitWrite s)
    (hsdk : c.sdk = false) (hwrite : ∀ pcm, c ≠ .write pcm) : s.hit ≠ some c := by
  intro hhit
  rcases hall c hhit with h | ⟨pcm, hpcm⟩
  · exact absurd (hsdk.symm.trans h) (by decide)
  · rw [hhit] at hpcm
    exact hwrite pcm (Option.some.inj hpcm)

/-- **The exception that `play_speech` catches comes out of it**, unless the abort fails. -/
theorem contained_aborting {body : SpeechProg Unit} (h : Contained body s Body) :
    Contained (SpeechProg.aborting body) s fun t r => t.begun = true ∧ SpeechEnded t r := by
  refine safe_attempt.mpr (h.mono fun t r ht => ?_)
  rcases ht with ⟨rfl, ht⟩ | ⟨e, rfl, ht⟩
  · have hall : ∀ c ∈ t.hit, c.sdk = true ∨ HitWrite t := fun c hc => .inl (ht.hit c hc)
    refine ⟨ht.begun, iff_of_false (fun h => by cases h) ?_, not_met hall rfl (by nofun),
      not_met hall rfl (by nofun)⟩
    rintro (habort | ⟨hwrite, -⟩)
    · exact not_met hall rfl (by nofun) habort
    · exact hwrite.not_sdk ht.hit
  · refine safe_bind.mpr (safe_call uninterrupted_speech trivial fun u hu a r v _ hr =>
      ⟨trivial, ?_⟩)
    have hwaited : u = t ∨ t.entered = true ∧ t.expiring = false ∧ u = t.expired := waited hu
    have hlock := not_met (c := .lock) ht.hit rfl (by nofun)
    have hdrain := not_met (c := .drain) ht.hit rfl (by nofun)
    rcases hwaited with rfl | ⟨hentered, hexpiring, rfl⟩
    · rcases answer_calm ht.cancelling hr with ⟨v, rfl, rfl⟩ | ⟨e', he', rfl, rfl⟩
      · refine ⟨ht.begun, ?_, hlock, hdrain⟩
        rw [Except.error.injEq, ht.cancelled]
        refine ⟨fun h => .inr ⟨h, ht.abortFailed⟩, fun h => ?_⟩
        exact (h.resolve_left ht.not_abort).1
      · refine ⟨ht.begun, iff_of_false (fun h => he' (Except.error.inj h)) ?_, hlock, hdrain⟩
        rintro (habort | ⟨-, hfailed⟩)
        · exact ht.not_abort habort
        · simp at hfailed
    · obtain ⟨rfl, hcancelled⟩ := answer_cancelled (s := t.expired) rfl hr
      obtain rfl := hcancelled.resolve_right (by decide)
      exact ⟨ht.begun, iff_of_true rfl (.inl rfl), by nofun, by nofun⟩

/-- A call of `play_speech` with no generator around it. -/
theorem contained_outside {c : SpeechCall} (hc : c ≠ .abort) (hs : Outside s) :
    Contained (SpeechProg.await c) s fun t r =>
      (∃ v, r = .ok v) ∧ t = s ∨ ∃ e, r = .error e ∧ Caught e t := by
  refine safe_call uninterrupted_speech trivial fun u hu a r t _ hr => ⟨trivial, ?_⟩
  have hwaited : u = s ∨ s.entered = true ∧ s.expiring = false ∧ u = s.expired := waited hu
  rcases hwaited with rfl | ⟨hentered, -, -⟩
  · rcases answer_calm hs.cancelling hr with ⟨v, rfl, rfl⟩ | ⟨e, he, rfl, rfl⟩
    · exact .inl ⟨⟨v, rfl⟩, rfl⟩
    · rw [decide_eq_false hc, Bool.or_false]
      exact .inr ⟨e, rfl, hs.caught he⟩
  · exact absurd (hs.entered.symm.trans hentered) (by decide)

/-- **A write can meet the deadline**, and then it raises `CancelledError`. -/
theorem contained_write {pcm : List UInt8} (hs : Suspended s) :
    Contained (SpeechProg.await (.write pcm)) s fun t r =>
      (∃ v, r = .ok v ∧ Suspended t) ∨ ∃ e, r = .error e ∧ Caught e t := by
  refine safe_call uninterrupted_speech trivial fun u hu a r t _ hr => ⟨trivial, ?_⟩
  have hwaited : u = s ∨ s.entered = true ∧ s.expiring = false ∧ u = s.expired := waited hu
  rcases hwaited with rfl | ⟨-, -, rfl⟩
  · rcases answer_calm hs.cancelling hr with ⟨v, rfl, rfl⟩ | ⟨e, he, rfl, rfl⟩
    · exact .inl ⟨v, rfl, hs⟩
    · rw [show (u.abortFailed || decide (SpeechCall.write pcm = .abort)) = u.abortFailed by simp]
      exact .inr ⟨e, rfl, hs.caught he⟩
  · obtain ⟨rfl, hcancelled⟩ := answer_cancelled (s := s.expired) rfl hr
    obtain rfl := hcancelled.resolve_right (fun h => by cases h)
    have hwrite : HitWrite (s.expired.met (.write pcm)) := ⟨pcm, rfl⟩
    exact .inr ⟨.cancelled, rfl, hs.begun, rfl, hs.abortFailed, fun _ => rfl,
      fun _ _ => .inr hwrite, iff_of_true rfl hwrite⟩

/-! ## The heads -/

theorem finish_of_begun {r : Except SpeechError Unit} (h : s.begun = true ∧ SpeechEnded s r) :
    speechLaw.finish s r := by
  show if s.begun = true then SpeechEnded s r else r = .ok () ∧ s = { playable := s.playable }
  rw [if_pos h.1]
  exact h.2

theorem fresh_of_finish {r : Except SpeechError Unit} (h : speechLaw.finish s r)
    (hbegun : s.begun = false) : r = .ok () ∧ s = { playable := s.playable } := by
  have hfinish : if s.begun = true then SpeechEnded s r else r = .ok () ∧
      s = { playable := s.playable } := h
  rwa [if_neg (by rw [hbegun]; decide)] at hfinish

theorem ended_of_finish {r : Except SpeechError Unit} (h : speechLaw.finish s r) :
    SpeechEnded s r := by
  cases hbegun : s.begun with
  | true =>
    have hfinish : if s.begun = true then SpeechEnded s r else r = .ok () ∧
        s = { playable := s.playable } := h
    rwa [if_pos hbegun] at hfinish
  | false =>
    obtain ⟨rfl, hs⟩ := fresh_of_finish h hbegun
    rw [hs]
    refine ⟨iff_of_false (fun h => by cases h) ?_, by nofun, by nofun⟩
    rintro (habort | ⟨⟨pcm, hpcm⟩, -⟩)
    · cases habort
    · cases hpcm

theorem contained_body {body : SpeechProg Unit} (h : Contained body s Body) :
    Contained (SpeechProg.aborting body) s speechLaw.finish :=
  (contained_aborting h).mono fun _ _ => finish_of_begun

/-- A call of the SDK whose value is not used. -/
theorem contained_sdk_bind {c : SpeechCall} (hc : c.sdk = true) (hs : Suspended s) :
    Contained (SpeechProg.await c >>= fun _ => pure ()) s (Inside (α := Unit) s) := by
  refine safe_bind.mpr ((contained_sdk hc hs).mono fun t r ht => ?_)
  cases r with
  | ok v => exact ⟨ht.1, ht.2.1, fun h => by cases h⟩
  | error e => exact ⟨ht.1, ht.2.1, fun he => ht.2.2 (by rw [Except.error.inj he])⟩

theorem contained_play (hs : s = { playable := s.playable }) :
    Contained SpeechProg.play s speechLaw.finish := by
  have houtside : Outside { s with begun := true } := by
    rw [hs]
    exact ⟨rfl, rfl, rfl, rfl, by nofun⟩
  have hhit : s.hit = none := by rw [hs]
  have hexpiring : s.expiring = false := by rw [hs]
  refine safe_modify uninterrupted_speech trivial (safe_gets uninterrupted_speech ?_)
  split
  · refine contained_body (safe_bind.mpr ((contained_outside (by decide) houtside).mono
      fun t r ht => ?_))
    rcases ht with ⟨⟨v, rfl⟩, rfl⟩ | ⟨e, rfl, he⟩
    · exact safe_goto uninterrupted_speech ⟨houtside, hhit, hexpiring⟩
    · exact .inr ⟨e, rfl, he⟩
  · refine finish_of_begun ⟨rfl, iff_of_false (fun h => by cases h) ?_, ?_, ?_⟩
    · rintro (habort | ⟨⟨pcm, hpcm⟩, -⟩)
      · cases hhit.symm.trans habort
      · cases hhit.symm.trans hpcm
    · exact fun h => by cases hhit.symm.trans h
    · exact fun h => by cases hhit.symm.trans h

theorem contained_start (hs : Outside s) (hhit : s.hit = none) (hexpiring : s.expiring = false) :
    Contained SpeechProg.start s speechLaw.finish := by
  have hsuspended : Suspended { s with entered := true } :=
    ⟨hs.begun, rfl, hs.cancelling, hs.abortFailed, by rw [hhit]; exact hexpiring, hs.hit⟩
  refine contained_body (safe_modify uninterrupted_speech trivial (safe_bind.mpr
    ((contained_guarded (contained_sdk_bind rfl hsuspended)).mono fun t r ht => ?_)))
  rcases ht with ⟨v, rfl, ht⟩ | ⟨e, rfl, he, ht⟩
  · exact safe_goto uninterrupted_speech ht
  · exact .inr ⟨e, rfl, ht.caught he⟩

theorem contained_consume {remainder chunk : List UInt8} (hs : Suspended s) :
    Contained (SpeechProg.consume remainder chunk) s Body := by
  unfold SpeechProg.consume
  dsimp only
  split
  · refine safe_bind.mpr ((contained_write hs).mono fun t r ht => ?_)
    rcases ht with ⟨v, rfl, ht⟩ | ⟨e, rfl, ht⟩
    · exact safe_goto uninterrupted_speech ht
    · exact .inr ⟨e, rfl, ht⟩
  · exact safe_goto uninterrupted_speech hs

theorem contained_finish {remainder : List UInt8} (hs : Suspended s) :
    Contained (SpeechProg.finish remainder) s Body := by
  refine safe_bind.mpr ((contained_guarded (contained_sdk_bind rfl hs)).mono fun t r ht => ?_)
  rcases ht with ⟨v, rfl, ht⟩ | ⟨e, rfl, he, ht⟩
  · have houtside : Outside { t with entered := false, expiring := false } :=
      ⟨ht.begun, rfl, ht.cancelling, ht.abortFailed, ht.hit⟩
    refine safe_modify uninterrupted_speech trivial ?_
    split
    · refine safe_bind.mpr ((contained_outside (by decide) houtside).mono fun u r hu => ?_)
      rcases hu with ⟨⟨v, rfl⟩, rfl⟩ | ⟨e, rfl, he⟩
      · exact .inl ⟨rfl, houtside⟩
      · exact .inr ⟨e, rfl, he⟩
    · exact .inr ⟨.valueError, rfl, houtside.caught (by decide)⟩
  · exact .inr ⟨e, rfl, ht.caught he⟩

theorem contained_fetch {remainder : List UInt8} (hs : Suspended s) :
    Contained (SpeechProg.fetch remainder) s speechLaw.finish := by
  refine contained_body (safe_bind.mpr ((contained_guarded (contained_closing
    (contained_sdk rfl hs))).mono fun t r ht => ?_))
  rcases ht with ⟨v, rfl, ht⟩ | ⟨e, rfl, he, ht⟩
  · cases v with
    | chunk bytes =>
      dsimp only
      split
      · exact safe_goto uninterrupted_speech ht
      · exact contained_consume ht
    | none => exact contained_finish ht
  · exact .inr ⟨e, rfl, ht.caught he⟩

end Deadline

/-! ## Runs -/

theorem speech_verified : Verified speech .all speechLaw where
  body := by
    intro h s hpre
    cases h with
    | play => exact contained_play hpre
    | start => exact contained_start hpre.1 hpre.2.1 hpre.2.2
    | fetch remainder => exact contained_fetch hpre
  finish := by
    intro e s t r _ hstep
    have hexpire : s.expire .ended = some t := hstep
    simp [SpeechVars.expire] at hexpire
  enter := by
    intro h s t r hcallable hs hdisturbed
    rw [eq_of_running uninterrupted_speech hdisturbed]
    cases h with
    | play =>
      have hbegun : (!s.begun) = true := hcallable
      exact (fresh_of_finish hs ((Bool.not_eq_true' _).mp hbegun)).2
    | _ => cases hcallable

/-- **The deadline leaves `play_speech` as a `CancelledError` if and only if it met a write whose
abort succeeded, or the abort behind a failed write**; it never meets the lock or the drain. -/
theorem escapes_iff {playable : Bool} {ls : List (Label SpeechSignature)}
    {c : Config SpeechSignature}
    (hrun : Transition.exec (step speech) (.idle { playable := playable }) ls = some c)
    (hended : c.mode = .ended) :
    (c.prog = .raise .cancelled ↔ Escapes c.vars) ∧ c.vars.hit ≠ some .lock ∧
      c.vars.hit ≠ some .drain := by
  have hidle : speechLaw.finish { playable := playable } (.ok ()) := ⟨rfl, rfl⟩
  have hkept := kept_of_exec speech_verified hidle (meets_all speech _ ls) hrun
  rcases finish_of_ended hkept hended with ⟨hprog, hfinish⟩ | ⟨e, hprog, hfinish⟩
  · have h := ended_of_finish hfinish
    refine ⟨?_, h.lock, h.drain⟩
    rw [← h.escapes, hprog]
    exact iff_of_false (fun h => by cases h) (fun h => by cases h)
  · have h := ended_of_finish hfinish
    refine ⟨?_, h.lock, h.drain⟩
    rw [← h.escapes, hprog]
    exact ⟨fun h => by cases h; rfl, fun h => by cases h; rfl⟩

/-- A call ends, and the task goes on. -/
def speechAnswered (a : SpeechAnswer) (n : ℕ) : List (Label SpeechSignature) :=
  .answer a :: List.replicate n (.run ())

/-- The deadline passes while the speaker plays the first chunk. -/
def slowSpeaker : List (Label SpeechSignature) :=
  .enter .play :: List.replicate 4 (.run ()) ++ speechAnswered .returned 3 ++
    speechAnswered .returned 2 ++ speechAnswered (.chunk [0, 0]) 1 ++ [.disturb ()] ++
    speechAnswered (.raised .cancelled) 1 ++ [.answer .returned]

/-- The reply is cut off by a `CancelledError`, not by an `OpenAiTurnError`. -/
theorem escapes_slowSpeaker :
    ∃ c, Transition.exec (step speech) (.idle { playable := true }) slowSpeaker = some c ∧
      c.prog = .raise .cancelled ∧ c.vars.hit = some (.write [0, 0]) := by
  have hrun : (Transition.exec (step speech) (.idle { playable := true }) slowSpeaker).map
      (fun c => (c.mode, c.vars.hit, c.vars.abortFailed)) =
        some (.ended, some (.write [0, 0]), false) := by
    decide +kernel
  obtain ⟨c, hc, hread⟩ := Option.map_eq_some_iff.mp hrun
  have hhit : c.vars.hit = some (.write [0, 0]) := congrArg (·.2.1) hread
  have hescapes : Escapes c.vars := .inr ⟨⟨_, hhit⟩, congrArg (·.2.2) hread⟩
  exact ⟨c, hc, (escapes_iff hc (congrArg (·.1) hread)).1.mpr hescapes, hhit⟩

end SmartDesk.Voice
