import SmartDesk.Voice.Service

/-!
# The follow-up window

* `Quiet`, `Waited` — what the events leave alone, between two statements and while the service
  waits.
* `WindowKept`, `windowLaw` — what a statement may do to the deadline and to the two waiting
  states, and when a follow-up read may begin.
* `followup_bounded` — **every step of every run keeps the law of the window.**
-/

namespace SmartDesk.Voice

open PyText Script Assistant

variable {settings : VoiceSettings} {nfkc : PyStr → PyStr} {A : Admits VoiceSignature}

/-! ## Events -/

/-- Between two statements time passes and the callback of the audio thread runs. -/
structure Quiet (s s' : VoiceVars) : Prop where
  state : s'.state = s.state
  deadline : s'.followupDeadline = s.followupDeadline
  clock : s'.clock = s.clock
  queue : s'.audio.queue = s.audio.queue
  accepting : s'.audio.accepting = s.audio.accepting
  wakewordReset : s'.wakewordReset = s.wakewordReset
  drained : s'.drained = s.drained

/-- While the service waits, the calls of the event loop run and a `stop()` can begin. -/
structure Waited (s s' : VoiceVars) : Prop where
  state : s'.state = s.state
  deadline : s'.followupDeadline = s.followupDeadline
  drained : s'.drained = s.drained

theorem Quiet.refl (s : VoiceVars) : Quiet s s := ⟨rfl, rfl, rfl, rfl, rfl, rfl, rfl⟩

theorem Quiet.trans {s t u : VoiceVars} (h : Quiet s t) (h' : Quiet t u) : Quiet s u :=
  ⟨h'.state.trans h.state, h'.deadline.trans h.deadline, h'.clock.trans h.clock,
    h'.queue.trans h.queue, h'.accepting.trans h.accepting,
    h'.wakewordReset.trans h.wakewordReset, h'.drained.trans h.drained⟩

theorem waited_of_disturb {mode : Mode} {e : VoiceEvent} {s s' : VoiceVars}
    (h : s.disturb settings mode e = some s') : Waited s s' := by
  cases happens_of_disturb h <;> exact ⟨rfl, rfl, rfl⟩

theorem quiet_of_disturb {e : VoiceEvent} {s s' : VoiceVars}
    (h : s.disturb settings .running e = some s') : Quiet s s' := by
  cases happens_of_disturb h with
  | tick seconds => exact ⟨rfl, rfl, rfl, rfl, rfl, rfl, rfl⟩
  | callback pcm capturedAt inputOverflow => exact ⟨rfl, rfl, rfl, rfl, rfl, rfl, rfl⟩
  | callbackFails => exact ⟨rfl, rfl, rfl, rfl, rfl, rfl, rfl⟩
  | enqueueFromLoop hmode _ => exact absurd rfl hmode
  | stop hmode _ => cases hmode
  | cancel hmode => cases hmode

theorem quiet_of_disturbed {s s' : VoiceVars}
    (h : Disturbed (voiceService settings nfkc) A .running s s') : Quiet s s' :=
  h.keeps (fun _ _ _ _ hstep hs => hs.trans (quiet_of_disturb hstep)) (.refl s)

theorem waited_of_disturbed {mode : Mode} {s s' : VoiceVars}
    (h : Disturbed (voiceService settings nfkc) A mode s s') : Waited s s' := by
  refine h.keeps (P := Waited s) (fun _ t t' _ hstep hs => ?_) ⟨rfl, rfl, rfl⟩
  have hlast := waited_of_disturb hstep
  exact ⟨hlast.state.trans hs.state, hlast.deadline.trans hs.deadline,
    hlast.drained.trans hs.drained⟩

/-! ## The law -/

/-- The end of a window that is opened at `now`, as a float. -/
def windowEnd (settings : VoiceSettings) (now : ℚ) : ℚ :=
  Ieee.double (now + settings.followupTimeoutSeconds)

/-- A statement sets the deadline only after a reply was played, and enters the two waiting states
only as it should.  The clock is the one that was read since the last await. -/
structure WindowKept (settings : VoiceSettings) (s s' : VoiceVars) : Prop where
  deadline : s'.followupDeadline = s.followupDeadline ∨ s'.followupDeadline = none ∨
    (s.drained = true ∧ ∃ now, s.clock = some now ∧
      s'.followupDeadline = some (windowEnd settings now))
  followup : s.state ≠ .waitingFollowup → s'.state = .waitingFollowup →
    ∃ now d, s'.clock = some now ∧ s'.followupDeadline = some d ∧
      (now < d ∨ (s.drained = true ∧ d = windowEnd settings now))
  wake : s.state ≠ .waitingWake → s'.state = .waitingWake →
    s'.followupDeadline = none ∧ s'.audio.queue = [] ∧ s'.audio.accepting = true ∧
      s'.wakewordReset = true

/-- A read for a follow-up before speech has started. -/
def Reader.awaitsFollowup : Reader → Bool
  | .followup => true
  | .recorder .followup false => true
  | _ => false

/-- The deadline had not passed when the clock was read, and nothing was awaited since. -/
def VoiceVars.Open (s : VoiceVars) : Prop :=
  ∃ now d, s.clock = some now ∧ s.followupDeadline = some d ∧ now < d

def windowLaw (settings : VoiceSettings) : Law VoiceSignature where
  act := WindowKept settings
  begin
    | .read reader, s => reader.awaitsFollowup = true → s.Open
    | _, _ => True
  answer _ _ _ := True
  pre
    | .followup deadline _, s => s.followupDeadline = some deadline
    | .record r, s =>
        (r.trigger = .followup → r.originalFollowupDeadline = some r.speechStartDeadline) ∧
          ∀ d, r.originalFollowupDeadline = some d → s.followupDeadline = some d
    | _, _ => True
  finish := fun _ _ => True

/-! ## Programs that leave the window alone -/

section Programs

variable {α β : Type} {s : VoiceVars}

theorem windowKept_of_still {s' : VoiceVars}
    (hdeadline : s'.followupDeadline = s.followupDeadline ∨ s'.followupDeadline = none)
    (hstate : s'.state = s.state ∨ (s'.state ≠ .waitingFollowup ∧ s'.state ≠ .waitingWake)) :
    WindowKept settings s s' where
  deadline := hdeadline.imp_right .inl
  followup := by
    intro hs hs'
    rcases hstate with heq | ⟨hne, -⟩
    · exact absurd (heq.symm.trans hs') hs
    · exact absurd hs' hne
  wake := by
    intro hs hs'
    rcases hstate with heq | ⟨-, hne⟩
    · exact absurd (heq.symm.trans hs') hs
    · exact absurd hs' hne

/-- The program waits for no follow-up and ends at no head that asks for something. -/
def Tame (settings : VoiceSettings) (p : VoiceProg α) : Prop :=
  p.Within (fun f => ∀ s, WindowKept settings s (f s))
    (fun c => ∀ s, (windowLaw settings).begin c s) fun h => ∀ s, (windowLaw settings).pre h s

/-- The program keeps the law, wherever it starts. -/
def Lawful (settings : VoiceSettings) (nfkc : PyStr → PyStr) (p : VoiceProg α) : Prop :=
  ∀ s, Safe (voiceService settings nfkc) .all (windowLaw settings) p s fun _ _ => True

theorem Tame.lawful {p : VoiceProg α} (h : Tame settings p) : Lawful settings nfkc p := by
  intro s
  exact safe_of_within (I := fun _ => True) (fun _ _ _ _ _ _ _ => trivial)
    (fun f s hf _ => ⟨hf s, trivial⟩) (fun c s hc _ => ⟨hc s, trivial⟩)
    (fun _ _ _ _ _ _ _ _ _ => ⟨trivial, trivial⟩) (fun h s hh _ => hh s) h trivial

theorem lawful_bind {p : VoiceProg α} {f : α → VoiceProg β} (h : Lawful settings nfkc p)
    (hf : ∀ a, Lawful settings nfkc (f a)) : Lawful settings nfkc (p >>= f) := by
  intro s
  refine safe_bind.mpr ((h s).mono fun s' r _ => ?_)
  cases r with
  | ok a => exact hf a s'
  | error e => exact trivial

theorem lawful_attempt {p : VoiceProg α} {handler : VoiceError → VoiceProg α}
    (h : Lawful settings nfkc p) (hh : ∀ e, Lawful settings nfkc (handler e)) :
    Lawful settings nfkc (p.attempt handler) := by
  intro s
  refine safe_attempt.mpr ((h s).mono fun s' r _ => ?_)
  cases r with
  | ok a => exact trivial
  | error e => exact hh e s'

theorem tame_modify {f : VoiceVars → VoiceVars}
    (hdeadline : ∀ s, (f s).followupDeadline = s.followupDeadline ∨ (f s).followupDeadline = none)
    (hstate : ∀ s, (f s).state = s.state ∨
      ((f s).state ≠ .waitingFollowup ∧ (f s).state ≠ .waitingWake)) :
    Tame settings (VoiceProg.modify f) :=
  ⟨fun s => windowKept_of_still (hdeadline s) (hstate s), trivial⟩

theorem tame_discardPending : Tame settings VoiceProg.discardPending :=
  tame_modify (fun _ => .inl rfl) fun _ => .inl rfl

theorem tame_setAccepting (enabled : Bool) : Tame settings (VoiceProg.setAccepting enabled) :=
  tame_modify (fun _ => .inl rfl) fun _ => .inl rfl

theorem tame_await {c : VoiceCall} (h : ∀ reader, c ≠ .read reader) :
    Tame settings (VoiceProg.await c) := by
  refine Prog.within_await fun s => ?_
  cases c with
  | read reader => exact absurd rfl (h reader)
  | _ => exact trivial

theorem tame_cleanupCall {c : VoiceCall} (h : ∀ reader, c ≠ .read reader) :
    Tame settings (VoiceProg.cleanupCall c) := by
  refine Prog.within_attempt (Prog.within_bind (tame_await h) fun _ => trivial) fun e => ?_
  cases e <;> exact trivial

theorem tame_gets (f : VoiceVars → α) : Tame settings (VoiceProg.gets f) := fun _ => trivial

theorem tame_guarded {flag : VoiceVars → Bool} {body : VoiceProg Unit} (h : Tame settings body) :
    Tame settings (VoiceProg.guarded flag body) := by
  refine Prog.within_bind (tame_gets flag) fun b => ?_
  cases b
  · exact trivial
  · exact h

theorem tame_stopComponent {flag : VoiceVars → Bool} {c : VoiceCall}
    {clear : VoiceVars → VoiceVars} (h : ∀ reader, c ≠ .read reader)
    (hdeadline : ∀ s, (clear s).followupDeadline = s.followupDeadline)
    (hstate : ∀ s, (clear s).state = s.state) :
    Tame settings (VoiceProg.stopComponent flag c clear) :=
  tame_guarded (Prog.within_bind (tame_cleanupCall h) fun _ =>
    tame_modify (fun s => .inl (hdeadline s)) fun s => .inl (hstate s))

theorem tame_stopInput : Tame settings VoiceProg.stopInput :=
  tame_stopComponent (by nofun) (fun _ => rfl) fun _ => rfl

theorem tame_stopPlayback : Tame settings VoiceProg.stopPlayback :=
  tame_stopComponent (by nofun) (fun _ => rfl) fun _ => rfl

theorem tame_stopDetector : Tame settings VoiceProg.stopDetector :=
  tame_stopComponent (by nofun) (fun _ => rfl) fun _ => rfl

theorem tame_cleanupPartialStart : Tame settings VoiceProg.cleanupPartialStart :=
  Prog.within_bind tame_stopInput fun _ =>
    Prog.within_bind tame_stopPlayback fun _ => tame_stopDetector

theorem tame_transition {state : VoiceState} {lastError : Option String} {clearError : Bool}
    (h : state ≠ .waitingFollowup) (h' : state ≠ .waitingWake) :
    Tame settings (VoiceProg.transition state lastError clearError) :=
  tame_modify (fun _ => .inl rfl) fun _ => .inr ⟨h, h'⟩

theorem tame_recoverDevice (e : VoiceError) : Tame settings (VoiceProg.recoverDevice e) := by
  have hstop : Tame settings (do
      VoiceProg.cleanupPartialStart
      VoiceProg.transition .error (some "voice_start_failed") false
      pure false) :=
    Prog.within_bind tame_cleanupPartialStart fun _ =>
      Prog.within_bind (tame_transition (by decide) (by decide)) fun _ => trivial
  cases e with
  | cancelled => exact trivial
  | fatal code =>
    refine Prog.within_bind tame_cleanupPartialStart fun _ => ?_
    split
    · exact Prog.within_bind (tame_guarded (tame_transition (by decide) (by decide)))
        fun _ => trivial
    · exact Prog.within_bind (tame_transition (by decide) (by decide)) fun _ => trivial
  | turn code => exact hstop
  | timeout => exact hstop
  | other => exact hstop

/-- What is shown of a program in the window: it keeps the law. -/
abbrev Keeps (settings : VoiceSettings) (nfkc : PyStr → PyStr) (p : VoiceProg α) (s : VoiceVars)
    (Q : VoiceVars → Except VoiceError α → Prop) : Prop :=
  Safe (voiceService settings nfkc) .all (windowLaw settings) p s Q

/-- The clock is read, and what follows. -/
theorem keeps_monotonic {next : ℚ → VoiceProg β}
    {Q : VoiceVars → Except VoiceError β → Prop}
    (h : ∀ now s₁, Quiet s s₁ → Keeps settings nfkc (next now) { s₁ with clock := some now } Q) :
    Keeps settings nfkc (VoiceProg.monotonic >>= next) s Q := by
  intro s₁ h₁ s₂ h₂
  refine ⟨windowKept_of_still (.inl rfl) (.inl rfl), ?_⟩
  exact h (Ieee.double s₁.now) s₂ ((quiet_of_disturbed h₁).trans (quiet_of_disturbed h₂))

theorem keeps_supervised {body : VoiceProg Unit}
    (h : Keeps settings nfkc body s fun _ _ => True) :
    Keeps settings nfkc (VoiceProg.supervised body) s fun _ _ => True := by
  refine safe_attempt.mpr (h.mono fun t r _ => ?_)
  cases r with
  | ok _ => exact trivial
  | error e =>
    refine lawful_bind (tame_recoverDevice e).lawful (fun again => ?_) t
    cases again
    · exact fun _ => trivial
    · exact fun _ _ _ => trivial

/-! ## The two waiting states -/

/-- **`WAITING_WAKE` is entered with the deadline cleared, the queue drained, the input accepting
and the detector reset.** -/
theorem lawful_enterWaitingWake (lastError : Option String) (clearError : Bool) :
    Lawful settings nfkc (VoiceProg.enterWaitingWake lastError clearError) := by
  intro s s₁ _
  refine ⟨windowKept_of_still (.inr rfl) (.inl rfl), ?_⟩
  intro s₂ h₂
  have hdeadline₂ : s₂.followupDeadline = none := (quiet_of_disturbed h₂).deadline
  refine ⟨windowKept_of_still (.inl rfl) (.inl rfl), ?_⟩
  intro s₃ h₃
  have hdeadline₃ : s₃.followupDeadline = none :=
    (quiet_of_disturbed h₃).deadline.trans hdeadline₂
  refine ⟨windowKept_of_still (.inl rfl) (.inl rfl), ?_⟩
  intro s₄ h₄
  have hdeadline₄ : s₄.followupDeadline = none :=
    (quiet_of_disturbed h₄).deadline.trans hdeadline₃
  have hqueue₄ : s₄.audio.queue = [] := (quiet_of_disturbed h₄).queue
  refine ⟨windowKept_of_still (.inl rfl) (.inl rfl), ?_⟩
  intro s₅ h₅
  have hdeadline₅ : s₅.followupDeadline = none :=
    (quiet_of_disturbed h₅).deadline.trans hdeadline₄
  have hqueue₅ : s₅.audio.queue = [] := (quiet_of_disturbed h₅).queue.trans hqueue₄
  have haccepting₅ : s₅.audio.accepting = true := (quiet_of_disturbed h₅).accepting
  refine ⟨windowKept_of_still (.inl rfl) (.inl rfl), ?_⟩
  intro s₆ h₆
  have hquiet₆ := quiet_of_disturbed h₆
  refine ⟨?_, trivial⟩
  exact
    { deadline := .inl rfl
      followup := fun _ hstate => by cases hstate
      wake := fun _ _ => ⟨hquiet₆.deadline.trans hdeadline₅, hquiet₆.queue.trans hqueue₅,
        hquiet₆.accepting.trans haccepting₅, hquiet₆.wakewordReset⟩ }

theorem lawful_startComponents : Lawful settings nfkc VoiceProg.startComponents := by
  have hawait {c : VoiceCall} (h : ∀ reader, c ≠ .read reader) :
      Lawful settings nfkc (VoiceProg.await c) := (tame_await h).lawful
  have hmodify {f : VoiceVars → VoiceVars}
      (hdeadline : ∀ s, (f s).followupDeadline = s.followupDeadline)
      (hstate : ∀ s, (f s).state = s.state) : Lawful settings nfkc (VoiceProg.modify f) :=
    (tame_modify (fun s => .inl (hdeadline s)) fun s => .inl (hstate s)).lawful
  refine lawful_bind (hawait (by nofun)) fun _ => lawful_bind (hmodify (fun _ => rfl) fun _ => rfl)
    fun _ => ?_
  refine lawful_bind (hawait (by nofun)) fun _ => lawful_bind (hmodify (fun _ => rfl) fun _ => rfl)
    fun _ => ?_
  refine lawful_bind (hawait (by nofun)) fun _ => lawful_bind (hmodify (fun _ => rfl) fun _ => rfl)
    fun _ => ?_
  exact lawful_bind tame_discardPending.lawful fun _ =>
    lawful_bind (hmodify (fun _ => rfl) fun _ => rfl) fun _ => lawful_enterWaitingWake none true

/-- `WAITING_FOLLOWUP` is entered again only before the deadline. -/
theorem keeps_resumeFollowup {original : Option ℚ}
    (h : ∀ d, original = some d → s.followupDeadline = some d) :
    Keeps settings nfkc (VoiceProg.resumeFollowup original) s fun _ _ => True := by
  refine keeps_monotonic fun now s₁ hquiet₁ => ?_
  split
  · next hbefore =>
    cases original with
    | none => cases hbefore
    | some d =>
      have hnow : now < d := of_decide_eq_true hbefore
      intro s₂ h₂
      have hquiet₂ := quiet_of_disturbed h₂
      have hdeadline : s₂.followupDeadline = some d :=
        (hquiet₂.deadline.trans hquiet₁.deadline).trans (h d rfl)
      refine ⟨?_, trivial⟩
      exact
        { deadline := .inl rfl
          followup := fun _ _ => ⟨now, d, hquiet₂.clock, hdeadline, .inl hnow⟩
          wake := fun _ hstate => by cases hstate }
  · exact lawful_enterWaitingWake none false _

/-- A call changes neither the state nor the deadline. -/
structure Still (s s' : VoiceVars) : Prop where
  state : s'.state = s.state
  deadline : s'.followupDeadline = s.followupDeadline

theorem begin_still (s : VoiceVars) (c : VoiceCall) : Still s (s.begin c) := by
  cases c <;> exact ⟨rfl, rfl⟩

theorem answer_still {c : VoiceCall} {a : VoiceAnswer} {s t : VoiceVars}
    {r : Except VoiceError VoiceValue} (h : VoiceVars.answer c a s = some (r, t)) : Still s t := by
  cases completes_of_answer h with
  | started =>
    unfold VoiceVars.startAudio
    split <;> exact ⟨rfl, rfl⟩
  | _ => exact ⟨rfl, rfl⟩

theorem answer_sleep {seconds : ℚ} {a : VoiceAnswer} {s t : VoiceVars}
    {r : Except VoiceError VoiceValue} (h : VoiceVars.answer (.sleep seconds) a s = some (r, t)) :
    t.drained = s.drained := by
  cases completes_of_answer h <;> rfl

theorem answer_playSpeech {text : PyStr} {a : VoiceAnswer} {s t : VoiceVars} {v : VoiceValue}
    (h : VoiceVars.answer (.playSpeech text) a s = some (.ok v, t)) : t.drained = true := by
  cases completes_of_answer h with
  | spoken => rfl
  | silent hc => cases hc

/-- After a call that reads nothing. -/
structure Answered (c : VoiceCall) (s t : VoiceVars) (r : Except VoiceError VoiceValue) :
    Prop where
  deadline : t.followupDeadline = s.followupDeadline
  slept : ∀ seconds, c = .sleep seconds → t.drained = s.drained
  played : ∀ text v, c = .playSpeech text → r = .ok v → t.drained = true

theorem keeps_await {c : VoiceCall} (hc : ∀ s, (windowLaw settings).begin c s) :
    Keeps settings nfkc (VoiceProg.await c) s fun t r => Answered c s t r := by
  refine safe_await fun s₁ h₁ => ⟨hc s₁, ?_⟩
  have hquiet := quiet_of_disturbed h₁
  intro s₂ h₂ a r t _ hr
  have hwaited := waited_of_disturbed h₂
  have hbegin := begin_still s₁ c
  have hanswer := answer_still hr
  refine ⟨trivial, ?_, ?_, ?_⟩
  · exact hanswer.deadline.trans
      (hwaited.deadline.trans (hbegin.deadline.trans hquiet.deadline))
  · rintro seconds rfl
    rw [answer_sleep hr, hwaited.drained]
    exact hquiet.drained
  · rintro text v rfl rfl
    exact answer_playSpeech hr

theorem keeps_playErrorEffect :
    Keeps settings nfkc VoiceProg.playErrorEffect s
      fun t _ => t.followupDeadline = s.followupDeadline := by
  refine safe_modify_bind.mpr fun s₁ h₁ => ⟨windowKept_of_still (.inl rfl) (.inl rfl), ?_⟩
  refine safe_modify_bind.mpr fun s₂ h₂ => ⟨windowKept_of_still (.inl rfl) (.inl rfl), ?_⟩
  have hdeadline : s₂.followupDeadline = s.followupDeadline :=
    (quiet_of_disturbed h₂).deadline.trans (quiet_of_disturbed h₁).deadline
  have hawait : Keeps settings nfkc (VoiceProg.await (.playEffect .error)) s₂.discardPending
      fun t r => Answered (.playEffect .error) s₂.discardPending t r := keeps_await fun _ => trivial
  refine safe_bind.mpr (hawait.mono fun t r ht => ?_)
  have ht' : t.followupDeadline = s.followupDeadline := ht.deadline.trans hdeadline
  cases r with
  | error e => exact ht'
  | ok v =>
    intro s₃ h₃
    refine ⟨windowKept_of_still (.inl rfl) (.inl rfl), ?_⟩
    exact (quiet_of_disturbed h₃).deadline.trans ht'

theorem lawful_recoverTurnError (code : String) :
    Lawful settings nfkc (VoiceProg.recoverTurnError code) := by
  refine lawful_bind (fun s => keeps_playErrorEffect.mono fun _ _ _ => trivial) fun _ => ?_
  exact lawful_enterWaitingWake (some code) false

/-- A step of a turn, and what follows it. -/
theorem keeps_turnStep {c : VoiceCall} {next : VoiceValue → VoiceProg Unit}
    (hc : ∀ s, (windowLaw settings).begin c s)
    (hnext : ∀ v t, Answered c s t (.ok v) → Keeps settings nfkc (next v) t fun _ _ => True) :
    Keeps settings nfkc (VoiceProg.turnStep c next) s fun _ _ => True := by
  refine safe_bind.mpr (safe_attempt.mpr (safe_bind.mpr ((keeps_await hc).mono ?_)))
  intro t r hr
  cases r with
  | ok v => exact hnext v t hr
  | error e =>
    cases e with
    | turn code => exact lawful_recoverTurnError code t
    | fatal code => exact trivial
    | timeout => exact trivial
    | cancelled => exact trivial
    | other => exact trivial

/-- **A deadline is set after a reply was played.** -/
theorem keeps_openFollowupWindow (hdrained : s.drained = true) :
    Keeps settings nfkc (VoiceProg.openFollowupWindow settings) s fun _ _ => True := by
  refine keeps_monotonic fun now s₁ hquiet₁ => ?_
  refine safe_modify_bind.mpr fun s₂ h₂ => ?_
  have hquiet₂ := quiet_of_disturbed h₂
  have hclock₂ : s₂.clock = some now := hquiet₂.clock
  have hdrained₂ : s₂.drained = true :=
    (hquiet₂.drained.trans hquiet₁.drained).trans hdrained
  refine ⟨?_, ?_⟩
  · exact
      { deadline := .inr (.inr ⟨hdrained₂, now, hclock₂, rfl⟩)
        followup := fun hs hs' => absurd hs' hs
        wake := fun hs hs' => absurd hs' hs }
  intro s₃ h₃ utc s₄ h₄
  refine ⟨windowKept_of_still (.inl rfl) (.inl rfl), ?_⟩
  intro s₅ h₅
  have hquiet₃ := quiet_of_disturbed h₃
  have hquiet₄ := quiet_of_disturbed h₄
  have hquiet₅ := quiet_of_disturbed h₅
  have hdeadline₅ : s₅.followupDeadline = some (windowEnd settings now) :=
    hquiet₅.deadline.trans (hquiet₄.deadline.trans hquiet₃.deadline)
  have hclock₅ : s₅.clock = some now :=
    (hquiet₅.clock.trans (hquiet₄.clock.trans hquiet₃.clock)).trans hclock₂
  have hdrained₅ : s₅.drained = true :=
    (hquiet₅.drained.trans (hquiet₄.drained.trans hquiet₃.drained)).trans hdrained₂
  refine ⟨?_, trivial⟩
  exact
    { deadline := .inl rfl
      followup := fun _ _ => ⟨now, _, hclock₅, hdeadline₅, .inr ⟨hdrained₅, rfl⟩⟩
      wake := fun _ hstate => by cases hstate }

theorem keeps_afterSuccessfulPlayback {nextAction : AssistantNextAction}
    (hdrained : s.drained = true) :
    Keeps settings nfkc (VoiceProg.afterSuccessfulPlayback settings nextAction) s
      fun _ _ => True := by
  refine safe_modify_bind.mpr fun s₁ h₁ => ⟨windowKept_of_still (.inl rfl) (.inl rfl), ?_⟩
  refine safe_modify_bind.mpr fun s₂ h₂ => ⟨windowKept_of_still (.inl rfl) (.inl rfl), ?_⟩
  have hdrained₂ : s₂.drained = true :=
    ((quiet_of_disturbed h₂).drained.trans (quiet_of_disturbed h₁).drained).trans hdrained
  let guard := VoiceCall.sleep settings.postPlaybackGuardSeconds
  have hawait : Keeps settings nfkc (VoiceProg.await guard) s₂.discardPending fun t r =>
      Answered guard s₂.discardPending t r := keeps_await fun _ => trivial
  refine safe_bind.mpr (hawait.mono fun t r ht => ?_)
  cases r with
  | error e => exact trivial
  | ok v =>
    have hdrained₃ : t.drained = true := (ht.slept _ rfl).trans hdrained₂
    intro s₃ h₃
    refine ⟨windowKept_of_still (.inl rfl) (.inl rfl), ?_⟩
    have hdrained₄ : s₃.drained = true := (quiet_of_disturbed h₃).drained.trans hdrained₃
    show Safe _ _ _ (if _ then _ else _) _ _
    split
    · intro s₄ h₄
      refine ⟨windowKept_of_still (.inl rfl) (.inl rfl), ?_⟩
      exact keeps_openFollowupWindow ((quiet_of_disturbed h₄).drained.trans hdrained₄)
    · exact lawful_enterWaitingWake none true _

theorem lawful_speak (v : VoiceValue) : Lawful settings nfkc (VoiceProg.speak settings v) := by
  intro s
  cases v with
  | replied reply =>
    intro s₁ h₁
    refine ⟨windowKept_of_still (.inl rfl) (.inr ⟨by nofun, by nofun⟩), ?_⟩
    refine keeps_turnStep (fun _ => trivial) fun v t ht => ?_
    exact keeps_afterSuccessfulPlayback (ht.played _ v rfl rfl)
  | _ => exact trivial

theorem keeps_recoverEmptyTranscript {original : Option ℚ}
    (h : ∀ d, original = some d → s.followupDeadline = some d) :
    Keeps settings nfkc (VoiceProg.recoverEmptyTranscript original) s fun _ _ => True := by
  refine safe_bind.mpr ((keeps_playErrorEffect (s := s)).mono fun t r ht => ?_)
  cases r with
  | error e => exact trivial
  | ok _ =>
    intro s₁ h₁
    refine ⟨windowKept_of_still (.inl rfl) (.inl rfl), ?_⟩
    intro s₂ h₂
    refine ⟨windowKept_of_still (.inl rfl) (.inl rfl), ?_⟩
    refine keeps_resumeFollowup fun d hd => ?_
    exact ((quiet_of_disturbed h₂).deadline.trans ((quiet_of_disturbed h₁).deadline.trans ht)).trans
      (h d hd)

theorem keeps_processTranscript {original : Option ℚ} {v : VoiceValue}
    (h : ∀ d, original = some d → s.followupDeadline = some d) :
    Keeps settings nfkc (VoiceProg.processTranscript settings nfkc original v) s
      fun _ _ => True := by
  cases v with
  | text value =>
    show Safe _ _ _ (if normalizeText nfkc value = [] then _ else _) _ _
    split
    · exact keeps_recoverEmptyTranscript h
    · exact keeps_turnStep (fun _ => trivial) fun v t _ => lawful_speak v t
  | _ => exact trivial

theorem keeps_processRecording {r : RecordLoop} {utterance : Option AudioUtterance}
    (h : ∀ d, r.originalFollowupDeadline = some d → s.followupDeadline = some d) :
    Keeps settings nfkc (VoiceProg.processRecording settings nfkc r utterance) s
      fun _ _ => True := by
  cases utterance with
  | none =>
    unfold VoiceProg.processRecording VoiceProg.returnAfterEmptyRecording
    dsimp only
    split
    · exact keeps_resumeFollowup h
    · exact lawful_enterWaitingWake none false s
  | some utterance =>
    refine safe_modify_bind.mpr fun s₁ h₁ => ⟨windowKept_of_still (.inl rfl) (.inl rfl), ?_⟩
    refine safe_modify_bind.mpr fun s₂ h₂ => ⟨windowKept_of_still (.inl rfl) (.inl rfl), ?_⟩
    refine safe_modify_bind.mpr fun s₃ h₃ =>
      ⟨windowKept_of_still (.inl rfl) (.inr ⟨by nofun, by nofun⟩), ?_⟩
    refine keeps_turnStep (fun _ => trivial) fun v t ht => ?_
    refine keeps_processTranscript fun d hd => ?_
    exact ht.deadline.trans ((quiet_of_disturbed h₃).deadline.trans
      ((quiet_of_disturbed h₂).deadline.trans ((quiet_of_disturbed h₁).deadline.trans (h d hd))))

/-! ## Reads -/

/-- A read that begins in time leaves the deadline alone. -/
theorem keeps_read {reader : Reader}
    (h : reader.awaitsFollowup = true → s.Open) :
    Keeps settings nfkc (VoiceProg.read reader) s
      fun t _ => t.followupDeadline = s.followupDeadline := by
  refine safe_attempt.mpr (safe_bind.mpr (safe_await fun s₁ h₁ => ?_))
  have hquiet := quiet_of_disturbed h₁
  refine ⟨fun hreader => ?_, ?_⟩
  · obtain ⟨now, d, hclock, hd, hnow⟩ := h hreader
    exact ⟨now, d, hquiet.clock.trans hclock, hquiet.deadline.trans hd, hnow⟩
  intro s₂ h₂ a r t _ hr
  have hdeadline : t.followupDeadline = s.followupDeadline :=
    (answer_still hr).deadline.trans ((waited_of_disturbed h₂).deadline.trans
      ((begin_still s₁ _).deadline.trans hquiet.deadline))
  cases r with
  | ok v => cases v <;> exact ⟨trivial, hdeadline⟩
  | error e => cases e <;> exact ⟨trivial, hdeadline⟩

theorem keeps_runTurn {trigger : RecordingTrigger} {initialChunks : List AudioChunk} {streak : ℕ}
    {original : Option ℚ}
    (h : ∀ d, original = some d → s.followupDeadline = some d)
    (hwake : trigger = .wakeWord → original = none) :
    Keeps settings nfkc (VoiceProg.runTurn settings trigger initialChunks streak original) s
      fun _ _ => True := by
  refine safe_modify_bind.mpr fun s₁ h₁ =>
    ⟨windowKept_of_still (.inl rfl) (.inr ⟨by nofun, by nofun⟩), ?_⟩
  have hdeadline₁ : s₁.followupDeadline = s.followupDeadline := (quiet_of_disturbed h₁).deadline
  cases trigger with
  | followup =>
    refine keeps_monotonic fun now s₂ hquiet₂ => ?_
    cases original with
    | none => exact trivial
    | some d =>
      intro s₃ h₃
      refine ⟨fun _ => rfl, fun d' hd' => ?_⟩
      exact (quiet_of_disturbed h₃).deadline.trans (hquiet₂.deadline.trans
        (hdeadline₁.trans (h d' hd')))
  | wakeWord =>
    obtain rfl := hwake rfl
    have hacknowledge : Tame settings (VoiceProg.acknowledge .wakeWord) :=
      Prog.within_bind (tame_setAccepting false) fun _ =>
        Prog.within_bind tame_discardPending fun _ =>
          Prog.within_bind (tame_await (by nofun)) fun _ =>
            Prog.within_bind tame_discardPending fun _ => tame_setAccepting true
    refine safe_bind.mpr ((hacknowledge.lawful _).mono fun t r _ => ?_)
    cases r with
    | error e => exact trivial
    | ok _ => exact keeps_monotonic fun now t₁ _ t₂ _ => ⟨by nofun, by nofun⟩

/-- **A read of the recorder before speech has started begins before the deadline.** -/
theorem keeps_record {r : RecordLoop} (h : (windowLaw settings).pre (.record r) s) :
    Keeps settings nfkc (VoiceProg.record settings nfkc r) s fun _ _ => True := by
  obtain ⟨hfollowup, horiginal⟩ := h
  have hback {t : VoiceVars} (ht : t.followupDeadline = s.followupDeadline)
      (utterance : Option AudioUtterance) :
      Keeps settings nfkc (do
        VoiceProg.processRecording settings nfkc r utterance
        VoiceProg.goto .run) t fun _ _ => True := by
    have hprocess : Keeps settings nfkc
        (VoiceProg.processRecording settings nfkc r utterance) t fun _ _ => True :=
      keeps_processRecording fun d hd => ht.trans (horiginal d hd)
    refine safe_bind.mpr (hprocess.mono fun u e _ => ?_)
    cases e with
    | ok _ => exact fun _ _ => trivial
    | error e => exact trivial
  refine keeps_monotonic fun now s₁ hquiet => ?_
  split
  · exact hback (t := { s₁ with clock := some now }) hquiet.deadline none
  · next hexpired =>
    have hopen : Reader.awaitsFollowup (.recorder r.trigger (VoiceProg.speechStarted r)) = true →
        VoiceVars.Open { s₁ with clock := some now } := by
      intro hreader
      have htrigger : r.trigger = .followup := by
        cases htrigger : r.trigger
        · rw [htrigger] at hreader
          cases hreader
        · rfl
      refine ⟨now, r.speechStartDeadline, rfl,
        hquiet.deadline.trans (horiginal _ (hfollowup htrigger)), ?_⟩
      unfold VoiceProg.speechStarted at hreader
      cases hstate : r.state with
      | detecting d =>
        rw [hstate] at hexpired
        simpa [RmsRecorder.expired] using hexpired
      | recording d =>
        rw [hstate, htrigger] at hreader
        cases hreader
    refine safe_bind.mpr ((keeps_read hopen).mono fun t e ht => ?_)
    have ht' : t.followupDeadline = s.followupDeadline := ht.trans hquiet.deadline
    cases e with
    | error e => exact trivial
    | ok chunk =>
      dsimp only
      split
      · intro t₁ h₁
        refine ⟨hfollowup, fun d hd => ?_⟩
        exact (quiet_of_disturbed h₁).deadline.trans (ht'.trans (horiginal d hd))
      · exact hback ht' _

/-- **A read for a candidate begins before the deadline.** -/
theorem keeps_followup {deadline : ℚ} {preroll : List AudioChunk}
    (h : s.followupDeadline = some deadline) :
    Keeps settings nfkc (VoiceProg.followup settings deadline preroll) s fun _ _ => True := by
  have hback : Lawful settings nfkc (do
      VoiceProg.enterWaitingWake none false
      VoiceProg.goto .run) :=
    lawful_bind (lawful_enterWaitingWake none false) fun _ _ _ _ => trivial
  refine keeps_monotonic fun now s₁ hquiet => ?_
  split
  · exact hback _
  · next hremaining =>
    have hopen : Reader.awaitsFollowup .followup = true →
        VoiceVars.Open { s₁ with clock := some now } := fun _ =>
      ⟨now, deadline, rfl, hquiet.deadline.trans h, by linarith⟩
    refine safe_bind.mpr ((keeps_read hopen).mono fun t e ht => ?_)
    have ht' : t.followupDeadline = some deadline := ht.trans (hquiet.deadline.trans h)
    cases e with
    | error e => exact trivial
    | ok chunk =>
      cases chunk with
      | none => exact hback t
      | some c =>
        dsimp only
        split
        · refine safe_gets_bind.mpr fun t₁ h₁ => ?_
          exact keeps_runTurn (fun d hd => hd) (by nofun)
        · exact fun t₁ h₁ => (quiet_of_disturbed h₁).deadline.trans ht'

theorem lawful_waitForWakeWord : Lawful settings nfkc (VoiceProg.waitForWakeWord settings) := by
  have hturn : Lawful settings nfkc (VoiceProg.runTurn settings .wakeWord [] 0 none) :=
    fun s => keeps_runTurn (fun _ hd => by cases hd) fun _ => rfl
  refine lawful_bind (fun s => (keeps_read (by nofun)).mono fun _ _ _ => trivial) fun chunk => ?_
  cases chunk with
  | none => exact fun _ _ _ => trivial
  | some c =>
    refine lawful_bind (tame_await (by nofun)).lawful fun v => ?_
    split
    · exact hturn
    · exact fun _ _ _ => trivial

theorem lawful_run : Lawful settings nfkc (VoiceProg.run settings) := by
  refine lawful_bind (tame_gets _).lawful fun stopping => ?_
  cases stopping with
  | true => exact fun _ => trivial
  | false =>
    refine lawful_bind (tame_gets _).lawful fun state => ?_
    cases state with
    | waitingWake => exact lawful_waitForWakeWord
    | waitingFollowup =>
      intro s
      refine safe_gets_bind.mpr fun s₁ h₁ => ?_
      cases hdeadline : s₁.followupDeadline with
      | none => exact trivial
      | some d => exact fun s₂ h₂ => (quiet_of_disturbed h₂).deadline.trans hdeadline
    | _ => exact fun _ => trivial

/-! ## The calls from outside -/

theorem lawful_supervise (needsStart : Bool) :
    Lawful settings nfkc (VoiceProg.supervise needsStart) := by
  refine lawful_bind (tame_gets _).lawful fun stopping => ?_
  cases stopping with
  | true => exact fun _ => trivial
  | false =>
    cases needsStart with
    | false => exact fun _ _ _ => trivial
    | true =>
      have hretry : Lawful settings nfkc (do
          let _ ← VoiceProg.await (.sleep deviceRetryIntervalSeconds)
          VoiceProg.startComponents
          VoiceProg.goto .run) :=
        lawful_bind (tame_await (by nofun)).lawful fun _ =>
          lawful_bind lawful_startComponents fun _ _ _ _ => trivial
      exact fun s => keeps_supervised (hretry s)

theorem lawful_start : Lawful settings nfkc VoiceProg.start := by
  have hbegin : Tame settings
      (VoiceProg.modify fun s => { s with mainTask := false, stopping := false }) :=
    tame_modify (fun _ => .inl rfl) fun _ => .inl rfl
  have hend : Tame settings
      (VoiceProg.modify fun s => { s with mainTask := true, cancelRequested := false }) :=
    tame_modify (fun _ => .inl rfl) fun _ => .inl rfl
  refine lawful_bind hbegin.lawful fun _ => ?_
  refine lawful_bind (lawful_attempt (lawful_bind lawful_startComponents fun _ _ => trivial)
    fun e => ?_) fun main => ?_
  · have hrecover : Lawful settings nfkc (do
        let again ← VoiceProg.recoverDevice e
        if again then pure (some true) else pure none) := by
      refine lawful_bind (tame_recoverDevice e).lawful fun again => ?_
      cases again <;> exact fun _ => trivial
    cases e with
    | cancelled =>
      exact lawful_bind tame_cleanupPartialStart.lawful fun _ _ => trivial
    | _ => exact hrecover
  · cases main with
    | none => exact fun _ => trivial
    | some needsStart => exact lawful_bind hend.lawful fun _ _ _ _ => trivial

theorem tame_stopTail : Tame settings VoiceProg.stopTail := by
  have hclear {f : VoiceVars → VoiceVars}
      (hdeadline : ∀ s, (f s).followupDeadline = s.followupDeadline ∨
        (f s).followupDeadline = none)
      (hstate : ∀ s, (f s).state = s.state) : Tame settings (VoiceProg.modify f) :=
    tame_modify hdeadline fun s => .inl (hstate s)
  have hcleanup : Tame settings VoiceProg.cleanupStartedResources :=
    Prog.within_bind tame_stopInput fun _ => Prog.within_bind tame_stopDetector fun _ =>
      Prog.within_bind tame_stopPlayback fun _ =>
        tame_stopComponent (by nofun) (fun _ => rfl) fun _ => rfl
  refine Prog.within_bind (tame_cleanupCall (by nofun)) fun _ =>
    Prog.within_bind hcleanup fun _ => ?_
  refine Prog.within_bind (hclear (fun _ => .inr rfl) fun _ => rfl) fun _ =>
    Prog.within_bind (hclear (fun _ => .inl rfl) fun _ => rfl) fun _ => ?_
  exact Prog.within_bind (tame_transition (by decide) (by decide)) fun _ =>
    hclear (fun _ => .inl rfl) fun _ => rfl

theorem tame_stop : Tame settings VoiceProg.stop :=
  tame_guarded (Prog.within_bind (tame_modify (fun _ => .inl rfl) fun _ => .inl rfl) fun _ =>
    tame_stopTail)

theorem window_verified : Verified (voiceService settings nfkc) .all (windowLaw settings) where
  body := by
    intro h s hpre
    have hof {p : VoiceProg Unit} (hp : Lawful settings nfkc p) :
        Keeps settings nfkc p s (windowLaw settings).finish := hp s
    cases h with
    | start => exact hof lawful_start
    | stop => exact hof tame_stop.lawful
    | stopTail => exact hof tame_stopTail.lawful
    | main needsStart =>
      exact hof (lawful_bind (tame_await (by nofun)).lawful fun _ _ _ _ => trivial)
    | supervise needsStart => exact hof (lawful_supervise needsStart)
    | run => exact keeps_supervised (lawful_run s)
    | followup deadline preroll => exact keeps_supervised (keeps_followup hpre)
    | record r => exact keeps_supervised (keeps_record hpre)
  finish := fun _ _ _ _ _ _ _ => trivial
  enter := by
    intro h s s' r hcall _ _
    cases h with
    | followup deadline preroll => cases hcall
    | record r => cases hcall
    | _ => exact trivial

end Programs

/-! ## Runs -/

/-- The service before its first `start()`. -/
def VoiceService.Runs (settings : VoiceSettings) (nfkc : PyStr → PyStr)
    (ls : List (Label VoiceSignature)) (c : Config VoiceSignature) : Prop :=
  Transition.exec (step (voiceService settings nfkc)) (.idle {}) ls = some c

/-- **The deadline is only set after a reply was played and else only cleared; `WAITING_FOLLOWUP` is
entered and its reads begin after a reading of the clock before the deadline, without an await in
between, or as the window is opened; `WAITING_WAKE` is entered afresh**, at every step of every
run. -/
theorem followup_bounded {ls : List (Label VoiceSignature)} {l : Label VoiceSignature}
    {c c' : Config VoiceSignature} (hrun : VoiceService.Runs settings nfkc ls c)
    (hstep : step (voiceService settings nfkc) c l = some c') :
    WindowKept settings c.vars c'.vars ∧
      ∀ reader k, c.waits = false → c'.waits = true → c'.prog = .call (.read reader) k →
        reader.awaitsFollowup = true → c.vars.Open := by
  have hall (c : Config VoiceSignature) (l : Label VoiceSignature) : Admits.all.label c l := by
    cases l with
    | answer a => exact fun _ _ _ => trivial
    | _ => exact trivial
  have hmeets : Transition.Meets (step (voiceService settings nfkc)) Admits.all.label (.idle {})
      (ls ++ [l]) := Transition.meets_of_labels fun l _ c => hall c l
  have hkept := kept_of_exec window_verified trivial (Transition.meets_append hmeets).1 hrun
  refine ⟨?_, ?_⟩
  · cases lawful window_verified trivial hmeets hrun hstep with
    | still h => exact windowKept_of_still (.inl (by rw [h])) (.inl (by rw [h]))
    | act h => exact h
    | begin d k _ _ hvars _ =>
      have hstill := begin_still c.vars d
      rw [hvars]
      exact windowKept_of_still (.inl hstill.deadline) (.inl hstill.state)
    | answer d a r _ h _ =>
      have hstill := answer_still h
      exact windowKept_of_still (.inl hstill.deadline) (.inl hstill.state)
    | disturb mode e _ h =>
      have hwaited := waited_of_disturb h
      exact windowKept_of_still (.inl hwaited.deadline) (.inl hwaited.state)
  · intro reader k hwaits hwaits' hprog hreader
    obtain ⟨d, k', hprog', hvars, hbegin⟩ := begin_of_step hkept hstep hwaits hwaits'
    rw [hprog] at hprog'
    cases hprog'
    exact hbegin hreader

/-- A call ends, and the service goes on to the next one. -/
def answered (a : VoiceAnswer) (statements : ℕ) : List (Label VoiceSignature) :=
  .answer a :: List.replicate statements (.run 0)

/-- A frame with the same bytes reaches the queue and is read. -/
def heard (byte : UInt8) (capturedAt : ℚ) (statements : ℕ) : List (Label VoiceSignature) :=
  [.disturb (.callback (List.replicate inputFrameBytes byte) capturedAt false),
    .disturb .enqueueFromLoop] ++ answered .chunk statements

/-- The components start, and the main loop waits for the wake word. -/
def startedRun : List (Label VoiceSignature) :=
  .enter .start :: List.replicate 3 (.run 0) ++ answered .returned 2 ++ answered .returned 2 ++
    answered .returned 12 ++ answered .returned 6

/-- The wake word, two loud frames and a reply, until it is spoken. -/
def spokenRun : List (Label VoiceSignature) :=
  startedRun ++ heard 0 0 1 ++ answered (.detected true) 4 ++ answered .returned 8 ++
    heard 64 1 4 ++ heard 64 2 4 ++ answered (.raised .timeout) 4 ++
    answered (.text (decode ['A'])) 1 ++
    answered (.replied ⟨decode ['A'], .waitForFollowup, .assistantRequestedInput⟩) 2

/-- The window opens. -/
def windowRun : List (Label VoiceSignature) :=
  spokenRun ++ answered .returned 3 ++ answered .returned 15

/-- The service waits for a follow-up. -/
def awaitsFollowup (c : Config VoiceSignature) : Bool :=
  match c.prog with
  | .call (.read reader) _ => c.waits && reader.awaitsFollowup
  | _ => false

/-- The first read of a window. -/
theorem followup_bounded_window : ∃ c c', VoiceService.Runs .default id windowRun c ∧
    step (voiceService .default id) c (.run 0) = some c' ∧
    WindowKept .default c.vars c'.vars ∧ c.vars.Open := by
  have hrun : ((Transition.exec (step (voiceService .default id)) (.idle {}) windowRun).bind
      fun c => (step (voiceService .default id) c (.run 0)).map
        fun c' => (c.waits, awaitsFollowup c')) = some (false, true) := by
    decide +kernel
  obtain ⟨c, hc, hstep⟩ := Option.bind_eq_some_iff.mp hrun
  obtain ⟨c', hc', hread⟩ := Option.map_eq_some_iff.mp hstep
  have hbounded := followup_bounded hc hc'
  have hwaits : c.waits = false := congrArg Prod.fst hread
  have hawaits : awaitsFollowup c' = true := congrArg Prod.snd hread
  unfold awaitsFollowup at hawaits
  split at hawaits
  · next reader k hprog =>
    rw [Bool.and_eq_true] at hawaits
    exact ⟨c, c', hc, hc', hbounded.1,
      hbounded.2 reader k hwaits hawaits.1 hprog hawaits.2⟩
  · cases hawaits

/-- Every entry into `WAITING_FOLLOWUP` happens before the current deadline. -/
def EntersInTime (settings : VoiceSettings) (nfkc : PyStr → PyStr) : Prop :=
  ∀ ls l c c', VoiceService.Runs settings nfkc ls c →
    step (voiceService settings nfkc) c l = some c' →
    c.vars.state ≠ .waitingFollowup → c'.vars.state = .waitingFollowup →
    ∃ d, c'.vars.followupDeadline = some d ∧ c'.vars.now < d

/-- A timeout that is lost in the float sum. -/
def briefSettings : VoiceSettings :=
  { VoiceSettings.default with
    followupTimeoutSeconds := 1 / 1152921504606846976
    postPlaybackGuardSeconds := 0
    followupTimeout_range := by decide +kernel
    guard_range := by decide +kernel
    guard_lt_followup := by decide +kernel }

/-- The deadline is set a second after the start, and the service pauses before it transitions. -/
def pausedRun (pause : ℚ) : List (Label VoiceSignature) :=
  .disturb (.tick 1) :: spokenRun ++ answered .returned 3 ++ answered .returned 7 ++
    [.disturb (.tick pause)]

/-- The next statement enters `WAITING_FOLLOWUP`, when the deadline has passed. -/
def entersLate (settings : VoiceSettings) (c : Config VoiceSignature) : Bool :=
  (step (voiceService settings id) c (.run 0)).any fun c' =>
    c.vars.state ≠ .waitingFollowup && c'.vars.state = .waitingFollowup &&
      c'.vars.followupDeadline.all (· ≤ c'.vars.now)

theorem not_entersInTime (pause : ℚ)
    (hrun : (Transition.exec (step (voiceService settings id)) (.idle {}) (pausedRun pause)).map
      (entersLate settings) = some true) : ¬ EntersInTime settings id := by
  intro hin
  obtain ⟨c, hc, hlate⟩ := Option.map_eq_some_iff.mp hrun
  unfold entersLate at hlate
  cases hstep : step (voiceService settings id) c (.run 0) with
  | none =>
    rw [hstep] at hlate
    cases hlate
  | some c' =>
    rw [hstep] at hlate
    simp only [Option.any_some, Bool.and_eq_true, decide_eq_true_eq] at hlate
    obtain ⟨⟨hstate, hstate'⟩, hpassed⟩ := hlate
    obtain ⟨d, hd, hnow⟩ := hin _ _ _ _ hc hstep hstate hstate'
    rw [hd] at hpassed
    exact absurd hnow (not_lt.mpr (of_decide_eq_true hpassed))

/-- **An entry can be late**: four seconds can pass between the reading of the clock and the
transition, and with a timeout that the float sum loses no time has to pass. -/
theorem followup_entered_late :
    ¬ EntersInTime .default id ∧ ¬ EntersInTime briefSettings id :=
  ⟨not_entersInTime 4 (by decide +kernel), not_entersInTime 0 (by decide +kernel)⟩

end SmartDesk.Voice
