import Mathlib
import SmartDesk.Voice.TurnErrors

/-!
# Half duplex

* `Avoids` — no frame that can still be read has one of the given numbers; `discard_pending`
  establishes it, whatever went before.
* `Ready` — the main loop can read: it neither plays nor works, and what can be read was heard
  while it did neither.
* `duplexLaw` — every read begins in such a state, and returns such a frame.
* `half_duplex` — **no chunk that was recorded while the service waited for a playback, or for
  anything else in `PROCESSING`, `SPEAKING` or `ERROR`, is ever read, and none that was recorded
  before the last `discard_pending`.**
-/

namespace SmartDesk.Voice

open PyText Script Assistant

/-! ## What can be read -/

namespace LocalAudioInput

/-- Neither the queue nor a call that would still be accepted has a frame with such a number. -/
structure Avoids (bad : ℕ → Prop) (a : LocalAudioInput) : Prop where
  queue : ∀ f ∈ a.queue, ¬ bad f.number
  deferred : ∀ d ∈ a.deferred, d.generation = a.generation → ¬ bad d.frame.number

variable {bad : ℕ → Prop} {a : LocalAudioInput} {capacity : ℕ}

/-- **After `discard_pending` nothing is left to read.** -/
theorem avoids_discardPending (h : Conserved capacity a) : Avoids bad a.discardPending where
  queue := by nofun
  deferred := by
    intro d hd hgeneration
    have hle := h.generations d hd
    have heq : d.generation = a.generation + 1 := hgeneration
    omega

theorem Avoids.callback (h : Avoids bad a) (pcm : List UInt8) (capturedAt : ℚ)
    (inputOverflow : Bool) (hnew : ¬ bad a.callbacks) :
    Avoids bad (a.callback pcm capturedAt inputOverflow) where
  queue := h.queue
  deferred := by
    intro d hd hgeneration
    rcases List.mem_append.mp hd with hold | hnew'
    · exact h.deferred d hold hgeneration
    · rw [List.mem_singleton.mp hnew']
      exact hnew

/-- What a frame that is put in the queue changes. -/
structure Enqueued (d : Deferred) (a a' : LocalAudioInput) : Prop where
  queue : ∀ f ∈ a'.queue, f ∈ a.queue ∨ (f = d.frame ∧ d.generation = a.generation)
  deferred : a'.deferred = a.deferred
  generation : a'.generation = a.generation
  callbacks : a'.callbacks = a.callbacks
  discardedAt : a'.discardedAt = a.discardedAt
  returned : a'.returned = a.returned

theorem enqueued_enqueueFromLoop (capacity : ℕ) (d : Deferred) (a : LocalAudioInput) :
    Enqueued d a (a.enqueueFromLoop capacity d) := by
  have hsame (a : LocalAudioInput) : Enqueued d a a :=
    ⟨fun _ hf => .inl hf, rfl, rfl, rfl, rfl, rfl⟩
  have hroom : Enqueued d a ((a.countOverflow d.inputOverflow).makeRoom capacity) := by
    have hcount : Enqueued d a (a.countOverflow d.inputOverflow) := by
      unfold LocalAudioInput.countOverflow
      split <;> exact ⟨fun _ hf => .inl hf, rfl, rfl, rfl, rfl, rfl⟩
    unfold LocalAudioInput.makeRoom LocalAudioInput.evict
    split
    · split
      · exact hcount
      · next oldest rest hqueue =>
        refine ⟨fun f hf => hcount.queue f ?_, hcount.deferred, hcount.generation,
          hcount.callbacks, hcount.discardedAt, hcount.returned⟩
        rw [hqueue]
        exact List.mem_cons_of_mem _ hf
    · exact hcount
  unfold LocalAudioInput.enqueueFromLoop
  split
  · exact hsame a
  · next hcurrent =>
    split
    · exact ⟨fun _ hf => .inl hf, rfl, rfl, rfl, rfl, rfl⟩
    · have hgeneration : d.generation = a.generation := by
        by_contra hne
        exact hcurrent (.inl hne)
      unfold LocalAudioInput.put LocalAudioInput.wakeupNext
      split
      all_goals
        refine ⟨fun f hf => ?_, hroom.deferred, hroom.generation, hroom.callbacks,
          hroom.discardedAt, hroom.returned⟩
        rcases List.mem_append.mp hf with hold | hnew
        · exact hroom.queue f hold
        · exact .inr ⟨List.mem_singleton.mp hnew, hgeneration⟩

theorem Avoids.enqueueFromLoop (h : Avoids bad a) (capacity : ℕ) {d : Deferred}
    {rest : List Deferred} (hdeferred : a.deferred = d :: rest) :
    Avoids bad ({ a with deferred := rest }.enqueueFromLoop capacity d) := by
  have henqueued := enqueued_enqueueFromLoop capacity d { a with deferred := rest }
  refine ⟨fun f hf => ?_, fun e he hgeneration => ?_⟩
  · rcases henqueued.queue f hf with hold | ⟨rfl, hgeneration⟩
    · exact h.queue f hold
    · exact h.deferred d (by rw [hdeferred]; exact List.mem_cons_self) hgeneration
  · rw [henqueued.deferred] at he
    refine h.deferred e ?_ (hgeneration.trans henqueued.generation)
    rw [hdeferred]
    exact List.mem_cons_of_mem _ he

/-- What a read takes was in the queue. -/
theorem mem_returned_get {f : Frame} (h : f ∈ (a.get 0).returned) :
    f ∈ a.returned ∨ f ∈ a.queue := by
  unfold LocalAudioInput.get at h
  split at h
  · exact .inl h
  · next frame rest hqueue =>
    rcases List.mem_append.mp h with hold | hnew
    · exact .inl hold
    · rw [hqueue, List.mem_singleton.mp hnew]
      exact .inr List.mem_cons_self

theorem Avoids.get (h : Avoids bad a) : Avoids bad (a.get 0) := by
  unfold LocalAudioInput.get
  split
  · exact ⟨h.queue, h.deferred⟩
  · next frame rest hqueue =>
    refine ⟨fun f hf => h.queue f ?_, h.deferred⟩
    rw [hqueue]
    exact List.mem_cons_of_mem _ hf

end LocalAudioInput

open LocalAudioInput

variable {settings : VoiceSettings} {nfkc : PyStr → PyStr} {A : Admits VoiceSignature}
  {α β : Type} {s : VoiceVars}

/-! ## The variables -/

/-- The record of the callbacks fits the microphone. -/
structure Numbered (settings : VoiceSettings) (s : VoiceVars) : Prop where
  conserved : Conserved settings.inputQueueFrames s.audio
  recent : Avoids (fun n => n < s.audio.discardedAt) s.audio
  barred : ∀ b ∈ s.barred, b.1 < s.audio.callbacks

/-- A callback that ran while the service waited in a time in which it must not listen. -/
def Overheard (s : VoiceVars) (n : ℕ) : Prop := (n, true) ∈ s.barred

/-- Between two awaits nothing is played. -/
structure Idle (settings : VoiceSettings) (s : VoiceVars) : Prop where
  numbered : Numbered settings s
  playing : s.playing = false

structure Ready (settings : VoiceSettings) (s : VoiceVars) : Prop extends Idle settings s where
  unbarred : s.bars = false
  clean : Avoids (Overheard s) s.audio

theorem capacity_pos (settings : VoiceSettings) : 0 < settings.inputQueueFrames :=
  lt_of_lt_of_le (by decide) settings.queue_range.1

theorem Numbered.setAccepting (h : Numbered settings s) (enabled : Bool) :
    Numbered settings (s.setAccepting enabled) where
  conserved := h.conserved.waiting _ _ _ _ _ _
  recent := ⟨h.recent.queue, h.recent.deferred⟩
  barred := h.barred

theorem Numbered.discardPending (h : Numbered settings s) :
    Numbered settings s.discardPending where
  conserved := h.conserved.discardPending
  recent := avoids_discardPending h.conserved
  barred := h.barred

theorem Numbered.callback (h : Numbered settings s) (waiting : Bool) (pcm : List UInt8)
    (capturedAt : ℚ) (inputOverflow : Bool) :
    Numbered settings (s.callback waiting pcm capturedAt inputOverflow) where
  conserved := h.conserved.callback pcm capturedAt inputOverflow
  recent := h.recent.callback pcm capturedAt inputOverflow (Nat.not_lt_of_le h.conserved.marked)
  barred := by
    intro b hb
    have hold (hb : b ∈ s.barred) : b.1 < s.audio.callbacks + 1 := Nat.lt_succ_of_lt (h.barred b hb)
    show b.1 < s.audio.callbacks + 1
    simp only [VoiceVars.callback] at hb
    split at hb
    · rcases List.mem_append.mp hb with hb | hb
      · exact hold hb
      · rw [List.mem_singleton.mp hb]
        exact Nat.lt_succ_self _
    · exact hold hb

theorem Numbered.enqueueFromLoop (h : Numbered settings s) {d : Deferred} {rest : List Deferred}
    (hdeferred : s.audio.deferred = d :: rest) :
    Numbered settings { s with audio :=
      { s.audio with deferred := rest }.enqueueFromLoop settings.inputQueueFrames d } where
  conserved := h.conserved.enqueueFromLoop (capacity_pos settings) hdeferred
  recent := by
    have hrecent := h.recent.enqueueFromLoop settings.inputQueueFrames hdeferred
    have henqueued := enqueued_enqueueFromLoop settings.inputQueueFrames d
      { s.audio with deferred := rest }
    have hdiscarded := henqueued.discardedAt
    refine ⟨fun f hf => ?_, fun e he hgeneration => ?_⟩
    · rw [hdiscarded]
      exact hrecent.queue f hf
    · rw [hdiscarded]
      exact hrecent.deferred e he hgeneration
  barred := by
    intro b hb
    have henqueued := enqueued_enqueueFromLoop settings.inputQueueFrames d
      { s.audio with deferred := rest }
    show b.1 < (LocalAudioInput.enqueueFromLoop _ d _).callbacks
    rw [henqueued.callbacks]
    exact h.barred b hb

theorem Numbered.get (h : Numbered settings s) :
    Numbered settings { s with audio := s.audio.get 0 } where
  conserved := h.conserved.get 0
  recent := by
    have hdiscarded : (s.audio.get 0).discardedAt = s.audio.discardedAt := by
      unfold LocalAudioInput.get
      split <;> rfl
    have hrecent := h.recent.get
    refine ⟨fun f hf => ?_, fun e he hgeneration => ?_⟩
    · rw [hdiscarded]
      exact hrecent.queue f hf
    · rw [hdiscarded]
      exact hrecent.deferred e he hgeneration
  barred := by
    have hcallbacks : (s.audio.get 0).callbacks = s.audio.callbacks := by
      unfold LocalAudioInput.get
      split <;> rfl
    intro b hb
    show b.1 < (s.audio.get 0).callbacks
    rw [hcallbacks]
    exact h.barred b hb

/-- The other fields do not matter. -/
theorem Numbered.of_eq {t : VoiceVars} (h : Numbered settings s) (haudio : t.audio = s.audio)
    (hbarred : t.barred = s.barred) : Numbered settings t := by
  refine ⟨?_, ?_, ?_⟩
  · rw [haudio]
    exact h.conserved
  · rw [haudio]
    exact h.recent
  · rw [haudio, hbarred]
    exact h.barred

/-! ## Events and calls -/

/-- An event changes neither what is played nor the state. -/
theorem bars_of_disturb {mode : Mode} {e : VoiceEvent} {t : VoiceVars}
    (h : s.disturb settings mode e = some t) : t.playing = s.playing ∧ t.bars = s.bars := by
  cases happens_of_disturb h <;> exact ⟨rfl, rfl⟩

theorem numbered_of_disturb {mode : Mode} {e : VoiceEvent} {t : VoiceVars}
    (h : s.disturb settings mode e = some t) (hs : Numbered settings s) : Numbered settings t := by
  cases happens_of_disturb h with
  | tick seconds => exact hs.of_eq rfl rfl
  | callback pcm capturedAt inputOverflow => exact hs.callback _ _ _ _
  | callbackFails =>
    exact ⟨hs.conserved.waiting _ _ _ _ _ _, ⟨hs.recent.queue, hs.recent.deferred⟩, hs.barred⟩
  | enqueueFromLoop hmode hdeferred => exact hs.enqueueFromLoop hdeferred
  | stop hmode hmain => exact ((hs.setAccepting false).discardPending).of_eq rfl rfl
  | cancel hmode => exact hs.of_eq rfl rfl

/-- A callback is recorded only while something is played or worked on, and then with whether the
service waited. -/
theorem clean_callback {waiting : Bool} {pcm : List UInt8} {capturedAt : ℚ} {inputOverflow : Bool}
    (hs : Numbered settings s) (hclean : Avoids (Overheard s) s.audio)
    (hquiet : waiting = false ∨ s.bars = false) :
    Avoids (Overheard (s.callback waiting pcm capturedAt inputOverflow))
      (s.callback waiting pcm capturedAt inputOverflow).audio := by
  have hnew : ¬ Overheard s s.audio.callbacks := fun hbad => by
    have hlt := hs.barred _ hbad
    exact Nat.lt_irrefl _ hlt
  have hsame (n : ℕ) : Overheard (s.callback waiting pcm capturedAt inputOverflow) n →
      Overheard s n := by
    intro hbad
    simp only [Overheard, VoiceVars.callback] at hbad
    split at hbad
    · next hbars =>
      rcases List.mem_append.mp hbad with hold | hnew
      · exact hold
      · rcases hquiet with hquiet | hquiet
        · rw [hquiet] at hnew
          cases List.mem_singleton.mp hnew
        · rw [hquiet] at hbars
          cases hbars
    · exact hbad
  have hcallback := hclean.callback pcm capturedAt inputOverflow hnew
  exact ⟨fun f hf hbad => hcallback.queue f hf (hsame _ hbad),
    fun d hd hgeneration hbad => hcallback.deferred d hd hgeneration (hsame _ hbad)⟩

theorem clean_of_disturb {mode : Mode} {e : VoiceEvent} {t : VoiceVars}
    (h : s.disturb settings mode e = some t) (hs : Numbered settings s)
    (hclean : Avoids (Overheard s) s.audio) (hquiet : mode = .running ∨ s.bars = false) :
    Avoids (Overheard t) t.audio := by
  cases happens_of_disturb h with
  | tick seconds => exact hclean
  | callback pcm capturedAt inputOverflow =>
    refine clean_callback hs hclean (hquiet.imp_left fun hmode => ?_)
    rw [hmode]
    rfl
  | callbackFails => exact ⟨hclean.queue, hclean.deferred⟩
  | enqueueFromLoop hmode hdeferred => exact hclean.enqueueFromLoop _ hdeferred
  | stop hmode hmain => exact avoids_discardPending (hs.setAccepting false).conserved
  | cancel hmode => exact hclean

theorem numbered_of_disturbed {mode : Mode} {t : VoiceVars}
    (h : Disturbed (voiceService settings nfkc) A mode s t) (hs : Numbered settings s) :
    Numbered settings t :=
  h.keeps (fun _ _ _ _ hstep hu => numbered_of_disturb hstep hu) hs

theorem idle_of_disturbed {mode : Mode} {t : VoiceVars}
    (h : Disturbed (voiceService settings nfkc) A mode s t) (hs : Idle settings s) :
    Idle settings t := by
  refine h.keeps (fun _ u v _ hstep hu => ?_) hs
  exact ⟨numbered_of_disturb hstep hu.numbered, (bars_of_disturb hstep).1.trans hu.playing⟩

theorem ready_of_disturbed {mode : Mode} {t : VoiceVars}
    (h : Disturbed (voiceService settings nfkc) A mode s t) (hs : Ready settings s) :
    Ready settings t := by
  refine h.keeps (fun _ u v _ hstep hu => ?_) hs
  exact ⟨⟨numbered_of_disturb hstep hu.numbered, (bars_of_disturb hstep).1.trans hu.playing⟩,
    (bars_of_disturb hstep).2.trans hu.unbarred,
    clean_of_disturb hstep hu.numbered hu.clean (.inr hu.unbarred)⟩

/-- Between two statements what can be read stays clean, whatever the state. -/
structure Fresh (settings : VoiceSettings) (s : VoiceVars) : Prop extends Idle settings s where
  clean : Avoids (Overheard s) s.audio

theorem fresh_of_disturbed {t : VoiceVars}
    (h : Disturbed (voiceService settings nfkc) A .running s t) (hs : Fresh settings s) :
    Fresh settings t := by
  refine h.keeps (fun _ u v _ hstep hu => ?_) hs
  exact ⟨⟨numbered_of_disturb hstep hu.numbered, (bars_of_disturb hstep).1.trans hu.playing⟩,
    clean_of_disturb hstep hu.numbered hu.clean (.inl rfl)⟩

/-- A call that plays something. -/
def VoiceCall.plays : VoiceCall → Bool
  | .playEffect _ => true
  | .playSpeech _ => true
  | _ => false

theorem numbered_begin (h : Numbered settings s) (c : VoiceCall) :
    Numbered settings (s.begin c) := by
  cases c with
  | audioStop => exact ((h.setAccepting false).discardPending).of_eq rfl rfl
  | _ => exact h.of_eq rfl rfl

theorem playing_begin {c : VoiceCall} (h : c.plays = false) : (s.begin c).playing = s.playing := by
  cases c <;> first | rfl | cases h

/-- What the end of a call does to the record and to what is played. -/
structure Ends (settings : VoiceSettings) (c : VoiceCall) (s t : VoiceVars) : Prop where
  numbered : Numbered settings s → Numbered settings t
  playing : c.plays = true ∨ s.playing = false → t.playing = false
  returned : ∀ f ∈ t.audio.returned, f ∈ s.audio.returned ∨
    (f ∈ s.audio.queue ∧ ∃ reader, c = .read reader)
  barred : t.barred = s.barred

theorem ends_answer (settings : VoiceSettings) {c : VoiceCall} {a : VoiceAnswer} {t : VoiceVars}
    {r : Except VoiceError VoiceValue} (h : VoiceVars.answer c a s = some (r, t)) :
    Ends settings c s t := by
  have hsilent (c : VoiceCall) : Ends settings c s { s with playing := false } :=
    ⟨fun hs => hs.of_eq rfl rfl, fun _ => rfl, fun _ hf => .inl hf, rfl⟩
  cases completes_of_answer h with
  | raised _ e => exact hsilent c
  | cancelled _ hrequested => exact hsilent c
  | chunk reader chunk =>
    refine ⟨fun hs => hs.get, fun h => h.resolve_left (by nofun), fun f hf => ?_, rfl⟩
    exact (mem_returned_get hf).imp_right fun hqueue => ⟨hqueue, reader, rfl⟩
  | started =>
    unfold VoiceVars.startAudio
    split
    · exact ⟨id, fun h => h.resolve_left (by nofun), fun _ hf => .inl hf, rfl⟩
    · exact ⟨fun hs => ((hs.discardPending).setAccepting true).of_eq rfl rfl,
        fun h => h.resolve_left (by nofun), fun _ hf => .inl hf, rfl⟩
  | spoken text => exact ⟨fun hs => hs.of_eq rfl rfl, fun _ => rfl, fun _ hf => .inl hf, rfl⟩
  | silent hc => exact hsilent c
  | _ => exact ⟨fun hs => hs, fun h => h.resolve_left (by nofun), fun _ hf => .inl hf, rfl⟩

/-- A call that opens and closes nothing leaves what can be read alone, apart from what it
returns. -/
theorem ready_answer {c : VoiceCall} {a : VoiceAnswer} {t : VoiceVars}
    {r : Except VoiceError VoiceValue} (hc : c.leavesInput = true)
    (h : VoiceVars.answer c a s = some (r, t)) (hs : Ready settings s) : Ready settings t := by
  have hends := ends_answer settings h
  have hplaying := hends.playing (.inr hs.playing)
  have hstate := (answer_still h).state
  refine ⟨⟨hends.numbered hs.numbered, hplaying⟩, ?_, ?_⟩
  · have hunbarred := hs.unbarred
    unfold VoiceVars.bars at hunbarred ⊢
    rw [hs.playing] at hunbarred
    rw [hplaying, hstate]
    exact hunbarred
  · have hclean := hs.clean
    cases completes_of_answer h with
    | chunk reader chunk => exact hclean.get
    | started => cases hc
    | _ => exact hclean

/-! ## The law -/

/-- A statement reads nothing and keeps the record. -/
structure Inert (settings : VoiceSettings) (s s' : VoiceVars) : Prop where
  numbered : Numbered settings s → Numbered settings s'
  returned : s'.audio.returned = s.audio.returned
  barred : s'.barred = s.barred

/-- A frame that may be returned. -/
def Permitted (s : VoiceVars) (f : Frame) : Prop :=
  ¬ Overheard s f.number ∧ s.audio.discardedAt ≤ f.number

def duplexLaw (settings : VoiceSettings) : Law VoiceSignature where
  act := Inert settings
  begin
    | .read _, s => Ready settings s
    | _, _ => True
  answer _ s t := ∀ f ∈ t.audio.returned, f ∈ s.audio.returned ∨ Permitted s f
  pre
    | .main needsStart, s => Idle settings s ∧ (needsStart = false → Ready settings s)
    | .supervise needsStart, s => Idle settings s ∧ (needsStart = false → Ready settings s)
    | .run, s => Ready settings s
    | .followup _ _, s => Ready settings s
    | .record _, s => Ready settings s
    | _, s => Idle settings s
  finish s _ := Idle settings s

/-- The program keeps the law. -/
abbrev Isolated (settings : VoiceSettings) (nfkc : PyStr → PyStr) (p : VoiceProg α) (s : VoiceVars)
    (Q : VoiceVars → Except VoiceError α → Prop) : Prop :=
  Safe (voiceService settings nfkc) .all (duplexLaw settings) p s Q

theorem inert_of_eq {t : VoiceVars} (haudio : t.audio = s.audio) (hbarred : t.barred = s.barred) :
    Inert settings s t :=
  ⟨fun hs => hs.of_eq haudio hbarred, congrArg LocalAudioInput.returned haudio, hbarred⟩

theorem inert_setAccepting (enabled : Bool) : Inert settings s (s.setAccepting enabled) :=
  ⟨fun hs => hs.setAccepting enabled, rfl, rfl⟩

theorem inert_discardPending : Inert settings s s.discardPending :=
  ⟨fun hs => hs.discardPending, rfl, rfl⟩

theorem Idle.inert {t : VoiceVars} (h : Idle settings s) (hinert : Inert settings s t)
    (hplaying : t.playing = s.playing) : Idle settings t :=
  ⟨hinert.numbered h.numbered, hplaying.trans h.playing⟩

theorem Fresh.of_eq {t : VoiceVars} (h : Fresh settings s) (haudio : t.audio = s.audio)
    (hbarred : t.barred = s.barred) (hplaying : t.playing = s.playing) : Fresh settings t := by
  refine ⟨h.toIdle.inert (inert_of_eq haudio hbarred) hplaying, ?_⟩
  unfold Overheard
  rw [haudio, hbarred]
  exact h.clean

theorem Fresh.setAccepting (h : Fresh settings s) (enabled : Bool) :
    Fresh settings (s.setAccepting enabled) :=
  ⟨h.toIdle.inert (inert_setAccepting enabled) rfl, ⟨h.clean.queue, h.clean.deferred⟩⟩

theorem Idle.discardPending (h : Idle settings s) : Fresh settings s.discardPending :=
  ⟨h.inert inert_discardPending rfl, avoids_discardPending h.numbered.conserved⟩

/-- In the states in which the service listens. -/
theorem Fresh.ready (h : Fresh settings s)
    (hstate : s.state = .waitingWake ∨ s.state = .waitingFollowup ∨ s.state = .recording) :
    Ready settings s := by
  refine ⟨h.toIdle, ?_, h.clean⟩
  unfold VoiceVars.bars
  rw [h.playing]
  rcases hstate with hstate | hstate | hstate <;> rw [hstate] <;> rfl

theorem Ready.fresh (h : Ready settings s) : Fresh settings s := ⟨h.toIdle, h.clean⟩

/-- Reading the clock changes nothing of it. -/
theorem Ready.read {now : ℚ} (h : Ready settings s) : Ready settings { s with clock := some now } :=
  ⟨⟨h.numbered.of_eq rfl rfl, h.playing⟩, h.unbarred, ⟨h.clean.queue, h.clean.deferred⟩⟩

/-! ## Calls -/

theorem permitted_of_read {c : VoiceCall} {t : VoiceVars} (hends : Ends settings c s t)
    (hread : ∀ reader, c = .read reader → Ready settings s) :
    ∀ f ∈ t.audio.returned, f ∈ s.audio.returned ∨ Permitted s f := by
  intro f hf
  refine (hends.returned f hf).imp_right ?_
  rintro ⟨hqueue, reader, hc⟩
  have hready := hread reader hc
  exact ⟨hready.clean.queue f hqueue, Nat.le_of_not_lt (hready.numbered.recent.queue f hqueue)⟩

/-- After a call nothing is played any more. -/
theorem idle_await {c : VoiceCall} (hc : ∀ reader, c ≠ .read reader) (hs : Idle settings s) :
    Isolated settings nfkc (VoiceProg.await c) s fun t r =>
      Idle settings t ∧ t.state = s.state ∧ ∀ v, r = .ok v → c.Gives v := by
  refine safe_await fun s₁ h₁ => ⟨?_, ?_⟩
  · cases c with
    | read reader => exact absurd rfl (hc reader)
    | _ => exact trivial
  intro s₂ h₂ a r t _ hr
  have hs₁ := idle_of_disturbed h₁ hs
  have hnumbered₂ := numbered_of_disturbed h₂ (numbered_begin hs₁.numbered c)
  have hends := ends_answer settings hr
  have hplaying : c.plays = true ∨ s₂.playing = false := by
    cases hplays : c.plays with
    | true => exact .inl rfl
    | false =>
      have hbegin : (s₁.begin c).playing = false := (playing_begin hplays).trans hs₁.playing
      have hkeep := h₂.keeps (P := fun u : VoiceVars => u.playing = false)
        (fun _ u v _ hstep hu => (bars_of_disturb hstep).1.trans hu) hbegin
      exact .inr hkeep
  refine ⟨permitted_of_read hends fun reader hread => absurd hread (hc reader),
    ⟨hends.numbered hnumbered₂, hends.playing hplaying⟩, ?_, ?_⟩
  · exact (answer_still hr).state.trans ((waited_of_disturbed h₂).state.trans
      ((begin_still s₁ c).state.trans (waited_of_disturbed h₁).state))
  · rintro v rfl
    exact gives_of_answer hr

/-- A read, or another call that plays, opens and closes nothing. -/
theorem ready_await {c : VoiceCall} (hc : c.leavesInput = true) (hplays : c.plays = false)
    (hs : Ready settings s) :
    Isolated settings nfkc (VoiceProg.await c) s fun t _ => Ready settings t := by
  refine safe_await fun s₁ h₁ => ?_
  have hs₁ := ready_of_disturbed h₁ hs
  have hbegin : Ready settings (s₁.begin c) := by
    refine ⟨⟨numbered_begin hs₁.numbered c, (playing_begin hplays).trans hs₁.playing⟩, ?_, ?_⟩
    · have hunbarred := hs₁.unbarred
      unfold VoiceVars.bars at hunbarred ⊢
      rw [playing_begin hplays, (begin_still s₁ c).state]
      exact hunbarred
    · cases c with
      | audioStop => cases hc
      | _ => exact hs₁.clean
  refine ⟨?_, ?_⟩
  · cases c with
    | read reader => exact hs₁
    | _ => exact trivial
  intro s₂ h₂ a r t _ hr
  have hs₂ := ready_of_disturbed h₂ hbegin
  exact ⟨permitted_of_read (ends_answer settings hr) fun _ _ => hs₂,
    ready_answer hc hr hs₂⟩

/-! ## Programs that read nothing -/

/-- The program keeps the record, plays and reads nothing, and goes where nothing need be clean. -/
def Mutes (settings : VoiceSettings) (p : VoiceProg α) : Prop :=
  p.Within
    (fun (f : VoiceVars → VoiceVars) => ∀ s, Inert settings s (f s) ∧ (f s).playing = s.playing)
    (fun (c : VoiceCall) => c.plays = false ∧ ∀ reader, c ≠ .read reader)
    fun h => ∀ s, Idle settings s → (duplexLaw settings).pre h s

theorem Mutes.isolated {p : VoiceProg α} (hp : Mutes settings p) (hs : Idle settings s) :
    Isolated settings nfkc p s fun t _ => Idle settings t := by
  refine safe_of_within (fun mode e u v _ hstep hu => ?_) (fun f u hf hu => ?_)
    (fun c u hc hu => ⟨?_, ?_⟩) (fun c a u r v _ hr hc hu => ?_) (fun h u hh hu => hh u hu) hp hs
  · exact ⟨numbered_of_disturb hstep hu.numbered, (bars_of_disturb hstep).1.trans hu.playing⟩
  · exact ⟨(hf u).1, hu.inert (hf u).1 (hf u).2⟩
  · cases c with
    | read reader => exact absurd rfl (hc.2 reader)
    | _ => exact trivial
  · exact ⟨numbered_begin hu.numbered c, (playing_begin hc.1).trans hu.playing⟩
  · have hends := ends_answer settings hr
    exact ⟨permitted_of_read hends fun reader hread => absurd hread (hc.2 reader),
      hends.numbered hu.numbered, hends.playing (.inr hu.playing)⟩

/-- What follows such a program. -/
theorem idle_bind {p : VoiceProg α} {f : α → VoiceProg β}
    {Q : VoiceVars → Except VoiceError β → Prop} (hp : Mutes settings p) (hs : Idle settings s)
    (hraise : ∀ t e, Idle settings t → Q t (.error e))
    (h : ∀ a t, Idle settings t → Isolated settings nfkc (f a) t Q) :
    Isolated settings nfkc (p >>= f) s Q := by
  refine safe_bind.mpr ((hp.isolated hs).mono fun t r ht => ?_)
  cases r with
  | ok a => exact h a t ht
  | error e => exact hraise t e ht

theorem mutes_bind {p : VoiceProg α} {f : α → VoiceProg β} (hp : Mutes settings p)
    (hf : ∀ a, Mutes settings (f a)) : Mutes settings (p >>= f) := Prog.within_bind hp hf

theorem mutes_modify {f : VoiceVars → VoiceVars} (haudio : ∀ s, (f s).audio = s.audio)
    (hbarred : ∀ s, (f s).barred = s.barred) (hplaying : ∀ s, (f s).playing = s.playing) :
    Mutes settings (VoiceProg.modify f) :=
  Prog.within_modify fun s => ⟨inert_of_eq (haudio s) (hbarred s), hplaying s⟩

theorem mutes_setAccepting (enabled : Bool) :
    Mutes settings (VoiceProg.setAccepting enabled) :=
  Prog.within_modify fun _ => ⟨inert_setAccepting enabled, rfl⟩

theorem mutes_discardPending : Mutes settings VoiceProg.discardPending :=
  Prog.within_modify fun _ => ⟨inert_discardPending, rfl⟩

theorem mutes_gets (f : VoiceVars → α) : Mutes settings (VoiceProg.gets f) := fun _ => trivial

theorem mutes_await {c : VoiceCall} (hplays : c.plays = false) (hc : ∀ reader, c ≠ .read reader) :
    Mutes settings (VoiceProg.await c) := Prog.within_await ⟨hplays, hc⟩

theorem mutes_guarded {flag : VoiceVars → Bool} {body : VoiceProg Unit} (h : Mutes settings body) :
    Mutes settings (VoiceProg.guarded flag body) := by
  refine mutes_bind (mutes_gets flag) fun b => ?_
  cases b
  · exact trivial
  · exact h

theorem mutes_cleanupCall {c : VoiceCall} (hplays : c.plays = false)
    (hc : ∀ reader, c ≠ .read reader) : Mutes settings (VoiceProg.cleanupCall c) := by
  refine Prog.within_attempt (mutes_bind (mutes_await hplays hc) fun _ => trivial) fun e => ?_
  cases e <;> exact trivial

theorem mutes_stopComponent {flag : VoiceVars → Bool} {c : VoiceCall}
    {clear : VoiceVars → VoiceVars} (hplays : c.plays = false) (hc : ∀ reader, c ≠ .read reader)
    (haudio : ∀ s, (clear s).audio = s.audio) (hbarred : ∀ s, (clear s).barred = s.barred)
    (hplaying : ∀ s, (clear s).playing = s.playing) :
    Mutes settings (VoiceProg.stopComponent flag c clear) :=
  mutes_guarded (mutes_bind (mutes_cleanupCall hplays hc) fun _ =>
    mutes_modify haudio hbarred hplaying)

theorem mutes_stopInput : Mutes settings VoiceProg.stopInput :=
  mutes_stopComponent rfl (by nofun) (fun _ => rfl) (fun _ => rfl) fun _ => rfl

theorem mutes_stopPlayback : Mutes settings VoiceProg.stopPlayback :=
  mutes_stopComponent rfl (by nofun) (fun _ => rfl) (fun _ => rfl) fun _ => rfl

theorem mutes_stopDetector : Mutes settings VoiceProg.stopDetector :=
  mutes_stopComponent rfl (by nofun) (fun _ => rfl) (fun _ => rfl) fun _ => rfl

theorem mutes_cleanupPartialStart : Mutes settings VoiceProg.cleanupPartialStart :=
  mutes_bind mutes_stopInput fun _ => mutes_bind mutes_stopPlayback fun _ => mutes_stopDetector

theorem mutes_transition {state : VoiceState} {lastError : Option String} {clearError : Bool} :
    Mutes settings (VoiceProg.transition state lastError clearError) :=
  mutes_modify (fun _ => rfl) (fun _ => rfl) fun _ => rfl

theorem mutes_recoverDevice (e : VoiceError) : Mutes settings (VoiceProg.recoverDevice e) := by
  have hstop : Mutes settings (do
      VoiceProg.cleanupPartialStart
      VoiceProg.transition .error (some "voice_start_failed") false
      pure false) :=
    mutes_bind mutes_cleanupPartialStart fun _ => mutes_bind mutes_transition fun _ => trivial
  cases e with
  | cancelled => exact trivial
  | fatal code =>
    refine mutes_bind mutes_cleanupPartialStart fun _ => ?_
    split
    · exact mutes_bind (mutes_guarded mutes_transition) fun _ => trivial
    · exact mutes_bind mutes_transition fun _ => trivial
  | turn code => exact hstop
  | timeout => exact hstop
  | other => exact hstop

theorem mutes_stopTail : Mutes settings VoiceProg.stopTail := by
  have hclear {f : VoiceVars → VoiceVars} (haudio : ∀ s, (f s).audio = s.audio)
      (hbarred : ∀ s, (f s).barred = s.barred) (hplaying : ∀ s, (f s).playing = s.playing) :
      Mutes settings (VoiceProg.modify f) := mutes_modify haudio hbarred hplaying
  have hcleanup : Mutes settings VoiceProg.cleanupStartedResources :=
    mutes_bind mutes_stopInput fun _ => mutes_bind mutes_stopDetector fun _ =>
      mutes_bind mutes_stopPlayback fun _ =>
        mutes_stopComponent rfl (by nofun) (fun _ => rfl) (fun _ => rfl) fun _ => rfl
  refine mutes_bind (mutes_cleanupCall rfl (by nofun)) fun _ => mutes_bind hcleanup fun _ => ?_
  refine mutes_bind (hclear (fun _ => rfl) (fun _ => rfl) fun _ => rfl) fun _ => ?_
  refine mutes_bind (hclear (fun _ => rfl) (fun _ => rfl) fun _ => rfl) fun _ => ?_
  refine mutes_bind mutes_transition fun _ => ?_
  exact hclear (fun _ => rfl) (fun _ => rfl) fun _ => rfl

/-! ## Turns -/

/-- The program returns to a main loop that can read. -/
def Returns (settings : VoiceSettings) (t : VoiceVars) : Except VoiceError Unit → Prop
  | .ok _ => Ready settings t
  | .error _ => Idle settings t

/-- After a statement that touches neither the microphone nor what is played. -/
theorem fresh_next {t u : VoiceVars} (h : Fresh settings s)
    (hdisturbed : Disturbed (voiceService settings nfkc) A .running s t)
    (haudio : u.audio = t.audio) (hbarred : u.barred = t.barred)
    (hplaying : u.playing = t.playing) : Fresh settings u :=
  (fresh_of_disturbed hdisturbed h).of_eq haudio hbarred hplaying

/-- **`WAITING_WAKE` is entered with nothing left to read.** -/
theorem returns_enterWaitingWake {lastError : Option String} {clearError : Bool}
    (hs : Idle settings s) :
    Isolated settings nfkc (VoiceProg.enterWaitingWake lastError clearError) s
      (Returns settings) := by
  refine idle_bind (mutes_modify (fun _ => rfl) (fun _ => rfl) fun _ => rfl) hs
    (fun _ _ h => h) fun _ t ht => ?_
  refine idle_bind (mutes_modify (fun _ => rfl) (fun _ => rfl) fun _ => rfl) ht
    (fun _ _ h => h) fun _ u hu => ?_
  refine safe_modify_bind.mpr fun s₁ h₁ => ⟨inert_discardPending, ?_⟩
  have hs₁ := (idle_of_disturbed h₁ hu).discardPending
  refine safe_modify_bind.mpr fun s₂ h₂ => ⟨inert_setAccepting true, ?_⟩
  have hs₂ := (fresh_of_disturbed h₂ hs₁).setAccepting true
  refine safe_modify_bind.mpr fun s₃ h₃ => ⟨inert_of_eq rfl rfl, ?_⟩
  have hs₃ : Fresh settings s₃.resetWakeword := fresh_next hs₂ h₃ rfl rfl rfl
  intro s₄ h₄
  have hs₄ : Fresh settings (s₄.transition .waitingWake none lastError clearError) :=
    fresh_next hs₃ h₄ rfl rfl rfl
  exact ⟨inert_of_eq rfl rfl, hs₄.ready (.inl rfl)⟩

theorem returns_startComponents (hs : Idle settings s) :
    Isolated settings nfkc VoiceProg.startComponents s (Returns settings) := by
  have hmodify {f : VoiceVars → VoiceVars} (haudio : ∀ s, (f s).audio = s.audio)
      (hbarred : ∀ s, (f s).barred = s.barred) (hplaying : ∀ s, (f s).playing = s.playing) :
      Mutes settings (VoiceProg.modify f) := mutes_modify haudio hbarred hplaying
  refine idle_bind (mutes_await rfl (by nofun)) hs (fun _ _ h => h) fun _ t ht => ?_
  refine idle_bind (hmodify (fun _ => rfl) (fun _ => rfl) fun _ => rfl) ht (fun _ _ h => h)
    fun _ t ht => ?_
  refine idle_bind (mutes_await rfl (by nofun)) ht (fun _ _ h => h) fun _ t ht => ?_
  refine idle_bind (hmodify (fun _ => rfl) (fun _ => rfl) fun _ => rfl) ht (fun _ _ h => h)
    fun _ t ht => ?_
  refine idle_bind (mutes_await rfl (by nofun)) ht (fun _ _ h => h) fun _ t ht => ?_
  refine idle_bind (hmodify (fun _ => rfl) (fun _ => rfl) fun _ => rfl) ht (fun _ _ h => h)
    fun _ t ht => ?_
  refine idle_bind mutes_discardPending ht (fun _ _ h => h) fun _ t ht => ?_
  refine idle_bind (hmodify (fun _ => rfl) (fun _ => rfl) fun _ => rfl) ht (fun _ _ h => h)
    fun _ t ht => ?_
  exact returns_enterWaitingWake ht

/-- The clock is read. -/
theorem isolated_monotonic {next : ℚ → VoiceProg β} {Q : VoiceVars → Except VoiceError β → Prop}
    (h : ∀ now t, Disturbed (voiceService settings nfkc) .all .running s t →
      Isolated settings nfkc (next now) { t with clock := some now } Q) :
    Isolated settings nfkc (VoiceProg.monotonic >>= next) s Q :=
  fun s₁ h₁ s₂ h₂ => ⟨inert_of_eq rfl rfl, h (Ieee.double s₁.now) s₂ (h₁.trans h₂)⟩

theorem returns_resumeFollowup {original : Option ℚ} (hs : Fresh settings s) :
    Isolated settings nfkc (VoiceProg.resumeFollowup original) s (Returns settings) := by
  refine isolated_monotonic fun now s₁ h₁ => ?_
  have hs₁ : Fresh settings { s₁ with clock := some now } := fresh_next hs h₁ rfl rfl rfl
  split
  · intro s₂ h₂
    have hs₂ : Fresh settings (s₂.transition .waitingFollowup none none false) :=
      fresh_next hs₁ h₂ rfl rfl rfl
    exact ⟨inert_of_eq rfl rfl, hs₂.ready (.inr (.inl rfl))⟩
  · exact returns_enterWaitingWake hs₁.toIdle

/-- What was heard during the error effect is discarded. -/
theorem idle_playErrorEffect (hs : Idle settings s) :
    Isolated settings nfkc VoiceProg.playErrorEffect s fun t _ => Idle settings t := by
  refine idle_bind (mutes_setAccepting false) hs (fun _ _ h => h) fun _ t ht => ?_
  refine idle_bind mutes_discardPending ht (fun _ _ h => h) fun _ t ht => ?_
  refine safe_bind.mpr ((idle_await (c := .playEffect .error) (by nofun) ht).mono ?_)
  rintro t r ⟨ht, -, -⟩
  cases r with
  | error e => exact ht
  | ok v => exact mutes_discardPending.isolated ht

theorem returns_recoverTurnError {code : String} (hs : Idle settings s) :
    Isolated settings nfkc (VoiceProg.recoverTurnError code) s (Returns settings) := by
  refine safe_bind.mpr ((idle_playErrorEffect hs).mono fun t r ht => ?_)
  cases r with
  | error e => exact ht
  | ok _ => exact returns_enterWaitingWake ht

theorem returns_recoverEmptyTranscript {original : Option ℚ} (hs : Idle settings s) :
    Isolated settings nfkc (VoiceProg.recoverEmptyTranscript original) s (Returns settings) := by
  refine safe_bind.mpr ((idle_playErrorEffect hs).mono fun t r ht => ?_)
  cases r with
  | error e => exact ht
  | ok _ =>
    refine safe_modify_bind.mpr fun s₁ h₁ => ⟨inert_discardPending, ?_⟩
    have hs₁ := (idle_of_disturbed h₁ ht).discardPending
    refine safe_modify_bind.mpr fun s₂ h₂ => ⟨inert_setAccepting true, ?_⟩
    exact returns_resumeFollowup ((fresh_of_disturbed h₂ hs₁).setAccepting true)

theorem returns_turnStep {c : VoiceCall} {next : VoiceValue → VoiceProg Unit}
    (hs : Idle settings s) (hc : ∀ reader, c ≠ .read reader)
    (hnext : ∀ v t, c.Gives v → Idle settings t →
      Isolated settings nfkc (next v) t (Returns settings)) :
    Isolated settings nfkc (VoiceProg.turnStep c next) s (Returns settings) := by
  refine safe_bind.mpr (safe_attempt.mpr (safe_bind.mpr ((idle_await hc hs).mono ?_)))
  rintro t r ⟨ht, -, hgives⟩
  cases r with
  | ok v => exact hnext v t (hgives v rfl) ht
  | error e =>
    cases e with
    | turn code => exact returns_recoverTurnError ht
    | _ => exact ht

theorem returns_openFollowupWindow (hs : Fresh settings s) :
    Isolated settings nfkc (VoiceProg.openFollowupWindow settings) s (Returns settings) := by
  refine isolated_monotonic fun now s₁ h₁ => ?_
  have hs₁ : Fresh settings { s₁ with clock := some now } := fresh_next hs h₁ rfl rfl rfl
  refine safe_modify_bind.mpr fun s₂ h₂ => ⟨inert_of_eq rfl rfl, ?_⟩
  have hs₂ : Fresh settings { s₂ with followupDeadline := some (windowEnd settings now) } :=
    fresh_next hs₁ h₂ rfl rfl rfl
  intro s₃ h₃ utc
  have hs₃ := fresh_of_disturbed h₃ hs₂
  refine safe_modify_bind.mpr fun s₄ h₄ => ⟨inert_of_eq rfl rfl, ?_⟩
  have hs₄ : Fresh settings { s₄ with
      followupExpiresAt := some (utc + settings.followupTimeoutSeconds) } :=
    fresh_next hs₃ h₄ rfl rfl rfl
  intro s₅ h₅
  have hs₅ : Fresh settings (s₅.transition .waitingFollowup
      (some (utc + settings.followupTimeoutSeconds)) none true) := fresh_next hs₄ h₅ rfl rfl rfl
  exact ⟨inert_of_eq rfl rfl, hs₅.ready (.inr (.inl rfl))⟩

/-- What was heard in the guard after a reply is discarded. -/
theorem returns_afterSuccessfulPlayback {nextAction : AssistantNextAction}
    (hs : Idle settings s) :
    Isolated settings nfkc (VoiceProg.afterSuccessfulPlayback settings nextAction) s
      (Returns settings) := by
  refine idle_bind (mutes_setAccepting false) hs (fun _ _ h => h) fun _ t ht => ?_
  refine idle_bind mutes_discardPending ht (fun _ _ h => h) fun _ t ht => ?_
  refine idle_bind (mutes_await rfl (by nofun)) ht (fun _ _ h => h) fun _ t ht => ?_
  refine safe_modify_bind.mpr fun s₁ h₁ => ⟨inert_discardPending, ?_⟩
  have hs₁ := (idle_of_disturbed h₁ ht).discardPending
  split
  · refine safe_modify_bind.mpr fun s₂ h₂ => ⟨inert_setAccepting true, ?_⟩
    exact returns_openFollowupWindow ((fresh_of_disturbed h₂ hs₁).setAccepting true)
  · exact returns_enterWaitingWake hs₁.toIdle

theorem returns_speak {reply : AssistantReply} (hs : Idle settings s) :
    Isolated settings nfkc (VoiceProg.speak settings (.replied reply)) s (Returns settings) := by
  refine idle_bind mutes_transition hs (fun _ _ h => h) fun _ t ht => ?_
  exact returns_turnStep ht (by nofun) fun _ _ _ hu => returns_afterSuccessfulPlayback hu

theorem returns_processTranscript {original : Option ℚ} {value : PyStr} (hs : Idle settings s) :
    Isolated settings nfkc (VoiceProg.processTranscript settings nfkc original (.text value)) s
      (Returns settings) := by
  unfold VoiceProg.processTranscript
  dsimp only
  split
  · exact returns_recoverEmptyTranscript hs
  · refine returns_turnStep hs (by nofun) fun v t hv ht => ?_
    obtain ⟨reply, rfl⟩ := hv
    exact returns_speak ht

/-- **After a recording nothing is left to read but what was heard in the last waiting state.** -/
theorem returns_processRecording {r : RecordLoop} {utterance : Option AudioUtterance}
    (hs : Ready settings s) :
    Isolated settings nfkc (VoiceProg.processRecording settings nfkc r utterance) s
      (Returns settings) := by
  cases utterance with
  | none =>
    unfold VoiceProg.processRecording VoiceProg.returnAfterEmptyRecording
    dsimp only
    split
    · exact returns_resumeFollowup hs.fresh
    · exact returns_enterWaitingWake hs.toIdle
  | some utterance =>
    refine idle_bind (mutes_setAccepting false) hs.toIdle (fun _ _ h => h) fun _ t ht => ?_
    refine idle_bind mutes_discardPending ht (fun _ _ h => h) fun _ t ht => ?_
    refine idle_bind mutes_transition ht (fun _ _ h => h) fun _ t ht => ?_
    refine returns_turnStep ht (by nofun) fun v t hv ht => ?_
    obtain ⟨value, rfl⟩ := hv
    exact returns_processTranscript ht

/-! ## The main loop -/

theorem isolated_loop {p : VoiceProg Unit} (h : Isolated settings nfkc p s (Returns settings)) :
    Isolated settings nfkc (do
      p
      VoiceProg.goto .run) s fun t _ => Idle settings t := by
  refine safe_bind.mpr (h.mono fun t r ht => ?_)
  cases r with
  | ok _ => exact fun t₁ h₁ => ready_of_disturbed h₁ ht
  | error e => exact ht

theorem isolated_read {reader : Reader} {next : Option AudioChunk → VoiceProg Unit}
    (hs : Ready settings s)
    (h : ∀ chunk t, Ready settings t →
      Isolated settings nfkc (next chunk) t fun t _ => Idle settings t) :
    Isolated settings nfkc (VoiceProg.read reader >>= next) s fun t _ => Idle settings t := by
  refine safe_bind.mpr (safe_attempt.mpr (safe_bind.mpr
    ((ready_await (c := .read reader) rfl rfl hs).mono fun t r ht => ?_)))
  cases r with
  | ok v => cases v <;> exact h _ t ht
  | error e =>
    cases e with
    | timeout => exact h none t ht
    | _ => exact ht.toIdle

/-- The end of `_run_turn`'s preparations. -/
theorem isolated_toRecord {trigger : RecordingTrigger} {original : Option ℚ}
    {state : RecorderState} (hs : Ready settings s) (deadline : Option ℚ) :
    Isolated settings nfkc (match deadline with
      | none => VoiceProg.raise (.fatal "followup_deadline_missing")
      | some deadline =>
          VoiceProg.goto (.record
            { trigger := trigger
              originalFollowupDeadline := original
              speechStartDeadline := deadline
              state := state })) s
      fun t _ => Idle settings t := by
  cases deadline with
  | none => exact hs.toIdle
  | some d => exact fun u h => ready_of_disturbed h hs

theorem isolated_runTurn {trigger : RecordingTrigger} {initialChunks : List AudioChunk}
    {streak : ℕ} {original : Option ℚ} (hs : Ready settings s) :
    Isolated settings nfkc (VoiceProg.runTurn settings trigger initialChunks streak original) s
      fun t _ => Idle settings t := by
  refine safe_modify_bind.mpr fun s₁ h₁ => ⟨inert_of_eq rfl rfl, ?_⟩
  have hs₁ : Fresh settings (s₁.transition .recording none none false) :=
    fresh_next hs.fresh h₁ rfl rfl rfl
  cases trigger with
  | followup =>
    have hready := hs₁.ready (.inr (.inr rfl))
    refine isolated_monotonic fun now s₂ h₂ => ?_
    exact isolated_toRecord (ready_of_disturbed h₂ hready).read original
  | wakeWord =>
    refine safe_bind.mpr ?_
    refine safe_modify_bind.mpr fun s₂ h₂ => ⟨inert_setAccepting false, ?_⟩
    have hs₂ := (fresh_of_disturbed h₂ hs₁).setAccepting false
    refine safe_modify_bind.mpr fun s₃ h₃ => ⟨inert_discardPending, ?_⟩
    have hs₃ := (idle_of_disturbed h₃ hs₂.toIdle).discardPending
    refine safe_bind.mpr ((idle_await (c := .playEffect .acknowledgement) (by nofun)
      hs₃.toIdle).mono ?_)
    rintro t r ⟨ht, hstate, -⟩
    have hstate₃ : t.state = .recording :=
      hstate.trans ((waited_of_disturbed h₃).state.trans (waited_of_disturbed h₂).state)
    cases r with
    | error e => exact ht
    | ok v =>
      refine safe_modify_bind.mpr fun s₄ h₄ => ⟨inert_discardPending, ?_⟩
      have hs₄ := (idle_of_disturbed h₄ ht).discardPending
      intro s₅ h₅
      refine ⟨inert_setAccepting true, ?_⟩
      have hstate₅ : (s₅.setAccepting true).state = .recording :=
        (waited_of_disturbed h₅).state.trans ((waited_of_disturbed h₄).state.trans hstate₃)
      have hs₅ := ((fresh_of_disturbed h₅ hs₄).setAccepting true).ready (.inr (.inr hstate₅))
      refine isolated_monotonic fun now s₆ h₆ => ?_
      exact isolated_toRecord (ready_of_disturbed h₆ hs₅).read
        (some (Ieee.double (now + settings.speechStartTimeoutSeconds)))

theorem isolated_record {r : RecordLoop} (hs : Ready settings s) :
    Isolated settings nfkc (VoiceProg.record settings nfkc r) s fun t _ => Idle settings t := by
  refine isolated_monotonic fun now s₁ h₁ => ?_
  have hs₁ : Ready settings { s₁ with clock := some now } := (ready_of_disturbed h₁ hs).read
  split
  · exact isolated_loop (returns_processRecording hs₁)
  · refine isolated_read hs₁ fun chunk t ht => ?_
    split
    · exact fun t₁ h₁ => ready_of_disturbed h₁ ht
    · exact isolated_loop (returns_processRecording ht)

theorem isolated_followup {deadline : ℚ} {preroll : List AudioChunk} (hs : Ready settings s) :
    Isolated settings nfkc (VoiceProg.followup settings deadline preroll) s
      fun t _ => Idle settings t := by
  refine isolated_monotonic fun now s₁ h₁ => ?_
  have hs₁ : Ready settings { s₁ with clock := some now } := (ready_of_disturbed h₁ hs).read
  split
  · exact isolated_loop (returns_enterWaitingWake hs₁.toIdle)
  · refine isolated_read hs₁ fun chunk t ht => ?_
    cases chunk with
    | none => exact isolated_loop (returns_enterWaitingWake ht.toIdle)
    | some c =>
      dsimp only
      split
      · refine safe_gets_bind.mpr fun t₁ h₁ => ?_
        exact isolated_runTurn (ready_of_disturbed h₁ ht)
      · exact fun t₁ h₁ => ready_of_disturbed h₁ ht

theorem isolated_waitForWakeWord (hs : Ready settings s) :
    Isolated settings nfkc (VoiceProg.waitForWakeWord settings) s fun t _ => Idle settings t := by
  refine isolated_read hs fun chunk t ht => ?_
  cases chunk with
  | none => exact fun t₁ h₁ => ready_of_disturbed h₁ ht
  | some c =>
    refine safe_bind.mpr ((ready_await (c := .wakewordDetect c.pcm) rfl rfl ht).mono
      fun u r hu => ?_)
    cases r with
    | error e => exact hu.toIdle
    | ok v =>
      dsimp only
      split
      · exact isolated_runTurn hu
      · exact fun u₁ h₁ => ready_of_disturbed h₁ hu

theorem isolated_run (hs : Ready settings s) :
    Isolated settings nfkc (VoiceProg.run settings) s fun t _ => Idle settings t := by
  refine safe_gets_bind.mpr fun s₁ h₁ => ?_
  have hs₁ := ready_of_disturbed h₁ hs
  split
  · exact hs₁.toIdle
  · refine safe_gets_bind.mpr fun s₂ h₂ => ?_
    have hs₂ := ready_of_disturbed h₂ hs₁
    split
    · exact isolated_waitForWakeWord hs₂
    · refine safe_gets_bind.mpr fun s₃ h₃ => ?_
      have hs₃ := ready_of_disturbed h₃ hs₂
      split
      · exact hs₃.toIdle
      · exact fun s₄ h₄ => ready_of_disturbed h₄ hs₃
    · exact hs₂.toIdle

/-! ## The calls from outside -/

theorem isolated_supervised {body : VoiceProg Unit}
    (h : Isolated settings nfkc body s fun t _ => Idle settings t) :
    Isolated settings nfkc (VoiceProg.supervised body) s fun t _ => Idle settings t := by
  refine safe_attempt.mpr (h.mono fun t r ht => ?_)
  cases r with
  | ok _ => exact ht
  | error e =>
    refine idle_bind (mutes_recoverDevice e) ht (fun _ _ h => h) fun again u hu => ?_
    cases again
    · exact hu
    · exact fun u₁ h₁ => ⟨idle_of_disturbed h₁ hu, by nofun⟩

theorem isolated_supervise {needsStart : Bool}
    (hs : (duplexLaw settings).pre (.supervise needsStart) s) :
    Isolated settings nfkc (VoiceProg.supervise needsStart) s fun t _ => Idle settings t := by
  refine safe_gets_bind.mpr fun s₁ h₁ => ?_
  have hs₁ := idle_of_disturbed h₁ hs.1
  split
  · exact hs₁
  · cases needsStart with
    | true =>
      refine isolated_supervised ?_
      refine idle_bind (mutes_await rfl (by nofun)) hs₁ (fun _ _ h => h) fun _ t ht => ?_
      exact isolated_loop (returns_startComponents ht)
    | false => exact fun s₂ h₂ => ready_of_disturbed h₂ (ready_of_disturbed h₁ (hs.2 rfl))

theorem isolated_main {needsStart : Bool} (hs : (duplexLaw settings).pre (.main needsStart) s) :
    Isolated settings nfkc (VoiceProg.main needsStart) s fun t _ => Idle settings t := by
  cases needsStart with
  | true =>
    refine idle_bind (mutes_await rfl (by nofun)) hs.1 (fun _ _ h => h) fun _ t ht => ?_
    exact fun t₁ h₁ => ⟨idle_of_disturbed h₁ ht, by nofun⟩
  | false =>
    refine safe_bind.mpr ((ready_await (c := .mainTask) rfl rfl (hs.2 rfl)).mono fun t r ht => ?_)
    cases r with
    | error e => exact ht.toIdle
    | ok v =>
      intro t₁ h₁
      have ht₁ := ready_of_disturbed h₁ ht
      exact ⟨ht₁.toIdle, fun _ => ht₁⟩

/-- The task of the main loop is created. -/
theorem isolated_create {needsStart : Bool} (hs : Idle settings s)
    (hready : needsStart = false → Ready settings s) :
    Isolated settings nfkc (do
      VoiceProg.modify fun s => { s with mainTask := true, cancelRequested := false }
      VoiceProg.goto (.main needsStart)) s fun t _ => Idle settings t := by
  refine safe_modify_bind.mpr fun s₁ h₁ => ⟨inert_of_eq rfl rfl, ?_⟩
  have hs₁ := (idle_of_disturbed h₁ hs).inert
    (inert_of_eq (t := { s₁ with mainTask := true, cancelRequested := false }) rfl rfl) rfl
  intro s₂ h₂
  refine ⟨idle_of_disturbed h₂ hs₁, fun hneeds => ready_of_disturbed h₂ ?_⟩
  have hready₁ := ready_of_disturbed h₁ (hready hneeds)
  exact ⟨hs₁, hready₁.unbarred, hready₁.clean⟩

/-- After a start that failed, the main loop begins with another one, if at all. -/
theorem isolated_afterRecovery {again : Option Bool} (hs : Idle settings s)
    (hagain : again ≠ some false) :
    Isolated settings nfkc (match again with
      | none => pure ()
      | some needsStart => do
          VoiceProg.modify fun s => { s with mainTask := true, cancelRequested := false }
          VoiceProg.goto (.main needsStart)) s fun t _ => Idle settings t := by
  cases again with
  | none => exact hs
  | some needsStart =>
    cases needsStart with
    | true => exact isolated_create hs fun h => by cases h
    | false => exact absurd rfl hagain

theorem isolated_start (hs : Idle settings s) :
    Isolated settings nfkc VoiceProg.start s fun t _ => Idle settings t := by
  refine idle_bind (mutes_modify (fun _ => rfl) (fun _ => rfl) fun _ => rfl) hs (fun _ _ h => h)
    fun _ t ht => ?_
  refine safe_bind.mpr (safe_attempt.mpr (safe_bind.mpr
    ((returns_startComponents ht).mono fun u r hu => ?_)))
  cases r with
  | ok _ => exact isolated_create hu.toIdle fun _ => hu
  | error e =>
    have hrecover : Isolated settings nfkc (do
        let again ← VoiceProg.recoverDevice e
        if again then pure (some true) else pure none) u fun t r =>
          Idle settings t ∧ r ≠ .ok (some false) := by
      refine safe_bind.mpr (((mutes_recoverDevice e).isolated hu).mono fun t r ht => ?_)
      cases r with
      | error e => exact ⟨ht, fun h => by cases h⟩
      | ok again => cases again <;> exact ⟨ht, fun h => by cases h⟩
    cases e with
    | cancelled =>
      exact idle_bind mutes_cleanupPartialStart hu (fun _ _ h => h) fun _ _ ht => ht
    | _ =>
      refine hrecover.mono ?_
      rintro t r ⟨ht, hr⟩
      cases r with
      | error _ => exact ht
      | ok a => exact isolated_afterRecovery ht fun ha => hr (congrArg Except.ok ha)

theorem isolated_stop (hs : Idle settings s) :
    Isolated settings nfkc VoiceProg.stop s fun t _ => Idle settings t := by
  have hbegin : Mutes settings (VoiceProg.modify fun s => s.beginStop) :=
    Prog.within_modify fun s =>
      ⟨⟨fun hs => ((hs.setAccepting false).discardPending).of_eq rfl rfl, rfl, rfl⟩, rfl⟩
  exact (mutes_guarded (mutes_bind hbegin fun _ => mutes_stopTail)).isolated hs

theorem duplex_verified : Verified (voiceService settings nfkc) .all (duplexLaw settings) where
  body := by
    intro h s hpre
    cases h with
    | start => exact isolated_start hpre
    | stop => exact isolated_stop hpre
    | stopTail => exact mutes_stopTail.isolated hpre
    | main needsStart => exact isolated_main hpre
    | supervise needsStart => exact isolated_supervise hpre
    | run => exact isolated_supervised (isolated_run hpre)
    | followup deadline preroll => exact isolated_supervised (isolated_followup hpre)
    | record r => exact isolated_supervised (isolated_record hpre)
  finish _ _ _ _ _ hstep h :=
    ⟨numbered_of_disturb hstep h.numbered, (bars_of_disturb hstep).1.trans h.playing⟩
  enter := by
    intro h s s' r hcall hidle hdisturbed
    have hidle' := idle_of_disturbed hdisturbed hidle
    cases h with
    | start => exact hidle'
    | stop => exact hidle'
    | stopTail => exact hidle'
    | _ => cases hcall

/-! ## Runs -/

/-- Nothing that was overheard has been read. -/
structure Unheard (settings : VoiceSettings) (s : VoiceVars) : Prop where
  numbered : Numbered settings s
  returned : ∀ f ∈ s.audio.returned, ¬ Overheard s f.number

theorem Numbered.returned_lt (h : Numbered settings s) {f : Frame} (hf : f ∈ s.audio.returned) :
    f.number < s.audio.callbacks := by
  refine h.conserved.past f (h.conserved.fates.mem_iff.mpr ?_)
  unfold LocalAudioInput.gone
  exact List.mem_append_left _ (List.mem_append_left _ (List.mem_append_left _ hf))

theorem Unheard.of_inert {t : VoiceVars} (h : Unheard settings s) (hinert : Inert settings s t) :
    Unheard settings t := by
  refine ⟨hinert.numbered h.numbered, fun f hf => ?_⟩
  unfold Overheard
  rw [hinert.barred]
  exact h.returned f (by rwa [hinert.returned] at hf)

theorem inert_begin (c : VoiceCall) : Inert settings s (s.begin c) := by
  refine ⟨fun hs => numbered_begin hs c, ?_, ?_⟩ <;> cases c <;> rfl

/-- The number of a callback is new. -/
theorem returned_disturb {mode : Mode} {e : VoiceEvent} {t : VoiceVars}
    (h : s.disturb settings mode e = some t) :
    t.audio.returned = s.audio.returned ∧
      ∀ b ∈ t.barred, b ∈ s.barred ∨ b.1 = s.audio.callbacks := by
  cases happens_of_disturb h with
  | callback pcm capturedAt inputOverflow =>
    refine ⟨rfl, fun b hb => ?_⟩
    simp only [VoiceVars.callback] at hb
    split at hb
    · refine (List.mem_append.mp hb).imp_right fun hnew => ?_
      rw [List.mem_singleton.mp hnew]
    · exact .inl hb
  | @enqueueFromLoop d rest hmode hdeferred =>
    exact ⟨(enqueued_enqueueFromLoop settings.inputQueueFrames d
      { s.audio with deferred := rest }).returned, fun _ hb => .inl hb⟩
  | _ => exact ⟨rfl, fun _ hb => .inl hb⟩

theorem Unheard.disturb (h : Unheard settings s) {mode : Mode} {e : VoiceEvent} {t : VoiceVars}
    (hstep : s.disturb settings mode e = some t) : Unheard settings t := by
  obtain ⟨hreturned, hbarred⟩ := returned_disturb hstep
  refine ⟨numbered_of_disturb hstep h.numbered, fun f hf hbad => ?_⟩
  rw [hreturned] at hf
  rcases hbarred _ hbad with hold | hnew
  · exact h.returned f hf hold
  · have hlt := h.numbered.returned_lt hf
    have heq : f.number = s.audio.callbacks := hnew
    omega

/-- What a step keeps. -/
theorem duplex_kept {c c' : Config VoiceSignature} {l : Label VoiceSignature}
    (hk : Kept (voiceService settings nfkc) .all (duplexLaw settings) c ∧ Unheard settings c.vars)
    (hl : Admits.all.label c l) (hstep : step (voiceService settings nfkc) c l = some c') :
    Kept (voiceService settings nfkc) .all (duplexLaw settings) c' ∧ Unheard settings c'.vars := by
  obtain ⟨hkept, hmoved⟩ := kept_of_step duplex_verified hk.1 hl hstep
  refine ⟨hkept, ?_⟩
  cases hmoved with
  | still h =>
    rw [h]
    exact hk.2
  | act h => exact hk.2.of_inert h
  | begin d k _ _ hvars _ =>
    rw [hvars]
    exact hk.2.of_inert (inert_begin d)
  | answer d a r _ h hlaw =>
    have hends := ends_answer settings h
    refine ⟨hends.numbered hk.2.numbered, fun f hf => ?_⟩
    unfold Overheard
    rw [hends.barred]
    rcases hlaw f hf with hold | hpermitted
    · exact hk.2.returned f hold
    · exact hpermitted.1
  | disturb mode e _ h => exact hk.2.disturb h

theorem unheard_created (settings : VoiceSettings) : Unheard settings {} :=
  ⟨⟨conserved_created settings.inputQueueFrames, ⟨by nofun, by nofun⟩, by nofun⟩, by nofun⟩

/-- **What was recorded while the service waited for a playback, or for anything else in
`PROCESSING`, `SPEAKING` or `ERROR`, is never read, and neither is what was recorded before the last
`discard_pending`**, at any step of any run. -/
theorem half_duplex {ls : List (Label VoiceSignature)} {l : Label VoiceSignature}
    {c c' : Config VoiceSignature} (hrun : VoiceService.Runs settings nfkc ls c)
    (hstep : step (voiceService settings nfkc) c l = some c') :
    (∀ f ∈ c'.vars.audio.returned, (f.number, true) ∉ c'.vars.barred) ∧
      ∀ f ∈ c'.vars.audio.returned, f ∈ c.vars.audio.returned ∨
        c.vars.audio.discardedAt ≤ f.number := by
  have hmeets := meets_all (voiceService settings nfkc) (.idle {}) (ls ++ [l])
  have hidle : Idle settings {} := ⟨(unheard_created settings).numbered, rfl⟩
  have hkept := Transition.invariant_of_meets (fun _ _ _ hk hl hstep => duplex_kept hk hl hstep)
    (s := .idle {}) ⟨hidle, unheard_created settings⟩ (Transition.meets_append hmeets).1 hrun
  have hl := hmeets.at_step hrun
  have hunheard := (duplex_kept hkept hl hstep).2
  refine ⟨fun f hf => hunheard.returned f hf, fun f hf => ?_⟩
  have hstill (h : c'.vars.audio.returned = c.vars.audio.returned) :
      f ∈ c.vars.audio.returned ∨ c.vars.audio.discardedAt ≤ f.number := .inl (h ▸ hf)
  cases lawful duplex_verified hidle hmeets hrun hstep with
  | still h => exact hstill (by rw [h])
  | act h => exact hstill h.returned
  | begin d k _ _ hvars _ =>
    refine hstill ?_
    rw [hvars]
    have hinert : Inert settings c.vars (c.vars.begin d) := inert_begin d
    exact hinert.returned
  | answer d a r _ _ hlaw => exact (hlaw f hf).imp_right And.right
  | disturb mode e _ h => exact hstill (returned_disturb h).1

/-- A loud frame is captured. -/
def captured (capturedAt : ℚ) : Label VoiceSignature :=
  .disturb (.callback (List.replicate inputFrameBytes 64) capturedAt false)

/-- The microphone hears the reply, and after it something else. -/
def echoRun : List (Label VoiceSignature) :=
  spokenRun ++ [captured 3, .disturb .enqueueFromLoop] ++ answered .returned 3 ++
    answered .returned 16 ++ [captured 4, .disturb .enqueueFromLoop]

/-- What the microphone heard of the reply is not read. -/
theorem half_duplex_echo : ∃ c c', VoiceService.Runs .default id echoRun c ∧
    step (voiceService .default id) c (.answer .chunk) = some c' ∧
    (∀ f ∈ c'.vars.audio.returned, (f.number, true) ∉ c'.vars.barred) ∧
    (∀ f ∈ c'.vars.audio.returned, f ∈ c.vars.audio.returned ∨
      c.vars.audio.discardedAt ≤ f.number) ∧
    c'.vars.barred = [(3, true)] ∧
    c'.vars.audio.returned.map (fun f => f.number) = [0, 1, 2, 4] := by
  have hrun : ((Transition.exec (step (voiceService .default id)) (.idle {}) echoRun).bind
      fun c => (step (voiceService .default id) c (.answer .chunk)).map
        fun c' => (c'.vars.barred, c'.vars.audio.returned.map fun f => f.number)) =
      some ([(3, true)], [0, 1, 2, 4]) := by
    decide +kernel
  obtain ⟨c, hc, hstep⟩ := Option.bind_eq_some_iff.mp hrun
  obtain ⟨c', hc', hread⟩ := Option.map_eq_some_iff.mp hstep
  have hisolated := half_duplex hc hc'
  exact ⟨c, c', hc, hc', hisolated.1, hisolated.2, congrArg Prod.fst hread,
    congrArg Prod.snd hread⟩

/-- After the reply the microphone is accepted again, and captures a frame before the state is
left. -/
def lateRun : List (Label VoiceSignature) :=
  spokenRun ++ answered .returned 3 ++ answered .returned 2 ++
    captured 3 :: List.replicate 14 (.run 0) ++ [.disturb .enqueueFromLoop, .answer .chunk]

/-- **A frame that is captured in `SPEAKING`, between two statements of the block that ends it, can
be read.** -/
theorem speaking_read : ¬ ∀ (settings : VoiceSettings) (nfkc : PyStr → PyStr)
    (ls : List (Label VoiceSignature)) (c : Config VoiceSignature),
    VoiceService.Runs settings nfkc ls c →
      ∀ f ∈ c.vars.audio.returned, ∀ waiting, (f.number, waiting) ∉ c.vars.barred := by
  intro hnever
  have hrun : (Transition.exec (step (voiceService .default id)) (.idle {}) lateRun).map
      (fun c => (c.vars.barred, c.vars.audio.returned.map fun f => f.number)) =
      some ([(3, false)], [0, 1, 2, 3]) := by
    decide +kernel
  obtain ⟨c, hc, hread⟩ := Option.map_eq_some_iff.mp hrun
  have hbarred : c.vars.barred = [(3, false)] := congrArg Prod.fst hread
  have hreturned : c.vars.audio.returned.map (fun f => f.number) = [0, 1, 2, 3] :=
    congrArg Prod.snd hread
  have hthree : 3 ∈ c.vars.audio.returned.map fun f => f.number := by
    rw [hreturned]
    decide
  obtain ⟨f, hf, hnumber⟩ := List.mem_map.mp hthree
  refine hnever .default id lateRun c hc f hf false ?_
  rw [hbarred, hnumber]
  exact List.mem_singleton.mpr rfl

end SmartDesk.Voice
