import SmartDesk.Mqtt.Client

/-!
# One connection at a time

* `Steady` — what the events leave alone while the task waits; nothing happens between two
  statements.
* `Sound` — a client that says it is connected is so, with all its topics subscribed.
* `connectionLaw` — each statement and each call keeps `Sound`, what is opened is closed before the
  next connection, and a task that was told to end waits for nothing but the end of its connection.
* `managed_of_run` — **in every run a message is only handed to the connection opened last, once all
  its topics are subscribed**, no connection outlives the task, and after the first success no lost
  connection ends it.
* `cancellation_lost` — but the end of a connection can lose the cancellation of `stop`.
-/

namespace SmartDesk.Mqtt

open PyText Script

variable {s t : MqttVars} {mode : Mode} {α β : Type}

/-! ## Events -/

/-- What the events leave alone.  As long as the client owns its task, nobody registers a topic and
nobody takes the connection away. -/
structure Steady (mode : Mode) (s t : MqttVars) : Prop where
  quitting : t.quitting = s.quitting
  completed : t.completed = s.completed
  live : t.live = s.live
  opened : t.opened = s.opened
  subscribed : t.subscribed = s.subscribed
  connected : t.connected = true → s.connected = true
  client : t.client = s.client ∨ t.client = none
  handlers : s.handlers <+: t.handlers
  owned : mode = .waiting → t.runnerTask = true →
    s.runnerTask = true ∧ t.handlers = s.handlers ∧ t.client = s.client

theorem Steady.refl (mode : Mode) (s : MqttVars) : Steady mode s s :=
  ⟨rfl, rfl, rfl, rfl, rfl, id, .inl rfl, List.prefix_refl _, fun _ h => ⟨h, rfl, rfl⟩⟩

theorem Steady.trans {u : MqttVars} (h : Steady mode s t) (h' : Steady mode t u) :
    Steady mode s u where
  quitting := h'.quitting.trans h.quitting
  completed := h'.completed.trans h.completed
  live := h'.live.trans h.live
  opened := h'.opened.trans h.opened
  subscribed := h'.subscribed.trans h.subscribed
  connected := fun hu => h.connected (h'.connected hu)
  client := by
    rcases h'.client with heq | hnone
    · rw [heq]
      exact h.client
    · exact .inr hnone
  handlers := h.handlers.trans h'.handlers
  owned := fun hmode hu => by
    obtain ⟨ht, hhandlers, hclient⟩ := h'.owned hmode hu
    obtain ⟨hs, hhandlers', hclient'⟩ := h.owned hmode ht
    exact ⟨hs, hhandlers.trans hhandlers', hclient.trans hclient'⟩

theorem steady_cancelRunner (mode : Mode) (s : MqttVars) : Steady mode s (s.cancelRunner mode) := by
  unfold MqttVars.cancelRunner
  split
  · exact ⟨rfl, rfl, rfl, rfl, rfl, id, .inl rfl, List.prefix_refl _, fun _ h => by cases h⟩
  · exact .refl mode s

/-- A change of what only `start` and `stop` look at. -/
theorem Steady.of_eq {u : MqttVars} (h : Steady mode s t) (hquitting : u.quitting = t.quitting)
    (hcompleted : u.completed = t.completed) (hlive : u.live = t.live)
    (hopened : u.opened = t.opened) (hsubscribed : u.subscribed = t.subscribed)
    (hconnected : u.connected = t.connected) (hclient : u.client = t.client)
    (hhandlers : u.handlers = t.handlers) (hrunner : u.runnerTask = t.runnerTask) : Steady mode s u := by
  exact h.trans ⟨hquitting, hcompleted, hlive, hopened, hsubscribed, fun h => hconnected ▸ h,
    .inl hclient, hhandlers ▸ List.prefix_refl _, fun _ h => ⟨hrunner ▸ h, hhandlers, hclient⟩⟩

theorem steady_register (mode : Mode) (s : MqttVars) (r : Registration) :
    Steady mode s (s.register mode r) := by
  unfold MqttVars.register
  split
  · next hfree =>
    refine ⟨rfl, rfl, rfl, rfl, rfl, id, .inl rfl, List.prefix_append _ _, ?_⟩
    rintro rfl hrunner
    have hrunner : s.runnerTask = true := hrunner
    rw [hrunner] at hfree
    simp [MqttVars.active] at hfree
  · exact .refl mode s

theorem steady_stopped (h : s.runnerTask = false ∨ mode ≠ .waiting) :
    Steady mode s s.stopped := by
  refine ⟨rfl, rfl, rfl, rfl, rfl, (fun h => by cases h), .inr rfl, List.prefix_refl _, ?_⟩
  intro hmode hrunner
  exact absurd hrunner (by
    rw [show s.stopped.runnerTask = s.runnerTask from rfl, h.resolve_right (not_not.mpr hmode)]
    decide)

theorem steady_startTask (hmode : mode ≠ .running) : Steady mode s (s.startTask mode) := by
  unfold MqttVars.startTask
  split
  · exact .refl mode s
  · next hfree =>
    dsimp only
    split
    · next hactive =>
      refine ⟨rfl, rfl, rfl, rfl, rfl, (fun h => by cases h), .inl rfl, List.prefix_refl _, ?_⟩
      exact fun _ hrunner => ⟨hrunner, rfl, rfl⟩
    · next hidle =>
      refine ⟨rfl, rfl, rfl, rfl, rfl, (fun h => by cases h), .inl rfl, List.prefix_refl _, ?_⟩
      rintro rfl
      exact absurd rfl hidle

/-- **What an event leaves alone.** -/
theorem steady_of_disturb {e : MqttEvent} (h : s.disturb mode e = some t) : Steady mode s t := by
  unfold MqttVars.disturb at h
  split at h
  · cases h
  · next hmode =>
    cases e with
    | register r =>
      cases h
      exact steady_register mode s r
    | start =>
      simp only [Option.ite_none_right_eq_some, Option.some.injEq] at h
      rw [← h.2]
      exact steady_startTask hmode
    | startReturns =>
      simp only [Option.ite_none_right_eq_some, Option.some.injEq] at h
      rw [← h.2]
      exact (Steady.refl mode s).of_eq rfl rfl rfl rfl rfl rfl rfl rfl rfl
    | startFails =>
      simp only [Option.ite_none_right_eq_some, Option.some.injEq] at h
      rw [← h.2]
      exact (steady_cancelRunner mode s).of_eq rfl rfl rfl rfl rfl rfl rfl rfl rfl
    | startTimesOut =>
      simp only [Option.ite_none_right_eq_some, Option.some.injEq] at h
      rw [← h.2]
      exact (steady_cancelRunner mode s).of_eq rfl rfl rfl rfl rfl rfl rfl rfl rfl
    | startCancelled =>
      dsimp only at h
      split at h
      · cases h
        exact (Steady.refl mode s).of_eq rfl rfl rfl rfl rfl rfl rfl rfl rfl
      · simp only [Option.ite_none_right_eq_some, Option.some.injEq] at h
        rw [← h.2]
        exact (Steady.refl mode s).of_eq rfl rfl rfl rfl rfl rfl rfl rfl rfl
    | abandoned =>
      simp only [Option.ite_none_right_eq_some, Option.some.injEq] at h
      rw [← h.2]
      exact (Steady.refl mode s).of_eq rfl rfl rfl rfl rfl rfl rfl rfl rfl
    | stop =>
      dsimp only at h
      split at h
      · cases h
      · split at h
        · cases h
          exact (steady_cancelRunner mode s).of_eq rfl rfl rfl rfl rfl rfl rfl rfl rfl
        · next hrunner =>
          cases h
          exact steady_stopped (.inl (Bool.eq_false_iff.mpr hrunner))
    | stopReturns =>
      simp only [Option.ite_none_right_eq_some, Option.some.injEq] at h
      rw [← h.2]
      refine steady_stopped (.inr ?_)
      rintro rfl
      exact absurd h.1.2 (by simp [MqttVars.active])
    | stopCancelled =>
      simp only [Option.ite_none_right_eq_some, Option.some.injEq] at h
      rw [← h.2]
      exact (Steady.refl mode s).of_eq rfl rfl rfl rfl rfl rfl rfl rfl rfl
    | shutdown =>
      cases h
      exact (Steady.refl mode s).of_eq rfl rfl rfl rfl rfl rfl rfl rfl rfl

/-! ## Sound clients -/

/-- All registered topics are subscribed on the connection opened last. -/
def Complete (s : MqttVars) : Prop := ∀ r ∈ s.handlers, r.topic ∈ s.subscribed

/-- A client that owns its task and says it is connected is so. -/
structure Sound (s : MqttVars) : Prop where
  connected : s.connected = true → s.runnerTask = true →
    s.client = some s.opened ∧ Complete s
  client : ∀ n, s.client = some n → n = s.opened
  starting : s.owner = .starting → s.runnerTask = true

theorem Steady.unconnected (h : Steady mode s t) (hs : s.connected = false) :
    t.connected = false := by
  cases hconnected : t.connected with
  | false => rfl
  | true => exact absurd (h.connected hconnected) (by simp [hs])

/-- What the `finally` clause leaves. -/
structure Down (s : MqttVars) : Prop where
  connected : s.connected = false
  client : s.client = none

theorem Steady.down (h : Steady mode s t) (hs : Down s) : Down t where
  connected := h.unconnected hs.connected
  client := h.client.elim (fun heq => heq.trans hs.client) id

/-- The owner that waits for the startup event has created the task. -/
theorem starting_of_disturb {e : MqttEvent} (h : s.disturb mode e = some t)
    (hs : s.owner = .starting → s.runnerTask = true) : t.owner = .starting → t.runnerTask = true := by
  unfold MqttVars.disturb at h
  split at h
  · cases h
  · cases e with
    | register r =>
      cases h
      unfold MqttVars.register
      split <;> exact hs
    | start =>
      simp only [Option.ite_none_right_eq_some, Option.some.injEq] at h
      rw [← h.2]
      unfold MqttVars.startTask
      split
      · exact hs
      · dsimp only
        split
        · exact hs
        · exact fun _ => rfl
    | startCancelled =>
      dsimp only at h
      split at h
      · cases h
        nofun
      · simp only [Option.ite_none_right_eq_some, Option.some.injEq] at h
        rw [← h.2]
        nofun
    | stop =>
      dsimp only at h
      split at h
      · cases h
      · split at h <;> cases h <;> nofun
    | shutdown =>
      cases h
      exact hs
    | _ =>
      simp only [Option.ite_none_right_eq_some, Option.some.injEq] at h
      rw [← h.2]
      nofun

/-- **Events keep a sound client sound**; one without a task is not connected. -/
theorem sound_of_disturb {e : MqttEvent} (h : s.disturb mode e = some t)
    (hended : mode = .ended → s.connected = false) (hs : Sound s) : Sound t where
  connected := by
    intro hconnected hrunner
    have hsteady := steady_of_disturb h
    have hold := hsteady.connected hconnected
    have hmode : mode = .waiting := by
      cases mode with
      | running => cases h
      | waiting => rfl
      | ended => exact absurd (hended rfl) (by simp [hold])
    obtain ⟨hrunner', hhandlers, hclient⟩ := hsteady.owned hmode hrunner
    obtain ⟨hopened, hcomplete⟩ := hs.connected hold hrunner'
    refine ⟨by rw [hclient, hsteady.opened, hopened], ?_⟩
    unfold Complete
    rw [hhandlers, hsteady.subscribed]
    exact hcomplete
  client := by
    intro n hn
    have hsteady := steady_of_disturb h
    rw [hsteady.opened]
    rcases hsteady.client with heq | hnone
    · exact hs.client n (heq ▸ hn)
    · rw [hnone] at hn
      cases hn
  starting := starting_of_disturb h hs.starting

/-! ## The law -/

/-- The topics before the `i`-th are subscribed on the connection that was opened last. -/
structure Opening (i : ℕ) (s : MqttVars) : Prop where
  connected : s.connected = false
  client : s.runnerTask = true → s.client = some s.opened
  index : i ≤ s.handlers.length
  subscribed : ∀ r ∈ s.handlers.take i, r.topic ∈ s.subscribed

theorem Steady.opening {i : ℕ} (h : Steady .waiting s t) (hs : Opening i s) : Opening i t where
  connected := h.unconnected hs.connected
  client := by
    intro hrunner
    obtain ⟨hrunner', -, hclient⟩ := h.owned rfl hrunner
    rw [hclient, h.opened]
    exact hs.client hrunner'
  index := hs.index.trans h.handlers.length_le
  subscribed := by
    obtain ⟨more, hmore⟩ := h.handlers
    rw [h.subscribed, ← hmore, List.take_append_of_le_length hs.index]
    exact hs.subscribed

/-- A task that was not told to end, with the variable of `_run` and with or without a
connection. -/
structure Going (connectedOnce live : Bool) (s : MqttVars) : Prop where
  quitting : s.quitting = false
  completed : s.completed = connectedOnce
  live : s.live = live

theorem Steady.going {connectedOnce live : Bool} (h : Steady mode s t)
    (hs : Going connectedOnce live s) : Going connectedOnce live t where
  quitting := h.quitting.trans hs.quitting
  completed := h.completed.trans hs.completed
  live := h.live.trans hs.live

/-- The calls for which there is a connection. -/
def online : MqttCall → Bool
  | .connect | .sleep => false
  | _ => true

def connectionLaw : Law MqttSignature where
  act s t := Sound s → Sound t
  begin c s := s.live = online c ∧ (s.quitting = true → c = .exit)
  answer _ s t := Sound s → Sound t
  pre
    | .task, s => Down s ∧ s.live = false
    | .run connectedOnce, s => Down s ∧ Going connectedOnce false s
    | .subscribeAll connectedOnce _ i, s => Opening i s ∧ Going connectedOnce true s
    | .messages, s => Going true true s
    | .reconnect, s => Down s ∧ Going true false s
  finish s r := Down s ∧ s.live = false ∧ (r = .ok () → s.completed = false) ∧ r ≠ .error .mqtt

/-- The program keeps the law. -/
abbrev Lawful (p : MqttProg α) (s : MqttVars) (Q : MqttVars → Except MqttException α → Prop) : Prop :=
  Safe mqttClient .all connectionLaw p s Q

theorem steady_of_disturbed (h : Disturbed mqttClient .all mode s t) : Steady mode s t :=
  h.keeps (fun _ _ _ _ hstep hu => hu.trans (steady_of_disturb hstep)) (.refl mode s)

theorem uninterrupted : Uninterrupted mqttClient := fun _ _ => rfl

/-! ## Statements and calls -/

theorem lawful_modify {f : MqttVars → MqttVars} {next : Unit → MqttProg α}
    {Q : MqttVars → Except MqttException α → Prop} (hf : Sound s → Sound (f s))
    (h : Lawful (next ()) (f s) Q) : Lawful (MqttProg.modify f >>= next) s Q :=
  safe_modify uninterrupted hf h

theorem lawful_gets {f : MqttVars → β} {next : β → MqttProg α}
    {Q : MqttVars → Except MqttException α → Prop} (h : Lawful (next (f s)) s Q) :
    Lawful (MqttProg.gets f >>= next) s Q := safe_gets uninterrupted h

theorem lawful_goto {h : MqttHead} {Q : MqttVars → Except MqttException Unit → Prop}
    (hpre : connectionLaw.pre h s) : Lawful (MqttProg.goto h) s Q := safe_goto uninterrupted hpre

/-- What a call has done if it returns. -/
def succeed (c : MqttCall) (s : MqttVars) : MqttVars :=
  match c with
  | .connect =>
      { s with cancelling := false, live := true, opened := s.opened + 1, subscribed := [] }
  | .subscribe topic _ => { s with cancelling := false, subscribed := topic :: s.subscribed }
  | .exit => { s with cancelling := false, live := false }
  | _ => { s with cancelling := false }

/-- What a call has done if it raises. -/
def fail (c : MqttCall) (e : MqttException) (s : MqttVars) : MqttVars :=
  { s with cancelling := false, quitting := e = .cancelled, live := s.live && c ≠ .exit }

/-- **How a call can end.** -/
theorem answer_cases {c : MqttCall} {a : MqttAnswer} {r : Except MqttException MqttValue}
    (h : MqttVars.answer c a s = some (r, t)) :
    (∃ v, r = .ok v ∧ t = succeed c s) ∨
      ∃ e, r = .error e ∧ t = fail c e s ∧ (c = .sleep → e = .cancelled) := by
  unfold MqttVars.answer at h
  split at h
  · cases h
  · next hpossible =>
    dsimp only at h
    split at h <;> cases h
    · next e =>
      refine .inr ⟨e, rfl, rfl, ?_⟩
      rintro rfl
      cases e with
      | cancelled => rfl
      | _ => simp [MqttVars.possible] at hpossible
    all_goals exact .inl ⟨_, rfl, rfl⟩

/-- A call: what follows it starts where it returned or raised. -/
theorem lawful_await {c : MqttCall} {Q : MqttVars → Except MqttException MqttValue → Prop}
    (hlive : s.live = online c) (hbegin : s.quitting = true → c = .exit)
    (hok : ∀ u v, Steady .waiting s u → (Sound u → Sound (succeed c u)) ∧ Q (succeed c u) (.ok v))
    (herror : ∀ u e, Steady .waiting s u → (c = .sleep → e = .cancelled) →
      Q (fail c e u) (.error e)) :
    Lawful (MqttProg.await c) s Q := by
  refine safe_call uninterrupted ⟨hlive, hbegin⟩ fun u hu a r t _ hr => ?_
  have hsteady := steady_of_disturbed hu
  rcases answer_cases hr with ⟨v, rfl, rfl⟩ | ⟨e, rfl, rfl, he⟩
  · exact hok u v hsteady
  · exact ⟨fun hs => ⟨hs.connected, hs.client, hs.starting⟩, herror u e hsteady he⟩

/-! ## Closing a connection -/

/-- A cancellation is the reason of an end. -/
structure Raised (connectedOnce live : Bool) (e : MqttException) (s : MqttVars) : Prop where
  quitting : s.quitting = decide (e = .cancelled)
  completed : s.completed = connectedOnce
  live : s.live = live

/-- A body only raises or jumps. -/
def Thrown (connectedOnce live : Bool) (s : MqttVars) (r : Except MqttException α) : Prop :=
  ∃ e, r = .error e ∧ Raised connectedOnce live e s

/-- A call that fails; only the end of a connection ends it. -/
theorem raised_fail {connectedOnce live : Bool} {c : MqttCall} {e : MqttException}
    (hc : c ≠ .exit) (hs : Going connectedOnce live s) :
    Raised connectedOnce live e (fail c e s) where
  quitting := rfl
  completed := hs.completed
  live := by simp [fail, hc, hs.live]

theorem thrown_of_going {connectedOnce live : Bool} {c : MqttCall} {u : MqttVars}
    {e : MqttException} (hc : c ≠ .exit) (h : Steady .waiting s u)
    (hs : Going connectedOnce live s) :
    Thrown (α := α) connectedOnce live (fail c e u) (.error e) :=
  ⟨e, rfl, raised_fail hc (h.going hs)⟩

theorem sound_succeed {c : MqttCall} (hconnect : c ≠ .connect) (hs : Sound s) :
    Sound (succeed c s) := by
  cases c with
  | connect => exact absurd rfl hconnect
  | subscribe topic qos =>
    refine ⟨fun h₁ h₂ => ⟨(hs.connected h₁ h₂).1, fun r hr => ?_⟩, hs.client, hs.starting⟩
    exact List.mem_cons_of_mem _ ((hs.connected h₁ h₂).2 r hr)
  | _ => exact ⟨hs.connected, hs.client, hs.starting⟩

/-- **A connection is closed however its body ends.** -/
theorem lawful_closing {connectedOnce : Bool} {body : MqttProg Unit}
    (h : Lawful body s (Thrown connectedOnce true)) :
    Lawful (MqttProg.closing body) s (Thrown connectedOnce false) := by
  refine safe_attempt.mpr (h.mono fun t r ht => ?_)
  obtain ⟨e, rfl, ht⟩ := ht
  refine safe_bind.mpr (lawful_await ht.live (fun _ => rfl) (fun u v hu => ?_)
    fun u e' hu _ => ?_)
  · exact ⟨sound_succeed (by decide), e, rfl, hu.quitting.trans ht.quitting,
      hu.completed.trans ht.completed, rfl⟩
  · exact ⟨e', rfl, rfl, hu.completed.trans ht.completed, by simp [fail]⟩

theorem sound_unconnected (hs : Sound s) : Sound { s with connected := false } :=
  ⟨(fun h => by cases h), hs.client, hs.starting⟩

theorem sound_lastError {e : Option MqttException} (hs : Sound s) :
    Sound { s with lastError := e } := ⟨hs.connected, hs.client, hs.starting⟩

theorem sound_startupEvent (hs : Sound s) : Sound { s with startupEvent := true } :=
  ⟨hs.connected, hs.client, hs.starting⟩

/-- The `finally` clause. -/
theorem lawful_disconnected {Q : MqttVars → Except MqttException Unit → Prop}
    (h : Q { s with connected := false, client := none } (.ok ())) :
    Lawful MqttProg.disconnected s Q := by
  refine lawful_modify sound_unconnected fun u hu => ?_
  rw [eq_of_running uninterrupted hu]
  exact ⟨fun hs => ⟨(fun h => by cases h), (fun _ h => by cases h), hs.starting⟩, h⟩

/-- **The `except` clauses**: a lost connection ends the task only before the first success. -/
theorem lawful_handled {connectedOnce : Bool} {body : MqttProg Unit}
    (h : Lawful body s (Thrown connectedOnce false)) :
    Lawful (MqttProg.handled connectedOnce body) s connectionLaw.finish := by
  refine safe_attempt.mpr (h.mono fun t r ht => ?_)
  obtain ⟨e, rfl, ht⟩ := ht
  cases e with
  | cancelled =>
    exact safe_bind.mpr (lawful_disconnected ⟨⟨rfl, rfl⟩, ht.live, by nofun, by nofun⟩)
  | mqtt =>
    refine lawful_modify sound_lastError ?_
    cases connectedOnce with
    | true =>
      refine safe_bind.mpr (lawful_disconnected (lawful_goto ⟨⟨rfl, rfl⟩, ?_⟩))
      exact ⟨ht.quitting, ht.completed, ht.live⟩
    | false =>
      exact lawful_modify sound_startupEvent
        (lawful_disconnected ⟨⟨rfl, rfl⟩, ht.live, fun _ => ht.completed, by nofun⟩)
  | other =>
    refine lawful_modify sound_lastError ?_
    cases connectedOnce with
    | true =>
      exact safe_bind.mpr (lawful_disconnected ⟨⟨rfl, rfl⟩, ht.live, by nofun, by nofun⟩)
    | false =>
      refine lawful_modify sound_startupEvent ?_
      exact safe_bind.mpr (lawful_disconnected ⟨⟨rfl, rfl⟩, ht.live, by nofun, by nofun⟩)

/-! ## The loops -/

/-- A call of a task that was not told to end. -/
theorem Going.call {connectedOnce live : Bool} {c : MqttCall} (hs : Going connectedOnce live s) :
    s.quitting = true → c = .exit := fun h => absurd (hs.quitting.symm.trans h) (by decide)

theorem lawful_run {connectedOnce : Bool} (hdown : Down s) (hgoing : Going connectedOnce false s) :
    Lawful (MqttProg.run connectedOnce) s connectionLaw.finish := by
  refine lawful_handled (safe_bind.mpr (lawful_await hgoing.live hgoing.call (fun u _ hu => ?_)
    fun u e hu _ => thrown_of_going (by decide) hu hgoing))
  have hu' := hu.down hdown
  have hgoing' := hu.going hgoing
  refine ⟨fun hs => ⟨?_, ?_, hs.starting⟩, ?_⟩
  · intro hconnected
    exact absurd (hu'.connected.symm.trans hconnected) (by decide)
  · intro n hn
    cases hu'.client.symm.trans hn
  · refine lawful_modify (fun hs => ⟨?_, fun n hn => (Option.some.inj hn).symm, hs.starting⟩)
      (lawful_gets (lawful_goto ⟨⟨hu'.connected, fun _ => rfl, Nat.zero_le _, ?_⟩,
        hgoing'.quitting, hgoing'.completed, rfl⟩))
    · intro hconnected
      exact absurd (hu'.connected.symm.trans hconnected) (by decide)
    · nofun

/-- All topics are subscribed when the loop over them ends. -/
theorem lawful_complete {connectedOnce : Bool} (hopening : Opening s.handlers.length s)
    (hgoing : Going connectedOnce true s) :
    Lawful (MqttProg.complete connectedOnce) s (Thrown connectedOnce true) := by
  have hcomplete : Complete s := by
    have hsubscribed := hopening.subscribed
    rwa [List.take_length] at hsubscribed
  have hgoing' : Going true true { s with connected := true, completed := true } :=
    ⟨hgoing.quitting, rfl, hgoing.live⟩
  refine lawful_modify (fun hs => ⟨fun _ hrunner => ⟨hopening.client hrunner, hcomplete⟩,
    hs.client, hs.starting⟩) (lawful_modify sound_lastError ?_)
  cases connectedOnce with
  | true => exact lawful_goto ⟨hgoing'.quitting, rfl, hgoing'.live⟩
  | false =>
    exact lawful_modify sound_startupEvent (lawful_goto ⟨hgoing'.quitting, rfl, hgoing'.live⟩)

theorem Steady.registration {i : ℕ} {r : Registration} (h : Steady mode s t)
    (hr : s.handlers[i]? = some r) : t.handlers[i]? = some r := by
  obtain ⟨hlt, rfl⟩ := List.getElem?_eq_some_iff.mp hr
  exact List.prefix_iff_getElem?.mp h.handlers i hlt

/-- A topic of the loop is subscribed. -/
theorem Opening.subscribe {i : ℕ} {r : Registration} (h : Opening i s)
    (hr : s.handlers[i]? = some r) : Opening (i + 1) (succeed (.subscribe r.topic r.qos) s) where
  connected := h.connected
  client := h.client
  index := (List.getElem?_eq_some_iff.mp hr).1
  subscribed := by
    intro q hq
    rw [show (succeed (.subscribe r.topic r.qos) s).handlers = s.handlers from rfl,
      List.take_add_one, hr] at hq
    rcases List.mem_append.mp hq with hold | hnew
    · exact List.mem_cons_of_mem _ (h.subscribed q hold)
    · rw [List.mem_singleton.mp hnew]
      exact List.mem_cons_self

/-- The loop over the topics: the `i`-th one, or the end. -/
theorem lawful_subscribeAll {connectedOnce : Bool} {size i : ℕ} (hopening : Opening i s)
    (hgoing : Going connectedOnce true s) :
    Lawful (MqttProg.subscribeAll connectedOnce size i) s connectionLaw.finish := by
  refine lawful_handled (lawful_closing (lawful_gets ?_))
  split
  · split
    · next r hr =>
      refine safe_bind.mpr (lawful_await hgoing.live hgoing.call (fun u _ hu => ?_)
        fun u e hu _ => thrown_of_going (fun h => by cases h) hu hgoing)
      have hu' := hu.opening hopening
      have hgoing' := hu.going hgoing
      exact ⟨sound_succeed (fun h => by cases h), lawful_goto
        ⟨hu'.subscribe (hu.registration hr), hgoing'.quitting, hgoing'.completed, hgoing'.live⟩⟩
    · next hnone =>
      have hlength : i = s.handlers.length :=
        Nat.le_antisymm hopening.index (List.getElem?_eq_none_iff.mp hnone)
      subst hlength
      exact lawful_complete hopening hgoing
  · exact ⟨.other, rfl, hgoing.quitting, hgoing.completed, hgoing.live⟩

/-- A handler that fails is the end of nothing. -/
theorem lawful_dispatch {m : Incoming} (hgoing : Going true true s) :
    Lawful (MqttProg.dispatch m) s fun t r =>
      (r = .ok () ∧ Going true true t) ∨ Thrown true true t r := by
  refine lawful_gets ?_
  split
  · exact .inl ⟨rfl, hgoing⟩
  · next r hr =>
    split
    · intro s' hs' receivedAt
      rw [eq_of_running uninterrupted hs']
      refine safe_attempt.mpr (safe_bind.mpr (lawful_await hgoing.live hgoing.call
        (fun u _ hu => ⟨sound_succeed (fun h => by cases h), .inl ⟨rfl, ?_⟩⟩) fun u e hu _ => ?_))
      · have hgoing' := hu.going hgoing
        exact ⟨hgoing'.quitting, hgoing'.completed, hgoing'.live⟩
      · have hraised := raised_fail (c := .handle r.handler ⟨m.topic, m.payload, m.qos, m.retain,
          receivedAt⟩) (e := e) (fun h => by cases h) (hu.going hgoing)
        cases e with
        | cancelled => exact .inr ⟨.cancelled, rfl, hraised⟩
        | mqtt => exact .inl ⟨rfl, hraised.quitting, hraised.completed, hraised.live⟩
        | other => exact .inl ⟨rfl, hraised.quitting, hraised.completed, hraised.live⟩
    · exact .inr ⟨.other, rfl, hgoing.quitting, hgoing.completed, hgoing.live⟩

theorem lawful_messages (hgoing : Going true true s) :
    Lawful MqttProg.messages s connectionLaw.finish := by
  refine lawful_handled (lawful_closing (safe_bind.mpr (lawful_await hgoing.live hgoing.call
    (fun u v hu => ⟨sound_succeed (fun h => by cases h), ?_⟩)
    fun u e hu _ => thrown_of_going (by decide) hu hgoing)))
  have hgoing' : Going true true (succeed .next u) :=
    ⟨(hu.going hgoing).quitting, (hu.going hgoing).completed, (hu.going hgoing).live⟩
  cases v with
  | none => exact ⟨.mqtt, rfl, hgoing'.quitting, hgoing'.completed, hgoing'.live⟩
  | message m =>
    refine safe_bind.mpr ((lawful_dispatch hgoing').mono fun t r ht => ?_)
    rcases ht with ⟨rfl, ht⟩ | ⟨e, rfl, ht⟩
    · exact lawful_goto ht
    · exact ⟨e, rfl, ht⟩

theorem lawful_reconnect (hdown : Down s) (hgoing : Going true false s) :
    Lawful MqttProg.reconnect s connectionLaw.finish := by
  refine safe_bind.mpr (lawful_await hgoing.live hgoing.call (fun u _ hu => ?_)
    fun u e hu he => ?_)
  · have hu' := hu.down hdown
    have hgoing' := hu.going hgoing
    exact ⟨sound_succeed (fun h => by cases h), lawful_goto ⟨⟨hu'.connected, hu'.client⟩,
      hgoing'.quitting, hgoing'.completed, hgoing'.live⟩⟩
  · have hraised := raised_fail (c := .sleep) (e := e) (by decide) (hu.going hgoing)
    rw [he rfl] at hraised ⊢
    exact ⟨⟨(hu.down hdown).connected, (hu.down hdown).client⟩, hraised.live, nofun, nofun⟩

theorem lawful_task (hdown : Down s) (hlive : s.live = false) :
    Lawful MqttProg.task s connectionLaw.finish := by
  refine lawful_modify (fun hs => ⟨?_, hs.client, hs.starting⟩)
    (lawful_goto ⟨⟨hdown.connected, hdown.client⟩, rfl, rfl, hlive⟩)
  exact fun hconnected _ => absurd (hdown.connected.symm.trans hconnected) (by decide)

/-! ## Runs -/

theorem connection_verified : Verified mqttClient .all connectionLaw where
  body := by
    intro h s hpre
    cases h with
    | task => exact lawful_task hpre.1 hpre.2
    | run connectedOnce => exact lawful_run hpre.1 hpre.2
    | subscribeAll connectedOnce size i => exact lawful_subscribeAll hpre.1 hpre.2
    | messages => exact lawful_messages hpre
    | reconnect => exact lawful_reconnect hpre.1 hpre.2
  finish := by
    intro e s t r _ hstep hs
    have hsteady : Steady .ended s t := steady_of_disturb (e := e) hstep
    refine ⟨hsteady.down hs.1, hsteady.live.trans hs.2.1, fun hr => ?_, hs.2.2.2⟩
    exact hsteady.completed.trans (hs.2.2.1 hr)
  enter := by
    intro h s t r hcallable hs hdisturbed
    rw [eq_of_running uninterrupted hdisturbed]
    cases h with
    | task => exact ⟨hs.1, hs.2.1⟩
    | _ => cases hcallable

theorem sound_created : Sound {} := ⟨nofun, nofun, nofun⟩

/-- What a task that has ended leaves. -/
theorem left_of_ended {c : Config MqttSignature} (hk : Kept mqttClient .all connectionLaw c)
    (hended : c.mode = .ended) : Down c.vars ∧ c.vars.live = false := by
  rcases finish_of_ended hk hended with ⟨-, hfinish⟩ | ⟨e, -, hfinish⟩
  · exact ⟨hfinish.1, hfinish.2.1⟩
  · exact ⟨hfinish.1, hfinish.2.1⟩

theorem running_of_connected {c : Config MqttSignature}
    (hk : Kept mqttClient .all connectionLaw c) (hconnected : c.vars.connected = true) :
    c.mode ≠ .ended := by
  intro hended
  have hdown := (left_of_ended hk hended).1
  exact absurd (hconnected.symm.trans hdown.connected) (by decide)

/-- What a step keeps. -/
theorem sound_of_step {c c' : Config MqttSignature} {l : Label MqttSignature}
    (hk : Kept mqttClient .all connectionLaw c) (hs : Sound c.vars) (hl : Admits.all.label c l)
    (hstep : step mqttClient c l = some c') : Sound c'.vars := by
  refine vars_of_step (fun _ _ h => h) (fun _ _ h => h) (fun _ _ _ h => h) ?_ hk hl hstep hs
  intro e s _ hdisturb
  exact sound_of_disturb (e := e) hdisturb fun hended => (left_of_ended hk hended).1.connected

/-- What holds of the client at any time. -/
structure Managed (c : Config MqttSignature) : Prop where
  /-- A message is handed to the connection opened last, while the task runs; unless the client
  has given its task up, all its topics are subscribed there. -/
  publish : ∀ topic qos n, c.vars.publish topic qos = .ok n → n = c.vars.opened ∧
    c.mode ≠ .ended ∧ (c.vars.runnerTask = true → Complete c.vars)
  /-- `start` only returns on such a connection. -/
  start : ∀ t, c.vars.disturb c.mode .startReturns = some t →
    t.client = some t.opened ∧ Complete t ∧ c.mode ≠ .ended
  /-- A task that has ended leaves no connection behind. -/
  ended : c.mode = .ended → Down c.vars ∧ c.vars.live = false
  /-- After the first success only a cancellation, or an exception that is no `MqttError`, ends
  the task. -/
  survives : c.mode = .ended → c.vars.completed = true →
    c.prog = .raise .cancelled ∨ c.prog = .raise .other
  /-- There is one connection at a time. -/
  single : ∀ l c', step mqttClient c l = some c' → c.waits = false → c'.waits = true →
    ∀ k, c'.prog = .call .connect k → c.vars.live = false
  /-- A task that was told to end only waits for the end of its connection. -/
  quits : ∀ l c', step mqttClient c l = some c' → c.waits = false → c'.waits = true →
    c.vars.quitting = true → ∃ k, c'.prog = .call .exit k

theorem managed_of_kept {c : Config MqttSignature} (hk : Kept mqttClient .all connectionLaw c)
    (hs : Sound c.vars) : Managed c where
  publish := by
    intro topic qos n hn
    unfold MqttVars.publish at hn
    split at hn
    · split at hn
      · next m hconnected hclient =>
        cases hn
        exact ⟨hs.client n hclient, running_of_connected hk hconnected,
          fun hrunner => (hs.connected hconnected hrunner).2⟩
      · cases hn
    · cases hn
  start := by
    intro t ht
    unfold MqttVars.disturb at ht
    simp only [Option.ite_none_left_eq_some, Option.ite_none_right_eq_some,
      Option.some.injEq] at ht
    obtain ⟨-, ⟨howner, -, hconnected⟩, rfl⟩ := ht
    obtain ⟨hclient, hcomplete⟩ := hs.connected hconnected (hs.starting howner)
    exact ⟨hclient, hcomplete, running_of_connected hk hconnected⟩
  ended := left_of_ended hk
  survives := by
    intro hended hcompleted
    rcases finish_of_ended hk hended with ⟨-, hfinish⟩ | ⟨e, hprog, hfinish⟩
    · exact absurd (hcompleted.symm.trans (hfinish.2.2.1 rfl)) (by decide)
    · cases e with
      | mqtt => exact absurd rfl hfinish.2.2.2
      | cancelled => exact .inl hprog
      | other => exact .inr hprog
  single := by
    intro l c' hstep hwaits hwaits' k hprog
    obtain ⟨d, k', hprog', -, hbegin⟩ := begin_of_step hk hstep hwaits hwaits'
    cases hprog.symm.trans hprog'
    exact hbegin.1
  quits := by
    intro l c' hstep hwaits hwaits' hquitting
    obtain ⟨d, k, hprog, -, hbegin⟩ := begin_of_step hk hstep hwaits hwaits'
    exact ⟨k, hbegin.2 hquitting ▸ hprog⟩

/-- **The client is managed in every run.** -/
theorem managed_of_run {ls : List (Label MqttSignature)} {c : Config MqttSignature}
    (hrun : Transition.exec (step mqttClient) (.idle {}) ls = some c) : Managed c := by
  have hidle : Kept mqttClient .all connectionLaw (.idle {}) :=
    ⟨⟨rfl, rfl⟩, rfl, fun _ => rfl, nofun⟩
  have hkept := Transition.invariant_of_meets
    (I := fun c => Kept mqttClient .all connectionLaw c ∧ Sound c.vars)
    (fun _ _ _ hk hl hstep => ⟨(kept_of_step connection_verified hk.1 hl hstep).1,
      sound_of_step hk.1 hk.2 hl hstep⟩) ⟨hidle, sound_created⟩
    (meets_all mqttClient (.idle {}) ls) hrun
  exact managed_of_kept hkept.1 hkept.2

/-- A call returns, and the task goes on. -/
def answered (n : ℕ) : List (Label MqttSignature) :=
  .answer .returned :: List.replicate n (.run 0)

/-- A client with one topic is started. -/
def startedRun : List (Label MqttSignature) :=
  [.disturb (.register ⟨[.scalar 'd'], 1, 0⟩), .disturb .start, .enter .task] ++
    List.replicate 4 (.run 0) ++ answered 5 ++ answered 7 ++ [.disturb .startReturns]

/-- Its connection is lost, and there is another one. -/
def lostRun : List (Label MqttSignature) :=
  startedRun ++ [.answer (.raised .mqtt), .run 0] ++ answered 5 ++ answered 2 ++ answered 5 ++
    answered 6

/-- After a lost connection the second one gets the messages. -/
theorem managed_lost : ∃ c, Transition.exec (step mqttClient) (.idle {}) lostRun = some c ∧
    Managed c ∧ c.vars.publish [.scalar 'd'] 1 = .ok 2 := by
  have hrun : (Transition.exec (step mqttClient) (.idle {}) lostRun).map
      (fun c => (c.vars.connected, c.vars.client)) = some (true, some 2) := by
    decide +kernel
  obtain ⟨c, hc, hread⟩ := Option.map_eq_some_iff.mp hrun
  have hconnected : c.vars.connected = true := congrArg Prod.fst hread
  have hclient : c.vars.client = some 2 := congrArg Prod.snd hread
  have hvalid : (validTopic [.scalar 'd'] && validQos 1) = true := by decide
  refine ⟨c, hc, managed_of_run hc, ?_⟩
  unfold MqttVars.publish
  rw [if_pos hvalid, hconnected, hclient]

/-- **A task that was told to end can connect again**, while `stop` still waits for it: when the end
of the connection fails with an `MqttError`, that error takes the place of the cancellation. -/
theorem cancellation_lost : ∃ ls c, Transition.exec (step mqttClient) (.idle {}) ls = some c ∧
    c.vars.owner = .stopping ∧ c.vars.cancelling = false ∧ c.vars.connected = true := by
  have hrun : (Transition.exec (step mqttClient) (.idle {})
      (startedRun ++ [.disturb .stop, .answer (.raised .cancelled), .run 0,
        .answer (.raised .mqtt)] ++ List.replicate 5 (.run 0) ++ answered 2 ++ answered 5 ++
        answered 6)).map
      (fun c => (c.vars.owner, c.vars.cancelling, c.vars.connected)) =
        some (.stopping, false, true) := by
    decide +kernel
  obtain ⟨c, hc, hread⟩ := Option.map_eq_some_iff.mp hrun
  exact ⟨_, c, hc, congrArg (·.1) hread, congrArg (·.2.1) hread, congrArg (·.2.2) hread⟩

end SmartDesk.Mqtt
