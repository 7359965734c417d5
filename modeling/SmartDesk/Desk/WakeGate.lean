import SmartDesk.Desk.Runs

/-!
# The gate after a WAKE

A WAKE only wakes the height sensor; the motion goes on when a newer height is there.
`_begin_wake` installs the intent first and waits for the relay I/O lock then, and does
not look at the intent again when it has the lock.

* `WakeGated` — every pulse and every WAKE is allowed by what was recorded before it.
* `gate_passed_early` — a motion can go on before its WAKE is sent.
* `wake_gated` — **no motion goes on after a WAKE without a newer height**, if every WAKE
  that gets the lock finds its intent waiting or dropped.
-/

namespace SmartDesk.Desk

open Coroutine

variable {settings : DeskSettings}

/-! ## The gate -/

def Event.isWake : Event → Bool
  | .wake _ _ _ _ => true
  | _ => false

/-- The event cancels a pending startup WAKE. -/
def Event.cancelsStartup : Event → Bool
  | .commanded => true
  | .closed => true
  | .exchangeBegun _ _ => true
  | _ => false

/-- A startup WAKE was registered, and nothing has cancelled it. -/
def Registered (trace : List Event) : Prop :=
  ∃ after before, trace = after ++ .wakePending :: before ∧
    ∀ e ∈ after, e.cancelsStartup = false

/-- The intent that was installed last, and what was recorded since. -/
def LastIntent (trace since : List Event) (intent : ControlState) : Prop :=
  ∃ found older, trace = since ++ .installed found intent :: older ∧
    ∀ e ∈ since, e.isInstalled = false

/-- The motion of the intent went on with a height that is newer than that of its WAKE;
a target took the direction that `follows` says. -/
def Resumed (settings : DeskSettings) (intent : ControlState) (since : List Event)
    (follows : Option Direction → Prop) : Prop :=
  ∃ waiting new height relay, .activated waiting new height relay ∈ since ∧
    Develops intent waiting ∧ Activation settings waiting new height relay ∧
    (intent.mode = .target → follows new.direction)

/-- Every WAKE among the events was answered after it. -/
def AllResumed (settings : DeskSettings) (intent : ControlState) (since : List Event)
    (follows : Option Direction → Prop) : Prop :=
  ∀ after e before, since = after ++ e :: before → e.isWake = true →
    Resumed settings intent after follows

/-- What has to be recorded before an event.  A pulse belongs to the intent that was
installed last, whose WAKEs were answered; in the generation of the WAKE it goes in the
direction that the new height gave.  A WAKE is the first one of the intent that was
installed last; a startup WAKE is registered and not cancelled. -/
def Allowed (settings : DeskSettings) (older : List Event) : Event → Prop
  | .pulse d _ direction _ =>
      ∃ since intent, LastIntent older since intent ∧
        AllResumed settings intent since fun taken =>
          d.control.generation = intent.generation → taken = some direction
  | .wake _ generation _ _ =>
      ∃ since intent, LastIntent older since intent ∧ intent.generation = generation ∧
        intent.awaitingFreshHeight = true ∧ (∀ e ∈ since, e.isWake = false) ∧
        (intent.mode = .wake → Registered older)
  | _ => True

/-- **Every event is allowed by the events before it.** -/
def WakeGated (settings : DeskSettings) : List Event → Prop
  | [] => True
  | e :: older => Allowed settings older e ∧ WakeGated settings older

/-! ## A motion that goes on before its WAKE -/

/-- A height of 90 cm that is ONLINE, as it was seen at `observed`. -/
def onlineAt (seconds observed : ℤ) : Reading :=
  { readingAt seconds with
    height := ⟨some (.finite 90), some (observed * 1000000), .online⟩ }

/-- While the runner waits for a pulse, the hold is refreshed, and another hold with a
STALE height waits for the relay I/O lock with its WAKE.  The pulse ends; the refresh has
left the event of the runner set, so that the next cycle follows at once and finds a newer
height.  The WAKE is sent then, and a pulse follows whose height is not newer. -/
def earlyMotionRun : List DeskLabel :=
  bootRun ++
    [.call .holdUp, .run 2 fun _ => readingAt 2, .run 1 fun _ => readingAt 2,
      .call .holdUp, .run 3 fun _ => readingAt 2, .call .holdDown, .run 4 fun _ => staleAt 3,
      .run 1 fun _ => readingAt 3, .run 1 fun _ => onlineAt 3 3, .run 4 fun _ => readingAt 3,
      .run 4 fun _ => onlineAt 3 2, .run 1 fun _ => onlineAt 3 2]

/-- The last events are a pulse and, right before it, a WAKE. -/
def pulseAfterWake : List Event → Bool
  | .pulse _ _ _ _ :: .wake _ _ _ _ :: _ => true
  | _ => false

/-- A pulse right after a WAKE is not allowed: no height was seen in between. -/
theorem not_wakeGated {trace : List Event} (h : pulseAfterWake trace = true) :
    ¬ WakeGated settings trace := by
  intro hgated
  unfold pulseAfterWake at h
  split at h
  · next d view direction holdMs d' generation wakeDirection basis older =>
    obtain ⟨⟨since, intent, ⟨found, before, htrace, hsince⟩, hresumed⟩, -⟩ := hgated
    cases since with
    | nil => cases htrace
    | cons e since =>
      obtain ⟨rfl, -⟩ := List.cons.inj htrace
      obtain ⟨_, _, _, _, hmem, -⟩ := hresumed [] _ since rfl rfl
      cases hmem
  · cases h

/-- **A motion can go on before its WAKE is sent**, and a pulse follows the WAKE without
a newer height. -/
theorem gate_passed_early : ¬ ∀ settings started ls pool,
    DeskRun settings (fun _ _ => True) started ls pool →
      WakeGated settings pool.mem.vars.trace := by
  intro hall
  have hexec : (Transition.exec (step (deskSystem .default)) (deskStart .default 0)
      earlyMotionRun).map (fun pool => pulseAfterWake pool.mem.vars.trace) = some true := by
    decide +kernel
  obtain ⟨pool, hpool, hpulse⟩ := Option.map_eq_some_iff.mp hexec
  exact not_wakeGated hpulse (hall _ _ _ pool ⟨Transition.meets_true _ _, hpool⟩)

/-! ## The condition -/

/-- A WAKE that gets the relay I/O lock finds its intent waiting for the height.  The
intent of an operation can be dropped as well, that of the startup WAKE cannot. -/
def wakesWaiting (pool : DeskPool) : DeskLabel → Prop
  | .run t _ => ∀ job generation direction basis,
      pool.mem.shape t =
        some (job, .waiting (.lock .relayIo (some (.wake generation direction basis)))) →
      ¬ Told pool.mem t → pool.mem.vars.desk.control.awaitingFreshHeight = true ∨
        (pool.mem.vars.desk.control.mode = .none ∧ job ≠ .runner)
  | _ => True

/-! ## What is known of the last intent -/

/-- The intent waits for its height, or its WAKEs were answered; a target keeps the
direction that the new height gave until it settles. -/
inductive Progress (settings : DeskSettings) (intent : ControlState) (since : List Event)
    (c : ControlState) : Prop where
  | waiting (control : Develops intent c) (awaiting : c.awaitingFreshHeight = true) :
      Progress settings intent since c
  | active (active : c.awaitingFreshHeight = false) (generation : intent.generation ≤ c.generation)
      (resumed : AllResumed settings intent since fun taken =>
        c.generation = intent.generation →
          c.targetPhase = some .continuous ∧ c.direction = taken) :
      Progress settings intent since c

/-- A control state with a motion is that of the intent that was installed last. -/
def Current (settings : DeskSettings) (v : Vars) : Prop :=
  v.desk.control.mode ≠ .none →
    ∃ since intent, LastIntent v.trace since intent ∧
      Progress settings intent since v.desk.control

/-- A startup WAKE that was just installed is registered. -/
def JustRegistered (v : Vars) : Prop :=
  ∀ found new older, v.trace = .installed found new :: older → new.mode = .wake →
    Registered v.trace

/-- The fields and the record of a run. -/
structure GateKept (settings : DeskSettings) (v : Vars) : Prop where
  gated : WakeGated settings v.trace
  current : Current settings v
  pending : v.desk.startupWakePending ≠ none → Registered v.trace
  just : JustRegistered v

/-- The WAKE of the generation has not been sent; that of the runner is registered as
long as its intent waits. -/
def WakeReady (v : Vars) (job : Job) (generation : ℕ) : Prop :=
  ∃ since intent, LastIntent v.trace since intent ∧ intent.generation = generation ∧
    intent.awaitingFreshHeight = true ∧ (∀ e ∈ since, e.isWake = false) ∧
    (intent.mode = .wake → job = .runner ∧
      (v.desk.control.awaitingFreshHeight = true → Registered v.trace))

theorem Resumed.mono {intent : ControlState} {since since' : List Event}
    {follows follows' : Option Direction → Prop} (h : Resumed settings intent since follows)
    (hsince : ∀ e ∈ since, e ∈ since')
    (hfollows : ∀ taken, intent.mode = .target → follows taken → follows' taken) :
    Resumed settings intent since' follows' := by
  obtain ⟨waiting, new, height, relay, hmem, hdevelops, hactivation, htaken⟩ := h
  exact ⟨waiting, new, height, relay, hsince _ hmem, hdevelops, hactivation,
    fun hmode => hfollows _ hmode (htaken hmode)⟩

theorem AllResumed.mono {intent : ControlState} {since : List Event}
    {follows follows' : Option Direction → Prop} (h : AllResumed settings intent since follows)
    (hfollows : ∀ taken, intent.mode = .target → follows taken → follows' taken) :
    AllResumed settings intent since follows' := fun after e before hsplit hwake =>
  (h after e before hsplit hwake).mono (fun _ he => he) hfollows

/-- An event that is no WAKE leaves what was answered. -/
theorem AllResumed.cons {intent : ControlState} {since : List Event}
    {follows : Option Direction → Prop} (h : AllResumed settings intent since follows) {e : Event}
    (he : e.isWake = false) : AllResumed settings intent (e :: since) follows := by
  intro after wake before hsplit hwake
  cases after with
  | nil =>
    obtain ⟨rfl, -⟩ := List.cons.inj hsplit
    rw [he] at hwake
    cases hwake
  | cons first after =>
    obtain ⟨-, hrest⟩ := List.cons.inj hsplit
    exact (h after wake before hrest hwake).mono (fun _ => List.mem_cons_of_mem _)
      fun _ _ htaken => htaken

/-- A motion that goes on answers all WAKEs before it. -/
theorem AllResumed.of_activation {intent waiting new : ControlState} {height : HeightSnapshot}
    {relay : RelaySnapshot} {since : List Event} {follows : Option Direction → Prop}
    (hdevelops : Develops intent waiting) (hactivation : Activation settings waiting new height relay)
    (hfollows : intent.mode = .target → follows new.direction) :
    AllResumed settings intent (.activated waiting new height relay :: since) follows := by
  intro after wake before hsplit hwake
  cases after with
  | nil =>
    obtain ⟨rfl, -⟩ := List.cons.inj hsplit
    cases hwake
  | cons first after =>
    obtain ⟨rfl, -⟩ := List.cons.inj hsplit
    exact ⟨waiting, new, height, relay, List.mem_cons_self, hdevelops, hactivation, hfollows⟩

theorem LastIntent.append {trace since new : List Event} {intent : ControlState}
    (h : LastIntent trace since intent) (hnew : ∀ e ∈ new, e.isInstalled = false) :
    LastIntent (new ++ trace) (new ++ since) intent := by
  obtain ⟨found, older, rfl, hsince⟩ := h
  refine ⟨found, older, by simp, fun e he => ?_⟩
  rcases List.mem_append.mp he with he | he
  · exact hnew e he
  · exact hsince e he

theorem LastIntent.cons {trace since : List Event} {intent : ControlState}
    (h : LastIntent trace since intent) {e : Event} (he : e.isInstalled = false) :
    LastIntent (e :: trace) (e :: since) intent := by
  show LastIntent ([e] ++ trace) ([e] ++ since) intent
  exact h.append (by simpa using he)

theorem Registered.append {trace new : List Event} (h : Registered trace)
    (hnew : ∀ e ∈ new, e.cancelsStartup = false) : Registered (new ++ trace) := by
  obtain ⟨after, before, rfl, hafter⟩ := h
  refine ⟨new ++ after, before, by simp, fun e he => ?_⟩
  rcases List.mem_append.mp he with he | he
  · exact hnew e he
  · exact hafter e he

theorem Registered.cons {trace : List Event} (h : Registered trace) {e : Event}
    (he : e.cancelsStartup = false) : Registered (e :: trace) := by
  show Registered ([e] ++ trace)
  exact h.append (by simpa using he)

theorem Develops.trans {a b c : ControlState} (h : Develops a b) (h' : Develops b c) :
    Develops a c :=
  ⟨h.toRefines.trans h'.toRefines, h'.waits.trans h.waits, h'.observed.trans h.observed⟩

theorem Rests.develops {c c' : ControlState} (h : Rests c c') : Develops c c' := by
  refine ⟨h.refines, ?_, ?_⟩ <;>
  · obtain ⟨publicState, detail, lastError, updatedAt, _, rfl⟩ := h
    rfl

theorem Progress.develops {intent c c' : ControlState} {since : List Event}
    (h : Progress settings intent since c) (hc : Develops c c') :
    Progress settings intent since c' := by
  cases h with
  | waiting control awaiting => exact .waiting (control.trans hc) (hc.waits.trans awaiting)
  | active active generation resumed =>
    refine .active (hc.waits.trans active) (generation.trans hc.generation.ge) ?_
    refine resumed.mono fun taken _ hfollows hgeneration => ?_
    obtain ⟨hphase, hdirection⟩ := hfollows (hc.generation.symm.trans hgeneration)
    obtain ⟨hphase', hdirection'⟩ := hc.straight active
    exact ⟨hphase'.mpr hphase, (hdirection' hphase).trans hdirection⟩

theorem Progress.cons {intent c : ControlState} {since : List Event}
    (h : Progress settings intent since c) {e : Event}
    (he : e.isWake = false ∨ c.awaitingFreshHeight = true) :
    Progress settings intent (e :: since) c := by
  cases h with
  | waiting control awaiting => exact .waiting control awaiting
  | active active generation resumed =>
    rcases he with he | hawaiting
    · exact .active active generation (resumed.cons he)
    · rw [active] at hawaiting
      cases hawaiting

/-! ## What a change does to the intent -/

/-- The event neither installs nor wakes nor pulses, and does not cancel a startup
WAKE. -/
def Event.isNeutral : Event → Bool
  | .sendStop _ => true
  | .exchangeConfirmed _ _ _ => true
  | .wakePending => true
  | _ => false

/-- What a change does to the intent, to a pending startup WAKE and to the record. -/
inductive Effect (settings : DeskSettings) (q : Spot) (v : Vars) : Prop where
  | kept (new : List Event) (neutral : ∀ e ∈ new, e.isNeutral = true)
      (control : Develops q.mem.vars.desk.control v.desk.control)
      (pending : Wanes q.mem.vars.desk v.desk ∨ v.trace = .wakePending :: q.mem.vars.trace)
      (trace : v.trace = new ++ q.mem.vars.trace)
  | settled (active : v.desk.control.awaitingFreshHeight = false)
      (before : q.mem.vars.desk.control.awaitingFreshHeight = false)
      (generation : q.mem.vars.desk.control.generation < v.desk.control.generation)
      (mode : v.desk.control.mode = q.mem.vars.desk.control.mode)
      (pending : Wanes q.mem.vars.desk v.desk) (trace : v.trace = q.mem.vars.trace)
  | dropped (control : Drops q.mem.vars.desk v.desk) (new : List Event)
      (others : ∀ e ∈ new, e.isInstalled = false ∧ e.isWake = false)
      (allowed : ∀ older, WakeGated settings older → WakeGated settings (new ++ older))
      (pending : v.desk.startupWakePending = none ∨
        (Wanes q.mem.vars.desk v.desk ∧ new = []))
      (trace : v.trace = new ++ q.mem.vars.trace)
  | commanded (control : v.desk.control = q.mem.vars.desk.control) (lock : HasLock q .intent)
      (pending : v.desk.startupWakePending = none)
      (trace : v.trace = .commanded :: q.mem.vars.trace)
  | installed (found : ControlState) (lock : HasLock q .intent)
      (pending : v.desk.startupWakePending = q.mem.vars.desk.startupWakePending)
      (startup : v.desk.control.mode = .wake → StartsUp q)
      (trace : v.trace = .installed found v.desk.control :: q.mem.vars.trace)
  | activated (height : HeightSnapshot) (relay : RelaySnapshot)
      (control : Refines q.mem.vars.desk.control v.desk.control)
      (activation : Activation settings q.mem.vars.desk.control v.desk.control height relay)
      (pending : Wanes q.mem.vars.desk v.desk)
      (trace : v.trace =
        .activated q.mem.vars.desk.control v.desk.control height relay :: q.mem.vars.trace)
  | pulsed (view : CycleView) (direction : Direction) (holdMs : ℤ) (desk : v.desk = q.mem.vars.desk)
      (allowed : PulseGuard settings q.mem.vars.desk view direction)
      (trace : v.trace = .pulse q.mem.vars.desk view direction holdMs :: q.mem.vars.trace)
  | woken (generation : ℕ) (direction : Direction) (basisHeightCm : Ieee)
      (desk : v.desk = q.mem.vars.desk) (lock : HasLock q .intent)
      (current : JustInstalled q.mem.vars generation ∨
        (Waits q (.lock .relayIo (some (.wake generation direction basisHeightCm))) ∧
          ¬ Told q.start q.task ∧ q.mem.vars = q.start.vars))
      (trace : v.trace =
        .wake q.mem.vars.desk generation direction basisHeightCm :: q.mem.vars.trace)

variable {p q : Spot} {v : Vars}

theorem Change.effect (h : Change settings q v) : Effect settings q v := by
  have hsame : ∀ c : ControlState, c = q.mem.vars.desk.control →
      Develops q.mem.vars.desk.control c := by
    rintro c rfl
    exact .refl _
  have hdesk : v.desk = q.mem.vars.desk → ∀ e : Event, e.isNeutral = true →
      v.trace = e :: q.mem.vars.trace → Effect settings q v := by
    intro heq e he htrace
    exact .kept [e] (by simpa using he) (hsame _ (congrArg (·.control) heq))
      (.inl (.inl (congrArg (·.startupWakePending) heq))) htrace
  cases h with
  | refine _ control _ pending trace => exact .kept [] (by simp) control (.inl pending) trace
  | activate height relay _ control _ activation _ pending trace =>
    exact .activated height relay control activation pending trace
  | command _ control lock pending trace => exact .commanded control lock pending trace
  | runner _ _ _ control _ pending trace =>
    exact .kept [] (by simp) (hsame _ control) (.inl pending) trace
  | settle _ generation mode _ _ active _ pending trace =>
    exact .settled active.2 active.1 generation mode pending trace
  | drop _ _ control pending trace =>
    exact .dropped control [] (by simp) (fun _ h => h) (.inr ⟨pending, rfl⟩) trace
  | idle _ rests _ _ pending trace =>
    exact .kept [] (by simp) rests.develops (.inl pending) trace
  | register _ rests _ _ _ _ _ _ _ trace =>
    exact .kept [.wakePending] (by simp [Event.isNeutral]) rests.develops (.inr trace) trace
  | install found lock _ _ _ _ _ _ _ _ _ pending _ startup trace =>
    exact .installed found lock pending startup trace
  | beginExchange baseline _ _ _ _ _ control _ pending _ trace =>
    exact .dropped control [.exchangeBegun q.task baseline]
      (by simp [Event.isInstalled, Event.isWake]) (fun _ h => ⟨trivial, h⟩) (.inl pending) trace
  | confirm baseline relay desk _ _ _ _ trace => exact hdesk desk _ rfl trace
  | unlatch _ _ _ _ rests pending trace =>
    exact .kept [] (by simp) rests.develops (.inl pending) trace
  | startBegin _ _ _ _ _ _ control pending trace =>
    exact .dropped control [] (by simp) (fun _ h => h) (.inr ⟨pending, rfl⟩) trace
  | startFail _ _ _ _ _ control _ pending trace =>
    exact .kept [] (by simp) (hsame _ control) (.inl pending) trace
  | stopBegin _ _ _ _ _ control pending trace =>
    exact .dropped control [.closed] (by simp [Event.isInstalled, Event.isWake])
      (fun _ h => ⟨trivial, h⟩) (.inl pending) trace
  | stopEnd _ _ _ _ _ _ rests pending trace =>
    exact .kept [] (by simp) rests.develops (.inl pending) trace
  | pulse view direction holdMs desk allowed trace =>
    exact .pulsed view direction holdMs desk allowed trace
  | wake generation direction basis desk lock current trace =>
    exact .woken generation direction basis desk lock current trace
  | sendStop desk trace => exact hdesk desk _ rfl trace

/-! ## What a change keeps -/

theorem wakeGated_neutral {new older : List Event} (hnew : ∀ e ∈ new, e.isNeutral = true)
    (h : WakeGated settings older) : WakeGated settings (new ++ older) := by
  induction new with
  | nil => exact h
  | cons e new ih =>
    obtain ⟨he, hnew⟩ := List.forall_mem_cons.mp hnew
    refine ⟨?_, ih hnew⟩
    cases e with
    | pulse _ _ _ _ => cases he
    | wake _ _ _ _ => cases he
    | _ => trivial

theorem Event.isNeutral_spec {e : Event} (h : e.isNeutral = true) :
    e.isInstalled = false ∧ e.isWake = false ∧ e.cancelsStartup = false := by
  revert h
  cases e <;> simp [Event.isNeutral, Event.isInstalled, Event.isWake, Event.cancelsStartup]

theorem Progress.append {intent c : ControlState} {since new : List Event}
    (h : Progress settings intent since c) (hnew : ∀ e ∈ new, e.isWake = false) :
    Progress settings intent (new ++ since) c := by
  induction new with
  | nil => exact h
  | cons e new ih =>
    obtain ⟨he, hnew⟩ := List.forall_mem_cons.mp hnew
    exact (ih hnew).cons (.inl he)

/-- The intent after a change that sends no WAKE for a motion that has gone on. -/
theorem Current.of_effect (h : Current settings q.mem.vars) (heffect : Effect settings q v)
    (hwake : ∀ generation direction basis,
      Waits q (.lock .relayIo (some (.wake generation direction basis))) →
        ¬ Told q.start q.task → q.start.vars.desk.control.awaitingFreshHeight = true ∨
          q.start.vars.desk.control.mode = .none) : Current settings v := by
  intro hmode
  cases heffect with
  | kept new neutral control _ trace =>
    obtain ⟨since, intent, hlast, hprogress⟩ := h fun hnone => hmode (control.mode.trans hnone)
    rw [trace]
    exact ⟨new ++ since, intent, hlast.append fun e he => (Event.isNeutral_spec (neutral e he)).1,
      (hprogress.develops control).append fun e he => (Event.isNeutral_spec (neutral e he)).2.1⟩
  | settled active before generation mode _ trace =>
    obtain ⟨since, intent, hlast, hprogress⟩ := h fun hnone => hmode (mode.trans hnone)
    rw [trace]
    refine ⟨since, intent, hlast, ?_⟩
    cases hprogress with
    | waiting _ awaiting =>
      rw [before] at awaiting
      cases awaiting
    | active _ hle resumed =>
      -- The direction is chosen anew once the target has settled.
      refine .active active (hle.trans generation.le) (resumed.mono fun _ _ _ hsame => ?_)
      omega
  | dropped control _ _ _ _ _ => exact absurd control.mode hmode
  | commanded control _ _ trace =>
    rw [control] at hmode ⊢
    obtain ⟨since, intent, hlast, hprogress⟩ := h hmode
    rw [trace]
    exact ⟨_, intent, hlast.cons rfl, hprogress.cons (.inl rfl)⟩
  | installed found _ _ _ trace =>
    rw [trace]
    refine ⟨[], v.desk.control, ⟨found, _, rfl, by simp⟩, ?_⟩
    cases hawaiting : v.desk.control.awaitingFreshHeight with
    | true => exact .waiting (.refl _) hawaiting
    | false => exact .active hawaiting le_rfl fun after e before hsplit => by simp at hsplit
  | activated height relay control activation _ trace =>
    obtain ⟨since, intent, hlast, hprogress⟩ := h fun hnone => hmode (control.mode.trans hnone)
    rw [trace]
    refine ⟨_, intent, hlast.cons rfl, ?_⟩
    cases hprogress with
    | waiting hdevelops _ =>
      refine .active activation.active (control.generation.trans hdevelops.generation).ge
        (.of_activation hdevelops activation fun htarget _ => ?_)
      exact ⟨(activation.direction (hdevelops.mode.trans htarget)).1, rfl⟩
    | active active _ _ =>
      have := active.symm.trans activation.awaiting
      cases this
  | pulsed _ _ _ desk _ trace =>
    rw [desk] at hmode ⊢
    obtain ⟨since, intent, hlast, hprogress⟩ := h hmode
    rw [trace]
    exact ⟨_, intent, hlast.cons rfl, hprogress.cons (.inl rfl)⟩
  | woken generation direction basis desk _ current trace =>
    rw [desk] at hmode ⊢
    obtain ⟨since, intent, hlast, hprogress⟩ := h hmode
    have hwaiting : q.mem.vars.desk.control.awaitingFreshHeight = true := by
      rcases current with ⟨_, _, _, _, hawaiting⟩ | ⟨hwaits, htold, hvars⟩
      · exact hawaiting
      · rw [hvars] at hmode ⊢
        exact (hwake generation direction basis hwaits htold).resolve_right hmode
    rw [trace]
    exact ⟨_, intent, hlast.cons rfl, hprogress.cons (.inr hwaiting)⟩

theorem registered_of_effect
    (h : q.mem.vars.desk.startupWakePending ≠ none → Registered q.mem.vars.trace)
    (heffect : Effect settings q v) (hpending : v.desk.startupWakePending ≠ none) :
    Registered v.trace := by
  have hwanes : Wanes q.mem.vars.desk v.desk → Registered q.mem.vars.trace := by
    rintro (hsame | hnone)
    · exact h (hsame ▸ hpending)
    · exact absurd hnone hpending
  have hdesk : v.desk = q.mem.vars.desk → Registered q.mem.vars.trace := fun heq =>
    hwanes (.inl (congrArg (·.startupWakePending) heq))
  cases heffect with
  | kept new neutral _ pending trace =>
    rcases pending with hwaned | hregistered
    · rw [trace]
      exact (hwanes hwaned).append fun e he => (Event.isNeutral_spec (neutral e he)).2.2
    · exact ⟨[], q.mem.vars.trace, hregistered, by simp⟩
  | settled _ _ _ _ pending trace =>
    rw [trace]
    exact hwanes pending
  | dropped _ new _ _ pending trace =>
    rcases pending with hnone | ⟨hwaned, rfl⟩
    · exact absurd hnone hpending
    · rw [trace]
      exact hwanes hwaned
  | commanded _ _ pending _ => exact absurd pending hpending
  | installed _ _ pending _ trace =>
    rw [trace]
    exact (hwanes (.inl pending)).cons rfl
  | activated _ _ _ _ pending trace =>
    rw [trace]
    exact (hwanes pending).cons rfl
  | pulsed _ _ _ desk _ trace =>
    rw [trace]
    exact (hdesk desk).cons rfl
  | woken _ _ _ desk _ _ trace =>
    rw [trace]
    exact (hdesk desk).cons rfl

/-- The record after a change whose WAKE is ready. -/
theorem gated_of_effect (h : GateKept settings q.mem.vars) (heffect : Effect settings q v)
    (hready : ∀ generation direction basis,
      Waits q (.lock .relayIo (some (.wake generation direction basis))) →
        ¬ Told q.start q.task → WakeReady q.start.vars q.job generation ∧
          (q.job = .runner → q.start.vars.desk.control.awaitingFreshHeight = true)) :
    WakeGated settings v.trace := by
  cases heffect with
  | kept new neutral _ _ trace =>
    rw [trace]
    exact wakeGated_neutral neutral h.gated
  | settled _ _ _ _ _ trace =>
    rw [trace]
    exact h.gated
  | dropped _ new _ allowed _ trace =>
    rw [trace]
    exact allowed _ h.gated
  | commanded _ _ _ trace =>
    rw [trace]
    exact ⟨trivial, h.gated⟩
  | installed _ _ _ _ trace =>
    rw [trace]
    exact ⟨trivial, h.gated⟩
  | activated _ _ _ _ _ trace =>
    rw [trace]
    exact ⟨trivial, h.gated⟩
  | pulsed view direction holdMs _ allowed trace =>
    rw [trace]
    refine ⟨?_, h.gated⟩
    obtain ⟨since, intent, hlast, hprogress⟩ := h.current allowed.mode
    refine ⟨since, intent, hlast, ?_⟩
    cases hprogress with
    | waiting _ awaiting =>
      rw [allowed.awaiting] at awaiting
      cases awaiting
    | active _ _ resumed =>
      refine resumed.mono fun taken _ hfollows hgeneration => ?_
      exact (hfollows hgeneration).2.symm.trans allowed.requested
  | woken generation direction basis _ _ current trace =>
    rw [trace]
    refine ⟨?_, h.gated⟩
    rcases current with ⟨found, older, htrace, hgeneration, hawaiting⟩ | ⟨hwaits, htold, hvars⟩
    · -- Nothing was awaited since the intent was installed.
      exact ⟨[], _, ⟨found, older, htrace, by simp⟩, hgeneration, hawaiting, by simp,
        h.just _ _ _ htrace⟩
    · obtain ⟨⟨since, intent, hlast, hgeneration, hawaiting, hfirst, hstartup⟩, hrunner⟩ :=
        hready generation direction basis hwaits htold
      rw [hvars]
      refine ⟨since, intent, hlast, hgeneration, hawaiting, hfirst, fun hmode => ?_⟩
      obtain ⟨hjob, hregistered⟩ := hstartup hmode
      exact hregistered (hrunner hjob)

theorem JustRegistered.of_effect (h : JustRegistered q.mem.vars) (heffect : Effect settings q v)
    (hpending : q.start.vars.desk.startupWakePending ≠ none → Registered q.start.vars.trace) :
    JustRegistered v := by
  intro found new older hinstalled hmode
  have hnone : ∀ e : Event, e.isInstalled = false → v.trace ≠ e :: q.mem.vars.trace := by
    intro e he htrace
    obtain ⟨rfl, -⟩ := List.cons.inj (htrace.symm.trans hinstalled)
    cases he
  have hold : ∀ events : List Event, (∀ e ∈ events, e.isInstalled = false) →
      v.trace = events ++ q.mem.vars.trace → Registered v.trace := by
    intro events hevents htrace
    cases events with
    | nil =>
      rw [htrace]
      exact h found new older (htrace.symm.trans hinstalled) hmode
    | cons e events =>
      obtain ⟨rfl, -⟩ := List.cons.inj (htrace.symm.trans hinstalled)
      exact nomatch hevents _ List.mem_cons_self
  cases heffect with
  | kept events neutral _ _ trace =>
    exact hold events (fun e he => (Event.isNeutral_spec (neutral e he)).1) trace
  | settled _ _ _ _ _ trace => exact hold [] (by simp) trace
  | dropped _ events others _ _ trace => exact hold events (fun e he => (others e he).1) trace
  | commanded _ _ _ trace => exact absurd trace (hnone _ rfl)
  | installed _ _ _ startup trace =>
    obtain ⟨hevent, -⟩ := List.cons.inj (trace.symm.trans hinstalled)
    obtain ⟨-, rfl⟩ := Event.installed.inj hevent
    obtain ⟨-, hset, hsame⟩ := startup hmode
    rw [trace, hsame]
    exact (hpending hset).cons rfl
  | activated _ _ _ _ _ trace => exact absurd trace (hnone _ rfl)
  | pulsed _ _ _ _ _ trace => exact absurd trace (hnone _ rfl)
  | woken _ _ _ _ _ _ trace => exact absurd trace (hnone _ rfl)

/-- A task that does not have the intent lock leaves the WAKE of another one ready. -/
theorem WakeReady.of_effect {job : Job} {generation : ℕ} (h : WakeReady q.mem.vars job generation)
    (heffect : Effect settings q v) (hlock : ¬ HasLock q .intent) :
    WakeReady v job generation := by
  obtain ⟨since, intent, hlast, hgeneration, hawaiting, hfirst, hstartup⟩ := h
  have happend : ∀ new : List Event, v.trace = new ++ q.mem.vars.trace →
      (∀ e ∈ new, e.isInstalled = false ∧ e.isWake = false) →
      (v.desk.control.awaitingFreshHeight = true →
        q.mem.vars.desk.control.awaitingFreshHeight = true ∧
          ∀ e ∈ new, e.cancelsStartup = false) → WakeReady v job generation := by
    intro new htrace hnew hstill
    refine ⟨new ++ since, intent, ?_, hgeneration, hawaiting, fun e he => ?_, fun hmode => ?_⟩
    · rw [htrace]
      exact hlast.append fun e he => (hnew e he).1
    · rcases List.mem_append.mp he with he | he
      · exact (hnew e he).2
      · exact hfirst e he
    · obtain ⟨hjob, hregistered⟩ := hstartup hmode
      refine ⟨hjob, fun hwaiting => ?_⟩
      rw [htrace]
      exact (hregistered (hstill hwaiting).1).append (hstill hwaiting).2
  cases heffect with
  | kept new neutral control _ trace =>
    refine happend new trace (fun e he => ?_) fun hwaiting =>
      ⟨control.waits.symm.trans hwaiting, fun e he => ?_⟩
    · exact ⟨(Event.isNeutral_spec (neutral e he)).1, (Event.isNeutral_spec (neutral e he)).2.1⟩
    · exact (Event.isNeutral_spec (neutral e he)).2.2
  | settled active _ _ _ _ trace =>
    exact happend [] trace (by simp) fun hwaiting => nomatch active.symm.trans hwaiting
  | dropped control new others _ _ trace =>
    exact happend new trace others fun hwaiting => nomatch control.awaiting.symm.trans hwaiting
  | commanded _ lock _ _ => exact absurd lock hlock
  | installed _ lock _ _ _ => exact absurd lock hlock
  | activated height relay _ activation _ trace =>
    exact happend [_] trace (by simp [Event.isInstalled, Event.isWake]) fun hwaiting =>
      nomatch activation.active.symm.trans hwaiting
  | pulsed view direction holdMs desk _ trace =>
    refine happend [_] trace (by simp [Event.isInstalled, Event.isWake]) fun hwaiting => ?_
    rw [desk] at hwaiting
    exact ⟨hwaiting, by simp [Event.cancelsStartup]⟩
  | woken _ _ _ _ lock _ _ => exact absurd lock hlock

/-! ## Runs -/

/-- The task waits for the relay I/O lock with the WAKE of the generation. -/
def WaitsToWake (m : Memory) (t : ℕ) (job : Job) (generation : ℕ) : Prop :=
  ∃ direction basis, m.shape t =
    some (job, .waiting (.lock .relayIo (some (.wake generation direction basis))))

/-- A task that waits with a WAKE has the intent lock, and its WAKE is ready. -/
def WakesReady (m : Memory) : Prop :=
  ∀ t job generation, WaitsToWake m t job generation →
    m.owner .intent = some t ∧ WakeReady m.vars job generation

/-- What holds between the changes of a segment that begins at `p`. -/
structure GateWithin (settings : DeskSettings) (p : Spot) (v : Vars) : Prop where
  kept : GateKept settings v
  pending : p.start.vars.desk.startupWakePending ≠ none → Registered p.start.vars.trace
  own : ∀ generation direction basis,
    Waits p (.lock .relayIo (some (.wake generation direction basis))) →
      ¬ Told p.start p.task → WakeReady p.start.vars p.job generation ∧
        (p.start.vars.desk.control.awaitingFreshHeight = true ∨
          (p.start.vars.desk.control.mode = .none ∧ p.job ≠ .runner))
  others : ∀ t job generation, t ≠ p.task → WaitsToWake p.start t job generation →
    p.start.owner .intent = some t ∧ WakeReady v job generation

theorem GateWithin.change (h : GateWithin settings p q.mem.vars) (hwithin : Within p q)
    (hchange : Change settings q v) : GateWithin settings p v := by
  have heffect := hchange.effect
  have hown : ∀ generation direction basis,
      Waits q (.lock .relayIo (some (.wake generation direction basis))) →
        ¬ Told q.start q.task → WakeReady q.start.vars q.job generation ∧
          (q.start.vars.desk.control.awaitingFreshHeight = true ∨
            (q.start.vars.desk.control.mode = .none ∧ q.job ≠ .runner)) := by
    intro generation direction basis hwaits htold
    rw [Waits, hwithin.start, hwithin.task, hwithin.job] at hwaits
    rw [hwithin.start, hwithin.task] at htold
    rw [hwithin.start, hwithin.job]
    exact h.own generation direction basis hwaits htold
  have hpending : q.start.vars.desk.startupWakePending ≠ none → Registered q.start.vars.trace := by
    rw [hwithin.start]
    exact h.pending
  refine ⟨⟨?_, ?_, ?_, h.kept.just.of_effect heffect hpending⟩, h.pending, h.own, ?_⟩
  · refine gated_of_effect h.kept heffect fun generation direction basis hwaits htold => ?_
    obtain ⟨hready, hcurrent⟩ := hown generation direction basis hwaits htold
    refine ⟨hready, fun hjob => ?_⟩
    rcases hcurrent with hawaiting | ⟨_, hjob'⟩
    · exact hawaiting
    · exact absurd hjob hjob'
  · exact h.kept.current.of_effect heffect fun generation direction basis hwaits htold =>
      (hown generation direction basis hwaits htold).2.imp_right (·.1)
  · exact registered_of_effect h.kept.pending heffect
  · intro t job generation ht hwaits
    obtain ⟨howner, hready⟩ := h.others t job generation ht hwaits
    refine ⟨howner, hready.of_effect heffect fun hlock => ht ?_⟩
    have howner' := hwithin.elsewhere.owner _ _ ht howner
    have := hlock.symm.trans howner'
    rw [hwithin.task] at this
    exact (Option.some.inj this).symm

/-- The WAKE of a task that begins to wait is ready. -/
theorem WakeInstalled.ready {generation : ℕ} (h : WakeInstalled q generation)
    (hjust : JustRegistered q.mem.vars) : WakeReady q.mem.vars q.job generation := by
  obtain ⟨found, older, htrace, hgeneration, hawaiting⟩ := h.installed
  refine ⟨[], _, ⟨found, older, htrace, by simp⟩, hgeneration, hawaiting, by simp, fun hmode => ?_⟩
  exact ⟨h.startup hmode, fun _ => hjust _ _ _ htrace hmode⟩

theorem GateWithin.wakesReady {m m' : Memory} (h : GateWithin settings p q.mem.vars)
    (hsegment : DeskSegment settings m m' p q) (habsent : ∀ u, m.count ≤ u → m.task u = none)
    (hvars : m'.vars = q.mem.vars) : WakesReady m' := by
  rintro t job generation ⟨direction, basis, hshape⟩
  rw [hvars]
  rcases hsegment.shape_cases habsent hshape with
    ⟨rfl, hjob, hstopped⟩ | ⟨ht, hold | ⟨_, hready⟩⟩
  · cases hstopped with
    | waiting w hsuspends =>
      have hwake := hsuspends.wake generation direction basis rfl
      have hsame := hsegment.reach.sameSegment
      refine ⟨?_, ?_⟩
      · rw [hsegment.closes.owner, ← hsame.task]
        exact hwake.lock
      · rw [hjob, ← hsame.job]
        exact hwake.ready h.kept.just
  · have hold' : WaitsToWake p.start t job generation :=
      ⟨direction, basis, by rw [hsegment.start]; exact hold⟩
    obtain ⟨howner, hready⟩ := h.others t job generation ht hold'
    rw [hsegment.start] at howner
    exact ⟨hsegment.elsewhere.owner _ _ ht howner, hready⟩
  · cases hready

theorem DeskRun.gated {started : Instant} {ls : List DeskLabel} {pool : DeskPool}
    (h : DeskRun settings wakesWaiting started ls pool) :
    GateKept settings pool.mem.vars ∧ WakesReady pool.mem := by
  refine h.keeps_quiet (I := fun m => GateKept settings m.vars ∧ WakesReady m)
    (V := GateWithin settings) ?_ ?_ ?_ (fun p q v hwithin hv hchange => hv.change hwithin hchange) ?_
  · refine ⟨⟨trivial, fun hmode => absurd rfl hmode, fun hset => absurd rfl hset,
      fun _ _ _ htrace => nomatch htrace⟩, ?_⟩
    rintro t job generation ⟨_, _, hshape⟩
    cases hshape
  · rintro m m' hquiet ⟨hkept, hready⟩
    rw [hquiet.vars]
    refine ⟨hkept, ?_⟩
    rintro t job generation ⟨direction, basis, hshape⟩
    rw [hquiet.owner, hquiet.vars]
    exact hready t job generation ⟨direction, basis, hquiet.waits hshape⟩
  · rintro pool pool' p hok ⟨hkept, hready⟩ hstart _ _
    rw [hstart]
    refine ⟨hkept, ?_, ?_, ?_⟩
    · rw [hstart]
      exact hkept.pending
    · intro generation direction basis hwaits htold
      rw [Waits, hstart] at hwaits
      rw [hstart] at htold ⊢
      exact ⟨(hready _ _ _ ⟨direction, basis, hwaits⟩).2,
        hok p.job generation direction basis hwaits htold⟩
    · intro t job generation _ hwaits
      rw [hstart] at hwaits ⊢
      exact hready t job generation hwaits
  · rintro pool pool' p q hk _ _ _ _ hwithin hvars hsegment
    refine ⟨?_, hwithin.wakesReady hsegment hk.absent hvars⟩
    rw [hvars]
    exact hwithin.kept

/-- **No motion goes on after a WAKE without a newer height**, each intent is woken for
once, and a startup WAKE that was cancelled is not sent, in every run in which each WAKE
that gets the relay I/O lock finds its intent waiting or dropped. -/
theorem wake_gated {started : Instant} {ls : List DeskLabel} {pool : DeskPool}
    (h : DeskRun settings wakesWaiting started ls pool) :
    WakeGated settings pool.mem.vars.trace := h.gated.1.gated

/-- The condition of `wake_gated`, computed. -/
def checkWakesWaiting (pool : DeskPool) : DeskLabel → Bool
  | .run t _ =>
      match pool.mem.task t with
      | some ⟨job, .waiting (.lock .relayIo (some (.wake _ _ _))), false⟩ =>
          pool.mem.vars.desk.control.awaitingFreshHeight ||
            (pool.mem.vars.desk.control.mode == .none && job != .runner)
      | _ => true
  | _ => true

theorem wakesWaiting_of_checked (pool : DeskPool) (l : DeskLabel) (_ : DeskKept settings pool)
    (hchecked : checkWakesWaiting pool l = true) : wakesWaiting pool l := by
  cases l with
  | call _ => trivial
  | cancel _ => trivial
  | run t env =>
    intro job generation direction basis hshape htold
    obtain ⟨cancelled, htask⟩ := Mem.shape_eq_some.mp hshape
    cases cancelled with
    | true => exact absurd ⟨_, htask, rfl⟩ htold
    | false =>
      rw [checkWakesWaiting, htask] at hchecked
      simpa using hchecked

/-- While the runner waits for a pulse, a hold with a STALE height waits for the relay
I/O lock with its WAKE, which it sends when the pulse has ended.  A newer height is there
then, and the next pulse follows. -/
def gatedMotionRun : List DeskLabel :=
  bootRun ++
    [.call .holdUp, .run 2 fun _ => readingAt 2, .run 1 fun _ => readingAt 2,
      .call .holdDown, .run 3 fun _ => staleAt 3, .run 1 fun _ => readingAt 3,
      .run 3 fun _ => readingAt 3, .run 3 fun _ => readingAt 3, .run 1 fun _ => onlineAt 3 3,
      .run 1 fun _ => onlineAt 3 3]

/-- A hold whose WAKE waited for the lock goes on with a newer height. -/
theorem wake_gated_hold : ∃ pool,
    DeskRun .default wakesWaiting 0 gatedMotionRun pool ∧
      pool.mem.vars.trace.countP Event.isMotion = 3 ∧
      WakeGated .default pool.mem.vars.trace := by
  have hexec : (Transition.exec (step (deskSystem .default)) (deskStart .default 0)
      gatedMotionRun).map (·.mem.vars.trace.countP Event.isMotion) = some 3 := by
    decide +kernel
  have hmeets : Transition.Meets (step (deskSystem .default))
      (fun pool l => checkWakesWaiting pool l = true) (deskStart .default 0)
      gatedMotionRun := by
    decide +kernel
  obtain ⟨pool, hpool, hsent⟩ := Option.map_eq_some_iff.mp hexec
  have hrun : DeskRun .default wakesWaiting 0 gatedMotionRun pool :=
    .of_checked checkWakesWaiting wakesWaiting_of_checked hmeets hpool
  exact ⟨pool, hrun, hsent, wake_gated hrun⟩

end SmartDesk.Desk
