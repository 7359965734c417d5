import SmartDesk.Lib.RelyGuarantee
import SmartDesk.Desk.Runner

/-!
# What the tasks of the controller promise

One statement for all tasks: `Change` lists the ways in which a segment of any task
changes the fields, each with the guards under which the source makes it, and
`deskGuarantee` adds what holds where a segment stops.  All claims about runs are
derived from it.

* `Refines`, `Later` — how the control state develops within a generation, and over
  generations.
* `Calm`, `Shut` — what a task knows about the latch and about closing.
* `Change` — the changes; `Records` — the one event that a change records, if any.
* `DeskRely` — what a task can rely on while it waits: `rely_of_change` says that no
  change of another task breaks it.
-/

namespace SmartDesk.Desk

open Coroutine

abbrev Memory := Mem deskSignature

abbrev Spot := Point deskSignature

/-- The task has the lock. -/
def HasLock (p : Spot) (l : DeskLock) : Prop := p.mem.owner l = some p.task

/-! ## The control state over time -/

/-- The same intent, further developed. -/
structure Refines (c c' : ControlState) : Prop where
  generation : c'.generation = c.generation
  mode : c'.mode = c.mode
  target : c'.targetHeightCm = c.targetHeightCm
  manual : c.mode = .manual → c'.direction = c.direction
  awaiting : c'.awaitingFreshHeight = c.awaitingFreshHeight ∨
    (c'.awaitingFreshHeight = false ∧ c.mode ≠ .wake)
  straight : c.awaitingFreshHeight = false →
    (c'.targetPhase = some .continuous ↔ c.targetPhase = some .continuous) ∧
      (c.targetPhase = some .continuous → c'.direction = c.direction)

/-- An intent that waits for a height goes on to wait for it. -/
structure Develops (c c' : ControlState) : Prop extends Refines c c' where
  waits : c'.awaitingFreshHeight = c.awaitingFreshHeight
  observed : c'.wakeObservedAt = c.wakeObservedAt

/-- The same intent further developed, or a later generation. -/
def Later (c c' : ControlState) : Prop := c.generation < c'.generation ∨ Refines c c'

theorem Refines.refl (c : ControlState) : Refines c c :=
  ⟨rfl, rfl, rfl, fun _ => rfl, .inl rfl, fun _ => ⟨.rfl, fun _ => rfl⟩⟩

theorem Develops.refl (c : ControlState) : Develops c c := ⟨.refl c, rfl, rfl⟩

/-- A motion that does not wait for a height does not begin to wait. -/
theorem Refines.active {c c' : ControlState} (h : Refines c c')
    (hc : c.awaitingFreshHeight = false) : c'.awaitingFreshHeight = false := by
  rcases h.awaiting with hsame | ⟨hoff, _⟩
  · exact hsame.trans hc
  · exact hoff

theorem Refines.trans {a b c : ControlState} (h : Refines a b) (h' : Refines b c) : Refines a c := by
  refine ⟨h'.generation.trans h.generation, h'.mode.trans h.mode, h'.target.trans h.target,
    fun hmode => (h'.manual (h.mode.trans hmode)).trans (h.manual hmode), ?_, fun hactive => ?_⟩
  · rcases h'.awaiting with hsame | ⟨hoff, hmode⟩
    · rcases h.awaiting with hsame' | ⟨hoff, hmode⟩
      · exact .inl (hsame.trans hsame')
      · exact .inr ⟨hsame.trans hoff, hmode⟩
    · exact .inr ⟨hoff, h.mode ▸ hmode⟩
  · obtain ⟨hphase, hdirection⟩ := h.straight hactive
    obtain ⟨hphase', hdirection'⟩ := h'.straight (h.active hactive)
    exact ⟨hphase'.trans hphase, fun hcontinuous =>
      (hdirection' (hphase.mpr hcontinuous)).trans (hdirection hcontinuous)⟩

theorem Later.refl (c : ControlState) : Later c c := .inr (.refl c)

theorem Later.trans {a b c : ControlState} (h : Later a b) (h' : Later b c) : Later a c := by
  rcases h with hlt | href
  · rcases h' with hlt' | href'
    · exact .inl (hlt.trans hlt')
    · exact .inl (by rw [href'.generation]; exact hlt)
  · rcases h' with hlt' | href'
    · exact .inl (by rw [← href.generation]; exact hlt')
    · exact .inr (href.trans href')

/-- A control state of the same generation is the same intent. -/
theorem Later.refines {c c' : ControlState} (h : Later c c')
    (hgen : c'.generation = c.generation) : Refines c c' := by
  rcases h with hlt | href
  · omega
  · exact href

/-- The flags of the controller and its runner are the same. -/
structure SameFlags (d d' : DeskController) : Prop where
  running : d'.running = d.running
  closing : d'.closing = d.closing
  stopInProgress : d'.stopInProgress = d.stopInProgress
  runnerTask : d'.runnerTask = d.runnerTask

/-- A public state without a motion. -/
def DeskState.resting : DeskState → Bool
  | .idle => true
  | .stopped => true
  | .error => true
  | _ => false

/-- The fields of a control state fit its mode. -/
structure Formed (settings : DeskSettings) (c : ControlState) : Prop where
  target : c.mode = .target ↔ ∃ x, c.targetHeightCm = some x
  range : ∀ x, c.targetHeightCm = some x →
    Ieee.finite settings.operationMinCm ≤ x ∧ x ≤ Ieee.finite settings.operationMaxCm
  phase : c.mode = .target ↔ ∃ phase, c.targetPhase = some phase
  direction : c.direction = none ↔ c.mode = .none ∨ c.targetPhase = some .settling
  observed : c.awaitingFreshHeight = true →
    (∃ t, c.wakeObservedAt = some t) ∧ ∃ x, c.wakeStartedAt = some x
  waking : c.mode = .wake → c.awaitingFreshHeight = true

/-- The public state is that of the mode. -/
structure Shown (c : ControlState) : Prop where
  resting : c.mode = .none ↔ c.publicState.resting = true
  waking : c.publicState = .waking ↔ c.awaitingFreshHeight = true
  manual : c.publicState = .manual ↔ c.mode = .manual ∧ c.awaitingFreshHeight = false
  moving : c.publicState = .moving ↔ c.mode = .target ∧ c.awaitingFreshHeight = false

/-- A change of the control state keeps it well formed. -/
structure Keeps (settings : DeskSettings) (c c' : ControlState) : Prop where
  formed : Formed settings c → Formed settings c'
  shown : Formed settings c → Shown c → Shown c'
  rest : c.mode = .none → c'.publicState = c.publicState

/-- Only what is shown changes, to a state without a motion. -/
def Rests (c c' : ControlState) : Prop :=
  ∃ publicState detail lastError updatedAt, publicState.resting = true ∧
    c' = { c with
      publicState := publicState, detail := detail, lastError := lastError
      updatedAt := updatedAt }

/-- The intent has been dropped. -/
structure Drops (d d' : DeskController) : Prop where
  generation : d.control.generation < d'.control.generation
  still : ∃ publicState detail updatedAt, publicState.resting = true ∧
    d'.control = .still publicState detail updatedAt d'.control.generation

/-- A pending startup WAKE stays or is cancelled. -/
def Wanes (d d' : DeskController) : Prop :=
  d'.startupWakePending = d.startupWakePending ∨ d'.startupWakePending = none

/-- Two control states stand for the same motion intent: the same target, or the same
manual direction. -/
def SameIntent (c c' : ControlState) : Prop :=
  c.mode = c'.mode ∧ (c.mode = .target → c.targetHeightCm = c'.targetHeightCm) ∧
    (c.mode = .manual → c.direction = c'.direction)

/-! ## The record -/

/-- A call that can move the desk. -/
def Event.isMotion : Event → Bool
  | .pulse _ _ _ _ => true
  | .wake _ _ _ _ => true
  | _ => false

/-- The event installs an intent. -/
def Event.isInstalled : Event → Bool
  | .installed _ _ => true
  | _ => false

/-- **The last thing that moved the desk is behind a confirmed STOP**: since an
exchange was begun nothing that moves the desk was sent, a STOP was, and a STOP status
was observed that is newer than the baseline of the exchange. -/
def StopConfirmed (trace : List Event) : Prop :=
  ∃ t baseline relay newer middle older,
    trace = newer ++ .exchangeConfirmed t baseline relay ::
      (middle ++ .exchangeBegun t baseline :: older) ∧
    (∀ e ∈ newer ++ middle, e.isMotion = false) ∧ Event.sendStop t ∈ middle ∧
    isFreshStop baseline relay = true

/-- The measurements and the status on which a pulse may be decided. -/
structure Admissible (settings : DeskSettings) (view : CycleView) (direction : Direction) :
    Prop where
  online : view.height.status = .online
  measured : ∃ q : ℚ, view.height.heightCm = some (.finite q) ∧
    settings.measurementMinCm ≤ q ∧ q ≤ settings.measurementMaxCm ∧
    (direction = .up → q < settings.operationMaxCm) ∧
    (direction = .down → settings.operationMinCm < q)
  observed : view.height.observedAt ≠ none
  valid : view.relay.lastError = none
  event : ∃ e, view.relay.event = some e ∧ e ≠ .offline ∧ e ≠ .rejected
  firmware : ∃ f, view.relay.firmware = some f ∧ f ∈ supportedRelayFirmwares
  age : ∃ r, view.relay.receivedAt = some r ∧ 0 ≤ view.checkedAt - r ∧
    view.checkedAt - r ≤ timedelta settings.relayStaleAfterSeconds
  lease : ∀ code, view.relay.code = some code → code ∉ leaseCodes

/-- What holds at a call of `pulse`. -/
structure PulseGuard (settings : DeskSettings) (d : DeskController) (view : CycleView)
    (direction : Direction) : Prop where
  generation : d.control.generation = view.control.generation
  mode : d.control.mode ≠ .none
  requested : d.control.direction = some direction
  closing : d.closing = false
  stopInProgress : d.stopInProgress = false
  awaiting : d.control.awaitingFreshHeight = false
  admissible : Admissible settings view direction

/-! ## What a task knows -/

/-- The waits in which a task publishes or confirms a STOP under the latch. -/
def isConfirming : Wait deskSignature → Bool
  | .lock .relayIo (some (.stop true _)) => true
  | .call (.stop true _) => true
  | .call (.freshStop _ _) => true
  | _ => false

/-- The task publishes or confirms a STOP under the latch. -/
def Confirming (m : Memory) (t : ℕ) : Prop :=
  ∃ job w, m.shape t = some (job, .waiting w) ∧ isConfirming w = true

/-- The task has still to be told of a cancellation. -/
def Told (m : Memory) (t : ℕ) : Prop := ∃ k, m.task t = some k ∧ k.cancelled = true

/-- The task waits. -/
def Waits (p : Spot) (w : Wait deskSignature) : Prop :=
  p.start.shape p.task = some (p.job, .waiting w)

/-- The segment starts the program of the task. -/
def Starts (p : Spot) : Prop :=
  p.start.shape p.task = some (p.job, .ready) ∨ p.start.shape p.task = some (p.job, .pausing)

/-- If the latch is set, this task did not leave it set: it was set when the segment
began and another task has to clear it, or this task was cancelled on its way. -/
def Calm (p : Spot) : Prop :=
  p.mem.vars.desk.stopInProgress = true → p.mem.vars.desk.closing = false →
    (p.start.vars.desk.stopInProgress = true ∧ p.start.vars.desk.closing = false ∧
      ¬ Confirming p.start p.task) ∨
    (Confirming p.start p.task ∧ Told p.start p.task)

/-- A `stop()` has set `_closing`, in this segment or before it. -/
def Shut (p : Spot) : Prop :=
  p.job = .stop → p.mem.vars.desk.closing = true ∨
    ((∃ w, Waits p w) ∧ p.mem.vars.desk.closing = p.start.vars.desk.closing)

/-- A running controller has the runner that it had when the segment began, or one that
has just been created; only a `stop()` ends it. -/
def Manned (p : Spot) : Prop :=
  p.mem.vars.desk.running = true → p.mem.vars.desk.closing = false →
    (p.start.vars.desk.running = true ∧ p.start.vars.desk.closing = false ∧
      p.mem.vars.desk.runnerTask = p.start.vars.desk.runnerTask) ∨
    (∃ u, u < p.mem.count ∧ p.mem.vars.desk.runnerTask = some u ∧
      p.mem.task u = some ⟨.runner, .ready, false⟩) ∨
    (p.job = .stop ∧ ∃ w, Waits p w)

/-- The segment began while the task published or confirmed a STOP, and the fields are
as it found them. -/
def Confirmed (p : Spot) : Prop :=
  Confirming p.start p.task ∧ p.mem.vars.desk = p.start.vars.desk

/-- The task may clear a latch that was set when the segment began. -/
def Owns (p : Spot) : Prop :=
  Confirming p.start p.task ∨ (p.job = .start ∧ Starts p) ∨ p.job = .stop

/-- A latch that was set when the segment began is set, unless the task owns it. -/
def Held (p : Spot) : Prop :=
  p.start.vars.desk.stopInProgress = true → p.mem.vars.desk.stopInProgress = true ∨ Owns p

/-- The task has set the latch, in this segment or before its exchange. -/
def Latched (p : Spot) : Prop :=
  Confirmed p ∨
    (p.mem.vars.desk.stopInProgress = true ∧ (p.start.vars.desk.stopInProgress = true → Owns p))

/-- A cycle of the runner, from its start, finds the latch clear, unless the runner is
told of a cancellation. -/
def Unhindered (p : Spot) : Prop :=
  p.job = .runner → Starts p → p.start.vars.desk.stopInProgress = false ∨ Told p.start p.task

/-- No startup WAKE is pending: the task cancelled it in this segment or before its
exchange. -/
def Cleared (p : Spot) : Prop :=
  p.mem.vars.desk.startupWakePending = none ∨
    (Confirming p.start p.task ∧ p.job ≠ .start ∧
      p.mem.vars.desk.startupWakePending = p.start.vars.desk.startupWakePending)

/-- A STOP child of the task raised an exception. -/
def ChildRaised (p : Spot) (e : Exc) : Prop :=
  ∃ u detail errorDetail, Waits p (.shield u) ∧ p.start.outcome u = some (.error (.error e)) ∧
    p.start.job u = some (.stopAndConfirm detail errorDetail)

/-- Why nothing moves where a task shows a state without a motion. -/
def AtRest (p : Spot) : Prop :=
  p.mem.vars.desk.control.mode = .none ∨
    ((Confirming p.start p.task ∨ p.start.vars.desk.startupWakePending ≠ none) ∧
      p.mem.vars.desk.control.mode = p.start.vars.desk.control.mode) ∨
    ∃ text, ChildRaised p (.rejected text)

/-! ## The runner -/

/-- The outcome of a STOP child that `_stop_motion` raises on. -/
def BadOutcome (errorDetail : Option String) (r : Reply deskSignature) : Prop :=
  (∃ e, r = .error e) ∨ (errorDetail = none ∧ ∃ text, r = .ok (Value.error text))

/-- An ONLINE snapshot comes with its height. -/
def HeightSnapshot.coherent (snapshot : HeightSnapshot) : Prop :=
  snapshot.status = .online → snapshot.heightCm ≠ none

/-- Why the runner can end: it was cancelled, the control state was not well formed, the
STOP that it waited for has not gone well, or the height monitor gave an ONLINE snapshot
without a height. -/
def Broken (settings : DeskSettings) (p : Spot) : Prop :=
  Told p.start p.task ∨ ¬ Formed settings p.start.vars.desk.control ∨
    (∃ u, Waits p (.gather u)) ∨
    (∃ u r, Waits p (.shield u) ∧ p.start.outcome u = some r ∧
      ∀ detail errorDetail, p.start.job u = some (.stopAndConfirm detail errorDetail) →
        detail ≠ runnerErrorDetail → BadOutcome errorDetail r) ∨
    ∃ i, ¬ (p.given i).height.coherent

/-- What the runner waits for in its cycle. -/
def CycleWait (p : Spot) : Wait deskSignature → Prop
  | .shield u => ∃ detail errorDetail,
      p.mem.task u = some ⟨.stopAndConfirm detail errorDetail, .ready, false⟩ ∧
        detail ≠ runnerErrorDetail
  | .gather _ => False
  | _ => True

/-- The readings fail the STOP that is published or confirmed: the relay call raises, or
no fresh STOP is there in time. -/
def unconfirmed (settings : DeskSettings) (env : ℕ → Reading) : Wait deskSignature → Bool
  | .call (.stop _ baseline) =>
      match (env 0).result with
      | some (.error _) => true
      | some (.ok _) =>
          let deadline := (env 1).monotonic.add (Ieee.finite settings.relayAckTimeoutSeconds)
          gaveUp ((freshStopRound baseline deadline).peek fun i => env (i + 2))
      | none => false
  | .call (.freshStop baseline deadline) => gaveUp ((freshStopRound baseline deadline).peek env)
  | _ => false
where
  gaveUp : Option (Option Value × (ℕ → Reading)) → Bool
    | some (some (.error _), _) => true
    | _ => false

/-- The value is the status that confirmed the STOP of the task. -/
def ConfirmedBy (trace : List Event) (t : ℕ) (value : Value) : Prop :=
  ∃ baseline status, value = .stop status ∧ .exchangeConfirmed t baseline status ∈ trace

/-- The last task that was created, which has not started. -/
def NewTask (m : Memory) (u : ℕ) : Prop :=
  u + 1 = m.count ∧ ∃ job, m.task u = some ⟨job, .ready, false⟩

/-- The segment began with the value of a STOP child, which has no error. -/
def ChildReturned (p : Spot) : Prop :=
  ∃ u detail errorDetail v, Waits p (.shield u) ∧
    p.start.job u = some (.stopAndConfirm detail errorDetail) ∧
    p.start.outcome u = some (.ok v) ∧ v.text? = none

/-- How a STOP child ends: another exchange is in progress, its own exchange is over, it
was cancelled, or the controller does not run. -/
inductive Concluded (settings : DeskSettings) (p : Spot) : Reply deskSignature → Prop where
  | joined (latch : p.start.vars.desk.stopInProgress = true) (vars : p.mem.vars = p.start.vars)
      (first : Starts p) : Concluded settings p (.ok Value.none)
  | exchanged (value : Value) (w : Wait deskSignature) (waits : Waits p w)
      (confirming : isConfirming w = true)
      (mode : p.mem.vars.desk.control.mode = p.start.vars.desk.control.mode)
      (shown : p.mem.vars.desk.control.publicState = .stopped ∨
        p.mem.vars.desk.control.publicState = .error)
      (failed : ∀ text, value = .error text →
        unconfirmed settings p.given w = true ∧ p.mem.vars.desk.control.lastError ≠ none)
      (recorded : value.text? = none → ConfirmedBy p.mem.vars.trace p.task value) :
      Concluded settings p (.ok value)
  | cancelled (told : Told p.start p.task) : Concluded settings p (.error .cancelled)
  | stopped (running : p.start.vars.desk.running = false)
      (closing : p.start.vars.desk.closing = false) (text : String) :
      Concluded settings p (.error (.error (.runtimeError text)))

/-! ## The record of a change -/

/-- What a motion goes on with after its WAKE: a height that is newer than the one that
its WAKE was based on, a relay that is at rest and ready and, for a target, the direction
towards it. -/
structure Activation (settings : DeskSettings) (found new : ControlState)
    (height : HeightSnapshot) (relay : RelaySnapshot) : Prop where
  awaiting : found.awaitingFreshHeight = true
  active : new.awaitingFreshHeight = false
  online : height.status = .online
  newer : ∃ before observedAt, found.wakeObservedAt = some before ∧
    height.observedAt = some observedAt ∧ before < observedAt
  stopped : relay.state = some .stop
  ready : relay.code = some "ready"
  direction : found.mode = .target → new.targetPhase = some .continuous ∧
    ∃ target heightCm, found.targetHeightCm = some target ∧ height.heightCm = some heightCm ∧
      ¬ (target.sub heightCm).abs ≤ Ieee.finite settings.targetToleranceCm ∧
      new.direction = some (directionOf (target.sub heightCm))

/-- The last event is the intent of the generation, which waits for a height. -/
def JustInstalled (v : Vars) (generation : ℕ) : Prop :=
  ∃ found older, v.trace = .installed found v.desk.control :: older ∧
    v.desk.control.generation = generation ∧ v.desk.control.awaitingFreshHeight = true

/-- The task has just installed an intent that waits for a height; a startup WAKE is that
of the runner. -/
structure WakeInstalled (p : Spot) (generation : ℕ) : Prop where
  installed : JustInstalled p.mem.vars generation
  lock : HasLock p .intent
  startup : p.mem.vars.desk.control.mode = .wake → p.job = .runner

/-- The runner found a startup WAKE pending, and nothing was recorded since. -/
def StartsUp (p : Spot) : Prop :=
  p.job = .runner ∧ p.start.vars.desk.startupWakePending ≠ none ∧
    p.mem.vars.trace = p.start.vars.trace

/-- A finite height inside the measurement range, with its time. -/
structure Measured (settings : DeskSettings) (snapshot : HeightSnapshot) : Prop where
  height : ∃ q : ℚ, snapshot.heightCm = some (.finite q) ∧
    settings.measurementMinCm ≤ q ∧ q ≤ settings.measurementMaxCm
  observed : ∃ t, snapshot.observedAt = some t

/-- What `_require_wake_basis` grants. -/
structure WakeBasis (settings : DeskSettings) (snapshot : HeightSnapshot) : Prop
    extends Measured settings snapshot where
  status : snapshot.status = .stale ∨ snapshot.status = .sensorSleeping

/-- What `_require_relay_available_for_wake` grants. -/
structure AvailableRelay (settings : DeskSettings) (snapshot : RelaySnapshot)
    (checkedAt : Instant) : Prop where
  valid : snapshot.lastError = none
  event : ∃ e, snapshot.event = some e ∧ e ≠ .offline ∧ e ≠ .rejected
  firmware : ∃ f, snapshot.firmware = some f ∧ f ∈ supportedRelayFirmwares
  age : ∃ r, snapshot.receivedAt = some r ∧ 0 ≤ checkedAt - r ∧
    checkedAt - r ≤ timedelta settings.relayStaleAfterSeconds

/-- The direction leads away from the bound. -/
def Away (settings : DeskSettings) (heightCm : Ieee) : Direction → Prop
  | .up => ¬ Ieee.finite settings.operationMaxCm ≤ heightCm
  | .down => ¬ heightCm ≤ Ieee.finite settings.operationMinCm

/-- A WAKE that is installed without a STOP: a hold or the startup WAKE, right after it
got the intent lock, with a height that is not ONLINE. -/
structure DirectWake (settings : DeskSettings) (p : Spot) (found new : ControlState) : Prop where
  control : found = p.start.vars.desk.control
  notAwaiting : found.awaitingFreshHeight = false
  basis : WakeBasis settings (p.given 0).height
  operation :
    (∃ direction x,
      (p.job = .holdUp ∧ direction = .up ∨ p.job = .holdDown ∧ direction = .down) ∧
      (Starts p ∨ Waits p (.lock .intent none)) ∧
      new.mode = .manual ∧ new.direction = some direction ∧
      (p.given 0).height.heightCm = some x ∧ Away settings x direction ∧
      AvailableRelay settings (p.given 1).relay (p.given 2).now) ∨
    (p.job = .runner ∧ Waits p (.lock .intent none) ∧
      p.start.vars.desk.startupWakePending ≠ none ∧
      AvailableRelay settings (p.given 2).relay (p.given 3).now)

/-- How a new intent takes the place of the one that its operation found. -/
def HandsOver (settings : DeskSettings) (p : Spot) (found new : ControlState) : Prop :=
  found.mode = .none ∨ StopConfirmed p.mem.vars.trace ∨ DirectWake settings p found new

/-! ## The changes -/

/-- **Everything that a segment can do to the fields and the record**, with the guards
of the source. -/
inductive Change (settings : DeskSettings) (p : Spot) (v : Vars) : Prop where
  /-- The intent is developed; the flags stay. -/
  | refine (flags : SameFlags p.mem.vars.desk v.desk)
      (control : Develops p.mem.vars.desk.control v.desk.control)
      (keeps : Keeps settings p.mem.vars.desk.control v.desk.control)
      (pending : Wanes p.mem.vars.desk v.desk) (trace : v.trace = p.mem.vars.trace)
  /-- A motion goes on after its WAKE. -/
  | activate (height : HeightSnapshot) (relay : RelaySnapshot)
      (flags : SameFlags p.mem.vars.desk v.desk)
      (control : Refines p.mem.vars.desk.control v.desk.control)
      (keeps : Keeps settings p.mem.vars.desk.control v.desk.control)
      (activation : Activation settings p.mem.vars.desk.control v.desk.control height relay)
      (read : (∃ i, height = (p.given i).height) ∧ ∃ i, relay = (p.given i).relay)
      (pending : Wanes p.mem.vars.desk v.desk)
      (trace : v.trace =
        .activated p.mem.vars.desk.control v.desk.control height relay :: p.mem.vars.trace)
  /-- An operation with valid arguments cancels a pending startup WAKE. -/
  | command (flags : SameFlags p.mem.vars.desk v.desk)
      (control : v.desk.control = p.mem.vars.desk.control) (lock : HasLock p .intent)
      (pending : v.desk.startupWakePending = none)
      (trace : v.trace = .commanded :: p.mem.vars.trace)
  /-- The entry of the runner. -/
  | runner (running : v.desk.running = p.mem.vars.desk.running)
      (closing : v.desk.closing = p.mem.vars.desk.closing)
      (latch : v.desk.stopInProgress = p.mem.vars.desk.stopInProgress)
      (control : v.desk.control = p.mem.vars.desk.control)
      (entry : v.desk.runnerTask = none ∨ p.job = .start)
      (pending : Wanes p.mem.vars.desk v.desk) (trace : v.trace = p.mem.vars.trace)
  /-- The same motion in a new generation: a target enters SETTLING. -/
  | settle (flags : SameFlags p.mem.vars.desk v.desk)
      (generation : p.mem.vars.desk.control.generation < v.desk.control.generation)
      (mode : v.desk.control.mode = p.mem.vars.desk.control.mode)
      (notManual : p.mem.vars.desk.control.mode ≠ .manual)
      (target : v.desk.control.targetHeightCm = p.mem.vars.desk.control.targetHeightCm)
      (active : p.mem.vars.desk.control.awaitingFreshHeight = false ∧
        v.desk.control.awaitingFreshHeight = false)
      (keeps : Keeps settings p.mem.vars.desk.control v.desk.control)
      (pending : Wanes p.mem.vars.desk v.desk) (trace : v.trace = p.mem.vars.trace)
  | drop (flags : SameFlags p.mem.vars.desk v.desk)
      (free : p.mem.vars.desk.stopInProgress = false ∨ p.mem.vars.desk.control.mode ≠ .none)
      (control : Drops p.mem.vars.desk v.desk)
      (pending : Wanes p.mem.vars.desk v.desk) (trace : v.trace = p.mem.vars.trace)
  /-- The state of the sensor is shown on a desk at rest. -/
  | idle (flags : SameFlags p.mem.vars.desk v.desk)
      (rests : Rests p.mem.vars.desk.control v.desk.control) (still : AtRest p)
      (free : p.mem.vars.desk.stopInProgress = false ∨ ∃ text, ChildRaised p (.rejected text))
      (pending : Wanes p.mem.vars.desk v.desk) (trace : v.trace = p.mem.vars.trace)
  /-- `start` leaves a WAKE pending. -/
  | register (flags : SameFlags p.mem.vars.desk v.desk)
      (rests : Rests p.mem.vars.desk.control v.desk.control) (still : AtRest p)
      (job : p.job = .start) (confirming : Confirming p.start p.task)
      (running : p.mem.vars.desk.running = true) (closing : p.mem.vars.desk.closing = false)
      (free : p.mem.vars.desk.stopInProgress = false)
      (opened : p.start.vars.desk.closing = false)
      (trace : v.trace = .wakePending :: p.mem.vars.trace)
  | install (found : ControlState) (lock : HasLock p .intent)
      (running : p.mem.vars.desk.running = true) (closing : p.mem.vars.desk.closing = false)
      (stopInProgress : p.mem.vars.desk.stopInProgress = false)
      (flags : SameFlags p.mem.vars.desk v.desk)
      (generation : p.mem.vars.desk.control.generation < v.desk.control.generation)
      (mode : v.desk.control.mode ≠ .none)
      (formed : Formed settings v.desk.control) (shown : Shown v.desk.control)
      (cleared : Cleared p)
      (pending : v.desk.startupWakePending = p.mem.vars.desk.startupWakePending)
      (handsOver : HandsOver settings p found v.desk.control)
      (startup : v.desk.control.mode = .wake → StartsUp p)
      (trace : v.trace = .installed found v.desk.control :: p.mem.vars.trace)
  | beginExchange (baseline : Option Instant) (free : p.mem.vars.desk.stopInProgress = false)
      (active : p.mem.vars.desk.running = true ∨ p.mem.vars.desk.closing = true)
      (running : v.desk.running = p.mem.vars.desk.running)
      (closing : v.desk.closing = p.mem.vars.desk.closing)
      (latch : v.desk.stopInProgress = true) (control : Drops p.mem.vars.desk v.desk)
      (shown : v.desk.control.publicState = .stopped)
      (pending : v.desk.startupWakePending = none)
      (read : ∃ i, baseline = (p.given i).relay.receivedAt)
      (trace : v.trace = .exchangeBegun p.task baseline :: p.mem.vars.trace)
  | confirm (baseline : Option Instant) (relay : RelaySnapshot) (desk : v.desk = p.mem.vars.desk)
      (fresh : isFreshStop baseline relay = true) (read : ∃ i, relay = (p.given i).relay)
      (begun : ∃ new older, p.mem.vars.trace = new ++ .exchangeBegun p.task baseline :: older ∧
        Event.sendStop p.task ∈ new)
      (sent : (Waits p (.call (.stop true baseline)) ∧ (p.given 0).result = some (.ok ())) ∨
        ∃ deadline, Waits p (.call (.freshStop baseline deadline)))
      (trace : v.trace = .exchangeConfirmed p.task baseline relay :: p.mem.vars.trace)
  /-- The latch is cleared; the intent stays as it is. -/
  | unlatch (confirmed : Confirmed p) (running : v.desk.running = p.mem.vars.desk.running)
      (closing : v.desk.closing = p.mem.vars.desk.closing)
      (latch : v.desk.stopInProgress = false)
      (rests : Rests p.mem.vars.desk.control v.desk.control)
      (pending : Wanes p.mem.vars.desk v.desk) (trace : v.trace = p.mem.vars.trace)
  | startBegin (job : p.job = .start) (first : Starts p)
      (notRunning : p.start.vars.desk.running = false)
      (running : v.desk.running = true) (closing : v.desk.closing = false)
      (latch : v.desk.stopInProgress = true) (control : Drops p.mem.vars.desk v.desk)
      (pending : Wanes p.mem.vars.desk v.desk) (trace : v.trace = p.mem.vars.trace)
  | startFail (job : p.job = .start) (first : Starts p) (running : v.desk.running = false)
      (closing : v.desk.closing = p.mem.vars.desk.closing)
      (latch : v.desk.stopInProgress = false) (control : v.desk.control = p.mem.vars.desk.control)
      (still : p.mem.vars.desk.control.mode = .none) (pending : Wanes p.mem.vars.desk v.desk)
      (trace : v.trace = p.mem.vars.trace)
  | stopBegin (job : p.job = .stop) (closing : v.desk.closing = true)
      (latch : v.desk.stopInProgress = true)
      (active : p.mem.vars.desk.running = true ∨ ∃ t, p.mem.vars.desk.runnerTask = some t)
      (running : v.desk.running = p.mem.vars.desk.running)
      (control : Drops p.mem.vars.desk v.desk) (pending : v.desk.startupWakePending = none)
      (trace : v.trace = .closed :: p.mem.vars.trace)
  | stopEnd (job : p.job = .stop) (before : ∃ w, Waits p w)
      (shut : p.mem.vars.desk.closing = p.start.vars.desk.closing)
      (running : v.desk.running = false) (closing : v.desk.closing = p.mem.vars.desk.closing)
      (latch : v.desk.stopInProgress = false)
      (rests : Rests p.mem.vars.desk.control v.desk.control)
      (pending : Wanes p.mem.vars.desk v.desk) (trace : v.trace = p.mem.vars.trace)
  | pulse (view : CycleView) (direction : Direction) (holdMs : ℤ) (desk : v.desk = p.mem.vars.desk)
      (allowed : PulseGuard settings p.mem.vars.desk view direction)
      (trace : v.trace = .pulse p.mem.vars.desk view direction holdMs :: p.mem.vars.trace)
  | wake (generation : ℕ) (direction : Direction) (basisHeightCm : Ieee)
      (desk : v.desk = p.mem.vars.desk) (lock : HasLock p .intent)
      (current : JustInstalled p.mem.vars generation ∨
        (Waits p (.lock .relayIo (some (.wake generation direction basisHeightCm))) ∧
          ¬ Told p.start p.task ∧ p.mem.vars = p.start.vars))
      (trace : v.trace =
        .wake p.mem.vars.desk generation direction basisHeightCm :: p.mem.vars.trace)
  | sendStop (desk : v.desk = p.mem.vars.desk)
      (trace : v.trace = .sendStop p.task :: p.mem.vars.trace)

/-- What holds at every point where a task stops. -/
structure Rested (p : Spot) : Prop where
  calm : Calm p
  manned : Manned p

/-- What holds where a task begins to wait. -/
structure Suspends (settings : DeskSettings) (p : Spot) (w : Wait deskSignature) : Prop where
  calm : isConfirming w = true ∨ Calm p
  shut : Shut p
  manned : Manned p
  unhindered : Unhindered p
  latched : isConfirming w = true → Latched p ∧ (p.job ≠ .start → Cleared p)
  wake : ∀ generation direction basis,
    w = .lock .relayIo (some (.wake generation direction basis)) →
      WakeInstalled p generation
  confirms : ∀ baseline deadline, w = .call (.freshStop baseline deadline) →
    Waits p (.call (.stop true baseline)) ∧ (p.given 0).result = some (.ok ())
  child : ∀ u, w = .shield u → NewTask p.mem u
  runner : p.job = .runner → Broken settings p ∨ CycleWait p w
  idle : p.job = .runner → w = .lock .intent none → p.mem.vars.desk.control.mode = .none

/-- What holds where a task ends. -/
structure Finishes (settings : DeskSettings) (p : Spot) (r : Reply deskSignature) : Prop
    extends Rested p where
  runner : p.job = .runner → Broken settings p ∨ p.mem.vars.desk.running = false
  child : ∀ detail errorDetail, p.job = .stopAndConfirm detail errorDetail →
    Concluded settings p r
  stopped : ∀ reason v, p.job = .stopMotion reason → r = .ok v → ChildReturned p

/-- **What is promised of every segment of every task.** -/
def deskGuarantee (settings : DeskSettings) : Guarantee deskSignature where
  write := Change settings
  spawn := fun _ job => job.isPublic = false
  cancel := fun p _ => p.job = .stop ∧ ∃ w, Waits p w
  suspend := Suspends settings
  pause := fun p => Rested p ∧ p.job = .runner
  finish := Finishes settings

/-! ## What a task relies on -/

/-- What other tasks leave as it is: one's own locks, the intent of a generation and,
for the holder of the intent lock, a desk at rest. -/
structure DeskRely (t : ℕ) (m m' : Memory) : Prop where
  owner : ∀ l, m.owner l = some t → m'.owner l = some t
  control : Later m.vars.desk.control m'.vars.desk.control
  grows : ∃ new, m'.vars.trace = new ++ m.vars.trace ∧
    (m.owner .intent = some t → m.vars.desk.control.mode = .none →
      m'.vars.desk.control.mode = .none ∧ ∀ e ∈ new, e.isMotion = false)

theorem DeskRely.of_frame {t : ℕ} {m m' : Memory} (hvars : m'.vars = m.vars)
    (howner : ∀ l, m.owner l = some t → m'.owner l = some t) : DeskRely t m m' where
  owner := howner
  control := by
    rw [hvars]
    exact .refl _
  grows := ⟨[], by rw [hvars]; rfl, fun _ h => ⟨by rw [hvars]; exact h, by simp⟩⟩

theorem DeskRely.trans {t : ℕ} {a b c : Memory} (h : DeskRely t a b) (h' : DeskRely t b c) :
    DeskRely t a c where
  owner := fun l hl => h'.owner l (h.owner l hl)
  control := h.control.trans h'.control
  grows := by
    obtain ⟨new, htrace, hquiet⟩ := h.grows
    obtain ⟨new', htrace', hquiet'⟩ := h'.grows
    refine ⟨new' ++ new, by rw [htrace', htrace, List.append_assoc], ?_⟩
    intro hlock hmode
    obtain ⟨hmid, hnew⟩ := hquiet hlock hmode
    obtain ⟨hend, hnew'⟩ := hquiet' (h.owner _ hlock) hmid
    refine ⟨hend, fun e he => ?_⟩
    rcases List.mem_append.mp he with he | he
    · exact hnew' e he
    · exact hnew e he

theorem Drops.mode {d d' : DeskController} (h : Drops d d') : d'.control.mode = .none := by
  obtain ⟨publicState, detail, updatedAt, _, hstill⟩ := h.still
  rw [hstill]
  rfl

theorem Drops.awaiting {d d' : DeskController} (h : Drops d d') :
    d'.control.awaitingFreshHeight = false := by
  obtain ⟨publicState, detail, updatedAt, _, hstill⟩ := h.still
  rw [hstill]
  rfl

theorem Drops.later {d d' : DeskController} (h : Drops d d') : Later d.control d'.control :=
  .inl h.generation

theorem Rests.refines {c c' : ControlState} (h : Rests c c') : Refines c c' := by
  obtain ⟨publicState, detail, lastError, updatedAt, _, rfl⟩ := h
  exact ⟨rfl, rfl, rfl, fun _ => rfl, .inl rfl, fun _ => ⟨.rfl, fun _ => rfl⟩⟩

/-- The control state and the record after a change: it refines the intent or starts a
new generation; a desk at rest moves only by an intent that is installed, and only the
holder of the intent lock moves it. -/
theorem Change.grows {settings : DeskSettings} {p : Spot} {v : Vars} (h : Change settings p v) :
    Later p.mem.vars.desk.control v.desk.control ∧
      ∃ new, v.trace = new ++ p.mem.vars.trace ∧
        (p.mem.vars.desk.control.mode = .none →
          (v.desk.control.mode = .none ∨ ∃ e ∈ new, e.isInstalled = true) ∧
          (¬ HasLock p .intent →
            v.desk.control.mode = .none ∧ ∀ e ∈ new, e.isMotion = false)) := by
  -- A change that leaves the control state alone.
  have hsame : v.desk.control = p.mem.vars.desk.control →
      Later p.mem.vars.desk.control v.desk.control ∧
        (p.mem.vars.desk.control.mode = .none → v.desk.control.mode = .none) := by
    intro heq
    rw [heq]
    exact ⟨.refl _, id⟩
  -- A change after which a desk at rest is at rest.
  have hrests : ∀ new : List Event, (∀ e ∈ new, e.isMotion = false) →
      (p.mem.vars.desk.control.mode = .none → v.desk.control.mode = .none) →
      p.mem.vars.desk.control.mode = .none →
        (v.desk.control.mode = .none ∨ ∃ e ∈ new, e.isInstalled = true) ∧
        (¬ HasLock p .intent → v.desk.control.mode = .none ∧ ∀ e ∈ new, e.isMotion = false) :=
    fun new hnew hmode hnone => ⟨.inl (hmode hnone), fun _ => ⟨hmode hnone, hnew⟩⟩
  cases h with
  | refine _ control _ _ trace =>
    exact ⟨.inr control.toRefines, [], trace, hrests _ (by simp) control.mode.trans⟩
  | activate _ _ _ control _ _ _ _ trace =>
    exact ⟨.inr control, [_], trace, hrests _ (by simp [Event.isMotion]) control.mode.trans⟩
  | command _ control _ _ trace =>
    exact ⟨(hsame control).1, [_], trace, hrests _ (by simp [Event.isMotion]) (hsame control).2⟩
  | runner _ _ _ control _ _ trace =>
    exact ⟨(hsame control).1, [], trace, hrests _ (by simp) (hsame control).2⟩
  | settle _ generation mode _ _ _ _ _ trace =>
    exact ⟨.inl generation, [], trace, hrests _ (by simp) mode.trans⟩
  | drop _ _ control _ trace =>
    exact ⟨control.later, [], trace, hrests _ (by simp) fun _ => control.mode⟩
  | idle _ rests _ _ _ trace =>
    exact ⟨.inr rests.refines, [], trace, hrests _ (by simp) rests.refines.mode.trans⟩
  | register _ rests _ _ _ _ _ _ _ trace =>
    exact ⟨.inr rests.refines, [_], trace,
      hrests _ (by simp [Event.isMotion]) rests.refines.mode.trans⟩
  | install _ lock _ _ _ _ generation _ _ _ _ _ _ _ trace =>
    exact ⟨.inl generation, [_], trace,
      fun _ => ⟨.inr ⟨_, List.mem_singleton_self _, rfl⟩, fun hno => absurd lock hno⟩⟩
  | beginExchange _ _ _ _ _ _ control _ _ _ trace =>
    exact ⟨control.later, [_], trace, hrests _ (by simp [Event.isMotion]) fun _ => control.mode⟩
  | confirm _ _ desk _ _ _ _ trace =>
    have hcontrol := hsame (congrArg (·.control) desk)
    exact ⟨hcontrol.1, [_], trace, hrests _ (by simp [Event.isMotion]) hcontrol.2⟩
  | unlatch _ _ _ _ rests _ trace =>
    exact ⟨.inr rests.refines, [], trace, hrests _ (by simp) rests.refines.mode.trans⟩
  | startBegin _ _ _ _ _ _ control _ trace =>
    exact ⟨control.later, [], trace, hrests _ (by simp) fun _ => control.mode⟩
  | startFail _ _ _ _ _ control _ _ trace =>
    exact ⟨(hsame control).1, [], trace, hrests _ (by simp) (hsame control).2⟩
  | stopBegin _ _ _ _ _ control _ trace =>
    exact ⟨control.later, [_], trace, hrests _ (by simp [Event.isMotion]) fun _ => control.mode⟩
  | stopEnd _ _ _ _ _ _ rests _ trace =>
    exact ⟨.inr rests.refines, [], trace, hrests _ (by simp) rests.refines.mode.trans⟩
  | pulse _ _ _ desk allowed trace =>
    have hcontrol := hsame (congrArg (·.control) desk)
    exact ⟨hcontrol.1, [_], trace, fun hmode => absurd hmode allowed.mode⟩
  | wake _ _ _ desk lock _ trace =>
    have hcontrol := hsame (congrArg (·.control) desk)
    exact ⟨hcontrol.1, [_], trace,
      fun hmode => ⟨.inl (hcontrol.2 hmode), fun hno => absurd lock hno⟩⟩
  | sendStop desk trace =>
    have hcontrol := hsame (congrArg (·.control) desk)
    exact ⟨hcontrol.1, [_], trace, hrests _ (by simp [Event.isMotion]) hcontrol.2⟩

/-- What a change records, with what its guards say about it. -/
inductive Records (settings : DeskSettings) (p : Spot) (v : Vars) : Event → Prop where
  | activated (height : HeightSnapshot) (relay : RelaySnapshot) :
      Records settings p v (.activated p.mem.vars.desk.control v.desk.control height relay)
  | commanded : Records settings p v .commanded
  | wakePending : Records settings p v .wakePending
  | installed (found : ControlState) (handsOver : HandsOver settings p found v.desk.control) :
      Records settings p v (.installed found v.desk.control)
  | exchangeBegun (baseline : Option Instant) :
      Records settings p v (.exchangeBegun p.task baseline)
  | exchangeConfirmed (baseline : Option Instant) (relay : RelaySnapshot)
      (fresh : isFreshStop baseline relay = true)
      (begun : ∃ new older, p.mem.vars.trace = new ++ .exchangeBegun p.task baseline :: older ∧
        Event.sendStop p.task ∈ new) : Records settings p v (.exchangeConfirmed p.task baseline relay)
  | closed : Records settings p v .closed
  | pulse (view : CycleView) (direction : Direction) (holdMs : ℤ)
      (allowed : PulseGuard settings p.mem.vars.desk view direction) :
      Records settings p v (.pulse p.mem.vars.desk view direction holdMs)
  | wake (generation : ℕ) (direction : Direction) (basisHeightCm : Ieee)
      (current : JustInstalled p.mem.vars generation ∨
        (Waits p (.lock .relayIo (some (.wake generation direction basisHeightCm))) ∧
          ¬ Told p.start p.task ∧ p.mem.vars = p.start.vars)) :
      Records settings p v (.wake p.mem.vars.desk generation direction basisHeightCm)
  | sendStop : Records settings p v (.sendStop p.task)

/-- **A change records one event, or none.** -/
theorem Change.records {settings : DeskSettings} {p : Spot} {v : Vars} (h : Change settings p v) :
    v.trace = p.mem.vars.trace ∨
      ∃ e, v.trace = e :: p.mem.vars.trace ∧ Records settings p v e := by
  cases h with
  | refine _ _ _ _ trace => exact .inl trace
  | activate height relay _ _ _ _ _ _ trace => exact .inr ⟨_, trace, .activated height relay⟩
  | command _ _ _ _ trace => exact .inr ⟨_, trace, .commanded⟩
  | runner _ _ _ _ _ _ trace => exact .inl trace
  | settle _ _ _ _ _ _ _ _ trace => exact .inl trace
  | drop _ _ _ _ trace => exact .inl trace
  | idle _ _ _ _ _ trace => exact .inl trace
  | register _ _ _ _ _ _ _ _ _ trace => exact .inr ⟨_, trace, .wakePending⟩
  | install found _ _ _ _ _ _ _ _ _ _ _ handsOver _ trace =>
    exact .inr ⟨_, trace, .installed found handsOver⟩
  | beginExchange baseline _ _ _ _ _ _ _ _ _ trace =>
    exact .inr ⟨_, trace, .exchangeBegun baseline⟩
  | confirm baseline relay _ fresh _ begun _ trace =>
    exact .inr ⟨_, trace, .exchangeConfirmed baseline relay fresh begun⟩
  | unlatch _ _ _ _ _ _ trace => exact .inl trace
  | startBegin _ _ _ _ _ _ _ _ trace => exact .inl trace
  | startFail _ _ _ _ _ _ _ _ trace => exact .inl trace
  | stopBegin _ _ _ _ _ _ _ trace => exact .inr ⟨_, trace, .closed⟩
  | stopEnd _ _ _ _ _ _ _ _ trace => exact .inl trace
  | pulse view direction holdMs _ allowed trace =>
    exact .inr ⟨_, trace, .pulse view direction holdMs allowed⟩
  | wake generation direction basisHeightCm _ _ current trace =>
    exact .inr ⟨_, trace, .wake generation direction basisHeightCm current⟩
  | sendStop _ trace => exact .inr ⟨_, trace, .sendStop⟩

/-- **No change of another task breaks what a task relies on.** -/
theorem rely_of_change {settings : DeskSettings} {t : ℕ} {p : Spot} {v : Vars} (ht : t ≠ p.task)
    (h : Change settings p v) : DeskRely t p.mem { p.mem with vars := v } := by
  obtain ⟨hlater, new, htrace, hquiet⟩ := h.grows
  refine ⟨fun _ hl => hl, hlater, new, htrace, ?_⟩
  intro hlock hmode
  refine (hquiet hmode).2 fun hp => ht ?_
  exact Option.some.inj (hlock.symm.trans hp)

end SmartDesk.Desk
