import SmartDesk.Desk.Control
import SmartDesk.Desk.Segment
import SmartDesk.Lib.Transition

/-!
# The height monitor

`modules/desk/height_monitor.py`: the runner that reads the lines of the display, and what
`get_snapshot()` makes of its last observation.

* `Monitor`, `step` — one step is what happens between two `await`s.
* `online_sound` — **what is ONLINE was read and decoded since the runner was started**, in
  every run in which no `start()` overlaps another.
* `survives_lines` — **no line within the limits of `json.loads` ends the runner.**
-/

namespace SmartDesk.Desk

open PyJson SegmentDecoder

inductive SerialStatus where
  | stopped
  | disconnected
  | connected
  | error
  deriving DecidableEq, Repr

inductive HeightProvenance where
  | live
  | cached
  deriving DecidableEq, Repr

/-- A height with the time of its observation, as the cache keeps it. -/
structure CachedHeight where
  heightCm : Ieee
  observedAt : Instant
  deriving DecidableEq

/-- A snapshot, with the provenance of its height. -/
structure MonitorSnapshot extends HeightSnapshot where
  provenance : Option HeightProvenance
  deriving DecidableEq

/-- How the runner ended. -/
inductive RunnerEnd where
  | returned
  | cancelled
  /-- `decode` raised. -/
  | loadError (e : LoadError)
  /-- `HeightMessage` refused the height. -/
  | invalidMessage
  /-- `publish` raised something else than `MqttUnavailableError`. -/
  | publishError
  deriving DecidableEq

/-- The `await` at which the runner stands. -/
inductive RunnerAt where
  | reading
  /-- `asyncio.sleep(0)` -/
  | yielding
  | saving (observation : CachedHeight)
  | publishing
  | ended (how : RunnerEnd)
  deriving DecidableEq

/-- `task.done()`. -/
def RunnerAt.isDone : RunnerAt → Bool
  | .ended _ => true
  | _ => false

/-- `_publish_height(height, observed_at)` up to its `await`. -/
def CachedHeight.publish (observation : CachedHeight) : RunnerAt :=
  if observation.heightCm.isFinite then .publishing else .ended .invalidMessage

/-- A line that became the height, with the status of the source at that time. -/
structure TakenLine where
  raw : ByteArray
  status : SerialStatus
  observation : CachedHeight

/-- The monitor, with the last runner, the `start()` and `stop()` calls that are on their
way, and the lines that became the height since the runner was created. -/
structure HeightMonitor where
  heightCm : Option Ieee := none
  observedAt : Option Instant := none
  provenance : Option HeightProvenance := none
  running : Bool := false
  sourceStarted : Bool := false
  /-- `_runner_task` is the last runner. -/
  owned : Bool := false
  runner : RunnerAt := .ended .returned
  cancelled : Bool := false
  loading : ℕ := 0
  opening : ℕ := 0
  stopping : ℕ := 0
  source : SerialStatus := .stopped
  taken : List TakenLine := []

namespace HeightMonitor

/-- The condition of the loop of `_run()`. -/
def loop (m : HeightMonitor) : HeightMonitor :=
  { m with runner := if m.running then .reading else .ended .returned }

/-- `start()` up to its first `await`. -/
def callStart (hasCache : Bool) (m : HeightMonitor) : HeightMonitor :=
  if m.running || (m.owned && !m.runner.isDone) then m
  else
    { m with
      heightCm := none, observedAt := none, provenance := none,
      loading := if hasCache then m.loading + 1 else m.loading,
      opening := if hasCache then m.opening else m.opening + 1 }

/-- What follows `cache.load()`. -/
def loaded (cached : Option CachedHeight) (m : HeightMonitor) : HeightMonitor :=
  let m := { m with loading := m.loading - 1, opening := m.opening + 1 }
  match cached with
  | none => m
  | some row =>
      { m with
        heightCm := some row.heightCm, observedAt := some row.observedAt,
        provenance := some .cached }

/-- What follows `source.start()`: the task manager refuses a second runner. -/
def opened (accepted : Bool) (m : HeightMonitor) : HeightMonitor :=
  let m := { m with opening := m.opening - 1, running := true, sourceStarted := true }
  if accepted && m.runner.isDone then
    { m with owned := true, runner := .reading, cancelled := false, taken := [] }
  else { m with running := false, sourceStarted := false }

/-- `stop()` up to its first `await`. -/
def callStop (m : HeightMonitor) : HeightMonitor :=
  { m with
    running := false, owned := false, cancelled := m.cancelled || m.owned,
    stopping := m.stopping + 1 }

/-- `_run()` from a line to the next `await`. -/
def line (limits : Limits) (settings : DeskSettings) (hasCache : Bool) (raw : ByteArray)
    (now : Instant) (m : HeightMonitor) : HeightMonitor :=
  if raw.size = 0 then { m with runner := .yielding }
  else
    match decode limits settings (.bytes raw) with
    | .error e => { m with runner := .ended (.loadError e) }
    | .ok none => m.loop
    | .ok (some height) =>
        if m.source = .connected then
          let observation : CachedHeight := ⟨height, now⟩
          { m with
            heightCm := some height, observedAt := some now, provenance := some .live,
            taken := ⟨raw, m.source, observation⟩ :: m.taken,
            runner := if hasCache then .saving observation else observation.publish }
        else m.loop

/-- `get_snapshot()` at a reading of the clock. -/
def getSnapshot (settings : DeskSettings) (now : Instant) (m : HeightMonitor) :
    MonitorSnapshot :=
  let snapshot (status : HeightStatus) : MonitorSnapshot :=
    { heightCm := m.heightCm, observedAt := m.observedAt, status := status,
      provenance := m.provenance }
  if m.running = false then snapshot .stopped
  else if m.source = .error then snapshot .error
  else
    match m.heightCm, m.observedAt with
    | some _, some observedAt =>
        if m.provenance = some .cached then snapshot .sensorSleeping
        else if timedelta settings.heightStaleAfterSeconds < now - observedAt then snapshot .stale
        else if m.source = .connected then snapshot .online
        else snapshot .error
    | _, _ => snapshot .waiting

end HeightMonitor

/-! ## Steps -/

inductive MonitorLabel where
  | callStart
  /-- `cache.load()` returns; an error is as good as no row. -/
  | loaded (cached : Option CachedHeight)
  /-- `source.start()` returns, and the task manager accepts the runner or not. -/
  | opened (accepted : Bool)
  /-- `start()` ends with an exception at one of its `await`s. -/
  | startFailed (isLoading : Bool)
  | callStop
  /-- The runner has ended, and `stop()` goes on. -/
  | joined
  | source (status : SerialStatus)
  | line (raw : ByteArray) (now : Instant)
  | yielded
  /-- `cache.save` returns or raises. -/
  | saved
  /-- `publish` returns, or raises something else than `MqttUnavailableError`. -/
  | published (returned : Bool)
  /-- The cancellation reaches the runner. -/
  | interrupted

namespace HeightMonitor

variable (limits : Limits) (settings : DeskSettings) (hasCache : Bool)

/-- One step; a runner that has been cancelled does nothing else than end. -/
def step (m : HeightMonitor) : MonitorLabel → Option HeightMonitor
  | .callStart => some (m.callStart hasCache)
  | .loaded cached => if 0 < m.loading then some (m.loaded cached) else none
  | .opened accepted => if 0 < m.opening then some (m.opened accepted) else none
  | .startFailed true =>
      if 0 < m.loading then some { m with loading := m.loading - 1 } else none
  | .startFailed false =>
      if 0 < m.opening then some { m with opening := m.opening - 1 } else none
  | .callStop => some m.callStop
  | .joined =>
      if 0 < m.stopping ∧ m.runner.isDone = true then
        some { m with stopping := m.stopping - 1, sourceStarted := false }
      else none
  | .source status => some { m with source := status }
  | .line raw now =>
      if m.runner = .reading ∧ m.cancelled = false then
        some (m.line limits settings hasCache raw now)
      else none
  | .yielded => if m.runner = .yielding ∧ m.cancelled = false then some m.loop else none
  | .saved =>
      match m.runner with
      | .saving observation =>
          if m.cancelled = false then some { m with runner := observation.publish } else none
      | _ => none
  | .published returned =>
      if m.runner = .publishing ∧ m.cancelled = false then
        some (if returned then m.loop else { m with runner := .ended .publishError })
      else none
  | .interrupted =>
      if m.runner.isDone = false ∧ m.cancelled = true then
        some { m with runner := .ended .cancelled }
      else none

/-! ## What is ONLINE -/

/-- A `start()` begins only if no other is on its way. -/
def Solo (m : HeightMonitor) : MonitorLabel → Prop
  | .callStart => m.loading + m.opening = 0
  | _ => True

/-- The height is one that the runner took from a line. -/
def Taken (m : HeightMonitor) : Prop :=
  ∃ l ∈ m.taken, l.status = .connected ∧
    decode limits settings (.bytes l.raw) = .ok (some l.observation.heightCm) ∧
    m.heightCm = some l.observation.heightCm ∧ m.observedAt = some l.observation.observedAt

structure Sound (m : HeightMonitor) : Prop where
  known : m.heightCm.isSome = true → m.provenance.isSome = true
  live : m.provenance = some .live → m.Taken limits settings
  solo : m.loading + m.opening ≤ 1
  starting : 0 < m.loading + m.opening → m.running = false ∧ m.provenance ≠ some .live
  active : m.runner.isDone = false → m.cancelled = false → m.running = true ∧ m.owned = true

variable {limits settings hasCache}

theorem sound_created : Sound limits settings {} :=
  ⟨by decide, by simp, by decide, by decide, by decide⟩

/-- Where the runner stands does not matter to the height. -/
theorem Sound.withRunner {m : HeightMonitor} (h : Sound limits settings m) {runner : RunnerAt}
    (hactive : m.runner.isDone = false) (hcancelled : m.cancelled = false) :
    Sound limits settings { m with runner := runner } :=
  ⟨h.known, h.live, h.solo, h.starting, fun _ _ => h.active hactive hcancelled⟩

theorem Sound.loop {m : HeightMonitor} (h : Sound limits settings m)
    (hactive : m.runner.isDone = false) (hcancelled : m.cancelled = false) :
    Sound limits settings m.loop := h.withRunner hactive hcancelled

theorem Sound.callStart {m : HeightMonitor} (h : Sound limits settings m)
    (hsolo : m.loading + m.opening = 0) : Sound limits settings (m.callStart hasCache) := by
  unfold HeightMonitor.callStart
  split
  · exact h
  · next hidle =>
    have hrunning : m.running = false := by
      cases hr : m.running with
      | false => rfl
      | true => simp [hr] at hidle
    refine ⟨by simp, by simp, ?_, fun _ => ⟨hrunning, by simp⟩, h.active⟩
    cases hasCache <;> simp <;> omega

theorem Sound.loaded {m : HeightMonitor} (h : Sound limits settings m) (hloading : 0 < m.loading)
    (cached : Option CachedHeight) : Sound limits settings (m.loaded cached) := by
  have hsolo := h.solo
  obtain ⟨hrunning, hlive⟩ := h.starting (by omega)
  cases cached with
  | none =>
    refine ⟨h.known, h.live, ?_, fun _ => ⟨hrunning, hlive⟩, h.active⟩
    show m.loading - 1 + (m.opening + 1) ≤ 1
    omega
  | some row =>
    refine ⟨fun _ => rfl, fun hlive => ?_, ?_, fun _ => ⟨hrunning, ?_⟩, h.active⟩
    · simp [HeightMonitor.loaded] at hlive
    · show m.loading - 1 + (m.opening + 1) ≤ 1
      omega
    · simp [HeightMonitor.loaded]

theorem Sound.opened {m : HeightMonitor} (h : Sound limits settings m) (hopening : 0 < m.opening)
    (accepted : Bool) : Sound limits settings (m.opened accepted) := by
  have hsolo := h.solo
  obtain ⟨hrunning, hlive⟩ := h.starting (by omega)
  unfold HeightMonitor.opened
  dsimp only
  split
  · refine ⟨h.known, fun h => absurd h hlive, ?_, fun hstart => ?_, fun _ _ => ⟨rfl, rfl⟩⟩
    · show m.loading + (m.opening - 1) ≤ 1
      omega
    · have : 0 < m.loading + (m.opening - 1) := hstart
      omega
  · refine ⟨h.known, fun h => absurd h hlive, ?_, fun _ => ⟨rfl, hlive⟩, fun hdone hcancelled => ?_⟩
    · show m.loading + (m.opening - 1) ≤ 1
      omega
    · -- A runner that has not been cancelled needs a monitor that runs.
      have := (h.active hdone hcancelled).1
      rw [hrunning] at this
      cases this

theorem Sound.callStop {m : HeightMonitor} (h : Sound limits settings m) :
    Sound limits settings m.callStop := by
  refine ⟨h.known, h.live, h.solo, fun hstart => ⟨rfl, (h.starting hstart).2⟩, ?_⟩
  intro hdone hcancelled
  simp only [HeightMonitor.callStop, Bool.or_eq_false_iff] at hcancelled
  have := (h.active hdone hcancelled.1).2
  rw [hcancelled.2] at this
  cases this

theorem Sound.line {m : HeightMonitor} (h : Sound limits settings m)
    (hactive : m.runner.isDone = false) (hcancelled : m.cancelled = false) (raw : ByteArray)
    (now : Instant) : Sound limits settings (m.line limits settings hasCache raw now) := by
  unfold HeightMonitor.line
  split
  · exact h.withRunner hactive hcancelled
  · split
    · exact h.withRunner hactive hcancelled
    · exact h.loop hactive hcancelled
    · next height hdecode =>
      split
      · next hconnected =>
        obtain ⟨hrunning, howned⟩ := h.active hactive hcancelled
        refine ⟨fun _ => rfl, fun _ => ?_, h.solo, fun hstart => ?_, fun _ _ => ⟨hrunning, howned⟩⟩
        · exact ⟨_, List.mem_cons_self, hconnected, hdecode, rfl, rfl⟩
        · have := (h.starting hstart).1
          rw [hrunning] at this
          cases this
      · exact h.loop hactive hcancelled

theorem isDone_of_eq {m : HeightMonitor} {runner : RunnerAt} (h : m.runner = runner)
    (hdone : runner.isDone = false := by rfl) : m.runner.isDone = false := by
  rw [h, hdone]

theorem sound_step {m m' : HeightMonitor} {l : MonitorLabel} (h : Sound limits settings m)
    (hsolo : m.Solo l) (hstep : step limits settings hasCache m l = some m') :
    Sound limits settings m' := by
  cases l with
  | callStart =>
    cases hstep
    exact h.callStart hsolo
  | loaded cached =>
    obtain ⟨hloading, ⟨⟩⟩ := Option.ite_none_right_eq_some.mp hstep
    exact h.loaded hloading cached
  | opened accepted =>
    obtain ⟨hopening, ⟨⟩⟩ := Option.ite_none_right_eq_some.mp hstep
    exact h.opened hopening accepted
  | startFailed isLoading =>
    have hle := h.solo
    cases isLoading with
    | true =>
      obtain ⟨hloading, ⟨⟩⟩ := Option.ite_none_right_eq_some.mp hstep
      refine ⟨h.known, h.live, ?_, fun _ => h.starting (by omega), h.active⟩
      show m.loading - 1 + m.opening ≤ 1
      omega
    | false =>
      obtain ⟨hopening, ⟨⟩⟩ := Option.ite_none_right_eq_some.mp hstep
      refine ⟨h.known, h.live, ?_, fun _ => h.starting (by omega), h.active⟩
      show m.loading + (m.opening - 1) ≤ 1
      omega
  | callStop =>
    cases hstep
    exact h.callStop
  | joined =>
    obtain ⟨-, ⟨⟩⟩ := Option.ite_none_right_eq_some.mp hstep
    exact ⟨h.known, h.live, h.solo, h.starting, h.active⟩
  | source status =>
    cases hstep
    exact ⟨h.known, h.live, h.solo, h.starting, h.active⟩
  | line raw now =>
    obtain ⟨⟨hreading, hcancelled⟩, ⟨⟩⟩ := Option.ite_none_right_eq_some.mp hstep
    exact h.line (isDone_of_eq hreading) hcancelled raw now
  | yielded =>
    obtain ⟨⟨hyielding, hcancelled⟩, ⟨⟩⟩ := Option.ite_none_right_eq_some.mp hstep
    exact h.loop (isDone_of_eq hyielding) hcancelled
  | saved =>
    simp only [step] at hstep
    split at hstep
    · next observation hsaving =>
      obtain ⟨hcancelled, ⟨⟩⟩ := Option.ite_none_right_eq_some.mp hstep
      exact h.withRunner (isDone_of_eq hsaving) hcancelled
    · cases hstep
  | published returned =>
    obtain ⟨⟨hpublishing, hcancelled⟩, hm'⟩ := Option.ite_none_right_eq_some.mp hstep
    cases returned with
    | true => cases hm'; exact h.loop (isDone_of_eq hpublishing) hcancelled
    | false => cases hm'; exact h.withRunner (isDone_of_eq hpublishing) hcancelled
  | interrupted =>
    obtain ⟨⟨-, hcancelled⟩, ⟨⟩⟩ := Option.ite_none_right_eq_some.mp hstep
    refine ⟨h.known, h.live, h.solo, h.starting, fun hdone _ => ?_⟩
    cases hdone

theorem snapshot_fields (now : Instant) (m : HeightMonitor) :
    (m.getSnapshot settings now).heightCm = m.heightCm ∧
      (m.getSnapshot settings now).observedAt = m.observedAt ∧
      (m.getSnapshot settings now).provenance = m.provenance := by
  unfold getSnapshot
  dsimp only
  repeat' split
  all_goals exact ⟨rfl, rfl, rfl⟩

/-- What `get_snapshot` calls ONLINE. -/
theorem online_snapshot {m : HeightMonitor} {now : Instant}
    (h : (m.getSnapshot settings now).status = .online) :
    ∃ height observedAt, m.heightCm = some height ∧ m.observedAt = some observedAt ∧
      m.provenance ≠ some .cached ∧
      now - observedAt ≤ timedelta settings.heightStaleAfterSeconds ∧ m.source = .connected := by
  unfold getSnapshot at h
  dsimp only at h
  split at h
  · cases h
  · split at h
    · cases h
    · split at h
      · next height observedAt hheight hobserved =>
        split at h
        · cases h
        · next hlive =>
          split at h
          · cases h
          · next hage =>
            split at h
            · next hconnected =>
              exact ⟨height, observedAt, hheight, hobserved, hlive, not_lt.mp hage, hconnected⟩
            · cases h
      · cases h

/-- **What is ONLINE was decoded from a line that was read since the runner was created,
while the source was connected, and it is not stale**: as long as no `start()` overlaps
another, and the clock does not stand before the observation. -/
theorem online_sound (limits : Limits) (settings : DeskSettings) (hasCache : Bool)
    {ls : List MonitorLabel} {m : HeightMonitor}
    (hrun : Transition.exec (step limits settings hasCache) {} ls = some m)
    (hsolo : Transition.Meets (step limits settings hasCache) Solo {} ls) (now : Instant)
    (hclock : ∀ t, m.observedAt = some t → t ≤ now)
    (honline : (m.getSnapshot settings now).status = .online) :
    ∃ l ∈ m.taken, l.status = .connected ∧
      decode limits settings (.bytes l.raw) = .ok (some l.observation.heightCm) ∧
      (m.getSnapshot settings now).heightCm = some l.observation.heightCm ∧
      (m.getSnapshot settings now).observedAt = some l.observation.observedAt ∧
      (m.getSnapshot settings now).provenance = some .live ∧
      Measured settings l.observation.heightCm ∧ 0 ≤ now - l.observation.observedAt ∧
      now - l.observation.observedAt ≤ timedelta settings.heightStaleAfterSeconds := by
  have hsound := Transition.invariant_of_meets (I := Sound limits settings)
    (fun _ _ _ h hok hstep => sound_step h hok hstep) sound_created hsolo hrun
  obtain ⟨height, observedAt, hheight, hobserved, hcached, hage, -⟩ := online_snapshot honline
  have hlive : m.provenance = some .live := by
    have hknown := hsound.known (by rw [hheight]; rfl)
    obtain ⟨provenance, hprovenance⟩ := Option.isSome_iff_exists.mp hknown
    cases provenance with
    | live => exact hprovenance
    | cached => exact absurd hprovenance hcached
  obtain ⟨l, hl, hconnected, hdecode, hlineHeight, hlineObserved⟩ := hsound.live hlive
  obtain rfl : observedAt = l.observation.observedAt := by
    rw [hobserved] at hlineObserved
    exact Option.some.inj hlineObserved
  have hnow := hclock _ hlineObserved
  obtain ⟨heightEq, observedEq, provenanceEq⟩ := @snapshot_fields settings now m
  refine ⟨l, hl, hconnected, hdecode, ?_, ?_, ?_, measured_of_decode hdecode,
    sub_nonneg.mpr hnow, hage⟩
  · rw [heightEq, hlineHeight]
  · rw [observedEq, hlineObserved]
  · rw [provenanceEq, hlive]

/-- The line of a display that shows 75.0. -/
def shown75 : String :=
  "\x7b\"fresh\":7,\"m8\":112,\"p8\":0,\"m9\":91,\"p9\":1,\"m10\":126,\"p10\":0\x7d"

theorem decodeText_toByteArray (text : String) :
    decodeText (.bytes text.toByteArray) = some (PyText.decode text.toList) := by
  rw [decodeText, ← String.utf8Encode_toList, List.utf8Decode?_utf8Encode]
  rfl

theorem decode_shown75 : decode ⟨4300, 1000⟩ DeskSettings.default (.bytes shown75.toByteArray) =
    .ok (some (.finite 75)) := by
  have hdecode : decode ⟨4300, 1000⟩ DeskSettings.default (.str (PyText.decode shown75.toList)) =
      .ok (some (.finite 75)) := by decide +kernel
  rw [decode, decodeText_toByteArray, ← hdecode]
  rfl

/-- The display is read at one second. -/
def shownAtOneSecond : List MonitorLabel :=
  [.callStart, .opened true, .source .connected, .line shown75.toByteArray 1000000]

theorem exec_shownAtOneSecond :
    Transition.exec (step ⟨4300, 1000⟩ DeskSettings.default false) {} shownAtOneSecond =
      some
        { heightCm := some (.finite 75), observedAt := some 1000000, provenance := some .live,
          running := true, sourceStarted := true, owned := true, runner := .publishing,
          source := .connected,
          taken := [⟨shown75.toByteArray, .connected, ⟨.finite 75, 1000000⟩⟩] } := by
  have hsize : shown75.toByteArray.size ≠ 0 := by decide
  have hline : ∀ m : HeightMonitor, m.runner = .reading ∧ m.cancelled = false →
      m.source = .connected →
      step ⟨4300, 1000⟩ DeskSettings.default false m (.line shown75.toByteArray 1000000) = some
        { m with
          heightCm := some (.finite 75), observedAt := some 1000000, provenance := some .live,
          taken := ⟨shown75.toByteArray, m.source, ⟨.finite 75, 1000000⟩⟩ :: m.taken,
          runner := .publishing } := by
    intro m hreading hconnected
    rw [step, if_pos hreading, line, if_neg hsize, decode_shown75]
    dsimp only
    rw [if_pos hconnected]
    rfl
  rw [shownAtOneSecond, Transition.exec_cons rfl, Transition.exec_cons rfl,
    Transition.exec_cons rfl, Transition.exec_cons (hline _ ⟨rfl, rfl⟩ rfl)]
  rfl

/-- A clock that is set back by two seconds gives a height an age below zero. -/
theorem online_before_observation :
    ¬ ∀ (ls : List MonitorLabel) (m : HeightMonitor) (now : Instant),
      Transition.exec (step ⟨4300, 1000⟩ DeskSettings.default false) {} ls = some m →
      (m.getSnapshot DeskSettings.default now).status = .online →
        ∃ t, (m.getSnapshot DeskSettings.default now).observedAt = some t ∧ 0 ≤ now - t := by
  intro h
  obtain ⟨t, ht, hage⟩ := h _ _ (-1000000) exec_shownAtOneSecond (by decide +kernel)
  rw [(snapshot_fields _ _).2.1] at ht
  obtain rfl : (1000000 : Instant) = t := Option.some.inj ht
  exact absurd hage (by decide)

theorem online_sound_shown : ∃ (m : HeightMonitor) (l : TakenLine), l ∈ m.taken ∧
    (m.getSnapshot DeskSettings.default 1500000).heightCm = some l.observation.heightCm := by
  obtain ⟨l, hl, -, -, hheight, -⟩ :=
    online_sound ⟨4300, 1000⟩ DeskSettings.default false exec_shownAtOneSecond
      ⟨rfl, fun _ _ => ⟨trivial, fun _ _ => ⟨trivial, fun _ _ => ⟨trivial, fun _ _ => trivial⟩⟩⟩⟩
      1500000 (by decide) (by decide +kernel)
  exact ⟨_, l, hl, hheight⟩

/-! ## The runner -/

/-- A line within the limits of `json.loads`. -/
def LineWithinLimits (limits : Limits) : MonitorLabel → Prop
  | .line raw _ => WithinLimits limits (.bytes raw)
  | _ => True

/-- The runner has not been ended by a line, nor will what it saves end it. -/
def Surviving (settings : DeskSettings) : RunnerAt → Prop
  | .saving observation => Measured settings observation.heightCm
  | .ended (.loadError _) => False
  | .ended .invalidMessage => False
  | _ => True

theorem surviving_created : Surviving settings ({} : HeightMonitor).runner := trivial

theorem surviving_loop (m : HeightMonitor) : Surviving settings m.loop.runner := by
  unfold loop
  cases m.running <;> trivial

/-- A height in the measurement range is a number that `HeightMessage` takes. -/
theorem surviving_publish {observation : CachedHeight}
    (h : Measured settings observation.heightCm) : Surviving settings observation.publish := by
  obtain ⟨q, hq, -⟩ := h
  rw [CachedHeight.publish, hq, Ieee.isFinite_finite]
  trivial

theorem surviving_line {m : HeightMonitor} {raw : ByteArray}
    (hload : WithinLimits limits (.bytes raw)) (now : Instant) :
    Surviving settings (m.line limits settings hasCache raw now).runner := by
  unfold HeightMonitor.line
  split
  · trivial
  · obtain ⟨height, hdecode⟩ := exists_decode_iff.mpr hload
    rw [hdecode]
    cases height with
    | none => exact surviving_loop m
    | some height =>
      have hmeasured : Measured settings height := measured_of_decode hdecode
      dsimp only
      split
      · cases hasCache with
        | true => exact hmeasured
        | false => exact surviving_publish hmeasured
      · exact surviving_loop m

theorem surviving_step {m m' : HeightMonitor} {l : MonitorLabel}
    (h : Surviving settings m.runner) (hload : LineWithinLimits limits l)
    (hstep : step limits settings hasCache m l = some m') : Surviving settings m'.runner := by
  cases l with
  | callStart =>
    cases hstep
    unfold callStart
    split <;> exact h
  | loaded cached =>
    obtain ⟨-, ⟨⟩⟩ := Option.ite_none_right_eq_some.mp hstep
    cases cached <;> exact h
  | opened accepted =>
    obtain ⟨-, ⟨⟩⟩ := Option.ite_none_right_eq_some.mp hstep
    unfold opened
    dsimp only
    split
    · trivial
    · exact h
  | startFailed isLoading =>
    cases isLoading with
    | true =>
      obtain ⟨-, ⟨⟩⟩ := Option.ite_none_right_eq_some.mp hstep
      exact h
    | false =>
      obtain ⟨-, ⟨⟩⟩ := Option.ite_none_right_eq_some.mp hstep
      exact h
  | callStop =>
    cases hstep
    exact h
  | joined =>
    obtain ⟨-, ⟨⟩⟩ := Option.ite_none_right_eq_some.mp hstep
    exact h
  | source status =>
    cases hstep
    exact h
  | line raw now =>
    obtain ⟨-, ⟨⟩⟩ := Option.ite_none_right_eq_some.mp hstep
    exact surviving_line hload now
  | yielded =>
    obtain ⟨-, ⟨⟩⟩ := Option.ite_none_right_eq_some.mp hstep
    exact surviving_loop m
  | saved =>
    simp only [step] at hstep
    split at hstep
    · next observation hsaving =>
      obtain ⟨-, ⟨⟩⟩ := Option.ite_none_right_eq_some.mp hstep
      rw [hsaving] at h
      exact surviving_publish h
    · cases hstep
  | published returned =>
    obtain ⟨-, hm'⟩ := Option.ite_none_right_eq_some.mp hstep
    cases returned with
    | true => cases hm'; exact surviving_loop m
    | false => cases hm'; trivial
  | interrupted =>
    obtain ⟨-, ⟨⟩⟩ := Option.ite_none_right_eq_some.mp hstep
    trivial

/-- **Decoding never raises and the runner is never ended by a line, unless a number is too
long or a value too deep for `json.loads`.** -/
theorem survives_lines (limits : Limits) (settings : DeskSettings) (hasCache : Bool) :
    (∀ raw, (∃ height, decode limits settings raw = .ok height ∧
        ∀ h ∈ height, Measured settings h) ↔ WithinLimits limits raw) ∧
      (∀ ls m, Transition.exec (step limits settings hasCache) {} ls = some m →
        (∀ l ∈ ls, LineWithinLimits limits l) →
          (∀ e, m.runner ≠ .ended (.loadError e)) ∧ m.runner ≠ .ended .invalidMessage) ∧
      ∀ (m : HeightMonitor) (raw : ByteArray) (now : Instant), raw.size ≠ 0 →
        ¬ WithinLimits limits (.bytes raw) →
        ∃ e, (m.line limits settings hasCache raw now).runner = .ended (.loadError e) := by
  refine ⟨decode_total_iff limits settings, ?_, ?_⟩
  · intro ls m hrun hload
    have hsurviving : Surviving settings m.runner :=
      Transition.invariant_of_meets (I := fun m => Surviving settings m.runner)
        (fun _ l _ h (hok : LineWithinLimits limits l) hstep => surviving_step h hok hstep)
        surviving_created (Transition.meets_of_labels fun l hl _ => hload l hl) hrun
    constructor
    · intro e he
      rw [he] at hsurviving
      exact hsurviving
    · intro he
      rw [he] at hsurviving
      exact hsurviving
  · intro m raw now hsize hload
    rw [← @exists_decode_iff limits settings] at hload
    cases hdecode : decode limits settings (.bytes raw) with
    | ok height => exact absurd ⟨height, hdecode⟩ hload
    | error e => exact ⟨e, by rw [line, if_neg hsize, hdecode]⟩

/-- A thousand brackets are a valid line for the serial port, and too deep. -/
theorem decode_raises :
    ¬ ∀ raw, ∃ height, decode ⟨4300, 1000⟩ DeskSettings.default raw = .ok height ∧
      ∀ h ∈ height, Measured DeskSettings.default h := by
  intro h
  have hwithin := (decode_total_iff _ _ (.bytes (List.replicate 1001 '[').utf8Encode)).mp (h _)
    (PyText.decode (List.replicate 1001 '[')) (by rw [decodeText, List.utf8Decode?_utf8Encode]; rfl)
  rw [PyText.decode, List.map_replicate] at hwithin
  exact hwithin ((loads_exceeds_iff _ _).mp ⟨_, loads_brackets ⟨4300, 1000⟩, fun h => by cases h⟩)

end HeightMonitor

end SmartDesk.Desk
