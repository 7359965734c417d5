import SmartDesk.Desk.Runs

/-!
# The state of the controller is coherent

If each `start()` begins when everything of an earlier run has ended, the fields of the
control state fit together wherever a task awaits something.

* `Sound` — the conditions on the fields; `Change.sound` — every change keeps them.
* `Coherent` — the invariant of a run: the fields are sound, and only one task
  publishes or confirms a STOP under the latch.
* `Lone` — the invariant of a run with one `start()`: nothing happens before it begins.
* `state_coherent` — **the state is coherent in every reachable state** of such a run, and
  a new intent gets a later generation.
-/

namespace SmartDesk.Desk

open Coroutine

variable {settings : DeskSettings}

/-! ## The fields -/

/-- The fields of the controller fit together. -/
structure Sound (settings : DeskSettings) (d : DeskController) : Prop where
  formed : Formed settings d.control
  shown : Shown d.control
  active : d.control.mode ≠ .none →
    d.running = true ∧ d.closing = false ∧ d.stopInProgress = false
  pending : d.startupWakePending ≠ none → d.control.mode = .none

theorem formed_still (publicState : DeskState) (detail : String) (updatedAt : Instant)
    (generation : ℕ) : Formed settings (.still publicState detail updatedAt generation) where
  target := by simp [ControlState.still]
  range := by rintro x ⟨⟩
  phase := by simp [ControlState.still]
  direction := by simp [ControlState.still]
  observed := fun h => by cases h
  waking := fun h => by cases h

theorem shown_still {publicState : DeskState} (h : publicState.resting = true) (detail : String)
    (updatedAt : Instant) (generation : ℕ) :
    Shown (.still publicState detail updatedAt generation) where
  resting := by simp [ControlState.still, h]
  waking := by cases publicState <;> simp_all [ControlState.still, DeskState.resting]
  manual := by cases publicState <;> simp_all [ControlState.still, DeskState.resting]
  moving := by cases publicState <;> simp_all [ControlState.still, DeskState.resting]

theorem Drops.formed {d d' : DeskController} (h : Drops d d') : Formed settings d'.control := by
  obtain ⟨publicState, detail, updatedAt, _, hstill⟩ := h.still
  rw [hstill]
  exact formed_still _ _ _ _

theorem Drops.shown {d d' : DeskController} (h : Drops d d') : Shown d'.control := by
  obtain ⟨publicState, detail, updatedAt, hresting, hstill⟩ := h.still
  rw [hstill]
  exact shown_still hresting _ _ _

theorem Rests.formed {c c' : ControlState} (h : Rests c c') (hc : Formed settings c) :
    Formed settings c' := by
  obtain ⟨publicState, detail, lastError, updatedAt, _, rfl⟩ := h
  exact ⟨hc.target, hc.range, hc.phase, hc.direction, hc.observed, hc.waking⟩

/-- On a desk at rest a state without a motion can be shown. -/
theorem Rests.shown {c c' : ControlState} (h : Rests c c') (hc : Shown c)
    (hmode : c.mode = .none) : Shown c' := by
  obtain ⟨publicState, detail, lastError, updatedAt, hresting, rfl⟩ := h
  have hawaiting : c.awaitingFreshHeight = false := by
    by_contra hon
    have hwaking := hc.waking.mpr (by simpa using hon)
    have hrest := hc.resting.mp hmode
    rw [hwaking] at hrest
    cases hrest
  refine ⟨by simp [hmode, hresting], ?_, ?_, ?_⟩
  · cases publicState <;> simp_all [DeskState.resting]
  · cases publicState <;> simp_all [DeskState.resting]
  · cases publicState <;> simp_all [DeskState.resting]

/-! ## The invariant -/

/-- No task publishes or confirms a STOP, and no `stop()` waits. -/
structure Settled (m : Memory) : Prop where
  confirming : ∀ t, ¬ Confirming m t
  stopping : ∀ t w, m.shape t ≠ some (.stop, .waiting w)

/-- A `start` begins when everything of an earlier run has ended. -/
def startsClean (pool : DeskPool) : DeskLabel → Prop
  | .run t _ => pool.mem.shape t = some (.start, .ready) → Settled pool.mem
  | _ => True

/-- What the tasks and the fields have in common wherever a task awaits something. -/
structure Coherent (settings : DeskSettings) (m : Memory) : Prop where
  sound : Sound settings m.vars.desk
  confirming : ∀ t, Confirming m t →
    m.vars.desk.stopInProgress = true ∨ m.vars.desk.closing = true
  alone : m.vars.desk.closing = false → ∀ t u, Confirming m t → Confirming m u → t = u
  cleared : ∀ t, Confirming m t → m.job t ≠ some .start →
    m.vars.desk.startupWakePending = none
  stopping : ∀ t w, m.shape t = some (.stop, .waiting w) → m.vars.desk.closing = true
  children : ∀ u detail errorDetail r,
    m.shape u = some (.stopAndConfirm detail errorDetail, .finished r) →
      ∀ text, r ≠ .error (.error (.rejected text))
  pausing : ∀ t job, m.shape t = some (job, .pausing) → job = .runner

/-- What holds in the middle of a segment of `task` that begins in the coherent state
`start`. -/
structure Midway (settings : DeskSettings) (start : Memory) (task : ℕ) (job : Job) (v : Vars) :
    Prop where
  before : Coherent settings start
  self : start.job task = some job
  first : start.shape task = some (.start, .ready) → Settled start
  sound : Sound settings v.desk
  opened : start.vars.desk.closing = true →
    v.desk.closing = true ∨ start.shape task = some (.start, .ready)
  others : ∀ u, u ≠ task → Confirming start u →
    v.desk.stopInProgress = true ∨ v.desk.closing = true
  cleared : ∀ u, u ≠ task → Confirming start u → start.job u ≠ some .start →
    v.desk.startupWakePending = none

/-- While a task publishes or confirms a STOP, the desk is at rest. -/
theorem Coherent.mode_of_confirming {m : Memory} (h : Coherent settings m) {t : ℕ}
    (ht : Confirming m t) : m.vars.desk.control.mode = .none := by
  by_contra hmode
  obtain ⟨_, hclosing, hlatch⟩ := h.sound.active hmode
  rcases h.confirming t ht with hset | hset
  · rw [hlatch] at hset
    cases hset
  · rw [hclosing] at hset
    cases hset

/-- A `start` that begins has not run before. -/
theorem Coherent.ready_of_starts {p : Spot} (h : Coherent settings p.start)
    (hjob : p.job = .start) (hstarts : Starts p) :
    p.start.shape p.task = some (.start, .ready) := by
  rcases hstarts with hready | hpausing
  · rw [← hjob]
    exact hready
  · have hrunner := h.pausing _ _ hpausing
    rw [hjob] at hrunner
    cases hrunner

/-- A `stop` that has waited finds the controller closed. -/
theorem Coherent.closing_of_waits {p : Spot} (h : Coherent settings p.start)
    (hjob : p.job = .stop) (hwaits : ∃ w, Waits p w) : p.start.vars.desk.closing = true := by
  obtain ⟨w, hw⟩ := hwaits
  refine h.stopping p.task w ?_
  rw [← hjob]
  exact hw

/-- Where a task shows a state without a motion, the desk is at rest. -/
theorem Coherent.mode_of_atRest {q : Spot} (h : Coherent settings q.start) (hrest : AtRest q) :
    q.mem.vars.desk.control.mode = .none := by
  rcases hrest with hmode | ⟨hwhy, hsame⟩ | ⟨text, u, detail, errorDetail, _, houtcome, hjob⟩
  · exact hmode
  · rw [hsame]
    exact hwhy.elim h.mode_of_confirming h.sound.pending
  · exact absurd rfl
      (h.children u detail errorDetail _ (Mem.shape_of_outcome houtcome hjob) text)

/-! ## What a change keeps -/

/-- The flags stay, and the motion as well or it is over. -/
theorem Sound.of_flags {d d' : DeskController} (h : Sound settings d) (hflags : SameFlags d d')
    (hformed : Formed settings d'.control) (hshown : Shown d'.control)
    (hmode : d'.control.mode = d.control.mode) (hpending : Wanes d d') : Sound settings d' where
  formed := hformed
  shown := hshown
  active := by
    intro hmoving
    rw [hmode] at hmoving
    rw [hflags.running, hflags.closing, hflags.stopInProgress]
    exact h.active hmoving
  pending := by
    intro hset
    rw [hmode]
    refine h.pending fun hnone => hset ?_
    exact hpending.elim (fun hsame => hsame.trans hnone) id

/-- A desk at rest is sound, whatever the flags are. -/
theorem Sound.of_still {d : DeskController} (hformed : Formed settings d.control)
    (hshown : Shown d.control) (hmode : d.control.mode = .none) : Sound settings d :=
  ⟨hformed, hshown, fun hmoving => absurd hmode hmoving, fun _ => hmode⟩

theorem Sound.of_rests {d d' : DeskController} (h : Sound settings d)
    (hrests : Rests d.control d'.control) (hmode : d.control.mode = .none) : Sound settings d' :=
  .of_still (hrests.formed h.formed) (hrests.shown h.shown hmode)
    (hrests.refines.mode.trans hmode)

theorem Sound.of_drops {d d' : DeskController} (h : Drops d d') : Sound settings d' :=
  .of_still h.formed h.shown h.mode

/-- **Every change keeps the fields sound.** -/
theorem Change.sound {q : Spot} {v : Vars} (h : Change settings q v)
    (hbefore : Coherent settings q.start) (hself : q.start.job q.task = some q.job)
    (hs : Sound settings q.mem.vars.desk) : Sound settings v.desk := by
  cases h with
  | refine flags control keeps pending trace =>
    exact hs.of_flags flags (keeps.formed hs.formed) (keeps.shown hs.formed hs.shown)
      control.mode pending
  | activate _ _ flags control keeps _ _ pending _ =>
    exact hs.of_flags flags (keeps.formed hs.formed) (keeps.shown hs.formed hs.shown)
      control.mode pending
  | command flags control _ pending _ =>
    refine hs.of_flags flags ?_ ?_ (by rw [control]) (.inr pending)
    · rw [control]
      exact hs.formed
    · rw [control]
      exact hs.shown
  | runner running closing latch control entry pending trace =>
    refine ⟨by rw [control]; exact hs.formed, by rw [control]; exact hs.shown, ?_, ?_⟩
    · rw [control, running, closing, latch]
      exact hs.active
    · rw [control]
      intro hset
      refine hs.pending fun hnone => hset ?_
      exact pending.elim (fun hsame => hsame.trans hnone) id
  | settle flags _ mode _ _ _ keeps pending _ =>
    exact hs.of_flags flags (keeps.formed hs.formed) (keeps.shown hs.formed hs.shown) mode pending
  | drop flags _ control pending trace => exact .of_drops control
  | idle flags rests still _ pending trace =>
    exact hs.of_rests rests (hbefore.mode_of_atRest still)
  | register _ rests still _ _ _ _ _ _ _ =>
    exact hs.of_rests rests (hbefore.mode_of_atRest still)
  | install found lock running closing stopInProgress flags generation mode formed shown cleared
      pending handsOver startup trace =>
    refine ⟨formed, shown, fun _ => ?_, fun hset => absurd ?_ hset⟩
    · rw [flags.running, flags.closing, flags.stopInProgress]
      exact ⟨running, closing, stopInProgress⟩
    · rw [pending]
      rcases cleared with hnone | ⟨hconfirming, hstart, hsame⟩
      · exact hnone
      · rw [hsame]
        refine hbefore.cleared _ hconfirming ?_
        rw [hself]
        simpa using hstart
  | beginExchange _ _ _ _ _ _ control _ _ _ _ => exact .of_drops control
  | confirm _ _ desk _ _ _ _ _ =>
    rw [desk]
    exact hs
  | unlatch confirmed running closing latch rests pending trace =>
    refine hs.of_rests rests ?_
    rw [confirmed.2]
    exact hbefore.mode_of_confirming confirmed.1
  | startBegin _ _ _ _ _ _ control _ _ => exact .of_drops control
  | startFail _ _ running closing latch control still pending trace =>
    refine .of_still ?_ ?_ ?_
    · rw [control]
      exact hs.formed
    · rw [control]
      exact hs.shown
    · rw [control]
      exact still
  | stopBegin _ _ _ _ _ control _ _ => exact .of_drops control
  | stopEnd job before shut running closing latch rests pending trace =>
    refine hs.of_rests rests ?_
    by_contra hmoving
    obtain ⟨_, hopen, _⟩ := hs.active hmoving
    rw [shut, hbefore.closing_of_waits job before] at hopen
    cases hopen
  | pulse _ _ _ desk _ _ =>
    rw [desk]
    exact hs
  | wake _ _ _ desk _ _ _ =>
    rw [desk]
    exact hs
  | sendStop desk _ =>
    rw [desk]
    exact hs

section Changes

variable {q : Spot} {v : Vars} (h : Change settings q v) (hbefore : Coherent settings q.start)
  (hfirst : q.start.shape q.task = some (.start, .ready) → Settled q.start)
include h hbefore

/-- Only a `start` opens a closed controller. -/
theorem Change.opened
    (hopened : q.start.vars.desk.closing = true →
      q.mem.vars.desk.closing = true ∨ q.start.shape q.task = some (.start, .ready))
    (hclosed : q.start.vars.desk.closing = true) :
    v.desk.closing = true ∨ q.start.shape q.task = some (.start, .ready) := by
  refine (hopened hclosed).elim (fun hset => ?_) .inr
  cases h with
  | refine flags _ _ _ _ => exact .inl (flags.closing.trans hset)
  | activate _ _ flags _ _ _ _ _ _ => exact .inl (flags.closing.trans hset)
  | command flags _ _ _ _ => exact .inl (flags.closing.trans hset)
  | runner _ closing _ _ _ _ _ => exact .inl (closing.trans hset)
  | settle flags _ _ _ _ _ _ _ _ => exact .inl (flags.closing.trans hset)
  | drop flags _ _ _ _ => exact .inl (flags.closing.trans hset)
  | idle flags _ _ _ _ _ => exact .inl (flags.closing.trans hset)
  | register flags _ _ _ _ _ _ _ _ _ => exact .inl (flags.closing.trans hset)
  | install _ _ _ _ _ flags _ _ _ _ _ _ _ _ _ => exact .inl (flags.closing.trans hset)
  | beginExchange _ _ _ _ closing _ _ _ _ _ _ => exact .inl (closing.trans hset)
  | confirm _ _ desk _ _ _ _ _ => exact .inl (by rw [desk]; exact hset)
  | unlatch _ _ closing _ _ _ _ => exact .inl (closing.trans hset)
  | startBegin job first _ _ _ _ _ _ _ => exact .inr (hbefore.ready_of_starts job first)
  | startFail _ _ _ closing _ _ _ _ _ => exact .inl (closing.trans hset)
  | stopBegin _ closing _ _ _ _ _ _ => exact .inl closing
  | stopEnd _ _ _ _ closing _ _ _ _ => exact .inl (closing.trans hset)
  | pulse _ _ _ desk _ _ => exact .inl (by rw [desk]; exact hset)
  | wake _ _ _ desk _ _ _ => exact .inl (by rw [desk]; exact hset)
  | sendStop desk _ => exact .inl (by rw [desk]; exact hset)

include hfirst in
/-- No task clears the latch of another one. -/
theorem Change.others {u : ℕ} (hu : u ≠ q.task) (hconfirming : Confirming q.start u)
    (hopened : q.start.vars.desk.closing = true →
      q.mem.vars.desk.closing = true ∨ q.start.shape q.task = some (.start, .ready))
    (hset : q.mem.vars.desk.stopInProgress = true ∨ q.mem.vars.desk.closing = true) :
    v.desk.stopInProgress = true ∨ v.desk.closing = true := by
  have hflags : v.desk.stopInProgress = q.mem.vars.desk.stopInProgress →
      v.desk.closing = q.mem.vars.desk.closing →
      v.desk.stopInProgress = true ∨ v.desk.closing = true := by
    intro hlatch hclosing
    rw [hlatch, hclosing]
    exact hset
  cases h with
  | refine flags _ _ _ _ => exact hflags flags.stopInProgress flags.closing
  | activate _ _ flags _ _ _ _ _ _ => exact hflags flags.stopInProgress flags.closing
  | command flags _ _ _ _ => exact hflags flags.stopInProgress flags.closing
  | runner _ closing latch _ _ _ _ => exact hflags latch closing
  | settle flags _ _ _ _ _ _ _ _ => exact hflags flags.stopInProgress flags.closing
  | drop flags _ _ _ _ => exact hflags flags.stopInProgress flags.closing
  | idle flags _ _ _ _ _ => exact hflags flags.stopInProgress flags.closing
  | register flags _ _ _ _ _ _ _ _ _ => exact hflags flags.stopInProgress flags.closing
  | install _ _ _ _ _ flags _ _ _ _ _ _ _ _ _ => exact hflags flags.stopInProgress flags.closing
  | beginExchange _ _ _ _ _ latch _ _ _ _ _ => exact .inl latch
  | confirm _ _ desk _ _ _ _ _ => exact hflags (by rw [desk]) (by rw [desk])
  | unlatch confirmed _ closing _ _ _ _ =>
    -- Two tasks can only be in an exchange when the controller is closed.
    refine .inr (closing.trans ?_)
    by_contra hopen
    refine hu (hbefore.alone ?_ u q.task hconfirming confirmed.1)
    rw [Bool.eq_false_iff]
    intro hclosed
    rcases hopened hclosed with hstill | hready
    · exact hopen hstill
    · exact (hfirst hready).confirming u hconfirming
  | startBegin _ _ _ _ _ latch _ _ _ => exact .inl latch
  | startFail job first _ _ _ _ _ _ _ =>
    exact absurd hconfirming ((hfirst (hbefore.ready_of_starts job first)).confirming u)
  | stopBegin _ closing _ _ _ _ _ _ => exact .inr closing
  | stopEnd job before shut _ closing _ _ _ _ =>
    exact .inr (closing.trans (shut.trans (hbefore.closing_of_waits job before)))
  | pulse _ _ _ desk _ _ => exact hflags (by rw [desk]) (by rw [desk])
  | wake _ _ _ desk _ _ _ => exact hflags (by rw [desk]) (by rw [desk])
  | sendStop desk _ => exact hflags (by rw [desk]) (by rw [desk])

/-- No task leaves a startup WAKE pending while another one is in an exchange. -/
theorem Change.cleared {u : ℕ} (hu : u ≠ q.task) (hconfirming : Confirming q.start u)
    (hnone : q.mem.vars.desk.startupWakePending = none) : v.desk.startupWakePending = none := by
  have hwanes : Wanes q.mem.vars.desk v.desk → v.desk.startupWakePending = none :=
    fun hpending => hpending.elim (fun hsame => hsame.trans hnone) id
  cases h with
  | refine _ _ _ pending _ => exact hwanes pending
  | activate _ _ _ _ _ _ _ pending _ => exact hwanes pending
  | command _ _ _ pending _ => exact pending
  | runner _ _ _ _ _ pending _ => exact hwanes pending
  | settle _ _ _ _ _ _ _ pending _ => exact hwanes pending
  | drop _ _ _ pending _ => exact hwanes pending
  | idle _ _ _ _ pending _ => exact hwanes pending
  | register _ _ _ _ hself' _ _ _ hopen _ =>
    exact absurd (hbefore.alone hopen u q.task hconfirming hself') hu
  | install _ _ _ _ _ _ _ _ _ _ _ pending _ _ _ => exact pending.trans hnone
  | beginExchange _ _ _ _ _ _ _ _ pending _ _ => exact pending
  | confirm _ _ desk _ _ _ _ _ => rw [desk]; exact hnone
  | unlatch _ _ _ _ _ pending _ => exact hwanes pending
  | startBegin _ _ _ _ _ _ _ pending _ => exact hwanes pending
  | startFail _ _ _ _ _ _ _ pending _ => exact hwanes pending
  | stopBegin _ _ _ _ _ _ pending _ => exact pending
  | stopEnd _ _ _ _ _ _ _ pending _ => exact hwanes pending
  | pulse _ _ _ desk _ _ => rw [desk]; exact hnone
  | wake _ _ _ desk _ _ _ => rw [desk]; exact hnone
  | sendStop desk _ => rw [desk]; exact hnone

end Changes

/-- **A change keeps what holds in the middle of a segment.** -/
theorem Midway.change {q : Spot} {v : Vars}
    (h : Midway settings q.start q.task q.job q.mem.vars) (hchange : Change settings q v) :
    Midway settings q.start q.task q.job v where
  before := h.before
  self := h.self
  first := h.first
  sound := hchange.sound h.before h.self h.sound
  opened := hchange.opened h.before h.opened
  others := fun u hu hconfirming =>
    hchange.others h.before h.first hu hconfirming h.opened (h.others u hu hconfirming)
  cleared := fun u hu hconfirming hstart =>
    hchange.cleared h.before hu hconfirming (h.cleared u hu hconfirming hstart)

/-- Where a segment begins. -/
theorem Coherent.midway {p : Spot} (h : Coherent settings p.start) (hwakes : Wakes p)
    (hfirst : p.start.shape p.task = some (.start, .ready) → Settled p.start) :
    Midway settings p.start p.task p.job p.start.vars where
  before := h
  self := hwakes.job
  first := hfirst
  sound := h.sound
  opened := .inl
  others := fun u _ hconfirming => h.confirming u hconfirming
  cleared := fun u _ hconfirming hstart => h.cleared u hconfirming hstart

/-! ## Runs -/

/-- What a STOP exchange that its own task has not ended leaves true. -/
theorem Midway.latched {q : Spot} (h : Midway settings q.start q.task q.job q.mem.vars)
    (hlatched : Latched q) :
    q.mem.vars.desk.stopInProgress = true ∨ q.mem.vars.desk.closing = true := by
  rcases hlatched with hconfirmed | ⟨hlatch, _⟩
  · rw [hconfirmed.2]
    exact h.before.confirming q.task hconfirmed.1
  · exact .inl hlatch

/-- An open controller was open when the segment began, unless it is a `start`. -/
theorem Midway.open_of_open {q : Spot} (h : Midway settings q.start q.task q.job q.mem.vars)
    (hopen : q.mem.vars.desk.closing = false) {u : ℕ} (hconfirming : Confirming q.start u) :
    q.start.vars.desk.closing = false := by
  rw [Bool.eq_false_iff]
  intro hclosed
  rcases h.opened hclosed with hstill | hready
  · rw [hstill] at hopen
    cases hopen
  · exact (h.first hready).confirming u hconfirming

/-- A task that suspends in its exchange of an open controller is the only one. -/
theorem Midway.alone {q : Spot} (h : Midway settings q.start q.task q.job q.mem.vars)
    (hlatched : Latched q) (hshut : Shut q) (hopen : q.mem.vars.desk.closing = false) {u : ℕ}
    (hu : u ≠ q.task) : ¬ Confirming q.start u := by
  intro hconfirming
  have hopen' := h.open_of_open hopen hconfirming
  have hown : Owns q := by
    rcases hlatched with hconfirmed | ⟨_, howns⟩
    · exact .inl hconfirmed.1
    · refine howns ?_
      rcases h.before.confirming u hconfirming with hlatch | hclosed
      · exact hlatch
      · rw [hclosed] at hopen'
        cases hopen'
  rcases hown with hself | ⟨hjob, hstarts⟩ | hstop
  · exact hu (h.before.alone hopen' u q.task hconfirming hself)
  · exact (h.first (h.before.ready_of_starts hjob hstarts)).confirming u hconfirming
  · rcases hshut hstop with hclosed | ⟨hwaits, _⟩
    · rw [hclosed] at hopen
      cases hopen
    · rw [h.before.closing_of_waits hstop hwaits] at hopen'
      cases hopen'

section Segment

variable {m m' : Memory} {p q : Spot} (hsegment : DeskSegment settings m m' p q)
  (habsent : ∀ u, m.count ≤ u → m.task u = none)
include hsegment habsent

/-- A task that is in its exchange after a segment has suspended in it, or was in it
before. -/
theorem confirming_cases {t : ℕ} (ht : Confirming m' t) :
    (t = p.task ∧ ∃ w, Suspends settings q w ∧ isConfirming w = true) ∨
      (t ≠ p.task ∧ Confirming m t) := by
  obtain ⟨job, w, hshape, hw⟩ := ht
  rcases hsegment.shape_cases habsent hshape with ⟨rfl, _, hstopped⟩ | ⟨hne, hold | ⟨_, hready⟩⟩
  · cases hstopped with
    | waiting w hsuspends => exact .inl ⟨rfl, w, hsuspends, hw⟩
  · exact .inr ⟨hne, job, w, hold, hw⟩
  · cases hready

theorem Coherent.of_segment (h : Midway settings p.start p.task p.job q.mem.vars)
    (hvars : m'.vars = q.mem.vars) : Coherent settings m' := by
  have hsame := hsegment.reach.sameSegment
  have hq : Midway settings q.start q.task q.job q.mem.vars := by
    rw [hsame.start, hsame.task, hsame.job]
    exact h
  have hstart : q.start = m := hsame.start.trans hsegment.start
  have htask : q.task = p.task := hsame.task
  have hjob : q.job = p.job := hsame.job
  refine ⟨?_, ?_, ?_, ?_, ?_, ?_, pausing_of_segment hsegment habsent fun t job hold => ?_⟩
  · rw [hvars]
    exact h.sound
  · intro t ht
    rw [hvars]
    rcases confirming_cases hsegment habsent ht with ⟨_, w, hsuspends, hw⟩ | ⟨hne, hold⟩
    · exact hq.latched (hsuspends.latched hw).1
    · refine hq.others t ?_ (hstart ▸ hold)
      rw [htask]
      exact hne
  · intro hopen t u ht hu
    rw [hvars] at hopen
    have halone : ∀ {t u w}, t = p.task → Suspends settings q w → isConfirming w = true →
        u ≠ p.task → Confirming m u → t = u := by
      intro t u w _ hsuspends hw hne hold
      refine absurd (hstart ▸ hold) (hq.alone (hsuspends.latched hw).1 hsuspends.shut hopen ?_)
      rw [htask]
      exact hne
    rcases confirming_cases hsegment habsent ht with ⟨rfl, w, hsuspends, hw⟩ | ⟨hne, hold⟩
    · rcases confirming_cases hsegment habsent hu with ⟨rfl, _⟩ | ⟨hne', hold'⟩
      · rfl
      · exact halone rfl hsuspends hw hne' hold'
    · rcases confirming_cases hsegment habsent hu with ⟨rfl, w, hsuspends, hw⟩ | ⟨hne', hold'⟩
      · exact (halone rfl hsuspends hw hne hold).symm
      · exact hq.before.alone (hq.open_of_open hopen (hstart ▸ hold)) t u (hstart ▸ hold)
          (hstart ▸ hold')
  · intro t ht hnotStart
    rw [hvars]
    rcases confirming_cases hsegment habsent ht with ⟨rfl, w, hsuspends, hw⟩ | ⟨hne, hold⟩
    · obtain ⟨status, hshape, _⟩ := hsegment.shape_self habsent
      have hnotStart' : q.job ≠ .start := by
        rw [Mem.job_of_shape hshape, ← hjob] at hnotStart
        simpa using hnotStart
      rcases (hsuspends.latched hw).2 hnotStart' with hnone | ⟨hself, _, hpending⟩
      · exact hnone
      · rw [hpending]
        refine hq.before.cleared q.task hself ?_
        rw [hq.self]
        simpa using hnotStart'
    · refine hq.cleared t (by rw [htask]; exact hne) (hstart ▸ hold) ?_
      obtain ⟨job, w, hshape, _⟩ := hold
      rw [hstart, ← hsegment.elsewhere.job t (lt_count_of_shape habsent hshape)]
      exact hnotStart
  · refine stopping_of_segment hsegment habsent hvars (fun t w hold => ?_) fun t w hold => ?_
    · rw [← hstart] at hold ⊢
      exact hq.before.stopping t w hold
    · rw [← hstart] at hold
      rcases hq.opened (hq.before.stopping t w hold) with hclosed | hready
      · exact hclosed
      · exact absurd hold ((hq.first hready).stopping t w)
  · intro u detail errorDetail r hshape text
    rcases hsegment.shape_cases habsent hshape with ⟨_, hchild, hstopped⟩ | ⟨_, hold | ⟨_, hready⟩⟩
    · cases hstopped with
      | finished r hfinishes =>
        intro hr
        have hconcluded := hfinishes.child detail errorDetail (hjob.trans hchild.symm)
        rw [hr] at hconcluded
        cases hconcluded
    · refine hq.before.children u detail errorDetail r ?_ text
      rw [hstart]
      exact hold
    · cases hready
  · refine hq.before.pausing t job ?_
    rw [hstart]
    exact hold

end Segment

/-! ## Runs -/

theorem Coherent.quiet {m m' : Memory} (h : Coherent settings m) (hquiet : Quiet m m') :
    Coherent settings m' := by
  have hvars := hquiet.vars
  have hconfirming : ∀ t, Confirming m' t → Confirming m t := by
    rintro t ⟨job, w, ht, hw⟩
    exact ⟨job, w, hquiet.waits ht, hw⟩
  refine ⟨hvars ▸ h.sound, ?_, ?_, ?_, ?_, ?_, ?_⟩
  · intro t ht
    rw [hvars]
    exact h.confirming t (hconfirming t ht)
  · intro hopen t u ht hu
    rw [hvars] at hopen
    exact h.alone hopen t u (hconfirming t ht) (hconfirming u hu)
  · rintro t ⟨job, w, ht, hw⟩ hstart
    have hold := hquiet.waits ht
    rw [hvars]
    refine h.cleared t ⟨job, w, hold, hw⟩ ?_
    rw [Mem.job_of_shape hold, ← Mem.job_of_shape ht]
    exact hstart
  · intro t w ht
    rw [hvars]
    exact h.stopping t w (hquiet.waits ht)
  · intro u detail errorDetail r hu text
    rcases hquiet.shape u _ _ hu with hold | hready | hfinished
    · exact h.children u detail errorDetail r hold text
    · cases hready
    · cases hfinished
      simp
  · intro t job ht
    exact h.pausing t job (hquiet.pauses ht)

theorem coherent_start (settings : DeskSettings) (started : Instant) :
    Coherent settings (deskStart settings started).mem := by
  have hshape : ∀ t, (deskStart settings started).mem.shape t = none := fun _ => rfl
  have hquiet : ∀ t, ¬ Confirming (deskStart settings started).mem t := by
    rintro t ⟨_, _, ht, _⟩
    rw [hshape] at ht
    cases ht
  refine ⟨.of_still (formed_still _ _ _ _) (shown_still rfl _ _ _) rfl,
    fun t ht => absurd ht (hquiet t), fun _ t _ ht => absurd ht (hquiet t),
    fun t ht => absurd ht (hquiet t), ?_, ?_, ?_⟩
  · intro t w ht
    rw [hshape] at ht
    cases ht
  · intro u _ _ _ hu
    rw [hshape] at hu
    cases hu
  · intro t _ ht
    rw [hshape] at ht
    cases ht

theorem DeskRun.coherent {started : Instant} {ls : List DeskLabel} {pool : DeskPool}
    (h : DeskRun settings startsClean started ls pool) : Coherent settings pool.mem := by
  refine h.keeps_quiet (V := fun p v => Midway settings p.start p.task p.job v)
    (coherent_start settings started) (fun m m' hquiet hc => hc.quiet hquiet) ?_ ?_ ?_
  · intro pool pool' p hok hc hstart _ hwakes
    refine Coherent.midway (hstart ▸ hc) hwakes ?_
    rw [hstart]
    exact hok
  · intro p q v hsame hmid hchange
    rw [← hsame.start, ← hsame.task, ← hsame.job] at hmid ⊢
    exact hmid.change hchange
  · intro pool pool' p q hk _ _ _ _ hmid hvars hsegment
    exact Coherent.of_segment hsegment hk.absent hmid hvars

/-! ## One `start()` -/

/-- Only one `start()` is called. -/
def startsOnce (pool : DeskPool) : DeskLabel → Prop
  | .call .start => ∀ t, pool.mem.job t ≠ some .start
  | _ => True

/-- A `start` has begun. -/
def Begun (m : Memory) : Prop :=
  ∃ t status, m.shape t = some (.start, status) ∧ status ≠ .ready

/-- The controller as it is before its `start`. -/
structure Asleep (d : DeskController) : Prop where
  running : d.running = false
  closing : d.closing = false
  stopInProgress : d.stopInProgress = false
  runnerTask : d.runnerTask = none

/-- There is one `start`, and nothing happens before it begins. -/
structure Lone (m : Memory) : Prop where
  once : ∀ t u, m.job t = some .start → m.job u = some .start → t = u
  settled : ¬ Begun m → Settled m
  asleep : ¬ Begun m → Asleep m.vars.desk

/-- Before its `start` the controller stays as it is. -/
theorem Change.asleep {q : Spot} {v : Vars} (h : Change settings q v) (hsettled : Settled q.start)
    (hjob : q.job ≠ .start) (hd : Asleep q.mem.vars.desk) : Asleep v.desk := by
  have hflags : SameFlags q.mem.vars.desk v.desk → Asleep v.desk := by
    intro hf
    exact ⟨hf.running.trans hd.running, hf.closing.trans hd.closing,
      hf.stopInProgress.trans hd.stopInProgress, hf.runnerTask.trans hd.runnerTask⟩
  have hnotRunning := hd.running
  cases h with
  | refine flags _ _ _ _ => exact hflags flags
  | activate _ _ flags _ _ _ _ _ _ => exact hflags flags
  | command flags _ _ _ _ => exact hflags flags
  | runner running closing latch _ entry _ _ =>
    exact ⟨running.trans hd.running, closing.trans hd.closing, latch.trans hd.stopInProgress,
      entry.resolve_right hjob⟩
  | settle flags _ _ _ _ _ _ _ _ => exact hflags flags
  | drop flags _ _ _ _ => exact hflags flags
  | idle flags _ _ _ _ _ => exact hflags flags
  | register flags _ _ _ _ _ _ _ _ _ => exact hflags flags
  | install _ _ running _ _ _ _ _ _ _ _ _ _ _ _ =>
    rw [hnotRunning] at running
    cases running
  | beginExchange _ _ active _ _ _ _ _ _ _ _ =>
    rw [hnotRunning, hd.closing] at active
    rcases active with h | h <;> cases h
  | confirm _ _ desk _ _ _ _ _ =>
    rw [desk]
    exact hd
  | unlatch confirmed _ _ _ _ _ _ => exact absurd confirmed.1 (hsettled.confirming q.task)
  | startBegin job _ _ _ _ _ _ _ _ => exact absurd job hjob
  | startFail job _ _ _ _ _ _ _ _ => exact absurd job hjob
  | stopBegin _ _ _ active _ _ _ _ =>
    rw [hnotRunning, hd.runnerTask] at active
    rcases active with h | ⟨t, h⟩ <;> cases h
  | stopEnd job before _ _ _ _ _ _ _ =>
    obtain ⟨w, hw⟩ := before
    rw [Waits, job] at hw
    exact absurd hw (hsettled.stopping q.task w)
  | pulse _ _ _ desk _ _ =>
    rw [desk]
    exact hd
  | wake _ _ _ desk _ _ _ =>
    rw [desk]
    exact hd
  | sendStop desk _ =>
    rw [desk]
    exact hd

section Lone

variable {m m' : Memory} {p q : Spot} (hsegment : DeskSegment settings m m' p q)
  (habsent : ∀ u, m.count ≤ u → m.task u = none)
include hsegment habsent

/-- A `start` that has begun stays so. -/
theorem begun_of_segment (h : Begun m ∨ p.job = .start) : Begun m' := by
  obtain ⟨status, hshape, hstopped⟩ := hsegment.shape_self habsent
  have hnotReady : status ≠ .ready := by
    rintro rfl
    cases hstopped
  by_cases hjob : p.job = .start
  · rw [hjob] at hshape
    exact ⟨p.task, status, hshape, hnotReady⟩
  · obtain ⟨t, status', hold, hstatus'⟩ := h.resolve_right hjob
    by_cases ht : t = p.task
    · rw [ht] at hold
      exact absurd (hsegment.job_self (Mem.job_of_shape hold)) hjob
    · have hlt := lt_count_of_shape habsent hold
      exact ⟨t, status', (hsegment.elsewhere.shape t ht hlt).trans hold, hstatus'⟩

/-- After a segment in which nothing begins everything is settled. -/
theorem settled_of_segment (hsettled : Settled m) (hasleep : Asleep q.mem.vars.desk) :
    Settled m' := by
  have hsame := hsegment.reach.sameSegment
  have hstart : q.start = m := hsame.start.trans hsegment.start
  constructor
  · intro t ht
    rcases confirming_cases hsegment habsent ht with ⟨_, w, hsuspends, hw⟩ | ⟨_, hold⟩
    · rcases (hsuspends.latched hw).1 with hconfirmed | ⟨hlatch, _⟩
      · exact hsettled.confirming q.task (hstart ▸ hconfirmed.1)
      · rw [hasleep.stopInProgress] at hlatch
        cases hlatch
    · exact hsettled.confirming t hold
  · intro t w ht
    rcases hsegment.shape_cases habsent ht with ⟨_, hstop, hstopped⟩ | ⟨_, hold | ⟨_, hready⟩⟩
    · cases hstopped with
      | waiting w hsuspends =>
        rcases hsuspends.shut (hsame.job.trans hstop.symm) with hclosed | ⟨⟨w', hwaits⟩, _⟩
        · rw [hasleep.closing] at hclosed
          cases hclosed
        · rw [Waits, hstart, hsame.job, ← hstop] at hwaits
          exact hsettled.stopping q.task w' hwaits
    · exact hsettled.stopping t w hold
    · cases hready

end Lone

theorem Lone.quiet {m m' : Memory} (h : Lone m) (hquiet : Quiet m m')
    (hbegun : Begun m → Begun m')
    (honce : ∀ t u, m'.job t = some .start → m'.job u = some .start → t = u) : Lone m' := by
  refine ⟨honce, fun hnot => ⟨?_, ?_⟩, fun hnot => ?_⟩
  · rintro t ⟨job, w, ht, hw⟩
    exact (h.settled fun hm => hnot (hbegun hm)).confirming t ⟨job, w, hquiet.waits ht, hw⟩
  · intro t w ht
    exact (h.settled fun hm => hnot (hbegun hm)).stopping t w (hquiet.waits ht)
  · rw [hquiet.vars]
    exact h.asleep fun hm => hnot (hbegun hm)

theorem lone_start (settings : DeskSettings) (started : Instant) :
    Lone (deskStart settings started).mem where
  once := fun t u ht => by cases ht
  settled := fun _ => ⟨fun t ⟨_, _, ht, _⟩ => (by cases ht), fun t w ht => by cases ht⟩
  asleep := fun _ => ⟨rfl, rfl, rfl, rfl⟩

theorem DeskRun.lone {started : Instant} {ls : List DeskLabel} {pool : DeskPool}
    (h : DeskRun settings startsOnce started ls pool) : Lone pool.mem := by
  refine h.keeps (V := fun p v => Lone p.start ∧
      (¬ Begun p.start → p.job = .start ∨ Asleep v.desk))
    (lone_start settings started) ?_ ?_ ?_ ?_ ?_ ?_
  · intro pool job hk hok _ hc
    have hnew : pool.mem.shape pool.mem.count = none := by
      rw [Mem.shape, hk.absent _ le_rfl]
      rfl
    have hold : ∀ t, (pool.mem.spawn job).job t = some .start →
        t = pool.mem.count ∨ pool.mem.job t = some .start := by
      intro t ht
      rw [Mem.job_eq_fst_shape, Mem.shape_spawn] at ht
      split_ifs at ht with heq
      · exact .inl heq
      · rw [← Mem.job_eq_fst_shape] at ht
        exact .inr ht
    refine hc.quiet (quiet_spawn (hk.absent _ le_rfl) job) ?_ ?_
    · rintro ⟨t, status, ht, hstatus⟩
      refine ⟨t, status, ?_, hstatus⟩
      rw [Mem.shape_spawn, if_neg ?_]
      · exact ht
      · rintro rfl
        rw [hnew] at ht
        cases ht
    · intro t u ht hu
      by_cases hjob : job = .start
      · subst hjob
        rcases hold t ht with rfl | ht'
        · rcases hold u hu with rfl | hu'
          · rfl
          · exact absurd hu' (hok u)
        · exact absurd ht' (hok t)
      · have hother : ∀ t, (pool.mem.spawn job).job t = some .start →
            pool.mem.job t = some .start := by
          intro t ht
          refine (hold t ht).resolve_left ?_
          rintro rfl
          rw [Mem.job_eq_fst_shape, Mem.shape_spawn, if_pos rfl] at ht
          exact hjob (Option.some.inj ht)
        exact hc.once t u (hother t ht) (hother u hu)
  · intro m m' hsame hc
    refine hc.quiet (quiet_of_sameButCancelled hsame) ?_ ?_
    · rintro ⟨t, status, ht, hstatus⟩
      exact ⟨t, status, (hsame.shape t).trans ht, hstatus⟩
    · intro t u ht hu
      rw [Mem.job_eq_fst_shape, hsame.shape, ← Mem.job_eq_fst_shape] at ht hu
      exact hc.once t u ht hu
  · intro pool t env job _ htask hc
    have hready : pool.mem.shape t = some (job, .ready) := Mem.shape_eq_some.mpr ⟨_, htask⟩
    have hfinish := Mem.shape_finish hready (.error .cancelled)
    refine hc.quiet (quiet_drop htask) ?_ ?_
    · rintro ⟨u, status, hu, hstatus⟩
      refine ⟨u, status, ?_, hstatus⟩
      rw [hfinish, if_neg ?_]
      · exact hu
      · rintro rfl
        rw [hready] at hu
        cases hu
        exact hstatus rfl
    · have hjobs : ∀ u, (pool.mem.finish t (.error .cancelled)).job u = pool.mem.job u := fun u =>
        Elsewhere.job_alter pool.mem t (f := fun k => { k with status := .finished _ })
          (fun _ => rfl) u
      intro u v hu hv
      rw [hjobs] at hu hv
      exact hc.once u v hu hv
  · intro pool pool' p _ hc hstart _ _
    rw [← hstart] at hc
    exact ⟨hc, fun hbegun => .inr (hc.asleep hbegun)⟩
  · rintro p q v hsame ⟨hlone, hasleep⟩ hchange
    refine ⟨hlone, fun hbegun => ?_⟩
    by_cases hjob : p.job = .start
    · exact .inl hjob
    · refine .inr (hchange.asleep ?_ ?_ ((hasleep hbegun).resolve_left hjob))
      · rw [hsame.start]
        exact hlone.settled hbegun
      · rw [hsame.job]
        exact hjob
  · rintro pool pool' p q hk _ _ hstart _ ⟨hlone, hasleep⟩ hvars hsegment
    have hnot : ¬ Begun pool'.mem → ¬ Begun pool.mem ∧ p.job ≠ .start := fun hbegun =>
      not_or.mp fun h => hbegun (begun_of_segment hsegment hk.absent h)
    have hstill : ¬ Begun pool'.mem → Asleep q.mem.vars.desk := by
      intro hbegun
      obtain ⟨hbefore, hjob⟩ := hnot hbegun
      exact (hasleep (hstart ▸ hbefore)).resolve_left hjob
    refine ⟨?_, fun hbegun => ?_, fun hbegun => ?_⟩
    · have hold : ∀ t, pool'.mem.job t = some .start → p.start.job t = some .start := by
        intro t ht
        rcases hsegment.job_cases ht with hold | ⟨_, hspawn⟩
        · rw [hstart]
          exact hold
        · cases hspawn
      intro t u ht hu
      exact hlone.once t u (hold t ht) (hold u hu)
    · refine settled_of_segment hsegment hk.absent ?_ (hstill hbegun)
      rw [← hstart]
      exact hlone.settled (hstart ▸ (hnot hbegun).1)
    · rw [hvars]
      exact hstill hbegun

/-- The only `start()` of a run begins when nothing else has. -/
theorem DeskRun.clean {started : Instant} {ls : List DeskLabel} {pool : DeskPool}
    (h : DeskRun settings startsOnce started ls pool) :
    DeskRun settings startsClean started ls pool where
  meets := by
    refine h.meets.of_prefixes fun ms m l hms hm _ => ?_
    have hlone := (show DeskRun settings startsOnce started ms m from ⟨hms, hm⟩).lone
    cases l with
    | call _ => trivial
    | cancel _ => trivial
    | run t env =>
      intro hready
      refine hlone.settled ?_
      rintro ⟨u, status, hu, hstatus⟩
      obtain rfl := hlone.once u t (Mem.job_of_shape hu) (Mem.job_of_shape hready)
      rw [hready] at hu
      cases hu
      exact hstatus rfl
  exec := h.exec

/-- **The state of the controller is coherent** wherever a task awaits something, and an
intent that takes the place of another one has a later generation. -/
theorem state_coherent {started : Instant} {ls : List DeskLabel} {pool : DeskPool}
    (h : DeskRun settings startsOnce started ls pool) :
    Formed settings pool.mem.vars.desk.control ∧ Shown pool.mem.vars.desk.control ∧
      (pool.mem.vars.desk.stopInProgress = true → pool.mem.vars.desk.control.mode = .none) ∧
      (pool.mem.vars.desk.startupWakePending ≠ none →
        pool.mem.vars.desk.control.mode = .none) ∧
      ∀ l pool', step (deskSystem settings) pool l = some pool' →
        pool.mem.vars.desk.control.generation ≤ pool'.mem.vars.desk.control.generation ∧
          (¬ SameIntent pool.mem.vars.desk.control pool'.mem.vars.desk.control →
            pool.mem.vars.desk.control.generation < pool'.mem.vars.desk.control.generation) := by
  have hsound := h.clean.coherent.sound
  refine ⟨hsound.formed, hsound.shown, fun hlatch => ?_, hsound.pending, fun l pool' hstep => ?_⟩
  · by_contra hmoving
    obtain ⟨_, _, hfree⟩ := hsound.active hmoving
    rw [hlatch] at hfree
    cases hfree
  · rcases later_of_step h.kept hstep with hlater | hrefines
    · exact ⟨hlater.le, fun _ => hlater⟩
    · refine ⟨hrefines.generation.ge, fun hother => absurd ?_ hother⟩
      exact ⟨hrefines.mode.symm, fun _ => hrefines.target.symm,
        fun hmanual => (hrefines.manual hmanual).symm⟩

/-- A hold after the start, and a cancelled STOP. -/
theorem state_coherent_hold : ∃ pool,
    DeskRun .default startsOnce 0
      (bootRun ++ [.call .holdUp, .run 2 fun _ => readingAt 2, .call (.stopMotion ""), .cancel 3])
      pool ∧
    pool.mem.vars.desk.control.mode = .manual ∧ Shown pool.mem.vars.desk.control := by
  obtain ⟨pool, hpool, hmode⟩ : ∃ pool,
      Transition.exec (step (deskSystem .default)) (deskStart .default 0)
        (bootRun ++ [.call .holdUp, .run 2 fun _ => readingAt 2, .call (.stopMotion ""),
          .cancel 3]) = some pool ∧ pool.mem.vars.desk.control.mode = .manual := by
    have hrun : (Transition.exec (step (deskSystem .default)) (deskStart .default 0)
        (bootRun ++ [.call .holdUp, .run 2 fun _ => readingAt 2, .call (.stopMotion ""),
          .cancel 3])).map (·.mem.vars.desk.control.mode) = some .manual := by
      decide +kernel
    exact Option.map_eq_some_iff.mp hrun
  have hmeets : DeskRun .default startsOnce 0
      (bootRun ++ [.call .holdUp, .run 2 fun _ => readingAt 2, .call (.stopMotion ""), .cancel 3])
      pool := by
    refine ⟨⟨fun _ h => (by cases h), fun _ _ => ⟨trivial, fun _ _ => ⟨trivial, fun _ _ =>
      ⟨trivial, fun _ _ => ⟨trivial, fun _ _ => ⟨trivial, fun _ _ => ⟨trivial, fun _ _ => trivial⟩⟩⟩⟩⟩⟩⟩,
      hpool⟩
  exact ⟨pool, hmeets, hmode, (state_coherent hmeets).2.1⟩

end SmartDesk.Desk
