import SmartDesk.Desk.Runs

/-!
# One intent takes the place of another

An operation that finds an active motion stops it before it installs its own intent,
unless the height is not ONLINE: then `_hold` goes to `_begin_wake`, which stops nothing.

* `HandsOverStopped` — an active intent was replaced after a confirmed STOP only.
* `hand_over_without_stop` — a hold with a STALE height reverses a motion.
* `hand_over_stopped` — **intents are replaced after a confirmed STOP**, unless a WAKE is
  admitted in the place of an active motion; and the active intent is the recorded one.
-/

namespace SmartDesk.Desk

open Coroutine

variable {settings : DeskSettings}

/-- Whenever an operation that found an active intent has installed a different one, a
STOP was published and confirmed after the last thing that moved the desk. -/
def HandsOverStopped (trace : List Event) : Prop :=
  ∀ newer found new older, trace = newer ++ .installed found new :: older →
    found.mode ≠ .none → ¬ SameIntent found new → StopConfirmed older

/-- The active intent is the last one of the record. -/
def Recorded (v : Vars) : Prop :=
  v.desk.control.mode = .none ∨ ∃ newer found new older,
    v.trace = newer ++ .installed found new :: older ∧
      (∀ e ∈ newer, e.isInstalled = false) ∧ SameIntent new v.desk.control

/-! ## A hand-over without a STOP -/

/-- A STOP of the record is confirmed. -/
def Event.isConfirmed : Event → Bool
  | .exchangeConfirmed _ _ _ => true
  | _ => false

/-- A manual motion was reversed before any STOP was confirmed. -/
def reversed : List Event → Bool
  | [] => false
  | .installed found new :: older =>
      (found.mode == .manual && new.mode == .manual && found.direction != new.direction &&
        !older.any Event.isConfirmed) || reversed older
  | _ :: older => reversed older

theorem not_handsOverStopped {trace : List Event} (h : reversed trace = true) :
    ¬ HandsOverStopped trace := by
  intro hstopped
  induction trace with
  | nil => cases h
  | cons e older ih =>
    have hrest : reversed older = true → False := fun hold => ih hold
      fun newer found new older' heq => hstopped (e :: newer) found new older' (by rw [heq]; rfl)
    cases e with
    | installed found new =>
      simp only [reversed, Bool.or_eq_true, Bool.and_eq_true, beq_iff_eq, bne_iff_ne, ne_eq,
        Bool.not_eq_true'] at h
      rcases h with ⟨⟨⟨hfound, _⟩, hdirection⟩, hnone⟩ | hold
      · obtain ⟨t, baseline, relay, newer, middle, oldest, hsplit, _⟩ :=
          hstopped [] found new older rfl (by rw [hfound]; simp)
            fun hsame => hdirection (hsame.2.2 hfound)
        rw [hsplit] at hnone
        simp [Event.isConfirmed] at hnone
      · exact hrest hold
    | _ => exact hrest h

/-- A manual motion upwards, and `hold_down()` when the height is STALE. -/
def reversingRun : List DeskLabel :=
  bootRun ++
    [.call .holdUp, .run 2 fun _ => readingAt 2, .run 1 fun _ => readingAt 2, .call .holdDown,
      .run 3 fun _ => staleAt 3]

/-- **An active motion can be replaced without a STOP.** -/
theorem hand_over_without_stop : ¬ ∀ settings started ls pool,
    DeskRun settings (fun _ _ => True) started ls pool →
      HandsOverStopped pool.mem.vars.trace := by
  intro hall
  have hexec : (Transition.exec (step (deskSystem .default)) (deskStart .default 0)
      reversingRun).map (fun pool => reversed pool.mem.vars.trace) = some true := by
    decide +kernel
  obtain ⟨pool, hpool, hreversed⟩ := Option.map_eq_some_iff.mp hexec
  exact not_handsOverStopped hreversed
    (hall .default 0 reversingRun pool ⟨Transition.meets_true _ _, hpool⟩)

/-! ## The condition -/

/-- The task has not got past the intent lock. -/
def Enters (m : Memory) (t : ℕ) (job : Job) : Prop :=
  m.shape t = some (job, .ready) ∨ m.shape t = some (job, .pausing) ∨
    m.shape t = some (job, .waiting (.lock .intent none))

/-- A hold, or the startup WAKE, finds another active motion, and its WAKE is
admitted. -/
def Overrides (settings : DeskSettings) (m : Memory) (t : ℕ) (given : ℕ → Reading) : Prop :=
  m.vars.desk.control.mode ≠ .none ∧ m.vars.desk.control.awaitingFreshHeight = false ∧
    WakeBasis settings (given 0).height ∧
    ((∃ job direction x,
        (job = .holdUp ∧ direction = .up ∨ job = .holdDown ∧ direction = .down) ∧
        Enters m t job ∧
        ¬ (m.vars.desk.control.mode = .manual ∧
          m.vars.desk.control.direction = some direction) ∧
        (given 0).height.heightCm = some x ∧ Away settings x direction ∧
        AvailableRelay settings (given 1).relay (given 2).now) ∨
      (m.shape t = some (.runner, .waiting (.lock .intent none)) ∧
        m.vars.desk.startupWakePending ≠ none ∧
        AvailableRelay settings (given 2).relay (given 3).now))

/-- No WAKE is admitted in the place of another active motion. -/
def stopsFirst (settings : DeskSettings) (pool : DeskPool) : DeskLabel → Prop
  | .run t given => ¬ Overrides settings pool.mem t given
  | _ => True

/-- A WAKE that is installed without a STOP meets no other motion. -/
theorem DirectWake.overrides {q : Spot} {found new : ControlState}
    (h : DirectWake settings q found new) (hmode : found.mode ≠ .none)
    (hother : ¬ SameIntent found new) : Overrides settings q.start q.task q.given := by
  have hfound := h.control
  refine ⟨hfound ▸ hmode, hfound ▸ h.notAwaiting, h.basis, ?_⟩
  rcases h.operation with ⟨direction, x, hjob, hbegan, hnew, hdirection, hx, haway, hrelay⟩ |
    ⟨hjob, hwaits, hpending, hrelay⟩
  · refine .inl ⟨q.job, direction, x, hjob, ?_, ?_, hx, haway, hrelay⟩
    · rcases hbegan with (hready | hpausing) | hwaits
      · exact .inl hready
      · exact .inr (.inl hpausing)
      · exact .inr (.inr hwaits)
    · rw [← hfound]
      rintro ⟨hmanual, hsame⟩
      refine hother ⟨hmanual.trans hnew.symm, fun htarget => ?_, fun _ => hsame.trans hdirection.symm⟩
      rw [hmanual] at htarget
      cases htarget
  · refine .inr ⟨?_, hpending, hrelay⟩
    rw [← hjob]
    exact hwaits

/-! ## What a change keeps -/

theorem SameIntent.refl (c : ControlState) : SameIntent c c := ⟨rfl, fun _ => rfl, fun _ => rfl⟩

theorem SameIntent.trans {a b c : ControlState} (h : SameIntent a b) (h' : SameIntent b c) :
    SameIntent a c := by
  refine ⟨h.1.trans h'.1, fun htarget => ?_, fun hmanual => ?_⟩
  · exact (h.2.1 htarget).trans (h'.2.1 (h.1 ▸ htarget))
  · exact (h.2.2 hmanual).trans (h'.2.2 (h.1 ▸ hmanual))

theorem Refines.sameIntent {c c' : ControlState} (h : Refines c c') : SameIntent c c' :=
  ⟨h.mode.symm, fun _ => h.target.symm, fun hmanual => (h.manual hmanual).symm⟩

theorem HandsOverStopped.cons {trace : List Event} (h : HandsOverStopped trace) {e : Event}
    (he : ∀ found new, e = .installed found new → found.mode ≠ .none →
      ¬ SameIntent found new → StopConfirmed trace) : HandsOverStopped (e :: trace) := by
  intro newer found new older hsplit hmode hother
  cases newer with
  | nil =>
    rw [List.nil_append] at hsplit
    injection hsplit with hhead htail
    rw [← htail]
    exact he found new hhead hmode hother
  | cons e' newer =>
    rw [List.cons_append] at hsplit
    injection hsplit with _ htail
    exact h newer found new older htail hmode hother

/-- An intent that goes on stays the recorded one. -/
theorem Recorded.goesOn {v v' : Vars} (h : Recorded v) (new : List Event)
    (htrace : v'.trace = new ++ v.trace) (hnew : ∀ e ∈ new, e.isInstalled = false)
    (hsame : SameIntent v.desk.control v'.desk.control) : Recorded v' := by
  rcases h with hmode | ⟨newer, found, intent, older, hsplit, hquiet, hintent⟩
  · exact .inl (hsame.1.symm.trans hmode)
  · refine .inr ⟨new ++ newer, found, intent, older, ?_, ?_, hintent.trans hsame⟩
    · rw [htrace, hsplit, List.append_assoc]
    · intro e he
      rcases List.mem_append.mp he with he | he
      · exact hnew e he
      · exact hquiet e he

section Changes

variable {q : Spot} {v : Vars} (h : Change settings q v)
include h

/-- **A change keeps the active intent recorded.** -/
theorem Change.recorded (hrecorded : Recorded q.mem.vars) : Recorded v := by
  have hsame : v.desk.control = q.mem.vars.desk.control →
      SameIntent q.mem.vars.desk.control v.desk.control := by
    intro heq
    rw [heq]
    exact .refl _
  cases h with
  | refine _ control _ _ trace =>
    exact hrecorded.goesOn [] trace (by simp) control.toRefines.sameIntent
  | activate _ _ _ control _ _ _ _ trace =>
    exact hrecorded.goesOn [_] trace (by simp [Event.isInstalled]) control.sameIntent
  | command _ control _ _ trace =>
    exact hrecorded.goesOn [_] trace (by simp [Event.isInstalled]) (hsame control)
  | runner _ _ _ control _ _ trace =>
    exact hrecorded.goesOn [] trace (by simp) (hsame control)
  | settle _ _ mode notManual target _ _ _ trace =>
    exact hrecorded.goesOn [] trace (by simp)
      ⟨mode.symm, fun _ => target.symm, fun hmanual => absurd hmanual notManual⟩
  | drop _ _ control _ _ => exact .inl control.mode
  | idle _ rests _ _ _ trace =>
    exact hrecorded.goesOn [] trace (by simp) rests.refines.sameIntent
  | register _ rests _ _ _ _ _ _ _ trace =>
    exact hrecorded.goesOn [_] trace (by simp [Event.isInstalled]) rests.refines.sameIntent
  | install found _ _ _ _ _ _ _ _ _ _ _ _ _ trace =>
    exact .inr ⟨[], found, _, _, trace, by simp, .refl _⟩
  | beginExchange _ _ _ _ _ _ control _ _ _ _ => exact .inl control.mode
  | confirm _ _ desk _ _ _ _ trace =>
    exact hrecorded.goesOn [_] trace (by simp [Event.isInstalled])
      (hsame (congrArg (·.control) desk))
  | unlatch _ _ _ _ rests _ trace =>
    exact hrecorded.goesOn [] trace (by simp) rests.refines.sameIntent
  | startBegin _ _ _ _ _ _ control _ _ => exact .inl control.mode
  | startFail _ _ _ _ _ control _ _ trace =>
    exact hrecorded.goesOn [] trace (by simp) (hsame control)
  | stopBegin _ _ _ _ _ control _ _ => exact .inl control.mode
  | stopEnd _ _ _ _ _ _ rests _ trace =>
    exact hrecorded.goesOn [] trace (by simp) rests.refines.sameIntent
  | pulse _ _ _ desk _ trace =>
    exact hrecorded.goesOn [_] trace (by simp [Event.isInstalled])
      (hsame (congrArg (·.control) desk))
  | wake _ _ _ desk _ _ trace =>
    exact hrecorded.goesOn [_] trace (by simp [Event.isInstalled])
      (hsame (congrArg (·.control) desk))
  | sendStop desk trace =>
    exact hrecorded.goesOn [_] trace (by simp [Event.isInstalled])
      (hsame (congrArg (·.control) desk))

/-- **A change hands over after a confirmed STOP**, where no WAKE overrides a motion. -/
theorem Change.handsOver (hfirst : ¬ Overrides settings q.start q.task q.given)
    (hstopped : HandsOverStopped q.mem.vars.trace) : HandsOverStopped v.trace := by
  rcases h.records with hsame | ⟨e, htrace, he⟩
  · rw [hsame]
    exact hstopped
  rw [htrace]
  refine hstopped.cons fun found new heq hmode hother => ?_
  subst heq
  cases he with
  | installed _ handsOver =>
    rcases handsOver with hnone | hstop | hdirect
    · exact absurd hnone hmode
    · exact hstop
    · exact absurd (hdirect.overrides hmode hother) hfirst

end Changes

/-! ## Runs -/

/-- **An intent is replaced after a confirmed STOP only**, in every run in which no WAKE
is admitted in the place of another active motion; and every active intent is the last
one that was recorded. -/
theorem hand_over_stopped {started : Instant} {ls : List DeskLabel} {pool : DeskPool}
    (h : DeskRun settings (stopsFirst settings) started ls pool) :
    HandsOverStopped pool.mem.vars.trace ∧ Recorded pool.mem.vars := by
  refine h.keeps_quiet (I := fun m => HandsOverStopped m.vars.trace ∧ Recorded m.vars)
    (V := fun p v => ¬ Overrides settings p.start p.task p.given ∧
      HandsOverStopped v.trace ∧ Recorded v) ?_ ?_ ?_ ?_ ?_
  · refine ⟨fun newer found new older hsplit => ?_, .inl rfl⟩
    cases newer with
    | nil => cases hsplit
    | cons _ _ => cases hsplit
  · intro m m' hquiet hi
    rw [hquiet.vars]
    exact hi
  · intro pool pool' p hok hi hstart _ _
    rw [hstart]
    exact ⟨hok, hi⟩
  · rintro p q v hsame ⟨hfirst, hstopped, hrecorded⟩ hchange
    refine ⟨hfirst, hchange.handsOver ?_ hstopped, hchange.recorded hrecorded⟩
    rw [hsame.start, hsame.task, hsame.given]
    exact hfirst
  · intro pool pool' p q _ _ _ _ _ hmid hvars _
    rw [hvars]
    exact hmid.2

/-- A condition that is enough for `hand_over_stopped`, computed: heights are ONLINE. -/
def checkOnline (_ : DeskPool) : DeskLabel → Bool
  | .run _ given => (given 0).height.status == .online
  | _ => true

theorem stopsFirst_of_checked (pool : DeskPool) (l : DeskLabel) (_ : DeskKept settings pool)
    (hchecked : checkOnline pool l = true) : stopsFirst settings pool l := by
  cases l with
  | call _ => trivial
  | cancel _ => trivial
  | run t given =>
    rintro ⟨_, _, hbasis, _⟩
    have honline : (given 0).height.status = .online := by simpa [checkOnline] using hchecked
    rcases hbasis.status with hstale | hsleeping
    · rw [honline] at hstale
      cases hstale
    · rw [honline] at hsleeping
      cases hsleeping

/-- `hold_down()` takes the place of `hold_up()`, with an ONLINE height. -/
def stoppingRun : List DeskLabel :=
  bootRun ++
    [.call .holdUp, .run 2 fun _ => readingAt 2, .call .holdDown, .run 3 fun _ => readingAt 3,
      .run 3 fun _ => readingAt 4]

/-- A reversal with an ONLINE height stops the desk first. -/
theorem hand_over_stopped_hold : ∃ pool,
    DeskRun .default (stopsFirst .default) 0 stoppingRun pool ∧
      pool.mem.vars.desk.control.direction = some .down ∧
      HandsOverStopped pool.mem.vars.trace := by
  have hexec : (Transition.exec (step (deskSystem .default)) (deskStart .default 0)
      stoppingRun).map (·.mem.vars.desk.control.direction) = some (some .down) := by
    decide +kernel
  have hmeets : Transition.Meets (step (deskSystem .default))
      (fun pool l => checkOnline pool l = true) (deskStart .default 0) stoppingRun := by
    decide +kernel
  obtain ⟨pool, hpool, hdown⟩ := Option.map_eq_some_iff.mp hexec
  have hrun : DeskRun .default (stopsFirst .default) 0 stoppingRun pool :=
    .of_checked checkOnline stopsFirst_of_checked hmeets hpool
  exact ⟨pool, hrun, hdown, (hand_over_stopped hrun).1⟩

end SmartDesk.Desk
