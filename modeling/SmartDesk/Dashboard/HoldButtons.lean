import Mathlib.Data.List.Basic
import SmartDesk.Lib.Transition
import SmartDesk.Desk.Models

/-!
# The hold buttons of the dashboard

`beginHolding` and `stopHolding` of `DeskPanel` share three refs, and the browser runs
them up to their next `await` only: a press of the other button waits for the STOP of the
motion before it, and every other event can come in between.

* `Panel`, `step` — the refs, the timers and the promises of the panel, and its events.
* `held_after_release` — a hold can begin after its button was released.
* `Holding` — the invariant of a run: one timer, for a button that is pressed.
* `released_stays_quiet` — **after all releases nothing is held**, if a press that has
  waited finds its button still pressed.
-/

namespace SmartDesk.Dashboard

open Desk (Direction)

/-! ## The panel -/

/-- A request to `/api/control`. -/
inductive Action where
  | hold (direction : Direction)
  | stop
  deriving DecidableEq

/-- What waits for the promise of a request: the refresh of a hold, or `stopHolding`, for
which a press of the other button can wait. -/
inductive Awaiting where
  | refresh (direction : Direction)
  | stopHolding (next : Option Direction)
  deriving DecidableEq

/-- How a promise is settled: resolved, rejected with status 409, or rejected otherwise. -/
inductive Outcome where
  | resolved
  | conflict
  | failed
  deriving DecidableEq

/-- The refs `direction`, `holdInFlight` and `interval` of `DeskPanel`, the intervals that
the window still runs, and the requests with the promises that are not settled.  `pressed`
are the buttons without a release since their last press. -/
structure Panel where
  direction : Option Direction
  holdInFlight : Bool
  interval : Option ℕ
  timers : List (ℕ × Direction)
  created : ℕ
  issued : List Action
  pending : List (ℕ × Awaiting)
  pressed : List Direction
  deriving DecidableEq

namespace Panel

/-- The panel as it is mounted. -/
def mounted : Panel := ⟨none, false, none, [], 0, [], [], []⟩

/-- `window.clearInterval`, for the interval of the ref. -/
def clear (p : Panel) : Panel :=
  match p.interval with
  | none => p
  | some i => { p with timers := p.timers.filter fun timer => timer.1 != i, interval := none }

/-- Send a request and wait for its promise. -/
def request (action : Action) (awaiting : Awaiting) (p : Panel) : Panel :=
  { p with
    issued := p.issued ++ [action], pending := p.pending ++ [(p.issued.length, awaiting)] }

/-- `stopHolding(force)`; `next` is the press that waits for it. -/
def stopHolding (force : Bool) (next : Option Direction) (p : Panel) : Panel :=
  let p := p.clear
  if p.direction.isNone && !force then p
  else { p with direction := none }.request .stop (.stopHolding next)

/-- `refresh()` of `beginHolding(nextDirection)`. -/
def refresh (nextDirection : Direction) (p : Panel) : Panel :=
  if p.holdInFlight || p.direction != some nextDirection then p
  else { p with holdInFlight := true }.request (.hold nextDirection) (.refresh nextDirection)

/-- `beginHolding(nextDirection)` after its `await`. -/
def startHolding (nextDirection : Direction) (p : Panel) : Panel :=
  let p := { p with direction := some nextDirection }.refresh nextDirection
  { p with
    interval := some p.created
    timers := (p.created, nextDirection) :: p.timers
    created := p.created + 1 }

/-- `beginHolding(nextDirection)` up to its `await`. -/
def beginHolding (canControl : Bool) (nextDirection : Direction) (p : Panel) : Panel :=
  if !canControl || p.direction == some nextDirection then p
  else if p.direction.isSome then p.stopHolding false (some nextDirection)
  else p.startHolding nextDirection

/-- The `catch` of `refresh()`. -/
def refused (outcome : Outcome) (p : Panel) : Panel :=
  match outcome with
  | .resolved => p
  | .conflict => { p with direction := none }.clear
  | .failed => p.stopHolding false none

/-- The promise of a request is settled. -/
def settle (i : ℕ) (outcome : Outcome) (p : Panel) : Option Panel :=
  let rest := { p with pending := p.pending.filter fun promise => promise.1 != i }
  match p.pending.lookup i with
  | none => none
  | some (.refresh _) => some { rest.refused outcome with holdInFlight := false }
  | some (.stopHolding none) => some rest
  | some (.stopHolding (some next)) => some (rest.startHolding next)

end Panel

/-- What can happen to the panel. -/
inductive Event where
  | press (direction : Direction) (canControl : Bool)
  | release (direction : Direction)
  | blur
  | stopButton
  | tick (timer : ℕ)
  | settle (request : ℕ) (outcome : Outcome)
  deriving DecidableEq

/-- The handlers of the events; a tick of a cleared interval and a promise that is not
pending cannot happen. -/
def step (p : Panel) : Event → Option Panel
  | .press direction canControl =>
      some { p.beginHolding canControl direction with pressed := direction :: p.pressed }
  | .release direction =>
      some { p.stopHolding false none with pressed := p.pressed.filter (· != direction) }
  | .blur => some { p.stopHolding false none with pressed := [] }
  | .stopButton => some (p.stopHolding true none)
  | .tick timer =>
      match p.timers.lookup timer with
      | none => none
      | some direction => some (p.refresh direction)
  | .settle request outcome => p.settle request outcome

/-- The HOLD requests that were issued. -/
def Panel.holds (p : Panel) : List Action := p.issued.filter (· != .stop)

def Event.isPress : Event → Bool
  | .press _ _ => true
  | _ => false

/-- Nothing is held, and nothing will be without a new press. -/
def Quiet (p : Panel) : Prop :=
  p.direction = none ∧ p.timers = [] ∧ ∀ es p', Transition.exec step p es = some p' →
    (∀ e ∈ es, e.isPress = false) → p'.holds = p.holds

/-- Every press was released, and no promise is pending. -/
def Released (p : Panel) : Prop := p.pressed = [] ∧ p.pending = []

/-! ## A hold after its release -/

/-- DOWN is pressed while UP is held, and released before the STOP of UP is answered. -/
def lateHold : List Event :=
  [.press .up true, .settle 0 .resolved, .press .down true, .release .down, .release .up,
    .settle 1 .resolved, .settle 2 .resolved]

/-- **A hold can begin after its button was released**: the press has waited for a STOP and
does not look at the button again. -/
theorem held_after_release : ¬ ∀ es p, Transition.exec step .mounted es = some p →
    Released p → Quiet p := by
  intro hall
  have hrun : (Transition.exec step .mounted lateHold).map
      (fun p => (p.pressed, p.pending, p.timers)) = some ([], [], [(1, .down)]) := by decide
  obtain ⟨p, hp, hstate⟩ := Option.map_eq_some_iff.mp hrun
  simp only [Prod.mk.injEq] at hstate
  obtain ⟨hpressed, hpending, htimers⟩ := hstate
  have hquiet := (hall _ p hp ⟨hpressed, hpending⟩).2.1
  rw [htimers] at hquiet
  cases hquiet

/-! ## What the operations do -/

namespace Panel

/-- Nothing is held. -/
def Idle (p : Panel) : Prop := p.direction = none ∧ p.interval = none ∧ p.timers = []

/-- One direction is held, with one interval, and its button is pressed. -/
def Held (p : Panel) : Prop :=
  ∃ d i, p.direction = some d ∧ p.interval = some i ∧ p.timers = [(i, d)] ∧ d ∈ p.pressed

/-- The refs and the timers fit together. -/
def Holding (p : Panel) : Prop := p.Idle ∨ p.Held

@[simp] theorem clear_direction (p : Panel) : p.clear.direction = p.direction := by
  unfold clear
  split <;> rfl

@[simp] theorem clear_issued (p : Panel) : p.clear.issued = p.issued := by
  unfold clear
  split <;> rfl

@[simp] theorem clear_pending (p : Panel) : p.clear.pending = p.pending := by
  unfold clear
  split <;> rfl

@[simp] theorem clear_interval (p : Panel) : p.clear.interval = none := by
  unfold clear
  split
  · assumption
  · rfl

/-- No timer is left when the interval of the ref is cleared. -/
theorem Holding.clear_timers {p : Panel} (h : p.Holding) : p.clear.timers = [] := by
  rcases h with ⟨_, hinterval, htimers⟩ | ⟨d, i, _, hinterval, htimers, _⟩
  · rw [clear, hinterval]
    exact htimers
  · simp [clear, hinterval, htimers]

/-- `stopHolding` clears the interval, and sends a STOP unless nothing is held. -/
theorem stopHolding_cases (force : Bool) (next : Option Direction) (p : Panel) :
    (p.direction = none ∧ p.stopHolding force next = p.clear) ∨
      p.stopHolding force next =
        { p.clear with direction := none }.request .stop (.stopHolding next) := by
  by_cases hnone : (p.clear.direction.isNone && !force) = true
  · refine .inl ⟨?_, if_pos hnone⟩
    simp only [clear_direction, Bool.and_eq_true, Option.isNone_iff_eq_none] at hnone
    exact hnone.1
  · exact .inr (if_neg hnone)

/-- `stopHolding` leaves nothing held. -/
theorem Holding.stopHolding {p : Panel} (h : p.Holding) (force : Bool) (next : Option Direction) :
    (p.stopHolding force next).Idle := by
  have htimers := h.clear_timers
  rcases stopHolding_cases force next p with ⟨hnone, heq⟩ | heq
  · rw [heq]
    exact ⟨by simpa using hnone, by simp, htimers⟩
  · rw [heq]
    exact ⟨rfl, by simp [request], by simpa [request] using htimers⟩

@[simp] theorem refresh_direction (d : Direction) (p : Panel) :
    (p.refresh d).direction = p.direction := by
  unfold refresh
  split <;> rfl

@[simp] theorem refresh_timers (d : Direction) (p : Panel) :
    (p.refresh d).timers = p.timers := by
  unfold refresh
  split <;> rfl

@[simp] theorem refresh_interval (d : Direction) (p : Panel) :
    (p.refresh d).interval = p.interval := by
  unfold refresh
  split <;> rfl

@[simp] theorem refresh_pressed (d : Direction) (p : Panel) :
    (p.refresh d).pressed = p.pressed := by
  unfold refresh
  split <;> rfl

/-- A hold that begins when nothing is held has the only timer. -/
theorem Idle.startHolding {p : Panel} (h : p.Idle) (d : Direction) :
    ∃ i, (p.startHolding d).direction = some d ∧ (p.startHolding d).interval = some i ∧
      (p.startHolding d).timers = [(i, d)] ∧ (p.startHolding d).pressed = p.pressed := by
  refine ⟨(({ p with direction := some d } : Panel).refresh d).created, ?_, rfl, ?_, ?_⟩
  · simp [Panel.startHolding]
  · simp [Panel.startHolding, h.2.2]
  · simp [Panel.startHolding]

theorem Holding.refresh {p : Panel} (h : p.Holding) (d : Direction) : (p.refresh d).Holding := by
  rcases h with ⟨hdirection, hinterval, htimers⟩ | ⟨d', i, hdirection, hinterval, htimers, hpressed⟩
  · exact .inl ⟨by simpa, by simpa, by simpa⟩
  · exact .inr ⟨d', i, by simpa, by simpa, by simpa, by simpa⟩

/-- The refs and the timers do not depend on the promises and the buttons. -/
theorem Holding.of_same {p p' : Panel} (h : p.Holding) (hdirection : p'.direction = p.direction)
    (hinterval : p'.interval = p.interval) (htimers : p'.timers = p.timers)
    (hpressed : ∀ d, d ∈ p.pressed → d ∈ p'.pressed) : p'.Holding := by
  rcases h with ⟨hd, hi, ht⟩ | ⟨d, i, hd, hi, ht, hp⟩
  · exact .inl ⟨hdirection.trans hd, hinterval.trans hi, htimers.trans ht⟩
  · exact .inr ⟨d, i, hdirection.trans hd, hinterval.trans hi, htimers.trans ht, hpressed d hp⟩

theorem Holding.refused {p : Panel} (h : p.Holding) (outcome : Outcome) :
    (p.refused outcome).Holding := by
  cases outcome with
  | resolved => exact h
  | conflict =>
    refine .inl ⟨by simp [Panel.refused], by simp [Panel.refused], ?_⟩
    have htimers := h.clear_timers
    unfold Panel.refused clear
    unfold clear at htimers
    split at htimers
    · next heq => simp [heq, htimers]
    · next i heq => simpa [heq] using htimers
  | failed => exact .inl (h.stopHolding false none)

end Panel

open Panel

/-! ## The condition -/

/-- A press that has waited for a STOP finds its button still pressed, and no hold has
begun in the meantime. -/
def stillPressed (p : Panel) : Event → Prop
  | .settle request _ => ∀ d, p.pending.lookup request = some (.stopHolding (some d)) →
      d ∈ p.pressed ∧ p.direction = none
  | _ => True

/-- A held direction is that of a pressed button. -/
theorem Panel.Holding.idle {p : Panel} (h : p.Holding) (hnone : p.direction = none) : p.Idle := by
  refine h.resolve_right ?_
  rintro ⟨d, i, hd, _⟩
  rw [hnone] at hd
  cases hd

theorem holding_of_step {p p' : Panel} {e : Event} (h : p.Holding) (hok : stillPressed p e)
    (hstep : step p e = some p') : p'.Holding := by
  cases e with
  | press d canControl =>
    cases hstep
    unfold Panel.beginHolding
    split
    · exact h.of_same rfl rfl rfl fun _ hd => List.mem_cons_of_mem _ hd
    · split
      · obtain ⟨hd, hi, ht⟩ := h.stopHolding false (some d)
        exact .inl ⟨hd, hi, ht⟩
      · next hfree =>
        have hidle : p.Idle := h.idle (by simpa using hfree)
        obtain ⟨i, hd, hi, ht, _⟩ := hidle.startHolding d
        exact .inr ⟨d, i, hd, hi, ht, by simp⟩
  | release d =>
    cases hstep
    obtain ⟨hd, hi, ht⟩ := h.stopHolding false none
    exact .inl ⟨hd, hi, ht⟩
  | blur =>
    cases hstep
    obtain ⟨hd, hi, ht⟩ := h.stopHolding false none
    exact .inl ⟨hd, hi, ht⟩
  | stopButton =>
    cases hstep
    exact .inl (h.stopHolding true none)
  | tick timer =>
    simp only [step] at hstep
    split at hstep
    · cases hstep
    · next d _ =>
      cases hstep
      exact h.refresh d
  | settle request outcome =>
    have hrest : ({ p with pending := p.pending.filter fun promise => promise.1 != request } :
        Panel).Holding := h.of_same rfl rfl rfl fun _ hd => hd
    simp only [step, Panel.settle] at hstep
    split at hstep
    · cases hstep
    · cases hstep
      exact (hrest.refused outcome).of_same rfl rfl rfl fun _ hd => hd
    · cases hstep
      exact hrest
    · next d hlookup =>
      cases hstep
      obtain ⟨hpressed, hnone⟩ := hok d hlookup
      obtain ⟨i, hd, hi, ht, hsame⟩ := (hrest.idle hnone).startHolding d
      exact .inr ⟨d, i, hd, hi, ht, by rw [hsame]; exact hpressed⟩

/-! ## After all releases -/

/-- Nothing is held, and no press waits for a STOP. -/
def Dormant (p : Panel) : Prop :=
  p.direction = none ∧ ∀ promise ∈ p.pending, ∀ d, promise.2 ≠ .stopHolding (some d)

/-- Nothing was sent but STOPs. -/
structure Lull (p p' : Panel) : Prop where
  issued : ∃ new, p'.issued = p.issued ++ new ∧ ∀ action ∈ new, action = .stop
  pending : ∀ i d, (i, .refresh d) ∈ p'.pending → (i, .refresh d) ∈ p.pending

theorem Lull.refl (p : Panel) : Lull p p := ⟨⟨[], by simp⟩, fun _ _ h => h⟩

theorem Lull.trans {a b c : Panel} (h : Lull a b) (h' : Lull b c) : Lull a c := by
  obtain ⟨new, hnew, hstops⟩ := h.issued
  obtain ⟨new', hnew', hstops'⟩ := h'.issued
  refine ⟨⟨new ++ new', by rw [hnew', hnew, List.append_assoc], ?_⟩,
    fun i d hi => h.pending i d (h'.pending i d hi)⟩
  intro action haction
  exact (List.mem_append.mp haction).elim (hstops action) (hstops' action)

theorem Lull.holds {p p' : Panel} (h : Lull p p') : p'.holds = p.holds := by
  obtain ⟨new, hnew, hstops⟩ := h.issued
  have hnone : new.filter (· != .stop) = [] := by
    rw [List.filter_eq_nil_iff]
    intro action haction
    simp [hstops action haction]
  rw [Panel.holds, hnew, List.filter_append, hnone, List.append_nil]
  rfl

theorem Dormant.stopHolding {p : Panel} (h : Dormant p) (force : Bool) :
    Dormant (p.stopHolding force none) ∧ Lull p (p.stopHolding force none) := by
  rcases stopHolding_cases force none p with ⟨_, heq⟩ | heq
  · rw [heq]
    exact ⟨⟨by simpa using h.1, by simpa using h.2⟩, ⟨[], by simp⟩, by simp⟩
  · rw [heq]
    refine ⟨⟨rfl, fun promise hpromise d => ?_⟩, ⟨[.stop], by simp [request]⟩, by simp [request]⟩
    simp only [request, clear_pending, List.mem_append, List.mem_singleton] at hpromise
    rcases hpromise with hold | rfl
    · exact h.2 promise hold d
    · simp

theorem mem_of_lookup {request : ℕ} {awaiting : Awaiting} {promises : List (ℕ × Awaiting)}
    (h : promises.lookup request = some awaiting) : (request, awaiting) ∈ promises := by
  obtain ⟨before, after, rfl, _⟩ := List.lookup_eq_some_iff.mp h
  simp

/-- Without a press a dormant panel sends no HOLD. -/
theorem Dormant.step {p p' : Panel} {e : Event} (h : Dormant p) (hpress : e.isPress = false)
    (hstep : step p e = some p') : Dormant p' ∧ Lull p p' := by
  cases e with
  | press _ _ => cases hpress
  | release d =>
    cases hstep
    obtain ⟨hdormant, hlull⟩ := h.stopHolding false
    exact ⟨⟨hdormant.1, hdormant.2⟩, hlull.issued, hlull.pending⟩
  | blur =>
    cases hstep
    obtain ⟨hdormant, hlull⟩ := h.stopHolding false
    exact ⟨⟨hdormant.1, hdormant.2⟩, hlull.issued, hlull.pending⟩
  | stopButton =>
    cases hstep
    exact h.stopHolding true
  | tick timer =>
    simp only [Dashboard.step] at hstep
    split at hstep
    · cases hstep
    · next d _ =>
      cases hstep
      rw [refresh, if_pos (by simp [h.1])]
      exact ⟨h, .refl p⟩
  | settle request outcome =>
    have hrest : Dormant { p with
        pending := p.pending.filter fun promise => promise.1 != request } :=
      ⟨h.1, fun promise hmem => h.2 promise (List.mem_of_mem_filter hmem)⟩
    have hlull : Lull p { p with
        pending := p.pending.filter fun promise => promise.1 != request } :=
      ⟨⟨[], by simp⟩, fun i d hi => List.mem_of_mem_filter hi⟩
    simp only [Dashboard.step, Panel.settle] at hstep
    split at hstep
    · cases hstep
    · cases hstep
      cases outcome with
      | resolved => exact ⟨hrest, hlull.issued, hlull.pending⟩
      | conflict =>
        refine ⟨⟨by simp [refused], fun promise hmem => ?_⟩, ?_⟩
        · exact hrest.2 promise (by simpa [refused] using hmem)
        · exact hlull.trans ⟨⟨[], by simp [refused]⟩, fun i d hi => by simpa [refused] using hi⟩
      | failed =>
        obtain ⟨hdormant, hlull'⟩ := hrest.stopHolding false
        have hall := hlull.trans hlull'
        exact ⟨⟨hdormant.1, hdormant.2⟩, hall.issued, hall.pending⟩
    · cases hstep
      exact ⟨hrest, hlull⟩
    · next d hlookup => exact absurd rfl (h.2 _ (mem_of_lookup hlookup) d)

theorem Dormant.exec {p p' : Panel} {es : List Event} (h : Dormant p)
    (hpress : ∀ e ∈ es, e.isPress = false) (hexec : Transition.exec Dashboard.step p es = some p') :
    Lull p p' := by
  induction es generalizing p with
  | nil =>
    cases hexec
    exact .refl _
  | cons e es ih =>
    obtain ⟨m, hm, hrest⟩ := Transition.exec_cons_eq_some.mp hexec
    obtain ⟨hdormant, hlull⟩ := h.step (hpress e (by simp)) hm
    exact hlull.trans (ih hdormant (fun e' he' => hpress e' (by simp [he'])) hrest)

/-- **After all releases nothing is held**, and nothing will be without a new press, in
every run in which a press that has waited finds its button still pressed. -/
theorem released_stays_quiet {es : List Event} {p : Panel}
    (hmeets : Transition.Meets step stillPressed .mounted es)
    (hexec : Transition.exec step .mounted es = some p) (hreleased : Released p) : Quiet p := by
  have hholding : p.Holding :=
    Transition.invariant_of_meets (I := Panel.Holding)
      (fun _ _ _ h hok hs => holding_of_step h hok hs) (.inl ⟨rfl, rfl, rfl⟩) hmeets hexec
  have hidle : p.Idle := by
    refine hholding.resolve_right ?_
    rintro ⟨d, i, _, _, _, hpressed⟩
    rw [hreleased.1] at hpressed
    cases hpressed
  refine ⟨hidle.1, hidle.2.2, fun es' p' hexec' hpress => ?_⟩
  have hdormant : Dormant p := ⟨hidle.1, by simp [hreleased.2]⟩
  exact (hdormant.exec hpress hexec').holds

instance (p : Panel) (e : Event) : Decidable (stillPressed p e) :=
  match e with
  | .settle request _ =>
      match h : p.pending.lookup request with
      | some (.stopHolding (some d)) =>
          decidable_of_iff (d ∈ p.pressed ∧ p.direction = none)
            ⟨fun hd d' hd' => by rw [h] at hd'; cases hd'; exact hd, fun hall => hall d h⟩
      | some (.stopHolding none) => isTrue fun d hd => by rw [h] at hd; cases hd
      | some (.refresh _) => isTrue fun d hd => by rw [h] at hd; cases hd
      | none => isTrue fun d hd => by rw [h] at hd; cases hd
  | .press _ _ => isTrue trivial
  | .release _ => isTrue trivial
  | .blur => isTrue trivial
  | .stopButton => isTrue trivial
  | .tick _ => isTrue trivial

/-- DOWN is pressed while UP is held, and released after its hold has begun. -/
def handedOver : List Event :=
  [.press .up true, .settle 0 .resolved, .press .down true, .release .up, .settle 1 .resolved,
    .settle 2 .resolved, .tick 1, .release .down, .settle 3 .failed, .settle 4 .resolved]

/-- Both buttons are released, and nothing is held. -/
theorem released_stays_quiet_both : ∃ p, Transition.exec step .mounted handedOver = some p ∧
    Released p ∧ Quiet p := by
  obtain ⟨p, hp, hstate⟩ : ∃ p, Transition.exec step .mounted handedOver = some p ∧
      (p.pressed, p.pending) = ([], []) := by
    have hrun : (Transition.exec step .mounted handedOver).map (fun p => (p.pressed, p.pending)) =
        some ([], []) := by decide
    exact Option.map_eq_some_iff.mp hrun
  simp only [Prod.mk.injEq] at hstate
  exact ⟨p, hp, hstate, released_stays_quiet (by decide) hp hstate⟩

end SmartDesk.Dashboard
