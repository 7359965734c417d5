import SmartDesk.Lib.Transition
import SmartDesk.Firmware.Policy

/-!
# The relay controller

`firmware/relay-controller/src/relay_controller.cpp`: two outputs, a one-shot
hardware timer and the interrupt that switches the outputs off.

Time is counted in microseconds since boot.  Between two steps of the main
thread that are not inside one critical section some time passes, and the
interrupt may run (`Preemption`, `Relay.pass`); a critical section is one step.

* `Relay` — the registers and variables, and the log of all output changes.
* `Relay.start`, `Relay.stop`, `Relay.takeTimeoutEvent`, `Relay.currentDirection`
  — the methods.
* `RelayOp`, `relayStep` — one call of a method, as a step of the controller.
-/

namespace SmartDesk.Firmware

inductive RelayDirection where
  | stop
  | up
  | down
  deriving DecidableEq, Repr

inductive RelayStartResult where
  | started
  | extended
  | switched
  deriving DecidableEq, Repr

/-- The two relay outputs. -/
inductive Output where
  | up
  | down
  deriving DecidableEq, Repr

/-- One change of an output level. -/
structure Edge where
  time : ℕ
  output : Output
  on : Bool
  deriving DecidableEq, Repr

/-- The controller: the clock, the GPIO levels, the time the one-shot timer is
armed for, and the two variables shared with the interrupt.  `log` records
every level change, newest first. -/
structure Relay where
  clock : ℕ
  upOn : Bool
  downOn : Bool
  alarm : Option ℕ
  direction : RelayDirection
  timeoutPending : Bool
  log : List Edge
  deriving DecidableEq, Repr

/-- What happens between two steps of the main thread: time goes by, and a timer
that is armed may fire early. -/
structure Preemption where
  elapse : ℕ
  fire : Bool

namespace Relay

/-- After `begin()`: outputs off, timer idle. -/
def boot : Relay :=
  { clock := 0, upOn := false, downOn := false, alarm := none, direction := .stop,
    timeoutPending := false, log := [] }

/-- The changes that bring the outputs to the given levels. -/
def edges (r : Relay) (up down : Bool) : List Edge :=
  (if r.upOn = up then [] else [⟨r.clock, .up, up⟩]) ++
    (if r.downOn = down then [] else [⟨r.clock, .down, down⟩])

/-- Drive the outputs to the given levels. -/
def setOutputs (r : Relay) (up down : Bool) : Relay :=
  { r with upOn := up, downOn := down, log := r.edges up down ++ r.log }

/-- `forceOffMain()` and `forceOffFromIsr()`: one register write clears both. -/
def forceOff (r : Relay) : Relay := { r.setOutputs false false with direction := .stop }

/-- `writeRelay(pin, true)` for the pin of a direction; STOP has no pin. -/
def writeRelay (r : Relay) : RelayDirection → Relay
  | .up => r.setOutputs true r.downOn
  | .down => r.setOutputs r.upOn true
  | .stop => r

/-- `onTimer()`; the timer is one-shot. -/
def onTimer (r : Relay) : Relay :=
  { r.forceOff with timeoutPending := true, alarm := none }

/-- The same controller at another time. -/
def setClock (r : Relay) (t : ℕ) : Relay := { r with clock := t }

/-- Time goes by.  An armed timer fires when its alarm value is reached. -/
def pass (r : Relay) (p : Preemption) : Relay :=
  match r.alarm with
  | none => r.setClock (r.clock + p.elapse)
  | some due =>
      if due ≤ r.clock + p.elapse then
        (r.setClock (max r.clock due)).onTimer.setClock (r.clock + p.elapse)
      else if p.fire then (r.setClock (r.clock + p.elapse)).onTimer
      else r.setClock (r.clock + p.elapse)

/-- `delay(ms)`: at least that long. -/
def delay (r : Relay) (ms : ℕ) (p : Preemption) : Relay :=
  r.pass { p with elapse := ms * 1000 + p.elapse }

/-- `disarmTimer()`. -/
def disarmTimer (r : Relay) : Relay := { r with alarm := none }

/-- `armTimer(holdMs)`: the counter starts from zero, in microseconds. -/
def armTimer (r : Relay) (holdMs : ℕ) : Relay := { r with alarm := some (r.clock + holdMs * 1000) }

/-- The break of `start` when it reverses a direction. -/
def breakBeforeMake (r : Relay) (previous requested : RelayDirection) (p : Preemption) : Relay :=
  if previous ≠ .stop ∧ requested ≠ .stop ∧ previous ≠ requested then
    r.delay breakBeforeMakeMs p
  else r

/-- The critical section of `start` that switches an output on. -/
def switchOn (r : Relay) (requested : RelayDirection) : Relay :=
  { r.writeRelay requested with direction := requested, timeoutPending := false }

/-- `start(requested, holdMs)`. -/
def start (r : Relay) (requested : RelayDirection) (holdMs : ℕ) (p : ℕ → Preemption) :
    RelayStartResult × Relay :=
  let r := r.disarmTimer.pass (p 1)
  let previous := r.direction
  let r := r.pass (p 2)
  if previous = requested then
    (.extended, (r.armTimer holdMs).pass (p 3))
  else
    let r := (r.forceOff.pass (p 3)).breakBeforeMake previous requested (p 4)
    let r := (r.switchOn requested).pass (p 5)
    (if previous = .stop then .started else .switched, (r.armTimer holdMs).pass (p 6))

/-- `stop()`. -/
def stop (r : Relay) (p : ℕ → Preemption) : Bool × Relay :=
  let r := r.disarmTimer.pass (p 1)
  let wasMoving := r.direction ≠ .stop
  (wasMoving, { r.forceOff with timeoutPending := false })

/-- `takeTimeoutEvent()`. -/
def takeTimeoutEvent (r : Relay) : Bool × Relay :=
  (r.timeoutPending, { r with timeoutPending := false })

/-- `direction()`. -/
def currentDirection (r : Relay) : RelayDirection × Relay := (r.direction, r)

end Relay

/-- `directionName()`. -/
def RelayDirection.name : RelayDirection → String
  | .up => "UP"
  | .down => "DOWN"
  | .stop => "STOP"

/-! ## Calls as steps -/

/-- The methods; `idle` is the time between two calls. -/
inductive RelayOp where
  | start (requested : RelayDirection) (holdMs : ℕ)
  | stop
  | direction
  | takeTimeoutEvent
  | idle
  deriving DecidableEq, Repr

/-- What a method returns. -/
abbrev RelayOp.Result : RelayOp → Type
  | .start _ _ => RelayStartResult
  | .stop => Bool
  | .direction => RelayDirection
  | .takeTimeoutEvent => Bool
  | .idle => Unit

/-- One method call, behind the time since the previous one. -/
def RelayOp.run (op : RelayOp) (p : ℕ → Preemption) (r : Relay) : op.Result × Relay :=
  match op with
  | .start requested holdMs => (r.pass (p 0)).start requested holdMs p
  | .stop => (r.pass (p 0)).stop p
  | .direction => (r.pass (p 0)).currentDirection
  | .takeTimeoutEvent => (r.pass (p 0)).takeTimeoutEvent
  | .idle => ((), r.pass (p 0))

/-- A call together with what happens around and inside it. -/
structure RelayCall where
  op : RelayOp
  preempt : ℕ → Preemption

/-- One call as a step; every call is possible in every state. -/
def relayStep (r : Relay) (call : RelayCall) : Option Relay :=
  some (call.op.run call.preempt r).2

/-- The state a sequence of calls leads to. -/
def replay (r : Relay) (calls : List RelayCall) : Relay :=
  calls.foldl (fun r call => (call.op.run call.preempt r).2) r

theorem exec_relayStep (r : Relay) (calls : List RelayCall) :
    Transition.exec relayStep r calls = some (replay r calls) := by
  induction calls generalizing r with
  | nil => rfl
  | cons call calls ih => exact ih _

/-- The calls the firmware makes: a start has a direction and a hold that
`parseControl` lets through. -/
def RelayOp.Legal : RelayOp → Prop
  | .start requested holdMs => requested ≠ .stop ∧ 50 ≤ holdMs ∧ holdMs ≤ 500
  | _ => True

/-! ## What a step does -/

namespace Relay

@[simp] theorem setClock_clock (r : Relay) (t : ℕ) : (r.setClock t).clock = t := rfl
@[simp] theorem setClock_alarm (r : Relay) (t : ℕ) : (r.setClock t).alarm = r.alarm := rfl
@[simp] theorem setClock_direction (r : Relay) (t : ℕ) :
    (r.setClock t).direction = r.direction := rfl
@[simp] theorem setClock_setClock (r : Relay) (t t' : ℕ) :
    (r.setClock t).setClock t' = r.setClock t' := rfl
@[simp] theorem disarmTimer_alarm (r : Relay) : r.disarmTimer.alarm = none := rfl
@[simp] theorem disarmTimer_clock (r : Relay) : r.disarmTimer.clock = r.clock := rfl
@[simp] theorem disarmTimer_direction (r : Relay) : r.disarmTimer.direction = r.direction := rfl
@[simp] theorem forceOff_alarm (r : Relay) : r.forceOff.alarm = r.alarm := rfl
@[simp] theorem forceOff_clock (r : Relay) : r.forceOff.clock = r.clock := rfl
@[simp] theorem switchOn_alarm (r : Relay) (d : RelayDirection) :
    (r.switchOn d).alarm = r.alarm := by cases d <;> rfl
@[simp] theorem switchOn_clock (r : Relay) (d : RelayDirection) :
    (r.switchOn d).clock = r.clock := by cases d <;> rfl

/-- With the timer idle only the clock moves. -/
theorem pass_of_idle {r : Relay} (h : r.alarm = none) (p : Preemption) :
    r.pass p = r.setClock (r.clock + p.elapse) := by
  rw [pass, h]

/-- Time leaves everything but the clock alone, or the timer fires at `t`. -/
theorem pass_cases (r : Relay) (p : Preemption) :
    r.pass p = r.setClock (r.clock + p.elapse) ∨
      ∃ t ≤ max r.clock (r.clock + p.elapse), r.clock ≤ t ∧
        r.pass p = (r.setClock t).onTimer.setClock (r.clock + p.elapse) := by
  unfold pass
  split
  · exact .inl rfl
  · rename_i due _
    split_ifs with hdue hfire
    · exact .inr ⟨max r.clock due, by omega, by omega, rfl⟩
    · exact .inr ⟨r.clock + p.elapse, by omega, by omega, rfl⟩
    · exact .inl rfl

@[simp] theorem clock_pass (r : Relay) (p : Preemption) :
    (r.pass p).clock = r.clock + p.elapse := by
  rcases pass_cases r p with h | ⟨t, _, _, h⟩ <;> rw [h, setClock_clock]

/-- The interrupt only ever stops. -/
theorem direction_pass (r : Relay) (p : Preemption) :
    (r.pass p).direction = r.direction ∨ (r.pass p).direction = .stop := by
  rcases pass_cases r p with h | ⟨t, _, _, h⟩
  · exact .inl (by rw [h, setClock_direction])
  · exact .inr (by rw [h]; rfl)

theorem stop_eq (r : Relay) (p : ℕ → Preemption) :
    (r.stop p).2 = { (r.disarmTimer.setClock (r.clock + (p 1).elapse)).forceOff with
      timeoutPending := false } := by
  rw [stop, pass_of_idle r.disarmTimer_alarm, disarmTimer_clock]

/-- With the timer idle the break only takes time. -/
theorem breakBeforeMake_of_idle {r : Relay} (h : r.alarm = none)
    (previous requested : RelayDirection) (p : Preemption) :
    ∃ t, r.clock ≤ t ∧ r.breakBeforeMake previous requested p = r.setClock t ∧
      (previous ≠ .stop → requested ≠ .stop → previous ≠ requested →
        r.clock + breakBeforeMakeMs * 1000 ≤ t) := by
  unfold breakBeforeMake
  split_ifs with hbreak
  · refine ⟨r.clock + (breakBeforeMakeMs * 1000 + p.elapse), by omega, ?_, by omega⟩
    rw [delay, pass_of_idle h]
  · exact ⟨r.clock, le_rfl, rfl, fun h₁ h₂ h₃ => absurd ⟨h₁, h₂, h₃⟩ hbreak⟩

/-- **What `start` can do.**  Either the direction is kept and only the timer is
armed anew at `t`; or both outputs go off at `t₁`, the requested one goes on at
`t₂`, and the timer is armed at `t₃`.  Between `t₁` and `t₂` lies the break, but
only if the direction variable says that the relay was moving. -/
theorem start_cases (r : Relay) (requested : RelayDirection) (holdMs : ℕ) (p : ℕ → Preemption) :
    (r.direction = requested ∧ ∃ t, r.clock ≤ t ∧ (r.start requested holdMs p).2 =
      ((r.disarmTimer.setClock t).armTimer holdMs).pass (p 3)) ∨
    (r.direction ≠ requested ∧ ∃ t₁ t₂ t₃, r.clock ≤ t₁ ∧ t₁ ≤ t₂ ∧ t₂ ≤ t₃ ∧
      (r.direction ≠ .stop → requested ≠ .stop → t₁ + breakBeforeMakeMs * 1000 ≤ t₂) ∧
      (r.start requested holdMs p).2 =
        (((((r.disarmTimer.setClock t₁).forceOff.setClock t₂).switchOn requested).setClock
          t₃).armTimer holdMs).pass (p 6)) := by
  have hfirst : r.disarmTimer.pass (p 1) = r.disarmTimer.setClock (r.clock + (p 1).elapse) :=
    pass_of_idle r.disarmTimer_alarm _
  have hread : (r.disarmTimer.pass (p 1)).pass (p 2) =
      r.disarmTimer.setClock (r.clock + (p 1).elapse + (p 2).elapse) := by
    rw [hfirst, pass_of_idle (by simp), setClock_setClock, setClock_clock]
  have hdir : (r.disarmTimer.pass (p 1)).direction = r.direction := by
    rw [hfirst, setClock_direction, disarmTimer_direction]
  by_cases hsame : r.direction = requested
  · refine .inl ⟨hsame, r.clock + (p 1).elapse + (p 2).elapse, by omega, ?_⟩
    simp only [start, hread, hdir, if_pos hsame]
  · have hoff : (r.disarmTimer.setClock (r.clock + (p 1).elapse + (p 2).elapse)).forceOff.pass
        (p 3) = (r.disarmTimer.setClock (r.clock + (p 1).elapse + (p 2).elapse)).forceOff.setClock
          (r.clock + (p 1).elapse + (p 2).elapse + (p 3).elapse) := pass_of_idle rfl _
    obtain ⟨t₂, ht₂, hbreak, hgap⟩ := breakBeforeMake_of_idle (show
      ((r.disarmTimer.setClock (r.clock + (p 1).elapse + (p 2).elapse)).forceOff.setClock
        (r.clock + (p 1).elapse + (p 2).elapse + (p 3).elapse)).alarm = none from rfl)
      r.direction requested (p 4)
    rw [setClock_clock] at ht₂ hgap
    have hon : (((r.disarmTimer.setClock (r.clock + (p 1).elapse + (p 2).elapse)).forceOff.setClock
        t₂).switchOn requested).pass (p 5) =
        (((r.disarmTimer.setClock (r.clock + (p 1).elapse + (p 2).elapse)).forceOff.setClock
          t₂).switchOn requested).setClock (t₂ + (p 5).elapse) := by
      rw [pass_of_idle (by rw [switchOn_alarm]; rfl), switchOn_clock, setClock_clock]
    refine .inr ⟨hsame, r.clock + (p 1).elapse + (p 2).elapse, t₂, t₂ + (p 5).elapse, by omega,
      by omega, by omega, ?_, ?_⟩
    · intro h₁ h₂
      exact le_trans (Nat.add_le_add_right (Nat.le_add_right _ _) _) (hgap h₁ h₂ hsame)
    · simp only [start, hread, hdir, if_neg hsame, hoff, hbreak, setClock_setClock, hon]

theorem direction_stop (r : Relay) (p : ℕ → Preemption) : (r.stop p).2.direction = .stop := rfl

/-- After `start` the direction is the requested one, unless the deadline has
passed already. -/
theorem direction_start (r : Relay) (requested : RelayDirection) (holdMs : ℕ)
    (p : ℕ → Preemption) :
    (r.start requested holdMs p).2.direction = requested ∨
      (r.start requested holdMs p).2.direction = .stop := by
  rcases start_cases r requested holdMs p with ⟨hsame, t, _, h⟩ | ⟨_, t₁, t₂, t₃, _, _, _, _, h⟩
  · rw [h, ← hsame]
    exact direction_pass _ _
  · rw [h]
    exact direction_pass _ _

end Relay

/-- No call but a start sets the relay in motion. -/
theorem RelayOp.direction_run (op : RelayOp) (p : ℕ → Preemption) (r : Relay) :
    (op.run p r).2.direction = .stop ∨ (op.run p r).2.direction = r.direction ∨
      ∃ d holdMs, op = .start d holdMs ∧ (op.run p r).2.direction = d := by
  cases op with
  | start d holdMs =>
    rcases Relay.direction_start (r.pass (p 0)) d holdMs p with h | h
    · exact .inr (.inr ⟨d, holdMs, rfl, h⟩)
    · exact .inl h
  | stop => exact .inl rfl
  | direction => exact (Relay.direction_pass r (p 0)).symm.imp_right .inl
  | takeTimeoutEvent => exact (Relay.direction_pass r (p 0)).symm.imp_right .inl
  | idle => exact (Relay.direction_pass r (p 0)).symm.imp_right .inl

end SmartDesk.Firmware
