import SmartDesk.Firmware.Relay

/-!
# What holds of the relay outputs

The invariant of the controller between two calls, and what the log of output
changes says.

* `Steady` — levels, direction variable, timeout flag and log agree; this holds
  inside the methods too.
* `Sound` — between two calls a moving relay also has its timer armed.
* `NeverTogether` — at no moment of the log are both outputs on.
* `BreakBeforeMake` — 30 ms lie between an output going off and the opposite one
  going on.
* `sound_replay` — **every sequence of calls keeps the invariant.**
* `breakBeforeMake_replay` — it keeps the break as well, provided every start
  finds the reversed output switched off long enough or still marked as moving.
-/

namespace SmartDesk.Firmware

/-- The level of an output after the changes of a log. -/
def isOn (o : Output) : List Edge → Bool
  | [] => false
  | e :: older => if e.output = o then e.on else isOn o older

/-- At no moment of the log are both outputs on. -/
def NeverTogether (log : List Edge) : Prop :=
  ∀ moment, moment <:+ log → ¬ (isOn .up moment = true ∧ isOn .down moment = true)

/-- An output goes on no sooner than 30 ms after the opposite one went off. -/
def BreakBeforeMake (log : List Edge) : Prop :=
  log.Pairwise fun later earlier => later.on = true → earlier.on = false →
    earlier.output ≠ later.output → earlier.time + breakBeforeMakeMs * 1000 ≤ later.time

instance (log : List Edge) : Decidable (BreakBeforeMake log) :=
  inferInstanceAs (Decidable (log.Pairwise _))

/-- The direction that an output moves the desk in. -/
def Output.direction : Output → RelayDirection
  | .up => .up
  | .down => .down

/-- The level of an output of the controller. -/
def Relay.level (r : Relay) : Output → Bool
  | .up => r.upOn
  | .down => r.downOn

/-- The levels that belong to a direction. -/
def levelsOf (d : RelayDirection) (o : Output) : Bool := decide (o.direction = d)

/-- The log records the levels of a direction, and all of it lies in the past. -/
structure Recorded (d : RelayDirection) (log : List Edge) (clock : ℕ) : Prop where
  levels : ∀ o, isOn o log = levelsOf d o
  past : ∀ e ∈ log, e.time ≤ clock
  together : NeverTogether log

/-- Levels, direction, timeout flag and log agree. -/
structure Steady (r : Relay) : Prop where
  level : ∀ o, r.level o = levelsOf r.direction o
  timeout : r.timeoutPending = true → r.direction = .stop
  recorded : Recorded r.direction r.log r.clock

/-- A relay in motion has its timer armed, for a time at most `holdMs` away. -/
def Deadline (holdMs : ℕ) (r : Relay) : Prop :=
  r.direction ≠ .stop → ∃ due, r.alarm = some due ∧ r.clock < due ∧ due ≤ r.clock + holdMs * 1000

/-- The invariant between two calls, `holdMs` being the last hold asked for. -/
structure Sound (holdMs : ℕ) (r : Relay) : Prop extends Steady r where
  deadline : Deadline holdMs r

/-! ## The log -/

/-- One more change, which leads from the levels of one direction to those of
another. -/
theorem Recorded.edge {d d' : RelayDirection} {log : List Edge} {clock : ℕ}
    (h : Recorded d log clock) (o : Output) (on : Bool)
    (hd : ∀ x, (if o = x then on else levelsOf d x) = levelsOf d' x) :
    Recorded d' (⟨clock, o, on⟩ :: log) clock := by
  have hlevels : ∀ x, isOn x (⟨clock, o, on⟩ :: log) = levelsOf d' x := by
    intro x
    rw [← hd x, isOn, h.levels]
  refine ⟨hlevels, List.forall_mem_cons.mpr ⟨le_rfl, h.past⟩, ?_⟩
  intro moment hm
  rcases List.suffix_cons_iff.mp hm with rfl | hm
  · rw [hlevels, hlevels]
    cases d' <;> simp [levelsOf, Output.direction]
  · exact h.together moment hm

theorem Recorded.later {d : RelayDirection} {log : List Edge} {t t' : ℕ} (h : Recorded d log t)
    (ht : t ≤ t') : Recorded d log t' :=
  { h with past := fun e he => le_trans (h.past e he) ht }

/-- The output that a moving relay switches off is the one that moves it. -/
theorem log_forceOff {r : Relay} (h : ∀ o, r.level o = levelsOf r.direction o) :
    r.forceOff.log = r.log ∧ r.direction = .stop ∨
      ∃ o, r.direction = o.direction ∧ r.forceOff.log = ⟨r.clock, o, false⟩ :: r.log := by
  have hup := h .up
  have hdown := h .down
  cases hd : r.direction <;> rw [hd] at hup hdown
  · refine .inl ⟨?_, rfl⟩
    simp_all [Relay.forceOff, Relay.setOutputs, Relay.edges, Relay.level, levelsOf,
      Output.direction]
  · refine .inr ⟨.up, rfl, ?_⟩
    simp_all [Relay.forceOff, Relay.setOutputs, Relay.edges, Relay.level, levelsOf,
      Output.direction]
  · refine .inr ⟨.down, rfl, ?_⟩
    simp_all [Relay.forceOff, Relay.setOutputs, Relay.edges, Relay.level, levelsOf,
      Output.direction]

/-- Switching on from rest adds one change. -/
theorem log_switchOn {r : Relay} (h : ∀ o, r.level o = levelsOf .stop o) (o : Output) :
    (r.switchOn o.direction).log = ⟨r.clock, o, true⟩ :: r.log := by
  have hup := h .up
  have hdown := h .down
  cases o <;>
    simp_all [Relay.switchOn, Relay.writeRelay, Relay.setOutputs, Relay.edges, Relay.level,
      levelsOf, Output.direction]

/-! ## Steps that keep the outputs in agreement -/

namespace Steady

theorem setClock {r : Relay} (h : Steady r) {t : ℕ} (ht : r.clock ≤ t) : Steady (r.setClock t) :=
  ⟨h.level, h.timeout, h.recorded.later ht⟩

theorem disarmTimer {r : Relay} (h : Steady r) : Steady r.disarmTimer :=
  ⟨h.level, h.timeout, h.recorded⟩

theorem armTimer {r : Relay} (h : Steady r) (holdMs : ℕ) : Steady (r.armTimer holdMs) :=
  ⟨h.level, h.timeout, h.recorded⟩

theorem clearTimeout {r : Relay} (h : Steady r) : Steady { r with timeoutPending := false } :=
  ⟨h.level, fun hf => absurd hf (by simp), h.recorded⟩

theorem forceOff {r : Relay} (h : Steady r) : Steady r.forceOff := by
  refine ⟨fun o => by cases o <;> rfl, fun _ => rfl, ?_⟩
  rcases log_forceOff h.level with ⟨hlog, hd⟩ | ⟨o, hd, hlog⟩
  · have hrec := h.recorded
    rw [hd] at hrec
    rw [hlog]
    exact hrec
  · rw [hlog]
    refine h.recorded.edge o false fun x => ?_
    rw [hd]
    cases o <;> cases x <;> rfl

theorem onTimer {r : Relay} (h : Steady r) : Steady r.onTimer :=
  ⟨h.forceOff.level, fun _ => rfl, h.forceOff.recorded⟩

theorem pass {r : Relay} (h : Steady r) (p : Preemption) : Steady (r.pass p) := by
  rcases r.pass_cases p with hp | ⟨t, ht, hle, hp⟩
  · rw [hp]
    exact h.setClock (by omega)
  · rw [hp]
    refine (h.setClock hle).onTimer.setClock ?_
    show t ≤ _
    omega

theorem switchOn {r : Relay} (h : Steady r) (hstop : r.direction = .stop) (o : Output) :
    Steady (r.switchOn o.direction) := by
  have hlevel : ∀ x, r.level x = levelsOf .stop x := hstop ▸ h.level
  refine ⟨?_, fun hf => ?_, ?_⟩
  · intro x
    have hx := hlevel x
    cases o <;> cases x <;>
      simp_all [Relay.switchOn, Relay.writeRelay, Relay.setOutputs, Relay.level, levelsOf,
        Output.direction]
  · simp [Relay.switchOn] at hf
  · rw [log_switchOn hlevel, Relay.switchOn_clock]
    refine h.recorded.edge o true fun x => ?_
    rw [hstop]
    cases o <;> cases x <;> rfl

end Steady

/-! ## The deadline -/

theorem deadline_of_stop {r : Relay} (holdMs : ℕ) (h : r.direction = .stop) : Deadline holdMs r :=
  fun hd => absurd h hd

theorem deadline_armTimer (r : Relay) {holdMs : ℕ} (h : 0 < holdMs) :
    Deadline holdMs (r.armTimer holdMs) := by
  intro _
  refine ⟨_, rfl, ?_, le_rfl⟩
  show r.clock < r.clock + holdMs * 1000
  omega

theorem Deadline.pass {holdMs : ℕ} {r : Relay} (h : Deadline holdMs r) (p : Preemption) :
    Deadline holdMs (r.pass p) := by
  by_cases hd : r.direction = .stop
  · refine deadline_of_stop holdMs ?_
    rcases r.direction_pass p with hp | hp
    · exact hp.trans hd
    · exact hp
  · obtain ⟨due, halarm, hlt, hle⟩ := h hd
    simp only [Relay.pass, halarm]
    split_ifs with hnow hfire
    · exact deadline_of_stop holdMs rfl
    · exact deadline_of_stop holdMs rfl
    · refine fun _ => ⟨due, halarm, ?_, ?_⟩ <;> rw [Relay.setClock_clock] <;> omega

/-! ## Calls -/

theorem Sound.pass {holdMs : ℕ} {r : Relay} (h : Sound holdMs r) (p : Preemption) :
    Sound holdMs (r.pass p) :=
  ⟨h.toSteady.pass p, h.deadline.pass p⟩

theorem Steady.stop {r : Relay} (h : Steady r) (p : ℕ → Preemption) : Steady (r.stop p).2 := by
  rw [Relay.stop_eq]
  exact ((h.disarmTimer.setClock (by simp)).forceOff).clearTimeout

theorem Sound.stop {r : Relay} (h : Steady r) (holdMs : ℕ) (p : ℕ → Preemption) :
    Sound holdMs (r.stop p).2 :=
  ⟨h.stop p, deadline_of_stop holdMs (r.direction_stop p)⟩

theorem exists_output {d : RelayDirection} (h : d ≠ .stop) : ∃ o : Output, d = o.direction := by
  cases d with
  | stop => exact absurd rfl h
  | up => exact ⟨.up, rfl⟩
  | down => exact ⟨.down, rfl⟩

/-- A start leaves the relay sound for the hold it asks for. -/
theorem Sound.start {r : Relay} (h : Steady r) {requested : RelayDirection} {holdMs : ℕ}
    (hd : requested ≠ .stop) (hhold : 0 < holdMs) (p : ℕ → Preemption) :
    Sound holdMs (r.start requested holdMs p).2 := by
  obtain ⟨o, rfl⟩ := exists_output hd
  rcases r.start_cases o.direction holdMs p with
    ⟨_, t, ht, heq⟩ | ⟨_, t₁, t₂, t₃, h₁, h₂, h₃, _, heq⟩
  · rw [heq]
    have hs : Steady ((r.disarmTimer.setClock t).armTimer holdMs) :=
      (h.disarmTimer.setClock ht).armTimer holdMs
    exact Sound.pass ⟨hs, deadline_armTimer _ hhold⟩ _
  · rw [heq]
    have hoff : Steady ((r.disarmTimer.setClock t₁).forceOff.setClock t₂) :=
      (h.disarmTimer.setClock h₁).forceOff.setClock h₂
    have hon := (hoff.switchOn rfl o).setClock (t := t₃) (by simpa using h₃)
    exact Sound.pass ⟨hon.armTimer holdMs, deadline_armTimer _ hhold⟩ _

/-- The hold that counts after a call. -/
def RelayOp.holdAfter : RelayOp → ℕ → ℕ
  | .start _ holdMs, _ => holdMs
  | _, before => before

/-- **One call keeps the invariant.** -/
theorem Sound.run {holdMs : ℕ} {r : Relay} (h : Sound holdMs r) {op : RelayOp} (hop : op.Legal)
    (p : ℕ → Preemption) : Sound (op.holdAfter holdMs) (op.run p r).2 := by
  have hpass := h.pass (p 0)
  cases op with
  | start requested m =>
    obtain ⟨hd, hlow, _⟩ : requested ≠ .stop ∧ 50 ≤ m ∧ m ≤ 500 := hop
    exact Sound.start hpass.toSteady hd (by omega : 0 < m) p
  | stop => exact Sound.stop hpass.toSteady holdMs p
  | direction => exact hpass
  | takeTimeoutEvent => exact ⟨hpass.toSteady.clearTimeout, hpass.deadline⟩
  | idle => exact hpass

/-- The last hold asked for in a sequence of calls. -/
def lastHold (calls : List RelayCall) : ℕ :=
  calls.foldl (fun before call => call.op.holdAfter before) 0

/-- While the relay moves, the last hold was one of a legal start. -/
theorem lastHold_bounds {calls : List RelayCall} (hcalls : ∀ call ∈ calls, call.op.Legal) :
    lastHold calls = 0 ∨ 50 ≤ lastHold calls ∧ lastHold calls ≤ 500 := by
  induction calls using List.reverseRecOn with
  | nil => exact .inl rfl
  | append_singleton calls call ih =>
    have hlast := hcalls call (by simp)
    have hrest := ih fun c hc => hcalls c (by simp [hc])
    rw [lastHold, List.foldl_append]
    obtain ⟨op, preempt⟩ := call
    cases op with
    | start requested m => exact .inr hlast.2
    | stop => exact hrest
    | direction => exact hrest
    | takeTimeoutEvent => exact hrest
    | idle => exact hrest

theorem sound_boot : Sound 0 Relay.boot :=
  { level := fun o => by cases o <;> rfl
    timeout := fun _ => rfl
    recorded := ⟨fun o => by cases o <;> rfl, by simp [Relay.boot], fun moment hm => by
      rw [List.suffix_nil.mp hm]
      simp [isOn]⟩
    deadline := deadline_of_stop 0 rfl }

/-- **Every sequence of calls keeps the invariant.** -/
theorem sound_replay {calls : List RelayCall} (hcalls : ∀ call ∈ calls, call.op.Legal) :
    Sound (lastHold calls) (replay Relay.boot calls) := by
  induction calls using List.reverseRecOn with
  | nil => exact sound_boot
  | append_singleton calls call ih =>
    have hlast := hcalls call (by simp)
    have hrest := ih fun c hc => hcalls c (by simp [hc])
    rw [lastHold, replay, List.foldl_append, List.foldl_append]
    exact hrest.run hlast call.preempt

/-! ## Without further starts -/

/-- Calls that are not a start. -/
def RelayOp.NotStart (op : RelayOp) : Prop := ∀ requested holdMs, op ≠ .start requested holdMs

/-- A relay that is still moving after some time was moving before, under the
same alarm. -/
theorem alarm_of_moving_pass {r : Relay} {p : Preemption} (h : (r.pass p).direction ≠ .stop) :
    r.direction ≠ .stop ∧ (r.pass p).alarm = r.alarm := by
  rcases r.pass_cases p with hp | ⟨t, _, _, hp⟩
  · rw [hp] at h ⊢
    exact ⟨h, rfl⟩
  · rw [hp] at h
    exact absurd rfl h

theorem alarm_of_moving_run {r : Relay} {op : RelayOp} (hop : op.NotStart) {p : ℕ → Preemption}
    (h : (op.run p r).2.direction ≠ .stop) :
    r.direction ≠ .stop ∧ (op.run p r).2.alarm = r.alarm := by
  cases op with
  | start requested holdMs => exact absurd rfl (hop requested holdMs)
  | stop => exact absurd rfl h
  | direction => exact alarm_of_moving_pass h
  | takeTimeoutEvent => exact alarm_of_moving_pass h
  | idle => exact alarm_of_moving_pass h

theorem alarm_of_moving_replay {calls : List RelayCall} (hcalls : ∀ call ∈ calls, call.op.NotStart)
    {r : Relay} (h : (replay r calls).direction ≠ .stop) :
    r.direction ≠ .stop ∧ (replay r calls).alarm = r.alarm := by
  induction calls generalizing r with
  | nil => exact ⟨h, rfl⟩
  | cons call calls ih =>
    obtain ⟨hmoving, halarm⟩ := ih (fun c hc => hcalls c (by simp [hc])) h
    obtain ⟨hbefore, hsame⟩ := alarm_of_moving_run (hcalls call (by simp)) hmoving
    exact ⟨hbefore, halarm.trans hsame⟩

theorem RelayOp.NotStart.legal {op : RelayOp} (h : op.NotStart) : op.Legal := by
  cases op with
  | start requested holdMs => exact absurd rfl (h requested holdMs)
  | stop => trivial
  | direction => trivial
  | takeTimeoutEvent => trivial
  | idle => trivial

theorem Sound.replay {holdMs : ℕ} {r : Relay} (h : Sound holdMs r) {calls : List RelayCall}
    (hcalls : ∀ call ∈ calls, call.op.NotStart) : Sound holdMs (replay r calls) := by
  induction calls generalizing r with
  | nil => exact h
  | cons call calls ih =>
    have hcall := hcalls call (by simp)
    have hrun := h.run hcall.legal call.preempt
    have hhold : call.op.holdAfter holdMs = holdMs := by
      cases hop : call.op with
      | start requested m => exact absurd hop (hcall requested m)
      | stop => rfl
      | direction => rfl
      | takeTimeoutEvent => rfl
      | idle => rfl
    rw [hhold] at hrun
    exact ih hrun fun c hc => hcalls c (by simp [hc])

/-- **Without a further start the relay is at rest once the hold has passed.** -/
theorem Sound.rest {holdMs : ℕ} {r : Relay} (h : Sound holdMs r) {calls : List RelayCall}
    (hcalls : ∀ call ∈ calls, call.op.NotStart)
    (htime : r.clock + holdMs * 1000 ≤ (SmartDesk.Firmware.replay r calls).clock) :
    (SmartDesk.Firmware.replay r calls).direction = .stop := by
  by_contra hmoving
  obtain ⟨hbefore, halarm⟩ := alarm_of_moving_replay hcalls hmoving
  obtain ⟨due, hdue, _, hle⟩ := h.deadline hbefore
  obtain ⟨due', hdue', hlt, _⟩ := (h.replay hcalls).deadline hmoving
  have hsame : due' = due := by
    rw [halarm, hdue] at hdue'
    exact (Option.some.inj hdue').symm
  omega

/-! ## The break -/

/-- What a start of `requested` finds: the relay is still marked as moving, or
the opposite output has been off for 30 ms. -/
def ReverseSafe (requested : RelayDirection) (r : Relay) : Prop :=
  r.direction ≠ .stop ∨ ∀ e ∈ r.log, e.on = false → e.output.direction ≠ requested →
    e.time + breakBeforeMakeMs * 1000 ≤ r.clock

instance (requested : RelayDirection) (r : Relay) : Decidable (ReverseSafe requested r) :=
  inferInstanceAs (Decidable (_ ∨ _))

/-- The condition on a call: a start meets `ReverseSafe` when its body begins. -/
def ReversesSafely (r : Relay) (call : RelayCall) : Prop :=
  ∀ requested holdMs, call.op = .start requested holdMs →
    ReverseSafe requested (r.pass (call.preempt 0))

instance (r : Relay) : DecidablePred (ReversesSafely r)
  | ⟨.start requested holdMs, preempt⟩ =>
      decidable_of_iff (ReverseSafe requested (r.pass (preempt 0)))
        ⟨fun h requested' holdMs' heq => by cases heq; exact h, fun h => h requested holdMs rfl⟩
  | ⟨.stop, _⟩ => isTrue fun _ _ heq => by cases heq
  | ⟨.direction, _⟩ => isTrue fun _ _ heq => by cases heq
  | ⟨.takeTimeoutEvent, _⟩ => isTrue fun _ _ heq => by cases heq
  | ⟨.idle, _⟩ => isTrue fun _ _ heq => by cases heq

theorem BreakBeforeMake.off {log : List Edge} (h : BreakBeforeMake log) (t : ℕ) (o : Output) :
    BreakBeforeMake (⟨t, o, false⟩ :: log) :=
  List.pairwise_cons.mpr ⟨fun _ _ hon => absurd hon (by simp), h⟩

theorem BreakBeforeMake.on {log : List Edge} (h : BreakBeforeMake log) {t : ℕ} {o : Output}
    (hgap : ∀ e ∈ log, e.on = false → e.output ≠ o → e.time + breakBeforeMakeMs * 1000 ≤ t) :
    BreakBeforeMake (⟨t, o, true⟩ :: log) :=
  List.pairwise_cons.mpr ⟨fun e he _ hoff hne => hgap e he hoff hne, h⟩

theorem breakBeforeMake_forceOff {r : Relay} (hs : Steady r) (h : BreakBeforeMake r.log) :
    BreakBeforeMake r.forceOff.log := by
  rcases log_forceOff hs.level with ⟨hlog, _⟩ | ⟨o, _, hlog⟩
  · rw [hlog]
    exact h
  · rw [hlog]
    exact h.off _ o

theorem breakBeforeMake_pass {r : Relay} (hs : Steady r) (h : BreakBeforeMake r.log)
    (p : Preemption) : BreakBeforeMake (r.pass p).log := by
  rcases r.pass_cases p with hp | ⟨t, _, hle, hp⟩
  · rw [hp]
    exact h
  · rw [hp]
    exact breakBeforeMake_forceOff (hs.setClock hle) h

theorem breakBeforeMake_start {r : Relay} (hs : Steady r) (h : BreakBeforeMake r.log)
    {requested : RelayDirection} (hd : requested ≠ .stop) (hsafe : ReverseSafe requested r)
    {holdMs : ℕ} (p : ℕ → Preemption) :
    BreakBeforeMake (r.start requested holdMs p).2.log := by
  obtain ⟨o, rfl⟩ := exists_output hd
  rcases r.start_cases o.direction holdMs p with
    ⟨_, t, ht, heq⟩ | ⟨hne, t₁, t₂, t₃, h₁, h₂, h₃, hbreak, heq⟩
  · rw [heq]
    exact breakBeforeMake_pass ((hs.disarmTimer.setClock ht).armTimer holdMs) h _
  · have hread : Steady (r.disarmTimer.setClock t₁) := hs.disarmTimer.setClock h₁
    have hoff : Steady ((r.disarmTimer.setClock t₁).forceOff.setClock t₂) :=
      hread.forceOff.setClock h₂
    have hon := (hoff.switchOn rfl o).setClock (t := t₃) (by simpa using h₃)
    rw [heq]
    refine breakBeforeMake_pass (hon.armTimer holdMs) ?_ _
    show BreakBeforeMake (Relay.switchOn _ o.direction).log
    rw [log_switchOn hoff.level]
    refine (breakBeforeMake_forceOff hread h).on fun e he heoff hother => ?_
    show e.time + _ ≤ t₂
    have hpast : e.time ≤ t₁ := hread.forceOff.recorded.past e he
    by_cases hmoving : r.direction = .stop
    · -- the relay was at rest: nothing was switched off now, and the rest was long enough
      have hlog : (r.disarmTimer.setClock t₁).forceOff.log = r.log := by
        rcases log_forceOff hread.level with ⟨hlog, _⟩ | ⟨x, hx, _⟩
        · exact hlog
        · rw [Relay.setClock_direction, Relay.disarmTimer_direction, hmoving] at hx
          cases x <;> cases hx
      rw [hlog] at he
      have hother' : e.output.direction ≠ o.direction := fun heq => hother (by
        cases ho : e.output <;> cases o <;> simp_all [Output.direction])
      have hwait := hsafe.resolve_left (fun hm => hm hmoving) e he heoff hother'
      exact le_trans hwait (le_trans h₁ h₂)
    · exact le_trans (Nat.add_le_add_right hpast _) (hbreak hmoving hd)

/-- **One call keeps the break**, if a start meets the condition. -/
theorem breakBeforeMake_run {holdMs : ℕ} {r : Relay} (hs : Sound holdMs r)
    (h : BreakBeforeMake r.log) {call : RelayCall} (hop : call.op.Legal)
    (hsafe : ReversesSafely r call) :
    BreakBeforeMake (call.op.run call.preempt r).2.log := by
  have hpass := breakBeforeMake_pass hs.toSteady h (call.preempt 0)
  have hsteady := hs.toSteady.pass (call.preempt 0)
  obtain ⟨op, preempt⟩ := call
  cases op with
  | start requested m =>
    exact breakBeforeMake_start hsteady hpass hop.1 (hsafe requested m rfl) preempt
  | stop =>
    rw [RelayOp.run, Relay.stop_eq]
    exact breakBeforeMake_forceOff (hsteady.disarmTimer.setClock (by simp)) hpass
  | direction => exact hpass
  | takeTimeoutEvent => exact hpass
  | idle => exact hpass

/-- **A sequence of calls whose starts meet the condition keeps the break.** -/
theorem breakBeforeMake_replay {calls : List RelayCall} (hcalls : ∀ call ∈ calls, call.op.Legal)
    (hsafe : Transition.Meets relayStep ReversesSafely Relay.boot calls) :
    BreakBeforeMake (replay Relay.boot calls).log := by
  have hstep : ∀ r call r', ((∃ holdMs, Sound holdMs r) ∧ BreakBeforeMake r.log) →
      (call.op.Legal ∧ ReversesSafely r call) → relayStep r call = some r' →
      (∃ holdMs, Sound holdMs r') ∧ BreakBeforeMake r'.log := by
    rintro r call r' ⟨⟨holdMs, hs⟩, h⟩ ⟨hop, hsafe⟩ he
    cases he
    exact ⟨⟨_, hs.run hop call.preempt⟩, breakBeforeMake_run hs h hop hsafe⟩
  exact (Transition.invariant_of_meets hstep ⟨⟨0, sound_boot⟩, List.Pairwise.nil⟩
    (hsafe.and_labels hcalls) (exec_relayStep Relay.boot calls)).2

end SmartDesk.Firmware
