import SmartDesk.Lib.Continuation
import SmartDesk.Desk.Contracts

/-!
# An invalid target stops the motion

`set_target`, `increase_target` and `decrease_target` refuse values that are no targets or
amounts.  An active motion is to be stopped before the exception is raised.

* `refused` — the call has no valid target with the control state that it finds.
* `StoppedFirst` — the motion that the call found is stopped by its own STOP.
* `invalid_not_stopped` — an `int` beyond all floats is refused without a STOP.
* `refused_stops_iff` — a refused call installs no intent; **it raises only after its STOP,
  exactly if** its value raises nothing but a `TypeError` or a `ValueError` and its STOP
  task starts alone.
-/

namespace SmartDesk.Desk

open Coroutine Code

variable {settings : DeskSettings}

/-! ## The intent lock is awaited once -/

/-- Any await but the one with which a motion operation begins. -/
def NotEntry (w : Wait deskSignature) : Prop := w ≠ .lock .intent none

section Awaits

variable {α β : Type}

theorem awaits_bind {c : Code α} {f : α → Code β} (h : c.Awaits NotEntry)
    (h' : ∀ a, (f a).Awaits NotEntry) : (c >>= f).Awaits NotEntry := Prog.awaits_bind h h'

theorem awaits_exceptError {c : Code α} {handler : Exc → Code α} (h : c.Awaits NotEntry)
    (h' : ∀ e, (handler e).Awaits NotEntry) : (exceptError c handler).Awaits NotEntry := by
  refine Prog.awaits_attempt h fun e => ?_
  cases e with
  | cancelled => exact trivial
  | error e => exact h' e

theorem awaits_modify (f : DeskController → DeskController) : (modify f).Awaits NotEntry :=
  fun _ => trivial

theorem awaits_modifyNote (f : DeskController → DeskController) (event : DeskController → Event) :
    (modifyNote f event).Awaits NotEntry := fun _ => trivial

theorem awaits_call (call : RelayCall) : (Prog.wait (.call call) : Code Value).Awaits NotEntry :=
  Prog.awaits_wait fun h => by cases h

end Awaits

theorem awaits_stopMotion (detail : String) (errorDetail : Option String) :
    (stopMotion detail errorDetail).Awaits NotEntry := by
  refine Prog.awaits_bind (fun _ => trivial) fun u => ?_
  have hshield : NotEntry (.shield u) := fun h => by cases h
  have hgather : NotEntry (.gather u) := fun h => by cases h
  refine Prog.awaits_bind (Prog.awaits_attempt (Prog.awaits_wait hshield) fun e => ?_)
    fun stopError => ?_
  · cases e with
    | cancelled => exact Prog.awaits_bind (Prog.awaits_wait hgather) fun _ => trivial
    | error e => exact trivial
  · split <;> exact trivial

theorem awaits_sendStopBounded (latched : Bool) (baseline : Option Instant) :
    (sendStopBounded latched baseline).Awaits NotEntry := by
  refine awaits_exceptError (Prog.awaits_withLock (fun h => by cases h) ?_) fun _ => trivial
  refine Prog.awaits_bind (fun _ => trivial) fun t => awaits_bind (awaits_modifyNote _ _) fun _ => ?_
  exact awaits_bind (awaits_call _) fun _ => trivial

theorem awaits_waitForFreshStop (baseline : Option Instant) :
    (waitForFreshStop settings baseline).Awaits NotEntry := by
  refine awaits_bind reads_monotonic.awaits fun started => awaits_bind ?_ fun value => ?_
  · refine awaits_bind reads_monotonic.awaits fun current => ?_
    split
    · refine awaits_bind reads_relay.awaits fun snapshot => ?_
      split
      · exact trivial
      · refine awaits_bind reads_monotonic.awaits fun later => ?_
        split <;> exact trivial
    · exact trivial
  · cases value with
    | some value => exact trivial
    | none => exact awaits_call _

theorem awaits_confirmStop (detail : String) (errorDetail : Option String)
    (baseline : Option Instant) :
    (confirmStop settings detail errorDetail baseline).Awaits NotEntry := by
  refine Prog.awaits_bind (fun _ => trivial) fun t => awaits_bind ?_ fun stopError => ?_
  · refine awaits_bind (awaits_sendStopBounded _ _) fun failure => ?_
    cases failure with
    | some text => exact trivial
    | none => exact awaits_waitForFreshStop _
  · refine awaits_bind ?_ fun _ => awaits_bind reads_now.awaits fun _ =>
      awaits_bind (awaits_modify _) fun _ => trivial
    cases stopError with
    | stop status => exact fun _ => trivial
    | none => exact trivial
    | error text => exact trivial

theorem awaits_stopForTransition (detail : String) :
    (stopForTransition settings detail).Awaits NotEntry := by
  refine awaits_bind ?_ fun stopError => ?_
  · refine Prog.awaits_bind (fun _ => trivial) fun t => awaits_bind reads_fields.awaits fun d => ?_
    rw [if_pos rfl]
    refine awaits_bind reads_requireRunningLocked.awaits fun _ => ?_
    split
    · exact awaits_bind (reads_require _ _).awaits fun _ => trivial
    · refine awaits_bind reads_relay.awaits fun _ => awaits_bind reads_now.awaits fun _ => ?_
      exact awaits_bind (awaits_modifyNote _ _) fun _ => awaits_confirmStop _ _ _
  · split <;> exact trivial

theorem awaits_beginWake (mode : MotionMode) (direction : Direction) (target : Option Ieee)
    (basis : HeightSnapshot) (relay : RelaySnapshot) (detail : String) (found : ControlState) :
    (beginWake mode direction target basis relay detail found).Awaits NotEntry := by
  refine awaits_bind (reads_assertSome _).awaits fun basisHeightCm => ?_
  refine awaits_bind (reads_assertSome _).awaits fun observedAt => ?_
  refine awaits_bind reads_requireRunningLocked.awaits fun _ =>
    awaits_bind reads_fields.awaits fun d => ?_
  refine awaits_bind (reads_require _ _).awaits fun _ =>
    awaits_bind reads_monotonic.awaits fun startedAt => ?_
  refine awaits_bind reads_now.awaits fun updatedAt => awaits_bind (awaits_modifyNote _ _) fun _ => ?_
  refine awaits_bind (Prog.awaits_withLock (fun h => by cases h) ?_) fun failure => ?_
  · refine awaits_exceptError (awaits_bind (awaits_modifyNote _ _) fun _ => ?_) fun _ => trivial
    exact awaits_bind (awaits_call _) fun _ => trivial
  cases failure with
  | none => exact trivial
  | some text =>
    refine awaits_bind reads_fields.awaits fun d' => ?_
    split
    · exact awaits_stopMotion _ _
    · exact trivial

theorem awaits_approachTarget (target : Ieee) (found : ControlState) :
    (approachTarget settings target found).Awaits NotEntry := by
  refine awaits_bind reads_height.awaits fun snapshot => ?_
  split
  · refine awaits_bind (reads_requireWakeBasis _).awaits fun basis => ?_
    refine awaits_bind reads_admitWake.awaits fun relay => ?_
    refine awaits_bind (reads_assertSome _).awaits fun basisHeightCm => ?_
    dsimp only
    split
    · exact awaits_bind reads_requireRunningLocked.awaits fun _ =>
        awaits_bind reads_now.awaits fun _ => awaits_modify _
    · exact awaits_bind (reads_requireDirectionAllowed _ _).awaits fun _ =>
        awaits_beginWake _ _ _ _ _ _ _
  · refine awaits_bind reads_admitMotion.awaits fun admitted => ?_
    refine awaits_bind (reads_assertSome _).awaits fun heightCm => ?_
    dsimp only
    split
    · exact awaits_stopMotion _ _
    · refine awaits_bind (reads_requireDirectionAllowed _ _).awaits fun _ => ?_
      refine awaits_bind reads_requireRunningLocked.awaits fun _ => ?_
      refine awaits_bind reads_fields.awaits fun _ => awaits_bind reads_now.awaits fun _ => ?_
      exact awaits_bind reads_monotonic.awaits fun _ => awaits_modifyNote _ _

theorem reads_validateNumber (value : PyValue) (label : String) :
    (validateNumber value label).Reads := by
  have hfinite : ∀ converted : Ieee, (do
      require converted.isFinite (.valueError (label ++ "은 finite 숫자여야 합니다."))
      return converted : Code Ieee).Reads := fun _ => reads_bind (reads_require _ _) fun _ => trivial
  cases value with
  | int n =>
    rw [validateNumber]
    dsimp only
    split
    · exact hfinite _
    · exact trivial
  | float x => exact hfinite x
  | numeric x => exact hfinite x
  | raising e => exact trivial
  | bool b => exact trivial
  | other => exact trivial

theorem awaits_stopOnInvalid {α : Type} (detail : String) {c : Code α} (h : c.Awaits NotEntry) :
    (stopOnInvalid detail c).Awaits NotEntry := by
  have hstop : ∀ e : Exc, (do
      if ← hasActiveMotion then stopMotion detail none
      throw e : Code α).Awaits NotEntry := by
    intro e
    refine awaits_bind (awaits_bind reads_fields.awaits fun _ => trivial) fun active => ?_
    split
    · exact awaits_bind (awaits_stopMotion _ _) fun _ => trivial
    · exact trivial
  refine awaits_exceptError h fun e => ?_
  cases e with
  | typeError text => exact hstop _
  | valueError text => exact hstop _
  | _ => exact trivial

theorem awaits_setTarget (value : PyValue) : (setTarget settings value).Awaits NotEntry := by
  have hvalidate : (validateTarget settings value).Reads := by
    refine reads_bind (reads_validateNumber _ _) fun target => ?_
    exact reads_bind (reads_require _ _) fun _ => trivial
  refine awaits_bind (awaits_stopOnInvalid _ hvalidate.awaits) fun target => ?_
  refine awaits_bind (awaits_modifyNote _ _) fun _ => awaits_bind reads_fields.awaits fun d => ?_
  dsimp only
  split
  · exact (reads_require _ _).awaits
  refine awaits_bind reads_fields.awaits fun d' => ?_
  split
  · exact trivial
  refine awaits_bind reads_relay.awaits fun snapshot => ?_
  split
  · exact awaits_bind (awaits_stopForTransition _) fun _ => awaits_approachTarget _ _
  · exact awaits_approachTarget _ _

theorem awaits_adjustTarget (value : PyValue) (increase : Bool) :
    (adjustTarget settings value increase).Awaits NotEntry := by
  refine awaits_bind (awaits_stopOnInvalid _ ?_) fun amount => ?_
  · refine awaits_bind (reads_validateNumber _ _).awaits fun amount => ?_
    exact awaits_bind (reads_require _ _).awaits fun _ => trivial
  refine awaits_bind (awaits_modifyNote _ _) fun _ => awaits_bind reads_fields.awaits fun d => ?_
  dsimp only
  split
  · exact awaits_setTarget _
  · exact trivial

/-! ## Values -/

/-- An exception that `except (TypeError, ValueError)` takes. -/
def Exc.isInvalid : Exc → Bool
  | .typeError _ => true
  | .valueError _ => true
  | _ => false

/-- `isinstance()` or `float()` of the value raises what is not caught: it is an `int` beyond
all floats, or an object with an exception of its own. -/
def PyValue.escapes : PyValue → Bool
  | .int n => !(Ieee.float64 n).isFinite
  | .raising e => !e.isInvalid
  | _ => false

/-- The number that `_validate_number` makes of a value. -/
def PyValue.number? : PyValue → Option Ieee
  | .int n => if (Ieee.float64 n).isFinite then some (Ieee.float64 n) else none
  | .float x => if x.isFinite then some x else none
  | .numeric x => if x.isFinite then some x else none
  | _ => none

variable (settings)

/-- A target within the operation range. -/
def isTarget (value : PyValue) : Bool :=
  value.number?.any fun x =>
    decide (Ieee.finite settings.operationMinCm ≤ x) && decide (x ≤ Ieee.finite settings.operationMaxCm)

/-- An amount by which a target can be changed. -/
def isAmount (value : PyValue) : Bool := value.number?.any fun x => !decide (x ≤ Ieee.finite 0)

/-- The call has no valid target with the control state that it finds. -/
def refused (control : ControlState) : Job → Bool
  | .setTarget value => !isTarget settings value
  | .increaseTarget value => !isAmount value || sumRefused value true
  | .decreaseTarget value => !isAmount value || sumRefused value false
  | _ => false
where
  /-- The target that the adjustment of the active one leads to is refused. -/
  sumRefused (value : PyValue) (increase : Bool) : Bool :=
    control.mode == .target && control.targetHeightCm.any fun target =>
      value.number?.any fun amount =>
        !isTarget settings (.float (if increase then target.add amount else target.sub amount))

/-- The argument of a call that changes the target. -/
def Job.argument? : Job → Option PyValue
  | .setTarget value => some value
  | .increaseTarget value => some value
  | .decreaseTarget value => some value
  | _ => none

variable {settings}

/-- A float that is not finite is refused. -/
theorem finite_of_not {x : Ieee} (h : x.isFinite = false) (text : String) :
    (do
      require x.isFinite (.valueError text)
      return x : Code Ieee) = Code.throw (.valueError text) := by
  rw [h]
  rfl

theorem finite_of_isFinite {x : Ieee} (h : x.isFinite = true) (text : String) :
    (do
      require x.isFinite (.valueError text)
      return x : Code Ieee) = .ret x := by
  rw [h]
  rfl

/-- A value that is no number is refused. -/
theorem validateNumber_of_none {value : PyValue} (h : value.number? = none) (label : String) :
    ∃ e, validateNumber value label = throw e ∧ e.isInvalid = !value.escapes := by
  cases value with
  | int n =>
    simp only [PyValue.number?] at h
    split at h
    · cases h
    · next hn =>
      refine ⟨.overflowError "int too large to convert to float", ?_, ?_⟩
      · rw [validateNumber]
        dsimp only
        cases hx : Ieee.float64 (n : ℚ) with
        | finite q =>
          rw [hx] at hn
          exact absurd rfl hn
        | inf negative => rfl
        | nan => rfl
      · simp [PyValue.escapes, Exc.isInvalid, hn]
  | float x =>
    simp only [PyValue.number?] at h
    split at h
    · cases h
    · next hx => exact ⟨_, finite_of_not (by simpa using hx) _, rfl⟩
  | numeric x =>
    simp only [PyValue.number?] at h
    split at h
    · cases h
    · next hx => exact ⟨_, finite_of_not (by simpa using hx) _, rfl⟩
  | raising e => exact ⟨e, rfl, by simp [PyValue.escapes]⟩
  | bool b => exact ⟨_, rfl, rfl⟩
  | other => exact ⟨_, rfl, rfl⟩

theorem validateNumber_of_some {value : PyValue} {x : Ieee} (h : value.number? = some x)
    (label : String) : validateNumber value label = .ret x ∧ value.escapes = false := by
  cases value with
  | int n =>
    simp only [PyValue.number?] at h
    split at h
    · next hn =>
      cases h
      refine ⟨?_, by simp [PyValue.escapes, hn]⟩
      obtain ⟨q, hq⟩ := Ieee.exists_of_isFinite hn
      rw [validateNumber, hq]
      rfl
    · cases h
  | float y =>
    simp only [PyValue.number?] at h
    split at h
    · next hx =>
      cases h
      exact ⟨finite_of_isFinite hx _, rfl⟩
    · cases h
  | numeric y =>
    simp only [PyValue.number?] at h
    split at h
    · next hx =>
      cases h
      exact ⟨finite_of_isFinite hx _, rfl⟩
    · cases h
  | raising e => cases h
  | bool b => cases h
  | other => cases h

/-- A number that fails its check raises, and a value raises what is caught unless it escapes. -/
theorem validate_of_refused {value : PyValue} {check : Ieee → Bool}
    (h : (value.number?.any check) = false) (label text : String) :
    ∃ e, (do
      let x ← validateNumber value label
      require (check x) (.valueError text)
      return x : Code Ieee) = throw e ∧ e.isInvalid = !value.escapes := by
  cases hx : value.number? with
  | none =>
    obtain ⟨e, he, hcaught⟩ := validateNumber_of_none hx label
    exact ⟨e, by rw [he]; rfl, hcaught⟩
  | some x =>
    obtain ⟨hret, htaken⟩ := validateNumber_of_some hx label
    rw [hx, Option.any_some] at h
    refine ⟨.valueError text, ?_, by rw [htaken]; rfl⟩
    rw [hret]
    show (require _ _ >>= fun _ => (return x : Code Ieee)) = _
    rw [h]
    rfl

/-- A number that passes its check. -/
theorem validate_of_some {value : PyValue} {x : Ieee} {check : Ieee → Bool}
    (hx : value.number? = some x) (h : check x = true) (label text : String) :
    (do
      let x ← validateNumber value label
      require (check x) (.valueError text)
      return x : Code Ieee) = .ret x := by
  rw [(validateNumber_of_some hx label).1]
  show (require _ _ >>= fun _ => (return x : Code Ieee)) = _
  rw [h]
  rfl

/-! ## The program of a refused call -/

/-- The STOP of `_stop_motion` without an error detail. -/
def childStop (detail : String) : Job := .stopAndConfirm detail none

theorem parks_stopMotion {α : Type} (detail : String) (e : Exc) :
    (stopMotion detail none >>= fun _ => (throw e : Code α)).Parks (childStop detail) := by
  refine ⟨_, rfl, fun u r => ?_⟩
  rcases r with (_ | e') | value
  · -- The call was cancelled: the STOP is gathered, and the cancellation raised again.
    exact ⟨rfl, fun _ => .inl rfl, .inl rfl⟩
  · exact .inr (by simp)
  · cases value with
    | none => exact .inr (by simp)
    | stop status => exact .inr (by simp)
    | error text => exact .inr (by simp)

/-- A value that `except (TypeError, ValueError)` finds is refused after a STOP. -/
theorem comes_stopOnInvalid {α : Type} {e : Exc} (he : e.isInvalid = true) (detail : String)
    {v : Vars} (hmode : v.desk.control.mode ≠ .none) :
    (stopOnInvalid detail (throw e : Code α)).Comes (Prog.Parks (childStop detail)) v v := by
  have hstop : ∀ e : Exc, (do
      if ← hasActiveMotion then stopMotion detail none
      throw e : Code α).Comes (Prog.Parks (childStop detail)) v v := by
    intro e
    refine .get (.here ?_)
    have hactive : (v.desk.control.mode != .none) = true := by simpa using hmode
    show Prog.Parks _ (if (v.desk.control.mode != .none) = true then _ else _)
    rw [if_pos hactive]
    exact parks_stopMotion detail e
  cases e with
  | typeError text => exact hstop _
  | valueError text => exact hstop _
  | _ => cases he

/-- An exception that is not caught comes through. -/
theorem stopOnInvalid_of_not {α : Type} {e : Exc} (he : e.isInvalid = false) (detail : String) :
    stopOnInvalid detail (throw e : Code α) = throw e := by
  cases e with
  | typeError text => cases he
  | valueError text => cases he
  | _ => rfl

/-- Nothing changes but that a pending startup WAKE is dropped. -/
structure Unmoved (v v' : Vars) : Prop where
  control : v'.desk.control = v.desk.control
  flags : SameFlags v.desk v'.desk
  trace : ∃ new, v'.trace = new ++ v.trace ∧ ∀ e ∈ new, e = .commanded

theorem Unmoved.refl (v : Vars) : Unmoved v v := ⟨rfl, ⟨rfl, rfl, rfl, rfl⟩, [], rfl, by simp⟩

/-- The variables after `_cancel_startup_wake_pending_locked()`. -/
def Vars.commanded (v : Vars) : Vars :=
  { v with desk := v.desk.cancelStartupWakePendingLocked, trace := .commanded :: v.trace }

theorem Vars.unmoved_commanded (v : Vars) : Unmoved v v.commanded :=
  ⟨rfl, ⟨rfl, rfl, rfl, rfl⟩, [.commanded], rfl, by simp⟩

/-- The program stops the motion before it raises. -/
def StopsThenRaises (v : Vars) (c : Code Unit) : Prop :=
  ∃ detail v', Unmoved v v' ∧ c.Comes (Prog.Parks (childStop detail)) v v'

theorem stops_setTarget {value : PyValue} (h : isTarget settings value = false)
    (htaken : value.escapes = false) {v : Vars} (hmode : v.desk.control.mode ≠ .none) :
    (setTarget settings value).Comes
      (Prog.Parks (childStop "잘못된 대체 목표로 기존 이동을 정지했습니다.")) v v := by
  obtain ⟨e, he, hcaught⟩ := validate_of_refused h "목표 높이" _
  rw [htaken] at hcaught
  rw [setTarget, validateTarget, he]
  exact (comes_stopOnInvalid hcaught _ hmode).bind fun c hc => hc.bind _

theorem number?_of_escapes {value : PyValue} (h : value.escapes = true) :
    value.number? = none := by
  cases value with
  | int n =>
    have hn : (Ieee.float64 (n : ℚ)).isFinite = false := by simpa [PyValue.escapes] using h
    simp [PyValue.number?, hn]
  | raising e => rfl
  | _ => cases h

theorem setTarget_of_escapes {value : PyValue} (h : value.escapes = true) :
    ∃ e, setTarget settings value = throw e := by
  have hnone := number?_of_escapes h
  have hrefused : isTarget settings value = false := by rw [isTarget, hnone]; rfl
  obtain ⟨e, he, hcaught⟩ := validate_of_refused hrefused "목표 높이" _
  rw [h] at hcaught
  refine ⟨e, ?_⟩
  rw [setTarget, validateTarget, he, stopOnInvalid_of_not hcaught]
  rfl

theorem stops_adjustTarget {value : PyValue} {increase : Bool} {v : Vars}
    (h : isAmount value = false ∨ refused.sumRefused settings v.desk.control value increase = true)
    (htaken : value.escapes = false) (hmode : v.desk.control.mode ≠ .none) :
    StopsThenRaises v (adjustTarget settings value increase) := by
  by_cases hamount : isAmount value = true
  · -- The sum is refused by `_set_target`.
    replace h := h.resolve_left (by simp [hamount])
    obtain ⟨amount, hx, hcheck⟩ := (Option.any_eq_true _ _).mp hamount
    simp only [refused.sumRefused, Bool.and_eq_true, beq_iff_eq] at h
    obtain ⟨htarget, hsum⟩ := h
    obtain ⟨target, hheight, hsum⟩ := (Option.any_eq_true _ _).mp hsum
    rw [hx, Option.any_some, Bool.not_eq_true'] at hsum
    have hset := stops_setTarget (v := v.commanded) hsum rfl hmode
    refine ⟨"잘못된 대체 목표로 기존 이동을 정지했습니다.", v.commanded, v.unmoved_commanded, ?_⟩
    rw [adjustTarget, validate_of_some hx hcheck]
    refine .get (.set (.get ?_))
    simp only [DeskController.cancelStartupWakePendingLocked, Prog.bind, htarget, hheight]
    exact hset
  · rw [Bool.not_eq_true] at hamount
    obtain ⟨e, he, hcaught⟩ := validate_of_refused hamount "목표 증감량" "목표 증감량은 0보다 커야 합니다."
    rw [htaken] at hcaught
    refine ⟨"잘못된 목표 증감 요청으로 기존 이동을 정지했습니다.", v, .refl v, ?_⟩
    rw [adjustTarget, he]
    exact (comes_stopOnInvalid hcaught _ hmode).bind fun c hc => hc.bind _

theorem adjustTarget_of_escapes {value : PyValue} (h : value.escapes = true)
    (increase : Bool) : ∃ e, adjustTarget settings value increase = throw e := by
  have hrefused : isAmount value = false := by rw [isAmount, number?_of_escapes h]; rfl
  obtain ⟨e, he, hcaught⟩ := validate_of_refused hrefused "목표 증감량" "목표 증감량은 0보다 커야 합니다."
  rw [h] at hcaught
  refine ⟨e, ?_⟩
  rw [adjustTarget, he, stopOnInvalid_of_not hcaught]
  rfl

/-! ## Calls -/

/-- What a call that changes the target does under the intent lock. -/
def Job.operation (settings : DeskSettings) : Job → Code Unit
  | .setTarget value => Desk.setTarget settings value
  | .increaseTarget value => adjustTarget settings value true
  | .decreaseTarget value => adjustTarget settings value false
  | _ => .ret ()

/-- The rest of such a call once it has the lock. -/
def underIntent (c : Code Unit) : Code Value :=
  ((c.attempt fun e => .release .intent (.raise e)).bind fun a => .release .intent (.ret a)).bind
    fun _ => .ret Value.none

section Calls

variable {j : Job} {value : PyValue} (hj : j.argument? = some value)
include hj

theorem body_of_argument (settings : DeskSettings) : ∃ k₀ : Reply deskSignature → Code Value,
    body settings j = .await (.lock .intent none) k₀ ∧ (∀ r, (k₀ r).Awaits NotEntry) ∧
      ∀ v, k₀ (.ok v) = underIntent (j.operation settings) := by
  have hlocked : ∀ c : Code Unit, c.Awaits NotEntry →
      ∃ k₀ : Reply deskSignature → Code Value,
        returnsNone (Prog.withLock .intent none c) = .await (.lock .intent none) k₀ ∧
          (∀ r, (k₀ r).Awaits NotEntry) ∧ ∀ v, k₀ (.ok v) = underIntent c := by
    intro c hc
    refine ⟨_, rfl, fun r => ?_, fun _ => rfl⟩
    cases r with
    | error e => exact trivial
    | ok v =>
      refine Prog.awaits_bind (Prog.awaits_bind trivial fun _ => ?_) fun _ => trivial
      exact Prog.awaits_bind (Prog.awaits_attempt hc fun _ => trivial) fun _ => trivial
  cases j with
  | setTarget value => exact hlocked _ (awaits_setTarget _)
  | increaseTarget value => exact hlocked _ (awaits_adjustTarget _ _)
  | decreaseTarget value => exact hlocked _ (awaits_adjustTarget _ _)
  | _ => cases hj

theorem operation_of_escapes (settings : DeskSettings) (h : value.escapes = true) :
    ∃ e, j.operation settings = throw e := by
  cases j with
  | setTarget _ =>
    cases hj
    exact setTarget_of_escapes h
  | increaseTarget _ =>
    cases hj
    exact adjustTarget_of_escapes h true
  | decreaseTarget _ =>
    cases hj
    exact adjustTarget_of_escapes h false
  | _ => cases hj

theorem stops_operation {v : Vars} (hrefused : refused settings v.desk.control j = true)
    (htaken : value.escapes = false) (hmode : v.desk.control.mode ≠ .none) :
    StopsThenRaises v (j.operation settings) := by
  cases j with
  | setTarget _ =>
    cases hj
    rw [refused, Bool.not_eq_true'] at hrefused
    exact ⟨_, v, .refl v, stops_setTarget hrefused htaken hmode⟩
  | increaseTarget _ =>
    cases hj
    rw [refused, Bool.or_eq_true, Bool.not_eq_true'] at hrefused
    exact stops_adjustTarget hrefused htaken hmode
  | decreaseTarget _ =>
    cases hj
    rw [refused, Bool.or_eq_true, Bool.not_eq_true'] at hrefused
    exact stops_adjustTarget hrefused htaken hmode
  | _ => cases hj

end Calls

/-- A step with which the call `j` of task `t` gets the intent lock. -/
def GetsIntent (pool : DeskPool) (t : ℕ) (j : Job) : Prop :=
  (pool.mem.task t = some ⟨j, .ready, false⟩ ∧ pool.mem.free .intent = true) ∨
    pool.mem.task t = some ⟨j, .waiting (.lock .intent none), false⟩

theorem GetsIntent.lt_count {pool : DeskPool} {t : ℕ} {j : Job} (h : GetsIntent pool t j)
    (habsent : ∀ u, pool.mem.count ≤ u → pool.mem.task u = none) : t < pool.mem.count := by
  rcases h with ⟨htask, _⟩ | htask
  · exact lt_count_of_shape habsent (Mem.shape_eq_some.mpr ⟨_, htask⟩)
  · exact lt_count_of_shape habsent (Mem.shape_eq_some.mpr ⟨_, htask⟩)

section Entry

variable {started : Instant} {ls : List DeskLabel} {pool pool' : DeskPool} {t : ℕ}
  {env : ℕ → Reading} {j : Job} {value : PyValue}

/-- The operation runs from the variables that the step found. -/
theorem getsIntent_cases (hj : j.argument? = some value)
    (hexec : Transition.exec (step (deskSystem settings)) (deskStart settings started) ls =
      some pool) (henters : GetsIntent pool t j)
    (hstep : step (deskSystem settings) pool (.run t env) = some pool') :
    ∃ m : Memory, m.vars = pool.mem.vars ∧ m.count = pool.mem.count ∧
      m.shape t = some (j, .running) ∧
      pool' = pool.go (deskSystem settings) t (underIntent (j.operation settings)) env m := by
  obtain ⟨k₀, hbody, hrest, hk₀⟩ := body_of_argument hj settings
  rcases henters with ⟨htask, hfree⟩ | htask
  · have hshape : (pool.mem.wake t).shape t = some (j, .running) :=
      shape_wake (Mem.shape_eq_some.mpr ⟨_, htask⟩)
    have hfree' : (pool.mem.wake t).free .intent = true := by
      rw [← hfree]
      simp [Mem.free, Mem.wake, Mem.owner]
    simp only [step, htask] at hstep
    cases hstep
    refine ⟨(pool.mem.wake t).take .intent t, Mem.vars_alter _ _ _, Mem.count_alter _ _ _, hshape, ?_⟩
    show pool.settle t (Prog.advance _ t (body settings j) env (pool.mem.wake t)) = _
    rw [hbody]
    simp only [Prog.advance, Mem.atOnce, hfree', if_true, hk₀]
    rfl
  · have hshape : pool.mem.shape t = some (j, .waiting (.lock .intent none)) :=
      Mem.shape_eq_some.mpr ⟨_, htask⟩
    have hcont := cont_of_once (verified settings) _ hbody hrest hexec hshape
    simp only [step, htask, System.resume, Bool.false_eq_true, if_false] at hstep
    split at hstep
    · next heq =>
      split at heq
      · cases heq
        cases hstep
        refine ⟨((pool.mem.wake t).dequeue .intent t).take .intent t, Mem.vars_alter _ _ _,
          Mem.count_alter _ _ _, shape_wake hshape, ?_⟩
        rw [hcont, hk₀]
      · cases heq
    · cases hstep

/-- **A refused call creates a STOP and awaits it**, unless its value escapes. -/
theorem entered_refused (hj : j.argument? = some value) (htaken : value.escapes = false)
    (hexec : Transition.exec (step (deskSystem settings)) (deskStart settings started) ls =
      some pool) (henters : GetsIntent pool t j)
    (hrefused : refused settings pool.mem.vars.desk.control j = true)
    (hmode : pool.mem.vars.desk.control.mode ≠ .none)
    (hstep : step (deskSystem settings) pool (.run t env) = some pool') :
    ∃ detail, GivingUp t pool.mem.count j pool' ∧
      pool'.mem.shape pool.mem.count = some (childStop detail, .ready) ∧
      Unmoved pool.mem.vars pool'.mem.vars := by
  obtain ⟨m, hvars, hcount, hshape, rfl⟩ := getsIntent_cases hj hexec henters hstep
  obtain ⟨detail, v', hunmoved, hcomes⟩ := stops_operation hj hrefused htaken hmode
  have hbody : (Prog.attempt (j.operation settings) fun e => .release .intent (.raise e)).Comes
      (Prog.Parks (childStop detail)) pool.mem.vars v' :=
    hcomes.attempt fun c hc => hc.attempt fun _ _ _ he => he
  have hlocked : (Prog.bind (Prog.attempt (j.operation settings) fun e =>
      .release .intent (.raise e)) fun a => .release .intent (.ret a)).Comes
      (Prog.Parks (childStop detail)) pool.mem.vars v' := hbody.bind fun c hc => hc.bind _
  have hunder : (underIntent (j.operation settings)).Comes (Prog.Parks (childStop detail))
      pool.mem.vars v' := hlocked.bind fun c hc => hc.bind _
  obtain ⟨c', hparks, hadvance⟩ := advance_comes hunder (deskSystem settings).nothing t env hvars
  obtain ⟨k, hhalt, hk⟩ := advance_parks hparks (deskSystem settings).nothing t env
    { m with vars := v' }
  have hgo : pool.go (deskSystem settings) t (underIntent (j.operation settings)) env m =
      pool.settle t (.waiting (.shield m.count) k,
        ({ m with vars := v' } : Memory).spawn (childStop detail)) := by
    show pool.settle t (Prog.advance _ t _ env m) = _
    rw [hadvance, hhalt]
  have hlt : t < pool.mem.count := henters.lt_count (kept_of_exec hexec).absent
  rw [hgo, ← hcount]
  rw [← hcount] at hlt
  refine ⟨detail, .shielded ?_ ?_, ?_, ?_⟩
  · have hrunning : (({ m with vars := v' } : Memory).spawn (childStop detail)).shape t =
        some (j, .running) := by
      rw [Mem.shape_spawn, if_neg hlt.ne]
      exact hshape
    exact shape_suspend hrunning _
  · have hcont : (pool.settle t (.waiting (.shield m.count) k,
        ({ m with vars := v' } : Memory).spawn (childStop detail))).cont t = k :=
      Function.update_self _ _ _
    rw [hcont]
    exact hk
  · show (Mem.alter _ t _).shape m.count = _
    rw [Mem.shape, Mem.task_alter_ne _ hlt.ne', ← Mem.shape, Mem.shape_spawn]
    exact if_pos rfl
  · rw [show (pool.settle t (.waiting (.shield m.count) k,
        ({ m with vars := v' } : Memory).spawn (childStop detail))).mem.vars = v' from
      vars_suspend _ _ _]
    exact hunmoved

end Entry

/-! ## The motion until it is stopped -/

/-- A running controller with an active motion and no STOP in progress. -/
structure ActiveMotion (m : Memory) : Prop where
  running : m.vars.desk.running = true
  closing : m.vars.desk.closing = false
  free : m.vars.desk.stopInProgress = false
  mode : m.vars.desk.control.mode ≠ .none
  staying : ∀ t w, m.shape t ≠ some (.stop, .waiting w)

/-- The intent of the generation is active, or past. -/
def Standing (generation : ℕ) (m : Memory) : Prop :=
  generation < m.vars.desk.control.generation ∨
    (m.vars.desk.control.generation = generation ∧ ActiveMotion m)

/-- In the middle of a segment that begins at `start`. -/
def StandingWithin (generation : ℕ) (start : Memory) (v : Vars) : Prop :=
  generation < v.desk.control.generation ∨
    (v.desk.control.generation = generation ∧ ActiveMotion start ∧ v.desk.running = true ∧
      v.desk.closing = false ∧ v.desk.stopInProgress = false ∧ v.desk.control.mode ≠ .none)

theorem Standing.quiet {generation : ℕ} {m m' : Memory} (h : Standing generation m)
    (hquiet : Quiet m m') : Standing generation m' := by
  rcases h with hpast | ⟨hgen, hactive⟩
  · exact .inl (by rw [hquiet.vars]; exact hpast)
  · refine .inr ⟨by rw [hquiet.vars]; exact hgen, ?_⟩
    refine ⟨?_, ?_, ?_, ?_, fun t w ht => hactive.staying t w (hquiet.waits ht)⟩
    · rw [hquiet.vars]
      exact hactive.running
    · rw [hquiet.vars]
      exact hactive.closing
    · rw [hquiet.vars]
      exact hactive.free
    · rw [hquiet.vars]
      exact hactive.mode

/-- **A change** leaves the intent active or makes it past. -/
theorem StandingWithin.change {generation : ℕ} {p : Spot} {v : Vars}
    (h : StandingWithin generation p.start p.mem.vars) (hchange : Change settings p v) :
    StandingWithin generation p.start v := by
  -- What a later generation makes past stays past.
  have hpast : p.mem.vars.desk.control.generation < v.desk.control.generation →
      StandingWithin generation p.start v := by
    intro hlt
    refine .inl (lt_of_le_of_lt ?_ hlt)
    rcases h with hpast | ⟨hgen, _⟩
    · exact hpast.le
    · exact hgen.ge
  have hkeep : v.desk.control.generation = p.mem.vars.desk.control.generation →
      v.desk.control.mode = p.mem.vars.desk.control.mode →
      (ActiveMotion p.start → p.mem.vars.desk.running = true → p.mem.vars.desk.closing = false →
        p.mem.vars.desk.stopInProgress = false → p.mem.vars.desk.control.mode ≠ .none →
        v.desk.running = true ∧ v.desk.closing = false ∧ v.desk.stopInProgress = false) →
      StandingWithin generation p.start v := by
    intro hgen hmode hflags
    rcases h with hpast | ⟨hsame, hactive, hrunning, hclosing, hfree, hmoving⟩
    · exact .inl (by rw [hgen]; exact hpast)
    · obtain ⟨hr, hc, hf⟩ := hflags hactive hrunning hclosing hfree hmoving
      exact .inr ⟨hgen.trans hsame, hactive, hr, hc, hf, by rw [hmode]; exact hmoving⟩
  have hflags : SameFlags p.mem.vars.desk v.desk → v.desk.control.generation =
      p.mem.vars.desk.control.generation → v.desk.control.mode = p.mem.vars.desk.control.mode →
      StandingWithin generation p.start v := by
    intro hsame hgen hmode
    refine hkeep hgen hmode fun _ hr hc hf _ => ?_
    exact ⟨hsame.running.trans hr, hsame.closing.trans hc, hsame.stopInProgress.trans hf⟩
  have hdesk : v.desk = p.mem.vars.desk → StandingWithin generation p.start v := by
    intro heq
    exact hflags (by rw [heq]; exact ⟨rfl, rfl, rfl, rfl⟩) (by rw [heq]) (by rw [heq])
  cases hchange with
  | refine flags control _ _ _ => exact hflags flags control.toRefines.generation control.mode
  | activate _ _ flags control _ _ _ _ _ => exact hflags flags control.generation control.mode
  | command flags control _ _ _ => exact hflags flags (by rw [control]) (by rw [control])
  | runner running closing latch control _ _ _ =>
    exact hkeep (by rw [control]) (by rw [control]) fun _ hr hc hf _ =>
      ⟨running.trans hr, closing.trans hc, latch.trans hf⟩
  | settle _ generation _ _ _ _ _ _ _ => exact hpast generation
  | drop _ _ control _ _ => exact hpast control.generation
  | idle flags rests _ _ _ _ => exact hflags flags rests.refines.generation rests.refines.mode
  | register flags rests _ _ _ _ _ _ _ _ =>
    exact hflags flags rests.refines.generation rests.refines.mode
  | install _ _ _ _ _ _ generation _ _ _ _ _ _ _ _ => exact hpast generation
  | beginExchange _ _ _ _ _ _ control _ _ _ _ => exact hpast control.generation
  | confirm _ _ desk _ _ _ _ _ => exact hdesk desk
  | unlatch _ running closing latch rests _ _ =>
    exact hkeep rests.refines.generation rests.refines.mode fun _ hr hc _ _ =>
      ⟨running.trans hr, closing.trans hc, latch⟩
  | startBegin _ _ _ _ _ _ control _ _ => exact hpast control.generation
  | startFail _ _ _ _ _ control still _ _ =>
    exact hkeep (by rw [control]) (by rw [control]) fun _ _ _ _ hmoving => absurd still hmoving
  | stopBegin _ _ _ _ _ control _ _ => exact hpast control.generation
  | stopEnd job before _ _ _ _ rests _ _ =>
    refine hkeep rests.refines.generation rests.refines.mode fun hactive _ _ _ _ => ?_
    obtain ⟨w, hwaits⟩ := before
    rw [Waits, job] at hwaits
    exact absurd hwaits (hactive.staying _ w)
  | pulse _ _ _ desk _ _ => exact hdesk desk
  | wake _ _ _ desk _ _ _ => exact hdesk desk
  | sendStop desk _ => exact hdesk desk

/-- **Along a run** the intent stays active until it is past. -/
theorem standing_of_exec {generation : ℕ} {ls : List DeskLabel} {pool pool' : DeskPool}
    (hk : DeskKept settings pool) (h : Standing generation pool.mem)
    (hexec : Transition.exec (step (deskSystem settings)) pool ls = some pool') :
    Standing generation pool'.mem := by
  refine keeps_from (V := fun p v => StandingWithin generation p.start v) hk
    (Transition.meets_true pool ls) hexec h ?_ ?_ ?_ ?_ ?_ ?_
  · intro pool job hk _ _ hi
    exact hi.quiet (quiet_spawn (hk.absent _ le_rfl) job)
  · exact fun m m' hsame hi => hi.quiet (quiet_of_sameButCancelled hsame)
  · exact fun pool t env job _ htask hi => hi.quiet (quiet_drop htask)
  · intro pool pool' p _ hi hstart _ _
    rw [hstart]
    exact hi.imp_right fun ⟨hgen, hactive⟩ =>
      ⟨hgen, hactive, hactive.running, hactive.closing, hactive.free, hactive.mode⟩
  · intro p q v hwithin hv hchange
    rw [← hwithin.start] at hv ⊢
    exact hv.change hchange
  · intro pool pool' p q hk _ _ hstart _ hv hvars hsegment
    rw [hstart] at hv
    rcases hv with hpast | ⟨hgen, hactive, hrunning, hclosing, hfree, hmode⟩
    · exact .inl (by rw [hvars]; exact hpast)
    · rw [← hvars] at hgen hrunning hclosing hfree hmode
      refine .inr ⟨hgen, hrunning, hclosing, hfree, hmode, fun u w hu => ?_⟩
      rcases hsegment.shape_cases hk.absent hu with ⟨_, hjob, hstopped⟩ | ⟨_, hold | ⟨_, hready⟩⟩
      · cases hstopped with
        | waiting w hsuspends =>
          have hsame := hsegment.reach.sameSegment
          have hqjob : q.job = .stop := hsame.job.trans hjob.symm
          rcases hsuspends.shut hqjob with hclosed | ⟨⟨w', hwaits⟩, _⟩
          · rw [hvars, hclosed] at hclosing
            cases hclosing
          · rw [Waits, hsame.start.trans hsegment.start, hqjob] at hwaits
            exact hactive.staying _ w' hwaits
      · exact hactive.staying u w hold
      · cases hready

/-! ## The STOP of a call -/

/-- The controller runs or closes, and no STOP is in progress. -/
structure CanStop (d : DeskController) : Prop where
  active : d.running = true ∨ d.closing = true
  free : d.stopInProgress = false

/-- The exchange of the task has begun: the intent that it found is past. -/
structure ExchangeBegun (p : Spot) : Prop where
  past : p.start.vars.desk.control.generation < p.mem.vars.desk.control.generation
  recorded : ∃ baseline, .exchangeBegun p.task baseline ∈ p.mem.vars.trace
  allowed : CanStop p.start.vars.desk

/-- A STOP task that awaits something has begun its exchange; one that ends without an await
has changed nothing. -/
def exchangeContract : Guarantee deskSignature :=
  { Guarantee.free with
    suspend := fun p _ => (∃ detail, p.job = childStop detail) → ¬ p.Resumed → ExchangeBegun p
    finish := fun p _ => (∃ detail, p.job = childStop detail) → ¬ p.Resumed →
      p.mem.vars = p.start.vars }

section Exchange

variable {p : Spot}

theorem allows_resumed : exchangeContract.Allows (deskSystem settings) Point.Resumed where
  write := fun _ _ _ => trivial
  spawn := fun _ _ _ => trivial
  cancel := fun _ _ _ => trivial
  suspend := fun _ _ hp _ hfirst => absurd hp hfirst
  pause := fun _ _ => trivial
  same := by
    intro p q hsame hp
    rw [Point.Resumed, hsame.start, hsame.task, hsame.job]
    exact hp
  resumes := fun _ _ _ _ _ _ hr => hr.resumed
  interrupts := fun _ _ _ _ hr => hr.resumed

theorem frees_exchangeContract {j : Job} (hj : ∀ detail, j ≠ childStop detail) :
    exchangeContract.Frees j where
  write := fun _ _ _ => trivial
  spawn := fun _ _ _ => trivial
  cancel := fun _ _ _ => trivial
  suspend := fun _ _ hp ⟨detail, hd⟩ _ => absurd (hp.symm.trans hd) (hj detail)
  pause := fun _ _ => trivial
  finish := fun _ _ hp ⟨detail, hd⟩ _ => absurd (hp.symm.trans hd) (hj detail)

theorem observes_sendStop {latched : Bool} {baseline : Option Instant} (h : ExchangeBegun p) :
    Observes settings exchangeContract (sendStopBounded latched baseline) p
      fun p' _ => p'.Resumed := by
  refine observes_exceptError.mpr (Does.mono (does_withLock (S := deskSignature)
    (Q := fun p' _ => p'.Resumed) (fun _ _ _ => h) ?_ ?_ ?_) ?_)
  · refine observes_bind.mpr (Iff.rfl.mpr (follows_ok.mpr ?_))
    refine observes_bind.mpr (observes_modifyNote.mpr ⟨trivial, follows_ok.mpr ?_⟩)
    have hbegun : ExchangeBegun ((p.setMem (p.mem.take .relayIo p.task)).setVars
        { p.mem.vars with trace := .sendStop p.task :: p.mem.vars.trace }) :=
      ⟨h.past, h.recorded.imp fun _ hmem => List.mem_cons_of_mem _ hmem, h.allowed⟩
    refine observes_bind.mpr (does_wait (S := deskSignature) rfl (fun _ _ => hbegun) ?_)
    intro p' r hr
    cases r with
    | ok v => exact hr.resumed
    | error e => exact hr.resumed
  · exact fun p' hr => does_of_allows (S := deskSignature) allows_resumed hr.resumed fun _ _ h => h
  · exact fun p' hr => hr.resumed
  · rintro p' (⟨_ | e⟩ | a) hp'
    · exact hp'
    · exact hp'
    · exact hp'

theorem observes_confirmStop {detail : String} {errorDetail : Option String}
    {baseline : Option Instant} (h : ExchangeBegun p) :
    Observes settings exchangeContract (confirmStop settings detail errorDetail baseline) p
      fun p' _ => p'.Resumed := by
  refine observes_bind.mpr (Iff.rfl.mpr (follows_ok.mpr ?_))
  refine observes_bind.mpr (observes_bind.mpr ((observes_sendStop h).mono ?_))
  have hlater : ∀ {α : Type} (c : Code α) (Q : Spot → Except (Raised Exc) α → Prop) p',
      p'.Resumed → (∀ p r, p.Resumed → Q p r) → Observes settings exchangeContract c p' Q :=
    fun c Q p' hp' hQ => does_of_allows (S := deskSignature) allows_resumed hp' hQ
  rintro p' (e | failure) hp'
  · exact hp'
  · refine hlater _ _ p' hp' fun p'' r hp'' => ?_
    cases r with
    | error e => exact hp''
    | ok value => exact hlater _ _ p'' hp'' fun _ _ h => h

theorem contracted_exchange : Contracted settings exchangeContract := by
  intro p hbegins
  by_cases hjob : ∃ detail, p.job = childStop detail
  · obtain ⟨detail, hjob⟩ := hjob
    have hvars : p.mem.vars = p.start.vars := hbegins.wakes.vars
    rw [hjob]
    refine observes_bind.mpr (Iff.rfl.mpr (follows_ok.mpr ?_))
    refine observes_bind.mpr (observes_fields.mpr (follows_ok.mpr ?_))
    rw [if_neg (by simp)]
    refine observes_bind.mpr (observes_require.mpr
      ⟨fun hactive => follows_ok.mpr ?_, fun _ _ _ => hvars⟩)
    split
    · exact observes_bind.mpr (observes_require.mpr
        ⟨fun _ => follows_ok.mpr fun _ _ => hvars, fun _ _ _ => hvars⟩)
    · next hfree =>
      refine observes_bind.mpr (observes_relay.mpr (follows_ok.mpr ?_))
      refine observes_bind.mpr (observes_now.mpr (follows_ok.mpr ?_))
      refine observes_bind.mpr (observes_modifyNote.mpr ⟨trivial, follows_ok.mpr ?_⟩)
      refine (observes_confirmStop ⟨?_, ⟨_, List.mem_cons_self⟩, ?_⟩).mono
        fun p' r hp' _ hfirst => absurd hp' hfirst
      · show p.start.vars.desk.control.generation < p.mem.vars.desk.control.generation + 1
        rw [hvars]
        exact Nat.lt_succ_self _
      · show CanStop p.start.vars.desk
        rw [← hvars]
        exact ⟨by simpa using hactive, by simpa using hfree⟩
  · exact does_of_allows (S := deskSignature)
      (frees_exchangeContract fun detail h => hjob ⟨detail, h⟩).allows rfl
      fun p' _ hp' h => absurd (h.imp fun _ hd => hp'.symm.trans hd) hjob

end Exchange

/-- The event stays in the record. -/
theorem remembers_of_step {pool pool' : DeskPool} {l : DeskLabel} (hk : DeskKept settings pool)
    (h : step (deskSystem settings) pool l = some pool') {e : Event}
    (he : e ∈ pool.mem.vars.trace) : e ∈ pool'.mem.vars.trace := by
  have hstepped := (stepped_of_step (verified settings) hk h).2
  generalize pool'.mem = m' at hstepped
  cases hstepped with
  | call _ => exact he
  | cancel t =>
    rw [(sameButCancelled_cancel pool.mem t).vars]
    exact he
  | drop _ =>
    rw [show (pool.mem.finish _ (.error .cancelled)).vars = pool.mem.vars from Mem.vars_alter _ _ _]
    exact he
  | @run t _ _ _ _ hsegment =>
    obtain ⟨new, htrace, _⟩ :=
      (rely_of_segment (verified settings) hsegment (u := t + 1) (by simp)).grows
    rw [htrace]
    exact List.mem_append_right _ he

theorem generation_of_step {pool pool' : DeskPool} {l : DeskLabel} (hk : DeskKept settings pool)
    (h : step (deskSystem settings) pool l = some pool') :
    pool.mem.vars.desk.control.generation ≤ pool'.mem.vars.desk.control.generation := by
  rcases later_of_step hk h with hlt | hrefines
  · exact hlt.le
  · exact hrefines.generation.ge

/-- The STOP of a call, which found the generation active, and may have been overtaken: it is
to start, has begun its exchange, or was cancelled. -/
inductive ChildAt (overtaken : Prop) (u generation : ℕ) (detail : String) (m : Memory) : Prop where
  | ready (shape : m.shape u = some (childStop detail, .ready))
  | begun (job : m.job u = some (childStop detail))
      (past : generation < m.vars.desk.control.generation)
      (recorded : ∃ baseline, .exchangeBegun u baseline ∈ m.vars.trace)
  | cancelled (shape : m.shape u = some (childStop detail, .finished (.error .cancelled)))
  | overtaken (r : Reply deskSignature) (shape : m.shape u = some (childStop detail, .finished r))
      (past : generation < m.vars.desk.control.generation) (h : overtaken)

/-- The STOP task `u` starts with a controller that runs or closes and no STOP in progress. -/
def StartsAlone (u : ℕ) (pool : DeskPool) : DeskLabel → Prop
  | .run t _ => t = u → ∀ job, pool.mem.shape u = some (job, .ready) →
      CanStop pool.mem.vars.desk
  | _ => True

section Child

variable {started : Instant} {ls : List DeskLabel} {pool pool' : DeskPool} {l : DeskLabel}
  {u generation : ℕ} {detail : String} {overtaken : Prop}

/-- The segment with which the STOP of a call starts. -/
theorem child_of_started
    (hexec : Transition.exec (step (deskSystem settings)) (deskStart settings started) ls =
      some pool) (hstanding : Standing generation pool.mem)
    (hready : pool.mem.shape u = some (childStop detail, .ready))
    (halone : ¬ overtaken → StartsAlone u pool l) {env : ℕ → Reading} (hl : l = .run u env)
    (hstep : step (deskSystem settings) pool l = some pool') :
    ChildAt overtaken u generation detail pool'.mem := by
  have hkept := kept_of_exec hexec
  have hstepped := stepped_contract contracted_exchange hexec hstep
  have hpast := standing_of_exec hkept hstanding
    (Transition.exec_cons hstep [] : _ = some pool')
  subst hl
  generalize hm : pool'.mem = m' at hstepped hpast ⊢
  cases hstepped with
  | @drop _ _ job htask =>
    rw [Mem.shape_eq_some.mpr ⟨_, htask⟩] at hready
    cases hready
    exact .cancelled (by rw [Mem.shape_finish (Mem.shape_eq_some.mpr ⟨_, htask⟩), if_pos rfl])
  | @run _ _ _ p q hsegment =>
    have hsame := hsegment.reach.sameSegment
    have hstart : q.start = pool.mem := hsame.start.trans hsegment.start
    have htask : q.task = u := hsame.task.trans hsegment.task
    have hjob : p.job = childStop detail := hsegment.job_self (Mem.job_of_shape hready)
    have hqjob : q.job = childStop detail := hsame.job.trans hjob
    have hfirst : q.start.shape q.task = some (q.job, .ready) := by
      rw [hstart, htask, hqjob]
      exact hready
    have hgoes : generation ≤ pool.mem.vars.desk.control.generation := by
      rcases hstanding with hlt | ⟨heq, _⟩
      · exact hlt.le
      · exact heq.ge
    -- A controller that does not run, or another STOP, has made the intent past.
    have hbroken : ¬ CanStop pool.mem.vars.desk →
        generation < pool.mem.vars.desk.control.generation ∧ overtaken := by
      intro hcannot
      constructor
      · rcases hstanding with hlt | ⟨_, hactive⟩
        · exact hlt
        · exact absurd ⟨.inl hactive.running, hactive.free⟩ hcannot
      · by_contra hnot
        exact hcannot (halone hnot rfl _ hready)
    have hnow : pool.mem.vars.desk.control.generation ≤ m'.vars.desk.control.generation := by
      rw [← hm]
      exact generation_of_step hkept hstep
    obtain ⟨status, hshape, hstopped⟩ := hsegment.shape_self hkept.absent
    rw [hjob] at hshape
    cases hstopped with
    | waiting w h =>
      obtain ⟨hpast, ⟨baseline, hrecorded⟩, _⟩ :=
        h.2 ⟨detail, hqjob⟩ fun hresumed => hresumed hfirst
      rw [hstart] at hpast
      refine .begun (Mem.job_of_shape hshape) ?_ ⟨baseline, ?_⟩
      · rw [hsegment.closes.vars]
        exact lt_of_le_of_lt hgoes hpast
      · rw [hsegment.closes.vars, ← htask]
        exact hrecorded
    | pausing h =>
      rw [h.1.2] at hqjob
      cases hqjob
    | finished r h =>
      cases h.1.child detail none hqjob with
      | joined latch _ _ =>
        rw [hstart] at latch
        obtain ⟨hlt, htaken⟩ := hbroken fun hcan => by rw [hcan.free] at latch; cases latch
        exact .overtaken _ hshape (hlt.trans_le hnow) htaken
      | exchanged _ w waits _ _ _ _ _ =>
        rw [Waits, hfirst] at waits
        cases waits
      | cancelled _ => exact .cancelled hshape
      | stopped running closing _ =>
        rw [hstart] at running closing
        have hcannot : ¬ CanStop pool.mem.vars.desk := by
          rintro ⟨hrunning | hclosing, _⟩
          · rw [running] at hrunning
            cases hrunning
          · rw [closing] at hclosing
            cases hclosing
        obtain ⟨hlt, htaken⟩ := hbroken hcannot
        exact .overtaken _ hshape (hlt.trans_le hnow) htaken

/-- The STOP task keeps its name. -/
theorem ChildAt.job {m : Memory} (h : ChildAt overtaken u generation detail m) :
    m.job u = some (childStop detail) := by
  cases h with
  | ready shape => exact Mem.job_of_shape shape
  | begun job _ _ => exact job
  | cancelled shape => exact Mem.job_of_shape shape
  | overtaken r shape _ _ => exact Mem.job_of_shape shape

/-- **Each step** leads the STOP of a call on. -/
theorem ChildAt.step
    (hexec : Transition.exec (step (deskSystem settings)) (deskStart settings started) ls =
      some pool) (hstanding : Standing generation pool.mem)
    (h : ChildAt overtaken u generation detail pool.mem)
    (halone : ¬ overtaken → StartsAlone u pool l)
    (hstep : step (deskSystem settings) pool l = some pool') :
    ChildAt overtaken u generation detail pool'.mem := by
  have hkept := kept_of_exec hexec
  have hlater := generation_of_step hkept hstep
  cases h with
  | ready shape =>
    by_cases hrun : ∃ env, l = .run u env
    · obtain ⟨env, hl⟩ := hrun
      exact child_of_started hexec hstanding shape halone hl hstep
    · have hne : ∀ env, l ≠ .run u env := fun env heq => hrun ⟨env, heq⟩
      exact .ready (parked_of_step (verified settings) hkept hstep hne shape).1
  | begun job past recorded =>
    exact .begun (job_of_step (verified settings) hkept hstep job) (past.trans_le hlater)
      (recorded.imp fun _ he => remembers_of_step hkept hstep he)
  | cancelled shape =>
    exact .cancelled (finished_of_step (verified settings) hkept hstep shape).2
  | overtaken r shape past h =>
    exact .overtaken r (finished_of_step (verified settings) hkept hstep shape).2
      (past.trans_le hlater) h

end Child

/-! ### Who records an exchange -/

/-- An exchange is recorded by its own task. -/
theorem Change.ownExchange {p : Spot} {v : Vars} (h : Change settings p v) :
    ∃ new, v.trace = new ++ p.mem.vars.trace ∧
      ∀ e ∈ new, ∀ u baseline, e = .exchangeBegun u baseline → u = p.task := by
  rcases h.records with hsame | ⟨e, htrace, he⟩
  · exact ⟨[], hsame, by simp⟩
  refine ⟨[e], htrace, fun e' he' u baseline heq => ?_⟩
  rw [List.mem_singleton.mp he'] at heq
  subst heq
  cases he
  rfl

section Recorded

variable {started : Instant} {ls : List DeskLabel} {pool pool' last : DeskPool} {l : DeskLabel}
  {u : ℕ} {baseline : Option Instant} {env : ℕ → Reading}

theorem recorded_of_step (hk : DeskKept settings pool)
    (hstep : step (deskSystem settings) pool l = some pool')
    (h : .exchangeBegun u baseline ∈ pool'.mem.vars.trace) :
    .exchangeBegun u baseline ∈ pool.mem.vars.trace ∨ ∃ env, l = .run u env := by
  cases l with
  | run t env =>
    obtain ⟨new, htrace, hnew⟩ := events_of_step
      (E := fun e => ∀ u baseline, e = .exchangeBegun u baseline → u = t) hk hstep
      fun p q v _ htask _ hsame hchange => by
        rw [← htask, ← hsame.task]
        exact hchange.ownExchange
    rw [htrace] at h
    rcases List.mem_append.mp h with hmem | hmem
    · exact .inr ⟨env, by rw [hnew _ hmem u baseline rfl]⟩
    · exact .inl hmem
  | call job =>
    have hstepped := (stepped_of_step (verified settings) hk hstep).2
    generalize pool'.mem = m' at hstepped h
    cases hstepped
    exact .inl h
  | cancel t =>
    have hstepped := (stepped_of_step (verified settings) hk hstep).2
    generalize pool'.mem = m' at hstepped h
    cases hstepped
    rw [(sameButCancelled_cancel pool.mem t).vars] at h
    exact .inl h

/-- A task that has run is not one that is to start. -/
theorem started_of_step (hk : DeskKept settings pool)
    (hstep : step (deskSystem settings) pool (.run u env) = some pool') :
    ∃ job status, pool'.mem.shape u = some (job, status) ∧ status ≠ .ready := by
  have hstepped := (stepped_of_step (verified settings) hk hstep).2
  generalize pool'.mem = m' at hstepped ⊢
  cases hstepped with
  | @drop _ _ job htask =>
    refine ⟨job, .finished (.error .cancelled), ?_, by simp⟩
    rw [Mem.shape_finish (Mem.shape_eq_some.mpr ⟨_, htask⟩), if_pos rfl]
  | @run _ _ _ p q hsegment =>
    obtain ⟨status, hshape, hstopped⟩ := hsegment.shape_self hk.absent
    exact ⟨p.job, status, hshape, by cases hstopped <;> simp⟩

/-- The task of an exchange that was recorded has started. -/
theorem started_of_recorded
    (hexec : Transition.exec (step (deskSystem settings)) (deskStart settings started) ls =
      some pool) (h : .exchangeBegun u baseline ∈ pool.mem.vars.trace) :
    ∃ job status, pool.mem.shape u = some (job, status) ∧ status ≠ .ready := by
  have hboth : DeskKept settings pool ∧ (.exchangeBegun u baseline ∈ pool.mem.vars.trace →
      ∃ job status, pool.mem.shape u = some (job, status) ∧ status ≠ .ready) := by
    refine Transition.invariant (I := fun pool : DeskPool => DeskKept settings pool ∧
      (.exchangeBegun u baseline ∈ pool.mem.vars.trace →
        ∃ job status, pool.mem.shape u = some (job, status) ∧ status ≠ .ready))
      ?_ ⟨kept_start _, fun hmem => by cases hmem⟩ hexec
    rintro m l m' ⟨hm, hstarted⟩ hs
    refine ⟨(stepped_of_step (verified settings) hm hs).1, fun hmem => ?_⟩
    by_cases hrun : ∃ env, l = .run u env
    · obtain ⟨env, rfl⟩ := hrun
      exact started_of_step hm hs
    · obtain ⟨job, status, hshape, hstatus⟩ :=
        hstarted ((recorded_of_step hm hs hmem).resolve_right hrun)
      have hne : ∀ env, l ≠ .run u env := fun env heq => hrun ⟨env, heq⟩
      exact ⟨job, status, (parked_of_step (verified settings) hm hs hne hshape).1, hstatus⟩
  exact hboth.2 h

/-- A task that is over, without an exchange, records none. -/
theorem unrecorded_of_exec (hk : DeskKept settings pool) {job : Job} {r : Reply deskSignature}
    (hover : pool.mem.shape u = some (job, .finished r))
    (hnone : .exchangeBegun u baseline ∉ pool.mem.vars.trace)
    (hexec : Transition.exec (step (deskSystem settings)) pool ls = some last) :
    .exchangeBegun u baseline ∉ last.mem.vars.trace := by
  have hall : DeskKept settings last ∧ last.mem.shape u = some (job, .finished r) ∧
      .exchangeBegun u baseline ∉ last.mem.vars.trace := by
    refine Transition.invariant (I := fun m : DeskPool => DeskKept settings m ∧
      m.mem.shape u = some (job, .finished r) ∧ .exchangeBegun u baseline ∉ m.mem.vars.trace)
      ?_ ⟨hk, hover, hnone⟩ hexec
    rintro m l m' ⟨hm, hshape, hnot⟩ hs
    obtain ⟨hne, hshape'⟩ := finished_of_step (verified settings) hm hs hshape
    refine ⟨(stepped_of_step (verified settings) hm hs).1, hshape', fun hmem => ?_⟩
    rcases recorded_of_step hm hs hmem with hold | ⟨env, heq⟩
    · exact hnot hold
    · exact hne env heq
  exact hall.2.2

/-- **A STOP task that runs its exchange has started alone.** -/
theorem canStop_of_recorded {detail : String}
    (hexec : Transition.exec (step (deskSystem settings)) (deskStart settings started) ls =
      some pool) (hready : pool.mem.shape u = some (childStop detail, .ready))
    (hstep : step (deskSystem settings) pool (.run u env) = some pool') {rest : List DeskLabel}
    (hrest : Transition.exec (step (deskSystem settings)) pool' rest = some last)
    (h : .exchangeBegun u baseline ∈ last.mem.vars.trace) : CanStop pool.mem.vars.desk := by
  by_contra hcannot
  have hkept := kept_of_exec hexec
  have hnone : .exchangeBegun u baseline ∉ pool.mem.vars.trace := by
    intro hmem
    obtain ⟨job, status, hshape, hstatus⟩ := started_of_recorded hexec hmem
    rw [hready] at hshape
    cases hshape
    exact hstatus rfl
  have hnext : pool'.mem.vars = pool.mem.vars ∧
      ∃ job r, pool'.mem.shape u = some (job, .finished r) := by
    have hstepped := stepped_contract contracted_exchange hexec hstep
    generalize pool'.mem = m' at hstepped ⊢
    cases hstepped with
    | @drop _ _ job htask =>
      refine ⟨Mem.vars_alter _ _ _, job, .error .cancelled, ?_⟩
      rw [Mem.shape_finish (Mem.shape_eq_some.mpr ⟨_, htask⟩), if_pos rfl]
    | @run _ _ _ p q hsegment =>
      have hsame := hsegment.reach.sameSegment
      have hstart : q.start = pool.mem := hsame.start.trans hsegment.start
      have hjob : p.job = childStop detail := hsegment.job_self (Mem.job_of_shape hready)
      have hqjob : q.job = childStop detail := hsame.job.trans hjob
      have hfirst : ¬ q.Resumed := by
        intro hresumed
        refine hresumed ?_
        rw [hstart, hsame.task, hsegment.task, hqjob]
        exact hready
      obtain ⟨status, hshape, hstopped⟩ := hsegment.shape_self hkept.absent
      cases hstopped with
      | waiting w h =>
        have hallowed := (h.2 ⟨detail, hqjob⟩ hfirst).allowed
        rw [hstart] at hallowed
        exact absurd hallowed hcannot
      | pausing h =>
        rw [h.1.2] at hqjob
        cases hqjob
      | finished r h =>
        refine ⟨?_, p.job, r, hshape⟩
        rw [hsegment.closes.vars, h.2 ⟨detail, hqjob⟩ hfirst, hstart]
  obtain ⟨hvars, job, r, hshape⟩ := hnext
  refine unrecorded_of_exec (stepped_of_step (verified settings) hkept hstep).1 hshape ?_ hrest h
  rw [hvars]
  exact hnone

end Recorded

/-! ## Refused calls -/

/-- The call of task `t`, which has got the intent lock with the step from `pool` to `pool'`,
installs nothing, then or later. -/
structure InstallsNone (settings : DeskSettings) (t : ℕ) (pool pool' : DeskPool) : Prop where
  unmoved : Unmoved pool.mem.vars pool'.mem.vars
  silent : ∀ ls last env next, Transition.exec (step (deskSystem settings)) pool' ls = some last →
    step (deskSystem settings) last (.run t env) = some next → next.mem.vars = last.mem.vars

/-- In `last` the motion that the call found is stopped: its intent is past, and the STOP task
that the call has created has run its exchange and is over. -/
structure StoppedFirst (pool pool' last : DeskPool) : Prop where
  past : pool.mem.vars.desk.control.generation < last.mem.vars.desk.control.generation
  child : ∃ detail, pool'.mem.shape pool.mem.count = some (childStop detail, .ready)
  ended : (last.mem.outcome pool.mem.count).isSome
  exchanged : ∃ baseline, .exchangeBegun pool.mem.count baseline ∈ last.mem.vars.trace

section Refused

variable {started : Instant} {ls : List DeskLabel} {pool pool' : DeskPool} {t : ℕ}
  {env : ℕ → Reading} {j : Job} {value : PyValue}

/-- A call that waits for its STOP, in a run of the controller. -/
structure Refusing (settings : DeskSettings) (started : Instant) (overtaken : Prop) (t u : ℕ)
    (j : Job) (generation : ℕ) (detail : String) (pool : DeskPool) : Prop where
  reached : ∃ ls, Transition.exec (step (deskSystem settings)) (deskStart settings started) ls =
    some pool
  standing : Standing generation pool.mem
  child : ChildAt overtaken u generation detail pool.mem
  giving : GivingUp t u j pool

theorem Refusing.step {overtaken : Prop} {u generation : ℕ} {detail : String} {l : DeskLabel}
    (h : Refusing settings started overtaken t u j generation detail pool)
    (halone : ¬ overtaken → StartsAlone u pool l)
    (hstep : Coroutine.step (deskSystem settings) pool l = some pool') :
    Refusing settings started overtaken t u j generation detail pool' := by
  obtain ⟨ls, hexec⟩ := h.reached
  have hkept := kept_of_exec hexec
  refine ⟨⟨ls ++ [l], ?_⟩, ?_, h.child.step hexec h.standing halone hstep,
    (h.giving.step (verified settings) hkept hstep).1⟩
  · exact Transition.exec_append.mpr ⟨pool, hexec, Transition.exec_cons hstep []⟩
  · exact standing_of_exec hkept h.standing (Transition.exec_cons hstep [] : _ = some pool')

theorem Refusing.run {overtaken : Prop} {u generation : ℕ} {detail : String}
    {ok : DeskPool → DeskLabel → Prop}
    (h : Refusing settings started overtaken t u j generation detail pool)
    (halone : ∀ pool l, ¬ overtaken → ok pool l → StartsAlone u pool l)
    (hmeets : Transition.Meets (Coroutine.step (deskSystem settings)) ok pool ls)
    (hexec : Transition.exec (Coroutine.step (deskSystem settings)) pool ls = some pool') :
    Refusing settings started overtaken t u j generation detail pool' :=
  Transition.invariant_of_meets
    (fun pool l _ hr hok hs => hr.step (fun hnot => halone pool l hnot hok) hs) h hmeets hexec

/-- The STOP of a call that is over has stopped the intent, and has run its exchange unless it
was overtaken. -/
theorem ChildAt.over {overtaken : Prop} {u generation : ℕ} {detail : String} {m : Memory}
    (h : ChildAt overtaken u generation detail m) (hanswered : Coroutine.Answered u m) :
    generation < m.vars.desk.control.generation ∧
      (overtaken ∨ ∃ baseline, .exchangeBegun u baseline ∈ m.vars.trace) := by
  obtain ⟨j', r, hshape, hr⟩ := hanswered
  cases h with
  | ready shape =>
    rw [shape] at hshape
    cases hshape
  | begun _ past recorded => exact ⟨past, .inr recorded⟩
  | cancelled shape =>
    rw [shape] at hshape
    cases hshape
    exact absurd rfl hr
  | overtaken _ _ past h => exact ⟨past, .inl h⟩

/-- A call with a value that escapes raises at once, and creates no task. -/
theorem raised_of_escapes (hj : j.argument? = some value) (h : value.escapes = true)
    (hexec : Transition.exec (step (deskSystem settings)) (deskStart settings started) ls =
      some pool) (henters : GetsIntent pool t j)
    (hstep : step (deskSystem settings) pool (.run t env) = some pool') :
    pool'.mem.vars = pool.mem.vars ∧ pool'.mem.shape pool.mem.count = none ∧
      ∃ e, pool'.mem.shape t = some (j, .finished (.error (.error e))) := by
  have hkept := kept_of_exec hexec
  obtain ⟨e, he⟩ := operation_of_escapes hj settings h
  obtain ⟨m, hvars, hcount, hshape, hgo⟩ := getsIntent_cases hj hexec henters hstep
  have hmem : pool'.mem = (m.release .intent).finish t (.error (.error e)) := by
    rw [hgo, he]
    rfl
  have hreleased : (m.release .intent).shape t = some (j, .running) := by
    rw [← hshape]
    rfl
  have hkept' := (stepped_of_step (verified settings) hkept hstep).1
  refine ⟨?_, ?_, e, ?_⟩
  · rw [hmem]
    exact (Mem.vars_alter _ _ _).trans hvars
  · have hsame : pool'.mem.count = pool.mem.count := by
      rw [hmem]
      exact (Mem.count_alter _ _ _).trans hcount
    rw [Mem.shape, hkept'.absent _ hsame.le]
    rfl
  · rw [hmem, Mem.shape_finish hreleased, if_pos rfl]

/-- **A refused call installs nothing, and raises only after its STOP exactly if** its value
does not escape and its STOP task starts alone.  The call gets the intent lock while a motion
is active, with a value that is no target or amount for it. -/
theorem refused_stops_iff
    (hexec : Transition.exec (step (deskSystem settings)) (deskStart settings started) ls =
      some pool) (henters : GetsIntent pool t j)
    (hstep : step (deskSystem settings) pool (.run t env) = some pool')
    (hactive : ActiveMotion pool.mem) (hj : j.argument? = some value)
    (hrefused : refused settings pool.mem.vars.desk.control j = true) :
    InstallsNone settings t pool pool' ∧
      ∀ ls last r, Transition.exec (step (deskSystem settings)) pool' ls = some last →
        last.mem.outcome t = some r → ∃ e, r = .error e ∧ (e ≠ .cancelled →
          (StoppedFirst pool pool' last ↔ value.escapes = false ∧
            Transition.Meets (step (deskSystem settings)) (StartsAlone pool.mem.count) pool' ls)) := by
  have hkept := kept_of_exec hexec
  have hexec' := Transition.exec_append.mpr ⟨pool, hexec, Transition.exec_cons hstep []⟩
  cases htaken : value.escapes with
  | true =>
    obtain ⟨hvars, hnone, e, hraised⟩ := raised_of_escapes hj htaken hexec henters hstep
    have hends : ∀ ls last, Transition.exec (step (deskSystem settings)) pool' ls = some last →
        DeskKept settings last ∧ last.mem.shape t = some (j, .finished (.error (.error e))) := by
      intro ls last hlast
      refine Transition.invariant (I := fun m : DeskPool => DeskKept settings m ∧
        m.mem.shape t = some (j, .finished (.error (.error e)))) ?_
        ⟨kept_of_exec hexec', hraised⟩ hlast
      rintro m l m' ⟨hm, hshape⟩ hs
      exact ⟨(stepped_of_step (verified settings) hm hs).1,
        (finished_of_step (verified settings) hm hs hshape).2⟩
    refine ⟨⟨by rw [hvars]; exact .refl _, ?_⟩, ?_⟩
    · intro ls last env next hlast hnext
      obtain ⟨hm, hshape⟩ := hends ls last hlast
      exact absurd rfl ((finished_of_step (verified settings) hm hnext hshape).1 env)
    · intro ls last r hlast hout
      obtain ⟨job, hshape⟩ := shape_of_outcome hout
      rw [(hends ls last hlast).2] at hshape
      cases hshape
      refine ⟨_, rfl, fun _ => ⟨fun hstopped => ?_, fun h => by cases h.1⟩⟩
      obtain ⟨detail, hchild⟩ := hstopped.child
      rw [hnone] at hchild
      cases hchild
  | false =>
    obtain ⟨detail, hgiving, hready, hunmoved⟩ :=
      entered_refused hj htaken hexec henters hrefused hactive.mode hstep
    have hstanding : Standing pool.mem.vars.desk.control.generation pool'.mem :=
      standing_of_exec hkept (.inr ⟨rfl, hactive⟩)
        (Transition.exec_cons hstep [] : _ = some pool')
    have hrefusing : ∀ overtaken, Refusing settings started overtaken t pool.mem.count j
        pool.mem.vars.desk.control.generation detail pool' :=
      fun _ => ⟨⟨_, hexec'⟩, hstanding, .ready hready, hgiving⟩
    refine ⟨⟨hunmoved, ?_⟩, ?_⟩
    · intro ls last env next hlast hnext
      have hend := (hrefusing True).run (fun _ _ hnot _ => absurd trivial hnot)
        (Transition.meets_true _ _) hlast
      obtain ⟨_, hreached⟩ := hend.reached
      exact (hend.giving.step (verified settings) (kept_of_exec hreached) hnext).2 env rfl
    · intro ls last r hlast hout
      have hend := (hrefusing True).run (fun _ _ hnot _ => absurd trivial hnot)
        (Transition.meets_true _ _) hlast
      obtain ⟨e, rfl, hanswered⟩ := hend.giving.raised hout
      refine ⟨e, rfl, fun he => ⟨fun hstopped => ⟨rfl, ?_⟩, fun hmeets => ?_⟩⟩
      · -- An exchange that was run was begun alone.
        obtain ⟨baseline, hrecorded⟩ := hstopped.exchanged
        refine Transition.meets_of_at_step fun before l after m heq hm => ?_
        cases l with
        | call _ => trivial
        | cancel _ => trivial
        | run u env =>
          rintro rfl job hshape
          rw [heq] at hlast
          obtain ⟨mid, hmid, hrest⟩ := Transition.exec_append.mp hlast
          obtain rfl : mid = m := Option.some.inj (hmid.symm.trans hm)
          obtain ⟨next, hnext, hafter⟩ := Transition.exec_cons_eq_some.mp hrest
          have hmid' := Transition.exec_append.mpr ⟨pool', hexec', hmid⟩
          have hjob : mid.mem.job pool.mem.count = some (childStop detail) :=
            ((hrefusing True).run (fun _ _ hnot _ => absurd trivial hnot)
              (Transition.meets_true _ _) hmid).child.job
          rw [Mem.job_of_shape hshape] at hjob
          cases hjob
          exact canStop_of_recorded hmid' hshape hnext hafter hrecorded
      · have hstopped := hanswered he
        have halone := (hrefusing False).run (fun _ _ _ hok => hok) hmeets.2 hlast
        refine ⟨(hend.child.over hstopped).1, ⟨detail, hready⟩, ?_,
          (halone.child.over hstopped).2.resolve_left id⟩
        obtain ⟨j', r, hshape, _⟩ := hstopped
        obtain ⟨c, htask⟩ := Mem.shape_eq_some.mp hshape
        rw [Mem.outcome, htask]
        rfl

end Refused

/-! ## Two refused values -/

/-- A motion to 100 cm is active, and `set_target` is called with the value. -/
def replacing (value : PyValue) : List DeskLabel :=
  bootRun ++ [.call (.setTarget (.int 100)), .run 2 fun _ => readingAt 2, .call (.setTarget value)]

/-- The task is no `stop()` that waits. -/
def notStopping : Task deskSignature → Bool
  | ⟨.stop, .waiting _, _⟩ => false
  | _ => true

/-- The task is a call with the name `j` that starts. -/
def isReady (j : Job) : Task deskSignature → Bool
  | ⟨job, .ready, cancelled⟩ => decide (job = j) && !cancelled
  | _ => false

theorem eq_of_isReady {j : Job} {k : Task deskSignature} (h : isReady j k = true) :
    k = ⟨j, .ready, false⟩ := by
  obtain ⟨job, status, cancelled⟩ := k
  cases status with
  | ready =>
    obtain ⟨hjob, hcancelled⟩ := Bool.and_eq_true_iff.mp h
    have htold : cancelled = false := by simpa using hcancelled
    rw [of_decide_eq_true hjob, htold]
  | _ => cases h

/-- What `set_target` finds, computed: an active motion, and a value that it refuses. -/
def foundBy (value : PyValue) (pool : DeskPool) : Bool :=
  (pool.mem.task 3).any (isReady (.setTarget value)) && pool.mem.free .intent &&
    pool.mem.vars.desk.running && !pool.mem.vars.desk.closing &&
    !pool.mem.vars.desk.stopInProgress && (pool.mem.vars.desk.control.mode == .target) &&
    pool.mem.all notStopping &&
    refused .default pool.mem.vars.desk.control (.setTarget value)

theorem found_of_checked {value : PyValue} {ls : List DeskLabel} {pool : DeskPool}
    (hexec : Transition.exec (step (deskSystem .default)) (deskStart .default 0) ls = some pool)
    (h : foundBy value pool = true) :
    GetsIntent pool 3 (.setTarget value) ∧ ActiveMotion pool.mem ∧
      refused .default pool.mem.vars.desk.control (.setTarget value) = true := by
  simp only [foundBy, Bool.and_eq_true, Bool.not_eq_true', beq_iff_eq] at h
  obtain ⟨⟨⟨⟨⟨⟨⟨hready, hfree⟩, hrunning⟩, hclosing⟩, hlatch⟩, hmode⟩, hall⟩, hrefused⟩ := h
  obtain ⟨k, htask, hk⟩ := (Option.any_eq_true _ _).mp hready
  rw [eq_of_isReady hk] at htask
  refine ⟨.inl ⟨htask, hfree⟩, ⟨hrunning, hclosing, hlatch, by rw [hmode]; simp, ?_⟩, hrefused⟩
  intro t w hshape
  obtain ⟨cancelled, ht⟩ := Mem.shape_eq_some.mp hshape
  cases Mem.of_all hall (kept_of_exec hexec).absent ht

/-- **An `int` beyond all floats is refused without a STOP**: the motion goes on. -/
theorem invalid_not_stopped : ¬ ∀ settings started ls pool pool' t env j value,
    Transition.exec (step (deskSystem settings)) (deskStart settings started) ls = some pool →
    GetsIntent pool t j → step (deskSystem settings) pool (.run t env) = some pool' →
    ActiveMotion pool.mem → j.argument? = some value →
    refused settings pool.mem.vars.desk.control j = true →
    InstallsNone settings t pool pool' ∧
      ∀ ls last r, Transition.exec (step (deskSystem settings)) pool' ls = some last →
        last.mem.outcome t = some r →
        ∃ e, r = .error e ∧ (e ≠ .cancelled → StoppedFirst pool pool' last) := by
  intro hclaim
  have hfound : (Transition.exec (step (deskSystem .default)) (deskStart .default 0)
      (replacing (.int (2 ^ 1024)))).map (fun pool =>
        (foundBy (.int (2 ^ 1024)) pool, pool.mem.vars.desk.control.generation)) =
      some (true, 2) := by
    decide +kernel
  have hraised : (Transition.exec (step (deskSystem .default)) (deskStart .default 0)
      (replacing (.int (2 ^ 1024)) ++ [.run 3 fun _ => readingAt 3])).map (fun pool =>
        (decide (pool.mem.outcome 3 =
          some (.error (.error (.overflowError "int too large to convert to float")))),
          pool.mem.vars.desk.control.generation)) = some (true, 2) := by
    decide +kernel
  obtain ⟨pool, hexec, hstate⟩ := Option.map_eq_some_iff.mp hfound
  obtain ⟨pool', hexec', hstate'⟩ := Option.map_eq_some_iff.mp hraised
  obtain ⟨hchecked, hbefore⟩ := Prod.mk.inj hstate
  obtain ⟨hout, hafter⟩ := Prod.mk.inj hstate'
  obtain ⟨mid, hmid, hlast⟩ := Transition.exec_append.mp hexec'
  obtain rfl : mid = pool := Option.some.inj (hmid.symm.trans hexec)
  obtain ⟨next, hstep, hnil⟩ := Transition.exec_cons_eq_some.mp hlast
  cases hnil
  obtain ⟨henters, hactive, hrefused⟩ := found_of_checked hexec hchecked
  have hraises := (hclaim _ _ _ _ _ _ _ _ _ hexec henters hstep hactive rfl hrefused).2
  obtain ⟨e, heq, hstopped⟩ := hraises [] pool' _ rfl (of_decide_eq_true hout)
  cases heq
  have hlt := (hstopped (by simp)).past
  rw [hbefore, hafter] at hlt
  exact lt_irrefl _ hlt

/-- The condition of `refused_stops_iff` on the STOP task, computed. -/
def checkStartsAlone (u : ℕ) (pool : DeskPool) : DeskLabel → Bool
  | .run t _ => t != u ||
      match pool.mem.task u with
      | some ⟨_, .ready, _⟩ =>
          (pool.mem.vars.desk.running || pool.mem.vars.desk.closing) &&
            !pool.mem.vars.desk.stopInProgress
      | _ => true
  | _ => true

theorem startsAlone_of_checked {u : ℕ} {pool : DeskPool} {l : DeskLabel}
    (h : checkStartsAlone u pool l = true) : StartsAlone u pool l := by
  cases l with
  | call _ => trivial
  | cancel _ => trivial
  | run t env =>
    rintro rfl job hshape
    obtain ⟨cancelled, htask⟩ := Mem.shape_eq_some.mp hshape
    rw [checkStartsAlone, htask] at h
    simp only [bne_self_eq_false, Bool.false_or, Bool.and_eq_true, Bool.or_eq_true,
      Bool.not_eq_true'] at h
    exact ⟨h.1, h.2⟩

/-- The STOP of the call publishes and is answered, and the call goes on. -/
def answeredStop : List DeskLabel :=
  [.run 4 fun _ => readingAt 3, .run 4 fun _ => readingAt 4, .run 3 fun _ => readingAt 4]

def isValueError : Reply deskSignature → Bool
  | .error (.error (.valueError _)) => true
  | _ => false

/-- A target out of range is refused with a `ValueError`, after a STOP. -/
theorem refused_stops_outOfRange : ∃ pool pool' last : DeskPool,
    InstallsNone .default 3 pool pool' ∧ (last.mem.outcome 3).any isValueError = true ∧
      StoppedFirst pool pool' last := by
  have htaken : (PyValue.int 1000).escapes = false := by
    decide +kernel
  have hfound : (Transition.exec (step (deskSystem .default)) (deskStart .default 0)
      (replacing (.int 1000))).map (fun pool => (foundBy (.int 1000) pool, pool.mem.count)) =
      some (true, 4) := by
    decide +kernel
  have hraised : (Transition.exec (step (deskSystem .default)) (deskStart .default 0)
      (replacing (.int 1000) ++ .run 3 (fun _ => readingAt 3) :: answeredStop)).map
      (fun pool => (pool.mem.outcome 3).any isValueError) = some true := by
    decide +kernel
  have hchecked : Transition.Meets (step (deskSystem .default))
      (fun pool l => checkStartsAlone 4 pool l = true) (deskStart .default 0)
      (replacing (.int 1000) ++ .run 3 (fun _ => readingAt 3) :: answeredStop) := by
    decide +kernel
  obtain ⟨pool, hexec, hstate⟩ := Option.map_eq_some_iff.mp hfound
  obtain ⟨last, hall, hout⟩ := Option.map_eq_some_iff.mp hraised
  obtain ⟨hfoundBy, hcount⟩ := Prod.mk.inj hstate
  obtain ⟨mid, hmid, hafter⟩ := Transition.exec_append.mp hall
  obtain rfl : mid = pool := Option.some.inj (hmid.symm.trans hexec)
  obtain ⟨pool', hstep, hlast⟩ := Transition.exec_cons_eq_some.mp hafter
  obtain ⟨henters, hactive, hrefused⟩ := found_of_checked hexec hfoundBy
  have hmeets : Transition.Meets (step (deskSystem .default)) (StartsAlone mid.mem.count) pool'
      answeredStop := by
    rw [hcount]
    exact .mono (I := fun _ => True) (fun _ _ _ _ _ _ => trivial)
      (fun _ _ _ => startsAlone_of_checked) trivial
      (((Transition.meets_append hchecked).2 mid hexec).2 pool' hstep)
  obtain ⟨hnone, hraises⟩ := refused_stops_iff hexec henters hstep hactive rfl hrefused
  obtain ⟨r, hended, hr⟩ := (Option.any_eq_true _ _).mp hout
  obtain ⟨e, rfl, hiff⟩ := hraises answeredStop last r hlast hended
  have hne : e ≠ .cancelled := by
    rintro rfl
    cases hr
  exact ⟨mid, pool', last, hnone, hout, (hiff hne).mpr ⟨htaken, hmeets⟩⟩

end SmartDesk.Desk
