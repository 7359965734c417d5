import SmartDesk.Desk.Exchange

/-!
# The guards before a motion

What the guards of the controller check, as rules for the programs that call them.  A
guard reads snapshots and clocks and may raise; it changes nothing.

* `Reads` — a later point of the same segment, with the memory unchanged.
* `MeasuredHeight`, `ReadyRelay` — what the guards grant for a pulse.
* `runs_requireHeight`, `runs_requireRelayReady`, `runs_admitMotion`, … — the rules.
-/

namespace SmartDesk.Desk

open Coroutine Code

variable {settings : DeskSettings} {p : Spot}

/-! ## Reading -/

/-- Only readings have been taken. -/
def Reads (p p' : Spot) : Prop := ∃ n, p' = { p with env := fun i => p.env (i + n) }

theorem Reads.refl (p : Spot) : Reads p p := ⟨0, rfl⟩

theorem Reads.next {p q : Spot} (h : Reads p q) : Reads p q.next := by
  obtain ⟨n, rfl⟩ := h
  refine ⟨n + 1, ?_⟩
  have henv : (fun i => p.env (i + 1 + n)) = fun i => p.env (i + (n + 1)) := by
    funext i
    rw [Nat.add_assoc, Nat.add_comm 1 n]
  show ({ p with env := fun i => p.env (i + 1 + n) } : Spot) = _
  rw [henv]

theorem Reads.trans {p q s : Spot} (h : Reads p q) (h' : Reads q s) : Reads p s := by
  obtain ⟨n, rfl⟩ := h
  obtain ⟨m, rfl⟩ := h'
  refine ⟨m + n, ?_⟩
  have henv : (fun i => p.env (i + m + n)) = fun i => p.env (i + (m + n)) := by
    funext i
    rw [Nat.add_assoc]
  show ({ p with env := fun i => p.env (i + m + n) } : Spot) = _
  rw [henv]

section Reads

variable {p p' : Spot} (h : Reads p p')
include h

theorem Reads.mem : p'.mem = p.mem := by
  obtain ⟨n, rfl⟩ := h
  rfl

theorem Reads.task : p'.task = p.task := by
  obtain ⟨n, rfl⟩ := h
  rfl

theorem Reads.job : p'.job = p.job := by
  obtain ⟨n, rfl⟩ := h
  rfl

theorem Reads.start : p'.start = p.start := by
  obtain ⟨n, rfl⟩ := h
  rfl

theorem Reads.lock {l : DeskLock} (hl : HasLock p l) : HasLock p' l := by
  obtain ⟨n, rfl⟩ := h
  exact hl

theorem Reads.cleared (hc : Cleared p) : Cleared p' := by
  obtain ⟨n, rfl⟩ := h
  exact hc

theorem Reads.handsOver {found new : ControlState} (hh : HandsOver settings p found new) :
    HandsOver settings p' found new := by
  obtain ⟨n, rfl⟩ := h
  rcases hh with hmode | hstop | hdirect
  · exact .inl hmode
  · exact .inr (.inl hstop)
  · exact .inr (.inr ⟨hdirect.1, hdirect.2, hdirect.3, hdirect.4⟩)

theorem Reads.broken (hb : Broken settings p) : Broken settings p' := by
  obtain ⟨n, rfl⟩ := h
  exact hb

theorem Reads.fit {latched : Bool} (hf : Fit latched p) : Fit latched p' := by
  obtain ⟨n, rfl⟩ := h
  exact ⟨hf.calm, hf.latch, hf.shut, hf.manned, hf.unhindered, hf.held, fun i => hf.env (i + n)⟩

theorem Reads.after : After p p' := by
  obtain ⟨n, rfl⟩ := h
  exact ⟨rfl, rfl, id, .refl _, [], rfl⟩

theorem Reads.back (hp : Home p) : Back p p' := ⟨h.fit hp, h.after⟩

end Reads

/-- What follows a reading follows the point before it. -/
theorem Reads.backTrans {p q s : Spot} (h : Reads p q) (h' : Back q s) : Back p s :=
  ⟨h'.home, h.after.trans h'.after⟩

/-- An error is a rejection. -/
def Rejection {α : Type} (r : Except (Raised Exc) α) : Prop :=
  ∀ e, r = .error e → ∃ text, e = .error (.rejected text)

/-! ## What the guards grant -/

theorem measured_of_any {snapshot : HeightSnapshot}
    (hheight : snapshot.heightCm.any (measured settings) = true)
    (hobserved : snapshot.observedAt.isSome = true) : Measured settings snapshot := by
  obtain ⟨h, hh, hmeasured⟩ : ∃ h, snapshot.heightCm = some h ∧ measured settings h = true := by
    cases hcm : snapshot.heightCm with
    | none => rw [hcm] at hheight; cases hheight
    | some h => rw [hcm] at hheight; exact ⟨h, rfl, hheight⟩
  simp only [measured, Bool.and_eq_true, decide_eq_true_eq] at hmeasured
  obtain ⟨⟨hfinite, hmin⟩, hmax⟩ := hmeasured
  obtain ⟨q, rfl⟩ := Ieee.exists_of_isFinite hfinite
  exact ⟨⟨q, hh, Ieee.finite_le_finite.mp hmin, Ieee.finite_le_finite.mp hmax⟩,
    Option.isSome_iff_exists.mp hobserved⟩

/-- What `_require_height` grants. -/
structure MeasuredHeight (settings : DeskSettings) (snapshot : HeightSnapshot) : Prop
    extends Measured settings snapshot where
  online : snapshot.status = .online

/-- What `_require_relay_ready` grants. -/
structure ReadyRelay (settings : DeskSettings) (snapshot : RelaySnapshot)
    (checkedAt : Instant) : Prop extends AvailableRelay settings snapshot checkedAt where
  lease : ∀ code, snapshot.code = some code → code ∉ leaseCodes

/-! ## The rules -/

theorem runs_requireHeight :
    Runs settings (requireHeight settings) p fun p' r =>
      Reads p p' ∧ Rejection r ∧
        ∀ snapshot, r = .ok snapshot →
          MeasuredHeight settings snapshot ∧ snapshot = (p.env 0).height := by
  unfold requireHeight
  rw [runs_bind, runs_height]
  dsimp only
  rw [runs_bind, runs_require]
  constructor
  · intro h
    refine ⟨(Reads.refl p).next, fun _ he => (by cases he), ?_⟩
    rintro snapshot ⟨⟩
    simp only [Bool.and_eq_true, beq_iff_eq] at h
    exact ⟨⟨measured_of_any h.1.2 h.2, h.1.1⟩, rfl⟩
  · intro _
    refine ⟨(Reads.refl p).next, ?_, fun _ he => by cases he⟩
    rintro e ⟨⟩
    exact ⟨_, rfl⟩

theorem runs_requireWakeBasis {snapshot : HeightSnapshot} :
    Runs settings (requireWakeBasis settings snapshot) p fun p' r =>
      p' = p ∧ Rejection r ∧
        ∀ basis, r = .ok basis → basis = snapshot ∧ WakeBasis settings snapshot := by
  unfold requireWakeBasis
  rw [runs_bind, runs_require]
  constructor
  · intro h
    refine ⟨rfl, fun _ he => (by cases he), ?_⟩
    rintro basis ⟨⟩
    simp only [Bool.and_eq_true, Bool.or_eq_true, beq_iff_eq] at h
    exact ⟨rfl, measured_of_any h.1.2 h.2, h.1.1⟩
  · intro _
    refine ⟨rfl, ?_, fun _ he => by cases he⟩
    rintro e ⟨⟩
    exact ⟨_, rfl⟩

/-- A rejection after some readings. -/
theorem rejected_next {α : Type} {q : Spot} (h : Reads p q) (text : String)
    {P : α → Prop} :
    Reads p q ∧ Rejection (.error (.error (.rejected text)) : Except (Raised Exc) α) ∧
      ∀ a, (.error (.error (.rejected text)) : Except (Raised Exc) α) = .ok a → P a := by
  refine ⟨h, ?_, fun _ he => by cases he⟩
  rintro e ⟨⟩
  exact ⟨_, rfl⟩

theorem runs_requireRelayAvailableForWake :
    Runs settings (requireRelayAvailableForWake settings) p fun p' r =>
      Reads p p' ∧ Rejection r ∧
        ∀ checked, r = .ok checked →
          AvailableRelay settings checked.1 checked.2 ∧
            checked = ((p.env 0).relay, (p.env 1).now) := by
  have hread := (Reads.refl p).next
  unfold requireRelayAvailableForWake
  rw [runs_bind, runs_relay]
  dsimp only
  rw [runs_bind, runs_require]
  refine ⟨fun hvalid => ?_, fun _ => rejected_next hread _⟩
  dsimp only
  rw [runs_bind, runs_require]
  refine ⟨fun hevent => ?_, fun _ => rejected_next hread _⟩
  dsimp only
  rw [runs_bind, runs_require]
  refine ⟨fun hlive => ?_, fun _ => rejected_next hread _⟩
  dsimp only
  rw [runs_bind, runs_require]
  refine ⟨fun hfirmware => ?_, fun _ => rejected_next hread _⟩
  dsimp only
  cases hreceived : (p.env 0).relay.receivedAt with
  | none => exact rejected_next hread _
  | some receivedAt =>
    dsimp only
    rw [runs_bind, runs_now]
    dsimp only
    rw [runs_bind, runs_require]
    refine ⟨fun hage => ?_, fun _ => rejected_next hread.next _⟩
    refine ⟨hread.next, fun _ he => (by cases he), ?_⟩
    rintro checked ⟨⟩
    simp only [Bool.and_eq_true, decide_eq_true_eq] at hage
    refine ⟨⟨?_, ?_, ?_, receivedAt, hreceived, hage.1, hage.2⟩, rfl⟩
    · simpa using hvalid
    · obtain ⟨e, he⟩ := Option.isSome_iff_exists.mp hevent
      rw [he] at hlive
      simp only [Bool.and_eq_true, bne_iff_ne, ne_eq, Option.some.injEq] at hlive
      exact ⟨e, he, hlive.1, hlive.2⟩
    · cases hf : (p.env 0).relay.firmware with
      | none => rw [hf] at hfirmware; cases hfirmware
      | some f =>
        rw [hf] at hfirmware
        exact ⟨f, rfl, by simpa using hfirmware⟩

theorem runs_requireRelayReady :
    Runs settings (requireRelayReady settings) p fun p' r =>
      Reads p p' ∧ Rejection r ∧
        ∀ checked, r = .ok checked →
          ReadyRelay settings checked.1 checked.2 ∧ checked.1 = (p.env 0).relay := by
  unfold requireRelayReady
  rw [runs_bind]
  refine runs_requireRelayAvailableForWake.mono ?_
  rintro p' (e | checked) ⟨hread, hrejection, hok⟩
  · refine ⟨hread, ?_, fun _ he => by cases he⟩
    rintro e' ⟨⟩
    exact hrejection e rfl
  dsimp only
  rw [runs_bind, runs_require]
  refine ⟨fun hlease => ?_, fun _ => rejected_next hread _⟩
  refine ⟨hread, fun _ he => (by cases he), ?_⟩
  rintro checked' ⟨⟩
  obtain ⟨havailable, hrelay⟩ := hok checked rfl
  refine ⟨⟨havailable, ?_⟩, congrArg Prod.fst hrelay⟩
  intro code hcode
  rw [hcode] at hlease
  simpa using hlease

theorem runs_requireDirectionAllowed {heightCm : Ieee} {direction : Direction} :
    Runs settings (requireDirectionAllowed settings heightCm direction) p fun p' r =>
      p' = p ∧ Rejection r ∧ ∀ u, r = .ok u → Away settings heightCm direction := by
  cases direction with
  | up =>
    unfold requireDirectionAllowed
    rw [runs_require]
    constructor
    · intro h
      refine ⟨rfl, fun _ he => (by cases he), fun _ _ => ?_⟩
      simpa [Away] using h
    · intro _
      refine ⟨rfl, ?_, fun _ he => by cases he⟩
      rintro e ⟨⟩
      exact ⟨_, rfl⟩
  | down =>
    unfold requireDirectionAllowed
    rw [runs_require]
    constructor
    · intro h
      refine ⟨rfl, fun _ he => (by cases he), fun _ _ => ?_⟩
      simpa [Away] using h
    · intro _
      refine ⟨rfl, ?_, fun _ he => by cases he⟩
      rintro e ⟨⟩
      exact ⟨_, rfl⟩

/-- What an admission grants: the controller runs and no STOP is in progress. -/
structure Admitted (d : DeskController) : Prop where
  running : d.running = true
  closing : d.closing = false
  stopInProgress : d.stopInProgress = false

/-- Why an admission fails. -/
def Declined (d : DeskController) (e : Exc) : Prop :=
  (∃ text, e = .rejected text) ∨ Refused d e

theorem runs_admitMotion :
    Runs settings (admitMotion settings) p fun p' r =>
      Reads p p' ∧ (∀ e, r = .error e → ∃ x, e = .error x ∧ Declined p.mem.vars.desk x) ∧
        ∀ granted, r = .ok granted →
          Admitted p.mem.vars.desk ∧ MeasuredHeight settings granted.1 := by
  unfold admitMotion
  rw [runs_bind]
  refine runs_requireRunningLocked (fun hrunning hclosing hfree => ?_) fun x hx => ?_
  · dsimp only
    rw [runs_bind]
    refine runs_requireHeight.mono ?_
    rintro p' (e | snapshot) ⟨hread, hrejection, hok⟩
    · refine ⟨hread, ?_, fun _ he => by cases he⟩
      rintro e' ⟨⟩
      obtain ⟨text, rfl⟩ := hrejection e rfl
      exact ⟨_, rfl, .inl ⟨text, rfl⟩⟩
    dsimp only
    rw [runs_bind]
    refine runs_requireRelayReady.mono ?_
    rintro p'' (e | checked) ⟨hread', hrejection, _⟩
    · refine ⟨hread.trans hread', ?_, fun _ he => by cases he⟩
      rintro e' ⟨⟩
      obtain ⟨text, rfl⟩ := hrejection e rfl
      exact ⟨_, rfl, .inl ⟨text, rfl⟩⟩
    dsimp only
    rw [runs_bind, runs_require]
    constructor
    · intro _
      refine ⟨hread.trans hread', fun _ he => (by cases he), ?_⟩
      rintro granted ⟨⟩
      exact ⟨⟨hrunning, hclosing, hfree⟩, (hok snapshot rfl).1⟩
    · intro _
      refine ⟨hread.trans hread', ?_, fun _ he => by cases he⟩
      rintro e' ⟨⟩
      exact ⟨_, rfl, .inl ⟨_, rfl⟩⟩
  · refine ⟨.refl p, ?_, fun _ he => by cases he⟩
    rintro e' ⟨⟩
    exact ⟨x, rfl, .inr hx⟩

theorem runs_admitWake :
    Runs settings (admitWake settings) p fun p' r =>
      Reads p p' ∧ (∀ e, r = .error e → ∃ x, e = .error x ∧ Declined p.mem.vars.desk x) ∧
        ∀ relay, r = .ok relay → Admitted p.mem.vars.desk ∧
          AvailableRelay settings (p.env 0).relay (p.env 1).now := by
  unfold admitWake
  rw [runs_bind]
  refine runs_requireRunningLocked (fun hrunning hclosing hfree => ?_) fun x hx => ?_
  · dsimp only
    rw [runs_bind]
    refine runs_requireRelayAvailableForWake.mono ?_
    rintro p' (e | checked) ⟨hread, hrejection, hok⟩
    · refine ⟨hread, ?_, fun _ he => by cases he⟩
      rintro e' ⟨⟩
      obtain ⟨text, rfl⟩ := hrejection e rfl
      exact ⟨_, rfl, .inl ⟨text, rfl⟩⟩
    dsimp only
    rw [runs_bind, runs_require]
    constructor
    · intro _
      obtain ⟨havailable, rfl⟩ := hok checked rfl
      exact ⟨hread, fun e he => (by cases he), fun _ _ =>
        ⟨⟨hrunning, hclosing, hfree⟩, havailable⟩⟩
    · intro _
      refine ⟨hread, ?_, fun _ he => by cases he⟩
      rintro e' ⟨⟩
      exact ⟨_, rfl, .inl ⟨_, rfl⟩⟩
  · refine ⟨.refl p, ?_, fun _ he => by cases he⟩
    rintro e' ⟨⟩
    exact ⟨x, rfl, .inr hx⟩

end SmartDesk.Desk
