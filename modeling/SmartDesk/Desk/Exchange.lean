import SmartDesk.Desk.Rules

/-!
# The STOP exchange keeps the guarantee

* `runs_sendStopBounded` — a STOP is sent and the desk stays at rest.
* `runs_waitForFreshStop` — a status that is newer than the baseline.
* `runs_stopAndConfirm` — **a successful exchange confirms the STOP**, and the latch is
  cleared at its end.
* `runs_stopMotion`, `runs_stopForTransition` — its two callers.
-/

namespace SmartDesk.Desk

open Coroutine Code

variable {settings : DeskSettings}

/-! ## The relay I/O lock -/

theorem intent_ne_relayIo : (DeskLock.intent : deskSignature.Lock) ≠ DeskLock.relayIo := by
  intro h
  cases h

theorem hasLock_take {p : Spot} (h : HasLock p .intent) :
    HasLock (p.setMem (p.mem.take .relayIo p.task)) .intent :=
  (p.mem.owner_take _ _ _).trans ((if_neg intent_ne_relayIo).trans h)

theorem hasLock_taken (p : Spot) : HasLock (p.setMem (p.mem.take .relayIo p.task)) .relayIo :=
  (p.mem.owner_take _ _ _).trans (if_pos rfl)

theorem hasLock_release {p : Spot} (h : HasLock p .intent) :
    HasLock (p.setMem (p.mem.release .relayIo)) .intent :=
  (p.mem.owner_release _ _).trans ((if_neg intent_ne_relayIo).trans h)

theorem Still.take {p q : Spot} (h : Still p q) :
    Still p (q.setMem (q.mem.take .relayIo q.task)) where
  task := h.task
  job := h.job
  lock := fun hl => hasLock_take (h.lock hl)
  control := h.control
  grows := h.grows
  quiet := h.quiet

theorem Still.release {p q : Spot} (h : Still p q) :
    Still p (q.setMem (q.mem.release .relayIo)) where
  task := h.task
  job := h.job
  lock := fun hl => hasLock_release (h.lock hl)
  control := h.control
  grows := h.grows
  quiet := h.quiet

theorem Still.next {p q : Spot} (h : Still p q) : Still p q.next where
  task := h.task
  job := h.job
  lock := h.lock
  control := h.control
  grows := h.grows
  quiet := h.quiet

theorem Fit.take {latched : Bool} {p : Spot} (h : Fit latched p) :
    Fit latched (p.setMem (p.mem.take .relayIo p.task)) := h.setMem rfl rfl rfl

theorem Fit.release {latched : Bool} {p : Spot} (h : Fit latched p) :
    Fit latched (p.setMem (p.mem.release .relayIo)) := h.setMem rfl rfl rfl

/-! ## Answers -/

/-- How a task goes on after a relay call: it was cancelled, the call returned, or it
raised. -/
theorem resumes_call {p p' : Spot} {c : RelayCall} {r : Reply deskSignature}
    (hc : ∀ baseline deadline, c ≠ RelayCall.freshStop baseline deadline)
    (h : Resumes (deskSystem settings) DeskRely p.task p.job (.call c)
      (p.mem.suspend p.task (.call c)) p' r) :
    (Told p'.start p'.task ∧ p'.env = p'.given ∧ r = .error .cancelled) ∨
      ((p'.env = fun i => p'.given (i + 1)) ∧
        (((p'.given 0).result = some (.ok ()) ∧ r = .ok Value.none) ∨
          ∃ text, (p'.given 0).result = some (.error text) ∧
            r = .error (.error (.relay text)))) := by
  obtain ⟨_, _, htask, _, cancelled, hstatus, hresume⟩ := h
  rcases resume_call hresume with ⟨rfl, rfl, henv⟩ | ⟨rfl, a, hanswer, rfl⟩
  · exact .inl ⟨⟨_, by rw [htask]; exact hstatus, rfl⟩, henv, rfl⟩
  · have hanswer' : answer c p'.given = some (a, p'.env) := hanswer
    unfold answer at hanswer'
    split at hanswer'
    · next baseline deadline => exact absurd rfl (hc _ _)
    · split at hanswer'
      · cases hanswer'
      · next hresult =>
        simp only [Option.some.injEq, Prod.mk.injEq] at hanswer'
        obtain ⟨rfl, henv⟩ := hanswer'
        exact .inr ⟨henv.symm, .inl ⟨hresult, rfl⟩⟩
      · next text hresult =>
        simp only [Option.some.injEq, Prod.mk.injEq] at hanswer'
        obtain ⟨rfl, henv⟩ := hanswer'
        exact .inr ⟨henv.symm, .inr ⟨text, hresult, rfl⟩⟩

/-- A wait for a lock that was cancelled. -/
theorem told_of_resumes_lock {p p' : Spot} {l : DeskLock} {next : Option RelayCall}
    (h : Resumes (deskSystem settings) DeskRely p.task p.job (.lock l next)
      (p.mem.suspend p.task (.lock l next)) p' (.error .cancelled)) :
    Told p'.start p'.task ∧ p'.env = p'.given := by
  obtain ⟨_, _, htask, _, cancelled, hstatus, hresume⟩ := h
  obtain ⟨henv, ⟨rfl, _⟩ | ⟨_, hok⟩⟩ := resume_lock hresume
  · exact ⟨⟨_, by rw [htask]; exact hstatus, rfl⟩, henv⟩
  · cases hok

/-- A task that got its lock was not told of a cancellation. -/
theorem not_told_of_resumes_lock {p p' : Spot} {l : DeskLock} {next : Option RelayCall} {v : Value}
    (h : Resumes (deskSystem settings) DeskRely p.task p.job (.lock l next)
      (p.mem.suspend p.task (.lock l next)) p' (.ok v)) : ¬ Told p'.start p'.task := by
  obtain ⟨_, _, htask, _, cancelled, hstatus, hresume⟩ := h
  rintro ⟨k, hk, htold⟩
  rw [htask, hstatus] at hk
  cases hk
  obtain ⟨_, ⟨_, herror⟩ | ⟨hfree, _⟩⟩ := resume_lock hresume
  · cases herror
  · rw [hfree] at htold
    cases htold

/-- A lock that was handed over. -/
theorem locked_of_resumes {p p' : Spot} {l : DeskLock} {next : Option RelayCall}
    {v : Value}
    (h : Resumes (deskSystem settings) DeskRely p.task p.job (.lock l next)
      (p.mem.suspend p.task (.lock l next)) p' (.ok v)) :
    HasLock p' l ∧ p'.env = p'.given := by
  obtain ⟨_, _, htask, _, cancelled, _, hresume⟩ := h
  refine ⟨?_, (resume_lock hresume).1⟩
  show p'.mem.owner l = some p'.task
  rw [htask]
  exact (resume_owner hresume l).2 next v rfl rfl

/-! ## Sending a STOP -/

/-- The waits of a STOP. -/
def isStopWait (latched : Bool) (baseline : Option Instant) (w : Wait deskSignature) : Prop :=
  w = .lock .relayIo (some (.stop latched baseline)) ∨ w = .call (.stop latched baseline)

theorem isConfirming_stop {latched : Bool} {baseline : Option Instant} {w : Wait deskSignature}
    (hw : isStopWait latched baseline w) : isConfirming w = latched := by
  cases latched <;> rcases hw with rfl | rfl <;> rfl

theorem suspends_stop {latched : Bool} {baseline : Option Instant} {p : Spot}
    (h : Fit latched p) (w : Wait deskSignature) (hw : isStopWait latched baseline w) :
    Suspends settings p w where
  calm := by
    cases latched with
    | true => exact .inl (isConfirming_stop hw)
    | false => exact .inr (h.calm rfl)
  shut := h.shut
  manned := h.manned
  unhindered := h.unhindered
  latched := fun hconfirming => h.latch ((isConfirming_stop hw).symm.trans hconfirming)
  wake := by
    intro generation direction basis hwake
    rcases hw with rfl | rfl <;> cases hwake
  confirms := by
    intro baseline' deadline hfresh
    rcases hw with rfl | rfl <;> cases hfresh
  child := by
    intro u hshield
    rcases hw with rfl | rfl <;> cases hshield
  runner := by
    intro _
    rcases hw with rfl | rfl <;> exact .inr trivial
  idle := by
    intro _ hlock
    rcases hw with rfl | rfl <;> cases hlock

/-- After a wait of a STOP that was not cancelled the task is fit. -/
theorem Woken.fit_stop {latched : Bool} {baseline : Option Instant} {p p' : Spot}
    {w : Wait deskSignature} (h : Woken p p' w) (hw : isStopWait latched baseline w)
    (henv : ∀ i, ∃ j, p'.env i = p'.given j) : Fit latched p' :=
  h.fit henv (fun hl => h.calm ((isConfirming_stop hw).trans hl))
    fun hl => (isConfirming_stop hw).trans hl

/-- After a cancelled wait the task is home. -/
theorem Woken.home_of_told {p p' : Spot} {w : Wait deskSignature} (h : Woken p p' w)
    (henv : p'.env = p'.given) (ht : Told p'.start p'.task) : Home p' :=
  h.fit (fun i => ⟨i, by rw [henv]⟩) (fun _ => h.calm_of_told ht) fun hl => by cases hl

/-- What `_send_stop_bounded` ends with: the call has just returned or raised. -/
structure StopSent (latched : Bool) (baseline : Option Instant) (p p' : Spot)
    (sent : Option String) : Prop where
  recorded : ∀ new, p'.mem.vars.trace = new ++ p.mem.vars.trace → Event.sendStop p.task ∈ new
  waits : Waits p' (.call (.stop latched baseline))
  vars : p'.mem.vars = p'.start.vars
  env : p'.env = fun i => p'.given (i + 1)
  result : (p'.given 0).result = some (sent.elim (.ok ()) .error)

/-- How `_send_stop_bounded` ends. -/
def SendEnds (latched : Bool) (baseline : Option Instant) (p p' : Spot) :
    Except (Raised Exc) (Option String) → Prop
  | .ok sent => Fit latched p' ∧ StopSent latched baseline p p' sent
  | .error .cancelled => Home p' ∧ Told p'.start p'.task
  | .error (.error _) => False

theorem runs_sendStopBounded {latched : Bool} {baseline : Option Instant} {p : Spot}
    (hp : Fit latched p) :
    Runs settings (sendStopBounded latched baseline) p fun p' r =>
      Still p p' ∧ SendEnds latched baseline p p' r := by
  unfold sendStopBounded
  rw [runs_exceptError]
  have hbody : ∀ q, Still p q → Fit latched q → HasLock q .relayIo →
      Runs settings
        (do
          let t ← Prog.self .ret
          note fun _ => .sendStop t
          let _ ← Prog.wait (.call (.stop latched baseline))
          return none) q
        (Unlocks (S := deskSignature) DeskLock.relayIo
          (Caught settings (fun e => return some e.text)
            fun p' r => Still p p' ∧ SendEnds latched baseline p p' r)) := by
    intro q hstill hfit hlock
    rw [runs_bind, runs_self]
    show Runs settings (note _ >>= _) q _
    rw [runs_bind, note, runs_modifyNote]
    have hchange : Change settings q
        { q.mem.vars with trace := .sendStop q.task :: q.mem.vars.trace } := .sendStop rfl rfl
    refine ⟨hchange, ?_⟩
    have hquiet : Still q (q.setVars
        { q.mem.vars with trace := .sendStop q.task :: q.mem.vars.trace }) := by
      refine .change hchange fun hmode => ⟨hmode, fun new hnew e he => ?_⟩
      have hone : new = [.sendStop q.task] := List.append_cancel_right hnew.symm
      rw [hone, List.mem_singleton] at he
      rw [he]
      rfl
    have hfit' := hfit.setTrace (.sendStop q.task :: q.mem.vars.trace)
    show Runs settings (Prog.wait _ >>= _) (q.setVars _) _
    rw [runs_bind]
    refine safe_wait (S := deskSignature) rfl (suspends_stop hfit' _ (.inr rfl)) ?_
    intro p' r hr
    have hwoken := woken_of_resumes hr
    have hlock' : HasLock p' .relayIo := hwoken.owner _ hlock
    have hall : Still p p' := (hstill.trans hquiet).trans hwoken.toStill
    have hrecorded : ∀ new, p'.mem.vars.trace = new ++ p.mem.vars.trace →
        Event.sendStop p.task ∈ new := by
      intro new hnew
      obtain ⟨before, hbefore⟩ := hstill.grows
      obtain ⟨after, hafter⟩ := hwoken.grows
      have hsplit : new = after ++ [.sendStop q.task] ++ before := by
        refine List.append_cancel_right (hnew.symm.trans ?_)
        show p'.mem.vars.trace = _
        rw [hafter]
        show after ++ (.sendStop q.task :: q.mem.vars.trace) = _
        rw [hbefore]
        simp
      rw [hsplit, ← hstill.task]
      simp
    rcases resumes_call (fun _ _ h => by cases h) hr with
      ⟨htold, henv, rfl⟩ | ⟨henv, ⟨hresult, rfl⟩ | ⟨text, hresult, rfl⟩⟩
    · exact ⟨hlock', hall.release, (hwoken.home_of_told henv htold).release, htold⟩
    · have hfit'' : Fit latched p' := hwoken.fit_stop (.inr rfl) fun i => ⟨i + 1, by rw [henv]⟩
      exact ⟨hlock', hall.release, hfit''.release,
        hrecorded, hwoken.waited, hwoken.vars, henv, hresult⟩
    · have hfit'' : Fit latched p' := hwoken.fit_stop (.inr rfl) fun i => ⟨i + 1, by rw [henv]⟩
      exact ⟨hlock', hall.release, hfit''.release,
        hrecorded, hwoken.waited, hwoken.vars, henv, hresult⟩
  refine safe_withLock (S := deskSignature) (fun _ => suspends_stop hp _ (.inl rfl)) ?_ ?_ ?_
  · intro _
    exact hbody _ (Still.refl p).take hp.take (hasLock_taken p)
  · intro p' hr
    have hwoken := woken_of_resumes hr
    obtain ⟨hlock, henv⟩ := locked_of_resumes hr
    have hfit : Fit latched p' := hwoken.fit_stop (.inl rfl) fun i => ⟨i, by rw [henv]⟩
    exact hbody p' hwoken.toStill hfit hlock
  · intro p' hr
    have hwoken := woken_of_resumes hr
    obtain ⟨htold, henv⟩ := told_of_resumes_lock hr
    exact ⟨hwoken.toStill, hwoken.home_of_told henv htold, htold⟩

/-! ## Waiting for a fresh STOP -/

/-- One round of the loop, with the readings that it leaves. -/
theorem peek_freshStopRound (baseline : Option Instant) (deadline : Ieee) (env : ℕ → Reading) :
    (freshStopRound baseline deadline).peek env =
      if (env 0).monotonic ≤ deadline then
        if isFreshStop baseline (env 1).relay = true then
          some (some (.stop (env 1).relay), fun i => env (i + 1 + 1))
        else if deadline.sub (env 2).monotonic ≤ Ieee.finite 0 then
          some (some (.error freshStopMissing), fun i => env (i + 1 + 1 + 1))
        else some (none, fun i => env (i + 1 + 1 + 1))
      else some (some (.error freshStopMissing), fun i => env (i + 1)) := by
  by_cases h₁ : (env 0).monotonic ≤ deadline
  · by_cases h₂ : isFreshStop baseline (env 1).relay = true
    · simp [freshStopRound, monotonic, relay, bind, Prog.bind, Prog.peek, pure, h₁, h₂]
    · by_cases h₃ : deadline.sub (env 2).monotonic ≤ Ieee.finite 0
      · simp [freshStopRound, monotonic, relay, bind, Prog.bind, Prog.peek, pure, h₁, h₂, h₃]
      · simp [freshStopRound, monotonic, relay, bind, Prog.bind, Prog.peek, pure, h₁, h₂, h₃]
  · simp [freshStopRound, monotonic, bind, Prog.bind, Prog.peek, pure, h₁]

/-- What a round ends with: a fresh STOP that it has read, or an error. -/
def RoundEnds (baseline : Option Instant) (deadline : Ieee) (env : ℕ → Reading) : Value → Prop
  | .stop status => isFreshStop baseline status = true ∧ ∃ i, status = (env i).relay
  | .error _ => unconfirmed.gaveUp ((freshStopRound baseline deadline).peek env) = true
  | .none => False

/-- **A round ends, or waits for the next one.** -/
theorem freshStopRound_ends (baseline : Option Instant) (deadline : Ieee) (env : ℕ → Reading) :
    ∃ value rest, (freshStopRound baseline deadline).peek env = some (value, rest) ∧
      (∀ i, ∃ j, rest i = env j) ∧
        ∀ v, value = some v → RoundEnds baseline deadline env v := by
  have hpeek := peek_freshStopRound baseline deadline env
  split_ifs at hpeek with h₁ h₂ h₃
  · refine ⟨_, _, hpeek, fun i => ⟨i + 2, rfl⟩, ?_⟩
    rintro v ⟨⟩
    exact ⟨h₂, 1, rfl⟩
  · refine ⟨_, _, hpeek, fun i => ⟨i + 3, rfl⟩, ?_⟩
    rintro v ⟨⟩
    show unconfirmed.gaveUp _ = true
    rw [hpeek]
    rfl
  · exact ⟨_, _, hpeek, fun i => ⟨i + 3, rfl⟩, by simp⟩
  · refine ⟨_, _, hpeek, fun i => ⟨i + 1, rfl⟩, ?_⟩
    rintro v ⟨⟩
    show unconfirmed.gaveUp _ = true
    rw [hpeek]
    rfl

/-- What `_wait_for_fresh_stop` ends with, in the segment that got its last answer. -/
def FreshStop (settings : DeskSettings) (baseline : Option Instant) (p : Spot) : Value → Prop
  | .stop status => isFreshStop baseline status = true ∧ (∃ i, status = (p.given i).relay) ∧
      ((Waits p (.call (.stop true baseline)) ∧ (p.given 0).result = some (.ok ())) ∨
        ∃ deadline, Waits p (.call (.freshStop baseline deadline)))
  | .error _ => ∃ w, Waits p w ∧ isConfirming w = true ∧
      unconfirmed settings p.given w = true
  | .none => False

/-- How the wait for a fresh STOP ends. -/
def WaitEnds (settings : DeskSettings) (baseline : Option Instant) (p : Spot) :
    Except (Raised Exc) Value → Prop
  | .ok value => Fit true p ∧ p.mem.vars = p.start.vars ∧ FreshStop settings baseline p value
  | .error .cancelled => Home p ∧ Told p.start p.task
  | .error (.error _) => False

theorem runs_waitForFreshStop {baseline : Option Instant} {p₀ p : Spot} (hp : Fit true p)
    (hsent : StopSent true baseline p₀ p none) :
    Runs settings (waitForFreshStop settings baseline) p fun p' r =>
      Still p p' ∧ WaitEnds settings baseline p' r := by
  unfold waitForFreshStop
  rw [runs_bind, runs_monotonic]
  dsimp only
  rw [runs_bind]
  have hshift : p.next.env = fun i => p.given (i + 2) := by
    funext i
    exact congrFun hsent.env (i + 1)
  have hstarted : (p.env 0).monotonic = (p.given 1).monotonic := by rw [hsent.env]
  rw [hstarted]
  set deadline := (p.given 1).monotonic.add (Ieee.finite settings.relayAckTimeoutSeconds)
    with hdeadline
  obtain ⟨value, rest, hpeek, hrest, hends⟩ :=
    freshStopRound_ends baseline deadline fun i => p.given (i + 2)
  rw [← hshift] at hpeek
  refine (safe_peek (S := deskSignature) hpeek).mpr ?_
  have hfit : Fit true { p.next with env := rest } :=
    ⟨hp.calm, hp.latch, hp.shut, hp.manned, hp.unhindered, hp.held,
      fun i => (hrest i).imp' (· + 2) fun _ h => h⟩
  cases value with
  | some value =>
    refine ⟨⟨⟨rfl, rfl, id, .refl _, [], rfl⟩, (Still.refl p).quiet⟩, hfit, hsent.vars, ?_⟩
    have hend := hends value rfl
    cases value with
    | stop status =>
      obtain ⟨hfresh, i, hread⟩ := hend
      exact ⟨hfresh, ⟨i + 2, hread⟩, .inl ⟨hsent.waits, hsent.result⟩⟩
    | error text =>
      refine ⟨_, hsent.waits, rfl, ?_⟩
      show unconfirmed settings p.given (.call (.stop true baseline)) = true
      unfold unconfirmed
      dsimp only
      rw [hsent.result]
      exact hend
    | none => exact hend
  | none =>
    refine safe_wait (S := deskSignature) rfl
      ⟨.inl rfl, hfit.shut, hfit.manned, hfit.unhindered, fun _ => hfit.latch rfl,
        fun _ _ _ h => (by cases h), ?_, fun _ h => (by cases h), fun _ => .inr trivial,
        fun _ h => (by cases h)⟩ ?_
    · rintro baseline' deadline' ⟨⟩
      exact ⟨hsent.waits, hsent.result⟩
    intro p' r hr
    have hwoken := woken_of_resumes hr
    have hstill : Still p p' := by
      have h := hwoken.toStill
      exact ⟨⟨h.task, h.job, h.lock, h.control, h.grows⟩, h.quiet⟩
    obtain ⟨_, _, htask, _, cancelled, hstatus, hresume⟩ := hr
    refine ⟨hstill, ?_⟩
    rcases resume_call hresume with ⟨rfl, rfl, henv⟩ | ⟨rfl, a, hanswer, rfl⟩
    · have htold : Told p'.start p'.task := ⟨_, by rw [htask]; exact hstatus, rfl⟩
      exact ⟨hwoken.home_of_told henv htold, htold⟩
    · have hanswer' : answer (.freshStop baseline deadline) p'.given = some (a, p'.env) := hanswer
      obtain ⟨value', rest', hpeek', hrest', hends'⟩ :=
        freshStopRound_ends baseline deadline p'.given
      simp only [answer, hpeek'] at hanswer'
      cases value' with
      | none => cases hanswer'
      | some value =>
        simp only [Option.some.injEq, Prod.mk.injEq] at hanswer'
        obtain ⟨rfl, henv⟩ := hanswer'
        refine ⟨hwoken.fit (by rw [← henv]; exact hrest') (fun h => by cases h) (fun _ => rfl),
          hwoken.vars, ?_⟩
        have hend := hends' value rfl
        show FreshStop settings baseline p' value
        cases value with
        | stop status =>
          obtain ⟨hfresh, hread⟩ := hend
          exact ⟨hfresh, hread, .inr ⟨_, hwoken.waited⟩⟩
        | error text => exact ⟨_, hwoken.waited, rfl, hend⟩
        | none => exact hend

/-! ## The exchange -/

/-- The segment that ends an exchange, before it clears the latch: the task has got the
last answer of its exchange and has not written since. -/
structure Answered (settings : DeskSettings) (baseline : Option Instant) (p p' : Spot)
    (value : Value) : Prop where
  fit : Fit true p'
  desk : p'.mem.vars.desk = p'.start.vars.desk
  fresh : FreshStop settings baseline p' value
  recorded : ∀ new, p'.mem.vars.trace = new ++ p.mem.vars.trace → Event.sendStop p.task ∈ new

theorem Answered.waits {baseline : Option Instant} {p p' : Spot} {value : Value}
    (h : Answered settings baseline p p' value) :
    ∃ w, Waits p' w ∧ isConfirming w = true ∧
      ∀ text, value = .error text → unconfirmed settings p'.given w = true := by
  have hfresh := h.fresh
  cases value with
  | stop status =>
    obtain ⟨_, _, ⟨hwaits, _⟩ | ⟨deadline, hwaits⟩⟩ := hfresh
    · exact ⟨_, hwaits, rfl, fun _ h => by cases h⟩
    · exact ⟨_, hwaits, rfl, fun _ h => by cases h⟩
  | error text =>
    obtain ⟨w, hwaits, hconfirming, hunconfirmed⟩ := hfresh
    exact ⟨w, hwaits, hconfirming, fun _ _ => hunconfirmed⟩
  | none => exact absurd hfresh id

theorem Answered.confirmed {baseline : Option Instant} {p p' : Spot} {value : Value}
    (h : Answered settings baseline p p' value) : Confirmed p' := by
  obtain ⟨w, hwaits, hconfirming, _⟩ := h.waits
  exact ⟨⟨_, w, hwaits, hconfirming⟩, h.desk⟩

theorem runs_publishAndConfirm {baseline : Option Instant} {p : Spot} (hp : Fit true p) :
    Runs settings (publishAndConfirm settings baseline) p fun p' r =>
      Still p p' ∧
        match r with
        | .ok value => Answered settings baseline p p' value
        | .error .cancelled => Home p' ∧ Told p'.start p'.task
        | .error (.error _) => False := by
  unfold publishAndConfirm
  rw [runs_bind]
  refine (runs_sendStopBounded hp).mono ?_
  rintro p' (⟨_ | e⟩ | sent) ⟨hstill, hends⟩
  · exact ⟨hstill, hends⟩
  · exact absurd hends id
  obtain ⟨hfit, hsent⟩ := hends
  cases sent with
  | some text =>
    refine ⟨hstill, hfit, congrArg (·.desk) hsent.vars, ⟨_, hsent.waits, rfl, ?_⟩, hsent.recorded⟩
    unfold unconfirmed
    dsimp only
    rw [hsent.result]
    rfl
  | none =>
    refine (runs_waitForFreshStop hfit hsent).mono ?_
    rintro p'' (⟨_ | e⟩ | value) ⟨hstill', hends⟩
    · exact ⟨hstill.trans hstill', hends⟩
    · exact absurd hends id
    · obtain ⟨hfit', hvars, hfresh⟩ := hends
      refine ⟨hstill.trans hstill', hfit', congrArg (·.desk) hvars, hfresh, ?_⟩
      intro new hnew
      obtain ⟨before, hbefore⟩ := hstill.grows
      obtain ⟨after, hafter⟩ := hstill'.grows
      have hsplit : new = after ++ before := by
        refine List.append_cancel_right (hnew.symm.trans ?_)
        rw [hafter, hbefore, List.append_assoc]
      rw [hsplit]
      exact List.mem_append_right _ (hsent.recorded before hbefore)

/-- The latch has been set in this segment. -/
theorem Fit.latched {p : Spot} {v : Vars} (h : Home p)
    (hrunning : v.desk.running = p.mem.vars.desk.running)
    (hclosing : v.desk.closing = p.mem.vars.desk.closing)
    (hrunner : v.desk.runnerTask = p.mem.vars.desk.runnerTask)
    (hfree : p.mem.vars.desk.stopInProgress = false)
    (hlatch : v.desk.stopInProgress = true) (hpending : v.desk.startupWakePending = none) :
    Fit true (p.setVars v) where
  calm := fun hl => by cases hl
  latch := by
    refine fun _ => ⟨.inr ⟨hlatch, fun hset => ?_⟩, fun _ => .inl hpending⟩
    rcases h.held hset with hset | howns
    · rw [hfree] at hset
      cases hset
    · exact howns
  shut := by
    intro hjob
    rcases h.shut hjob with hshut | ⟨hwait, hsame⟩
    · exact .inl (hclosing.trans hshut)
    · exact .inr ⟨hwait, hclosing.trans hsame⟩
  manned := h.manned.of_same hrunning hclosing hrunner
  unhindered := h.unhindered
  held := fun _ => .inl hlatch
  env := h.env

/-- The latch has been cleared in this segment. -/
theorem Fit.unlatch {p : Spot} {v : Vars} (h : Fit true p) (hconfirmed : Confirmed p)
    (hrunning : v.desk.running = p.mem.vars.desk.running)
    (hclosing : v.desk.closing = p.mem.vars.desk.closing)
    (hrunner : v.desk.runnerTask = p.mem.vars.desk.runnerTask)
    (hlatch : v.desk.stopInProgress = false) : Home (p.setVars v) where
  calm := by
    intro _ hset
    rw [show (p.setVars v).mem.vars = v from rfl, hlatch] at hset
    cases hset
  latch := fun hl => by cases hl
  shut := by
    intro hjob
    rcases h.shut hjob with hshut | ⟨hwait, hsame⟩
    · exact .inl (hclosing.trans hshut)
    · exact .inr ⟨hwait, hclosing.trans hsame⟩
  manned := h.manned.of_same hrunning hclosing hrunner
  unhindered := h.unhindered
  held := fun _ => .inr (.inl hconfirmed.1)
  env := h.env

/-- What an exchange leaves behind, in the segment that ended it. -/
structure Exchanged (settings : DeskSettings) (p p' : Spot) (value : Value) : Prop where
  waits : ∃ w, Waits p' w ∧ isConfirming w = true ∧
    ∀ text, value = .error text → unconfirmed settings p'.given w = true
  mode : p'.mem.vars.desk.control.mode = p'.start.vars.desk.control.mode
  pending : p'.mem.vars.desk.startupWakePending = p'.start.vars.desk.startupWakePending
  shown : p'.mem.vars.desk.control.publicState = .stopped ∨
    p'.mem.vars.desk.control.publicState = .error
  failed : ∀ text, value = .error text → p'.mem.vars.desk.control.lastError ≠ none
  answered : value ≠ .none
  recorded : value.text? = none → ConfirmedBy p'.mem.vars.trace p.task value
  /-- For the holder of the intent lock the desk stayed at rest. -/
  still : HasLock p .intent → p'.mem.vars.desk.control.mode = .none ∧
    ∀ status, value = .stop status → StopConfirmed p'.mem.vars.trace

theorem finalError_isSome {text : String} {errorDetail : Option String} :
    finalError (.error text) errorDetail ≠ none := by
  cases errorDetail with
  | none => simp [finalError, Value.text?]
  | some error => simp [finalError, Value.text?]

/-- How an exchange ends. -/
def ExchangeEnds (settings : DeskSettings) (p p' : Spot) : Except (Raised Exc) Value → Prop
  | .ok value => Exchanged settings p p' value
  | .error .cancelled => Told p'.start p'.task
  | .error (.error _) => False

theorem runs_confirmStop {detail : String} {errorDetail : Option String}
    {baseline : Option Instant} {p : Spot} {older : List Event} (hp : Fit true p)
    (hmode : p.mem.vars.desk.control.mode = .none)
    (htrace : p.mem.vars.trace = .exchangeBegun p.task baseline :: older) :
    Runs settings (confirmStop settings detail errorDetail baseline) p fun p' r =>
      Back p p' ∧ ExchangeEnds settings p p' r := by
  unfold confirmStop
  rw [runs_bind, runs_self]
  dsimp only
  rw [runs_bind]
  refine (runs_publishAndConfirm hp).mono ?_
  rintro q (⟨_ | e⟩ | value) ⟨hstill, hends⟩
  · exact ⟨⟨hends.1, hstill.toAfter⟩, hends.2⟩
  · exact absurd hends id
  dsimp only
  -- The record of the confirmation leaves the fields alone.
  have hnoted : Runs settings (noteConfirmed p.task baseline value) q fun q' r =>
      r = .ok () ∧ ∃ trace, q' = q.setVars { q.mem.vars with trace := trace } ∧ After p q' ∧
        ∀ status, value = .stop status →
          trace = .exchangeConfirmed p.task baseline status :: q.mem.vars.trace := by
    cases value with
    | stop status =>
      refine ⟨?_, rfl, _, rfl, ?_, fun status h => by cases h; rfl⟩
      · obtain ⟨new, hnew⟩ := hstill.grows
        refine .confirm baseline status rfl hends.fresh.1 hends.fresh.2.1 ?_ hends.fresh.2.2 ?_
        · refine ⟨new, older, ?_, ?_⟩
          · rw [hnew, htrace, hstill.task]
          · rw [hstill.task]
            exact hends.recorded new hnew
        · rw [hstill.task]
      · exact ⟨hstill.task, hstill.job, hstill.lock, hstill.control,
          hstill.grows.imp' (_ :: ·) fun _ h => by rw [List.cons_append, ← h]; rfl⟩
    | error text =>
      exact ⟨rfl, q.mem.vars.trace, rfl, hstill.toAfter, fun _ h => by cases h⟩
    | none => exact ⟨rfl, q.mem.vars.trace, rfl, hstill.toAfter, fun _ h => by cases h⟩
  rw [runs_bind]
  refine hnoted.mono ?_
  rintro q' r ⟨rfl, trace, rfl, hafter, htrace'⟩
  dsimp only
  rw [runs_bind, runs_now]
  dsimp only
  rw [runs_bind, runs_modify]
  have hfit := (hends.fit.setTrace trace).next
  have hconfirmed : Confirmed (q.setVars { q.mem.vars with trace := trace }).next :=
    hends.confirmed
  have hchange : Change settings (q.setVars { q.mem.vars with trace := trace }).next
      { q.mem.vars with
        desk := q.mem.vars.desk.concludeStop detail (finalError value errorDetail)
          ((q.setVars { q.mem.vars with trace := trace }).env 0).now
        trace := trace } :=
    .unlatch hconfirmed rfl rfl rfl
      ⟨_, _, _, _, by split_ifs <;> rfl, rfl⟩ (.inl rfl) rfl
  refine ⟨hchange, ⟨?_, ?_⟩, ?_⟩
  · exact hfit.unlatch hconfirmed rfl rfl rfl rfl
  · exact hafter.next.trans (.change hchange)
  refine
    { waits := hends.waits, mode := congrArg (·.control.mode) hends.desk
      pending := congrArg (·.startupWakePending) hends.desk, shown := ?_, failed := ?_
      answered := ?_, recorded := ?_, still := ?_ }
  · by_cases h : (finalError value errorDetail).isSome = true
    · exact .inr (if_pos h)
    · exact .inl (if_neg h)
  · rintro text rfl
    exact finalError_isSome
  · rintro rfl
    exact hends.fresh
  · intro htext
    cases value with
    | stop status =>
      refine ⟨baseline, status, rfl, ?_⟩
      show _ ∈ trace
      rw [htrace' status rfl]
      exact List.mem_cons_self
    | error text => cases htext
    | none => exact absurd hends.fresh id
  · intro hlock
    obtain ⟨hrest, hquiet⟩ := hstill.quiet hlock hmode
    refine ⟨hrest, fun status hstatus => ?_⟩
    obtain ⟨new, hnew⟩ := hstill.grows
    have hfresh : isFreshStop baseline status = true := by
      have h := hends.fresh
      rw [hstatus] at h
      exact h.1
    refine ⟨p.task, baseline, status, [], new, older, ?_, hquiet new hnew,
      hends.recorded new hnew, hfresh⟩
    show trace = _
    rw [htrace' status hstatus, hnew, htrace]
    rfl

/-- Why `_require_running_locked` raises. -/
inductive Refused (d : DeskController) : Exc → Prop where
  | stopped (text : String) (h : (d.running && !d.closing) = false) :
      Refused d (.runtimeError text)
  | latched (text : String) (h : d.stopInProgress = true) : Refused d (.rejected text)

theorem runs_requireRunningLocked {p : Spot} {Q : Spot → Except (Raised Exc) Unit → Prop}
    (granted : p.mem.vars.desk.running = true → p.mem.vars.desk.closing = false →
      p.mem.vars.desk.stopInProgress = false → Q p (.ok ()))
    (refused : ∀ e, Refused p.mem.vars.desk e → Q p (.error (.error e))) :
    Runs settings requireRunningLocked p Q := by
  unfold requireRunningLocked
  rw [runs_bind, runs_fields]
  dsimp only
  rw [runs_bind, runs_require]
  constructor
  · intro hactive
    dsimp only
    rw [runs_require]
    simp only [Bool.and_eq_true, Bool.not_eq_true'] at hactive
    constructor
    · intro hfree
      exact granted hactive.1 hactive.2 (by simpa using hfree)
    · intro hlatch
      exact refused _ (.latched _ (by simpa using hlatch))
  · intro hstopped
    exact refused _ (.stopped _ hstopped)

/-- How `_stop_and_confirm` ends: after its exchange, or at once when another one is in
progress; it raises before it changes anything. -/
def StopEnds (settings : DeskSettings) (rejectIfStopping : Bool) (p p' : Spot) :
    Except (Raised Exc) Value → Prop
  | .ok value => Exchanged settings p p' value ∨
      (rejectIfStopping = false ∧ value = .none ∧ p.mem.vars.desk.stopInProgress = true ∧ p' = p)
  | .error .cancelled => Told p'.start p'.task
  | .error (.error e) => p' = p ∧ (rejectIfStopping = false →
      (∃ text, e = .runtimeError text) ∧ p.mem.vars.desk.running = false ∧
        p.mem.vars.desk.closing = false)

/-- **The STOP exchange**, from the invalidation of the intent to the end of the latch. -/
theorem runs_stopAndConfirm {detail : String} {errorDetail : Option String}
    {rejectIfStopping : Bool} {p : Spot} (hp : Home p) :
    Runs settings (stopAndConfirm settings detail errorDetail rejectIfStopping) p fun p' r =>
      Back p p' ∧ StopEnds settings rejectIfStopping p p' r := by
  -- The exchange, once it is admitted.
  have hexchange : p.mem.vars.desk.stopInProgress = false →
      (p.mem.vars.desk.running = true ∨ p.mem.vars.desk.closing = true) →
      Runs settings
        (do
          let snapshot ← relay
          let updatedAt ← now
          modifyNote
            (fun d =>
              { d.invalidateMotionLocked detail updatedAt with
                stopInProgress := true, lastStopBaselineReceivedAt := snapshot.receivedAt })
            fun _ => .exchangeBegun p.task snapshot.receivedAt
          confirmStop settings detail errorDetail snapshot.receivedAt) p fun p' r =>
        Back p p' ∧ StopEnds settings rejectIfStopping p p' r := by
    intro hfree hactive
    rw [runs_bind, runs_relay]
    dsimp only
    rw [runs_bind, runs_now]
    dsimp only
    rw [runs_bind, runs_modifyNote]
    obtain ⟨i, hi⟩ := hp.env 0
    have hdrops : Drops p.mem.vars.desk
        { p.mem.vars.desk.invalidateMotionLocked detail (p.env 1).now with
          stopInProgress := true
          lastStopBaselineReceivedAt := (p.env 0).relay.receivedAt } :=
      ⟨Nat.lt_succ_self _, .stopped, detail, _, rfl, rfl⟩
    have hchange : Change settings p.next.next
        { p.mem.vars with
          desk :=
            { p.mem.vars.desk.invalidateMotionLocked detail (p.env 1).now with
              stopInProgress := true
              lastStopBaselineReceivedAt := (p.env 0).relay.receivedAt }
          trace := .exchangeBegun p.task (p.env 0).relay.receivedAt :: p.mem.vars.trace } :=
      .beginExchange _ hfree hactive rfl rfl rfl hdrops rfl rfl
        ⟨i, congrArg (·.relay.receivedAt) hi⟩ rfl
    refine ⟨hchange, ?_⟩
    dsimp only
    have hback : After p p.next.next := (After.refl p).next.next
    have hlatched := hp.next.next.latched (v := { p.mem.vars with
      desk :=
        { p.mem.vars.desk.invalidateMotionLocked detail (p.env 1).now with
          stopInProgress := true
          lastStopBaselineReceivedAt := (p.env 0).relay.receivedAt }
      trace := .exchangeBegun p.task (p.env 0).relay.receivedAt :: p.mem.vars.trace })
      rfl rfl rfl hfree rfl rfl
    refine (runs_confirmStop hlatched rfl rfl).mono ?_
    rintro p' (⟨_ | e⟩ | value) ⟨⟨hhome, hafter⟩, hends⟩
    · exact ⟨⟨hhome, hback.trans ((After.change hchange).trans hafter)⟩, hends⟩
    · exact absurd hends id
    · refine ⟨⟨hhome, hback.trans ((After.change hchange).trans hafter)⟩, .inl ?_⟩
      exact ⟨hends.waits, hends.mode, hends.pending, hends.shown, hends.failed,
        hends.answered, hends.recorded, hends.still⟩
  unfold stopAndConfirm
  rw [runs_bind, runs_self]
  dsimp only
  rw [runs_bind, runs_fields]
  dsimp only
  cases rejectIfStopping with
  | true =>
    simp only [if_true]
    rw [runs_bind]
    refine runs_requireRunningLocked ?_ ?_
    · intro hrunning _ hfree
      dsimp only
      rw [if_neg (by rw [hfree]; simp)]
      exact hexchange hfree (.inl hrunning)
    · intro e _
      exact ⟨.refl hp, rfl, fun h => by cases h⟩
  | false =>
    simp only [Bool.false_eq_true, if_false]
    rw [runs_bind, runs_require]
    constructor
    · intro hactive
      dsimp only
      rw [runs_ite]
      constructor
      · intro hlatch
        rw [runs_bind, runs_require]
        exact ⟨fun _ => ⟨.refl hp, .inr ⟨rfl, rfl, hlatch, rfl⟩⟩, fun h => by cases h⟩
      · intro hfree
        refine hexchange (by simpa using hfree) ?_
        simpa using hactive
    · intro hstopped
      simp only [Bool.or_eq_false_iff] at hstopped
      exact ⟨.refl hp, rfl, fun _ => ⟨⟨_, rfl⟩, hstopped⟩⟩

/-! ## Its callers -/

/-- The new task is one of its own. -/
theorem Fit.spawn {latched : Bool} {p : Spot} (h : Fit latched p) (job : Job) :
    Fit latched (p.setMem (p.mem.spawn job)) where
  calm := h.calm
  latch := h.latch
  shut := h.shut
  manned := by
    intro hrunning hclosing
    rcases h.manned hrunning hclosing with hsame | ⟨u, hu, hsome, htask⟩ | hstop
    · exact .inl hsame
    · refine .inr (.inl ⟨u, Nat.lt_succ_of_lt hu, hsome, ?_⟩)
      show Function.update p.mem.task p.mem.count _ u = _
      rw [Function.update_of_ne hu.ne]
      exact htask
    · exact .inr (.inr hstop)
  unhindered := h.unhindered
  held := h.held
  env := h.env

theorem After.spawn {p q : Spot} (h : After p q) (job : Job) :
    After p (q.setMem (q.mem.spawn job)) := ⟨h.task, h.job, h.lock, h.control, h.grows⟩

/-- What a task waits for that neither publishes a STOP nor a WAKE. -/
theorem Fit.suspends {p : Spot} (h : Home p) {w : Wait deskSignature}
    (hconfirming : isConfirming w = false) (hwake : ∀ l c, w ≠ .lock l (some c))
    (hchild : ∀ u, w = .shield u → NewTask p.mem u)
    (hrunner : p.job = .runner → Broken settings p ∨ CycleWait p w)
    (hidle : p.job = .runner → w = .lock .intent none → p.mem.vars.desk.control.mode = .none) :
    Suspends settings p w where
  calm := .inr (h.calm rfl)
  shut := h.shut
  manned := h.manned
  unhindered := h.unhindered
  latched := fun htrue => by rw [hconfirming] at htrue; cases htrue
  wake := fun _ _ _ heq => absurd heq (hwake _ _)
  confirms := by
    rintro baseline deadline rfl
    cases hconfirming
  child := hchild
  runner := hrunner
  idle := hidle

/-- How a task goes on after it has waited for another one. -/
theorem resumes_task {p p' : Spot} {w : Wait deskSignature} {u : ℕ} {r : Reply deskSignature}
    (hw : w = .shield u ∨ w = .gather u)
    (h : Resumes (deskSystem settings) DeskRely p.task p.job w (p.mem.suspend p.task w) p' r) :
    p'.env = p'.given ∧
      ((Told p'.start p'.task ∧ r = .error .cancelled) ∨
        (w = .shield u ∧ p'.start.outcome u = some r) ∨ (w = .gather u ∧ r = .ok Value.none)) := by
  obtain ⟨_, _, htask, _, cancelled, hstatus, hresume⟩ := h
  unfold System.resume at hresume
  cases cancelled with
  | true =>
    have htold : Told p'.start p'.task := ⟨_, by rw [htask]; exact hstatus, rfl⟩
    rw [if_pos rfl] at hresume
    rcases hw with rfl | rfl
    · simp only [Option.some.injEq, Prod.mk.injEq] at hresume
      exact ⟨hresume.2.1.symm, .inl ⟨htold, hresume.1.symm⟩⟩
    · dsimp only at hresume
      split_ifs at hresume
      simp only [Option.some.injEq, Prod.mk.injEq] at hresume
      exact ⟨hresume.2.1.symm, .inl ⟨htold, hresume.1.symm⟩⟩
  | false =>
    rw [if_neg (by simp)] at hresume
    rcases hw with rfl | rfl
    · obtain ⟨outcome, houtcome, heq⟩ := Option.map_eq_some_iff.mp hresume
      simp only [Prod.mk.injEq] at heq
      rw [heq.1] at houtcome
      exact ⟨heq.2.1.symm, .inr (.inl ⟨rfl, houtcome⟩)⟩
    · dsimp only at hresume
      split_ifs at hresume
      simp only [Option.some.injEq, Prod.mk.injEq] at hresume
      exact ⟨hresume.2.1.symm, .inr (.inr ⟨rfl, hresume.1.symm⟩)⟩

/-- After a wait for another task this one is home. -/
theorem Woken.home {p p' : Spot} {w : Wait deskSignature} (h : Woken p p' w)
    (henv : p'.env = p'.given) (hw : isConfirming w = false) : Home p' :=
  h.fit (fun i => ⟨i, by rw [henv]⟩) (fun _ => h.calm hw) fun hl => by cases hl

/-- A cancelled task waits for its child before it goes on. -/
theorem runs_gathered {child : ℕ} {p : Spot} (hp : Home p) (hbroken : Broken settings p) :
    Runs settings
      (do
        let _ ← Prog.wait (.gather child)
        Prog.raise .cancelled : Code Value) p fun p' r =>
      Back p p' ∧ r = .error .cancelled ∧ Broken settings p' := by
  rw [runs_bind]
  refine safe_wait (S := deskSignature) rfl
    (hp.suspends rfl (fun _ _ h => by cases h) (fun _ h => by cases h) (fun _ => .inl hbroken)
      fun _ h => by cases h) ?_
  intro p' r hr
  have hwoken := woken_of_resumes hr
  obtain ⟨henv, hcases⟩ := resumes_task (.inr rfl) hr
  have hback : Back p p' := ⟨hwoken.home henv rfl, hwoken.toAfter⟩
  have hbroken' : Broken settings p' := .inr (.inr (.inl ⟨child, hwoken.waited⟩))
  rcases hcases with ⟨_, rfl⟩ | ⟨h, _⟩ | ⟨_, rfl⟩
  · exact ⟨hback, rfl, hbroken'⟩
  · cases h
  · exact ⟨hback, rfl, hbroken'⟩

/-- How `_stop_motion` ends. -/
def StopMotionEnds (settings : DeskSettings) (detail : String) (errorDetail : Option String)
    (p : Spot) :
    Except (Raised Exc) Unit → Prop
  | .ok _ => (detail = runnerErrorDetail → Broken settings p) ∧
      (errorDetail = none → ChildReturned p)
  | .error .cancelled => Broken settings p
  | .error (.error e) => Broken settings p ∧ ∀ text, e = .rejected text → ChildRaised p e

/-- **A STOP in a task of its own**: it fails only if the child fails, or if its STOP was
not confirmed and there is no other error to report. -/
theorem runs_stopMotion {detail : String} {errorDetail : Option String} {p : Spot} (hp : Home p)
    (hdetail : p.job = .runner → Broken settings p ∨ detail ≠ runnerErrorDetail) :
    Runs settings (stopMotion detail errorDetail) p fun p' r =>
      Back p p' ∧ StopMotionEnds settings detail errorDetail p' r := by
  set job : Job := .stopAndConfirm detail errorDetail with hjob
  set child := p.mem.count with hchild
  set q := p.setMem (p.mem.spawn job) with hq
  have hhome : Home q := hp.spawn job
  have htask : q.mem.task child = some ⟨job, .ready, false⟩ := by
    show Function.update p.mem.task child _ child = _
    rw [Function.update_self]
  have hlt : child < q.mem.count := Nat.lt_succ_self _
  -- What is known of the child when the task goes on.
  have hknown : ∀ {p' : Spot} {w}, Woken q p' w → p'.start.job child = some job := by
    intro p' w hwoken
    rw [hwoken.knows.job child hlt, Mem.job, htask]
    rfl
  have hbad : ∀ {p' : Spot} {r}, Woken q p' (.shield child) → p'.start.outcome child = some r →
      BadOutcome errorDetail r → Broken settings p' := by
    intro p' r hwoken houtcome hbad
    refine .inr (.inr (.inr (.inl ⟨child, r, hwoken.waited, houtcome, ?_⟩)))
    intro detail' errorDetail' hjob' _
    rw [hknown hwoken, hjob] at hjob'
    cases hjob'
    exact hbad
  have hlast : ∀ {p' : Spot} {r}, Woken q p' (.shield child) →
      p'.start.outcome child = some r → detail = runnerErrorDetail → Broken settings p' := by
    intro p' r hwoken houtcome hdetail'
    refine .inr (.inr (.inr (.inl ⟨child, r, hwoken.waited, houtcome, ?_⟩)))
    intro detail' errorDetail' hjob' hne
    rw [hknown hwoken, hjob] at hjob'
    cases hjob'
    exact absurd hdetail' hne
  -- A cancelled wait is followed by one for the child.
  have hgathered : ∀ {p'}, Home p' → After p p' → Broken settings p' →
      Runs settings
        (do
          let _ ← Prog.wait (.gather child)
          Prog.raise .cancelled : Code Value) p' fun p'' r =>
        ∃ e, r = .error e ∧ Back p p'' ∧
          StopMotionEnds settings detail errorDetail p'' (.error e) := by
    intro p' hhome' hafter hbroken
    refine (runs_gathered hhome' hbroken).mono ?_
    rintro p'' r ⟨hback, rfl, hbroken'⟩
    exact ⟨_, rfl, ⟨hback.home, hafter.trans hback.after⟩, hbroken'⟩
  unfold stopMotion
  rw [runs_bind, runs_spawn]
  refine ⟨rfl, ?_⟩
  show Runs settings (((Prog.wait (.shield child)).attempt _) >>= _) q _
  rw [runs_bind]
  refine (safe_attempt (S := deskSignature)).mpr ?_
  refine safe_wait (S := deskSignature) rfl ?_ ?_
  · refine hhome.suspends rfl (fun _ _ h => by cases h) ?_ (fun hrunner => ?_)
      fun _ h => by cases h
    · rintro u ⟨⟩
      exact ⟨rfl, job, htask⟩
    exact (hdetail hrunner).imp id fun h => ⟨detail, errorDetail, htask, h⟩
  intro p' r hr
  have hwoken := woken_of_resumes hr
  obtain ⟨henv, hcases⟩ := resumes_task (.inl rfl) hr
  have hhome' : Home p' := hwoken.home henv rfl
  have hafter : After p p' := ((After.refl p).spawn job).trans hwoken.toAfter
  rcases hcases with ⟨htold, rfl⟩ | ⟨_, houtcome⟩ | ⟨h, _⟩
  · refine (hgathered hhome' hafter (.inl htold)).mono ?_
    rintro p'' r ⟨e, rfl, h⟩
    exact h
  · cases r with
    | ok v =>
      show Runs settings _ p' _
      cases htext : v.text? with
      | none =>
        refine ⟨⟨hhome', hafter⟩, hlast hwoken houtcome, fun _ => ?_⟩
        exact ⟨child, detail, errorDetail, v, hwoken.waited, hknown hwoken, houtcome, htext⟩
      | some text =>
        cases errorDetail with
        | some error =>
          exact ⟨⟨hhome', hafter⟩, hlast hwoken houtcome, fun h => by cases h⟩
        | none =>
          have herror : v = .error text := by
            cases v with
            | error text' =>
              cases htext
              rfl
            | none => cases htext
            | stop status => cases htext
          subst herror
          exact ⟨⟨hhome', hafter⟩, hbad hwoken houtcome (.inr ⟨rfl, text, rfl⟩), by simp⟩
    | error e =>
      have hbroken := hbad hwoken houtcome (.inl ⟨e, rfl⟩)
      cases e with
      | cancelled =>
        refine (hgathered hhome' hafter hbroken).mono ?_
        rintro p'' r ⟨e, rfl, h⟩
        exact h
      | error e =>
        refine ⟨⟨hhome', hafter⟩, hbroken, fun text heq => ?_⟩
        exact ⟨child, detail, errorDetail, hwoken.waited, houtcome, hknown hwoken⟩
  · cases h

/-- **A STOP before a transition**: it succeeds only with its confirmation. -/
theorem runs_stopForTransition {detail : String} {p : Spot} (hp : Home p) :
    Runs settings (stopForTransition settings detail) p fun p' r =>
      Back p p' ∧ ∀ u, r = .ok u → ∃ status, Exchanged settings p p' (.stop status) := by
  unfold stopForTransition
  rw [runs_bind]
  refine (runs_stopAndConfirm hp).mono ?_
  rintro p' (e | value) ⟨hback, hends⟩
  · exact ⟨hback, fun _ h => by cases h⟩
  dsimp only
  have hexchanged : Exchanged settings p p' value := by
    rcases hends with h | ⟨h, _⟩
    · exact h
    · cases h
  cases value with
  | none => exact absurd rfl hexchanged.answered
  | error text => exact ⟨hback, fun _ h => by cases h⟩
  | stop status => exact ⟨hback, fun _ _ => ⟨status, hexchanged⟩⟩

end SmartDesk.Desk
