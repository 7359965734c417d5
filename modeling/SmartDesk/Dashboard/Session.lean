import SmartDesk.Dashboard.HoldButtons
import SmartDesk.Dashboard.Routes
import SmartDesk.Desk.Coherence

/-!
# The dashboard and its server

The panel, the requests that it has sent, and the controller that serves them.  The
requests in flight reach the server in any order; each is answered once the task that
serves it has ended.

* `Session`, `sessionStep` — the joint system.
* `hold_after_stop` — a HOLD that was in flight at the release moves the desk after the
  STOP.
* `Recorded` — the invariant of the panel: only one refresh is in flight.
* `Ended`, `SessionKept` — a request whose promise is settled has been served.
* `moves_after_release` — **what moves the desk after a release**: of the HOLDs sent before it
  at most the one that was in flight, else a HOLD that was sent after a later press.
-/

namespace SmartDesk.Dashboard

open Desk Coroutine

/-! ## The joint system -/

/-- The panel, the controller, and the requests that the server has taken, with the tasks
that serve them; without a task the request was refused.  `lost` are the requests whose
promise was rejected without an answer. -/
structure Session where
  panel : Panel
  desk : DeskPool
  served : List (ℕ × Option ℕ)
  lost : List ℕ

inductive SessionEvent where
  | panel (e : Event)
  | arrive (request : ℕ) (ready : Bool)
  | desk (l : DeskLabel)
  | reply (request : ℕ)
  | lose (request : ℕ)

def Action.request : Action → Request
  | .hold direction => .hold direction
  | .stop => .stop

/-- How the routes answer, as the panel sees it: `DeskCommandRejectedError` is 409. -/
def answered : Reply deskSignature → Outcome
  | .ok _ => .resolved
  | .error (.error (.rejected _)) => .conflict
  | .error _ => .failed

variable (settings : DeskSettings)

/-- What can happen; a promise is settled by the reply to its request, or because the
connection is lost. -/
def sessionStep (s : Session) : SessionEvent → Option Session
  | .panel (.settle _ _) => none
  | .panel e => (step s.panel e).map fun p => { s with panel := p }
  | .arrive request ready =>
      match s.panel.issued[request]?, s.served.lookup request with
      | some action, none =>
          match route ready action.request with
          | none => some { s with served := (request, none) :: s.served }
          | some job =>
              (Coroutine.step (deskSystem settings) s.desk (.call job)).map fun pool =>
                { s with
                  desk := pool, served := (request, some s.desk.mem.count) :: s.served }
      | _, _ => none
  | .desk l =>
      (Coroutine.step (deskSystem settings) s.desk l).map fun pool => { s with desk := pool }
  | .reply request =>
      match s.served.lookup request with
      | none => none
      | some none => (s.panel.settle request .failed).map fun p => { s with panel := p }
      | some (some t) =>
          match s.desk.mem.outcome t with
          | none => none
          | some r => (s.panel.settle request (answered r)).map fun p => { s with panel := p }
  | .lose request =>
      (s.panel.settle request .failed).map fun p =>
        { s with panel := p, lost := request :: s.lost }

/-- The dashboard is opened on a controller that has been constructed. -/
def opened (now : Instant) : Session := ⟨.mounted, deskStart settings now, [], []⟩

def SessionEvent.isPress : SessionEvent → Bool
  | .panel e => e.isPress
  | _ => false

/-- A MANUAL motion is started or refreshed. -/
def StartsManual (m m' : Memory) : Prop :=
  m'.vars.desk.control.mode = .manual ∧
    (m.vars.desk.control.mode ≠ .manual ∨ m'.vars.desk.lastHoldAt ≠ m.vars.desk.lastHoldAt)

/-- In the step the HOLD request `i` starts or refreshes a MANUAL motion. -/
def Moves (s : Session) (e : SessionEvent) (i : ℕ) : Prop :=
  ∃ t env d s', e = .desk (.run t env) ∧ s.served.lookup i = some (some t) ∧
    s.panel.issued[i]? = some (.hold d) ∧ sessionStep settings s e = some s' ∧
    StartsManual s.desk.mem s'.desk.mem

/-- The request has been processed. -/
def Session.processed (s : Session) (request : ℕ) : Bool :=
  match (s.served.lookup request).join.bind s.desk.mem.outcome with
  | some (.ok _) => true
  | _ => false

variable {settings}

/-! ## A HOLD after the STOP -/

/-- UP is pressed; the first refresh is served. -/
def pressedUp : List SessionEvent :=
  [.desk (.call .start), .desk (.run 0 fun _ => readingAt 0), .desk (.run 0 fun _ => readingAt 1),
    .panel (.press .up true), .arrive 0 true, .desk (.run 2 fun _ => readingAt 2), .reply 0,
    .panel (.tick 0)]

/-- UP is released; its STOP overtakes the second refresh. -/
def overtaken : List SessionEvent :=
  [.arrive 2 true, .desk (.run 3 fun _ => readingAt 2), .desk (.run 4 fun _ => readingAt 2),
    .desk (.run 4 fun _ => readingAt 3), .desk (.run 3 fun _ => readingAt 3), .arrive 1 true]

/-- The second refresh is served. -/
def lateRefresh : SessionEvent := .desk (.run 5 fun _ => readingAt 3)

/-- A release after which the refresh that was in flight moves the desk. -/
structure MovedLate (s r s' : Session) : Prop where
  before : Transition.exec (sessionStep .default) (opened .default 0) pressedUp = some s
  direction : s.panel.direction = some .up
  issued : s.panel.issued.length = 2
  pending : s.panel.pending = [(1, .refresh .up)]
  release : sessionStep .default s (.panel (.release .up)) = some r
  after : Transition.exec (sessionStep .default) r overtaken = some s'
  processed : s'.processed 2 = true
  moves : Moves .default s' lateRefresh 1

theorem movedLate : ∃ s r s', MovedLate s r s' := by
  have hrun : ((Transition.exec (sessionStep .default) (opened .default 0) pressedUp).bind fun s =>
      (sessionStep .default s (.panel (.release .up))).bind fun r =>
      (Transition.exec (sessionStep .default) r overtaken).bind fun s' =>
      (sessionStep .default s' lateRefresh).map fun s'' =>
        decide ((s.panel.direction = some .up ∧ s.panel.issued.length = 2 ∧
            s.panel.pending = [(1, .refresh .up)]) ∧
          (s'.processed 2 = true ∧ s'.served.lookup 1 = some (some 5) ∧
            s'.panel.issued[1]? = some (.hold .up)) ∧
          s'.desk.mem.vars.desk.control.mode = .none ∧
            s''.desk.mem.vars.desk.control.mode = .manual)) = some true := by
    decide +kernel
  obtain ⟨s, hs, hrun⟩ := Option.bind_eq_some_iff.mp hrun
  obtain ⟨r, hr, hrun⟩ := Option.bind_eq_some_iff.mp hrun
  obtain ⟨s', hs', hrun⟩ := Option.bind_eq_some_iff.mp hrun
  obtain ⟨s'', hs'', hstate⟩ := Option.map_eq_some_iff.mp hrun
  obtain ⟨⟨hdirection, hissued, hpending⟩, ⟨hprocessed, hserved, hhold⟩, hstopped, hmanual⟩ :=
    of_decide_eq_true hstate
  refine ⟨s, r, s', hs, hdirection, hissued, hpending, hr, hs', hprocessed, ?_⟩
  refine ⟨5, _, .up, s'', rfl, hserved, hhold, hs'', hmanual, .inl ?_⟩
  rw [hstopped]
  simp

/-- **A HOLD that was issued before the STOP of a release can move the desk** after that
STOP was processed. -/
theorem hold_after_stop : ¬ ∀ settings now before after s r s' e i d,
    Transition.exec (sessionStep settings) (opened settings now) before = some s →
      s.panel.direction = some d → sessionStep settings s (.panel (.release d)) = some r →
      Transition.exec (sessionStep settings) r after = some s' →
      (∀ e ∈ after, e.isPress = false) → s'.processed s.panel.issued.length = true →
      i < s.panel.issued.length → ¬ Moves settings s' e i := by
  intro hall
  obtain ⟨s, r, s', h⟩ := movedLate
  refine hall _ _ _ overtaken s r s' lateRefresh 1 .up h.before h.direction h.release h.after
    ?_ ?_ ?_ h.moves
  · simp [overtaken, SessionEvent.isPress]
  · rw [h.issued]
    exact h.processed
  · rw [h.issued]
    exact Nat.one_lt_two

/-! ## What is sent -/

/-- The request that a promise stands for. -/
def Awaiting.action : Awaiting → Action
  | .refresh direction => .hold direction
  | .stopHolding _ => .stop

/-- A handler sends one request or none; it refreshes a hold only if no other refresh is
in flight. -/
inductive Sends (p p' : Panel) : Prop where
  | nothing (issued : p'.issued = p.issued) (pending : p'.pending = p.pending)
      (flight : p'.holdInFlight = p.holdInFlight)
  | refresh (direction : Direction) (free : p.holdInFlight = false)
      (issued : p'.issued = p.issued ++ [.hold direction])
      (pending : p'.pending = p.pending ++ [(p.issued.length, .refresh direction)])
      (flight : p'.holdInFlight = true)
  | stop (next : Option Direction) (issued : p'.issued = p.issued ++ [.stop])
      (pending : p'.pending = p.pending ++ [(p.issued.length, .stopHolding next)])
      (flight : p'.holdInFlight = p.holdInFlight)

/-- The other fields do not matter. -/
theorem Sends.congr {p m p' : Panel} (h : Sends p m) (hissued : p'.issued = m.issued)
    (hpending : p'.pending = m.pending) (hflight : p'.holdInFlight = m.holdInFlight) :
    Sends p p' := by
  cases h with
  | nothing issued pending flight =>
    exact .nothing (hissued.trans issued) (hpending.trans pending) (hflight.trans flight)
  | refresh d free issued pending flight =>
    exact .refresh d free (hissued.trans issued) (hpending.trans pending) (hflight.trans flight)
  | stop next issued pending flight =>
    exact .stop next (hissued.trans issued) (hpending.trans pending) (hflight.trans flight)

namespace Panel

@[simp] theorem clear_holdInFlight (p : Panel) : p.clear.holdInFlight = p.holdInFlight := by
  unfold clear
  split <;> rfl

theorem sends_stopHolding (force : Bool) (next : Option Direction) (p : Panel) :
    Sends p (p.stopHolding force next) := by
  rcases stopHolding_cases force next p with ⟨_, heq⟩ | heq
  · rw [heq]
    exact .nothing (by simp) (by simp) (by simp)
  · rw [heq]
    exact .stop next (by simp [request]) (by simp [request]) (by simp [request])

theorem sends_refresh (d : Direction) (p : Panel) : Sends p (p.refresh d) := by
  unfold refresh
  split
  · exact .nothing rfl rfl rfl
  · next hfree =>
    simp only [Bool.or_eq_true, not_or, Bool.not_eq_true] at hfree
    exact .refresh d hfree.1 rfl rfl rfl

theorem sends_startHolding (d : Direction) (p : Panel) : Sends p (p.startHolding d) := by
  cases sends_refresh d { p with direction := some d } with
  | nothing issued pending flight => exact .nothing issued pending flight
  | refresh d' free issued pending flight => exact .refresh d' free issued pending flight
  | stop next issued pending flight => exact .stop next issued pending flight

theorem sends_beginHolding (canControl : Bool) (d : Direction) (p : Panel) :
    Sends p (p.beginHolding canControl d) := by
  unfold beginHolding
  split
  · exact .nothing rfl rfl rfl
  · split
    · exact sends_stopHolding false _ p
    · exact sends_startHolding d p

/-- The panel without a promise that is settled. -/
def settled (i : ℕ) (p : Panel) : Panel :=
  { p with
    pending := p.pending.filter fun promise => promise.1 != i
    holdInFlight :=
      match p.pending.lookup i with
      | some (.refresh _) => false
      | _ => p.holdInFlight }

theorem sends_settle {i : ℕ} {outcome : Outcome} {p p' : Panel}
    (h : p.settle i outcome = some p') : Sends (p.settled i) p' := by
  unfold settle at h
  dsimp only at h
  split at h
  · cases h
  · next d hlookup =>
    cases h
    have hflight : (p.settled i).holdInFlight = false := by rw [settled, hlookup]
    cases outcome with
    | resolved => exact .nothing rfl rfl hflight.symm
    | conflict =>
      exact .nothing (by simp [refused, settled]) (by simp [refused, settled]) hflight.symm
    | failed =>
      rcases stopHolding_cases false none
        { p with pending := p.pending.filter fun promise => promise.1 != i } with ⟨_, heq⟩ | heq
      · exact .nothing (by simp [refused, heq, settled]) (by simp [refused, heq, settled]) hflight.symm
      · exact .stop none (by simp [refused, heq, settled, request])
          (by simp [refused, heq, settled, request]) hflight.symm
  · next hlookup =>
    cases h
    exact .nothing rfl rfl (by rw [settled, hlookup])
  · next d hlookup =>
    cases h
    have hsame : p.settled i =
        { p with pending := p.pending.filter fun promise => promise.1 != i } := by
      rw [settled, hlookup]
    rw [hsame]
    exact sends_startHolding d _

end Panel

/-- The panel that the handler of an event finds. -/
def Event.found (p : Panel) : Event → Panel
  | .settle request _ => p.settled request
  | _ => p

open Panel

theorem sends_of_step {p p' : Panel} {e : Event} (h : step p e = some p') :
    Sends (e.found p) p' := by
  cases e with
  | press d canControl =>
    cases h
    exact (sends_beginHolding canControl d p).congr rfl rfl rfl
  | release d =>
    cases h
    exact (sends_stopHolding false none p).congr rfl rfl rfl
  | blur =>
    cases h
    exact (sends_stopHolding false none p).congr rfl rfl rfl
  | stopButton =>
    cases h
    exact sends_stopHolding true none p
  | tick timer =>
    simp only [step] at h
    split at h
    · cases h
    · cases h
      exact sends_refresh _ p
  | settle request outcome => exact sends_settle h

/-- The promises and the requests fit together, and only one refresh is in flight. -/
structure Recorded (p : Panel) : Prop where
  action : ∀ i awaiting, (i, awaiting) ∈ p.pending → p.issued[i]? = some awaiting.action
  flight : ∀ i d, (i, .refresh d) ∈ p.pending → p.holdInFlight = true
  one : ∀ i j d d', (i, .refresh d) ∈ p.pending → (j, .refresh d') ∈ p.pending → i = j

theorem Recorded.settled {p : Panel} (h : Recorded p) (i : ℕ) : Recorded (p.settled i) where
  action := fun j awaiting hj => h.action j awaiting (List.mem_of_mem_filter hj)
  flight := by
    intro j d hj
    obtain ⟨hmem, hne⟩ := List.mem_filter.mp hj
    have hset := h.flight j d hmem
    unfold Panel.settled
    split
    · next d' hlookup =>
      -- The only refresh is the one that is settled.
      have hsame := h.one j i d d' hmem (mem_of_lookup hlookup)
      simp [hsame] at hne
    · exact hset
  one := fun j k d d' hj hk =>
    h.one j k d d' (List.mem_of_mem_filter hj) (List.mem_of_mem_filter hk)

theorem Recorded.sends {p p' : Panel} (h : Recorded p) (hsends : Sends p p') : Recorded p' := by
  cases hsends with
  | nothing issued pending flight =>
    exact ⟨by rw [issued, pending]; exact h.action, by rw [pending, flight]; exact h.flight,
      by rw [pending]; exact h.one⟩
  | refresh d free issued pending flight =>
    -- No refresh was in flight.
    have hnone : ∀ i d', (i, .refresh d') ∉ p.pending := by
      intro i d' hi
      rw [h.flight i d' hi] at free
      cases free
    refine ⟨?_, fun _ _ _ => flight, ?_⟩
    · intro i awaiting hi
      rw [pending, List.mem_append, List.mem_singleton] at hi
      rw [issued]
      rcases hi with hold | hnew
      · have hlt := List.getElem?_eq_some_iff.mp (h.action i awaiting hold)
        rw [List.getElem?_append_left hlt.1]
        exact h.action i awaiting hold
      · cases hnew
        simp [Awaiting.action]
    · intro i j d' d'' hi hj
      rw [pending, List.mem_append, List.mem_singleton] at hi hj
      rcases hi with hold | hnew
      · exact absurd hold (hnone i d')
      · rcases hj with hold | hnew'
        · exact absurd hold (hnone j d'')
        · cases hnew
          cases hnew'
          rfl
  | stop next issued pending flight =>
    have hold : ∀ i d, (i, .refresh d) ∈ p'.pending → (i, .refresh d) ∈ p.pending := by
      intro i d hi
      rw [pending, List.mem_append, List.mem_singleton] at hi
      rcases hi with hold | hnew
      · exact hold
      · cases hnew
    refine ⟨?_, ?_, fun i j d d' hi hj => h.one i j d d' (hold i d hi) (hold j d' hj)⟩
    · intro i awaiting hi
      rw [pending, List.mem_append, List.mem_singleton] at hi
      rw [issued]
      rcases hi with hold | hnew
      · have hlt := List.getElem?_eq_some_iff.mp (h.action i awaiting hold)
        rw [List.getElem?_append_left hlt.1]
        exact h.action i awaiting hold
      · cases hnew
        simp [Awaiting.action]
    · intro i d hi
      rw [flight]
      exact h.flight i d (hold i d hi)

theorem Recorded.step {p p' : Panel} {e : Event} (h : Recorded p) (hstep : step p e = some p') :
    Recorded p' := by
  have hsends := sends_of_step hstep
  cases e with
  | settle request _ => exact (h.settled request).sends hsends
  | press _ _ => exact h.sends hsends
  | release _ => exact h.sends hsends
  | blur => exact h.sends hsends
  | stopButton => exact h.sends hsends
  | tick _ => exact h.sends hsends

/-- A new request is pending, and no other promise gets lost. -/
theorem Sends.unsettled {p p' : Panel} (h : Sends p p') {i : ℕ} (hi : i < p'.issued.length)
    (hsettled : ∀ awaiting, (i, awaiting) ∉ p'.pending) :
    i < p.issued.length ∧ ∀ awaiting, (i, awaiting) ∉ p.pending := by
  have hgrown : ∀ action awaiting, p'.issued = p.issued ++ [action] →
      p'.pending = p.pending ++ [(p.issued.length, awaiting)] →
      i < p.issued.length ∧ ∀ awaiting, (i, awaiting) ∉ p.pending := by
    intro action awaiting hissued hpending
    rw [hpending] at hsettled
    refine ⟨?_, fun a ha => hsettled a (List.mem_append_left _ ha)⟩
    rw [hissued, List.length_append, List.length_singleton] at hi
    refine lt_of_le_of_ne (Nat.lt_succ_iff.mp hi) ?_
    rintro rfl
    exact hsettled awaiting (by simp)
  cases h with
  | nothing issued pending _ =>
    rw [issued] at hi
    rw [pending] at hsettled
    exact ⟨hi, hsettled⟩
  | refresh d _ issued pending _ => exact hgrown _ _ issued pending
  | stop next issued pending _ => exact hgrown _ _ issued pending

/-! ## Runs -/

/-- A task that has ended stays so. -/
theorem finished_of_step {pool pool' : DeskPool} {l : DeskLabel} (hk : DeskKept settings pool)
    (h : Coroutine.step (deskSystem settings) pool l = some pool') {t : ℕ} {job : Job}
    {r : Reply deskSignature} (ht : pool.mem.shape t = some (job, .finished r)) :
    pool'.mem.shape t = some (job, .finished r) := by
  have hlt := lt_count_of_shape hk.absent ht
  have hstepped := (stepped_of_step (verified settings) hk h).2
  generalize pool'.mem = m' at hstepped
  cases hstepped with
  | call _ =>
    rw [Mem.shape_spawn, if_neg hlt.ne]
    exact ht
  | cancel u =>
    rw [(sameButCancelled_cancel pool.mem u).shape]
    exact ht
  | @drop u _ _ htask =>
    have hready := Mem.shape_eq_some.mpr ⟨_, htask⟩
    rw [Mem.shape_finish hready, if_neg ?_]
    · exact ht
    · rintro rfl
      rw [ht] at hready
      cases hready
  | @run u _ _ p q hsegment =>
    rw [hsegment.elsewhere.shape t ?_ hlt]
    · exact ht
    · rintro rfl
      have henabled := hsegment.wakes.enabled
      rw [hsegment.start, hsegment.task, ht] at henabled
      rcases henabled with h | h | ⟨w, h⟩ <;> cases h

theorem finished_of_outcome {m : Memory} {t : ℕ} {r : Reply deskSignature}
    (h : m.outcome t = some r) : ∃ job r', m.shape t = some (job, .finished r') := by
  unfold Mem.outcome at h
  split at h
  · next job r' c htask => exact ⟨job, r', Mem.shape_eq_some.mpr ⟨c, htask⟩⟩
  · cases h

/-- A task that has ended does not run. -/
theorem not_finished_of_run {pool pool' : DeskPool} {t : ℕ} {env : ℕ → Reading}
    (h : Coroutine.step (deskSystem settings) pool (.run t env) = some pool') {job : Job}
    {r : Reply deskSignature} : pool.mem.shape t ≠ some (job, .finished r) := by
  intro ht
  obtain ⟨c, htask⟩ := Mem.shape_eq_some.mp ht
  simp [Coroutine.step, htask] at h


/-- A request that was refused, or served by a task that has ended. -/
def Ended (s : Session) (i : ℕ) : Prop :=
  ∃ task, s.served.lookup i = some task ∧
    ∀ t, task = some t → ∃ job r, s.desk.mem.shape t = some (job, .finished r)

/-- What a run of the session keeps. -/
structure SessionKept (settings : DeskSettings) (s : Session) : Prop where
  desk : DeskKept settings s.desk
  recorded : Recorded s.panel
  ended : ∀ i, i < s.panel.issued.length → (∀ awaiting, (i, awaiting) ∉ s.panel.pending) →
    i ∉ s.lost → Ended s i

theorem lookup_cons_of_none {i request : ℕ} {task task' : Option ℕ} {served : List (ℕ × Option ℕ)}
    (hnone : served.lookup request = none) (hi : served.lookup i = some task) :
    ((request, task') :: served).lookup i = some task := by
  have hne : (i == request) = false := by
    rw [beq_eq_false_iff_ne]
    rintro rfl
    rw [hnone] at hi
    cases hi
  rw [List.lookup_cons, hne]
  exact hi

/-- A step is one of the panel, whose promises are settled by requests that have ended, or
one of the server. -/
inductive SessionChange (settings : DeskSettings) (s s' : Session) (press : Bool) : Prop where
  | panel (e : Event) (isPress : e.isPress = press) (stepped : step s.panel e = some s'.panel)
      (ended : ∀ i outcome, e = .settle i outcome → Ended s i ∨ i ∈ s'.lost)
      (desk : s'.desk = s.desk) (served : s'.served = s.served) (lost : s.lost ⊆ s'.lost)
  | server (panel : s'.panel = s.panel) (lost : s'.lost = s.lost)
      (desk : s'.desk = s.desk ∨ ∃ l, Coroutine.step (deskSystem settings) s.desk l = some s'.desk)
      (served : ∀ i task, s.served.lookup i = some task → s'.served.lookup i = some task)

theorem sessionChange {s s' : Session} {e : SessionEvent}
    (h : sessionStep settings s e = some s') : SessionChange settings s s' e.isPress := by
  cases e with
  | panel e =>
    have hplain : ∀ i outcome, e ≠ .settle i outcome := by
      rintro i outcome rfl
      cases h
    have hstep : (step s.panel e).map (fun p => { s with panel := p }) = some s' := by
      cases e <;> first | exact h | cases h
    obtain ⟨p, hp, rfl⟩ := Option.map_eq_some_iff.mp hstep
    exact .panel e rfl hp (fun i outcome he => absurd he (hplain i outcome)) rfl rfl
      (List.Subset.refl _)
  | arrive request ready =>
    simp only [sessionStep] at h
    split at h
    · next action _ hnone =>
      split at h
      · cases h
        exact .server rfl rfl (.inl rfl) fun i task hi => lookup_cons_of_none hnone hi
      · obtain ⟨pool, hpool, rfl⟩ := Option.map_eq_some_iff.mp h
        exact .server rfl rfl (.inr ⟨_, hpool⟩) fun i task hi => lookup_cons_of_none hnone hi
    · cases h
  | desk l =>
    obtain ⟨pool, hpool, rfl⟩ := Option.map_eq_some_iff.mp h
    exact .server rfl rfl (.inr ⟨l, hpool⟩) fun _ _ hi => hi
  | reply request =>
    simp only [sessionStep] at h
    split at h
    · cases h
    · next hserved =>
      obtain ⟨p, hp, rfl⟩ := Option.map_eq_some_iff.mp h
      refine .panel (.settle request .failed) rfl hp ?_ rfl rfl (List.Subset.refl _)
      rintro i outcome he
      cases he
      exact .inl ⟨none, hserved, fun t ht => by cases ht⟩
    · next t hserved =>
      split at h
      · cases h
      · next r houtcome =>
        obtain ⟨p, hp, rfl⟩ := Option.map_eq_some_iff.mp h
        refine .panel (.settle request (answered r)) rfl hp ?_ rfl rfl (List.Subset.refl _)
        rintro i outcome he
        cases he
        refine .inl ⟨some t, hserved, fun t' ht => ?_⟩
        cases ht
        exact finished_of_outcome houtcome
  | lose request =>
    obtain ⟨p, hp, rfl⟩ := Option.map_eq_some_iff.mp h
    refine .panel (.settle request .failed) rfl hp ?_ rfl rfl (List.subset_cons_self _ _)
    rintro i outcome he
    cases he
    exact .inr (by simp)

/-- The controller stays safe. -/
theorem SessionChange.desk_kept {s s' : Session} {press : Bool} (h : SessionChange settings s s' press)
    (hk : DeskKept settings s.desk) : DeskKept settings s'.desk := by
  cases h with
  | panel _ _ _ _ desk _ _ =>
    rw [desk]
    exact hk
  | server _ _ desk _ =>
    rcases desk with hsame | ⟨l, hl⟩
    · rw [hsame]
      exact hk
    · exact (stepped_of_step (verified settings) hk hl).1

/-- A request that has ended stays so. -/
theorem SessionChange.ended {s s' : Session} {press : Bool} (h : SessionChange settings s s' press)
    (hk : DeskKept settings s.desk) {i : ℕ} (hi : Ended s i) : Ended s' i := by
  obtain ⟨task, hserved, hended⟩ := hi
  cases h with
  | panel _ _ _ _ desk served _ =>
    refine ⟨task, by rw [served]; exact hserved, ?_⟩
    rw [desk]
    exact hended
  | server _ _ desk served =>
    refine ⟨task, served i task hserved, fun t ht => ?_⟩
    obtain ⟨job, r, hfinished⟩ := hended t ht
    rcases desk with hsame | ⟨l, hl⟩
    · exact ⟨job, r, by rw [hsame]; exact hfinished⟩
    · exact ⟨job, r, finished_of_step hk hl hfinished⟩

theorem SessionKept.step {s s' : Session} {e : SessionEvent} (h : SessionKept settings s)
    (hstep : sessionStep settings s e = some s') : SessionKept settings s' := by
  have hchange := sessionChange hstep
  refine ⟨hchange.desk_kept h.desk, ?_, fun i hi hsettled hlost => ?_⟩
  · cases hchange with
    | panel _ _ stepped _ _ _ _ => exact h.recorded.step stepped
    | server panel _ _ _ =>
      rw [panel]
      exact h.recorded
  · cases hchange with
    | panel e' _ stepped ended _ _ lost =>
      have hlost' : i ∉ s.lost := fun hmem => hlost (lost hmem)
      obtain ⟨hlt, hfound⟩ := (sends_of_step stepped).unsettled hi hsettled
      refine (sessionChange hstep).ended h.desk ?_
      cases e' with
      | settle j outcome =>
        by_cases hij : i = j
        · subst hij
          exact (ended i outcome rfl).resolve_right hlost
        · refine h.ended i hlt (fun awaiting hmem => hfound awaiting ?_) hlost'
          exact List.mem_filter.mpr ⟨hmem, by simpa using hij⟩
      | press _ _ => exact h.ended i hlt hfound hlost'
      | release _ => exact h.ended i hlt hfound hlost'
      | blur => exact h.ended i hlt hfound hlost'
      | stopButton => exact h.ended i hlt hfound hlost'
      | tick _ => exact h.ended i hlt hfound hlost'
    | server panel lost _ _ =>
      rw [panel] at hi hsettled
      rw [lost] at hlost
      exact (sessionChange hstep).ended h.desk (h.ended i hi hsettled hlost)

theorem sessionKept_opened (settings : DeskSettings) (now : Instant) :
    SessionKept settings (opened settings now) where
  desk := kept_start _
  recorded := ⟨by simp [opened, mounted], by simp [opened, mounted], by simp [opened, mounted]⟩
  ended := fun i hi => absurd hi (Nat.not_lt_zero i)

/-! ## After a release -/

/-- Requests are only added. -/
theorem Sends.issued {p p' : Panel} (h : Sends p p') : p.issued <+: p'.issued := by
  cases h with
  | nothing issued _ _ => exact ⟨[], by rw [issued, List.append_nil]⟩
  | refresh d _ issued _ _ => exact ⟨_, issued.symm⟩
  | stop next issued _ _ => exact ⟨_, issued.symm⟩

theorem issued_of_step {p p' : Panel} {e : Event} (h : step p e = some p') :
    p.issued <+: p'.issued := by
  have hsent := (sends_of_step h).issued
  cases e <;> exact hsent

theorem issued_of_sessionStep {m m' : Session} {e : SessionEvent}
    (h : sessionStep settings m e = some m') : m.panel.issued <+: m'.panel.issued := by
  cases sessionChange h with
  | panel _ _ stepped _ _ _ _ => exact issued_of_step stepped
  | server panel _ _ _ => exact panel ▸ List.prefix_refl _

/-- What has ended and what was sent at `s` is so at `m`. -/
structure SessionSince (settings : DeskSettings) (s m : Session) : Prop where
  desk : DeskKept settings m.desk
  issued : s.panel.issued <+: m.panel.issued
  ended : ∀ i, Ended s i → Ended m i

theorem SessionSince.step {s m m' : Session} {e : SessionEvent} (h : SessionSince settings s m)
    (hstep : sessionStep settings m e = some m') : SessionSince settings s m' := by
  have hchange := sessionChange hstep
  exact ⟨hchange.desk_kept h.desk, h.issued.trans (issued_of_sessionStep hstep),
    fun i hi => hchange.ended h.desk (h.ended i hi)⟩

/-- What holds after a release at `r`, without a press. -/
structure AfterRelease (r m : Session) : Prop where
  dormant : Dormant m.panel
  lull : Lull r.panel m.panel

theorem AfterRelease.step {r m m' : Session} {e : SessionEvent} (h : AfterRelease r m)
    (hpress : e.isPress = false) (hstep : sessionStep settings m e = some m') :
    AfterRelease r m' := by
  have hchange := sessionChange hstep
  rw [hpress] at hchange
  cases hchange with
  | panel _ isPress stepped _ _ _ _ =>
    obtain ⟨hdormant, hlull⟩ := h.dormant.step isPress stepped
    exact ⟨hdormant, h.lull.trans hlull⟩
  | server panel _ _ _ =>
    exact ⟨by rw [panel]; exact h.dormant, by rw [panel]; exact h.lull⟩

/-- `stopHolding` leaves the panel dormant, unless a press is waiting for a STOP. -/
theorem dormant_stopHolding {p : Panel}
    (hwaits : ∀ promise ∈ p.pending, ∀ d, promise.2 ≠ .stopHolding (some d)) :
    Dormant (p.stopHolding false none) ∧ ∃ new, (p.stopHolding false none).issued = p.issued ++ new ∧
      ∀ action ∈ new, action = .stop := by
  rcases stopHolding_cases false none p with ⟨hnone, heq⟩ | heq
  · rw [heq]
    exact ⟨⟨by simpa using hnone, by simpa using hwaits⟩, [], by simp⟩
  · rw [heq]
    refine ⟨⟨rfl, fun promise hpromise d => ?_⟩, [.stop], by simp [request]⟩
    simp only [request, clear_pending, List.mem_append, List.mem_singleton] at hpromise
    rcases hpromise with hold | rfl
    · exact hwaits promise hold d
    · simp

/-- Among requests that were followed by STOPs only, a HOLD is one of the first. -/
theorem getElem?_of_hold {first new : List Action} {i : ℕ} {d : Direction}
    (hnew : ∀ action ∈ new, action = .stop) (h : (first ++ new)[i]? = some (.hold d)) :
    first[i]? = some (.hold d) := by
  by_cases hlt : i < first.length
  · rwa [List.getElem?_append_left hlt] at h
  · rw [List.getElem?_append_right (not_lt.mp hlt)] at h
    cases hnew _ (List.mem_of_getElem? h)

/-- The HOLD request `i` was sent after a press in the run. -/
def SentAfterPress (settings : DeskSettings) (r : Session) (after : List SessionEvent) (i : ℕ) :
    Prop :=
  ∃ first press rest m, after = first ++ press :: rest ∧ press.isPress = true ∧
    Transition.exec (sessionStep settings) r first = some m ∧ m.panel.issued.length ≤ i

/-- Without a press that waits, a HOLD that was sent after the release was sent after a press. -/
theorem sentAfterPress {s r s' : Session} {after : List SessionEvent} {d d' : Direction} {i : ℕ}
    (hwaits : ∀ promise ∈ s.panel.pending, ∀ d', promise.2 ≠ .stopHolding (some d'))
    (hrelease : sessionStep settings s (.panel (.release d)) = some r)
    (hafter : Transition.exec (sessionStep settings) r after = some s')
    (hhold : s'.panel.issued[i]? = some (.hold d')) (hi : s.panel.issued.length ≤ i) :
    SentAfterPress settings r after i := by
  obtain ⟨hdormant, first, hfirst, hstops⟩ := dormant_stopHolding hwaits
  have hbegin : AfterRelease r r := by
    cases hrelease
    exact ⟨⟨hdormant.1, hdormant.2⟩, .refl _⟩
  have hsent : r.panel.issued = s.panel.issued ++ first := by
    cases hrelease
    exact hfirst
  -- Up to the first press only STOPs are sent.
  have hquiet : ∀ quiet m, (∀ e ∈ quiet, e.isPress = false) →
      Transition.exec (sessionStep settings) r quiet = some m →
      m.panel.issued[i]? ≠ some (.hold d') := by
    intro quiet m hpress hm hsome
    have hend : AfterRelease r m := Transition.invariant_of_meets
      (fun _ _ _ h hok hs => h.step hok.1 hs) hbegin
      ((Transition.meets_true r quiet).and_labels hpress) hm
    obtain ⟨new, hnew, hstops'⟩ := hend.lull.issued
    rw [hnew] at hsome
    have hreleased := getElem?_of_hold hstops' hsome
    rw [hsent] at hreleased
    obtain ⟨hlt, _⟩ := List.getElem?_eq_some_iff.mp (getElem?_of_hold hstops hreleased)
    omega
  cases hfind : after.find? (·.isPress) with
  | none =>
    refine absurd hhold (hquiet after s' (fun e he => ?_) hafter)
    simpa using List.find?_eq_none.mp hfind e he
  | some press =>
    obtain ⟨hpress, quiet, rest, rfl, hbefore⟩ := List.find?_eq_some_iff_append.mp hfind
    obtain ⟨m, hm, hrest⟩ := Transition.exec_append.mp hafter
    refine ⟨quiet, press, rest, m, rfl, hpress, hm, ?_⟩
    by_contra hlt
    have hlt : i < m.panel.issued.length := not_le.mp hlt
    have hgrown : m.panel.issued <+: s'.panel.issued := Transition.invariant
      (I := fun n : Session => m.panel.issued <+: n.panel.issued)
      (fun _ _ _ h hs => h.trans (issued_of_sessionStep hs)) (List.prefix_refl _) hrest
    refine hquiet quiet m (fun e he => by simpa using hbefore e he) hm ?_
    obtain ⟨new, hnew⟩ := hgrown
    rw [← hnew, List.getElem?_append_left hlt] at hhold
    exact hhold

/-- **What moves the desk after a release.**  Of the HOLDs that were sent before, at most one:
the refresh whose answer the dashboard was waiting for, if no answer was lost.  Every other
HOLD was sent after a later press, unless a press was waiting for a STOP at the release. -/
theorem moves_after_release {now : Instant} {before after : List SessionEvent} {s r s' : Session}
    {e : SessionEvent} {d : Direction} {i : ℕ}
    (hbefore : Transition.exec (sessionStep settings) (opened settings now) before = some s)
    (hrelease : sessionStep settings s (.panel (.release d)) = some r)
    (hafter : Transition.exec (sessionStep settings) r after = some s')
    (hmoves : Moves settings s' e i) :
    (i < s.panel.issued.length → i ∈ s.lost ∨ ∃ d', (i, .refresh d') ∈ s.panel.pending ∧
      ∀ j d'', (j, .refresh d'') ∈ s.panel.pending → j = i) ∧
    (s.panel.issued.length ≤ i → SentAfterPress settings r after i ∨
      ∃ promise ∈ s.panel.pending, ∃ d', promise.2 = .stopHolding (some d')) := by
  obtain ⟨t, env, d', s'', rfl, hserved, hhold, hrun, _⟩ := hmoves
  refine ⟨fun hi => ?_, fun hi => ?_⟩
  · have hkept : SessionKept settings s :=
      Transition.invariant (fun _ _ _ h hs => h.step hs) (sessionKept_opened settings now) hbefore
    have hsince : SessionSince settings s s' := Transition.invariant (fun _ _ _ h hs => h.step hs)
      (SessionSince.step ⟨hkept.desk, List.prefix_refl _, fun _ h => h⟩ hrelease) hafter
    have hissued : s.panel.issued[i]? = some (.hold d') := by
      obtain ⟨new, hnew⟩ := hsince.issued
      rw [← hnew, List.getElem?_append_left hi] at hhold
      exact hhold
    obtain ⟨pool, hpool, _⟩ := Option.map_eq_some_iff.mp hrun
    -- It has not ended, since its task runs.
    have hnot : ¬ Ended s i := by
      intro hended
      obtain ⟨task, htask, hfinished⟩ := hsince.ended i hended
      rw [hserved] at htask
      obtain ⟨job, reply, hshape⟩ := hfinished t (Option.some.inj htask).symm
      exact not_finished_of_run hpool hshape
    by_cases hlost : i ∈ s.lost
    · exact .inl hlost
    · obtain ⟨awaiting, hpending⟩ : ∃ awaiting, (i, awaiting) ∈ s.panel.pending := by
        by_contra hnone
        exact hnot (hkept.ended i hi (fun awaiting hmem => hnone ⟨awaiting, hmem⟩) hlost)
      have haction := hkept.recorded.action i awaiting hpending
      rw [hissued] at haction
      cases awaiting with
      | refresh d'' =>
        exact .inr ⟨d'', hpending, fun j d₂ hj => hkept.recorded.one j i d₂ d'' hj hpending⟩
      | stopHolding next => cases haction
  · by_cases hwaits : ∃ promise ∈ s.panel.pending, ∃ d', promise.2 = .stopHolding (some d')
    · exact .inr hwaits
    · refine .inl (sentAfterPress (fun promise hpromise d'' heq => ?_) hrelease hafter hhold hi)
      exact hwaits ⟨promise, hpromise, d'', heq⟩

/-- The refresh is served after all, and UP is pressed again. -/
def pressedAgain : List SessionEvent :=
  overtaken ++ [lateRefresh, .reply 1, .reply 2, .panel (.press .up true), .arrive 3 true]

/-- The refresh of the second press is served. -/
def nextRefresh : SessionEvent := .desk (.run 6 fun _ => readingAt 4)

/-- A HOLD of a press after the release moves the desk. -/
theorem movedAgain {s r : Session}
    (hbefore : Transition.exec (sessionStep .default) (opened .default 0) pressedUp = some s)
    (hrelease : sessionStep .default s (.panel (.release .up)) = some r) :
    ∃ s', Transition.exec (sessionStep .default) r pressedAgain = some s' ∧
      Moves .default s' nextRefresh 3 := by
  have hrun : ((Transition.exec (sessionStep .default) (opened .default 0) pressedUp).bind fun s =>
      (sessionStep .default s (.panel (.release .up))).bind fun r =>
      (Transition.exec (sessionStep .default) r pressedAgain).bind fun s' =>
      (sessionStep .default s' nextRefresh).map fun s'' =>
        decide (s'.served.lookup 3 = some (some 6) ∧ s'.panel.issued[3]? = some (.hold .up) ∧
          s''.desk.mem.vars.desk.control.mode = .manual ∧
            s''.desk.mem.vars.desk.lastHoldAt ≠ s'.desk.mem.vars.desk.lastHoldAt)) =
      some true := by
    decide +kernel
  rw [hbefore, Option.bind_some, hrelease, Option.bind_some] at hrun
  obtain ⟨s', hs', hrun⟩ := Option.bind_eq_some_iff.mp hrun
  obtain ⟨s'', hs'', hstate⟩ := Option.map_eq_some_iff.mp hrun
  obtain ⟨hserved, hhold, hmanual, hlast⟩ := of_decide_eq_true hstate
  exact ⟨s', hs', 6, _, .up, s'', rfl, hserved, hhold, hs'', hmanual, .inr hlast⟩

/-- The refresh that overtakes the STOP was in flight at the release, and the next HOLD was
sent after the next press. -/
theorem moves_after_release_late : ∃ s r,
    Transition.exec (sessionStep .default) (opened .default 0) pressedUp = some s ∧
      s.panel.issued.length = 2 ∧
      (1 < s.panel.issued.length → 1 ∈ s.lost ∨ ∃ d', (1, .refresh d') ∈ s.panel.pending ∧
        ∀ j d'', (j, .refresh d'') ∈ s.panel.pending → j = 1) ∧
      (s.panel.issued.length ≤ 3 → SentAfterPress .default r pressedAgain 3 ∨
        ∃ promise ∈ s.panel.pending, ∃ d', promise.2 = .stopHolding (some d')) := by
  obtain ⟨s, r, s', h⟩ := movedLate
  obtain ⟨s'', hagain, hmoves⟩ := movedAgain h.before h.release
  exact ⟨s, r, h.before, h.issued, (moves_after_release h.before h.release h.after h.moves).1,
    (moves_after_release h.before h.release hagain hmoves).2⟩

end SmartDesk.Dashboard
